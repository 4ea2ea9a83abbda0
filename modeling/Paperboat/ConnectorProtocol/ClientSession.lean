import Paperboat.ConnectorProtocol.Opening
import Paperboat.ConnectorProtocol.ServerSession

/-! The connector's half of a session. A call that gives up the session lock, to
prepare or activate a configuration or to ask the runtime to drain, is one function
for each section it runs under the lock; the rest are one function each. A section
that lets the call go on returns `.ok`, one that ends it the reply. -/

namespace Paperboat.ConnectorProtocol

/-- A prepared configuration, numbered in the order the applier returned them. -/
abbrev Handle := ℕ

/-- What a call returns; an error may come with a value. -/
structure Reply (β : Type) where
  value : Option β := none
  error : Option Error := none

namespace Reply

variable {β : Type}

def ok (b : β) : Reply β := ⟨some b, none⟩

def fail (err : Error) : Reply β := ⟨none, some err⟩

def failWith (b : β) (err : Error) : Reply β := ⟨some b, some err⟩

end Reply

/-- The welcome of a session that has none yet. -/
def noWelcome : Welcome := ⟨"", "", "", [], ⟨"", 0, 0⟩, false, 0⟩

structure ClientSession where
  /-- The configured hello; it never changes. -/
  hello : Hello
  welcome : Welcome := noWelcome
  state : SessionState := .new
  lease : Lease := ⟨"", 0, 0⟩
  auth : AuthRequest
  active : Snapshot := {}
  hasActive : Bool := false
  candidate : Snapshot := {}
  hasCandidate : Bool := false
  prepared : Option Handle := none
  needsSnapshot : Bool := false
  readyGeneration : UInt64 := 0
  lastHeartbeatAck : Time := 0
  drain : Option Drain := none
  drainStatus : Option DrainStatus := none
  drainCode : Option Code := none
  drainCompleted : Bool := false
  activeStreams : ℕ := 0
  disconnectReason : Option DisconnectReason := none

namespace ClientSession

variable (c : ClientSession) (cancelled : Bool) (now : Time) (request : Drain)

def new (hello : Hello) : Except Error ClientSession := do
  hello.validate now
  return { hello := hello, auth := hello.auth }

/-- The clock is read once for the check and once for the heartbeat timer. -/
def acceptWelcome (now later : Time) (welcome : Welcome) : Except Error Unit × ClientSession :=
  match welcome.validate now with
  | .error err => (.error err, c)
  | .ok () =>
    if c.state ≠ .new then (.error (codeError .sessionConflict .protocolClosed false), c)
    else if welcome.version ≠ protocolVersion ∨ welcome.protocol ≠ protocolName then
      (.error (codeError .protocolIncompatible .protocolMismatch false), c)
    else match negotiateVersion c.hello.minVersion c.hello.maxVersion with
      | .error err => (.error err, c)
      | .ok _ => match negotiateCapabilities c.hello.capabilities welcome.capabilities with
        | .error err => (.error err, c)
        | .ok _ => (.ok (), { c with
            welcome := welcome, lease := welcome.lease, state := .awaitingSnapshot,
            lastHeartbeatAck := later })

/-- The lease or the heartbeat timer of a running session has run out. -/
def expiry : Option (Code × DisconnectReason) :=
  if c.lease.expiresAt ≤ now then some (.leaseExpired, .leaseExpired)
  else if c.lastHeartbeatAck ≠ 0 ∧
      2 * (c.lease.heartbeatIntervalMS * millisecond) < now - c.lastHeartbeatAck then
    some (.heartbeatTimeout, .heartbeatTimeout)
  else none

/-- The liveness check. Expiry closes the session and touches nothing else. -/
def ensureActive : Option Error × ClientSession :=
  if c.state = .closed then (some ⟨.sessionClosed, c.disconnectReason, false⟩, c)
  else if c.state = .new then (some (codeError .sessionConflict .protocolClosed false), c)
  else match c.expiry now with
    | some (code, reason) =>
      (some (codeError code reason true),
        { c with state := .closed, disconnectReason := some reason })
    | none => (none, c)

/-- Run a section behind the liveness check. -/
def guarded {β γ : Type}
    (body : Except (Reply β) γ × ClientSession) : Except (Reply β) γ × ClientSession :=
  match c.ensureActive now with
  | (some err, c') => (.error (.fail err), c')
  | (none, _) => body

/-- The same for a call of one section. -/
def answering {β : Type} (body : Reply β × ClientSession) : Reply β × ClientSession :=
  match c.ensureActive now with
  | (some err, c') => (.fail err, c')
  | (none, _) => body

def restoreState : ClientSession :=
  if c.hasActive && c.readyGeneration == c.active.generation && !c.needsSnapshot then
    { c with state := .ready }
  else if c.hasCandidate then { c with state := .awaitingReady }
  else { c with state := .awaitingSnapshot }

def makeAck (kind : AckKind) (status : AckStatus) (generation : UInt64)
    (contentHash : String) : Ack where
  accountID := c.hello.accountID
  tunnelID := c.hello.tunnelID
  connectorID := c.hello.connectorID
  sessionID := c.welcome.sessionID
  processGeneration := c.hello.processGeneration
  kind := kind
  status := status
  generation := generation
  contentHash := contentHash

/-- A message is addressed to this session. -/
def addressed (accountID tunnelID connectorID sessionID : String)
    (processGeneration : ℕ) : Bool :=
  accountID == c.hello.accountID && tunnelID == c.hello.tunnelID &&
    connectorID == c.hello.connectorID && sessionID == c.welcome.sessionID &&
    processGeneration == c.hello.processGeneration

/-! ### Applying a configuration -/

/-- The newest configuration, staged or active. -/
def newest : Option Snapshot :=
  if c.hasCandidate then some c.candidate else if c.hasActive then some c.active else none

/-- `ApplySnapshot` up to the applier. -/
def applySnapshotCheck (rules : PayloadRules) (c : ClientSession) (now : Time)
    (snapshot : Snapshot) : Except (Reply Ack) Unit × ClientSession :=
  match snapshot.validate rules with
  | .error _ => (.error (.fail (codeError .snapshotRejected .snapshotRejected false)), c)
  | .ok () => c.guarded now <|
    if (snapshot.validateBound rules).toOption.isNone || !c.addressed snapshot.accountID
        snapshot.tunnelID snapshot.connectorID snapshot.sessionID snapshot.processGeneration then
      (.error (.fail (codeError .identityMismatch .authentication false)), c)
    else match c.newest with
      | none => (.ok (), c)
      | some current =>
        if snapshot.generation < current.generation then
          (.error (.fail (codeError .staleGeneration .staleGeneration false)), c)
        else if snapshot.generation = current.generation then
          if snapshot.contentHash = current.contentHash then
            (.error (.ok (c.makeAck .snapshot .duplicate snapshot.generation
              snapshot.contentHash)), c)
          else (.error (.fail (codeError .contentHashMismatch .snapshotRejected false)), c)
        else (.ok (), c)

/-- `ApplySnapshot` after the applier. A failure leaves the new handle to be aborted. -/
def applySnapshotStage (snapshot : Snapshot)
    (prepared : Handle) : Except (Reply Ack) Ack × ClientSession :=
  c.guarded now <|
    if c.hasCandidate && c.prepared.isSome then
      (.error (.fail (codeError .generationGap .generationGap true)), c)
    else
      let bound := { snapshot with
        accountID := c.hello.accountID, connectorID := c.hello.connectorID,
        sessionID := c.welcome.sessionID, processGeneration := c.hello.processGeneration }
      (.ok (c.makeAck .snapshot .applied snapshot.generation snapshot.contentHash),
        { c with
          candidate := bound, hasCandidate := true, prepared := some prepared,
          needsSnapshot := false, readyGeneration := 0, state := .awaitingReady })

def snapshotRequired (delta : Delta) (code : Code) : Reply Ack :=
  .failWith (c.makeAck .delta .snapshotRequired delta.generation delta.contentHash)
    (codeError code .generationGap true)

/-- `ApplyDelta` up to the applier. -/
def applyDeltaCheck (rules : PayloadRules) (c : ClientSession) (now : Time) (delta : Delta) :
    Except (Reply Ack) Unit × ClientSession :=
  match delta.validate rules with
  | .error _ => (.error (.fail (codeError .deltaRejected .generationGap false)), c)
  | .ok () => c.guarded now <|
    if (delta.validateBound rules).toOption.isNone || !c.addressed delta.accountID delta.tunnelID
        delta.connectorID delta.sessionID delta.processGeneration then
      (.error (.fail (codeError .identityMismatch .authentication false)), c)
    else if !c.hasActive || c.needsSnapshot || c.hasCandidate then
      (.error (c.snapshotRequired delta .snapshotRequired), c)
    else if delta.previousGeneration = c.active.generation ∧
        delta.previousContentHash = c.active.contentHash then
      if delta.generation ≠ c.active.generation + 1 then
        (.error (c.snapshotRequired delta .generationGap), { c with needsSnapshot := true })
      else (.ok (), c)
    else if delta.generation ≤ c.active.generation then
      (.error (.fail (codeError .staleGeneration .staleGeneration false)), c)
    else (.error (c.snapshotRequired delta .generationGap), { c with needsSnapshot := true })

/-- `ApplyDelta` after the applier. -/
def applyDeltaStage (delta : Delta) (prepared : Handle) : Except (Reply Ack) Ack × ClientSession :=
  c.guarded now <|
    if c.hasCandidate && c.prepared.isSome then
      (.error (.fail (codeError .generationGap .generationGap true)), c)
    else
      let candidate : Snapshot :=
        { accountID := c.hello.accountID, tunnelID := delta.tunnelID,
          connectorID := c.hello.connectorID, sessionID := c.welcome.sessionID,
          processGeneration := c.hello.processGeneration, generation := delta.generation,
          contentHash := delta.contentHash, payload := delta.payload }
      (.ok (c.makeAck .delta .applied delta.generation delta.contentHash),
        { c with
          candidate := candidate, hasCandidate := true, prepared := some prepared,
          readyGeneration := 0, state := .awaitingReady })

/-! ### Activation -/

/-- What `MarkReadyContext` keeps while it activates without the lock. -/
structure Activation where
  prepared : Handle
  candidate : Snapshot
  readiness : Readiness

/-- `MarkReadyContext` up to the activation; the context is looked at after the
lock was given up. -/
def markReadyCheck
    (edgeReady routeReady originReady : Bool) : Except (Reply Readiness) Activation × ClientSession :=
  c.guarded now <|
    if !c.hasCandidate then
      (.error (.fail (codeError .snapshotRequired .generationGap true)), c)
    else
      let readiness : Readiness :=
        { accountID := c.hello.accountID, sessionID := c.welcome.sessionID,
          tunnelID := c.hello.tunnelID, connectorID := c.hello.connectorID,
          processGeneration := c.hello.processGeneration, generation := c.candidate.generation,
          contentHash := c.candidate.contentHash, edgeReady := edgeReady,
          routeReady := routeReady, originReady := originReady }
      if !edgeReady || !routeReady || !originReady then
        (.error (.failWith readiness (codeError .notReady .snapshotRejected true)), c)
      else if cancelled then
        (.error (.failWith readiness (codeError .canceled .canceled true)), c)
      else match c.prepared with
        | none =>
          (.error (.failWith readiness (codeError .snapshotRejected .snapshotRejected false)), c)
        | some prepared => (.ok ⟨prepared, c.candidate, readiness⟩, c)

/-- The candidate is still the one that was to be activated. -/
def holds (candidate : Snapshot) : Bool :=
  c.hasCandidate && c.candidate.generation == candidate.generation &&
    c.candidate.contentHash == candidate.contentHash

/-- `MarkReadyContext` after an activation that failed and was aborted. There is
no liveness check here. -/
def markReadyFailed (a : Activation) : Reply Readiness × ClientSession :=
  (.failWith a.readiness (if cancelled then codeError .canceled .canceled true
      else codeError .snapshotRejected .snapshotRejected false),
    if c.holds a.candidate then
      restoreState { c with
        candidate := {}, hasCandidate := false, prepared := none, needsSnapshot := true }
    else c)

/-- `MarkReadyContext` after a successful activation. -/
def markReadyFinish (a : Activation) : Except (Reply Readiness) Readiness × ClientSession :=
  match c.ensureActive now with
  | (some err, c') => (.error (.failWith a.readiness err), c')
  | (none, _) =>
    if !c.holds a.candidate then
      (.error (.failWith a.readiness (codeError .sessionConflict .staleGeneration true)), c)
    else
      (.ok a.readiness, { c with
        active := c.candidate, hasActive := true, candidate := {}, hasCandidate := false,
        prepared := none, needsSnapshot := false, readyGeneration := c.candidate.generation,
        state := .ready })

/-! ### Heartbeat and renewal -/

/-- The configuration a heartbeat reports: the active one, before it the staged one. -/
def currentCandidate : Option Snapshot :=
  if c.hasActive then some c.active else if c.hasCandidate then some c.candidate else none

def heartbeat : Reply Heartbeat × ClientSession :=
  c.answering now <|
    match c.currentCandidate with
    | none => (.fail (codeError .snapshotRequired .generationGap true), c)
    | some current =>
      (.ok { accountID := c.hello.accountID, sessionID := c.welcome.sessionID,
             tunnelID := c.hello.tunnelID, connectorID := c.hello.connectorID,
             processGeneration := c.hello.processGeneration,
             lastAppliedGeneration := current.generation,
             lastAppliedHash := current.contentHash, sentAt := now }, c)

def acceptHeartbeatAck (ack : HeartbeatAck) : Reply Unit × ClientSession :=
  match ack.validate now with
  | .error err => (.fail err, c)
  | .ok () => c.answering now <|
    if !c.addressed ack.accountID ack.tunnelID ack.connectorID ack.sessionID
        ack.processGeneration then
      (.fail (codeError .identityMismatch .authentication false), c)
    else (.ok (), { c with
      lease := { c.lease with expiresAt := ack.leaseExpiresAt }, lastHeartbeatAck := now })

/-- A renewal renews the credential of this session. -/
def renews (result : AuthResult) : Bool :=
  result.accountID == c.auth.accountID && result.tunnelID == c.auth.tunnelID &&
    result.connectorID == c.auth.connectorID && result.sessionID == c.welcome.sessionID &&
    result.hostID == c.auth.hostID && result.identityKeyID == c.auth.identityKeyID &&
    result.identityKeyThumbprint == c.auth.identityKeyThumbprint &&
    result.processGeneration == c.hello.processGeneration &&
    decide (c.auth.credentialGeneration ≤ result.credentialGeneration)

def applyRenewal (result : AuthResult) : Reply Unit × ClientSession :=
  match result.validateBound with
  | .error err => (.fail err, c)
  | .ok () => c.answering now <|
    if !c.renews result then
      (.fail (codeError .identityMismatch .authentication false), c)
    else if result.credentialExpiresAt < c.auth.expiresAt ∨
        result.leaseExpiresAt < c.lease.expiresAt then
      (.fail (codeError .sessionConflict .authentication false), c)
    else if result.credentialGeneration = c.auth.credentialGeneration ∧
        result.credentialExpiresAt = c.auth.expiresAt ∧
        result.leaseExpiresAt = c.lease.expiresAt then
      (.ok (), c)
    else (.ok (), { c with
      auth :=
        { accountID := result.accountID, tunnelID := result.tunnelID,
          connectorID := result.connectorID, hostID := result.hostID,
          identityKeyID := result.identityKeyID,
          identityKeyThumbprint := result.identityKeyThumbprint,
          processGeneration := result.processGeneration,
          credentialGeneration := result.credentialGeneration, nonce := "", signedProof := "",
          issuedAt := now, expiresAt := result.credentialExpiresAt }
      lease := { c.lease with expiresAt := result.leaseExpiresAt }
      lastHeartbeatAck := now })

/-! ### Drain -/

def makeDrainAck (status : DrainStatus)
    (activeStreams : ℕ) (forced : Bool) (code : Option Code) : DrainAck where
  accountID := c.hello.accountID
  tunnelID := c.hello.tunnelID
  connectorID := c.hello.connectorID
  sessionID := c.welcome.sessionID
  processGeneration := c.hello.processGeneration
  drainID := request.drainID
  generation := request.generation
  contentHash := request.contentHash
  status := status
  activeStreams := activeStreams
  forcedClose := forced
  code := code

def refuseDrain (activeStreams : ℕ) (err : Error) : Reply DrainAck :=
  .failWith (c.makeDrainAck request .rejected activeStreams false (some .drainRejected)) err

/-- The acknowledgement of the recorded drain, which always has a status. -/
def repeatDrain : Reply DrainAck :=
  let status := c.drainStatus.getD .accepted
  .ok (c.makeDrainAck request status c.activeStreams (status == .forced) c.drainCode)

/-- `HandleDrain` up to the runtime hook. -/
def handleDrainStart : Except (Reply DrainAck) Unit × ClientSession :=
  if cancelled then (.error (.fail (codeError .canceled .canceled true)), c)
  else match request.validate now with
  | .error err => (.error (.fail err), c)
  | .ok () => c.guarded now <|
    if !c.welcome.capabilities.contains capabilityDrain then
      (.error (.fail (codeError .capabilityMissing .capabilityMissing false)), c)
    else if !c.addressed request.accountID request.tunnelID request.connectorID request.sessionID
        request.processGeneration then
      (.error (c.refuseDrain request 0 (codeError .identityMismatch .authentication false)), c)
    else match c.drain with
      | some drain =>
        if request.drainID ≠ drain.drainID then
          (.error (c.refuseDrain request c.activeStreams
            (codeError .sessionConflict .staleGeneration true)), c)
        else if request.generation ≠ drain.generation ∨
            request.contentHash ≠ drain.contentHash then
          (.error (c.refuseDrain request c.activeStreams
            (codeError .contentHashMismatch .snapshotRejected false)), c)
        else (.error (c.repeatDrain request), c)
      | none =>
        if !c.hasActive || c.needsSnapshot || c.readyGeneration != c.active.generation then
          (.error (c.refuseDrain request 0 (codeError .notReady .snapshotRejected true)), c)
        else if request.generation ≠ c.active.generation ∨
            request.contentHash ≠ c.active.contentHash then
          (.error (c.refuseDrain request 0 (codeError .staleGeneration .staleGeneration true)), c)
        else (.ok (), { c with
          drain := some request, drainStatus := some .accepted, drainCode := none,
          drainCompleted := false, activeStreams := 0, state := .draining })

/-- `HandleDrain` after the runtime failed to stop new streams (`counted` is false)
or to count the active ones. -/
def handleDrainReject (counted : Bool) : Reply DrainAck × ClientSession :=
  (c.refuseDrain request (if counted then 0 else c.activeStreams)
      (codeError .drainRejected .snapshotRejected true),
    if c.drain.any (·.drainID == request.drainID) then
      restoreState { c with
        drainStatus := some .rejected, drainCode := some .drainRejected, drainCompleted := true }
    else c)

/-- `HandleDrain` after the runtime stopped and counted. -/
def handleDrainFinish (activeStreams : ℕ) : Reply DrainAck × ClientSession :=
  if !c.drain.any (·.drainID == request.drainID) then
    (c.refuseDrain request activeStreams (codeError .staleSession .staleGeneration false), c)
  else
    (.ok (c.makeDrainAck request .accepted activeStreams false none),
      { c with activeStreams := activeStreams })

def drainProgress (activeStreams : ℕ)
    (forcedClose : Bool) : Reply DrainAck × ClientSession :=
  if maxActiveStreams < activeStreams then (.fail (.bare .invalidInput), c)
  else if cancelled then (.fail (codeError .canceled .canceled true), c)
  else c.answering now <|
    match c.drain with
    | none => (.fail (codeError .sessionConflict .staleGeneration false), c)
    | some drain =>
      let c := { c with activeStreams := activeStreams }
      if c.drainCompleted then (c.repeatDrain drain, c)
      else if forcedClose then
        if activeStreams ≠ 0 then (.fail (codeError .invalidInput .snapshotRejected false), c)
        else
          (.ok (c.makeDrainAck drain .forced 0 true (some .drainTimeout)), { c with
            drainStatus := some .forced, drainCode := some .drainTimeout, drainCompleted := true })
      else if activeStreams = 0 then
        (.ok (c.makeDrainAck drain .completed 0 false none), { c with
          drainStatus := some .completed, drainCode := none, drainCompleted := true })
      else if drain.deadline ≤ now then
        (.failWith (c.makeDrainAck drain .progress activeStreams false none)
          (codeError .drainTimeout .heartbeatTimeout true), c)
      else
        (.ok (c.makeDrainAck drain .progress activeStreams false none), { c with
          drainStatus := some .progress, drainCode := none })

/-! ### Close -/

/-- The close under the lock; the handle is to be aborted afterwards. -/
def close (reason : DisconnectReason) : Option Handle × ClientSession :=
  if c.state = .closed then (none, c)
  else (c.prepared, { c with
    state := .closed, disconnectReason := some reason, prepared := none, candidate := {},
    hasCandidate := false })

end ClientSession

end Paperboat.ConnectorProtocol
