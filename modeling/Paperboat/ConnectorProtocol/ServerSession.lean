import Paperboat.ConnectorProtocol.Messages

/-! The server half of a connector session. Every handler runs under the session
lock, so it is one function from the session and the shared registry to a
result and both states; a handler that fails may still have changed the session.
`Renew` releases the lock around the authenticator call and is two functions. -/

namespace Paperboat.ConnectorProtocol

inductive SessionState where
  | new | awaitingSnapshot | awaitingReady | ready | draining | closed
  deriving DecidableEq, Repr

structure SessionRef where
  tunnelID : String
  connectorID : String
  sessionID : String
  processGeneration : ℕ
  deriving DecidableEq, Repr

/-- The live session recorded for each connector id. -/
abbrev SessionRegistry := String → Option SessionRef

def SessionRegistry.active (r : SessionRegistry) (connectorID : String) : Option SessionRef :=
  if validateIdentifier connectorID then r connectorID else none

def SessionRef.validate (r : SessionRef) : Bool :=
  validateIdentifier r.tunnelID && validateIdentifier r.connectorID &&
    validateIdentifier r.sessionID && r.processGeneration != 0

/-- Removal is by exact match, a stale reference removes nothing. -/
def SessionRegistry.disconnect (r : SessionRegistry) (ref : SessionRef) : SessionRegistry :=
  if ref.validate && r ref.connectorID == some ref then
    Function.update r ref.connectorID none
  else r

/-- The part of the server configuration that a session reads. -/
structure ServerConfig where
  rules : PayloadRules
  leaseDuration : Duration
  capabilities : List String

def capabilityDrain : String := "connector.drain.v1"

structure ServerSession where
  ref : SessionRef
  auth : AuthResult
  lease : Lease
  capabilities : List String
  pendingSnapshot : Option Snapshot
  pendingDelta : Option Delta := none
  active : Snapshot := {}
  hasActive : Bool := false
  candidate : Snapshot := {}
  hasCandidate : Bool := false
  readyGeneration : UInt64 := 0
  needsSnapshot : Bool := false
  state : SessionState := .awaitingSnapshot
  lastHeartbeat : Time
  lastHeartbeatSentAt : Time := 0
  drain : Option Drain := none
  drainStatus : Option DrainStatus := none
  drainCode : Option Code := none
  drainCompleted : Bool := false
  disconnectReason : Option DisconnectReason := none

/-- What a handler returns and leaves behind. -/
structure Outcome (β : Type) where
  result : Except Error β
  session : ServerSession
  registry : SessionRegistry

def Outcome.left {β : Type} (o : Outcome β) : ServerSession × SessionRegistry :=
  (o.session, o.registry)

namespace ServerSession

/-- The session that `Server.Accept` builds around its first snapshot. -/
def accept (ref : SessionRef) (auth : AuthResult) (lease : Lease) (capabilities : List String)
    (snapshot : Snapshot) (now : Time) : ServerSession where
  ref := ref
  auth := auth
  lease := lease
  capabilities := capabilities
  pendingSnapshot := some snapshot
  lastHeartbeat := now

variable (s : ServerSession) (r : SessionRegistry) (now : Time) (config : ServerConfig)

def bindSnapshot (snapshot : Snapshot) : Snapshot :=
  { snapshot with
    accountID := s.auth.accountID, connectorID := s.ref.connectorID,
    sessionID := s.ref.sessionID, processGeneration := s.ref.processGeneration }

def matchesIdentity (accountID tunnelID connectorID sessionID : String)
    (processGeneration : ℕ) : Bool :=
  accountID == s.auth.accountID && tunnelID == s.ref.tunnelID &&
    connectorID == s.ref.connectorID && sessionID == s.ref.sessionID &&
    processGeneration == s.ref.processGeneration

def restoreState : ServerSession :=
  if s.hasActive && s.readyGeneration == s.active.generation && !s.needsSnapshot then
    { s with state := .ready }
  else { s with state := .awaitingSnapshot }

def makeAck (kind : AckKind) (status : AckStatus) (generation : UInt64)
    (contentHash : String) : Ack where
  accountID := s.auth.accountID
  tunnelID := s.ref.tunnelID
  connectorID := s.ref.connectorID
  sessionID := s.ref.sessionID
  processGeneration := s.ref.processGeneration
  kind := kind
  status := status
  generation := generation
  contentHash := contentHash

def close (reason : DisconnectReason) : ServerSession × SessionRegistry :=
  if s.state = .closed then (s, r)
  else ({ s with state := .closed, disconnectReason := some reason }, r.disconnect s.ref)

/-- The liveness check every handler starts with. It closes a session that was
replaced or has expired; `none` lets the handler go on. -/
def ensureActive : Option Error × ServerSession × SessionRegistry :=
  if s.state = .closed then
    (some ⟨.sessionClosed, s.disconnectReason, false⟩, s, r)
  else if r.active s.ref.connectorID ≠ some s.ref then
    (some (codeError .staleSession .sessionReplaced false), s.close r .sessionReplaced)
  else if s.auth.credentialExpiresAt ≤ now then
    (some (codeError .credentialExpired .credentialExpired true), s.close r .credentialExpired)
  else if s.lease.expiresAt ≤ now then
    (some (codeError .leaseExpired .leaseExpired true), s.close r .leaseExpired)
  else if s.lastHeartbeat ≠ 0 ∧
      2 * (s.lease.heartbeatIntervalMS * millisecond) < now - s.lastHeartbeat then
    (some (codeError .heartbeatTimeout .heartbeatTimeout true), s.close r .heartbeatTimeout)
  else (none, s, r)

/-- Run the body of a handler behind the liveness check. -/
def guarded {β : Type}
    (body : Except Error β × ServerSession) : Outcome β :=
  match s.ensureActive r now with
  | (some err, s', r') => ⟨.error err, s', r'⟩
  | (none, _, _) => ⟨body.1, body.2, r⟩

/-! ### Configuration -/

def handlePendingSnapshot (pending : Snapshot) (ack : Ack) : Except Error Unit × ServerSession :=
  if ack.kind ≠ .snapshot ∨ ack.generation ≠ pending.generation ∨
      ack.contentHash ≠ pending.contentHash then
    (.error (codeError .snapshotRejected .snapshotRejected false), s)
  else match ack.status with
    | .snapshotRequired =>
      (.error (codeError .snapshotRequired .generationGap true),
        restoreState { s with pendingSnapshot := none, needsSnapshot := true })
    | .rejected =>
      (.error (codeError .snapshotRejected .snapshotRejected false),
        restoreState { s with pendingSnapshot := none, needsSnapshot := true })
    | .applied | .duplicate =>
      let s' := { s with
        candidate := pending, hasCandidate := true, pendingSnapshot := none,
        needsSnapshot := false }
      (.ok (), if s.hasActive && s.readyGeneration == s.active.generation then s'
        else { s' with state := .awaitingReady })

def handlePendingDelta (pending : Delta) (ack : Ack) : Except Error Unit × ServerSession :=
  if ack.kind ≠ .delta ∨ ack.generation ≠ pending.generation ∨
      ack.contentHash ≠ pending.contentHash then
    (.error (codeError .deltaRejected .generationGap false), s)
  else
    let s := { s with pendingDelta := none }
    match ack.status with
    | .snapshotRequired =>
      (.error (codeError .snapshotRequired .generationGap true),
        restoreState { s with needsSnapshot := true })
    | .rejected =>
      (.error (codeError .deltaRejected .snapshotRejected false),
        restoreState { s with needsSnapshot := true })
    | .applied | .duplicate =>
      if s.hasActive && (pending.previousGeneration != s.active.generation ||
          pending.previousContentHash != s.active.contentHash) then
        (.error (codeError .generationGap .generationGap true), s)
      else
        let s' := { s with
          candidate :=
            { accountID := s.auth.accountID, tunnelID := pending.tunnelID,
              connectorID := s.ref.connectorID, sessionID := s.ref.sessionID,
              processGeneration := s.ref.processGeneration, generation := pending.generation,
              contentHash := pending.contentHash, payload := pending.payload }
          hasCandidate := true }
        (.ok (), if s.hasActive && s.readyGeneration == s.active.generation then s'
          else { s' with state := .awaitingReady })

def handleDuplicateAck (ack : Ack) : Except Error Unit :=
  if ack.status ≠ .duplicate then .error (codeError .invalidInput .malformed false)
  else if !s.hasCandidate && !s.hasActive then
    .error (codeError .staleGeneration .staleGeneration false)
  else
    let current := if s.hasCandidate then s.candidate else s.active
    if ack.generation ≠ current.generation ∨ ack.contentHash ≠ current.contentHash then
      .error (codeError .staleGeneration .staleGeneration false)
    else .ok ()

def handleAck (ack : Ack) : Outcome Unit :=
  match ack.validate with
  | .error err => ⟨.error err, s, r⟩
  | .ok () => s.guarded r now <|
    if !s.matchesIdentity ack.accountID ack.tunnelID ack.connectorID ack.sessionID
        ack.processGeneration then
      (.error (codeError .identityMismatch .authentication false), s)
    else match s.pendingSnapshot, s.pendingDelta with
      | some pending, _ => s.handlePendingSnapshot pending ack
      | none, some pending => s.handlePendingDelta pending ack
      | none, none => (s.handleDuplicateAck ack, s)

/-- The configuration that a readiness report has to name. -/
def readinessTarget : Option Snapshot :=
  if s.hasCandidate then some s.candidate else if s.hasActive then some s.active else none

def handleReadiness
    (readiness : Readiness) : Outcome Ack :=
  match readiness.validate with
  | .error err => ⟨.error err, s, r⟩
  | .ok () => s.guarded r now <|
    if !s.matchesIdentity readiness.accountID readiness.tunnelID readiness.connectorID
        readiness.sessionID readiness.processGeneration then
      (.error (codeError .identityMismatch .authentication false), s)
    else match s.readinessTarget with
      | none => (.error (codeError .staleGeneration .staleGeneration false), s)
      | some target =>
        if readiness.generation ≠ target.generation ∨
            readiness.contentHash ≠ target.contentHash then
          (.error (codeError .staleGeneration .staleGeneration false), s)
        else if !readiness.edgeReady || !readiness.routeReady || !readiness.originReady then
          (.error (codeError .notReady .snapshotRejected true), s)
        else
          -- Promotion moves the candidate into `active` and clears it.
          let s' := if s.hasCandidate then
              { s with active := s.candidate, hasActive := true, candidate := {},
                       hasCandidate := false }
            else s
          (.ok (s.makeAck .ready .applied readiness.generation readiness.contentHash),
            { s' with needsSnapshot := false, readyGeneration := readiness.generation,
                      state := .ready })

/-- An unbound identity field is empty; a bound one has to be the session's. -/
def bindable (tunnelID accountID connectorID sessionID : String)
    (processGeneration : ℕ) : Bool :=
  tunnelID == s.ref.tunnelID && (accountID == "" || accountID == s.auth.accountID) &&
    (connectorID == "" || connectorID == s.ref.connectorID) &&
    (sessionID == "" || sessionID == s.ref.sessionID) &&
    (processGeneration == 0 || processGeneration == s.ref.processGeneration)

/-- Offering a generation that is already staged, active or pending changes
nothing; the content hash then has to agree. -/
def offerDuplicate (snapshot known : Snapshot) : Except Error Unit :=
  if snapshot.contentHash ≠ known.contentHash then
    .error (codeError .contentHashMismatch .snapshotRejected false)
  else .ok ()

def stageSnapshot (snapshot : Snapshot) : ServerSession :=
  let s' := { s with pendingDelta := none, pendingSnapshot := some (s.bindSnapshot snapshot) }
  if s.hasActive then s' else { s' with state := .awaitingSnapshot }

def offerSnapshot (s : ServerSession) (r : SessionRegistry) (now : Time)
    (snapshot : Snapshot) : Outcome Unit :=
  match snapshot.validate config.rules with
  | .error _ => ⟨.error (codeError .snapshotRejected .snapshotRejected false), s, r⟩
  | .ok () => s.guarded r now <|
    if !s.bindable snapshot.tunnelID snapshot.accountID snapshot.connectorID snapshot.sessionID
        snapshot.processGeneration then
      (.error (codeError .identityMismatch .authentication false), s)
    else if s.hasActive ∧ snapshot.generation < s.active.generation then
      (.error (codeError .staleGeneration .staleGeneration false), s)
    else if s.hasCandidate ∧ snapshot.generation = s.candidate.generation then
      (offerDuplicate snapshot s.candidate, s)
    else if s.hasActive ∧ snapshot.generation = s.active.generation then
      (offerDuplicate snapshot s.active, s)
    else match s.pendingSnapshot with
      | some pending =>
        if snapshot.generation = pending.generation then (offerDuplicate snapshot pending, s)
        else (.ok (), s.stageSnapshot snapshot)
      | none => (.ok (), s.stageSnapshot snapshot)

def offerDelta (s : ServerSession) (r : SessionRegistry) (now : Time)
    (delta : Delta) : Outcome Unit :=
  match delta.validate config.rules with
  | .error _ => ⟨.error (codeError .deltaRejected .generationGap false), s, r⟩
  | .ok () => s.guarded r now <|
    if !s.hasActive || s.readyGeneration != s.active.generation || s.needsSnapshot then
      (.error (codeError .notReady .snapshotRejected true), s)
    else if s.pendingSnapshot.isSome || s.pendingDelta.isSome || s.hasCandidate then
      (.error (codeError .generationGap .generationGap true), s)
    else if !s.bindable delta.tunnelID delta.accountID delta.connectorID delta.sessionID
          delta.processGeneration || delta.previousGeneration != s.active.generation ||
        delta.previousContentHash != s.active.contentHash then
      (.error (codeError .generationGap .generationGap true), s)
    else (.ok (), { s with pendingDelta := some { delta with
      accountID := s.auth.accountID, connectorID := s.ref.connectorID,
      sessionID := s.ref.sessionID, processGeneration := s.ref.processGeneration } })

/-! ### Heartbeat -/

/-- The configuration a heartbeat has to report: the active one, before it the
staged one, before that the one on offer. -/
def heartbeatTarget : Option Snapshot :=
  if s.hasActive then some s.active
  else if s.hasCandidate then some s.candidate
  else s.pendingSnapshot

def handleHeartbeat (s : ServerSession) (r : SessionRegistry)
    (now : Time) (heartbeat : Heartbeat) : Outcome HeartbeatAck :=
  match heartbeat.validate with
  | .error err => ⟨.error err, s, r⟩
  | .ok () => s.guarded r now <|
    if !s.matchesIdentity heartbeat.accountID heartbeat.tunnelID heartbeat.connectorID
        heartbeat.sessionID heartbeat.processGeneration then
      (.error (codeError .identityMismatch .authentication false), s)
    else if now + maxClockSkew < heartbeat.sentAt then
      (.error (codeError .invalidInput .malformed false), s)
    else if heartbeat.sentAt < now - maxClockSkew then
      (.error (codeError .heartbeatTimeout .heartbeatTimeout true), s)
    else if s.lastHeartbeatSentAt ≠ 0 ∧ heartbeat.sentAt ≤ s.lastHeartbeatSentAt then
      (.error (codeError .staleSession .staleGeneration false), s)
    else match s.heartbeatTarget with
      | none => (.error (codeError .snapshotRequired .generationGap true), s)
      | some expected =>
        if heartbeat.lastAppliedGeneration ≠ expected.generation ∨
            heartbeat.lastAppliedHash ≠ expected.contentHash then
          -- The last-known-good snapshot stays, its readiness is withdrawn.
          (.error (codeError .snapshotRequired .generationGap true),
            if s.hasActive then
              { s with needsSnapshot := true, readyGeneration := 0, state := .awaitingSnapshot }
            else s)
        else
          let expiry := min (now + config.leaseDuration) s.auth.credentialExpiresAt
          (.ok { accountID := s.auth.accountID, tunnelID := s.ref.tunnelID,
                 connectorID := s.ref.connectorID, sessionID := s.ref.sessionID,
                 processGeneration := s.ref.processGeneration, leaseExpiresAt := expiry,
                 serverTime := now },
            { s with lastHeartbeatSentAt := heartbeat.sentAt, lastHeartbeat := now,
                     lease := { s.lease with expiresAt := expiry } })

/-! ### Drain -/

/-- The clock is read once for the liveness check and once for the deadline. -/
def beginDrain (cancelled : Bool) (now later : Time)
    (drainID : String) (deadline : Time) (forceAfterDeadline : Bool) : Outcome Drain :=
  if cancelled then ⟨.error (codeError .canceled .canceled true), s, r⟩
  else s.guarded r now <|
    if !s.capabilities.contains capabilityDrain then
      (.error (codeError .capabilityMissing .capabilityMissing false), s)
    else match s.drain with
      | some drain =>
        if drain.drainID = drainID then (.ok drain, s)
        else (.error (codeError .sessionConflict .staleGeneration true), s)
      | none =>
        if !s.hasActive || s.needsSnapshot || s.readyGeneration != s.active.generation ||
            s.state != .ready then
          (.error (codeError .notReady .snapshotRejected true), s)
        else
          let request : Drain :=
            { accountID := s.auth.accountID, tunnelID := s.ref.tunnelID,
              connectorID := s.ref.connectorID, sessionID := s.ref.sessionID,
              processGeneration := s.ref.processGeneration, drainID := drainID,
              generation := s.active.generation, contentHash := s.active.contentHash,
              deadline := deadline, stopNewStreams := true,
              forceAfterDeadline := forceAfterDeadline }
          match request.validate later with
          | .error err => (.error err, s)
          | .ok () => (.ok request, { s with
              drain := some request, drainStatus := some .accepted, drainCode := none,
              drainCompleted := false, state := .draining })

def handleDrainAck (cancelled : Bool) (now : Time)
    (ack : DrainAck) : Outcome Unit :=
  if cancelled then ⟨.error (codeError .canceled .canceled true), s, r⟩
  else match ack.validate with
  | .error err => ⟨.error err, s, r⟩
  | .ok () => s.guarded r now <|
    if !s.matchesIdentity ack.accountID ack.tunnelID ack.connectorID ack.sessionID
        ack.processGeneration then
      (.error (codeError .identityMismatch .authentication false), s)
    else match s.drain with
      | none => (.error (codeError .staleSession .staleGeneration false), s)
      | some drain =>
        if ack.drainID ≠ drain.drainID then
          (.error (codeError .staleSession .staleGeneration false), s)
        else if ack.generation ≠ drain.generation ∨ ack.contentHash ≠ drain.contentHash then
          (.error (codeError .contentHashMismatch .snapshotRejected false), s)
        else if s.drainCompleted then
          (if s.drainStatus = some ack.status ∧ ack.code = s.drainCode then .ok ()
            else .error (codeError .staleGeneration .staleGeneration false), s)
        else
          let s' := { s with drainStatus := some ack.status, drainCode := ack.code }
          match ack.status with
          | .accepted | .progress => (.ok (), s')
          | .completed | .forced => (.ok (), { s' with drainCompleted := true })
          | .rejected => (.error (codeError .drainRejected .snapshotRejected false),
              restoreState { s' with drainCompleted := true })

/-! ### Renewal -/

/-- What `Renew` keeps while the authenticator runs without the lock. -/
structure Renewal where
  expected : AuthResult
  ref : SessionRef
  now : Time

def renewStart
    (request : RenewalRequest) : Outcome Renewal :=
  match request.validateAt now with
  | .error err => ⟨.error err, s, r⟩
  | .ok () => s.guarded r now <|
    if request.sessionID ≠ s.ref.sessionID ∨ request.accountID ≠ s.auth.accountID ∨
        request.tunnelID ≠ s.ref.tunnelID ∨ request.connectorID ≠ s.ref.connectorID ∨
        request.hostID ≠ s.auth.hostID ∨ request.identityKeyID ≠ s.auth.identityKeyID ∨
        request.identityKeyThumbprint ≠ s.auth.identityKeyThumbprint ∨
        request.processGeneration ≠ s.ref.processGeneration ∨
        request.credentialGeneration ≠ s.auth.credentialGeneration then
      (.error (codeError .identityMismatch .authentication false), s)
    else (.ok ⟨s.auth, s.ref, now⟩, s)

/-- `none` is a failed authenticator call. -/
def renewFinish (s : ServerSession) (r : SessionRegistry) (now : Time)
    (p : Renewal) (answer : Option AuthResult) : Outcome AuthResult :=
  match answer with
  | none => ⟨.error (codeError .credentialExpired .credentialExpired true), s, r⟩
  | some result =>
    if (result.validate p.now).toOption.isNone ∨ result.accountID ≠ p.expected.accountID ∨
        result.tunnelID ≠ p.ref.tunnelID ∨ result.connectorID ≠ p.ref.connectorID ∨
        (result.sessionID ≠ "" ∧ result.sessionID ≠ p.ref.sessionID) ∨
        result.hostID ≠ p.expected.hostID ∨ result.identityKeyID ≠ p.expected.identityKeyID ∨
        result.identityKeyThumbprint ≠ p.expected.identityKeyThumbprint ∨
        result.processGeneration ≠ p.ref.processGeneration ∨
        result.credentialGeneration < p.expected.credentialGeneration then
      ⟨.error (codeError .authenticationFailed .authentication false), s, r⟩
    else s.guarded r now <|
      if s.auth ≠ p.expected ∨ s.ref ≠ p.ref then
        (.error (codeError .sessionConflict .staleGeneration true), s)
      else
        let result := { result with sessionID := p.ref.sessionID }
        (.ok result, { s with
          auth := result
          lease := { s.lease with
            expiresAt := min result.leaseExpiresAt (p.now + config.leaseDuration) }
          lastHeartbeat := p.now })

/-- The handlers of one session, with the arguments a caller chooses. -/
inductive Call where
  | offerSnapshot (snapshot : Snapshot)
  | offerDelta (delta : Delta)
  | handleAck (ack : Ack)
  | handleReadiness (readiness : Readiness)
  | handleHeartbeat (heartbeat : Heartbeat)
  | beginDrain (cancelled : Bool) (later : Time) (drainID : String) (deadline : Time)
      (forceAfterDeadline : Bool)
  | handleDrainAck (cancelled : Bool) (ack : DrainAck)
  | renewStart (request : RenewalRequest)
  | renewFinish (renewal : Renewal) (answer : Option AuthResult)

end ServerSession

end Paperboat.ConnectorProtocol
