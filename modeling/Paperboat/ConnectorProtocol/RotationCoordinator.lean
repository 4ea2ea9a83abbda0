import Paperboat.Lib.Transition
import Paperboat.ConnectorProtocol.RotationMessages

/-! The coordinator of a credential rotation. It takes every target of its plan through
challenge, installation, readiness and revocation; each call locks the coordinator and
makes at most one call to the store, which may fail. -/

namespace Paperboat.ConnectorProtocol

inductive RotationTargetState where
  | pending | challenged | installed | ready | revoking | revoked | failed
  deriving DecidableEq, Repr

inductive RotationAggregateStatus where
  | pending | succeeded | failed
  deriving DecidableEq, Repr

/-- What the coordinator keeps of one target; messages not yet exchanged are zero. -/
structure TargetProgress where
  target : RotationTarget
  state : RotationTargetState := .pending
  code : Option Code := none
  challenge : CredentialRotationChallenge := {}
  proof : CredentialRotationProof := {}
  install : CredentialRotationInstall := {}
  ready : CredentialRotationReady := {}
  revoke : CredentialRotationRevoke := {}

structure RotationTargetSummary where
  target : RotationTarget
  state : RotationTargetState
  code : Option Code

structure RotationSummary where
  accountID : String
  tunnelID : String
  operationID : String
  targetSetHash : String
  status : RotationAggregateStatus
  targets : List RotationTargetSummary
  completedAt : Time := 0

structure RotationCoordinator where
  plan : RotationPlan
  started : Bool := false
  finished : Time := 0
  targets : String → Option TargetProgress

/-- The surroundings of one call: its context, the clock and whether the store takes
what the call records. -/
structure RotationEnv where
  canceled : Bool := false
  now : Time
  persisted : Bool := true

namespace RotationCoordinator

variable (rules : RotationRules)

abbrev Result (β : Type) := Except Error β × RotationCoordinator

/-- Every target is pending. -/
def fresh (plan : RotationPlan) : RotationCoordinator where
  plan := plan
  targets id := (plan.targets.find? fun t => t.connectorID == id).map fun target => { target }

def new (plan : RotationPlan) : Except Error RotationCoordinator :=
  match plan.validate rules with
  | .error _ => .error (.bare .invalidInput)
  | .ok _ => .ok (fresh plan)

variable (c : RotationCoordinator) (env : RotationEnv)

def setTarget (id : String) (p : TargetProgress) : RotationCoordinator :=
  { c with targets := Function.update c.targets id (some p) }

/-- The entry of a target of the plan, which the map always has. -/
def progress (t : RotationTarget) : TargetProgress :=
  (c.targets t.connectorID).getD { target := t }

/-- The header of a message to a target of the plan. -/
def header (t : RotationTarget) (sessionID : String)
    (processGeneration : UInt64) : RotationHeader where
  accountID := c.plan.accountID
  tunnelID := c.plan.tunnelID
  operationID := c.plan.operationID
  connectorID := t.connectorID
  hostID := t.hostID
  sessionID := sessionID
  processGeneration := processGeneration
  targetSetHash := c.plan.targetSetHash
  oldCredentialGeneration := t.oldCredentialGeneration
  newCredentialGeneration := t.newCredentialGeneration

def canceled : Error := codeError .canceled .canceled true

def rotationFailed : Error := codeError .credentialRotationFailed .credentialRotation false

def stale : Error := codeError .staleGeneration .staleGeneration false

def mismatch : Error := codeError .identityMismatch .authentication false

/-! ### Summary -/

def status : RotationAggregateStatus :=
  if c.plan.targets.any fun t => (c.progress t).state == .failed then .failed
  else if c.plan.targets.all fun t => (c.progress t).state == .revoked then .succeeded
  else .pending

def summaryLocked : RotationSummary where
  accountID := c.plan.accountID
  tunnelID := c.plan.tunnelID
  operationID := c.plan.operationID
  targetSetHash := c.plan.targetSetHash
  status := c.status
  targets := c.plan.targets.map fun t => ⟨t, (c.progress t).state, (c.progress t).code⟩
  completedAt := if c.status = .succeeded then c.finished else 0

/-- The map's keys are the targets of the plan. -/
def allReadyLocked : Bool :=
  c.plan.targets.all fun t =>
    (c.progress t).state == .ready || (c.progress t).state == .revoking ||
      (c.progress t).state == .revoked

/-! ### Calls -/

def start : Result Unit :=
  if env.canceled then (.error canceled, c)
  else if c.started then (.ok (), c)
  else if !env.persisted then (.error rotationFailed, c)
  else (.ok (), { c with started := true })

structure ChallengeRequest where
  connectorID : String
  sessionID : String
  processGeneration : UInt64
  oldIdentityKeyID : String
  oldIdentityKeyThumbprint : String
  nonce : String
  issuedAt : Time
  expiresAt : Time
  overlapUntil : Time
  credentialValidUntil : Time

def challengeFor (target : RotationTarget) (r : ChallengeRequest) : CredentialRotationChallenge :=
  { c.header target r.sessionID r.processGeneration with
    connectorID := r.connectorID
    target
    oldIdentityKeyID := r.oldIdentityKeyID
    oldIdentityKeyThumbprint := r.oldIdentityKeyThumbprint
    challengeNonce := r.nonce
    issuedAt := r.issuedAt
    expiresAt := r.expiresAt
    overlapUntil := r.overlapUntil
    newCredentialValidUntil := r.credentialValidUntil }

/-- `Challenge` is this with a validity of one year after the overlap. The store may also
refuse the session (`AuthorizeCredentialRotationSession`). -/
def challengeWithCredentialExpiry
    (authorized : Except Error Unit) (r : ChallengeRequest) : Result CredentialRotationChallenge :=
  if env.canceled then (.error canceled, c)
  else if !c.started then (.error (.bare .invalidInput), c)
  else
    match c.targets r.connectorID with
    | none => (.error mismatch, c)
    | some p =>
      -- A challenge that ran out may be repeated.
      if p.state ≠ .pending ∧ (p.state ≠ .challenged ∨ p.challenge.expiresAt = 0 ∨
          env.now < p.challenge.expiresAt) then
        (.error (codeError .sessionConflict .staleGeneration true), c)
      else
        match (c.challengeFor p.target r).validate env.now, authorized with
        | .error e, _ => (.error e, c)
        | .ok _, .error e => (.error e, c)
        | .ok _, .ok _ =>
          if !env.persisted then (.error rotationFailed, c)
          else
            (.ok (c.challengeFor p.target r),
              c.setTarget r.connectorID
                { p with challenge := c.challengeFor p.target r, state := .challenged })

def rotationProofMatchesChallenge (proof : CredentialRotationProof)
    (challenge : CredentialRotationChallenge) (target : RotationTarget) : Bool :=
  proof.accountID == challenge.accountID && proof.tunnelID == challenge.tunnelID &&
    proof.operationID == challenge.operationID && proof.connectorID == challenge.connectorID &&
    proof.hostID == challenge.hostID && proof.sessionID == challenge.sessionID &&
    proof.processGeneration == challenge.processGeneration &&
    proof.targetSetHash == challenge.targetSetHash &&
    proof.oldCredentialGeneration == target.oldCredentialGeneration &&
    proof.newCredentialGeneration == target.newCredentialGeneration &&
    proof.oldIdentityKeyID == challenge.oldIdentityKeyID &&
    proof.oldIdentityKeyThumbprint == challenge.oldIdentityKeyThumbprint &&
    proof.challengeNonce == challenge.challengeNonce &&
    proof.newCredentialValidUntil == challenge.newCredentialValidUntil &&
    decide (challenge.issuedAt ≤ proof.issuedAt) && decide (proof.issuedAt ≤ challenge.expiresAt)

/-- The target fails with the code of a store that did not take its progress. -/
def failTarget (id : String) (p : TargetProgress) : RotationCoordinator :=
  c.setTarget id { p with state := .failed, code := some .credentialRotationFailed }

/-- `VerifyCredentialRotationProofAt` validates the proof again before it verifies both
signatures. -/
def verifyProof (now : Time) (proof : CredentialRotationProof) : Except Error Unit := do
  proof.validate rules now
  if !rules.verifyOldProof proof || !rules.verifyNewProof proof then
    .error (codeError .authenticationFailed .authentication false)

def installFor (challenge : CredentialRotationChallenge)
    (proof : CredentialRotationProof) : CredentialRotationInstall :=
  { proof with
    accountID := c.plan.accountID
    tunnelID := c.plan.tunnelID
    operationID := c.plan.operationID
    targetSetHash := c.plan.targetSetHash
    overlapUntil := challenge.overlapUntil
    replacementProcessGeneration := proof.processGeneration + 1 }

def rotationAckForInstall (install : CredentialRotationInstall) : CredentialRotationAck :=
  { install with status := .installed }

def acceptProof (proof : CredentialRotationProof) :
    Result (CredentialRotationInstall × CredentialRotationAck) :=
  if env.canceled then (.error canceled, c)
  else
    match proof.validate rules env.now, c.targets proof.connectorID with
    | .error e, _ => (.error e, c)
    | .ok _, none => (.error stale, c)
    | .ok _, some p =>
      if p.state ≠ .challenged then (.error stale, c)
      else if !rotationProofMatchesChallenge proof p.challenge p.target then (.error mismatch, c)
      else
        match verifyProof rules env.now proof,
          (c.installFor p.challenge proof).validate rules env.now with
        | .error e, _ => (.error e, c)
        | .ok _, .error e => (.error e, c)
        | .ok _, .ok _ =>
          if !env.persisted then (.error rotationFailed, c.failTarget proof.connectorID p)
          else
            (.ok (c.installFor p.challenge proof,
                rotationAckForInstall (c.installFor p.challenge proof)),
              c.setTarget proof.connectorID
                { p with proof, install := c.installFor p.challenge proof, state := .installed })

/-- The replacement session answers for the key that was installed. -/
def readyMatchesInstall (ready : CredentialRotationReady)
    (install : CredentialRotationInstall) : Bool :=
  ready.accountID == c.plan.accountID && ready.tunnelID == c.plan.tunnelID &&
    ready.operationID == c.plan.operationID && ready.connectorID == install.connectorID &&
    ready.hostID == install.hostID && ready.targetSetHash == c.plan.targetSetHash &&
    ready.sessionID != install.sessionID && ready.previousSessionID == install.sessionID &&
    decide (install.replacementProcessGeneration ≤ ready.processGeneration) &&
    ready.oldCredentialGeneration == install.oldCredentialGeneration &&
    ready.newCredentialGeneration == install.newCredentialGeneration &&
    ready.toReplacementKey == install.toReplacementKey &&
    ready.newCredentialValidUntil == install.newCredentialValidUntil

def rotationRejectedAck (ready : CredentialRotationReady) (code : Code) : CredentialRotationAck :=
  { ready with status := .rejected, code := some code }

/-- An invalid message is answered with a rejection next to the error. -/
def markReady (ready : CredentialRotationReady) : Result (CredentialRotationAck × Option Error) :=
  if env.canceled then (.error canceled, c)
  else
    match ready.validate rules env.now, c.targets ready.connectorID with
    | .error e, _ => (.ok (rotationRejectedAck ready .credentialRotationNotReady, some e), c)
    | .ok _, none => (.error stale, c)
    | .ok _, some p =>
      if p.state ≠ .installed then (.error stale, c)
      else if !c.readyMatchesInstall ready p.install then (.error mismatch, c)
      else if !env.persisted then (.error rotationFailed, c.failTarget ready.connectorID p)
      else
        (.ok ({ ready with status := .ready }, none),
          c.setTarget ready.connectorID { p with ready, state := .ready })

def revokeFor (now : Time) (connectorID revokeNonce : String)
    (p : TargetProgress) : CredentialRotationRevoke :=
  { c.header p.target p.ready.sessionID p.ready.processGeneration with
    connectorID
    revokeNonce
    issuedAt := now
    deadline := now + defaultAbortTimeout }

/-- `revokeNonce` is what `newOpaqueID` drew, if it could. -/
def revoke (revokeNonce : Option String)
    (connectorID : String) : Result CredentialRotationRevoke :=
  if env.canceled then (.error canceled, c)
  else
    match c.targets connectorID with
    | none => (.error mismatch, c)
    | some p =>
      if c.status = .failed then (.error rotationFailed, c)
      else if !c.allReadyLocked then
        (.error (codeError .credentialRotationNotReady .snapshotRejected true), c)
      else if p.state = .revoking then (.ok p.revoke, c)
      else if p.state ≠ .ready then (.error stale, c)
      else
        match revokeNonce with
        | none => (.error (.bare .invalidInput), c)
        | some nonce =>
          match (c.revokeFor env.now connectorID nonce p).validate env.now with
          | .error e => (.error e, c)
          | .ok _ =>
            if !env.persisted then (.error rotationFailed, c.failTarget connectorID p)
            else
              (.ok (c.revokeFor env.now connectorID nonce p),
                c.setTarget connectorID
                  { p with revoke := c.revokeFor env.now connectorID nonce p, state := .revoking })

/-- A rejection counts when it comes from the session that the target is with. -/
def rotationNegativeAckMatches (p : TargetProgress) (ack : CredentialRotationAck) : Bool :=
  let answers (sessionID : String) (processGeneration : UInt64) : Bool :=
    sessionID != "" && processGeneration != 0 && ack.sessionID == sessionID &&
      ack.processGeneration == processGeneration
  match p.state with
  | .challenged | .installed => answers p.challenge.sessionID p.challenge.processGeneration
  | .ready => answers p.ready.sessionID p.ready.processGeneration
  | .revoking => answers p.revoke.sessionID p.revoke.processGeneration
  | .pending | .revoked | .failed => false

def ackNamesTarget (p : TargetProgress) (ack : CredentialRotationAck) : Bool :=
  ack.accountID == c.plan.accountID && ack.tunnelID == c.plan.tunnelID &&
    ack.operationID == c.plan.operationID && ack.targetSetHash == c.plan.targetSetHash &&
    ack.hostID == p.target.hostID &&
    ack.oldCredentialGeneration == p.target.oldCredentialGeneration &&
    ack.newCredentialGeneration == p.target.newCredentialGeneration

/-- The summary that a call answers with, next to the error it reports, if any. -/
abbrev Answer := RotationSummary × Option Error

/-- The operation is finished once every target is revoked. -/
def finishIfSucceeded (now : Time) : RotationCoordinator :=
  if c.status = .succeeded then { c with finished := now } else c

def handleAck (ack : CredentialRotationAck) : Result Answer :=
  match ack.validate with
  | .error e => (.error e, c)
  | .ok _ =>
    if env.canceled then (.error canceled, c)
    else
      match c.targets ack.connectorID with
      | none => (.error mismatch, c)
      | some p =>
        if !c.ackNamesTarget p ack then (.error mismatch, c)
        else if p.state = .revoked ∨ p.state = .failed then (.ok (c.summaryLocked, some stale), c)
        else
          match ack.status with
          | .rejected | .failed =>
            if !rotationNegativeAckMatches p ack then (.error mismatch, c)
            else
              let c' := c.setTarget ack.connectorID { p with state := .failed, code := ack.code }
              -- The failure is taken back when the store does not keep it.
              if !env.persisted then (.ok (c.summaryLocked, some rotationFailed), c)
              else (.ok (c'.summaryLocked, some rotationFailed), c')
          | .installed =>
            if p.state ≠ .installed ∨ ack.sessionID ≠ p.install.sessionID ∨
                ack.processGeneration ≠ p.install.processGeneration then (.error stale, c)
            else (.ok (c.summaryLocked, none), c)
          | .ready =>
            if p.state ≠ .ready ∨ ack.sessionID ≠ p.ready.sessionID ∨
                ack.processGeneration ≠ p.ready.processGeneration then (.error stale, c)
            else (.ok (c.summaryLocked, none), c)
          | .proofAccepted => (.error stale, c)
          | .revoked =>
            if p.state ≠ .revoking ∨ ack.sessionID ≠ p.revoke.sessionID ∨
                ack.processGeneration ≠ p.revoke.processGeneration then (.error stale, c)
            else
              let c' :=
                (c.setTarget ack.connectorID { p with state := .revoked }).finishIfSucceeded env.now
              if !env.persisted then
                -- `finished` keeps its value, the target does not.
                let c'' := c'.failTarget ack.connectorID { p with state := .revoked }
                (.ok (c''.summaryLocked, some rotationFailed), c'')
              else (.ok (c'.summaryLocked, none), c')

def fail (connectorID : String) (code : Code) : Result Answer :=
  match c.targets connectorID with
  | none => (.error mismatch, c)
  | some p =>
    if p.state = .revoked then (.ok (c.summaryLocked, some stale), c)
    else if p.state = .failed then (.ok (c.summaryLocked, some rotationFailed), c)
    else
      let c' := c.setTarget connectorID { p with state := .failed, code := some code }
      if !env.persisted then (.ok (c.summaryLocked, some rotationFailed), c)
      else (.ok (c'.summaryLocked, some rotationFailed), c')

/-! ### Runs -/

inductive Call where
  | start (env : RotationEnv)
  | challenge (env : RotationEnv) (authorized : Except Error Unit) (r : ChallengeRequest)
  | acceptProof (env : RotationEnv) (proof : CredentialRotationProof)
  | markReady (env : RotationEnv) (ready : CredentialRotationReady)
  | revoke (env : RotationEnv) (revokeNonce : Option String) (connectorID : String)
  | handleAck (env : RotationEnv) (ack : CredentialRotationAck)
  | fail (env : RotationEnv) (connectorID : String) (code : Code)

def after : Call → RotationCoordinator
  | .start env => (c.start env).2
  | .challenge env authorized r => (c.challengeWithCredentialExpiry env authorized r).2
  | .acceptProof env proof => (c.acceptProof rules env proof).2
  | .markReady env ready => (c.markReady rules env ready).2
  | .revoke env revokeNonce connectorID => (c.revoke env revokeNonce connectorID).2
  | .handleAck env ack => (c.handleAck env ack).2
  | .fail env connectorID code => (c.fail env connectorID code).2

def step (call : Call) : Option RotationCoordinator :=
  some (c.after rules call)

end RotationCoordinator

end Paperboat.ConnectorProtocol
