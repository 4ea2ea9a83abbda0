import Paperboat.ConnectorProtocol.Messages

/-! The messages of a credential rotation. Every message names its operation, target and
generations in the same ten fields, checked the same way. Base64 keys, SHA-256 and
Ed25519 are parameters (`RotationRules`). Instants are compared as such: a time has no
location here. -/

namespace Paperboat.ConnectorProtocol

def maxRotationTargets : ℕ := 256

def maxRotationMessage : ℕ := 512

def maxRotationCredentialLifetime : Duration := 5 * 365 * 24 * 3600 * second

def defaultAbortTimeout : Duration := 5 * second

structure RotationTarget where
  connectorID : String := ""
  hostID : String := ""
  oldCredentialGeneration : UInt64 := 0
  newCredentialGeneration : UInt64 := 0
  deriving DecidableEq, Repr

def RotationTarget.validate (t : RotationTarget) : Except Error Unit :=
  if !validateIdentifier t.connectorID || !validateIdentifier t.hostID ||
      t.oldCredentialGeneration == 0 ||
      t.newCredentialGeneration != t.oldCredentialGeneration + 1 then
    .error (.bare .invalidInput)
  else .ok ()

structure RotationPlan where
  accountID : String
  tunnelID : String
  operationID : String
  targetSetHash : String
  targets : List RotationTarget

/-- The fields that every rotation message begins with. -/
structure RotationHeader where
  accountID : String := ""
  tunnelID : String := ""
  operationID : String := ""
  connectorID : String := ""
  hostID : String := ""
  sessionID : String := ""
  processGeneration : UInt64 := 0
  targetSetHash : String := ""
  oldCredentialGeneration : UInt64 := 0
  newCredentialGeneration : UInt64 := 0
  deriving DecidableEq, Repr

/-- The checks that every rotation message makes of these fields. -/
def RotationHeader.wellFormed (h : RotationHeader) : Bool :=
  validateIdentifier h.accountID && validateIdentifier h.tunnelID &&
    validateIdentifier h.operationID && validateIdentifier h.connectorID &&
    validateIdentifier h.hostID && validateIdentifier h.sessionID &&
    h.processGeneration != 0 && hashPattern h.targetSetHash && h.oldCredentialGeneration != 0 &&
    h.newCredentialGeneration == h.oldCredentialGeneration + 1

/-- The identity of the replacement key. -/
structure ReplacementKey where
  newIdentityKeyID : String := ""
  newIdentityKeyThumbprint : String := ""
  newPublicKey : String := ""
  newCredentialReference : String := ""
  deriving DecidableEq, Repr

structure CredentialRotationChallenge extends RotationHeader where
  target : RotationTarget := {}
  oldIdentityKeyID : String := ""
  oldIdentityKeyThumbprint : String := ""
  challengeNonce : String := ""
  issuedAt : Time := 0
  expiresAt : Time := 0
  overlapUntil : Time := 0
  newCredentialValidUntil : Time := 0
  deriving DecidableEq, Repr

structure CredentialRotationProof extends RotationHeader, ReplacementKey where
  oldIdentityKeyID : String := ""
  oldIdentityKeyThumbprint : String := ""
  challengeNonce : String := ""
  issuedAt : Time := 0
  newCredentialValidUntil : Time := 0
  oldSignedProof : String := ""
  newSignedProof : String := ""

structure CredentialRotationInstall extends RotationHeader, ReplacementKey where
  challengeNonce : String := ""
  overlapUntil : Time := 0
  newCredentialValidUntil : Time := 0
  replacementProcessGeneration : UInt64 := 0
  deriving DecidableEq, Repr

structure CredentialRotationReady extends RotationHeader, ReplacementKey where
  previousSessionID : String := ""
  newCredentialValidUntil : Time := 0
  configGeneration : UInt64 := 0
  configContentHash : String := ""
  edgeReady : Bool := false
  routeReady : Bool := false
  originReady : Bool := false
  readyAt : Time := 0

structure CredentialRotationRevoke extends RotationHeader where
  revokeNonce : String := ""
  issuedAt : Time := 0
  deadline : Time := 0
  deriving DecidableEq, Repr

inductive RotationAckStatus where
  | proofAccepted | installed | ready | revoked | rejected | failed

structure CredentialRotationAck extends RotationHeader where
  status : RotationAckStatus
  code : Option Code := none
  message : String := ""

/-- What the coordinator needs of the code outside the protocol. -/
structure RotationRules where
  planHash : String → String → String → List RotationTarget → String
  /-- The thumbprint of an encoded public key, if it is one. -/
  identityThumbprint : String → Option String
  credentialReference : String → Bool
  verifyOldProof : CredentialRotationProof → Bool
  verifyNewProof : CredentialRotationProof → Bool

def validRotationNonce (value : String) : Bool :=
  decide (16 ≤ value.utf8ByteSize) && decide (value.utf8ByteSize ≤ maxNonceBytes) && trimmed value

/-! ### Validation -/

/-- The connector ids increase strictly, so no target appears twice. -/
def ascending : List RotationTarget → Bool
  | t :: u :: rest => decide (t.connectorID < u.connectorID) && ascending (u :: rest)
  | _ => true

def validateRotationPlanFields (p : RotationPlan) : Except Error Unit :=
  if !validateIdentifier p.accountID || !validateIdentifier p.tunnelID ||
      !validateIdentifier p.operationID ||
      !hashPattern p.targetSetHash && p.targetSetHash != "" || p.targets.isEmpty ||
      decide (maxRotationTargets < p.targets.length) ||
      !p.targets.all (fun t => t.validate matches .ok _) || !ascending p.targets then
    .error (.bare .invalidInput)
  else .ok ()

variable (rules : RotationRules) (now : Time)

def RotationPlan.validate (p : RotationPlan) : Except Error Unit := do
  validateRotationPlanFields p
  if p.targetSetHash != rules.planHash p.accountID p.tunnelID p.operationID p.targets then
    .error (codeError .contentHashMismatch .snapshotRejected false)
  else .ok ()

def CredentialRotationChallenge.validate (c : CredentialRotationChallenge) : Except Error Unit :=
  if !c.wellFormed || !validateIdentityKey c.oldIdentityKeyID c.oldIdentityKeyThumbprint ||
      !validRotationNonce c.challengeNonce || c.issuedAt == 0 || c.expiresAt == 0 ||
      c.overlapUntil == 0 || c.newCredentialValidUntil == 0 ||
      decide (c.expiresAt ≤ c.issuedAt) || decide (c.overlapUntil ≤ c.expiresAt) ||
      decide (c.newCredentialValidUntil ≤ c.overlapUntil) ||
      decide (15 * 60 * second < c.expiresAt - c.issuedAt) ||
      decide (maxLease < c.overlapUntil - c.issuedAt) ||
      decide (maxRotationCredentialLifetime < c.newCredentialValidUntil - c.issuedAt) then
    .error (.bare .invalidInput)
  else if !(c.target.validate matches .ok _) || c.target.connectorID != c.connectorID ||
      c.target.hostID != c.hostID ||
      c.target.oldCredentialGeneration != c.oldCredentialGeneration ||
      c.target.newCredentialGeneration != c.newCredentialGeneration then
    .error (codeError .identityMismatch .authentication false)
  else if now != 0 && (decide (now + maxClockSkew < c.issuedAt) ||
      decide (maxClockSkew < now - c.issuedAt) || decide (c.expiresAt ≤ now) ||
      decide (c.overlapUntil ≤ now)) then
    .error (codeError .credentialExpired .credentialExpired true)
  else .ok ()

namespace ReplacementKey

def wellFormed (rules : RotationRules) (k : ReplacementKey) : Bool :=
  validateIdentityKey k.newIdentityKeyID k.newIdentityKeyThumbprint &&
    rules.credentialReference k.newCredentialReference

/-- The key decodes and has the thumbprint that the message names. -/
def checkThumbprint (rules : RotationRules) (mismatch : Error) (k : ReplacementKey) : Except Error Unit :=
  match rules.identityThumbprint k.newPublicKey with
  | none => .error (.bare .invalidInput)
  | some thumbprint =>
    if thumbprint != k.newIdentityKeyThumbprint then .error mismatch else .ok ()

end ReplacementKey

def CredentialRotationProof.validate
    (p : CredentialRotationProof) : Except Error Unit := do
  if !p.toRotationHeader.wellFormed ||
      !validateIdentityKey p.oldIdentityKeyID p.oldIdentityKeyThumbprint ||
      !p.toReplacementKey.wellFormed rules || p.oldIdentityKeyID == p.newIdentityKeyID ||
      !validRotationNonce p.challengeNonce || p.issuedAt == 0 || p.newCredentialValidUntil == 0 ||
      decide (p.newCredentialValidUntil ≤ p.issuedAt) ||
      decide (maxRotationCredentialLifetime < p.newCredentialValidUntil - p.issuedAt) then
    .error (.bare .invalidInput)
  p.checkThumbprint rules (codeError .identityMismatch .authentication false)
  if !validateProof p.oldSignedProof || !validateProof p.newSignedProof then
    .error (.bare .invalidInput)
  if now != 0 && (decide (now + maxClockSkew < p.issuedAt) ||
      decide (maxClockSkew < now - p.issuedAt)) then
    .error (codeError .authenticationFailed .authentication false)

def CredentialRotationInstall.validate
    (i : CredentialRotationInstall) : Except Error Unit := do
  if !i.toRotationHeader.wellFormed || i.replacementProcessGeneration ≤ i.processGeneration ||
      !i.toReplacementKey.wellFormed rules || !validRotationNonce i.challengeNonce ||
      i.overlapUntil == 0 || i.newCredentialValidUntil == 0 ||
      decide (i.newCredentialValidUntil ≤ i.overlapUntil) ||
      decide (maxRotationCredentialLifetime < i.newCredentialValidUntil - i.overlapUntil) then
    .error (.bare .invalidInput)
  i.checkThumbprint rules (.bare .identityMismatch)
  if now != 0 && decide (i.overlapUntil ≤ now) then
    .error (codeError .credentialExpired .credentialExpired true)

def CredentialRotationReady.validate
    (r : CredentialRotationReady) : Except Error Unit := do
  if !r.toRotationHeader.wellFormed || !validateIdentifier r.previousSessionID ||
      !r.toReplacementKey.wellFormed rules || r.newCredentialValidUntil == 0 ||
      r.configGeneration == 0 || !hashPattern r.configContentHash || r.readyAt == 0 then
    .error (.bare .invalidInput)
  r.checkThumbprint rules (.bare .identityMismatch)
  if !r.edgeReady || !r.routeReady || !r.originReady then
    .error (codeError .credentialRotationNotReady .snapshotRejected true)
  if now != 0 && decide (r.newCredentialValidUntil ≤ now) then
    .error (codeError .credentialExpired .credentialExpired true)
  if now != 0 && (decide (r.readyAt < now - maxClockSkew) ||
      decide (now + maxClockSkew < r.readyAt)) then
    .error (.bare .invalidInput)

def CredentialRotationRevoke.validate (r : CredentialRotationRevoke) : Except Error Unit :=
  if !r.wellFormed || !validRotationNonce r.revokeNonce || r.issuedAt == 0 || r.deadline == 0 ||
      decide (r.deadline ≤ r.issuedAt) ||
      decide (defaultAbortTimeout * 2 < r.deadline - r.issuedAt) then
    .error (.bare .invalidInput)
  else if now != 0 && (decide (now + maxClockSkew < r.issuedAt) || decide (r.deadline ≤ now)) then
    .error (codeError .credentialExpired .credentialExpired true)
  else .ok ()

def CredentialRotationAck.validate (a : CredentialRotationAck) : Except Error Unit :=
  if !a.wellFormed || decide (maxRotationMessage < a.message.utf8ByteSize) then
    .error (.bare .invalidInput)
  else
    let coded : Bool := match a.status with
      | .proofAccepted | .installed | .ready | .revoked => false
      | .rejected | .failed => true
    if a.code.isSome == coded then .ok () else .error (.bare .invalidInput)

end Paperboat.ConnectorProtocol
