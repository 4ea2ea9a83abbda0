import Paperboat.ConnectorProtocol.RotationMessages

/-! The host's record of a credential rotation. It is written to the journal before each
answer, and checked as a whole when it is written and when it is read. -/

namespace Paperboat.ConnectorRotation

open ConnectorProtocol

abbrev PublicKey := List UInt8

/-- The protocol's rules with what the host needs of base64 and of the thumbprint of a key.
An encoded key is accepted in its canonical spelling only. -/
structure HostRules extends RotationRules where
  encodeKey : PublicKey → String
  decodeKey : String → Option PublicKey
  thumbprint : PublicKey → String
  decode_encode : ∀ key, decodeKey (encodeKey key) = some key
  identity : ∀ value, identityThumbprint value = (decodeKey value).bind fun key =>
    if key.length = 32 ∧ encodeKey key = value then some (thumbprint key) else none

/-- The part of a proof's check that `CredentialRotationProofPayload` makes before it is
signed. -/
def checkUnsigned (rules : RotationRules) (p : CredentialRotationProof) : Except Error Unit :=
  if !p.toRotationHeader.wellFormed || !validateIdentityKey p.oldIdentityKeyID p.oldIdentityKeyThumbprint ||
      !p.toReplacementKey.wellFormed rules || p.oldIdentityKeyID == p.newIdentityKeyID ||
      !validRotationNonce p.challengeNonce || p.issuedAt == 0 || p.newCredentialValidUntil == 0 ||
      decide (p.newCredentialValidUntil ≤ p.issuedAt) ||
      decide (maxRotationCredentialLifetime < p.newCredentialValidUntil - p.issuedAt) then
    .error (.bare .invalidInput)
  else p.checkThumbprint rules (codeError .identityMismatch .authentication false)

inductive Phase where
  | challenged | proofAccepted | installed | ready | revoking | revoked
  deriving DecidableEq, Repr

def Phase.order : Phase → Nat
  | .challenged => 1
  | .proofAccepted => 2
  | .installed => 3
  | .ready => 4
  | .revoking => 5
  | .revoked => 6

def phaseAtLeast (value threshold : Phase) : Bool := decide (threshold.order ≤ value.order)

/-- A key in the platform's store; the private key stays there. -/
structure KeyReference where
  reference : String
  keyID : String
  thumbprint : String
  publicKey : PublicKey
  deriving DecidableEq, Repr

def KeyReference.validate (rules : HostRules) (k : KeyReference) : Bool :=
  rules.credentialReference k.reference && validateIdentityKey k.keyID k.thumbprint && k.publicKey.length == 32 &&
    rules.thumbprint k.publicKey == k.thumbprint && k.keyID == "ed25519:" ++ rules.thumbprint k.publicKey

structure Record where
  version : Nat := 1
  accountID : String
  tunnelID : String
  operationID : String
  connectorID : String
  hostID : String
  targetSetHash : String
  oldCredentialReference : String
  oldIdentityKeyID : String
  oldIdentityThumbprint : String
  oldCredentialGeneration : UInt64
  newCredentialGeneration : UInt64
  newKey : KeyReference
  challenge : Option CredentialRotationChallenge := none
  install : Option CredentialRotationInstall := none
  ready : Option CredentialRotationReady := none
  revoke : Option CredentialRotationRevoke := none
  phase : Phase
  updatedAt : Time

namespace Record

variable (rules : HostRules) (r : Record)

/-- The message is about the operation and the target of the record. -/
def names (h : RotationHeader) : Bool :=
  h.accountID == r.accountID && h.tunnelID == r.tunnelID && h.operationID == r.operationID &&
    h.connectorID == r.connectorID && h.hostID == r.hostID && h.targetSetHash == r.targetSetHash &&
    h.oldCredentialGeneration == r.oldCredentialGeneration && h.newCredentialGeneration == r.newCredentialGeneration

/-- The message is about the replacement key of the record. -/
def namesKey (k : ReplacementKey) : Bool :=
  k.newIdentityKeyID == r.newKey.keyID && k.newIdentityKeyThumbprint == r.newKey.thumbprint &&
    k.newCredentialReference == r.newKey.reference && rules.decodeKey k.newPublicKey == some r.newKey.publicKey

def challengeMatches (challenge : CredentialRotationChallenge) : Bool :=
  r.names challenge.toRotationHeader && challenge.oldIdentityKeyID == r.oldIdentityKeyID &&
    challenge.oldIdentityKeyThumbprint == r.oldIdentityThumbprint

def installMatches (install : CredentialRotationInstall) : Bool :=
  r.names install.toRotationHeader && r.namesKey rules install.toReplacementKey && r.challenge.any fun challenge =>
    install.sessionID == challenge.sessionID && install.processGeneration == challenge.processGeneration &&
      install.challengeNonce == challenge.challengeNonce && install.overlapUntil == challenge.overlapUntil &&
      install.newCredentialValidUntil == challenge.newCredentialValidUntil

def readyMatches (ready : CredentialRotationReady) : Bool :=
  r.names ready.toRotationHeader && r.namesKey rules ready.toReplacementKey && r.install.any fun install =>
    ready.previousSessionID == install.sessionID && ready.processGeneration == install.replacementProcessGeneration &&
      ready.newCredentialValidUntil == install.newCredentialValidUntil

/-- The session that reported ready, or one of a later process. -/
def revokeMatches (revoke : CredentialRotationRevoke) : Bool :=
  r.names revoke.toRotationHeader && r.ready.any fun ready =>
    (revoke.sessionID == ready.sessionID && revoke.processGeneration == ready.processGeneration) ||
      (revoke.sessionID != ready.sessionID && decide (ready.processGeneration < revoke.processGeneration))

/-- Every failure is `ErrJournalCorrupt`. -/
def validate (now : Time) (r : Record) : Bool :=
  r.version == 1 && validateIdentifier r.accountID && validateIdentifier r.tunnelID &&
    validateIdentifier r.operationID && validateIdentifier r.connectorID && validateIdentifier r.hostID &&
    hashPattern r.targetSetHash && rules.credentialReference r.oldCredentialReference &&
    validateIdentityKey r.oldIdentityKeyID r.oldIdentityThumbprint && r.oldCredentialGeneration != 0 &&
    r.newCredentialGeneration != 0 && r.newCredentialGeneration == r.oldCredentialGeneration + 1 &&
    r.updatedAt != 0 && r.newKey.validate rules &&
    (r.challenge.any fun challenge => (challenge.validate 0).toBool && r.challengeMatches challenge) &&
    (!phaseAtLeast r.phase .installed ||
      r.install.any fun install => (install.validate rules.toRotationRules 0).toBool && r.installMatches rules install) &&
    (!phaseAtLeast r.phase .ready ||
      r.ready.any fun ready => (ready.validate rules.toRotationRules 0).toBool && r.readyMatches rules ready) &&
    (!phaseAtLeast r.phase .revoking ||
      r.revoke.any fun revoke => (revoke.validate 0).toBool && r.revokeMatches revoke) &&
    (now == 0 || decide (r.updatedAt ≤ now + maxClockSkew))

/-- What a later save of an operation must not change. -/
def sameStableRecord (a b : Record) : Bool :=
  a.version == b.version && a.accountID == b.accountID && a.tunnelID == b.tunnelID && a.operationID == b.operationID &&
    a.connectorID == b.connectorID && a.hostID == b.hostID && a.targetSetHash == b.targetSetHash &&
    a.oldCredentialReference == b.oldCredentialReference && a.oldIdentityKeyID == b.oldIdentityKeyID &&
    a.oldIdentityThumbprint == b.oldIdentityThumbprint && a.oldCredentialGeneration == b.oldCredentialGeneration &&
    a.newCredentialGeneration == b.newCredentialGeneration && a.newKey == b.newKey

end Record

end Paperboat.ConnectorRotation
