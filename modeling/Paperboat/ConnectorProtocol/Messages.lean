import Mathlib.Tactic

/-! Messages and validation of the connector control protocol. Times and
durations are nanosecond counts; the zero time is `0`. The generation of a
configuration is a 64-bit word, and its successor wraps around. A message's payload is
its JSON text. Canonicalisation, the SHA-256 hash and the configuration schema
are parameters (`PayloadRules`): the session logic only compares their results.
Error causes are left out, every error keeps its code, reason and retry flag. -/

namespace Paperboat.ConnectorProtocol

abbrev Time := Int

abbrev Duration := Int

def millisecond : Duration := 1000000

def second : Duration := 1000 * millisecond

def maxClockSkew : Duration := 120 * second

def maxLease : Duration := 24 * 3600 * second

def maxSnapshotBytes : ℕ := 4 * 2 ^ 20

def maxDeltaBytes : ℕ := 2 ^ 20

def maxIdentifierBytes : ℕ := 128

def maxActiveStreams : ℕ := 2 ^ 20

def maxNonceBytes : ℕ := 128

def maxProofBytes : ℕ := 16 * 2 ^ 10

inductive Code where
  | invalidInput | malformedFrame | frameTooLarge | protocolIncompatible | capabilityMissing
  | authenticationFailed | credentialExpired | identityMismatch | sessionConflict | sessionClosed
  | leaseExpired | heartbeatTimeout | snapshotRequired | generationGap | staleGeneration
  | contentHashMismatch | snapshotRejected | deltaRejected | notReady | canceled | staleSession
  | unsupportedMessage | drainRejected | drainTimeout | credentialRotationRejected
  | credentialRotationNotReady | credentialRotationFailed
  deriving DecidableEq, Repr

inductive DisconnectReason where
  | protocolMismatch | capabilityMissing | malformed | authentication | credentialExpired
  | leaseExpired | heartbeatTimeout | sessionReplaced | staleGeneration | snapshotRejected
  | generationGap | credentialRotation | canceled | serverShutdown | protocolClosed
  deriving DecidableEq, Repr

/-- The typed boundary error; a bare sentinel such as `ErrInvalidInput` has no
reason. -/
structure Error where
  code : Code
  reason : Option DisconnectReason
  retryable : Bool
  deriving DecidableEq, Repr

def Error.bare (code : Code) : Error := ⟨code, none, false⟩

def codeError (code : Code) (reason : DisconnectReason) (retryable : Bool) : Error :=
  ⟨code, some reason, retryable⟩

/-! ### Identifiers -/

variable (c : Char) (value : String)

def identifierChar : Bool :=
  c.isAlphanum || c == '.' || c == '_' || c == ':' || c == '-'

/-- The identifier pattern: one alphanumeric character and at most 127 more. -/
def validateIdentifier : Bool :=
  match value.toList with
  | [] => false
  | c :: cs => c.isAlphanum && decide (cs.length < maxIdentifierBytes) && cs.all identifierChar

def hexDigit : Bool := c.isDigit || (decide ('a' ≤ c) && decide (c ≤ 'f'))

/-- The content hash pattern: the scheme and 64 lowercase hexadecimal digits. -/
def hashPattern : Bool :=
  value.toList.take 7 == "sha256:".toList && (value.toList.drop 7).length == 64 &&
    (value.toList.drop 7).all hexDigit

def base64Char : Bool := c.isAlphanum || c == '_' || c == '-'

/-- The public-key identity: the key id is the scheme followed by the thumbprint. -/
def validateIdentityKey (keyID thumbprint : String) : Bool :=
  thumbprint.toList.length == 43 && thumbprint.toList.all base64Char &&
    keyID == "ed25519:" ++ thumbprint

/-- The characters that `strings.TrimSpace` removes. -/
def isSpace : Bool :=
  decide (9 ≤ c.toNat ∧ c.toNat ≤ 13) || decide (0x2000 ≤ c.toNat ∧ c.toNat ≤ 0x200a) ||
    [0x20, 0x85, 0xa0, 0x1680, 0x2028, 0x2029, 0x202f, 0x205f, 0x3000].contains c.toNat

/-- No surrounding white space and no line break. -/
def trimmed : Bool :=
  !value.toList.head?.any isSpace && !value.toList.getLast?.any isSpace &&
    !(value.toList.any fun c => c == '\r' || c == '\n')

def validateProof : Bool :=
  decide (32 ≤ value.utf8ByteSize) && decide (value.utf8ByteSize ≤ maxProofBytes) && trimmed value

/-! ### Configuration messages -/

/-- What the session logic needs of the payload code: canonical JSON under a
size limit, the hash of a canonical payload, and the configuration schema. -/
structure PayloadRules where
  canonicalJSON : String → ℕ → Option String
  contentHash : String → String
  configPayload : String → String → UInt64 → Bool

structure Snapshot where
  accountID : String := ""
  tunnelID : String := ""
  connectorID : String := ""
  sessionID : String := ""
  processGeneration : ℕ := 0
  generation : UInt64 := 0
  contentHash : String := ""
  payload : String := ""
  deriving DecidableEq, Repr

def Snapshot.validate (rules : PayloadRules) (s : Snapshot) : Except Error Unit :=
  if !validateIdentifier s.tunnelID || s.accountID != "" && !validateIdentifier s.accountID ||
      s.sessionID != "" && !validateIdentifier s.sessionID || s.generation == 0 ||
      !hashPattern s.contentHash || s.payload.utf8ByteSize == 0 ||
      decide (maxSnapshotBytes < s.payload.utf8ByteSize) then
    .error (.bare .invalidInput)
  else if rules.canonicalJSON s.payload maxSnapshotBytes != some s.payload then
    .error (codeError .contentHashMismatch .snapshotRejected false)
  else if s.contentHash != rules.contentHash s.payload then
    .error (codeError .contentHashMismatch .snapshotRejected false)
  else if !rules.configPayload s.payload s.tunnelID s.generation then
    .error (codeError .snapshotRejected .snapshotRejected false)
  else .ok ()

theorem Snapshot.validate_generation {rules : PayloadRules} {s : Snapshot}
    (h : s.validate rules = .ok ()) : s.generation ≠ 0 := by
  unfold Snapshot.validate at h
  split_ifs at h with h1
  simp only [Bool.or_eq_true, beq_iff_eq, not_or] at h1
  exact h1.1.1.1.2

structure Delta where
  accountID : String := ""
  tunnelID : String := ""
  connectorID : String := ""
  sessionID : String := ""
  processGeneration : ℕ := 0
  previousGeneration : UInt64 := 0
  generation : UInt64 := 0
  previousContentHash : String := ""
  contentHash : String := ""
  payload : String := ""

def Delta.validate (rules : PayloadRules) (d : Delta) : Except Error Unit :=
  if !validateIdentifier d.tunnelID || d.accountID != "" && !validateIdentifier d.accountID ||
      d.sessionID != "" && !validateIdentifier d.sessionID || !hashPattern d.previousContentHash ||
      !hashPattern d.contentHash || d.payload.utf8ByteSize == 0 ||
      decide (maxDeltaBytes < d.payload.utf8ByteSize) then
    .error (.bare .invalidInput)
  else if d.previousGeneration == 0 || d.generation != d.previousGeneration + 1 then
    .error (codeError .generationGap .generationGap true)
  else if rules.canonicalJSON d.payload maxDeltaBytes != some d.payload then
    .error (codeError .contentHashMismatch .generationGap false)
  else if d.contentHash != rules.contentHash d.payload then
    .error (codeError .contentHashMismatch .generationGap false)
  else if !rules.configPayload d.payload d.tunnelID d.generation then
    .error (codeError .deltaRejected .generationGap false)
  else .ok ()

theorem Delta.validate_generation {rules : PayloadRules} {d : Delta}
    (h : d.validate rules = .ok ()) : d.generation = d.previousGeneration + 1 := by
  unfold Delta.validate at h
  split_ifs at h with h1 h2
  simp only [Bool.or_eq_true, bne_iff_ne, ne_eq, not_or, not_not] at h2
  exact h2.2

inductive AckKind where
  | snapshot | delta | ready | renewal
  deriving DecidableEq, Repr

inductive AckStatus where
  | applied | duplicate | rejected | snapshotRequired
  deriving DecidableEq, Repr

structure Ack where
  accountID : String
  tunnelID : String
  connectorID : String
  sessionID : String
  processGeneration : ℕ
  kind : AckKind
  status : AckStatus
  generation : UInt64
  contentHash : String
  code : Option Code := none

def Ack.validate (a : Ack) : Except Error Unit :=
  if !validateIdentifier a.accountID || !validateIdentifier a.tunnelID ||
      !validateIdentifier a.connectorID || !validateIdentifier a.sessionID ||
      a.processGeneration == 0 || a.generation == 0 || !hashPattern a.contentHash then
    .error (.bare .invalidInput)
  -- A rejection carries a code, and nothing else does.
  else if (a.status == .rejected) != a.code.isSome then .error (.bare .invalidInput)
  else .ok ()

theorem Ack.validate_generation {a : Ack} (h : a.validate = .ok ()) : a.generation ≠ 0 := by
  unfold Ack.validate at h
  split_ifs at h with h1
  simp only [Bool.or_eq_true, beq_iff_eq, not_or] at h1
  exact h1.1.2

/-- A delta that is acknowledged has not wrapped around to zero. -/
theorem Ack.delta_generation {pending : Delta} (a : Ack) (hvalid : a.validate = .ok ())
    (hnames : ¬ (a.kind ≠ .delta ∨ a.generation ≠ pending.generation ∨
      a.contentHash ≠ pending.contentHash)) : pending.generation ≠ 0 := by
  simp only [not_or, not_not] at hnames
  exact hnames.2.1 ▸ a.validate_generation hvalid

structure Readiness where
  accountID : String
  sessionID : String
  tunnelID : String
  connectorID : String
  processGeneration : ℕ
  generation : UInt64
  contentHash : String
  edgeReady : Bool
  routeReady : Bool
  originReady : Bool

def Readiness.validate (r : Readiness) : Except Error Unit :=
  if !validateIdentifier r.accountID || !validateIdentifier r.sessionID ||
      !validateIdentifier r.tunnelID || !validateIdentifier r.connectorID ||
      r.processGeneration == 0 || r.generation == 0 || !hashPattern r.contentHash then
    .error (.bare .invalidInput)
  else .ok ()

structure Heartbeat where
  accountID : String
  sessionID : String
  tunnelID : String
  connectorID : String
  processGeneration : ℕ
  lastAppliedGeneration : UInt64
  lastAppliedHash : String
  sentAt : Time

def Heartbeat.validate (h : Heartbeat) : Except Error Unit :=
  if !validateIdentifier h.accountID || !validateIdentifier h.sessionID ||
      !validateIdentifier h.tunnelID || !validateIdentifier h.connectorID ||
      h.processGeneration == 0 || h.lastAppliedGeneration == 0 ||
      !hashPattern h.lastAppliedHash || h.sentAt == 0 then
    .error (.bare .invalidInput)
  else .ok ()

structure HeartbeatAck where
  accountID : String
  tunnelID : String
  connectorID : String
  sessionID : String
  processGeneration : ℕ
  leaseExpiresAt : Time
  serverTime : Time

/-! ### Drain messages -/

inductive DrainStatus where
  | accepted | progress | completed | forced | rejected
  deriving DecidableEq, Repr

structure Drain where
  accountID : String
  tunnelID : String
  connectorID : String
  sessionID : String
  processGeneration : ℕ
  drainID : String
  generation : UInt64
  contentHash : String
  deadline : Time
  stopNewStreams : Bool
  forceAfterDeadline : Bool

def Drain.validate (now : Time) (d : Drain) : Except Error Unit :=
  if !validateIdentifier d.accountID || !validateIdentifier d.tunnelID ||
      !validateIdentifier d.connectorID || !validateIdentifier d.sessionID ||
      !validateIdentifier d.drainID || d.processGeneration == 0 || d.generation == 0 ||
      !hashPattern d.contentHash || d.deadline == 0 || !d.stopNewStreams then
    .error (.bare .invalidInput)
  else if now != 0 && (decide (d.deadline ≤ now) || decide (maxLease < d.deadline - now)) then
    .error (.bare .invalidInput)
  else .ok ()

structure DrainAck where
  accountID : String
  tunnelID : String
  connectorID : String
  sessionID : String
  processGeneration : ℕ
  drainID : String
  generation : UInt64
  contentHash : String
  status : DrainStatus
  activeStreams : ℕ
  forcedClose : Bool
  code : Option Code := none

def DrainAck.validate (a : DrainAck) : Except Error Unit :=
  if !validateIdentifier a.accountID || !validateIdentifier a.tunnelID ||
      !validateIdentifier a.connectorID || !validateIdentifier a.sessionID ||
      !validateIdentifier a.drainID || a.processGeneration == 0 || a.generation == 0 ||
      !hashPattern a.contentHash || decide (maxActiveStreams < a.activeStreams) then
    .error (.bare .invalidInput)
  else
    let shape : Bool := match a.status with
      | .accepted | .progress => !a.forcedClose && a.code == none
      | .completed => a.activeStreams == 0 && !a.forcedClose && a.code == none
      | .forced => a.forcedClose && a.code == some .drainTimeout && a.activeStreams == 0
      | .rejected => !a.forcedClose && a.code == some .drainRejected
    if shape then .ok () else .error (.bare .invalidInput)

/-! ### Credentials and leases -/

structure AuthResult where
  accountID : String
  tunnelID : String
  connectorID : String
  sessionID : String := ""
  hostID : String
  identityKeyID : String
  identityKeyThumbprint : String
  processGeneration : ℕ
  credentialGeneration : ℕ
  credentialExpiresAt : Time
  leaseExpiresAt : Time
  deriving DecidableEq, Repr

def AuthResult.validate (now : Time) (a : AuthResult) : Except Error Unit :=
  if !validateIdentifier a.accountID || !validateIdentifier a.tunnelID ||
      !validateIdentifier a.connectorID || !validateIdentifier a.hostID ||
      a.sessionID != "" && !validateIdentifier a.sessionID then
    .error (.bare .authenticationFailed)
  else if !validateIdentityKey a.identityKeyID a.identityKeyThumbprint ||
      a.processGeneration == 0 || a.credentialGeneration == 0 || a.credentialExpiresAt == 0 ||
      a.leaseExpiresAt == 0 || decide (a.credentialExpiresAt < a.leaseExpiresAt) then
    .error (.bare .authenticationFailed)
  else if now != 0 && (decide (a.credentialExpiresAt ≤ now) || decide (a.leaseExpiresAt ≤ now) ||
      decide (maxLease < a.leaseExpiresAt - now)) then
    .error (.bare .authenticationFailed)
  else .ok ()

structure RenewalRequest where
  sessionID : String
  accountID : String
  tunnelID : String
  connectorID : String
  hostID : String
  identityKeyID : String
  identityKeyThumbprint : String
  processGeneration : ℕ
  credentialGeneration : ℕ
  nonce : String
  signedProof : String
  requestedAt : Time

def RenewalRequest.validateAt (now : Time) (r : RenewalRequest) : Except Error Unit :=
  if !validateIdentifier r.sessionID || !validateIdentifier r.accountID ||
      !validateIdentifier r.tunnelID || !validateIdentifier r.connectorID ||
      !validateIdentifier r.hostID ||
      !validateIdentityKey r.identityKeyID r.identityKeyThumbprint || r.processGeneration == 0 ||
      r.credentialGeneration == 0 || decide (r.nonce.utf8ByteSize < 16) ||
      decide (maxNonceBytes < r.nonce.utf8ByteSize) || !trimmed r.nonce || r.requestedAt == 0 ||
      !validateProof r.signedProof then
    .error (.bare .invalidInput)
  else if now != 0 && (decide (now + maxClockSkew < r.requestedAt) ||
      decide (maxClockSkew < now - r.requestedAt)) then
    .error (codeError .authenticationFailed .authentication false)
  else .ok ()

structure Lease where
  sessionID : String
  expiresAt : Time
  heartbeatIntervalMS : ℕ

end Paperboat.ConnectorProtocol
