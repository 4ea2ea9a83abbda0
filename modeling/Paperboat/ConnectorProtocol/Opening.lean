import Paperboat.ConnectorProtocol.Messages

/-! The messages that open a session, and the checks a client makes on what the
server sends it: versions and capabilities, the hello with its proof of
possession, the welcome with its lease, and the bound forms of the
configuration messages. -/

namespace Paperboat.ConnectorProtocol

def protocolName : String := "paperboat.connector"

def protocolVersion : String := "1.0"

def maxCapabilities : ℕ := 64

def maxCapabilityBytes : ℕ := 128

/-! ### Capabilities -/

def capabilitySnapshot : String := "config.snapshot.v1"

def capabilityDelta : String := "config.delta.v1"

def capabilityAck : String := "config.ack.v1"

def capabilityHeartbeat : String := "session.heartbeat.v1"

def capabilityRenewal : String := "auth.renew.v1"

def requiredCapabilities : List String :=
  [capabilitySnapshot, capabilityDelta, capabilityAck, capabilityHeartbeat, capabilityRenewal]

/-- The capability pattern: a lowercase letter and 1 to 127 more characters. -/
def capabilityPattern (value : String) : Bool :=
  match value.toList with
  | [] => false
  | c :: cs => c.isLower && !cs.isEmpty && decide (cs.length < maxCapabilityBytes) &&
      cs.all fun c => c.isLower || c.isDigit || c == '_' || c == '.' || c == '-'

def validateCapabilities (values : List String) : Except Error Unit :=
  if values.isEmpty || decide (maxCapabilities < values.length) then
    .error (.bare .capabilityMissing)
  else if !values.all capabilityPattern || !decide values.Nodup then
    .error (.bare .invalidInput)
  else if !requiredCapabilities.all values.contains then
    .error (codeError .capabilityMissing .capabilityMissing false)
  else .ok ()

/-- The offered capabilities that the other side supports, in offered order. -/
def negotiateCapabilities (offered supported : List String) : Except Error (List String) := do
  validateCapabilities offered
  validateCapabilities supported
  let selected := offered.filter supported.contains
  match validateCapabilities selected with
  | .error _ => .error (codeError .capabilityMissing .capabilityMissing false)
  | .ok () => .ok selected

/-! ### Versions -/

/-- A decimal number as `strconv.Itoa` prints it, within the range of `int`. -/
def versionNumber (digits : List Char) : Option ℕ :=
  let n := digits.foldl (fun n c => 10 * n + (c.toNat - '0'.toNat)) 0
  if digits.isEmpty || !digits.all Char.isDigit || digits.head? == some '0' && digits != ['0'] ||
      decide (2 ^ 63 ≤ n) then none
  else some n

def parseVersion (value : String) : Option (ℕ × ℕ) :=
  match value.toList.splitOn '.' with
  | [major, minor] => do return (← versionNumber major, ← versionNumber minor)
  | _ => none

def negotiateVersion (minVersion maxVersion : String) : Except Error String :=
  match parseVersion minVersion, parseVersion maxVersion, parseVersion protocolVersion with
  | some (minMajor, minMinor), some (maxMajor, maxMinor), some (major, minor) =>
    if maxMajor < minMajor ∨ major < minMajor ∨ maxMajor < major ∨
        (minMajor = major ∧ minor < minMinor) ∨ (maxMajor = major ∧ maxMinor < minor) then
      .error (codeError .protocolIncompatible .protocolMismatch false)
    else .ok protocolVersion
  | _, _, _ => .error (codeError .protocolIncompatible .protocolMismatch false)

/-! ### Hello and welcome -/

structure AuthRequest where
  accountID : String
  tunnelID : String
  connectorID : String
  hostID : String
  identityKeyID : String
  identityKeyThumbprint : String
  processGeneration : ℕ
  credentialGeneration : ℕ
  nonce : String
  signedProof : String
  issuedAt : Time
  expiresAt : Time

def AuthRequest.validate (now : Time) (a : AuthRequest) : Except Error Unit :=
  if !validateIdentifier a.accountID || !validateIdentifier a.tunnelID ||
      !validateIdentifier a.connectorID || !validateIdentifier a.hostID ||
      !validateIdentityKey a.identityKeyID a.identityKeyThumbprint then
    .error (.bare .invalidInput)
  else if decide (a.nonce.utf8ByteSize < 16) || decide (maxNonceBytes < a.nonce.utf8ByteSize) ||
      !trimmed a.nonce || a.processGeneration == 0 || a.credentialGeneration == 0 ||
      a.issuedAt == 0 || a.expiresAt == 0 || decide (a.expiresAt ≤ a.issuedAt) ||
      decide (15 * 60 * second < a.expiresAt - a.issuedAt) || !validateProof a.signedProof then
    .error (.bare .invalidInput)
  else if now != 0 && (decide (now + maxClockSkew < a.issuedAt) ||
      decide (maxClockSkew < now - a.issuedAt) || decide (a.expiresAt ≤ now)) then
    .error (codeError .credentialExpired .credentialExpired true)
  else .ok ()

structure Hello where
  protocol : String
  minVersion : String
  maxVersion : String
  accountID : String
  tunnelID : String
  connectorID : String
  hostID : String
  processGeneration : ℕ
  capabilities : List String
  auth : AuthRequest

def Hello.validate (now : Time) (h : Hello) : Except Error Unit := do
  if h.protocol != protocolName || h.minVersion == "" || h.maxVersion == "" ||
      !validateIdentifier h.accountID || !validateIdentifier h.tunnelID ||
      !validateIdentifier h.connectorID || !validateIdentifier h.hostID ||
      h.processGeneration == 0 then
    .error (.bare .invalidInput)
  let _ ← negotiateVersion h.minVersion h.maxVersion
  validateCapabilities h.capabilities
  if h.auth.accountID != h.accountID || h.auth.tunnelID != h.tunnelID ||
      h.auth.connectorID != h.connectorID || h.auth.hostID != h.hostID ||
      h.auth.processGeneration != h.processGeneration then
    .error (codeError .identityMismatch .authentication false)
  h.auth.validate now

def Lease.validate (now : Time) (l : Lease) : Except Error Unit :=
  if !validateIdentifier l.sessionID || l.expiresAt == 0 || l.heartbeatIntervalMS == 0 then
    .error (.bare .invalidInput)
  else if now != 0 && (decide (l.expiresAt ≤ now) || decide (maxLease < l.expiresAt - now) ||
      decide (l.expiresAt - now ≤ l.heartbeatIntervalMS * millisecond)) then
    .error (.bare .invalidInput)
  else .ok ()

structure Welcome where
  protocol : String
  version : String
  sessionID : String
  capabilities : List String
  lease : Lease
  requiresSnapshot : Bool
  serverTime : Time

def Welcome.validate (now : Time) (w : Welcome) : Except Error Unit :=
  if w.protocol != protocolName || w.version != protocolVersion ||
      !validateIdentifier w.sessionID || !w.requiresSnapshot ||
      (validateCapabilities w.capabilities).toOption.isNone || w.serverTime == 0 ||
      w.lease.sessionID != w.sessionID then
    .error (.bare .invalidInput)
  else w.lease.validate now

/-! ### What a client checks -/

def HeartbeatAck.validate (now : Time) (h : HeartbeatAck) : Except Error Unit :=
  if !validateIdentifier h.accountID || !validateIdentifier h.tunnelID ||
      !validateIdentifier h.connectorID || !validateIdentifier h.sessionID ||
      h.processGeneration == 0 || h.leaseExpiresAt == 0 || decide (h.leaseExpiresAt ≤ now) ||
      h.serverTime == 0 then
    .error (.bare .invalidInput)
  else .ok ()

def AuthResult.validateBound (a : AuthResult) : Except Error Unit :=
  if (a.validate 0).toOption.isNone || !validateIdentifier a.sessionID then
    .error (.bare .authenticationFailed)
  else .ok ()

/-- A bound message names the session it was sent in. -/
def boundIdentity (accountID connectorID sessionID : String) (processGeneration : ℕ) : Bool :=
  validateIdentifier accountID && validateIdentifier connectorID &&
    validateIdentifier sessionID && processGeneration != 0

def Snapshot.validateBound (rules : PayloadRules) (s : Snapshot) : Except Error Unit :=
  if !boundIdentity s.accountID s.connectorID s.sessionID s.processGeneration then
    .error (.bare .invalidInput)
  else s.validate rules

def Delta.validateBound (rules : PayloadRules) (d : Delta) : Except Error Unit :=
  if !boundIdentity d.accountID d.connectorID d.sessionID d.processGeneration then
    .error (.bare .invalidInput)
  else d.validate rules

end Paperboat.ConnectorProtocol
