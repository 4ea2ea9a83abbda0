import Paperboat.Lib.Crash
import Paperboat.Lib.Transition
import Paperboat.ConnectorRotation.Record

/-! The host's half of a credential rotation. A call locks the manager, and works on three
stores that have no common transaction: the keys, the installed process and the journal.
Every call to one of them is an effect that may fail, with or without having happened, and
the process may be cut off at each. The file journal keeps what it read and saved in
memory; a save that fails leaves that memory as it was. -/

namespace Paperboat.ConnectorRotation

open ConnectorProtocol Crash Crash.Prog

inductive Cause where
  | invalidConfig | operationConflict | operationNotFound | recoveryRequired | keyUnavailable | installationFailed
  | revocationFailed | staleMessage | alreadyTerminal | journalCorrupt | journalUncertain | canceled | external

/-- The error of a message's own check, a bare error, or one with a protocol code. -/
inductive HostError where
  | message (e : Error)
  | bare (cause : Cause)
  | typed (e : Error) (causes : List Cause)

structure Config where
  accountID : String
  tunnelID : String
  connectorID : String
  hostID : String
  oldCredentialReference : String
  oldIdentityKeyID : String
  oldIdentityThumbprint : String
  oldCredentialGeneration : UInt64

/-- What outlives the process: the references whose private key the store has, those it
ever gave out, and the records of the journal. -/
structure Durable where
  keys : List String
  issued : List String
  records : String → Option Record

/-- The memory of the process: the journal's copy of the records, and the manager's. -/
structure Memory where
  cached : String → Option Record
  record : Option Record := none

abbrev Call (α : Type) := Prog Durable (HostError × Memory) (α × Memory)

namespace Durable

def put (d : Durable) (reference : String) : Durable :=
  { d with keys := reference :: d.keys, issued := reference :: d.issued }

def delete (d : Durable) (reference : String) : Durable := { d with keys := d.keys.filter (· ≠ reference) }

def write (d : Durable) (record : Record) : Durable :=
  { d with records := Function.update d.records record.operationID (some record) }

end Durable

section Stores

variable {ε : Type}

/-- Something outside that can fail: the context, a signature, the installer. -/
def outside : Prog Durable ε Bool := .effect id .done

/-- Delete a key, whatever comes of it. -/
def discard (reference : String) : Prog Durable ε Unit := .effect (·.delete reference) fun _ => .done ()

/-- A key that is not in the store does not sign. -/
def sign (reference : String) : Prog Durable ε Bool :=
  .read fun d => if reference ∈ d.keys then outside else .done false

/-- `Journal.Load`. -/
def load (m : Memory) (operationID : String) : Prog Durable ε (Except Cause Record) :=
  .effect id fun ok => .done (if ok then (m.cached operationID).elim (.error .operationNotFound) .ok else .error .external)

/-- `Journal.Save`. The limits on the number and size of records are failures without effect. -/
def save (rules : HostRules) (m : Memory) (record : Record) : Prog Durable ε (Except Cause Memory) :=
  if !record.validate rules 0 then .done (.error .journalCorrupt)
  else if (m.cached record.operationID).any fun existing => !existing.sameStableRecord record then
    .done (.error .operationConflict)
  else .effect (·.write record) fun ok =>
    .done (if ok then .ok { m with cached := Function.update m.cached record.operationID (some record) }
      else .error .journalUncertain)

/-- `drawn` is the key that was generated, and `got` what the store answers with for it. -/
def generateReplacementKey (rules : HostRules) (drawn : Option PublicKey) (got : KeyReference) :
    Prog Durable ε (Except Cause KeyReference) :=
  outside.bind fun live =>
    if !live then .done (.error .canceled) else
    match drawn with
    | none => .done (.error .external)
    | some publicKey =>
      .effect (·.put got.reference) fun stored =>
        if !stored then .done (.error .external) else
        let drop (cause : Cause) : Prog Durable ε (Except Cause KeyReference) :=
          if got.reference = "" then .done (.error cause)
          else (discard got.reference).bind fun _ => .done (.error cause)
        outside.bind fun live =>
          if !live then drop .canceled
          else if got.validate rules && got.keyID == "ed25519:" ++ rules.thumbprint publicKey &&
              got.thumbprint == rules.thumbprint publicKey && got.publicKey == publicKey then .done (.ok got)
          else drop .keyUnavailable

end Stores

def rotationFailed : Error := codeError .credentialRotationFailed .credentialRotation true

def mismatch : Error := codeError .identityMismatch .authentication false

def stale : Error := codeError .staleGeneration .staleGeneration false

variable (rules : HostRules) (config : Config) (m : Memory) (now : Time)

/-- `saveLocked`: the manager's record is replaced once the journal has the new one. -/
def saveLocked (record : Record) : Prog Durable (HostError × Memory) Memory :=
  if !record.validate rules 0 then .fail (.bare .journalCorrupt, m)
  else (save rules m record).bind fun result =>
    match result with
    | .error cause => .fail (.typed rotationFailed [.recoveryRequired, cause], m)
    | .ok m => .done { m with record := some record }

variable (r : Record) (c : CredentialRotationChallenge)

def Config.identityMatches : Bool :=
  r.accountID == config.accountID && r.tunnelID == config.tunnelID && r.connectorID == config.connectorID &&
    r.hostID == config.hostID && r.oldCredentialReference == config.oldCredentialReference &&
    r.oldIdentityKeyID == config.oldIdentityKeyID && r.oldIdentityThumbprint == config.oldIdentityThumbprint &&
    r.oldCredentialGeneration == config.oldCredentialGeneration

/-! ### Recover -/

def recover (operationID : String) : Call Unit :=
  if !validateIdentifier operationID then .fail (.bare .invalidConfig, m)
  else outside.bind fun live =>
    if !live then .fail (.bare .canceled, m)
    else (load m operationID).bind fun loaded =>
      match loaded with
      | .error cause => .fail (.bare cause, m)
      | .ok record =>
        if !record.validate rules now then .fail (.bare .journalCorrupt, m)
        else if record.operationID != operationID || !config.identityMatches record then
          .fail (.bare .operationConflict, m)
        else if m.record.any fun current => current.operationID != record.operationID then
          .fail (.bare .operationConflict, m)
        else .done ((), { m with record := some record })

/-! ### Challenge -/

def Config.challengeIdentityMatches : Bool :=
  c.accountID == config.accountID && c.tunnelID == config.tunnelID && c.connectorID == config.connectorID &&
    c.hostID == config.hostID && c.oldCredentialGeneration == config.oldCredentialGeneration &&
    c.oldIdentityKeyID == config.oldIdentityKeyID && c.oldIdentityKeyThumbprint == config.oldIdentityThumbprint

/-- Another challenge for the same rotation of the same target. -/
def sameChallengeTarget (a b : CredentialRotationChallenge) : Bool :=
  a.accountID == b.accountID && a.tunnelID == b.tunnelID && a.operationID == b.operationID &&
    a.connectorID == b.connectorID && a.hostID == b.hostID && a.targetSetHash == b.targetSetHash &&
    a.target == b.target && a.oldCredentialGeneration == b.oldCredentialGeneration &&
    a.newCredentialGeneration == b.newCredentialGeneration && a.oldIdentityKeyID == b.oldIdentityKeyID &&
    a.oldIdentityKeyThumbprint == b.oldIdentityKeyThumbprint && a.overlapUntil == b.overlapUntil &&
    a.newCredentialValidUntil == b.newCredentialValidUntil

def sameChallenge (a b : CredentialRotationChallenge) : Bool := a == b

/-- A manager without a record takes the journal's. -/
def adopt (operationID : String) : Prog Durable (HostError × Memory) Memory :=
  match m.record with
  | some _ => .done m
  | none => (load m operationID).bind fun loaded =>
    match loaded with
    | .ok persisted =>
      if !persisted.validate rules 0 || !config.identityMatches persisted then .fail (.bare .operationConflict, m)
      else .done { m with record := some persisted }
    | .error .operationNotFound => .done m
    | .error cause => .fail (.bare cause, m)

def newRecord (newKey : KeyReference) : Record where
  accountID := c.accountID
  tunnelID := c.tunnelID
  operationID := c.operationID
  connectorID := c.connectorID
  hostID := c.hostID
  targetSetHash := c.targetSetHash
  oldCredentialReference := config.oldCredentialReference
  oldIdentityKeyID := c.oldIdentityKeyID
  oldIdentityThumbprint := c.oldIdentityKeyThumbprint
  oldCredentialGeneration := c.oldCredentialGeneration
  newCredentialGeneration := c.newCredentialGeneration
  newKey := newKey
  challenge := some c
  phase := .challenged
  updatedAt := now

/-- The first record of an operation. Its key is deleted again when the record is not saved. -/
def createRecord (drawn : Option PublicKey)
    (got : KeyReference) (c : CredentialRotationChallenge) : Prog Durable (HostError × Memory) (Record × Memory) :=
  (generateReplacementKey rules drawn got).bind fun generated =>
    match generated with
    | .error cause => .fail (.typed rotationFailed [cause], m)
    | .ok newKey =>
      let record := newRecord config now c newKey
      if !record.validate rules 0 then
        (discard newKey.reference).bind fun _ => .fail (.bare .journalCorrupt, m)
      else (save rules m record).bind fun result =>
        match result with
        | .error cause => (discard newKey.reference).bind fun _ => .fail (.typed rotationFailed [cause], m)
        | .ok m => .done (record, { m with record := some record })

/-- A repeated challenge, or another one before the installation. -/
def renewRecord (record : Record) (c : CredentialRotationChallenge) :
    Prog Durable (HostError × Memory) (Record × Memory) :=
  if !record.challenge.any fun current => sameChallengeTarget current c then .fail (.bare .operationConflict, m)
  else if record.phase = .revoked then .fail (.typed stale [.alreadyTerminal], m)
  else if record.phase ≠ .challenged ∧ record.phase ≠ .proofAccepted then .fail (.typed stale [.staleMessage], m)
  else if record.challenge.any fun current => sameChallenge current c then .done (record, m)
  else
    let updated := { record with challenge := some c, install := none, ready := none, revoke := none,
                                 phase := .challenged, updatedAt := now }
    (saveLocked rules m updated).bind fun m => .done (updated, m)

def proofFor : CredentialRotationProof where
  accountID := r.accountID
  tunnelID := r.tunnelID
  operationID := r.operationID
  connectorID := r.connectorID
  hostID := r.hostID
  sessionID := c.sessionID
  processGeneration := c.processGeneration
  targetSetHash := r.targetSetHash
  oldCredentialGeneration := r.oldCredentialGeneration
  newCredentialGeneration := r.newCredentialGeneration
  oldIdentityKeyID := r.oldIdentityKeyID
  oldIdentityKeyThumbprint := r.oldIdentityThumbprint
  newIdentityKeyID := r.newKey.keyID
  newIdentityKeyThumbprint := r.newKey.thumbprint
  newPublicKey := rules.encodeKey r.newKey.publicKey
  newCredentialReference := r.newKey.reference
  challengeNonce := c.challengeNonce
  issuedAt := c.issuedAt
  newCredentialValidUntil := c.newCredentialValidUntil

/-- `signatures` are what the two keys answer with. -/
def signProofLocked (signatures : String × String)
    (r : Record) (c : CredentialRotationChallenge) : Prog Durable (HostError × Memory) CredentialRotationProof :=
  match checkUnsigned rules.toRotationRules (proofFor rules r c) with
  | .error e => .fail (.message e, m)
  | .ok _ => (sign config.oldCredentialReference).bind fun signed =>
    if !signed then .fail (.typed (codeError .authenticationFailed .authentication true) [.keyUnavailable], m)
    else (sign r.newKey.reference).bind fun signed =>
      if !signed then .fail (.typed rotationFailed [.keyUnavailable], m)
      else
        let proof := { proofFor rules r c with oldSignedProof := signatures.1, newSignedProof := signatures.2 }
        match proof.validate rules.toRotationRules now with
        | .error e => .fail (.message e, m)
        | .ok _ => .done proof

/-- What `AcceptChallenge` meets outside: its clock, the key that is drawn and the answers
of the key store. -/
structure ChallengeEnv where
  now : Time
  drawn : Option PublicKey
  got : KeyReference
  signatures : String × String

def prepareRecord (env : ChallengeEnv)
    (c : CredentialRotationChallenge) : Prog Durable (HostError × Memory) (Record × Memory) :=
  match m.record with
  | some record => renewRecord rules m env.now record c
  | none => createRecord rules config m env.now env.drawn env.got c

def acceptChallenge (env : ChallengeEnv)
    (c : CredentialRotationChallenge) : Call CredentialRotationProof :=
  match c.validate env.now with
  | .error e => .fail (.message e, m)
  | .ok _ =>
    if !config.challengeIdentityMatches c then .fail (.typed mismatch [.operationConflict], m)
    else outside.bind fun live =>
      if !live then .fail (.bare .canceled, m)
      else (adopt rules config m c.operationID).bind fun m =>
        (prepareRecord rules config m env c).bind fun x =>
        (signProofLocked rules config x.2 env.now env.signatures x.1 c).bind fun proof =>
          if x.1.phase = .challenged then
            (saveLocked rules x.2 { x.1 with phase := .proofAccepted, updatedAt := env.now }).bind fun m =>
              .done (proof, m)
          else .done (proof, x.2)

/-! ### Install -/

def installAck (install : CredentialRotationInstall) : CredentialRotationAck := { install with status := .installed }

def acceptInstall (install : CredentialRotationInstall) : Call CredentialRotationAck :=
  match install.validate rules.toRotationRules now with
  | .error e => .fail (.message e, m)
  | .ok _ =>
    match m.record with
    | none => .fail (.bare .operationNotFound, m)
    | some record =>
      if !record.installMatches rules install || decide (install.newCredentialValidUntil < now) then
        .fail (.typed mismatch [.operationConflict], m)
      else if phaseAtLeast record.phase .installed then .done (installAck install, m)
      else if record.phase ≠ .proofAccepted then .fail (.typed stale [.staleMessage], m)
      else outside.bind fun live =>
        if !live then .fail (.bare .canceled, m)
        else outside.bind fun installed =>
          if !installed then .fail (.typed rotationFailed [.installationFailed], m)
          else
            (saveLocked rules m { record with install := some install, phase := .installed, updatedAt := now }).bind
              fun m => .done (installAck install, m)

/-! ### Ready -/

/-- What the replacement session reports. -/
structure Report where
  sessionID : String
  processGeneration : UInt64
  configGeneration : UInt64
  configContentHash : String
  edgeReady : Bool
  routeReady : Bool
  originReady : Bool

def readyFor (install : CredentialRotationInstall) (now : Time) (report : Report) :
    CredentialRotationReady where
  accountID := r.accountID
  tunnelID := r.tunnelID
  operationID := r.operationID
  connectorID := r.connectorID
  hostID := r.hostID
  sessionID := report.sessionID
  previousSessionID := install.sessionID
  processGeneration := report.processGeneration
  targetSetHash := r.targetSetHash
  oldCredentialGeneration := r.oldCredentialGeneration
  newCredentialGeneration := r.newCredentialGeneration
  newIdentityKeyID := r.newKey.keyID
  newIdentityKeyThumbprint := r.newKey.thumbprint
  newPublicKey := rules.encodeKey r.newKey.publicKey
  newCredentialReference := r.newKey.reference
  newCredentialValidUntil := install.newCredentialValidUntil
  configGeneration := report.configGeneration
  configContentHash := report.configContentHash
  edgeReady := report.edgeReady
  routeReady := report.routeReady
  originReady := report.originReady
  readyAt := now

/-- The report repeats what the record already says. -/
def repeatsReady (ready : CredentialRotationReady) (report : Report) : Bool :=
  ready.sessionID == report.sessionID && ready.processGeneration == report.processGeneration &&
    ready.configGeneration == report.configGeneration && ready.configContentHash == report.configContentHash

def markReady (report : Report) : Call CredentialRotationReady :=
  if !validateIdentifier report.sessionID then .fail (.bare .invalidConfig, m)
  else
    match m.record, m.record.bind (·.install) with
    | some record, some install =>
      if phaseAtLeast record.phase .ready then
        match record.ready with
        | some ready =>
          if repeatsReady ready report then .done (ready, m) else .fail (.typed stale [.staleMessage], m)
        | none => .fail (.typed stale [.staleMessage], m)
      else if record.phase ≠ .installed ∨ report.sessionID = install.sessionID ∨
          report.processGeneration < install.replacementProcessGeneration then
        .fail (.typed mismatch [.operationConflict], m)
      else if report.configGeneration = 0 ∨ !hashPattern report.configContentHash then .fail (.bare .invalidConfig, m)
      else
        match (readyFor rules record install now report).validate rules.toRotationRules now with
        | .error e => .fail (.message e, m)
        | .ok _ => outside.bind fun live =>
          if !live then .fail (.bare .canceled, m)
          else
            (saveLocked rules m { record with ready := some (readyFor rules record install now report), phase := .ready,
                                              updatedAt := now }).bind
              fun m => .done (readyFor rules record install now report, m)
    | _, _ => .fail (.bare .operationNotFound, m)

/-! ### Revoke -/

def revokeAck (revoke : CredentialRotationRevoke) : CredentialRotationAck := { revoke with status := .revoked }

/-- `later` is the clock after the old key was deleted. -/
def acceptRevoke (now later : Time)
    (revoke : CredentialRotationRevoke) : Call CredentialRotationAck :=
  match revoke.validate now with
  | .error e => .fail (.message e, m)
  | .ok _ =>
    match m.record, m.record.bind (·.ready) with
    | some record, some _ =>
      if record.phase = .revoked then
        if record.revoke.isSome && record.revokeMatches revoke then .done (revokeAck revoke, m)
        else .fail (.typed stale [.alreadyTerminal], m)
      else if (record.phase ≠ .ready ∧ record.phase ≠ .revoking) ∨ !record.revokeMatches revoke then
        .fail (.typed mismatch [.operationConflict], m)
      else
        let revoking := { record with revoke := some revoke, phase := .revoking, updatedAt := now }
        (if record.phase = .ready then (saveLocked rules m revoking).bind fun m => .done (revoking, m)
          else .done (record, m)).bind fun (x : Record × Memory) =>
        outside.bind fun live =>
          if !live then .fail (.bare .canceled, x.2)
          else outside.bind fun revoked =>
            if !revoked then .fail (.typed rotationFailed [.revocationFailed], x.2)
            else .effect (·.delete config.oldCredentialReference) fun deleted =>
              if !deleted then .fail (.typed rotationFailed [.revocationFailed], x.2)
              else (saveLocked rules x.2 { x.1 with phase := .revoked, updatedAt := later }).bind fun m =>
                .done (revokeAck revoke, m)
    | _, _ => .fail (.bare .operationNotFound, m)

/-! ### Runs -/

structure Host where
  durable : Durable
  /-- The memory of the running process. -/
  memory : Option Memory

/-- Where the call leaves the host; a crash takes the memory. -/
def Host.after {α : Type} : Outcome (HostError × Memory) (α × Memory) × Durable → Host
  | (.ok (_, m), d) => ⟨d, some m⟩
  | (.error (_, m), d) => ⟨d, some m⟩
  | (.crash, d) => ⟨d, none⟩

inductive Action where
  | start
  | crash
  | recover (now : Time) (operationID : String) (faults : List Fault)
  | challenge (env : ChallengeEnv) (c : CredentialRotationChallenge) (faults : List Fault)
  | install (now : Time) (install : CredentialRotationInstall) (faults : List Fault)
  | ready (now : Time) (report : Report) (faults : List Fault)
  | revoke (now later : Time) (revoke : CredentialRotationRevoke) (faults : List Fault)

/-- One call of the manager, or the end or the start of its process. The key store gives
every key a reference of its own. -/
def Host.step (h : Host) (a : Action) : Option Host :=
  match a, h.memory with
  | .start, none => some ⟨h.durable, some { cached := h.durable.records }⟩
  | .crash, _ => some ⟨h.durable, none⟩
  | .recover now operationID faults, some m =>
    some (.after ((recover rules config m now operationID).exec h.durable faults))
  | .challenge env c faults, some m =>
    if env.got.reference ∈ h.durable.issued then none
    else some (.after ((acceptChallenge rules config m env c).exec h.durable faults))
  | .install now install faults, some m => some (.after ((acceptInstall rules m now install).exec h.durable faults))
  | .ready now report faults, some m => some (.after ((markReady rules m now report).exec h.durable faults))
  | .revoke now later revoke faults, some m =>
    some (.after ((acceptRevoke rules config m now later revoke).exec h.durable faults))
  | _, _ => none

end Paperboat.ConnectorRotation
