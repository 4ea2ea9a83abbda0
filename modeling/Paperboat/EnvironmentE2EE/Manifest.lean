import Paperboat.EnvironmentE2EE.Recipients
import Paperboat.EnvironmentE2EE.Scope

/-! Scope manifests: the signed, encrypted state of one scope. Encryption is ideal. A
ciphertext holds what was encrypted, under which scope key and for which header; a
wrapped key holds the scope key, whose key opens it and for which manifest it was
wrapped. The digest of a ciphertext and the identifier of a manifest are left
implicit: equal digests mean equal documents. -/

namespace Paperboat.EnvironmentE2EE

/-- The fields of a manifest that its payload is bound to. -/
structure ManifestHeader where
  accountID : String
  authorityGeneration : Nat
  authorityID : DocumentID
  scope : ScopeKind
  machineID : String
  state : ScopeState
  previousVersion : Nat
  version : Nat
  keyEpoch : Nat
  operationID : Nat
  salt : List UInt8
  nonce : List UInt8
  mutation : MutationKind
  changedNames : List String
  names : List String
  deriving DecidableEq, Repr

structure Ciphertext where
  scopeKey : Nat
  aad : ManifestHeader
  entries : Values
  /-- Length of the padded plaintext. -/
  padded : Nat
  deriving DecidableEq, Repr

/-- What a wrapped scope key is bound to. -/
structure WrapAAD where
  accountID : String
  authorityGeneration : Nat
  authorityID : DocumentID
  scope : ScopeKind
  machineID : String
  state : ScopeState
  previousVersion : Nat
  version : Nat
  keyEpoch : Nat
  operationID : Nat
  salt : List UInt8
  ciphertext : Ciphertext
  recipient : Recipient
  deriving DecidableEq, Repr

structure SealedKey where
  /-- The key that opens it. -/
  opener : KeyID
  aad : WrapAAD
  scopeKey : Nat
  deriving DecidableEq, Repr

structure RecipientWrap extends Recipient where
  sealedKey : SealedKey
  deriving DecidableEq, Repr

structure ManifestClaims extends ManifestHeader where
  ciphertext : Ciphertext
  wraps : List RecipientWrap
  deriving DecidableEq, Repr

/-- A signed manifest, as its bytes give it. -/
structure Manifest extends ManifestClaims where
  signerKeyID : KeyID
  signature : Signature
  deriving DecidableEq, Repr

/-- Who holds a wrapped key. -/
def ManifestClaims.recipients (c : ManifestClaims) : List Recipient := c.wraps.map (·.toRecipient)

/-! ### Checks -/

def paddingBuckets : List Nat := [1024, 4096, 16384, 65536, 262144, 524288]

def validateWrap (w : RecipientWrap) : Bool := validIdentifier w.subjectID && validInteger w.keyGeneration

def validMachine (c : ManifestHeader) : Bool :=
  match c.scope with
  | .global => c.machineID == "" && c.state == .active
  | .machine => validIdentifier c.machineID

/-- The checks against the authority: the state of a machine's scope says whether its
host is bound, and the wraps are for the prescribed recipients. -/
def validateAgainst (c : ManifestClaims) (authority : Authority) : Bool :=
  (c.scope != .machine || authorityHasHost authority c.machineID == (c.state == .active)) &&
    authority.expectedRecipients c.scope c.state c.machineID == some c.recipients

def validateManifestClaims (c : ManifestClaims) (authority : Option Authority) : Bool :=
  validIdentifier c.accountID && decide (0 < c.authorityGeneration) && validInteger c.version &&
    decide (c.previousVersion ≤ maximumContractInteger) && validInteger c.keyEpoch && c.operationID != 0 &&
    c.salt.length == 32 && c.nonce.length == 12 && validMachine c.toManifestHeader &&
    validateNames c.names && validateNames c.changedNames && paddingBuckets.contains c.ciphertext.padded &&
    decide (0 < c.wraps.length) && decide (c.wraps.length ≤ maximumManagers + maximumHosts + 1) &&
    c.wraps.all validateWrap && decide (c.recipients.IsChain fun a b => recipientLess a b) &&
    authority.all (validateAgainst c)

def authorizedSigner (authority : Authority) (keyID : KeyID) : Bool :=
  authority.bindings.any fun b => isManager b && b.signingKeyID == some keyID

/-- `ParseManifest` reads the fields off the bytes and checks them under the authority. -/
def parseManifest (raw : Manifest) (authority : Authority) : Option Manifest :=
  if authorizedSigner authority raw.signerKeyID && raw.signature.key == raw.signerKeyID &&
      raw.accountID == authority.accountID && raw.authorityGeneration == authority.generation &&
      raw.authorityID == authority.id && validateManifestClaims raw.toManifestClaims (some authority) then
    some raw
  else none

theorem parseManifest_eq_some (h : parseManifest raw authority = some m) : m = raw := by
  rw [parseManifest] at h
  split at h
  · exact (Option.some.inj h).symm
  · cases h

/-- A manifest that is valid under an authority. -/
structure Parsed (m : Manifest) (authority : Authority) : Prop where
  signer : authorizedSigner authority m.signerKeyID = true
  signature : m.signature.key = m.signerKeyID
  account : m.accountID = authority.accountID
  generation : m.authorityGeneration = authority.generation
  authorityID : m.authorityID = authority.id
  claims : validateManifestClaims m.toManifestClaims (some authority) = true

theorem parsed_iff : (parseManifest m authority).isSome = true ↔ Parsed m authority := by
  rw [parseManifest]
  split
  · next h =>
    simp only [Bool.and_eq_true, beq_iff_eq] at h
    exact ⟨fun _ => ⟨h.1.1.1.1.1, h.1.1.1.1.2, h.1.1.1.2, h.1.1.2, h.1.2, h.2⟩, fun _ => rfl⟩
  · next h =>
    refine ⟨fun h' => absurd h' (by simp), fun ⟨h1, h2, h3, h4, h5, h6⟩ => absurd ?_ h⟩
    simp [h1, h2, h3, h4, h5, h6]

namespace Parsed

variable {m : Manifest} {authority : Authority}

section

variable (h : Parsed m authority)

include h

theorem against : validateAgainst m.toManifestClaims authority = true := by
  have hclaims := h.claims
  simp only [validateManifestClaims, Bool.and_eq_true, Option.all_some] at hclaims
  exact hclaims.2

theorem expected : authority.expectedRecipients m.scope m.state m.machineID = some m.recipients := by
  have hagainst := h.against
  simp only [validateAgainst, Bool.and_eq_true, beq_iff_eq] at hagainst
  exact hagainst.2

theorem names : validateNames m.names = true := by
  have hclaims := h.claims
  simp only [validateManifestClaims, Bool.and_eq_true] at hclaims
  exact hclaims.1.1.1.1.1.1.1.2

theorem version : validInteger m.version = true := by
  have hclaims := h.claims
  simp only [validateManifestClaims, Bool.and_eq_true] at hclaims
  exact hclaims.1.1.1.1.1.1.1.1.1.1.1.1.1.1.2

theorem keyEpoch : validInteger m.keyEpoch = true := by
  have hclaims := h.claims
  simp only [validateManifestClaims, Bool.and_eq_true] at hclaims
  exact hclaims.1.1.1.1.1.1.1.1.1.1.1.1.2

theorem machine : validMachine m.toManifestHeader = true := by
  have hclaims := h.claims
  simp only [validateManifestClaims, Bool.and_eq_true] at hclaims
  exact hclaims.1.1.1.1.1.1.1.1.2

/-- The state of a scope is read off the authority. -/
theorem state_eq : m.state =
    if m.scope = .machine ∧ authorityHasHost authority m.machineID = false then .retired else .active := by
  have hmach := h.machine
  have hagainst := h.against
  simp only [validateAgainst, Bool.and_eq_true, Bool.or_eq_true, bne_iff_ne, beq_iff_eq] at hagainst
  cases hscope : m.scope with
  | global =>
    simp only [validMachine, hscope, Bool.and_eq_true, beq_iff_eq] at hmach
    simp [hmach.2]
  | machine =>
    cases hstate : m.state <;> simp_all

/-- Two manifests of one scope that are valid under one authority have the same
recipients. -/
theorem recipients_eq (h' : Parsed m' authority) (hscope : m'.scope = m.scope)
    (hmach : m'.machineID = m.machineID) : m'.recipients = m.recipients := by
  have hstate : m'.state = m.state := by rw [h'.state_eq, h.state_eq, hscope, hmach]
  have hexp := h'.expected
  rw [hscope, hstate, hmach, h.expected] at hexp
  exact (Option.some.inj hexp).symm

end

end Parsed

/-! ### Encryption -/

structure RecipientPrivate extends Recipient where
  /-- The identifier of the key pair it holds. -/
  privateKey : KeyID
  deriving DecidableEq, Repr

structure DecryptedScope where
  values : Values
  scopeKey : Nat
  deriving DecidableEq, Repr

def wrapAAD (c : ManifestHeader) (ciphertext : Ciphertext) (recipient : Recipient) : WrapAAD where
  accountID := c.accountID
  authorityGeneration := c.authorityGeneration
  authorityID := c.authorityID
  scope := c.scope
  machineID := c.machineID
  state := c.state
  previousVersion := c.previousVersion
  version := c.version
  keyEpoch := c.keyEpoch
  operationID := c.operationID
  salt := c.salt
  ciphertext := ciphertext
  recipient := recipient

def validateRecipient (r : Recipient) : Bool :=
  (match r.keyID with | .envk _ => true | _ => false) && validIdentifier r.subjectID && validInteger r.keyGeneration

def wrapScopeKey (c : ManifestHeader) (ciphertext : Ciphertext) (recipient : Recipient) (scopeKey : Nat) :
    Option RecipientWrap :=
  if validateRecipient recipient then
    some { toRecipient := recipient, sealedKey := ⟨recipient.keyID, wrapAAD c ciphertext recipient, scopeKey⟩ }
  else none

def openScopeKey (c : ManifestClaims) (wrap : RecipientWrap) (privateKey : KeyID) : Option Nat :=
  if privateKey == wrap.keyID && wrap.sealedKey.opener == privateKey &&
      wrap.sealedKey.aad == wrapAAD c.toManifestHeader c.ciphertext wrap.toRecipient then
    some wrap.sealedKey.scopeKey
  else none

/-- The wrap that is for the recipient, if there is exactly one. -/
def selectWrap (wraps : List RecipientWrap) (recipient : Recipient) : Option RecipientWrap :=
  match wraps.filter (fun w => w.toRecipient == recipient) with
  | [wrap] => some wrap
  | _ => none

def decryptManifest (manifest : Manifest) (recipient : RecipientPrivate) : Option DecryptedScope := do
  let selected ← selectWrap manifest.wraps recipient.toRecipient
  let scopeKey ← openScopeKey manifest.toManifestClaims selected recipient.privateKey
  let c := manifest.ciphertext
  if c.scopeKey == scopeKey && c.aad == manifest.toManifestHeader && paddingBuckets.contains c.padded &&
      decide (plaintextSize c.entries + 4 ≤ c.padded) then
    let values ← decodeScope c.entries
    if values.map Prod.fst == manifest.names then some ⟨values, scopeKey⟩ else none
  else none

/-- What `BuildManifest` takes beside the claims, with the random values it draws. -/
structure BuildManifestInput where
  values : Values
  scopeKey : Nat
  recipients : List Recipient
  signerKeyID : KeyID
  signerPrivate : KeyID
  salt : List UInt8
  nonce : List UInt8
  signature : Nat

def padPlaintext (entries : Values) : Option Nat := paddingBuckets.find? fun size =>
    decide (4 + plaintextSize entries ≤ size)

def buildManifest (claims : ManifestHeader) (input : BuildManifestInput) : Option Manifest := do
  if input.signerPrivate != input.signerKeyID then none
  let entries ← encodeScope input.values
  let header := { claims with names := entries.map Prod.fst, salt := input.salt, nonce := input.nonce }
  let padded ← padPlaintext entries
  let ciphertext : Ciphertext := ⟨input.scopeKey, header, entries, padded⟩
  let wraps ← (sortRecipients input.recipients).mapM (wrapScopeKey header ciphertext · input.scopeKey)
  let c : ManifestClaims := { toManifestHeader := header, ciphertext := ciphertext, wraps := wraps }
  if validateManifestClaims c none then
    some { toManifestClaims := c, signerKeyID := input.signerKeyID,
           signature := ⟨input.signerPrivate, input.signature⟩ }
  else none

end Paperboat.EnvironmentE2EE
