import Paperboat.EnvironmentE2EE.Types

/-! Authority documents: the root-signed list of the keys that may manage an account's
environment and of the hosts that may read it. Digests are ideal: the digest of an
authority document holds the document, so equal identifiers mean equal documents.

An `Authority` is a document that `ParseAuthority` accepted, with the checks that do
not depend on the roots kept as a field. Key bindings are taken as parsed; their own
certificates and validity times are read by `ParseKeyBinding` only. -/

namespace Paperboat.EnvironmentE2EE

structure KeyBinding where
  accountID : String
  subjectKind : SubjectKind
  subjectID : String
  subjectGeneration : Nat
  keyGeneration : Nat
  signingKeyID : Option KeyID
  recipientKeyID : KeyID
  rootKeyID : KeyID
  deriving DecidableEq, Repr

structure ResetScope where
  scope : ScopeKind
  machineID : String
  deriving DecidableEq, Repr

structure AuthorityClaims where
  accountID : String
  generation : Nat
  operationID : Nat
  bindings : List KeyBinding
  resetScopes : List ResetScope
  deriving DecidableEq, Repr

/-- A signature names the key that made it; the bytes tell two signatures of one key
apart. -/
structure Signature where
  key : KeyID
  bytes : Nat
  deriving DecidableEq, Repr

/-- A SHA-256 value: the digest of an authority document without or with a previous
document, or a value that is no document's digest. -/
inductive DocumentID where
  | bytes (value : Nat)
  | first (keyID : KeyID) (signature : Signature) (claims : AuthorityClaims)
  | next (keyID : KeyID) (signature : Signature) (claims : AuthorityClaims)
      (previousID : DocumentID)
  deriving DecidableEq, Repr

structure AuthorityDocument extends AuthorityClaims where
  previousID : Option DocumentID
  keyID : KeyID
  signature : Signature
  deriving DecidableEq, Repr

def AuthorityDocument.digest (doc : AuthorityDocument) : DocumentID :=
  match doc.previousID with
  | none => .first doc.keyID doc.signature doc.toAuthorityClaims
  | some previous => .next doc.keyID doc.signature doc.toAuthorityClaims previous

theorem AuthorityDocument.digest_injective : Function.Injective AuthorityDocument.digest := by
  rintro ⟨a, pa, ka, sa⟩ ⟨b, pb, kb, sb⟩ h
  cases pa <;> cases pb <;> simp_all [AuthorityDocument.digest]

/-! ### Checks of an authority document -/

def validInteger (value : Nat) : Bool := decide (0 < value) && decide (value ≤ maximumContractInteger)

def validateBindingClaims (b : KeyBinding) : Bool :=
  validIdentifier b.accountID && validIdentifier b.subjectID && validInteger b.subjectGeneration &&
    validInteger b.keyGeneration &&
    (match b.recipientKeyID with | .envk _ => true | _ => false) &&
    (match b.subjectKind with
      | .managerCLI | .managerBrowser => match b.signingKeyID with | some (.sigk _) => true | _ => false
      | .host | .recovery => b.signingKeyID.isNone) &&
    (b.subjectKind != .recovery || b.subjectID == "environment_recovery")

/-- The order of bindings. The source also compares the identifiers of two bindings that
agree in all three fields; such a pair is rejected as a repeated subject anyway. -/
def bindingLess (a b : KeyBinding) : Bool :=
  if a.subjectKind ≠ b.subjectKind then decide (a.subjectKind.toNat < b.subjectKind.toNat)
  else if a.subjectID ≠ b.subjectID then decide (a.subjectID < b.subjectID)
  else decide (a.keyGeneration < b.keyGeneration)

def resetLess (a b : ResetScope) : Bool :=
  if a.scope ≠ b.scope then decide (a.scope.toNat < b.scope.toNat) else decide (a.machineID < b.machineID)

def validResetScope (r : ResetScope) : Bool :=
  match r.scope with
  | .global => r.machineID == ""
  | .machine => validIdentifier r.machineID

/-- Every key identifier of the list of bindings. -/
def bindingKeys (bindings : List KeyBinding) : List KeyID :=
  bindings.flatMap fun b => b.recipientKeyID :: b.signingKeyID.toList

def isManager (b : KeyBinding) : Bool :=
  b.subjectKind == .managerCLI || b.subjectKind == .managerBrowser

def validateBindings (accountID : String) (bindings : List KeyBinding) : Bool :=
  bindings.all (fun b => b.accountID == accountID) && decide (bindings.IsChain fun a b => bindingLess a b) &&
    decide (bindings.map fun b => (b.subjectKind, b.subjectID)).Nodup && decide (bindingKeys bindings).Nodup &&
    decide (1 ≤ bindings.countP isManager) && decide (bindings.countP isManager ≤ maximumManagers) &&
    decide (bindings.countP (·.subjectKind == .host) ≤ maximumHosts) &&
    decide (bindings.countP (·.subjectKind == .recovery) = 1)

def validateAuthorityClaims (doc : AuthorityDocument) : Bool :=
  validIdentifier doc.accountID && validInteger doc.generation && doc.operationID != 0 &&
    ((doc.generation == 1) == doc.previousID.isNone) &&
    decide (2 ≤ doc.bindings.length) && decide (doc.bindings.length ≤ maximumManagers + maximumHosts + 1) &&
    doc.bindings.all validateBindingClaims && validateBindings doc.accountID doc.bindings &&
    doc.resetScopes.all validResetScope && decide (doc.resetScopes.IsChain fun a b => resetLess a b)

/-- A parsed authority. -/
structure Authority where
  raw : AuthorityDocument
  valid : validateAuthorityClaims raw = true
  deriving DecidableEq

namespace Authority

variable (a : Authority)

abbrev accountID : String := a.raw.accountID
abbrev generation : Nat := a.raw.generation
abbrev previousID : Option DocumentID := a.raw.previousID
abbrev bindings : List KeyBinding := a.raw.bindings
abbrev resetScopes : List ResetScope := a.raw.resetScopes
abbrev rootKeyID : KeyID := a.raw.keyID
def id : DocumentID := a.raw.digest

theorem id_injective : Function.Injective id := by
  rintro ⟨a, _⟩ ⟨b, _⟩ h
  have h' : a.digest = b.digest := h
  cases AuthorityDocument.digest_injective h'
  rfl

end Authority

/-- `ParseAuthority` with the roots given by their key identifiers. -/
def parseAuthority (roots : List KeyID) (doc : AuthorityDocument) : Option Authority :=
  if h : validateAuthorityClaims doc = true then
    if roots.contains doc.keyID && doc.signature.key == doc.keyID &&
        doc.bindings.all (fun b => roots.contains b.rootKeyID) then
      some ⟨doc, h⟩
    else none
  else none

def validateAuthorityTransition (previous : Option Authority) (next : Authority) : Bool :=
  match previous with
  | none => next.generation == 1 && next.previousID.isNone
  | some previous => next.accountID == previous.accountID && next.generation == previous.generation + 1 &&
      next.previousID == some previous.id

def authorityHasReset (authority : Authority) (scope : ScopeKind) (machineID : String) : Bool :=
  authority.resetScopes.any fun r => r.scope == scope && r.machineID == machineID

def authorityHasHost (authority : Authority) (machineID : String) : Bool :=
  authority.bindings.any fun b => b.subjectKind == .host && b.subjectID == machineID

end Paperboat.EnvironmentE2EE
