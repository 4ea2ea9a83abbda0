import Mathlib

/-! The vocabulary of the end-to-end encrypted environment: kinds of subjects, scopes,
mutations and recipients, the limits of the contract, and which identifiers and
variable names are valid.

Key identifiers are thumbprints of public keys and taken to be ideal, so a key is named
by its identifier: a signature says which key made it, and a sealed value says which
key opens it. -/

namespace Paperboat.EnvironmentE2EE

def maximumContractInteger : Nat := 2 ^ 53 - 1
def maximumManagers : Nat := 32
def maximumHosts : Nat := 512
def maximumVariables : Nat := 128
def maximumNameBytes : Nat := 128
def maximumValueBytes : Nat := 32767
def maximumScopeBytes : Nat := 256 * 1024

inductive SubjectKind where
  | managerCLI | managerBrowser | host | recovery
  deriving DecidableEq, Repr

def SubjectKind.toNat : SubjectKind → Nat
  | managerCLI => 1 | managerBrowser => 2 | host => 3 | recovery => 4

inductive ScopeKind where
  | global | machine
  deriving DecidableEq, Repr

def ScopeKind.toNat : ScopeKind → Nat
  | global => 0 | machine => 1

inductive ScopeState where
  | active | retired
  deriving DecidableEq, Repr

inductive MutationKind where
  | initialise | set | unset | reauthorize | rotate | reset
  deriving DecidableEq, Repr

inductive RecipientKind where
  | manager | host | recovery
  deriving DecidableEq, Repr

def RecipientKind.toNat : RecipientKind → Nat
  | manager => 1 | host => 2 | recovery => 3

/-- A key identifier: its prefix says what the key is for, the number is its
thumbprint. -/
inductive KeyID where
  | aek (thumbprint : Nat) | envk (thumbprint : Nat) | sigk (thumbprint : Nat)
  deriving DecidableEq, Repr

/-- The identifier as a pair that is ordered as the texts are. -/
def KeyID.rank : KeyID → ℕ ×ₗ ℕ
  | aek n => toLex (0, n) | envk n => toLex (1, n) | sigk n => toLex (2, n)

theorem KeyID.rank_injective : Function.Injective KeyID.rank := by
  intro a b h
  cases a <;> cases b <;> simp_all [KeyID.rank]

/-! ### Identifiers and variable names -/

def validIdentifier (value : String) : Bool :=
  match value.toList with
  | [] => false
  | first :: rest => first.isAlphanum && decide (rest.length ≤ 127) &&
      rest.all fun c => c.isAlphanum || c == '_' || c == '-'

/-- Upper case of a name. Names are ASCII wherever the result is used. -/
def toUpper (name : String) : String := String.ofList (name.toList.map Char.toUpper)

def variablePattern (name : String) : Bool :=
  match name.toList with
  | [] => false
  | first :: rest => (first.isAlpha || first == '_') && rest.all fun c => c.isAlphanum || c == '_'

/-- Names that the runtime, the loader or an interpreter would act on. -/
def reservedName (name : String) : Bool :=
  ["PAPERBOAT_", "LD_", "DYLD_"].any (fun start => start.toList.isPrefixOf (toUpper name).toList) ||
    ["NODE_OPTIONS", "PYTHONPATH", "PYTHONHOME", "GOTRACEBACK"].contains (toUpper name)

def validVariableName (name : String) : Bool :=
  decide (name.utf8ByteSize ≤ maximumNameBytes) && variablePattern name && !reservedName name

/-- Names of one scope: sorted, valid, and no two of them equal up to letter case. -/
def validateNames (names : List String) : Bool :=
  decide (names.length ≤ maximumVariables) && decide (names.Pairwise (· ≤ ·)) &&
    names.all validVariableName && decide (names.map toUpper).Nodup

theorem validateNames_nil : validateNames [] = true := by decide

/-- `sort.SearchStrings` finds the first entry that is not below the name. -/
def contains (names : List String) (name : String) : Bool :=
  names.find? (fun x => decide (name ≤ x)) == some name

def addedOne (old next : List String) (name : String) : Bool :=
  (old ++ [name]).insertionSort (· ≤ ·) == next

def removedOne (old next : List String) (name : String) : Bool :=
  old.contains name && old.erase name == next

variable {names : List String}

theorem validateNames_sorted (h : validateNames names = true) : names.Pairwise (· ≤ ·) := by
  simp only [validateNames, Bool.and_eq_true, decide_eq_true_eq] at h
  exact h.1.1.2

theorem validateNames_folds (h : validateNames names = true) : (names.map toUpper).Nodup := by
  simp only [validateNames, Bool.and_eq_true, decide_eq_true_eq] at h
  exact h.2

theorem validateNames_valid (h : validateNames names = true) :
    ∀ name ∈ names, validVariableName name = true := by
  simp only [validateNames, Bool.and_eq_true, List.all_eq_true] at h
  exact h.1.2

end Paperboat.EnvironmentE2EE
