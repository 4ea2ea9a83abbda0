import Paperboat.EnvironmentE2EE.Transition

/-! Key epochs of a scope. A scope key of one epoch is wrapped for a set of recipients
that only grows: a recipient that loses its wrap is left behind in an older epoch. -/

namespace Paperboat.EnvironmentE2EE

/-- A manifest of a chain with the authority it was accepted under. -/
structure Link where
  manifest : Manifest
  authority : Authority
  deriving DecidableEq

/-- The next manifest of a chain is accepted after this one. -/
def Link.Accepts (x y : Link) : Prop :=
  validateManifestTransition (some x.manifest) y.manifest (some x.authority) y.authority = true

/-- What lies further on in a chain: the epoch is not older, and no recipient of the
epoch is gone. -/
structure Link.Newer (x y : Link) : Prop where
  epoch : x.manifest.keyEpoch ≤ y.manifest.keyEpoch
  recipients : x.manifest.keyEpoch = y.manifest.keyEpoch → x.manifest.recipients ⊆ y.manifest.recipients

variable {x y : Link}

theorem Link.Newer.trans (h : x.Newer y) (h' : y.Newer z) : x.Newer z := by
  have hxy := h.epoch
  have hyz := h'.epoch
  refine ⟨hxy.trans hyz, fun heq => ?_⟩
  have h1 := h.recipients (by omega)
  have h2 := h'.recipients (by omega)
  exact List.Subset.trans h1 h2

instance : IsTrans Link Link.Newer := ⟨fun _ _ _ => Link.Newer.trans⟩

variable {o c : Manifest} {a b : Authority} {t : Bool}

/-- Rotation and reset start the next epoch, every other mutation stays in its epoch. -/
theorem Step.keyEpoch (h : Step o c a b t) :
    c.keyEpoch = if c.mutation = .rotate ∨ c.mutation = .reset then o.keyEpoch + 1 else o.keyEpoch := by
  have hmut := h.mutation
  cases hm : c.mutation <;>
    simp only [validateMutation, hm, Bool.and_eq_true, beq_iff_eq, reduceCtorEq] at hmut <;>
    simp [hmut]

theorem Step.newer (h : Step o c a b t) : Link.Newer ⟨o, a⟩ ⟨c, b⟩ := by
  have hepoch := h.keyEpoch
  constructor
  · dsimp only
    split at hepoch <;> omega
  · intro heq
    dsimp only at heq ⊢
    have hstay : ¬ (c.mutation = .rotate ∨ c.mutation = .reset) := by
      intro hm
      rw [if_pos hm] at hepoch
      omega
    rw [not_or] at hstay
    rcases authorityStep_some h.authority with ⟨-, rfl⟩ | ⟨ht, -⟩
    · rw [h.old.recipients_eq h.next h.scope h.machineID]
      exact List.Subset.refl _
    · exact h.kept ht hstay.1 hstay.2

theorem Link.Accepts.newer (h : x.Accepts y) : x.Newer y := by
  obtain ⟨t, hstep⟩ := validateManifestTransition_iff.mp h
  exact hstep.newer

theorem Link.Accepts.version (h : x.Accepts y) : y.manifest.version = x.manifest.version + 1 := by
  obtain ⟨t, hstep⟩ := validateManifestTransition_iff.mp h
  exact hstep.version

/-- Losing access forces a new key epoch: along every chain of accepted manifests the
version counts the steps, the key epoch never decreases, and a recipient of an earlier
manifest that a later one leaves out is left behind in an older epoch. -/
theorem losing_access_forces_new_epoch (chain : List Link) (hchain : chain.IsChain Link.Accepts) :
    (∀ i (hi : i + 1 < chain.length),
      chain[i + 1].manifest.version = chain[i].manifest.version + 1) ∧
    ∀ i j (hij : i < j) (hj : j < chain.length),
      chain[i].manifest.keyEpoch ≤ chain[j].manifest.keyEpoch ∧
      (∀ r ∈ chain[i].manifest.recipients, r ∉ chain[j].manifest.recipients →
        chain[i].manifest.keyEpoch < chain[j].manifest.keyEpoch) ∧
      (chain[i].manifest.keyEpoch = chain[j].manifest.keyEpoch →
        chain[i].manifest.recipients ⊆ chain[j].manifest.recipients) := by
  constructor
  · intro i hi
    exact (List.isChain_iff_getElem.mp hchain i hi).version
  · intro i j hij hj
    have hnewer : chain.Pairwise Link.Newer := (hchain.imp fun _ _ => Link.Accepts.newer).pairwise
    have h := List.pairwise_iff_getElem.mp hnewer i j (by omega) hj hij
    refine ⟨h.epoch, fun r hr hgone => ?_, h.recipients⟩
    refine lt_of_le_of_ne h.epoch fun heq => ?_
    exact hgone (h.recipients heq hr)

/-! ### A manager leaves -/

namespace Demo

def manager (subjectID : String) (key : Nat) : KeyBinding where
  accountID := "account"
  subjectKind := .managerCLI
  subjectID := subjectID
  subjectGeneration := 1
  keyGeneration := 1
  signingKeyID := some (.sigk key)
  recipientKeyID := .envk key
  rootKeyID := .aek 0

def host (machineID : String) (key : Nat) : KeyBinding :=
  { manager machineID key with subjectKind := .host, signingKeyID := none }

def recovery (key : Nat) : KeyBinding :=
  { manager "environment_recovery" key with subjectKind := .recovery, signingKeyID := none }

def document (generation : Nat) (previousID : Option DocumentID) (bindings : List KeyBinding)
    (resetScopes : List ResetScope) : AuthorityDocument where
  accountID := "account"
  generation := generation
  operationID := generation
  bindings := bindings
  resetScopes := resetScopes
  previousID := previousID
  keyID := .aek 0
  signature := ⟨.aek 0, 0⟩

/-- The first authority: two managers and the recovery key. -/
def genesis : Authority :=
  ⟨document 1 none [manager "alice" 1, manager "bob" 2, recovery 9] [], by decide +kernel⟩

/-- The second authority: one manager is gone. -/
def withoutBob : Authority :=
  ⟨document 2 (some genesis.id) [manager "alice" 1, recovery 9] [], by decide +kernel⟩

/-- A manifest for the recipients that the authority prescribes, signed by the manager
with signing key 1. -/
def publish (a : Authority) (scope : ScopeKind) (machineID : String) (state : ScopeState)
    (mutation : MutationKind) (version keyEpoch : Nat) (changedNames : List String) (values : Values) :
    Option Manifest :=
  (a.expectedRecipients scope state machineID).bind fun recipients =>
    buildManifest
      { accountID := a.accountID, authorityGeneration := a.generation, authorityID := a.id, scope := scope,
        machineID := machineID, state := state, previousVersion := version - 1, version := version,
        keyEpoch := keyEpoch, operationID := version, salt := [], nonce := [], mutation := mutation,
        changedNames := changedNames, names := [] }
      { values := values, scopeKey := keyEpoch, recipients := recipients, signerKeyID := .sigk 1,
        signerPrivate := .sigk 1, salt := List.replicate 32 0, nonce := List.replicate 12 0, signature := 0 }

def global1 : Manifest := (publish genesis .global "" .active .initialise 1 1 [] []).get (by decide +kernel)
def global2 : Manifest := (publish withoutBob .global "" .active .rotate 2 2 [] []).get (by decide +kernel)

theorem losing_access_forces_new_epoch_bob :
    [Link.mk global1 genesis, Link.mk global2 withoutBob].IsChain Link.Accepts ∧
      global1.keyEpoch < global2.keyEpoch := by
  have hchain : [Link.mk global1 genesis, Link.mk global2 withoutBob].IsChain Link.Accepts := by
    rw [List.isChain_pair, Link.Accepts]
    decide +kernel
  have h := (losing_access_forces_new_epoch _ hchain).2 0 1 (by decide) (by decide)
  exact ⟨hchain, h.2.1 ⟨.manager, "bob", 1, .envk 2⟩ (by decide +kernel) (by decide +kernel)⟩

end Demo

end Paperboat.EnvironmentE2EE
