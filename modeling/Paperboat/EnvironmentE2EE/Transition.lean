import Paperboat.EnvironmentE2EE.Manifest

/-! The state machine of a scope: which manifest may follow which, alone and together
with the authorities that grant signer and recipients. -/

namespace Paperboat.EnvironmentE2EE

/-- Nothing is configured and nothing is said to change. -/
def blankNames (c : ManifestHeader) : Bool := c.names.isEmpty && c.changedNames.isEmpty

def startsScope (c : ManifestHeader) : Bool :=
  c.previousVersion == 0 && c.version == 1 && c.keyEpoch == 1 && blankNames c

/-- The mutation's own rule for the step from `o` to `c`. -/
def validateMutation (o c : ManifestHeader) (authorityTransition : Bool) : Bool :=
  match c.mutation with
  | .set => !authorityTransition && c.keyEpoch == o.keyEpoch && c.state == o.state &&
      (match c.changedNames with
        | [name] => contains c.names name && (c.names == o.names || addedOne o.names c.names name)
        | _ => false)
  | .unset => !authorityTransition && c.keyEpoch == o.keyEpoch && c.state == o.state &&
      (match c.changedNames with
        | [name] => !contains c.names name && removedOne o.names c.names name
        | _ => false)
  | .reauthorize => authorityTransition && c.names == o.names && c.changedNames.isEmpty &&
      c.keyEpoch == o.keyEpoch && (c.state == o.state || (o.state == .retired && c.state == .active))
  | .rotate => c.names == o.names && c.changedNames.isEmpty && c.keyEpoch == o.keyEpoch + 1 &&
      (c.state == o.state || (o.state == .active && c.state == .retired))
  | .reset => authorityTransition && c.names.isEmpty && c.changedNames == o.names &&
      c.keyEpoch == o.keyEpoch + 1
  | .initialise => false

def validateManifestSuccessor (old : Option ManifestHeader) (c : ManifestHeader)
    (authorityTransition : Bool) : Bool :=
  match old with
  | none => c.mutation == .initialise && startsScope c
  | some o =>
    c.accountID == o.accountID && c.scope == o.scope && c.machineID == o.machineID &&
      c.previousVersion == o.version && c.version == o.version + 1 &&
      (if authorityTransition then
        c.authorityGeneration == o.authorityGeneration + 1 && c.authorityID != o.authorityID
      else c.authorityGeneration == o.authorityGeneration && c.authorityID == o.authorityID) &&
      validateMutation o c authorityTransition

def removedRecipient (old next : List Recipient) : Bool := old.any fun prior => !next.contains prior

/-- Whether the authorities fit together, and if so whether the authority changes. -/
def authorityStep (previousAuthority : Option Authority) (proposed : Authority) : Option Bool :=
  match previousAuthority with
  | none => if validateAuthorityTransition none proposed then some false else none
  | some previous =>
    if previous.id = proposed.id then
      if previous.generation = proposed.generation then some false else none
    else if validateAuthorityTransition (some previous) proposed then some true else none

def validateManifestTransition (old : Option Manifest) (next : Manifest)
    (previousAuthority : Option Authority) (proposed : Authority) : Bool :=
  (parseManifest next proposed).isSome &&
  match authorityStep previousAuthority proposed with
  | none => false
  | some authorityTransition =>
    let resetAuthorized := authorityHasReset proposed next.scope next.machineID
    match old with
    | none =>
      match next.mutation with
      | .initialise =>
        !resetAuthorized &&
          ((previousAuthority.isNone && proposed.generation == 1 && next.scope == .global) ||
            (authorityTransition && next.scope == .machine)) &&
          validateManifestSuccessor none next.toManifestHeader authorityTransition
      | .reset => authorityTransition && resetAuthorized && startsScope next.toManifestHeader
      | _ => false
    | some old =>
      match previousAuthority with
      | none => false
      | some previous =>
        (parseManifest old previous).isSome &&
          resetAuthorized == (next.mutation == .reset) &&
          (if next.mutation = .reset then authorityTransition
          else !(authorityTransition && removedRecipient old.recipients next.recipients &&
            next.mutation != .rotate)) &&
          validateManifestSuccessor (some old.toManifestHeader) next.toManifestHeader authorityTransition

/-! ### What an accepted step says -/

/-- The step from `o`, valid under `a`, to `c`, valid under `b`; `t` says whether the
authority changes. -/
structure Step (o c : Manifest) (a b : Authority) (t : Bool) : Prop where
  old : Parsed o a
  next : Parsed c b
  authority : authorityStep (some a) b = some t
  reset : authorityHasReset b c.scope c.machineID = (c.mutation == .reset)
  kept : t = true → c.mutation ≠ .rotate → c.mutation ≠ .reset → o.recipients ⊆ c.recipients
  account : c.accountID = o.accountID
  scope : c.scope = o.scope
  machineID : c.machineID = o.machineID
  previousVersion : c.previousVersion = o.version
  version : c.version = o.version + 1
  mutation : validateMutation o.toManifestHeader c.toManifestHeader t = true

theorem removedRecipient_eq_false : removedRecipient old next = false ↔ old ⊆ next := by
  simp [removedRecipient, List.subset_def]

theorem authorityStep_some (h : authorityStep (some a) b = some t) :
    (t = false ∧ a = b) ∨ (t = true ∧ b.accountID = a.accountID ∧ b.generation = a.generation + 1 ∧
      b.previousID = some a.id) := by
  simp only [authorityStep] at h
  split at h
  · next hid =>
    split at h
    · cases h
      exact Or.inl ⟨rfl, Authority.id_injective hid⟩
    · cases h
  · split at h
    · next hv =>
      cases h
      simp only [validateAuthorityTransition, Bool.and_eq_true, beq_iff_eq] at hv
      exact Or.inr ⟨rfl, hv.1.1, hv.1.2, hv.2⟩
    · cases h

theorem authorityStep_next (h : validateAuthorityTransition (some a) b = true) :
    authorityStep (some a) b = some true := by
  have hgen : b.generation = a.generation + 1 := by
    simp only [validateAuthorityTransition, Bool.and_eq_true, beq_iff_eq] at h
    exact h.1.2
  have hne : a.id ≠ b.id := by
    intro he
    rw [Authority.id_injective he] at hgen
    omega
  rw [authorityStep, if_neg hne, if_pos h]

namespace Step

variable {o c : Manifest} {a b : Authority} {t : Bool}

theorem removal (h : Step o c a b t) : (if c.mutation = .reset then t
    else !(t && removedRecipient o.recipients c.recipients && c.mutation != .rotate)) = true := by
  split
  · next hreset =>
    have hmut := h.mutation
    simp only [validateMutation, hreset, Bool.and_eq_true] at hmut
    exact hmut.1.1.1
  · next hreset =>
    by_cases hrotate : c.mutation = .rotate
    · simp [hrotate]
    · cases t with
      | false => simp
      | true => simp [removedRecipient_eq_false.mpr (h.kept rfl hrotate hreset)]

theorem authorityFields (h : Step o c a b t) : (if t = true then
      c.authorityGeneration == o.authorityGeneration + 1 && c.authorityID != o.authorityID
    else c.authorityGeneration == o.authorityGeneration && c.authorityID == o.authorityID) = true := by
  rw [h.next.generation, h.next.authorityID, h.old.generation, h.old.authorityID]
  rcases authorityStep_some h.authority with ⟨rfl, rfl⟩ | ⟨rfl, -, hgen, -⟩
  · simp
  · have hne : b.id ≠ a.id := by
      intro he
      rw [Authority.id_injective he] at hgen
      omega
    simp [hgen, hne]

end Step

/-- Accepted steps between existing manifests, with the rules about the authority's own
fields read off the parsed documents. -/
theorem validateManifestTransition_iff :
    validateManifestTransition (some o) c (some a) b = true ↔ ∃ t, Step o c a b t := by
  constructor
  · intro h
    simp only [validateManifestTransition, Bool.and_eq_true] at h
    obtain ⟨hnext, h⟩ := h
    split at h
    · cases h
    · next t ht =>
      simp only [validateManifestSuccessor, Bool.and_eq_true, beq_iff_eq] at h
      obtain ⟨⟨⟨hold, hreset⟩, hkept⟩, ⟨⟨⟨⟨⟨hacc, hscope⟩, hmach⟩, hprev⟩, hver⟩, -⟩, hmut⟩ := h
      refine ⟨t, parsed_iff.mp hold, parsed_iff.mp hnext, ht, hreset, ?_, hacc, hscope, hmach, hprev, hver, hmut⟩
      intro htrue hrotate hnreset
      rw [if_neg hnreset] at hkept
      rw [← removedRecipient_eq_false]
      simpa [htrue, hrotate] using hkept
  · rintro ⟨t, h⟩
    simp only [validateManifestTransition, Bool.and_eq_true, parsed_iff.mpr h.next, h.authority, true_and,
      parsed_iff.mpr h.old, beq_self_eq_true, validateManifestSuccessor, h.account, h.scope,
      h.machineID, h.previousVersion, h.version, h.mutation, and_true, h.removal, h.authorityFields]
    rw [← h.scope, ← h.machineID, h.reset, beq_self_eq_true]

end Paperboat.EnvironmentE2EE
