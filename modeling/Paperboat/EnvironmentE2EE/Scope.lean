import Paperboat.EnvironmentE2EE.Types

/-! The plaintext of a scope: its variables, the checks made before they are encrypted
and after they are decrypted, and the merge of the global scope with the scope of a
machine. A Go map is an association list here; encoding sorts it by name. -/

namespace Paperboat.EnvironmentE2EE

abbrev Value := List UInt8

/-- The variables of a scope. -/
abbrev Values := List (String × Value)

def validValue (value : Value) : Bool :=
  decide (value.length ≤ maximumValueBytes) && !value.contains 0 &&
    (ByteArray.mk value.toArray).validateUTF8

/-- Bytes of the head of a canonical CBOR item with the given argument. -/
def cborHead (n : Nat) : Nat :=
  if n < 24 then 1 else if n < 256 then 2 else if n < 65536 then 3 else if n < 2 ^ 32 then 5 else 9

def entrySize (entry : String × Value) : Nat :=
  1 + cborHead entry.1.utf8ByteSize + entry.1.utf8ByteSize + cborHead entry.2.length + entry.2.length

/-- Bytes of `["paperboat.environment.scope-plaintext", 1, entries]`. -/
def plaintextSize (entries : Values) : Nat :=
  1 + (2 + 37) + 1 + cborHead entries.length + (entries.map entrySize).sum

def sortEntries (values : Values) : Values := values.insertionSort fun a b => a.1 ≤ b.1

def valuesTotal (values : Values) : Nat :=
  (values.map fun entry => entry.1.utf8ByteSize + entry.2.length).sum

/-- The entries of the plaintext, in the order of their names. -/
def encodeScope (values : Values) : Option Values :=
  let entries := sortEntries values
  if validateNames (entries.map Prod.fst) && entries.all (fun entry => validValue entry.2) &&
      decide (plaintextSize entries ≤ maximumScopeBytes) && decide (valuesTotal entries ≤ maximumScopeBytes) then
    some entries
  else none

/-- Reading a plaintext back. The source keeps the values in a map. -/
def decodeScope (entries : Values) : Option Values :=
  if decide (plaintextSize entries ≤ maximumScopeBytes) && decide (entries.length ≤ maximumVariables) &&
      entries.all (fun entry => validValue entry.2) && validateNames (entries.map Prod.fst) then
    some entries
  else none

/-- The effective environment: entries of the machine replace global entries of the same
name; two spellings of one name up to letter case are refused. -/
def mergeScopes (global machine : Values) : Option Values :=
  if (encodeScope global).isSome && (encodeScope machine).isSome then
    if machine.any fun m => global.any fun g => toUpper g.1 == toUpper m.1 && g.1 != m.1 then none
    else encodeScope (global.filter (fun g => !(machine.map Prod.fst).contains g.1) ++ machine)
  else none

/-! ### Round trip -/

theorem entrySize_le (entry : String × Value) :
    entry.1.utf8ByteSize + entry.2.length ≤ entrySize entry := by
  rw [entrySize]
  omega

theorem valuesTotal_le_plaintextSize (entries : Values) : valuesTotal entries ≤ plaintextSize entries := by
  have h : valuesTotal entries ≤ (entries.map entrySize).sum := by
    induction entries with
    | nil => exact le_rfl
    | cons entry rest ih =>
      have := entrySize_le entry
      simp only [valuesTotal, List.map_cons, List.sum_cons] at ih ⊢
      omega
  rw [plaintextSize]
  omega

variable {entries values a b : Values}

theorem sortEntries_of_sorted (h : (entries.map Prod.fst).Pairwise (· ≤ ·)) :
    sortEntries entries = entries := by
  rw [List.pairwise_map] at h
  exact h.insertionSort_eq

theorem encodeScope_eq_some (h : encodeScope values = some entries) :
    entries = sortEntries values ∧ validateNames (entries.map Prod.fst) = true ∧
      (∀ entry ∈ entries, validValue entry.2 = true) ∧ plaintextSize entries ≤ maximumScopeBytes := by
  simp only [encodeScope] at h
  split at h
  · next hc =>
    simp only [Bool.and_eq_true, decide_eq_true_eq, List.all_eq_true] at hc
    cases h
    exact ⟨rfl, hc.1.1.1, hc.1.1.2, hc.1.2⟩
  · cases h

theorem decodeScope_eq_some (h : decodeScope entries = some values) :
    values = entries ∧ validateNames (entries.map Prod.fst) = true ∧
      (∀ entry ∈ entries, validValue entry.2 = true) ∧ plaintextSize entries ≤ maximumScopeBytes := by
  simp only [decodeScope] at h
  split at h
  · next hc =>
    simp only [Bool.and_eq_true, decide_eq_true_eq, List.all_eq_true] at hc
    cases h
    exact ⟨rfl, hc.2, hc.1.2, hc.1.1.1⟩
  · cases h

/-- What was decrypted can be encrypted again as it stands. -/
theorem encodeScope_of_decodeScope (h : decodeScope entries = some values) :
    encodeScope values = some values := by
  obtain ⟨rfl, hnames, hvals, hsize⟩ := decodeScope_eq_some h
  have hsort := sortEntries_of_sorted (validateNames_sorted hnames)
  have htotal := (valuesTotal_le_plaintextSize values).trans hsize
  simp only [encodeScope, hsort, hnames, hsize, htotal, Bool.and_true, Bool.true_and, decide_true]
  rw [if_pos (List.all_eq_true.mpr hvals)]

/-- What was encrypted is read back unchanged. -/
theorem decodeScope_of_encodeScope (h : encodeScope values = some entries) :
    decodeScope entries = some entries := by
  obtain ⟨-, hnames, hvals, hsize⟩ := encodeScope_eq_some h
  have hlen : entries.length ≤ maximumVariables := by
    simp only [validateNames, Bool.and_eq_true, decide_eq_true_eq, List.length_map] at hnames
    exact hnames.1.1.1
  simp only [decodeScope, hnames, hsize, hlen, Bool.and_true, Bool.true_and, decide_true]
  rw [if_pos (List.all_eq_true.mpr hvals)]

theorem encodeScope_nil : encodeScope [] = some [] := by decide

/-! ### When two scopes merge -/

theorem cborHead_mono {m n : Nat} (h : m ≤ n) : cborHead m ≤ cborHead n := by
  simp only [cborHead]
  split_ifs <;> omega

theorem plaintextSize_perm (h : a.Perm b) : plaintextSize a = plaintextSize b := by
  rw [plaintextSize, plaintextSize, h.length_eq, (h.map entrySize).sum_eq]

theorem plaintextSize_sublist (h : a.Sublist b) : plaintextSize a ≤ plaintextSize b := by
  have hsum : (a.map entrySize).sum ≤ (b.map entrySize).sum :=
    (h.map entrySize).sum_le_sum (by simp)
  have hhead := cborHead_mono h.length_le
  rw [plaintextSize, plaintextSize]
  omega

theorem sortEntries_perm (values : Values) : (sortEntries values).Perm values :=
  List.perm_insertionSort _ _

/-- What a map of variables has to satisfy to be encoded. -/
structure Encodable (values : Values) : Prop where
  length : values.length ≤ maximumVariables
  names : ∀ entry ∈ values, validVariableName entry.1 = true
  folds : (values.map fun entry => toUpper entry.1).Nodup
  contents : ∀ entry ∈ values, validValue entry.2 = true
  size : plaintextSize values ≤ maximumScopeBytes

theorem Encodable.perm (h : Encodable a) (hp : a.Perm b) : Encodable b where
  length := hp.length_eq ▸ h.length
  names := fun entry he => h.names entry (hp.mem_iff.mpr he)
  folds := (hp.map _).nodup_iff.mp h.folds
  contents := fun entry he => h.contents entry (hp.mem_iff.mpr he)
  size := plaintextSize_perm hp ▸ h.size

theorem encodable_of_encodeScope (h : encodeScope values = some entries) : Encodable entries := by
  obtain ⟨-, hnames, hvals, hsize⟩ := encodeScope_eq_some h
  have hfolds := validateNames_folds hnames
  have hvalid := validateNames_valid hnames
  simp only [validateNames, Bool.and_eq_true, decide_eq_true_eq, List.length_map] at hnames
  rw [List.map_map] at hfolds
  exact ⟨hnames.1.1.1, fun entry he => hvalid _ (List.mem_map_of_mem he), hfolds, hvals, hsize⟩

theorem encodeScope_iff : (encodeScope values).isSome = true ↔ Encodable values := by
  constructor
  · intro h
    obtain ⟨entries, he⟩ := Option.isSome_iff_exists.mp h
    have hents := (encodeScope_eq_some he).1
    exact (encodable_of_encodeScope he).perm (hents ▸ sortEntries_perm values)
  · intro h
    have hs := h.perm (sortEntries_perm values).symm
    have hsorted : ((sortEntries values).map Prod.fst).Pairwise (· ≤ ·) := by
      rw [List.pairwise_map]
      exact List.pairwise_insertionSort (fun a b : String × Value => a.1 ≤ b.1) values
    have hfolds : (((sortEntries values).map Prod.fst).map toUpper).Nodup := by
      rw [List.map_map]
      exact hs.folds
    have hnames : validateNames ((sortEntries values).map Prod.fst) = true := by
      simp only [validateNames, Bool.and_eq_true, decide_eq_true_eq, List.length_map, List.all_map, List.all_eq_true]
      exact ⟨⟨⟨hs.length, hsorted⟩, hs.names⟩, hfolds⟩
    have htotal := (valuesTotal_le_plaintextSize (sortEntries values)).trans hs.size
    simp only [encodeScope, hnames, hs.size, htotal, List.all_eq_true.mpr hs.contents, decide_true, Bool.and_true]
    rfl

/-- Two scopes merge if no name is spelled differently in them and both together fit
the limits of one scope. -/
theorem mergeScopes_isSome {global machine : Values} (hg : Encodable global) (hm : Encodable machine)
    (hspell : ∀ x ∈ global, ∀ y ∈ machine, toUpper x.1 = toUpper y.1 → x.1 = y.1)
    (hlen : global.length + machine.length ≤ maximumVariables)
    (hsize : plaintextSize (global ++ machine) ≤ maximumScopeBytes) :
    (mergeScopes global machine).isSome = true := by
  have hclash : (machine.any fun m => global.any fun g => toUpper g.1 == toUpper m.1 && g.1 != m.1) = false := by
    rw [List.any_eq_false]
    intro y hy
    rw [Bool.not_eq_true, List.any_eq_false]
    intro x hx
    simp only [Bool.and_eq_true, beq_iff_eq, bne_iff_ne, ne_eq, not_and, not_not]
    exact hspell x hx y hy
  simp only [mergeScopes, encodeScope_iff.mpr hg, encodeScope_iff.mpr hm, Bool.and_true, if_true, hclash,
    Bool.false_eq_true, if_false]
  set rest := global.filter fun g => !(machine.map Prod.fst).contains g.1 with hrest
  have hsub : (rest ++ machine).Sublist (global ++ machine) := List.filter_sublist.append_right machine
  have hmem : ∀ x ∈ rest, x ∈ global ∧ x.1 ∉ machine.map Prod.fst := by
    intro x hx
    rw [hrest, List.mem_filter, Bool.not_eq_true', List.contains_eq_mem, decide_eq_false_iff_not] at hx
    exact hx
  rw [encodeScope_iff]
  refine ⟨?_, ?_, ?_, ?_, (plaintextSize_sublist hsub).trans hsize⟩
  · have := hsub.length_le
    rw [List.length_append, List.length_append] at this
    rw [List.length_append]
    omega
  · intro entry he
    rcases List.mem_append.mp he with h | h
    · exact hg.names entry (hmem entry h).1
    · exact hm.names entry h
  · rw [List.map_append, List.nodup_append']
    refine ⟨hg.folds.sublist (List.filter_sublist.map _), hm.folds, ?_⟩
    intro fold hinRest hinMachine
    obtain ⟨x, hx, hxfold⟩ := List.mem_map.mp hinRest
    obtain ⟨y, hy, hyfold⟩ := List.mem_map.mp hinMachine
    obtain ⟨hin, hout⟩ := hmem x hx
    rw [hspell x hin y hy (hxfold.trans hyfold.symm)] at hout
    exact hout (List.mem_map_of_mem hy)
  · intro entry he
    rcases List.mem_append.mp he with h | h
    · exact hg.contents entry (hmem entry h).1
    · exact hm.contents entry h

end Paperboat.EnvironmentE2EE
