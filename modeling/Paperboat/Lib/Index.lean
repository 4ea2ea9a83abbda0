import Mathlib.Data.List.Basic

/-! Lists and partial functions as tables of records: what is at a place after an entry was
added or replaced. -/

namespace Paperboat

variable {α : Type*} {l : List α} {i k : Nat} {a b : α}

theorem getElem?_concat_cases (h : (l ++ [a])[k]? = some b) : l[k]? = some b ∨ (k = l.length ∧ b = a) := by
  rcases Nat.lt_or_ge k l.length with hk | hk
  · rw [List.getElem?_append_left hk] at h
    exact Or.inl h
  · have hlt := (List.getElem?_eq_some_iff.mp h).1
    rw [List.getElem?_append_right hk] at h
    simp only [List.length_append, List.length_cons, List.length_nil] at hlt
    exact Or.inr ⟨by omega, List.mem_singleton.mp (List.mem_of_getElem? h)⟩

theorem getElem?_concat_of (h : l[k]? = some b) : (l ++ [a])[k]? = some b := by
  rw [List.getElem?_append_left (List.getElem?_eq_some_iff.mp h).1]
  exact h

theorem getElem?_set_cases (h : (l.set i a)[k]? = some b) : (k = i ∧ b = a) ∨ (k ≠ i ∧ l[k]? = some b) := by
  rw [List.getElem?_set] at h
  split at h
  · next hik =>
    split at h
    · exact Or.inl ⟨hik.symm, (Option.some.inj h).symm⟩
    · cases h
  · next hik => exact Or.inr ⟨Ne.symm hik, h⟩

theorem getElem?_set_of_ne (h : k ≠ i) : (l.set i a)[k]? = l[k]? := List.getElem?_set_ne (Ne.symm h)

theorem getElem?_set_self_of (h : l[i]? = some b) : (l.set i a)[i]? = some a :=
  List.getElem?_set_self (List.getElem?_eq_some_iff.mp h).1

theorem update_some_cases {κ : Type*} [DecidableEq κ] {f : κ → Option α} {x y : κ}
    (h : Function.update f x (some a) y = some b) : (y = x ∧ b = a) ∨ (y ≠ x ∧ f y = some b) := by
  by_cases hy : y = x
  · rw [hy, Function.update_self] at h
    exact Or.inl ⟨hy, (Option.some.inj h).symm⟩
  · rw [Function.update_of_ne hy] at h
    exact Or.inr ⟨hy, h⟩

end Paperboat
