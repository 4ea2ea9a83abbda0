import Mathlib.Tactic

/-! The part of a list between two positions. A stream that is cut into frames,
buffered at both ends and partly acknowledged keeps every piece as a segment of
one growing list; the lemmas here glue and cut such pieces. -/

namespace Paperboat

variable {α : Type*} {xs ys : List α} {a b c n : ℕ}

/-- The entries of `xs` at the positions from `a` up to but not including `b`. -/
def segment (xs : List α) (a b : ℕ) : List α := (xs.take b).drop a

theorem segment_length (h : b ≤ xs.length) : (segment xs a b).length = b - a := by
  rw [segment, List.length_drop, List.length_take, Nat.min_eq_left h]

@[simp] theorem segment_zero : segment xs 0 b = xs.take b := List.drop_zero

@[simp] theorem segment_self : segment xs a a = [] := by
  rw [segment, List.drop_eq_nil_iff, List.length_take]
  exact Nat.min_le_left ..

theorem segment_end : segment xs a xs.length = xs.drop a := by rw [segment, List.take_length]

theorem take_drop_eq_segment : (xs.drop a).take n = segment xs a (a + n) := List.take_drop

theorem eq_segment_of_prefix (h : ys <+: xs.drop a) : ys = segment xs a (a + ys.length) := by
  rw [← take_drop_eq_segment]
  exact List.prefix_iff_eq_take.mp h

theorem segment_drop : (segment xs a b).drop n = segment xs (a + n) b := List.drop_drop

theorem segment_take : (segment xs a b).take n = segment xs a (min (a + n) b) := by
  rw [segment, segment, List.take_drop, List.take_take]

/-- Two adjacent segments make one. -/
theorem segment_append (hab : a ≤ b) (hbc : b ≤ c) :
    segment xs a b ++ segment xs b c = segment xs a c := by
  have hcut : segment xs a b = (segment xs a c).take (b - a) := by
    rw [segment_take, Nat.add_sub_cancel' hab, Nat.min_eq_left hbc]
  have hrest : segment xs b c = (segment xs a c).drop (b - a) := by
    rw [segment_drop, Nat.add_sub_cancel' hab]
  rw [hcut, hrest, List.take_append_drop]

/-- A segment does not change when the list grows at its end. -/
theorem segment_grow (h : xs <+: ys) (hb : b ≤ xs.length) : segment ys a b = segment xs a b := by
  obtain ⟨t, rfl⟩ := h
  rw [segment, segment, List.take_append_of_le_length hb]

/-- The last segment grows with the list. -/
theorem segment_append_end (h : a ≤ xs.length) :
    segment (xs ++ ys) a (xs ++ ys).length = segment xs a xs.length ++ ys := by
  rw [segment_end, segment_end, List.drop_append_of_le_length h]

end Paperboat
