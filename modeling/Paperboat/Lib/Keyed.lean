import Mathlib.Data.List.AList

/-! Maps of keyed entries. -/

namespace Paperboat

variable {κ α : Type*}

/-- A finite map with its entries in some order. -/
abbrev Keyed (κ α : Type*) := AList fun _ : κ => α

/-- The keys and values, for loops over the whole map. -/
def Keyed.toList (t : Keyed κ α) : List (κ × α) := t.entries.map fun e => (e.1, e.2)

end Paperboat
