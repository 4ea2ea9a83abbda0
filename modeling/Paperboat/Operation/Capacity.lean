import Paperboat.Operation.AtMostOnce

/-! Room in the operation journal. An entry leaves the memory only through the order of
completion, which an operation that ends uncertain never joins, nor one that was restored
as pending. -/

namespace Paperboat.Operation

open Transition

/-! ### The entries that are held -/

theorem evict_held (max : Nat) (entries : List (String × Nat)) (order : List String) :
    ((evict max entries order).1.filter fun e => !(evict max entries order).2.contains e.1) =
      entries.filter fun e => !order.contains e.1 := by
  induction order generalizing entries with
  | nil => rfl
  | cons oldest order ih =>
    rw [evict]
    split
    · have hboth : ∀ e : String × Nat, (!order.contains e.1 && e.1 != oldest) = !(oldest :: order).contains e.1 := by
        intro e
        by_cases h : e.1 = oldest <;> simp [h]
      simp only [ih, List.filter_filter, hboth]
    · rfl

theorem evict_sublist (max : Nat) (entries : List (String × Nat)) (order : List String) :
    (evict max entries order).1.Sublist entries := by
  induction order generalizing entries with
  | nil => exact List.Sublist.refl _
  | cons oldest order ih =>
    rw [evict]
    split
    · exact (ih _).trans List.filter_sublist
    · exact List.Sublist.refl _

/-- The entry that joins the order is held no more. -/
theorem held_append {id : String} (entries : List (String × Nat)) (order : List String) (hnames : (entries.map (·.1)).Nodup)
    (hmem : id ∈ entries.map (·.1)) (hnew : id ∉ order) :
    (entries.filter fun e => !(order ++ [id]).contains e.1).length + 1 =
      (entries.filter fun e => !order.contains e.1).length := by
  induction entries with
  | nil => cases hmem
  | cons e entries ih =>
    rw [List.map_cons, List.nodup_cons] at hnames
    by_cases he : e.1 = id
    · have hrest : ∀ e' ∈ entries, (!(order ++ [id]).contains e'.1) = !order.contains e'.1 := by
        intro e' he'
        have hne : e'.1 ≠ id := fun h => hnames.1 (he ▸ h ▸ List.mem_map_of_mem he')
        simp [hne]
      rw [List.filter_cons_of_neg (by simp [he]), List.filter_cons_of_pos (by simp [he, hnew]), List.filter_congr hrest,
        List.length_cons]
    · have hmem' : id ∈ entries.map (·.1) := by simpa [Ne.symm he] using hmem
      have hsame : (!(order ++ [id]).contains e.1) = !order.contains e.1 := by simp [he]
      rw [List.filter_cons, List.filter_cons, hsame]
      split
      · rw [List.length_cons, List.length_cons, ← ih hnames.2 hmem']
      · exact ih hnames.2 hmem'

theorem lookup_isSome_iff (id : String) (entries : List (String × Nat)) :
    (entries.lookup id).isSome = true ↔ id ∈ entries.map (·.1) := by
  induction entries with
  | nil => simp
  | cons e entries ih => by_cases h : id = e.1 <;> simp_all

variable {η ρ : Type}

theorem load_names (now : Nat) (records : List (Row η)) :
    (load now records).entries.map (·.1) = records.map (·.operationID) := by
  rw [load, List.map_map, show (fun x : String × Nat => x.1) ∘ (fun x : Row η × Nat => (x.1.operationID, x.2)) =
    (·.operationID) ∘ Prod.fst from rfl, ← List.map_map, List.zipIdx_map_fst]

/-- A new journal holds the rows that were pending. -/
theorem load_held {records : List (Row η)} (h : (records.map (·.operationID)).Nodup) :
    (load now records).held.length = records.countP fun row => !row.isCompleted := by
  have horder : ∀ row ∈ records, (!((records.filter Row.isCompleted).map (·.operationID)).contains row.operationID) =
      !row.isCompleted := by
    intro row hrow
    cases hdone : row.isCompleted with
    | true => simpa using ⟨row, ⟨hrow, hdone⟩, rfl⟩
    | false =>
      have hnot : ∀ other ∈ records, other.isCompleted = true → other.operationID ≠ row.operationID := by
        intro other hother hd heq
        rw [List.inj_on_of_nodup_map h hother hrow heq, hdone] at hd
        cases hd
      simpa using hnot
  calc (load now records).held.length
      = records.zipIdx.countP
        ((fun row => !((records.filter Row.isCompleted).map (·.operationID)).contains row.operationID) ∘
          Prod.fst) := by
        rw [Journal.held, load, List.filter_map, List.length_map, List.countP_eq_length_filter]
        rfl
    _ = records.countP fun row => !((records.filter Row.isCompleted).map (·.operationID)).contains row.operationID := by
        rw [← List.countP_map, List.zipIdx_map_fst]
    _ = records.countP fun row => !row.isCompleted := List.countP_congr fun row hrow => by rw [horder row hrow]

/-! ### How the operations end -/

/-- A system with the number of operations that, since the process started, were restored
as pending or ended uncertain. -/
structure Counted (η : Type) where
  system : System η := {}
  stuck : Nat := 0
  deriving DecidableEq

/-- The operations that a step leaves without a known outcome, of `n` before it. -/
def stuckAfter (config : Config) (s : System η) (n : Nat) : Action ρ → System η → Nat
  | .boot now .ok, _ =>
    (operationsExcludingPrefix (deleteExpiredOperations s.rows now) "exec:" config.max).countP fun row => !row.isCompleted
  | .settle _, t => if t.replies.getLast?.any (·.err.isSome) then n + 1 else n
  | _, _ => n

def Counted.step [DecidableEq η] (canonicalHash : ρ → Option η) (config : Config) (x : Counted η) (a : Action ρ) :
    Option (Counted η) := do
  let t ← x.system.step canonicalHash config a
  some ⟨t, stuckAfter config x.system x.stuck a t⟩

variable {canonicalHash : ρ → Option η} {config : Config} {s t : System η} {j l : Journal η} {n i : Nat} {c d : Call η}
    {a : Action ρ}

def Call.runs (c : Call η) : Bool := c.point.owned.isSome

/-- The held entries are those of the calls that run and of the stuck operations. -/
structure Balanced (s : System η) (n : Nat) : Prop where
  inv : Inv s
  names : ∀ j, s.journal = some j → (j.entries.map (·.1)).Nodup
  locked : ∀ j, s.journal = some j → ∀ i, j.lock = some i → ∃ c, s.calls[i]? = some c ∧
    ((∃ now, c.point = .cleaning now) ∨ c.point = .reserving)
  held : ∀ j, s.journal = some j → j.held.length = n + s.calls.countP Call.runs

theorem countP_set (hc : s.calls[i]? = some c) :
    (s.calls.set i d).countP Call.runs + c.runs.toNat = s.calls.countP Call.runs + d.runs.toNat := by
  obtain ⟨hlt, rfl⟩ := List.getElem?_eq_some_iff.mp hc
  have hpos : (s.calls[i]).runs = true → 0 < s.calls.countP Call.runs := fun h =>
    List.countP_pos_iff.mpr ⟨_, List.getElem_mem hlt, h⟩
  rw [List.countP_set hlt]
  cases h : (s.calls[i]).runs <;> cases d.runs <;> simp_all

/-- A call that does not hold the lock moves, and the entries stay in balance. -/
theorem Balanced.moved (h : Balanced s n) (hj : s.journal = some j) (hc : s.calls[i]? = some c) (hinv : Inv t)
    (htj : t.journal = some l) (hcalls : t.calls = s.calls.set i d)
    (hlock : l.lock = none ∨ (l.lock = some i ∧ ((∃ now, d.point = .cleaning now) ∨ d.point = .reserving)) ∨
      (l.lock = j.lock ∧ ∀ now, c.point ≠ .cleaning now ∧ c.point ≠ .reserving))
    (hnames : (l.entries.map (·.1)).Nodup)
    (hheld : l.held.length + n + c.runs.toNat = j.held.length + m + d.runs.toNat) : Balanced t m := by
  refine ⟨hinv, fun l' hl' => ?_, fun l' hl' k hk => ?_, fun l' hl' => ?_⟩ <;> cases htj.symm.trans hl'
  · exact hnames
  · rw [hcalls]
    rcases hlock with hnone | ⟨hown, hpoint⟩ | ⟨hsame, hfree⟩
    · rw [hnone] at hk
      cases hk
    · cases hown.symm.trans hk
      exact ⟨d, getElem?_set_self_of hc, hpoint⟩
    · obtain ⟨e, he, hpoint⟩ := h.locked j hj k (hsame ▸ hk)
      by_cases hki : k = i
      · subst hki
        cases hc.symm.trans he
        rcases hpoint with ⟨now, hpoint⟩ | hpoint
        · exact absurd hpoint (hfree now).1
        · exact absurd hpoint (hfree 0).2
      · exact ⟨e, by rw [getElem?_set_of_ne hki]; exact he, hpoint⟩
  · have hcount := countP_set (d := d) hc
    have hold := h.held j hj
    rw [hcalls]
    omega

theorem Balanced.loaded (h : Balanced s n) (hdown : s.journal = none) (hinv : Inv (s.loaded config now)) :
    Balanced (s.loaded config now) (stuckAfter config s n (.boot now .ok : Action ρ) (s.loaded config now)) := by
  have hids := h.inv.durable.loaded_ids config now
  refine ⟨hinv, fun j hj => ?_, fun j hj => ?_, fun j hj => ?_⟩ <;> cases hj
  · rw [load_names]
    exact hids
  · exact nofun
  · rw [load_held hids]
    simp [stuckAfter, System.loaded, h.inv.idle hdown]

variable [DecidableEq η]

theorem Balanced.callStep (h : Balanced s n) (hj : s.journal = some j) (hc : s.calls[i]? = some c) (hinv : Inv t)
    (hstep : CallStep config s j i c a t) : Balanced t (stuckAfter config s n a t) := by
  have hnames := h.names j hj
  have hheld := h.inv.held j hj
  have hevicted : ∀ lock, ((j.evicted config.max lock).entries.map (·.1)).Nodup := fun _ =>
    hnames.sublist ((evict_sublist ..).map _)
  have hkept : ∀ lock, (j.evicted config.max lock).held = j.held := fun _ => evict_held ..
  cases hstep with
  | waits hpoint | conflicts hpoint | cancel hpoint | start hpoint | finish hpoint | wake hpoint =>
    exact h.moved hj hc hinv hj rfl (.inr (.inr ⟨rfl, by simp [hpoint]⟩)) hnames
      (by simp [stuckAfter, Call.runs, hpoint, Point.owned])
  | unrecorded hpoint | records hpoint =>
    exact h.moved hj hc hinv hj rfl (.inr (.inr ⟨rfl, by simp [hpoint]⟩)) hnames
      (by simp [stuckAfter, Call.runs, hpoint, Point.owned])
  | full hpoint =>
    exact h.moved hj hc hinv rfl rfl (.inl rfl) (hevicted _) (by simp [stuckAfter, hkept, Call.runs, hpoint, Point.owned])
  | admitted hpoint _ _ _ hnext =>
    refine h.moved hj hc hinv rfl rfl (.inr (.inl ⟨rfl, hnext.imp_left fun hp => ⟨_, hp⟩⟩)) (hevicted _) ?_
    rcases hnext with rfl | rfl <;> simp [stuckAfter, hkept, Call.runs, hpoint, Point.owned]
  | cleaned hpoint =>
    obtain ⟨hlock, -⟩ := (hheld.calls i c hc).locks (.inl ⟨_, hpoint⟩)
    exact h.moved hj hc hinv rfl rfl (.inr (.inl ⟨hlock, .inr rfl⟩)) hnames
      (by simp [stuckAfter, Journal.held, Call.runs, hpoint, Point.owned])
  | uncleaned hpoint | replays hpoint | clashes hpoint | unreserved hpoint | reservedLate hpoint =>
    exact h.moved hj hc hinv rfl rfl (.inl rfl) hnames
      (by simp [stuckAfter, Journal.held, Call.runs, hpoint, Point.owned])
  | inserts hpoint =>
    obtain ⟨-, hmiss⟩ := (hheld.calls i c hc).locks (.inr hpoint)
    have hfresh : c.operationID ∉ j.entries.map (·.1) := fun hmem => by
      simpa [hmiss] using (lookup_isSome_iff ..).mpr hmem
    have hunlisted : c.operationID ∉ j.order := fun hmem => by simpa [hmiss] using hheld.listed _ hmem
    refine h.moved hj hc hinv rfl rfl (.inl rfl) (List.nodup_cons.mpr ⟨hfresh, hnames⟩) ?_
    simp [stuckAfter, Journal.held, Journal.insert, hunlisted, Call.runs, hpoint, Point.owned]
    omega
  | @settle ref outcome err e hpoint he hlock =>
    have howned : c.point.owned = some ref := by rw [hpoint]; rfl
    obtain ⟨v, howner, -⟩ := hheld.owner hc howned he
    refine h.moved hj hc hinv rfl rfl (.inl hlock) hnames ?_
    cases err with
    | none =>
      have hmem := (lookup_isSome_iff c.operationID j.entries).mp (by simp [howner.lookup])
      have hone := held_append j.entries j.order hnames hmem (hheld.unlisted howner)
      simp [stuckAfter, System.settle, System.reply, Journal.held, Call.runs, hpoint, Point.owned] at hone ⊢
      omega
    | some err =>
      simp [stuckAfter, System.settle, System.reply, Journal.held, Call.runs, hpoint, Point.owned]
      omega

theorem Balanced.step (h : Balanced s n) (hs : s.step canonicalHash config a = some t) :
    Balanced t (stuckAfter config s n a t) := by
  have hinv : Inv t := h.inv.step hs
  rcases step_cases hs with ⟨_, _, rfl, -, rfl | ⟨_, rfl⟩⟩ | ⟨rfl, rfl⟩ |
    ⟨now, fault, rfl, hdown, ⟨rfl, rfl⟩ | ⟨-, heq⟩⟩ | ⟨i, j, c, hj, hc, hstep⟩
  · exact h
  · refine ⟨hinv, h.names, fun j hj k hk => ?_, fun j hj => ?_⟩
    · obtain ⟨c, hc, hpoint⟩ := h.locked j hj k hk
      exact ⟨c, getElem?_concat_of hc, hpoint⟩
    · simpa [stuckAfter, Call.runs, Point.owned] using h.held j hj
  · exact ⟨hinv, by simp, by simp, by simp⟩
  · exact h.loaded hdown hinv
  · have hnone : t.journal = none := by rcases heq with rfl | rfl <;> exact hdown
    exact ⟨hinv, by simp [hnone], by simp [hnone], by simp [hnone]⟩
  · exact h.callStep hj hc hinv hstep

namespace Demo

/-- An operation from its call to the answer. -/
def operation (i : Nat) (id : String) (fault : Fault) : List (Action Nat) :=
  [.call id 7, .enter i 0, .reserve i 0 .ok, .start i, .finish i ⟨[], ""⟩, .complete i 0 fault, .settle i]

/-- The result of the only operation is not recorded. -/
def unrecorded : List (Action Nat) := .boot 0 .ok :: operation 0 "operation-1" .failed

/-- The process restarts, and an operation completes. -/
def restarted : List (Action Nat) := unrecorded ++ [.crash, .boot 0 .ok] ++ operation 0 "operation-2" .ok

end Demo

end Paperboat.Operation
