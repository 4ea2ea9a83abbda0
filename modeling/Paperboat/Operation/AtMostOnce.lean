import Paperboat.Lib.Index
import Paperboat.Operation.Steps

/-! Operations run at most once. Every insertion of a row is one reservation; the call that
inserted the row starts the callback, and every answer comes from a reservation whose
outcome the store has, or says that the outcome is uncertain. A reservation makes room for
another one of the same identifier only when its row has expired. -/

namespace Paperboat.Operation

variable {η : Type}

/-! ### What is known of a reservation -/

def Names (vs : List (Reservation η)) (r : Nat) (operationID : String) (hash : η) : Prop :=
  ∃ v, vs[r]? = some v ∧ v.operationID = operationID ∧ v.hash = hash

def Recorded (vs : List (Reservation η)) (r : Nat) (outcome : Outcome) : Prop :=
  ∃ v, vs[r]? = some v ∧ v.outcome = some outcome ∧ v.recorded = true

/-- What is known stays. -/
structure Later (v w : Reservation η) : Prop where
  operationID : w.operationID = v.operationID
  hash : w.hash = v.hash
  outcome : ∀ o, v.outcome = some o → w.outcome = some o
  recorded : v.recorded = true → w.recorded = true

def Grown (vs ws : List (Reservation η)) : Prop :=
  ∀ (r : Nat) (v : Reservation η), vs[r]? = some v → ∃ w, ws[r]? = some w ∧ Later v w

variable {vs ws : List (Reservation η)} {r : Nat}

theorem Later.refl (v : Reservation η) : Later v v := ⟨rfl, rfl, fun _ ho => ho, fun hr => hr⟩

theorem Grown.refl (vs : List (Reservation η)) : Grown vs vs := fun _ v hv => ⟨v, hv, .refl v⟩

theorem Grown.append (vs : List (Reservation η)) (v : Reservation η) : Grown vs (vs ++ [v]) := by
  intro r w hw
  exact ⟨w, getElem?_concat_of hw, .refl w⟩

variable {f : Reservation η → Reservation η} {v : Reservation η} {hash : η}
    {entries : List (String × Nat)} {id : String} {max ref now expiresAt : Nat}
    {order : List String} {row : Row η} {e : Entry η} {outcome : Outcome}

theorem getElem?_modify_ne (h : r ≠ r') : (vs.modify r f)[r']? = vs[r']? := by
  rw [List.getElem?_modify]
  cases hv : vs[r']? with
  | none => rfl
  | some v => simp [h]

theorem getElem?_modify_self (h : vs[r]? = some v) : (vs.modify r f)[r]? = some (f v) := by
  rw [List.getElem?_modify, h]
  simp

theorem Grown.modify (h : ∀ v, vs[r]? = some v → Later v (f v)) : Grown vs (vs.modify r f) := by
  intro r' v hv
  by_cases hr : r = r'
  · subst hr
    exact ⟨f v, getElem?_modify_self hv, h v hv⟩
  · exact ⟨v, by rw [getElem?_modify_ne hr]; exact hv, .refl v⟩

variable {w : Reservation η} {operationID oldest : String} {x : Reply η}

theorem Grown.back (h : Grown vs ws) (hlen : ws.length = vs.length) (hw : ws[r]? = some w) :
    ∃ v, vs[r]? = some v ∧ v.operationID = w.operationID := by
  have hlt := (List.getElem?_eq_some_iff.mp hw).1
  obtain ⟨v, hv⟩ : ∃ v, vs[r]? = some v := ⟨_, List.getElem?_eq_getElem (hlen ▸ hlt)⟩
  obtain ⟨w', hw', hl⟩ := h r v hv
  rw [hw] at hw'
  cases hw'
  exact ⟨v, hv, hl.operationID.symm⟩

theorem Names.mono (h : Names vs r operationID hash) (hg : Grown vs ws) :
    Names ws r operationID hash := by
  obtain ⟨v, hv, hid, hhash⟩ := h
  obtain ⟨w, hw, hl⟩ := hg r v hv
  exact ⟨w, hw, hl.operationID.trans hid, hl.hash.trans hhash⟩

theorem Recorded.mono (h : Recorded vs r o) (hg : Grown vs ws) : Recorded ws r o := by
  obtain ⟨v, hv, ho, hr⟩ := h
  obtain ⟨w, hw, hl⟩ := hg r v hv
  exact ⟨w, hw, hl.outcome o ho, hl.recorded hr⟩

/-! ### The invariant -/

/-- The row of the reservation is gone. -/
def System.Lapsed (s : System η) (r : Nat) : Prop := ∀ row ∈ s.rows, row.reservation ≠ r

/-- An answer: an error of its own, or what is known of a reservation of the request. -/
def Sound (vs : List (Reservation η)) (x : Reply η) : Prop :=
  (x.reservation = none ∧ ∃ e ∈ [ExecError.conflict, .full, .store, .canceled], x.err = some e) ∨
    ∃ r, x.reservation = some r ∧
      Names vs r x.operationID x.hash ∧ (x.err = some .uncertain ∨ (x.err = none ∧ Recorded vs r x.outcome))

structure Durable (s : System η) : Prop where
  ids : (s.rows.map (·.operationID)).Nodup
  rows : ∀ row ∈ s.rows, Names s.reservations row.reservation row.operationID row.requestHash ∧
    ∀ o t, row.state = .completed o t → Recorded s.reservations row.reservation o
  pending : ∀ row ∈ s.rows, row.state = .pending → ∀ v, s.reservations[row.reservation]? = some v → v.recorded = false
  lapsed : ∀ (r r' : Nat) (v w : Reservation η), r < r' → s.reservations[r]? = some v → s.reservations[r']? = some w →
    v.operationID = w.operationID → s.Lapsed r
  starts : ∀ v ∈ s.reservations, v.starts ≤ 1
  replies : ∀ x ∈ s.replies, Sound s.reservations x

/-- The entry of a call between its reservation and its return. -/
def Point.owned : Point → Option Nat
  | .starting ref | .running ref | .completing ref _ | .settling ref _ _ => some ref
  | _ => none

/-- What the reservation of such a call looks like. -/
def Point.Fits (v : Reservation η) : Point → Prop
  | .starting _ => v.starts = 0 ∧ v.outcome = none
  | .running _ => v.outcome = none
  | .completing _ o => v.outcome = some o
  | .settling _ o err => v.outcome = some o ∧ (err = some .uncertain ∨ (err = none ∧ v.recorded = true))
  | _ => True

/-- The call's entry is in the map and open, and a row of its identifier is its own. -/
structure Owned (rows : List (Row η)) (j : Journal η) (c : Call η) (ref : Nat) (e : Entry η) : Prop where
  entry : j.heap[ref]? = some e
  running : e.complete = false
  lookup : j.entries.lookup c.operationID = some ref
  row : ∀ row ∈ rows, row.operationID = c.operationID → row.reservation = e.reservation

/-- Where call `i` is agrees with the journal. -/
structure At (vs : List (Reservation η)) (rows : List (Row η)) (j : Journal η) (i : Nat) (c : Call η) : Prop where
  locks : (∃ now, c.point = .cleaning now) ∨ c.point = .reserving →
    j.lock = some i ∧ j.entries.lookup c.operationID = none
  waits : ∀ ref, c.point = .waiting ref → ∃ e, j.heap[ref]? = some e ∧ Names vs e.reservation c.operationID c.hash
  owns : ∀ ref, c.point.owned = some ref → ∃ e v, Owned rows j c ref e ∧ vs[e.reservation]? = some v ∧
    v.operationID = c.operationID ∧ v.hash = c.hash ∧ c.point.Fits v

structure Held (s : System η) (j : Journal η) : Prop where
  heap : ∀ (ref : Nat) (e : Entry η), j.heap[ref]? = some e → (∃ id, Names s.reservations e.reservation id e.hash) ∧
    (e.complete = true → e.err = some .uncertain ∨ (e.err = none ∧ Recorded s.reservations e.reservation e.outcome))
  distinct : ∀ (ref ref' : Nat) (e e' : Entry η), j.heap[ref]? = some e → j.heap[ref']? = some e' →
    e.reservation = e'.reservation → ref = ref'
  entries : ∀ id ref, j.entries.lookup id = some ref → ∃ e, j.heap[ref]? = some e ∧
    Names s.reservations e.reservation id e.hash
  order : ∀ id ∈ j.order, ∀ (ref : Nat) (e : Entry η), j.entries.lookup id = some ref → j.heap[ref]? = some e →
    e.complete = true
  listed : ∀ id ∈ j.order, (j.entries.lookup id).isSome = true
  once : j.order.Nodup
  calls : ∀ (i : Nat) (c : Call η), s.calls[i]? = some c → At s.reservations s.rows j i c
  unique : ∀ (i k : Nat) (c d : Call η) (ref : Nat), s.calls[i]? = some c → s.calls[k]? = some d →
    c.point.owned = some ref → d.point.owned = some ref → i = k

structure Inv (s : System η) : Prop where
  durable : Durable s
  held : ∀ j, s.journal = some j → Held s j
  idle : s.journal = none → s.calls = []

/-! ### Steps of one call and the others -/

/-- What a step of call `i` leaves to the other calls. -/
structure Others (s : System η) (j : Journal η) (ws : List (Reservation η)) (rows : List (Row η)) (l : Journal η)
    (i : Nat) : Prop where
  grown : Grown s.reservations ws
  heap : ∀ (ref : Nat) (e : Entry η), j.heap[ref]? = some e → ∃ e', l.heap[ref]? = some e' ∧ e'.reservation = e.reservation
  locked : ∀ k id, k ≠ i → j.lock = some k → j.entries.lookup id = none → l.lock = some k ∧ l.entries.lookup id = none
  owned : ∀ (k : Nat) (c : Call η) (ref : Nat) (e : Entry η), k ≠ i → s.calls[k]? = some c → c.point.owned = some ref →
    Owned s.rows j c ref e → Owned rows l c ref e ∧ ws[e.reservation]? = s.reservations[e.reservation]?

variable {s t : System η} {j l : Journal η} {i k : Nat} {c d : Call η} {rows : List (Row η)}

theorem At.others (h : At s.reservations s.rows j k c) (ho : Others s j ws rows l i) (hk : k ≠ i)
    (hc : s.calls[k]? = some c) : At ws rows l k c := by
  refine ⟨fun hpoint => ?_, fun ref hpoint => ?_, fun ref hpoint => ?_⟩
  · obtain ⟨hlock, hnone⟩ := h.locks hpoint
    exact ho.locked k c.operationID hk hlock hnone
  · obtain ⟨e, he, hnames⟩ := h.waits ref hpoint
    obtain ⟨e', he', heq⟩ := ho.heap ref e he
    exact ⟨e', he', by rw [heq]; exact hnames.mono ho.grown⟩
  · obtain ⟨e, v, howned, hv, hid, hhash, hfits⟩ := h.owns ref hpoint
    obtain ⟨howned', hsame⟩ := ho.owned k c ref e hk hc hpoint howned
    exact ⟨e, v, howned', by rw [hsame]; exact hv, hid, hhash, hfits⟩

/-- Every call agrees with the journal, and no two of them have one entry. -/
def Placed (vs : List (Reservation η)) (rows : List (Row η)) (l : Journal η) (calls : List (Call η)) : Prop :=
  (∀ (k : Nat) (c : Call η), calls[k]? = some c → At vs rows l k c) ∧
    ∀ (k k' : Nat) (c c' : Call η) (ref : Nat), calls[k]? = some c → calls[k']? = some c' →
      c.point.owned = some ref → c'.point.owned = some ref → k = k'

/-- The calls after call `i` has moved on: it keeps its entry or takes one that no other
call has. -/
theorem placed_of_others (h : Held s j) (ho : Others s j ws rows l i) (hd : At ws rows l i d)
    (howned : ∀ ref, d.point.owned = some ref → (∃ c, s.calls[i]? = some c ∧ c.point.owned = some ref) ∨
      ∀ (k : Nat) (c : Call η), s.calls[k]? = some c → c.point.owned ≠ some ref) :
    Placed ws rows l (s.calls.set i d) := by
  have hmine : ∀ {k : Nat} {c : Call η} {ref : Nat}, k ≠ i → s.calls[k]? = some c → c.point.owned = some ref →
      d.point.owned ≠ some ref := by
    intro k c ref hk hc hcr hdr
    rcases howned ref hdr with ⟨c₀, hc₀, hown⟩ | hnone
    · exact hk (h.unique k i c c₀ ref hc hc₀ hcr hown)
    · exact hnone k c hc hcr
  constructor
  · intro k c hc
    rcases getElem?_set_cases hc with ⟨rfl, rfl⟩ | ⟨hk, hc⟩
    · exact hd
    · exact (h.calls k c hc).others ho hk hc
  · intro k k' c c' ref hc hc' hcr hcr'
    rcases getElem?_set_cases hc with ⟨hk, hcd⟩ | ⟨hk, hold⟩
    · rcases getElem?_set_cases hc' with ⟨hk', -⟩ | ⟨hk', hold'⟩
      · exact hk.trans hk'.symm
      · exact absurd (hcd ▸ hcr) (hmine hk' hold' hcr')
    · rcases getElem?_set_cases hc' with ⟨-, hcd⟩ | ⟨hk', hold'⟩
      · exact absurd (hcd ▸ hcr') (hmine hk hold hcr)
      · exact h.unique k k' c c' ref hold hold' hcr hcr'

theorem Sound.mono (h : Sound vs x) (hg : Grown vs ws) : Sound ws x := by
  rcases h with hnone | ⟨r, hr, hnames, herr⟩
  · exact Or.inl hnone
  · exact Or.inr ⟨r, hr, hnames.mono hg, herr.imp_right fun h => ⟨h.1, h.2.mono hg⟩⟩

/-- The rows may get fewer, replies are added, and what is known of the reservations
grows. -/
theorem Durable.grow (h : Durable s) (hg : Grown s.reservations t.reservations)
    (hlen : t.reservations.length = s.reservations.length) (hrows : t.rows.Sublist s.rows)
    (hpend : ∀ row ∈ t.rows, row.state = .pending → ∀ v, t.reservations[row.reservation]? = some v → v.recorded = false)
    (hstarts : ∀ v ∈ t.reservations, v.starts ≤ 1)
    (hrepl : ∀ x ∈ t.replies, x ∈ s.replies ∨ Sound t.reservations x) : Durable t := by
  refine ⟨h.ids.sublist (hrows.map _), fun row hrow => ?_, hpend, fun r r' v w hlt hv hw hid row hrow => ?_, hstarts,
    fun x hx => ?_⟩
  · obtain ⟨hnames, hrecd⟩ := h.rows row (hrows.subset hrow)
    exact ⟨hnames.mono hg, fun o t ht => (hrecd o t ht).mono hg⟩
  · obtain ⟨v', hv', hvid⟩ := hg.back hlen hv
    obtain ⟨w', hw', hwid⟩ := hg.back hlen hw
    exact h.lapsed r r' v' w' hlt hv' hw' (by rw [hvid, hwid, hid]) row (hrows.subset hrow)
  · rcases hrepl x hx with hold | hsound
    · exact (h.replies x hold).mono hg
    · exact hsound

/-- The journal only forgets entries. -/
structure Forgets (j l : Journal η) : Prop where
  heap : l.heap = j.heap
  entries : ∀ id ref, l.entries.lookup id = some ref → j.entries.lookup id = some ref
  order : l.order.Sublist j.order
  listed : ∀ id ∈ l.order, l.entries.lookup id = j.entries.lookup id

theorem Forgets.refl (j : Journal η) : Forgets j j :=
  ⟨rfl, fun _ _ hl => hl, List.Sublist.refl _, fun _ _ => rfl⟩

theorem Held.forget (h : Held s j) (hg : Grown s.reservations t.reservations) (hf : Forgets j l)
    (hplaced : Placed t.reservations t.rows l t.calls) : Held t l := by
  refine ⟨fun ref e he => ?_, fun ref ref' e e' he he' => ?_, fun id ref hid => ?_, fun id hid ref e hlook he => ?_,
    fun id hid => ?_, h.once.sublist hf.order, hplaced.1, hplaced.2⟩
  · obtain ⟨⟨id, hnames⟩, hcomp⟩ := h.heap ref e (hf.heap ▸ he)
    exact ⟨⟨id, hnames.mono hg⟩, fun hc => (hcomp hc).imp_right fun hr => ⟨hr.1, hr.2.mono hg⟩⟩
  · exact h.distinct ref ref' e e' (hf.heap ▸ he) (hf.heap ▸ he')
  · obtain ⟨e, he, hnames⟩ := h.entries id ref (hf.entries id ref hid)
    exact ⟨e, hf.heap ▸ he, hnames.mono hg⟩
  · exact h.order id (hf.order.subset hid) ref e (hf.entries id ref hlook) (hf.heap ▸ he)
  · rw [hf.listed id hid]
    exact h.listed id (hf.order.subset hid)

/-- Every step of a call that leaves the journal's entries alone. -/
theorem Inv.quiet (h : Inv s) (hj : s.journal = some j) (htj : t.journal = some l)
    (ho : Others s j t.reservations t.rows l i) (hf : Forgets j l) (hcalls : t.calls = s.calls.set i d)
    (hd : At t.reservations t.rows l i d)
      (howned : ∀ ref, d.point.owned = some ref → ∃ c, s.calls[i]? = some c ∧ c.point.owned = some ref)
    (hdur : Durable t) : Inv t := by
  have hplaced := placed_of_others (h.held j hj) ho hd fun ref href => Or.inl (howned ref href)
  refine ⟨hdur, fun l' hl' => ?_, fun hnone => ?_⟩
  · rw [htj] at hl'
    cases hl'
    exact (h.held j hj).forget ho.grown hf (hcalls ▸ hplaced)
  · rw [htj] at hnone
    cases hnone

/-! ### Eviction -/

theorem lookup_filter_ne (h : id ≠ oldest) :
    (entries.filter fun e => e.1 != oldest).lookup id = entries.lookup id := by
  induction entries with
  | nil => rfl
  | cons e entries ih =>
    by_cases he : e.1 = oldest
    · have hid : (id == e.1) = false := by simp [he, h]
      rw [List.filter_cons_of_neg (by simp [he]), ih, List.lookup_cons, hid]
    · rw [List.filter_cons_of_pos (by simp [he]), List.lookup_cons, List.lookup_cons, ih]

theorem lookup_filter_self : (entries.filter fun e => e.1 != oldest).lookup oldest = none := by
  rw [List.lookup_eq_none_iff]
  intro e he
  have hne := (List.mem_filter.mp he).2
  simp only [bne_iff_ne] at hne
  simp [Ne.symm hne]

theorem evict_lookup (h : id ∉ order) : (evict max entries order).1.lookup id = entries.lookup id := by
  induction order generalizing entries with
  | nil => rfl
  | cons oldest order ih =>
    simp only [List.mem_cons, not_or] at h
    simp only [evict]
    split
    · rw [ih h.2, lookup_filter_ne h.1]
    · rfl

theorem evict_lookup_some
    (h : (evict max entries order).1.lookup id = some ref) : entries.lookup id = some ref := by
  induction order generalizing entries with
  | nil => exact h
  | cons oldest order ih =>
    simp only [evict] at h
    split at h
    · have hfiltered := ih h
      by_cases hid : id = oldest
      · rw [hid, lookup_filter_self] at hfiltered
        cases hfiltered
      · rw [lookup_filter_ne hid] at hfiltered
        exact hfiltered
    · exact h

theorem evict_order : (evict max entries order).2.Sublist order := by
  induction order generalizing entries with
  | nil => exact List.Sublist.refl _
  | cons oldest order ih =>
    simp only [evict]
    split
    · exact ih.trans (List.sublist_cons_self ..)
    · exact List.Sublist.refl _

theorem evict_listed (hnodup : order.Nodup) :
    ∀ id ∈ (evict max entries order).2, (evict max entries order).1.lookup id = entries.lookup id := by
  induction order generalizing entries with
  | nil => exact fun id hid => absurd hid List.not_mem_nil
  | cons oldest order ih =>
    intro id hid
    simp only [evict] at hid ⊢
    split at hid
    · next hfull =>
      rw [if_pos hfull, ih (List.nodup_cons.mp hnodup).2 id hid, lookup_filter_ne]
      rintro rfl
      exact (List.nodup_cons.mp hnodup).1 (evict_order.subset hid)
    · next hroom => rw [if_neg hroom]

/-- The entries that can not be evicted. -/
def Journal.held (j : Journal η) : List (String × Nat) := j.entries.filter fun e => !j.order.contains e.1

theorem evict_length_lt_iff (max : Nat) (entries : List (String × Nat)) (order : List String) :
    (evict max entries order).1.length < max ↔ (entries.filter fun e => !order.contains e.1).length < max := by
  induction order generalizing entries with
  | nil => simp [evict]
  | cons oldest order ih =>
    rw [evict]
    split
    · have hboth : ∀ e : String × Nat, (!order.contains e.1 && e.1 != oldest) = !(oldest :: order).contains e.1 := by
        intro e
        by_cases h : e.1 = oldest <;> simp [h]
      simp only [ih, List.filter_filter, hboth]
    · next hroom =>
      have hle := List.length_filter_le (fun e => !(oldest :: order).contains e.1) entries
      exact iff_of_true (Nat.not_le.mp hroom) (Nat.lt_of_le_of_lt hle (Nat.not_le.mp hroom))

theorem Held.evicted (h : Held s j) : Forgets j (j.evicted max lock) :=
  ⟨rfl, fun _ _ => evict_lookup_some, evict_order, evict_listed h.once⟩

/-! ### The steps -/

/-- A step that leaves the reservations and the entries' contents alone. -/
theorem others_of (hrows : rows ⊆ s.rows) (hheap : l.heap = j.heap)
    (hlocked : ∀ k id, k ≠ i → j.lock = some k → j.entries.lookup id = none → l.lock = some k ∧ l.entries.lookup id = none)
    (howned : ∀ (c : Call η) (ref : Nat) (e : Entry η), Owned s.rows j c ref e → l.entries.lookup c.operationID = some ref) :
    Others s j s.reservations rows l i := by
  refine ⟨Grown.refl _, fun ref e he => ⟨e, hheap ▸ he, rfl⟩, hlocked, fun k c ref e _ _ _ ho => ⟨?_, rfl⟩⟩
  exact ⟨hheap ▸ ho.entry, ho.running, howned c ref e ho, fun row hrow => ho.row row (hrows hrow)⟩

/-- A call that has returned needs nothing. -/
theorem At.returned : At vs rows j i { c with point := .returned } :=
  ⟨by simp, by simp, by simp [Point.owned]⟩

theorem Durable.reply (h : Durable s) (hrows : t.rows.Sublist s.rows) (hres : t.reservations = s.reservations)
    (hrepl : ∀ x ∈ t.replies, x ∈ s.replies ∨ Sound t.reservations x) : Durable t :=
  h.grow (hres ▸ Grown.refl _) (by rw [hres]) hrows (by rw [hres]; exact fun row hrow => h.pending row (hrows.subset hrow))
    (by rw [hres]; exact h.starts) hrepl

/-- Rows may be gone; calls and replies are as they were. -/
structure Shrinks (s t : System η) : Prop where
  rows : t.rows.Sublist s.rows
  reservations : t.reservations = s.reservations
  replies : t.replies = s.replies
  calls : t.calls = s.calls

theorem Shrinks.refl (s : System η) : Shrinks s s := ⟨List.Sublist.refl _, rfl, rfl, rfl⟩

/-- The call returns, after the journal forgot entries or gave up its lock. -/
theorem Inv.reply (h : Inv s) (hj : s.journal = some j) (htj : t.journal = some l)
    (ho : Others s j s.reservations t.rows l i) (hst : Shrinks s t) (hf : Forgets j l)
    (hsound : Sound s.reservations x) : Inv (t.reply i c x) := by
  have hcalls' : (t.reply i c x).calls = s.calls.set i { c with point := .returned } := by
    simp [System.reply, System.move, hst.calls]
  have ho' : Others s j (t.reply i c x).reservations (t.reply i c x).rows l i := by
    rw [show (t.reply i c x).reservations = s.reservations from hst.reservations]
    exact ho
  refine h.quiet hj htj ho' hf hcalls' At.returned (by simp [Point.owned])
    (h.durable.reply hst.rows hst.reservations fun y hy => ?_)
  simp only [System.reply, System.move, hst.replies, List.mem_append, List.mem_singleton] at hy
  rcases hy with hy | rfl
  · exact Or.inl hy
  · exact Or.inr (by rw [show (t.reply i c y).reservations = s.reservations from hst.reservations]; exact hsound)

theorem sound_refusal (h : err ∈ [ExecError.conflict, .full, .store, .canceled]) :
    Sound vs { operationID := c.operationID, hash := c.hash, err := some err } := Or.inl ⟨rfl, err, h, rfl⟩

variable {config : Config}

/-- While no call has the lock, and while call `i` has it, no other call has it. -/
theorem locked_of {l : Journal η} (hlock : ∀ k, j.lock = some k → k = i) (k : Nat) (id : String) (hk : k ≠ i)
    (hother : j.lock = some k) (_ : j.entries.lookup id = none) : l.lock = some k ∧ l.entries.lookup id = none :=
  absurd (hlock k hother) hk

theorem lock_free (hlock : j.lock = none) (k : Nat) (hk : j.lock = some k) : k = i := by
  rw [hlock] at hk
  cases hk

theorem lock_own (hlock : j.lock = some i) (k : Nat) (hk : j.lock = some k) : k = i :=
  (Option.some.inj (hlock.symm.trans hk)).symm

/-- The journal is left alone. -/
theorem others_self : Others s j s.reservations s.rows j i :=
  others_of (List.Subset.refl _) rfl (fun _ _ _ hlock hnone => ⟨hlock, hnone⟩) fun _ _ _ o => o.lookup

/-- Call `i` gives the lock up and returns. -/
theorem Inv.unlock (h : Inv s) (hj : s.journal = some j) (hlock : j.lock = some i) (hrows : rows.Sublist s.rows)
    (hx : Sound s.reservations x) :
    Inv ({ s with rows := rows, journal := some { j with lock := none } }.reply i c x) :=
  h.reply hj rfl (others_of hrows.subset rfl (locked_of (lock_own hlock)) fun _ _ _ o => o.lookup)
    ⟨hrows, rfl, rfl, rfl⟩ { Forgets.refl j with } hx

/-- No entry of a call that is under way is evicted. -/
theorem Held.others_evicted (h : Held s j) (hlock : j.lock = none) :
    Others s j s.reservations s.rows (j.evicted max lock) i := by
  refine others_of (List.Subset.refl _) rfl (locked_of (lock_free hlock)) fun d ref e ho => ?_
  refine (evict_lookup fun hmem => ?_).trans ho.lookup
  have hcomp := h.order _ hmem ref e ho.lookup ho.entry
  rw [ho.running] at hcomp
  cases hcomp

theorem Inv.waits (h : Inv s) (hj : s.journal = some j) (hlook : j.entries.lookup c.operationID = some ref)
    (he : j.heap[ref]? = some e) (hhash : e.hash = c.hash) : Inv (s.move i c (.waiting ref)) := by
  obtain ⟨e', he', hnames⟩ := (h.held j hj).entries _ _ hlook
  rw [he] at he'
  cases he'
  refine h.quiet hj hj others_self (.refl j) rfl ⟨by simp, fun ref' href => ?_, by simp [Point.owned]⟩
    (by simp [Point.owned]) (h.durable.reply (List.Sublist.refl _) rfl fun x hx => Or.inl hx)
  cases href
  exact ⟨e, he, hhash ▸ hnames⟩

theorem Inv.admitted (h : Inv s) (hj : s.journal = some j) (hlock : j.lock = none)
    (hnone : j.entries.lookup c.operationID = none) (hnext : point = .cleaning now ∨ point = .reserving) :
    Inv ({ s with journal := some (j.evicted max (some i)) }.move i c point) := by
  have hheld := h.held j hj
  have hmiss : (j.evicted max (some i)).entries.lookup c.operationID = none := by
    cases hl : (j.evicted max (some i)).entries.lookup c.operationID with
    | none => rfl
    | some ref =>
      rw [evict_lookup_some hl] at hnone
      cases hnone
  refine h.quiet hj rfl (hheld.others_evicted hlock) hheld.evicted rfl
    ⟨fun _ => ⟨rfl, hmiss⟩, fun ref href => ?_, fun ref href => ?_⟩ (fun ref href => ?_)
    (h.durable.reply (List.Sublist.refl _) rfl fun x hx => Or.inl hx)
  all_goals rcases hnext with rfl | rfl <;> cases href

theorem Inv.cleaned (h : Inv s) (hj : s.journal = some j) (hc : s.calls[i]? = some c)
    (hpoint : c.point = .cleaning now) :
    Inv ({ s with rows := deleteExpiredOperations s.rows now
                  journal := some { j with lastCleanup := now } }.move i c .reserving) := by
  obtain ⟨hlock, hnone⟩ := ((h.held j hj).calls i c hc).locks (Or.inl ⟨now, hpoint⟩)
  exact h.quiet hj rfl (others_of List.filter_sublist.subset rfl (locked_of (lock_own hlock)) fun _ _ _ o => o.lookup)
    { Forgets.refl j with } rfl ⟨fun _ => ⟨hlock, hnone⟩, by simp, by simp [Point.owned]⟩ (by simp [Point.owned])
    (h.durable.reply List.filter_sublist rfl fun x hx => Or.inl hx)

/-! ### Reservation -/

/-- A reservation of an identifier without a row. -/
theorem Durable.insert (h : Durable s) (hnone : findRow s.rows id = none)
    (hrows : t.rows = s.rows ++ [⟨id, hash, .pending, expiresAt, s.reservations.length⟩])
    (hres : t.reservations = s.reservations ++ [{ operationID := id, hash := hash }]) (hrepl : ∀ x ∈ t.replies,
      x ∈ s.replies ∨ Sound t.reservations x) : Durable t := by
  have hg : Grown s.reservations t.reservations := hres ▸ Grown.append _ _
  have hfree := findRow_eq_none hnone
  have hnew : t.reservations[s.reservations.length]? = some { operationID := id, hash := hash } := by
    rw [hres]
    exact List.getElem?_concat_length
  refine ⟨?_, fun row hrow => ?_, fun row hrow hpend v hv => ?_, fun r r' v w hlt hv hw hid row hrow => ?_,
    fun v hv => ?_, fun x hx => ?_⟩
  · rw [hrows, List.map_append, List.nodup_append]
    refine ⟨h.ids, by simp, fun a ha b hb => ?_⟩
    obtain ⟨row, hrow, rfl⟩ := List.mem_map.mp ha
    simp only [List.map_cons, List.map_nil, List.mem_singleton] at hb
    rw [hb]
    exact hfree row hrow
  · rw [hrows] at hrow
    rcases List.mem_append.mp hrow with hrow | hrow
    · obtain ⟨hnames, hrecd⟩ := h.rows row hrow
      exact ⟨hnames.mono hg, fun o t ht => (hrecd o t ht).mono hg⟩
    · rw [List.mem_singleton.mp hrow]
      exact ⟨⟨_, hnew, rfl, rfl⟩, by simp⟩
  · rw [hrows] at hrow
    rcases List.mem_append.mp hrow with hrow | hrow
    · obtain ⟨w, hw, -⟩ := (h.rows row hrow).1
      rw [hres, List.getElem?_append_left (List.getElem?_eq_some_iff.mp hw).1] at hv
      exact h.pending row hrow hpend v hv
    · rw [List.mem_singleton.mp hrow] at hv
      rw [hnew] at hv
      cases hv
      rfl
  · have hbound := (List.getElem?_eq_some_iff.mp hw).1
    rw [hres, List.length_append, List.length_singleton] at hbound
    have hv' : s.reservations[r]? = some v := by
      rw [hres, List.getElem?_append_left (by omega)] at hv
      exact hv
    rw [hrows] at hrow
    rcases List.mem_append.mp hrow with hrow | hrow
    · rcases Nat.lt_or_ge r' s.reservations.length with hr' | hr'
      · rw [hres, List.getElem?_append_left hr'] at hw
        exact h.lapsed r r' v w hlt hv' hw hid row hrow
      · have hr'' : r' = s.reservations.length := by omega
        rw [hr'', hnew] at hw
        cases hw
        rintro rfl
        obtain ⟨v', hv'', hid', -⟩ := (h.rows row hrow).1
        rw [hv'] at hv''
        cases hv''
        exact hfree row hrow (hid'.symm.trans hid)
    · rw [List.mem_singleton.mp hrow]
      show s.reservations.length ≠ r
      omega
  · rw [hres] at hv
    rcases List.mem_append.mp hv with hv | hv
    · exact h.starts v hv
    · rw [List.mem_singleton.mp hv]
      exact Nat.zero_le _
  · exact (hrepl x hx).elim (fun hold => (h.replies x hold).mono hg) fun hnew => hnew

/-- The other calls when call `i` inserts a row, and possibly an entry. -/
theorem others_insert (h : Held s j) (hid : row.operationID = id)
    (hlock : j.lock = some i) (hmiss : j.entries.lookup id = none)
    (hheap : ∀ (ref : Nat) (e : Entry η), j.heap[ref]? = some e → l.heap[ref]? = some e)
    (hents : ∀ key, key ≠ id → l.entries.lookup key = j.entries.lookup key) :
    Others s j (s.reservations ++ [v]) (s.rows ++ [row]) l i := by
  refine ⟨Grown.append _ _, fun ref e he => ⟨e, hheap ref e he, rfl⟩, locked_of (lock_own hlock),
    fun k c ref e _ _ _ ho => ?_⟩
  have hne : c.operationID ≠ id := by
    intro heq
    have hlook := ho.lookup
    rw [heq, hmiss] at hlook
    cases hlook
  obtain ⟨⟨_, w, hw, -⟩, -⟩ := h.heap ref e ho.entry
  refine ⟨⟨hheap ref e ho.entry, ho.running, by rw [hents _ hne]; exact ho.lookup, fun row' hrow' hid' => ?_⟩, ?_⟩
  · rcases List.mem_append.mp hrow' with hrow' | hrow'
    · exact ho.row row' hrow' hid'
    · rw [List.mem_singleton.mp hrow', hid] at hid'
      exact absurd hid'.symm hne
  · rw [List.getElem?_append_left (List.getElem?_eq_some_iff.mp hw).1]

theorem sound_replay (h : Durable s) (hrow : row ∈ s.rows) (hid : row.operationID = c.operationID)
    (hhash : row.requestHash = c.hash) : Sound s.reservations (System.replay c row) := by
  obtain ⟨hnames, hrecd⟩ := h.rows row hrow
  rw [hid, hhash] at hnames
  unfold System.replay
  split
  · exact Or.inr ⟨_, rfl, hnames, Or.inl rfl⟩
  · next o t ht => exact Or.inr ⟨_, rfl, hnames, Or.inr ⟨rfl, hrecd o t ht⟩⟩

section Insert

variable {n : Nat}

theorem insert_lookup_ne (h : id ≠ c.operationID) :
    (j.insert c n).entries.lookup id = j.entries.lookup id := by
  have hbeq : (id == c.operationID) = false := by simp [h]
  rw [Journal.insert, List.lookup_cons, hbeq]

theorem insert_lookup_self : (j.insert c n).entries.lookup c.operationID = some j.heap.length := by
  rw [Journal.insert, List.lookup_cons, beq_self_eq_true]

theorem insert_heap_self :
    (j.insert c n).heap[j.heap.length]? = some { hash := c.hash, reservation := n } :=
  List.getElem?_concat_length

theorem insert_heap_of (h : j.heap[ref]? = some e) : (j.insert c n).heap[ref]? = some e := getElem?_concat_of h

end Insert

/-- The call that inserted its row is about to start. -/
theorem at_inserted (hfind : findRow s.rows c.operationID = none) :
    At (s.reservations ++ [{ operationID := c.operationID, hash := c.hash }])
      (s.rows ++ [c.row expiresAt s.reservations.length]) (j.insert c s.reservations.length) i
      { c with point := .starting j.heap.length } := by
  refine ⟨by simp, by simp, fun ref href => ?_⟩
  cases href
  refine ⟨_, _, ⟨insert_heap_self, rfl, insert_lookup_self, fun row hrow hid => ?_⟩, List.getElem?_concat_length,
    rfl, rfl, rfl, rfl⟩
  rcases List.mem_append.mp hrow with hrow | hrow
  · exact absurd hid (findRow_eq_none hfind row hrow)
  · rw [List.mem_singleton.mp hrow]
    rfl

theorem Held.reservation_lt (h : Held s j) (he : j.heap[ref]? = some e) : e.reservation < s.reservations.length := by
  obtain ⟨⟨_, v, hv, -⟩, -⟩ := h.heap ref e he
  exact (List.getElem?_eq_some_iff.mp hv).1

/-- The new entry is for the new reservation. -/
theorem Held.insert (h : Held s j) (hmiss : j.entries.lookup c.operationID = none)
    (hres : t.reservations = s.reservations ++ [{ operationID := c.operationID, hash := c.hash }])
    (hplaced : Placed t.reservations t.rows (j.insert c s.reservations.length) t.calls) :
    Held t (j.insert c s.reservations.length) := by
  have hg : Grown s.reservations t.reservations := hres ▸ Grown.append _ _
  have hnew : t.reservations[s.reservations.length]? = some { operationID := c.operationID, hash := c.hash } := by
    rw [hres]
    exact List.getElem?_concat_length
  have hlisted : ∀ id ∈ j.order, id ≠ c.operationID := by
    rintro id hid rfl
    have hsome := h.listed _ hid
    rw [hmiss] at hsome
    cases hsome
  refine ⟨fun ref e he => ?_, fun ref ref' e₁ e₂ h₁ h₂ heq => ?_, fun id ref hid => ?_, fun id hid ref e hl he => ?_,
    fun id hid => ?_, h.once, hplaced.1, hplaced.2⟩
  · rcases getElem?_concat_cases he with he | ⟨-, rfl⟩
    · obtain ⟨⟨id, hnames⟩, hcomp⟩ := h.heap ref e he
      exact ⟨⟨id, hnames.mono hg⟩, fun hc => (hcomp hc).imp_right fun hr => ⟨hr.1, hr.2.mono hg⟩⟩
    · exact ⟨⟨_, _, hnew, rfl, rfl⟩, by simp⟩
  · rcases getElem?_concat_cases h₁ with hold₁ | ⟨hr₁, rfl⟩
    · rcases getElem?_concat_cases h₂ with hold₂ | ⟨-, rfl⟩
      · exact h.distinct ref ref' e₁ e₂ hold₁ hold₂ heq
      · exact absurd heq (Nat.ne_of_lt (h.reservation_lt hold₁))
    · rcases getElem?_concat_cases h₂ with hold₂ | ⟨hr₂, -⟩
      · exact absurd heq.symm (Nat.ne_of_lt (h.reservation_lt hold₂))
      · rw [hr₁, hr₂]
  · by_cases hkey : id = c.operationID
    · rw [hkey, insert_lookup_self] at hid
      cases hid
      exact ⟨_, insert_heap_self, _, hnew, hkey.symm, rfl⟩
    · rw [insert_lookup_ne hkey] at hid
      obtain ⟨e, he, hnames⟩ := h.entries id ref hid
      exact ⟨e, insert_heap_of he, hnames.mono hg⟩
  · rw [insert_lookup_ne (hlisted id hid)] at hl
    obtain ⟨e', he', -⟩ := h.entries id ref hl
    obtain rfl : e = e' := Option.some.inj (he.symm.trans (insert_heap_of he'))
    exact h.order id hid ref e hl he'
  · rw [insert_lookup_ne (hlisted id hid)]
    exact h.listed id hid

/-- Call `i` has inserted its row and put its entry into the map. -/
theorem Inv.insert (h : Inv s) (hj : s.journal = some j) (hlock : j.lock = some i)
    (hmiss : j.entries.lookup c.operationID = none) (hfind : findRow s.rows c.operationID = none) :
    Inv ({ s.reserved c (s.rows ++ [c.row expiresAt s.reservations.length]) true with
      journal := some (j.insert c s.reservations.length) }.move i c (.starting j.heap.length)) := by
  have hheld := h.held j hj
  have ho : Others s j (s.reservations ++ [{ operationID := c.operationID, hash := c.hash }])
      (s.rows ++ [c.row expiresAt s.reservations.length]) (j.insert c s.reservations.length) i :=
    others_insert hheld rfl hlock hmiss (fun _ _ => insert_heap_of) fun _ => insert_lookup_ne
  have hunowned : ∀ (k : Nat) (d : Call η), s.calls[k]? = some d → d.point.owned ≠ some j.heap.length := by
    intro k d hd howned
    obtain ⟨e', -, ho', -⟩ := (hheld.calls k d hd).owns _ howned
    exact absurd (List.getElem?_eq_some_iff.mp ho'.entry).1 (Nat.lt_irrefl _)
  have hplaced := placed_of_others hheld ho (at_inserted hfind) fun ref href => Or.inr (by cases href; exact hunowned)
  refine ⟨h.durable.insert hfind rfl rfl fun x hx => Or.inl hx, fun l hl => ?_, nofun⟩
  cases hl
  exact hheld.insert hmiss rfl hplaced

theorem Inv.reservedLate (h : Inv s) (hj : s.journal = some j) (hlock : j.lock = some i)
    (hmiss : j.entries.lookup c.operationID = none) (hfind : findRow s.rows c.operationID = none) :
    Inv ({ s.reserved c (s.rows ++ [c.row expiresAt s.reservations.length]) true with
      journal := some { j with lock := none } }.refuse i c .store) := by
  refine h.quiet (l := { j with lock := none }) (d := { c with point := .returned }) hj rfl
    (others_insert (h.held j hj) rfl hlock hmiss (fun _ _ he => he) fun _ _ => rfl) { Forgets.refl j with } rfl
    At.returned (by simp [Point.owned]) (h.durable.insert hfind rfl rfl fun x hx => ?_)
  rcases List.mem_append.mp hx with hx | hx
  · exact Or.inl hx
  · rw [List.mem_singleton.mp hx]
    exact Or.inr (sound_refusal (by decide))

/-! ### The run and its outcome -/

theorem mem_modify (hv : vs[r]? = some v)
    (hw : w ∈ vs.modify r f) : w ∈ vs ∨ w = f v := by
  obtain ⟨k, hk⟩ := List.mem_iff_getElem?.mp hw
  by_cases hr : r = k
  · subst hr
    rw [getElem?_modify_self hv] at hk
    exact Or.inr (Option.some.inj hk).symm
  · rw [getElem?_modify_ne hr] at hk
    exact Or.inl (List.mem_of_getElem? hk)

theorem Durable.pending_modify (h : Durable s) (hf : ∀ v, (f v).recorded = v.recorded) :
    ∀ row ∈ s.rows, row.state = .pending → ∀ v, (s.reservations.modify r f)[row.reservation]? = some v →
      v.recorded = false := by
  intro row hrow hpend v hv
  obtain ⟨w, hw, -⟩ := (h.rows row hrow).1
  by_cases hr : r = row.reservation
  · rw [hr, getElem?_modify_self hw] at hv
    cases hv
    rw [hf]
    exact h.pending row hrow hpend w hw
  · rw [getElem?_modify_ne hr] at hv
    exact h.pending row hrow hpend v hv

/-- The other calls do not see what call `i` does to its own reservation. -/
theorem others_note (h : Held s j)
    (hc : s.calls[i]? = some c) (howned : c.point.owned = some ref) (he : j.heap[ref]? = some e)
    (hf : ∀ v, s.reservations[e.reservation]? = some v → Later v (f v))
    (hrows : ∀ row ∈ rows, ∃ row' ∈ s.rows, row'.operationID = row.operationID ∧ row'.reservation = row.reservation) :
    Others s j (s.reservations.modify e.reservation f) rows j i := by
  refine ⟨Grown.modify hf, fun ref e he => ⟨e, he, rfl⟩, fun k id _ hlock hnone => ⟨hlock, hnone⟩, ?_⟩
  intro k d ref' e' hk hd hdown ho
  refine ⟨{ ho with row := fun row hrow hid => ?_ }, getElem?_modify_ne fun heq => ?_⟩
  · obtain ⟨row', hrow', hid', hres⟩ := hrows row hrow
    rw [← hres]
    exact ho.row row' hrow' (hid'.trans hid)
  · have href := h.distinct ref ref' e e' he ho.entry heq
    subst href
    exact hk (h.unique k i d c ref hd hc hdown howned)

theorem Held.owner (h : Held s j) (hc : s.calls[i]? = some c) (howned : c.point.owned = some ref)
    (he : j.heap[ref]? = some e) : ∃ v, Owned s.rows j c ref e ∧ s.reservations[e.reservation]? = some v ∧
      v.operationID = c.operationID ∧ v.hash = c.hash ∧ c.point.Fits v := by
  obtain ⟨e', v, howner, hv⟩ := (h.calls i c hc).owns ref howned
  obtain rfl : e' = e := Option.some.inj (howner.entry.symm.trans he)
  exact ⟨v, howner, hv⟩

/-- An operation that runs has not completed. -/
theorem Held.unlisted (h : Held s j) (ho : Owned s.rows j c ref e) : c.operationID ∉ j.order := by
  intro hmem
  have hcomp := h.order _ hmem ref e ho.lookup ho.entry
  rw [ho.running] at hcomp
  cases hcomp

/-! ### Settled entries -/

/-- The entry of a call is complete, and listed if its outcome is to be kept. -/
structure Settles (j l : Journal η) (c : Call η) (ref : Nat) (e d : Entry η) : Prop where
  entry : j.heap[ref]? = some e
  heap : l.heap = j.heap.set ref d
  entries : l.entries = j.entries
  order : l.order = j.order ∨ l.order = j.order ++ [c.operationID]
  reservation : d.reservation = e.reservation
  hash : d.hash = e.hash
  complete : d.complete = true

theorem settles_settle (c : Call η) (outcome : Outcome) (err : Option ExecError) (he : j.heap[ref]? = some e) :
    Settles j { j with
        order := if err.isNone then j.order ++ [c.operationID] else j.order
        heap := j.heap.set ref { e with outcome := outcome, complete := true, err := err } } c ref e
      { e with outcome := outcome, complete := true, err := err } :=
  ⟨he, rfl, rfl, by cases err <;> simp, rfl, rfl, rfl⟩

section

variable {d x : Entry η} (hs : Settles j l c ref e d)
include hs

theorem Settles.cases (hx : l.heap[k]? = some x) : (k = ref ∧ x = d) ∨ (k ≠ ref ∧ j.heap[k]? = some x) :=
  getElem?_set_cases (hs.heap ▸ hx)

theorem Settles.back (hx : l.heap[k]? = some x) : ∃ y, j.heap[k]? = some y ∧ y.reservation = x.reservation := by
  rcases hs.cases hx with ⟨rfl, rfl⟩ | ⟨-, hx⟩
  · exact ⟨e, hs.entry, hs.reservation.symm⟩
  · exact ⟨x, hx, rfl⟩

theorem Settles.forth (hx : j.heap[k]? = some x) :
    ∃ y, l.heap[k]? = some y ∧ y.reservation = x.reservation ∧ y.hash = x.hash := by
  rw [hs.heap]
  by_cases hk : k = ref
  · subst hk
    obtain rfl : e = x := Option.some.inj (hs.entry.symm.trans hx)
    exact ⟨d, getElem?_set_self_of hx, hs.reservation, hs.hash⟩
  · exact ⟨x, by rw [getElem?_set_of_ne hk]; exact hx, rfl, rfl⟩

theorem Settles.listed (hid : id ∈ l.order) : id ∈ j.order ∨ id = c.operationID := by
  rcases hs.order with ho | ho
  · exact Or.inl (ho ▸ hid)
  · simpa [ho] using hid

/-- The entries of the other calls are not touched. -/
theorem others_settle (h : Held s j) (hlock : j.lock = none) (hc : s.calls[i]? = some c)
    (howned : c.point.owned = some ref) : Others s j s.reservations s.rows l i := by
  refine ⟨Grown.refl _, fun k x hx => ?_, fun k id _ hk => ?_, fun k x ref' y hk hx hxo hy => ⟨?_, rfl⟩⟩
  · obtain ⟨y, hy, hres, -⟩ := hs.forth hx
    exact ⟨y, hy, hres⟩
  · rw [hlock] at hk
    cases hk
  · have hne : ref' ≠ ref := by
      rintro rfl
      exact hk (h.unique k i x c ref' hx hc hxo howned)
    refine ⟨?_, hy.running, hs.entries ▸ hy.lookup, hy.row⟩
    rw [hs.heap, getElem?_set_of_ne hne]
    exact hy.entry

theorem Held.settle (h : Held s j) (howner : Owned s.rows j c ref e)
    (hanswer : d.err = some .uncertain ∨ (d.err = none ∧ Recorded s.reservations e.reservation d.outcome))
    (hplaced : Placed s.reservations t.rows l t.calls) (hres : t.reservations = s.reservations) : Held t l := by
  rw [← hres] at hplaced
  refine ⟨fun k x hx => ?_, fun k k' x y hx hy hxy => ?_, fun id k hk => ?_, fun id hmem k x hk hx => ?_,
    fun id hmem => ?_, ?_, hplaced.1, hplaced.2⟩
  · rw [hres]
    rcases hs.cases hx with ⟨-, rfl⟩ | ⟨-, hx⟩
    · rw [hs.reservation, hs.hash]
      exact ⟨(h.heap ref e hs.entry).1, fun _ => hanswer⟩
    · exact h.heap k x hx
  · obtain ⟨x', hx', hxr⟩ := hs.back hx
    obtain ⟨y', hy', hyr⟩ := hs.back hy
    exact h.distinct k k' x' y' hx' hy' (by rw [hxr, hyr, hxy])
  · rw [hs.entries] at hk
    obtain ⟨x, hx, hnames⟩ := h.entries id k hk
    obtain ⟨y, hy, hyr, hyh⟩ := hs.forth hx
    exact ⟨y, hy, by rw [hres, hyr, hyh]; exact hnames⟩
  · rw [hs.entries] at hk
    rcases hs.cases hx with ⟨-, rfl⟩ | ⟨hkr, hx⟩
    · exact hs.complete
    · rcases hs.listed hmem with hmem | rfl
      · exact h.order id hmem k x hk hx
      · exact absurd (Option.some.inj (hk.symm.trans howner.lookup)) hkr
  · rw [hs.entries]
    rcases hs.listed hmem with hmem | rfl
    · exact h.listed id hmem
    · rw [howner.lookup]
      rfl
  · rcases hs.order with ho | ho
    · exact ho ▸ h.once
    · rw [ho, List.nodup_append]
      refine ⟨h.once, by simp, fun a ha b hb => ?_⟩
      rw [List.mem_singleton.mp hb]
      rintro rfl
      exact h.unlisted howner ha

end

section

variable (h : Inv s) (hj : s.journal = some j) (hc : s.calls[i]? = some c)

include h hj hc

variable {point : Point}

/-- Call `i` goes on with its own reservation. -/
theorem Inv.advance (howned : c.point.owned = some ref)
    (howner : Owned s.rows j c ref e) (hv : s.reservations[e.reservation]? = some v)
    (hid : v.operationID = c.operationID) (hhash : v.hash = c.hash) (hf : Later v (f v))
    (hpoint : point.owned = some ref) (hfits : point.Fits (f v))
    (hrows : ∀ row ∈ rows, ∃ row' ∈ s.rows, row'.operationID = row.operationID ∧ row'.reservation = row.reservation)
    (hdur : Durable { s with rows := rows, reservations := s.reservations.modify e.reservation f }) :
    Inv (({ s with rows := rows }.note e.reservation f).move i c point) := by
  have hheld := h.held j hj
  have hlater : ∀ w, s.reservations[e.reservation]? = some w → Later w (f w) := by
    intro w hw
    rw [hv] at hw
    cases hw
    exact hf
  have ho := others_note hheld hc howned howner.entry hlater hrows
  refine h.quiet (d := { c with point := point }) hj hj ho (.refl j) rfl
    ⟨fun hlocks => ?_, fun ref' href => ?_, fun ref' href => ?_⟩ (fun ref' href => ?_) { hdur with }
  · rcases hlocks with ⟨now, hnow⟩ | hnow
    · rw [show point = .cleaning now from hnow] at hpoint
      cases hpoint
    · rw [show point = .reserving from hnow] at hpoint
      cases hpoint
  · rw [show point = .waiting ref' from href] at hpoint
    cases hpoint
  · have heq : ref' = ref := Option.some.inj (href.symm.trans hpoint)
    subst heq
    refine ⟨e, f v, { howner with row := fun row hrow hrid => ?_ }, getElem?_modify_self hv,
      hf.operationID.trans hid, hf.hash.trans hhash, hfits⟩
    obtain ⟨row', hrow', hid', hres⟩ := hrows row hrow
    rw [← hres]
    exact howner.row row' hrow' (hid'.trans hrid)
  · have heq : ref' = ref := Option.some.inj (href.symm.trans hpoint)
    subst heq
    exact ⟨c, hc, howned⟩

/-- Call `i` goes on with its own reservation and leaves the store alone. -/
theorem Inv.progress (howned : c.point.owned = some ref)
    (he : j.heap[ref]? = some e) (hpoint : point.owned = some ref)
    (hrecd : ∀ v, (f v).recorded = v.recorded)
    (hf : ∀ v, c.point.Fits v → Later v (f v) ∧ point.Fits (f v) ∧ (v.starts ≤ 1 → (f v).starts ≤ 1)) :
    Inv ((s.note e.reservation f).move i c point) := by
  obtain ⟨v, howner, hv, hid, hhash, hfits⟩ := (h.held j hj).owner hc howned he
  obtain ⟨hlater, hfits', hstarts⟩ := hf v hfits
  refine Inv.advance h hj hc howned howner hv hid hhash hlater hpoint hfits'
    (fun row hrow => ⟨row, hrow, rfl, rfl⟩) ?_
  refine h.durable.grow (Grown.modify fun w hw => ?_) (by simp) (List.Sublist.refl _)
    (h.durable.pending_modify hrecd) (fun w hw => ?_) fun x hx => Or.inl hx
  · rw [hv] at hw
    cases hw
    exact hlater
  · rcases mem_modify hv hw with hw | rfl
    · exact h.durable.starts w hw
    · exact hstarts (h.durable.starts v (List.mem_of_getElem? hv))

theorem Inv.start (hpoint : c.point = .starting ref) (he : j.heap[ref]? = some e) :
    Inv ((s.note e.reservation fun v => { v with starts := v.starts + 1 }).move i c (.running ref)) := by
  refine h.progress hj hc (by rw [hpoint]; rfl) he rfl (fun _ => rfl) fun v hfits => ?_
  rw [hpoint] at hfits
  exact ⟨{ Later.refl v with }, hfits.2, fun _ => by rw [hfits.1]⟩

theorem Inv.finish (hpoint : c.point = .running ref) (he : j.heap[ref]? = some e) :
    Inv ((s.note e.reservation fun v => { v with outcome := some outcome }).move i c (.completing ref outcome)) := by
  refine h.progress hj hc (by rw [hpoint]; rfl) he rfl (fun _ => rfl) fun v hfits => ?_
  rw [hpoint] at hfits
  have hnone : v.outcome = none := hfits
  exact ⟨⟨rfl, rfl, by simp [hnone], fun hr => hr⟩, rfl, fun hstarts => hstarts⟩

omit h hj hc in
/-- The outcome of a reservation is recorded: its row has it, if the row is still there. -/
theorem Durable.record (h : Durable s)
    (hv : s.reservations[e.reservation]? = some v) (houtcome : v.outcome = some outcome)
    (hids : rows.map (·.operationID) = s.rows.map (·.operationID))
    (hrows : ∀ row ∈ rows, ∃ row' ∈ s.rows, row'.operationID = row.operationID ∧ row'.requestHash = row.requestHash ∧
      row'.reservation = row.reservation ∧ (row'.state = row.state ∨ ∃ now, row.state = .completed outcome now ∧
        row.reservation = e.reservation))
    (hdone : ∀ row ∈ rows, row.state = .pending → row.reservation ≠ e.reservation) :
    Durable { s with rows := rows, reservations := s.reservations.modify e.reservation fun v =>
      { v with recorded := true } } := by
  have hg : Grown s.reservations (s.reservations.modify e.reservation fun v => { v with recorded := true }) :=
    Grown.modify fun w _ => ⟨rfl, rfl, fun _ ho => ho, fun _ => rfl⟩
  refine ⟨hids ▸ h.ids, fun row hrow => ?_, fun row hrow hpend w hw => ?_, fun r r' w w' hlt hw hw' hid row hrow => ?_,
    fun w hw => ?_, fun x hx => (h.replies x hx).mono hg⟩
  · obtain ⟨row', hrow', hid, hhash, hres, hstate⟩ := hrows row hrow
    obtain ⟨hnames, hrecd⟩ := h.rows row' hrow'
    rw [hid, hhash, hres] at hnames
    refine ⟨hnames.mono hg, fun o t ht => ?_⟩
    rcases hstate with hsame | ⟨now, hnow, howner⟩
    · rw [← hres]
      exact (hrecd o t (hsame.trans ht)).mono hg
    · rw [hnow] at ht
      cases ht
      rw [howner]
      exact ⟨_, getElem?_modify_self hv, houtcome, rfl⟩
  · obtain ⟨row', hrow', -, -, hres, hstate⟩ := hrows row hrow
    rcases hstate with hsame | ⟨now, hnow, -⟩
    · rw [getElem?_modify_ne (Ne.symm (hdone row hrow hpend)), ← hres] at hw
      exact h.pending row' hrow' (hsame.trans hpend) w hw
    · rw [hpend] at hnow
      cases hnow
  · obtain ⟨row', hrow', -, -, hres, -⟩ := hrows row hrow
    obtain ⟨x, hx, hxid⟩ := hg.back (by simp) hw
    obtain ⟨y, hy, hyid⟩ := hg.back (by simp) hw'
    rw [← hres]
    exact h.lapsed r r' x y hlt hx hy (by rw [hxid, hyid, hid]) row' hrow'
  · rcases mem_modify hv hw with hw | rfl
    · exact h.starts w hw
    · exact h.starts v (List.mem_of_getElem? hv)

omit h hj hc in
/-- The rows after the store took an outcome: each row is as it was, or has it. -/
theorem completeOperation_ok [DecidableEq η]
    (hids : (rows.map (·.operationID)).Nodup)
    (h : completeOperation rows id hash outcome now expiresAt = (rows', .ok ())) :
    rows'.map (·.operationID) = rows.map (·.operationID) ∧
      ∀ row ∈ rows', (row.operationID = id → row.state ≠ .pending) ∧
        ∃ row' ∈ rows, row'.operationID = row.operationID ∧ row'.requestHash = row.requestHash ∧
          row'.reservation = row.reservation ∧ (row'.state = row.state ∨ ∃ now, row.state = .completed outcome now ∧
            row.operationID = id) := by
  unfold completeOperation at h
  split at h
  · cases h
  split at h
  · cases h
  next existing hfind =>
  obtain ⟨hmem, hid⟩ := findRow_eq_some hfind
  split at h
  swap
  · cases h
  split at h
  · cases h
    refine ⟨?_, fun row' hrow' => ?_⟩
    · rw [List.map_map]
      refine List.map_congr_left fun row _ => ?_
      simp only [Function.comp]
      split <;> rfl
    · obtain ⟨row, hrow, rfl⟩ := List.mem_map.mp hrow'
      by_cases hrid : row.operationID = id
      · simp only [hrid, if_true]
        exact ⟨by simp, row, hrow, hrid, rfl, rfl, Or.inr ⟨now, rfl, trivial⟩⟩
      · simp only [hrid, if_false]
        exact ⟨fun h => h.elim, row, hrow, rfl, rfl, rfl, Or.inl rfl⟩
  · next hstate =>
    split at h <;> cases h
    refine ⟨rfl, fun row hrow => ⟨fun hrid => ?_, row, hrow, rfl, rfl, rfl, Or.inl rfl⟩⟩
    have heq : row = existing := List.inj_on_of_nodup_map hids hrow hmem (hrid.trans hid.symm)
    rw [heq, hstate]
    simp

theorem Inv.unrecorded (hpoint : c.point = .completing ref outcome) (he : j.heap[ref]? = some e) :
    Inv (s.move i c (.settling ref outcome (some .uncertain))) := by
  have hnote : s.note e.reservation id = s := by rw [System.note, List.modify_id]
  rw [← hnote]
  refine h.progress hj hc (by rw [hpoint]; rfl) he rfl (fun _ => rfl) fun v hfits => ?_
  rw [hpoint] at hfits
  exact ⟨.refl v, ⟨hfits, Or.inl rfl⟩, fun hstarts => hstarts⟩

theorem Inv.records [DecidableEq η] (hpoint : c.point = .completing ref outcome) (he : j.heap[ref]? = some e)
    (herr : err = some .uncertain ∨ err = none)
    (hok : completeOperation s.rows c.operationID c.hash outcome now expiresAt = (rows, .ok ())) :
    Inv ((System.note { s with rows := rows } e.reservation fun v => { v with recorded := true }).move i c
      (.settling ref outcome err)) := by
  have howned : c.point.owned = some ref := by rw [hpoint]; rfl
  obtain ⟨v, howner, hv, hid, hhash, hfits⟩ := (h.held j hj).owner hc howned he
  rw [hpoint] at hfits
  have hlater : Later v { v with recorded := true } := ⟨rfl, rfl, fun _ ho => ho, fun _ => rfl⟩
  have hsettling : (Point.settling ref outcome err).Fits { v with recorded := true } :=
    ⟨hfits, herr.imp_right fun hnone => ⟨hnone, rfl⟩⟩
  obtain ⟨hids, hrows⟩ := completeOperation_ok h.durable.ids hok
  have hback : ∀ row ∈ rows, row.operationID = c.operationID → row.reservation = e.reservation := by
    intro row hrow hrid
    obtain ⟨row', hrow', hid', -, hres, -⟩ := (hrows row hrow).2
    rw [← hres]
    exact howner.row row' hrow' (hid'.trans hrid)
  refine Inv.advance h hj hc howned howner hv hid hhash hlater rfl hsettling (fun row hrow => ?_)
    (h.durable.record hv hfits hids (fun row hrow => ?_) fun row hrow hpend hres => ?_)
  · obtain ⟨row', hrow', hid', -, hres, -⟩ := (hrows row hrow).2
    exact ⟨row', hrow', hid', hres⟩
  · obtain ⟨row', hrow', hid', hhash', hres, hstate⟩ := (hrows row hrow).2
    exact ⟨row', hrow', hid', hhash', hres, hstate.imp_right fun ⟨now, hnow, hrid⟩ => ⟨now, hnow, hback row hrow hrid⟩⟩
  · obtain ⟨row', hrow', hid', -, hres', -⟩ := (hrows row hrow).2
    obtain ⟨w, hw, hwid, -⟩ := (h.durable.rows row' hrow').1
    rw [hres', hres, hv] at hw
    cases hw
    exact (hrows row hrow).1 (hid'.symm.trans (hwid.symm.trans hid)) hpend

/-! ### Returns, crashes and new journals -/

theorem Inv.wake (hpoint : c.point = .waiting ref) (he : j.heap[ref]? = some e)
    (hcomp : e.complete = true) :
    Inv (s.reply i c { operationID := c.operationID, hash := c.hash, outcome := e.outcome, replayed := true, err := e.err,
                       reservation := some e.reservation }) := by
  have hheld := h.held j hj
  obtain ⟨e', he', hnames⟩ := (hheld.calls i c hc).waits ref hpoint
  rw [he] at he'
  cases he'
  exact h.reply hj hj others_self (.refl s) (.refl j) (Or.inr ⟨_, rfl, hnames, (hheld.heap ref e he).2 hcomp⟩)

theorem Inv.settle (hpoint : c.point = .settling ref outcome err) (he : j.heap[ref]? = some e)
    (hlock : j.lock = none) : Inv (s.settle j i c ref e outcome err) := by
  have hheld := h.held j hj
  have howned : c.point.owned = some ref := by rw [hpoint]; rfl
  obtain ⟨v, howner, hv, hid, hhash, hfits⟩ := hheld.owner hc howned he
  rw [hpoint] at hfits
  have hanswer : err = some .uncertain ∨ (err = none ∧ Recorded s.reservations e.reservation outcome) :=
    hfits.2.imp_right fun hr => ⟨hr.1, v, hv, hfits.1, hr.2⟩
  have hsettles := settles_settle c outcome err he
  have hplaced := placed_of_others hheld (others_settle hsettles hheld hlock hc howned)
    (At.returned (c := c)) (by simp [Point.owned])
  refine ⟨h.durable.reply (List.Sublist.refl _) rfl fun x hx => ?_, fun l hl => ?_, nofun⟩
  · rcases List.mem_append.mp hx with hx | hx
    · exact Or.inl hx
    · rw [List.mem_singleton.mp hx]
      exact Or.inr (Or.inr ⟨_, rfl, ⟨v, hv, hid, hhash⟩, hanswer⟩)
  · cases hl
    exact Held.settle hsettles hheld howner hanswer hplaced rfl

end

theorem Inv.crash (h : Inv s) : Inv { s with journal := none, calls := [] } :=
  ⟨{ h.durable with }, fun _ hj => (by cases hj), fun _ => rfl⟩

theorem Durable.expire (h : Durable s) (now : Nat) : Durable { s with rows := deleteExpiredOperations s.rows now } :=
  h.reply List.filter_sublist rfl fun _ hx => Or.inl hx

theorem operationsExcludingPrefix_spec {start : String} {limit : Nat} (hids : (rows.map (·.operationID)).Nodup) :
    (∀ row ∈ operationsExcludingPrefix rows start limit, row ∈ rows) ∧
      ((operationsExcludingPrefix rows start limit).map (·.operationID)).Nodup := by
  have hperm := List.perm_insertionSort (fun a b : Row η => a.rank ≤ b.rank)
    (rows.filter fun row => !start.toList.isPrefixOf row.operationID.toLower.toList)
  constructor
  · intro row hrow
    exact (List.mem_filter.mp (hperm.mem_iff.mp (List.mem_of_mem_take hrow))).1
  · have hsorted := (hperm.map (·.operationID)).nodup_iff.mpr (hids.sublist (List.filter_sublist.map _))
    exact hsorted.sublist ((List.take_sublist ..).map _)

theorem entryOf_fields (row : Row η) : (entryOf row).reservation = row.reservation ∧
    (entryOf row).hash = row.requestHash ∧ (entryOf row).complete = true := by
  unfold entryOf
  split <;> exact ⟨rfl, rfl, rfl⟩

section

variable {records : List (Row η)}

theorem load_heap (he : (load now records).heap[ref]? = some e) : ∃ row, records[ref]? = some row ∧ e = entryOf row := by
  rw [load, List.getElem?_map] at he
  obtain ⟨row, hrow, heq⟩ := Option.map_eq_some_iff.mp he
  exact ⟨row, hrow, heq.symm⟩

theorem load_lookup (hid : (load now records).entries.lookup id = some ref) :
    ∃ row, records[ref]? = some row ∧ row.operationID = id := by
  obtain ⟨u, w, hsplit, -⟩ := List.lookup_eq_some_iff.mp hid
  have hmem : (id, ref) ∈ records.zipIdx.map fun x => (x.1.operationID, x.2) := by
    rw [show (records.zipIdx.map fun x => (x.1.operationID, x.2)) = u ++ (id, ref) :: w from hsplit]
    simp
  obtain ⟨⟨row, k⟩, hrow, heq⟩ := List.mem_map.mp hmem
  cases heq
  exact ⟨row, List.mk_mem_zipIdx_iff_getElem?.mp hrow, rfl⟩

/-- A new journal holds the rows it has read, each once. -/
theorem Held.load (h : Durable s) (hcalls : s.calls = []) (hrecs : ∀ row ∈ records, row ∈ s.rows)
    (hids : (records.map (·.operationID)).Nodup) : Held s (load now records) := by
  have hrow : ∀ {ref : Nat} {row : Row η}, records[ref]? = some row → row ∈ s.rows :=
    fun hrow => hrecs _ (List.mem_of_getElem? hrow)
  have hindex : ∀ {ref ref' : Nat} {row row' : Row η}, records[ref]? = some row → records[ref']? = some row' →
      row.operationID = row'.operationID → ref = ref' := by
    intro ref ref' row row' hrow hrow' hid
    have hlt := (List.getElem?_eq_some_iff.mp hrow).1
    refine (List.getElem?_inj (by simpa using hlt) hids).mp ?_
    rw [List.getElem?_map, List.getElem?_map, hrow, hrow', Option.map_some, Option.map_some, hid]
  refine ⟨fun ref e he => ?_, fun ref ref' e e' he he' heq => ?_, fun id ref hid => ?_, fun id hid ref e hl he => ?_,
    fun id hid => ?_, hids.sublist (List.filter_sublist.map _), by simp [hcalls], by simp [hcalls]⟩
  · obtain ⟨row, hat, rfl⟩ := load_heap he
    obtain ⟨hnames, hrecd⟩ := h.rows row (hrow hat)
    rw [(entryOf_fields row).1, (entryOf_fields row).2.1]
    refine ⟨⟨_, hnames⟩, fun _ => ?_⟩
    unfold entryOf
    split
    · exact Or.inl rfl
    · next o t ht => exact Or.inr ⟨rfl, hrecd o t ht⟩
  · obtain ⟨row, hat, rfl⟩ := load_heap he
    obtain ⟨row', hat', rfl⟩ := load_heap he'
    rw [(entryOf_fields row).1, (entryOf_fields row').1] at heq
    obtain ⟨v, hv, hid, -⟩ := (h.rows row (hrow hat)).1
    obtain ⟨v', hv', hid', -⟩ := (h.rows row' (hrow hat')).1
    rw [heq, hv'] at hv
    cases hv
    exact hindex hat hat' (hid.symm.trans hid')
  · obtain ⟨row, hat, rfl⟩ := load_lookup hid
    refine ⟨entryOf row, by rw [Operation.load, List.getElem?_map, hat]; rfl, ?_⟩
    rw [(entryOf_fields row).1, (entryOf_fields row).2.1]
    exact (h.rows row (hrow hat)).1
  · obtain ⟨row, -, rfl⟩ := load_heap he
    exact (entryOf_fields row).2.2
  · obtain ⟨row, hrow, rfl⟩ := List.mem_map.mp hid
    obtain ⟨k, hk⟩ := List.mem_iff_getElem?.mp (List.mem_filter.mp hrow).1
    refine List.lookup_isSome_iff.mpr ⟨(row.operationID, k), ?_, by simp⟩
    exact List.mem_map.mpr ⟨(row, k), List.mk_mem_zipIdx_iff_getElem?.mpr hk, rfl⟩

end

theorem Durable.loaded_ids (h : Durable s) (config : Config) (now : Nat) :
    ((operationsExcludingPrefix (deleteExpiredOperations s.rows now) "exec:" config.max).map (·.operationID)).Nodup :=
  (operationsExcludingPrefix_spec (h.expire now).ids).2

theorem Inv.loaded (h : Inv s) (hdown : s.journal = none) : Inv (s.loaded config now) := by
  have hdur := h.durable.expire now
  refine ⟨{ hdur with }, fun j hj => ?_, nofun⟩
  cases hj
  have hloaded := @Held.load _ now _ _ hdur (h.idle hdown) (operationsExcludingPrefix_spec hdur.ids).1
    (h.durable.loaded_ids config now)
  exact { hloaded with }

theorem Inv.call (h : Inv s) (hup : s.journal ≠ none) :
    Inv { s with calls := s.calls ++ [{ operationID := operationID, hash := hash }] } := by
  refine ⟨{ h.durable with }, fun j hj => ?_, fun hnone => absurd hnone hup⟩
  have hheld := h.held j hj
  refine { hheld with calls := fun k c hc => ?_, unique := fun k k' c c' ref hc hc' hown hown' => ?_ }
  · rcases getElem?_concat_cases hc with hc | ⟨-, rfl⟩
    · exact hheld.calls k c hc
    · exact ⟨by simp, by simp, by simp [Point.owned]⟩
  · rcases getElem?_concat_cases hc with hold | ⟨-, rfl⟩
    · rcases getElem?_concat_cases hc' with hold' | ⟨-, rfl⟩
      · exact hheld.unique k k' c c' ref hold hold' hown hown'
      · cases hown'
    · cases hown

/-! ### Runs -/

section runs

variable [DecidableEq η] {ρ : Type} {canonicalHash : ρ → Option η}

variable {a : Action ρ}

theorem Inv.callStep (h : Inv s) (hj : s.journal = some j) (hc : s.calls[i]? = some c)
    (hstep : CallStep config s j i c a t) : Inv t := by
  have hheld := h.held j hj
  have hlocks := (hheld.calls i c hc).locks
  cases hstep with
  | waits _ hlook he hhash => exact h.waits hj hlook he hhash
  | conflicts | cancel => exact h.reply hj hj others_self (.refl s) (.refl j) (sound_refusal (by decide))
  | full _ hlock =>
    exact h.reply hj rfl (hheld.others_evicted hlock) { Shrinks.refl s with } hheld.evicted (sound_refusal (by decide))
  | admitted _ hlock hnone _ hnext => exact h.admitted hj hlock hnone hnext
  | cleaned hpoint => exact h.cleaned hj hc hpoint
  | uncleaned hpoint _ hrows =>
    refine h.unlock hj (hlocks (.inl ⟨_, hpoint⟩)).1 ?_ (sound_refusal (by decide))
    rcases hrows with rfl | rfl
    · exact List.Sublist.refl _
    · exact List.filter_sublist
  | replays hpoint hrow hid hhash =>
    exact h.unlock hj (hlocks (.inr hpoint)).1 (List.Sublist.refl _) (sound_replay h.durable hrow hid hhash)
  | clashes hpoint | unreserved hpoint =>
    exact h.unlock hj (hlocks (.inr hpoint)).1 (List.Sublist.refl _) (sound_refusal (by decide))
  | reservedLate hpoint hfind => exact h.reservedLate hj (hlocks (.inr hpoint)).1 (hlocks (.inr hpoint)).2 hfind
  | inserts hpoint hfind => exact h.insert hj (hlocks (.inr hpoint)).1 (hlocks (.inr hpoint)).2 hfind
  | start hpoint he => exact h.start hj hc hpoint he
  | finish hpoint he => exact h.finish hj hc hpoint he
  | unrecorded hpoint he => exact h.unrecorded hj hc hpoint he
  | records hpoint he herr hok => exact h.records hj hc hpoint he herr hok
  | settle hpoint he hlock => exact h.settle hj hc hpoint he hlock
  | wake hpoint he hcomp => exact h.wake hj hc hpoint he hcomp

theorem Inv.step (h : Inv s) (hs : s.step canonicalHash config a = some t) : Inv t := by
  rcases step_cases hs with ⟨_, _, -, hup, rfl | ⟨_, rfl⟩⟩ | ⟨-, rfl⟩ |
    ⟨_, _, -, hdown, ⟨-, rfl⟩ | ⟨-, rfl | rfl⟩⟩ | ⟨i, j, c, hj, hc, hstep⟩
  · exact h
  · exact h.call hup
  · exact h.crash
  · exact h.loaded hdown
  · exact h
  · exact ⟨h.durable.expire _, fun j hj => absurd (hdown.symm.trans hj) (by simp), h.idle⟩
  · exact h.callStep hj hc hstep

omit [DecidableEq η] in
theorem init_inv : Inv ({} : System η) :=
  ⟨⟨List.nodup_nil, by simp, by simp, by simp, by simp, by simp⟩, by simp, fun _ => rfl⟩

end runs

end Paperboat.Operation
