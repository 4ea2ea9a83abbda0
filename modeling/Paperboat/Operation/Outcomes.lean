import Paperboat.Operation.AtMostOnce

/-! What callers of the journal see, over every run. -/

namespace Paperboat.Operation

open Transition

def Action.fault {ρ : Type} : Action ρ → Fault
  | .cleanup _ fault | .reserve _ _ fault | .complete _ _ fault | .boot _ fault => fault
  | _ => .ok

/-- Why a call is turned away without an answer about a reservation. -/
inductive Refused {η ρ : Type} (config : Config) (s : System η) (a : Action ρ) (x : Reply η) : ExecError → Prop
  | conflict {r : Nat} {v : Reservation η} (hv : s.reservations[r]? = some v) (hid : v.operationID = x.operationID)
      (hhash : v.hash ≠ x.hash) : Refused config s a x .conflict
  | full (hj : s.journal = some j) (hfull : config.max ≤ j.held.length) : Refused config s a x .full
  | store (hfault : a.fault ≠ .ok) : Refused config s a x .store
  | canceled (ha : a = .cancel i) : Refused config s a x .canceled

variable {η ρ : Type} {canonicalHash : ρ → Option η} {config : Config} {s t : System η}
    {rows : List (Row η)} {now i : Nat} {j : Journal η} {c : Call η} {row : Row η} {a : Action ρ}
    {vs : List (Reservation η)} {x : Reply η}

theorem lost_expired (hrow : row ∈ rows) (hlost : row ∉ deleteExpiredOperations rows now) : row.expiresAt ≤ now := by
  simp only [deleteExpiredOperations, List.mem_filter, not_and] at hlost
  simpa using hlost hrow

theorem Sound.succeeded (h : Sound vs x) (hx : x.err = none) :
    ∃ r v, x.reservation = some r ∧ vs[r]? = some v ∧ v.operationID = x.operationID ∧ v.hash = x.hash ∧
      v.outcome = some x.outcome ∧ v.recorded = true := by
  rcases h with ⟨-, e, -, he⟩ | ⟨r, hr, ⟨v, hv, hid, hhash⟩, herr | ⟨-, w, hw, hout, hrec⟩⟩
  · simp [hx] at he
  · simp [hx] at herr
  · have hvw : v = w := Option.some.inj (hv.symm.trans hw)
    exact ⟨r, v, hr, hv, hid, hhash, hvw ▸ hout, hvw ▸ hrec⟩

theorem Sound.unrecorded (h : Sound vs x)
    (hr : x.reservation = some r) (hv : vs[r]? = some v) (hrec : v.recorded = false) : x.err = some .uncertain := by
  rcases h with ⟨hnone, -⟩ | ⟨r', hr', -, herr | ⟨-, w, hw, -, hrec'⟩⟩
  · simp [hr] at hnone
  · exact herr
  · obtain rfl : r = r' := Option.some.inj (hr.symm.trans hr')
    obtain rfl : v = w := Option.some.inj (hv.symm.trans hw)
    simp [hrec] at hrec'

/-- Two successes of one identifier for different requests come from two reservations, and
the row of the earlier one is gone. -/
theorem Durable.separate (h : Durable s) (hx : x ∈ s.replies) (hy : y ∈ s.replies)
    (hxe : x.err = none) (hye : y.err = none) (hid : x.operationID = y.operationID) (hne : x.hash ≠ y.hash) :
    ∃ r r', x.reservation = some r ∧ y.reservation = some r' ∧ r ≠ r' ∧ s.Lapsed (min r r') := by
  obtain ⟨r, v, hr, hv, hvid, hvhash, -⟩ := (h.replies x hx).succeeded hxe
  obtain ⟨r', w, hr', hw, hwid, hwhash, -⟩ := (h.replies y hy).succeeded hye
  have hids : v.operationID = w.operationID := hvid.trans (hid.trans hwid.symm)
  rcases Nat.lt_trichotomy r r' with hlt | heq | hgt
  · refine ⟨r, r', hr, hr', Nat.ne_of_lt hlt, ?_⟩
    rw [Nat.min_eq_left (Nat.le_of_lt hlt)]
    exact h.lapsed r r' v w hlt hv hw hids
  · subst heq
    obtain rfl : v = w := Option.some.inj (hv.symm.trans hw)
    exact absurd (hvhash.symm.trans hwhash) hne
  · refine ⟨r, r', hr, hr', (Nat.ne_of_lt hgt).symm, ?_⟩
    rw [Nat.min_eq_right (Nat.le_of_lt hgt)]
    exact h.lapsed r' r w v hgt hw hv hids.symm

/-! ### Rows and the clock -/

/-- No row is removed, though one may change its state. -/
def Kept (rows rows' : List (Row η)) : Prop := ∀ row ∈ rows, ∃ row' ∈ rows', row'.reservation = row.reservation

theorem Kept.refl (rows : List (Row η)) : Kept rows rows := fun row hrow => ⟨row, hrow, rfl⟩

theorem Kept.append (rows : List (Row η)) (row : Row η) : Kept rows (rows ++ [row]) :=
  fun row hrow => ⟨row, List.mem_append_left _ hrow, rfl⟩

/-- The reading of the clock with which a step deletes the expired rows: that of
`NewPersistentJournal`, or the one with which the call that cleans up has entered. -/
def System.deletesAt (s : System η) : Action ρ → Option Nat
  | .boot now _ => some now
  | .cleanup i _ => (s.calls[i]?).bind fun c =>
    match c.point with
    | .cleaning now => some now
    | _ => none
  | _ => none

variable [DecidableEq η]

theorem kept_complete {rows' : List (Row η)} {id : String} {hash : η} {outcome : Outcome} {expiresAt : Nat}
    (h : completeOperation rows id hash outcome now expiresAt = (rows', .ok ())) :
    Kept rows rows' := by
  intro row hrow
  unfold completeOperation at h
  split at h
  · cases h
  split at h
  · cases h
  split at h
  · split at h
    · cases h
      refine ⟨_, List.mem_map_of_mem hrow, ?_⟩
      split <;> rfl
    · split at h <;> cases h
      exact ⟨row, hrow, rfl⟩
  · cases h

theorem CallStep.kept_or_deleted (hc : s.calls[i]? = some c) (h : CallStep config s j i c a t) :
    Kept s.rows t.rows ∨ ∃ now, s.deletesAt a = some now ∧ t.rows = deleteExpiredOperations s.rows now := by
  cases h with
  | cleaned hpoint => exact .inr ⟨_, by simp [System.deletesAt, hc, hpoint], rfl⟩
  | uncleaned hpoint _ hrows =>
    rcases hrows with rfl | rfl
    · exact .inl (Kept.refl _)
    · exact .inr ⟨_, by simp [System.deletesAt, hc, hpoint], rfl⟩
  | reservedLate | inserts => exact .inl (Kept.append _ _)
  | records _ _ _ hok => exact .inl (kept_complete hok)
  | _ => exact .inl (Kept.refl _)

theorem step_rows (hs : s.step canonicalHash config a = some t) :
    Kept s.rows t.rows ∨ ∃ now, s.deletesAt a = some now ∧ t.rows = deleteExpiredOperations s.rows now := by
  rcases step_cases hs with ⟨_, _, -, -, rfl | ⟨_, rfl⟩⟩ | ⟨-, rfl⟩ | ⟨now, _, rfl, -, ⟨-, rfl⟩ | ⟨-, rfl | rfl⟩⟩ |
    ⟨i, j, c, -, hc, hstep⟩
  · exact .inl (Kept.refl _)
  · exact .inl (Kept.refl _)
  · exact .inl (Kept.refl _)
  · exact .inr ⟨now, rfl, rfl⟩
  · exact .inl (Kept.refl _)
  · exact .inr ⟨now, rfl, rfl⟩
  · exact hstep.kept_or_deleted hc

theorem row_removed_when_expired (hs : s.step canonicalHash config a = some t) (hrow : row ∈ s.rows) :
    (∃ row' ∈ t.rows, row'.reservation = row.reservation) ∨ ∃ now, s.deletesAt a = some now ∧ row.expiresAt ≤ now := by
  rcases step_rows hs with hkept | ⟨now, hnow, heq⟩
  · exact .inl (hkept row hrow)
  · by_cases hmem : row ∈ t.rows
    · exact .inl ⟨row, hmem, rfl⟩
    · rw [heq] at hmem
      exact .inr ⟨now, hnow, lost_expired hrow hmem⟩

theorem CallStep.calls (h : CallStep config s j i c a t) :
    ∃ p, t.calls = s.calls.set i { c with point := p } ∧ ∀ now, p = .cleaning now → a = .enter i now := by
  cases h with
  | admitted _ _ _ _ hnext =>
    refine ⟨_, rfl, fun now hnow => ?_⟩
    rcases hnext with rfl | rfl <;> cases hnow
    rfl
  | _ => exact ⟨_, rfl, by simp⟩

/-- A call cleans up with the reading of the clock that it has entered with. -/
theorem cleaning_since_enter (hs : s.step canonicalHash config a = some t) (hc : t.calls[i]? = some c)
    (hpoint : c.point = .cleaning now) : s.calls[i]? = some c ∨ a = .enter i now := by
  rcases step_cases hs with ⟨_, _, -, -, rfl | ⟨_, rfl⟩⟩ | ⟨-, rfl⟩ | ⟨_, _, -, -, ⟨-, rfl⟩ | ⟨-, rfl | rfl⟩⟩ |
    ⟨k, j, d, -, hd, hstep⟩
  · exact .inl hc
  · rcases getElem?_concat_cases hc with hc | ⟨-, rfl⟩
    · exact .inl hc
    · cases hpoint
  · cases hc
  · exact .inl hc
  · exact .inl hc
  · exact .inl hc
  · obtain ⟨p, hcalls, henter⟩ := hstep.calls
    rw [hcalls] at hc
    rcases getElem?_set_cases hc with ⟨rfl, rfl⟩ | ⟨-, hc⟩
    · exact .inr (henter now hpoint)
    · exact .inl hc

/-! ### Refusals -/

theorem CallStep.refused (h : Inv s) (hj : s.journal = some j) (hstep : CallStep config s j i c a t)
    (hx : t.replies = s.replies ++ [x]) (hr : x.reservation = none) :
    ∃ err, x.err = some err ∧ Refused config s a x err := by
  have hlast : ∀ {y : Reply η}, t.replies = s.replies ++ [y] → x = y := fun hy => by
    simpa using hx.symm.trans hy
  have hquiet : t.replies ≠ s.replies := by simp [hx]
  cases hstep with
  | conflicts _ hlook he hhash =>
    obtain rfl := hlast rfl
    obtain ⟨e', he', v, hv, hid, hvhash⟩ := (h.held j hj).entries _ _ hlook
    obtain rfl := Option.some.inj (he.symm.trans he')
    exact ⟨_, rfl, .conflict hv hid (hvhash ▸ hhash)⟩
  | full _ _ _ hfull =>
    obtain rfl := hlast rfl
    exact ⟨_, rfl, .full hj (Nat.not_lt.mp fun hlt => Nat.not_lt.mpr hfull ((evict_length_lt_iff ..).mpr hlt))⟩
  | uncleaned _ hfault | unreserved _ hfault =>
    obtain rfl := hlast rfl
    exact ⟨_, rfl, .store hfault⟩
  | reservedLate =>
    obtain rfl := hlast rfl
    exact ⟨_, rfl, .store (by simp [Action.fault])⟩
  | clashes _ hrow hid hhash =>
    obtain rfl := hlast rfl
    obtain ⟨v, hv, hvid, hvhash⟩ := (h.durable.rows _ hrow).1
    exact ⟨_, rfl, .conflict hv (hvid.trans hid) (hvhash ▸ hhash)⟩
  | cancel =>
    obtain rfl := hlast rfl
    exact ⟨_, rfl, .canceled rfl⟩
  | @replays row =>
    obtain rfl := hlast rfl
    cases hstate : row.state <;> simp [System.replay, hstate] at hr
  | settle | wake =>
    obtain rfl := hlast rfl
    cases hr
  | _ => exact absurd rfl hquiet

theorem step_refused (h : Inv s) (hs : s.step canonicalHash config a = some t) (hx : t.replies = s.replies ++ [x])
    (hr : x.reservation = none) : ∃ err, x.err = some err ∧ Refused config s a x err := by
  have hquiet : t.replies ≠ s.replies := by simp [hx]
  rcases step_cases hs with ⟨_, _, -, -, rfl | ⟨_, rfl⟩⟩ | ⟨-, rfl⟩ | ⟨_, _, -, -, ⟨-, rfl⟩ | ⟨-, rfl | rfl⟩⟩ |
    ⟨i, j, c, hj, -, hstep⟩
  iterate 6 exact absurd rfl hquiet
  · exact hstep.refused h hj hx hr

/-- A call that finds its operation reserved and not completed is told so. -/
theorem pending_uncertain (h : Durable s) (hc : s.calls[i]? = some c) (hrow : row ∈ s.rows)
    (hid : row.operationID = c.operationID) (hhash : row.requestHash = c.hash)
    (hpend : row.state = .pending) (hs : s.step canonicalHash config (.reserve i now .ok) = some t) :
    t.replies = s.replies ++ [{ operationID := c.operationID, hash := c.hash, replayed := true, err := some .uncertain
                                reservation := some row.reservation }] := by
  have hsame : ∀ {row' : Row η}, row' ∈ s.rows → row'.operationID = c.operationID → row' = row := fun hrow' hid' =>
    List.inj_on_of_nodup_map h.ids hrow' hrow (hid'.trans hid.symm)
  rcases step_cases hs with ⟨_, _, ha, -⟩ | ⟨ha, -⟩ | ⟨_, _, ha, -⟩ | ⟨k, j, d, -, hd, hstep⟩
  · cases ha
  · cases ha
  · cases ha
  · cases hstep with
    | replays _ hrow' hid' hhash' =>
      cases hc.symm.trans hd
      obtain rfl := hsame hrow' hid'
      simp [System.reply, System.move, System.replay, hpend]
    | clashes _ hrow' hid' hhash' =>
      cases hc.symm.trans hd
      exact absurd (hsame hrow' hid' ▸ hhash) hhash'
    | unreserved _ hfault => exact absurd rfl hfault
    | inserts _ hfind =>
      cases hc.symm.trans hd
      exact absurd hid (findRow_eq_none hfind row hrow)

/-- The callback is started at most once for each reservation, and another reservation of
an identifier is made only after the row of the earlier one was removed, which happens once
the clock reads its expiry. A successful answer carries the outcome of a reservation of its
own request, which the store has. An answer about a reservation the store has no outcome of
is uncertain, also where the pending row is all that is left of it, and the other errors are
given for their own reasons only. -/
theorem operations_run_at_most_once (canonicalHash : ρ → Option η) (config : Config) {s : System η}
    (h : Reach (System.step canonicalHash config) Always {} s) :
    (∀ v ∈ s.reservations, v.starts ≤ 1) ∧
      (∀ (r r' : Nat) (v w : Reservation η), r < r' → s.reservations[r]? = some v → s.reservations[r']? = some w →
        v.operationID = w.operationID → s.Lapsed r) ∧
      (∀ a t, s.step canonicalHash config a = some t →
        (∀ row ∈ s.rows, (∃ row' ∈ t.rows, row'.reservation = row.reservation) ∨
          ∃ now, s.deletesAt a = some now ∧ row.expiresAt ≤ now) ∧
        (∀ (i : Nat) (c : Call η) (now : Nat), t.calls[i]? = some c → c.point = .cleaning now →
          s.calls[i]? = some c ∨ a = .enter i now) ∧
        ∀ x, t.replies = s.replies ++ [x] → x.reservation = none → ∃ err, x.err = some err ∧ Refused config s a x err) ∧
      (∀ x ∈ s.replies, ∀ y ∈ s.replies, x.err = none → y.err = none → x.operationID = y.operationID → x.hash ≠ y.hash →
        ∃ r r', x.reservation = some r ∧ y.reservation = some r' ∧ r ≠ r' ∧ s.Lapsed (min r r')) ∧
      (∀ x ∈ s.replies, x.err = none → ∃ r v, x.reservation = some r ∧ s.reservations[r]? = some v ∧
        v.operationID = x.operationID ∧ v.hash = x.hash ∧ v.outcome = some x.outcome ∧ v.recorded = true) ∧
      (∀ row ∈ s.rows, row.state = .pending → ∀ v, s.reservations[row.reservation]? = some v → v.recorded = false) ∧
      (∀ x ∈ s.replies, ∀ (r : Nat) (v : Reservation η), x.reservation = some r → s.reservations[r]? = some v →
        v.recorded = false → x.err = some .uncertain) ∧
      ∀ (i : Nat) (c : Call η), s.calls[i]? = some c → ∀ row ∈ s.rows, row.operationID = c.operationID →
        row.requestHash = c.hash → row.state = .pending → ∀ now t,
          s.step canonicalHash config (.reserve i now .ok) = some t →
          t.replies = s.replies ++ [{ operationID := c.operationID, hash := c.hash, replayed := true
                                      err := some .uncertain, reservation := some row.reservation }] := by
  have hinv : Inv s := h.invariant init_inv fun hx _ hs => hx.step hs
  have hdurable := hinv.durable
  refine ⟨hdurable.starts, hdurable.lapsed, fun a t hs => ⟨?_, ?_, ?_⟩, ?_, ?_, hdurable.pending, ?_, ?_⟩
  · intro row hrow
    exact row_removed_when_expired hs hrow
  · intro i c now hc hpoint
    exact cleaning_since_enter hs hc hpoint
  · intro x hx hr
    exact step_refused hinv hs hx hr
  · intro x hx y hy hxe hye hid hne
    exact hdurable.separate hx hy hxe hye hid hne
  · intro x hx hxe
    exact (hdurable.replies x hx).succeeded hxe
  · intro x hx r v hr hv hrec
    exact (hdurable.replies x hx).unrecorded hr hv hrec
  · intro i c hc row hrow hid hhash hpend now t hs
    exact pending_uncertain hdurable hc hrow hid hhash hpend hs

end Paperboat.Operation

namespace Paperboat.Operation.Demo

open Transition

def config : Config := ⟨4, 1⟩

/-- Execute a request from the first step to the answer. -/
def execute (i : Nat) (request : Nat) (outcome : Outcome) (now : Nat) : List (Action Nat) :=
  [.call "operation-1" request, .enter i now, .reserve i now .ok, .start i, .finish i outcome, .complete i now .ok,
   .settle i]

/-- The process restarts after the row has expired, and the identifier is used again. -/
def reused : List (Action Nat) :=
  .boot 0 .ok :: execute 0 7 ⟨[1], ""⟩ 0 ++ [.crash, .boot 1 .ok] ++ execute 0 8 ⟨[2], ""⟩ 1

def reusedEnd : System Nat where
  rows := [⟨"operation-1", 8, .completed ⟨[2], ""⟩ 1, 2, 1⟩]
  reservations := [⟨"operation-1", 7, 1, some ⟨[1], ""⟩, true⟩, ⟨"operation-1", 8, 1, some ⟨[2], ""⟩, true⟩]
  journal := some { entries := [("operation-1", 0)], order := ["operation-1"], lastCleanup := 1,
                    heap := [⟨8, ⟨[2], ""⟩, true, none, 1⟩] }
  calls := [⟨"operation-1", 8, .returned⟩]
  replies := [⟨"operation-1", 7, ⟨[1], ""⟩, false, none, some 0⟩, ⟨"operation-1", 8, ⟨[2], ""⟩, false, none, some 1⟩]

theorem reused_run : run (System.step some config) {} reused = some reusedEnd := by decide +kernel

/-- Both requests of one identifier succeed when the row of the first expired between them. -/
theorem identifier_reused_after_expiry :
    ¬ ∀ s : System Nat, Reach (System.step some config) Always {} s → ∀ x ∈ s.replies, ∀ y ∈ s.replies,
      x.operationID = y.operationID → x.hash ≠ y.hash → ¬ (x.err = none ∧ y.err = none) := by
  intro h
  have hreach : Reach (System.step some config) Always {} reusedEnd := reach_of_run reused reused_run
  exact h reusedEnd hreach ⟨"operation-1", 7, ⟨[1], ""⟩, false, none, some 0⟩ (by simp [reusedEnd])
    ⟨"operation-1", 8, ⟨[2], ""⟩, false, none, some 1⟩ (by simp [reusedEnd]) rfl (by decide) ⟨rfl, rfl⟩

theorem reused_run_lapsed : Reach (System.step some config) Always {} reusedEnd ∧ reusedEnd.Lapsed 0 := by
  have hreach : Reach (System.step some config) Always {} reusedEnd := reach_of_run reused reused_run
  have honce := operations_run_at_most_once some config hreach
  exact ⟨hreach, honce.2.1 0 1 _ _ (by decide) rfl rfl rfl⟩

end Paperboat.Operation.Demo
