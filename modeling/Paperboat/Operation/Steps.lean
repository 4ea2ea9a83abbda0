import Paperboat.Operation.Journal

/-! What a step of the journal can do. A call that takes a step waits for an entry, is
answered or refused, or goes on with its own reservation; `CallStep` lists the outcomes
with the conditions under which they come about. -/

namespace Paperboat.Operation

variable {η ρ : Type}

theorem findRow_eq_none {rows : List (Row η)} {id : String} (h : findRow rows id = none) : ∀ row ∈ rows,
    row.operationID ≠ id := by
  intro row hrow
  simpa using List.find?_eq_none.mp h row hrow

theorem findRow_eq_some {rows : List (Row η)} {id : String} (h : findRow rows id = some row) :
    row ∈ rows ∧ row.operationID = id :=
  ⟨List.mem_of_find?_eq_some h, by simpa using List.find?_some h⟩

/-- The call that takes a step. -/
def Action.caller : Action ρ → Option Nat
  | .enter i _ | .cleanup i _ | .reserve i _ _ | .start i | .finish i _ | .complete i _ _ | .settle i | .wake i
  | .cancel i => some i
  | _ => none

/-- The row that a reservation of the call inserts. -/
def Call.row (c : Call η) (expiresAt reservation : Nat) : Row η :=
  ⟨c.operationID, c.hash, .pending, expiresAt, reservation⟩

/-- The journal after room was made for a new entry. -/
def Journal.evicted (j : Journal η) (max : Nat) (lock : Option Nat) : Journal η :=
  { j with entries := (evict max j.entries j.order).1, order := (evict max j.entries j.order).2, lock := lock }

/-- A journal with the entry of a new reservation. -/
def Journal.insert (j : Journal η) (c : Call η) (reservation : Nat) : Journal η :=
  { j with
    lock := none
    entries := (c.operationID, j.heap.length) :: j.entries
    heap := j.heap ++ [{ hash := c.hash, reservation := reservation }] }

theorem call_cases {canonicalHash : ρ → Option η} {s t : System η} {id : String} {request : ρ}
    (hs : s.call canonicalHash id request = some t) :
    s.journal ≠ none ∧ (t = s ∨ ∃ hash, t = { s with calls := s.calls ++ [{ operationID := id, hash := hash }] }) := by
  simp only [System.call] at hs
  split at hs
  · cases hs
  · next hup =>
    refine ⟨fun hnone => hup (by simp [hnone]), ?_⟩
    split at hs
    · exact .inl (Option.some.inj hs).symm
    · split at hs
      · exact .inl (Option.some.inj hs).symm
      · exact .inr ⟨_, (Option.some.inj hs).symm⟩

/-- The journal that the process starts with. -/
def System.loaded (config : Config) (s : System η) (now : Nat) : System η :=
  { s with rows := deleteExpiredOperations s.rows now
           journal := some (load now (operationsExcludingPrefix (deleteExpiredOperations s.rows now) "exec:" config.max)) }

theorem boot_cases {config : Config} {s t : System η} {fault : Fault} (hs : s.boot config now fault = some t) :
    (fault = .ok ∧ t = s.loaded config now) ∨
      (fault ≠ .ok ∧ (t = s ∨ t = { s with rows := deleteExpiredOperations s.rows now })) := by
  simp only [System.boot] at hs
  split at hs
  · cases hs
  cases fault <;> cases hs
  · exact .inl ⟨rfl, rfl⟩
  · exact .inr ⟨nofun, .inl rfl⟩
  · exact .inr ⟨nofun, .inr rfl⟩

variable [DecidableEq η]

/-- The outcomes of a step of call `i`. -/
inductive CallStep (config : Config) (s : System η) (j : Journal η) (i : Nat) (c : Call η) :
    Action ρ → System η → Prop
  | waits (hpoint : c.point = .entering) (hlook : j.entries.lookup c.operationID = some ref) (he : j.heap[ref]? = some e)
      (hhash : e.hash = c.hash) : CallStep config s j i c (.enter i now) (s.move i c (.waiting ref))
  | conflicts (hpoint : c.point = .entering) (hlook : j.entries.lookup c.operationID = some ref) (he : j.heap[ref]? = some e)
      (hhash : e.hash ≠ c.hash) : CallStep config s j i c (.enter i now) (s.refuse i c .conflict)
  | full (hpoint : c.point = .entering) (hlock : j.lock = none) (hnone : j.entries.lookup c.operationID = none)
      (hfull : config.max ≤ (evict config.max j.entries j.order).1.length) :
      CallStep config s j i c (.enter i now)
        ({ s with journal := some (j.evicted config.max none) }.refuse i c .full)
  | admitted (hpoint : c.point = .entering) (hlock : j.lock = none) (hnone : j.entries.lookup c.operationID = none)
      (hroom : (evict config.max j.entries j.order).1.length < config.max)
      (hnext : point = .cleaning now ∨ point = .reserving) :
      CallStep config s j i c (.enter i now)
        ({ s with journal := some (j.evicted config.max (some i)) }.move i c point)
  | cleaned (hpoint : c.point = .cleaning now) :
      CallStep config s j i c (.cleanup i .ok)
        ({ s with rows := deleteExpiredOperations s.rows now
                  journal := some { j with lastCleanup := now } }.move i c .reserving)
  | uncleaned (hpoint : c.point = .cleaning now) (hfault : fault ≠ .ok)
      (hrows : rows = s.rows ∨ rows = deleteExpiredOperations s.rows now) :
      CallStep config s j i c (.cleanup i fault)
        ({ s with rows := rows, journal := some { j with lock := none } }.refuse i c .store)
  | replays (hpoint : c.point = .reserving) (hrow : row ∈ s.rows) (hid : row.operationID = c.operationID)
      (hhash : row.requestHash = c.hash) :
      CallStep config s j i c (.reserve i now .ok)
        ({ s with journal := some { j with lock := none } }.reply i c (System.replay c row))
  | clashes (hpoint : c.point = .reserving) (hrow : row ∈ s.rows) (hid : row.operationID = c.operationID)
      (hhash : row.requestHash ≠ c.hash) :
      CallStep config s j i c (.reserve i now .ok)
        ({ s with journal := some { j with lock := none } }.refuse i c .conflict)
  | unreserved (hpoint : c.point = .reserving) (hfault : fault ≠ .ok) :
      CallStep config s j i c (.reserve i now fault)
        ({ s with journal := some { j with lock := none } }.refuse i c .store)
  | reservedLate (hpoint : c.point = .reserving) (hfind : findRow s.rows c.operationID = none) :
      CallStep config s j i c (.reserve i now .late)
        ({ s.reserved c (s.rows ++ [c.row (now + config.retention) s.reservations.length]) true with
          journal := some { j with lock := none } }.refuse i c .store)
  | inserts (hpoint : c.point = .reserving) (hfind : findRow s.rows c.operationID = none) :
      CallStep config s j i c (.reserve i now .ok)
        ({ s.reserved c (s.rows ++ [c.row (now + config.retention) s.reservations.length]) true with
          journal := some (j.insert c s.reservations.length) }.move i c (.starting j.heap.length))
  | start (hpoint : c.point = .starting ref) (he : j.heap[ref]? = some e) :
      CallStep config s j i c (.start i)
        ((s.note e.reservation fun v => { v with starts := v.starts + 1 }).move i c (.running ref))
  | finish (hpoint : c.point = .running ref) (he : j.heap[ref]? = some e) :
      CallStep config s j i c (.finish i outcome)
        ((s.note e.reservation fun v => { v with outcome := some outcome }).move i c (.completing ref outcome))
  | unrecorded (hpoint : c.point = .completing ref outcome) (he : j.heap[ref]? = some e) :
      CallStep config s j i c (.complete i now fault) (s.move i c (.settling ref outcome (some .uncertain)))
  | records (hpoint : c.point = .completing ref outcome) (he : j.heap[ref]? = some e)
      (herr : err = some .uncertain ∨ err = none)
      (hok : completeOperation s.rows c.operationID c.hash outcome now (now + config.retention) = (rows, .ok ())) :
      CallStep config s j i c (.complete i now fault)
        ((System.note { s with rows := rows } e.reservation fun v => { v with recorded := true }).move i c
          (.settling ref outcome err))
  | settle (hpoint : c.point = .settling ref outcome err) (he : j.heap[ref]? = some e) (hlock : j.lock = none) :
      CallStep config s j i c (.settle i) (s.settle j i c ref e outcome err)
  | wake (hpoint : c.point = .waiting ref) (he : j.heap[ref]? = some e) (hcomp : e.complete = true) :
      CallStep config s j i c (.wake i)
        (s.reply i c { operationID := c.operationID, hash := c.hash, outcome := e.outcome, replayed := true, err := e.err,
                       reservation := some e.reservation })
  | cancel (hpoint : c.point = .waiting ref) : CallStep config s j i c (.cancel i) (s.refuse i c .canceled)

variable {config : Config} {s t : System η} {j : Journal η} {i now ref : Nat} {c : Call η} {e : Entry η}
    {outcome : Outcome} {fault : Fault} {a : Action ρ} {canonicalHash : ρ → Option η}

theorem callStep_enter (hpoint : c.point = .entering) (hlock : j.lock = none)
    (hs : s.enter config j i c now = some t) : CallStep config s j i c (.enter i now : Action ρ) t := by
  unfold System.enter at hs
  split at hs
  · next hlook =>
    obtain ⟨e, he, hs⟩ := Option.bind_eq_some_iff.mp hs
    split at hs
    · next hhash => cases hs; exact .waits hpoint hlook he hhash
    · next hhash => cases hs; exact .conflicts hpoint hlook he hhash
  · next hnone =>
    dsimp only at hs
    split at hs
    · next hfull =>
      cases hs
      have hj : j.evicted config.max none = { j.evicted config.max none with lock := j.lock } := by rw [hlock]; rfl
      have hstep : CallStep config s j i c (.enter i now : Action ρ) _ := .full hpoint hlock hnone hfull
      rw [hj] at hstep
      exact hstep
    · next hroom =>
      cases hs
      refine .admitted hpoint hlock hnone (Nat.not_le.mp hroom) ?_
      split
      · exact .inl rfl
      · exact .inr rfl

theorem callStep_cleanup (hpoint : c.point = .cleaning now) :
    CallStep config s j i c (.cleanup i fault : Action ρ) (s.cleanup j i c now fault) := by
  cases fault with
  | ok => exact .cleaned hpoint
  | failed => exact .uncleaned hpoint (by decide) (.inl rfl)
  | late => exact .uncleaned hpoint (by decide) (.inr rfl)

theorem callStep_reserve (hpoint : c.point = .reserving) :
    CallStep config s j i c (.reserve i now fault : Action ρ) (s.reserve config j i c now fault) := by
  unfold System.reserve reserveOperation
  cases hfind : findRow s.rows c.operationID with
  | none =>
    cases fault with
    | ok => exact .inserts hpoint hfind
    | failed => exact .unreserved hpoint (by decide)
    | late => exact .reservedLate hpoint hfind
  | some existing =>
    obtain ⟨hrow, hid⟩ := findRow_eq_some hfind
    have hkeep : s.reserved c s.rows false = s := rfl
    by_cases hhash : existing.requestHash = c.hash
    · simp only [hhash, if_true, hkeep, ite_self]
      split
      · next hok => rw [hok]; exact .replays hpoint hrow hid hhash
      · next hfault => exact .unreserved hpoint hfault
    · simp only [hhash, if_false, hkeep, ite_self]
      split
      · next hok => rw [hok]; exact .clashes hpoint hrow hid hhash
      · next hfault => exact .unreserved hpoint hfault

theorem callStep_complete (hpoint : c.point = .completing ref outcome) (he : j.heap[ref]? = some e) :
    CallStep config s j i c (.complete i now fault : Action ρ)
      (s.complete config i c ref e.reservation outcome now fault) := by
  unfold System.complete
  split
  · exact .unrecorded hpoint he
  · generalize hresult : completeOperation s.rows c.operationID c.hash outcome now (now + config.retention) = result
    obtain ⟨rows, result⟩ := result
    cases result with
    | error err =>
      simp only [ite_self]
      exact .unrecorded hpoint he
    | ok =>
      cases fault with
      | ok => exact .records hpoint he (.inr rfl) hresult
      | failed => exact .unrecorded hpoint he
      | late => exact .records hpoint he (.inl rfl) hresult

theorem callStep_of_stepCall (ha : a.caller = some i) (hs : s.stepCall config j i c a = some t) :
    CallStep config s j i c a t := by
  unfold System.stepCall at hs
  split at hs
  case h_10 => cases hs
  all_goals cases ha
  · next hpoint =>
    split at hs
    · next hlock => exact callStep_enter hpoint hlock hs
    · cases hs
  · next hpoint => cases hs; exact callStep_cleanup hpoint
  · next hpoint => cases hs; exact callStep_reserve hpoint
  · next hpoint =>
    obtain ⟨e, he, heq⟩ := Option.bind_eq_some_iff.mp hs
    cases heq
    exact .start hpoint he
  · next hpoint =>
    obtain ⟨e, he, heq⟩ := Option.bind_eq_some_iff.mp hs
    cases heq
    exact .finish hpoint he
  · next hpoint =>
    obtain ⟨e, he, heq⟩ := Option.bind_eq_some_iff.mp hs
    cases heq
    exact callStep_complete hpoint he
  · next hpoint =>
    obtain ⟨e, he, hs⟩ := Option.bind_eq_some_iff.mp hs
    split at hs <;> cases hs
    next hlock => exact .settle hpoint he hlock
  · next hpoint =>
    obtain ⟨e, he, hs⟩ := Option.bind_eq_some_iff.mp hs
    split at hs <;> cases hs
    next hcomp => exact .wake hpoint he hcomp
  · next hpoint => cases hs; exact .cancel hpoint

/-- A step is one of a call, or concerns the journal as a whole. -/
theorem step_cases (hs : s.step canonicalHash config a = some t) :
    (∃ id request, a = .call id request ∧ s.journal ≠ none ∧
        (t = s ∨ ∃ hash, t = { s with calls := s.calls ++ [{ operationID := id, hash := hash }] })) ∨
      (a = .crash ∧ t = { s with journal := none, calls := [] }) ∨
      (∃ now fault, a = .boot now fault ∧ s.journal = none ∧
        ((fault = .ok ∧ t = s.loaded config now) ∨
          (fault ≠ .ok ∧ (t = s ∨ t = { s with rows := deleteExpiredOperations s.rows now })))) ∨
      ∃ i j c, s.journal = some j ∧ s.calls[i]? = some c ∧ CallStep config s j i c a t := by
  cases a with
  | call id request => exact .inl ⟨id, request, rfl, call_cases hs⟩
  | crash =>
    cases hs
    exact .inr (.inl ⟨rfl, rfl⟩)
  | boot now fault =>
    simp only [System.step] at hs
    split at hs
    · next hdown => exact .inr (.inr (.inl ⟨now, fault, rfl, Option.isNone_iff_eq_none.mp hdown, boot_cases hs⟩))
    · cases hs
  | enter i | cleanup i | reserve i | start i | finish i | complete i | settle i | wake i | cancel i =>
    obtain ⟨j, hj, hs⟩ := Option.bind_eq_some_iff.mp hs
    obtain ⟨c, hc, hs⟩ := Option.bind_eq_some_iff.mp hs
    exact .inr (.inr (.inr ⟨i, j, c, hj, hc, callStep_of_stepCall rfl hs⟩))

end Paperboat.Operation
