import Paperboat.ConnectionManager.RaceOwnership

/-! A race of all paths that meets a fatal failure. The main loop notes the failure and
cancels the other candidates, but reads on, and a candidate that has connected by then
is selected all the same. -/

namespace Paperboat.ConnectionManager

open Transition

def Outcome.failure? (o : Outcome) : Option Failure :=
  match o.result with
  | .ok _ => none
  | .error err => some (typedFailure o.path err)

/-- The first failure that allows no fallback. -/
def firstFatal (os : List Outcome) : Option Failure :=
  (os.filterMap Outcome.failure?).find? fun f => !f.allowsFallback

theorem firstFatal_append (os ps : List Outcome) :
    firstFatal (os ++ ps) = (firstFatal os).or (firstFatal ps) := by
  simp [firstFatal, List.find?_append]

namespace Race

variable {s t : Race}

/-- A race of all paths that warms a standby. -/
structure Auto (s : Race) : Prop where
  mode : s.mode = .auto
  oneShot : s.config.oneShot = false
  preference : s.preference = false
  background : ∀ n j, s.background ≠ .drain n j
  running : s.returned = none → (∀ o ∈ s.received, o.connections = []) ∧
    s.terminal = firstFatal s.received ∧ s.standbyReady = []
  selected : ∀ w, s.returned = some (.ok w) → ∃ o ∈ s.received, o.connections ≠ []
  failed : ∀ e, s.returned = some (.error e) → (∀ o ∈ s.received, o.connections = []) ∧
    (∀ f, firstFatal s.received = some f → e = .terminal f) ∧ s.leftOver = 0 ∧
    s.background = .returned ∧ s.standbyReady = []

/-- A failure with nothing selected, held back or failed for good. -/
theorem fail_eq (hw : s.winner = none) (hheld : s.heldBack = none) (hterm : s.terminal = none) :
    s.fail index path err = (if path = .directQUIC then
      { s with directFinished := true, directEligible := false, preference := false }
      else s).failOn index (typedFailure path err) := by
  unfold fail
  rw [hw, hheld, if_neg (by simp [hterm])]
  dsimp only
  split <;> rfl

theorem failOn_auto (index : ℕ) (failure : Failure) (hm : s.mode = .auto) :
    (s.failOn index failure).terminal =
        (if failure.allowsFallback then s.terminal else some failure) ∧
      (s.failOn index failure).standbyReady = s.standbyReady ∧
      (s.failOn index failure).preference = s.preference := by
  unfold failOn
  split
  next hf => exact ⟨by simp [hf.1], rfl, rfl⟩
  next hf =>
    have hallows : failure.allowsFallback = true := by simpa [hm] using hf
    rw [if_pos hallows]
    unfold begin
    split <;> exact ⟨rfl, rfl, rfl⟩

/-- The first fatal failure stays the terminal one. -/
theorem fail_auto (h : Local s) (hm : s.mode = .auto) (index : ℕ) (path : Path) (err : Err) :
    (s.fail index path err).terminal = s.terminal.or
        ([typedFailure path err].find? fun f => !f.allowsFallback) ∧
      (s.fail index path err).standbyReady = s.standbyReady ∧
      (s.preference = false → (s.fail index path err).preference = false) := by
  have hheld : s.heldBack = none := by simp [heldBack, h.wss, h.fallback_none (.inl hm)]
  cases hterm : s.terminal with
  | some f =>
    have hsame : s.fail index path err = s := by simp [fail, hterm]
    rw [hsame]
    exact ⟨by simp [hterm], rfl, id⟩
  | none =>
    rw [fail_eq (h.winner_none (.inl hm)) hheld hterm]
    obtain ⟨h1, h2, h3⟩ := failOn_auto (s := if path = .directQUIC then
      { s with directFinished := true, directEligible := false, preference := false } else s)
      index (typedFailure path err) (by split <;> exact hm)
    refine ⟨h1.trans ?_, h2.trans (by split <;> rfl), fun hp => h3.trans (by split <;> simp [hp])⟩
    cases hf : (typedFailure path err).allowsFallback with
    | false => simp [hf]
    | true =>
      simp only [if_pos, List.find?_singleton, hf, Bool.not_true]
      split <;> exact hterm

theorem Auto.handle (h : Auto s) (hl : Lawful s) (hr : s.returned = none) :
    Auto ({ s with results := rest }.handle o) := by
  have hloc : Local (s.read o rest) := (hl.local_of_running hr).read
  obtain ⟨hnone, hterm, hready⟩ := h.running hr
  rw [handle_eq]
  cases ho : o.result with
  | ok region =>
    have hwarm : (s.read o rest).succeed ⟨o.path, region, o.index⟩ =
        (s.read o rest).returnWarm { toCarrier := ⟨o.path, region, o.index⟩ } := by
      rw [succeed, if_pos (.inl h.mode), if_neg (by simp [Race.read, h.oneShot])]
    dsimp only
    rw [hwarm]
    refine ⟨h.mode, h.oneShot, h.preference, fun n j hb => ?_, by simp [returnWarm],
      fun w _ => ?_, by simp [returnWarm]⟩
    · simp only [returnWarm, Background.awaiting] at hb
      split at hb <;> cases hb
    · exact ⟨o, by simp [returnWarm, Race.read], by simp [Outcome.connections, ho]⟩
  | error err =>
    obtain ⟨⟨hf, -, -⟩, hloc'⟩ := hloc.fail o.index o.path err
    obtain ⟨hterm', hready', hpref⟩ := fail_auto hloc h.mode o.index o.path err
    have hfail : o.connections = [] := by rw [Outcome.connections, ho]
    have hfirst : firstFatal [o] = [typedFailure o.path err].find? fun f => !f.allowsFallback := by
      simp [firstFatal, Outcome.failure?, ho]
    refine ⟨hf.mode.trans h.mode, (congrArg Config.oneShot hf.config).trans h.oneShot,
      hpref h.preference, fun n j hb => ?_, fun _ => ⟨fun p hp => ?_, ?_, hready'.trans hready⟩,
      fun w hw => ?_, fun e he => ?_⟩
    · rw [hloc'.idle] at hb
      cases hb
    · rw [hf.received] at hp
      rcases List.mem_append.mp hp with hp | hp
      · exact hnone p hp
      · obtain rfl := List.mem_singleton.mp hp
        exact hfail
    · rw [hterm', hf.received, ← hfirst]
      simp only [Race.read]
      rw [firstFatal_append, hterm]
    · rw [hloc'.running] at hw
      cases hw
    · rw [hloc'.running] at he
      cases he

theorem Auto.conclude (h : Auto s) (hl : Lawful s) (hlevel : Level s) (hr : s.returned = none)
    (hn : s.candidates.length ≤ s.completed) : Auto s.conclude := by
  have hloc := hl.local_of_running hr
  obtain ⟨hnone, hterm, hready⟩ := h.running hr
  have hw : s.winner = none := hloc.winner_none (.inl h.mode)
  have hover : s.leftOver = 0 := by
    have hcount := hlevel hr
    omega
  refine { h with running := nofun, selected := fun w hw' => ?_, failed := fun e he => ?_ }
  · simp only [Race.conclude, hw, Option.some.injEq] at hw'
    split at hw'
    next hc => cases hc
    next => cases hw'
    next => split_ifs at hw'
  · refine ⟨hnone, fun f hf => ?_, hover, hloc.idle, hready⟩
    have hterm' : s.terminal = some f := hterm.trans hf
    simp only [Race.conclude, hw, hterm', Option.some.injEq, Except.error.injEq] at he
    exact he.symm

theorem Auto.step (h : Auto s) (hl : Lawful s) (hlevel : Level s) (hst : s.step a = some t) : Auto t := by
  -- The goroutine in the background runs after a selection only.
  have hbusy : ∀ e, s.returned = some (.error e) → s.background = .returned :=
    fun e he => (h.failed e he).2.2.2.1
  cases moved_of_step hst with
  | report _ hi | giveUp _ hi =>
    refine { h with failed := fun e he => ?_ }
    obtain ⟨-, -, hover, -⟩ := h.failed e he
    have hpos := List.length_pos_of_mem hi
    rw [leftOver] at hover
    omega
  | cancelParent | timeout =>
    exact { h with }
  | receive hr => exact h.handle hl hr
  | prefer hr hp =>
    rw [h.preference] at hp
    cases hp
  | conclude hr hn => exact h.conclude hl hlevel hr hn
  | @awaitReceive n o rest hb =>
    have hr := hl.returned_of_busy (by simp [hb])
    obtain ⟨b, begun, ready, heq, -, hback⟩ := warm_eq { s with results := rest } n o
    rw [heq]
    refine { h with
      background := fun m j hb' => ?_, running := fun hnone => absurd hnone hr
      failed := fun e he => ?_ }
    · rcases hback with rfl | ⟨-, rfl⟩
      · simp only [Background.awaiting] at hb'
        split at hb' <;> cases hb'
      · cases hb'
    · rw [hbusy e he] at hb
      cases hb
  | awaitDone hb =>
    have hr := hl.returned_of_busy (by simp [hb])
    refine { h with
      background := by simp, running := fun hnone => absurd hnone hr, failed := fun e he => ?_ }
    rw [hbusy e he] at hb
    cases hb
  | drainReceive hb => exact absurd hb (h.background _ _)

variable {config : Config} {network : NetworkClass} {excluded only : Option Path}
  {cs : List Candidate}

theorem auto_init (hone : config.oneShot = false) : Auto (init config .auto cs) :=
  ⟨rfl, hone, rfl, nofun, fun _ => ⟨nofun, rfl, rfl⟩, nofun, nofun⟩

theorem auto_of_reach (hplan : plan config .auto network excluded only = some cs)
    (hone : config.oneShot = false) (h : Reach Race.step Always (init config .auto cs) s) :
    Lawful s ∧ (∀ i, s.tally i = s.produced.count i) ∧ Level s ∧ Auto s := by
  induction h with
  | refl => exact ⟨lawful_init hplan, fun _ => rfl, level_init, auto_init hone⟩
  | @tail x y a _ _ hst ih =>
    obtain ⟨hl, ht, hlevel, ha⟩ := ih
    refine ⟨hl.step hst, tally_step hl ht (fun hdrain => ?_) hst, level_step hlevel hl hst,
      ha.step hl hlevel hst⟩
    subst hdrain
    cases moved_of_step hst with
    | drainReceive hb => exact absurd hb (ha.background _ _)

theorem firstFatal_of_first (hpre : ∀ p ∈ pre, fatal p = false)
    (ho : o.result = .error err) (hfatal : (typedFailure o.path err).allowsFallback = false) :
    firstFatal (pre ++ o :: post) = some (typedFailure o.path err) := by
  have hnone : firstFatal pre = none := by
    simp only [firstFatal, List.find?_eq_none, List.mem_filterMap]
    rintro f ⟨p, hp, hf⟩
    have hsafe := hpre p hp
    unfold Outcome.failure? at hf
    unfold fatal at hsafe
    split at hf <;> cases hf
    next herr =>
      rw [herr] at hsafe
      simpa using hsafe
  rw [firstFatal_append, hnone, Option.none_or]
  simp [firstFatal, Outcome.failure?, ho, hfatal]

/-- A race of all paths that reads a fatal failure before it has selected anything returns
that failure, with everything closed, exactly if no candidate whose report comes later has
connected. -/
theorem race_fails_closed (hplan : plan config .auto network excluded only = some cs)
    (hone : config.oneShot = false) (h : Reach Race.step Always (init config .auto cs) s)
    {r : Except RaceError Selection} (hr : s.returned = some r)
    {pre post : List Outcome} {o : Outcome} {err : Err} (hrec : s.received = pre ++ o :: post)
    (hpre : ∀ p ∈ pre, p.connections = [] ∧ fatal p = false) (ho : o.result = .error err)
    (hfatal : (typedFailure o.path err).allowsFallback = false) :
    (r = .error (.terminal (typedFailure o.path err)) ∧ ∀ i ∈ s.produced, i ∈ s.closed) ↔
      ∀ p ∈ post, p.connections = [] := by
  obtain ⟨hl, ht, -, ha⟩ := auto_of_reach hplan hone h
  constructor
  · rintro ⟨rfl, -⟩ p hp
    exact (ha.failed _ hr).1 p (by simp [hrec, hp])
  · intro hpost
    have hall : ∀ p ∈ s.received, p.connections = [] := by
      intro p hp
      rw [hrec] at hp
      rcases List.mem_append.mp hp with hp | hp
      · exact (hpre p hp).1
      · rcases List.mem_cons.mp hp with rfl | hp
        · rw [Outcome.connections, ho]
        · exact hpost p hp
    cases r with
    | ok w =>
      obtain ⟨p, hp, hne⟩ := ha.selected w hr
      exact absurd (hall p hp) hne
    | error e =>
      obtain ⟨-, hfirst, hover, -, hready⟩ := ha.failed e hr
      have hf : firstFatal (pre ++ o :: post) = some (typedFailure o.path err) :=
        firstFatal_of_first (fun p hp => (hpre p hp).2) ho hfatal
      rw [hfirst _ (hrec ▸ hf)]
      refine ⟨rfl, fun i hi => ?_⟩
      have hread : s.results = [] := List.eq_nil_of_length_eq_zero (by rw [leftOver] at hover; omega)
      have hkept : s.kept = [] :=
        (hl.kept.resolve_left fun hloc => by simp [hloc.running] at hr).2
      have hti := ht i
      rw [List.count_eq_one_of_mem hl.produced.1 hi, tally, unread, hread, hkept, handed, hr,
        hready] at hti
      exact List.count_pos_iff.mp (by simp at hti; omega)

namespace Demo

/-- The direct path is refused, and the relay connects before it hears of it. -/
def overriding : List Action :=
  [.report 0 {} refused, .receive, .report 1 {} trusted, .receive]

theorem overriding_run :
    ((run Race.step (init {} .auto paths) overriding).map fun s =>
      (s.returned, s.received.map (·.result.toOption), s.received.head?)) =
      some (some (.ok ⟨⟨.relayQUIC, "", 1⟩, none⟩), [none, some ""],
        some ⟨0, .directQUIC, .error { failure := some .authentication }⟩) := by
  decide +kernel

/-- The relay is selected. -/
theorem race_fails_open :
    ¬ ∀ (config : Config) (network : NetworkClass) (excluded only : Option Path)
      (cs : List Candidate) (s : Race) (r : Except RaceError Selection) (pre post : List Outcome)
      (o : Outcome) (err : Err), plan config .auto network excluded only = some cs →
      config.oneShot = false → config.sequentialFallback = false →
      Reach Race.step Always (init config .auto cs) s → s.returned = some r →
      s.received = pre ++ o :: post → (∀ p ∈ pre, p.connections = [] ∧ fatal p = false) →
      o.result = .error err → (typedFailure o.path err).allowsFallback = false →
      r = .error (.terminal (typedFailure o.path err)) ∧ ∀ i ∈ s.produced, i ∈ s.closed := by
  intro hall
  obtain ⟨s, hrun, hs⟩ := Option.map_eq_some_iff.mp overriding_run
  simp only [Prod.mk.injEq] at hs
  obtain ⟨hret, -, hhead⟩ := hs
  obtain ⟨post, hrec⟩ := List.head?_eq_some_iff.mp hhead
  have hfail := hall _ _ _ _ _ s _ [] post _ _ Demo.plan_paths rfl rfl (reach_of_run _ hrun) hret
    hrec nofun rfl rfl
  cases hfail.1

/-- All candidates fail after the direct path is refused. -/
def refusing : List Action :=
  [.report 0 {} refused, .receive, .report 1 {} unreachable, .receive, .report 2 {} unreachable,
    .receive, .conclude]

theorem refusing_run :
    ((run Race.step (init {} .auto paths) refusing).map fun s => (s.returned, s.received)) =
      some (some (.error (.terminal (typedFailure .directQUIC { failure := some .authentication }))),
        [⟨0, .directQUIC, .error { failure := some .authentication }⟩,
          ⟨1, .relayQUIC, .error { failure := some .reachability }⟩,
          ⟨2, .wss, .error { failure := some .reachability }⟩]) := by
  decide +kernel

theorem race_fails_closed_refusing :
    ∃ s, Reach Race.step Always (init {} .auto paths) s ∧
      s.returned = some (.error (.terminal
        (typedFailure .directQUIC { failure := some .authentication }))) ∧
      ∀ i ∈ s.produced, i ∈ s.closed := by
  obtain ⟨s, hrun, hs⟩ := Option.map_eq_some_iff.mp refusing_run
  obtain ⟨hret, hrec⟩ := Prod.mk.inj hs
  have hreach := reach_of_run _ hrun
  have hfirst : s.received = [] ++ _ :: _ := hrec
  have hclosed := (race_fails_closed Demo.plan_paths rfl hreach hret hfirst nofun rfl rfl).mpr
    (by decide)
  exact ⟨s, hreach, hret, hclosed.2⟩

end Demo

end Race

end Paperboat.ConnectionManager
