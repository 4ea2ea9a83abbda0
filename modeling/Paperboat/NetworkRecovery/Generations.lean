import Paperboat.NetworkRecovery.System

/-! What each section of the controller does, and what that means for the generations: the
active generation, which is the one reported, follows the latest one and never goes back,
whatever the order of the sections. -/

namespace Paperboat.NetworkRecovery

open Transition

/-! ### What a section does -/

namespace Controller

variable {c c' : Controller} {o : Observation}

theorem merged_generation : (c.merged o).generation = o.generation := by
  rw [merged]
  split
  · rfl
  · split
    · rfl
    · next h => exact (not_not.mp (not_or.mp h).2 : _ = _)

theorem freshGeneration_active : (c.freshGeneration o).activeGeneration = c.activeGeneration := by
  rw [freshGeneration]
  split <;> rfl

variable {now : Time}

/-- An observation that is accepted waits, and a new generation forgets what was tried. -/
theorem observe_accepted (h : c.observe o arrived now = .ok c')
    (hnew : ¬ o.generation < c.latestGeneration) :
    (∃ p, c'.pending = some p ∧ p.generation = o.generation) ∧ c'.latestGeneration = o.generation ∧
      c'.health.state = .degraded ∧ c'.activeGeneration = c.activeGeneration ∧
      c'.health.activeNetworkGeneration = c.health.activeNetworkGeneration ∧
      (c.latestGeneration < o.generation → c'.retryObservation = none ∧ c'.stableSince = 0) ∧
      (o.generation = c.latestGeneration → c'.retryObservation = c.retryObservation ∧
        c'.retryAt = c.retryAt ∧ c'.stableSince = c.stableSince) := by
  rw [observe] at h
  split at h
  · cases h
  split at h
  · cases h
  cases h
  have hgen : ∀ b : Prop, [Decidable b] →
      (if b then { o with time := arrived } else o).generation = o.generation := by
    intro b _
    split <;> rfl
  refine ⟨⟨_, rfl, ?_⟩, hgen _, rfl, freshGeneration_active, rfl, fun hlt => ?_, fun heq => ?_⟩
  · rw [merged_generation, hgen]
  · rw [freshGeneration, hgen, if_pos hlt]
    exact ⟨rfl, rfl⟩
  · rw [freshGeneration, hgen, if_neg (heq ▸ UInt64.lt_irrefl _)]
    exact ⟨rfl, rfl, rfl⟩

theorem takePending_eq (h : c.takePending force now = some (o, c')) :
    c.pending = some o ∧ c' = { c with pending := none, pendingAt := 0 } := by
  rw [takePending] at h
  split at h
  · cases h
  · next hpend =>
    split at h
    · cases h
    · cases h
      exact ⟨hpend, rfl⟩

theorem takeRetry_eq (h : c.takeRetry now = some (o, c')) :
    c.retryObservation = some o ∧ o.generation = c.latestGeneration ∧
      c' = { c with retryObservation := none, retryAt := 0 } := by
  rw [takeRetry] at h
  split at h
  · cases h
  · next hretry =>
    split at h
    · cases h
    · next hdue =>
      cases h
      exact ⟨hretry, not_not.mp (not_or.mp (not_or.mp hdue).2).2, rfl⟩

/-- `c'` answers an attempt for the latest generation. -/
structure Answers (c c' : Controller) : Prop where
  latest : c'.latestGeneration = c.latestGeneration
  pending : c'.pending = c.pending
  stopped : c.stopped = false ∧ c'.stopped = false

/-- A call for `o` ends with the outcome and answers. -/
structure Settles (c : Controller) (o : Observation) (retryAt : Time) (outcome : Outcome) (c' : Controller) : Prop
    extends Answers c c' where
  current : ¬ o.generation < c.latestGeneration
  active : c'.activeGeneration = if outcome = .succeeded then o.generation else c.activeGeneration
  reported : c'.health.activeNetworkGeneration = c'.activeGeneration
  failed : outcome ≠ .succeeded →
    (c'.stableSince = 0 ∨ c'.stableSince = c.stableSince) ∧ c'.health.state ≠ .ready
  retry : outcome ∈ [Outcome.succeeded, .permanent, .unavailable] ∧ c'.retryObservation = none ∨
    outcome = .transient ∧ c'.retryObservation = some o ∧ c'.retryAt = retryAt

/-- What the end of a call leaves: the controller as it was, or an answer. -/
inductive Leaves (c : Controller) (o : Observation) (retryAt : Time) : Outcome → Controller → Prop
  | same {outcome : Outcome} (hwhy : outcome = .canceled ∨ c.stopped ∨ o.generation < c.latestGeneration) :
      Leaves c o retryAt outcome c
  | settles {outcome : Outcome} {c' : Controller} (h : Settles c o retryAt outcome c') :
      Leaves c o retryAt outcome c'

theorem leaves_fail (e : Err) (checked now : Time) (jitter : Duration → Duration) :
    Leaves c o (now + c.backoff (c.attempt + 1) jitter) e.outcome (c.fail o e checked now jitter).2 := by
  rw [fail, Err.outcome]
  split
  · exact .same (.inl rfl)
  by_cases hstop : c.stopped
  · rw [if_pos hstop]
    exact .same (.inr (.inl hstop))
  have hrun : c.stopped = false := Bool.eq_false_iff.mpr hstop
  by_cases hcur : o.generation < c.latestGeneration
  · rw [if_neg hstop, if_pos hcur]
    exact .same (.inr (.inr hcur))
  split
  · exact .settles ⟨⟨rfl, rfl, hrun, hrun⟩, hcur, rfl, rfl,
      fun _ => ⟨.inr rfl, HealthState.noConfusion⟩, .inl ⟨by decide, rfl⟩⟩
  · exact .settles ⟨⟨rfl, rfl, hrun, hrun⟩, hcur, rfl, rfl,
      fun _ => ⟨.inr rfl, HealthState.noConfusion⟩, .inr ⟨rfl, rfl, rfl⟩⟩

theorem leaves_markUnavailable (retryAt now : Time) :
    Leaves c o retryAt .unavailable (c.markUnavailable o now) := by
  rw [markUnavailable]
  split
  · next h => exact .same (.inr h)
  · next h =>
    obtain ⟨hstop, hcur⟩ := not_or.mp h
    have hrun : c.stopped = false := Bool.eq_false_iff.mpr hstop
    exact .settles ⟨⟨rfl, rfl, hrun, hrun⟩, hcur, rfl, rfl,
      fun _ => ⟨.inl rfl, HealthState.noConfusion⟩, .inl ⟨by decide, rfl⟩⟩

theorem leaves_replaceDone {result : ReplacementResult} (hresult : result.networkGeneration = o.generation)
    (retryAt ready now : Time) : Leaves c o retryAt .succeeded (c.replaceDone o result ready now).2 := by
  rw [replaceDone]
  split
  · next h => exact .same (.inr (.inl h))
  next hstop =>
  have hrun : c.stopped = false := Bool.eq_false_iff.mpr hstop
  split
  · next h => exact .same (.inr (.inr h))
  · next hcur =>
    exact .settles ⟨⟨rfl, rfl, hrun, hrun⟩, hcur, hresult, rfl, fun h => absurd rfl h,
      .inl ⟨by decide, rfl⟩⟩

theorem Leaves.of_older {retryAt : Time} {outcome : Outcome} (h : Leaves c o retryAt outcome c')
    (hold : o.generation < c.latestGeneration) : c' = c := by
  cases h with
  | same => rfl
  | settles h => exact absurd hold h.current

/-- An answer is taken for the generation that was asked for. -/
theorem checkResult_ok {r : ReplacementResult} (h : c.checkResult o result = .ok r) :
    r.networkGeneration = o.generation := by
  cases result with
  | error e => cases h
  | ok result =>
    simp only [checkResult] at h
    split at h
    · cases h
    split at h
    · cases h
    split at h
    · cases h
    · next heq =>
      cases h
      exact not_not.mp heq

theorem resetAfterStable_cases (now checked : Time) :
    c.resetAfterStable now checked = c ∨
      ∃ c', c.resetAfterStable now checked = c' ∧ c.stableSince ≠ 0 ∧
        c'.latestGeneration = c.latestGeneration ∧ c'.activeGeneration = c.activeGeneration ∧
        c'.health.activeNetworkGeneration = c.health.activeNetworkGeneration ∧
        c'.pending = c.pending ∧ c'.stopped = c.stopped ∧ c'.retryObservation = none ∧
        c'.stableSince = 0 := by
  rw [resetAfterStable]
  split
  · exact .inl rfl
  · next h => exact .inr ⟨_, rfl, (not_or.mp h).1, rfl, rfl, rfl, rfl, rfl, rfl, rfl⟩

theorem replaceBegin_cases (now : Time) :
    (∃ e, c.replaceBegin o now = (.error e, c) ∧
        (o.validate = false ∨ c.stopped ∨ o.generation < c.latestGeneration)) ∨
      ∃ p c', c.replaceBegin o now = (.ok p, c') ∧ ¬ o.generation < c.latestGeneration ∧
        c'.health.state = .degraded ∧ c' = { c with health := c'.health } ∧
        c'.health.activeNetworkGeneration = c.health.activeNetworkGeneration := by
  rw [replaceBegin]
  split
  · next h => exact .inl ⟨_, rfl, .inl h⟩
  split
  · next h => exact .inl ⟨_, rfl, .inr (.inl h)⟩
  split
  · next h => exact .inl ⟨_, rfl, .inr (.inr h)⟩
  · next h => exact .inr ⟨_, _, rfl, h, rfl, rfl, rfl⟩

/-! ### Generations -/

/-- What waits is of the latest generation, and the active generation, which is the one
reported, is not beyond it. -/
structure Sound (c : Controller) : Prop where
  pending : ∀ p, c.pending = some p → p.generation = c.latestGeneration
  retry : ∀ o, c.retryObservation = some o → o.generation = c.latestGeneration
  active : c.activeGeneration ≤ c.latestGeneration
  reported : c.health.activeNetworkGeneration = c.activeGeneration

/-- A section leaves a sound controller, and no generation goes back. -/
structure Advances (c c' : Controller) : Prop where
  sound : c'.Sound
  latest : c.latestGeneration ≤ c'.latestGeneration
  active : c.activeGeneration ≤ c'.activeGeneration

section

variable (hc : c.Sound)

include hc

theorem Sound.advances : Advances c c := ⟨hc, UInt64.le_refl _, UInt64.le_refl _⟩

/-- A section that leaves the generations alone. -/
theorem Sound.keeps (hlat : c'.latestGeneration = c.latestGeneration)
    (hact : c'.activeGeneration = c.activeGeneration)
    (hrep : c'.health.activeNetworkGeneration = c.activeGeneration)
    (hpend : ∀ p, c'.pending = some p → c.pending = some p)
    (hretry : ∀ p, c'.retryObservation = some p → p.generation = c.latestGeneration) :
    Advances c c' where
  sound :=
    { pending := fun p hp => hlat ▸ hc.pending p (hpend p hp)
      retry := fun p hp => hlat ▸ hretry p hp
      active := hact ▸ hlat ▸ hc.active
      reported := hrep.trans hact.symm }
  latest := hlat ▸ UInt64.le_refl _
  active := hact ▸ UInt64.le_refl _

theorem Sound.observe (h : c.observe o arrived now = .ok c')
    (hnew : ¬ o.generation < c.latestGeneration) : Advances c c' := by
  obtain ⟨⟨p, hp, hpgen⟩, hlat, -, hact, hrep, hfresh, hrepeat⟩ := observe_accepted h hnew
  have hle := UInt64.not_lt.mp hnew
  refine ⟨⟨fun q hq => ?_, fun q hq => ?_, ?_, ?_⟩, hlat ▸ hle, hact ▸ UInt64.le_refl _⟩
  · cases hp.symm.trans hq
    exact hpgen.trans hlat.symm
  · by_cases heq : o.generation = c.latestGeneration
    · rw [(hrepeat heq).1] at hq
      rw [hlat, heq]
      exact hc.retry q hq
    · rw [(hfresh (UInt64.lt_of_le_of_ne hle (Ne.symm heq))).1] at hq
      cases hq
  · rw [hact, hlat]
    exact UInt64.le_trans hc.active hle
  · rw [hact, hrep, hc.reported]

theorem Sound.leaves (ho : o.generation ≤ c.latestGeneration) {retryAt : Time} {outcome : Outcome}
    (h : Leaves c o retryAt outcome c') : Advances c c' := by
  cases h with
  | same => exact hc.advances
  | settles h =>
    have heq : o.generation = c.latestGeneration := UInt64.le_antisymm ho (UInt64.not_lt.mp h.current)
    have hact : c.activeGeneration ≤ c'.activeGeneration ∧ c'.activeGeneration ≤ c.latestGeneration := by
      rw [h.active]
      split
      · rw [heq]
        exact ⟨hc.active, UInt64.le_refl _⟩
      · exact ⟨UInt64.le_refl _, hc.active⟩
    refine ⟨⟨fun p hp => ?_, fun p hp => ?_, h.latest ▸ hact.2, h.reported⟩,
      h.latest ▸ UInt64.le_refl _, hact.1⟩
    · rw [h.latest]
      exact hc.pending p (h.pending ▸ hp)
    · obtain ⟨-, hnone⟩ | ⟨-, hsome, -⟩ := h.retry
      · cases hnone.symm.trans hp
      · cases hsome.symm.trans hp
        exact heq.trans h.latest.symm

theorem Sound.resetAfterStable (now checked : Time) : Advances c (c.resetAfterStable now checked) := by
  obtain hsame | ⟨c', hc', -, hlat, hact, hrep, hpend, -, hretry, -⟩ :=
    resetAfterStable_cases (c := c) now checked
  · rw [hsame]
    exact hc.advances
  · rw [hc']
    refine hc.keeps hlat hact (hrep.trans hc.reported) (fun p hp => hpend ▸ hp) ?_
    intro p hp
    cases hretry.symm.trans hp

end

end Controller

namespace System

variable {s t : System} {c : Controller} {r : Replacing} {o : Observation} {g : UInt64}

/-! ### Observations in the hands of callers -/

/-- How many callers hold an observation of the generation `g`. -/
def held (s : System) (g : UInt64) : ℕ :=
  s.flying.countP fun w => w.observation.generation = g

theorem live_eq_nil_iff : s.live = [] ↔ s.held s.controller.latestGeneration = 0 := by
  rw [live, held, List.countP_eq_length_filter, List.length_eq_zero_iff]

theorem flying_of_current (h : s.current = some r) : s.flying = s.waiting ++ [r.work] := by
  rw [flying, h]
  rfl

theorem held_take (accepted : ℕ) (c : Controller) :
    (s.take o accepted c).held g = s.held g + if o.generation = g then 1 else 0 := by
  simp only [held, flying, take, List.countP_append, List.countP_singleton, decide_eq_true_eq]
  omega

theorem held_finish (h : s.current = some r) (outcome : Outcome) (c : Controller) :
    s.held g = (s.finish r outcome c).held g +
      if r.work.observation.generation = g then 1 else 0 := by
  rw [held, flying_of_current h]
  simp [held, flying, finish, Option.map_none, Option.toList_none, List.append_nil,
    List.countP_append, List.countP_singleton, decide_eq_true_eq]

variable {i : ℕ} {w : Work} {now checked : Time} {jitter : Duration → Duration}

/-- The observation at one place of a list counts apart from the rest. -/
theorem countP_eraseIdx {ws : List Work} (h : ws[i]? = some w) (p : Work → Bool) :
    ws.countP p = (ws.eraseIdx i).countP p + if p w then 1 else 0 := by
  obtain ⟨hlt, hget⟩ := List.getElem?_eq_some_iff.mp h
  rw [← (List.getElem_cons_eraseIdx_perm hlt).countP_eq, List.countP_cons, hget]

theorem mem_flying_take (h : w ∈ (s.take o accepted c).flying) :
    w ∈ s.flying ∨ w = ⟨o, accepted, s.clock⟩ := by
  simp only [flying, take, List.mem_append, List.mem_singleton] at h ⊢
  tauto

theorem mem_flying_finish (h : w ∈ (s.finish r outcome c).flying) : w ∈ s.flying := by
  simp only [flying, finish, Option.map_none, Option.toList_none, List.append_nil] at h
  exact List.mem_append_left _ h

/-- A caller enters: its observation either leaves with it or becomes the current one. -/
theorem enter_cases (h : s.enter i now = some t) :
    s.current = none ∧ ∃ w, s.waiting[i]? = some w ∧
      ((∃ e, s.controller.replaceBegin w.observation now = (.error e, t.controller) ∧
        t = { s with
          controller := t.controller
          waiting := s.waiting.eraseIdx i
          finished := ⟨w, s.clock, .skipped⟩ :: s.finished }) ∨
      ∃ attempt previous,
        s.controller.replaceBegin w.observation now = (.ok (attempt, previous), t.controller) ∧
        t = { s with
          controller := t.controller
          waiting := s.waiting.eraseIdx i
          current := some ⟨w, attempt, previous, s.clock, false⟩ }) := by
  rw [enter] at h
  split at h
  · next w hcur hw =>
    refine ⟨hcur, w, hw, ?_⟩
    split at h
    · next e c hbegin =>
      cases h
      exact .inl ⟨e, hbegin, rfl⟩
    · next attempt previous c hbegin =>
      cases h
      exact .inr ⟨attempt, previous, hbegin, rfl⟩
  · cases h

/-- What the entrance of a caller means for the controller and the observations that callers
hold: the caller is turned away, or its call is the current one. -/
theorem enter_spec (h : s.enter i now = some t) :
    ∃ w ∈ s.flying, (∀ x ∈ t.flying, x ∈ s.flying) ∧ t.takes = s.takes ∧
      ((t.controller = s.controller ∧
        (w.observation.validate = false ∨ s.controller.stopped ∨
          w.observation.generation < s.controller.latestGeneration) ∧
        t.finished = ⟨w, s.clock, .skipped⟩ :: s.finished ∧
        ∀ g, s.held g = t.held g + if w.observation.generation = g then 1 else 0) ∨
      (t.controller = { s.controller with health := t.controller.health } ∧
        t.controller.health.state = .degraded ∧
        t.controller.health.activeNetworkGeneration =
          s.controller.health.activeNetworkGeneration ∧
        t.finished = s.finished ∧ ∀ g, t.held g = s.held g)) := by
  obtain ⟨hcur, w, hw, hcases⟩ := enter_cases h
  have hwaiting : w ∈ s.flying := List.mem_append_left _ (List.mem_of_getElem? hw)
  have hrest : ∀ x ∈ s.waiting.eraseIdx i, x ∈ s.flying := fun x hx =>
    List.mem_append_left _ (List.mem_of_mem_eraseIdx hx)
  have hheld : ∀ g, s.held g = (s.waiting.eraseIdx i).countP (fun w => w.observation.generation = g) +
      if w.observation.generation = g then 1 else 0 := by
    intro g
    rw [held, flying, hcur, Option.map_none, Option.toList_none, List.append_nil,
      countP_eraseIdx hw]
    simp [decide_eq_true_eq]
  refine ⟨w, hwaiting, ?_⟩
  obtain ⟨_, hbegin, ht⟩ | ⟨attempt, previous, hbegin, ht⟩ := hcases
  · have hfly : t.flying = s.waiting.eraseIdx i := by
      rw [flying, ht, hcur, Option.map_none, Option.toList_none, List.append_nil]
    obtain ⟨e, hbegin', hwhy⟩ | ⟨_, _, hbegin', -⟩ :=
      Controller.replaceBegin_cases (c := s.controller) (o := w.observation) now
    · have hc := (Prod.mk.inj (hbegin.symm.trans hbegin')).2
      refine ⟨fun x hx => hrest x (hfly ▸ hx), by rw [ht], .inl ⟨hc, hwhy, by rw [ht], fun g => ?_⟩⟩
      rw [hheld, held, hfly]
    · cases hbegin.symm.trans hbegin'
  · have hfly : t.flying = s.waiting.eraseIdx i ++ [w] := by
      rw [ht]
      rfl
    obtain ⟨_, hbegin', -⟩ | ⟨_, c', hbegin', -, hstate, hc', hrep⟩ :=
      Controller.replaceBegin_cases (c := s.controller) (o := w.observation) now
    · cases hbegin.symm.trans hbegin'
    · have hc : t.controller = c' := (Prod.mk.inj (hbegin.symm.trans hbegin')).2
      refine ⟨fun x hx => ?_, by rw [ht], .inr ⟨hc ▸ hc', hc ▸ hstate, hc ▸ hrep, by rw [ht],
        fun g => ?_⟩⟩
      · rw [hfly, List.mem_append, List.mem_singleton] at hx
        obtain hx | rfl := hx
        · exact hrest x hx
        · exact hwaiting
      · rw [hheld, held, hfly, List.countP_append, List.countP_singleton]
        simp [decide_eq_true_eq]

/-- The call ends without having asked the replacer, or asks it. -/
theorem request_cases (h : s.request checked now jitter = some t) :
    ∃ r, s.current = some r ∧ ((∃ outcome c', outcome ≠ .canceled ∧
        Controller.Leaves s.controller r.work.observation
          (now + s.controller.backoff (s.controller.attempt + 1) jitter) outcome c' ∧
        t = s.finish r outcome c') ∨
      t = { s with current := some { r with called := true } }) := by
  rw [System.request] at h
  split at h
  · cases h
  next r hcur =>
  refine ⟨r, hcur, ?_⟩
  simp only at h
  split at h
  · cases h
  split at h
  · cases h
    exact .inl ⟨_, _, by decide, Controller.leaves_fail .., rfl⟩
  split at h
  · cases h
    exact .inl ⟨_, _, by decide, Controller.leaves_markUnavailable .., rfl⟩
  split at h
  · next hstale =>
    cases h
    exact .inl ⟨_, _, by decide, .same (.inr hstale.symm), rfl⟩
  · cases h
    exact .inr rfl

theorem answer_cases (h : s.answer result ready checked now jitter = some t) :
    ∃ r outcome c', s.current = some r ∧
      Controller.Leaves s.controller r.work.observation
        (now + s.controller.backoff (s.controller.attempt + 1) jitter) outcome c' ∧
      t = s.finish r outcome c' ∧ (outcome = .canceled →
        ∃ e, s.controller.checkResult r.work.observation result = .error e ∧ e.outcome = .canceled) := by
  rw [System.answer] at h
  split at h
  · cases h
  next r hcur =>
  split at h
  · cases h
  split at h
  · next e he =>
    cases h
    exact ⟨r, _, _, hcur, Controller.leaves_fail .., rfl, fun hout => ⟨e, he, hout⟩⟩
  · next result' hok =>
    cases h
    exact ⟨r, _, _, hcur, Controller.leaves_replaceDone (Controller.checkResult_ok hok) .., rfl, nofun⟩

/-! ### Generations over a run -/

/-- The controller is sound and no caller holds an observation beyond the latest one. -/
structure Bounded (s : System) : Prop where
  controller : s.controller.Sound
  flying : ∀ w ∈ s.flying, w.observation.generation ≤ s.controller.latestGeneration

/-- No generation goes back. -/
def Advances (s t : System) : Prop :=
  t.Bounded ∧ s.controller.activeGeneration ≤ t.controller.activeGeneration

section

variable (hs : s.Bounded)

include hs

theorem Bounded.advances (hc : Controller.Advances s.controller t.controller)
    (hfly : ∀ w ∈ t.flying, w ∈ s.flying ∨ w.observation.generation ≤ t.controller.latestGeneration) :
    s.Advances t := by
  refine ⟨⟨hc.sound, fun w hw => ?_⟩, hc.active⟩
  obtain hold | hnew := hfly w hw
  · exact UInt64.le_trans (hs.flying w hold) hc.latest
  · exact hnew

theorem Bounded.current (h : s.current = some r) :
    r.work.observation.generation ≤ s.controller.latestGeneration := by
  refine hs.flying _ ?_
  rw [flying_of_current h]
  exact List.mem_append_right _ (List.mem_singleton_self _)

theorem Bounded.finish (outcome : Outcome) (hc : Controller.Advances s.controller c) :
    s.Advances (s.finish r outcome c) :=
  hs.advances hc fun _ hw => .inl (mem_flying_finish hw)

theorem Bounded.take (accepted : ℕ) (hc : Controller.Advances s.controller c)
    (ho : o.generation ≤ c.latestGeneration) : s.Advances (s.take o accepted c) := by
  refine hs.advances hc fun w hw => ?_
  obtain hold | rfl := mem_flying_take hw
  · exact .inl hold
  · exact .inr ho

theorem Bounded.request (h : s.request checked now jitter = some t) : s.Advances t := by
  obtain ⟨r, hcur, ⟨_, _, -, hleaves, rfl⟩ | rfl⟩ := request_cases h
  · exact hs.finish _ (hs.controller.leaves (hs.current hcur) hleaves)
  · refine hs.advances hs.controller.advances fun w hw => .inl ?_
    rw [flying_of_current hcur]
    exact hw

theorem Bounded.answer {result : Except Err ReplacementResult} {ready : Time}
    (h : s.answer result ready checked now jitter = some t) : s.Advances t := by
  obtain ⟨r, _, _, hcur, hleaves, rfl, -⟩ := answer_cases h
  exact hs.finish _ (hs.controller.leaves (hs.current hcur) hleaves)

theorem Bounded.observe (arrived now : Time) : s.Advances (s.observe o arrived now) := by
  rw [System.observe]
  split
  · exact ⟨hs, UInt64.le_refl _⟩
  next c hobserve =>
  split
  · exact ⟨hs, UInt64.le_refl _⟩
  next hnew => exact hs.advances (hs.controller.observe hobserve hnew) fun _ hw => .inl hw

theorem Bounded.enter (h : s.enter i now = some t) : s.Advances t := by
  obtain ⟨w, -, hfly, -, ⟨hc, -⟩ | ⟨hc, -, hrep, -⟩⟩ := enter_spec h
  · exact hs.advances (hc ▸ hs.controller.advances) fun x hx => .inl (hfly x hx)
  · refine hs.advances ?_ fun x hx => .inl (hfly x hx)
    rw [hc]
    exact hs.controller.keeps rfl rfl (hrep.trans hs.controller.reported) (fun _ hp => hp)
      hs.controller.retry

omit hs in
theorem Advances.clock (h : s.Advances t) (n : ℕ) : s.Advances { t with clock := n } :=
  ⟨⟨h.1.controller, h.1.flying⟩, h.2⟩

omit hs in
theorem step_eq (h : s.step a = some t) :
    ∃ u, s.act a = some u ∧ t = { u with clock := s.clock + 1 } := by
  obtain ⟨u, hact, ht⟩ := Option.map_eq_some_iff.mp h
  exact ⟨u, hact, ht.symm⟩

theorem advances_step (h : s.step a = some t) : s.Advances t := by
  obtain ⟨u, hact, rfl⟩ := step_eq h
  refine Advances.clock ?_ _
  cases a with
  | observe o arrived now =>
    cases hact
    exact hs.observe arrived now
  | takePending force now =>
    obtain ⟨p, hp, rfl⟩ := Option.map_eq_some_iff.mp hact
    obtain ⟨hpend, hc⟩ := Controller.takePending_eq hp
    have hgen := hs.controller.pending _ hpend
    rw [hc]
    exact hs.take _ (hs.controller.keeps rfl rfl hs.controller.reported nofun hs.controller.retry)
      (UInt64.le_of_eq hgen)
  | takeRetry now =>
    obtain ⟨p, hp, rfl⟩ := Option.map_eq_some_iff.mp hact
    obtain ⟨-, hgen, hc⟩ := Controller.takeRetry_eq hp
    rw [hc]
    exact hs.take _ (hs.controller.keeps rfl rfl hs.controller.reported (fun _ hp => hp) nofun)
      (UInt64.le_of_eq hgen)
  | resetAfterStable now checked =>
    cases hact
    exact hs.advances (hs.controller.resetAfterStable now checked) fun _ hw => .inl hw
  | enter i now => exact hs.enter hact
  | request checked now jitter => exact hs.request hact
  | answer result ready checked now jitter => exact hs.answer hact
  | stop now =>
    cases hact
    refine hs.advances ?_ fun _ hw => .inl hw
    rw [Controller.stop]
    split
    · exact hs.controller.advances
    · exact hs.controller.keeps rfl rfl hs.controller.reported (fun _ hp => hp) hs.controller.retry

omit hs in
theorem Initial.bounded (h : s.Initial) : s.Bounded := by
  obtain ⟨config, now, c, hnew, rfl⟩ := h
  rw [Controller.new] at hnew
  split at hnew
  · cases hnew
  simp only at hnew
  split at hnew
  · cases hnew
  · cases hnew
    exact ⟨⟨nofun, nofun, UInt64.le_refl _, rfl⟩, nofun⟩

theorem Bounded.reach {ok : System → Action → Prop} (hreach : Reach step ok s t) : s.Advances t := by
  induction hreach with
  | refl => exact ⟨hs, UInt64.le_refl _⟩
  | tail _ _ hst ih =>
    obtain ⟨hbounded, hle⟩ := advances_step ih.1 hst
    exact ⟨hbounded, UInt64.le_trans ih.2 hle⟩

end

end System

end Paperboat.NetworkRecovery
