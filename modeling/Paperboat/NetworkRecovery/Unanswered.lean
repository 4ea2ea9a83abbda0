import Paperboat.NetworkRecovery.Health

/-! A change that was not answered is not forgotten: it waits, a caller holds it, or it is to
be retried. -/

namespace Paperboat.NetworkRecovery

open Transition

/-! ### Valid observations -/

/-- Reports of the same generation make a valid observation together. -/
theorem Observation.validate_merge {p o : Observation} (hp : p.validate) (ho : o.validate)
    (viable : Bool) (time : Time) :
    Observation.validate { p with reasons := p.reasons ||| o.reasons, viable, time } := by
  obtain ⟨hgen, hsome, hp⟩ := of_decide_eq_true hp
  obtain ⟨-, -, ho⟩ := of_decide_eq_true ho
  refine decide_eq_true ⟨hgen, fun h => hsome (UInt16.or_eq_zero_iff.mp h).1, ?_⟩
  rw [← UInt16.toBitVec_inj] at hp ho ⊢
  rw [UInt16.toBitVec_and] at hp ho ⊢
  rw [UInt16.toBitVec_or, BitVec.and_or_distrib_right, hp, ho]
  rfl

theorem Controller.merged_validate {c : Controller} (ho : o.validate)
    (hc : ∀ p, c.pending = some p → p.validate) : (c.merged o).validate := by
  rw [merged]
  split
  · exact ho
  · next p hp =>
    split
    · exact ho
    · exact Observation.validate_merge (hc p hp) ho _ _

theorem Controller.observe_valid {c c' : Controller}
    (h : c.observe o arrived now = .ok c') (hnew : ¬ o.generation < c.latestGeneration)
    (hc : ∀ p, c.pending = some p → p.validate) :
    c.stopped = false ∧ ∀ p, c'.pending = some p → p.validate := by
  rw [observe] at h
  split at h
  · cases h
  next hvalid =>
  split at h
  · cases h
  next hstop =>
  cases h
  refine ⟨Bool.eq_false_iff.mpr hstop, fun p hp => ?_⟩
  cases hp
  refine merged_validate ?_ hc
  have ho : o.validate := by simpa using hvalid
  split
  · exact ho
  · exact ho

namespace System

variable {s t : System} {c : Controller} {r : Replacing} {o : Observation}

/-- The attempt under way is for the latest generation and `result` says that it was
canceled. -/
def CanceledLatest (s : System) (result : Except Err ReplacementResult) : Bool :=
  match s.current with
  | none => false
  | some r =>
    match s.controller.checkResult r.work.observation result with
    | .ok _ => false
    | .error e => r.work.observation.generation = s.controller.latestGeneration ∧
        e.outcome = .canceled

/-- The time of a retry that is scheduled now. -/
def nextRetry (s : System) (now : Time) (jitter : Duration → Duration) : Time :=
  now + s.controller.backoff (s.controller.attempt + 1) jitter

/-- Observations are paced, the time of a retry is not the zero time, and the replacer does
not answer an attempt for the latest generation that it was canceled. -/
def Steady (s : System) : Action → Prop
  | .request _ now jitter => s.nextRetry now jitter ≠ 0
  | .answer result _ _ now jitter =>
    s.nextRetry now jitter ≠ 0 ∧ s.CanceledLatest result = false
  | a => s.Paced a

instance (s : System) : (a : Action) → Decidable (s.Steady a)
  | .request _ now jitter => inferInstanceAs (Decidable (s.nextRetry now jitter ≠ 0))
  | .answer result _ _ now jitter =>
    inferInstanceAs (Decidable (s.nextRetry now jitter ≠ 0 ∧ s.CanceledLatest result = false))
  | .observe o arrived now => inferInstanceAs (Decidable (s.Paced (.observe o arrived now)))
  | .takePending .. | .takeRetry .. | .resetAfterStable .. | .enter .. | .stop .. => isTrue trivial

theorem Steady.paced (h : s.Steady a) : s.Paced a := by
  cases a with
  | request | answer => trivial
  | observe | takePending | takeRetry | resetAfterStable | enter | stop => exact h

/-- The latest change is not forgotten. -/
structure Covered (s : System) : Prop where
  pending : ∀ p, s.controller.pending = some p → p.validate
  retry : ∀ p, s.controller.retryObservation = some p → p.validate ∧ s.controller.retryAt ≠ 0
  flying : ∀ w ∈ s.flying, w.observation.validate
  last : ∀ w ∈ s.flying, w.observation.generation = s.controller.latestGeneration →
    s.lastTaken = some w
  covered : s.controller.stopped = false → s.controller.latestGeneration ≠ 0 →
    s.controller.pending.isSome ∨ s.controller.retryObservation.isSome ∨
      s.held s.controller.latestGeneration ≠ 0 ∨ s.Answered

theorem lastTaken_congr (htakes : t.takes = s.takes)
    (hlat : t.controller.latestGeneration = s.controller.latestGeneration) :
    t.lastTaken = s.lastTaken := by
  rw [lastTaken, lastTaken, htakes, hlat]

/-- An answer stays one while the generation is the latest and nothing more is taken. -/
theorem Answered.mono (h : s.Answered) (hlast : t.lastTaken = s.lastTaken)
    (hfin : ∀ f ∈ s.finished, f ∈ t.finished) : t.Answered := by
  obtain ⟨w, hw, f, hf, hrest⟩ := h
  exact ⟨w, hlast.trans hw, f, hfin f hf, hrest⟩

theorem mem_flying_current (h : s.current = some r) : r.work ∈ s.flying := by
  rw [flying_of_current h]
  exact List.mem_append_right _ (List.mem_singleton_self _)

theorem held_eq_zero_iff : s.held g = 0 ↔ ∀ w ∈ s.flying, w.observation.generation ≠ g := by
  rw [held, List.countP_eq_zero]
  simp [decide_eq_true_eq, ne_eq]

/-- A call for the latest generation returns with an answer, or with a retry. -/
theorem Covered.finish_settles (hs : s.Covered) (hb : s.Bounded) (h : s.current = some r)
    (htime : retryAt ≠ 0)
    (hc : Controller.Settles s.controller r.work.observation retryAt outcome c') :
    (s.finish r outcome c').Covered := by
  have hlast : (s.finish r outcome c').lastTaken = s.lastTaken := lastTaken_congr rfl hc.latest
  refine ⟨fun p hp => hs.pending p (hc.pending ▸ hp), fun p hp => ?_,
    fun w hw => hs.flying w (mem_flying_finish hw),
    fun w hw hwgen => hlast.trans (hs.last w (mem_flying_finish hw) (hwgen.trans hc.latest)),
    fun _ _ => ?_⟩
  · obtain ⟨-, hnone⟩ | ⟨-, hsome, hat⟩ := hc.retry
    · cases hnone.symm.trans hp
    · cases hsome.symm.trans hp
      exact ⟨hs.flying _ (mem_flying_current h), hat ▸ htime⟩
  · obtain ⟨hout, -⟩ | ⟨-, hsome, -⟩ := hc.retry
    · refine .inr (.inr (.inr ⟨r.work, ?_, _, List.mem_cons_self, rfl, hout⟩))
      exact hlast.trans (hs.last _ (mem_flying_current h) (hb.generation_eq h hc.current))
    · refine .inr (.inl ?_)
      show c'.retryObservation.isSome
      rw [hsome]
      rfl

/-- A call returns and leaves the controller alone, because it is stale or the controller
was stopped. -/
theorem Covered.finish_same (hs : s.Covered) (h : s.current = some r) (outcome : Outcome)
    (hidle : s.controller.stopped ∨
      r.work.observation.generation ≠ s.controller.latestGeneration) :
    (s.finish r outcome s.controller).Covered := by
  have hlast : (s.finish r outcome s.controller).lastTaken = s.lastTaken := lastTaken_congr rfl rfl
  refine ⟨hs.pending, hs.retry, fun w hw => hs.flying w (mem_flying_finish hw),
    fun w hw hwgen => hlast.trans (hs.last w (mem_flying_finish hw) hwgen), fun hrun hlat => ?_⟩
  obtain hstop | hgen := hidle
  · cases hstop.symm.trans hrun
  · obtain hpend | hretry | hheld | hanswered := hs.covered hrun hlat
    · exact .inl hpend
    · exact .inr (.inl hretry)
    · rw [held_finish h outcome s.controller, if_neg hgen, Nat.add_zero] at hheld
      exact .inr (.inr (.inl hheld))
    · exact .inr (.inr (.inr (hanswered.mono hlast fun f hf => List.mem_cons_of_mem _ hf)))

variable {checked now : Time} {jitter : Duration → Duration}

section

variable (hs : s.Covered)

include hs

theorem Covered.returns (hb : s.Bounded) (h : s.current = some r) (htime : retryAt ≠ 0)
    (hcanc : outcome = .canceled → r.work.observation.generation ≠ s.controller.latestGeneration)
    (hc : Controller.Leaves s.controller r.work.observation retryAt outcome c') :
    (s.finish r outcome c').Covered := by
  cases hc with
  | same hwhy =>
    refine hs.finish_same h _ ?_
    obtain hout | hstop | hold := hwhy
    · exact .inr (hcanc hout)
    · exact .inl hstop
    · exact .inr (UInt64.ne_of_lt hold)
  | settles hc => exact hs.finish_settles hb h htime hc

/-- The steps that leave the observations where they are. -/
theorem Covered.keeps (hlat : t.controller.latestGeneration = s.controller.latestGeneration)
    (hpend : t.controller.pending = s.controller.pending)
    (hretry : t.controller.retryObservation = s.controller.retryObservation)
    (hat : t.controller.retryAt = s.controller.retryAt)
    (hstop : t.controller.stopped = false → s.controller.stopped = false)
    (htakes : t.takes = s.takes) (hfin : ∀ f ∈ s.finished, f ∈ t.finished)
    (hfly : ∀ w ∈ t.flying, w ∈ s.flying)
    (hheld : t.controller.stopped = false → t.held s.controller.latestGeneration = s.held s.controller.latestGeneration) :
    t.Covered := by
  have hlast := lastTaken_congr htakes hlat
  refine ⟨fun p hp => hs.pending p (hpend ▸ hp), fun p hp => ?_,
    fun w hw => hs.flying w (hfly w hw),
    fun w hw hwgen => hlast.trans (hs.last w (hfly w hw) (hwgen.trans hlat)),
    fun hrun hne => ?_⟩
  · rw [hat]
    exact hs.retry p (hretry ▸ hp)
  · rw [hpend, hretry, hlat, hheld hrun]
    obtain h | h | h | hanswered := hs.covered (hstop hrun) (hlat ▸ hne)
    · exact .inl h
    · exact .inr (.inl h)
    · exact .inr (.inr (.inl h))
    · exact .inr (.inr (.inr (hanswered.mono hlast hfin)))

theorem Covered.request (hb : s.Bounded) (hsteady : s.Steady (.request checked now jitter))
    (h : s.request checked now jitter = some t) : t.Covered := by
  obtain ⟨r, hcur, ⟨_, _, hnot, hleaves, rfl⟩ | rfl⟩ := request_cases h
  · exact hs.returns hb hcur hsteady (fun hout => absurd hout hnot) hleaves
  · have hfly : ({ s with current := some { r with called := true } } : System).flying = s.flying := by
      rw [flying_of_current hcur]
      rfl
    refine hs.keeps rfl rfl rfl rfl id rfl (fun _ hf => hf) (fun w hw => hfly ▸ hw) fun _ => ?_
    rw [held, held, hfly]

theorem Covered.answer (hb : s.Bounded)
    (hsteady : s.Steady (.answer result ready checked now jitter))
    (h : s.answer result ready checked now jitter = some t) : t.Covered := by
  obtain ⟨htime, hcanc⟩ := hsteady
  obtain ⟨r, _, _, hcur, hleaves, rfl, herr⟩ := answer_cases h
  refine hs.returns hb hcur htime (fun hout hgen => ?_) hleaves
  obtain ⟨e, he, hout⟩ := herr hout
  simp only [CanceledLatest, hcur, he] at hcanc
  exact of_decide_eq_false hcanc ⟨hgen, hout⟩

/-- Once an observation waits, no caller holds one of its generation. -/
theorem Covered.observe (ht : (s.observe o arrived now).Tidy) : (s.observe o arrived now).Covered := by
  revert ht
  rw [System.observe]
  split
  · exact fun _ => hs
  next c' hobserve =>
  split
  · exact fun _ => hs
  next hnew =>
  intro ht
  obtain ⟨⟨p, hp, -⟩, -⟩ := Controller.observe_accepted hobserve hnew
  obtain ⟨-, hvalid⟩ := Controller.observe_valid hobserve hnew hs.pending
  obtain ⟨hheld, hretry, -⟩ := ht.pending p hp
  refine ⟨hvalid, fun q hq => ?_, hs.flying, fun w hw hwgen => ?_, fun _ _ => .inl ?_⟩
  · cases hretry.symm.trans hq
  · exact absurd hwgen (held_eq_zero_iff.mp hheld w hw)
  · rw [hp]
    rfl

theorem Covered.take (hvalid : o.validate) (hgen : o.generation = s.controller.latestGeneration)
    (hheld : s.held s.controller.latestGeneration = 0) (accepted : ℕ) {c' : Controller}
    (hlat : c'.latestGeneration = s.controller.latestGeneration) (hpend : c'.pending = none)
    (hretry : c'.retryObservation = none) : (s.take o accepted c').Covered := by
  refine ⟨fun p hp => ?_, fun p hp => ?_, fun w hw => ?_, fun w hw hwgen => ?_,
    fun _ _ => .inr (.inr (.inl ?_))⟩
  · cases hpend.symm.trans hp
  · cases hretry.symm.trans hp
  · obtain hold | rfl := mem_flying_take hw
    · exact hs.flying w hold
    · exact hvalid
  · obtain hold | rfl := mem_flying_take hw
    · exact absurd (hwgen.trans hlat) (held_eq_zero_iff.mp hheld w hold)
    · exact List.find?_cons_of_pos (decide_eq_true hwgen)
  · show (s.take o accepted c').held c'.latestGeneration ≠ 0
    rw [held_take, hlat, if_pos hgen]
    exact Nat.succ_ne_zero _

theorem Covered.resetAfterStable (ht : s.Tidy) (now checked : Time) :
    ({ s with controller := s.controller.resetAfterStable now checked } : System).Covered := by
  obtain hsame | ⟨c', hc', hne, hlat, -, -, hpend, hstop, hretry, -⟩ :=
    Controller.resetAfterStable_cases (c := s.controller) now checked
  · rw [hsame]
    exact hs
  · -- Nothing was to be retried, so nothing is forgotten.
    have hnone : s.controller.retryObservation = none := by
      rw [Option.eq_none_iff_forall_ne_some]
      intro q hq
      exact hne (ht.retry q hq).2
    have hlast : ({ s with controller := c' } : System).lastTaken = s.lastTaken :=
      lastTaken_congr rfl hlat
    rw [hc']
    refine ⟨fun p hp => hs.pending p (hpend ▸ hp), fun p hp => ?_, hs.flying,
      fun w hw hwgen => hlast.trans (hs.last w hw (hwgen.trans hlat)), fun hrun hpos => ?_⟩
    · cases hretry.symm.trans hp
    · have hold := hs.covered (hstop ▸ hrun) (hlat ▸ hpos)
      rw [hnone, ← hpend, ← hlat] at hold
      obtain h | h | h | h := hold
      · exact .inl h
      · cases h
      · exact .inr (.inr (.inl h))
      · exact .inr (.inr (.inr (h.mono hlast fun _ hf => hf)))

theorem Covered.enter (h : s.enter i now = some t) : t.Covered := by
  obtain ⟨w, hw, hfly, htakes, ⟨hc, hwhy, hfin, hheld⟩ | ⟨hc, -, -, hfin, hheld⟩⟩ :=
    enter_spec h
  · refine hs.keeps (by rw [hc]) (by rw [hc]) (by rw [hc]) (by rw [hc]) (by rw [hc]; exact id)
      htakes (fun f hf => hfin ▸ List.mem_cons_of_mem _ hf) hfly fun hrun => ?_
    -- A valid observation of a controller that runs is only turned away as stale.
    have hstale : w.observation.generation ≠ s.controller.latestGeneration := by
      obtain hinvalid | hstop | hold := hwhy
      · cases hinvalid.symm.trans (hs.flying w hw)
      · cases (hc ▸ hstop).symm.trans hrun
      · exact UInt64.ne_of_lt hold
    rw [hheld, if_neg hstale, Nat.add_zero]
  · exact hs.keeps (by rw [hc]) (by rw [hc]) (by rw [hc]) (by rw [hc]) (by rw [hc]; exact id)
      htakes (fun f hf => hfin ▸ hf) hfly fun _ => hheld _

theorem Covered.stop (now : Time) :
    ({ s with controller := s.controller.stop now } : System).Covered := by
  rw [Controller.stop]
  split
  · exact hs
  · exact hs.keeps rfl rfl rfl rfl (by simp) rfl (fun _ hf => hf) (fun _ hw => hw) fun _ => rfl

theorem Covered.clock (n : ℕ) : ({ s with clock := n } : System).Covered :=
  { hs with }

theorem covered_step (hb : s.Bounded) (ht : s.Tidy) (hsteady : s.Steady a) (h : s.step a = some t) :
    t.Covered := by
  obtain ⟨u, hact, rfl⟩ := step_eq h
  refine Covered.clock ?_ _
  cases a with
  | observe o arrived now =>
    cases hact
    exact hs.observe (ht.observe hb hsteady)
  | takePending force now =>
    obtain ⟨p, hp, rfl⟩ := Option.map_eq_some_iff.mp hact
    obtain ⟨hpend, hc⟩ := Controller.takePending_eq hp
    obtain ⟨hheld, hretry, -⟩ := ht.pending _ hpend
    rw [hc]
    exact hs.take (hs.pending _ hpend) (hb.controller.pending _ hpend) hheld _ rfl rfl hretry
  | takeRetry now =>
    obtain ⟨p, hp, rfl⟩ := Option.map_eq_some_iff.mp hact
    obtain ⟨hretry, hgen, hc⟩ := Controller.takeRetry_eq hp
    have hpend : s.controller.pending = none := by
      rw [Option.eq_none_iff_forall_ne_some]
      intro q hq
      cases (ht.pending q hq).2.1.symm.trans hretry
    rw [hc]
    exact hs.take (hs.retry _ hretry).1 hgen (ht.retry _ hretry).1 _ rfl hpend rfl
  | resetAfterStable now checked =>
    cases hact
    exact hs.resetAfterStable ht now checked
  | enter i now => exact hs.enter hact
  | request checked now jitter => exact hs.request hb hsteady hact
  | answer result ready checked now jitter => exact hs.answer hb hsteady hact
  | stop now =>
    cases hact
    exact hs.stop now

end

theorem Initial.covered (h : s.Initial) : s.Covered := by
  obtain ⟨config, now, c, hnew, rfl⟩ := h
  rw [Controller.new] at hnew
  split at hnew
  · cases hnew
  simp only at hnew
  split at hnew
  · cases hnew
  · cases hnew
    exact ⟨by simp, by simp, by simp [flying], by simp [flying], fun _ h => absurd rfl h⟩

theorem covered_of_reach {start : System} (hinit : start.Initial)
    (hreach : Reach step Steady start s) : s.Covered := by
  induction hreach with
  | refl => exact hinit.covered
  | tail hreach hok hst ih =>
    have hpaced := hreach.mono fun _ _ h => h.paced
    exact covered_step ih (hinit.bounded.reach hreach).1 (tidy_of_reach hinit hpaced) hok hst

theorem not_answered_of_outcomes (h : s.finished.map (·.outcome) = [outcome])
    (hout : outcome ∉ [Outcome.succeeded, .permanent, .unavailable]) : ¬ s.Answered := by
  rintro ⟨w, -, f, hf, -, hmem⟩
  have hf' := List.mem_map_of_mem (f := fun f : Finished => f.outcome) hf
  rw [h, List.mem_singleton] at hf'
  exact hout (hf' ▸ hmem)

/-- In every steady run of a controller that was not stopped, a change that no caller holds
and that was not answered waits or is to be retried. -/
theorem recovery_never_silent {start s : System} (hinit : start.Initial)
    (hreach : Reach step Steady start s) (hrunning : s.controller.stopped = false)
    (hidle : s.flying = []) (hobserved : s.controller.latestGeneration ≠ 0)
    (hopen : ¬ s.Answered) : s.controller.pending.isSome ∨ s.RetryScheduled := by
  have hs := covered_of_reach hinit hreach
  have hb := (hinit.bounded.reach hreach).1
  obtain h | h | h | h := hs.covered hrunning hobserved
  · exact .inl h
  · obtain ⟨o, ho⟩ := Option.isSome_iff_exists.mp h
    exact .inr ⟨o, ho, (hs.retry o ho).2, hb.controller.retry o ho⟩
  · rw [held, hidle] at h
    exact absurd rfl h
  · exact absurd h hopen

/-- The replacer says that it was canceled, for reasons of its own: nothing waits and nothing
is to be retried. -/
theorem silent_after_cancellation :
    ∃ s, Demo.start.Initial ∧ Reach step Always Demo.start s ∧ s.controller.stopped = false ∧
      s.flying = [] ∧ s.controller.latestGeneration ≠ 0 ∧ ¬ s.Answered ∧
      s.controller.pending = none ∧ s.controller.retryObservation = none := by
  have hrun : (run step Demo.start (Demo.woken :: Demo.attempt (.error Sentinel.canceled.err))).any
      (fun s => s.controller.stopped = false ∧ s.flying = [] ∧ s.controller.latestGeneration ≠ 0 ∧
        s.finished.map (·.outcome) = [.canceled] ∧ s.controller.pending = none ∧
        s.controller.retryObservation = none) := by decide +kernel
  obtain ⟨s, hs, heq⟩ := (Option.any_eq_true _ _).mp hrun
  obtain ⟨hrunning, hidle, hlatest, hfinished, hpending, hretry⟩ := of_decide_eq_true heq
  exact ⟨s, Demo.start_initial, reach_of_run _ hs, hrunning, hidle, hlatest,
    not_answered_of_outcomes hfinished (by decide), hpending, hretry⟩

theorem retry_after_timeout :
    ∃ s, runChecked step Steady Demo.start (Demo.woken :: Demo.attempt (.error Sentinel.timeout.err)) = some s ∧
      s.controller.pending = none ∧ s.RetryScheduled := by
  have hrun : (runChecked step Steady Demo.start
      (Demo.woken :: Demo.attempt (.error Sentinel.timeout.err))).any
      (fun s => s.controller.stopped = false ∧ s.flying = [] ∧ s.controller.latestGeneration ≠ 0 ∧
        s.finished.map (·.outcome) = [.transient] ∧ s.controller.pending = none) := by decide +kernel
  obtain ⟨s, hs, heq⟩ := (Option.any_eq_true _ _).mp hrun
  obtain ⟨hrunning, hidle, hlatest, hfinished, hpending⟩ := of_decide_eq_true heq
  have hopen := not_answered_of_outcomes hfinished (by decide)
  refine ⟨s, hs, hpending, ?_⟩
  obtain h | h := recovery_never_silent Demo.start_initial (reach_of_runChecked _ hs) hrunning hidle
    hlatest hopen
  · rw [hpending] at h
    cases h
  · exact h

end System

end Paperboat.NetworkRecovery
