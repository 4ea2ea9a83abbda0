import Paperboat.NetworkRecovery.Generations

/-! One attempt at a time. As long as an observation repeats the latest generation only
while nothing of that generation is under way, waits for a retry or is being watched for
stability, the latest generation is in at most one place: it waits, it is in the hands of
one caller, it is to be retried, or it is answered. -/

namespace Paperboat.NetworkRecovery

open Transition

namespace System

variable {s t : System} {c : Controller} {r : Replacing} {o : Observation}

/-! ### One place for the latest generation -/

/-- An observation repeats the latest generation only while no caller holds one of it, none
is to be retried and no stability window is open. -/
def Paced (s : System) : Action → Prop
  | .observe o _ _ => o.generation = s.controller.latestGeneration →
      s.live = [] ∧ s.controller.retryObservation = none ∧ s.controller.stableSince = 0
  | _ => True

instance (s : System) : (a : Action) → Decidable (s.Paced a)
  | .observe o _ _ => inferInstanceAs (Decidable (o.generation = s.controller.latestGeneration →
      s.live = [] ∧ s.controller.retryObservation = none ∧ s.controller.stableSince = 0))
  | .takePending .. | .takeRetry .. | .resetAfterStable .. | .enter .. | .request .. | .answer ..
  | .stop .. => isTrue trivial

/-- The last attempt for the latest generation that ended was a success. -/
def Succeeded (s : System) : Prop := ∃ f, s.lastFinished = some f ∧ f.outcome = .succeeded

/-- The latest generation is in one place at most. -/
structure Tidy (s : System) : Prop where
  single : s.held s.controller.latestGeneration ≤ 1
  pending : ∀ p, s.controller.pending = some p → s.held s.controller.latestGeneration = 0 ∧
    s.controller.retryObservation = none ∧ s.controller.stableSince = 0
  retry : ∀ o, s.controller.retryObservation = some o →
    s.held s.controller.latestGeneration = 0 ∧ s.controller.stableSince = 0
  stable : s.controller.stableSince ≠ 0 →
    s.held s.controller.latestGeneration = 0 ∧ s.Succeeded
  ready : s.controller.health.state = .ready → s.controller.pending = none ∧
    s.controller.retryObservation = none ∧ s.held s.controller.latestGeneration = 0 ∧ s.Succeeded

variable {f : Finished} {fs : List Finished} {retryAt : Time} {outcome : Outcome} {c' : Controller}

theorem lastFinished_cons_of_ne
    (hs : s.finished = f :: fs) (hne : f.work.observation.generation ≠ s.controller.latestGeneration ∨
      Finished.attempted f = false) :
    s.lastFinished = fs.find? fun f =>
      f.work.observation.generation = s.controller.latestGeneration ∧ Finished.attempted f := by
  rw [lastFinished, hs, List.find?_cons_of_neg]
  simp only [decide_eq_true_eq, not_and, Bool.not_eq_true]
  intro heq
  exact hne.resolve_left (not_not.mpr heq)

theorem lastFinished_cons (hs : s.finished = f :: fs)
    (heq : f.work.observation.generation = s.controller.latestGeneration)
    (hf : Finished.attempted f) : s.lastFinished = some f := by
  rw [lastFinished, hs, List.find?_cons_of_pos]
  exact decide_eq_true ⟨heq, hf⟩

/-- What is known of the latest generation while a caller holds an observation of it. -/
theorem Tidy.of_held (hs : s.Tidy) (h : s.held s.controller.latestGeneration ≠ 0) :
    s.controller.pending = none ∧ s.controller.retryObservation = none ∧
      s.controller.stableSince = 0 ∧ s.controller.health.state ≠ .ready := by
  refine ⟨?_, ?_, ?_, fun hready => h (hs.ready hready).2.2.1⟩
  · rw [Option.eq_none_iff_forall_ne_some]
    intro p hp
    exact h (hs.pending p hp).1
  · rw [Option.eq_none_iff_forall_ne_some]
    intro o ho
    exact h (hs.retry o ho).1
  · by_contra hstable
    exact h (hs.stable hstable).1

theorem held_pos_of_current (h : s.current = some r)
    (hgen : r.work.observation.generation = s.controller.latestGeneration) :
    s.held s.controller.latestGeneration ≠ 0 := by
  have := held_finish (g := s.controller.latestGeneration) h .skipped s.controller
  rw [if_pos hgen] at this
  omega

/-- A call that is not stale is for the latest generation. -/
theorem Bounded.generation_eq (hb : s.Bounded) (h : s.current = some r)
    (hnew : ¬ r.work.observation.generation < s.controller.latestGeneration) :
    r.work.observation.generation = s.controller.latestGeneration :=
  UInt64.le_antisymm (hb.current h) (UInt64.not_lt.mp hnew)

/-- A call returns and leaves the controller alone. -/
theorem Tidy.finish_same (hs : s.Tidy) (h : s.current = some r) (outcome : Outcome) :
    (s.finish r outcome s.controller).Tidy := by
  have hcount := fun g => held_finish (g := g) h outcome s.controller
  by_cases hgen : r.work.observation.generation = s.controller.latestGeneration
  · -- The call held the observation of the latest generation, so nothing else is known.
    obtain ⟨hpend, hretry, hstable, hready⟩ := hs.of_held (held_pos_of_current h hgen)
    have hone := hs.single
    rw [hcount, if_pos hgen] at hone
    refine ⟨?_, fun p hp => ?_, fun o ho => ?_,
      fun hne => absurd hstable hne, fun hr => absurd hr hready⟩
    · exact Nat.le_of_succ_le hone
    · cases hpend.symm.trans hp
    · cases hretry.symm.trans ho
  · have hsame : (s.finish r outcome s.controller).held s.controller.latestGeneration =
        s.held s.controller.latestGeneration := by
      rw [hcount, if_neg hgen, Nat.add_zero]
    have hlast : (s.finish r outcome s.controller).Succeeded ↔ s.Succeeded := by
      rw [Succeeded, lastFinished_cons_of_ne rfl (.inl hgen)]
      rfl
    exact ⟨hsame ▸ hs.single,
      fun p hp => hsame ▸ hs.pending p hp, fun o ho => hsame ▸ hs.retry o ho,
      fun hne => ⟨hsame ▸ (hs.stable hne).1, hlast.mpr (hs.stable hne).2⟩,
      fun hr => ⟨(hs.ready hr).1, (hs.ready hr).2.1, hsame ▸ (hs.ready hr).2.2.1,
        hlast.mpr (hs.ready hr).2.2.2⟩⟩

/-- A call returns with an answer for the latest generation. -/
theorem Tidy.finish_settles (hs : s.Tidy) (hb : s.Bounded) (h : s.current = some r)
    (hc : Controller.Settles s.controller r.work.observation retryAt outcome c') :
    (s.finish r outcome c').Tidy := by
  have hgen := hb.generation_eq h hc.current
  obtain ⟨hpend, -, hunstable, -⟩ := hs.of_held (held_pos_of_current h hgen)
  have hzero : (s.finish r outcome c').held c'.latestGeneration = 0 := by
    have hone := hs.single
    rw [held_finish h outcome c', if_pos hgen] at hone
    rw [hc.latest]
    omega
  have hstable : outcome ≠ .succeeded → c'.stableSince = 0 := fun hne =>
    (hc.failed hne).1.elim id fun hsame => hsame.trans hunstable
  have hsucc : outcome = .succeeded → (s.finish r outcome c').Succeeded := by
    rintro rfl
    exact ⟨_, lastFinished_cons rfl (hgen.trans hc.latest.symm) rfl, rfl⟩
  refine ⟨hzero ▸ Nat.zero_le 1, fun p hp => ?_, fun o ho => ⟨hzero, ?_⟩, fun hne => ⟨hzero, ?_⟩, fun hr => ?_⟩
  · cases (hc.pending.trans hpend).symm.trans hp
  · obtain ⟨-, hnone⟩ | ⟨hout, -⟩ := hc.retry
    · cases hnone.symm.trans ho
    · exact hstable (by simp [hout])
  · by_contra hnot
    exact hne (hstable fun hok => hnot (hsucc hok))
  · by_cases hok : outcome = .succeeded
    · obtain ⟨-, hnone⟩ | ⟨hout, -⟩ := hc.retry
      · exact ⟨hc.pending.trans hpend, hnone, hzero, hsucc hok⟩
      · cases hok.symm.trans hout
    · exact absurd hr (hc.failed hok).2

theorem Tidy.returns (hs : s.Tidy) (hb : s.Bounded) (h : s.current = some r)
    (hc : Controller.Leaves s.controller r.work.observation retryAt outcome c') :
    (s.finish r outcome c').Tidy := by
  cases hc with
  | same => exact hs.finish_same h _
  | settles hc => exact hs.finish_settles hb h hc

variable {now : Time}

section

variable (hs : s.Tidy)

include hs

variable {checked : Time} {jitter : Duration → Duration} {p : Observation × Controller}

theorem Tidy.request (hb : s.Bounded)
    (h : s.request checked now jitter = some t) : t.Tidy := by
  obtain ⟨r, hcur, ⟨_, _, -, hleaves, rfl⟩ | rfl⟩ := request_cases h
  · exact hs.returns hb hcur hleaves
  · have hheld : ∀ g, ({ s with current := some { r with called := true } } : System).held g = s.held g := by
      intro g
      rw [held, held, flying_of_current hcur]
      rfl
    exact ⟨(hheld _).symm ▸ hs.single, fun p hp => (hheld _).symm ▸ hs.pending p hp,
      fun o ho => (hheld _).symm ▸ hs.retry o ho, fun hne => (hheld _).symm ▸ hs.stable hne,
      fun hr => (hheld _).symm ▸ hs.ready hr⟩

theorem Tidy.answer (hb : s.Bounded) {result : Except Err ReplacementResult} {ready : Time}
    (h : s.answer result ready checked now jitter = some t) :
    t.Tidy := by
  obtain ⟨r, _, _, hcur, hleaves, rfl, -⟩ := answer_cases h
  exact hs.returns hb hcur hleaves

theorem Tidy.observe (hb : s.Bounded) (hpaced : s.Paced (.observe o arrived now)) :
    (s.observe o arrived now).Tidy := by
  rw [System.observe]
  split
  · exact hs
  next c' hobserve =>
  split
  · exact hs
  next hnew =>
  obtain ⟨-, hlat, hstate, -, -, hfresh, hrepeat⟩ :=
    Controller.observe_accepted hobserve hnew
  -- Either nothing of a new generation is under way yet, or the observation is paced.
  have hclear : s.held o.generation = 0 ∧ c'.retryObservation = none ∧ c'.stableSince = 0 := by
    by_cases heq : o.generation = s.controller.latestGeneration
    · obtain ⟨hlive, hretry, hstable⟩ := hpaced heq
      obtain ⟨hretry', -, hstable'⟩ := hrepeat heq
      exact ⟨heq ▸ live_eq_nil_iff.mp hlive, hretry'.trans hretry, hstable'.trans hstable⟩
    · have hlt : s.controller.latestGeneration < o.generation :=
        UInt64.lt_of_le_of_ne (UInt64.not_lt.mp hnew) (Ne.symm heq)
      refine ⟨?_, hfresh hlt⟩
      rw [held, List.countP_eq_zero]
      intro w hw hwgen
      have hle := hb.flying w hw
      rw [of_decide_eq_true hwgen] at hle
      exact UInt64.not_le.mpr hlt hle
  obtain ⟨hheld, hretry, hstable⟩ := hclear
  refine ⟨?_, fun q _ => ⟨hlat ▸ hheld, hretry, hstable⟩, fun q hq => ?_,
    fun hne => absurd hstable hne, fun hr => ?_⟩
  · exact hlat ▸ hheld ▸ Nat.zero_le 1
  · cases hretry.symm.trans hq
  · cases hstate.symm.trans hr

omit hs in
/-- A caller takes the observation of the latest generation. -/
theorem take_tidy (hheld : s.held s.controller.latestGeneration = 0) (hstable : s.controller.stableSince = 0)
    (hready : s.controller.health.state ≠ .ready) (accepted : ℕ)
    (hlat : c'.latestGeneration = s.controller.latestGeneration)
    (hpend : c'.pending = none) (hretry : c'.retryObservation = none)
    (hstable' : c'.stableSince = s.controller.stableSince)
    (hhealth : c'.health = s.controller.health) : (s.take o accepted c').Tidy := by
  refine ⟨?_, fun p hp => ?_, fun p hp => ?_, fun hne => ?_, fun hr => ?_⟩
  · show (s.take o accepted c').held c'.latestGeneration ≤ 1
    rw [held_take, hlat, hheld]
    split <;> omega
  · cases hpend.symm.trans hp
  · cases hretry.symm.trans hp
  · exact absurd (hstable'.trans hstable) hne
  · exact absurd (hhealth ▸ hr) hready

theorem Tidy.takePending (h : s.controller.takePending force now = some p) :
    (s.take p.1 s.pendingAccepted p.2).Tidy := by
  obtain ⟨hpend, hc⟩ := Controller.takePending_eq h
  obtain ⟨hheld, hretry, hstable⟩ := hs.pending _ hpend
  have hready : s.controller.health.state ≠ .ready := by
    intro hr
    cases (hs.ready hr).1.symm.trans hpend
  rw [hc]
  exact take_tidy hheld hstable hready _ rfl rfl hretry rfl rfl

theorem Tidy.takeRetry (h : s.controller.takeRetry now = some p) :
    (s.take p.1 s.retryAccepted p.2).Tidy := by
  obtain ⟨hretry, -, hc⟩ := Controller.takeRetry_eq h
  obtain ⟨hheld, hstable⟩ := hs.retry _ hretry
  have hready : s.controller.health.state ≠ .ready := by
    intro hr
    cases (hs.ready hr).2.1.symm.trans hretry
  have hpend : s.controller.pending = none := by
    rw [Option.eq_none_iff_forall_ne_some]
    intro q hq
    cases (hs.pending q hq).2.1.symm.trans hretry
  rw [hc]
  exact take_tidy hheld hstable hready _ rfl hpend rfl rfl rfl

theorem Tidy.resetAfterStable (now checked : Time) :
    ({ s with controller := s.controller.resetAfterStable now checked } : System).Tidy := by
  obtain hsame | ⟨c', hc', hne, hlat, -, -, hpend, -, hretry, hstable⟩ :=
    Controller.resetAfterStable_cases (c := s.controller) now checked
  · rw [hsame]
    exact hs
  · obtain ⟨hheld, hsucceeded⟩ := hs.stable hne
    have hnone : c'.pending = none := by
      rw [hpend, Option.eq_none_iff_forall_ne_some]
      intro p hp
      exact hne (hs.pending p hp).2.2
    rw [hc']
    refine ⟨?_, fun p hp => ?_, fun o ho => ?_,
      fun h => absurd hstable h, fun _ => ⟨hnone, hretry, ?_, ?_⟩⟩
    · exact hlat ▸ hs.single
    · cases hnone.symm.trans hp
    · cases hretry.symm.trans ho
    · exact hlat ▸ hheld
    · rw [Succeeded, lastFinished, hlat]
      exact hsucceeded

theorem Tidy.stop (now : Time) : ({ s with controller := s.controller.stop now } : System).Tidy := by
  rw [Controller.stop]
  split
  · exact hs
  · exact { hs with ready := by simp }

theorem Tidy.enter (h : s.enter i now = some t) : t.Tidy := by
  obtain ⟨w, -, -, -, ⟨hc, -, hfin, hheld⟩ | ⟨hc, hstate, -, hfin, hheld⟩⟩ := enter_spec h
  · have hzero : ∀ g, s.held g = 0 → t.held g = 0 := fun g hg => by
      have := hheld g
      omega
    have hlast : t.Succeeded ↔ s.Succeeded := by
      rw [Succeeded, lastFinished_cons_of_ne hfin (.inr rfl), hc]
      rfl
    refine ⟨?_, fun p hp => ?_, fun p hp => ?_, fun hne => ?_, fun hr => ?_⟩
    · have := hs.single
      rw [hheld] at this
      exact hc ▸ Nat.le_of_add_right_le this
    · rw [hc] at hp ⊢
      obtain ⟨hheld', hrest⟩ := hs.pending p hp
      exact ⟨hzero _ hheld', hrest⟩
    · rw [hc] at hp ⊢
      obtain ⟨hheld', hrest⟩ := hs.retry p hp
      exact ⟨hzero _ hheld', hrest⟩
    · rw [hc] at hne ⊢
      exact ⟨hzero _ (hs.stable hne).1, hlast.mpr (hs.stable hne).2⟩
    · rw [hc] at hr ⊢
      obtain ⟨hpend, hretry, hheld', hsucc⟩ := hs.ready hr
      exact ⟨hpend, hretry, hzero _ hheld', hlast.mpr hsucc⟩
  · have hlast : t.Succeeded ↔ s.Succeeded := by
      rw [Succeeded, Succeeded, lastFinished, lastFinished, hfin, hc]
    refine ⟨?_, fun p hp => ?_, fun p hp => ?_, fun hne => ?_, fun hr => ?_⟩
    · rw [hheld, hc]
      exact hs.single
    · rw [hheld]
      rw [hc] at hp ⊢
      exact hs.pending p hp
    · rw [hheld]
      rw [hc] at hp ⊢
      exact hs.retry p hp
    · rw [hheld, hlast]
      rw [hc] at hne ⊢
      exact hs.stable hne
    · cases hstate.symm.trans hr

theorem Tidy.clock (n : ℕ) : ({ s with clock := n } : System).Tidy :=
  { hs with }

theorem tidy_step (hb : s.Bounded) (hpaced : s.Paced a) (h : s.step a = some t) : t.Tidy := by
  obtain ⟨u, hact, rfl⟩ := step_eq h
  refine Tidy.clock ?_ _
  cases a with
  | observe o arrived now =>
    cases hact
    exact hs.observe hb hpaced
  | takePending force now =>
    obtain ⟨p, hp, rfl⟩ := Option.map_eq_some_iff.mp hact
    exact hs.takePending hp
  | takeRetry now =>
    obtain ⟨p, hp, rfl⟩ := Option.map_eq_some_iff.mp hact
    exact hs.takeRetry hp
  | resetAfterStable now checked =>
    cases hact
    exact hs.resetAfterStable now checked
  | enter i now => exact hs.enter hact
  | request checked now jitter => exact hs.request hb hact
  | answer result ready checked now jitter => exact hs.answer hb hact
  | stop now =>
    cases hact
    exact hs.stop now

end

theorem Initial.tidy (h : s.Initial) : s.Tidy := by
  obtain ⟨config, now, c, hnew, rfl⟩ := h
  rw [Controller.new] at hnew
  split at hnew
  · cases hnew
  simp only at hnew
  split at hnew
  · cases hnew
  · cases hnew
    exact ⟨Nat.zero_le 1, by simp, by simp, fun h => absurd rfl h, by simp⟩

theorem tidy_of_reach {start : System} (hinit : start.Initial) (hreach : Reach step Paced start s) :
    s.Tidy := by
  induction hreach with
  | refl => exact hinit.tidy
  | tail hreach hok hst ih => exact tidy_step ih (hinit.bounded.reach hreach).1 hok hst

end System

end Paperboat.NetworkRecovery
