import Paperboat.NetworkRecovery.Attempts

/-! What the reported health says about the attempts that were made. -/

namespace Paperboat.NetworkRecovery

open Transition

namespace System

variable {s t : System} {r : Replacing} {o : Observation}

/-! ### The order of attempts -/

/-- Calls of `replace` follow on one another, each after its observation was accepted. -/
structure Ordered (s : System) : Prop where
  pending : s.pendingAccepted ≤ s.clock
  retry : s.retryAccepted ≤ s.clock
  waiting : ∀ w ∈ s.waiting, w.accepted ≤ s.clock
  current : ∀ r, s.current = some r → r.work.accepted ≤ r.started ∧ r.started < s.clock ∧
    ∀ f ∈ s.finished, f.started < r.started
  finished : ∀ f ∈ s.finished, f.work.accepted ≤ f.started ∧ f.started < s.clock
  sorted : s.finished.Pairwise fun f g => g.started < f.started

/-- The steps that neither take an observation nor let a call in or out. -/
theorem Ordered.tick (hs : s.Ordered) (hpend : t.pendingAccepted ≤ s.clock)
    (hretry : t.retryAccepted = s.retryAccepted) (hwaiting : t.waiting = s.waiting)
    (hcur : t.current = s.current) (hfin : t.finished = s.finished)
    (hclock : t.clock = s.clock + 1) : t.Ordered where
  pending := by omega
  retry := by have := hs.retry; omega
  waiting := fun w hw => by have := hs.waiting w (hwaiting ▸ hw); omega
  current := fun r hr => by
    obtain ⟨hacc, hstart, hlast⟩ := hs.current r (hcur ▸ hr)
    exact ⟨hacc, by omega, fun f hf => hlast f (hfin ▸ hf)⟩
  finished := fun f hf => by
    obtain ⟨hacc, hstart⟩ := hs.finished f (hfin ▸ hf)
    exact ⟨hacc, by omega⟩
  sorted := hfin ▸ hs.sorted

theorem Ordered.take (hs : s.Ordered) (hacc : accepted ≤ s.clock) (c : Controller) :
    ({ s.take o accepted c with clock := s.clock + 1 } : System).Ordered where
  pending := Nat.le_succ_of_le hs.pending
  retry := Nat.le_succ_of_le hs.retry
  waiting := fun w hw => by
    refine Nat.le_succ_of_le ?_
    obtain hold | hnew := List.mem_append.mp hw
    · exact hs.waiting w hold
    · rw [List.mem_singleton.mp hnew]
      exact hacc
  current := fun r hr => by
    obtain ⟨hacc, hstart, hlast⟩ := hs.current r hr
    exact ⟨hacc, Nat.lt_succ_of_lt hstart, hlast⟩
  finished := fun f hf => ⟨(hs.finished f hf).1, Nat.lt_succ_of_lt (hs.finished f hf).2⟩
  sorted := hs.sorted

theorem Ordered.finish (hs : s.Ordered) (h : s.current = some r) (outcome : Outcome)
    (c : Controller) : ({ s.finish r outcome c with clock := s.clock + 1 } : System).Ordered := by
  obtain ⟨hacc, hstart, hlast⟩ := hs.current r h
  refine ⟨Nat.le_succ_of_le hs.pending, ?_, fun w hw => Nat.le_succ_of_le (hs.waiting w hw), nofun,
    fun f hf => ?_, List.pairwise_cons.mpr ⟨hlast, hs.sorted⟩⟩
  · show (if outcome = .transient then r.work.accepted else s.retryAccepted) ≤ s.clock + 1
    have := hs.retry
    split <;> omega
  · obtain rfl | hold := List.mem_cons.mp hf
    · exact ⟨hacc, Nat.lt_succ_of_lt hstart⟩
    · exact ⟨(hs.finished f hold).1, Nat.lt_succ_of_lt (hs.finished f hold).2⟩

theorem Ordered.enter (hs : s.Ordered) (h : s.enter i now = some t) :
    ({ t with clock := s.clock + 1 } : System).Ordered := by
  obtain ⟨hcur, w, hw, hcases⟩ := enter_cases h
  have hacc := hs.waiting w (List.mem_of_getElem? hw)
  have hwaiting : ∀ x ∈ s.waiting.eraseIdx i, x.accepted ≤ s.clock + 1 := fun x hx =>
    Nat.le_succ_of_le (hs.waiting x (List.mem_of_mem_eraseIdx hx))
  obtain ⟨_, -, ht⟩ | ⟨_, _, -, ht⟩ := hcases
  · rw [ht]
    refine ⟨Nat.le_succ_of_le hs.pending, Nat.le_succ_of_le hs.retry, hwaiting, fun r hr => ?_,
      fun f hf => ?_, List.pairwise_cons.mpr ⟨fun f hf => (hs.finished f hf).2, hs.sorted⟩⟩
    · cases hcur.symm.trans hr
    · obtain rfl | hold := List.mem_cons.mp hf
      · exact ⟨hacc, Nat.lt_succ_self _⟩
      · exact ⟨(hs.finished f hold).1, Nat.lt_succ_of_lt (hs.finished f hold).2⟩
  · rw [ht]
    refine ⟨Nat.le_succ_of_le hs.pending, Nat.le_succ_of_le hs.retry, hwaiting, fun r hr => ?_,
      fun f hf => ⟨(hs.finished f hf).1, Nat.lt_succ_of_lt (hs.finished f hf).2⟩, hs.sorted⟩
    cases hr
    exact ⟨hacc, Nat.lt_succ_self _, fun f hf => (hs.finished f hf).2⟩

theorem ordered_step (hs : s.Ordered) (h : s.step a = some t) : t.Ordered := by
  obtain ⟨u, hact, rfl⟩ := step_eq h
  cases a with
  | observe o arrived now =>
    cases hact
    rw [System.observe]
    split
    · exact hs.tick hs.pending rfl rfl rfl rfl rfl
    · split
      · exact hs.tick hs.pending rfl rfl rfl rfl rfl
      · exact hs.tick le_rfl rfl rfl rfl rfl rfl
  | takePending force now =>
    obtain ⟨p, -, rfl⟩ := Option.map_eq_some_iff.mp hact
    exact hs.take hs.pending _
  | takeRetry now =>
    obtain ⟨p, -, rfl⟩ := Option.map_eq_some_iff.mp hact
    exact hs.take hs.retry _
  | resetAfterStable | stop =>
    cases hact
    exact hs.tick hs.pending rfl rfl rfl rfl rfl
  | enter i now => exact hs.enter hact
  | request checked now jitter =>
    obtain ⟨r, hcur, ⟨_, _, -, -, rfl⟩ | rfl⟩ := request_cases hact
    · exact hs.finish hcur _ _
    · refine ⟨Nat.le_succ_of_le hs.pending, Nat.le_succ_of_le hs.retry,
        fun w hw => Nat.le_succ_of_le (hs.waiting w hw), fun q hq => ?_,
        fun f hf => ⟨(hs.finished f hf).1, Nat.lt_succ_of_lt (hs.finished f hf).2⟩, hs.sorted⟩
      cases hq
      obtain ⟨hacc, hstart, hlast⟩ := hs.current r hcur
      exact ⟨hacc, Nat.lt_succ_of_lt hstart, hlast⟩
  | answer result ready checked now jitter =>
    obtain ⟨r, _, _, hcur, -, rfl, -⟩ := answer_cases hact
    exact hs.finish hcur _ _

theorem Initial.ordered (h : s.Initial) : s.Ordered := by
  obtain ⟨config, now, c, -, rfl⟩ := h
  exact ⟨le_rfl, le_rfl, nofun, nofun, nofun, .nil⟩

/-! ### Ready -/

/-- The attempt failed. -/
def Finished.failed (f : Finished) : Bool :=
  f.outcome ∈ [Outcome.transient, .permanent, .canceled]

/-- A controller that reports ready made a replacement for the latest generation last, and
nothing of that generation that was accepted since it was started waits, is to be retried or
failed. -/
def HonestReady (s : System) : Prop :=
  s.controller.health.state = .ready → ∃ f, s.lastFinished = some f ∧ f.outcome = .succeeded ∧
    (s.controller.pending.isSome → s.pendingAccepted ≤ f.started) ∧
    (s.controller.retryObservation.isSome → s.retryAccepted ≤ f.started) ∧
    ∀ g ∈ s.finished, g.work.observation.generation = s.controller.latestGeneration →
      Finished.failed g → g.work.accepted ≤ f.started

theorem Finished.attempted_of_failed (h : Finished.failed f) : Finished.attempted f := by
  have hmem := of_decide_eq_true h
  exact decide_eq_true (List.mem_cons_of_mem _ hmem)

/-- Every other attempt for the latest generation began before the last one. -/
theorem Ordered.before_last (hs : s.Ordered) (hlast : s.lastFinished = some f)
    (hg : g ∈ s.finished)
    (hgen : g.work.observation.generation = s.controller.latestGeneration)
    (hattempted : Finished.attempted g) (hne : g ≠ f) : g.work.accepted ≤ f.started := by
  obtain ⟨-, newer, older, heq, hnewer⟩ := List.find?_eq_some_iff_append.mp hlast
  have hsorted := hs.sorted
  rw [heq] at hg hsorted
  obtain hmem | hmem := List.mem_append.mp hg
  · have hmiss := hnewer g hmem
    simp [hgen, hattempted] at hmiss
  · obtain rfl | hmem := List.mem_cons.mp hmem
    · exact absurd rfl hne
    · have hlt := (List.pairwise_cons.mp (List.pairwise_append.mp hsorted).2.1).1 g hmem
      have hacc := (hs.finished g (heq ▸ hg)).1
      exact hacc.trans hlt.le

theorem Tidy.honest (hs : s.Tidy) (ho : s.Ordered) : s.HonestReady := by
  intro hready
  obtain ⟨hpend, hretry, -, f, hlast, hsucc⟩ := hs.ready hready
  refine ⟨f, hlast, hsucc, ?_, ?_, fun g hg hgen hfail => ?_⟩
  · rw [hpend]
    nofun
  · rw [hretry]
    nofun
  · refine ho.before_last hlast hg hgen (Finished.attempted_of_failed hfail) ?_
    rintro rfl
    rw [Finished.failed, hsucc] at hfail
    cases hfail

/-- A call for an older generation returns: the controller is as before. -/
theorem step_of_older (h : s.step a = some t) (hcur : s.current = some r)
    (hret : t.current = none)
    (hold : r.work.observation.generation < s.controller.latestGeneration) :
    t.controller = s.controller := by
  obtain ⟨u, hact, rfl⟩ := step_eq h
  have hbusy : ∀ {x : System}, x.current = s.current → x.current ≠ none := by
    intro x hx hnone
    cases (hcur.symm.trans hx.symm).trans hnone
  cases a with
  | observe o arrived now =>
    cases hact
    refine absurd hret (hbusy ?_)
    rw [System.observe]
    split
    · rfl
    · split <;> rfl
  | takePending | takeRetry =>
    obtain ⟨p, -, rfl⟩ := Option.map_eq_some_iff.mp hact
    exact absurd hret (hbusy rfl)
  | resetAfterStable | stop =>
    cases hact
    exact absurd hret (hbusy rfl)
  | enter i now =>
    cases (enter_cases hact).1.symm.trans hcur
  | request checked now jitter =>
    obtain ⟨q, hq, ⟨_, _, -, hleaves, rfl⟩ | rfl⟩ := request_cases hact
    · cases hcur.symm.trans hq
      exact hleaves.of_older hold
    · cases hret
  | answer result ready checked now jitter =>
    obtain ⟨q, _, _, hq, hleaves, rfl, -⟩ := answer_cases hact
    cases hcur.symm.trans hq
    exact hleaves.of_older hold

namespace Demo

def identity : Identity := ⟨"environment", "machine", "tunnel", "connector"⟩

def start : System where
  controller :=
    { config := Config.withDefaults { identity }
      health := { state := .unknown, code := "network_waiting", checkedAt := 1 } }

theorem start_initial : start.Initial := ⟨{ identity }, 1, _, rfl, rfl⟩

/-- The host woke up. -/
def woken : Action := .observe ⟨1, reasonSleepWake, true, 1⟩ 1 1

/-- A flush: the observation that waits is taken and the replacer gives `result`. -/
def attempt (result : Except Err ReplacementResult) : List Action :=
  [.takePending true 1, .enter 0 1, .request 1 1 id, .answer result 1 1 1 id]

def replaced : Except Err ReplacementResult := .ok ⟨identity, 1, 1, true⟩

/-- The second report of the generation fails within the stability window of the first. -/
def stableTooLate : List Action :=
  woken :: attempt replaced ++ woken :: attempt (.error Sentinel.timeout.err) ++
    [.resetAfterStable (6 * second) (6 * second)]

end Demo

/-- In every run the reported active generation follows the latest one and never goes back,
and a call that returns for an older generation changes nothing. Where observations are
paced, a controller that reports ready is. -/
theorem recovery_health_honest {start s : System} (hinit : start.Initial)
    (hreach : Reach step Always start s) :
    s.controller.health.activeNetworkGeneration ≤ s.controller.latestGeneration ∧
    (∀ t, Reach step Always s t →
      s.controller.health.activeNetworkGeneration ≤ t.controller.health.activeNetworkGeneration) ∧
    (∀ r a t, s.step a = some t → s.current = some r → t.current = none →
      r.work.observation.generation < s.controller.latestGeneration →
      t.controller.latestGeneration = s.controller.latestGeneration ∧
      t.controller.activeGeneration = s.controller.activeGeneration ∧
      t.controller.health = s.controller.health) ∧
    (Reach step Paced start s → s.HonestReady) := by
  have hs := (hinit.bounded.reach hreach).1
  refine ⟨?_, fun t ht => ?_, fun r a t hst hcurrent hreturned hold => ?_, fun hpaced => ?_⟩
  · rw [hs.controller.reported]
    exact hs.controller.active
  · obtain ⟨ht', hle⟩ := hs.reach ht
    rw [hs.controller.reported, ht'.controller.reported]
    exact hle
  · rw [step_of_older hst hcurrent hreturned hold]
    exact ⟨rfl, rfl, rfl⟩
  · have hordered := hpaced.invariant hinit.ordered fun hs _ h => ordered_step hs h
    exact (tidy_of_reach hinit hpaced).honest hordered

/-- A stability window that began before a failure ends after it: the controller reports
ready, its retry is gone, and the last attempt failed. -/
theorem ready_after_failure :
    ∃ s, Demo.start.Initial ∧ Reach step Always Demo.start s ∧ ¬ s.HonestReady := by
  have hrun : (run step Demo.start Demo.stableTooLate).map (fun s =>
      (s.controller.health.state, s.lastFinished.map (·.outcome))) =
      some (.ready, some .transient) := by decide +kernel
  obtain ⟨s, hs, heq⟩ := Option.map_eq_some_iff.mp hrun
  obtain ⟨hready, hfailed⟩ := Prod.mk.inj heq
  refine ⟨s, Demo.start_initial, reach_of_run _ hs, fun hhonest => ?_⟩
  obtain ⟨f, hlast, hsuccess, -⟩ := hhonest hready
  rw [hlast, Option.map_some, hsuccess] at hfailed
  cases hfailed

theorem ready_after_replacement :
    ∃ s, runChecked step Paced Demo.start (Demo.woken :: Demo.attempt Demo.replaced) = some s ∧
      s.controller.health.state = .ready ∧ ∃ f, s.lastFinished = some f ∧ f.outcome = .succeeded := by
  have hrun : (runChecked step Paced Demo.start (Demo.woken :: Demo.attempt Demo.replaced)).map
      (·.controller.health.state) = some .ready := by decide +kernel
  obtain ⟨s, hs, hready⟩ := Option.map_eq_some_iff.mp hrun
  have hpaced := reach_of_runChecked _ hs
  obtain ⟨-, -, -, hhonest⟩ :=
    recovery_health_honest Demo.start_initial (hpaced.mono fun _ _ _ => trivial)
  obtain ⟨f, hlast, hsuccess, -⟩ := hhonest hpaced hready
  exact ⟨s, hs, hready, f, hlast, hsuccess⟩

end System

end Paperboat.NetworkRecovery
