import Paperboat.ConnectorProtocol.Connector

/-! What becomes of prepared configurations. The applier hands out handles, and
each is to be activated once or aborted. A handle is in one place at a time: with
the call that holds the apply lock, or staged in the session. Expiry closes the
session without looking at the staged handle, and `Close` returns early on a closed
session; so a handle that is staged when the session expires is lost. While no
check finds the session expired with a handle staged, none is. -/

namespace Paperboat.ConnectorProtocol

open Transition

namespace Connector

def Pristine (x : Connector) (h : Handle) : Prop := x.activations h = 0 ∧ x.aborts h = 0

/-- Activated exactly once and not aborted, or aborted. -/
def Settled (x : Connector) (h : Handle) : Prop :=
  (x.activations h = 1 ∧ x.aborts h = 0) ∨ 0 < x.aborts h

/-- No liveness check finds the session expired while a handle is staged. -/
def staysLive (x : Connector) (a : Action) : Bool :=
  x.session.prepared.isNone ||
    ((x.section? a).bind (·.clock)).all fun now => (x.session.expiry now).isNone

def StaysLive (x : Connector) (a : Action) : Prop := staysLive x a = true

instance (x : Connector) (a : Action) : Decidable (StaysLive x a) :=
  inferInstanceAs (Decidable (_ = _))

theorem StaysLive.expiry {x : Connector} {sec : ClientSession.Section} (h : StaysLive x a)
    (hp : x.session.prepared.isSome) (hsec : x.section? a = some sec)
    (hclock : sec.clock = some now) : x.session.expiry now = none := by
  rw [StaysLive, staysLive, hsec, Option.isNone_eq_false_iff.mpr hp] at h
  simpa [hclock] using h

/-! ### The ledger -/

section Ledger

variable (x : Connector) (h g : Handle)

theorem aborts_abort : (x.abort h).aborts g = if g = h then x.aborts h + 1 else x.aborts g := by
  simp [abort, Function.update_apply]

@[simp] theorem aborts_activate : (x.activate h).aborts = x.aborts := rfl

@[simp] theorem activations_abort : (x.abort h).activations = x.activations := rfl

theorem activations_activate :
    (x.activate h).activations g = if g = h then x.activations h + 1 else x.activations g := by
  simp [activate, Function.update_apply]

theorem settled_abort : (x.abort h).Settled h := by
  right
  rw [aborts_abort, if_pos rfl]
  exact Nat.succ_pos _

theorem Settled.abort {x : Connector} {g : Handle} (hs : x.Settled g) : (x.abort h).Settled g := by
  by_cases hg : g = h
  · subst hg; exact settled_abort x g
  · simpa [Settled, aborts_abort, hg] using hs

theorem Pristine.abort {x : Connector} {g : Handle} (hp : x.Pristine g) (hg : g ≠ h) :
    (x.abort h).Pristine g := by
  simpa [Pristine, aborts_abort, hg] using hp

end Ledger

/-- Where the handles are. -/
structure Linear (x : Connector) : Prop where
  unissued : ∀ h, x.issued ≤ h → x.Pristine h
  /-- A staged handle belongs to the candidate of a running session. -/
  running : x.session.prepared.isSome → x.session.running ∧ x.session.hasCandidate
  staged : ∀ h, x.session.prepared = some h → h < x.issued
  /-- Every handle is settled, staged, or with the call that prepared it. -/
  kept : ∀ h, h < x.issued → x.Settled h ∨ x.session.prepared = some h ∨
    ∃ change, x.holder = some (.prepared change h)
  /-- The state of the handle the holder of the lock works on. -/
  held : match x.holder with
    | none | some (.preparing _) => ∀ h, x.session.prepared = some h → x.Pristine h
    | some (.prepared _ h) => h < x.issued ∧ x.Pristine h ∧ x.session.prepared ≠ some h ∧
        ∀ g, x.session.prepared = some g → x.Pristine g
    | some (.activating a) => x.session.prepared = some a.prepared ∧
        x.session.candidate = a.candidate ∧ x.Pristine a.prepared
    | some (.activated a) => x.session.prepared = some a.prepared ∧
        x.session.candidate = a.candidate ∧ x.Settled a.prepared
    | some (.failed a) => x.session.prepared = some a.prepared ∧
        x.session.candidate = a.candidate ∧ x.Settled a.prepared

/-! ### Calls that leave the handles alone -/

/-- The staged handle and its candidate stay, and expiry spares them. -/
structure Calm (c d : ClientSession) : Prop where
  prepared : d.prepared = c.prepared
  candidate : d.candidate = c.candidate
  hasCandidate : d.hasCandidate = c.hasCandidate
  running : c.prepared.isSome → c.running → d.running

theorem Calm.refl (c : ClientSession) : Calm c c := ⟨rfl, rfl, rfl, fun _ h => h⟩

variable {c : ClientSession}

theorem calm_closedFor (h : c.prepared = none) :
    Calm c (c.closedFor reason) := ⟨rfl, rfl, rfl, fun hp => by simp [h] at hp⟩

theorem calm_stopped (h : ClientSession.Stopped c now d)
    (hlive : c.prepared.isSome → c.expiry now = none) : Calm c d := by
  rcases h with rfl | ⟨code, reason, -, hexp, rfl⟩
  · exact .refl d
  · refine calm_closedFor (Option.not_isSome_iff_eq_none.mp fun hp => ?_)
    rw [hlive hp] at hexp
    cases hexp

/-- The sections that stage, unstage or promote a candidate. -/
def restages : ClientSession.Section → Bool
  | .applyStage .. | .markReadyFailed .. | .markReadyFinish .. | .close _ => true
  | _ => false

theorem restoreState_calm (c : ClientSession) :
    c.restoreState.prepared = c.prepared ∧ c.restoreState.candidate = c.candidate ∧
      c.restoreState.hasCandidate = c.hasCandidate ∧ c.restoreState.running := by
  unfold ClientSession.restoreState
  split
  · exact ⟨rfl, rfl, rfl, rfl⟩
  split <;> exact ⟨rfl, rfl, rfl, rfl⟩

theorem calm_move {sec : ClientSession.Section} (hm : ClientSession.Move c sec d)
    (hsec : restages sec = false)
    (hlive : c.prepared.isSome → ∀ now, sec.clock = some now → c.expiry now = none) : Calm c d := by
  cases hm with
  | stage | unstage | promote | closed => cases hsec
  | idle => exact .refl c
  | expired now code reason hclock hrun hexp =>
    exact calm_stopped (.inr ⟨code, reason, hrun, hexp, rfl⟩) fun hp => hlive hp now hclock
  | rejectDrain =>
    obtain ⟨h1, h2, h3, h4⟩ := restoreState_calm _
    exact ⟨h1, h2, h3, fun _ _ => h4⟩
  | welcome | drain => exact ⟨rfl, rfl, rfl, fun _ _ => rfl⟩
  | gap | heartbeatAck | renew | countStreams | progress => exact ⟨rfl, rfl, rfl, fun _ h => h⟩

variable {rules : PayloadRules} {x y : Connector} {a : Action}

/-- The rule for steps that change the session calmly and nothing else of the handles. -/
theorem Linear.calm (h : Linear x) (hc : Calm x.session y.session) (hholder : y.holder = x.holder)
    (hissued : y.issued = x.issued) (hact : y.activations = x.activations)
    (habort : y.aborts = x.aborts) : Linear y := by
  have hpristine : ∀ {h}, x.Pristine h → y.Pristine h := by
    intro h hp
    rwa [Pristine, hact, habort]
  have hset : ∀ {h}, x.Settled h → y.Settled h := by
    intro h hs
    rwa [Settled, hact, habort]
  have hheld := h.held
  refine ⟨?_, ?_, ?_, ?_, ?_⟩
  · intro g hg
    exact hpristine (h.unissued g (hissued ▸ hg))
  · intro hp
    rw [hc.prepared] at hp
    rw [hc.hasCandidate]
    exact ⟨hc.running hp (h.running hp).1, (h.running hp).2⟩
  · intro g hg
    rw [hissued]
    exact h.staged g (hc.prepared ▸ hg)
  · intro g hg
    rw [hissued] at hg
    rw [hc.prepared, hholder]
    exact (h.kept g hg).imp_left hset
  · rw [hholder, hc.prepared, hc.candidate, hissued]
    split at hheld
    · exact fun g hg => hpristine (hheld g hg)
    · exact fun g hg => hpristine (hheld g hg)
    · exact ⟨hheld.1, hpristine hheld.2.1, hheld.2.2.1, fun g hg => hpristine (hheld.2.2.2 g hg)⟩
    · exact ⟨hheld.1, hheld.2.1, hpristine hheld.2.2⟩
    · exact ⟨hheld.1, hheld.2.1, hset hheld.2.2⟩
    · exact ⟨hheld.1, hheld.2.1, hset hheld.2.2⟩

/-! ### The calls that hold the lock -/

/-- No call has a handle of its own. -/
def idleHolder : Option Holder → Bool
  | none | some (.preparing _) => true
  | _ => false

section

variable (h : Linear x) (hi : idleHolder x.holder)

include h hi

theorem Linear.idle_held : ∀ g, x.session.prepared = some g → x.Pristine g := by
  have hheld := h.held
  unfold idleHolder at hi
  split at hi
  next heq => rw [heq] at hheld; exact hheld
  next heq => rw [heq] at hheld; exact hheld
  next => cases hi

theorem Linear.idle_kept {g : Handle} (hg : g < x.issued) :
    x.Settled g ∨ x.session.prepared = some g := by
  rcases h.kept g hg with hs | hs | ⟨change, hs⟩
  · exact .inl hs
  · exact .inr hs
  · rw [hs] at hi; cases hi

/-- The holder may change where no handle is with it. -/
theorem Linear.reholder {holder : Option Holder} (hi' : idleHolder holder) :
    Linear { x with holder := holder } := by
  have hheld := h.idle_held hi
  refine { h with kept := fun g hg => ?_, held := ?_ }
  · exact (h.idle_kept hi hg).imp_right .inl
  · unfold idleHolder at hi'
    split at hi'
    · exact hheld
    · exact hheld
    · cases hi'

/-- The applier returned a handle together with an error. -/
theorem Linear.discard : Linear ({ x with holder := none, issued := x.issued + 1 }.abort x.issued) := by
  have hold : ∀ {g}, g < x.issued → g ≠ x.issued := fun hg => hg.ne
  refine ⟨fun g hg => ?_, h.running, fun g hg => (h.staged g hg).trans (Nat.lt_succ_self _),
    fun g hg => ?_, fun g hg => ?_⟩
  · change x.issued + 1 ≤ g at hg
    have hne : g ≠ x.issued := by omega
    exact (h.unissued g (by omega)).abort _ hne
  · change g < x.issued + 1 at hg
    by_cases he : g = x.issued
    · subst he
      exact .inl (settled_abort _ _)
    · have hlt : g < x.issued := by omega
      exact (h.idle_kept hi hlt).imp (Settled.abort _) .inl
  · exact (h.idle_held hi g hg).abort _ (hold (h.staged g hg))

theorem Linear.take (change : Change) :
    Linear { x with holder := some (.prepared change x.issued), issued := x.issued + 1 } := by
  have hnew : x.session.prepared ≠ some x.issued := fun hp => (h.staged _ hp).false
  refine ⟨fun g hg => h.unissued g (by change x.issued + 1 ≤ g at hg; omega), h.running,
    fun g hg => (h.staged g hg).trans (Nat.lt_succ_self _), fun g hg => ?_,
    ⟨Nat.lt_succ_self _, h.unissued _ le_rfl, hnew, h.idle_held hi⟩⟩
  change g < x.issued + 1 at hg
  by_cases he : g = x.issued
  · subst he
    exact .inr (.inr ⟨change, rfl⟩)
  · have hlt : g < x.issued := by omega
    exact (h.idle_kept hi hlt).imp_right .inl

end

variable {change : Change} {handle : Handle}

/-- The new handle was not staged, and is aborted. -/
theorem Linear.drop (h : Linear x) (hh : x.holder = some (.prepared change handle)) :
    Linear ({ x with holder := none }.abort handle) := by
  have hheld := h.held
  rw [hh] at hheld
  obtain ⟨hlt, hp, hne, hrest⟩ := hheld
  refine ⟨fun g hg => ?_, h.running, h.staged, fun g hg => ?_, fun g hg => ?_⟩
  · have hne : g ≠ handle := (hlt.trans_le hg).ne'
    exact (h.unissued g hg).abort _ hne
  · by_cases he : g = handle
    · subst he
      exact .inl (settled_abort _ _)
    · rcases h.kept g hg with hs | hs | ⟨change', hs⟩
      · exact .inl (hs.abort _)
      · exact .inr (.inl hs)
      · rw [hh] at hs
        cases hs
        exact (he rfl).elim
  · refine (hrest g hg).abort _ ?_
    rintro rfl
    exact hne hg

theorem Linear.stage (h : Linear x) (hh : x.holder = some (.prepared change handle))
    (candidate : Snapshot) (needsSnapshot : Bool)
    (hfree : x.session.hasCandidate → x.session.prepared = none) :
    Linear { x with
      session := x.session.stagedFor candidate handle needsSnapshot, holder := none } := by
  have hheld := h.held
  rw [hh] at hheld
  obtain ⟨hlt, hp, -, -⟩ := hheld
  have hnone : x.session.prepared = none :=
    Option.not_isSome_iff_eq_none.mp fun hs => by
      have hn := hfree (h.running hs).2
      rw [hn] at hs
      cases hs
  refine ⟨h.unissued, fun _ => ⟨rfl, rfl⟩, fun g hg => ?_, fun g hg => ?_, fun g hg => ?_⟩
  · cases hg
    exact hlt
  · rcases h.kept g hg with hs | hs | ⟨change', hs⟩
    · exact .inl hs
    · rw [hnone] at hs
      cases hs
    · rw [hh] at hs
      cases hs
      exact .inr (.inl rfl)
  · cases hg
    exact hp

theorem Linear.activating (h : Linear x) (hi : idleHolder x.holder)
    {activation : ClientSession.Activation} (hprep : x.session.prepared = some activation.prepared)
    (hcand : activation.candidate = x.session.candidate) :
    Linear { x with holder := some (.activating activation) } :=
  { h with kept := fun _ hg => (h.idle_kept hi hg).imp_right .inl, held := ⟨hprep, hcand.symm, h.idle_held hi _ hprep⟩ }

variable {activation : ClientSession.Activation}

section

variable (h : Linear x)

include h

theorem Linear.activated (hh : x.holder = some (.activating activation)) :
    Linear ({ x with holder := some (.activated activation) }.activate activation.prepared) := by
  have hheld := h.held
  rw [hh] at hheld
  obtain ⟨hprep, hcand, hpristine⟩ := hheld
  have hlt := h.staged _ hprep
  have hset : Settled ({ x with holder := some (.activated activation) }.activate
      activation.prepared) activation.prepared := by
    left
    rw [activations_activate, if_pos rfl]
    exact ⟨congrArg (· + 1) hpristine.1, hpristine.2⟩
  refine ⟨fun g hg => ?_, h.running, h.staged, fun g hg => ?_, ⟨hprep, hcand, hset⟩⟩
  · have hne : g ≠ activation.prepared := (hlt.trans_le hg).ne'
    have hp := h.unissued g hg
    refine ⟨?_, hp.2⟩
    rw [activations_activate, if_neg hne]
    exact hp.1
  · by_cases he : g = activation.prepared
    · subst he
      exact .inl hset
    · rcases h.kept g hg with hs | hs | ⟨change', hs⟩
      · left
        simpa [Settled, activations_activate, he] using hs
      · exact .inr (.inl hs)
      · rw [hh] at hs
        cases hs

theorem Linear.failed (hh : x.holder = some (.activating activation)) :
    Linear ({ x with holder := some (.failed activation) }.abort activation.prepared) := by
  have hheld := h.held
  rw [hh] at hheld
  obtain ⟨hprep, hcand, -⟩ := hheld
  have hlt := h.staged _ hprep
  refine ⟨fun g hg => ?_, h.running, h.staged, fun g hg => ?_,
    ⟨hprep, hcand, settled_abort _ _⟩⟩
  · have hne : g ≠ activation.prepared := (hlt.trans_le hg).ne'
    exact (h.unissued g hg).abort _ hne
  · rcases h.kept g hg with hs | hs | ⟨change', hs⟩
    · exact .inl (hs.abort _)
    · exact .inr (.inl hs)
    · rw [hh] at hs
      cases hs

/-- The handle of the candidate is settled and leaves the session. -/
theorem Linear.unstaged
    (hheld : x.session.prepared = some activation.prepared ∧ x.Settled activation.prepared)
    (hholder : ∀ change g, x.holder ≠ some (.prepared change g)) (hc : c.prepared = none) :
    Linear { x with session := c, holder := none } := by
  refine ⟨h.unissued, fun hp => ?_, fun g hg => ?_, fun g hg => ?_, fun g hg => ?_⟩
  · rw [hc] at hp
    cases hp
  · rw [hc] at hg
    cases hg
  · rcases h.kept g hg with hs | hs | ⟨change', hs⟩
    · exact .inl hs
    · rw [hheld.1] at hs
      cases hs
      exact .inl hheld.2
    · exact (hholder _ _ hs).elim
  · rw [hc] at hg
    cases hg

/-- The staged handle is aborted by the close. -/
theorem Linear.closed (hi : x.holder = none) (hc : c.prepared = none)
    (hprep : x.session.prepared = some handle) : Linear ({ x with session := c }.abort handle) := by
  have hlt := h.staged _ hprep
  have hidle : idleHolder x.holder := by rw [hi]; rfl
  refine ⟨fun g hg => ?_, fun hp => ?_, fun g hg => ?_, fun g hg => ?_, ?_⟩
  · have hne : g ≠ handle := (hlt.trans_le hg).ne'
    exact (h.unissued g hg).abort _ hne
  · simp [abort, hc] at hp
  · simp [abort, hc] at hg
  · rcases h.idle_kept hidle hg with hs | hs
    · exact .inl (hs.abort _)
    · rw [hprep] at hs
      cases hs
      exact .inl (settled_abort _ _)
  · simp [abort, hi, hc]

/-- Without a staged handle the session is free to change. -/
theorem Linear.vacant (hi : x.holder = none) (hprep : x.session.prepared = none)
    (hc : c.prepared = none) : Linear { x with session := c } := by
  have hidle : idleHolder x.holder := by rw [hi]; rfl
  refine ⟨h.unissued, by simp [hc], by simp [hc], fun g hg => ?_, by simp [hi, hc]⟩
  rcases h.idle_kept hidle hg with hs | hs
  · exact .inl hs
  · rw [hprep] at hs
    cases hs

theorem Linear.close (hst : x.step rules (.close reason) = some y) :
    Linear y ∧ y.holder = none ∧ y.session.prepared = none := by
  simp only [Connector.step] at hst
  split at hst
  · cases hst
  next hh =>
    have hnone := Option.not_isSome_iff_eq_none.mp hh
    by_cases hclosed : x.session.state = .closed
    · have hprep : x.session.prepared = none :=
        Option.not_isSome_iff_eq_none.mp fun hp => by
          have hrun := (h.running hp).1
          simp [ClientSession.running, hclosed] at hrun
      rw [ClientSession.close, if_pos hclosed] at hst
      cases hst
      exact ⟨h, hnone, hprep⟩
    · rw [ClientSession.close, if_neg hclosed] at hst
      cases hprep : x.session.prepared with
      | none =>
        rw [hprep] at hst
        cases hst
        exact ⟨h.vacant hnone hprep rfl, hnone, rfl⟩
      | some handle =>
        rw [hprep] at hst
        cases hst
        exact ⟨h.closed hnone rfl hprep, hnone, rfl⟩

omit h in
theorem holds_self (h : c.hasCandidate) : c.holds c.candidate := by
  simp [ClientSession.holds, h]

theorem Linear.step (hok : StaysLive x a) (hst : x.step rules a = some y) : Linear y := by
  have hstep := hst
  have hcalm : (∀ sec, x.section? a = some sec → restages sec = false) →
      Calm x.session y.session := by
    intro hr
    rcases session_step hst with ⟨_, he⟩ | ⟨sec, hsec, he⟩
    · rw [he]; exact .refl _
    · rw [he]
      exact calm_move (ClientSession.move_after rules x.session sec) (hr sec hsec)
        fun hp now hclock => hok.expiry hp hsec hclock
  cases a <;> simp only [Connector.step] at hst
  case call sec =>
    split at hst <;> cases hst
    next hsingle =>
      have hr : restages sec = false := by cases sec <;> first | rfl | cases hsingle
      exact h.calm (hcalm fun _ hs => by cases hs; exact hr) rfl rfl rfl rfl
  case apply now change =>
    have hc := hcalm fun _ hs => by cases hs; rfl
    split at hst
    · cases hst
    next hh =>
      have hnone := Option.not_isSome_iff_eq_none.mp hh
      split at hst <;> cases hst
      · exact h.calm hc rfl rfl rfl rfl
      next c _ =>
        have hl : Linear { x with session := c } := h.calm hc rfl rfl rfl rfl
        exact hl.reholder (by rw [hnone]; rfl) rfl
  case cancelApply =>
    split at hst <;> cases hst
    next hh => exact h.reholder (by rw [hh]; rfl) rfl
  case prepare returned failed =>
    split at hst
    next change hh =>
      have hi : idleHolder x.holder := by rw [hh]; rfl
      split at hst
      · cases hst
        exact h.reholder hi rfl
      split at hst <;> cases hst
      · exact h.discard hi
      · exact h.take hi change
    next => cases hst
  case stage now =>
    split at hst
    next change handle hh =>
      have hsec : x.section? (.stage now) = some (.applyStage now handle change) := by
        rw [section?, hh]
      rcases ClientSession.applyStage_cases x.session now handle change with
        ⟨err, he, hstop⟩ | ⟨ack, candidate, needs, -, hfree, heq⟩
      · have hc := calm_stopped hstop fun hp => hok.expiry hp hsec rfl
        generalize x.session.applyStage now handle change = result at hst he hc
        obtain ⟨r, c⟩ := result
        cases he
        cases hst
        have hl : Linear { x with session := c } := h.calm hc rfl rfl rfl rfl
        exact hl.drop hh
      · rw [heq] at hst
        cases hst
        exact h.stage hh candidate needs hfree
    next => cases hst
  case markReady cancelled now edgeReady routeReady originReady =>
    have hc := hcalm fun _ hs => by cases hs; rfl
    split at hst
    · cases hst
    next hh =>
      have hi : idleHolder x.holder := by rw [Option.not_isSome_iff_eq_none.mp hh]; rfl
      rcases ClientSession.markReadyCheck_cases x.session cancelled now edgeReady routeReady
        originReady with ⟨err, he, -⟩ | ⟨activation, -, -, hprep, hcand, heq⟩
      · generalize x.session.markReadyCheck cancelled now edgeReady routeReady originReady =
          result at hst he
        obtain ⟨r, c⟩ := result
        cases he
        cases hst
        exact h.calm hc rfl rfl rfl rfl
      · rw [heq] at hst
        cases hst
        exact h.activating hi hprep hcand
  case activate success =>
    split at hst
    next activation hh =>
      split at hst <;> cases hst
      · exact h.activated hh
      · exact h.failed hh
    next => cases hst
  case activateFailed cancelled =>
    split at hst <;> cases hst
    next activation hh =>
      have hheld := h.held
      rw [hh] at hheld
      obtain ⟨hprep, hcand, hset⟩ := hheld
      have hcandidate := (h.running (by rw [hprep]; rfl)).2
      refine h.unstaged ⟨hprep, hset⟩ (by simp [hh]) ?_
      rw [ClientSession.markReadyFailed, ← hcand, if_pos (holds_self hcandidate)]
      exact (restoreState_calm _).1
  case activateDone now =>
    have hlive : x.session.prepared.isSome → ∀ activation,
        x.holder = some (.activated activation) → x.session.expiry now = none := by
      intro hp activation hh
      exact hok.expiry hp (by rw [section?, hh]) rfl
    split at hst <;> cases hst
    next activation hh =>
      have hheld := h.held
      rw [hh] at hheld
      obtain ⟨hprep, hcand, hset⟩ := hheld
      have hsome : x.session.prepared.isSome := by rw [hprep]; rfl
      obtain ⟨hrun, hcandidate⟩ := h.running hsome
      refine h.unstaged ⟨hprep, hset⟩ (by simp [hh]) ?_
      rw [ClientSession.markReadyFinish,
        ClientSession.ensureActive_of_live hrun (hlive hsome activation hh), ← hcand]
      simp [holds_self hcandidate]
  case handleDrain cancelled now request =>
    have hc := hcalm fun _ hs => by cases hs; rfl
    split at hst <;> cases hst <;> exact h.calm hc rfl rfl rfl rfl
  case drainReject | drainFinish =>
    have hc := hcalm fun sec hs => by
      obtain ⟨_, _, rfl⟩ := Option.map_eq_some_iff.mp hs
      rfl
    obtain ⟨request, hd, rfl⟩ := Option.map_eq_some_iff.mp hst
    exact h.calm hc rfl rfl rfl rfl
  case close reason => exact (h.close hstep).1

end

theorem linear_reach (h₀ : Linear x₀) (h : Reach (step rules) StaysLive x₀ x) : Linear x :=
  h.invariant h₀ fun hx hok hst => hx.step hok hst

/-- Prepared configurations are linear: in every run in which no liveness check finds
the session expired while a handle is staged, every handle the applier returned has,
once a final `Close` has returned, been activated exactly once and not aborted, or
been aborted. -/
theorem prepared_linear {now : Time} {hello : Hello} {c₀ : ClientSession}
    {reason : DisconnectReason} (h₀ : ClientSession.new now hello = .ok c₀)
    (h : Reach (step rules) StaysLive { session := c₀ } x)
    (hclose : x.step rules (.close reason) = some y) : ∀ g, g < y.issued → y.Settled g := by
  have hnew : Linear { session := c₀ } := by
    simp only [ClientSession.new, bind, Except.bind] at h₀
    split at h₀ <;> cases h₀
    exact ⟨fun _ _ => ⟨rfl, rfl⟩, by simp, by simp, by simp, by simp⟩
  obtain ⟨hl, hholder, hprep⟩ := (linear_reach hnew h).close hclose
  intro g hg
  have hidle : idleHolder y.holder := by rw [hholder]; rfl
  rcases hl.idle_kept hidle hg with hs | hs
  · exact hs
  · rw [hprep] at hs
    cases hs

namespace Demo

instance (x : Connector) (h : Handle) : Decidable (x.Settled h) :=
  inferInstanceAs (Decidable (_ ∨ _))

/-- A check at the end of the lease finds the session expired with a handle staged. -/
def expiring : List Action :=
  opening ++ staging 1 ++ [.call (.checkLease (46 * second))]

theorem expiring_loses :
    (newSession.toOption.bind fun c => (run (step payloadRules) { session := c } expiring).bind
      fun x => (x.step payloadRules (.close .serverShutdown)).map fun y =>
        decide (0 < y.issued ∧ ¬ y.Settled 0)) = some true := by
  decide +kernel

/-- Not every run settles its handles: the one staged at expiry is neither activated
nor aborted. -/
theorem prepared_lost :
    ¬ ∀ (rules : PayloadRules) now hello c₀ (x y : Connector) reason,
      ClientSession.new now hello = .ok c₀ → Reach (step rules) Always { session := c₀ } x →
        x.step rules (.close reason) = some y → ∀ g, g < y.issued → y.Settled g := by
  intro h
  obtain ⟨c₀, hnew, hrun⟩ := Option.bind_eq_some_iff.mp expiring_loses
  obtain ⟨x, hx, hclose⟩ := Option.bind_eq_some_iff.mp hrun
  obtain ⟨y, hy, hlost⟩ := Option.map_eq_some_iff.mp hclose
  rw [decide_eq_true_eq] at hlost
  exact hlost.2 (h _ _ _ c₀ x y _ (Server.eq_ok_of_toOption hnew) (reach_of_run _ hx) hy 0 hlost.1)

/-- One configuration is activated, a second one is staged when the session closes. -/
def replacing : List Action := opening ++ staging 1 ++ promoting ++ staging 2

theorem replacing_runs :
    (newSession.toOption.bind fun c =>
      (runChecked (step payloadRules) StaysLive { session := c } replacing).bind fun x =>
        (x.step payloadRules (.close .serverShutdown)).map fun y => y.issued) = some 2 := by
  decide +kernel

theorem prepared_linear_replacing :
    ∃ c₀ x y, runChecked (step payloadRules) StaysLive { session := c₀ } replacing = some x ∧
      x.step payloadRules (.close .serverShutdown) = some y ∧ y.Settled 0 ∧ y.Settled 1 := by
  obtain ⟨c₀, hnew, hrun⟩ := Option.bind_eq_some_iff.mp replacing_runs
  obtain ⟨x, hx, hclose⟩ := Option.bind_eq_some_iff.mp hrun
  obtain ⟨y, hy, hissued⟩ := Option.map_eq_some_iff.mp hclose
  have hall := prepared_linear (Server.eq_ok_of_toOption hnew) (reach_of_runChecked _ hx) hy
  rw [hissued] at hall
  exact ⟨c₀, x, y, hx, hy, hall 0 (by decide), hall 1 (by decide)⟩

end Demo

end Connector

end Paperboat.ConnectorProtocol
