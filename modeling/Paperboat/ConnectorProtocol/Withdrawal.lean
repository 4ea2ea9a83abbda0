import Paperboat.ConnectorProtocol.ActiveGeneration

/-! Readiness withdrawn by a heartbeat. A heartbeat that reports another
configuration than the active one withdraws the session's readiness until a full
snapshot is promoted. `HandleReadiness` does not know of this: a report that names
the generation still active, or one staged before, makes the session ready again.
While no report names a generation the session already knew at the mismatch,
readiness comes back only through a snapshot offered afterwards. -/

namespace Paperboat.ConnectorProtocol

open Transition

namespace ServerSession

/-- The history of a session since the last mismatch. -/
structure Watch where
  /-- Readiness was withdrawn and no later snapshot was promoted. -/
  withdrawn : Bool := false
  /-- The generations that were active, staged or on offer at the mismatch. -/
  known : List UInt64 := []
  /-- The pending snapshot was offered after the mismatch. -/
  offered : Bool := false
  /-- The candidate is such a snapshot, acknowledged. -/
  acknowledged : Bool := false

def generations (s : ServerSession) : List UInt64 :=
  (if s.hasActive then [s.active.generation] else []) ++
    (if s.hasCandidate then [s.candidate.generation] else []) ++
    (s.pendingSnapshot.map (·.generation)).toList ++ (s.pendingDelta.map (·.generation)).toList

/-- `HandleHeartbeat` answers that the report differs from the active configuration. -/
def withdraws (config : ServerConfig) (s : ServerSession) (e : Event) (heartbeat : Heartbeat) : Bool :=
  match (handleHeartbeat config s e.registry e.now heartbeat).result with
  | .error err => s.hasActive && err.code == .snapshotRequired
  | .ok _ => false

def Watch.observe (config : ServerConfig) (s : ServerSession) (w : Watch) (e : Event) : Watch :=
  match e.op with
  | .call (.handleHeartbeat heartbeat) =>
    if withdraws config s e heartbeat then { withdrawn := true, known := s.generations } else w
  | .call (.offerSnapshot _) =>
    { w with offered := w.offered || (next config s e).pendingSnapshot != s.pendingSnapshot }
  | .call (.handleAck ack) =>
    match (s.handleAck e.registry e.now ack).result with
    | .error _ => w
    | .ok () =>
      if s.pendingSnapshot.isSome then { w with acknowledged := w.offered }
      else if s.pendingDelta.isSome then { w with acknowledged := false }
      else w
  | .call (.handleReadiness _) =>
    -- A candidate leaves its place only by promotion.
    if s.hasCandidate && !(next config s e).hasCandidate && w.acknowledged then
      { w with withdrawn := false }
    else w
  | _ => w

/-- A session and its history. -/
structure Watched where
  session : ServerSession
  watch : Watch := {}

def Watched.step (config : ServerConfig) (x : Watched) (e : Event) : Option Watched :=
  some ⟨next config x.session e, x.watch.observe config x.session e⟩

/-- Once readiness is withdrawn, no report names a generation known before. -/
def namesFresh (x : Watched) (e : Event) : Bool :=
  match e.op with
  | .call (.handleReadiness readiness) =>
    !x.watch.withdrawn || !x.watch.known.contains readiness.generation
  | _ => true

def NamesFresh (x : Watched) (e : Event) : Prop := namesFresh x e = true

instance (x : Watched) (e : Event) : Decidable (NamesFresh x e) :=
  inferInstanceAs (Decidable (_ = _))

/-! ### Heartbeats -/

variable {config : ServerConfig} {s t : ServerSession} {r : SessionRegistry} {now : Time}
  {err : Error} {heartbeat : Heartbeat} {e : Event} {w : Watch}

theorem ensureActive_code (h : (s.ensureActive r now).1 = some err) : err.code ≠ .snapshotRequired := by
  unfold ensureActive at h
  split_ifs at h <;> cases h <;> simp [codeError]

theorem heartbeat_validate_code
    (h : heartbeat.validate = .error err) : err.code ≠ .snapshotRequired := by
  unfold Heartbeat.validate at h
  split at h <;> cases h
  simp [Error.bare]

/-- With an active configuration, this answer is given for a mismatch only. -/
theorem handleHeartbeat_snapshotRequired
    (hact : s.hasActive) (hcode : err.code = .snapshotRequired)
    (h : (handleHeartbeat config s r now heartbeat).result = .error err) :
    (handleHeartbeat config s r now heartbeat).session = { s with
      needsSnapshot := true, readyGeneration := 0, state := .awaitingSnapshot } := by
  have hensure : ∀ err', (s.ensureActive r now).1 = some err' → err'.code ≠ .snapshotRequired :=
    fun _ => ensureActive_code
  have htgt : s.heartbeatTarget = some s.active := if_pos hact
  unfold handleHeartbeat guarded at h ⊢
  simp only [htgt] at h ⊢
  split at h
  next hv =>
    cases h
    exact (heartbeat_validate_code hv hcode).elim
  split at h
  next heq =>
    cases h
    rw [heq] at hensure
    exact (hensure _ rfl hcode).elim
  next heq =>
    split_ifs at h ⊢ <;> cases h <;> first | rfl | cases hcode

theorem next_of_withdraws
    (hop : e.op = .call (.handleHeartbeat heartbeat)) (h : withdraws config s e heartbeat) :
    s.hasActive ∧ next config s e = { s with
      needsSnapshot := true, readyGeneration := 0, state := .awaitingSnapshot } := by
  unfold withdraws at h
  split at h
  next err herr =>
    simp only [Bool.and_eq_true, beq_iff_eq] at h
    refine ⟨h.1, ?_⟩
    rw [next, hop]
    exact handleHeartbeat_snapshotRequired h.1 h.2 herr
  next => cases h

/-! ### What holds until the promotion -/

/-- No generation in the session is zero. -/
structure Numbered (s : ServerSession) : Prop where
  active : s.hasActive → s.active.generation ≠ 0
  candidate : s.hasCandidate → s.candidate.generation ≠ 0
  pendingSnapshot : ∀ p ∈ s.pendingSnapshot, p.generation ≠ 0

theorem Numbered.keep (h : Numbered s) (hk : Keeps s t) : Numbered t where
  active := by rw [hk.hasActive, hk.active]; exact h.active
  candidate := by rw [hk.hasCandidate, hk.candidate]; exact h.candidate
  pendingSnapshot := hk.snapshot h.pendingSnapshot

theorem keeps_stageSnapshot (s : ServerSession) (snapshot : Snapshot) :
    Keeps { s with pendingDelta := none, pendingSnapshot := some (s.bindSnapshot snapshot) }
      (s.stageSnapshot snapshot) := by
  unfold stageSnapshot
  split <;> exact ⟨rfl, rfl, rfl, rfl, .inl rfl, .inl rfl⟩

theorem Numbered.move (h : Numbered s) (hm : Move config s r now op t) : Numbered t := by
  cases hm with
  | idle => exact h
  | closed reason => exact h.keep (keeps_closedFor s reason)
  | offer _ hgen =>
    refine Numbered.keep ?_ (keeps_stageSnapshot s _)
    refine ⟨h.active, h.candidate, ?_⟩
    intro p hp
    obtain rfl := Option.mem_some_iff.mp hp
    exact hgen
  | refuseSnapshot =>
    refine Numbered.keep ?_ (keeps_restoreState _)
    exact { h with pendingSnapshot := by simp }
  | applySnapshot pending _ hp =>
    refine Numbered.keep ?_ (keeps_awaitReady _)
    exact ⟨h.active, fun _ => h.pendingSnapshot pending hp, by simp⟩
  -- A delta may have wrapped around to zero, an acknowledged one has not.
  | applyDelta _ _ _ _ hgen =>
    refine Numbered.keep ?_ (keeps_awaitReady _)
    exact ⟨h.active, fun _ => hgen, h.pendingSnapshot⟩
  | ready =>
    unfold promoted
    split
    next hc => exact ⟨fun _ => h.candidate hc, by simp, h.pendingSnapshot⟩
    next => exact { h with }
  | refuseDelta | drainRejected =>
    refine Numbered.keep ?_ (keeps_restoreState _)
    exact { h with }
  | offerDelta | dropDelta | mismatch | heartbeat | drain | drainAck | renew =>
    exact { h with }

/-- While readiness is withdrawn, every configuration of the session was known
at the mismatch, except for a snapshot offered afterwards and its candidate. -/
structure Held (s : ServerSession) (w : Watch) : Prop where
  ready : s.readyGeneration = 0
  hasActive : s.hasActive
  active : s.active.generation ∈ w.known
  candidate : s.hasCandidate → w.acknowledged ∨ s.candidate.generation ∈ w.known
  pendingSnapshot : ∀ p ∈ s.pendingSnapshot, w.offered ∨ p.generation ∈ w.known
  pendingDelta : ∀ d ∈ s.pendingDelta, d.generation ∈ w.known

theorem Held.keep (h : Held s w) (hk : Keeps s t) (hready : t.readyGeneration = 0) :
    Held t w where
  ready := hready
  hasActive := by rw [hk.hasActive]; exact h.hasActive
  active := by rw [hk.active]; exact h.active
  candidate := by rw [hk.hasCandidate, hk.candidate]; exact h.candidate
  pendingSnapshot := hk.snapshot h.pendingSnapshot
  pendingDelta := hk.delta h.pendingDelta

theorem held_of_withdraws
    (hop : e.op = .call (.handleHeartbeat heartbeat)) (h : withdraws config s e heartbeat) :
    Held (next config s e) { withdrawn := true, known := s.generations } := by
  obtain ⟨hact, hnext⟩ := next_of_withdraws hop h
  rw [hnext]
  refine ⟨rfl, hact, ?_, fun hc => .inr ?_, fun p hp => .inr ?_, fun d hd => ?_⟩
  · simp [generations, hact]
  · simp only at hc
    simp [generations, hc]
  · simp only [Option.mem_def] at hp
    simp [generations, hp]
  · simp only [Option.mem_def] at hd
    simp [generations, hd]

/-- The session that is not ready says so. -/
theorem Held.not_ready (h : Held s w) (hn : Numbered s) : s.current.2.1 = false := by
  have hne : (0 == s.active.generation) = false := by
    simpa using (hn.active h.hasActive).symm
  simp [current, h.hasActive, h.ready, hne]

theorem Held.offer (h : Held s w) (hop : e.op = .call (.offerSnapshot snapshot)) :
    Held (next config s e) (w.observe config s e) := by
  have hm := move_next config s e
  rw [hop] at hm
  have hpend : ∀ p ∈ (next config s e).pendingSnapshot,
      (w.observe config s e).offered ∨ p.generation ∈ w.known := by
    intro p hp
    simp only [Watch.observe, hop, Bool.or_eq_true, bne_iff_ne, ne_eq]
    by_cases hsame : (next config s e).pendingSnapshot = s.pendingSnapshot
    · rw [hsame] at hp
      exact (h.pendingSnapshot p hp).imp_left .inl
    · exact .inl (.inr hsame)
  have hw : (w.observe config s e).known = w.known ∧
      (w.observe config s e).acknowledged = w.acknowledged := by
    simp [Watch.observe, hop]
  suffices hrest : Held { next config s e with pendingSnapshot := none } w by
    refine ⟨hrest.ready, hrest.hasActive, ?_, ?_, ?_, ?_⟩
    · rw [hw.1]; exact hrest.active
    · rw [hw.1, hw.2]; exact hrest.candidate
    · rw [hw.1]; exact hpend
    · rw [hw.1]; exact hrest.pendingDelta
  generalize next config s e = t at hm
  cases hm with
  | idle => exact { h with pendingSnapshot := by simp }
  | closed => exact { h with pendingSnapshot := by simp }
  | offer =>
    unfold stageSnapshot
    rw [if_pos h.hasActive]
    exact { h with pendingSnapshot := by simp, pendingDelta := by simp }

theorem Held.ack {ack : Ack} (h : Held s w)
    (hop : e.op = .call (.handleAck ack)) : Held (next config s e) (w.observe config s e) := by
  have hout : AckOutcome s (s.handleAck e.registry e.now ack).result (next config s e) := by
    rw [next, hop]
    exact ackOutcome_handleAck e.registry e.now ack
  simp only [Watch.observe, hop]
  generalize (s.handleAck e.registry e.now ack).result = result at hout
  generalize next config s e = t at hout
  cases hout with
  | failed hkeep hready => exact h.keep hkeep (hready.trans h.ready)
  | snapshot p hp =>
    simp only [hp, Option.isSome_some, if_true]
    refine Held.keep ?_ (keeps_awaitReady _) ((awaitReady_readyGeneration _).trans h.ready)
    exact { h with candidate := fun _ => h.pendingSnapshot p hp, pendingSnapshot := by simp }
  | delta d hs hd =>
    simp only [hs, hd, Option.isSome_none, Option.isSome_some, if_true]
    refine Held.keep ?_ (keeps_awaitReady _) ((awaitReady_readyGeneration _).trans h.ready)
    exact ⟨h.ready, h.hasActive, h.active, fun _ => .inr (h.pendingDelta d hd), by simp,
      by simp⟩
  | repeated hs hd =>
    simp only [hs, hd, Option.isSome_none]
    exact h

/-- Only a candidate that came from a snapshot offered afterwards can be named. -/
theorem Held.report {readiness : Readiness} (h : Held s w)
    (hop : e.op = .call (.handleReadiness readiness)) (hfresh : readiness.generation ∉ w.known)
    (hw : (w.observe config s e).withdrawn) : Held (next config s e) (w.observe config s e) := by
  have hm := move_next config s e
  rw [hop] at hm
  simp only [Watch.observe, hop] at hw ⊢
  generalize next config s e = t at hm hw
  cases hm with
  | idle =>
    rw [if_neg (by simp)]
    exact h
  | closed =>
    rw [if_neg (by simp [closedFor])]
    exact { h with }
  | ready target _ htgt hgen =>
    exfalso
    unfold readinessTarget at htgt
    split at htgt
    next hc =>
      cases htgt
      rcases h.candidate hc with hack | hknown
      · simp [hc, hack, promoted] at hw
      · exact hfresh (hgen ▸ hknown)
    next hc =>
      rw [if_pos h.hasActive] at htgt
      cases htgt
      exact hfresh (hgen ▸ h.active)

/-- The operations that stage, acknowledge and promote nothing. -/
def quiet : Operation → Bool
  | .call (.offerSnapshot _) | .call (.handleAck _) | .call (.handleReadiness _) => false
  | _ => true

theorem Held.quiet (h : Held s w) (hn : Numbered s) (hop : quiet op) (hm : Move config s r now op t) :
    Held t w := by
  cases hm with
  | offer | refuseSnapshot | applySnapshot | refuseDelta | dropDelta | applyDelta | ready =>
    cases hop
  | offerDelta _ hact hready =>
    rw [h.ready] at hready
    exact (hn.active hact hready.symm).elim
  | idle => exact h
  | mismatch =>
    exact { h with ready := rfl }
  | drainRejected =>
    refine Held.keep ?_ (keeps_restoreState _) ((restoreState_readyGeneration _).trans h.ready)
    exact { h with }
  | closed | heartbeat | drain | drainAck | renew =>
    exact { h with }

/-- Only a mismatch begins a withdrawal. -/
theorem observe_withdrawn (h : (w.observe config s e).withdrawn) :
    w.withdrawn ∨ ∃ heartbeat, e.op = .call (.handleHeartbeat heartbeat) ∧
      withdraws config s e heartbeat := by
  unfold Watch.observe at h
  split at h
  next heartbeat hop =>
    split at h
    next hwith => exact .inr ⟨heartbeat, hop, hwith⟩
    next => exact .inl h
  · exact .inl h
  · split at h
    · exact .inl h
    · split_ifs at h <;> exact .inl h
  · split at h
    · cases h
    · exact .inl h
  · exact .inl h

theorem observe_quiet (hop : quiet e.op)
    (hwith : ∀ heartbeat, e.op = .call (.handleHeartbeat heartbeat) →
      ¬ withdraws config s e heartbeat) : w.observe config s e = w := by
  unfold Watch.observe
  split
  next heartbeat heq => exact if_neg (hwith heartbeat heq)
  next heq => rw [heq] at hop; cases hop
  next heq => rw [heq] at hop; cases hop
  next heq => rw [heq] at hop; cases hop
  next => rfl

/-- The invariant of a watched session. -/
structure Sound (x : Watched) : Prop where
  numbered : Numbered x.session
  held : x.watch.withdrawn → Held x.session x.watch

theorem Sound.step (h : Sound x) (hok : NamesFresh x e)
    (hst : x.step config e = some y) : Sound y := by
  cases hst
  refine ⟨h.numbered.move (move_next config x.session e), fun hw => ?_⟩
  by_cases hmismatch : ∃ heartbeat, e.op = .call (.handleHeartbeat heartbeat) ∧
      withdraws config x.session e heartbeat
  · obtain ⟨heartbeat, hop, hwith⟩ := hmismatch
    have hobserve : x.watch.observe config x.session e =
        { withdrawn := true, known := x.session.generations } := by
      simp [Watch.observe, hop, hwith]
    rw [hobserve]
    exact held_of_withdraws hop hwith
  have hold := (observe_withdrawn hw).resolve_right hmismatch
  have hheld := h.held hold
  by_cases hquiet : quiet e.op
  · have hobserve : x.watch.observe config x.session e = x.watch :=
      observe_quiet hquiet fun heartbeat hop hwith => hmismatch ⟨heartbeat, hop, hwith⟩
    rw [hobserve]
    exact hheld.quiet h.numbered hquiet (move_next config x.session e)
  · unfold quiet at hquiet
    split at hquiet
    next hop => exact hheld.offer hop
    next hop => exact hheld.ack hop
    next hop =>
      refine hheld.report hop ?_ hw
      simpa [NamesFresh, namesFresh, hop, hold] using hok
    next => exact (hquiet rfl).elim

/-- In every run in which no readiness report names a generation that the session
knew when its readiness was withdrawn, the session reports not ready until a
snapshot offered after the withdrawal was acknowledged and promoted. -/
theorem readiness_stays_withdrawn {server : Server} {now : Time} {hello : Hello}
    {authenticated : Option AuthResult} {source : Option Snapshot} {drawn : Option String}
    {s₀ : ServerSession} {welcome : Welcome} {x : Watched}
    (h₀ : server.openSession now hello authenticated source drawn = .ok (s₀, welcome))
    (h : Reach (Watched.step server.toServerConfig) NamesFresh ⟨s₀, {}⟩ x)
    (hw : x.watch.withdrawn) : x.session.current.2.1 = false := by
  obtain ⟨snapshot, hgen, hs₀⟩ := (Server.admitted_of_ok h₀).1.fresh
  have hsound : Sound x := by
    refine h.invariant ⟨?_, by simp⟩ fun hx hok hst => hx.step hok hst
    rw [hs₀]
    refine ⟨by simp [accept], by simp [accept], ?_⟩
    intro p hp
    obtain rfl := Option.mem_some_iff.mp hp
    exact hgen
  exact (hsound.held hw).not_ready hsound.numbered

namespace Demo

/-- The connector reports generation 2 while 1 is active. -/
def otherReport : Event :=
  event (call (.handleHeartbeat ⟨"account_1", "sess_1", "tunnel_1", "connector_1", 1, 2, hash 2,
    second⟩))

/-- After the mismatch the connector reports the active generation ready once more. -/
def comeback : List Event := [event (ack 1), event (ready 1), otherReport, event (ready 1)]

/-- The admitted session after some events. -/
def watched (events : List Event) : Option Watched :=
  Server.Demo.admission.toOption.bind fun p =>
    run (Watched.step Server.Demo.server.toServerConfig) ⟨p.1, {}⟩ events

theorem comeback_ready :
    ((watched comeback).map fun x => x.watch.withdrawn && x.session.current.2.1) = some true := by
  decide +kernel

/-- Withdrawn readiness does not stay withdrawn in every run: no snapshot is
offered here, and the session is ready again. -/
theorem readiness_comes_back :
    ¬ ∀ (server : Server) now hello authenticated source drawn s₀ welcome x,
      server.openSession now hello authenticated source drawn = .ok (s₀, welcome) →
      Reach (Watched.step server.toServerConfig) Always ⟨s₀, {}⟩ x →
        x.watch.withdrawn → x.session.current.2.1 = false := by
  intro h
  obtain ⟨x, hx, hready⟩ := Option.map_eq_some_iff.mp comeback_ready
  obtain ⟨⟨s₀, welcome⟩, hadmit, hrun⟩ := Option.bind_eq_some_iff.mp hx
  rw [Bool.and_eq_true] at hready
  have hfalse := h Server.Demo.server _ _ _ _ _ s₀ welcome x (Server.eq_ok_of_toOption hadmit)
    (reach_of_run comeback hrun) hready.1
  rw [hready.2] at hfalse
  cases hfalse

/-- A snapshot offered after the mismatch and acknowledged, not yet promoted. -/
def recovering : List Event :=
  [event (ack 1), event (ready 1), otherReport, event (offer 2), event (ack 2)]

theorem recovering_withdrawn :
    ((Server.Demo.admission.toOption.bind fun p =>
      runChecked (Watched.step Server.Demo.server.toServerConfig) NamesFresh ⟨p.1, {}⟩
        recovering).map fun x => x.watch.withdrawn) = some true := by
  decide +kernel

theorem readiness_stays_withdrawn_recovering :
    ∃ x s₀, runChecked (Watched.step Server.Demo.server.toServerConfig) NamesFresh ⟨s₀, {}⟩
      recovering = some x ∧ x.session.current.2.1 = false := by
  obtain ⟨x, hx, hw⟩ := Option.map_eq_some_iff.mp recovering_withdrawn
  obtain ⟨⟨s₀, welcome⟩, hadmit, hrun⟩ := Option.bind_eq_some_iff.mp hx
  exact ⟨x, s₀, hrun, readiness_stays_withdrawn (Server.eq_ok_of_toOption hadmit)
    (reach_of_runChecked recovering hrun) hw⟩

end Demo

end ServerSession

end Paperboat.ConnectorProtocol
