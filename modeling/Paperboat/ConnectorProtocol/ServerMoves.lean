import Paperboat.ConnectorProtocol.Server

/-! What one operation can do to a server session. Every invariant of a session
is proved once for each of these moves, never by opening a handler again. -/

namespace Paperboat.ConnectorProtocol

namespace ServerSession

/-- The liveness check lets the session go on. -/
def Passes (s : ServerSession) (r : SessionRegistry) (now : Time) : Prop :=
  (s.ensureActive r now).1 = none

instance (s : ServerSession) (r : SessionRegistry) (now : Time) : Decidable (s.Passes r now) :=
  inferInstanceAs (Decidable (_ = none))

def closedFor (s : ServerSession) (reason : DisconnectReason) : ServerSession :=
  { s with state := .closed, disconnectReason := some reason }

/-- A session that serves a ready generation keeps its state while a candidate
waits for readiness. -/
def awaitReady (s : ServerSession) : ServerSession :=
  if s.hasActive && s.readyGeneration == s.active.generation then s
  else { s with state := .awaitingReady }

def deltaCandidate (s : ServerSession) (delta : Delta) : Snapshot :=
  { accountID := s.auth.accountID, tunnelID := delta.tunnelID, connectorID := s.ref.connectorID,
    sessionID := s.ref.sessionID, processGeneration := s.ref.processGeneration,
    generation := delta.generation, contentHash := delta.contentHash, payload := delta.payload }

def promoted (s : ServerSession) : ServerSession :=
  if s.hasCandidate then
    { s with active := s.candidate, hasActive := true, candidate := {}, hasCandidate := false }
  else s

/-- The outcomes of an operation. -/
inductive Move (config : ServerConfig) (s : ServerSession) (r : SessionRegistry) (now : Time) :
    Operation → ServerSession → Prop
  | idle : Move config s r now op s
  | closed (reason : DisconnectReason) (hs : s.state ≠ .closed)
      (hstop : ¬ s.Passes r now ∨ op = .close reason) :
      Move config s r now op (s.closedFor reason)
  | offer (hpass : s.Passes r now) (hgen : snapshot.generation ≠ 0)
      (hpending : ∀ p ∈ s.pendingSnapshot, snapshot.generation ≠ p.generation) :
      Move config s r now (.call (.offerSnapshot snapshot)) (s.stageSnapshot snapshot)
  | offerDelta {delta bound : Delta} (hpass : s.Passes r now) (hactive : s.hasActive)
      (hready : s.readyGeneration = s.active.generation)
      (hgen : bound.generation = bound.previousGeneration + 1) :
      Move config s r now (.call (.offerDelta delta)) { s with pendingDelta := some bound }
  | refuseSnapshot {ack : Ack} (hpass : s.Passes r now) :
      Move config s r now (.call (.handleAck ack))
        (restoreState { s with pendingSnapshot := none, needsSnapshot := true })
  | applySnapshot {ack : Ack} (pending : Snapshot) (hpass : s.Passes r now)
      (hpending : s.pendingSnapshot = some pending) :
      Move config s r now (.call (.handleAck ack))
        (awaitReady { s with
          candidate := pending, hasCandidate := true, pendingSnapshot := none,
          needsSnapshot := false })
  | refuseDelta {ack : Ack} (hpass : s.Passes r now) :
      Move config s r now (.call (.handleAck ack))
        (restoreState { s with pendingDelta := none, needsSnapshot := true })
  | dropDelta {ack : Ack} (hpass : s.Passes r now) :
      Move config s r now (.call (.handleAck ack)) { s with pendingDelta := none }
  | applyDelta {ack : Ack} (pending : Delta) (hpass : s.Passes r now)
      (hsnapshot : s.pendingSnapshot = none) (hpending : s.pendingDelta = some pending)
      (hgen : pending.generation ≠ 0) :
      Move config s r now (.call (.handleAck ack))
        (awaitReady { s with
          pendingDelta := none, candidate := s.deltaCandidate pending, hasCandidate := true })
  | ready (target : Snapshot) (hpass : s.Passes r now)
      (htarget : s.readinessTarget = some target)
      (hgen : readiness.generation = target.generation) :
      Move config s r now (.call (.handleReadiness readiness))
        { s.promoted with
          needsSnapshot := false, readyGeneration := readiness.generation, state := .ready }
  | mismatch (hpass : s.Passes r now) (hactive : s.hasActive)
      (hreport : heartbeat.lastAppliedGeneration ≠ s.active.generation ∨
        heartbeat.lastAppliedHash ≠ s.active.contentHash) :
      Move config s r now (.call (.handleHeartbeat heartbeat))
        { s with needsSnapshot := true, readyGeneration := 0, state := .awaitingSnapshot }
  | heartbeat (hpass : s.Passes r now) :
      Move config s r now (.call (.handleHeartbeat heartbeat))
        { s with
          lastHeartbeatSentAt := heartbeat.sentAt, lastHeartbeat := now,
          lease := { s.lease with
            expiresAt := min (now + config.leaseDuration) s.auth.credentialExpiresAt } }
  | drain (request : Drain) (hpass : s.Passes r now) (hdrain : s.drain = none) :
      Move config s r now (.call (.beginDrain cancelled later drainID deadline force))
        { s with
          drain := some request, drainStatus := some .accepted, drainCode := none,
          drainCompleted := false, state := .draining }
  | drainAck {ack : DrainAck} (status : DrainStatus) (completed : Bool)
      (hpass : s.Passes r now) (hdrain : s.drain.isSome) (hopen : s.drainCompleted = false)
      (hstatus : status ≠ .rejected) :
      Move config s r now (.call (.handleDrainAck cancelled ack))
        { s with drainStatus := some status, drainCode := ack.code, drainCompleted := completed }
  | drainRejected {ack : DrainAck} (hpass : s.Passes r now)
      (hdrain : s.drain.isSome) :
      Move config s r now (.call (.handleDrainAck cancelled ack))
        (restoreState { s with
          drainStatus := some .rejected, drainCode := ack.code, drainCompleted := true })
  | renew {renewal : Renewal} {answer : Option AuthResult} (result : AuthResult)
      (hpass : s.Passes r now) (hauth : s.auth = renewal.expected) (href : s.ref = renewal.ref)
      (hresult : answer = some result) (hvalid : result.validate renewal.now = .ok ())
      (hgen : renewal.expected.credentialGeneration ≤ result.credentialGeneration) :
      Move config s r now (.call (.renewFinish renewal answer))
        { s with
          auth := { result with sessionID := renewal.ref.sessionID }
          lease := { s.lease with
            expiresAt := min result.leaseExpiresAt (renewal.now + config.leaseDuration) }
          lastHeartbeat := renewal.now }

variable {config : ServerConfig} {s t : ServerSession} {r : SessionRegistry} {now : Time}
  {op : Operation}

theorem move_close (reason : DisconnectReason) (hstop : ¬ s.Passes r now ∨ op = .close reason) :
    Move config s r now op (s.close r reason).1 := by
  unfold close
  split
  · exact .idle
  next hs => exact .closed reason hs hstop

theorem move_ensureActive : Move config s r now op (s.ensureActive r now).2.1 := by
  have hstop : ∀ err, (s.ensureActive r now).1 = some err → ¬ s.Passes r now := by
    intro err h
    simp [Passes, h]
  unfold ensureActive at hstop ⊢
  split_ifs at hstop ⊢
  · exact .idle
  · exact move_close _ (.inl (hstop _ rfl))
  · exact move_close _ (.inl (hstop _ rfl))
  · exact move_close _ (.inl (hstop _ rfl))
  · exact move_close _ (.inl (hstop _ rfl))
  · exact .idle

theorem ensureActive_cases (s : ServerSession) (r : SessionRegistry) (now : Time) :
    (s.ensureActive r now).2.1 = s ∨ ∃ reason, (s.ensureActive r now).2.1 = s.closedFor reason := by
  unfold ensureActive close
  split_ifs <;> first | exact .inl rfl | exact .inr ⟨_, rfl⟩

/-- A guarded handler stops at the liveness check or its body decides. -/
theorem move_guarded {β : Type} {body : Except Error β × ServerSession}
    (h : s.Passes r now → Move config s r now op body.2) :
    Move config s r now op (s.guarded r now body).session := by
  have hensure : Move config s r now op (s.ensureActive r now).2.1 := move_ensureActive
  unfold guarded
  split
  next heq => rw [heq] at hensure; exact hensure
  next heq => exact h (by rw [Passes, heq])

/-! ### The handlers -/

theorem move_offerSnapshot (snapshot : Snapshot) :
    Move config s r now (.call (.offerSnapshot snapshot))
      (offerSnapshot config s r now snapshot).session := by
  unfold offerSnapshot
  split
  next => exact .idle
  next hvalid =>
    have hgen := Snapshot.validate_generation hvalid
    refine move_guarded fun hpass => ?_
    split_ifs
    · exact .idle
    · exact .idle
    · exact .idle
    · exact .idle
    split
    next pending hp =>
      split_ifs with hne
      · exact .idle
      · exact .offer hpass hgen (by simpa [hp] using hne)
    next hp => exact .offer hpass hgen (by simp [hp])

theorem move_offerDelta (delta : Delta) :
    Move config s r now (.call (.offerDelta delta))
      (offerDelta config s r now delta).session := by
  unfold offerDelta
  split
  next => exact .idle
  next hvalid =>
    have hgen := Delta.validate_generation hvalid
    refine move_guarded fun hpass => ?_
    split
    · exact .idle
    next hready =>
      simp only [Bool.or_eq_true, Bool.not_eq_true', bne_iff_ne, ne_eq, not_or, not_not,
        Bool.not_eq_false] at hready
      split
      · exact .idle
      split
      · exact .idle
      · exact .offerDelta hpass hready.1.1 hready.1.2 hgen

theorem move_handleAck (ack : Ack) :
    Move config s r now (.call (.handleAck ack)) (s.handleAck r now ack).session := by
  unfold handleAck
  split
  next => exact .idle
  next hvalid =>
    refine move_guarded fun hpass => ?_
    split
    · exact .idle
    split
    next pending hp =>
      unfold handlePendingSnapshot
      split
      · exact .idle
      split
      · exact .refuseSnapshot hpass
      · exact .refuseSnapshot hpass
      all_goals exact .applySnapshot pending hpass hp
    next pending hs hp =>
      unfold handlePendingDelta
      split
      · exact .idle
      next hnames =>
      dsimp only
      split
      · exact .refuseDelta hpass
      · exact .refuseDelta hpass
      all_goals
        split
        · exact .dropDelta hpass
        · exact .applyDelta pending hpass hs hp (ack.delta_generation hvalid hnames)
    next => exact .idle

theorem move_handleReadiness (readiness : Readiness) :
    Move config s r now (.call (.handleReadiness readiness))
      (s.handleReadiness r now readiness).session := by
  unfold handleReadiness
  split
  next => exact .idle
  next =>
    refine move_guarded fun hpass => ?_
    split
    · exact .idle
    split
    next => exact .idle
    next target htgt =>
      split
      · exact .idle
      next hgen =>
        split
        · exact .idle
        · exact .ready target hpass htgt (not_not.mp (not_or.mp hgen).1)

theorem move_handleHeartbeat (heartbeat : Heartbeat) :
    Move config s r now (.call (.handleHeartbeat heartbeat))
      (handleHeartbeat config s r now heartbeat).session := by
  unfold handleHeartbeat
  split
  next => exact .idle
  next =>
    refine move_guarded fun hpass => ?_
    split
    · exact .idle
    split
    · exact .idle
    split
    · exact .idle
    split
    · exact .idle
    split
    next => exact .idle
    next expected hexp =>
      split
      next hreport =>
        split
        next hact =>
          have he : s.active = expected := by simpa [heartbeatTarget, hact] using hexp
          subst he
          exact .mismatch hpass hact hreport
        next => exact .idle
      next => exact .heartbeat hpass

theorem move_beginDrain (cancelled : Bool) (later : Time) (drainID : String) (deadline : Time)
    (force : Bool) :
    Move config s r now (.call (.beginDrain cancelled later drainID deadline force))
      (s.beginDrain r cancelled now later drainID deadline force).session := by
  unfold beginDrain
  split
  · exact .idle
  · refine move_guarded fun hpass => ?_
    split
    · exact .idle
    split
    next => split <;> exact .idle
    next hdrain =>
      split
      · exact .idle
      dsimp only
      split
      · exact .idle
      · exact .drain _ hpass hdrain

theorem move_handleDrainAck (cancelled : Bool) (ack : DrainAck) :
    Move config s r now (.call (.handleDrainAck cancelled ack))
      (s.handleDrainAck r cancelled now ack).session := by
  unfold handleDrainAck
  split
  · exact .idle
  split
  next => exact .idle
  next =>
    refine move_guarded fun hpass => ?_
    split
    · exact .idle
    split
    next => exact .idle
    next drain hdrain =>
      have hsome : s.drain.isSome := by rw [hdrain]; rfl
      split
      · exact .idle
      split
      · exact .idle
      split
      · exact .idle
      next hopen =>
        have hopen := Bool.eq_false_of_not_eq_true hopen
        cases ack.status with
        | accepted => exact .drainAck .accepted s.drainCompleted hpass hsome hopen (by simp)
        | progress => exact .drainAck .progress s.drainCompleted hpass hsome hopen (by simp)
        | completed => exact .drainAck .completed true hpass hsome hopen (by simp)
        | forced => exact .drainAck .forced true hpass hsome hopen (by simp)
        | rejected => exact .drainRejected hpass hsome

theorem move_renewStart (request : RenewalRequest) :
    Move config s r now (.call (.renewStart request)) (s.renewStart r now request).session := by
  unfold renewStart
  split
  next => exact .idle
  next =>
    refine move_guarded fun _ => ?_
    split <;> exact .idle

theorem move_renewFinish (renewal : Renewal) (answer : Option AuthResult) :
    Move config s r now (.call (.renewFinish renewal answer))
      (renewFinish config s r now renewal answer).session := by
  unfold renewFinish
  split
  next => exact .idle
  next result =>
    split
    next => exact .idle
    next hbound =>
      simp only [not_or] at hbound
      have hvalid := Server.eq_ok_of_not_isNone hbound.1
      have hgen : renewal.expected.credentialGeneration ≤ result.credentialGeneration :=
        not_lt.mp hbound.2.2.2.2.2.2.2.2.2
      refine move_guarded fun hpass => ?_
      split
      next => exact .idle
      next hsame =>
        simp only [not_or, not_not] at hsame
        exact .renew result hpass hsame.1 hsame.2 rfl hvalid hgen

theorem move_of_perform (config : ServerConfig) (s : ServerSession) (r : SessionRegistry)
    (now : Time) (op : Operation) : Move config s r now op (perform config s r now op).1 := by
  cases op with
  | call c =>
    cases c with
    | offerSnapshot snapshot => exact move_offerSnapshot snapshot
    | offerDelta delta => exact move_offerDelta delta
    | handleAck ack => exact move_handleAck ack
    | handleReadiness readiness => exact move_handleReadiness readiness
    | handleHeartbeat heartbeat => exact move_handleHeartbeat heartbeat
    | beginDrain cancelled later drainID deadline force =>
      exact move_beginDrain cancelled later drainID deadline force
    | handleDrainAck cancelled ack => exact move_handleDrainAck cancelled ack
    | renewStart request => exact move_renewStart request
    | renewFinish renewal answer => exact move_renewFinish renewal answer
  | checkLease => exact move_ensureActive
  | close reason => exact move_close reason (.inr rfl)

/-- An operation at a clock reading, with whatever the other sessions have left
in the registry. -/
structure Event where
  registry : SessionRegistry
  now : Time
  op : Operation

def next (config : ServerConfig) (s : ServerSession) (e : Event) : ServerSession :=
  (perform config s e.registry e.now e.op).1

theorem move_next (config : ServerConfig) (s : ServerSession) (e : Event) :
    Move config s e.registry e.now e.op (next config s e) :=
  move_of_perform config s e.registry e.now e.op

/-! ### What no operation changes -/

@[simp] theorem restoreState_ref (s : ServerSession) : s.restoreState.ref = s.ref := by
  unfold restoreState
  split <;> rfl

@[simp] theorem awaitReady_ref (s : ServerSession) : s.awaitReady.ref = s.ref := by
  unfold awaitReady
  split <;> rfl

@[simp] theorem promoted_ref (s : ServerSession) : s.promoted.ref = s.ref := by
  unfold promoted
  split <;> rfl

@[simp] theorem stageSnapshot_ref (s : ServerSession) (snapshot : Snapshot) :
    (s.stageSnapshot snapshot).ref = s.ref := by
  unfold stageSnapshot
  split <;> rfl

theorem Move.ref_eq (h : Move config s r now op t) : t.ref = s.ref := by
  cases h with
  | renew => rfl
  | _ => simp [closedFor]

/-! ### The registry -/

theorem Passes.open (h : s.Passes r now) : s.state ≠ .closed := by
  intro hs
  simp [Passes, ensureActive, hs] at h

theorem Passes.active (h : s.Passes r now) : r s.ref.connectorID = some s.ref := by
  unfold Passes ensureActive SessionRegistry.active at h
  by_cases hid : validateIdentifier s.ref.connectorID
  · split_ifs at h with h1 h2
    exact not_not.mp h2
  · split at h <;> cases h

/-- A closed session is out of reach of its operations. -/
theorem Move.eq_of_closed (h : Move config s r now op t) (hs : s.state = .closed) : t = s := by
  cases h with
  | idle => rfl
  | closed _ hopen => exact (hopen hs).elim
  | offer hpass | offerDelta hpass | refuseSnapshot hpass | refuseDelta hpass | dropDelta hpass
  | mismatch hpass | heartbeat hpass | drainRejected hpass => exact (hpass.open hs).elim
  | applySnapshot _ hpass | applyDelta _ hpass | ready _ hpass | drain _ hpass
  | renew _ hpass => exact (hpass.open hs).elim
  | drainAck _ _ hpass => exact (hpass.open hs).elim

end ServerSession

end Paperboat.ConnectorProtocol
