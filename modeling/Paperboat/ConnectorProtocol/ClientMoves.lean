import Paperboat.ConnectorProtocol.ClientSession

/-! What one section of a call can do to a client session. -/

namespace Paperboat.ConnectorProtocol

/-- The two messages that carry a configuration. -/
inductive Change where
  | snapshot (snapshot : Snapshot)
  | delta (delta : Delta)

namespace ClientSession

def applyCheck (rules : PayloadRules) (c : ClientSession) (now : Time) :
    Change → Except (Reply Ack) Unit × ClientSession
  | .snapshot snapshot => c.applySnapshotCheck rules now snapshot
  | .delta delta => c.applyDeltaCheck rules now delta

def applyStage (c : ClientSession) (now : Time) (prepared : Handle) :
    Change → Except (Reply Ack) Ack × ClientSession
  | .snapshot snapshot => c.applySnapshotStage now snapshot prepared
  | .delta delta => c.applyDeltaStage now delta prepared

/-- The sections of all calls, each with its clock readings and arguments. -/
inductive Section where
  | acceptWelcome (now later : Time) (welcome : Welcome)
  | applyCheck (now : Time) (change : Change)
  | applyStage (now : Time) (prepared : Handle) (change : Change)
  | markReadyCheck (cancelled : Bool) (now : Time) (edgeReady routeReady originReady : Bool)
  | markReadyFailed (cancelled : Bool) (activation : Activation)
  | markReadyFinish (now : Time) (activation : Activation)
  | heartbeat (now : Time)
  | acceptHeartbeatAck (now : Time) (ack : HeartbeatAck)
  | applyRenewal (now : Time) (result : AuthResult)
  | handleDrainStart (cancelled : Bool) (now : Time) (request : Drain)
  | handleDrainReject (request : Drain) (counted : Bool)
  | handleDrainFinish (request : Drain) (activeStreams : ℕ)
  | drainProgress (cancelled : Bool) (now : Time) (activeStreams : ℕ) (forcedClose : Bool)
  | checkLease (now : Time)
  | close (reason : DisconnectReason)

def after (rules : PayloadRules) (c : ClientSession) : Section → ClientSession
  | .acceptWelcome now later welcome => (c.acceptWelcome now later welcome).2
  | .applyCheck now change => (c.applyCheck rules now change).2
  | .applyStage now prepared change => (c.applyStage now prepared change).2
  | .markReadyCheck cancelled now edgeReady routeReady originReady =>
    (c.markReadyCheck cancelled now edgeReady routeReady originReady).2
  | .markReadyFailed cancelled activation => (c.markReadyFailed cancelled activation).2
  | .markReadyFinish now activation => (c.markReadyFinish now activation).2
  | .heartbeat now => (c.heartbeat now).2
  | .acceptHeartbeatAck now ack => (c.acceptHeartbeatAck now ack).2
  | .applyRenewal now result => (c.applyRenewal now result).2
  | .handleDrainStart cancelled now request => (c.handleDrainStart cancelled now request).2
  | .handleDrainReject request counted => (c.handleDrainReject request counted).2
  | .handleDrainFinish request activeStreams => (c.handleDrainFinish request activeStreams).2
  | .drainProgress cancelled now activeStreams forcedClose =>
    (c.drainProgress cancelled now activeStreams forcedClose).2
  | .checkLease now => (c.ensureActive now).2
  | .close reason => (c.close reason).2

/-- The clock reading of the section's liveness check. -/
def Section.clock : Section → Option Time
  | .applyCheck now _ | .applyStage now _ _ | .markReadyCheck _ now _ _ _
  | .markReadyFinish now _ | .heartbeat now | .acceptHeartbeatAck now _ | .applyRenewal now _
  | .handleDrainStart _ now _ | .drainProgress _ now _ _ | .checkLease now => some now
  | .acceptWelcome .. | .markReadyFailed .. | .handleDrainReject .. | .handleDrainFinish ..
  | .close _ => none

/-- The session is neither new nor closed. -/
def running (c : ClientSession) : Bool := c.state != .closed && c.state != .new

def closedFor (c : ClientSession) (reason : DisconnectReason) : ClientSession :=
  { c with state := .closed, disconnectReason := some reason }

def stagedFor (c : ClientSession) (candidate : Snapshot) (prepared : Handle)
    (needsSnapshot : Bool) : ClientSession :=
  { c with
    candidate := candidate, hasCandidate := true, prepared := some prepared,
    needsSnapshot := needsSnapshot, readyGeneration := 0, state := .awaitingReady }

/-- The outcomes of a section. -/
inductive Move (c : ClientSession) : Section → ClientSession → Prop
  | idle {sec : Section} : Move c sec c
  | expired {sec : Section} (now : Time) (code : Code) (reason : DisconnectReason)
      (hclock : sec.clock = some now) (hrun : c.running)
      (hexpiry : c.expiry now = some (code, reason)) : Move c sec (c.closedFor reason)
  | welcome {now later : Time} {welcome : Welcome} (hnew : c.state = .new)
      (hvalid : welcome.validate now = .ok ()) :
      Move c (.acceptWelcome now later welcome)
        { c with
          welcome := welcome, lease := welcome.lease, state := .awaitingSnapshot,
          lastHeartbeatAck := later }
  | gap {now : Time} {change : Change} (hrun : c.running) :
      Move c (.applyCheck now change) { c with needsSnapshot := true }
  | stage {now : Time} {change : Change} {prepared : Handle} (candidate : Snapshot)
      (needsSnapshot : Bool) (hrun : c.running) (hfree : c.hasCandidate → c.prepared = none) :
      Move c (.applyStage now prepared change) (c.stagedFor candidate prepared needsSnapshot)
  | unstage {cancelled : Bool} {a : Activation} (hholds : c.holds a.candidate) :
      Move c (.markReadyFailed cancelled a)
        (restoreState { c with
          candidate := {}, hasCandidate := false, prepared := none, needsSnapshot := true })
  | promote {now : Time} {a : Activation} (hrun : c.running) (hholds : c.holds a.candidate) :
      Move c (.markReadyFinish now a)
        { c with
          active := c.candidate, hasActive := true, candidate := {}, hasCandidate := false,
          prepared := none, needsSnapshot := false, readyGeneration := c.candidate.generation,
          state := .ready }
  | heartbeatAck {now : Time} {ack : HeartbeatAck} (hrun : c.running) :
      Move c (.acceptHeartbeatAck now ack)
        { c with
          lease := { c.lease with expiresAt := ack.leaseExpiresAt }, lastHeartbeatAck := now }
  | renew {now : Time} {result : AuthResult} (auth : AuthRequest) (hrun : c.running)
      (hlonger : c.lease.expiresAt ≤ result.leaseExpiresAt) :
      Move c (.applyRenewal now result)
        { c with
          auth := auth, lease := { c.lease with expiresAt := result.leaseExpiresAt },
          lastHeartbeatAck := now }
  | drain {cancelled : Bool} {now : Time} {request : Drain} (hrun : c.running)
      (hdrain : c.drain = none) :
      Move c (.handleDrainStart cancelled now request)
        { c with
          drain := some request, drainStatus := some .accepted, drainCode := none,
          drainCompleted := false, activeStreams := 0, state := .draining }
  | rejectDrain {request : Drain} {counted : Bool} (hdrain : c.drain.isSome) :
      Move c (.handleDrainReject request counted)
        (restoreState { c with
          drainStatus := some .rejected, drainCode := some .drainRejected,
          drainCompleted := true })
  | countStreams {request : Drain} {activeStreams : ℕ} :
      Move c (.handleDrainFinish request activeStreams) { c with activeStreams := activeStreams }
  | progress {cancelled : Bool} {now : Time} {activeStreams : ℕ} {forcedClose : Bool}
      (status : Option DrainStatus) (code : Option Code) (completed : Bool) (hrun : c.running)
      (hdrain : c.drain.isSome)
      (hstatus : status = c.drainStatus ∧ completed = c.drainCompleted ∨
        status ≠ some .rejected ∧ c.drainCompleted = false) :
      Move c (.drainProgress cancelled now activeStreams forcedClose)
        { c with
          activeStreams := activeStreams, drainStatus := status, drainCode := code,
          drainCompleted := completed }
  | closed {reason : DisconnectReason} (hopen : c.state ≠ .closed) :
      Move c (.close reason)
        { c with
          state := .closed, disconnectReason := some reason, prepared := none, candidate := {},
          hasCandidate := false }

variable {rules : PayloadRules} {c d : ClientSession} {sec : Section} {now : Time}

/-! ### The liveness check -/

/-- The liveness check has three outcomes. -/
inductive Check (c : ClientSession) (now : Time) : Option Error × ClientSession → Prop
  | stopped (err : Error) (hrun : c.running = false) : Check c now (some err, c)
  | expired (code : Code) (reason : DisconnectReason) (hrun : c.running)
      (hexpiry : c.expiry now = some (code, reason)) :
      Check c now (some (codeError code reason true), c.closedFor reason)
  | passed (hrun : c.running) (hexpiry : c.expiry now = none) : Check c now (none, c)

theorem check_ensureActive (c : ClientSession) (now : Time) : Check c now (c.ensureActive now) := by
  unfold ensureActive
  split
  next h => exact .stopped _ (by simp [running, h])
  next hclosed =>
    split
    next h => exact .stopped _ (by simp [running, h])
    next hnew =>
      have hrun : c.running := by simp [running, hclosed, hnew]
      split
      next code reason h => exact .expired code reason hrun h
      next h => exact .passed hrun h

theorem ensureActive_of_live (hrun : c.running) (hexp : c.expiry now = none) :
    c.ensureActive now = (none, c) := by
  have h := check_ensureActive c now
  generalize c.ensureActive now = x at h
  cases h with
  | stopped _ hstop => rw [hrun] at hstop; cases hstop
  | expired _ _ _ hlate => rw [hexp] at hlate; cases hlate
  | passed => rfl

theorem move_ensureActive (hclock : sec.clock = some now) : Move c sec (c.ensureActive now).2 := by
  have h := check_ensureActive c now
  generalize c.ensureActive now = x at h
  cases h with
  | stopped => exact .idle
  | expired code reason hrun hexp => exact .expired now code reason hclock hrun hexp
  | passed => exact .idle

variable {β : Type}

theorem move_guarded {γ : Type} {body : Except (Reply β) γ × ClientSession}
    (hclock : sec.clock = some now) (h : c.running → Move c sec body.2) :
    Move c sec (c.guarded now body).2 := by
  have hcheck := check_ensureActive c now
  unfold guarded
  generalize c.ensureActive now = x at hcheck
  cases hcheck with
  | stopped => exact .idle
  | expired code reason hrun hexp => exact .expired now code reason hclock hrun hexp
  | passed hrun => exact h hrun

theorem move_answering {body : Reply β × ClientSession}
    (hclock : sec.clock = some now) (h : c.running → Move c sec body.2) :
    Move c sec (c.answering now body).2 := by
  have hcheck := check_ensureActive c now
  unfold answering
  generalize c.ensureActive now = x at hcheck
  cases hcheck with
  | stopped => exact .idle
  | expired code reason hrun hexp => exact .expired now code reason hclock hrun hexp
  | passed hrun => exact h hrun

/-! ### The sections -/

theorem move_acceptWelcome (later : Time) (welcome : Welcome) :
    Move c (.acceptWelcome now later welcome) (c.acceptWelcome now later welcome).2 := by
  unfold acceptWelcome
  split
  · exact .idle
  next hvalid =>
    split
    · exact .idle
    next hnew =>
      split
      · exact .idle
      split
      · exact .idle
      split
      · exact .idle
      · exact .welcome (not_not.mp hnew) hvalid

theorem move_applyCheck (change : Change) :
    Move c (.applyCheck now change) (c.applyCheck rules now change).2 := by
  cases change with
  | snapshot snapshot =>
    simp only [applyCheck, applySnapshotCheck]
    split
    · exact .idle
    · refine move_guarded rfl fun _ => ?_
      split
      · exact .idle
      split
      · exact .idle
      split
      · exact .idle
      split
      · split <;> exact .idle
      · exact .idle
  | delta delta =>
    simp only [applyCheck, applyDeltaCheck]
    split
    · exact .idle
    · refine move_guarded rfl fun hrun => ?_
      split
      · exact .idle
      split
      · exact .idle
      split
      · split
        · exact .gap hrun
        · exact .idle
      split
      · exact .idle
      · exact .gap hrun

theorem move_applyStage (prepared : Handle) (change : Change) :
    Move c (.applyStage now prepared change) (c.applyStage now prepared change).2 := by
  cases change with
  | snapshot change | delta change =>
    refine move_guarded rfl fun hrun => ?_
    split
    · exact .idle
    next hfree => exact .stage _ _ hrun (by simpa using hfree)

theorem move_markReadyCheck (cancelled edgeReady routeReady originReady : Bool) :
    Move c (.markReadyCheck cancelled now edgeReady routeReady originReady)
      (c.markReadyCheck cancelled now edgeReady routeReady originReady).2 := by
  refine move_guarded rfl fun _ => ?_
  split
  · exact .idle
  split
  · exact .idle
  split
  · exact .idle
  split <;> exact .idle

theorem move_markReadyFailed (cancelled : Bool) (a : Activation) :
    Move c (.markReadyFailed cancelled a) (c.markReadyFailed cancelled a).2 := by
  unfold markReadyFailed
  dsimp only
  split
  next hholds => exact .unstage hholds
  next => exact .idle

theorem move_markReadyFinish (a : Activation) :
    Move c (.markReadyFinish now a) (c.markReadyFinish now a).2 := by
  have hcheck := check_ensureActive c now
  unfold markReadyFinish
  generalize c.ensureActive now = x at hcheck
  cases hcheck with
  | stopped => exact .idle
  | expired code reason hrun hexp => exact .expired now code reason rfl hrun hexp
  | passed hrun =>
    dsimp only
    split
    · exact .idle
    next hholds => exact .promote hrun (by simpa using hholds)

theorem move_heartbeat : Move c (.heartbeat now) (c.heartbeat now).2 := by
  refine move_answering rfl fun _ => ?_
  split <;> exact .idle

theorem move_acceptHeartbeatAck (ack : HeartbeatAck) :
    Move c (.acceptHeartbeatAck now ack) (c.acceptHeartbeatAck now ack).2 := by
  unfold acceptHeartbeatAck
  split
  · exact .idle
  · refine move_answering rfl fun hrun => ?_
    split
    · exact .idle
    · exact .heartbeatAck hrun

theorem move_applyRenewal (result : AuthResult) :
    Move c (.applyRenewal now result) (c.applyRenewal now result).2 := by
  unfold applyRenewal
  split
  · exact .idle
  · refine move_answering rfl fun hrun => ?_
    split
    · exact .idle
    split
    · exact .idle
    next hlonger =>
      split
      · exact .idle
      · exact .renew _ hrun (not_lt.mp (not_or.mp hlonger).2)

theorem move_handleDrainStart (cancelled : Bool) (request : Drain) :
    Move c (.handleDrainStart cancelled now request) (c.handleDrainStart cancelled now request).2 := by
  unfold handleDrainStart
  split
  · exact .idle
  split
  · exact .idle
  · refine move_guarded rfl fun hrun => ?_
    split
    · exact .idle
    split
    · exact .idle
    split
    · split
      · exact .idle
      split <;> exact .idle
    next hdrain =>
      split
      · exact .idle
      split
      · exact .idle
      · exact .drain hrun hdrain

theorem move_handleDrainReject (request : Drain) (counted : Bool) :
    Move c (.handleDrainReject request counted) (c.handleDrainReject request counted).2 := by
  unfold handleDrainReject
  dsimp only
  split
  next hany => exact .rejectDrain (Option.isSome_of_any hany)
  next => exact .idle

theorem move_handleDrainFinish (request : Drain) (activeStreams : ℕ) :
    Move c (.handleDrainFinish request activeStreams)
      (c.handleDrainFinish request activeStreams).2 := by
  unfold handleDrainFinish
  split
  · exact .idle
  · exact .countStreams

theorem move_drainProgress (cancelled : Bool) (activeStreams : ℕ) (forcedClose : Bool) :
    Move c (.drainProgress cancelled now activeStreams forcedClose)
      (c.drainProgress cancelled now activeStreams forcedClose).2 := by
  unfold drainProgress
  split
  · exact .idle
  split
  · exact .idle
  · refine move_answering rfl fun hrun => ?_
    split
    · exact .idle
    next drain hdrain =>
      have hsome : c.drain.isSome := by rw [hdrain]; rfl
      -- The status stays where the call fails or the drain is over.
      have hsame : Move c (.drainProgress cancelled now activeStreams forcedClose)
          { c with activeStreams := activeStreams } :=
        .progress c.drainStatus c.drainCode c.drainCompleted hrun hsome (.inl ⟨rfl, rfl⟩)
      dsimp only
      split
      · exact hsame
      next hopen =>
        have hopen := Bool.eq_false_of_not_eq_true hopen
        split
        · split
          · exact hsame
          · exact .progress _ _ _ hrun hsome (.inr ⟨by simp, hopen⟩)
        split
        · exact .progress _ _ _ hrun hsome (.inr ⟨by simp, hopen⟩)
        split
        · exact hsame
        · exact .progress (some .progress) none c.drainCompleted hrun hsome (.inr ⟨by simp, hopen⟩)

theorem move_close (reason : DisconnectReason) : Move c (.close reason) (c.close reason).2 := by
  unfold close
  split
  · exact .idle
  next hopen => exact .closed hopen

theorem move_after (rules : PayloadRules) (c : ClientSession) (sec : Section) :
    Move c sec (c.after rules sec) := by
  cases sec with
  | acceptWelcome now later welcome => exact move_acceptWelcome later welcome
  | applyCheck now change => exact move_applyCheck change
  | applyStage now prepared change => exact move_applyStage prepared change
  | markReadyCheck cancelled now edgeReady routeReady originReady =>
    exact move_markReadyCheck cancelled edgeReady routeReady originReady
  | markReadyFailed cancelled a => exact move_markReadyFailed cancelled a
  | markReadyFinish now a => exact move_markReadyFinish a
  | heartbeat now => exact move_heartbeat
  | acceptHeartbeatAck now ack => exact move_acceptHeartbeatAck ack
  | applyRenewal now result => exact move_applyRenewal result
  | handleDrainStart cancelled now request => exact move_handleDrainStart cancelled request
  | handleDrainReject request counted => exact move_handleDrainReject request counted
  | handleDrainFinish request activeStreams => exact move_handleDrainFinish request activeStreams
  | drainProgress cancelled now activeStreams forcedClose =>
    exact move_drainProgress cancelled activeStreams forcedClose
  | checkLease now => exact move_ensureActive rfl
  | close reason => exact move_close reason

/-! ### Results that a call acts on -/

/-- A section that stops a call changes nothing, or found the session expired. -/
def Stopped (c : ClientSession) (now : Time) (d : ClientSession) : Prop :=
  d = c ∨ ∃ code reason, c.running ∧ c.expiry now = some (code, reason) ∧ d = c.closedFor reason

theorem guarded_cases {γ : Type} {body x : Except (Reply β) γ × ClientSession}
    (h : c.guarded now body = x) :
    (∃ err, x.1 = .error err ∧ Stopped c now x.2) ∨ (c.running ∧ x = body) := by
  subst h
  have hcheck := check_ensureActive c now
  unfold guarded
  generalize c.ensureActive now = y at hcheck
  cases hcheck with
  | stopped err => exact .inl ⟨_, rfl, .inl rfl⟩
  | expired code reason hrun hexp =>
    exact .inl ⟨_, rfl, .inr ⟨code, reason, hrun, hexp, rfl⟩⟩
  | passed hrun => exact .inr ⟨hrun, rfl⟩

theorem applyStage_cases (c : ClientSession) (now : Time) (prepared : Handle) (change : Change) :
    (∃ err, (c.applyStage now prepared change).1 = .error err ∧
      Stopped c now (c.applyStage now prepared change).2) ∨
    (∃ ack candidate needsSnapshot, c.running ∧ (c.hasCandidate → c.prepared = none) ∧
      c.applyStage now prepared change =
        (.ok ack, c.stagedFor candidate prepared needsSnapshot)) := by
  cases change with
  | snapshot change | delta change =>
    simp only [applyStage, applySnapshotStage, applyDeltaStage]
    rcases guarded_cases (rfl : c.guarded now _ = _) with h | ⟨hrun, h⟩
    · exact .inl h
    rw [h]
    split
    · exact .inl ⟨_, rfl, .inl rfl⟩
    next hfree => exact .inr ⟨_, _, _, hrun, by simpa using hfree, rfl⟩

theorem markReadyCheck_cases (c : ClientSession) (cancelled : Bool) (now : Time)
    (edgeReady routeReady originReady : Bool) :
    (∃ err, (c.markReadyCheck cancelled now edgeReady routeReady originReady).1 = .error err ∧
      Stopped c now (c.markReadyCheck cancelled now edgeReady routeReady originReady).2) ∨
    (∃ a : Activation, c.running ∧ c.hasCandidate ∧ c.prepared = some a.prepared ∧
      a.candidate = c.candidate ∧
      c.markReadyCheck cancelled now edgeReady routeReady originReady = (.ok a, c)) := by
  unfold markReadyCheck
  rcases guarded_cases (rfl : c.guarded now _ = _) with h | ⟨hrun, h⟩
  · exact .inl h
  rw [h]
  split
  · exact .inl ⟨_, rfl, .inl rfl⟩
  next hcand =>
    split
    · exact .inl ⟨_, rfl, .inl rfl⟩
    split
    · exact .inl ⟨_, rfl, .inl rfl⟩
    split
    · exact .inl ⟨_, rfl, .inl rfl⟩
    next prepared hprep =>
      exact .inr ⟨⟨prepared, c.candidate, _⟩, hrun, by simpa using hcand, hprep, rfl, rfl⟩

end ClientSession

end Paperboat.ConnectorProtocol
