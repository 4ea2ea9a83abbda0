import Paperboat.ConnectorProtocol.ActiveGeneration
import Paperboat.ConnectorProtocol.Connector

/-! A drain in force. Once a drain is recorded and not rejected, neither end is to
become ready again. Handlers overwrite the state without looking at the drain; most
of them leave it at a waiting state, and only the one that reports readiness, at
the server, and the one that promotes a candidate, at the connector, make the
session ready. While neither comes in during a drain, the drain holds. -/

namespace Paperboat.ConnectorProtocol

open Transition

/-! ### The server -/

namespace ServerSession

def drainInForce (s : ServerSession) : Bool := s.drain.isSome && s.drainStatus != some .rejected

/-- A rejected drain is over, and any other recorded drain keeps the session from
being ready. -/
structure Draining (s : ServerSession) : Prop where
  ended : s.drainStatus = some .rejected → s.drainCompleted
  holds : s.drainInForce → s.state ≠ .ready

/-- No readiness report comes in while a drain is in force. -/
def reportFree (s : ServerSession) (e : Event) : Bool :=
  match e.op with
  | .call (.handleReadiness _) => !s.drainInForce
  | _ => true

def ReportFree (s : ServerSession) (e : Event) : Prop := reportFree s e = true

instance (s : ServerSession) (e : Event) : Decidable (ReportFree s e) :=
  inferInstanceAs (Decidable (_ = _))

def advance (config : ServerConfig) (s : ServerSession) (e : Event) : Option ServerSession :=
  some (next config s e)

variable {config : ServerConfig} {s t : ServerSession} {r : SessionRegistry} {now : Time}
  {op : Operation}

theorem Draining.congr (h : Draining s) (hdrain : t.drain = s.drain)
    (hstatus : t.drainStatus = s.drainStatus) (hcompleted : t.drainCompleted = s.drainCompleted)
    (hstate : s.state ≠ .ready → t.state ≠ .ready) : Draining t := by
  refine ⟨?_, fun hforce => hstate (h.holds ?_)⟩
  · rw [hstatus, hcompleted]; exact h.ended
  · rwa [drainInForce, hdrain, hstatus] at hforce

/-- Without a snapshot that fits, restoring the state does not make it ready. -/
theorem restoreState_waits (hneeds : s.needsSnapshot) : s.restoreState.state ≠ .ready := by
  simp [restoreState, hneeds]

theorem restoreState_drain (s : ServerSession) :
    s.restoreState.drain = s.drain ∧ s.restoreState.drainStatus = s.drainStatus ∧
      s.restoreState.drainCompleted = s.drainCompleted := by
  unfold restoreState
  split <;> exact ⟨rfl, rfl, rfl⟩

theorem awaitReady_drain (s : ServerSession) :
    s.awaitReady.drain = s.drain ∧ s.awaitReady.drainStatus = s.drainStatus ∧
      s.awaitReady.drainCompleted = s.drainCompleted ∧
      (s.state ≠ .ready → s.awaitReady.state ≠ .ready) := by
  unfold awaitReady
  split
  · exact ⟨rfl, rfl, rfl, id⟩
  · exact ⟨rfl, rfl, rfl, fun _ => by simp⟩

theorem Draining.move (h : Draining s) (hm : Move config s r now op t)
    (hok : ∀ readiness, op = .call (.handleReadiness readiness) → s.drainInForce = false) :
    Draining t := by
  cases hm with
  | idle => exact h
  | closed => exact h.congr rfl rfl rfl fun _ => by simp [closedFor]
  | offer =>
    unfold stageSnapshot
    split
    · exact h.congr rfl rfl rfl id
    · exact h.congr rfl rfl rfl fun _ => by simp
  | refuseSnapshot | refuseDelta =>
    obtain ⟨h1, h2, h3⟩ := restoreState_drain _
    exact h.congr h1 h2 h3 fun _ => restoreState_waits rfl
  | applySnapshot | applyDelta =>
    obtain ⟨h1, h2, h3, h4⟩ := awaitReady_drain _
    exact h.congr h1 h2 h3 h4
  | ready =>
    have hfree := hok _ rfl
    have hdrain : s.promoted.drain = s.drain ∧ s.promoted.drainStatus = s.drainStatus ∧
        s.promoted.drainCompleted = s.drainCompleted := by
      unfold promoted
      split <;> exact ⟨rfl, rfl, rfl⟩
    refine ⟨?_, fun hforce => ?_⟩
    · rw [hdrain.2.1, hdrain.2.2]
      exact h.ended
    · change (s.promoted.drain.isSome && s.promoted.drainStatus != some .rejected) = true at hforce
      rw [hdrain.1, hdrain.2.1] at hforce
      exact absurd hforce (by rw [← drainInForce, hfree]; simp)
  | mismatch => exact h.congr rfl rfl rfl fun _ => by simp
  | drain => exact ⟨by simp, fun _ => by simp⟩
  | drainAck status completed _ hdrain hopen hstatus =>
    refine ⟨fun hrej => absurd (Option.some.inj hrej) hstatus, fun _ => ?_⟩
    -- The drain was in force before, since a rejected one would be over.
    refine h.holds ?_
    rw [drainInForce, hdrain, Bool.true_and, bne_iff_ne]
    intro hrej
    rw [h.ended hrej] at hopen
    cases hopen
  | drainRejected =>
    obtain ⟨-, h2, h3⟩ := restoreState_drain { s with
      drainStatus := some .rejected, drainCode := _, drainCompleted := true }
    refine ⟨fun _ => h3, fun hforce => ?_⟩
    rw [drainInForce, h2] at hforce
    simp at hforce
  | offerDelta | dropDelta | heartbeat | renew => exact h.congr rfl rfl rfl id

theorem draining_reach (h₀ : Draining s₀) (h : Reach (advance config) ReportFree s₀ s) : Draining s := by
  refine h.invariant h₀ fun {x y e} hx hok hst => ?_
  cases hst
  refine hx.move (move_next config x e) fun readiness hop => ?_
  simpa [ReportFree, reportFree, hop] using hok

theorem draining_open {server : Server}
    (h : server.openSession now hello authenticated source drawn = .ok (s, welcome)) : Draining s := by
  obtain ⟨snapshot, -, hs⟩ := (Server.admitted_of_ok h).1.fresh
  rw [hs]
  exact ⟨by simp [accept], by simp [accept, drainInForce]⟩

end ServerSession

/-! ### The connector -/

namespace ClientSession

def drainInForce (c : ClientSession) : Bool := c.drain.isSome && c.drainStatus != some .rejected

structure Draining (c : ClientSession) : Prop where
  ended : c.drainStatus = some .rejected → c.drainCompleted
  holds : c.drainInForce → c.state ≠ .ready

variable {c d : ClientSession} {sec : Section}

theorem Draining.congr (h : Draining c) (hdrain : d.drain = c.drain)
    (hstatus : d.drainStatus = c.drainStatus) (hcompleted : d.drainCompleted = c.drainCompleted)
    (hstate : c.state ≠ .ready → d.state ≠ .ready) : Draining d := by
  refine ⟨?_, fun hforce => hstate (h.holds ?_)⟩
  · rw [hstatus, hcompleted]; exact h.ended
  · rwa [drainInForce, hdrain, hstatus] at hforce

theorem restoreState_waits (hneeds : c.needsSnapshot) : c.restoreState.state ≠ .ready := by
  simp only [restoreState, hneeds, Bool.not_true, Bool.and_false, Bool.false_eq_true, if_false]
  split <;> simp

theorem restoreState_drain (c : ClientSession) :
    c.restoreState.drain = c.drain ∧ c.restoreState.drainStatus = c.drainStatus ∧
      c.restoreState.drainCompleted = c.drainCompleted := by
  unfold restoreState
  split
  · exact ⟨rfl, rfl, rfl⟩
  split <;> exact ⟨rfl, rfl, rfl⟩

theorem Draining.move (h : Draining c) (hm : Move c sec d)
    (hok : ∀ now a, sec = .markReadyFinish now a → c.drainInForce = false) : Draining d := by
  cases hm with
  | idle => exact h
  | expired => exact h.congr rfl rfl rfl fun _ => by simp [closedFor]
  | stage => exact h.congr rfl rfl rfl fun _ => by simp [stagedFor]
  | welcome | closed => exact h.congr rfl rfl rfl fun _ => by simp
  | unstage =>
    obtain ⟨h1, h2, h3⟩ := restoreState_drain _
    exact h.congr h1 h2 h3 fun _ => restoreState_waits rfl
  | promote =>
    have hfree := hok _ _ rfl
    refine ⟨h.ended, fun hforce => ?_⟩
    rw [drainInForce] at hfree hforce
    rw [hfree] at hforce
    cases hforce
  | drain => exact ⟨by simp, fun _ => by simp⟩
  | rejectDrain =>
    obtain ⟨-, h2, h3⟩ := restoreState_drain { c with
      drainStatus := some .rejected, drainCode := some .drainRejected, drainCompleted := true }
    refine ⟨fun _ => h3, fun hforce => ?_⟩
    rw [drainInForce, h2] at hforce
    simp at hforce
  | progress status code completed _ hdrain hstatus =>
    rcases hstatus with ⟨rfl, rfl⟩ | ⟨hstatus, hopen⟩
    · exact h.congr rfl rfl rfl id
    · refine ⟨fun hrej => absurd hrej hstatus, fun _ => h.holds ?_⟩
      rw [drainInForce, hdrain, Bool.true_and, bne_iff_ne]
      intro hrej
      rw [h.ended hrej] at hopen
      cases hopen
  | gap | heartbeatAck | renew | countStreams => exact h.congr rfl rfl rfl id

end ClientSession

namespace Connector

/-- No candidate is promoted while a drain is in force. -/
def promotionFree (x : Connector) (a : Action) : Bool :=
  match a with
  | .activateDone _ => !x.session.drainInForce
  | _ => true

def PromotionFree (x : Connector) (a : Action) : Prop := promotionFree x a = true

instance (x : Connector) (a : Action) : Decidable (PromotionFree x a) :=
  inferInstanceAs (Decidable (_ = _))

theorem section?_promotes {x y : Connector} (hst : x.step rules a = some y)
    (hsec : x.section? a = some (.markReadyFinish now activation)) : a = .activateDone now := by
  cases a with
  | call sec =>
    cases hsec
    cases hst
  | activateDone later =>
    simp only [section?] at hsec
    split at hsec <;> cases hsec
    rfl
  | stage | activateFailed =>
    simp only [section?] at hsec
    split at hsec <;> cases hsec
  | drainReject | drainFinish =>
    obtain ⟨_, _, heq⟩ := Option.map_eq_some_iff.mp hsec
    cases heq
  | apply | cancelApply | prepare | markReady | activate | handleDrain | close => cases hsec

theorem draining_reach {x₀ x : Connector} (h₀ : ClientSession.Draining x₀.session)
    (h : Reach (step rules) PromotionFree x₀ x) : ClientSession.Draining x.session := by
  induction h with
  | refl => exact h₀
  | @tail y z a _ hok hst ih =>
    rcases session_step hst with ⟨_, he⟩ | ⟨sec, hsec, he⟩
    · rw [he]; exact ih
    · rw [he]
      refine ih.move (ClientSession.move_after rules y.session sec) fun now activation heq => ?_
      subst heq
      obtain rfl := section?_promotes hst hsec
      simpa [PromotionFree, promotionFree] using hok

theorem draining_new (h : ClientSession.new now hello = .ok c) : ClientSession.Draining c := by
  simp only [ClientSession.new, bind, Except.bind] at h
  split at h <;> cases h
  exact ⟨by simp, by simp [ClientSession.drainInForce]⟩

end Connector

/-- A drain in force keeps both ends from being ready: the server session in every
run without a readiness report during the drain, the connector in every run without
a promotion during the drain. -/
theorem drain_sticky {server : Server} {now : Time} {hello : Hello}
    {authenticated : Option AuthResult} {source : Option Snapshot} {drawn : Option String}
    {s₀ s : ServerSession} {welcome : Welcome}
    (hs₀ : server.openSession now hello authenticated source drawn = .ok (s₀, welcome))
    (hs : Reach (ServerSession.advance server.toServerConfig) ServerSession.ReportFree s₀ s)
    {rules : PayloadRules} {now' : Time} {hello' : Hello} {c₀ : ClientSession} {x : Connector}
    (hc₀ : ClientSession.new now' hello' = .ok c₀)
    (hx : Reach (Connector.step rules) Connector.PromotionFree { session := c₀ } x) :
    (s.drainInForce → s.state ≠ .ready ∧ s.current.2.1 = false) ∧
      (x.session.drainInForce → x.session.state ≠ .ready) := by
  constructor
  · intro hforce
    have hstate := (ServerSession.draining_reach (ServerSession.draining_open hs₀) hs).holds hforce
    refine ⟨hstate, ?_⟩
    unfold ServerSession.current
    split
    · rfl
    · simp [hstate]
  · exact (Connector.draining_reach (Connector.draining_new hc₀) hx).holds

/-! ### Runs in which a drain slips -/

namespace Demo

open ServerSession.Demo in
/-- Generation 1 is ready and the server asks for a drain. -/
def serverDrain : List ServerSession.Event :=
  [event (ack 1), event (ready 1),
    event (call (.beginDrain false second "drain_1" (10 * second) true))]

def drainRequest : Drain where
  accountID := "account_1"
  tunnelID := "tunnel_1"
  connectorID := "connector_1"
  sessionID := "sess_1"
  processGeneration := 1
  drainID := "drain_1"
  generation := 1
  contentHash := ServerSession.Demo.hash 1
  deadline := 10 * second
  stopNewStreams := true
  forceAfterDeadline := true

open Connector.Demo in
/-- The connector accepts the drain and stages a newer snapshot. -/
def connectorDrain : List Connector.Action :=
  opening ++ staging 1 ++ promoting ++ [.handleDrain false second drainRequest, .drainFinish 0] ++
    staging 2

/-- The connector reports the draining generation ready once more. -/
theorem server_slips :
    (Server.Demo.admission.toOption.bind fun p =>
      (run (ServerSession.advance Server.Demo.server.toServerConfig) p.1
        (serverDrain ++ [ServerSession.Demo.event (ServerSession.Demo.ready 1)])).map fun s =>
          s.drainInForce && s.state == .ready) = some true := by
  decide +kernel

/-- The staged snapshot is promoted. -/
theorem connector_slips :
    (Connector.Demo.newSession.toOption.bind fun c =>
      (run (Connector.step Connector.Demo.payloadRules) { session := c }
        (connectorDrain ++ Connector.Demo.promoting)).map fun x =>
          x.session.drainInForce && x.session.state == .ready) = some true := by
  decide +kernel

/-- A drain in force does not keep either end from being ready in every run. -/
theorem drain_slips :
    (¬ ∀ (server : Server) now hello authenticated source drawn s₀ s welcome,
      server.openSession now hello authenticated source drawn = .ok (s₀, welcome) →
      Reach (ServerSession.advance server.toServerConfig) Always s₀ s →
        s.drainInForce → s.state ≠ .ready) ∧
    (¬ ∀ (rules : PayloadRules) now hello c₀ (x : Connector),
      ClientSession.new now hello = .ok c₀ →
      Reach (Connector.step rules) Always { session := c₀ } x →
        x.session.drainInForce → x.session.state ≠ .ready) := by
  constructor
  · intro h
    obtain ⟨⟨s₀, welcome⟩, hadmit, hrun⟩ := Option.bind_eq_some_iff.mp server_slips
    obtain ⟨s, hs, hready⟩ := Option.map_eq_some_iff.mp hrun
    simp only [Bool.and_eq_true, beq_iff_eq] at hready
    exact h Server.Demo.server _ _ _ _ _ s₀ s welcome (Server.eq_ok_of_toOption hadmit)
      (reach_of_run _ hs) hready.1 hready.2
  · intro h
    obtain ⟨c₀, hnew, hrun⟩ := Option.bind_eq_some_iff.mp connector_slips
    obtain ⟨x, hx, hready⟩ := Option.map_eq_some_iff.mp hrun
    simp only [Bool.and_eq_true, beq_iff_eq] at hready
    exact h _ _ _ c₀ x (Server.eq_ok_of_toOption hnew) (reach_of_run _ hx) hready.1 hready.2

theorem server_drains :
    (Server.Demo.admission.toOption.bind fun p =>
      (runChecked (ServerSession.advance Server.Demo.server.toServerConfig)
        ServerSession.ReportFree p.1 serverDrain).map fun s => s.drainInForce) = some true := by
  decide +kernel

theorem connector_drains :
    (Connector.Demo.newSession.toOption.bind fun c =>
      (runChecked (Connector.step Connector.Demo.payloadRules) Connector.PromotionFree { session := c }
        connectorDrain).map fun x => x.session.drainInForce) = some true := by
  decide +kernel

theorem drain_sticky_demo :
    ∃ s₀ s c₀ x, runChecked (ServerSession.advance Server.Demo.server.toServerConfig)
        ServerSession.ReportFree s₀ serverDrain = some s ∧
      runChecked (Connector.step Connector.Demo.payloadRules) Connector.PromotionFree
        { session := c₀ } connectorDrain = some x ∧
      s.state ≠ .ready ∧ x.session.state ≠ .ready := by
  obtain ⟨⟨s₀, welcome⟩, hadmit, hrun⟩ := Option.bind_eq_some_iff.mp server_drains
  obtain ⟨s, hs, hforce⟩ := Option.map_eq_some_iff.mp hrun
  obtain ⟨c₀, hnew, hrun'⟩ := Option.bind_eq_some_iff.mp connector_drains
  obtain ⟨x, hx, hforce'⟩ := Option.map_eq_some_iff.mp hrun'
  have hsticky := drain_sticky (Server.eq_ok_of_toOption hadmit) (reach_of_runChecked _ hs)
    (Server.eq_ok_of_toOption hnew) (reach_of_runChecked _ hx)
  exact ⟨s₀, s, c₀, x, hs, hx, (hsticky.1 hforce).1, hsticky.2 hforce'⟩

end Demo

end Paperboat.ConnectorProtocol
