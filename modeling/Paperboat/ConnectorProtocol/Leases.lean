import Paperboat.ConnectorProtocol.ClientMoves
import Paperboat.ConnectorProtocol.ServerMoves
import Paperboat.Lib.Transition

/-! The lease as both ends see it. The server stores a lease and tells the connector
in the welcome, in each heartbeat acknowledgement and in each renewal, over one
connection that keeps their order. Heartbeats tell the stored value. A renewal stores
the authenticator's value cut to the server's own lease duration but tells it uncut,
and may move the stored lease back, which the connector refuses to follow. While every
renewal stays within the duration and moves the lease forward, the stored lease only
grows and the connector never holds a later one. -/

namespace Paperboat.ConnectorProtocol

open Transition

deriving instance DecidableEq for ServerSession.Renewal

/-- The messages that carry a lease to the connector. -/
inductive Notice where
  | welcome (welcome : Welcome)
  | heartbeatAck (ack : HeartbeatAck)
  | authRenewed (result : AuthResult)

def Notice.expiresAt : Notice → Time
  | .welcome w => w.lease.expiresAt
  | .heartbeatAck ack => ack.leaseExpiresAt
  | .authRenewed result => result.leaseExpiresAt

/-- The section that handles a notice. -/
def Notice.section (now later : Time) : Notice → ClientSession.Section
  | .welcome w => .acceptWelcome now later w
  | .heartbeatAck ack => .acceptHeartbeatAck now ack
  | .authRenewed result => .applyRenewal now result

/-- One server session and one connector with one clock. -/
structure Leased where
  session : ServerSession
  client : ClientSession
  /-- What the server sent and the connector has not handled, in order. -/
  channel : List Notice
  clock : Time
  /-- The renewals that wait for the authenticator. -/
  renewals : List ServerSession.Renewal := []

namespace Leased

inductive Action where
  /-- The server session runs an operation, with whatever is in the registry. -/
  | serve (registry : SessionRegistry) (now : Time) (op : ServerSession.Operation)
  /-- The connector handles the next notice; the clock may be read twice. -/
  | deliver (now later : Time)
  /-- The connector runs another section. -/
  | client (sec : ClientSession.Section)

/-- The notice that an operation of the server sends. -/
def sent (config : ServerConfig) (s : ServerSession) (r : SessionRegistry) (now : Time) :
    ServerSession.Operation → Option Notice
  | .call (.handleHeartbeat heartbeat) =>
    (ServerSession.handleHeartbeat config s r now heartbeat).result.toOption.map .heartbeatAck
  | .call (.renewFinish renewal answer) =>
    (ServerSession.renewFinish config s r now renewal answer).result.toOption.map .authRenewed
  | _ => none

/-- The renewals in flight after an operation; a renewal ends once. -/
def renewing (s : ServerSession) (r : SessionRegistry) (now : Time)
    (renewals : List ServerSession.Renewal) :
    ServerSession.Operation → Option (List ServerSession.Renewal)
  | .call (.renewStart request) =>
    some (renewals ++ (s.renewStart r now request).result.toOption.toList)
  | .call (.renewFinish renewal _) =>
    if renewal ∈ renewals then some (renewals.erase renewal) else none
  | _ => some renewals

def carriesLease : ClientSession.Section → Bool
  | .acceptWelcome .. | .acceptHeartbeatAck .. | .applyRenewal .. => true
  | _ => false

def step (server : Server) (x : Leased) : Action → Option Leased
  | .serve r now op =>
    if now < x.clock then none
    else (renewing x.session r now x.renewals op).map fun renewals =>
      { x with
        session := (ServerSession.perform server.toServerConfig x.session r now op).1
        channel := x.channel ++ (sent server.toServerConfig x.session r now op).toList
        clock := now
        renewals := renewals }
  | .deliver now later =>
    if now < x.clock ∨ later < now then none
    else match x.channel with
      | [] => none
      | notice :: rest => some { x with
          client := x.client.after server.rules (notice.section now later)
          channel := rest
          clock := later }
  | .client sec =>
    if carriesLease sec || decide (sec.clock.getD x.clock < x.clock) then none
    else some { x with
      client := x.client.after server.rules sec, clock := sec.clock.getD x.clock }

/-- The authenticator's answers to renewals stay within the server's lease duration,
counted from the start of the renewal, and do not end before the lease stored now. -/
def sensible (server : Server) (x : Leased) : Action → Bool
  | .serve _ _ (.call (.renewFinish renewal (some result))) =>
    decide (result.leaseExpiresAt ≤ renewal.now + server.leaseDuration) &&
      decide (x.session.lease.expiresAt ≤ result.leaseExpiresAt)
  | _ => true

def Sensible (server : Server) (x : Leased) (a : Action) : Prop := sensible server x a = true

instance (server : Server) (x : Leased) (a : Action) : Decidable (Sensible server x a) :=
  inferInstanceAs (Decidable (_ = _))

end Leased

/-! ### What the two ends do to the lease -/

namespace ServerSession

variable {config : ServerConfig} {s t : ServerSession} {r : SessionRegistry} {now : Time}
  {op : Operation}

/-- The acknowledgement tells the lease that was stored. -/
theorem handleHeartbeat_tells (heartbeat : Heartbeat) :
    ∀ ack, (handleHeartbeat config s r now heartbeat).result = .ok ack →
      ack.leaseExpiresAt =
        (handleHeartbeat config s r now heartbeat).session.lease.expiresAt := by
  unfold handleHeartbeat
  split
  · intro ack h; cases h
  unfold guarded
  split
  · intro ack h; cases h
  split
  · intro ack h; cases h
  split
  · intro ack h; cases h
  split
  · intro ack h; cases h
  split
  · intro ack h; cases h
  split
  · intro ack h; cases h
  split
  · intro ack h; cases h
  · intro ack h; cases h; rfl

/-- The renewal tells the authenticator's lease, the one stored may be shorter. -/
theorem renewFinish_tells (renewal : Renewal) (answer : Option AuthResult) :
    ∀ told, (renewFinish config s r now renewal answer).result = .ok told →
      ∃ result, answer = some result ∧ told.leaseExpiresAt = result.leaseExpiresAt ∧
        (renewFinish config s r now renewal answer).session.lease.expiresAt =
          min result.leaseExpiresAt (renewal.now + config.leaseDuration) := by
  unfold renewFinish
  split
  · intro told h; cases h
  next result =>
    split
    · intro told h; cases h
    unfold guarded
    split
    · intro told h; cases h
    split
    · intro told h; cases h
    · intro told h
      cases h
      exact ⟨result, rfl, rfl, rfl⟩

theorem renewStart_now (request : RenewalRequest) :
    ∀ p, (s.renewStart r now request).result = .ok p → p.now = now := by
  unfold renewStart
  split
  · intro p h; cases h
  unfold guarded
  split
  · intro p h; cases h
  split
  · intro p h; cases h
  · intro p h; cases h; rfl

/-- The three ways the stored lease and the credential come out of an operation. -/
theorem Move.lease_cases (h : Move config s r now op t) :
    (t.lease = s.lease ∧ t.auth = s.auth) ∨
    (t.lease.expiresAt = min (now + config.leaseDuration) s.auth.credentialExpiresAt ∧
      t.auth = s.auth) ∨
    (∃ renewal result, op = .call (.renewFinish renewal (some result)) ∧
      result.validate renewal.now = .ok () ∧
      t.auth.credentialExpiresAt = result.credentialExpiresAt ∧
      t.lease.expiresAt = min result.leaseExpiresAt (renewal.now + config.leaseDuration)) := by
  have hres : ∀ u : ServerSession,
      u.restoreState.lease = u.lease ∧ u.restoreState.auth = u.auth := by
    intro u
    unfold restoreState
    split <;> exact ⟨rfl, rfl⟩
  have hawait : ∀ u : ServerSession,
      u.awaitReady.lease = u.lease ∧ u.awaitReady.auth = u.auth := by
    intro u
    unfold awaitReady
    split <;> exact ⟨rfl, rfl⟩
  cases h with
  | heartbeat => exact .inr (.inl ⟨rfl, rfl⟩)
  | renew result _ _ _ hresult hvalid =>
    subst hresult
    exact .inr (.inr ⟨_, result, rfl, hvalid, rfl, rfl⟩)
  | refuseSnapshot | refuseDelta | drainRejected => exact .inl (hres _)
  | applySnapshot | applyDelta => exact .inl (hawait _)
  | offer =>
    left
    unfold stageSnapshot
    split <;> exact ⟨rfl, rfl⟩
  | ready =>
    left
    unfold promoted
    split <;> exact ⟨rfl, rfl⟩
  | idle | closed | offerDelta | dropDelta | mismatch | drain | drainAck => exact .inl ⟨rfl, rfl⟩

end ServerSession

namespace ClientSession

variable {c d : ClientSession} {sec : Section}

/-- The connector's lease is the one it had or the one it was told. -/
theorem Move.lease_cases (h : Move c sec d) : d.lease = c.lease ∨
    (∃ now later w, sec = .acceptWelcome now later w ∧ d.lease = w.lease) ∨
    (∃ now ack, sec = .acceptHeartbeatAck now ack ∧ d.lease.expiresAt = ack.leaseExpiresAt) ∨
    (∃ now result, sec = .applyRenewal now result ∧
      d.lease.expiresAt = result.leaseExpiresAt) := by
  have hres : ∀ u : ClientSession, u.restoreState.lease = u.lease := by
    intro u
    unfold restoreState
    split
    · rfl
    split <;> rfl
  cases h with
  | welcome => exact .inr (.inl ⟨_, _, _, rfl, rfl⟩)
  | heartbeatAck => exact .inr (.inr (.inl ⟨_, _, rfl, rfl⟩))
  | renew => exact .inr (.inr (.inr ⟨_, _, rfl, rfl⟩))
  | unstage | rejectDrain => exact .inl (hres _)
  | idle | expired | gap | stage | promote | drain | countStreams | progress | closed =>
    exact .inl rfl

end ClientSession

theorem AuthResult.validate_lease {a : AuthResult} (h : a.validate now = .ok ()) :
    a.leaseExpiresAt ≤ a.credentialExpiresAt := by
  unfold AuthResult.validate at h
  split_ifs at h with h1 h2
  all_goals
    simp only [Bool.or_eq_true, decide_eq_true_eq, not_or, not_lt] at h2
    exact h2.2

theorem AuthResult.validate_later {a : AuthResult} (h : a.validate now = .ok ()) (hnow : now ≠ 0) :
    now < a.leaseExpiresAt := by
  unfold AuthResult.validate at h
  split_ifs at h with h1 h2 h3
  simp only [Bool.and_eq_true, bne_iff_ne, ne_eq, hnow, not_false_eq_true, true_and,
    Bool.or_eq_true, decide_eq_true_eq, not_or, not_le] at h3
  exact h3.1.2

namespace Leased

variable {server : Server} {x y : Leased} {a : Action}

/-- The stored lease is within the credential's life. -/
def Capped (s : ServerSession) : Prop := s.lease.expiresAt ≤ s.auth.credentialExpiresAt

theorem capped_move {config : ServerConfig} {s t : ServerSession}
    {now : Time} {op : ServerSession.Operation} (h : Capped s)
    (hm : ServerSession.Move config s r now op t) : Capped t := by
  unfold Capped at h ⊢
  rcases hm.lease_cases with ⟨hl, ha⟩ | ⟨hl, ha⟩ | ⟨renewal, result, -, hvalid, ha, hl⟩
  · rw [hl, ha]; exact h
  · rw [hl, ha]; exact min_le_right _ _
  · rw [hl, ha]
    exact (min_le_left _ _).trans (AuthResult.validate_lease hvalid)

/-- The stored lease is the latest the connector was ever told. -/
structure Agreed (server : Server) (x : Leased) : Prop where
  capped : Capped x.session
  bounded : x.session.lease.expiresAt ≤ x.clock + server.leaseDuration
  started : ∀ p ∈ x.renewals, p.now ≤ x.clock
  told : ∀ n ∈ x.channel, n.expiresAt ≤ x.session.lease.expiresAt
  client : x.client.lease.expiresAt ≤ x.session.lease.expiresAt

theorem renewing_started {s : ServerSession} {now clock : Time}
    {renewals after : List ServerSession.Renewal} {op : ServerSession.Operation}
    (h : renewing s r now renewals op = some after) (hle : clock ≤ now)
    (hs : ∀ p ∈ renewals, p.now ≤ clock) : ∀ p ∈ after, p.now ≤ now := by
  have hold : ∀ p ∈ renewals, p.now ≤ now := fun p hp => (hs p hp).trans hle
  unfold renewing at h
  split at h
  next request =>
    cases h
    intro p hp
    rcases List.mem_append.mp hp with hp | hp
    · exact hold p hp
    · have hok := Server.eq_ok_of_toOption (Option.mem_toList.mp hp)
      exact (ServerSession.renewStart_now request p hok).le
  next =>
    split at h <;> cases h
    exact fun p hp => hold p (List.mem_of_mem_erase hp)
  next => cases h; exact hold

section Serve

variable {r : SessionRegistry} {now : Time} {op : ServerSession.Operation}

/-- With sensible renewals the stored lease only grows, within the lease duration. -/
theorem Agreed.grows (h : Agreed server x) (hok : Sensible server x (.serve r now op))
    (hle : x.clock ≤ now) (hrenew : (renewing x.session r now x.renewals op).isSome)
    {t : ServerSession} (hm : ServerSession.Move server.toServerConfig x.session r now op t) :
    x.session.lease.expiresAt ≤ t.lease.expiresAt ∧
      t.lease.expiresAt ≤ now + server.leaseDuration := by
  have hbound := h.bounded
  rcases hm.lease_cases with ⟨hl, -⟩ | ⟨hl, -⟩ | ⟨renewal, result, rfl, -, -, hl⟩
  · rw [hl]
    exact ⟨le_rfl, by linarith⟩
  · rw [hl]
    exact ⟨le_min (by linarith) h.capped, min_le_left _ _⟩
  · simp only [Sensible, sensible, Bool.and_eq_true, decide_eq_true_eq] at hok
    have hmem : renewal ∈ x.renewals := by
      by_contra hn
      simp [renewing, hn] at hrenew
    have hstart := h.started renewal hmem
    rw [hl, min_eq_left hok.1]
    exact ⟨hok.2, by linarith⟩

/-- A notice tells no more than what was stored. -/
theorem sent_le (hok : Sensible server x (.serve r now op)) {n : Notice}
    (h : sent server.toServerConfig x.session r now op = some n) :
    n.expiresAt ≤
      (ServerSession.perform server.toServerConfig x.session r now op).1.lease.expiresAt := by
  unfold sent at h
  split at h
  next heartbeat =>
    obtain ⟨ack, hack, rfl⟩ := Option.map_eq_some_iff.mp h
    exact (ServerSession.handleHeartbeat_tells heartbeat ack (Server.eq_ok_of_toOption hack)).le
  next renewal answer =>
    obtain ⟨told, htold, rfl⟩ := Option.map_eq_some_iff.mp h
    obtain ⟨result, rfl, heq, hl⟩ :=
      ServerSession.renewFinish_tells renewal answer told (Server.eq_ok_of_toOption htold)
    simp only [Sensible, sensible, Bool.and_eq_true, decide_eq_true_eq] at hok
    change told.leaseExpiresAt ≤ (ServerSession.renewFinish server.toServerConfig x.session r now
      renewal (some result)).session.lease.expiresAt
    rw [heq, hl, min_eq_left hok.1]
  next => cases h

theorem Agreed.serve (h : Agreed server x) (hok : Sensible server x (.serve r now op))
    (hst : x.step server (.serve r now op) = some y) : Agreed server y := by
  simp only [step] at hst
  split at hst
  · cases hst
  next hlt =>
    have hle : x.clock ≤ now := not_lt.mp hlt
    obtain ⟨renewals, hrenew, rfl⟩ := Option.map_eq_some_iff.mp hst
    have hm := ServerSession.move_of_perform server.toServerConfig x.session r now op
    obtain ⟨hgrow, hbound⟩ := h.grows hok hle (by rw [hrenew]; rfl) hm
    refine ⟨capped_move h.capped hm, hbound, renewing_started hrenew hle h.started, ?_,
      h.client.trans hgrow⟩
    intro n hn
    rcases List.mem_append.mp hn with hn | hn
    · exact (h.told n hn).trans hgrow
    · exact sent_le hok (Option.mem_toList.mp hn)

end Serve

/-- The connector takes over what a notice tells or keeps what it had. -/
theorem notice_lease (c : ClientSession) (n : Notice) (now later : Time) :
    (c.after rules (n.section now later)).lease.expiresAt = c.lease.expiresAt ∨
      (c.after rules (n.section now later)).lease.expiresAt = n.expiresAt := by
  have hm := ClientSession.move_after rules c (n.section now later)
  rcases hm.lease_cases with hl | ⟨_, _, w, hsec, hl⟩ | ⟨_, ack, hsec, hl⟩ | ⟨_, result, hsec, hl⟩
  · exact .inl (by rw [hl])
  all_goals
    right
    rw [hl]
    cases n <;> cases hsec
    rfl

theorem Agreed.step (h : Agreed server x) (hok : Sensible server x a)
    (hst : x.step server a = some y) : Agreed server y := by
  have hbound := h.bounded
  cases a with
  | serve r now op => exact h.serve hok hst
  | deliver now later =>
    simp only [Leased.step] at hst
    split at hst
    · cases hst
    next hlt =>
      split at hst
      · cases hst
      next notice rest hch =>
        cases hst
        obtain ⟨hnow, hlater⟩ := not_or.mp hlt
        have hle : x.clock ≤ later := (not_lt.mp hnow).trans (not_lt.mp hlater)
        refine ⟨h.capped, ?_, fun p hp => (h.started p hp).trans hle, ?_, ?_⟩
        · linarith
        · exact fun n hn => h.told n (by rw [hch]; exact List.mem_cons_of_mem _ hn)
        · rcases notice_lease x.client notice now later with hl | hl
          · rw [hl]; exact h.client
          · rw [hl]; exact h.told notice (by rw [hch]; exact List.mem_cons_self)
  | client sec =>
    simp only [Leased.step] at hst
    split at hst
    · cases hst
    next hsec =>
      cases hst
      simp only [Bool.or_eq_true, decide_eq_true_eq, not_or, not_lt] at hsec
      have hle := hsec.2
      refine ⟨h.capped, ?_, fun p hp => (h.started p hp).trans hle, h.told, ?_⟩
      · linarith
      · have hm := ClientSession.move_after server.rules x.client sec
        rcases hm.lease_cases with hl | ⟨_, _, _, rfl, _⟩ | ⟨_, _, rfl, _⟩ | ⟨_, _, rfl, _⟩
        · rw [hl]; exact h.client
        all_goals exact (hsec.1 rfl).elim

/-- An accepted session, with the welcome on its way to the connector. -/
def opened (s : ServerSession) (w : Welcome) (c : ClientSession) (now : Time) : Leased where
  session := s
  client := c
  channel := [.welcome w]
  clock := now

theorem agreed_opened (hclock : 0 < now) (hs : Server.Admitted server now s w)
    (hc : ClientSession.new earlier hello = .ok c) : Agreed server (opened s w c now) := by
  have hlease : s.lease.expiresAt = min s.auth.leaseExpiresAt (now + server.leaseDuration) :=
    congrArg Lease.expiresAt hs.lease
  have hnew : c.lease.expiresAt = 0 := by
    simp only [ClientSession.new, bind, Except.bind] at hc
    split at hc <;> cases hc
    rfl
  refine ⟨?_, ?_, by simp [opened], ?_, ?_⟩
  · change s.lease.expiresAt ≤ s.auth.credentialExpiresAt
    rw [hlease]
    exact (min_le_left _ _).trans (AuthResult.validate_lease hs.auth)
  · change s.lease.expiresAt ≤ now + server.leaseDuration
    rw [hlease]
    exact min_le_right _ _
  · intro n hn
    obtain rfl := List.mem_singleton.mp hn
    change w.lease.expiresAt ≤ s.lease.expiresAt
    rw [hs.welcome]
  · change c.lease.expiresAt ≤ s.lease.expiresAt
    have hlater := AuthResult.validate_later hs.auth hclock.ne'
    have hduration := server.lease_bound.1
    rw [hnew, hlease]
    exact le_min (by linarith) (by linarith)

theorem capped_step (h : Capped x.session) (hst : x.step server a = some y) : Capped y.session := by
  cases a with
  | serve r now op =>
    simp only [step] at hst
    split at hst
    · cases hst
    · obtain ⟨renewals, -, rfl⟩ := Option.map_eq_some_iff.mp hst
      exact capped_move h (ServerSession.move_of_perform server.toServerConfig x.session r now op)
  | deliver now later =>
    simp only [step] at hst
    split at hst
    · cases hst
    split at hst <;> cases hst
    exact h
  | client sec =>
    simp only [step] at hst
    split at hst <;> cases hst
    exact h

/-- The lease of an accepted session. In every run whose renewals stay within the lease
duration and do not end before the lease stored, the connector's lease ends no later
than the server's whenever nothing is on its way. In every run at all the server's
lease ends no later than the credential. The zero time stands for an unset one, so the
clock is past it. -/
theorem lease_agreement {now earlier : Time} {hello : Hello} {authenticated : Option AuthResult}
    {source : Option Snapshot} {drawn : Option String} {s : ServerSession} {w : Welcome}
    {c : ClientSession} (hclock : 0 < now)
    (hs : server.openSession now hello authenticated source drawn = .ok (s, w))
    (hc : ClientSession.new earlier hello = .ok c) :
    (∀ x, Reach (step server) (Sensible server) (opened s w c now) x → x.channel = [] →
      x.client.lease.expiresAt ≤ x.session.lease.expiresAt) ∧
    (∀ x, Reach (step server) Always (opened s w c now) x →
      x.session.lease.expiresAt ≤ x.session.auth.credentialExpiresAt) := by
  have h₀ := agreed_opened hclock (Server.admitted_of_ok hs).1 hc
  constructor
  · intro x h _
    have hx : Agreed server x := h.invariant h₀ fun hy hok hst => hy.step hok hst
    exact hx.client
  · intro x h
    induction h with
    | refl => exact h₀.capped
    | tail _ _ hst ih => exact capped_step ih hst

namespace Demo

def request : RenewalRequest where
  sessionID := "sess_1"
  accountID := "account_1"
  tunnelID := "tunnel_1"
  connectorID := "connector_1"
  hostID := "host_1"
  identityKeyID := ServerSession.Demo.auth.identityKeyID
  identityKeyThumbprint := ServerSession.Demo.auth.identityKeyThumbprint
  processGeneration := 1
  credentialGeneration := 1
  nonce := "nonce_0123456789"
  signedProof := "proof_0123456789abcdef0123456789"
  requestedAt := second

def registry : SessionRegistry :=
  fun id => if id = "connector_1" then some ServerSession.Demo.ref else none

/-- A renewal whose answer ends at `lease`, after the welcome came through. -/
def renewal (lease : Time) : List Action :=
  [.deliver second second,
    .serve registry second (.call (.renewStart request)),
    .serve registry second (.call (.renewFinish ⟨Server.Demo.auth 1, ServerSession.Demo.ref, second⟩
      (some { Server.Demo.auth 1 with credentialGeneration := 2, leaseExpiresAt := lease }))),
    .deliver second second]

def start : Option Leased :=
  Server.Demo.admission.toOption.bind fun p =>
    (ClientSession.new second (Server.Demo.hello 1)).toOption.map fun c =>
      opened p.1 p.2 c second

/-- The authenticator grants 100 s, more than the server's 45 s. -/
theorem longer_renewal :
    (start.bind fun x => (run (step Server.Demo.server) x (renewal (100 * second))).map fun y =>
      decide (y.channel = [] ∧ y.session.lease.expiresAt < y.client.lease.expiresAt)) =
        some true := by
  decide +kernel

/-- The connector's lease does not stay within the server's in every run. -/
theorem lease_disagreement :
    ¬ ∀ (server : Server) now earlier hello authenticated source drawn s w c, (0 : Time) < now →
      server.openSession now hello authenticated source drawn = .ok (s, w) →
      ClientSession.new earlier hello = .ok c →
      ∀ x, Reach (step server) Always (opened s w c now) x → x.channel = [] →
        x.client.lease.expiresAt ≤ x.session.lease.expiresAt := by
  intro h
  obtain ⟨x₀, hstart, hrun⟩ := Option.bind_eq_some_iff.mp longer_renewal
  obtain ⟨⟨s, w⟩, hadmit, hnew⟩ := Option.bind_eq_some_iff.mp hstart
  obtain ⟨c, hc, rfl⟩ := Option.map_eq_some_iff.mp hnew
  obtain ⟨x, hx, hlate⟩ := Option.map_eq_some_iff.mp hrun
  rw [decide_eq_true_eq] at hlate
  have hle := h Server.Demo.server second second _ _ _ _ s w c (by decide)
    (Server.eq_ok_of_toOption hadmit) (Server.eq_ok_of_toOption hc) x (reach_of_run _ hx) hlate.1
  exact absurd hlate.2 (not_lt.mpr hle)

theorem sensible_renewal :
    (start.bind fun x => (runChecked (step Server.Demo.server) (Sensible Server.Demo.server) x
      (renewal (46 * second))).map fun y => decide (y.channel = [])) = some true := by
  decide +kernel

theorem lease_agreement_renewal :
    ∃ x₀ x, runChecked (step Server.Demo.server) (Sensible Server.Demo.server) x₀
      (renewal (46 * second)) = some x ∧
        x.client.lease.expiresAt ≤ x.session.lease.expiresAt := by
  obtain ⟨x₀, hstart, hrun⟩ := Option.bind_eq_some_iff.mp sensible_renewal
  obtain ⟨⟨s, w⟩, hadmit, hnew⟩ := Option.bind_eq_some_iff.mp hstart
  obtain ⟨c, hc, rfl⟩ := Option.map_eq_some_iff.mp hnew
  obtain ⟨x, hx, hempty⟩ := Option.map_eq_some_iff.mp hrun
  rw [decide_eq_true_eq] at hempty
  exact ⟨_, x, hx, (lease_agreement (by decide) (Server.eq_ok_of_toOption hadmit)
    (Server.eq_ok_of_toOption hc)).1 x (reach_of_runChecked _ hx) hempty⟩

end Demo

end Leased

end Paperboat.ConnectorProtocol
