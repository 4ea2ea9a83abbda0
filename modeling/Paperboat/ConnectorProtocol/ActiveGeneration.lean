import Paperboat.ConnectorProtocol.ServerMoves
import Paperboat.Lib.Transition

/-! The generations a server session activates. A session holds up to four
configurations at once: the pending snapshot, the pending delta, the candidate
and the active one. An offer is checked against the active generation and for
equality with the candidate, never for being older than the candidate. While no
offer goes below the staged candidate the four are ordered, so the active
generation only grows; one offer below it lets an acknowledged older snapshot
replace a newer active one. -/

namespace Paperboat.ConnectorProtocol

open Transition

namespace ServerSession

/-- One call at a clock reading, with whatever the other sessions have left in
the registry. -/
structure Invocation where
  registry : SessionRegistry
  now : Time
  call : Call

def after (config : ServerConfig) (s : ServerSession) (i : Invocation) : ServerSession :=
  match i.call with
  | .offerSnapshot snapshot => (offerSnapshot config s i.registry i.now snapshot).session
  | .offerDelta delta => (offerDelta config s i.registry i.now delta).session
  | .handleAck ack => (s.handleAck i.registry i.now ack).session
  | .handleReadiness readiness => (s.handleReadiness i.registry i.now readiness).session
  | .handleHeartbeat heartbeat => (handleHeartbeat config s i.registry i.now heartbeat).session
  | .beginDrain cancelled later drainID deadline force =>
    (s.beginDrain i.registry cancelled i.now later drainID deadline force).session
  | .handleDrainAck cancelled ack => (s.handleDrainAck i.registry cancelled i.now ack).session
  | .renewStart request => (s.renewStart i.registry i.now request).session
  | .renewFinish renewal answer =>
    (renewFinish config s i.registry i.now renewal answer).session

def step (config : ServerConfig) (s : ServerSession) (i : Invocation) : Option ServerSession :=
  some (after config s i)

/-! ### What a call can do to the configurations -/

/-- The four configurations are untouched, except that a pending one may be
dropped. -/
structure Keeps (s t : ServerSession) : Prop where
  active : t.active = s.active
  hasActive : t.hasActive = s.hasActive
  candidate : t.candidate = s.candidate
  hasCandidate : t.hasCandidate = s.hasCandidate
  pendingSnapshot : t.pendingSnapshot = s.pendingSnapshot ∨ t.pendingSnapshot = none
  pendingDelta : t.pendingDelta = s.pendingDelta ∨ t.pendingDelta = none

theorem Keeps.refl (s : ServerSession) : Keeps s s := ⟨rfl, rfl, rfl, rfl, .inl rfl, .inl rfl⟩

theorem Keeps.snapshot {P : Snapshot → Prop} (hk : Keeps s t) (h : ∀ p ∈ s.pendingSnapshot, P p) :
    ∀ p ∈ t.pendingSnapshot, P p := by
  rcases hk.pendingSnapshot with hp | hp <;> rw [hp]
  · exact h
  · simp

theorem Keeps.delta {P : Delta → Prop} (hk : Keeps s t) (h : ∀ d ∈ s.pendingDelta, P d) :
    ∀ d ∈ t.pendingDelta, P d := by
  rcases hk.pendingDelta with hp | hp <;> rw [hp]
  · exact h
  · simp

theorem Keeps.trans (h : Keeps s t) (h' : Keeps t u) : Keeps s u where
  active := h'.active.trans h.active
  hasActive := h'.hasActive.trans h.hasActive
  candidate := h'.candidate.trans h.candidate
  hasCandidate := h'.hasCandidate.trans h.hasCandidate
  pendingSnapshot := by
    rcases h'.pendingSnapshot with h1 | h1
    · rw [h1]; exact h.pendingSnapshot
    · exact .inr h1
  pendingDelta := by
    rcases h'.pendingDelta with h1 | h1
    · rw [h1]; exact h.pendingDelta
    · exact .inr h1

theorem keeps_closedFor (s : ServerSession) (reason : DisconnectReason) :
    Keeps s (s.closedFor reason) := { Keeps.refl s with }

theorem keeps_ensureActive (s : ServerSession) (r : SessionRegistry) (now : Time) :
    Keeps s (s.ensureActive r now).2.1 := by
  rcases ensureActive_cases s r now with h | ⟨reason, h⟩ <;> rw [h]
  · exact .refl s
  · exact keeps_closedFor s reason

theorem keeps_restoreState (s : ServerSession) : Keeps s s.restoreState := by
  unfold restoreState
  split_ifs <;> exact { Keeps.refl s with }

variable {β : Type} {r : SessionRegistry} {now : Time}

/-- A guarded handler either stops at the liveness check or runs its body. -/
theorem guarded_session (s : ServerSession) (r : SessionRegistry) (now : Time)
    (body : Except Error β × ServerSession) :
    Keeps s (s.guarded r now body).session ∨ (s.guarded r now body).session = body.2 := by
  have h := keeps_ensureActive s r now
  unfold guarded
  split
  next heq => rw [heq] at h; exact .inl h
  next => exact .inr rfl

/-- A call keeps the configurations, stages an offered snapshot or delta, turns
an acknowledged one into the candidate, or promotes the candidate. -/
inductive ConfigStep (config : ServerConfig) (s : ServerSession) (i : Invocation) :
    ServerSession → Prop
  | keep {t} (h : Keeps s t) : ConfigStep config s i t
  | stage {t} (snapshot : Snapshot) (hcall : i.call = .offerSnapshot snapshot)
      (hactive : s.hasActive → s.active.generation < snapshot.generation)
      (hcandidate : s.hasCandidate → snapshot.generation ≠ s.candidate.generation)
      (hkeep : Keeps { s with pendingSnapshot := none, pendingDelta := none }
        { t with pendingSnapshot := none })
      (hpending : t.pendingSnapshot = some (s.bindSnapshot snapshot)) : ConfigStep config s i t
  | stageDelta {t} (delta : Delta) (hgen : delta.generation = delta.previousGeneration + 1)
      (ht : t = { s with pendingDelta := some delta }) : ConfigStep config s i t
  | acknowledge {t} (pending : Snapshot) (hpending : s.pendingSnapshot = some pending)
      (hkeep : Keeps { s with
        candidate := pending, hasCandidate := true, pendingSnapshot := none } t) :
      ConfigStep config s i t
  | acknowledgeDelta {t} (pending : Delta) (candidate : Snapshot)
      (hdelta : s.pendingDelta = some pending) (hne : pending.generation ≠ 0)
      (hactive : s.hasActive → pending.previousGeneration = s.active.generation)
      (hcandidate : candidate.generation = pending.generation)
      (hkeep : Keeps { s with
        candidate := candidate, hasCandidate := true, pendingDelta := none } t)
      (hpending : s.pendingSnapshot = none) : ConfigStep config s i t
  | promote {t} (hcandidate : s.hasCandidate)
      (hkeep : Keeps { s with
        active := s.candidate, hasActive := true, candidate := {}, hasCandidate := false } t) :
      ConfigStep config s i t

variable {config : ServerConfig} {s t : ServerSession} {i : Invocation}

/-- The rule that lifts a handler's body through the liveness check. -/
theorem configStep_guarded
    {body : Except Error β × ServerSession} (h : ConfigStep config s i body.2) :
    ConfigStep config s i (s.guarded r now body).session := by
  rcases guarded_session s r now body with hk | he
  · exact .keep hk
  · rw [he]; exact h

theorem configStep_offerSnapshot (snapshot : Snapshot) (hi : i.call = .offerSnapshot snapshot) :
    ConfigStep config s i (offerSnapshot config s i.registry i.now snapshot).session := by
  unfold offerSnapshot
  split
  next => exact .keep (.refl s)
  next =>
    apply configStep_guarded
    split_ifs with h1 h2 h3 h4
    · exact .keep (.refl s)
    · exact .keep (.refl s)
    · exact .keep (.refl s)
    · exact .keep (.refl s)
    have hact : s.hasActive → s.active.generation < snapshot.generation := by
      intro ha
      have hlt : ¬ snapshot.generation < s.active.generation := fun h => h2 ⟨ha, h⟩
      exact UInt64.lt_of_le_of_ne (UInt64.not_lt.mp hlt) fun h => h4 ⟨ha, h.symm⟩
    have hcand : s.hasCandidate → snapshot.generation ≠ s.candidate.generation :=
      fun hc he => h3 ⟨hc, he⟩
    have hstage : ConfigStep config s i (s.stageSnapshot snapshot) := by
      refine .stage snapshot hi hact hcand ?_ ?_
      · unfold stageSnapshot
        split_ifs <;> exact ⟨rfl, rfl, rfl, rfl, .inl rfl, .inl rfl⟩
      · unfold stageSnapshot
        split_ifs <;> rfl
    split
    · split_ifs
      · exact .keep (.refl s)
      · exact hstage
    · exact hstage

/-- What an acknowledgement does, by its result. -/
inductive AckOutcome (s : ServerSession) : Except Error Unit → ServerSession → Prop
  | failed {err : Error} {t : ServerSession} (hkeep : Keeps s t)
      (hready : t.readyGeneration = s.readyGeneration) : AckOutcome s (.error err) t
  | snapshot (p : Snapshot) (hp : s.pendingSnapshot = some p) :
      AckOutcome s (.ok ()) (awaitReady { s with
        candidate := p, hasCandidate := true, pendingSnapshot := none, needsSnapshot := false })
  | delta (d : Delta) (hs : s.pendingSnapshot = none) (hd : s.pendingDelta = some d)
      (hne : d.generation ≠ 0)
      (hprev : s.hasActive → d.previousGeneration = s.active.generation) :
      AckOutcome s (.ok ()) (awaitReady { s with
        pendingDelta := none, candidate := s.deltaCandidate d, hasCandidate := true })
  | repeated (hs : s.pendingSnapshot = none) (hd : s.pendingDelta = none) :
      AckOutcome s (.ok ()) s

@[simp] theorem restoreState_readyGeneration (s : ServerSession) :
    s.restoreState.readyGeneration = s.readyGeneration := by
  unfold restoreState
  split <;> rfl

@[simp] theorem awaitReady_readyGeneration (s : ServerSession) :
    s.awaitReady.readyGeneration = s.readyGeneration := by
  unfold awaitReady
  split <;> rfl

theorem keeps_awaitReady (s : ServerSession) : Keeps s s.awaitReady := by
  unfold awaitReady
  split
  · exact .refl s
  · exact { Keeps.refl s with }

theorem ensureActive_readyGeneration (s : ServerSession) (r : SessionRegistry) (now : Time) :
    (s.ensureActive r now).2.1.readyGeneration = s.readyGeneration := by
  rcases ensureActive_cases s r now with h | ⟨_, h⟩ <;> rw [h]
  rfl

theorem AckOutcome.unchanged (err : Error) : AckOutcome s (.error err) s := .failed (.refl s) rfl

theorem AckOutcome.restored (h : Keeps s t) (hready : t.readyGeneration = s.readyGeneration) :
    AckOutcome s (.error err) t.restoreState :=
  .failed (h.trans (keeps_restoreState t)) ((restoreState_readyGeneration t).trans hready)

theorem ackOutcome_handleAck (r : SessionRegistry) (now : Time) (ack : Ack) :
    AckOutcome s (s.handleAck r now ack).result (s.handleAck r now ack).session := by
  unfold handleAck
  split
  · exact .unchanged _
  rename_i hvalid
  have hkeep := keeps_ensureActive s r now
  have hready := ensureActive_readyGeneration s r now
  unfold guarded
  split
  next heq =>
    rw [heq] at hkeep hready
    exact .failed hkeep hready
  split
  · exact .unchanged _
  split
  next p hp =>
    have hdrop : Keeps s { s with pendingSnapshot := none, needsSnapshot := true } :=
      ⟨rfl, rfl, rfl, rfl, .inr rfl, .inl rfl⟩
    unfold handlePendingSnapshot
    split
    · exact .unchanged _
    split
    · exact .restored hdrop rfl
    · exact .restored hdrop rfl
    all_goals exact .snapshot p hp
  next d hs hd =>
    have hdrop : Keeps s { s with pendingDelta := none, needsSnapshot := true } :=
      ⟨rfl, rfl, rfl, rfl, .inl rfl, .inr rfl⟩
    unfold handlePendingDelta
    split
    · exact .unchanged _
    next hnames =>
    dsimp only
    split
    · exact .restored hdrop rfl
    · exact .restored hdrop rfl
    all_goals
      split
      · exact .failed ⟨rfl, rfl, rfl, rfl, .inl rfl, .inr rfl⟩ rfl
      next hgap =>
        refine .delta d hs hd (ack.delta_generation hvalid hnames) fun ha => ?_
        simp only [ha, Bool.true_and, Bool.or_eq_true, bne_iff_ne, ne_eq, not_or, not_not] at hgap
        exact hgap.1
  next hs hd =>
    cases hdup : s.handleDuplicateAck ack with
    | error err => exact .unchanged err
    | ok => exact .repeated hs hd

theorem AckOutcome.configStep (h : AckOutcome s result t) : ConfigStep config s i t := by
  cases h with
  | failed hkeep => exact .keep hkeep
  | snapshot p hp => exact .acknowledge p hp { keeps_awaitReady _ with }
  | delta d hs hd hne hprev => exact .acknowledgeDelta d _ hd hne hprev rfl (keeps_awaitReady _) hs
  | repeated => exact .keep (.refl s)

/-- The other calls, by what they can do to the session. -/
theorem configStep_of_move (h : Move config s r now (.call c) t)
    (hoffer : ∀ snapshot, c ≠ .offerSnapshot snapshot) (hack : ∀ ack, c ≠ .handleAck ack) :
    ConfigStep config s i t := by
  cases h with
  | offer => exact absurd rfl (hoffer _)
  | refuseSnapshot | applySnapshot | refuseDelta | dropDelta | applyDelta => exact absurd rfl (hack _)
  | idle => exact .keep (.refl s)
  | closed reason => exact .keep (keeps_closedFor s reason)
  | offerDelta _ _ _ hgen => exact .stageDelta _ hgen rfl
  | ready =>
    unfold promoted
    split
    next hc => exact .promote hc ⟨rfl, rfl, rfl, rfl, .inl rfl, .inl rfl⟩
    next => exact .keep { Keeps.refl s with }
  | @drainRejected _ ack =>
    have hnote : Keeps s { s with
        drainStatus := some .rejected, drainCode := ack.code, drainCompleted := true } :=
      { Keeps.refl s with }
    exact .keep (hnote.trans (keeps_restoreState _))
  | mismatch | heartbeat | drain | drainAck | renew =>
    exact .keep { Keeps.refl s with }

theorem configStep_after (config : ServerConfig) (s : ServerSession) (i : Invocation) :
    ConfigStep config s i (after config s i) := by
  obtain ⟨r, now, c⟩ := i
  have hmove := move_of_perform config s r now (.call c)
  cases c with
  | offerSnapshot snapshot => exact configStep_offerSnapshot snapshot rfl
  | handleAck ack => exact (ackOutcome_handleAck r now ack).configStep
  | offerDelta | handleReadiness | handleHeartbeat | beginDrain | handleDrainAck | renewStart | renewFinish =>
    exact configStep_of_move hmove (by simp) (by simp)

/-! ### The order of the staged generations -/

/-- Newer stages hold strictly newer generations. -/
structure Ordered (s : ServerSession) : Prop where
  unset : s.hasActive = false → s.active.generation = 0
  candidate : s.hasCandidate → s.hasActive → s.active.generation < s.candidate.generation
  pendingActive : ∀ p ∈ s.pendingSnapshot, s.hasActive → s.active.generation < p.generation
  pendingCandidate : ∀ p ∈ s.pendingSnapshot, s.hasCandidate →
    s.candidate.generation < p.generation
  delta : ∀ d ∈ s.pendingDelta, d.generation = d.previousGeneration + 1

/-- The successor of a generation is above it, unless it has wrapped around. -/
theorem lt_successor {g n : UInt64} (h : n = g + 1) (hn : n ≠ 0) : g < n := by
  subst h
  rw [ne_eq, ← UInt64.toNat_inj, UInt64.toNat_add] at hn
  rw [UInt64.lt_iff_toNat_lt, UInt64.toNat_add]
  have := g.toNat_lt
  simp only [UInt64.toNat_one, UInt64.toNat_zero] at hn ⊢
  omega

theorem ordered_accept (ref : SessionRef) (auth : AuthResult) (lease : Lease)
    (capabilities : List String) (snapshot : Snapshot) (now : Time) :
    Ordered (accept ref auth lease capabilities snapshot now) where
  unset _ := rfl
  candidate h := by simp [accept] at h
  pendingActive _ _ h := by simp [accept] at h
  pendingCandidate _ _ h := by simp [accept] at h
  delta _ h := by simp [accept] at h

theorem Ordered.keep (h : Ordered s) (hk : Keeps s t) : Ordered t where
  unset := by rw [hk.active, hk.hasActive]; exact h.unset
  candidate := by
    rw [hk.active, hk.hasActive, hk.candidate, hk.hasCandidate]; exact h.candidate
  pendingActive := by
    rw [hk.active, hk.hasActive]
    exact hk.snapshot h.pendingActive
  pendingCandidate := by
    rw [hk.candidate, hk.hasCandidate]
    exact hk.snapshot h.pendingCandidate
  delta := hk.delta h.delta

/-- The caller does not offer a snapshot older than the candidate already
staged, unless the active generation rules it out anyway. -/
def offersForward (s : ServerSession) (i : Invocation) : Bool :=
  match i.call with
  | .offerSnapshot snapshot =>
    !s.hasCandidate || (s.hasActive && decide (snapshot.generation ≤ s.active.generation)) ||
      decide (s.candidate.generation ≤ snapshot.generation)
  | _ => true

def OffersForward (s : ServerSession) (i : Invocation) : Prop := offersForward s i = true

instance (s : ServerSession) (i : Invocation) : Decidable (OffersForward s i) :=
  inferInstanceAs (Decidable (_ = _))

theorem OffersForward.le {snapshot : Snapshot} (h : OffersForward s i)
    (hcall : i.call = .offerSnapshot snapshot) (hc : s.hasCandidate)
    (ha : s.hasActive → s.active.generation < snapshot.generation) :
    s.candidate.generation ≤ snapshot.generation := by
  simp only [OffersForward, offersForward, hcall, hc, Bool.not_true, Bool.false_or,
    Bool.or_eq_true, Bool.and_eq_true, decide_eq_true_eq] at h
  rcases h with ⟨h1, h2⟩ | h
  · exact absurd (ha h1) (UInt64.not_lt.mpr h2)
  · exact h

theorem Ordered.after (h : Ordered s) (hi : OffersForward s i) (ht : ConfigStep config s i t) :
    Ordered t := by
  cases ht with
  | keep hk => exact h.keep hk
  | stage snapshot hcall hact hcand hkeep hpend =>
    have ho : Ordered { s with pendingSnapshot := none, pendingDelta := none } :=
      ⟨h.unset, h.candidate, by simp, by simp, by simp⟩
    have ho' := ho.keep hkeep
    refine ⟨ho'.unset, ho'.candidate, ?_, ?_, ho'.delta⟩
    · intro p hp ha
      rw [hpend, Option.mem_some_iff] at hp
      subst hp
      have hs : s.hasActive := by rw [← hkeep.hasActive]; exact ha
      have hlt := hact hs
      rw [show t.active = s.active from hkeep.active]
      exact hlt
    · intro p hp hc
      rw [hpend, Option.mem_some_iff] at hp
      subst hp
      have hs : s.hasCandidate := by rw [← hkeep.hasCandidate]; exact hc
      have hle := hi.le hcall hs hact
      rw [show t.candidate = s.candidate from hkeep.candidate]
      exact UInt64.lt_of_le_of_ne hle (hcand hs).symm
  | stageDelta delta hgen ht =>
    subst ht
    refine { h with delta := ?_ }
    intro d hd
    rw [Option.mem_some_iff] at hd
    subst hd
    exact hgen
  | acknowledge pending hpend hkeep =>
    refine Ordered.keep ?_ hkeep
    refine ⟨h.unset, ?_, by simp, by simp, h.delta⟩
    intro _ ha
    exact h.pendingActive pending hpend ha
  | acknowledgeDelta pending candidate hdelta hne hact hcand hkeep hpend =>
    have hlt := lt_successor (h.delta pending hdelta) hne
    refine Ordered.keep ?_ hkeep
    refine ⟨h.unset, ?_, by simp [hpend], by simp [hpend], by simp⟩
    intro _ ha
    rw [hact ha, ← hcand] at hlt
    exact hlt
  | promote hcand hkeep =>
    refine Ordered.keep ?_ hkeep
    refine ⟨by simp, by simp, ?_, by simp, h.delta⟩
    intro p hp _
    exact h.pendingCandidate p hp hcand

/-- An ordered session keeps its active configuration or moves to a strictly
newer one. -/
theorem active_step (h : Ordered s) (ht : ConfigStep config s i t) :
    (t.active = s.active ∧ t.hasActive = s.hasActive) ∨
      (t.hasActive ∧ (s.hasActive → s.active.generation < t.active.generation)) := by
  cases ht with
  | keep hk => exact .inl ⟨hk.active, hk.hasActive⟩
  | stage snapshot hcall hact hcand hkeep hpend =>
    exact .inl ⟨hkeep.active, hkeep.hasActive⟩
  | stageDelta delta hgen ht => subst ht; exact .inl ⟨rfl, rfl⟩
  | acknowledge pending hpend hkeep => exact .inl ⟨hkeep.active, hkeep.hasActive⟩
  | acknowledgeDelta pending candidate hdelta hne hact hcand hkeep hpend =>
    exact .inl ⟨hkeep.active, hkeep.hasActive⟩
  | promote hcand hkeep =>
    refine .inr ⟨by rw [hkeep.hasActive], fun ha => ?_⟩
    rw [hkeep.active]
    exact h.candidate hcand ha

theorem ordered_reach (h₀ : Ordered s₀) (h : Reach (step config) OffersForward s₀ s) : Ordered s :=
  h.invariant h₀ fun {x _ _} hx hok hst => by
    cases hst
    exact hx.after hok (configStep_after config x _)

/-- Between two states of one run the active configuration is the same or the
later generation is strictly greater. -/
theorem active_reach (hs : Ordered s) (h : Reach (step config) OffersForward s t) :
    (t.active = s.active ∧ t.hasActive = s.hasActive) ∨
      (t.hasActive ∧ (s.hasActive → s.active.generation < t.active.generation)) := by
  induction h with
  | refl => exact .inl ⟨rfl, rfl⟩
  | @tail x y i hx hok hst ih =>
    cases hst
    rcases active_step (ordered_reach hs hx) (configStep_after config x i) with hk | hn
    · rw [hk.1, hk.2]; exact ih
    · right
      refine ⟨hn.1, fun ha => ?_⟩
      rcases ih with hi | hi
      · rw [← hi.1]; exact hn.2 (by rw [hi.2]; exact ha)
      · exact UInt64.lt_trans (hi.2 ha) (hn.2 hi.1)

/-- Along every run without an offer below the staged candidate the active
generation never decreases, and one generation has one content hash. -/
theorem active_generation_monotone (config : ServerConfig) (ref : SessionRef) (auth : AuthResult)
    (lease : Lease) (capabilities : List String) (snapshot : Snapshot) (now : Time)
    {s t : ServerSession}
    (hs : Reach (step config) OffersForward (accept ref auth lease capabilities snapshot now) s)
    (ht : Reach (step config) OffersForward s t) :
    s.active.generation ≤ t.active.generation ∧
      (s.hasActive → t.hasActive → s.active.generation = t.active.generation →
        s.active.contentHash = t.active.contentHash) := by
  have ho := ordered_reach (ordered_accept ref auth lease capabilities snapshot now) hs
  rcases active_reach ho ht with hk | hn
  · rw [hk.1]
    exact ⟨UInt64.le_refl _, fun _ _ _ => rfl⟩
  · constructor
    · cases ha : s.hasActive with
      | false => rw [ho.unset ha]; exact UInt64.zero_le
      | true => exact UInt64.le_of_lt (hn.2 ha)
    · intro ha _ he
      exact absurd (he ▸ hn.2 ha) (UInt64.lt_irrefl _)

/-! ### A run that goes back -/

namespace Demo

def session : ServerSession :=
  accept ref auth ⟨"sess_1", 46 * second, 15000⟩ [capabilityDrain]
    { snapshot 1 with
      accountID := "account_1", connectorID := "connector_1", sessionID := "sess_1",
      processGeneration := 1 } second

def call (c : Call) : Invocation := ⟨fun id => if id = "connector_1" then some ref else none, second, c⟩

def offer (generation : UInt64) : Invocation := call (.offerSnapshot (snapshot generation))

def ack (generation : UInt64) : Invocation :=
  call (.handleAck ⟨"account_1", "tunnel_1", "connector_1", "sess_1", 1, .snapshot, .applied,
    generation, hash generation, none⟩)

def ready (generation : UInt64) : Invocation :=
  call (.handleReadiness ⟨"account_1", "sess_1", "tunnel_1", "connector_1", 1, generation,
    hash generation, true, true, true⟩)

def event (i : Invocation) : Event := ⟨i.registry, i.now, .call i.call⟩

/-- Generation 2 is offered while 3 is staged, and acknowledged after 3 is active. -/
def upTo3 : List Invocation := [ack 1, ready 1, offer 3, ack 3, offer 2, ready 3]

def backTo2 : List Invocation := [ack 2, ready 2]

theorem upTo3_enabled : (run (step serverConfig) session upTo3).isSome := by decide +kernel

def at3 : ServerSession := final (step serverConfig) session upTo3 upTo3_enabled

theorem backTo2_enabled : (run (step serverConfig) at3 backTo2).isSome := by decide +kernel

def at2 : ServerSession := final (step serverConfig) at3 backTo2 backTo2_enabled

/-- Every run keeping the active generation is false: this one activates 3, then 2. -/
theorem active_generation_goes_back :
    ¬ ∀ s t, Reach (step serverConfig) Always session s → Reach (step serverConfig) Always s t →
      s.active.generation ≤ t.active.generation ∧
        (s.hasActive → t.hasActive → s.active.generation = t.active.generation →
          s.active.contentHash = t.active.contentHash) := by
  intro h
  have h3 : at3.active.generation = 3 := by decide +kernel
  have h2 : at2.active.generation = 2 := by decide +kernel
  have hle := (h at3 at2 (reach_final upTo3 upTo3_enabled)
    (reach_final backTo2 backTo2_enabled)).1
  rw [h3, h2] at hle
  exact absurd hle (by decide)

/-- An ordinary upgrade from generation 1 to 2. -/
theorem first_enabled :
    (runChecked (step serverConfig) OffersForward session [ack 1, ready 1]).isSome := by
  decide +kernel

def at1 : ServerSession :=
  finalChecked (step serverConfig) OffersForward session [ack 1, ready 1] first_enabled

theorem upgrade_enabled :
    (runChecked (step serverConfig) OffersForward at1 [offer 2, ack 2, ready 2]).isSome := by
  decide +kernel

theorem active_generation_upgrade :
    at1.active.generation ≤
      (finalChecked (step serverConfig) OffersForward at1 [offer 2, ack 2, ready 2]
        upgrade_enabled).active.generation :=
  (active_generation_monotone serverConfig ref auth _ _ _ _
    (reach_finalChecked [ack 1, ready 1] first_enabled)
    (reach_finalChecked [offer 2, ack 2, ready 2] upgrade_enabled)).1

end Demo

end ServerSession

end Paperboat.ConnectorProtocol
