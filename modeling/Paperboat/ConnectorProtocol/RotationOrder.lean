import Paperboat.ConnectorProtocol.RotationCoordinator

/-! The order of a credential rotation: the state of a target only moves forward, and no
target is revoked before every target of the plan is ready. -/

namespace Paperboat.ConnectorProtocol

open Transition

/-- One step of a target. Nothing leaves `revoked` and `failed`. -/
inductive RotationTargetState.Edge : RotationTargetState → RotationTargetState → Prop
  | challenge : Edge .pending .challenged
  | install : Edge .challenged .installed
  | ready : Edge .installed .ready
  | revoke : Edge .ready .revoking
  | revoked : Edge .revoking .revoked
  | fail {s : RotationTargetState} (hr : s ≠ .revoked) (hf : s ≠ .failed) : Edge s .failed

namespace TargetProgress

/-- The replacement session of the target reported ready. -/
def HasReady (p : TargetProgress) : Prop :=
  (p.state = .ready ∨ p.state = .revoking ∨ p.state = .revoked) ∧ p.ready.sessionID ≠ ""

/-- A state after `ready` was reached through a readiness message. -/
def Sound (p : TargetProgress) : Prop :=
  p.state = .ready ∨ p.state = .revoking ∨ p.state = .revoked → p.ready.sessionID ≠ ""

end TargetProgress

theorem validateIdentifier_ne_empty (h : validateIdentifier value) : value ≠ "" := by
  rintro rfl
  exact absurd h (by decide)

theorem CredentialRotationReady.sessionID_of_validate {r : CredentialRotationReady}
    (h : r.validate rules now = .ok u) : r.sessionID ≠ "" := by
  unfold CredentialRotationReady.validate at h
  simp only [bind, Except.bind] at h
  split at h
  · contradiction
  · rename_i hcheck
    simp only [Bool.or_eq_true, not_or, Bool.not_eq_true', Bool.not_eq_false] at hcheck
    have hhead := hcheck.1.1.1.1.1.1
    simp only [RotationHeader.wellFormed, Bool.and_eq_true] at hhead
    exact validateIdentifier_ne_empty hhead.1.1.1.1.2

namespace RotationCoordinator

variable {rules : RotationRules} {c c' : RotationCoordinator} {id : String}
  {p p' : TargetProgress}

/-- What a call can do to one target of a plan. -/
inductive TargetStep (rules : RotationRules) (c : RotationCoordinator) (id : String) : TargetProgress → TargetProgress → Prop
  | same (p : TargetProgress) : TargetStep rules c id p p
  | challenge {p : TargetProgress} (r : ChallengeRequest) (hr : r.connectorID = id)
      (hstate : p.state = .pending ∨ p.state = .challenged) :
      TargetStep rules c id p { p with challenge := c.challengeFor p.target r, state := .challenged }
  | install {p : TargetProgress} (proof : CredentialRotationProof) (hid : proof.connectorID = id)
      (hstate : p.state = .challenged) (hmatches : rotationProofMatchesChallenge proof p.challenge p.target = true) :
      TargetStep rules c id p { p with proof, install := c.installFor p.challenge proof, state := .installed }
  | ready {p : TargetProgress} {now : Time} (ready : CredentialRotationReady) (hid : ready.connectorID = id)
      (hstate : p.state = .installed) (hvalid : ready.validate rules now = .ok ()) :
      TargetStep rules c id p { p with ready, state := .ready }
  | revoke {p : TargetProgress} (now : Time) (nonce : String) (hstate : p.state = .ready) :
      TargetStep rules c id p { p with revoke := c.revokeFor now id nonce p, state := .revoking }
  | revoked {p : TargetProgress} (hstate : p.state = .revoking) : TargetStep rules c id p { p with state := .revoked }
  | fail {p : TargetProgress} (code : Option Code) (hr : p.state ≠ .revoked) (hf : p.state ≠ .failed) :
      TargetStep rules c id p { p with state := .failed, code := code }

/-- What a call does to the coordinator. -/
structure Steps (rules : RotationRules) (c c' : RotationCoordinator) : Prop where
  plan : c'.plan = c.plan
  missing : ∀ id, c.targets id = none → c'.targets id = none
  targets : ∀ id p, c.targets id = some p → ∃ p', c'.targets id = some p' ∧ TargetStep rules c id p p'

theorem Steps.of_targets (hplan : c'.plan = c.plan) (h : c'.targets = c.targets) : Steps rules c c' where
  plan := hplan
  missing id hid := by rw [h, hid]
  targets id p hp := ⟨p, by rw [h, hp], .same p⟩

theorem Steps.refl (c : RotationCoordinator) : Steps rules c c := .of_targets rfl rfl

theorem Steps.congr {d : RotationCoordinator} (h : Steps rules c c') (hplan : d.plan = c'.plan)
    (ht : d.targets = c'.targets) : Steps rules c d where
  plan := hplan.trans h.plan
  missing id hid := by rw [ht, h.missing id hid]
  targets id p hp := by
    rw [ht]
    exact h.targets id p hp

theorem targets_setTarget (c : RotationCoordinator) (id i : String) (p : TargetProgress) :
    (c.setTarget id p).targets i = if i = id then some p else c.targets i :=
  Function.update_apply ..

theorem steps_setTarget (hp : c.targets id = some p) (h : TargetStep rules c id p p') :
    Steps rules c (c.setTarget id p') where
  plan := rfl
  missing i hi := by
    rw [targets_setTarget]
    split
    next heq => rw [heq, hp] at hi; cases hi
    next => exact hi
  targets i q hq := by
    rw [targets_setTarget]
    split
    next heq =>
      subst heq
      rw [hp] at hq
      cases hq
      exact ⟨p', rfl, h⟩
    next => exact ⟨q, hq, .same q⟩

/-! ### One call -/

theorem steps_failTarget (hp : c.targets id = some p) (hr : p.state ≠ .revoked)
    (hf : p.state ≠ .failed) : Steps rules c (c.failTarget id p) :=
  steps_setTarget hp (.fail _ hr hf)

section

variable (c) (env : RotationEnv)

theorem steps_start : Steps rules c (c.start env).2 := by
  unfold start
  split_ifs
  · exact .refl c
  · exact .refl c
  · exact .refl c
  · exact .of_targets rfl rfl

theorem steps_challenge (authorized : Except Error Unit) (r : ChallengeRequest) :
    Steps rules c (c.challengeWithCredentialExpiry env authorized r).2 := by
  unfold challengeWithCredentialExpiry
  split
  · exact .refl c
  split
  · exact .refl c
  split
  · exact .refl c
  next p hp =>
  split
  · exact .refl c
  next hphase =>
  split
  · exact .refl c
  · exact .refl c
  split
  · exact .refl c
  refine steps_setTarget hp (.challenge r rfl ?_)
  by_contra hnot
  obtain ⟨hpend, hchal⟩ := not_or.mp hnot
  exact hphase ⟨hpend, .inl hchal⟩

omit c env in
theorem steps_acceptProof (rules : RotationRules) (c : RotationCoordinator) (env : RotationEnv)
    (proof : CredentialRotationProof) : Steps rules c (c.acceptProof rules env proof).2 := by
  unfold acceptProof
  split
  · exact .refl c
  split
  · exact .refl c
  · exact .refl c
  next _ p _ hp =>
  split
  · exact .refl c
  next hphase =>
  have hchal : p.state = .challenged := not_not.mp hphase
  split
  · exact .refl c
  next hmatch =>
  split
  · exact .refl c
  · exact .refl c
  split
  · exact steps_failTarget hp (by simp [hchal]) (by simp [hchal])
  · exact steps_setTarget hp (.install proof rfl hchal (by simpa using hmatch))

omit c env in
theorem steps_markReady (rules : RotationRules) (c : RotationCoordinator) (env : RotationEnv)
    (ready : CredentialRotationReady) : Steps rules c (c.markReady rules env ready).2 := by
  unfold markReady
  split
  · exact .refl c
  split
  · exact .refl c
  · exact .refl c
  next _ p hvalid hp =>
  split
  · exact .refl c
  next hphase =>
  have hinst : p.state = .installed := not_not.mp hphase
  split
  · exact .refl c
  split
  · exact steps_failTarget hp (by simp [hinst]) (by simp [hinst])
  · exact steps_setTarget hp (.ready ready rfl hinst hvalid)

theorem steps_revoke (revokeNonce : Option String) (connectorID : String) :
    Steps rules c (c.revoke env revokeNonce connectorID).2 := by
  unfold revoke
  split
  · exact .refl c
  split
  · exact .refl c
  next p hp =>
  split
  · exact .refl c
  split
  · exact .refl c
  split
  · exact .refl c
  split
  · exact .refl c
  next hphase =>
  have hready : p.state = .ready := not_not.mp hphase
  split
  · exact .refl c
  split
  · exact .refl c
  split
  · exact steps_failTarget hp (by simp [hready]) (by simp [hready])
  · exact steps_setTarget hp (.revoke env.now _ hready)

omit c env in
theorem finishIfSucceeded_targets (c : RotationCoordinator) (now : Time) :
    (c.finishIfSucceeded now).plan = c.plan ∧ (c.finishIfSucceeded now).targets = c.targets := by
  unfold finishIfSucceeded
  split <;> exact ⟨rfl, rfl⟩

theorem steps_handleAck (ack : CredentialRotationAck) : Steps rules c (c.handleAck env ack).2 := by
  unfold handleAck
  split
  · exact .refl c
  split
  · exact .refl c
  split
  · exact .refl c
  next p hp =>
  split
  · exact .refl c
  split
  · exact .refl c
  next hlive =>
  obtain ⟨hrev, hfail⟩ := not_or.mp hlive
  split
  case h_1 | h_2 =>
    split
    · exact .refl c
    split
    · exact .refl c
    · exact steps_setTarget hp (.fail _ hrev hfail)
  case h_3 | h_4 => split <;> exact .refl c
  case h_5 => exact .refl c
  case h_6 =>
    split
    · exact .refl c
    next hmatch =>
    have hrevoking : p.state = .revoking := not_not.mp (not_or.mp hmatch).1
    have hdone : Steps rules c (c.setTarget ack.connectorID { p with state := .revoked }) :=
      steps_setTarget hp (.revoked hrevoking)
    obtain ⟨hplan, htargets⟩ := finishIfSucceeded_targets
      (c.setTarget ack.connectorID { p with state := .revoked }) env.now
    split
    · refine (steps_failTarget hp hrev hfail).congr hplan ?_
      exact (congrArg (Function.update · ack.connectorID _) htargets).trans
        (Function.update_idem _ _ _)
    · exact hdone.congr hplan htargets

theorem steps_fail (connectorID : String) (code : Code) :
    Steps rules c (c.fail env connectorID code).2 := by
  unfold fail
  split
  · exact .refl c
  next p hp =>
  split
  · exact .refl c
  next hrev =>
  split
  · exact .refl c
  next hfail =>
  split
  · exact .refl c
  · exact steps_setTarget hp (.fail _ hrev hfail)

end

theorem steps_of_step (h : c.step rules call = some c') : Steps rules c c' := by
  cases h
  cases call with
  | start env => exact steps_start c env
  | challenge env authorized r => exact steps_challenge c env authorized r
  | acceptProof env proof => exact steps_acceptProof rules c env proof
  | markReady env ready => exact steps_markReady rules c env ready
  | revoke env revokeNonce connectorID => exact steps_revoke c env revokeNonce connectorID
  | handleAck env ack => exact steps_handleAck c env ack
  | fail env connectorID code => exact steps_fail c env connectorID code

theorem TargetStep.state (h : TargetStep rules c id p p') : p'.state = p.state ∨ p.state.Edge p'.state := by
  cases h with
  | same => exact .inl rfl
  | challenge r hr hstate =>
    rcases hstate with hstate | hstate
    · exact .inr (hstate ▸ .challenge)
    · exact .inl hstate.symm
  | install proof hid hstate hmatch => exact .inr (hstate ▸ .install)
  | ready ready hid hstate hvalid => exact .inr (hstate ▸ .ready)
  | revoke now nonce hstate => exact .inr (by rw [hstate]; exact .revoke)
  | revoked hstate => exact .inr (by rw [hstate]; exact .revoked)
  | fail code hr hf => exact .inr (.fail hr hf)

theorem TargetStep.sound (h : TargetStep rules c id p p') (hs : p.Sound) : p'.Sound := by
  cases h with
  | same => exact hs
  | challenge r hr hstate => rintro (h | h | h) <;> cases h
  | install proof hid hstate hmatch => rintro (h | h | h) <;> cases h
  | ready ready hid hstate hvalid => exact fun _ => CredentialRotationReady.sessionID_of_validate hvalid
  | revoke now nonce hstate => exact fun _ => hs (.inl hstate)
  | revoked hstate => exact fun _ => hs (.inr (.inl hstate))
  | fail code hr hf => rintro (h | h | h) <;> cases h

theorem Steps.exists_before (h : Steps rules c c') (hp' : c'.targets id = some p') :
    ∃ p, c.targets id = some p ∧ TargetStep rules c id p p' := by
  cases hp : c.targets id with
  | none => rw [h.missing id hp] at hp'; cases hp'
  | some p =>
    obtain ⟨q, hq, hstep⟩ := h.targets id p hp
    obtain rfl : p' = q := Option.some.inj (hp'.symm.trans hq)
    exact ⟨p, rfl, hstep⟩

/-! ### Runs -/

/-- The coordinator keeps an entry for each target of its plan, and every target past
`ready` reported ready. -/
structure Sound (plan : RotationPlan) (c : RotationCoordinator) : Prop where
  ofPlan : c.plan = plan
  keys : ∀ t ∈ plan.targets, (c.targets t.connectorID).isSome
  ready : ∀ {id p}, c.targets id = some p → p.Sound

theorem new_of_validate {plan : RotationPlan} (h : plan.validate rules = .ok ()) :
    new rules plan = .ok (fresh plan) := by
  unfold new
  simp [h]

theorem sound_new {plan : RotationPlan} (h : new rules plan = .ok c) : Sound plan c := by
  unfold new at h
  split at h
  · contradiction
  · cases h
    refine ⟨rfl, fun t ht => ?_, fun hp hs => ?_⟩
    · rw [fresh, Option.isSome_map, List.find?_isSome]
      exact ⟨t, ht, beq_self_eq_true _⟩
    · obtain ⟨t, -, rfl⟩ := Option.map_eq_some_iff.mp hp
      rcases hs with h | h | h <;> cases h

theorem Sound.advance {plan : RotationPlan} (hs : Sound plan c) (h : Steps rules c c') :
    Sound plan c' where
  ofPlan := h.plan.trans hs.ofPlan
  keys t ht := by
    obtain ⟨p, hp⟩ := Option.isSome_iff_exists.mp (hs.keys t ht)
    obtain ⟨p', hp', -⟩ := h.targets _ p hp
    rw [hp', Option.isSome_some]
  ready {id p'} hp' := by
    obtain ⟨p, hp, hstep⟩ := h.exists_before hp'
    exact hstep.sound (hs.ready hp)

theorem sound_of_reach {plan : RotationPlan} {c₀ : RotationCoordinator}
    (hnew : new rules plan = .ok c₀) (hreach : Reach (step rules) Always c₀ c) : Sound plan c :=
  hreach.invariant (sound_new hnew) fun hs _ hst => hs.advance (steps_of_step hst)

/-- Along a run every target follows the edges. -/
theorem edges_of_reach (hreach : Reach (step rules) Always c c') (hp : c.targets id = some p)
    (hp' : c'.targets id = some p') : Relation.ReflTransGen RotationTargetState.Edge p.state p'.state := by
  induction hreach generalizing p' with
  | refl =>
    rw [hp] at hp'
    cases hp'
    exact .refl
  | @tail d d' call _ _ hst ih =>
    obtain ⟨q, hq, hstep⟩ := (steps_of_step hst).exists_before hp'
    rcases hstep.state with heq | hedge
    · exact heq ▸ ih hq
    · exact (ih hq).tail hedge

theorem Sound.progress_eq {plan : RotationPlan} {t : RotationTarget} (hs : Sound plan c)
    (ht : t ∈ plan.targets) : c.targets t.connectorID = some (c.progress t) := by
  obtain ⟨p, hp⟩ := Option.isSome_iff_exists.mp (hs.keys t ht)
  rw [progress, hp, Option.getD_some]

theorem status_eq_succeeded_iff (c : RotationCoordinator) :
    c.status = .succeeded ↔ ∀ t ∈ c.plan.targets, (c.progress t).state = .revoked := by
  unfold status
  split
  next hfail =>
    obtain ⟨t, ht, hstate⟩ := List.any_eq_true.mp hfail
    refine ⟨nofun, fun h => ?_⟩
    rw [h t ht] at hstate
    cases hstate
  next =>
    split
    next hall => exact ⟨fun _ t ht => by simpa using List.all_eq_true.mp hall t ht, fun _ => rfl⟩
    next hnot =>
      refine ⟨nofun, fun h => absurd ?_ hnot⟩
      exact List.all_eq_true.mpr fun t ht => by simp [h t ht]

theorem progress_setTarget (c : RotationCoordinator) (id : String) (p : TargetProgress)
    (t : RotationTarget) :
    (c.setTarget id p).progress t = if t.connectorID = id then p else c.progress t := by
  rw [progress, targets_setTarget]
  split <;> rfl

/-- A revoke message is only given out where every target is ready, and leaves it so. -/
theorem allReady_of_revoke (h : c.revoke env revokeNonce connectorID = (.ok message, c')) :
    c.allReadyLocked ∧ c'.allReadyLocked := by
  unfold revoke at h
  split at h
  · cases h
  split at h
  · cases h
  split at h
  · cases h
  split at h
  · cases h
  next hready =>
  have hall : c.allReadyLocked := by simpa using hready
  refine ⟨hall, ?_⟩
  split at h
  · cases h
    exact hall
  split at h
  · cases h
  split at h
  · cases h
  split at h
  · cases h
  split at h
  · cases h
  cases h
  refine List.all_eq_true.mpr fun t ht => ?_
  rw [progress_setTarget]
  split
  · rfl
  · exact List.all_eq_true.mp hall t ht

theorem Sound.hasReady {plan : RotationPlan} {t : RotationTarget} (hs : Sound plan c)
    (hall : c.allReadyLocked) (ht : t ∈ plan.targets) :
    ∃ p, c.targets t.connectorID = some p ∧ p.HasReady := by
  have hstate := List.all_eq_true.mp hall t (hs.ofPlan ▸ ht)
  simp only [Bool.or_eq_true, beq_iff_eq, or_assoc] at hstate
  exact ⟨_, hs.progress_eq ht, hstate, hs.ready (hs.progress_eq ht) hstate⟩

/-- In every state of every run: a revoke message is given out only while every target has
reported ready and none has failed, every later state of a target follows from the present
one along the edges, and the operation has succeeded exactly when all targets are revoked. -/
theorem revocation_after_readiness {plan : RotationPlan} {c₀ : RotationCoordinator}
    (hnew : new rules plan = .ok c₀) (hreach : Reach (step rules) Always c₀ c) :
    (∀ env revokeNonce connectorID message c',
      c.revoke env revokeNonce connectorID = (.ok message, c') → ∀ t ∈ plan.targets,
        (∃ p, c.targets t.connectorID = some p ∧ p.HasReady) ∧
          ∃ p, c'.targets t.connectorID = some p ∧ p.HasReady) ∧
    (∀ c', Reach (step rules) Always c c' → ∀ id p p', c.targets id = some p →
      c'.targets id = some p' → Relation.ReflTransGen RotationTargetState.Edge p.state p'.state) ∧
    (c.summaryLocked.status = .succeeded ↔
      ∀ t ∈ plan.targets, ∃ p, c.targets t.connectorID = some p ∧ p.state = .revoked) := by
  have hs := sound_of_reach hnew hreach
  refine ⟨fun env revokeNonce connectorID message c' h t ht => ?_,
    fun c' hreach' id p p' => edges_of_reach hreach', ?_⟩
  · obtain ⟨hall, hall'⟩ := allReady_of_revoke h
    have hadv : Steps rules c c' := by
      have hsteps : Steps rules c (c.revoke env revokeNonce connectorID).2 := steps_revoke c env revokeNonce connectorID
      rwa [h] at hsteps
    exact ⟨hs.hasReady hall ht, (hs.advance hadv).hasReady hall' ht⟩
  · rw [summaryLocked, status_eq_succeeded_iff, hs.ofPlan]
    refine forall₂_congr fun t ht => ?_
    rw [hs.progress_eq ht]
    simp

namespace RotationDemo

def setHash : String := "sha256:05aaad0ba974c21efc2ca866919599b1feda2d4bf342619317ce28575d6ac413"

def demoRules : RotationRules where
  planHash _ _ _ _ := setHash
  identityThumbprint key := some key
  credentialReference _ := true
  verifyOldProof _ := true
  verifyNewProof _ := true

def oldThumbprint : String := "AAAAAAAAAAAAAAAAAAAAAAAAAAAAAAAAAAAAAAAAAAA"

def newThumbprint : String := "BBBBBBBBBBBBBBBBBBBBBBBBBBBBBBBBBBBBBBBBBBB"

def nonce : String := "0123456789abcdef"

variable (connectorID : String)

def target : RotationTarget := ⟨connectorID, "host_1", 1, 2⟩

def plan : RotationPlan :=
  ⟨"account_1", "tunnel_1", "op_1", setHash, [target "conn_a", target "conn_b"]⟩

def env : RotationEnv := { now := 10 * second }

def request : ChallengeRequest where
  connectorID := connectorID
  sessionID := "sess_1"
  processGeneration := 1
  oldIdentityKeyID := "ed25519:" ++ oldThumbprint
  oldIdentityKeyThumbprint := oldThumbprint
  nonce := nonce
  issuedAt := 10 * second
  expiresAt := 20 * second
  overlapUntil := 30 * second
  credentialValidUntil := 40 * second

def key : ReplacementKey where
  newIdentityKeyID := "ed25519:" ++ newThumbprint
  newIdentityKeyThumbprint := newThumbprint
  newPublicKey := newThumbprint

def proof : CredentialRotationProof :=
  { (fresh plan).header (target connectorID) "sess_1" 1, key with
    oldIdentityKeyID := "ed25519:" ++ oldThumbprint
    oldIdentityKeyThumbprint := oldThumbprint
    challengeNonce := nonce
    issuedAt := 10 * second
    newCredentialValidUntil := 40 * second
    oldSignedProof := nonce ++ nonce
    newSignedProof := nonce ++ nonce }

def ready : CredentialRotationReady :=
  { (fresh plan).header (target connectorID) "sess_2" 2, key with
    previousSessionID := "sess_1"
    newCredentialValidUntil := 40 * second
    configGeneration := 1
    configContentHash := setHash
    edgeReady := true
    routeReady := true
    originReady := true
    readyAt := 10 * second }

def install : List Call :=
  [.challenge env (.ok ()) (request connectorID), .acceptProof env (proof connectorID),
    .markReady env (ready connectorID)]

/-- Both targets report ready. -/
def calls : List Call := .start env :: install "conn_a" ++ install "conn_b"

theorem calls_enabled : (run (step demoRules) (fresh plan) calls).isSome := by decide +kernel

def allReady : RotationCoordinator := final (step demoRules) (fresh plan) calls calls_enabled

/-- The message for the other target. -/
def message : CredentialRotationRevoke :=
  (fresh plan).revokeFor env.now "conn_b" nonce
    { target := target "conn_b", ready := ready "conn_b" }

theorem revoke_ok : (allReady.revoke env (some nonce) "conn_b").1 = .ok message := by
  decide +kernel

end RotationDemo

theorem revocation_after_readiness_last :
    ∃ c', RotationDemo.allReady.revoke RotationDemo.env (some RotationDemo.nonce) "conn_b" =
        (.ok RotationDemo.message, c') ∧
      ∀ t ∈ RotationDemo.plan.targets, ∃ p, c'.targets t.connectorID = some p ∧ p.HasReady := by
  have hnew : new RotationDemo.demoRules RotationDemo.plan = .ok (fresh RotationDemo.plan) :=
    new_of_validate (by decide +kernel)
  have hreach : Reach (step RotationDemo.demoRules) Always (fresh RotationDemo.plan)
      RotationDemo.allReady := reach_final RotationDemo.calls RotationDemo.calls_enabled
  have hok := RotationDemo.revoke_ok
  have hready : ∀ c', RotationDemo.allReady.revoke RotationDemo.env (some RotationDemo.nonce)
      "conn_b" = (.ok RotationDemo.message, c') → ∀ t ∈ RotationDemo.plan.targets,
        ∃ p, c'.targets t.connectorID = some p ∧ p.HasReady := fun c' h t ht =>
    ((revocation_after_readiness hnew hreach).1 _ _ _ _ c' h t ht).2
  generalize RotationDemo.allReady.revoke RotationDemo.env (some RotationDemo.nonce) "conn_b" = x
    at hready hok ⊢
  obtain ⟨result, c'⟩ := x
  cases hok
  exact ⟨c', rfl, hready c' rfl⟩

end RotationCoordinator

end Paperboat.ConnectorProtocol
