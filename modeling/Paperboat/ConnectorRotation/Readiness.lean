import Paperboat.ConnectorRotation.CrashSafety

/-! Host and coordinator on the readiness of the replacement process. The host's entry check
and the coordinator admit every process from the installed generation on, the host's
journal only that generation. -/

namespace Paperboat.ConnectorRotation

open ConnectorProtocol Crash Crash.Prog Transition

/-! ### The coordinator -/

section Coordinator

open RotationCoordinator

variable {rules : RotationRules} {c c' : RotationCoordinator} {id : String} {p p' : TargetProgress}

/-- The message is about this target of the plan. -/
@[mk_iff]
structure Names (plan : RotationPlan) (target : RotationTarget) (id : String) (h : RotationHeader) : Prop where
  accountID : h.accountID = plan.accountID
  tunnelID : h.tunnelID = plan.tunnelID
  operationID : h.operationID = plan.operationID
  connectorID : h.connectorID = id
  hostID : h.hostID = target.hostID
  targetSetHash : h.targetSetHash = plan.targetSetHash
  oldCredentialGeneration : h.oldCredentialGeneration = target.oldCredentialGeneration
  newCredentialGeneration : h.newCredentialGeneration = target.newCredentialGeneration

/-- The messages of a target are about it. -/
structure Bound (plan : RotationPlan) (id : String) (p : TargetProgress) : Prop where
  challenge : p.state = .challenged → Names plan p.target id p.challenge.toRotationHeader
  install : p.state = .installed → Names plan p.target id p.install.toRotationHeader

theorem Bound.step (h : Bound c.plan id p) (hstep : TargetStep rules c id p p') : Bound c.plan id p' := by
  cases hstep with
  | same => exact h
  | challenge r hr hstate =>
    subst hr
    exact ⟨fun _ => ⟨rfl, rfl, rfl, rfl, rfl, rfl, rfl, rfl⟩, nofun⟩
  | install proof hid hstate hmatch =>
    refine ⟨nofun, fun _ => ?_⟩
    obtain hnames := h.challenge hstate
    simp only [rotationProofMatchesChallenge, Bool.and_eq_true, beq_iff_eq] at hmatch
    exact ⟨rfl, rfl, rfl, hid, by simpa [installFor, hnames.hostID] using hmatch.1.1.1.1.1.1.1.1.1.1.1.2, rfl,
      by simpa [installFor] using hmatch.1.1.1.1.1.1.1.2, by simpa [installFor] using hmatch.1.1.1.1.1.1.2⟩
  | _ => exact ⟨nofun, nofun⟩

/-- The coordinator follows its plan. -/
structure Follows (plan : RotationPlan) (c : RotationCoordinator) : Prop where
  ofPlan : c.plan = plan
  bound : ∀ id p, c.targets id = some p → Bound plan id p

theorem follows_of_reach {plan : RotationPlan} {c₀ : RotationCoordinator} (hnew : new rules plan = .ok c₀)
    (hreach : Reach (step rules) Always c₀ c) : Follows plan c := by
  have hinit : Follows plan c₀ := by
    refine ⟨(sound_new hnew).ofPlan, ?_⟩
    intro id p hp
    unfold new at hnew
    split at hnew
    · cases hnew
    · cases hnew
      obtain ⟨t, -, rfl⟩ := Option.map_eq_some_iff.mp hp
      exact ⟨nofun, nofun⟩
  refine hreach.invariant hinit ?_
  rintro x y a ⟨hplan, hbound⟩ - hs
  have hsteps := steps_of_step hs
  refine ⟨hsteps.plan.trans hplan, ?_⟩
  intro id p' hp'
  obtain ⟨p, hp, hstep⟩ := hsteps.exists_before hp'
  rw [← hplan] at hbound ⊢
  exact (hbound id p hp).step hstep

/-- A target past its readiness keeps the session that reported it. -/
structure Reported (plan : RotationPlan) (t : RotationTarget) (message : CredentialRotationReady) (id : String)
    (p : TargetProgress) : Prop where
  target : p.target = t
  state : p.state = .ready ∨ p.state = .revoking ∨ p.state = .revoked ∨ p.state = .failed
  ready : p.state = .ready → p.ready = message
  revoke : p.state = .revoking → Names plan t id p.revoke.toRotationHeader ∧
    p.revoke.sessionID = message.sessionID ∧ p.revoke.processGeneration = message.processGeneration

variable {target : RotationTarget} {ready : CredentialRotationReady}

theorem names_revokeFor (now : Time) (nonce : String) (hready : Reported c.plan target ready id p)
    (hstate : p.state = .ready) : Names c.plan target id (c.revokeFor now id nonce p).toRotationHeader ∧
      (c.revokeFor now id nonce p).sessionID = ready.sessionID ∧
      (c.revokeFor now id nonce p).processGeneration = ready.processGeneration := by
  obtain rfl := hready.target
  obtain rfl := hready.ready hstate
  exact ⟨⟨rfl, rfl, rfl, rfl, rfl, rfl, rfl, rfl⟩, rfl, rfl⟩

theorem Reported.step (h : Reported c.plan target ready id p) (hstep : TargetStep rules c id p p') :
    Reported c.plan target ready id p' := by
  have hstates := h.state
  cases hstep with
  | same => exact h
  | challenge r hr hstate => rcases hstate with hstate | hstate <;> simp [hstate] at hstates
  | install proof hid hstate hmatch => simp [hstate] at hstates
  | ready ready hid hstate hvalid => simp [hstate] at hstates
  | revoke now nonce hstate => exact ⟨h.target, .inr (.inl rfl), nofun, fun _ => names_revokeFor now nonce h hstate⟩
  | revoked hstate => exact ⟨h.target, .inr (.inr (.inl rfl)), nofun, nofun⟩
  | fail code hr hf => exact ⟨h.target, .inr (.inr (.inr rfl)), nofun, nofun⟩

/-- The coordinator knows of the report. -/
structure Tracks (plan : RotationPlan) (target : RotationTarget) (ready : CredentialRotationReady) (id : String)
    (c : RotationCoordinator) : Prop where
  ofPlan : c.plan = plan
  reported : ∃ p, c.targets id = some p ∧ Reported plan target ready id p

theorem Tracks.reach {plan : RotationPlan} (h : Tracks plan target ready id c) (hreach : Reach (step rules) Always c c') :
    Tracks plan target ready id c' := by
  refine hreach.invariant h ?_
  rintro x y a ⟨rfl, p, hp, hrep⟩ - hs
  have hsteps := steps_of_step hs
  obtain ⟨p', hp', hstep⟩ := hsteps.targets id p hp
  exact ⟨hsteps.plan, p', hp', hrep.step hstep⟩

/-- The revoke message is for the session that reported ready. -/
theorem Tracks.revoke {plan : RotationPlan} (h : Tracks plan target ready id c) {env : RotationEnv}
    {revokeNonce : Option String} {message : CredentialRotationRevoke}
    (hrevoke : c.revoke env revokeNonce id = (.ok message, c')) : Names plan target id message.toRotationHeader ∧
      message.sessionID = ready.sessionID ∧ message.processGeneration = ready.processGeneration := by
  obtain ⟨rfl, p, hp, hrep⟩ := h
  unfold RotationCoordinator.revoke at hrevoke
  rw [hp] at hrevoke
  dsimp only at hrevoke
  split at hrevoke
  · cases hrevoke
  split at hrevoke
  · cases hrevoke
  split at hrevoke
  · cases hrevoke
  split at hrevoke
  next hstate =>
    cases hrevoke
    exact hrep.revoke hstate
  split at hrevoke
  · cases hrevoke
  next hstate =>
  split at hrevoke
  · cases hrevoke
  split at hrevoke
  · cases hrevoke
  split at hrevoke
  · cases hrevoke
  cases hrevoke
  exact names_revokeFor _ _ hrep (not_not.mp hstate)

end Coordinator

/-! ### Checks -/

/-- What the check of a readiness message admits. -/
structure ReadyOk (rules : RotationRules) (now : Time) (r : CredentialRotationReady) : Prop where
  header : r.toRotationHeader.wellFormed = true
  previous : validateIdentifier r.previousSessionID = true
  key : r.toReplacementKey.wellFormed rules = true
  thumbprint : rules.identityThumbprint r.newPublicKey = some r.newIdentityKeyThumbprint
  validUntil : r.newCredentialValidUntil ≠ 0
  config : r.configGeneration ≠ 0
  hash : hashPattern r.configContentHash = true
  readyAt : r.readyAt ≠ 0
  edge : r.edgeReady = true
  route : r.routeReady = true
  origin : r.originReady = true
  expires : now ≠ 0 → now < r.newCredentialValidUntil
  skew : now ≠ 0 → now - maxClockSkew ≤ r.readyAt ∧ r.readyAt ≤ now + maxClockSkew

theorem checkThumbprint_ok {rules : RotationRules} (e : Error) {k : ReplacementKey} :
    k.checkThumbprint rules e = .ok () ↔ rules.identityThumbprint k.newPublicKey = some k.newIdentityKeyThumbprint := by
  unfold ReplacementKey.checkThumbprint
  cases rules.identityThumbprint k.newPublicKey with
  | none => simp
  | some t => by_cases h : t = k.newIdentityKeyThumbprint <;> simp [h]

theorem ready_validate_iff {r : CredentialRotationReady} :
    r.validate rules now = .ok () ↔ ReadyOk rules now r := by
  unfold CredentialRotationReady.validate
  simp only [Bind.bind, Except.bind]
  constructor
  · intro h
    split at h
    · cases h
    next hfields =>
    simp only [Bool.or_eq_true, not_or, Bool.not_eq_true', Bool.not_eq_false, beq_iff_eq] at hfields
    split at h
    · cases h
    next hkey =>
    rw [checkThumbprint_ok] at hkey
    split at h
    · cases h
    next hflags =>
    simp only [Bool.or_eq_true, not_or, Bool.not_eq_true', Bool.not_eq_false] at hflags
    split at h
    · cases h
    next hexpired =>
    split at h
    · cases h
    next hskew =>
    simp only [Bool.and_eq_true, Bool.or_eq_true, bne_iff_ne, decide_eq_true_eq, not_and, not_or, not_le,
      not_lt] at hexpired hskew
    obtain ⟨⟨⟨⟨⟨⟨h1, h2⟩, h3⟩, h4⟩, h5⟩, h6⟩, h7⟩ := hfields
    exact ⟨h1, h2, h3, hkey, h4, h5, h6, h7, hflags.1.1, hflags.1.2, hflags.2, hexpired, hskew⟩
  · intro h
    have hkey := (checkThumbprint_ok (.bare .identityMismatch)).mpr h.thumbprint
    have hexpired : ¬ (now ≠ 0 ∧ r.newCredentialValidUntil ≤ now) := fun hx => absurd hx.2 (not_le.mpr (h.expires hx.1))
    have hskew : ¬ (now ≠ 0 ∧ (r.readyAt < now - maxClockSkew ∨ now + maxClockSkew < r.readyAt)) := by
      rintro ⟨hnow, hlt | hlt⟩
      · exact absurd hlt (not_lt.mpr (h.skew hnow).1)
      · exact absurd hlt (not_lt.mpr (h.skew hnow).2)
    simp [h.header, h.previous, h.key, h.validUntil, h.config, h.hash, h.readyAt, hkey, h.edge, h.route, h.origin,
      hexpired, hskew]
    rfl

section Host

variable {rules : HostRules} {config : Config} {d : Durable} {m : Memory} {r : Record} {now : Time}

theorem toBool_iff {x : Except Error Unit} : x.toBool = true ↔ x = .ok () := by
  cases x with
  | error e => simp [Except.toBool]
  | ok u => simp [Except.toBool]

/-- What the check of a record admits. -/
@[mk_iff]
structure RecordOk (rules : HostRules) (now : Time) (r : Record) : Prop where
  version : r.version = 1
  accountID : validateIdentifier r.accountID = true
  tunnelID : validateIdentifier r.tunnelID = true
  operationID : validateIdentifier r.operationID = true
  connectorID : validateIdentifier r.connectorID = true
  hostID : validateIdentifier r.hostID = true
  targetSetHash : hashPattern r.targetSetHash = true
  oldReference : rules.credentialReference r.oldCredentialReference = true
  oldKey : validateIdentityKey r.oldIdentityKeyID r.oldIdentityThumbprint = true
  oldGeneration : r.oldCredentialGeneration ≠ 0
  newGeneration : r.newCredentialGeneration ≠ 0
  generations : r.newCredentialGeneration = r.oldCredentialGeneration + 1
  updatedAt : r.updatedAt ≠ 0
  newKey : r.newKey.validate rules = true
  challenge : ∃ c, r.challenge = some c ∧ c.validate 0 = .ok () ∧ r.challengeMatches c = true
  install : phaseAtLeast r.phase .installed = true →
    ∃ i, r.install = some i ∧ i.validate rules.toRotationRules 0 = .ok () ∧ r.installMatches rules i = true
  ready : phaseAtLeast r.phase .ready = true →
    ∃ x, r.ready = some x ∧ x.validate rules.toRotationRules 0 = .ok () ∧ r.readyMatches rules x = true
  revoke : phaseAtLeast r.phase .revoking = true → ∃ x, r.revoke = some x ∧ x.validate 0 = .ok () ∧ r.revokeMatches x = true
  current : now = 0 ∨ r.updatedAt ≤ now + maxClockSkew

theorem any_iff {α : Type} {x : Option α} {p : α → Bool} : x.any p = true ↔ ∃ a, x = some a ∧ p a = true := by
  cases x <;> simp

theorem record_validate_iff : r.validate rules now = true ↔ RecordOk rules now r := by
  simp [recordOk_iff, Record.validate, Bool.and_eq_true, Bool.or_eq_true, beq_iff_eq, bne_iff_ne, any_iff, toBool_iff,
    decide_eq_true_eq, ← Bool.not_eq_true, ← imp_iff_not_or, and_assoc]

/-! ### The host -/

variable {install : CredentialRotationInstall} {report : Report}

theorem install_of_validate (h : install.validate rules.toRotationRules now = .ok ()) :
    install.toRotationHeader.wellFormed = true ∧ install.processGeneration < install.replacementProcessGeneration ∧
      install.newCredentialValidUntil ≠ 0 ∧
      rules.identityThumbprint install.newPublicKey = some install.newIdentityKeyThumbprint := by
  unfold CredentialRotationInstall.validate at h
  simp only [Bind.bind, Except.bind] at h
  split at h
  · cases h
  next hfields =>
  simp only [Bool.or_eq_true, not_or, Bool.not_eq_true', Bool.not_eq_false, beq_iff_eq, decide_eq_true_eq,
    UInt64.not_le] at hfields
  split at h
  · cases h
  next hkey =>
  rw [checkThumbprint_ok] at hkey
  obtain ⟨⟨⟨⟨⟨⟨⟨h1, h2⟩, -⟩, -⟩, -⟩, h6⟩, -⟩, -⟩ := hfields
  exact ⟨h1, h2, h6, hkey⟩

/-- The key of the record, as a message spells it. -/
theorem key_facts (h : r.newKey.validate rules = true) : rules.credentialReference r.newKey.reference = true ∧
    validateIdentityKey r.newKey.keyID r.newKey.thumbprint = true ∧
    rules.identityThumbprint (rules.encodeKey r.newKey.publicKey) = some r.newKey.thumbprint := by
  simp only [KeyReference.validate, Bool.and_eq_true, beq_iff_eq] at h
  obtain ⟨⟨⟨⟨h1, h2⟩, h3⟩, h4⟩, -⟩ := h
  refine ⟨h1, h2, ?_⟩
  rw [rules.identity, rules.decode_encode, Option.bind_some, if_pos ⟨h3, rfl⟩, h4]

/-- A host whose manager has installed the replacement credential. -/
structure Installed (rules : HostRules) (config : Config) (r : Record) (install : CredentialRotationInstall) (m : Memory)
    (d : Durable) : Prop where
  inv : Inv rules config d m
  memory : m.record = some r
  phase : r.phase = .installed
  install : r.install = some install

namespace Installed

section

variable (h : Installed rules config r install m d)

include h

theorem proper : Proper rules config r :=
  (h.inv.valid _ r (h.inv.record r h.memory)).2

theorem recordOk : RecordOk rules 0 r := record_validate_iff.mp h.proper.valid

theorem installOk :
    install.validate rules.toRotationRules 0 = .ok () ∧ r.installMatches rules install = true := by
  obtain ⟨i, hi, hvalid, hmatch⟩ := h.recordOk.install (by rw [h.phase]; rfl)
  obtain rfl : install = i := Option.some.inj (h.install.symm.trans hi)
  exact ⟨hvalid, hmatch⟩

end

end Installed

/-- A report of a replacement session that is ready. -/
structure Report.Complete (report : Report) : Prop where
  sessionID : validateIdentifier report.sessionID = true
  configGeneration : report.configGeneration ≠ 0
  configContentHash : hashPattern report.configContentHash = true
  edgeReady : report.edgeReady = true
  routeReady : report.routeReady = true
  originReady : report.originReady = true

variable {t : Time} {message : CredentialRotationRevoke}

/-- The message passes its check on every clock that is close enough. -/
theorem Installed.readyOk (h : Installed rules config r install m d) (hreport : report.Complete)
    (hgen : install.replacementProcessGeneration ≤ report.processGeneration) (hnow : now ≠ 0)
    (hexp : t ≠ 0 → t < install.newCredentialValidUntil)
    (hskew : t ≠ 0 → t - maxClockSkew ≤ now ∧ now ≤ t + maxClockSkew) :
    ReadyOk rules.toRotationRules t (readyFor rules r install now report) := by
  have hr := h.recordOk
  obtain ⟨hhead, hlater, hvalidUntil, -⟩ := install_of_validate h.installOk.1
  obtain ⟨hreference, hident, hthumbprint⟩ := key_facts hr.newKey
  have hpos : report.processGeneration ≠ 0 := by
    rintro hzero
    rw [hzero] at hgen
    exact absurd (UInt64.lt_of_lt_of_le hlater hgen) (by simp)
  refine ⟨?_, ?_, ?_, hthumbprint, hvalidUntil, hreport.configGeneration, hreport.configContentHash, hnow,
    hreport.edgeReady, hreport.routeReady, hreport.originReady, hexp, hskew⟩
  · simp [RotationHeader.wellFormed, readyFor, hr.accountID, hr.tunnelID, hr.operationID, hr.connectorID, hr.hostID,
      hreport.sessionID, hpos, hr.targetSetHash, hr.oldGeneration, hr.generations]
  · simp only [RotationHeader.wellFormed, Bool.and_eq_true] at hhead
    exact hhead.1.1.1.1.2
  · simp [ReplacementKey.wellFormed, readyFor, hreference, hident]

/-- The record that `MarkReady` stores. -/
def readyRecord (rules : HostRules) (r : Record) (install : CredentialRotationInstall) (now : Time) (report : Report) :
    Record :=
  { r with ready := some (readyFor rules r install now report), phase := .ready, updatedAt := now }

/-- The journal takes the record of the installed process generation only. -/
theorem Installed.readyRecord_iff (h : Installed rules config r install m d) (hreport : report.Complete)
    (hgen : install.replacementProcessGeneration ≤ report.processGeneration) (hnow : now ≠ 0)
    (hcur : t = 0 ∨ now ≤ t + maxClockSkew) : (readyRecord rules r install now report).validate rules t = true ↔
      report.processGeneration = install.replacementProcessGeneration := by
  have hr := h.recordOk
  have hmatches : (readyRecord rules r install now report).readyMatches rules (readyFor rules r install now report) = true ↔
      report.processGeneration = install.replacementProcessGeneration := by
    simp [Record.readyMatches, Record.names, Record.namesKey, readyRecord, readyFor, h.install, rules.decode_encode]
  rw [record_validate_iff, ← hmatches]
  constructor
  · intro hok
    obtain ⟨x, hx, -, hmatch⟩ := hok.ready rfl
    cases hx
    exact hmatch
  · intro hmatch
    have hready := h.readyOk hreport hgen hnow (t := 0) (by simp) (by simp)
    exact { hr with
      updatedAt := hnow
      install := fun _ => ⟨install, h.install, h.installOk⟩
      ready := fun _ => ⟨_, rfl, ready_validate_iff.mpr hready, hmatch⟩
      revoke := fun hphase => absurd hphase (show ¬ phaseAtLeast .ready .revoking = true by decide)
      current := hcur }

/-! ### Calls that nothing disturbs -/

/-- The memory after a save. -/
def Memory.keep (m : Memory) (record : Record) : Memory :=
  { cached := Function.update m.cached record.operationID (some record), record := some record }

theorem saveLocked_ok {record old : Record} (hvalid : record.validate rules 0 = true)
    (hcached : m.cached record.operationID = some old) (hstable : old.sameStableRecord record = true) :
    (saveLocked rules m record).exec d [] = (.ok (m.keep record), d.write record) := by
  unfold saveLocked save
  simp only [hvalid, hcached, hstable, Option.any_some, Bool.not_true, Bool.false_eq_true, if_false]
  rfl

theorem saveLocked_corrupt {record : Record} (hvalid : record.validate rules 0 = false) :
    (saveLocked rules m record).exec d [] = (.error (.bare .journalCorrupt, m), d) := by
  unfold saveLocked
  simp only [hvalid, Bool.not_false, if_true]
  rfl

/-- Only the check of the journal is left. -/
theorem Installed.markReady_exec (h : Installed rules config r install m d) (hreport : report.Complete)
    (hsess : report.sessionID ≠ install.sessionID)
    (hgen : install.replacementProcessGeneration ≤ report.processGeneration) (hnow : now ≠ 0)
    (hexp : now < install.newCredentialValidUntil) : (markReady rules m now report).exec d [] =
      if (readyRecord rules r install now report).validate rules 0 = true then
        (.ok (readyFor rules r install now report, m.keep (readyRecord rules r install now report)),
          d.write (readyRecord rules r install now report))
      else (.error (.bare .journalCorrupt, m), d) := by
  have hready : (readyFor rules r install now report).validate rules.toRotationRules now = .ok () := by
    refine ready_validate_iff.mpr (h.readyOk hreport hgen hnow (fun _ => hexp) fun _ => ?_)
    have hpos : (0 : Int) ≤ maxClockSkew := by decide
    exact ⟨Int.sub_le_self _ hpos, Int.le_add_of_nonneg_right hpos⟩
  have hentry : ¬ (r.phase ≠ .installed ∨ report.sessionID = install.sessionID ∨
      report.processGeneration < install.replacementProcessGeneration) := by
    simp [h.phase, hsess, UInt64.not_lt.mpr hgen]
  have hconfig : ¬ (report.configGeneration = 0 ∨ (!hashPattern report.configContentHash) = true) := by
    simp [hreport.configGeneration, hreport.configContentHash]
  have hcached : m.cached (readyRecord rules r install now report).operationID = some r := h.inv.record r h.memory
  have hstable : r.sameStableRecord (readyRecord rules r install now report) = true := by
    simp [Record.sameStableRecord, readyRecord]
  have hearly : phaseAtLeast r.phase .ready = false := by
    rw [h.phase]
    rfl
  have hlook : (m.record.bind fun x => x.install) = some install := by rw [h.memory, Option.bind_some, h.install]
  unfold markReady
  rw [if_neg (by simp [hreport.sessionID]), hlook, h.memory]
  simp only [hearly, Bool.false_eq_true, if_false, if_neg hentry, if_neg hconfig, hready]
  rw [exec_bind_nil]
  show ((saveLocked rules m (readyRecord rules r install now report)).bind fun m' =>
    .done (readyFor rules r install now report, m')).exec d [] = _
  rw [exec_bind_nil]
  by_cases hvalid : (readyRecord rules r install now report).validate rules 0 = true
  · rw [saveLocked_ok hvalid hcached hstable, if_pos hvalid]
    rfl
  · rw [saveLocked_corrupt (by simpa using hvalid), if_neg hvalid]

/-- A record that was stored is taken up after a restart. -/
theorem recover_stored (hprop : Proper rules config r) (hvalid : r.validate rules now = true)
    (hstored : d.records r.operationID = some r) :
    (recover rules config { cached := d.records } now r.operationID).exec d [] =
      (.ok ((), { cached := d.records, record := some r }), d) := by
  have hid := (record_validate_iff.mp hvalid).operationID
  unfold recover
  rw [if_neg (by simp [hid]), exec_bind_nil]
  show ((load { cached := d.records } r.operationID).bind _).exec d [] = _
  rw [exec_bind_nil]
  simp [load, exec, hstored, hvalid, hprop.identity]

/-! ### Both sides -/

theorem record_names_iff {h : RotationHeader} : r.names h = true ↔ h.accountID = r.accountID ∧ h.tunnelID = r.tunnelID ∧
    h.operationID = r.operationID ∧ h.connectorID = r.connectorID ∧ h.hostID = r.hostID ∧
    h.targetSetHash = r.targetSetHash ∧ h.oldCredentialGeneration = r.oldCredentialGeneration ∧
    h.newCredentialGeneration = r.newCredentialGeneration := by
  simp [Record.names, Bool.and_eq_true, beq_iff_eq, and_assoc]

variable {plan : RotationPlan} {target : RotationTarget} {id : String}

/-- Two messages about one target are about the same record. -/
theorem Names.record (hn : Names plan target id h) (hn' : Names plan target id h')
    (hr : r.names h = true) : r.names h' = true := by
  rw [names_iff] at hn hn'
  simp only [Record.names, hn, hn'] at hr ⊢
  exact hr

/-- The installed key, as the host spells it, is the one in the install message. -/
theorem Installed.key_eq (h : Installed rules config r install m d) :
    (readyFor rules r install now report).toReplacementKey = install.toReplacementKey := by
  obtain ⟨hvalid, hmatch⟩ := h.installOk
  obtain ⟨-, -, -, hthumbprint⟩ := install_of_validate hvalid
  simp only [Record.installMatches, Record.namesKey, Bool.and_eq_true, beq_iff_eq] at hmatch
  obtain ⟨⟨-, ⟨⟨h1, h2⟩, h3⟩, h4⟩, -⟩ := hmatch
  rw [rules.identity, h4, Option.bind_some] at hthumbprint
  split at hthumbprint
  next hkey =>
    have hpublic := hkey.2
    obtain ⟨header, key, _, _, _, _⟩ := install
    obtain ⟨k1, k2, k3, k4⟩ := key
    simp only [readyFor] at h1 h2 h3 hpublic ⊢
    rw [h1, h2, h3, hpublic]
  · cases hthumbprint

/-- The coordinator accepts every replacement process from the installed generation on. -/
theorem Installed.coordinator_accepts {c : RotationCoordinator} {p : TargetProgress} {env : RotationEnv}
    (h : Installed rules config r p.install m d) (hfollows : Follows plan c) (hp : c.targets id = some p)
    (hstate : p.state = .installed) (hreport : report.Complete) (hsess : report.sessionID ≠ p.install.sessionID)
    (hgen : p.install.replacementProcessGeneration ≤ report.processGeneration) (hnow : now ≠ 0)
    (henv : env.canceled = false ∧ env.persisted = true)
    (hexp : env.now ≠ 0 → env.now < p.install.newCredentialValidUntil)
    (hskew : env.now ≠ 0 → env.now - maxClockSkew ≤ now ∧ now ≤ env.now + maxClockSkew) :
    c.markReady rules.toRotationRules env (readyFor rules r p.install now report) =
      (.ok ({ readyFor rules r p.install now report with status := .ready }, none),
        c.setTarget id { p with ready := readyFor rules r p.install now report, state := .ready }) := by
  have hvalid := ready_validate_iff.mpr (h.readyOk hreport hgen hnow hexp hskew)
  have hnames := (hfollows.bound id p hp).install hstate
  have hmatch := h.installOk.2
  simp only [Record.installMatches, Bool.and_eq_true] at hmatch
  obtain ⟨h1, h2, h3, h4, h5, h6, h7, h8⟩ := record_names_iff.mp hmatch.1.1
  have hid : r.connectorID = id := h4.symm.trans hnames.connectorID
  have hplan := hfollows.ofPlan
  have hready : c.readyMatchesInstall (readyFor rules r p.install now report) p.install = true := by
    simp only [RotationCoordinator.readyMatchesInstall, h.key_eq, Bool.and_eq_true, beq_iff_eq, bne_iff_ne,
      decide_eq_true_eq]
    simp only [readyFor, hplan]
    exact ⟨⟨⟨⟨⟨⟨⟨⟨⟨⟨⟨⟨h1.symm.trans hnames.accountID, h2.symm.trans hnames.tunnelID⟩, h3.symm.trans hnames.operationID⟩,
      h4.symm⟩, h5.symm⟩, h6.symm.trans hnames.targetSetHash⟩, hsess⟩, trivial⟩, hgen⟩, h7.symm⟩, h8.symm⟩,
      trivial⟩, trivial⟩
  have hconnector : (readyFor rules r p.install now report).connectorID = id := hid
  unfold RotationCoordinator.markReady
  rw [henv.1, hvalid, hconnector, hp]
  simp [hstate, hready, henv.2, ne_eq, not_true_eq_false, Bool.not_true, Bool.false_eq_true]

theorem revoke_validate_zero (h : message.validate now = .ok ()) : message.validate 0 = .ok () := by
  unfold CredentialRotationRevoke.validate at h ⊢
  split at h
  · cases h
  next hfields =>
    rw [if_neg hfields]
    simp

/-- The revocation that the session's own message asks for goes through. -/
theorem acceptRevoke_exec {ready : CredentialRotationReady} (hok : RecordOk rules 0 r)
    (hm : m.record = some r) (hcached : m.cached r.operationID = some r) (hphase : r.phase = .ready)
    (hready : r.ready = some ready) (hnames : r.names message.toRotationHeader = true)
    (hsess : message.sessionID = ready.sessionID)
    (hgen : message.processGeneration = ready.processGeneration)
    (hvalid : message.validate now = .ok ()) (hnow : now ≠ 0) (hlater : later ≠ 0) :
    ∃ m' d', (acceptRevoke rules config m now later message).exec d [] = (.ok (revokeAck message, m'), d') := by
  have hmatch : r.revokeMatches message = true := by
    simp [Record.revokeMatches, hnames, hready, hsess, hgen]
  have hstored : ∀ {phase : Phase} {time : Time}, time ≠ 0 →
      RecordOk rules 0 { r with revoke := some message, phase := phase, updatedAt := time } := fun htime =>
    { hok with
      updatedAt := htime
      install := fun _ => hok.install (by rw [hphase]; rfl)
      ready := fun _ => hok.ready (by rw [hphase]; rfl)
      revoke := fun _ => ⟨message, rfl, revoke_validate_zero hvalid, hmatch⟩
      current := .inl rfl }
  have hlook : (m.record.bind fun x => x.ready) = some ready := by rw [hm, Option.bind_some, hready]
  unfold acceptRevoke
  rw [hvalid, hlook, hm]
  simp only [hphase, hmatch, reduceCtorEq, if_false, ne_eq, not_true_eq_false, false_and, Bool.not_true,
    Bool.false_eq_true, or_self, if_true]
  rw [exec_bind_nil, exec_bind_nil, saveLocked_ok (record_validate_iff.mpr (hstored hnow)) hcached
    (by simp [Record.sameStableRecord])]
  show ∃ m' d', ((saveLocked rules (m.keep { r with revoke := some message, phase := .revoking, updatedAt := now })
      { r with revoke := some message, phase := .revoked, updatedAt := later }).bind fun m' =>
    .done (revokeAck message, m')).exec _ [] = (.ok (revokeAck message, m'), d')
  rw [exec_bind_nil, saveLocked_ok (record_validate_iff.mpr (hstored hlater)) (Function.update_self ..)
    (by simp [Record.sameStableRecord])]
  exact ⟨_, _, rfl⟩

/-- The coordinator's answer to the host, and what it can ask of it later. -/
theorem Installed.revocation_accepted {c c₁ c₂ : RotationCoordinator} {p : TargetProgress} {env : RotationEnv}
    {nonce : Option String} {later : Time}
    (h : Installed rules config r p.install m d) (hfollows : Follows plan c) (hp : c.targets id = some p)
    (hstate : p.state = .installed) (hvalid : (readyRecord rules r p.install now report).validate rules 0 = true)
    (hreach : Reach (RotationCoordinator.step rules.toRotationRules) Always
      (c.setTarget id { p with ready := readyFor rules r p.install now report, state := .ready }) c₁)
    (hrevoke : c₁.revoke env nonce id = (.ok message, c₂)) (ht : t ≠ 0) (hlater : later ≠ 0)
    (hmessage : message.validate t = .ok ()) :
    ∃ m' d', (acceptRevoke rules config (m.keep (readyRecord rules r p.install now report)) t later message).exec
      (d.write (readyRecord rules r p.install now report)) [] = (.ok (revokeAck message, m'), d') := by
  have htracks : Tracks plan p.target (readyFor rules r p.install now report) id
      (c.setTarget id { p with ready := readyFor rules r p.install now report, state := .ready }) := by
    refine ⟨hfollows.ofPlan, _, Function.update_self .., rfl, .inl rfl, fun _ => rfl, nofun⟩
  obtain ⟨hnames, hsess, hgen⟩ := (htracks.reach hreach).revoke hrevoke
  have hmatch := h.installOk.2
  simp only [Record.installMatches, Bool.and_eq_true] at hmatch
  have hins := (hfollows.bound id p hp).install hstate
  exact acceptRevoke_exec (record_validate_iff.mp hvalid) rfl (Function.update_self ..) rfl rfl
    (hins.record hnames hmatch.1.1) hsess hgen hmessage ht hlater

end Host

/-- A host that installed what a coordinator sent, and a report of a replacement session
that both clocks admit: host, journal and coordinator agree on it exactly when it comes
from the installed process generation, though the entry checks of both admit later ones. -/
theorem replacement_readiness_agreed_iff (rules : HostRules) (config : Config) {plan : RotationPlan}
    {c₀ c : RotationCoordinator} {id : String} {p : TargetProgress} {d₀ : Durable} {h : Host} {m : Memory} {r : Record}
    {report : Report} {now : Time} {env : RotationEnv}
    (hnew : RotationCoordinator.new rules.toRotationRules plan = .ok c₀)
    (hreach : Reach (RotationCoordinator.step rules.toRotationRules) Always c₀ c) (hp : c.targets id = some p)
    (hstate : p.state = .installed) (hinit : Initial config d₀)
    (hhost : Reach (Host.step rules config) (FirstSaveKept rules config) ⟨d₀, none⟩ h) (hm : h.memory = some m)
    (hr : m.record = some r) (hphase : r.phase = .installed) (hinstall : r.install = some p.install)
    (hreport : report.Complete) (hsession : report.sessionID ≠ p.install.sessionID)
    (hgeneration : p.install.replacementProcessGeneration ≤ report.processGeneration) (hnow : now ≠ 0)
    (hexpires : now < p.install.newCredentialValidUntil) (henv : env.canceled = false ∧ env.persisted = true)
    (hexpires' : env.now ≠ 0 → env.now < p.install.newCredentialValidUntil)
    (hskew : env.now ≠ 0 → env.now - maxClockSkew ≤ now ∧ now ≤ env.now + maxClockSkew) :
    (∃ ready m' d', (markReady rules m now report).exec h.durable [] = (.ok (ready, m'), d') ∧
      (∃ stored, d'.records r.operationID = some stored ∧ stored.validate rules 0 = true ∧
        ∀ t, now ≤ t + maxClockSkew → (recover rules config { cached := d'.records } t r.operationID).exec d' [] =
          (.ok ((), { cached := d'.records, record := some stored }), d')) ∧
      ∃ ack c', c.markReady rules.toRotationRules env ready = (.ok (ack, none), c') ∧
        ∀ c₁, Reach (RotationCoordinator.step rules.toRotationRules) Always c' c₁ → ∀ env₁ nonce message c₂,
          c₁.revoke env₁ nonce id = (.ok message, c₂) → ∀ t later, t ≠ 0 → later ≠ 0 → message.validate t = .ok () →
            ∃ m'' d'', (acceptRevoke rules config m' t later message).exec d' [] = (.ok (revokeAck message, m''), d'')) ↔
      report.processGeneration = p.install.replacementProcessGeneration := by
  have hagrees : Agrees rules config h := hhost.invariant hinit.agrees fun hx hok hs => hx.step hok hs
  have hinstalled : Installed rules config r p.install m h.durable := ⟨hagrees.memory m hm, hr, hphase, hinstall⟩
  have hfollows := follows_of_reach hnew hreach
  have hexec := hinstalled.markReady_exec hreport hsession hgeneration hnow hexpires
  have hvalid := hinstalled.readyRecord_iff hreport hgeneration hnow (t := 0) (.inl rfl)
  constructor
  · rintro ⟨ready, m', d', hok, -⟩
    by_contra hne
    rw [if_neg (fun hv => hne (hvalid.mp hv)), hok] at hexec
    cases hexec
  · intro hsame
    have hstored := hvalid.mpr hsame
    rw [if_pos hstored] at hexec
    refine ⟨_, _, _, hexec, ⟨_, write_self _ (readyRecord rules r p.install now report), hstored, ?_⟩, _, _,
      hinstalled.coordinator_accepts hfollows hp hstate hreport hsession hgeneration hnow henv hexpires' hskew, ?_⟩
    · intro t ht
      have hproper : Proper rules config (readyRecord rules r p.install now report) := ⟨hstored, hinstalled.proper.identity⟩
      exact recover_stored hproper ((hinstalled.readyRecord_iff hreport hgeneration hnow (.inr ht)).mpr hsame)
        (write_self _ _)
    · intro c₁ hlater env₁ nonce message c₂ hrevoke t later ht hlater' hmessage
      exact hinstalled.revocation_accepted hfollows hp hstate hstored hlater hrevoke ht hlater' hmessage

end Paperboat.ConnectorRotation

namespace Paperboat.ConnectorRotation.Demo

open ConnectorProtocol Crash Transition
open RotationCoordinator (fresh new_of_validate)
open RotationCoordinator.RotationDemo (plan request nonce setHash)

def proof : CredentialRotationProof :=
  { proofFor rules (newRecord config (10 * second) challenge newKey) challenge with
    oldSignedProof := nonce ++ nonce
    newSignedProof := nonce ++ nonce }

def serverEnv : RotationEnv := { now := 10 * second }

def serverCalls : List RotationCoordinator.Call :=
  [.start serverEnv, .challenge serverEnv (.ok ()) (request "conn_a"), .acceptProof serverEnv proof]

/-- The install message that the coordinator sends. -/
def install : CredentialRotationInstall := (fresh plan).installFor challenge proof

theorem serverCalls_run : (run (RotationCoordinator.step rules.toRotationRules) (fresh plan) serverCalls).map
    (fun c => (c.targets "conn_a").map fun p => (p.state, p.install)) = some (some (.installed, install)) := by
  decide +kernel

def hostCalls : List Action := [.start, .challenge env challenge [], .install (10 * second) install []]

theorem hostCalls_run : (run (Host.step rules config) ⟨initial, none⟩ hostCalls).map
    (fun h => (h.memory.bind (·.record)).map fun r => (r.phase, r.install)) = some (some (.installed, some install)) := by
  decide +kernel

/-- What a replacement session reports; the installed generation is 2. -/
def report (processGeneration : UInt64) : Report := ⟨"sess_2", processGeneration, 1, setHash, true, true, true⟩

theorem report_complete (processGeneration : UInt64) : (report processGeneration).Complete :=
  ⟨show validateIdentifier "sess_2" = true by decide, show (1 : UInt64) ≠ 0 by decide,
    show hashPattern setHash = true by decide +kernel, rfl, rfl, rfl⟩

/-- The two sides after the installation. -/
structure Exchanged (c : RotationCoordinator) (h : Host) (m : Memory) (r : Record) (p : TargetProgress) : Prop where
  server : Reach (RotationCoordinator.step rules.toRotationRules) Always (fresh plan) c
  target : c.targets "conn_a" = some p
  state : p.state = .installed
  host : Reach (Host.step rules config) (FirstSaveKept rules config) ⟨initial, none⟩ h
  memory : h.memory = some m
  record : m.record = some r
  phase : r.phase = .installed
  install : r.install = some p.install
  message : p.install = Demo.install

theorem exchanged : ∃ c h m r p, Exchanged c h m r p := by
  obtain ⟨c, hserver, htgt⟩ := Option.map_eq_some_iff.mp serverCalls_run
  obtain ⟨p, hp, hstates⟩ := Option.map_eq_some_iff.mp htgt
  obtain ⟨h, hhost, hrec⟩ := Option.map_eq_some_iff.mp hostCalls_run
  obtain ⟨r, hr, hphases⟩ := Option.map_eq_some_iff.mp hrec
  obtain ⟨m, hm, hmr⟩ := Option.bind_eq_some_iff.mp hr
  obtain ⟨hstate, hmessage⟩ := Prod.ext_iff.mp hstates
  obtain ⟨hphase, hins⟩ := Prod.ext_iff.mp hphases
  have hlate : ∀ a ∈ hostCalls, Fault.late ∉ a.faults := by simp [hostCalls, Action.faults]
  have hreach : Reach (Host.step rules config) (FirstSaveKept rules config) ⟨initial, none⟩ h :=
    reach_of_run_admitted hostCalls hhost fun x a ha => firstSaveKept_of_not_late x a (hlate a ha)
  exact ⟨c, h, m, r, p, reach_of_run _ hserver, hp, hstate, hreach, hm, hmr, hphase,
    hins.trans (congrArg some hmessage.symm), hmessage⟩

theorem exchanged_admits {p : TargetProgress} (hx : Exchanged c h m r p)
    (hgen : 2 ≤ generation) : (report generation).sessionID ≠ p.install.sessionID ∧
      p.install.replacementProcessGeneration ≤ (report generation).processGeneration ∧
      10 * second < p.install.newCredentialValidUntil := by
  rw [hx.message]
  exact ⟨show "sess_2" ≠ install.sessionID by decide +kernel, hgen, by decide +kernel⟩

/-- A replacement process that crashed and came back with a higher generation. -/
theorem restarted_replacement_refused :
    ¬ ∀ (c : RotationCoordinator) (h : Host) (m : Memory) (r : Record) (p : TargetProgress) (report : Report) (now : Time),
      Reach (RotationCoordinator.step rules.toRotationRules) Always (fresh plan) c → c.targets "conn_a" = some p →
      p.state = .installed → Reach (Host.step rules config) (FirstSaveKept rules config) ⟨initial, none⟩ h →
      h.memory = some m → m.record = some r → r.phase = .installed → r.install = some p.install → report.Complete →
      report.sessionID ≠ p.install.sessionID → p.install.replacementProcessGeneration ≤ report.processGeneration →
      now ≠ 0 → now < p.install.newCredentialValidUntil →
      ∃ ready m' d', (markReady rules m now report).exec h.durable [] = (.ok (ready, m'), d') := by
  intro hall
  obtain ⟨c, h, m, r, p, hx⟩ := exchanged
  obtain ⟨hsession, hgeneration, hexpires⟩ := exchanged_admits hx (show (2 : UInt64) ≤ 3 by decide)
  obtain ⟨ready, m', d', hok⟩ := hall c h m r p (report 3) (10 * second) hx.server hx.target hx.state hx.host hx.memory
    hx.record hx.phase hx.install (report_complete 3) hsession hgeneration (by decide) hexpires
  have hagrees : Agrees rules config h := hx.host.invariant initial_ok.agrees fun hy hok hs => hy.step hok hs
  have hinstalled : Installed rules config r p.install m h.durable :=
    ⟨hagrees.memory m hx.memory, hx.record, hx.phase, hx.install⟩
  rw [hinstalled.markReady_exec (report_complete 3) hsession hgeneration (by decide) hexpires, if_neg] at hok
  · cases hok
  · rw [hinstalled.readyRecord_iff (report_complete 3) hgeneration (by decide) (.inl rfl), hx.message]
    decide +kernel

theorem installed_generation_agreed : ∃ c h m r p, Exchanged c h m r p ∧
    ∃ ready m' d', (markReady rules m (10 * second) (report 2)).exec h.durable [] = (.ok (ready, m'), d') ∧
      ∃ ack c', c.markReady rules.toRotationRules serverEnv ready = (.ok (ack, none), c') := by
  obtain ⟨c, h, m, r, p, hx⟩ := exchanged
  obtain ⟨hsession, hgeneration, hexpires⟩ := exchanged_admits hx (show (2 : UInt64) ≤ 2 by decide)
  have hagreed := replacement_readiness_agreed_iff rules config (new_of_validate (by decide +kernel)) hx.server hx.target
    hx.state initial_ok hx.host hx.memory hx.record hx.phase hx.install (report_complete 2) hsession hgeneration (by decide)
    hexpires (show serverEnv.canceled = false ∧ serverEnv.persisted = true from ⟨rfl, rfl⟩) (fun _ => hexpires)
    fun _ => by decide
  obtain ⟨ready, m', d', hok, -, ack, c', haccepted, -⟩ := hagreed.mpr (by rw [hx.message]; decide +kernel)
  exact ⟨c, h, m, r, p, hx, ready, m', d', hok, ack, c', haccepted⟩

end Paperboat.ConnectorRotation.Demo
