import Paperboat.ConnectorProtocol.RotationOrder
import Paperboat.ConnectorRotation.Manager
import Paperboat.Lib.Index

/-! Crash safety of the host's rotation. The journal never runs behind the memory from the
installation on, and at most one phase ahead of it; keys are deleted only where no record
can refer to them. -/

namespace Paperboat.ConnectorRotation

open ConnectorProtocol Crash Crash.Prog Transition

variable {rules : HostRules} {config : Config} {d : Durable} {m : Memory} {r record : Record} {α β : Type}

/-- The phases that the journal can have where the memory has `p`: those a save from `p`
can lead to. -/
def Phase.Before (p q : Phase) : Prop :=
  match p with
  | .challenged | .proofAccepted => q = .challenged ∨ q = .proofAccepted ∨ q = .installed
  | .installed => q = .installed ∨ q = .ready
  | .ready => q = .ready ∨ q = .revoking
  | .revoking => q = .revoking ∨ q = .revoked
  | .revoked => q = .revoked

/-- The phase permits that the old key is gone. -/
def Phase.Revokes (p : Phase) : Prop := p = .revoking ∨ p = .revoked

theorem Phase.Before.refl (p : Phase) : p.Before p := by
  cases p <;> simp [Phase.Before]

variable {p q threshold : Phase} {reference op : String} {env : ChallengeEnv}
    {c : CredentialRotationChallenge} {now : Time}

theorem Phase.Before.atLeast (h : p.Before q)
    (hthreshold : phaseAtLeast threshold .installed = true) (hp : phaseAtLeast p threshold = true) :
    phaseAtLeast q threshold = true := by
  revert h hthreshold hp
  cases p <;> cases q <;> cases threshold <;> simp [Phase.Before, phaseAtLeast, Phase.order]

/-- A save from `p` to `q`. -/
structure Phase.Moves (p q : Phase) : Prop where
  before : p.Before q
  revokes : p = .ready ∨ p.Revokes → q.Revokes

theorem Phase.moves_iff : p.Moves q ↔ p.Before q ∧ (p = .ready ∨ p.Revokes → q.Revokes) :=
  ⟨fun h => ⟨h.before, h.revokes⟩, fun h => ⟨h.1, h.2⟩⟩

theorem Phase.Before.revokes (h : p.Before q) (hq : q.Revokes) (hmove : p.Moves t) : t.Revokes := by
  apply hmove.revokes
  revert h hq
  cases p <;> cases q <;> simp [Phase.Before, Phase.Revokes]

/-- A record that this host's manager saved and takes up again. -/
structure Proper (rules : HostRules) (config : Config) (r : Record) : Prop where
  valid : r.validate rules 0 = true
  identity : config.identityMatches r = true

/-- What the key store and the journal have in common at every moment. -/
structure DurableInv (rules : HostRules) (config : Config) (d : Durable) : Prop where
  issued : ∀ k ∈ d.keys, k ∈ d.issued
  old : config.oldCredentialReference ∈ d.issued
  valid : ∀ op r, d.records op = some r → r.operationID = op ∧ Proper rules config r
  records : ∀ op r, d.records op = some r → r.newKey.reference ∈ d.keys ∧
    r.newKey.reference ≠ config.oldCredentialReference
  revokes : config.oldCredentialReference ∈ d.keys ∨ ∃ op r, d.records op = some r ∧ r.phase.Revokes

/-- What the process knows of them. -/
structure Inv (rules : HostRules) (config : Config) (d : Durable) (m : Memory) : Prop where
  durable : DurableInv rules config d
  valid : ∀ op r, m.cached op = some r → r.operationID = op ∧ Proper rules config r
  cached : ∀ op r, m.cached op = some r → ∃ r', d.records op = some r' ∧ r'.newKey = r.newKey ∧ r.phase.Before r'.phase
  known : ∀ op, m.cached op = none → d.records op = none
  record : ∀ r, m.record = some r → m.cached r.operationID = some r

/-- A save that fails has not made the first record of an operation. -/
def NotFirst (d d' : Durable) : Prop := ∀ op, d.records op = none → d'.records op = none

/-- However a call ends, the stores agree; where it returns, `post` holds as well. -/
def Safe (rules : HostRules) (config : Config) (post : α → Durable → Prop) : Outcome (HostError × Memory) α → Durable → Prop
  | .ok a, d => post a d
  | .error e, d => Inv rules config d e.2
  | .crash, d => DurableInv rules config d

/-- However the call goes on from here, it is safe. -/
abbrev Secure (rules : HostRules) (config : Config) (p : Prog Durable (HostError × Memory) α)
    (post : α → Durable → Prop) (d : Durable) : Prop :=
  p.wpOn NotFirst (Safe rules config post) d

theorem safe_seq {p : Prog Durable (HostError × Memory) α} (hp : Secure rules config p mid d)
    (hok : ∀ a d, mid a d → Secure rules config (g a) post d) : Secure rules config (p.bind g) post d :=
  wpOn_seq hp hok (fun _ _ h => h) fun _ h => h

/-! ### The stores -/

section

variable {post : β → Durable → Prop}

section

variable {g : Bool → Prog Durable (HostError × Memory) β} (h : DurableInv rules config d)
  (hg : ∀ b, Secure rules config (g b) post d)

include h hg

theorem safe_outside : Secure rules config (outside.bind g) post d :=
  ⟨⟨h, h⟩, ⟨hg false, fun _ => hg false⟩, hg true⟩

theorem safe_sign : Secure rules config ((sign reference).bind g) post d := by
  show Secure rules config ((if reference ∈ d.keys then outside else .done false).bind g) post d
  split
  · exact safe_outside h hg
  · exact hg false

end

theorem safe_load
    (h : DurableInv rules config d)
    (hfound : ∀ r, m.cached op = some r → Secure rules config (g (.ok r)) post d)
    (hmiss : m.cached op = none → Secure rules config (g (.error .operationNotFound)) post d)
    (hfail : Secure rules config (g (.error .external)) post d) :
    Secure rules config ((load m op).bind g) post d := by
  refine ⟨⟨h, h⟩, ⟨hfail, fun _ => hfail⟩, ?_⟩
  cases hop : m.cached op with
  | none => exact hmiss hop
  | some r => exact hfound r hop

end

/-! ### Keys -/

theorem DurableInv.put (h : DurableInv rules config d) (reference : String) : DurableInv rules config (d.put reference) where
  issued k hk := by
    rcases List.mem_cons.mp hk with rfl | hk
    · exact List.mem_cons_self
    · exact List.mem_cons_of_mem _ (h.issued k hk)
  old := List.mem_cons_of_mem _ h.old
  valid := h.valid
  records op r hr := by
    obtain ⟨hmem, hne⟩ := h.records op r hr
    exact ⟨List.mem_cons_of_mem _ hmem, hne⟩
  revokes := h.revokes.imp (List.mem_cons_of_mem _) id

theorem Inv.put (h : Inv rules config d m) (reference : String) : Inv rules config (d.put reference) m :=
  { h with durable := h.durable.put reference }

/-- Nothing refers to the key. -/
structure Unused (config : Config) (d : Durable) (reference : String) : Prop where
  ne : reference ≠ config.oldCredentialReference
  records : ∀ op r, d.records op = some r → r.newKey.reference ≠ reference

section

variable (h : DurableInv rules config d)

include h

theorem DurableInv.unused (hfresh : reference ∉ d.issued) :
    Unused config (d.put reference) reference where
  ne heq := hfresh (heq ▸ h.old)
  records op r hr heq := hfresh (h.issued _ (heq ▸ (h.records op r hr).1))

theorem DurableInv.delete (hunused : Unused config d reference) :
    DurableInv rules config (d.delete reference) where
  issued k hk := h.issued k (List.mem_of_mem_filter hk)
  old := h.old
  valid := h.valid
  records op r hr := by
    obtain ⟨hmem, hne⟩ := h.records op r hr
    refine ⟨List.mem_filter.mpr ⟨hmem, ?_⟩, hne⟩
    simpa using hunused.records op r hr
  revokes := by
    refine h.revokes.imp (fun hold => List.mem_filter.mpr ⟨hold, ?_⟩) id
    simpa using hunused.ne.symm

omit h in
theorem Inv.delete (h : Inv rules config d m) (hunused : Unused config d reference) :
    Inv rules config (d.delete reference) m :=
  { h with durable := h.durable.delete hunused }

/-- The old key may go once the journal says that it is revoked. -/
theorem DurableInv.delete_old (hr : d.records op = some r) (hrevokes : r.phase.Revokes) :
    DurableInv rules config (d.delete config.oldCredentialReference) where
  issued k hk := h.issued k (List.mem_of_mem_filter hk)
  old := h.old
  valid := h.valid
  records op' r' hr' := by
    obtain ⟨hmem, hne⟩ := h.records op' r' hr'
    exact ⟨List.mem_filter.mpr ⟨hmem, by simpa using hne⟩, hne⟩
  revokes := Or.inr ⟨op, r, hr, hrevokes⟩

omit h in
theorem Inv.delete_old (h : Inv rules config d m) (hr : d.records op = some r) (hrevokes : r.phase.Revokes) :
    Inv rules config (d.delete config.oldCredentialReference) m :=
  { h with durable := h.durable.delete_old hr hrevokes }

theorem safe_discard
    (hunused : Unused config d reference) (hkept : Secure rules config (g ()) post d)
    (hgone : Secure rules config (g ()) post (d.delete reference)) :
    Secure rules config ((discard reference).bind g) post d :=
  ⟨⟨h, h.delete hunused⟩, ⟨hkept, fun _ => hgone⟩, hgone⟩

/-! ### Records -/

omit h in
theorem write_self (d : Durable) (record : Record) : (d.write record).records record.operationID = some record :=
  Function.update_self ..

omit h in
theorem write_of_ne (d : Durable) {record : Record} (hne : op ≠ record.operationID) :
    (d.write record).records op = d.records op :=
  Function.update_of_ne hne ..

theorem DurableInv.write (hprop : Proper rules config record)
    (hkey : record.newKey.reference ∈ d.keys)
    (hne : record.newKey.reference ≠ config.oldCredentialReference)
    (hrevokes : ∀ r, d.records record.operationID = some r → r.phase.Revokes → record.phase.Revokes) :
    DurableInv rules config (d.write record) where
  issued := h.issued
  old := h.old
  valid op r hr := by
    rcases update_some_cases hr with ⟨rfl, rfl⟩ | ⟨-, hr⟩
    · exact ⟨rfl, hprop⟩
    · exact h.valid op r hr
  records op r hr := by
    rcases update_some_cases hr with ⟨rfl, rfl⟩ | ⟨-, hr⟩
    · exact ⟨hkey, hne⟩
    · exact h.records op r hr
  revokes := by
    refine h.revokes.imp id ?_
    rintro ⟨op, r, hr, hphase⟩
    by_cases hop : op = record.operationID
    · exact ⟨op, record, hop ▸ write_self d record, hrevokes r (hop ▸ hr) hphase⟩
    · exact ⟨op, r, (write_of_ne d hop).trans hr, hphase⟩

end

/-- A save of what follows on the memory's record keeps the stores in agreement, also where
the memory never hears of it. -/
theorem Inv.write (h : Inv rules config d m) (hprop : Proper rules config record)
    (hr : m.cached record.operationID = some r) (hkey : record.newKey = r.newKey)
      (hmove : r.phase.Moves record.phase) : Inv rules config (d.write record) m := by
  obtain ⟨r', hr', hkey', hbef⟩ := h.cached _ r hr
  obtain ⟨hmem, hne⟩ := h.durable.records _ r' hr'
  rw [hkey', ← hkey] at hmem hne
  refine ⟨h.durable.write hprop hmem hne ?_, h.valid, ?_, ?_, h.record⟩
  · intro x hx hphase
    obtain rfl : r' = x := Option.some.inj (hr'.symm.trans hx)
    exact hbef.revokes hphase hmove
  · intro op x hx
    by_cases hop : op = record.operationID
    · subst hop
      obtain rfl : r = x := Option.some.inj (hr.symm.trans hx)
      exact ⟨record, write_self d record, hkey, hmove.before⟩
    · rw [write_of_ne d hop]
      exact h.cached op x hx
  · intro op hop
    have hne : op ≠ record.operationID := by
      rintro rfl
      simp [hr] at hop
    rw [write_of_ne d hne]
    exact h.known op hop

/-- The memory takes over what the journal now has. -/
theorem Inv.saved (h : DurableInv rules config (d.write record)) (hprop : Proper rules config record)
    (hm : Inv rules config d m) :
    Inv rules config (d.write record)
      { m with cached := Function.update m.cached record.operationID (some record), record := some record } where
  durable := h
  valid op x hx := by
    rcases update_some_cases hx with ⟨rfl, rfl⟩ | ⟨-, hx⟩
    · exact ⟨rfl, hprop⟩
    · exact hm.valid op x hx
  cached op x hx := by
    rcases update_some_cases hx with ⟨rfl, rfl⟩ | ⟨hop, hx⟩
    · exact ⟨x, write_self d x, rfl, .refl _⟩
    · rw [write_of_ne d hop]
      exact hm.cached op x hx
  known op hop := by
    dsimp only at hop
    by_cases heq : op = record.operationID
    · subst heq
      simp [Function.update_self] at hop
    · rw [Function.update_of_ne heq] at hop
      rw [write_of_ne d heq]
      exact hm.known op hop
  record x hx := by
    cases hx
    exact Function.update_self ..

/-- What is known after a record was saved. -/
structure Stored (rules : HostRules) (config : Config) (record : Record) (m : Memory) (d : Durable) : Prop where
  inv : Inv rules config d m
  memory : m.record = some record
  journal : d.records record.operationID = some record

theorem safe_saveLocked (h : Inv rules config d m) (hr : m.record = some r) (hop : record.operationID = r.operationID)
    (hident : config.identityMatches record = config.identityMatches r) (hkey : record.newKey = r.newKey)
      (hmove : r.phase.Moves record.phase) :
    Secure rules config (saveLocked rules m record) (Stored rules config record) d := by
  have hcached : m.cached record.operationID = some r := hop ▸ h.record r hr
  unfold saveLocked
  split
  · exact h
  next hnot =>
    have hprop : Proper rules config record :=
      ⟨by simpa using hnot, hident.trans (h.valid _ r (h.record r hr)).2.identity⟩
    have hwrite := h.write hprop hcached hkey hmove
    unfold save
    rw [if_neg hnot]
    split
    · exact h
    · exact ⟨⟨h.durable, hwrite.durable⟩, ⟨h, fun _ => hwrite⟩, Inv.saved hwrite.durable hprop h, rfl, write_self d record⟩

/-! ### Challenge -/

/-- The key that was drawn is in the store, and nothing refers to it yet. -/
def Drawn (rules : HostRules) (config : Config) (m : Memory) (result : Except Cause KeyReference) (d : Durable) : Prop :=
  Inv rules config d m ∧ ∀ key, result = .ok key → key.reference ∈ d.keys ∧ Unused config d key.reference

theorem safe_generateReplacementKey (h : Inv rules config d m) {got : KeyReference}
    (hfresh : got.reference ∉ d.issued) :
    Secure rules config (generateReplacementKey rules drawn got) (Drawn rules config m) d := by
  have hput := h.put got.reference
  have hunused := h.durable.unused hfresh
  have hfail : ∀ cause d, Inv rules config d m → Drawn rules config m (.error cause) d := fun cause d hd =>
    ⟨hd, by simp⟩
  apply safe_outside h.durable
  intro live
  split
  · exact hfail _ _ h
  cases drawn with
  | none => exact hfail _ _ h
  | some publicKey =>
    -- The key is put; from here on a failure deletes it again.
    refine ⟨⟨h.durable, hput.durable⟩, ⟨hfail _ _ h, fun _ => hfail _ _ hput⟩, ?_⟩
    have hdrop : ∀ cause, Secure rules config (if got.reference = "" then .done (.error cause)
        else (discard got.reference).bind fun _ => .done (.error cause) :
          Prog Durable (HostError × Memory) (Except Cause KeyReference)) (Drawn rules config m)
            (d.put got.reference) := fun cause => by
      split
      · exact hfail _ _ hput
      · exact safe_discard hput.durable hunused (hfail cause _ hput) (hfail cause _ (hput.delete hunused))
    apply safe_outside hput.durable
    intro live
    split
    · exact hdrop _
    · split
      · refine ⟨hput, ?_⟩
        intro key hkey
        cases hkey
        exact ⟨List.mem_cons_self, hunused⟩
      · exact hdrop _

/-- The manager works on this record, which the journal has at its phase or the next. -/
structure Held (rules : HostRules) (config : Config) (record : Record) (m : Memory) (d : Durable) : Prop where
  inv : Inv rules config d m
  memory : m.record = some record

theorem Stored.held (h : Stored rules config record m d) : Held rules config record m d := ⟨h.inv, h.memory⟩

/-- The record that a challenge is answered for. -/
def Prepared (rules : HostRules) (config : Config) (x : Record × Memory) (d : Durable) : Prop :=
  Held rules config x.1 x.2 d ∧ (x.1.phase = .challenged ∨ x.1.phase = .proofAccepted)

section

variable (h : Inv rules config d m)

include h

theorem safe_createRecord (hmatch : config.challengeIdentityMatches c = true)
    (hfresh : env.got.reference ∉ d.issued) (hnone : m.cached c.operationID = none) :
    Secure rules config (createRecord rules config m env.now env.drawn env.got c) (Prepared rules config) d := by
  refine safe_seq (safe_generateReplacementKey h hfresh) ?_
  rintro result d' ⟨hinv, hdrawn⟩
  cases result with
  | error cause => exact hinv
  | ok key =>
    obtain ⟨hmem, hunused⟩ := hdrawn key rfl
    have hdeleted := hinv.delete hunused
    dsimp only
    split
    · exact safe_discard hinv.durable hunused hinv hdeleted
    next hnot =>
      have hprop : Proper rules config (newRecord config env.now c key) := by
        refine ⟨by simpa using hnot, ?_⟩
        simp only [Config.challengeIdentityMatches, Bool.and_eq_true, beq_iff_eq] at hmatch
        obtain ⟨⟨⟨⟨⟨⟨h1, h2⟩, h3⟩, h4⟩, h5⟩, h6⟩, h7⟩ := hmatch
        simp [Config.identityMatches, newRecord, h1, h2, h3, h4, h5, h6, h7]
      have hmiss : d'.records c.operationID = none := hinv.known _ hnone
      have hwrite : DurableInv rules config (d'.write (newRecord config env.now c key)) := by
        refine hinv.durable.write hprop hmem hunused.ne ?_
        intro r hr
        rw [show d'.records (newRecord config env.now c key).operationID = none from hmiss] at hr
        cases hr
      unfold save
      rw [if_neg hnot, show m.cached (newRecord config env.now c key).operationID = none from hnone]
      refine ⟨⟨hinv.durable, hwrite⟩, ⟨?_, ?_⟩, ⟨Inv.saved hwrite hprop hinv, rfl⟩, Or.inl rfl⟩
      · exact safe_discard hinv.durable hunused hinv hdeleted
      · -- The save did not happen behind the error.
        intro hlate
        have hself := hlate c.operationID hmiss
        rw [show c.operationID = (newRecord config env.now c key).operationID from rfl, write_self] at hself
        cases hself

omit h in
theorem safe_renewRecord (h : Held rules config r m d) :
    Secure rules config (renewRecord rules m now r c) (Prepared rules config) d := by
  unfold renewRecord
  split
  · exact h.inv
  split
  · exact h.inv
  split
  · exact h.inv
  next hphase =>
  have hearly : r.phase = .challenged ∨ r.phase = .proofAccepted := by
    by_contra hnot
    exact hphase (not_or.mp hnot)
  split
  · exact ⟨h, hearly⟩
  · refine safe_seq (safe_saveLocked h.inv h.memory rfl rfl rfl ?_) ?_
    · rcases hearly with hp | hp <;> simp [hp, Phase.moves_iff, Phase.Before, Phase.Revokes]
    · intro m' d' hstored
      exact ⟨hstored.held, Or.inl rfl⟩

theorem safe_adopt (op : String) :
    Secure rules config (adopt rules config m op) (fun m' d' => d' = d ∧ Inv rules config d m' ∧
      (m'.record = none → m'.cached op = none)) d := by
  unfold adopt
  split
  next r hr => exact ⟨rfl, h, fun hnone => by simp [hr] at hnone⟩
  next hnone =>
    apply safe_load h.durable
    · intro persisted hcached
      dsimp only
      split
      · exact h
      · refine ⟨rfl, { h with record := ?_ }, nofun⟩
        intro r hr
        cases hr
        exact (h.valid op persisted hcached).1 ▸ hcached
    · intro hmiss
      exact ⟨rfl, h, fun _ => hmiss⟩
    · exact h

theorem safe_prepareRecord (hmatch : config.challengeIdentityMatches c = true)
    (hfresh : env.got.reference ∉ d.issued)
    (hnone : m.record = none → m.cached c.operationID = none) :
    Secure rules config (prepareRecord rules config m env c) (Prepared rules config) d := by
  unfold prepareRecord
  split
  next r hr => exact safe_renewRecord ⟨h, hr⟩
  next hr => exact safe_createRecord h hmatch hfresh (hnone hr)

omit h in
theorem safe_signProofLocked (h : Held rules config r m d) :
    Secure rules config (signProofLocked rules config m now signatures r c) (fun _ d' => d' = d) d := by
  unfold signProofLocked
  split
  · exact h.inv
  apply safe_sign h.inv.durable
  intro signed
  split
  · exact h.inv
  apply safe_sign h.inv.durable
  intro signed
  split
  · exact h.inv
  dsimp only
  split
  · exact h.inv
  · rfl

theorem safe_acceptChallenge (hfresh : env.got.reference ∉ d.issued) :
    Secure rules config (acceptChallenge rules config m env c) (fun x d' => Inv rules config d' x.2) d := by
  unfold acceptChallenge
  split
  · exact h
  split
  · exact h
  next hmatch =>
  apply safe_outside h.durable
  intro live
  split
  · exact h
  refine safe_seq (safe_adopt h c.operationID) ?_
  rintro m' d' ⟨hd, hinv, hnone⟩
  rw [hd]
  refine safe_seq (safe_prepareRecord hinv (by simpa using hmatch) hfresh hnone) ?_
  rintro ⟨r, m⟩ d' ⟨hheld, hearly⟩
  refine safe_seq (safe_signProofLocked hheld) ?_
  rintro proof _ rfl
  split
  next hphase =>
    refine safe_seq (safe_saveLocked hheld.inv hheld.memory rfl rfl rfl ?_) ?_
    · dsimp only at hphase
      simp [hphase, Phase.moves_iff, Phase.Before, Phase.Revokes]
    · intro m'' d'' hstored
      exact hstored.inv
  · exact hheld.inv

theorem safe_recover :
    Secure rules config (recover rules config m now op) (fun x d' => Inv rules config d' x.2) d := by
  unfold recover
  split
  · exact h
  apply safe_outside h.durable
  intro live
  split
  · exact h
  apply safe_load h.durable
  · intro record hcached
    dsimp only
    split
    · exact h
    split
    · exact h
    split
    · exact h
    · refine { h with record := ?_ }
      intro r hr
      cases hr
      exact (h.valid op record hcached).1 ▸ hcached
  · intro hmiss
    exact h
  · exact h

end

/-! ### Answers -/

/-- The journal has the operation's record at this phase or later. -/
def Reached (op : String) (threshold : Phase) (d : Durable) : Prop :=
  ∃ r, d.records op = some r ∧ phaseAtLeast r.phase threshold = true

theorem eq_revoked (h : phaseAtLeast p .revoked = true) : p = .revoked := by
  revert h
  cases p <;> decide

theorem Held.reached (h : Held rules config r m d)
    (hthreshold : phaseAtLeast threshold .installed = true) (hphase : phaseAtLeast r.phase threshold = true) :
    Reached r.operationID threshold d := by
  obtain ⟨r', hr', -, hbef⟩ := h.inv.cached _ r (h.inv.record r h.memory)
  exact ⟨r', hr', hbef.atLeast hthreshold hphase⟩

theorem Stored.reached (h : Stored rules config r m d) (hphase : phaseAtLeast r.phase threshold = true) :
    Reached r.operationID threshold d :=
  ⟨r, h.journal, hphase⟩

theorem Record.names_operationID (hnames : r.names h = true) : h.operationID = r.operationID := by
  simp only [Record.names, Bool.and_eq_true, beq_iff_eq] at hnames
  exact hnames.1.1.1.1.1.2

theorem Record.ready_of_validate (h : r.validate rules now = true) (hphase : phaseAtLeast r.phase .ready = true)
    {ready : CredentialRotationReady} (hready : r.ready = some ready) :
    (ready.validate rules.toRotationRules 0).toBool = true ∧ r.readyMatches rules ready = true := by
  simp only [Record.validate, Bool.and_eq_true] at h
  have hpart := h.1.1.2
  simpa [hphase, hready] using hpart

theorem safe_acceptInstall (h : Inv rules config d m) {install : CredentialRotationInstall} :
    Secure rules config (acceptInstall rules m now install)
      (fun x d' => Inv rules config d' x.2 ∧ Reached x.1.operationID .installed d') d := by
  unfold acceptInstall
  split
  · exact h
  split
  · exact h
  next r hr =>
  split
  · exact h
  next hmatches =>
  simp only [Bool.or_eq_true, not_or, Bool.not_eq_true', Bool.not_eq_false] at hmatches
  have hop : install.operationID = r.operationID := by
    have hmatch := hmatches.1
    simp only [Record.installMatches, Bool.and_eq_true] at hmatch
    exact Record.names_operationID hmatch.1.1
  split
  next hphase =>
    refine ⟨h, ?_⟩
    show Reached install.operationID .installed d
    rw [hop]
    exact Held.reached ⟨h, hr⟩ rfl hphase
  split
  · exact h
  next hproof =>
  apply safe_outside h.durable
  intro live
  split
  · exact h
  apply safe_outside h.durable
  intro installed
  split
  · exact h
  refine safe_seq (safe_saveLocked h hr rfl rfl rfl ?_) ?_
  · have hphase : r.phase = .proofAccepted := by simpa using hproof
    simp [hphase, Phase.moves_iff, Phase.Before, Phase.Revokes]
  · intro m' d' hstored
    refine ⟨hstored.inv, ?_⟩
    show Reached install.operationID .installed d'
    rw [hop]
    exact hstored.reached rfl

theorem safe_markReady (h : Inv rules config d m) {report : Report} :
    Secure rules config (markReady rules m now report)
      (fun x d' => Inv rules config d' x.2 ∧ Reached x.1.operationID .ready d') d := by
  unfold markReady
  split
  · exact h
  split
  next r install hr hins =>
    split
    next hphase =>
      split
      next ready hready =>
        split
        · refine ⟨h, ?_⟩
          have hvalid := (h.valid _ r (h.record r hr)).2.valid
          have hmatch := (Record.ready_of_validate hvalid hphase hready).2
          simp only [Record.readyMatches, Bool.and_eq_true] at hmatch
          rw [Record.names_operationID hmatch.1.1]
          exact Held.reached ⟨h, hr⟩ rfl hphase
        · exact h
      · exact h
    split
    · exact h
    next hentry =>
    split
    · exact h
    split
    · exact h
    apply safe_outside h.durable
    intro live
    split
    · exact h
    refine safe_seq (safe_saveLocked h hr rfl rfl rfl ?_) ?_
    · have hphase : r.phase = .installed := by
        by_contra hne
        exact hentry (Or.inl hne)
      simp [hphase, Phase.moves_iff, Phase.Before, Phase.Revokes]
    · intro m' d' hstored
      exact ⟨hstored.inv, hstored.reached rfl⟩
  · exact h

/-- A record that the journal has in the course of its revocation. -/
def Revoking (rules : HostRules) (config : Config) (op : String) (x : Record × Memory) (d : Durable) : Prop :=
  Held rules config x.1 x.2 d ∧ x.1.operationID = op ∧ x.1.phase = .revoking

theorem Revoking.journal (h : Revoking rules config op x d) :
    ∃ r', d.records op = some r' ∧ r'.phase.Revokes := by
  obtain ⟨hheld, rfl, hphase⟩ := h
  obtain ⟨r', hr', -, hbef⟩ := hheld.inv.cached _ x.1 (hheld.inv.record x.1 hheld.memory)
  refine ⟨r', hr', ?_⟩
  rw [hphase] at hbef
  exact hbef

theorem safe_acceptRevoke (h : Inv rules config d m) {later : Time} {revoke : CredentialRotationRevoke} :
    Secure rules config (acceptRevoke rules config m now later revoke)
      (fun x d' => Inv rules config d' x.2 ∧ Reached x.1.operationID .revoked d') d := by
  unfold acceptRevoke
  split
  · exact h
  split
  next r ready hr hready =>
    have hop : r.revokeMatches revoke = true → revoke.operationID = r.operationID := by
      intro hmatch
      simp only [Record.revokeMatches, Bool.and_eq_true] at hmatch
      exact Record.names_operationID hmatch.1
    split
    next hphase =>
      split
      next hmatch =>
        refine ⟨h, ?_⟩
        show Reached revoke.operationID .revoked d
        rw [hop (Bool.and_eq_true_iff.mp hmatch).2]
        exact Held.reached ⟨h, hr⟩ rfl (by rw [hphase]; rfl)
      · exact h
    split
    · exact h
    next hentry =>
    simp only [not_or, not_and_or, not_not, Bool.not_eq_true', Bool.not_eq_false] at hentry
    obtain ⟨hphase, hmatch⟩ := hentry
    have hrevoking : Secure rules config (if r.phase = .ready then
          (saveLocked rules m { r with revoke := some revoke, phase := .revoking, updatedAt := now }).bind fun m' =>
            .done ({ r with revoke := some revoke, phase := .revoking, updatedAt := now }, m')
        else .done (r, m)) (Revoking rules config r.operationID) d := by
      split
      next hready =>
        refine safe_seq (safe_saveLocked h hr rfl rfl rfl ?_) ?_
        · simp [hready, Phase.moves_iff, Phase.Before, Phase.Revokes]
        · intro m' d' hstored
          exact ⟨hstored.held, rfl, rfl⟩
      next hready => exact ⟨⟨h, hr⟩, rfl, hphase.resolve_left hready⟩
    refine safe_seq hrevoking ?_
    rintro ⟨x, m'⟩ d' hx
    obtain ⟨r', hr', hrevokes⟩ := hx.journal
    obtain ⟨hheld, hxop, hxphase⟩ := hx
    apply safe_outside hheld.inv.durable
    intro live
    split
    · exact hheld.inv
    apply safe_outside hheld.inv.durable
    intro revoked
    split
    · exact hheld.inv
    have hdeleted := hheld.inv.delete_old hr' hrevokes
    refine ⟨⟨hheld.inv.durable, hdeleted.durable⟩, ⟨hheld.inv, fun _ => hdeleted⟩, ?_⟩
    refine safe_seq (safe_saveLocked hdeleted hheld.memory rfl rfl rfl ?_) ?_
    · dsimp only at hxphase
      simp [hxphase, Phase.moves_iff, Phase.Before, Phase.Revokes]
    · intro m'' d'' hstored
      refine ⟨hstored.inv, ?_⟩
      show Reached revoke.operationID .revoked d''
      rw [hop hmatch, ← hxop]
      exact hstored.reached rfl
  · exact h

/-! ### Runs -/

/-- The stores agree, and so does the memory of a running process. -/
structure Agrees (rules : HostRules) (config : Config) (h : Host) : Prop where
  durable : DurableInv rules config h.durable
  memory : ∀ m, h.memory = some m → Inv rules config h.durable m

/-- No save of the call that failed has made the first record of an operation. -/
def FirstSaveKept (rules : HostRules) (config : Config) (h : Host) (a : Action) : Prop :=
  match a, h.memory with
  | .recover now op faults, some m => (recover rules config m now op).meets NotFirst h.durable faults
  | .challenge env c faults, some m => (acceptChallenge rules config m env c).meets NotFirst h.durable faults
  | .install now install faults, some m => (acceptInstall rules m now install).meets NotFirst h.durable faults
  | .ready now report faults, some m => (markReady rules m now report).meets NotFirst h.durable faults
  | .revoke now later revoke faults, some m =>
    (acceptRevoke rules config m now later revoke).meets NotFirst h.durable faults
  | _, _ => True

/-- What fails in a call. -/
def Action.faults : Action → List Fault
  | .start | .crash => []
  | .recover _ _ faults | .challenge _ _ faults | .install _ _ faults | .ready _ _ faults | .revoke _ _ _ faults => faults

theorem firstSaveKept_of_not_late (h : Host) (a : Action) (ha : Fault.late ∉ a.faults) :
    FirstSaveKept rules config h a := by
  obtain ⟨d, memory⟩ := h
  cases memory with
  | none => cases a <;> trivial
  | some m =>
    cases a with
    | start => trivial
    | crash => trivial
    | recover | challenge | install | ready | revoke => exact meets_of_not_mem ha _ _

section

variable {p : Call α} {post : α × Memory → Durable → Prop} (hp : Secure rules config p post d)

include hp

theorem agrees_after (hpost : ∀ x d', post x d' → Inv rules config d' x.2)
    (hmeets : p.meets NotFirst d faults) : Agrees rules config (.after (p.exec d faults)) := by
  have hend := exec_of_wpOn hp hmeets
  generalize p.exec d faults = x at hend ⊢
  obtain ⟨outcome, d'⟩ := x
  cases outcome with
  | ok x =>
    have hinv := hpost x d' hend
    exact ⟨hinv.durable, fun m hm => by cases hm; exact hinv⟩
  | error e =>
    have hinv : Inv rules config d' e.2 := hend
    exact ⟨hinv.durable, fun m hm => by cases hm; exact hinv⟩
  | crash => exact ⟨hend, fun m hm => by cases hm⟩

theorem post_of_exec {faults : List Fault} (hmeets : p.meets NotFirst d faults)
    (hexec : p.exec d faults = (.ok x, d')) : post x d' := by
  have hend := exec_of_wpOn hp hmeets
  rw [hexec] at hend
  exact hend

end

theorem Agrees.step (hagrees : Agrees rules config h) (hkept : FirstSaveKept rules config h a)
    (hs : h.step rules config a = some h') : Agrees rules config h' := by
  obtain ⟨d, memory⟩ := h
  cases memory with
  | none =>
    cases a with
    | start =>
      cases hs
      refine ⟨hagrees.durable, ?_⟩
      rintro m hm
      cases hm
      refine ⟨hagrees.durable, hagrees.durable.valid, ?_, fun op hop => hop, fun r hr => by cases hr⟩
      intro op r hr
      exact ⟨r, hr, rfl, .refl _⟩
    | crash =>
      cases hs
      exact ⟨hagrees.durable, fun m hm => by cases hm⟩
    | _ => cases hs
  | some m =>
    have hm := hagrees.memory m rfl
    cases a with
    | start => cases hs
    | crash =>
      cases hs
      exact ⟨hagrees.durable, fun m hm => by cases hm⟩
    | challenge env c faults =>
      simp only [Host.step] at hs
      split at hs
      · cases hs
      next hfresh =>
        cases hs
        exact agrees_after (safe_acceptChallenge hm hfresh) (fun _ _ hx => hx) hkept
    | recover now op faults =>
      cases hs
      exact agrees_after (safe_recover hm) (fun _ _ hx => hx) hkept
    | install now install faults =>
      cases hs
      exact agrees_after (safe_acceptInstall hm) (fun _ _ hx => hx.1) hkept
    | ready now report faults =>
      cases hs
      exact agrees_after (safe_markReady hm) (fun _ _ hx => hx.1) hkept
    | revoke now later revoke faults =>
      cases hs
      exact agrees_after (safe_acceptRevoke hm) (fun _ _ hx => hx.1) hkept

/-- A host that has begun no rotation. -/
structure Initial (config : Config) (d : Durable) : Prop where
  old : config.oldCredentialReference ∈ d.keys
  issued : ∀ k ∈ d.keys, k ∈ d.issued
  records : ∀ op, d.records op = none

theorem Initial.agrees (h : Initial config d) : Agrees rules config ⟨d, none⟩ := by
  have hnone : ∀ op r, d.records op ≠ some r := fun op r hr => by simp [h.records op] at hr
  refine ⟨⟨h.issued, h.issued _ h.old, ?_, ?_, Or.inl h.old⟩, fun m hm => by cases hm⟩
  · intro op r hr
    exact absurd hr (hnone op r)
  · intro op r hr
    exact absurd hr (hnone op r)

/-- Whatever else fails or is cut off: the key of a durable record is in the store, the old
key is there until the journal says that it is being revoked, and an answer is given only
for a phase that the journal has reached. A crash can happen at every effect, so that the
states between the effects of a call are among those reached. -/
theorem rotation_crash_safe (rules : HostRules) (config : Config) {d : Durable} {h : Host} (hinit : Initial config d)
    (hreach : Reach (Host.step rules config) (FirstSaveKept rules config) ⟨d, none⟩ h) :
    (∀ op r, h.durable.records op = some r → r.newKey.reference ∈ h.durable.keys) ∧
      (config.oldCredentialReference ∈ h.durable.keys ∨
        ∃ op r, h.durable.records op = some r ∧ (r.phase = .revoking ∨ r.phase = .revoked)) ∧
      ∀ m, h.memory = some m →
        (∀ now install faults ack m' d', FirstSaveKept rules config h (.install now install faults) →
          (acceptInstall rules m now install).exec h.durable faults = (.ok (ack, m'), d') →
          ∃ r, d'.records ack.operationID = some r ∧ phaseAtLeast r.phase .installed) ∧
        (∀ now report faults ready m' d', FirstSaveKept rules config h (.ready now report faults) →
          (markReady rules m now report).exec h.durable faults = (.ok (ready, m'), d') →
          ∃ r, d'.records ready.operationID = some r ∧ phaseAtLeast r.phase .ready) ∧
        (∀ now later revoke faults ack m' d', FirstSaveKept rules config h (.revoke now later revoke faults) →
          (acceptRevoke rules config m now later revoke).exec h.durable faults = (.ok (ack, m'), d') →
          ∃ r, d'.records ack.operationID = some r ∧ r.phase = .revoked) := by
  have hagrees : Agrees rules config h := hreach.invariant hinit.agrees fun hx hok hs => hx.step hok hs
  refine ⟨fun op r hr => (hagrees.durable.records op r hr).1, hagrees.durable.revokes, ?_⟩
  intro m hm
  have hinv := hagrees.memory m hm
  obtain ⟨d', memory⟩ := h
  obtain rfl : memory = some m := hm
  refine ⟨?_, ?_, ?_⟩
  · intro now install faults ack m' d' hkept hexec
    have hsafe := @safe_acceptInstall rules config _ _ now hinv install
    exact (post_of_exec hsafe hkept hexec).2
  · intro now report faults ready m' d' hkept hexec
    have hsafe := @safe_markReady rules config _ _ now hinv report
    exact (post_of_exec hsafe hkept hexec).2
  · intro now later revoke faults ack m' d' hkept hexec
    have hsafe := @safe_acceptRevoke rules config _ _ now hinv later revoke
    obtain ⟨r, hr, hphase⟩ := (post_of_exec hsafe hkept hexec).2
    exact ⟨r, hr, eq_revoked hphase⟩

end Paperboat.ConnectorRotation

namespace Paperboat.ConnectorRotation.Demo

open ConnectorProtocol Crash Transition
open RotationCoordinator (fresh)
open RotationCoordinator.RotationDemo (plan target request oldThumbprint newThumbprint nonce setHash)

def encode (key : PublicKey) : String := String.ofList (key.map fun b => Char.ofNat b.toNat)

def decode (value : String) : Option PublicKey := some (value.toList.map fun c => UInt8.ofNat c.toNat)

theorem decode_encode (key : PublicKey) : decode (encode key) = some key := by
  have hchar : ∀ b : UInt8, UInt8.ofNat (Char.ofNat b.toNat).toNat = b := by
    intro b
    have hvalid : b.toNat.isValidChar := Or.inl (Nat.lt_trans b.toNat_lt (by decide))
    rw [Char.ofNat, dif_pos hvalid]
    exact UInt8.ofNat_toNat
  simp [decode, encode, Function.comp_def, hchar]

def rules : HostRules where
  planHash _ _ _ _ := setHash
  identityThumbprint value := (decode value).bind fun key =>
    if key.length = 32 ∧ encode key = value then some newThumbprint else none
  credentialReference _ := true
  verifyOldProof _ := true
  verifyNewProof _ := true
  encodeKey := encode
  decodeKey := decode
  thumbprint _ := newThumbprint
  decode_encode := decode_encode
  identity _ := rfl

def config : Config where
  accountID := "account_1"
  tunnelID := "tunnel_1"
  connectorID := "conn_a"
  hostID := "host_1"
  oldCredentialReference := "keychain://paperboat/1"
  oldIdentityKeyID := "ed25519:" ++ oldThumbprint
  oldIdentityThumbprint := oldThumbprint
  oldCredentialGeneration := 1

def initial : Durable where
  keys := ["keychain://paperboat/1"]
  issued := ["keychain://paperboat/1"]
  records _ := none

theorem initial_ok : Initial config initial where
  old := List.mem_singleton.mpr rfl
  issued _ h := h
  records _ := rfl

def challenge : CredentialRotationChallenge := (fresh plan).challengeFor (target "conn_a") (request "conn_a")

def newKey : KeyReference where
  reference := "keychain://paperboat/2"
  keyID := "ed25519:" ++ newThumbprint
  thumbprint := newThumbprint
  publicKey := List.replicate 32 7

def env : ChallengeEnv where
  now := 10 * second
  drawn := some (List.replicate 32 7)
  got := newKey
  signatures := (nonce ++ nonce, nonce ++ nonce)

/-- The first save reports an error after the journal has the record, and the key is
deleted. -/
def firstSaveLate : List Action :=
  [.start, .challenge env challenge [.done, .done, .done, .done, .done, .late]]

theorem firstSaveLate_runs : (run (Host.step rules config) ⟨initial, none⟩ firstSaveLate).map
    (fun h => ((h.durable.records "op_1").map (·.newKey.reference), h.durable.keys)) =
      some (some "keychain://paperboat/2", ["keychain://paperboat/1"]) := by
  decide +kernel

theorem key_of_record_deleted :
    ¬ ∀ h, Reach (Host.step rules config) Always ⟨initial, none⟩ h →
      ∀ op r, h.durable.records op = some r → r.newKey.reference ∈ h.durable.keys := by
  intro hall
  obtain ⟨h, hrun, hend⟩ := Option.map_eq_some_iff.mp firstSaveLate_runs
  obtain ⟨hrecord, hkeys⟩ := Prod.ext_iff.mp hend
  obtain ⟨r, hr, href⟩ := Option.map_eq_some_iff.mp hrecord
  have hmem := hall h (reach_of_run _ hrun) "op_1" r hr
  rw [show h.durable.keys = _ from hkeys, href] at hmem
  revert hmem
  decide

/-- The first save fails, the next one is followed by a crash. -/
def saveLostAndCrash : List Action :=
  [.start, .challenge env challenge [.done, .done, .done, .done, .done, .lost],
    .challenge { env with got := { newKey with reference := "keychain://paperboat/3" } } challenge
      [.done, .done, .done, .done, .done, .cutAfter],
    .start]

theorem answered_key_kept : ∃ h r, run (Host.step rules config) ⟨initial, none⟩ saveLostAndCrash = some h ∧
    h.durable.records "op_1" = some r ∧ r.newKey.reference = "keychain://paperboat/3" ∧
    r.newKey.reference ∈ h.durable.keys := by
  have hend : (run (Host.step rules config) ⟨initial, none⟩ saveLostAndCrash).map
      (fun h => (h.durable.records "op_1").map (·.newKey.reference)) = some (some "keychain://paperboat/3") := by
    decide +kernel
  obtain ⟨h, hrun, hrecord⟩ := Option.map_eq_some_iff.mp hend
  obtain ⟨r, hr, href⟩ := Option.map_eq_some_iff.mp hrecord
  have hlate : ∀ a ∈ saveLostAndCrash, Fault.late ∉ a.faults := by simp [saveLostAndCrash, Action.faults]
  have hreach : Reach (Host.step rules config) (FirstSaveKept rules config) ⟨initial, none⟩ h :=
    reach_of_run_admitted _ hrun fun x a ha => firstSaveKept_of_not_late x a (hlate a ha)
  exact ⟨h, r, hrun, hr, href, (rotation_crash_safe rules config initial_ok hreach).1 "op_1" r hr⟩

end Paperboat.ConnectorRotation.Demo
