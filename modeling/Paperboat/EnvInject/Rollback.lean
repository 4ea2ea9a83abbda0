import Paperboat.EnvInject.CrashAtomicity
import Paperboat.EnvInject.Processor
import Paperboat.EnvironmentManager.BuildTransition

/-! No rollback of the environment. The high-water file is left alone; the cache file may
be replaced by anything while no process runs, and the bundles may be anything. What
the high-water mark has seen bounds everything that was ever served. -/

namespace Paperboat.EnvInject

open EnvironmentE2EE Crash Transition

/-! ### What holds of every mark in the file -/

/-- A property of the marks in the high-water file, active and pending. A file that does
not exist yet stands for the initial mark. -/
def Guarded (identity : Identity) (G : HighWater → Prop) (d : Disk) : Prop :=
  match d.highWater with
  | none => G (initialHighWaterRecord identity).active
  | some record => G record.active ∧ ∀ value, record.pending = some value → G value

variable {config : Config} {identity : Identity} {G : HighWater → Prop} {d : Disk}

theorem Guarded.congr (h : Guarded identity G d) (heq : d'.highWater = d.highWater) :
    Guarded identity G d' := by
  rw [Guarded, heq]
  exact h

theorem Guarded.mono (h : Guarded identity G d) (himp : ∀ value, G value → G' value) :
    Guarded identity G' d := by
  rw [Guarded] at h ⊢
  split at h
  · exact himp _ h
  · exact ⟨himp _ h.1, fun value hvalue => himp _ (h.2 value hvalue)⟩

/-- The outcomes that leave the marks as guarded as they were. -/
def Keeps {α : Type} (config : Config) (G : HighWater → Prop) (ok : α → Disk → Prop) : Outcome StoreError α → Disk → Prop
  | .ok a, d => ok a d
  | .error _, d => Guarded config.identity G d
  | .crash, d => Guarded config.identity G d

theorem wp_genesis (h : Guarded config.identity G d) (hp : p = prepareGenesis ∨ p = commitGenesis) :
    p.wp (Keeps config G fun _ d' => d'.highWater = d.highWater) d := by
  have hframe : ∀ genesis, Guarded config.identity G { d with genesis := genesis } := fun _ => h.congr rfl
  rcases hp with rfl | rfl <;> simp only [prepareGenesis, commitGenesis, Prog.get, Prog.bind_eq, Prog.bind, Prog.wp] <;>
    split
  all_goals first | exact ⟨⟨h, hframe _⟩, ⟨h, hframe _⟩, rfl⟩ | exact rfl | exact h

variable {value : HighWater} {record : HighWaterRecord} {cache : Cache} {a : Option ManifestCursor}

theorem wp_write_final (h : Guarded config.identity G d) (hvalue : G value) :
    (writeHighWater (finalHighWaterRecord value)).wp
      (Keeps config G fun _ d' => d'.highWater = some (finalHighWaterRecord value)) d := by
  have hafter : Guarded config.identity G { d with highWater := some (finalHighWaterRecord value) } :=
    ⟨hvalue, by simp [finalHighWaterRecord]⟩
  exact wp_checkedWrite h h h fun _ => ⟨hafter, hafter, rfl⟩

/-- The rule for a sequence of parts that keep the marks guarded. -/
theorem wp_keeps_seq {α β : Type} {p : StoreProg α} {g : α → StoreProg β} {mid : α → Disk → Prop}
    {ok : β → Disk → Prop} (hp : p.wp (Keeps config G mid) d)
    (hok : ∀ a t, mid a t → (g a).wp (Keeps config G ok) t) : (p.bind g).wp (Keeps config G ok) d :=
  Prog.wp_seq hp hok (fun _ _ h => h) fun _ h => h

theorem wp_openRecord_guarded (h : Guarded config.identity G d) :
    (openRecord config).wp (Keeps config G fun record d' => d'.highWater = some record ∧
      highWaterEmpty record.active = true ∧ Guarded config.identity G d') d := by
  simp only [openRecord, Prog.get, Prog.bind_eq, Prog.bind, Prog.wp]
  split
  · next hnone =>
    have hinit : G (initialHighWaterRecord config.identity).active := by
      rw [Guarded, hnone] at h
      exact h
    split
    · refine wp_keeps_seq (wp_genesis h (.inl rfl)) fun _ d1 hd1 => ?_
      have h1 := h.congr hd1
      refine wp_keeps_seq (wp_write_final h1 hinit) fun _ d2 hd2 => ?_
      have h2 : Guarded config.identity G d2 := by
        rw [Guarded, hd2]
        exact ⟨hinit, by simp [finalHighWaterRecord]⟩
      refine wp_keeps_seq (wp_genesis h2 (.inr rfl)) fun _ d3 hd3 => ?_
      exact ⟨hd3.trans hd2, rfl, h2.congr hd3⟩
    · exact h
  · next record hrec =>
    split
    · next hempty =>
      split
      · refine wp_keeps_seq (wp_genesis h (.inr rfl)) fun _ d1 hd1 => ?_
        exact ⟨hd1.trans hrec, hempty, h.congr hd1⟩
      · exact ⟨hrec, hempty, h⟩
      · exact h
    · exact h

theorem Guarded.active (h : Guarded identity G d) (hd : d.highWater = some record) : G record.active := by
  rw [Guarded, hd] at h
  exact h.1

theorem Guarded.pending (h : Guarded identity G d)
    (hd : d.highWater = some record) (hp : record.pending = some value) : G value := by
  rw [Guarded, hd] at h
  exact h.2 value hp

section

variable (h : Guarded config.identity G d) (hd : d.highWater = some record)

include h hd

theorem wp_clearPending_guarded :
    (clearPending record).wp
      (Keeps config G fun _ d' => d'.highWater = some (finalHighWaterRecord record.active)) d := by
  rw [clearPending]
  split
  · exact wp_write_final h (h.active hd)
  · next hp =>
    obtain ⟨active, pending⟩ := record
    cases pending with
    | none => exact hd
    | some value => exact absurd rfl hp

theorem wp_reconcile_guarded :
    (reconcile record cache).wp (Keeps config G fun value d' => d'.highWater = some (finalHighWaterRecord value) ∧
      G value ∧ cacheMatchesHighWater cache value = true) d := by
  rw [reconcile]
  split
  · next hmatch =>
    refine wp_keeps_seq (wp_clearPending_guarded h hd) fun _ d' hd' => ?_
    exact ⟨hd', h.active hd, hmatch⟩
  · split
    · next value hp =>
      split
      · next hcond =>
        have hvalue := h.pending hd hp
        refine wp_keeps_seq (wp_write_final h hvalue) fun _ d' hd' => ?_
        exact ⟨hd', hvalue, hcond.2⟩
      · exact h
    · exact h

end

/-- A store as `Open` returns it. -/
structure Opened (restore : Cache → Option Verified) (G : HighWater → Prop) (s : Store) (d : Disk) : Prop where
  highWater : d.highWater = some (finalHighWaterRecord s.highWater)
  guarded : G s.highWater
  cache : (highWaterEmpty s.highWater = true ∧ s.verified = {}) ∨
    (cacheMatchesHighWater s.cache s.highWater = true ∧ restore s.cache = some s.verified ∧
      validVerified s.cache s.verified = true)

theorem opened_restored {restore : Cache → Option Verified}
    (hd : d.highWater = some (finalHighWaterRecord value)) (hvalue : G value)
    (hmatch : cacheMatchesHighWater cache value = true) (hres : restore cache = some verified)
    (hvalid : validVerified cache verified = true) :
    Opened restore G (restored cache value verified) d := by
  unfold restored
  split
  · exact ⟨hd, hvalue, Or.inr ⟨hmatch, hres, hvalid⟩⟩
  · split <;> exact ⟨hd, hvalue, Or.inr ⟨hmatch, hres, hvalid⟩⟩

theorem wp_openStore_guarded (restore : Cache → Option Verified) (h : Guarded config.identity G d) :
    (openStore config restore).wp (Keeps config G (Opened restore G)) d := by
  simp only [openStore, Prog.get, Prog.bind_eq, Prog.bind, Prog.wp]
  split
  · refine wp_keeps_seq (wp_openRecord_guarded h) fun record d1 hd1 => ?_
    obtain ⟨hrec, hempty, h1⟩ := hd1
    refine wp_keeps_seq (wp_clearPending_guarded h1 hrec) fun _ d2 hd2 => ?_
    exact ⟨hd2, h1.active hrec, Or.inl ⟨hempty, rfl⟩⟩
  · exact h
  · split
    · exact h
    · next cache hcache record hrec =>
      split
      · refine wp_keeps_seq (wp_reconcile_guarded h hrec) fun value d1 hd1 => ?_
        obtain ⟨hvalue, hG, hmatch⟩ := hd1
        have h1 : Guarded config.identity G d1 := by
          rw [Guarded, hvalue]
          exact ⟨hG, by simp [finalHighWaterRecord]⟩
        split
        · exact h1
        · next verified hres =>
          split
          · next hvalid => exact opened_restored hvalue hG hmatch hres hvalid
          · exact h1
      · exact h

theorem notBehind_of_valid (h : validHighWaterRecord (transitionHighWaterRecord value next) = true) :
    highWaterBehind next value = false := by
  simp only [validHighWaterRecord, transitionHighWaterRecord, Option.all_some, Bool.and_eq_true,
    Bool.not_eq_true'] at h
  exact h.2.2

/-- Every write of an update leaves guarded marks, if the next mark is good where it is not
behind the one before it. -/
theorem wp_persist_guarded (hd : d.highWater = some (finalHighWaterRecord value)) (hvalue : G value)
    (hnext : highWaterBehind (advanceHighWater value next) value = false → G (advanceHighWater value next)) :
    (persist value next).wp (Keeps config G fun _ d' =>
      d'.highWater = some (finalHighWaterRecord (advanceHighWater value next)) ∧
        highWaterBehind (advanceHighWater value next) value = false) d := by
  have h : Guarded config.identity G d := by
    rw [Guarded, hd]
    exact ⟨hvalue, by simp [finalHighWaterRecord]⟩
  rw [persist, Prog.bind_eq, Prog.wp_bind]
  refine wp_checkedWrite h h h fun hvalid => ?_
  have hbehind := notBehind_of_valid hvalid
  have h1 : Guarded config.identity G { d with
      highWater := some (transitionHighWaterRecord value (advanceHighWater value next)) } := by
    refine ⟨hvalue, fun v hv => ?_⟩
    cases hv
    exact hnext hbehind
  refine ⟨h1, h1, ?_⟩
  rw [Prog.andThen, Prog.bind_eq, Prog.wp_bind]
  have h2 : Guarded config.identity G { d with
      highWater := some (transitionHighWaterRecord value (advanceHighWater value next)), cache := .stored next } :=
    h1.congr rfl
  refine wp_checkedWrite h1 h1 h1 fun _ => ⟨h2, h2, ?_⟩
  refine Prog.wp_mono (wp_write_final h2 (hnext hbehind)) fun o t ht => ?_
  cases o with
  | ok u => exact ⟨ht, hbehind⟩
  | error e => exact ht
  | crash => exact ht

/-- How an update of a store ends, in terms of the marks. -/
def UpdateKeeps {β : Type} (config : Config) (G : HighWater → Prop) (s : Store) (next : Cache) (verified : Verified) :
    Outcome StoreError (Store × Except StoreError β) → Disk → Prop
  | .ok (s', .ok _), d => s'.cache = next ∧ s'.highWater = advanceHighWater s.highWater next ∧ s'.verified = verified ∧
      d.highWater = some (finalHighWaterRecord (advanceHighWater s.highWater next)) ∧
      highWaterBehind (advanceHighWater s.highWater next) s.highWater = false
  | .ok (s', .error _), d => s'.cache = s.cache ∧ s'.highWater = s.highWater ∧ s'.verified = s.verified ∧
      s'.writeFailed = true ∧ Guarded config.identity G d
  | .error _, _ => False
  | .crash, d => Guarded config.identity G d

theorem wp_update_guarded {β : Type} {next : Cache}
    {k : Except StoreError Unit → StoreProg (Store × Except StoreError β)} {done failed : Store} {value : β}
    {err : StoreError} (hok : k (.ok ()) = pure (done, .ok value)) (herror : ∀ e, k (.error e) = pure (failed, .error err))
    (hdone : done.cache = next ∧ done.highWater = advanceHighWater s.highWater next)
    (hfail : failed.cache = s.cache ∧ failed.highWater = s.highWater ∧ failed.verified = s.verified ∧
      failed.writeFailed = true)
    (hd : d.highWater = some (finalHighWaterRecord s.highWater)) (hvalue : G s.highWater)
    (hnext : highWaterBehind (advanceHighWater s.highWater next) s.highWater = false →
      G (advanceHighWater s.highWater next)) :
    ((persist s.highWater next).attempt.bind k).wp (UpdateKeeps config G s next done.verified) d := by
  rw [Prog.wp_bind, Prog.wp_attempt]
  refine Prog.wp_mono (@wp_persist_guarded config _ _ _ _ hd hvalue hnext) fun o t ht => ?_
  cases o with
  | ok u =>
    simp only [Prog.caught, Prog.andThen, hok, Prog.pure_eq, Prog.wp]
    exact ⟨hdone.1, hdone.2, rfl, ht⟩
  | error e =>
    simp only [Prog.caught, Prog.andThen, herror, Prog.pure_eq, Prog.wp]
    exact ⟨hfail.1, hfail.2.1, hfail.2.2.1, hfail.2.2.2, ht⟩
  | crash => exact ht

/-! ### What is served only moves forward -/

def generationLE : Option Cursor → Option Cursor → Prop
  | some a, some b => a.generation ≤ b.generation
  | _, _ => False

/-- The version grows, or stays with the same manifest. -/
def versionLE : Option ManifestCursor → Option ManifestCursor → Prop
  | some a, some b => a.version < b.version ∨ (a.version = b.version ∧ a.manifestID = b.manifestID)
  | _, _ => False

/-- What stands behind values that were served. -/
structure NotBefore (older newer : Verified) : Prop where
  authority : generationLE older.authority newer.authority
  global : versionLE older.global newer.global
  machine : versionLE older.machine newer.machine

structure Covers (value : HighWater) (v : Verified) : Prop where
  authority : generationLE v.authority value.authority
  global : versionLE v.global value.global
  machine : versionLE v.machine value.machine

theorem generationLE.trans {a b c : Option Cursor} (h : generationLE a b) (h' : generationLE b c) : generationLE a c := by
  cases a <;> cases b <;> cases c <;> simp_all [generationLE]
  omega

theorem versionLE.trans (h : versionLE a b) (h' : versionLE b c) : versionLE a c := by
  cases a <;> cases b <;> cases c <;> simp_all [versionLE]
  rcases h with h | ⟨h, hid⟩
  · rcases h' with h' | ⟨h', -⟩ <;> omega
  · rcases h' with h' | ⟨h', hid'⟩
    · omega
    · exact Or.inr ⟨h.trans h', hid.trans hid'⟩

theorem generationLE_of_not_behind {a : Option Cursor} {floor cache : Option Cursor} (h : generationLE a floor)
    (hb : cursorBehind cache floor = false) : generationLE a cache := by
  refine h.trans ?_
  cases floor with
  | none => cases a <;> exact h.elim
  | some floor =>
    cases cache with
    | none => simp [cursorBehind] at hb
    | some cache =>
      simp only [cursorBehind, Bool.or_eq_false_iff, decide_eq_false_iff_not, not_lt] at hb
      exact hb.1

theorem versionLE_of_versionBehind
    (h : versionBehind version manifestID floorVersion floorID = false) :
    versionLE (some ⟨floorVersion, e, floorID⟩) (some ⟨version, f, manifestID⟩) := by
  simp only [versionBehind, Bool.or_eq_false_iff, decide_eq_false_iff_not, not_lt, Bool.and_eq_false_iff,
    beq_eq_false_iff_ne, bne_eq_false_iff_eq] at h
  by_cases heq : version = floorVersion
  · exact Or.inr ⟨heq.symm, (h.2.resolve_left (by simp [heq])).symm⟩
  · exact Or.inl (by dsimp only; omega)

theorem versionLE_of_cursor_not_behind (h : versionLE a floor)
    (hb : manifestCursorBehind next floor = false) : versionLE a next := by
  refine h.trans ?_
  cases floor with
  | none => cases a <;> exact h.elim
  | some floor =>
    cases next with
    | none => simp [manifestCursorBehind] at hb
    | some next => exact versionLE_of_versionBehind hb

/-- The cursor of a manifest in the cache. -/
def envelopeCursor (e : ManifestEnvelope) : ManifestCursor := ⟨e.version, e.keyEpoch, e.manifestID⟩

theorem versionLE_of_manifest_not_behind {cache : Option ManifestEnvelope} (h : versionLE a floor)
    (hb : manifestBehind cache floor = false) : versionLE a (cache.map envelopeCursor) := by
  refine versionLE_of_cursor_not_behind h ?_
  rw [← hb]
  cases cache <;> cases floor <;> rfl

theorem Covers.mono {next : HighWater} (h : Covers value v)
    (hb : highWaterBehind next value = false) : Covers next v := by
  simp only [highWaterBehind, Bool.or_eq_false_iff] at hb
  obtain ⟨⟨⟨-, ha⟩, hg⟩, hm⟩ := hb
  exact ⟨generationLE_of_not_behind h.authority ha, versionLE_of_cursor_not_behind h.global hg,
    versionLE_of_cursor_not_behind h.machine hm⟩

/-- Values of a cache that is not behind a mark come after whatever the mark covers. -/
theorem Covers.notBefore (h : Covers value v)
    (hb : cacheBehindHighWater cache value = false) (hw : CryptoProcessor.Consistent cache w)
    (hready : w.ready = true) : NotBefore v w := by
  obtain ⟨hrev, hglob, hmach⟩ := hw.ready hready
  simp only [cacheBehindHighWater, Bool.or_eq_false_iff, hrev, Bool.not_false, Bool.true_and] at hb
  obtain ⟨⟨-, ha⟩, hg, hm⟩ := hb
  refine ⟨?_, ?_, ?_⟩
  · rw [hw.authority]
    exact generationLE_of_not_behind h.authority ha
  · rw [hglob]
    exact versionLE_of_manifest_not_behind h.global hg
  · rw [hmach]
    exact versionLE_of_manifest_not_behind h.machine hm

theorem versionLE_cached {value : Option ManifestCursor} {cache : Option ManifestEnvelope} (hsome : cache.isSome = true)
    (h : manifestBehindCursor value cache = false) : versionLE (cache.map envelopeCursor) value := by
  cases cache with
  | none => cases hsome
  | some cache =>
    cases value with
    | none => simp [manifestBehindCursor] at h
    | some value => exact versionLE_of_versionBehind h

/-- A mark covers the values of the cache that belongs to it. -/
theorem covers_of_matches
    (h : cacheMatchesHighWater cache value = true) (hw : CryptoProcessor.Consistent cache w) (hready : w.ready = true)
    (hvalid : validVerified cache w = true) : Covers value w := by
  obtain ⟨hrev, hglob, hmach⟩ := hw.ready hready
  simp only [cacheMatchesHighWater, hrev, Bool.false_eq_true, if_false, Bool.and_eq_true, beq_iff_eq,
    Bool.not_eq_true', Bool.or_eq_false_iff] at h
  obtain ⟨⟨⟨-, ha⟩, ⟨-, hg⟩, hm⟩, -⟩ := h
  rw [validVerified] at hvalid
  split at hvalid
  · simp [hready] at hvalid
  · simp only [hready, Bool.not_true, Bool.false_eq_true, if_false, Bool.and_eq_true] at hvalid
    obtain ⟨⟨⟨⟨⟨hauth, -⟩, -⟩, -⟩, hgsome⟩, hmsome⟩ := hvalid
    obtain ⟨cursor, hcurs⟩ := Option.isSome_iff_exists.mp hauth
    refine ⟨?_, ?_, ?_⟩
    · rw [← ha, ← hw.authority, hcurs]
      exact le_refl cursor.generation
    · rw [hglob]
      exact versionLE_cached hgsome hg
    · rw [hmach]
      exact versionLE_cached hmsome hm

/-! ### Histories under attack -/

/-- What is written down about a history: the bundles that were accepted, with the result,
and the values that were served, with what the store knows of them. -/
inductive Entry where
  | applied (bundle : Bundle) (verified : Verified)
  | served (values : Values) (verified : Verified)
  deriving DecidableEq

structure Watched where
  disk : Disk := ⟨none, .missing, .fresh⟩
  process : Option Store := none
  log : List Entry := []

inductive Attack where
  | start (keys : Option Material) (faults : List Fault)
  | apply (keys : Option Material) (bundle : Bundle) (faults : List Fault)
  | observe (faults : List Fault)
  | serve
  | stop
  | tamper (file : CacheFile)

namespace Watched

def ended {β : Type} (sys : Watched) (entry : Store → List Entry) :
    Outcome StoreError (Store × Except StoreError β) × Disk → Watched
  | (.ok (s, .ok _), d) => { disk := d, process := some s, log := entry s ++ sys.log }
  | (.ok (s, .error _), d) => { sys with disk := d, process := some s }
  | (.error _, d) => { sys with disk := d, process := none }
  | (.crash, d) => { sys with disk := d, process := none }

def opened (sys : Watched) : Outcome StoreError Store × Disk → Watched
  | (.ok s, d) => { sys with disk := d, process := some s }
  | (.error _, d) => { sys with disk := d, process := none }
  | (.crash, d) => { sys with disk := d, process := none }

/-- The processor's key source gives whatever it gives; the cache file is replaced only
while no process runs. -/
def step (p : CryptoProcessor) (allow : Bool) (sys : Watched) : Attack → Option Watched
  | .start keys faults =>
    some (sys.opened ((openStore ⟨p.identity, allow⟩ ({ p with keys := keys }).restore).exec sys.disk faults))
  | .apply keys bundle faults => do
    let s ← sys.process
    pure (sys.ended (fun s' => [.applied bundle s'.verified])
      ((s.apply bundle (({ p with keys := keys }).apply s.cache bundle)).exec sys.disk faults))
  | .observe faults => do
    let s ← sys.process
    pure (sys.ended (fun _ => []) (s.nextObservation.exec sys.disk faults))
  | .serve => do
    let s ← sys.process
    match s.environment with
    | .ok values => pure { sys with log := .served values s.verified :: sys.log }
    | .error _ => pure sys
  | .stop => some { sys with process := none }
  | .tamper file => if sys.process.isNone then some { sys with disk := { sys.disk with cache := file } } else none

/-- How a later entry relates to an earlier one: served values come after served values,
and nothing is served after a revocation. -/
def Later : Entry → Entry → Prop
  | .served _ newer, .served _ older => NotBefore older newer
  | .served .., .applied _ w => w.revoked = false
  | .applied .., _ => True

def Revoked (log : List Entry) : Prop := ∃ b w, Entry.applied b w ∈ log ∧ w.revoked = true

/-- What every mark in the file has. -/
structure Mark (log : List Entry) (process : Option Store) (value : HighWater) : Prop where
  served : ∀ values v, Entry.served values v ∈ log → Covers value v
  running : ∀ s, process = some s → s.verified.ready = true → Covers value s.verified
  revoked : Revoked log → ∃ c, value.cacheHash = some c ∧ c.revoked = true

/-- The processor with some key gets these values from what stands behind them. -/
def Backed (p : CryptoProcessor) (v : Verified) : Prop := ∃ keys, ({ p with keys := keys }).Backed v

structure Inv (p : CryptoProcessor) (sys : Watched) : Prop where
  marks : Guarded p.identity (Mark sys.log sys.process) sys.disk
  file : ∀ s, sys.process = some s → s.writeFailed = false →
    sys.disk.highWater = some (finalHighWaterRecord s.highWater)
  newest : ∀ s, sys.process = some s → s.verified.ready = true → ∀ e ∈ sys.log,
    Later (.served s.verified.vars s.verified) e
  revoked : Revoked sys.log → ∀ s, sys.process = some s → p.RevokedAt s.cache ∧ s.verified.ready = false
  order : sys.log.Pairwise Later
  backed : ∀ s, sys.process = some s → s.verified.ready = true → Backed p s.verified
  values : ∀ values v, Entry.served values v ∈ sys.log → values = v.vars ∧ Backed p v

variable {p : CryptoProcessor} {allow : Bool} {sys : Watched}

theorem init_inv : Inv p {} := by
  refine ⟨⟨by simp, by simp, ?_⟩, by simp, by simp, by simp, List.Pairwise.nil, by simp, by simp⟩
  rintro ⟨b, w, hmem, -⟩
  cases hmem

variable {value : HighWater} {s : Store}

section

variable {log : List Entry} {process : Option Store} (h : Mark log process value)

include h

theorem Mark.stopped : Mark log none value :=
  ⟨h.served, by simp, h.revoked⟩

omit h in
/-- The process is gone; the files changed in a way that keeps the marks. -/
theorem Inv.stopped (h : Inv p sys) (hd : Guarded p.identity (Mark sys.log sys.process) d) :
    Inv p { sys with disk := d, process := none } :=
  ⟨hd.mono fun _ => Mark.stopped, by simp, by simp, by simp, h.order, by simp, h.values⟩

/-- The next mark is as good as the one before it. -/
theorem Mark.advance {next : Cache}
    (hb : highWaterBehind (advanceHighWater value next) value = false)
    (hnext : Revoked log → next.revoked = true) : Mark log process (advanceHighWater value next) :=
  ⟨fun values v hv => (h.served values v hv).mono hb, fun s hs hr => (h.running s hs hr).mono hb,
    fun hrev => ⟨next, rfl, hnext hrev⟩⟩

end

theorem RevokedAt.keys {cache : Cache} {keys : Option Material}
    (h : CryptoProcessor.RevokedAt { p with keys := keys } cache) : p.RevokedAt cache := ⟨h.revoked, h.unauthorized⟩

/-- After a successful `Open`. -/
theorem Inv.opened (h : Inv p sys)
    (hopen : Opened ({ p with keys := keys }).restore (Mark sys.log sys.process) s d) :
    Inv p { sys with disk := d, process := some s } := by
  have hmark := hopen.guarded
  have hkept : s.verified.ready = true → Covers s.highWater s.verified ∧
      ∀ v, Covers s.highWater v → NotBefore v s.verified := by
    intro hready
    rcases hopen.cache with ⟨-, hver⟩ | ⟨hmatch, hres, hvalid⟩
    · rw [hver] at hready
      cases hready
    · have hcons := (CryptoProcessor.restore_spec hres).1
      have hbehind : cacheBehindHighWater s.cache s.highWater = false := notBehind_of_matches hmatch le_rfl
      exact ⟨covers_of_matches hmatch hcons hready hvalid, fun v hv => hv.notBefore hbehind hcons hready⟩
  have hrev : Revoked sys.log → p.RevokedAt s.cache ∧ s.verified.ready = false := by
    intro hlog
    obtain ⟨c, hhash, hc⟩ := hmark.revoked hlog
    rcases hopen.cache with ⟨hempty, -⟩ | ⟨hmatch, hres, -⟩
    · simp [highWaterEmpty, hhash] at hempty
    · simp only [cacheMatchesHighWater, Bool.and_eq_true, beq_iff_eq] at hmatch
      have heq : c = s.cache := by
        rw [hhash] at hmatch
        exact Option.some.inj hmatch.2
      have hspec := (CryptoProcessor.restore_spec hres).2.2 (heq ▸ hc)
      exact ⟨RevokedAt.keys hspec.1, hspec.2⟩
  refine ⟨?_, ?_, ?_, ?_, h.order, ?_, h.values⟩
  · rw [Guarded, hopen.highWater]
    refine ⟨⟨hmark.served, ?_, hmark.revoked⟩, by simp [finalHighWaterRecord]⟩
    rintro t ht hready
    cases ht
    exact (hkept hready).1
  · rintro t ht -
    cases ht
    exact hopen.highWater
  · rintro t ht hready e he
    cases ht
    cases e with
    | served values v => exact (hkept hready).2 v (hmark.served values v he)
    | applied b w =>
      by_contra hw
      have hflag := (hrev ⟨b, w, he, by simpa [Later] using hw⟩).2
      rw [hready] at hflag
      cases hflag
  · rintro hlog t ht
    cases ht
    exact hrev hlog
  · rintro t ht hready
    cases ht
    rcases hopen.cache with ⟨-, hver⟩ | ⟨-, hres, -⟩
    · rw [hver] at hready
      cases hready
    · exact ⟨keys, CryptoProcessor.restore_backed hres hready⟩

section

variable (h : Inv p sys) (hs : sys.process = some s)

include h hs

/-- A store that differs in what it reports only. -/
theorem Inv.relabelled (hc : s'.cache = s.cache) (hh : s'.highWater = s.highWater)
    (hf : s'.writeFailed = false → s.writeFailed = false) (hv : s'.verified = s.verified) {d : Disk}
    (hd : Guarded p.identity (Mark sys.log sys.process) d)
    (hfile : s'.writeFailed = false → d.highWater = sys.disk.highWater) :
    Inv p { sys with disk := d, process := some s' } := by
  refine ⟨hd.mono fun value hmark => ⟨hmark.served, ?_, hmark.revoked⟩, ?_, ?_, ?_, h.order, ?_, h.values⟩
  · rintro t ht hready
    cases ht
    rw [hv] at hready ⊢
    exact hmark.running s hs hready
  · rintro t ht hflag
    cases ht
    rw [hh, hfile hflag]
    exact h.file s hs (hf hflag)
  · rintro t ht hready e he
    cases ht
    rw [hv] at hready ⊢
    exact h.newest s hs hready e he
  · rintro hlog t ht
    cases ht
    rw [hv, hc]
    exact h.revoked hlog s hs
  · rintro t ht hready
    cases ht
    rw [hv] at hready ⊢
    exact h.backed s hs hready

/-- The marks with the next cache's mark, before the outcome of the writes is known. -/
theorem Inv.mark (hflag : s.writeFailed = false) : Mark sys.log sys.process s.highWater :=
  h.marks.active (h.file s hs hflag)

/-- An update that wrote `next`, or failed on the way. -/
theorem Inv.updated {β : Type} {next : Cache}
    {o : Outcome StoreError (Store × Except StoreError β)} {d : Disk}
    (hflag : s.writeFailed = false)
    (hpost : UpdateKeeps ⟨p.identity, allow⟩ (Mark sys.log sys.process) s next v o d)
    {entry : Store → List Entry} {entries : List Entry}
    (hentry : ∀ s', s'.verified = v → entry s' = entries)
    (happ : ∀ e ∈ entries, ∃ b w, e = .applied b w)
    (hready : v.ready = true → highWaterBehind (advanceHighWater s.highWater next) s.highWater = false →
      Covers (advanceHighWater s.highWater next) v ∧ ∀ e ∈ sys.log, Later (.served v.vars v) e)
    (hbacked : v.ready = true → Backed p v)
    (hrev : Revoked (entries ++ sys.log) → p.RevokedAt next ∧ v.ready = false) :
    Inv p (sys.ended entry (o, d)) := by
  have hserv : ∀ values v, Entry.served values v ∈ entries ++ sys.log → Entry.served values v ∈ sys.log := by
    intro values v hv
    refine (List.mem_append.mp hv).resolve_left fun he => ?_
    obtain ⟨b, w, heq⟩ := happ _ he
    cases heq
  match o, hpost with
  | .crash, hd => exact h.stopped hd
  | .ok (s', .error e), ⟨hc, hh, hv, hf, hd⟩ =>
    exact h.relabelled hs hc hh (fun hff => by rw [hf] at hff; cases hff) hv hd
      fun hff => by rw [hf] at hff; cases hff
  | .ok (s', .ok b), ⟨hc, hh, hv, hd, hb⟩ =>
    have hmark := h.mark hs hflag
    simp only [ended, hentry s' hv]
    refine ⟨?_, ?_, ?_, ?_, ?_, ?_, fun values w hw => h.values values w (hserv values w hw)⟩
    · rw [Guarded, hd]
      refine ⟨⟨fun values w hw => (hmark.served values w (hserv values w hw)).mono hb, ?_, ?_⟩,
        by simp [finalHighWaterRecord]⟩
      · rintro t ht htr
        cases ht
        rw [hv] at htr ⊢
        exact (hready htr hb).1
      · exact fun hlog => ⟨next, rfl, (hrev hlog).1.revoked⟩
    · rintro t ht -
      cases ht
      rw [hd, hh]
    · rintro t ht htr e he
      cases ht
      rw [hv] at htr ⊢
      rcases List.mem_append.mp he with he | he
      · obtain ⟨b, w, rfl⟩ := happ e he
        by_contra hw
        have hr := (hrev ⟨b, w, List.mem_append_left _ he, by simpa [Later] using hw⟩).2
        rw [htr] at hr
        cases hr
      · exact (hready htr hb).2 e he
    · rintro hlog t ht
      cases ht
      rw [hc, hv]
      exact hrev hlog
    · refine List.pairwise_append.mpr ⟨List.pairwise_of_forall_mem_list ?_, h.order, ?_⟩
      · intro e he e' _
        obtain ⟨b, w, rfl⟩ := happ e he
        trivial
      · intro e he e' _
        obtain ⟨b, w, rfl⟩ := happ e he
        trivial
    · rintro t ht htr
      cases ht
      rw [hv] at htr ⊢
      exact hbacked htr

theorem Inv.observe (faults : List Fault) :
    Inv p (sys.ended (fun _ => []) (s.nextObservation.exec sys.disk faults)) := by
  cases htgt : s.observeTarget with
  | none =>
    rw [System.nextObservation_of_target_none htgt]
    exact h.relabelled hs rfl rfl id rfl h.marks fun _ => rfl
  | some next =>
    rw [Store.observeTarget] at htgt
    split at htgt
    · contradiction
    · next hcond =>
      cases htgt
      have hflag : s.writeFailed = false := by simpa using fun hw => hcond (Or.inl hw)
      have hmark := h.mark hs hflag
      have hrev : Revoked sys.log → p.RevokedAt s.nextCache := fun hlog =>
        ⟨(h.revoked hlog s hs).1.revoked, (h.revoked hlog s hs).1.unauthorized⟩
      let done := { s with cache := s.nextCache, highWater := advanceHighWater s.highWater s.nextCache }
      have hwp : s.nextObservation.wp (UpdateKeeps ⟨p.identity, true⟩ (Mark sys.log sys.process) s s.nextCache
          done.verified) sys.disk := by
        rw [Store.nextObservation, if_neg hcond]
        exact wp_update_guarded rfl (fun _ => rfl) ⟨rfl, rfl⟩ ⟨rfl, rfl, rfl, rfl⟩ (h.file s hs hflag) hmark fun hb =>
          hmark.advance hb fun hlog => (hrev hlog).revoked
      have hpost := Prog.exec_of_wp hwp faults
      exact h.updated hs hflag hpost (fun _ _ => rfl) (by simp)
        (fun hready hb => ⟨(hmark.running s hs hready).mono hb, h.newest s hs hready⟩) (h.backed s hs)
        fun hlog => ⟨hrev hlog, (h.revoked hlog s hs).2⟩

theorem Inv.applied (keys : Option Material) (bundle : Bundle) (faults : List Fault) :
    Inv p (sys.ended (fun s' => [.applied bundle s'.verified])
      ((s.apply bundle (({ p with keys := keys }).apply s.cache bundle)).exec sys.disk faults)) := by
  cases htgt : s.applyTarget (({ p with keys := keys }).apply s.cache bundle) with
  | none =>
    obtain ⟨s', e, heq, hc, hh, hf, hv⟩ := System.apply_of_target_none htgt
    rw [heq]
    exact h.relabelled hs hc hh (fun hff => hf ▸ hff) hv h.marks fun _ => rfl
  | some next =>
    rw [Store.applyTarget] at htgt
    split at htgt
    · contradiction
    · next hflag =>
      have hflag' : s.writeFailed = false := by simpa using hflag
      obtain ⟨⟨c, verified⟩, hfilter, rfl⟩ := Option.map_eq_some_iff.mp htgt
      obtain ⟨happly, hacc⟩ := Option.filter_eq_some_iff.mp hfilter
      simp only [Store.accepts, Bool.and_eq_true, Bool.not_eq_true'] at hacc
      obtain ⟨⟨-, hbehind⟩, hvalid⟩ := hacc
      obtain ⟨hcons, hnew, hkept⟩ := CryptoProcessor.apply_spec happly
      have hmark := h.mark hs hflag'
      have hrev : Revoked sys.log → p.RevokedAt c ∧ verified.ready = false := fun hlog => by
        have hat := (h.revoked hlog s hs).1
        obtain ⟨hc, hr⟩ := hkept ⟨hat.revoked, hat.unauthorized⟩
        exact ⟨RevokedAt.keys hc, hr⟩
      have hfields := s.applied_fields bundle c verified
      have hwp : (s.apply bundle (({ p with keys := keys }).apply s.cache bundle)).wp
          (UpdateKeeps ⟨p.identity, true⟩ (Mark sys.log sys.process) s c (s.applied bundle c verified).verified)
          sys.disk := by
        rw [Store.apply, if_neg hflag]
        simp only [hfilter]
        exact wp_update_guarded rfl (fun _ => rfl) ⟨hfields.1, hfields.2.1⟩ ⟨rfl, rfl, rfl, rfl⟩ (h.file s hs hflag')
          hmark fun hb => hmark.advance hb fun hlog => (hrev hlog).1.revoked
      have hpost := Prog.exec_of_wp hwp faults
      rw [hfields.2.2.2] at hpost
      refine h.updated hs hflag' hpost (fun s' hs' => by rw [hs']) (by simp) (fun hready _ => ?_)
        (fun hready => ⟨keys, CryptoProcessor.apply_backed happly hready⟩) ?_
      · have hdrop : c.revoked = true → c.globalManifest = none ∧ c.machineManifest = none := by
          simp [(hcons.ready hready).1]
        refine ⟨covers_of_matches (cacheMatches_advance hbehind hdrop) hcons hready hvalid, fun e he => ?_⟩
        cases e with
        | served values v => exact (hmark.served values v he).notBefore hbehind hcons hready
        | applied b w =>
          by_contra hw
          have hr := (hrev ⟨b, w, he, by simpa [Later] using hw⟩).2
          rw [hready] at hr
          cases hr
      · rintro ⟨b, w, hmem, hw⟩
        rcases List.mem_append.mp hmem with hmem | hmem
        · rw [List.mem_singleton] at hmem
          cases hmem
          refine ⟨RevokedAt.keys (hnew hw), ?_⟩
          rw [validVerified, if_pos hw] at hvalid
          simp only [Bool.and_eq_true, Bool.not_eq_true'] at hvalid
          exact hvalid.1.1
        · exact hrev ⟨b, w, hmem, hw⟩

omit h hs in
theorem Covers.self (h : Covers value v) : NotBefore v v := by
  obtain ⟨ha, hg, hm⟩ := h
  refine ⟨?_, ?_, ?_⟩
  · cases hv : v.authority with
    | none => rw [hv] at ha; exact ha.elim
    | some a => exact le_refl a.generation
  · cases hv : v.global with
    | none => rw [hv] at hg; exact hg.elim
    | some g => exact Or.inr ⟨rfl, rfl⟩
  · cases hv : v.machine with
    | none => rw [hv] at hm; exact hm.elim
    | some m => exact Or.inr ⟨rfl, rfl⟩

omit h hs in
theorem Guarded.exists (h : Guarded identity G d) : ∃ value, G value := by
  rw [Guarded] at h
  split at h
  · exact ⟨_, h⟩
  · exact ⟨_, h.1⟩

/-- Serving writes down what stands behind the values. -/
theorem Inv.serve (hready : s.verified.ready = true) :
    Inv p { sys with log := .served s.verified.vars s.verified :: sys.log } := by
  have hlog : Revoked (.served s.verified.vars s.verified :: sys.log) → Revoked sys.log := by
    rintro ⟨b, w, hmem, hw⟩
    rcases List.mem_cons.mp hmem with heq | hmem
    · cases heq
    · exact ⟨b, w, hmem, hw⟩
  refine ⟨h.marks.mono fun value hmark => ⟨?_, hmark.running, fun hr => hmark.revoked (hlog hr)⟩, h.file, ?_,
    fun hr => h.revoked (hlog hr), List.Pairwise.cons (h.newest s hs hready) h.order, h.backed, ?_⟩
  · intro values v hv
    rcases List.mem_cons.mp hv with heq | hv
    · cases heq
      exact hmark.running s hs hready
    · exact hmark.served values v hv
  · rintro t ht htr e he
    rw [hs] at ht
    cases ht
    rcases List.mem_cons.mp he with rfl | he
    · obtain ⟨value, hmark⟩ := Guarded.exists h.marks
      exact Covers.self (hmark.running s hs hready)
    · exact h.newest s hs hready e he
  · intro values v hv
    rcases List.mem_cons.mp hv with heq | hv
    · cases heq
      exact ⟨rfl, h.backed s hs hready⟩
    · exact h.values values v hv

end

theorem environment_eq_ok (h : s.environment = .ok values) : s.verified.ready = true ∧ values = s.verified.vars := by
  rw [Store.environment] at h
  split at h
  · cases h
  · split at h
    · cases h
    · next hready =>
      cases h
      exact ⟨by simpa using hready, rfl⟩

theorem Inv.step {a : Attack} (h : Inv p sys) (hstep : Watched.step p allow sys a = some sys') :
    Inv p sys' := by
  cases a with
  | start keys faults =>
    cases hstep
    have hwp := @wp_openStore_guarded ⟨p.identity, allow⟩ _ _ ({ p with keys := keys }).restore h.marks
    have hpost := Prog.exec_of_wp hwp faults
    rcases hexec : (openStore ⟨p.identity, allow⟩ ({ p with keys := keys }).restore).exec sys.disk faults with ⟨o, d⟩
    rw [hexec] at hpost ⊢
    cases o with
    | ok s => exact h.opened hpost
    | error e => exact h.stopped hpost
    | crash => exact h.stopped hpost
  | apply keys bundle faults =>
    obtain ⟨s, hs, hsys⟩ := Option.bind_eq_some_iff.mp hstep
    cases hsys
    exact h.applied hs keys bundle faults
  | observe faults =>
    obtain ⟨s, hs, hsys⟩ := Option.bind_eq_some_iff.mp hstep
    cases hsys
    exact h.observe hs faults
  | serve =>
    obtain ⟨s, hs, hsys⟩ := Option.bind_eq_some_iff.mp hstep
    split at hsys
    · next values henv =>
      cases hsys
      obtain ⟨hready, rfl⟩ := environment_eq_ok henv
      exact h.serve hs hready
    · cases hsys
      exact h
  | stop =>
    cases hstep
    exact h.stopped h.marks
  | tamper file =>
    simp only [Watched.step] at hstep
    split at hstep
    · next hnone =>
      cases hstep
      have hprocess : sys.process = none := by simpa using hnone
      exact ⟨h.marks.congr rfl, by simp [hprocess], by simp [hprocess], by simp [hprocess], h.order, by simp [hprocess],
        h.values⟩
    · cases hstep

end Watched

/-- In every history, with any bundles, any replacements of the cache file between runs and
any faults: served values are those of the manifests that stand behind them, as the host
decrypts and merges these; of two sets of served values, the later one has neither an older
authority nor an older manifest, and manifests of one version are the same; and after an
accepted revocation nothing is served unless an authority of a larger generation that
authorizes this host was accepted in between. -/
theorem no_environment_rollback (p : CryptoProcessor) (allow : Bool) {sys : Watched}
    (h : Reach (Watched.step p allow) Always {} sys) :
    (∀ values v, Entry.served values v ∈ sys.log → ∃ keys global machine,
      v.global = some (CryptoProcessor.manifestCursor global) ∧
      v.machine = some (CryptoProcessor.manifestCursor machine) ∧
      ({ p with keys := keys }).decrypt global machine = some values) ∧
    (∀ recent x older y newer middle rest,
      sys.log = recent ++ .served y newer :: middle ++ .served x older :: rest → NotBefore older newer) ∧
    (∀ recent y newer middle bundle w rest,
      sys.log = recent ++ .served y newer :: middle ++ .applied bundle w :: rest → w.revoked = true →
      ∃ b v d a, Entry.applied b v ∈ middle ∧ d ∈ b.authorityDocuments ∧ p.parseOwn d = some a ∧
        p.hostAuthorized a = true ∧ ∃ head, w.authority = some head ∧ head.generation < a.generation) := by
  have hinv : Watched.Inv p sys := h.invariant Watched.init_inv fun hx _ hstep => hx.step hstep
  have hlater : ∀ {recent middle rest e e'}, sys.log = recent ++ e :: middle ++ e' :: rest → Watched.Later e e' := by
    intro recent middle rest e e' heq
    have horder := hinv.order
    rw [heq, List.append_assoc, List.pairwise_append] at horder
    exact List.rel_of_pairwise_cons horder.2.1 (List.mem_append_right _ (List.mem_cons_self ..))
  refine ⟨fun values v hv => ?_, fun recent x older y newer middle rest heq => hlater heq,
    fun recent y newer middle bundle w rest heq hw => ?_⟩
  · obtain ⟨rfl, keys, global, machine, hg, hm, hvals⟩ := hinv.values values v hv
    exact ⟨keys, global, machine, hg, hm, hvals⟩
  · have hnot : w.revoked = false := hlater heq
    rw [hw] at hnot
    contradiction

/-! ### A laptop whose environment changes -/

namespace Demo

open EnvironmentE2EE.Demo EnvironmentManager.Demo CryptoProcessor

def laptopHost : CryptoProcessor where
  identity := ⟨"account", "laptop", 1, 1, .envk 3⟩
  roots := [.aek 0]
  keys := some ⟨1, .envk 3⟩

def sharedEmpty : Manifest := (publish bound .global "" .active .reauthorize 2 1 [] []).get (by decide +kernel)

def sharedToken : Manifest :=
  (publish bound .global "" .active .set 3 1 ["TOKEN"] [("TOKEN", [49])]).get (by decide +kernel)

def ownEmpty : Manifest := (publish bound .machine "laptop" .active .initialise 1 1 [] []).get (by decide +kernel)

def firstPage : Bundle where
  authorityHead := cursorOf bound
  authorityDocuments := [genesis.raw, bound.raw]

def firstPair : Bundle where
  authorityHead := cursorOf bound
  bootstrap := some ⟨cursorOf bound, envelope sharedEmpty, envelope ownEmpty⟩
  globalManifest := some (envelope sharedEmpty)
  machineManifest := some (envelope ownEmpty)

def secondPair : Bundle where
  authorityHead := cursorOf bound
  globalManifest := some (envelope sharedToken)
  machineManifest := some (envelope ownEmpty)

def verifiedWith (global : Manifest) (values : Values) : Verified where
  authority := some (cursorOf bound)
  global := some (manifestCursor global)
  machine := some (manifestCursor ownEmpty)
  vars := values
  ready := true

def served : List Attack :=
  [.start laptopHost.keys [], .apply laptopHost.keys firstPage [], .apply laptopHost.keys firstPair [], .serve,
    .apply laptopHost.keys secondPair [], .stop, .start laptopHost.keys [], .serve]

def servedTwice : Watched := final (Watched.step laptopHost true) {} served (by decide +kernel)

theorem servedTwice_log : servedTwice.log =
    [] ++ .served [("TOKEN", [49])] (verifiedWith sharedToken [("TOKEN", [49])]) ::
    [.applied secondPair (verifiedWith sharedToken [("TOKEN", [49])])] ++ .served [] (verifiedWith sharedEmpty []) ::
    [.applied firstPair (verifiedWith sharedEmpty []), .applied firstPage { authority := some (cursorOf bound) }] := by
  decide +kernel

/-- The laptop gets a token, restarts, and serves what the newer manifest holds. -/
theorem no_environment_rollback_laptop :
    ∃ sys values older newer, run (Watched.step laptopHost true) {} served = some sys ∧
      Entry.served [] older ∈ sys.log ∧ Entry.served values newer ∈ sys.log ∧ values = [("TOKEN", [49])] ∧
      NotBefore older newer ∧ ∃ keys global machine, newer.global = some (manifestCursor global) ∧
        newer.machine = some (manifestCursor machine) ∧
        ({ laptopHost with keys := keys }).decrypt global machine = some values := by
  have hreach : Reach (Watched.step laptopHost true) Always {} servedTwice := reach_final served _
  obtain ⟨hvalues, horder, -⟩ := no_environment_rollback laptopHost true hreach
  have hnew : Entry.served [("TOKEN", [49])] (verifiedWith sharedToken [("TOKEN", [49])]) ∈ servedTwice.log := by
    rw [servedTwice_log]
    simp
  have hold : Entry.served [] (verifiedWith sharedEmpty []) ∈ servedTwice.log := by
    rw [servedTwice_log]
    simp
  exact ⟨servedTwice, _, _, _, run_final served _, hold, hnew, rfl, horder _ _ _ _ _ _ _ servedTwice_log,
    hvalues _ _ hnew⟩

end Demo

end Paperboat.EnvInject
