import Paperboat.EnvInject.Store
import Paperboat.EnvironmentE2EE.KeyEpochs
import Paperboat.Lib.Transition

/-! Crash atomicity of the environment store. Whatever fails or is cut off, the files hold
a cache that a later `Open` restores: the one before or the one after the operation that
was under way. -/

namespace Paperboat.EnvInject

open EnvironmentE2EE Crash Transition

variable {config : Config}

/-- The cache of an installation that has stored nothing. -/
def initialCache (config : Config) : Cache := { identity := config.identity }

/-- A record that was written for this installation. -/
structure RecordOk (config : Config) (record : HighWaterRecord) : Prop where
  valid : validHighWaterRecord record = true
  identity : record.active.identity = config.identity

/-- A cache that was written for this installation. -/
structure CacheOk (config : Config) (cache : Cache) : Prop where
  shape : validCacheShape cache = true
  identity : cache.identity = config.identity

/-- The files hold a cache, for a later `Open` to find. -/
inductive Recoverable (config : Config) : Disk → Cache → Prop
  | blank {genesis} (hgenesis : genesis ≠ .established) : Recoverable config ⟨none, .missing, genesis⟩ (initialCache config)
  | fresh {record genesis} (hrecord : RecordOk config record) (hempty : highWaterEmpty record.active = true)
      (hgenesis : genesis ≠ .fresh) : Recoverable config ⟨some record, .missing, genesis⟩ (initialCache config)
  | active {record cache} (hrecord : RecordOk config record) (hcache : CacheOk config cache)
      (hmatch : cacheMatchesHighWater cache record.active = true) :
      Recoverable config ⟨some record, .stored cache, .established⟩ cache
  | pending {record value cache} (hrecord : RecordOk config record) (hcache : CacheOk config cache)
      (hpending : record.pending = some value) (hmatch : cacheMatchesHighWater cache value = true) :
      Recoverable config ⟨some record, .stored cache, .established⟩ cache

/-- The files behind a store that runs: the mark has nothing pending and the cache file,
if it was ever written, holds the store's cache. -/
structure Clean (config : Config) (d : Disk) (s : Store) : Prop where
  highWater : d.highWater = some (finalHighWaterRecord s.highWater)
  genesis : d.genesis = .established
  record : RecordOk config (finalHighWaterRecord s.highWater)
  identity : s.cache.identity = config.identity
  cache : (d.cache = .missing ∧ highWaterEmpty s.highWater = true ∧ s.cache = initialCache config) ∨
    (d.cache = .stored s.cache ∧ cacheMatchesHighWater s.cache s.highWater = true ∧ CacheOk config s.cache)
  writeFailed : s.writeFailed = false

variable {d : Disk} {s : Store} {record : HighWaterRecord} {value : HighWater}
    {cache c next : Cache}

theorem Clean.recoverable (h : Clean config d s) : Recoverable config d s.cache := by
  obtain ⟨highWater, cache, genesis⟩ := d
  obtain ⟨rfl, rfl, hrec, -, hcache, -⟩ := h
  rcases hcache with ⟨rfl, hempty, hinit⟩ | ⟨rfl, hmatch, hok⟩
  · rw [hinit]
    exact .fresh hrec hempty (by decide)
  · exact .active hrec hok hmatch

/-! ### Open -/

/-- How an attempt to open ends: with a store that runs on the cache the files hold, or
with files that still hold it. -/
def OpenPost (config : Config) (c : Cache) : Outcome StoreError Store → Disk → Prop
  | .ok s, d => s.cache = c ∧ Clean config d s
  | .error _, d => Recoverable config d c
  | .crash, d => Recoverable config d c

theorem recordOk_clear (h : RecordOk config record) :
    RecordOk config (finalHighWaterRecord record.active) where
  valid := by
    have hv := h.valid
    simp only [validHighWaterRecord, Bool.and_eq_true] at hv
    simp [validHighWaterRecord, finalHighWaterRecord, hv.1, Option.all_none]
  identity := h.identity

theorem recordOk_promote (h : RecordOk config record)
    (hp : record.pending = some value) : RecordOk config (finalHighWaterRecord value) := by
  have hv := h.valid
  simp only [validHighWaterRecord, hp, Option.all_some, Bool.and_eq_true, beq_iff_eq] at hv
  refine ⟨?_, hv.2.1.2.trans h.identity⟩
  simp [validHighWaterRecord, finalHighWaterRecord, hv.2.1.1, Option.all_none]

/-- The rule for both writes: one that is checked and may fail late. -/
theorem wp_checkedWrite {post : Outcome StoreError Unit → Disk → Prop}
    (hbad : post (.error .invalidSnapshot) d) (hcrash : post .crash d)
    (herror : post (.error .observationLost) d)
    (hafter : valid = true → post .crash (change d) ∧ post (.error .observationLost) (change d) ∧ post (.ok ()) (change d)) :
    (if valid then .write .observationLost change else .fail .invalidSnapshot : StoreProg Unit).wp post d := by
  split
  · next hv =>
    obtain ⟨h1, h2, h3⟩ := hafter hv
    exact ⟨⟨hcrash, h1⟩, ⟨herror, h2⟩, h3⟩
  · exact hbad

/-- Creating the first record, or finishing its creation, leaves an empty active mark. -/
theorem wp_openRecord (hallow : config.allowHighWaterInitialize = true)
    (h : Recoverable config d (initialCache config)) (hmiss : d.cache = .missing) :
    (openRecord config).wp (fun o d' => match o with
      | .ok record => d' = ⟨some record, .missing, .established⟩ ∧ RecordOk config record ∧
          highWaterEmpty record.active = true
      | .error _ => Recoverable config d' (initialCache config)
      | .crash => Recoverable config d' (initialCache config)) d := by
  have hinit : RecordOk config (initialHighWaterRecord config.identity) := ⟨rfl, rfl⟩
  have hempty : highWaterEmpty (initialHighWaterRecord config.identity).active = true := rfl
  have hfresh : Recoverable config ⟨none, .missing, .fresh⟩ (initialCache config) := .blank (by decide)
  have hpend : Recoverable config ⟨none, .missing, .pending⟩ (initialCache config) := .blank (by decide)
  have hrecd : ∀ {record}, RecordOk config record → highWaterEmpty record.active = true →
      Recoverable config ⟨some record, .missing, .pending⟩ (initialCache config) ∧
        Recoverable config ⟨some record, .missing, .established⟩ (initialCache config) :=
    fun hr he => ⟨.fresh hr he (by decide), .fresh hr he (by decide)⟩
  cases h with
  | blank hgenesis =>
    cases hg : ‹GenesisState› with
    | established => exact absurd hg hgenesis
    | fresh =>
      simp [openRecord, Prog.get, Prog.bind, Prog.wp, hallow, prepareGenesis, writeHighWater, commitGenesis,
        Prog.write, hinit.valid, hinit, hempty, hfresh, hpend, hrecd hinit hempty]
    | pending =>
      simp [openRecord, Prog.get, Prog.bind, Prog.wp, hallow, prepareGenesis, writeHighWater, commitGenesis,
        Prog.write, hinit.valid, hinit, hempty, hpend, hrecd hinit hempty]
  | fresh hrec he hgenesis =>
    cases hg : ‹GenesisState› with
    | fresh => exact absurd hg hgenesis
    | pending =>
      simp [openRecord, Prog.get, Prog.bind, Prog.wp, commitGenesis, Prog.write, hrec, he, hrecd hrec he]
    | established => simp [openRecord, Prog.get, Prog.bind, Prog.wp, hrec, he]
  | active hrec hcache hmatch => cases hmiss
  | pending hrec hcache hpend hmatch => cases hmiss

/-- Dropping the pending mark leaves the rest of the files as it is. -/
theorem wp_clearPending (hrec : RecordOk config record)
    (hd : d.highWater = some record)
    (hbef : Recoverable config d c)
    (hafter : Recoverable config { d with highWater := some (finalHighWaterRecord record.active) } c) :
    (clearPending record).wp (fun o d' => match o with
      | .ok () => d' = { d with highWater := some (finalHighWaterRecord record.active) }
      | .error _ => Recoverable config d' c
      | .crash => Recoverable config d' c) d := by
  rw [clearPending]
  split
  · exact wp_checkedWrite hbef hbef hbef fun _ => ⟨hafter, hafter, rfl⟩
  · next hp =>
    obtain ⟨highWater, cache, genesis⟩ := d
    obtain ⟨active, pending⟩ := record
    cases hd
    cases pending with
    | none => rfl
    | some p => exact absurd rfl hp

/-- Opening without a cache file. -/
theorem wp_openStore_missing (hallow : config.allowHighWaterInitialize = true) (restore : Cache → Option Verified)
    (h : Recoverable config d (initialCache config)) (hmiss : d.cache = .missing) :
    (openStore config restore).wp (OpenPost config (initialCache config)) d := by
  simp only [openStore, Prog.get, Prog.bind_eq, Prog.bind, Prog.wp, hmiss]
  refine Prog.wp_seq (wp_openRecord hallow h hmiss) ?_ (fun _ _ ht => ht) (fun _ ht => ht)
  rintro record d' ⟨rfl, hrec, hempty⟩
  refine Prog.wp_seq (wp_clearPending hrec rfl (.fresh hrec hempty (by decide))
    (.fresh (recordOk_clear hrec) hempty (by simp))) ?_ (fun _ _ ht => ht) (fun _ ht => ht)
  rintro ⟨⟩ d' rfl
  exact ⟨rfl, rfl, rfl, recordOk_clear hrec, rfl, Or.inl ⟨rfl, hempty, rfl⟩, rfl⟩

/-- The mark that a stored cache belongs to becomes the active one. -/
theorem wp_reconcile (hrec : RecordOk config record)
    (hcache : CacheOk config c) (h : cacheMatchesHighWater c record.active = true ∨
      ∃ value, record.pending = some value ∧ cacheMatchesHighWater c value = true) :
    (reconcile record c).wp (fun o d' => match o with
      | .ok value => d' = ⟨some (finalHighWaterRecord value), .stored c, .established⟩ ∧
          RecordOk config (finalHighWaterRecord value) ∧ cacheMatchesHighWater c value = true
      | .error _ => Recoverable config d' c
      | .crash => Recoverable config d' c) ⟨some record, .stored c, .established⟩ := by
  rw [reconcile]
  split
  · next hmatch =>
    refine Prog.wp_seq (wp_clearPending hrec rfl (.active hrec hcache hmatch)
      (.active (recordOk_clear hrec) hcache hmatch)) ?_ (fun _ _ ht => ht) (fun _ ht => ht)
    rintro ⟨⟩ d' rfl
    exact ⟨rfl, recordOk_clear hrec, hmatch⟩
  · next hnot =>
    obtain ⟨value, hp, hmatch⟩ := h.resolve_left hnot
    have hid : value.identity = c.identity := (recordOk_promote hrec hp).identity.trans hcache.identity.symm
    have hbef : Recoverable config ⟨some record, .stored c, .established⟩ c := .pending hrec hcache hp hmatch
    have hafter : Recoverable config ⟨some (finalHighWaterRecord value), .stored c, .established⟩ c :=
      .active (recordOk_promote hrec hp) hcache hmatch
    simp only [hp, hid, hmatch, and_self, if_true]
    have hwrite : (writeHighWater (finalHighWaterRecord value)).wp (fun o d' => match o with
        | .ok () => d' = ⟨some (finalHighWaterRecord value), .stored c, .established⟩
        | .error _ => Recoverable config d' c
        | .crash => Recoverable config d' c) ⟨some record, .stored c, .established⟩ :=
      wp_checkedWrite hbef hbef hbef fun _ => ⟨hafter, hafter, rfl⟩
    refine Prog.wp_seq hwrite ?_ (fun _ _ ht => ht) (fun _ ht => ht)
    rintro ⟨⟩ d' rfl
    exact ⟨rfl, recordOk_promote hrec hp, hmatch⟩

theorem clean_restored (hcache : CacheOk config c)
    (hrec : RecordOk config (finalHighWaterRecord value))
    (hmatch : cacheMatchesHighWater c value = true) :
    (restored c value verified).cache = c ∧
      Clean config ⟨some (finalHighWaterRecord value), .stored c, .established⟩ (restored c value verified) := by
  have hfields : (restored c value verified).cache = c ∧ (restored c value verified).highWater = value ∧
      (restored c value verified).writeFailed = false := by
    unfold restored
    split
    · exact ⟨rfl, rfl, rfl⟩
    · split <;> exact ⟨rfl, rfl, rfl⟩
  obtain ⟨h1, h2, h3⟩ := hfields
  refine ⟨h1, ?_, rfl, ?_, ?_, Or.inr ?_, h3⟩
  · rw [h2]
  · rw [h2]
    exact hrec
  · rw [h1]
    exact hcache.identity
  · rw [h1, h2]
    exact ⟨rfl, hmatch, hcache⟩

/-- Opening with a cache file. -/
theorem wp_openStore_stored (restore : Cache → Option Verified)
    (hrec : RecordOk config record) (hcache : CacheOk config c)
    (h : cacheMatchesHighWater c record.active = true ∨
      ∃ value, record.pending = some value ∧ cacheMatchesHighWater c value = true) :
    (openStore config restore).wp (OpenPost config c) ⟨some record, .stored c, .established⟩ := by
  simp only [openStore, Prog.get, Prog.bind_eq, Prog.bind, Prog.wp, hcache.shape, hcache.identity, hrec.identity,
    and_self, if_true]
  refine Prog.wp_seq (wp_reconcile hrec hcache h) ?_ (fun _ _ ht => ht) (fun _ ht => ht)
  rintro value d' ⟨rfl, hvalue, hmatch⟩
  have hstill : Recoverable config ⟨some (finalHighWaterRecord value), .stored c, .established⟩ c :=
    .active hvalue hcache hmatch
  split
  · exact hstill
  · split
    · exact clean_restored hcache hvalue hmatch
    · exact hstill

/-- Opening from files that hold a cache. -/
theorem wp_openStore (hallow : config.allowHighWaterInitialize = true) (restore : Cache → Option Verified)
    (h : Recoverable config d c) :
    (openStore config restore).wp (OpenPost config c) d := by
  cases h with
  | blank hgenesis => exact wp_openStore_missing hallow restore (.blank hgenesis) rfl
  | fresh hrec hempty hgenesis => exact wp_openStore_missing hallow restore (.fresh hrec hempty hgenesis) rfl
  | active hrec hcache hmatch => exact wp_openStore_stored restore hrec hcache (Or.inl hmatch)
  | pending hrec hcache hpend hmatch =>
    exact wp_openStore_stored restore hrec hcache (Or.inr ⟨_, hpend, hmatch⟩)

theorem clearPending_returns (h : RecordOk config record) {post : Unit → Disk → Prop} (hpost : ∀ d', post () d') :
    (clearPending record).returns post d := by
  have hvalid : validHighWaterRecord { record with pending := none } = true := (recordOk_clear h).valid
  rw [clearPending]
  split
  · rw [writeHighWater, if_pos hvalid]
    exact hpost _
  · exact hpost _

theorem openRecord_returns (hallow : config.allowHighWaterInitialize = true)
    (h : Recoverable config d (initialCache config)) (hmiss : d.cache = .missing) :
    (openRecord config).returns (fun record _ => RecordOk config record) d := by
  have hinit : RecordOk config (initialHighWaterRecord config.identity) := ⟨rfl, rfl⟩
  cases h with
  | @blank genesis hgenesis =>
    cases genesis with
    | established => exact absurd rfl hgenesis
    | fresh =>
      simp [openRecord, prepareGenesis, commitGenesis, writeHighWater, Prog.get, Prog.write, Prog.bind, Prog.returns,
        hallow, hinit, hinit.valid]
    | pending =>
      simp [openRecord, prepareGenesis, commitGenesis, writeHighWater, Prog.get, Prog.write, Prog.bind, Prog.returns,
        hallow, hinit, hinit.valid]
  | @fresh record genesis hrec hempty hgenesis =>
    cases genesis with
    | fresh => exact absurd rfl hgenesis
    | pending => simp [openRecord, commitGenesis, Prog.get, Prog.write, Prog.bind, Prog.returns, hrec, hempty]
    | established => simp [openRecord, Prog.get, Prog.bind, Prog.returns, hrec, hempty]
  | active => contradiction
  | pending => contradiction

theorem reconcile_returns (hrec : RecordOk config record)
    (hcache : CacheOk config c) (h : cacheMatchesHighWater c record.active = true ∨
      ∃ value, record.pending = some value ∧ cacheMatchesHighWater c value = true) {post : HighWater → Disk → Prop}
    (hpost : ∀ value d', post value d') : (reconcile record c).returns post d := by
  rw [reconcile]
  split
  · rw [Prog.bind_eq, Prog.returns_bind]
    exact clearPending_returns hrec fun _ => hpost _ _
  · next hnot =>
    obtain ⟨value, hp, hmatch⟩ := h.resolve_left hnot
    have hvalue := recordOk_promote hrec hp
    have hid : value.identity = c.identity := hvalue.identity.trans hcache.identity.symm
    simp only [hp, hid, hmatch, and_self, if_true, Prog.bind_eq, Prog.returns_bind]
    rw [writeHighWater, if_pos hvalue.valid]
    exact hpost _ _

/-- Without a fault, opening returns a store. -/
theorem openStore_returns (hallow : config.allowHighWaterInitialize = true) {restore : Cache → Option Verified}
    (h : Recoverable config d c)
    (hres : ∀ cache, d.cache = .stored cache → (restore cache).any (validVerified cache) = true) :
    (openStore config restore).returns (fun _ _ => True) d := by
  have hmiss : ∀ {d : Disk}, Recoverable config d (initialCache config) → d.cache = .missing →
      (openStore config restore).returns (fun _ _ => True) d := by
    intro d h hd
    simp only [openStore, Prog.get, Prog.bind_eq, Prog.bind, Prog.returns, hd, Prog.returns_bind]
    exact Prog.returns_mono (openRecord_returns hallow h hd) fun record _ hrec =>
      clearPending_returns hrec fun _ => trivial
  have hstored : ∀ {record : HighWaterRecord}, d = ⟨some record, .stored c, .established⟩ → RecordOk config record →
      CacheOk config c → (cacheMatchesHighWater c record.active = true ∨
        ∃ value, record.pending = some value ∧ cacheMatchesHighWater c value = true) →
      (openStore config restore).returns (fun _ _ => True) d := by
    rintro record rfl hrec hcache hmatch
    obtain ⟨verified, hver, hvalid⟩ := Option.any_eq_true _ _ |>.mp (hres c rfl)
    simp only [openStore, Prog.get, Prog.bind_eq, Prog.bind, Prog.returns, hcache.shape, hcache.identity,
      hrec.identity, and_self, if_true, Prog.returns_bind, hver, hvalid]
    exact reconcile_returns hrec hcache hmatch fun _ _ => trivial
  cases h with
  | blank hgenesis => exact hmiss (.blank hgenesis) rfl
  | fresh hrec hempty hgenesis => exact hmiss (.fresh hrec hempty hgenesis) rfl
  | active hrec hcache hmatch => exact hstored rfl hrec hcache (Or.inl hmatch)
  | pending hrec hcache hpend hmatch => exact hstored rfl hrec hcache (Or.inr ⟨_, hpend, hmatch⟩)

/-! ### Updates -/

/-- How the replacement of the cache ends. -/
def PersistPost (config : Config) (s : Store) (next : Cache) : Outcome StoreError Unit → Disk → Prop
  | .ok (), d => d = ⟨some (finalHighWaterRecord (advanceHighWater s.highWater next)), .stored next, .established⟩ ∧
      RecordOk config (finalHighWaterRecord (advanceHighWater s.highWater next)) ∧ CacheOk config next ∧
      cacheMatchesHighWater next (advanceHighWater s.highWater next) = true
  | .error _, d => Recoverable config d s.cache ∨ Recoverable config d next
  | .crash, d => Recoverable config d s.cache ∨ Recoverable config d next

/-- What a cache needs to have to replace the cache of a store. -/
structure Replaces (config : Config) (s : Store) (next : Cache) : Prop where
  identity : next.identity = config.identity
  notBehind : cacheBehindHighWater next s.highWater = false
  dropped : next.revoked = true → next.globalManifest = none ∧ next.machineManifest = none

theorem Clean.intent (h : Clean config d s)
    (hvalid : validHighWaterRecord (transitionHighWaterRecord s.highWater (advanceHighWater s.highWater next)) = true) :
    Recoverable config { d with highWater := some (transitionHighWaterRecord s.highWater
      (advanceHighWater s.highWater next)) } s.cache := by
  have hrec : RecordOk config (transitionHighWaterRecord s.highWater (advanceHighWater s.highWater next)) :=
    ⟨hvalid, h.record.identity⟩
  obtain ⟨highWater, cache, genesis⟩ := d
  obtain ⟨rfl, rfl, -, -, hcache, -⟩ := h
  rcases hcache with ⟨rfl, hempty, hinit⟩ | ⟨rfl, hmatch, hok⟩
  · rw [hinit]
    exact .fresh hrec hempty (by simp)
  · exact .active hrec hok hmatch

/-- The files hold the cache before or the cache after, at every cut. -/
theorem wp_persist (h : Clean config d s) (hnext : Replaces config s next) :
    (persist s.highWater next).wp (PersistPost config s next) d := by
  have hbef := h.recoverable
  have hmatch := cacheMatches_advance hnext.notBehind hnext.dropped
  rw [persist, Prog.bind_eq, Prog.wp_bind]
  refine wp_checkedWrite (Or.inl hbef) (Or.inl hbef) (Or.inl hbef) fun hintent => ?_
  have hmarked := h.intent hintent
  refine ⟨Or.inl hmarked, Or.inl hmarked, ?_⟩
  have hrec : RecordOk config (transitionHighWaterRecord s.highWater (advanceHighWater s.highWater next)) :=
    ⟨hintent, h.record.identity⟩
  rw [Prog.andThen, Prog.bind_eq, Prog.wp_bind]
  refine wp_checkedWrite (Or.inl hmarked) (Or.inl hmarked) (Or.inl hmarked) fun hshape => ?_
  have hcache : CacheOk config next := ⟨hshape, hnext.identity⟩
  rw [h.genesis]
  have hpend : Recoverable config ⟨some (transitionHighWaterRecord s.highWater (advanceHighWater s.highWater next)),
      .stored next, .established⟩ next := .pending hrec hcache rfl hmatch
  refine ⟨Or.inr hpend, Or.inr hpend, ?_⟩
  have hfinal := recordOk_promote hrec rfl
  refine wp_checkedWrite (Or.inr hpend) (Or.inr hpend) (Or.inr hpend) fun _ => ?_
  exact ⟨Or.inr (.active hfinal hcache hmatch), Or.inr (.active hfinal hcache hmatch), rfl, hfinal, hcache, hmatch⟩

theorem cursorBehind_self (cursor : Option Cursor) : cursorBehind cursor cursor = false := by
  cases cursor <;> simp [cursorBehind]

/-- A cache that belongs to a mark is not behind it, nor with a larger counter. -/
theorem notBehind_of_matches (h : cacheMatchesHighWater cache value = true)
    (hseq : cache.observationSeq ≤ seq) :
    cacheBehindHighWater { cache with observationSeq := seq } value = false := by
  simp only [cacheMatchesHighWater, Bool.and_eq_true, beq_iff_eq] at h
  obtain ⟨⟨⟨hs, ha⟩, hm⟩, -⟩ := h
  simp only [cacheBehindHighWater, Bool.or_eq_false_iff, decide_eq_false_iff_not, not_lt]
  refine ⟨⟨hs ▸ hseq, ha ▸ cursorBehind_self _⟩, ?_⟩
  cases hr : cache.revoked with
  | true => rfl
  | false =>
    simp only [hr, Bool.false_eq_true, if_false, Bool.not_eq_true', Bool.or_eq_false_iff] at hm
    simp only [Bool.not_false, Bool.true_and, Bool.or_eq_false_iff]
    exact ⟨hm.1.1.1, hm.1.1.2⟩

theorem dropped_of_matches (h : cacheMatchesHighWater cache value = true)
    (hr : cache.revoked = true) : cache.globalManifest = none ∧ cache.machineManifest = none := by
  simp only [cacheMatchesHighWater, hr, if_true, Bool.and_eq_true, Option.isNone_iff_eq_none] at h
  exact h.1.2

/-- The observation counter alone moves. -/
theorem Clean.replaces_nextCache (h : Clean config d s) : Replaces config s s.nextCache := by
  refine ⟨h.identity, ?_, ?_⟩
  · rcases h.cache with ⟨-, hempty, hinit⟩ | ⟨-, hmatch, -⟩
    · simp only [highWaterEmpty, Bool.and_eq_true, Option.isNone_iff_eq_none, beq_iff_eq] at hempty
      obtain ⟨⟨⟨⟨-, hseq⟩, hauth⟩, hglob⟩, hmach⟩ := hempty
      simp [cacheBehindHighWater, Store.nextCache, hseq, hauth, hglob, hmach, cursorBehind, manifestBehind]
    · exact notBehind_of_matches hmatch (Nat.le_succ _)
  · intro hr
    rcases h.cache with ⟨-, -, hinit⟩ | ⟨-, hmatch, -⟩
    · exact ⟨congrArg Cache.globalManifest hinit, congrArg Cache.machineManifest hinit⟩
    · have hdrop : s.cache.globalManifest = none ∧ s.cache.machineManifest = none := dropped_of_matches hmatch hr
      exact hdrop

/-- How an operation of a running store ends: with the cache it was to write, with the
cache it had, or cut off between them. -/
def UpdatePost {β : Type} (config : Config) (s : Store) (next : Cache) (report : Store → β → Prop) :
    Outcome StoreError (Store × Except StoreError β) → Disk → Prop
  | .ok (s', .ok b), d => s'.cache = next ∧ Clean config d s' ∧ report s' b
  | .ok (s', .error _), d => s'.writeFailed = true ∧ (Recoverable config d s.cache ∨ Recoverable config d next)
  | .error _, _ => False
  | .crash, d => Recoverable config d s.cache ∨ Recoverable config d next

theorem wp_update {β : Type} (h : Clean config d s)
    (hnext : Replaces config s next) {k : Except StoreError Unit → StoreProg (Store × Except StoreError β)}
    {done failed : Store} {value : β} {err : StoreError} (hok : k (.ok ()) = pure (done, .ok value))
    (herror : ∀ e, k (.error e) = pure (failed, .error err)) (hfail : failed.writeFailed = true)
    (hdone : done.cache = next ∧ done.highWater = advanceHighWater s.highWater next ∧ done.writeFailed = false)
    {report : Store → β → Prop} (hreport : report done value) :
    ((persist s.highWater next).attempt.bind k).wp (UpdatePost config s next report) d := by
  rw [Prog.wp_bind, Prog.wp_attempt]
  refine Prog.wp_mono (wp_persist h hnext) fun o t ht => ?_
  cases o with
  | ok u =>
    obtain ⟨rfl, hrec, hcache, hmatch⟩ := ht
    obtain ⟨hc, hhigh, hflag⟩ := hdone
    simp only [Prog.caught, Prog.andThen, hok, Prog.pure_eq, Prog.wp]
    refine ⟨hc, ⟨?_, rfl, ?_, ?_, Or.inr ?_, hflag⟩, hreport⟩
    · rw [hhigh]
    · rw [hhigh]
      exact hrec
    · rw [hc]
      exact hnext.identity
    · rw [hc, hhigh]
      exact ⟨rfl, hmatch, hcache⟩
  | error e =>
    simp only [Prog.caught, Prog.andThen, herror, Prog.pure_eq, Prog.wp]
    exact ⟨hfail, ht⟩
  | crash => exact ht

theorem Store.applied_fields (s : Store) (bundle : Bundle) (next : Cache) (verified : Verified) :
    (s.applied bundle next verified).cache = next ∧
      (s.applied bundle next verified).highWater = advanceHighWater s.highWater next ∧
      (s.applied bundle next verified).writeFailed = s.writeFailed ∧
      (s.applied bundle next verified).verified = verified := by
  unfold applied
  split
  · exact ⟨rfl, rfl, rfl, rfl⟩
  · split <;> exact ⟨rfl, rfl, rfl, rfl⟩

/-- The cache that `NextObservation` writes, if it gets that far. -/
def Store.observeTarget (s : Store) : Option Cache :=
  if s.writeFailed = true ∨ s.cache.observationSeq ≥ maxInt64 then none else some s.nextCache

/-- The cache that `Apply` writes, if it gets that far. -/
def Store.applyTarget (s : Store) (result : Option (Cache × Verified)) : Option Cache :=
  if s.writeFailed then none else (result.filter fun r => s.accepts r.1 r.2).map Prod.fst

theorem wp_nextObservation (h : Clean config d s)
    (hnext : s.observeTarget = some next) :
    s.nextObservation.wp (UpdatePost config s next fun s' value => value = s'.observation) d ∧
      next.observationSeq = s.cache.observationSeq + 1 := by
  rw [Store.observeTarget] at hnext
  split at hnext
  · contradiction
  · next hcond =>
    cases hnext
    refine ⟨?_, rfl⟩
    rw [Store.nextObservation, if_neg hcond]
    refine wp_update h h.replaces_nextCache rfl (fun _ => rfl) rfl ?_ ?_
    · exact ⟨rfl, rfl, h.writeFailed⟩
    · rfl

theorem wp_apply (h : Clean config d s) (hnext : s.applyTarget result = some next)
    (hdrop : next.revoked = true → next.globalManifest = none ∧ next.machineManifest = none) :
    (s.apply bundle result).wp (UpdatePost config s next fun _ _ => True) d ∧
      next.observationSeq = s.cache.observationSeq := by
  rw [Store.applyTarget] at hnext
  split at hnext
  · contradiction
  · next hflag =>
    obtain ⟨⟨c, verified⟩, hfilter, rfl⟩ := Option.map_eq_some_iff.mp hnext
    have hacc := (Option.filter_eq_some_iff.mp hfilter).2
    simp only [Store.accepts, Bool.and_eq_true, beq_iff_eq, Bool.not_eq_true'] at hacc
    obtain ⟨⟨⟨hid, hseq⟩, hbehind⟩, -⟩ := hacc
    refine ⟨?_, hseq⟩
    rw [Store.apply, if_neg hflag]
    simp only [hfilter]
    have hfields := s.applied_fields bundle c verified
    exact wp_update h ⟨hid.trans h.identity, hbehind, hdrop⟩ rfl (fun _ => rfl) rfl
      ⟨hfields.1, hfields.2.1, hfields.2.2.1.trans h.writeFailed⟩ trivial

/-! ### Histories -/

/-- The files, the process that runs if one does, and what the history recorded: the
cache before the last operation, the cache an interrupted one was about to leave, and
the observation numbers given out, newest first. -/
structure System where
  disk : Disk := ⟨none, .missing, .fresh⟩
  process : Option Store := none
  before : Cache
  after : Option Cache := none
  issued : List Nat := []

inductive Event where
  | start (restore : Cache → Option Verified) (faults : List Fault)
  | observe (faults : List Fault)
  | apply (bundle : Bundle) (result : Option (Cache × Verified)) (faults : List Fault)
  | stop

namespace System

def init (config : Config) : System where
  before := initialCache config

/-- An operation that was to write `target` has ended. -/
def finish {β : Type} (sys : System) (target : Option Cache) (number : β → List Nat) :
    Outcome StoreError (Store × Except StoreError β) × Disk → System
  | (.ok (s, .ok b), d) =>
    { disk := d, process := some s, before := s.cache, after := none, issued := number b ++ sys.issued }
  | (.ok (s, .error _), d) => { sys with disk := d, process := some s, after := target.or sys.after }
  | (.error _, d) => { sys with disk := d, process := none, after := target.or sys.after }
  | (.crash, d) => { sys with disk := d, process := none, after := target.or sys.after }

def opened (sys : System) : Outcome StoreError Store × Disk → System
  | (.ok s, d) => { sys with disk := d, process := some s, before := s.cache, after := none }
  | (.error _, d) => { sys with disk := d, process := none }
  | (.crash, d) => { sys with disk := d, process := none }

def step (config : Config) (sys : System) : Event → Option System
  | .start restore faults => some (sys.opened ((openStore config restore).exec sys.disk faults))
  | .observe faults => do
    let s ← sys.process
    pure (sys.finish s.observeTarget (fun o : Observation => [o.observationSeq]) (s.nextObservation.exec sys.disk faults))
  | .apply bundle result faults => do
    let s ← sys.process
    pure (sys.finish (s.applyTarget result) (fun _ => []) ((s.apply bundle result).exec sys.disk faults))
  | .stop => some { sys with process := none }

/-- The processor drops the manifests of an environment that it reports as revoked. -/
def DropsRevoked (_ : System) : Event → Prop
  | .apply _ (some r) _ => r.1.revoked = true → r.1.globalManifest = none ∧ r.1.machineManifest = none
  | _ => True

/-- What every state of a history has. -/
structure Sound (config : Config) (sys : System) : Prop where
  files : Recoverable config sys.disk sys.before ∨ ∃ c, sys.after = some c ∧ Recoverable config sys.disk c
  running : ∀ s, sys.process = some s → s.writeFailed = false → Clean config sys.disk s ∧ s.cache = sys.before
  counter : ∀ c, sys.after = some c → sys.before.observationSeq ≤ c.observationSeq
  bound : ∀ n ∈ sys.issued, n ≤ sys.before.observationSeq
  order : sys.issued.Pairwise (· > ·)

theorem init_sound : Sound config (init config) :=
  ⟨Or.inl (.blank (by simp)), by simp [init], by simp [init], by simp [init], by simp [init]⟩

variable {sys : System} {s : Store}

theorem Sound.opened (h : Sound config sys) (hallow : config.allowHighWaterInitialize = true)
    (restore : Cache → Option Verified) (faults : List Fault) :
    Sound config (sys.opened ((openStore config restore).exec sys.disk faults)) := by
  -- the cache that the files hold
  obtain ⟨c, hc, hor⟩ : ∃ c, Recoverable config sys.disk c ∧ (c = sys.before ∨ sys.after = some c) := by
    rcases h.files with hf | ⟨c, hafter, hf⟩
    · exact ⟨_, hf, Or.inl rfl⟩
    · exact ⟨c, hf, Or.inr hafter⟩
  have hle : sys.before.observationSeq ≤ c.observationSeq := by
    rcases hor with rfl | hafter
    · exact le_rfl
    · exact h.counter c hafter
  have hfiles : ∀ d, Recoverable config d c → Recoverable config d sys.before ∨
      ∃ c, sys.after = some c ∧ Recoverable config d c := fun d hd => by
    rcases hor with rfl | hafter
    · exact Or.inl hd
    · exact Or.inr ⟨c, hafter, hd⟩
  have hpost := Prog.exec_of_wp (wp_openStore hallow restore hc) faults
  rcases hexec : (openStore config restore).exec sys.disk faults with ⟨o, d⟩
  rw [hexec] at hpost
  cases o with
  | ok s =>
    obtain ⟨rfl, hclean⟩ := hpost
    refine ⟨Or.inl hclean.recoverable, ?_, by simp [System.opened], fun n hn => (h.bound n hn).trans hle, h.order⟩
    rintro s' hs' -
    cases hs'
    exact ⟨hclean, rfl⟩
  | error e => exact ⟨hfiles d hpost, by simp [System.opened], h.counter, h.bound, h.order⟩
  | crash => exact ⟨hfiles d hpost, by simp [System.opened], h.counter, h.bound, h.order⟩

variable {β : Type} {s' : Store} {number : β → List Nat}

theorem Sound.finish {next : Cache} {report : Store → β → Prop} (h : Sound config sys)
    (hs : s.cache = sys.before) (hpost : UpdatePost config s next report o d)
    (hle : sys.before.observationSeq ≤ next.observationSeq)
    (hnumber : ∀ s' b, report s' b → s'.cache = next → (∀ n ∈ number b, n ≤ next.observationSeq) ∧
      (number b).Pairwise (· > ·) ∧ ∀ n ∈ number b, sys.before.observationSeq < n) :
    Sound config (sys.finish (some next) number (o, d)) := by
  have hfiles : (Recoverable config d s.cache ∨ Recoverable config d next) → Recoverable config d sys.before ∨
      ∃ c, some next = some c ∧ Recoverable config d c := by
    rintro (hd | hd)
    · exact Or.inl (hs ▸ hd)
    · exact Or.inr ⟨next, rfl, hd⟩
  have hcounter : ∀ c, some next = some c → sys.before.observationSeq ≤ c.observationSeq := by
    rintro c ⟨⟩
    exact hle
  match o, hpost with
  | .ok (s', .ok b), ⟨hcache, hclean, hreport⟩ =>
    obtain ⟨hmost, hpair, hnew⟩ := hnumber s' b hreport hcache
    refine ⟨Or.inl hclean.recoverable, ?_, by simp [System.finish], ?_, ?_⟩
    · rintro t ht -
      cases ht
      exact ⟨hclean, rfl⟩
    · intro n hn
      simp only [System.finish, hcache]
      rcases List.mem_append.mp hn with hn | hn
      · exact hmost n hn
      · exact (h.bound n hn).trans hle
    · refine List.pairwise_append.mpr ⟨hpair, h.order, fun n hn m hm => ?_⟩
      exact (h.bound m hm).trans_lt (hnew n hn)
  | .ok (s', .error e), ⟨hflag, hd⟩ =>
    refine ⟨hfiles hd, ?_, hcounter, h.bound, h.order⟩
    rintro t ht hfalse
    cases ht
    rw [hflag] at hfalse
    contradiction
  | .crash, hd => exact ⟨hfiles hd, by simp [System.finish], hcounter, h.bound, h.order⟩

theorem nextObservation_of_target_none (h : s.observeTarget = none) :
    s.nextObservation = pure (s, .error .observationLost) := by
  rw [Store.observeTarget] at h
  split at h
  · next hcond => rw [Store.nextObservation, if_pos hcond]
  · contradiction

/-- A bundle that is refused leaves a store that differs in what it reports only. -/
theorem apply_of_target_none (h : s.applyTarget result = none) :
    ∃ s' e, s.apply bundle result = pure (s', .error e) ∧
      s'.cache = s.cache ∧ s'.highWater = s.highWater ∧ s'.writeFailed = s.writeFailed ∧ s'.verified = s.verified := by
  rw [Store.applyTarget] at h
  split at h
  · next hflag => exact ⟨s, _, by rw [Store.apply, if_pos hflag], rfl, rfl, rfl, rfl⟩
  · next hflag =>
    have hnone := Option.map_eq_none_iff.mp h
    refine ⟨{ s with state := .failed, errorCode := some .integrityFailed }, .invalidSnapshot, ?_, rfl, rfl, rfl, rfl⟩
    rw [Store.apply, if_neg hflag]
    simp [hnone]

theorem Clean.of_fields (h : Clean config d s) (hc : s'.cache = s.cache)
    (hh : s'.highWater = s.highWater) (hf : s'.writeFailed = s.writeFailed) : Clean config d s' := by
  obtain ⟨h1, h2, h3, h4, h5, h6⟩ := h
  rw [← hc, ← hh] at h5
  exact ⟨hh ▸ h1, h2, hh ▸ h3, hc ▸ h4, h5, hf.trans h6⟩

/-- An operation that writes nothing. -/
theorem Sound.idle (h : Sound config sys) (hs : sys.process = some s) (hc : s'.cache = s.cache)
    (hh : s'.highWater = s.highWater) (hf : s'.writeFailed = s.writeFailed) :
    Sound config (sys.finish none number (.ok (s', .error e), sys.disk)) := by
  refine { h with running := ?_ }
  rintro t ht hfalse
  cases ht
  obtain ⟨hclean, hbef⟩ := h.running s hs (hf ▸ hfalse)
  exact ⟨Clean.of_fields hclean hc hh hf, hc.trans hbef⟩

/-- Every step keeps the files recoverable. -/
theorem Sound.step (h : Sound config sys) (hallow : config.allowHighWaterInitialize = true)
    (hdrops : DropsRevoked sys event) (hstep : System.step config sys event = some sys') :
    Sound config sys' := by
  cases event with
  | start restore faults =>
    cases hstep
    exact h.opened hallow restore faults
  | stop =>
    cases hstep
    exact { h with running := by simp }
  | observe faults =>
    obtain ⟨s, hs, hsys⟩ := Option.bind_eq_some_iff.mp hstep
    cases hsys
    cases htgt : s.observeTarget with
    | none =>
      rw [nextObservation_of_target_none htgt]
      exact h.idle hs rfl rfl rfl
    | some next =>
      have hflag : s.writeFailed = false := by
        rw [Store.observeTarget] at htgt
        split at htgt
        · contradiction
        · next hcond => simpa using fun hw => hcond (Or.inl hw)
      obtain ⟨hclean, hbef⟩ := h.running s hs hflag
      obtain ⟨hwp, hseq⟩ := wp_nextObservation hclean htgt
      have hpost := Prog.exec_of_wp hwp faults
      refine h.finish hbef hpost (by rw [hseq, hbef]; omega) ?_
      rintro s' b rfl hcache
      simp [Store.observation, hcache, hseq, hbef]
  | apply bundle result faults =>
    obtain ⟨s, hs, hsys⟩ := Option.bind_eq_some_iff.mp hstep
    cases hsys
    cases htgt : s.applyTarget result with
    | none =>
      obtain ⟨s', e, heq, hc, hh, hf, -⟩ := apply_of_target_none htgt
      rw [heq]
      exact h.idle hs hc hh hf
    | some next =>
      have hfacts : s.writeFailed = false ∧
          (next.revoked = true → next.globalManifest = none ∧ next.machineManifest = none) := by
        rw [Store.applyTarget] at htgt
        split at htgt
        · contradiction
        · next hflag =>
          obtain ⟨r, hfilter, rfl⟩ := Option.map_eq_some_iff.mp htgt
          cases (Option.filter_eq_some_iff.mp hfilter).1
          exact ⟨by simpa using hflag, hdrops⟩
      obtain ⟨hclean, hbef⟩ := h.running s hs hfacts.1
      obtain ⟨hwp, hseq⟩ := wp_apply hclean htgt hfacts.2
      have hpost := Prog.exec_of_wp hwp faults
      exact h.finish hbef hpost (by rw [hseq, hbef]) (by simp)

/-- In every history in which the processor drops the manifests of a revoked environment:
a later `Open` that meets no fault succeeds, provided that the processor restores the cache
it finds, and its cache is the one before or the one after the interrupted operation. The
observation numbers ever given out increase. -/
theorem open_restores_before_or_after (hallow : config.allowHighWaterInitialize = true) {sys : System}
    (h : Reach (System.step config) DropsRevoked (System.init config) sys) :
    (∀ restore : Cache → Option Verified,
      (∀ c, sys.disk.cache = .stored c → (restore c).any (validVerified c) = true) →
      ∃ s, ((openStore config restore).exec sys.disk []).1 = .ok s ∧
        (s.cache = sys.before ∨ sys.after = some s.cache)) ∧
    sys.issued.Pairwise (· > ·) := by
  have hsound : Sound config sys :=
    h.invariant init_sound fun hx hdrops hstep => hx.step hallow hdrops hstep
  refine ⟨fun restore hrestore => ?_, hsound.order⟩
  obtain ⟨c, hc, hor⟩ : ∃ c, Recoverable config sys.disk c ∧ (c = sys.before ∨ sys.after = some c) := by
    rcases hsound.files with hf | ⟨c, hafter, hf⟩
    · exact ⟨_, hf, Or.inl rfl⟩
    · exact ⟨c, hf, Or.inr hafter⟩
  obtain ⟨s, hs, -⟩ := Prog.exec_of_returns (openStore_returns hallow hc hrestore)
  have hpost := Prog.exec_of_wp (wp_openStore hallow restore hc) []
  rw [hs] at hpost
  exact ⟨s, hs, hpost.1 ▸ hor⟩

end System

/-! ### A revoked environment that keeps its manifests -/

namespace Demo

open EnvironmentE2EE.Demo

def installation : Config where
  identity := ⟨"account", "mach", 1, 1, .envk 5⟩
  allowHighWaterInitialize := true

def head (a : Authority) : Cursor := ⟨a.generation, a.id⟩

def envelope (m : Manifest) : ManifestEnvelope := ⟨m.version, m.keyEpoch, m, m⟩

/-- What a processor returns for a revocation when it keeps the global manifest. -/
def revokedWithManifest : Cache :=
  { initialCache installation with
    authority := some (head genesis), globalManifest := some (envelope global1), revoked := true }

def revoked : Verified := { authority := some (head genesis), revoked := true }

def revocation : Bundle := { authorityHead := head genesis, revocationOnly := true }

def keepsManifest : List Event :=
  [.start (fun _ => none) [], .apply revocation (some (revokedWithManifest, revoked)) []]

/-- The store accepts and persists the revoked cache with its manifest; no later `Open`
succeeds. -/
theorem open_refuses_revoked_manifest :
    (Transition.run (System.step installation) (System.init installation) keepsManifest).any (fun sys =>
      sys.before == revokedWithManifest && sys.after.isNone &&
        ((openStore installation fun _ => some revoked).exec sys.disk []).1 == .error .invalidSnapshot) = true := by
  decide +kernel

/-- A revocation whose cache write is reported as failed although it took effect, then an
observation after the restart. -/
def dropsManifest : List Event :=
  [.start (fun _ => none) [.late], .start (fun _ => none) [],
    .apply revocation (some ({ revokedWithManifest with globalManifest := none }, revoked)) [.done, .late],
    .start (fun _ => some revoked) [.lost], .start (fun _ => some revoked) [], .observe [], .observe [.cutAfter]]

instance (sys : System) (event : Event) : Decidable (System.DropsRevoked sys event) :=
  match event with
  | .apply _ (some r) _ =>
      inferInstanceAs (Decidable (r.1.revoked = true → r.1.globalManifest = none ∧ r.1.machineManifest = none))
  | .apply _ none _ => isTrue trivial
  | .start .. => isTrue trivial
  | .observe .. => isTrue trivial
  | .stop => isTrue trivial

def afterFailures : System :=
  finalChecked (System.step installation) System.DropsRevoked (System.init installation) dropsManifest
    (by decide +kernel)

theorem open_restores_after_failures :
    afterFailures.issued = [1] ∧ ∃ s, ((openStore installation fun _ => some revoked).exec afterFailures.disk []).1 = .ok s ∧
      (s.cache = afterFailures.before ∨ afterFailures.after = some s.cache) := by
  refine ⟨by decide +kernel, ?_⟩
  exact (System.open_restores_before_or_after rfl (reach_finalChecked dropsManifest _)).1 _ fun c _ => rfl

end Demo

end Paperboat.EnvInject
