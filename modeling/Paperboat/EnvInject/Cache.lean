import Paperboat.EnvironmentE2EE.Manifest
import Paperboat.EnvInject.Variables

/-! The host's cache of the encrypted environment and the high-water mark that guards it.
The cache holds public documents only; the high-water mark remembers how far the host
has come, with the hash of the cache that belongs to it. Hashes are ideal: the hash of
a cache holds the cache, and a manifest identifier holds the manifest. Texts that are
no identifiers are left out; a value with one is refused by the shape checks when it is
written, like an error of the write. -/

namespace Paperboat.EnvInject

open EnvironmentE2EE

def maxInt64 : Nat := 2 ^ 63 - 1

/-- Whose cache it is. -/
structure Identity where
  accountID : String
  machineID : String
  installationGeneration : Nat
  hostKeyGeneration : Nat
  hostRecipientKeyID : KeyID
  deriving DecidableEq, Repr

structure Cursor where
  generation : Nat
  authorityID : DocumentID
  deriving DecidableEq, Repr

structure ManifestCursor where
  version : Nat
  keyEpoch : Nat
  manifestID : Manifest
  deriving DecidableEq, Repr

structure ManifestEnvelope where
  version : Nat
  keyEpoch : Nat
  manifestID : Manifest
  envelope : Manifest
  deriving DecidableEq, Repr

structure Cache where
  identity : Identity
  observationSeq : Nat := 0
  authority : Option Cursor := none
  authorityDocuments : List AuthorityDocument := []
  globalManifest : Option ManifestEnvelope := none
  machineManifest : Option ManifestEnvelope := none
  revoked : Bool := false
  deriving DecidableEq, Repr

structure HighWater where
  identity : Identity
  cacheHash : Option Cache := none
  observationSeq : Nat := 0
  authority : Option Cursor := none
  global : Option ManifestCursor := none
  machine : Option ManifestCursor := none
  deriving DecidableEq, Repr

structure HighWaterRecord where
  active : HighWater
  pending : Option HighWater := none

structure Verified where
  authority : Option Cursor := none
  global : Option ManifestCursor := none
  machine : Option ManifestCursor := none
  vars : Values := []
  revoked : Bool := false
  ready : Bool := false
  deriving DecidableEq, Repr

variable (cache : Cache) (value : HighWater)

def validVerified (value : Verified) : Bool :=
  if value.revoked then !value.ready && value.vars.isEmpty && value.authority.isSome
  else if !value.ready then value.vars.isEmpty
  else value.authority.isSome && value.global.isSome && value.machine.isSome && validateVariables value.vars &&
    cache.globalManifest.isSome && cache.machineManifest.isSome

/-! ### Comparisons with the high-water mark -/

def initialHighWaterRecord (identity : Identity) : HighWaterRecord where
  active := { identity := identity }

def finalHighWaterRecord (active : HighWater) : HighWaterRecord where
  active := active

def transitionHighWaterRecord (active pending : HighWater) : HighWaterRecord where
  active := active
  pending := some pending

def highWaterEmpty : Bool :=
  value.cacheHash.isNone && value.observationSeq == 0 && value.authority.isNone && value.global.isNone &&
    value.machine.isNone

def cursorBehind (cache floor : Option Cursor) : Bool :=
  match floor, cache with
  | none, _ => false
  | some _, none => true
  | some floor, some cache => decide (cache.generation < floor.generation) ||
      (cache.generation == floor.generation && cache.authorityID != floor.authorityID)

/-- Version and identifier of one document are behind those of another. -/
def versionBehind (version : Nat) (manifestID : Manifest) (floorVersion : Nat) (floorID : Manifest) : Bool :=
  decide (version < floorVersion) || (version == floorVersion && manifestID != floorID)

def manifestBehind (cache : Option ManifestEnvelope) (floor : Option ManifestCursor) : Bool :=
  match floor, cache with
  | none, _ => false
  | some _, none => true
  | some floor, some cache => versionBehind cache.version cache.manifestID floor.version floor.manifestID

def manifestBehindCursor (cache : Option ManifestCursor) (floor : Option ManifestEnvelope) : Bool :=
  match floor, cache with
  | none, cache => cache.isSome
  | some _, none => true
  | some floor, some cache => versionBehind cache.version cache.manifestID floor.version floor.manifestID

def manifestCursorBehind (next active : Option ManifestCursor) : Bool :=
  match active, next with
  | none, _ => false
  | some _, none => true
  | some active, some next => versionBehind next.version next.manifestID active.version active.manifestID

def cacheMatchesHighWater : Bool :=
  cache.observationSeq == value.observationSeq && cache.authority == value.authority &&
    (if cache.revoked then cache.globalManifest.isNone && cache.machineManifest.isNone
    else !(manifestBehind cache.globalManifest value.global || manifestBehind cache.machineManifest value.machine ||
      manifestBehindCursor value.global cache.globalManifest ||
      manifestBehindCursor value.machine cache.machineManifest)) &&
    value.cacheHash == some cache

def cacheBehindHighWater : Bool :=
  decide (cache.observationSeq < value.observationSeq) || cursorBehind cache.authority value.authority ||
    (!cache.revoked && (manifestBehind cache.globalManifest value.global ||
      manifestBehind cache.machineManifest value.machine))

def advanceCursor (current cache : Option Cursor) : Option Cursor :=
  match cache, current with
  | none, current => current
  | some cache, none => some cache
  | some cache, some current =>
    if cache.generation > current.generation then some cache
    else if cache.generation = current.generation ∧ cache.authorityID = current.authorityID then some cache
    else some current

def advanceManifestCursor (current : Option ManifestCursor) (cache : Option ManifestEnvelope) :
    Option ManifestCursor :=
  match cache, current with
  | none, current => current
  | some cache, none => some ⟨cache.version, cache.keyEpoch, cache.manifestID⟩
  | some cache, some current =>
    if cache.version > current.version ∨ (cache.version = current.version ∧ cache.manifestID = current.manifestID) then
      some ⟨cache.version, cache.keyEpoch, cache.manifestID⟩
    else some current

def advanceHighWater (cache : Cache) : HighWater where
  identity := value.identity
  cacheHash := some cache
  observationSeq := max value.observationSeq cache.observationSeq
  authority := advanceCursor value.authority cache.authority
  global := advanceManifestCursor value.global cache.globalManifest
  machine := advanceManifestCursor value.machine cache.machineManifest

def highWaterBehind (next active : HighWater) : Bool :=
  decide (next.observationSeq < active.observationSeq) || cursorBehind next.authority active.authority ||
    manifestCursorBehind next.global active.global || manifestCursorBehind next.machine active.machine

def validAuthorityCursor (value : Cursor) : Bool := validInteger value.generation

def validManifestCursor (cursor : ManifestCursor) : Bool :=
  cursor.version != 0 && decide (cursor.version ≤ maxInt64) && cursor.keyEpoch != 0 &&
    decide (cursor.keyEpoch ≤ maxInt64)

def validHighWaterShape : Bool :=
  decide (value.observationSeq ≤ maxInt64) && value.authority.all validAuthorityCursor &&
    value.global.all validManifestCursor && value.machine.all validManifestCursor

def validHighWaterRecord (value : HighWaterRecord) : Bool :=
  validHighWaterShape value.active && value.pending.all fun pending =>
    validHighWaterShape pending && pending.identity == value.active.identity && !highWaterBehind pending value.active

def validCacheShape : Bool :=
  decide (cache.observationSeq ≤ maxInt64) && decide (cache.authorityDocuments.length ≤ 512)

/-! ### The advanced mark belongs to the cache -/

theorem advanceCursor_of_not_behind {cache floor : Option Cursor} (h : cursorBehind cache floor = false) :
    advanceCursor floor cache = cache := by
  cases floor with
  | none => cases cache <;> rfl
  | some floor =>
    cases cache with
    | none => simp [cursorBehind] at h
    | some cache =>
      simp only [cursorBehind, Bool.or_eq_false_iff, decide_eq_false_iff_not, not_lt, Bool.and_eq_false_iff,
        beq_eq_false_iff_ne, bne_eq_false_iff_eq] at h
      simp only [advanceCursor]
      split
      · rfl
      · next hgt =>
        have heq : cache.generation = floor.generation := by omega
        rw [if_pos ⟨heq, h.2.resolve_left (by simp [heq])⟩]

theorem versionBehind_self (version : Nat) (manifestID : Manifest) :
    versionBehind version manifestID version manifestID = false := by
  simp [versionBehind]

theorem advanceManifestCursor_of_not_behind {cache : Option ManifestEnvelope}
    (h : manifestBehind cache floor = false) :
    manifestBehind cache (advanceManifestCursor floor cache) = false ∧
      manifestBehindCursor (advanceManifestCursor floor cache) cache = false := by
  cases cache with
  | none =>
    cases floor with
    | none => exact ⟨rfl, rfl⟩
    | some floor => simp [manifestBehind] at h
  | some cache =>
    have hadvance : advanceManifestCursor floor (some cache) = some ⟨cache.version, cache.keyEpoch, cache.manifestID⟩ := by
      cases floor with
      | none => rfl
      | some floor =>
        simp only [manifestBehind, versionBehind, Bool.or_eq_false_iff, decide_eq_false_iff_not, not_lt,
          Bool.and_eq_false_iff, beq_eq_false_iff_ne, bne_eq_false_iff_eq] at h
        refine if_pos ?_
        by_cases heq : cache.version = floor.version
        · exact Or.inr ⟨heq, h.2.resolve_left (by simp [heq])⟩
        · exact Or.inl (by omega)
    rw [hadvance]
    exact ⟨versionBehind_self _ _, versionBehind_self _ _⟩

/-- A cache that is not behind the mark belongs to the mark advanced to it, unless it is
revoked and still holds a manifest. -/
theorem cacheMatches_advance {cache : Cache} {value : HighWater} (h : cacheBehindHighWater cache value = false)
    (hrev : cache.revoked = true → cache.globalManifest = none ∧ cache.machineManifest = none) :
    cacheMatchesHighWater cache (advanceHighWater value cache) = true := by
  simp only [cacheBehindHighWater, Bool.or_eq_false_iff, decide_eq_false_iff_not, not_lt] at h
  obtain ⟨⟨hseq, hcurs⟩, hman⟩ := h
  have hmax : max value.observationSeq cache.observationSeq = cache.observationSeq := max_eq_right hseq
  simp only [cacheMatchesHighWater, advanceHighWater, hmax, advanceCursor_of_not_behind hcurs, beq_self_eq_true,
    Bool.and_true, Bool.true_and]
  split
  · next hr =>
    obtain ⟨hg, hm⟩ := hrev hr
    simp [hg, hm]
  · next hr =>
    simp only [hr, Bool.not_false, Bool.true_and, Bool.or_eq_false_iff] at hman
    have hg := advanceManifestCursor_of_not_behind hman.1
    have hm := advanceManifestCursor_of_not_behind hman.2
    simp [hg.1, hg.2, hm.1, hm.2]

end Paperboat.EnvInject
