import Paperboat.EnvInject.Cache
import Paperboat.Lib.Crash

/-! The environment store: opening it from the cache file and the high-water file, taking
the next observation, and applying a bundle. Both files are replaced atomically. The
processor that parses, verifies and decrypts is given by its results. -/

namespace Paperboat.EnvInject

open EnvironmentE2EE Crash

structure AuthorizationBootstrap where
  authority : Cursor
  globalManifest : ManifestEnvelope
  machineManifest : ManifestEnvelope
  deriving DecidableEq, Repr

structure Bundle where
  authorityHead : Cursor
  authorityDocuments : List AuthorityDocument := []
  authorityHasMore : Bool := false
  revocationOnly : Bool := false
  bootstrap : Option AuthorizationBootstrap := none
  globalManifest : Option ManifestEnvelope := none
  machineManifest : Option ManifestEnvelope := none
  deriving DecidableEq, Repr

inductive StoreError where
  | invalidSnapshot | notReady | revoked | observationLost
  deriving DecidableEq, Repr

inductive GenesisState where
  | fresh | pending | established
  deriving DecidableEq, Repr

inductive CacheFile where
  | missing | unreadable | stored (cache : Cache)

/-- The durable state: the two files and the secure marker of the installation. -/
structure Disk where
  highWater : Option HighWaterRecord
  cache : CacheFile
  genesis : GenesisState

structure Config where
  identity : Identity
  allowHighWaterInitialize : Bool

inductive BindingState where
  | unknown | active | inactive
  deriving DecidableEq, Repr

inductive ReportedState where
  | pending | applied | failed
  deriving DecidableEq, Repr

inductive ErrorCode where
  | authorizationRevoked | integrityFailed | cacheFailed
  deriving DecidableEq, Repr

structure Store where
  cache : Cache
  verified : Verified := {}
  binding : BindingState := .unknown
  highWater : HighWater
  state : ReportedState := .pending
  errorCode : Option ErrorCode := none
  writeFailed : Bool := false
  deriving DecidableEq, Repr

structure Observation where
  observationSeq : Nat
  hostRecipientKeyID : KeyID
  authority : Option Cursor
  global : Option ManifestCursor
  machine : Option ManifestCursor
  state : ReportedState
  errorCode : Option ErrorCode

abbrev StoreProg := Prog Disk StoreError

/-! ### Writes -/

def writeHighWater (record : HighWaterRecord) : StoreProg Unit :=
  if validHighWaterRecord record then .write .observationLost fun d => { d with highWater := some record }
  else .fail .invalidSnapshot

def writeCache (cache : Cache) : StoreProg Unit :=
  if validCacheShape cache then .write .observationLost fun d => { d with cache := .stored cache }
  else .fail .invalidSnapshot

/-- `PrepareGenesis` leaves a pending marker as it is and refuses an established one. -/
def prepareGenesis : StoreProg Unit := do
  let d ← Prog.get
  match d.genesis with
  | .fresh => .write .observationLost fun d => { d with genesis := .pending }
  | .pending => pure ()
  | .established => .fail .observationLost

def commitGenesis : StoreProg Unit := do
  let d ← Prog.get
  match d.genesis with
  | .pending => .write .observationLost fun d => { d with genesis := .established }
  | .established => pure ()
  | .fresh => .fail .observationLost

/-! ### Open -/

/-- Without a cache file: create the first high-water record, or finish its creation. -/
def openRecord (config : Config) : StoreProg HighWaterRecord := do
  let d ← Prog.get
  match d.highWater with
  | none =>
    if config.allowHighWaterInitialize = true ∧ d.genesis ≠ .established then do
      prepareGenesis
      writeHighWater (initialHighWaterRecord config.identity)
      commitGenesis
      pure (initialHighWaterRecord config.identity)
    else .fail .observationLost
  | some record =>
    if highWaterEmpty record.active then
      match d.genesis with
      | .pending => do
        commitGenesis
        pure record
      | .established => pure record
      | .fresh => .fail .observationLost
    else .fail .observationLost

/-- Drop the pending mark of a record, if it has one. -/
def clearPending (record : HighWaterRecord) : StoreProg Unit :=
  if record.pending.isSome then writeHighWater { record with pending := none } else pure ()

/-- With a cache file: the mark the cache belongs to, active or pending, becomes active. -/
def reconcile (record : HighWaterRecord) (cache : Cache) : StoreProg HighWater :=
  if cacheMatchesHighWater cache record.active then do
    clearPending record
    pure record.active
  else
    match record.pending with
    | some pending =>
      if pending.identity = cache.identity ∧ cacheMatchesHighWater cache pending = true then do
        writeHighWater (finalHighWaterRecord pending)
        pure pending
      else .fail .invalidSnapshot
    | none => .fail .invalidSnapshot

def restored (cache : Cache) (highWater : HighWater) (verified : Verified) : Store :=
  if verified.revoked then
    { cache := cache, verified := verified, highWater := highWater, binding := .inactive, state := .failed,
      errorCode := some .authorizationRevoked }
  else if verified.ready then
    { cache := cache, verified := verified, highWater := highWater, binding := .active, state := .applied }
  else { cache := cache, verified := verified, highWater := highWater }

def openStore (config : Config) (restore : Cache → Option Verified) : StoreProg Store := do
  let d ← Prog.get
  match d.cache with
  | .missing => do
    let record ← openRecord config
    clearPending record
    pure { cache := { identity := config.identity }, highWater := record.active }
  | .unreadable => .fail .invalidSnapshot
  | .stored cache =>
    match d.highWater with
    | none => .fail .invalidSnapshot
    | some record =>
      if validCacheShape cache = true ∧ d.genesis = .established ∧ cache.identity = config.identity ∧
          record.active.identity = cache.identity then do
        let highWater ← reconcile record cache
        match restore cache with
        | none => .fail .invalidSnapshot
        | some verified =>
          if validVerified cache verified then pure (restored cache highWater verified)
          else .fail .invalidSnapshot
      else .fail .invalidSnapshot

/-! ### Updates -/

/-- The three writes that replace the cache: intent, cache, and the new mark. -/
def persist (highWater : HighWater) (next : Cache) : StoreProg Unit := do
  writeHighWater (transitionHighWaterRecord highWater (advanceHighWater highWater next))
  writeCache next
  writeHighWater (finalHighWaterRecord (advanceHighWater highWater next))

namespace Store

variable (s : Store)

def observation : Observation where
  observationSeq := s.cache.observationSeq
  hostRecipientKeyID := s.cache.identity.hostRecipientKeyID
  authority := s.verified.authority
  global := s.verified.global
  machine := s.verified.machine
  state := s.state
  errorCode := if s.state = .failed then s.errorCode else none

def nextCache : Cache := { s.cache with observationSeq := s.cache.observationSeq + 1 }

def nextObservation : StoreProg (Store × Except StoreError Observation) :=
  if s.writeFailed = true ∨ s.cache.observationSeq ≥ maxInt64 then pure (s, .error .observationLost)
  else do
    match ← (persist s.highWater s.nextCache).attempt with
    | .error _ => pure ({ s with writeFailed := true }, .error .observationLost)
    | .ok () =>
      let s' := { s with cache := s.nextCache, highWater := advanceHighWater s.highWater s.nextCache }
      pure (s', .ok s'.observation)

/-- The checks on what the processor returned. -/
def accepts (next : Cache) (verified : Verified) : Bool :=
  next.identity == s.cache.identity && next.observationSeq == s.cache.observationSeq &&
    !cacheBehindHighWater next s.highWater && validVerified next verified

/-- The state after a bundle was applied and persisted. -/
def applied (bundle : Bundle) (next : Cache) (verified : Verified) : Store :=
  let s := { s with cache := next, highWater := advanceHighWater s.highWater next, verified := verified }
  if verified.revoked then
    { s with binding := .inactive, state := .failed, errorCode := some .authorizationRevoked }
  else if verified.ready then { s with binding := .active, state := .applied, errorCode := none }
  else
    { s with
      binding := if bundle.authorityDocuments.length > 0 ∧ bundle.revocationOnly = false ∧
        verified.authority.isSome = true then .active else s.binding,
      state := .pending, errorCode := none }

/-- `Apply`, given what the processor makes of the bundle. -/
def apply (bundle : Bundle) (result : Option (Cache × Verified)) :
    StoreProg (Store × Except StoreError Unit) :=
  if s.writeFailed then pure (s, .error .observationLost)
  else
    match result.filter fun r => s.accepts r.1 r.2 with
    | none => pure ({ s with state := .failed, errorCode := some .integrityFailed }, .error .invalidSnapshot)
    | some (next, verified) => do
      match ← (persist s.highWater next).attempt with
      | .error _ =>
        pure ({ s with writeFailed := true, state := .failed, errorCode := some .cacheFailed }, .error .observationLost)
      | .ok () => pure (s.applied bundle next verified, .ok ())

/-- `Environment`: what a new process gets. -/
def environment : Except StoreError Values :=
  if s.verified.revoked then .error .revoked
  else if !s.verified.ready then .error .notReady
  else .ok s.verified.vars

end Store

end Paperboat.EnvInject
