import Paperboat.EnvironmentE2EE.HostDelivery
import Paperboat.EnvInject.Store

/-! The processor that verifies and decrypts what the host is given: it checks authority
pages against the documents it keeps, keeps as few of them as later checks need, and
accepts pairs of manifests. The encoding of a document is ideal, so a cached text is the
document itself. -/

namespace Paperboat.EnvInject

open EnvironmentE2EE

/-- What the key source loads. -/
structure Material where
  generation : Nat
  key : KeyID

structure CryptoProcessor where
  identity : Identity
  /-- The trusted account roots. -/
  roots : List KeyID
  keys : Option Material

namespace CryptoProcessor

variable (p : CryptoProcessor)

def hostAuthorized (authority : Authority) : Bool :=
  authority.bindings.any fun b => b.subjectKind == .host && b.subjectID == p.identity.machineID &&
    b.subjectGeneration == p.identity.installationGeneration && b.keyGeneration == p.identity.hostKeyGeneration &&
    b.recipientKeyID == p.identity.hostRecipientKeyID

def recipient : Option RecipientPrivate := do
  let material ← p.keys
  if material.generation = p.identity.hostKeyGeneration then
    some { kind := .host, subjectID := p.identity.machineID, keyGeneration := p.identity.hostKeyGeneration,
           keyID := p.identity.hostRecipientKeyID, privateKey := material.key }
  else none

/-- One retained document after another. Documents whose generations are adjacent are
linked; others are only ordered. -/
def retains (previous authority : Authority) : Bool :=
  decide (previous.generation < authority.generation) &&
    (previous.generation + 1 != authority.generation || validateAuthorityTransition (some previous) authority) &&
    previous.rootKeyID == authority.rootKeyID

def parseOwn (doc : AuthorityDocument) : Option Authority :=
  (parseAuthority p.roots doc).filter fun authority => authority.accountID == p.identity.accountID

def parseAuthorities (documents : List AuthorityDocument) : Option (List Authority) := do
  let authorities ← documents.mapM p.parseOwn
  if authorities.IsChain fun a b => retains a b then some authorities else none

def parseResponseManifest (document : ManifestEnvelope) (authority : Authority) : Option Manifest :=
  (parseManifest document.envelope authority).filter fun manifest => manifest.version == document.version &&
    manifest.keyEpoch == document.keyEpoch && manifest == document.manifestID

/-- The retained authority that the manifest is valid under, if there is exactly one. -/
def parseCachedManifest (document : ManifestEnvelope) (authorities : List Authority) :
    Option (Manifest × Authority) :=
  match authorities.filterMap fun a => (parseResponseManifest document a).map (·, a) with
  | [found] => some found
  | _ => none

def cursorOf (authority : Authority) : Cursor := ⟨authority.generation, authority.id⟩

def manifestCursor (manifest : Manifest) : ManifestCursor := ⟨manifest.version, manifest.keyEpoch, manifest⟩

def stringValues (values : Values) : Option Values := if validateVariables values then some values else none

def decrypt (global machine : Manifest) : Option Values := do
  let recipient ← p.recipient
  let delivery ← openPair global machine recipient
  stringValues delivery.effective

/-! ### Restore -/

/-- The last retained authority, if the cursor names it. -/
def headAuthority (cache : Cache) (authorities : List Authority) : Option Authority :=
  authorities.getLast?.filter fun head => cache.authority == some (cursorOf head)

def isGlobalActive (m : Manifest) : Bool := m.scope == .global && m.state == .active

def isMachineActive (m : Manifest) : Bool :=
  m.scope == .machine && m.machineID == p.identity.machineID && m.state == .active

/-- A cache with both manifests. -/
def restorePair (cache : Cache) (authorities : List Authority) (head : Authority)
    (globalDocument machineDocument : ManifestEnvelope) : Option Verified := do
  if p.hostAuthorized head then
    let (global, _) ← (parseCachedManifest globalDocument authorities).filter fun found => isGlobalActive found.1
    let (machine, _) ← (parseCachedManifest machineDocument authorities).filter fun found => p.isMachineActive found.1
    let values ← p.decrypt global machine
    some { authority := cache.authority, global := some (manifestCursor global), machine := some (manifestCursor machine),
           vars := values, ready := true }
  else none

def restoreAt (cache : Cache) (authorities : List Authority) (head : Authority) : Option Verified :=
  if cache.revoked then
    if p.hostAuthorized head || cache.globalManifest.isSome || cache.machineManifest.isSome then none
    else some { authority := cache.authority, revoked := true }
  else
    match cache.globalManifest, cache.machineManifest with
    | none, none => some { authority := cache.authority }
    | some global, some machine => p.restorePair cache authorities head global machine
    | _, _ => none

/-- A cache that nothing was delivered to. -/
def isBlank (cache : Cache) : Bool :=
  cache.authority.isNone && cache.authorityDocuments.isEmpty && cache.globalManifest.isNone &&
    cache.machineManifest.isNone && !cache.revoked

def restore (cache : Cache) : Option Verified :=
  if cache.identity = p.identity then
    if isBlank cache then some {}
    else do
      let authorities ← p.parseAuthorities cache.authorityDocuments
      let head ← headAuthority cache authorities
      p.restoreAt cache authorities head
  else none

/-! ### Authority pages -/

/-- The authorities of a page, each following the one before it, all signed by the root
that the retained documents are signed by. -/
def readPage : Option Authority → Option KeyID → List AuthorityDocument → Option (List Authority)
  | _, _, [] => some []
  | previous, root, doc :: rest => do
    let next ← p.parseOwn doc
    if validateAuthorityTransition previous next = true ∧ root.all (· == next.rootKeyID) = true then
      let tail ← readPage (some next) (some next.rootKeyID) rest
      some (next :: tail)
    else none

/-- The authority under which a cached manifest is kept, if there is one to keep. -/
def manifestAuthority (document : Option ManifestEnvelope) (current : List Authority) : Option (Option DocumentID) :=
  match document with
  | none => some none
  | some document => (parseCachedManifest document current).map fun found => some found.2.id

/-- The first authority that authorizes the host and the one before it. -/
def firstAuthorized : List Authority → List DocumentID
  | [] => []
  | [a] => if p.hostAuthorized a then [a.id] else []
  | a :: b :: rest =>
    if p.hostAuthorized a then [a.id]
    else if p.hostAuthorized b then [a.id, b.id]
    else firstAuthorized (b :: rest)

def wantedAuthorities (cache : Cache) (current combined : List Authority) : Option (List DocumentID) := do
  let global ← manifestAuthority cache.globalManifest current
  let machine ← manifestAuthority cache.machineManifest current
  let first := if cache.globalManifest.isNone && cache.machineManifest.isNone then p.firstAuthorized combined else []
  some (global.toList ++ machine.toList ++ first ++ (combined.getLast?.map (·.id)).toList)

def compactAuthorityDocuments (cache : Cache) (current page : List Authority) (pageDocuments : List AuthorityDocument) :
    Option (List AuthorityDocument) := do
  let wanted ← p.wantedAuthorities cache current (current ++ page)
  let result := ((current ++ page).zip (cache.authorityDocuments ++ pageDocuments)).filter fun entry =>
    wanted.contains entry.1.id
  if result.length = 0 ∨ result.length > 3 then none else some (result.map Prod.snd)

/-- The page reaches at most the head, and says whether it reaches it. -/
def pageEnds (bundle : Bundle) (last : Authority) : Bool :=
  decide (last.generation ≤ bundle.authorityHead.generation) &&
    (last.generation != bundle.authorityHead.generation || last.id == bundle.authorityHead.authorityID) &&
    bundle.authorityHasMore == decide (last.generation < bundle.authorityHead.generation)

/-- The cache after a page that ends with the authority `last`. -/
def advanced (cache : Cache) (last : Authority) (documents : List AuthorityDocument) : Cache :=
  { cache with authority := some (cursorOf last), authorityDocuments := documents }

section advanced

variable (cache : Cache) (last : Authority) (documents : List AuthorityDocument)

@[simp] theorem advanced_identity : (advanced cache last documents).identity = cache.identity := rfl
@[simp] theorem advanced_observationSeq : (advanced cache last documents).observationSeq = cache.observationSeq := rfl
@[simp] theorem advanced_authority : (advanced cache last documents).authority = some (cursorOf last) := rfl
@[simp] theorem advanced_authorityDocuments : (advanced cache last documents).authorityDocuments = documents := rfl
@[simp] theorem advanced_globalManifest : (advanced cache last documents).globalManifest = cache.globalManifest := rfl
@[simp] theorem advanced_machineManifest : (advanced cache last documents).machineManifest = cache.machineManifest := rfl
@[simp] theorem advanced_revoked : (advanced cache last documents).revoked = cache.revoked := rfl

end advanced

def revokedBy (cache : Cache) (last : Authority) : Cache × Verified :=
  ({ cache with authority := some (cursorOf last), authorityDocuments := [last.raw], globalManifest := none,
                machineManifest := none, revoked := true },
    { authority := some (cursorOf last), revoked := true })

/-- The retained authorities; documents that do not parse count as none while nothing was
delivered. -/
def currentAuthorities (cache : Cache) : Option (List Authority) :=
  (p.parseAuthorities cache.authorityDocuments).orElse fun _ => if cache.authority.isNone then some [] else none

/-- A page was read and ends with `last`. -/
def settlePage (cache : Cache) (bundle : Bundle) (last : Authority) (documents : List AuthorityDocument) :
    Option (Cache × Verified) :=
  if bundle.revocationOnly && !p.hostAuthorized last then some (revokedBy cache last)
  else if bundle.revocationOnly && !bundle.authorityHasMore then none
  else if !p.hostAuthorized last && last.generation == bundle.authorityHead.generation then none
  else (p.restore (advanced cache last documents)).map (advanced cache last documents, ·)

def applyPage (cache : Cache) (bundle : Bundle) : Option (Cache × Verified) :=
  if bundle.bootstrap.isSome || bundle.globalManifest.isSome || bundle.machineManifest.isSome then none
  else do
    let current ← p.currentAuthorities cache
    let page ← p.readPage current.getLast? (current.head?.map (·.rootKeyID)) bundle.authorityDocuments
    let last ← page.getLast?.filter (pageEnds bundle)
    let documents ← p.compactAuthorityDocuments cache current page bundle.authorityDocuments
    p.settlePage cache bundle last documents

/-! ### Manifest pairs -/

/-- The documents up to and with the one the cursor names. -/
def authorityForCursor (authorities : List Authority) (cursor : Cursor) : Option (Option Authority × Authority) :=
  match authorities with
  | [] => none
  | a :: rest =>
    if cursorOf a = cursor then some (none, a)
    else go a rest
where
  go (previous : Authority) : List Authority → Option (Option Authority × Authority)
    | [] => none
    | a :: rest => if cursorOf a = cursor then some (some previous, a) else go a rest

/-- The authority before the bootstrap authority, where it has one. -/
def priorAuthority (before : Option Authority) (authority : Authority) : Option (Option Authority) :=
  if authority.previousID.isNone then some none
  else (before.filter fun b => some b.id == authority.previousID && b.generation + 1 == authority.generation).map some

def validateFirstDelivery (bootstrap : Option AuthorizationBootstrap) (authorities : List Authority)
    (head : Authority) (latestGlobal latestMachine : Manifest) : Option Values := do
  let bootstrap ← bootstrap.filter fun b => validAuthorityCursor b.authority
  let (before, bootstrapAuthority) ← authorityForCursor authorities bootstrap.authority
  let prior ← priorAuthority before bootstrapAuthority
  let bootstrapGlobal ← parseResponseManifest bootstrap.globalManifest bootstrapAuthority
  let bootstrapMachine ← parseResponseManifest bootstrap.machineManifest bootstrapAuthority
  let recipient ← p.recipient
  let _ ← validateFirstHostDelivery prior bootstrapAuthority bootstrapGlobal bootstrapMachine recipient
  let latest ← validateLatestAfterFirstDelivery bootstrapGlobal bootstrapMachine latestGlobal latestMachine
    bootstrapAuthority head recipient
  stringValues latest.effective

/-- The values of a pair that follows a cached one. -/
def validateNextDelivery (authorities : List Authority) (head : Authority) (oldGlobal oldMachine : ManifestEnvelope)
    (latestGlobal latestMachine : Manifest) : Option Values := do
  let (oldGlobal, globalAuthority) ← parseCachedManifest oldGlobal authorities
  let (oldMachine, machineAuthority) ← parseCachedManifest oldMachine authorities
  if globalAuthority.id = machineAuthority.id then
    let recipient ← p.recipient
    let latest ← validateLatestAfterHighWater oldGlobal oldMachine latestGlobal latestMachine globalAuthority head
      recipient
    stringValues latest.effective
  else none

def deliveredValues (cache : Cache) (bundle : Bundle) (authorities : List Authority) (head : Authority)
    (global machine : Manifest) : Option Values :=
  match cache.globalManifest, cache.machineManifest with
  | none, none => p.validateFirstDelivery bundle.bootstrap authorities head global machine
  | some oldGlobal, some oldMachine =>
    if bundle.bootstrap.isSome then none
    else p.validateNextDelivery authorities head oldGlobal oldMachine global machine
  | _, _ => none

def applyPair (cache : Cache) (bundle : Bundle) (globalDocument machineDocument : ManifestEnvelope) :
    Option (Cache × Verified) := do
  let authorities ← p.parseAuthorities cache.authorityDocuments
  let head ← (headAuthority cache authorities).filter p.hostAuthorized
  let global ← (parseResponseManifest globalDocument head).filter isGlobalActive
  let machine ← (parseResponseManifest machineDocument head).filter p.isMachineActive
  let values ← p.deliveredValues cache bundle authorities head global machine
  some ({ cache with globalManifest := some globalDocument, machineManifest := some machineDocument, revoked := false,
                     authorityDocuments := [head.raw] },
    { authority := cache.authority, global := some (manifestCursor global), machine := some (manifestCursor machine),
      vars := values, ready := true })

/-- A cache without manifests is pending where it cannot be restored. -/
def restoreOrPending (cache : Cache) : Option Verified :=
  (p.restore cache).orElse fun _ =>
    if cache.globalManifest.isNone && cache.machineManifest.isNone then some { authority := cache.authority } else none

def apply (cache : Cache) (bundle : Bundle) : Option (Cache × Verified) :=
  if cache.identity = p.identity ∧ validAuthorityCursor bundle.authorityHead = true ∧
      bundle.authorityDocuments.length ≤ 4 then
    if bundle.authorityDocuments ≠ [] then p.applyPage cache bundle
    else if bundle.authorityHasMore = true ∨ bundle.revocationOnly = true ∨
        cache.authority ≠ some bundle.authorityHead then none
    else
      match bundle.globalManifest, bundle.machineManifest with
      | none, none => if bundle.bootstrap.isSome then none else (p.restoreOrPending cache).map (cache, ·)
      | some global, some machine => p.applyPair cache bundle global machine
      | _, _ => none
  else none

/-! ### What a result says -/

/-- The cursors of a result are those of the cache it is about. -/
structure Consistent (cache : Cache) (verified : Verified) : Prop where
  authority : verified.authority = cache.authority
  ready : verified.ready = true → cache.revoked = false ∧
    verified.global = cache.globalManifest.map (fun e => ⟨e.version, e.keyEpoch, e.manifestID⟩) ∧
    verified.machine = cache.machineManifest.map (fun e => ⟨e.version, e.keyEpoch, e.manifestID⟩)

/-- A revoked cache whose last authority does not authorize the host. -/
structure RevokedAt (cache : Cache) : Prop where
  revoked : cache.revoked = true
  unauthorized : ∃ authorities head, p.parseAuthorities cache.authorityDocuments = some authorities ∧
    headAuthority cache authorities = some head ∧ p.hostAuthorized head = false

variable {p} {cache next : Cache} {bundle : Bundle} {verified : Verified}

variable {document g : ManifestEnvelope} {m : Manifest} {authorities : List Authority}
    {a : Authority}

theorem manifestCursor_of_response (h : parseResponseManifest document authority = some m) :
    manifestCursor m = ⟨document.version, document.keyEpoch, document.manifestID⟩ := by
  have hfilter := (Option.filter_eq_some_iff.mp h).2
  simp only [Bool.and_eq_true, beq_iff_eq] at hfilter
  obtain ⟨⟨hv, he⟩, hm⟩ := hfilter
  rw [manifestCursor, hv, he, hm]

theorem response_of_cached (h : parseCachedManifest document authorities = some (m, a)) :
    a ∈ authorities ∧ parseResponseManifest document a = some m := by
  rw [parseCachedManifest] at h
  split at h
  · next found hfound =>
    cases h
    have hmem : (m, a) ∈ authorities.filterMap fun a => (parseResponseManifest document a).map (·, a) := by
      rw [hfound]
      exact List.mem_singleton_self _
    obtain ⟨a', ha', hmap⟩ := List.mem_filterMap.mp hmem
    obtain ⟨m', hm', heq⟩ := Option.map_eq_some_iff.mp hmap
    cases heq
    exact ⟨ha', hm'⟩
  · cases h

theorem restorePair_cases {head : Authority} {m : ManifestEnvelope}
    (h : p.restorePair cache authorities head g m = some verified) :
    ∃ global machine a b values, parseCachedManifest g authorities = some (global, a) ∧
      parseCachedManifest m authorities = some (machine, b) ∧ p.decrypt global machine = some values ∧
      verified = { authority := cache.authority, global := some (manifestCursor global)
                   machine := some (manifestCursor machine), vars := values, ready := true } := by
  rw [restorePair] at h
  split at h
  · simp only [Option.bind_eq_bind, Option.bind_eq_some_iff] at h
    obtain ⟨⟨global, a⟩, hglob, ⟨machine, b⟩, hmach, values, hvals, heq⟩ := h
    exact ⟨global, machine, a, b, values, (Option.filter_eq_some_iff.mp hglob).1, (Option.filter_eq_some_iff.mp hmach).1,
      hvals, (Option.some.inj heq).symm⟩
  · cases h

theorem restore_cases (h : p.restore cache = some verified) :
    cache.identity = p.identity ∧ ((isBlank cache = true ∧ verified = {}) ∨ (isBlank cache = false ∧ ∃ authorities head,
      p.parseAuthorities cache.authorityDocuments = some authorities ∧ headAuthority cache authorities = some head ∧
      p.restoreAt cache authorities head = some verified)) := by
  rw [restore] at h
  split at h
  · next hid =>
    refine ⟨hid, ?_⟩
    split at h
    · next hblank =>
      cases h
      exact Or.inl ⟨hblank, rfl⟩
    · next hblank =>
      simp only [Option.bind_eq_bind, Option.bind_eq_some_iff] at h
      obtain ⟨authorities, hparse, head, hhead, hat⟩ := h
      exact Or.inr ⟨by simpa using hblank, authorities, head, hparse, hhead, hat⟩
  · cases h

theorem restoreAt_cases {head : Authority} (h : p.restoreAt cache authorities head = some verified) :
    (cache.revoked = true ∧ p.hostAuthorized head = false ∧ verified = { authority := cache.authority, revoked := true }) ∨
      (cache.revoked = false ∧ (verified = { authority := cache.authority } ∨ ∃ g m, cache.globalManifest = some g ∧
        cache.machineManifest = some m ∧ p.restorePair cache authorities head g m = some verified)) := by
  rw [restoreAt] at h
  split at h
  · next hrev =>
    split at h
    · cases h
    · next hcond =>
      simp only [Bool.or_eq_true, not_or, Bool.not_eq_true] at hcond
      exact Or.inl ⟨hrev, hcond.1.1, (Option.some.inj h).symm⟩
  · next hrev =>
    refine Or.inr ⟨by simpa using hrev, ?_⟩
    split at h
    · exact Or.inl (Option.some.inj h).symm
    · next hg hm => exact Or.inr ⟨_, _, hg, hm, h⟩
    · cases h

theorem restore_spec (h : p.restore cache = some verified) :
    Consistent cache verified ∧ (verified.revoked = true → p.RevokedAt cache) ∧
      (cache.revoked = true → p.RevokedAt cache ∧ verified.ready = false) := by
  obtain ⟨-, ⟨hblank, rfl⟩ | ⟨-, authorities, head, hparse, hhead, hat⟩⟩ := restore_cases h
  · simp only [isBlank, Bool.and_eq_true, Option.isNone_iff_eq_none, Bool.not_eq_true'] at hblank
    exact ⟨⟨hblank.1.1.1.1.symm, by simp⟩, by simp, by simp [hblank.2]⟩
  · rcases restoreAt_cases hat with ⟨hrev, hauth, rfl⟩ | ⟨hrev, rfl | ⟨g, m, hg, hm, hpair⟩⟩
    · have hat : p.RevokedAt cache := ⟨hrev, authorities, head, hparse, hhead, hauth⟩
      exact ⟨⟨rfl, by simp⟩, fun _ => hat, fun _ => ⟨hat, rfl⟩⟩
    · exact ⟨⟨rfl, by simp⟩, by simp, by simp [hrev]⟩
    · obtain ⟨global, machine, a, b, values, hglob, hmach, -, rfl⟩ := restorePair_cases hpair
      refine ⟨⟨rfl, fun _ => ⟨hrev, ?_, ?_⟩⟩, by simp, by simp [hrev]⟩
      · rw [manifestCursor_of_response (response_of_cached hglob).2, hg]
        rfl
      · rw [manifestCursor_of_response (response_of_cached hmach).2, hm]
        rfl

theorem openPair_of_latest {og om g m : Manifest} {d : FirstHostDelivery}
    (h : validateLatestAfterFirstDelivery og om g m a head r = some d) : openPair g m r = some d := by
  simp only [validateLatestAfterFirstDelivery] at h
  split at h
  · exact h
  · cases h

/-- The values of an accepted pair are those the pair decrypts to. -/
theorem decrypt_of_deliveredValues {g m : Manifest} {values : Values} {head : Authority}
    (h : p.deliveredValues cache bundle authorities head g m = some values) :
    p.decrypt g m = some values := by
  rw [deliveredValues] at h
  split at h
  · simp only [validateFirstDelivery, Option.bind_eq_bind, Option.bind_eq_some_iff] at h
    obtain ⟨_, -, _, -, _, -, _, -, _, -, r, hr, _, -, d, hd, hvals⟩ := h
    simp [decrypt, hr, openPair_of_latest hd, hvals]
  · split at h
    · cases h
    · simp only [validateNextDelivery, Option.bind_eq_bind, Option.bind_eq_some_iff] at h
      obtain ⟨_, -, _, -, h⟩ := h
      split at h
      · simp only [Option.bind_eq_some_iff] at h
        obtain ⟨r, hr, d, hd, hvals⟩ := h
        simp [decrypt, hr, openPair_of_latest hd, hvals]
      · cases h
  · cases h

/-- The values of a result are those of the manifests that its cursors name, as this host
decrypts and merges them. -/
def Backed (p : CryptoProcessor) (verified : Verified) : Prop :=
  ∃ global machine, verified.global = some (manifestCursor global) ∧ verified.machine = some (manifestCursor machine) ∧
    p.decrypt global machine = some verified.vars

theorem restore_backed (h : p.restore cache = some verified) (hready : verified.ready = true) : p.Backed verified := by
  obtain ⟨-, ⟨-, rfl⟩ | ⟨-, authorities, head, -, -, hat⟩⟩ := restore_cases h
  · cases hready
  · rcases restoreAt_cases hat with ⟨-, -, rfl⟩ | ⟨-, rfl | ⟨g, m, -, -, hpair⟩⟩
    · cases hready
    · cases hready
    · obtain ⟨global, machine, a, b, values, -, -, hvals, rfl⟩ := restorePair_cases hpair
      exact ⟨global, machine, rfl, rfl, hvals⟩

theorem parseOwn_raw (h : p.parseOwn doc = some a) : a.raw = doc := by
  have hparse := (Option.filter_eq_some_iff.mp h).1
  rw [parseAuthority] at hparse
  split at hparse
  · split at hparse
    · cases hparse
      rfl
    · cases hparse
  · cases hparse

theorem readPage_spec {page : List Authority} (h : p.readPage previous root docs = some page) :
    page.map (·.raw) = docs ∧ ∀ a ∈ page, p.parseOwn a.raw = some a := by
  induction docs generalizing previous root page with
  | nil =>
    cases h
    exact ⟨rfl, by simp⟩
  | cons doc rest ih =>
    simp only [readPage, Option.bind_eq_bind, Option.bind_eq_some_iff] at h
    obtain ⟨next, hnext, htail⟩ := h
    split at htail
    · obtain ⟨tail, hread, heq⟩ := Option.bind_eq_some_iff.mp htail
      cases heq
      obtain ⟨hraw, hparse⟩ := ih hread
      have hdoc := parseOwn_raw hnext
      refine ⟨by rw [List.map_cons, hraw, hdoc], ?_⟩
      rintro a (_ | ⟨_, ha⟩)
      · rw [hdoc]
        exact hnext
      · exact hparse a ha
    · cases htail

/-- A page is applied as a revocation, or by restoring the advanced cache. -/
theorem applyPage_cases (h : p.applyPage cache bundle = some (next, verified)) :
    ∃ last, p.parseOwn last.raw = some last ∧ bundle.authorityDocuments.getLast? = some last.raw ∧
      ((p.hostAuthorized last = false ∧ (next, verified) = revokedBy cache last) ∨
        ∃ documents, next = advanced cache last documents ∧ p.restore next = some verified) := by
  rw [applyPage] at h
  split at h
  · cases h
  · simp only [Option.bind_eq_bind, Option.bind_eq_some_iff] at h
    obtain ⟨current, -, page, hpage, last, hlast, documents, -, hsettle⟩ := h
    have hend := (Option.filter_eq_some_iff.mp hlast).1
    obtain ⟨hraw, hparse⟩ := readPage_spec hpage
    refine ⟨last, hparse last (List.mem_of_getLast? hend), by rw [← hraw, List.getLast?_map, hend]; rfl, ?_⟩
    rw [settlePage] at hsettle
    split at hsettle
    · next hcond =>
      simp only [Bool.and_eq_true, Bool.not_eq_true'] at hcond
      cases hsettle
      exact Or.inl ⟨hcond.2, rfl⟩
    · split at hsettle
      · cases hsettle
      · split at hsettle
        · cases hsettle
        · obtain ⟨v, hv, heq⟩ := Option.map_eq_some_iff.mp hsettle
          cases heq
          exact Or.inr ⟨documents, rfl, hv⟩

theorem revokedBy_revokedAt {last : Authority} (hparse : p.parseOwn last.raw = some last)
    (hlast : p.hostAuthorized last = false) : p.RevokedAt (revokedBy cache last).1 := by
  refine ⟨rfl, [last], last, ?_, ?_, hlast⟩
  · simp [parseAuthorities, revokedBy, hparse]
  · simp [headAuthority, revokedBy]

theorem applyPair_spec {m : ManifestEnvelope} (h : p.applyPair cache bundle g m = some (next, verified)) :
    Consistent next verified ∧ verified.revoked = false ∧
      ∃ authorities head, p.parseAuthorities cache.authorityDocuments = some authorities ∧
        headAuthority cache authorities = some head ∧ p.hostAuthorized head = true := by
  simp only [applyPair, Option.bind_eq_bind, Option.bind_eq_some_iff] at h
  obtain ⟨authorities, hparse, head, hhead, global, hglob, machine, hmach, values, -, heq⟩ := h
  cases heq
  obtain ⟨hhead, hauth⟩ := Option.filter_eq_some_iff.mp hhead
  refine ⟨⟨rfl, fun _ => ⟨rfl, ?_, ?_⟩⟩, rfl, authorities, head, hparse, hhead, hauth⟩
  · rw [manifestCursor_of_response (Option.filter_eq_some_iff.mp hglob).1]
    rfl
  · rw [manifestCursor_of_response (Option.filter_eq_some_iff.mp hmach).1]
    rfl

/-- What is applied is a page, a pair, or nothing. -/
theorem apply_cases (h : p.apply cache bundle = some (next, verified)) :
    p.applyPage cache bundle = some (next, verified) ∨
      (∃ g m, p.applyPair cache bundle g m = some (next, verified)) ∨
      (next = cache ∧ p.restoreOrPending cache = some verified) := by
  rw [apply] at h
  split at h
  · split at h
    · exact Or.inl h
    · split at h
      · cases h
      · split at h
        · split at h
          · cases h
          · obtain ⟨v, hv, heq⟩ := Option.map_eq_some_iff.mp h
            cases heq
            exact Or.inr (Or.inr ⟨rfl, hv⟩)
        · exact Or.inr (Or.inl ⟨_, _, h⟩)
        · cases h
  · cases h

theorem restoreOrPending_cases (h : p.restoreOrPending cache = some verified) :
    p.restore cache = some verified ∨ verified = { authority := cache.authority } := by
  rw [restoreOrPending] at h
  cases hr : p.restore cache with
  | some v =>
    rw [hr] at h
    exact Or.inl h
  | none =>
    rw [hr] at h
    split at h
    · cases h
      exact Or.inr rfl
    · cases h

theorem apply_spec (h : p.apply cache bundle = some (next, verified)) :
    Consistent next verified ∧ (verified.revoked = true → p.RevokedAt next) ∧
      (p.RevokedAt cache → p.RevokedAt next ∧ verified.ready = false) := by
  rcases apply_cases h with hpage | ⟨g, m, hpair⟩ | ⟨rfl, hnone⟩
  · obtain ⟨last, hparse, -, ⟨hlast, heq⟩ | ⟨documents, rfl, hres⟩⟩ := applyPage_cases hpage
    · cases heq
      have hat : p.RevokedAt (revokedBy cache last).1 := revokedBy_revokedAt hparse hlast
      exact ⟨⟨rfl, by simp⟩, fun _ => hat, fun _ => ⟨hat, rfl⟩⟩
    · obtain ⟨hcons, hrev, hkept⟩ := restore_spec hres
      exact ⟨hcons, hrev, fun hat => hkept hat.revoked⟩
  · obtain ⟨hcons, hflag, authorities, head, hparse, hhead, hauth⟩ := applyPair_spec hpair
    refine ⟨hcons, by simp [hflag], ?_⟩
    rintro ⟨-, authorities', head', hparse', hhead', hauth'⟩
    rw [hparse] at hparse'
    cases hparse'
    rw [hhead] at hhead'
    cases hhead'
    rw [hauth] at hauth'
    contradiction
  · rcases restoreOrPending_cases hnone with hres | rfl
    · obtain ⟨hcons, hrev, hkept⟩ := restore_spec hres
      exact ⟨hcons, hrev, fun hat => hkept hat.revoked⟩
    · exact ⟨⟨rfl, by simp⟩, by simp, fun hat => ⟨hat, rfl⟩⟩

theorem apply_backed (h : p.apply cache bundle = some (next, verified)) (hready : verified.ready = true) :
    p.Backed verified := by
  rcases apply_cases h with hpage | ⟨g, m, hpair⟩ | ⟨rfl, hnone⟩
  · obtain ⟨last, -, -, ⟨-, heq⟩ | ⟨documents, rfl, hres⟩⟩ := applyPage_cases hpage
    · cases heq
      cases hready
    · exact restore_backed hres hready
  · simp only [applyPair, Option.bind_eq_bind, Option.bind_eq_some_iff] at hpair
    obtain ⟨authorities, -, head, -, global, -, machine, -, values, hvals, heq⟩ := hpair
    cases heq
    exact ⟨global, machine, rfl, rfl, decrypt_of_deliveredValues hvals⟩
  · rcases restoreOrPending_cases hnone with hres | rfl
    · exact restore_backed hres hready
    · cases hready

end CryptoProcessor

end Paperboat.EnvInject
