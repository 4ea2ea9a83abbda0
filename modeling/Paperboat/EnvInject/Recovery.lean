import Paperboat.EnvInject.Paging
import Paperboat.EnvironmentE2EE.Published

/-! Recovery of a host. An honest service passes on what the managers publish: pages of the
account's authorities, then the latest pair of manifests, with the first pair under the
authority that first authorized the host for a host that has none yet. -/

namespace Paperboat.EnvInject

open EnvironmentE2EE Crash Transition CryptoProcessor

variable {config : Config} {d : Disk} {s : Store} {next : Cache} {v : Verified}

/-! ### Accepted results are persisted -/

theorem cursorBehind_advance (current cache : Option Cursor) :
    cursorBehind (advanceCursor current cache) current = false := by
  cases current with
  | none => rfl
  | some current =>
    cases cache with
    | none => exact cursorBehind_self _
    | some cache =>
      simp only [advanceCursor]
      split
      · next h => simp [cursorBehind, Nat.le_of_lt h, Nat.ne_of_gt h]
      · split
        · next h => simp [cursorBehind, h.1, h.2]
        · exact cursorBehind_self _

theorem manifestCursorBehind_self (cursor : Option ManifestCursor) : manifestCursorBehind cursor cursor = false := by
  cases cursor with
  | none => rfl
  | some c => exact versionBehind_self _ _

theorem manifestCursorBehind_advance (current : Option ManifestCursor) (cache : Option ManifestEnvelope) :
    manifestCursorBehind (advanceManifestCursor current cache) current = false := by
  cases current with
  | none => cases cache <;> rfl
  | some current =>
    cases cache with
    | none => exact manifestCursorBehind_self _
    | some cache =>
      simp only [advanceManifestCursor]
      split
      · next h =>
        rcases h with h | ⟨h, hid⟩
        · simp [manifestCursorBehind, versionBehind, Nat.le_of_lt h, Nat.ne_of_gt h]
        · simp [manifestCursorBehind, versionBehind, h, hid]
      · exact manifestCursorBehind_self _

/-- The next mark is never behind. -/
theorem highWaterBehind_advance (value : HighWater) (cache : Cache) :
    highWaterBehind (advanceHighWater value cache) value = false := by
  simp only [highWaterBehind, advanceHighWater, cursorBehind_advance, manifestCursorBehind_advance, Bool.or_false]
  exact decide_eq_false (by omega)

/-- A cache whose numbers fit into the files. -/
structure Storable (cache : Cache) : Prop where
  shape : validCacheShape cache = true
  authority : cache.authority.all validAuthorityCursor = true
  global : cache.globalManifest.all (fun e => validManifestCursor (envelopeCursor e)) = true
  machine : cache.machineManifest.all (fun e => validManifestCursor (envelopeCursor e)) = true

theorem valid_advanceCursor {current cache : Option Cursor} (hcur : current.all validAuthorityCursor = true)
    (hcache : cache.all validAuthorityCursor = true) : (advanceCursor current cache).all validAuthorityCursor = true := by
  unfold advanceCursor
  split
  · exact hcur
  · exact hcache
  · split
    · exact hcache
    · split
      · exact hcache
      · exact hcur

theorem valid_advanceManifestCursor {current : Option ManifestCursor} {cache : Option ManifestEnvelope}
    (hcur : current.all validManifestCursor = true)
    (hcache : cache.all (fun e => validManifestCursor (envelopeCursor e)) = true) :
    (advanceManifestCursor current cache).all validManifestCursor = true := by
  unfold advanceManifestCursor
  split
  · exact hcur
  · exact hcache
  · split
    · exact hcache
    · exact hcur

theorem validHighWaterShape_advance {value : HighWater} (hvalue : validHighWaterShape value = true)
    (hnext : Storable next) : validHighWaterShape (advanceHighWater value next) = true := by
  have hshape := hnext.shape
  simp only [validCacheShape, Bool.and_eq_true, decide_eq_true_eq] at hshape
  simp only [validHighWaterShape, Bool.and_eq_true, decide_eq_true_eq] at hvalue ⊢
  obtain ⟨⟨⟨hseq, ha⟩, hg⟩, hm⟩ := hvalue
  refine ⟨⟨⟨?_, valid_advanceCursor ha hnext.authority⟩, valid_advanceManifestCursor hg hnext.global⟩,
    valid_advanceManifestCursor hm hnext.machine⟩
  simp only [advanceHighWater]
  omega

/-- Without a fault the three writes go through. -/
theorem persist_returns (h : Clean config d s) (hnext : Storable next) {post : Unit → Disk → Prop}
    (hpost : ∀ d', post () d') : (persist s.highWater next).returns post d := by
  have hvalue : validHighWaterShape s.highWater = true := by
    have hrec := h.record.valid
    simp only [validHighWaterRecord, finalHighWaterRecord, Option.all_none, Bool.and_true] at hrec
    exact hrec
  have hshape := validHighWaterShape_advance hvalue hnext
  have hintent : validHighWaterRecord
    (transitionHighWaterRecord s.highWater (advanceHighWater s.highWater next)) = true := by
    have hident : (advanceHighWater s.highWater next).identity = s.highWater.identity := rfl
    simp [validHighWaterRecord, transitionHighWaterRecord, hvalue, hshape, highWaterBehind_advance, hident]
  have hfinal : validHighWaterRecord (finalHighWaterRecord (advanceHighWater s.highWater next)) = true := by
    simp [validHighWaterRecord, finalHighWaterRecord, hshape]
  simp only [persist, Prog.bind_eq, Prog.returns_bind, writeHighWater, writeCache, hintent, hfinal, hnext.shape, if_true]
  exact hpost _

/-- An accepted result becomes the state of the store. -/
theorem apply_returns (h : Clean config d s) (hnext : Storable next) (hacc : s.accepts next v = true)
    (hdrop : next.revoked = true → next.globalManifest = none ∧ next.machineManifest = none) (bundle : Bundle) :
    ∃ d', (s.apply bundle (some (next, v))).exec d [] = (.ok (s.applied bundle next v, .ok ()), d') ∧
      Clean config d' (s.applied bundle next v) := by
  have hfilter : (some (next, v)).filter (fun r => s.accepts r.1 r.2) = some (next, v) := by
    rw [Option.filter_some, if_pos hacc]
  have hreturns : (s.apply bundle (some (next, v))).returns (fun r _ => r = (s.applied bundle next v, .ok ())) d := by
    rw [Store.apply, if_neg (by simp [h.writeFailed])]
    simp only [hfilter, Prog.bind_eq, Prog.returns_bind]
    refine Prog.returns_attempt (persist_returns h hnext fun d' => ?_)
    rfl
  obtain ⟨r, hr, heq⟩ := Prog.exec_of_returns hreturns
  subst heq
  have htgt : s.applyTarget (some (next, v)) = some next := by
    simp [Store.applyTarget, h.writeFailed, hfilter]
  have hwp : (s.apply bundle (some (next, v))).wp (UpdatePost config s next fun _ _ => True) d :=
    (wp_apply h htgt hdrop).1
  have hpost := Prog.exec_of_wp hwp []
  rw [hr] at hpost
  exact ⟨_, Prod.ext hr rfl, hpost.2.1⟩

/-- A refused result changes the reported state only. -/
theorem apply_refused (h : Clean config d s) {result : Option (Cache × Verified)}
    (hnone : s.applyTarget result = none) (bundle : Bundle) :
    ∃ s' e, (s.apply bundle result).exec d [] = (.ok (s', .error e), d) ∧ s'.cache = s.cache ∧ Clean config d s' := by
  obtain ⟨s', e, heq, hc, hh, hf, -⟩ := @System.apply_of_target_none s result bundle hnone
  exact ⟨s', e, by rw [heq]; rfl, hc, System.Clean.of_fields h hc hh hf⟩

/-! ### What restores is valid -/

theorem validVerified_ready {cache : Cache} {authority : Option Cursor} {global machine : Option ManifestCursor}
    {values : Values} (ha : authority.isSome = true) (hg : global.isSome = true) (hm : machine.isSome = true)
    (hvals : validateVariables values = true) (hcg : cache.globalManifest.isSome = true)
    (hcm : cache.machineManifest.isSome = true) :
    validVerified cache { authority := authority, global := global, machine := machine, vars := values, ready := true } =
      true := by
  simp [validVerified, ha, hg, hm, hvals, hcg, hcm]

theorem validateVariables_of_stringValues {values result : Values} (h : stringValues values = some result) :
    validateVariables result = true := by
  rw [stringValues] at h
  split at h
  · next hvalid =>
    cases h
    exact hvalid
  · cases h

theorem validVerified_of_restore {p : CryptoProcessor} {cache : Cache} (h : p.restore cache = some v) :
    validVerified cache v = true := by
  obtain ⟨-, ⟨-, rfl⟩ | ⟨-, authorities, head, -, hhead, hat⟩⟩ := restore_cases h
  · rfl
  · have hcurs := (headAuthority_eq hhead).2
    rw [restoreAt] at hat
    split at hat
    · split at hat
      · cases hat
      · cases hat
        simp [validVerified, hcurs]
    · split at hat
      · cases hat
        rfl
      · next g m hg hm =>
        rw [restorePair] at hat
        split at hat
        · simp only [Option.bind_eq_bind, Option.bind_eq_some_iff, decrypt] at hat
          obtain ⟨global, -, machine, -, values, ⟨recipient, -, delivery, -, hvals⟩, heq⟩ := hat
          cases heq
          exact validVerified_ready (by rw [hcurs]; rfl) rfl rfl (validateVariables_of_stringValues hvals)
            (by rw [hg]; rfl) (by rw [hm]; rfl)
        · cases hat
      · cases hat

/-! ### The service and the host that follows it -/

/-- What the managers of an account have published, oldest first. -/
structure Service where
  authorities : List Authority := []
  global : List Link := []
  machine : List Link := []
  deriving DecidableEq

structure Following where
  service : Service
  disk : Disk
  store : Store

inductive Happening where
  | extend (authority : Authority)
  | publish (manifest : Manifest)
  | page (page : List Authority)
  | pair

def envelopeOf (m : Manifest) : ManifestEnvelope := ⟨m.version, m.keyEpoch, m, m⟩

namespace Service

variable (p : CryptoProcessor) (sv : Service)

/-- A manifest that may follow those of its scope under the latest authority. -/
def admits (l : List Link) (m : Manifest) (authority : Authority) : Bool :=
  match l.getLast? with
  | none => validateManifestTransition none m sv.authorities.dropLast.getLast? authority
  | some x => validateManifestTransition (some x.manifest) m (some x.authority) authority

def extend (a : Authority) : Option Service :=
  if p.parseOwn a.raw = some a ∧ validateAuthorityTransition sv.authorities.getLast? a = true ∧
      ∀ b ∈ sv.authorities, b.rootKeyID = a.rootKeyID then
    some { sv with authorities := sv.authorities ++ [a] }
  else none

def publish (m : Manifest) : Option Service := do
  let a ← sv.authorities.getLast?
  match m.scope with
  | .global => if sv.admits sv.global m a then some { sv with global := sv.global ++ [⟨m, a⟩] } else none
  | .machine =>
    if m.machineID = p.identity.machineID ∧ sv.admits sv.machine m a = true then
      some { sv with machine := sv.machine ++ [⟨m, a⟩] }
    else none

/-- The first pair under the authority that first authorized the host. -/
def bootstrap : Option AuthorizationBootstrap := do
  let a ← sv.authorities.find? p.hostAuthorized
  let g ← sv.global.find? fun x => decide (x.authority = a)
  let m ← sv.machine.find? fun x => decide (x.authority = a)
  some ⟨cursorOf a, envelopeOf g.manifest, envelopeOf m.manifest⟩

/-- The latest pair, once both scopes are published under the latest authority. -/
def pairBundle (cache : Cache) : Option Bundle := do
  let head ← sv.authorities.getLast?
  let g ← sv.global.getLast?.filter fun x => decide (x.authority = head)
  let m ← sv.machine.getLast?.filter fun x => decide (x.authority = head)
  let bootstrap ← if manifestless cache then (sv.bootstrap p).map some else some none
  some { authorityHead := cursorOf head, bootstrap := bootstrap, globalManifest := some (envelopeOf g.manifest),
         machineManifest := some (envelopeOf m.manifest) }

end Service

namespace Following

/-- How many authorities the host has. -/
def position (cache : Cache) : Nat := (cache.authority.map (·.generation)).getD 0

def receive (p : CryptoProcessor) (sys : Following) (bundle : Bundle) : Option Following :=
  match (sys.store.apply bundle (p.apply sys.store.cache bundle)).exec sys.disk [] with
  | (.ok (s, _), d) => some { sys with disk := d, store := s }
  | _ => none

/-- The next page up to the head; it is marked as a revocation when the head does not
authorize the host. -/
def nextPage (p : CryptoProcessor) (sys : Following) (head : Authority) (page : List Authority) : Bundle :=
  { pageBundle head page (decide (position sys.store.cache + page.length < sys.service.authorities.length)) with
    revocationOnly := !p.hostAuthorized head }

def step (p : CryptoProcessor) (sys : Following) : Happening → Option Following
  | .extend a => (sys.service.extend p a).map fun sv => { sys with service := sv }
  | .publish m => (sys.service.publish p m).map fun sv => { sys with service := sv }
  | .page page => do
    let head ← sys.service.authorities.getLast?
    if page ≠ [] ∧ page.length ≤ 4 ∧ page <+: sys.service.authorities.drop (position sys.store.cache) then
      sys.receive p (sys.nextPage p head page)
    else none
  | .pair => do
    let bundle ← sys.service.pairBundle p sys.store.cache
    sys.receive p bundle

/-- The store of a fresh installation after its first `Open`. -/
def init (p : CryptoProcessor) : Following where
  service := {}
  disk := ⟨some (initialHighWaterRecord p.identity), .missing, .established⟩
  store := { cache := { identity := p.identity }, highWater := { identity := p.identity } }

/-- No revocation is delivered: pages come while the latest authority authorizes the host. -/
def StaysAuthorized (p : CryptoProcessor) (sys : Following) : Happening → Prop
  | .page _ => ∀ head, sys.service.authorities.getLast? = some head → p.hostAuthorized head = true
  | _ => True

instance (p : CryptoProcessor) (sys : Following) (happening : Happening) : Decidable (StaysAuthorized p sys happening) :=
  match happening with
  | .page _ =>
    decidable_of_iff (∀ head ∈ sys.service.authorities.getLast?, p.hostAuthorized head = true) Iff.rfl
  | .extend _ => isTrue trivial
  | .publish _ => isTrue trivial
  | .pair => isTrue trivial

/-! ### What the host holds -/

/-- The cache stands where the first `k` authorities leave it. -/
structure At (p : CryptoProcessor) (sv : Service) (cache : Cache) (k : Nat) : Prop where
  bound : k ≤ sv.authorities.length
  last : (p.retainedAuthorities cache).getLast? = (sv.authorities.take k).getLast?
  pending : manifestless cache = true → p.retainedAuthorities cache = p.keep [] true (sv.authorities.take k)
  pair : ∀ eg em, cache.globalManifest = some eg → cache.machineManifest = some em →
    ∃ g ∈ sv.global, ∃ m ∈ sv.machine, eg = envelopeOf g.manifest ∧ em = envelopeOf m.manifest ∧
      g.authority = m.authority

/-- What every state has that deliveries without a revocation reach. -/
structure Honest (p : CryptoProcessor) (sys : Following) : Prop where
  clean : Clean ⟨p.identity, true⟩ sys.disk sys.store
  chain : p.Extends none sys.service.authorities
  signer : OneSigner sys.service.authorities
  histories : Histories sys.service.global sys.service.machine p.identity.machineID
  links : ∀ x, x ∈ sys.service.global ∨ x ∈ sys.service.machine → x.authority ∈ sys.service.authorities
  unrevoked : sys.store.cache.revoked = false
  verified : ∃ v, p.restore sys.store.cache = some v
  holds : ∃ k, At p sys.service sys.store.cache k

variable {p : CryptoProcessor} {sys sys' : Following}

theorem init_honest : Honest p (init p) := by
  have hblank : p.restore (init p).store.cache = some {} := by simp [restore, init, isBlank]
  have hret : p.retainedAuthorities (init p).store.cache = [] := rfl
  refine ⟨⟨rfl, rfl, ⟨rfl, rfl⟩, rfl, Or.inl ⟨rfl, rfl, rfl⟩, rfl⟩, trivial, ⟨.aek 0, by simp [init]⟩, ⟨?_, ?_⟩, ?_, rfl,
    ⟨_, hblank⟩, 0, le_rfl, by rw [hret]; rfl, fun _ => hret, by simp [init]⟩
  · exact ⟨List.isChain_nil, by simp [init], by simp [init]⟩
  · exact ⟨List.isChain_nil, by simp [init], by simp [init]⟩
  · simp [init]

variable {a last head : Authority} {sv : Service} {m : Manifest} {k : Nat} {w : Verified}
    {bundle : Bundle} {g y : Link}

theorem Honest.extend (h : Honest p sys) (hext : sys.service.extend p a = some sv) :
    Honest p { sys with service := sv } := by
  rw [Service.extend] at hext
  split at hext
  · next hcond =>
    cases hext
    obtain ⟨hparse, htrans, hroot⟩ := hcond
    obtain ⟨k, hk⟩ := h.holds
    refine ⟨h.clean, extends_append.mpr ⟨h.chain, hparse, by simpa using htrans, trivial⟩, ?_, h.histories,
      fun x hx => List.mem_append_left _ (h.links x hx), h.unrevoked, h.verified, k, ?_⟩
    · refine ⟨a.rootKeyID, fun b hb => ?_⟩
      rcases List.mem_append.mp hb with hb | hb
      · exact hroot b hb
      · rw [List.mem_singleton.mp hb]
    · have htake : (sys.service.authorities ++ [a]).take k = sys.service.authorities.take k :=
        List.take_append_of_le_length hk.bound
      refine ⟨by simp only [List.length_append]; have := hk.bound; omega, ?_, ?_, hk.pair⟩
      · rw [htake]
        exact hk.last
      · rw [htake]
        exact hk.pending
  · cases hext

/-- Whatever may follow joins the history of its scope. -/
theorem published_concat {scope : ScopeKind} {machineID : String} {l : List Link}
    (h : Published scope machineID l) (hscope : m.scope = scope)
    (hmach : m.machineID = machineID) (hadmits : sv.admits l m a = true) :
    Published scope machineID (l ++ [⟨m, a⟩]) := by
  rw [Service.admits] at hadmits
  refine h.concat hscope hmach ?_ ?_
  · rintro rfl
    exact ⟨_, hadmits⟩
  · intro x hx
    rw [hx] at hadmits
    exact hadmits

theorem admits_parsed {l : List Link}
    (h : sv.admits l m a = true) : Parsed m a := by
  rw [Service.admits] at h
  split at h
  · exact (Link.Starts.spec (y := ⟨m, a⟩) h).1
  · obtain ⟨t, hstep⟩ := validateManifestTransition_iff.mp h
    exact hstep.next

section

variable (h : Honest p sys)

include h

theorem Honest.publish (hpub : sys.service.publish p m = some sv) :
    Honest p { sys with service := sv } := by
  obtain ⟨a, ha, hpub⟩ := Option.bind_eq_some_iff.mp hpub
  have hmem := List.mem_of_getLast? ha
  obtain ⟨k, hk⟩ := h.holds
  split at hpub
  · next hscope =>
    split at hpub
    · next hadmits =>
      cases hpub
      have hmach := Published.parsed_machineID (admits_parsed hadmits) hscope
      refine ⟨h.clean, h.chain, h.signer, ⟨published_concat h.histories.global hscope hmach hadmits,
        h.histories.machine⟩, ?_, h.unrevoked, h.verified, k, hk.bound, hk.last, hk.pending, ?_⟩
      · rintro x (hx | hx)
        · rcases List.mem_append.mp hx with hx | hx
          · exact h.links x (Or.inl hx)
          · rw [List.mem_singleton.mp hx]
            exact hmem
        · exact h.links x (Or.inr hx)
      · intro eg em heg hem
        obtain ⟨g, hg, rest⟩ := hk.pair eg em heg hem
        exact ⟨g, List.mem_append_left _ hg, rest⟩
    · cases hpub
  · next hscope =>
    split at hpub
    · next hcond =>
      cases hpub
      refine ⟨h.clean, h.chain, h.signer, ⟨h.histories.global,
        published_concat h.histories.machine hscope hcond.1 hcond.2⟩, ?_, h.unrevoked, h.verified, k, hk.bound, hk.last,
        hk.pending, ?_⟩
      · rintro x (hx | hx)
        · exact h.links x (Or.inl hx)
        · rcases List.mem_append.mp hx with hx | hx
          · exact h.links x (Or.inr hx)
          · rw [List.mem_singleton.mp hx]
            exact hmem
      · intro eg em heg hem
        obtain ⟨g, hg, m', hm', rest⟩ := hk.pair eg em heg hem
        exact ⟨g, hg, m', List.mem_append_left _ hm', rest⟩
    · cases hpub

/-! ### Positions -/

omit h in
theorem extends_concat_generation {previous : Option Authority} {u : List Authority}
    (h : p.Extends previous (u ++ [a])) :
    a.generation = (previous.map (·.generation)).getD 0 + u.length + 1 := by
  have hfirst : ∀ {previous : Option Authority} {b : Authority}, validateAuthorityTransition previous b = true →
      b.generation = (previous.map (·.generation)).getD 0 + 1 := by
    intro previous b hb
    cases previous with
    | none =>
      simp only [validateAuthorityTransition, Bool.and_eq_true, beq_iff_eq] at hb
      exact hb.1
    | some c =>
      simp only [validateAuthorityTransition, Bool.and_eq_true, beq_iff_eq] at hb
      exact hb.1.2
  induction u generalizing previous with
  | nil => exact hfirst h.2.1
  | cons c u ih =>
    have hrest := ih h.2.2
    have hc := hfirst h.2.1
    simp only [Option.map_some, Option.getD_some, List.length_cons] at hrest ⊢
    omega

theorem Honest.retained : p.Retained sys.service.authorities := by
  have hempty : p.Retained [] := ⟨by simp, List.Pairwise.nil⟩
  exact hempty.append h.chain h.signer

/-- The chain splits where the host stands. -/
theorem Honest.chain_split (k : Nat) : p.Extends none (sys.service.authorities.take k) ∧
    p.Extends (sys.service.authorities.take k).getLast? (sys.service.authorities.drop k) := by
  have hchain := h.chain
  rw [← List.take_append_drop k sys.service.authorities, extends_append, Option.or_none] at hchain
  exact hchain

omit h in
theorem take_getLast_generation {l : List Authority} (h : p.Extends none (l.take k))
    (hk : k ≤ l.length) (ha : (l.take k).getLast? = some a) : a.generation = k := by
  obtain ⟨u, hu⟩ := List.getLast?_eq_some_iff.mp ha
  have hlen := congrArg List.length hu
  rw [hu] at h
  have hgen := extends_concat_generation h
  simp only [List.length_take, List.length_append, List.length_cons, List.length_nil] at hlen
  simp only [Option.map_none, Option.getD_none] at hgen
  omega

theorem Honest.authority_eq (hk : At p sys.service sys.store.cache k) :
    sys.store.cache.authority = (sys.service.authorities.take k).getLast?.map cursorOf := by
  obtain ⟨v, hv⟩ := h.verified
  obtain ⟨current, hparse, hrest⟩ := restorable_of_restore hv
  have hcur : p.retainedAuthorities sys.store.cache = current := by
    rw [retainedAuthorities, hparse, Option.getD_some]
  rw [hrest.authority, ← hcur, hk.last]

theorem Honest.position_eq (hk : At p sys.service sys.store.cache k) : position sys.store.cache = k := by
  rw [position, h.authority_eq hk]
  cases ha : (sys.service.authorities.take k).getLast? with
  | none =>
    rw [List.getLast?_eq_none_iff, List.take_eq_nil_iff] at ha
    have hbound := hk.bound
    rcases ha with hk0 | hnil
    · simp [hk0]
    · rw [hnil] at hbound
      simp only [List.length_nil, nonpos_iff_eq_zero] at hbound
      simp [hbound]
  | some a =>
    have hgen := take_getLast_generation (h.chain_split k).1 hk.bound ha
    simpa [cursorOf] using hgen

/-! ### Authority pages -/

omit h in
theorem validManifestCursor_of_parsed (h : Parsed m a) :
    validManifestCursor (envelopeCursor (envelopeOf m)) = true := by
  have hver := h.version
  have hepoch := h.keyEpoch
  simp only [validInteger, Bool.and_eq_true, decide_eq_true_eq] at hver hepoch
  have hmost : ∀ n, n ≤ maximumContractInteger → n ≤ maxInt64 := fun n hn => hn.trans (by decide)
  simp only [validManifestCursor, envelopeCursor, envelopeOf, Bool.and_eq_true, bne_iff_ne]
  exact ⟨⟨⟨by omega, decide_eq_true (hmost _ hver.2)⟩, by omega⟩, decide_eq_true (hmost _ hepoch.2)⟩

theorem Honest.pair_links : (∀ eg, sys.store.cache.globalManifest = some eg →
      ∃ g ∈ sys.service.global, eg = envelopeOf g.manifest) ∧
    ∀ em, sys.store.cache.machineManifest = some em → ∃ m ∈ sys.service.machine, em = envelopeOf m.manifest := by
  obtain ⟨v, hv⟩ := h.verified
  obtain ⟨current, -, hrest⟩ := restorable_of_restore hv
  obtain ⟨k, hk⟩ := h.holds
  constructor
  · intro eg heg
    obtain ⟨em, hem⟩ := Option.isSome_iff_exists.mp (hrest.manifests ▸ Option.isSome_of_eq_some heg)
    obtain ⟨g, hg, m, hm, hgeq, -, -⟩ := hk.pair eg em heg hem
    exact ⟨g, hg, hgeq⟩
  · intro em hem
    obtain ⟨eg, heg⟩ := Option.isSome_iff_exists.mp (hrest.manifests.symm ▸ Option.isSome_of_eq_some hem)
    obtain ⟨g, hg, m, hm, -, hmeq, -⟩ := hk.pair eg em heg hem
    exact ⟨m, hm, hmeq⟩

theorem Honest.shape : validCacheShape sys.store.cache = true := by
  rcases h.clean.cache with ⟨-, -, hinit⟩ | ⟨-, -, hok⟩
  · rw [hinit]
    rfl
  · exact hok.shape

/-- The cached manifests fit into the files. -/
theorem Honest.manifests_valid :
    sys.store.cache.globalManifest.all (fun e => validManifestCursor (envelopeCursor e)) = true ∧
      sys.store.cache.machineManifest.all (fun e => validManifestCursor (envelopeCursor e)) = true := by
  constructor
  · cases hg : sys.store.cache.globalManifest with
    | none => rfl
    | some eg =>
      obtain ⟨g, hmem, rfl⟩ := h.pair_links.1 eg hg
      exact validManifestCursor_of_parsed (h.histories.global.sound hmem).parsed
  · cases hm : sys.store.cache.machineManifest with
    | none => rfl
    | some em =>
      obtain ⟨m, hmem, rfl⟩ := h.pair_links.2 em hm
      exact validManifestCursor_of_parsed (h.histories.machine.sound hmem).parsed

/-- The mark of the host's store says what its cache says. -/
theorem Honest.mark : (sys.store.highWater.authority = none ∨
      sys.store.highWater.authority = sys.store.cache.authority) ∧
    sys.store.highWater.observationSeq ≤ sys.store.cache.observationSeq ∧
    manifestBehind sys.store.cache.globalManifest sys.store.highWater.global = false ∧
    manifestBehind sys.store.cache.machineManifest sys.store.highWater.machine = false := by
  rcases h.clean.cache with ⟨-, hempty, -⟩ | ⟨-, hmatch, -⟩
  · simp only [highWaterEmpty, Bool.and_eq_true, Option.isNone_iff_eq_none, beq_iff_eq] at hempty
    obtain ⟨⟨⟨⟨-, hseq⟩, ha⟩, hg⟩, hm⟩ := hempty
    refine ⟨Or.inl ha, by omega, ?_, ?_⟩
    · rw [hg]
      rfl
    · rw [hm]
      rfl
  · simp only [cacheMatchesHighWater, h.unrevoked, Bool.false_eq_true, if_false, Bool.and_eq_true, beq_iff_eq,
      Bool.not_eq_true', Bool.or_eq_false_iff] at hmatch
    obtain ⟨⟨⟨hseq, ha⟩, ⟨⟨hg, hm⟩, -⟩, -⟩, -⟩ := hmatch
    exact ⟨Or.inr ha.symm, hseq.ge, hg, hm⟩

theorem Honest.accepts_advanced (hk : At p sys.service sys.store.cache k)
    (hgen : k < last.generation) {docs : List AuthorityDocument}
    (hw : validVerified (advanced sys.store.cache last docs) w = true) :
    sys.store.accepts (advanced sys.store.cache last docs) w = true := by
  obtain ⟨hauth, hseq, hg, hm⟩ := h.mark
  have hcurs : cursorBehind (some (cursorOf last)) sys.store.highWater.authority = false := by
    rcases hauth with hnone | heq
    · rw [hnone]
      rfl
    · rw [heq, h.authority_eq hk]
      cases ha : (sys.service.authorities.take k).getLast? with
      | none => rfl
      | some a =>
        have hak := take_getLast_generation (h.chain_split k).1 hk.bound ha
        have hle : a.generation ≤ last.generation := by omega
        have hne : last.generation ≠ a.generation := by omega
        simp [cursorBehind, cursorOf, hle, hne]
  have hbehind : cacheBehindHighWater (advanced sys.store.cache last docs) sys.store.highWater = false := by
    have hcounter : ¬ (advanced sys.store.cache last docs).observationSeq < sys.store.highWater.observationSeq :=
      not_lt.mpr hseq
    simp only [cacheBehindHighWater, decide_eq_false hcounter, advanced_authority, advanced_globalManifest,
      advanced_machineManifest, hcurs, hg, hm, Bool.or_false, Bool.and_false]
  simp [Store.accepts, hbehind, hw]

theorem Honest.storable_advanced {docs : List AuthorityDocument} (hdocs : docs.length ≤ 3) :
    Storable (advanced sys.store.cache last docs) := by
  have hshape := h.shape
  simp only [validCacheShape, Bool.and_eq_true, decide_eq_true_eq] at hshape
  refine ⟨?_, validAuthorityCursor_cursorOf last, h.manifests_valid.1, h.manifests_valid.2⟩
  simp only [validCacheShape, Bool.and_eq_true, decide_eq_true_eq]
  exact ⟨hshape.1, by rw [advanced_authorityDocuments]; omega⟩

end

theorem manifestless_advanced (cache : Cache) (last : Authority) (docs : List AuthorityDocument) :
    manifestless (advanced cache last docs) = manifestless cache := rfl

section

variable (h : Honest p sys) (hk : At p sys.service sys.store.cache k)
  (hhead : sys.service.authorities.getLast? = some head)

include h hk hhead

/-- The page in the chain: it ends at a position of its own and says so. -/
theorem Honest.page_end {page rest : List Authority}
    (hrest : page ++ rest = sys.service.authorities.drop k) (hlast : page.getLast? = some last) :
    sys.service.authorities.take (k + page.length) = sys.service.authorities.take k ++ page ∧
      k + page.length ≤ sys.service.authorities.length ∧ last.generation = k + page.length ∧
      head.generation = sys.service.authorities.length ∧ (last.generation = head.generation → last = head) := by
  have htake : sys.service.authorities.take (k + page.length) = sys.service.authorities.take k ++ page := by
    rw [List.take_add, ← hrest, List.take_left]
  have hbound : k + page.length ≤ sys.service.authorities.length := by
    have hlen := congrArg List.length hrest
    have hkb := hk.bound
    simp only [List.length_append, List.length_drop] at hlen
    omega
  have htakeLast : (sys.service.authorities.take (k + page.length)).getLast? = some last := by
    rw [htake, List.getLast?_append, hlast]
    rfl
  have hgen := take_getLast_generation (h.chain_split _).1 hbound htakeLast
  have hheadGen : head.generation = sys.service.authorities.length := by
    have hall : (sys.service.authorities.take sys.service.authorities.length).getLast? = some head := by
      rw [List.take_length, hhead]
    exact take_getLast_generation (h.chain_split _).1 le_rfl hall
  refine ⟨htake, hbound, hgen, hheadGen, fun heq => ?_⟩
  have hfull : k + page.length = sys.service.authorities.length := by omega
  rw [hfull, List.take_length, hhead] at htakeLast
  exact (Option.some.inj htakeLast).symm

/-- One page: the host moves to its end, or stays where it was. -/
theorem Honest.page {page : List Authority} (hauth : p.hostAuthorized head = true) (hne : page ≠ [])
    (hlen : page.length ≤ 4) (hleading : page <+: sys.service.authorities.drop k)
    (hlast : page.getLast? = some last) :
    ∃ sys', sys.receive p (sys.nextPage p head page) = some sys' ∧ sys'.service = sys.service ∧ Honest p sys' ∧
      (manifestless sys.store.cache = true ∨ p.hostAuthorized last = true →
        At p sys.service sys'.store.cache (k + page.length) ∧
        manifestless sys'.store.cache = manifestless sys.store.cache) := by
  classical
  obtain ⟨v, hv⟩ := h.verified
  obtain ⟨current, hparse, hrestorable⟩ := restorable_of_restore hv
  have hcur : p.retainedAuthorities sys.store.cache = current := by
    rw [retainedAuthorities, hparse, Option.getD_some]
  obtain ⟨base, hbase⟩ := Option.isSome_iff_exists.mp hrestorable.base
  obtain ⟨rest, hrest⟩ := hleading
  obtain ⟨htake, hbound, hgen, hheadGen, hsame⟩ := h.page_end hk hhead hrest hlast
  have hlastEq : current.getLast? = (sys.service.authorities.take k).getLast? := by rw [← hcur, hk.last]
  have hpage : p.Extends current.getLast? page := by
    have hdrop := (h.chain_split k).2
    rw [← hrest, extends_append] at hdrop
    rw [hlastEq]
    exact hdrop.1
  have hpos : 0 < page.length := List.length_pos_of_ne_nil hne
  have hsubset : ∀ a ∈ sys.service.authorities.take k ++ page, a ∈ sys.service.authorities := by
    intro a ha
    rw [← htake] at ha
    exact List.mem_of_mem_take ha
  have hsig : OneSigner (current ++ page) := by
    obtain ⟨root, hroot⟩ := h.signer
    obtain ⟨root', hroot'⟩ := hrestorable.retained.oneSigner
    refine ⟨root, fun a ha => ?_⟩
    rcases List.mem_append.mp ha with ha | ha
    · obtain ⟨c, hc⟩ : ∃ c, current.getLast? = some c :=
        Option.isSome_iff_exists.mp (by simpa using List.ne_nil_of_mem ha)
      have hcA : c ∈ sys.service.authorities.take k := List.mem_of_getLast? (hlastEq ▸ hc)
      rw [hroot' a ha, ← hroot' c (List.mem_of_getLast? hc), hroot c (hsubset c (List.mem_append_left _ hcA))]
    · exact hroot a (hsubset a (List.mem_append_right _ ha))
  have hbundle : sys.nextPage p head page = pageBundle head page
      (decide (position sys.store.cache + page.length < sys.service.authorities.length)) := by
    simp [nextPage, hauth, pageBundle]
  have hends : pageEnds (pageBundle head page (decide (position sys.store.cache + page.length <
      sys.service.authorities.length))) last = true := by
    have hle : last.generation ≤ head.generation := by omega
    have hid : last.generation = head.generation → last.id = head.id := fun heq => by rw [hsame heq]
    rw [h.position_eq hk, ← hgen, ← hheadGen]
    simp only [pageEnds, Bool.and_eq_true, Bool.or_eq_true, decide_eq_true_eq, bne_iff_ne, beq_iff_eq]
    exact ⟨⟨hle, (em _).symm.imp_right hid⟩, decide_eq_decide.mpr Iff.rfl⟩
  have happly := apply_page hv h.unrevoked hparse hbase hpage hlen hlast hends fun heq => by rw [hsame heq]; exact hauth
  rw [← hbundle] at happly
  by_cases hcond : manifestless sys.store.cache = true ∨ p.hostAuthorized last = true
  · rw [if_pos ⟨hsig, hcond⟩] at happly
    have hall := hrestorable.retained.append hpage hsig
    have hcomb : (current ++ page).getLast? = some last := by
      rw [List.getLast?_append, hlast]
      rfl
    have hres := restore_advanced hv h.unrevoked hparse hall hbase hcomb
    rw [if_pos hcond] at hres
    have hkept := parseAuthorities_iff.mpr ⟨rfl, hall.sublist (keep_sublist (p := p) base (manifestless sys.store.cache) _)⟩
    have hkeptLast := @mem_keep_getLast p _ _ base (manifestless sys.store.cache) hcomb
    have hdocs : ((p.keep base (manifestless sys.store.cache) (current ++ page)).map (·.raw)).length ≤ 3 := by
      rw [List.length_map]
      exact (keep_length hall.nodup).trans (wantedIDs_length hbase _)
    generalize hnext : (p.keep base (manifestless sys.store.cache) (current ++ page)).map (·.raw) = docs at *
    have hacc := h.accepts_advanced hk (by omega) (validVerified_of_restore hres)
    obtain ⟨d', hexec, hclean⟩ := apply_returns h.clean (h.storable_advanced hdocs) hacc
      (by simp [h.unrevoked]) (sys.nextPage p head page)
    rw [← happly] at hexec
    have hcache : (sys.store.applied (sys.nextPage p head page) (advanced sys.store.cache last docs)
        { v with authority := some (cursorOf last) }).cache = advanced sys.store.cache last docs :=
          (Store.applied_fields ..).1
    have hat : At p sys.service (advanced sys.store.cache last docs) (k + page.length) := by
      have hret : p.retainedAuthorities (advanced sys.store.cache last docs) =
          p.keep base (manifestless sys.store.cache) (current ++ page) := by
        rw [retainedAuthorities, advanced_authorityDocuments, hkept, Option.getD_some]
      refine ⟨hbound, ?_, fun hless => ?_, hk.pair⟩
      · rw [hret, hkeptLast, htake, List.getLast?_append, hlast]
        rfl
      · rw [manifestless_advanced] at hless
        have hnodup : ((sys.service.authorities.take k ++ page).map (·.id)).Nodup := by
          rw [← htake]
          exact (h.retained.sublist (List.take_sublist ..)).nodup
        have hkeep := @keep_append p _ _ [] true hnodup
        rw [hret, hless, manifestBase_eq_nil hbase hless, ← hcur, hk.pending hless, htake, hkeep]
    refine ⟨⟨sys.service, d', _⟩, by rw [receive, hexec], rfl, ?_, fun _ => ⟨?_, ?_⟩⟩
    · refine ⟨hclean, h.chain, h.signer, h.histories, h.links, ?_, ⟨_, by rw [hcache]; exact hres⟩, k + page.length, ?_⟩
      · rw [hcache]
        exact h.unrevoked
      · rw [hcache]
        exact hat
    · rw [hcache]
      exact hat
    · rw [hcache, manifestless_advanced]
  · rw [if_neg fun hboth => hcond hboth.2] at happly
    have htgt : sys.store.applyTarget (p.apply sys.store.cache (sys.nextPage p head page)) = none := by
      simp [Store.applyTarget, happly]
    obtain ⟨s', e, hexec, hcache, hclean⟩ := apply_refused h.clean htgt (sys.nextPage p head page)
    refine ⟨{ sys with store := s' }, by simp [receive, hexec], rfl, ?_, fun hor => absurd hor hcond⟩
    exact ⟨hclean, h.chain, h.signer, h.histories, h.links, by rw [hcache]; exact h.unrevoked,
      by rw [hcache]; exact h.verified,
      k, by rw [hcache]; exact hk⟩

end

/-! ### Pairs -/

/-- A pair for a host without manifests comes with the first one. -/
structure Latest (p : CryptoProcessor) (sys : Following) (bundle : Bundle) (head : Authority) (g m : Link) : Prop where
  latest : sys.service.authorities.getLast? = some head
  global : sys.service.global.getLast? = some g
  globalHead : g.authority = head
  machine : sys.service.machine.getLast? = some m
  machineHead : m.authority = head
  first : manifestless sys.store.cache = true → ∃ b, sys.service.bootstrap p = some b ∧ bundle.bootstrap = some b
  next : manifestless sys.store.cache = false → bundle.bootstrap = none
  cursor : bundle.authorityHead = cursorOf head
  documents : bundle.authorityDocuments = []
  more : bundle.authorityHasMore = false
  revocation : bundle.revocationOnly = false
  globalManifest : bundle.globalManifest = some (envelopeOf g.manifest)
  machineManifest : bundle.machineManifest = some (envelopeOf m.manifest)

theorem pairBundle_cases (h : sys.service.pairBundle p sys.store.cache = some bundle) :
    ∃ head g m, Latest p sys bundle head g m := by
  simp only [Service.pairBundle, Option.bind_eq_bind, Option.bind_eq_some_iff, Option.filter_eq_some_iff,
    decide_eq_true_eq] at h
  obtain ⟨head, hhead, g, ⟨hg, hga⟩, m, ⟨hm, hma⟩, h⟩ := h
  split at h
  · next hless =>
    simp only [Option.bind_eq_some_iff, Option.map_eq_some_iff, Option.some.injEq] at h
    obtain ⟨_, ⟨b, hb, rfl⟩, rfl⟩ := h
    exact ⟨head, g, m, hhead, hg, hga, hm, hma, fun _ => ⟨b, hb, rfl⟩, fun h => absurd hless (by simp [h]), rfl, rfl, rfl,
      rfl, rfl, rfl⟩
  · next hless =>
    cases h
    exact ⟨head, g, m, hhead, hg, hga, hm, hma, fun h => absurd h hless, fun _ => rfl, rfl, rfl, rfl, rfl, rfl, rfl⟩

/-- The cache after a pair. -/
def paired (cache : Cache) (head : Authority) (g m : Link) : Cache :=
  { cache with globalManifest := some (envelopeOf g.manifest), machineManifest := some (envelopeOf m.manifest),
               revoked := false, authorityDocuments := [head.raw] }

theorem Latest.apply_eq {m : Link} (h : Latest p sys bundle head g m)
    (hid : sys.store.cache.identity = p.identity) : p.apply sys.store.cache bundle =
      if sys.store.cache.authority = some (cursorOf head) then
        p.applyPair sys.store.cache bundle (envelopeOf g.manifest) (envelopeOf m.manifest)
      else none := by
  have hvalid := validAuthorityCursor_cursorOf head
  simp [CryptoProcessor.apply, h.documents, h.more, h.revocation, h.cursor, h.globalManifest, h.machineManifest, hid,
    hvalid, List.length_nil, and_self, ne_eq, not_true_eq_false, Bool.false_eq_true,
    false_or, ite_not]

theorem cursorOf_injective : Function.Injective cursorOf :=
  fun _ _ h => Authority.id_injective (congrArg Cursor.authorityID h)

theorem response_self (h : Parsed y.manifest y.authority) :
    parseResponseManifest (envelopeOf y.manifest) y.authority = some y.manifest := by
  obtain ⟨m, hm⟩ := Option.isSome_iff_exists.mp (parsed_iff.mpr h)
  have heq := parseManifest_eq_some hm
  subst heq
  have hm' : parseManifest (envelopeOf y.manifest).envelope y.authority = some y.manifest := hm
  rw [parseResponseManifest, hm', Option.filter_some, if_pos]
  simp [envelopeOf]

theorem cached_single (h : Parsed y.manifest y.authority) :
    parseCachedManifest (envelopeOf y.manifest) [y.authority] = some (y.manifest, y.authority) :=
  (parseCachedManifest_iff (by simp)).mpr ⟨by simp, response_self h⟩

theorem versionBehind_eq_false {version floorVersion : Nat} {manifestID floorID : Manifest} :
    versionBehind version manifestID floorVersion floorID = false ↔
      floorVersion ≤ version ∧ (version = floorVersion → manifestID = floorID) := by
  simp only [versionBehind, Bool.or_eq_false_iff, decide_eq_false_iff_not, Bool.and_eq_false_iff, beq_eq_false_iff_ne,
    bne_eq_false_iff_eq, not_lt]
  exact and_congr_right' Decidable.imp_iff_not_or.symm

/-- A later manifest is not behind a mark that an earlier one is not behind. -/
theorem manifestBehind_latest {x : Link} (hxy : x = y ∨ x.After y)
    (h : manifestBehind (some (envelopeOf x.manifest)) floor = false) :
    manifestBehind (some (envelopeOf y.manifest)) floor = false := by
  rcases hxy with rfl | hafter
  · exact h
  cases floor with
  | none => rfl
  | some c =>
    have hlt := hafter.version
    have hle : c.version ≤ x.manifest.version := (versionBehind_eq_false.mp h).1
    exact versionBehind_eq_false.mpr ⟨hle.trans hlt.le, fun heq => absurd heq (hle.trans_lt hlt).ne'⟩

theorem Honest.generation_inj (h : Honest p sys) {b : Authority} (ha : a ∈ sys.service.authorities)
    (hb : b ∈ sys.service.authorities) (heq : a.generation = b.generation) : a = b := by
  have hpair := h.retained.generation_lt
  obtain ⟨i, hi, rfl⟩ := List.getElem_of_mem ha
  obtain ⟨j, hj, rfl⟩ := List.getElem_of_mem hb
  rcases lt_trichotomy i j with hij | rfl | hij
  · have hlt := List.pairwise_iff_getElem.mp hpair i j hi hj hij
    omega
  · rfl
  · have hlt := List.pairwise_iff_getElem.mp hpair j i hj hi hij
    omega

theorem Honest.identity (h : Honest p sys) : sys.store.cache.identity = p.identity := by
  obtain ⟨v, hv⟩ := h.verified
  exact (restore_cases hv).1

section

variable {m : Link} (h : Honest p sys) (hl : Latest p sys bundle head g m)

include h hl

/-- An accepted pair leaves the two manifests and the authority they are under. -/
theorem Honest.apply_pair_cases {next : Cache}
    (happly : p.apply sys.store.cache bundle = some (next, w)) :
    next = paired sys.store.cache head g m ∧ p.restore next = some w ∧ w.ready = true := by
  rw [hl.apply_eq h.identity] at happly
  split at happly
  · next hcurs =>
    simp only [applyPair, Option.bind_eq_bind, Option.bind_eq_some_iff, Option.filter_eq_some_iff] at happly
    obtain ⟨authorities, -, head', ⟨hhead, hauth⟩, global, ⟨hglob, hgactive⟩, machine, ⟨hmach, hmactive⟩, values,
      hvals, heq⟩ := happly
    have hsame : head' = head := cursorOf_injective (Option.some.inj ((headAuthority_eq hhead).2.symm.trans hcurs))
    subst hsame
    have hgparsed := (h.histories.global.sound (List.mem_of_getLast? hl.global)).parsed
    have hmparsed := (h.histories.machine.sound (List.mem_of_getLast? hl.machine)).parsed
    have hgcached := cached_single hgparsed
    have hmcached := cached_single hmparsed
    have hgresponse := response_self hgparsed
    have hmresponse := response_self hmparsed
    rw [hl.globalHead] at hgcached hgresponse
    rw [hl.machineHead] at hmcached hmresponse
    rw [hgresponse] at hglob
    rw [hmresponse] at hmach
    cases hglob
    cases hmach
    cases heq
    have hret : p.Retained [head'] :=
      h.retained.sublist (List.singleton_sublist.mpr (List.mem_of_getLast? hl.latest))
    have hat : p.restoreAt (paired sys.store.cache head' g m) [head'] head' =
        p.restorePair (paired sys.store.cache head' g m) [head'] head' (envelopeOf g.manifest) (envelopeOf m.manifest) := by
      simp [restoreAt, paired]
    refine ⟨rfl, ?_, rfl⟩
    have hfound : headAuthority (paired sys.store.cache head' g m) [head'] = some head' := by
      simp [headAuthority, paired, hcurs]
    have hid : (paired sys.store.cache head' g m).identity = p.identity := h.identity
    have hres := restore_eq_restoreAt hid (by simp [isBlank, paired]) (parseAuthorities_iff.mpr ⟨rfl, hret⟩) hfound
    refine hres.trans (hat.trans ?_)
    simp [restorePair, hauth, hgcached, hmcached, Option.filter_some, hgactive, hmactive,
      decrypt_of_deliveredValues hvals, paired]
  · cases happly

theorem Honest.accepts_paired (hw : validVerified (paired sys.store.cache head g m) w = true) :
    sys.store.accepts (paired sys.store.cache head g m) w = true := by
  obtain ⟨hauth, hseq, hg, hm⟩ := h.mark
  have hcounter : ¬ (paired sys.store.cache head g m).observationSeq < sys.store.highWater.observationSeq :=
    not_lt.mpr hseq
  have hcurs : cursorBehind (paired sys.store.cache head g m).authority sys.store.highWater.authority = false := by
    rcases hauth with hnone | heq
    · rw [hnone]
      rfl
    · rw [heq]
      exact cursorBehind_self _
  have hlat : ∀ {old floor latest}, manifestBehind old floor = false →
      (∀ e, old = some e → manifestBehind old floor = false → manifestBehind (some latest) floor = false) →
      manifestBehind (some latest) floor = false := by
    rintro (_ | e) (_ | c) latest hold hnext
    · rfl
    · cases hold
    · exact hnext e rfl hold
    · exact hnext e rfl hold
  have hglob : manifestBehind (paired sys.store.cache head g m).globalManifest sys.store.highWater.global = false := by
    refine hlat hg fun eg hold hg => ?_
    obtain ⟨x, hx, rfl⟩ := h.pair_links.1 eg hold
    rw [hold] at hg
    exact manifestBehind_latest (h.histories.global.latest hx hl.global) hg
  have hmach : manifestBehind (paired sys.store.cache head g m).machineManifest sys.store.highWater.machine = false := by
    refine hlat hm fun em hold hm => ?_
    obtain ⟨x, hx, rfl⟩ := h.pair_links.2 em hold
    rw [hold] at hm
    exact manifestBehind_latest (h.histories.machine.latest hx hl.machine) hm
  have hbehind : cacheBehindHighWater (paired sys.store.cache head g m) sys.store.highWater = false := by
    simp [cacheBehindHighWater, decide_eq_false hcounter, hcurs, hglob, hmach, Bool.and_false]
  have hid : (paired sys.store.cache head g m).identity = sys.store.cache.identity := rfl
  have hnumber : (paired sys.store.cache head g m).observationSeq = sys.store.cache.observationSeq := rfl
  simp [Store.accepts, hbehind, hw, hid, hnumber]

theorem Honest.storable_paired (hcurs : sys.store.cache.authority = some (cursorOf head)) :
    Storable (paired sys.store.cache head g m) := by
  have hshape := h.shape
  simp only [validCacheShape, Bool.and_eq_true, decide_eq_true_eq] at hshape
  refine ⟨?_, ?_, ?_, ?_⟩
  · simp only [validCacheShape, Bool.and_eq_true, decide_eq_true_eq]
    exact ⟨hshape.1, by simp [paired]⟩
  · have hauth : (paired sys.store.cache head g m).authority = some (cursorOf head) := hcurs
    rw [hauth]
    exact validAuthorityCursor_cursorOf head
  · exact validManifestCursor_of_parsed (h.histories.global.sound (List.mem_of_getLast? hl.global)).parsed
  · exact validManifestCursor_of_parsed (h.histories.machine.sound (List.mem_of_getLast? hl.machine)).parsed

theorem Honest.holds_paired (hk : At p sys.service sys.store.cache k)
    (hcurs : sys.store.cache.authority = some (cursorOf head)) :
    At p sys.service (paired sys.store.cache head g m) k := by
  have hparse : p.parseAuthorities (paired sys.store.cache head g m).authorityDocuments = some [head] :=
    parseAuthorities_iff.mpr ⟨rfl, h.retained.sublist (List.singleton_sublist.mpr (List.mem_of_getLast? hl.latest))⟩
  have hlast : (sys.service.authorities.take k).getLast? = some head := by
    rw [h.authority_eq hk] at hcurs
    obtain ⟨a, ha, heq⟩ := Option.map_eq_some_iff.mp hcurs
    rw [ha, cursorOf_injective heq]
  refine ⟨hk.bound, ?_, fun hless => by simp [manifestless, paired] at hless, ?_⟩
  · rw [retainedAuthorities, hparse, hlast]
    rfl
  · intro eg em heg hem
    cases heg
    cases hem
    exact ⟨g, List.mem_of_getLast? hl.global, m, List.mem_of_getLast? hl.machine, rfl, rfl, by
      rw [hl.globalHead, hl.machineHead]⟩

/-- One pair: the host holds it, or stays where it was. -/
theorem Honest.pair : ∃ sys', sys.receive p bundle = some sys' ∧ Honest p sys' ∧
      ∀ r, p.apply sys.store.cache bundle = some r → sys'.store.verified = r.2 ∧ r.2.ready = true := by
  cases happly : p.apply sys.store.cache bundle with
  | none =>
    have htgt : sys.store.applyTarget (p.apply sys.store.cache bundle) = none := by simp [Store.applyTarget, happly]
    obtain ⟨s', e, hexec, hcache, hclean⟩ := apply_refused h.clean htgt bundle
    refine ⟨{ sys with store := s' }, by simp [receive, hexec], ?_, fun r hr => by cases hr⟩
    exact ⟨hclean, h.chain, h.signer, h.histories, h.links, by rw [hcache]; exact h.unrevoked,
      by rw [hcache]; exact h.verified,
      by rw [hcache]; exact h.holds⟩
  | some r =>
    obtain ⟨next, w⟩ := r
    obtain ⟨rfl, hres, hready⟩ := h.apply_pair_cases hl happly
    obtain ⟨k, hk⟩ := h.holds
    have hcurs : sys.store.cache.authority = some (cursorOf head) := by
      rw [hl.apply_eq h.identity] at happly
      by_contra hne
      rw [if_neg hne] at happly
      cases happly
    obtain ⟨d', hexec, hclean⟩ := apply_returns h.clean (h.storable_paired hl hcurs)
      (h.accepts_paired hl (validVerified_of_restore hres)) (by simp [paired]) bundle
    rw [← happly] at hexec
    obtain ⟨hcache, -, -, hver⟩ := Store.applied_fields sys.store bundle (paired sys.store.cache head g m) w
    refine ⟨⟨sys.service, d', _⟩, by rw [receive, hexec], ?_, ?_⟩
    · refine ⟨hclean, h.chain, h.signer, h.histories, h.links, by rw [hcache]; rfl, ⟨w, by rw [hcache]; exact hres⟩, k, ?_⟩
      rw [hcache]
      exact h.holds_paired hl hk hcurs
    · rintro r hr
      cases hr
      exact ⟨hver, hready⟩

end

end Following

end Paperboat.EnvInject
