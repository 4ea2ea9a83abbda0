import Paperboat.EnvironmentE2EE.Manifest

/-! Building a manifest for the recipients that an authority prescribes. The checks of an
authority make the prescribed recipients distinct and well formed, so the builder's own
checks and the reader's checks pass, and every recipient can open the result. -/

namespace Paperboat.EnvironmentE2EE

namespace Authority

variable (a : Authority)

theorem bindings_valid : ∀ b ∈ a.bindings, validateBindingClaims b = true := by
  have h := a.valid
  simp only [validateAuthorityClaims, Bool.and_eq_true, List.all_eq_true] at h
  exact h.1.1.1.2

theorem bindings_checked : validateBindings a.accountID a.bindings = true := by
  have h := a.valid
  simp only [validateAuthorityClaims, Bool.and_eq_true] at h
  exact h.1.1.2

theorem bindings_length : a.bindings.length ≤ maximumManagers + maximumHosts + 1 := by
  have h := a.valid
  simp only [validateAuthorityClaims, Bool.and_eq_true, decide_eq_true_eq] at h
  exact h.1.1.1.1.2

theorem generation_pos : 0 < a.generation := by
  have h := a.valid
  simp only [validateAuthorityClaims, validInteger, Bool.and_eq_true, decide_eq_true_eq] at h
  exact h.1.1.1.1.1.1.1.1.2.1

theorem accountID_valid : validIdentifier a.accountID = true := by
  have h := a.valid
  simp only [validateAuthorityClaims, Bool.and_eq_true] at h
  exact h.1.1.1.1.1.1.1.1.1

theorem subjects_nodup : (a.bindings.map fun b => (b.subjectKind, b.subjectID)).Nodup := by
  have h := a.bindings_checked
  simp only [validateBindings, Bool.and_eq_true, decide_eq_true_eq] at h
  exact h.1.1.1.1.1.2

theorem keys_distinct : a.bindings.Pairwise fun b b' => b.recipientKeyID ≠ b'.recipientKeyID := by
  have h := a.bindings_checked
  simp only [validateBindings, Bool.and_eq_true, decide_eq_true_eq] at h
  have hkeys : (bindingKeys a.bindings).Nodup := h.1.1.1.1.2
  refine (List.nodup_flatMap.mp hkeys).2.imp ?_
  intro b b' hdisjoint heq
  refine hdisjoint (List.mem_cons_self ..) ?_
  rw [heq]
  exact List.mem_cons_self ..

theorem exists_manager : ∃ b ∈ a.bindings, isManager b = true := by
  have h := a.bindings_checked
  simp only [validateBindings, Bool.and_eq_true, decide_eq_true_eq] at h
  exact List.countP_pos_iff.mp h.1.1.1.2

end Authority

/-! ### The prescribed recipients -/

section Prescribed

variable {scope : ScopeKind} {state : ScopeState} {machineID : String}

theorem bindingRecipient_eq_some {b : KeyBinding}
    (h : bindingRecipient scope state machineID b = some r) :
    r.subjectID = b.subjectID ∧ r.keyGeneration = b.keyGeneration ∧ r.keyID = b.recipientKeyID ∧
      (r.kind = .host ↔ b.subjectKind = .host) := by
  unfold bindingRecipient at h
  split at h
  · next hk => cases h; simp [hk]
  · next hk => cases h; simp [hk]
  · next hk => cases h; simp [hk]
  · next hk =>
    split at h
    · cases h; simp [hk]
    · split at h
      · cases h; simp [hk]
      · cases h

theorem bindingRecipient_manager {b : KeyBinding} (h : isManager b = true) :
    bindingRecipient scope state machineID b = some ⟨.manager, b.subjectID, b.keyGeneration, b.recipientKeyID⟩ := by
  simp only [isManager, Bool.or_eq_true, beq_iff_eq] at h
  rcases h with h | h <;> simp [bindingRecipient, h]

/-- The recipients before they are sorted. -/
def Authority.prescribed (a : Authority) (scope : ScopeKind) (state : ScopeState) (machineID : String) :
    List Recipient :=
  a.bindings.filterMap (bindingRecipient scope state machineID)

theorem Authority.mem_prescribed {a : Authority} :
    r ∈ a.prescribed scope state machineID ↔
      ∃ b ∈ a.bindings, bindingRecipient scope state machineID b = some r := by
  rw [Authority.prescribed, List.mem_filterMap]

section

variable (a : Authority)

theorem Authority.prescribed_nodup : (a.prescribed scope state machineID).Nodup := by
  rw [Authority.prescribed, List.Nodup, List.pairwise_filterMap]
  refine a.keys_distinct.imp ?_
  intro b b' hne r hr r' hr' heq
  have h := (bindingRecipient_eq_some hr).2.2.1
  have h' := (bindingRecipient_eq_some hr').2.2.1
  exact hne (by rw [← h, ← h', heq])

theorem Authority.prescribed_valid :
    ∀ r ∈ a.prescribed scope state machineID, validateRecipient r = true := by
  intro r hr
  obtain ⟨b, hb, hbr⟩ := Authority.mem_prescribed.mp hr
  obtain ⟨hs, hg, hk, -⟩ := bindingRecipient_eq_some hbr
  have hv := a.bindings_valid b hb
  simp only [validateBindingClaims, Bool.and_eq_true] at hv
  simp only [validateRecipient, hs, hg, hk, Bool.and_eq_true]
  exact ⟨⟨hv.1.1.2, hv.1.1.1.1.1.2⟩, hv.1.1.1.2⟩

theorem Authority.prescribed_length :
    (a.prescribed scope state machineID).length ≤ maximumManagers + maximumHosts + 1 :=
  (List.length_filterMap_le _ _).trans a.bindings_length

theorem Authority.prescribed_pos : 0 < (a.prescribed scope state machineID).length := by
  obtain ⟨b, hb, hm⟩ := a.exists_manager
  exact List.length_pos_of_mem (Authority.mem_prescribed.mpr ⟨b, hb, bindingRecipient_manager hm⟩)

/-- The scope of a machine whose host is bound has that host as its one host. -/
theorem Authority.countP_host (h : authorityHasHost a machineID = true) :
    (a.prescribed .machine .active machineID).countP (·.kind == .host) = 1 := by
  have hcount : (a.prescribed .machine .active machineID).countP (·.kind == .host) =
      (a.bindings.map fun b => (b.subjectKind, b.subjectID)).count (.host, machineID) := by
    rw [Authority.prescribed, List.countP_filterMap, List.count, List.countP_map]
    refine List.countP_congr fun b _ => ?_
    cases hk : b.subjectKind <;> simp [bindingRecipient, hk]
    split <;> simp_all
  rw [hcount]
  refine List.count_eq_one_of_mem a.subjects_nodup ?_
  simp only [authorityHasHost, List.any_eq_true, Bool.and_eq_true, beq_iff_eq] at h
  obtain ⟨b, hb, hkind, hid⟩ := h
  exact List.mem_map.mpr ⟨b, hb, by rw [hkind, hid]⟩

theorem Authority.expectedRecipients_of
    (h : scope = .machine → (authorityHasHost a machineID = true ↔ state = .active)) :
    a.expectedRecipients scope state machineID = some (sortRecipients (a.prescribed scope state machineID)) := by
  refine if_neg ?_
  rintro ⟨rfl, rfl, hne⟩
  refine hne ?_
  rw [(sortRecipients_perm _).countP_eq]
  exact a.countP_host ((h rfl).mpr rfl)

end

end Prescribed

/-! ### Building -/

def wrapFor (c : ManifestHeader) (ciphertext : Ciphertext) (scopeKey : Nat) (r : Recipient) : RecipientWrap where
  toRecipient := r
  sealedKey := ⟨r.keyID, wrapAAD c ciphertext r, scopeKey⟩

theorem mapM_wrapScopeKey (c : ManifestHeader) (ciphertext : Ciphertext) (scopeKey : Nat) {l : List Recipient}
    (h : ∀ r ∈ l, validateRecipient r = true) :
    l.mapM (wrapScopeKey c ciphertext · scopeKey) = some (l.map (wrapFor c ciphertext scopeKey)) := by
  induction l with
  | nil => rfl
  | cons r rest ih =>
    have hr : wrapScopeKey c ciphertext r scopeKey = some (wrapFor c ciphertext scopeKey r) := by
      rw [wrapScopeKey, if_pos (h r (List.mem_cons_self ..))]
      rfl
    rw [List.mapM_cons, hr, ih fun x hx => h x (List.mem_cons_of_mem _ hx)]
    rfl

/-- What claims and input of the builder have to satisfy under the authority the
manifest is for. -/
structure Buildable (claims : ManifestHeader) (input : BuildManifestInput) (a : Authority) : Prop where
  signer : input.signerPrivate = input.signerKeyID
  authorized : authorizedSigner a input.signerKeyID = true
  account : claims.accountID = a.accountID
  generation : claims.authorityGeneration = a.generation
  authorityID : claims.authorityID = a.id
  version : validInteger claims.version = true
  previousVersion : claims.previousVersion ≤ maximumContractInteger
  keyEpoch : validInteger claims.keyEpoch = true
  operationID : claims.operationID ≠ 0
  salt : input.salt.length = 32
  nonce : input.nonce.length = 12
  machine : validMachine claims = true
  state : claims.scope = .machine → (authorityHasHost a claims.machineID = true ↔ claims.state = .active)
  changedNames : validateNames claims.changedNames = true
  recipients : input.recipients = sortRecipients (a.prescribed claims.scope claims.state claims.machineID)

section Built

variable {claims : ManifestHeader} {input : BuildManifestInput} {a : Authority} {entries : Values} {padded : Nat}

def builtHeader (claims : ManifestHeader) (input : BuildManifestInput) (entries : Values) : ManifestHeader :=
  { claims with names := entries.map Prod.fst, salt := input.salt, nonce := input.nonce }

/-- The manifest that the builder assembles once the plaintext is encoded and padded. -/
def built (claims : ManifestHeader) (input : BuildManifestInput) (entries : Values) (padded : Nat) : Manifest :=
  let header := builtHeader claims input entries
  let ciphertext : Ciphertext := ⟨input.scopeKey, header, entries, padded⟩
  { toManifestHeader := header, ciphertext := ciphertext,
    wraps := input.recipients.map (wrapFor header ciphertext input.scopeKey),
    signerKeyID := input.signerKeyID, signature := ⟨input.signerPrivate, input.signature⟩ }

theorem built_recipients : (built claims input entries padded).recipients = input.recipients := by
  simp only [built, ManifestClaims.recipients, List.map_map]
  exact List.map_id _

theorem padPlaintext_of_encodeScope (h : encodeScope values = some entries) :
    ∃ padded, padPlaintext entries = some padded ∧ padded ∈ paddingBuckets ∧ plaintextSize entries + 4 ≤ padded := by
  have hsize : plaintextSize entries ≤ maximumScopeBytes := (encodeScope_eq_some h).2.2.2
  have hfind : (padPlaintext entries).isSome := by
    rw [padPlaintext, List.find?_isSome]
    refine ⟨524288, by decide, ?_⟩
    simp only [maximumScopeBytes, decide_eq_true_eq] at hsize ⊢
    omega
  obtain ⟨padded, hp⟩ := Option.isSome_iff_exists.mp hfind
  have hle := List.find?_some hp
  simp only [decide_eq_true_eq] at hle
  exact ⟨padded, hp, List.mem_of_find?_eq_some hp, by omega⟩

section

variable (h : Buildable claims input a)

include h

theorem Buildable.strict : input.recipients.Pairwise fun a b => recipientLess a b = true := by
  rw [h.recipients]
  exact sortRecipients_strict a.prescribed_nodup

theorem Buildable.recipient_valid : ∀ r ∈ input.recipients, validateRecipient r = true := by
  intro r hr
  rw [h.recipients, (sortRecipients_perm _).mem_iff] at hr
  exact a.prescribed_valid r hr

theorem Buildable.expected :
    a.expectedRecipients claims.scope claims.state claims.machineID = some input.recipients := by
  rw [h.recipients]
  exact a.expectedRecipients_of h.state

theorem Buildable.wraps_valid : (built claims input entries padded).wraps.all validateWrap = true := by
  rw [List.all_eq_true]
  intro w hw
  obtain ⟨r, hr, rfl⟩ := List.mem_map.mp hw
  have hv := h.recipient_valid r hr
  simp only [validateRecipient, Bool.and_eq_true] at hv
  simp [validateWrap, wrapFor, hv]

theorem Buildable.wraps_length :
    0 < (built claims input entries padded).wraps.length ∧
      (built claims input entries padded).wraps.length ≤ maximumManagers + maximumHosts + 1 := by
  have hlen : (built claims input entries padded).wraps.length =
      (a.prescribed claims.scope claims.state claims.machineID).length := by
    rw [built, List.length_map, h.recipients, (sortRecipients_perm _).length_eq]
  rw [hlen]
  exact ⟨a.prescribed_pos, a.prescribed_length⟩

theorem Buildable.claims_valid (hnames : validateNames (entries.map Prod.fst) = true)
    (hpad : padded ∈ paddingBuckets) (b : Option Authority)
    (hb : b.all (validateAgainst (built claims input entries padded).toManifestClaims) = true) :
    validateManifestClaims (built claims input entries padded).toManifestClaims b = true := by
  have hacc : validIdentifier claims.accountID = true := by
    rw [h.account]
    exact a.accountID_valid
  have hgen : 0 < claims.authorityGeneration := by
    rw [h.generation]
    exact a.generation_pos
  have hchain : (built claims input entries padded).recipients.IsChain fun a b => recipientLess a b = true := by
    rw [built_recipients]
    exact h.strict.isChain
  have hlen : 0 < (built claims input entries padded).wraps.length ∧
      (built claims input entries padded).wraps.length ≤ maximumManagers + maximumHosts + 1 := h.wraps_length
  have hmach : validMachine (built claims input entries padded).toManifestHeader = true := h.machine
  have hpad' : paddingBuckets.contains (built claims input entries padded).ciphertext.padded = true :=
    List.contains_iff_mem.mpr hpad
  simp only [validateManifestClaims, hb, hmach, hpad', h.wraps_valid, hlen, hchain, Bool.and_true, decide_true]
  simp only [built, builtHeader, hacc, hgen, h.version, h.previousVersion, h.keyEpoch, h.salt, h.nonce, hnames,
    h.changedNames, decide_true, beq_self_eq_true, Bool.and_true, Bool.true_and]
  exact bne_iff_ne.mpr h.operationID

end

section

variable (h : Buildable claims input a) (henc : encodeScope input.values = some entries)
  (hpad : padPlaintext entries = some padded)

include h henc hpad

/-- The builder succeeds on what can be encoded. -/
theorem Buildable.buildManifest_eq :
    buildManifest claims input = some (built claims input entries padded) := by
  have hmem : padded ∈ paddingBuckets := List.mem_of_find?_eq_some hpad
  have hnames := (encodeScope_eq_some henc).2.1
  have hvalid : validateManifestClaims (built claims input entries padded).toManifestClaims none = true :=
    h.claims_valid hnames hmem none rfl
  simp only [buildManifest, h.signer, bne_self_eq_false, Bool.false_eq_true, if_false, henc, hpad,
    sortRecipients_of_strict h.strict, mapM_wrapScopeKey _ _ _ h.recipient_valid, Option.bind_eq_bind,
    Option.bind_some]
  refine (if_pos hvalid).trans ?_
  rw [built, h.signer]
  rfl

theorem Buildable.parsed : Parsed (built claims input entries padded) a where
  signer := h.authorized
  signature := h.signer
  account := h.account
  generation := h.generation
  authorityID := h.authorityID
  claims := by
    have hmem : padded ∈ paddingBuckets := List.mem_of_find?_eq_some hpad
    refine h.claims_valid (encodeScope_eq_some henc).2.1 hmem (some a) ?_
    rw [Option.all_some, validateAgainst, built_recipients, Bool.and_eq_true]
    refine ⟨?_, beq_iff_eq.mpr h.expected⟩
    rw [Bool.or_eq_true, bne_iff_ne, beq_iff_eq]
    by_cases hscope : claims.scope = .machine
    · right
      have hstate := h.state hscope
      rw [Bool.eq_iff_iff, beq_iff_eq]
      exact hstate
    · exact Or.inl hscope

end

/-- Every recipient that holds its key reads back what was put in. -/
theorem built_decrypt (hnodup : input.recipients.Nodup) (henc : encodeScope input.values = some entries)
    (hpad : padPlaintext entries = some padded) {r : RecipientPrivate} (hr : r.toRecipient ∈ input.recipients)
    (hkey : r.privateKey = r.keyID) :
    decryptManifest (built claims input entries padded) r = some ⟨entries, input.scopeKey⟩ := by
  have hselect : selectWrap (built claims input entries padded).wraps r.toRecipient =
      some (wrapFor (builtHeader claims input entries) (built claims input entries padded).ciphertext
        input.scopeKey r.toRecipient) := by
    have hfilter : input.recipients.filter (fun x => x == r.toRecipient) = [r.toRecipient] := by
      rw [List.filter_beq, List.count_eq_one_of_mem hnodup hr]
      rfl
    have hwraps : (built claims input entries padded).wraps.filter (fun w => w.toRecipient == r.toRecipient) =
        [wrapFor (builtHeader claims input entries) (built claims input entries padded).ciphertext
          input.scopeKey r.toRecipient] := by
      rw [built, List.filter_map]
      exact congrArg (List.map _) hfilter
    rw [selectWrap, hwraps]
  have hmem : padded ∈ paddingBuckets := List.mem_of_find?_eq_some hpad
  obtain ⟨q, hq, -, hfit⟩ := padPlaintext_of_encodeScope henc
  cases hpad.symm.trans hq
  simp only [decryptManifest, hselect, openScopeKey, wrapFor, hkey, Option.bind_eq_bind, Option.bind_some]
  simp only [built, builtHeader, beq_self_eq_true, Bool.and_true, if_true, Option.bind_some,
    List.contains_iff_mem.mpr hmem, hfit, decide_true, decodeScope_of_encodeScope henc]

theorem mapM_wrapScopeKey_eq_some {l : List Recipient}
    (h : l.mapM (wrapScopeKey c ciphertext · scopeKey) = some wraps) :
    wraps = l.map (wrapFor c ciphertext scopeKey) := by
  induction l generalizing wraps with
  | nil => exact (Option.some.inj h).symm
  | cons r rest ih =>
    simp only [List.mapM_cons, Option.bind_eq_bind, Option.bind_eq_some_iff] at h
    obtain ⟨w, hw, ws, hws, h⟩ := h
    rw [wrapScopeKey] at hw
    split at hw
    · cases hw
      rw [List.map_cons, ← ih hws]
      exact (Option.some.inj h).symm
    · cases hw

/-- What a successful build has put together. -/
theorem buildManifest_eq_some {m : Manifest} (h : buildManifest claims input = some m) :
    ∃ entries padded, encodeScope input.values = some entries ∧ padPlaintext entries = some padded ∧
      m = built claims { input with recipients := sortRecipients input.recipients } entries padded ∧
      validateManifestClaims m.toManifestClaims none = true := by
  simp only [buildManifest, Option.bind_eq_bind] at h
  split at h
  · cases h
  · simp only [Option.bind_eq_some_iff] at h
    obtain ⟨entries, henc, padded, hpad, wraps, hwraps, h⟩ := h
    rw [mapM_wrapScopeKey_eq_some hwraps] at h
    split at h
    · next hvalid =>
      cases h
      exact ⟨entries, padded, henc, hpad, rfl, hvalid⟩
    · cases h

end Built

end Paperboat.EnvironmentE2EE
