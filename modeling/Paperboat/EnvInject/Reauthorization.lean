import Paperboat.EnvInject.Recovery

/-! A host that is authorized again. After deliveries that never revoked it the host takes
the pages up to the latest authority and then the latest pair, and holds its values. A
revocation stays: the page that authorizes the host again is refused. -/

namespace Paperboat.EnvInject

open EnvironmentE2EE Transition CryptoProcessor

namespace Following

variable {p : CryptoProcessor} {sys sys' : Following}

/-! ### The first pair -/

/-- The first pair can be opened: the authority before it does not bind the key, its
global manifest follows an earlier one, and both manifests open. -/
structure FirstPair (p : CryptoProcessor) (sv : Service) (r : RecipientPrivate) : Prop where
  opens : ∃ u before a w g m, sv.authorities = u ++ before :: a :: w ∧
    (∀ x ∈ u ++ [before], p.hostAuthorized x = false) ∧ p.hostAuthorized a = true ∧
    bindsRecipient before r.toRecipient = false ∧ sv.global.find? (fun x => decide (x.authority = a)) = some g ∧
    sv.machine.find? (fun x => decide (x.authority = a)) = some m ∧ 0 < g.manifest.previousVersion ∧
    (openPair g.manifest m.manifest r).isSome = true

variable {r : RecipientPrivate} {a before head : Authority} {u w : List Authority}
    {d : FirstHostDelivery} {bundle : Bundle} {g m : Link}

theorem recipient_fields (h : p.recipient = some r) :
    r.kind = .host ∧ r.subjectID = p.identity.machineID ∧ r.keyGeneration = p.identity.hostKeyGeneration ∧
      r.keyID = p.identity.hostRecipientKeyID := by
  obtain ⟨material, -, h⟩ := Option.bind_eq_some_iff.mp h
  split at h
  · cases h
    exact ⟨rfl, rfl, rfl, rfl⟩
  · cases h

theorem bindsRecipient_of_authorized (hr : p.recipient = some r)
    (h : p.hostAuthorized a = true) : bindsRecipient a r.toRecipient = true := by
  obtain ⟨-, hsubj, hgeneration, hkey⟩ := recipient_fields hr
  obtain ⟨b, hb, hmatch⟩ := List.any_eq_true.mp h
  refine List.any_eq_true.mpr ⟨b, hb, ?_⟩
  simp only [Bool.and_eq_true, beq_iff_eq] at hmatch ⊢
  obtain ⟨⟨⟨⟨hkind, hid⟩, -⟩, hgen⟩, hkeyID⟩ := hmatch
  exact ⟨⟨⟨hkind, by rw [hid, hsubj]⟩, by rw [hgen, hgeneration]⟩, by rw [hkeyID, hkey]⟩

section

variable (hskip : ∀ x ∈ u ++ [before], p.hostAuthorized x = false) (ha : p.hostAuthorized a = true)

include hskip ha

theorem firstAuthorized_split : p.firstAuthorized (u ++ before :: a :: w) = [before.id, a.id] := by
  induction u with
  | nil => simp [firstAuthorized, hskip before (by simp), ha]
  | cons x u ih =>
    have hx := hskip x (by simp)
    have hrest := ih fun y hy => hskip y (List.mem_cons_of_mem _ hy)
    cases u with
    | nil => simpa [firstAuthorized, hx, hskip before (by simp)] using hrest
    | cons y u => simpa [firstAuthorized, hx, hskip y (by simp)] using hrest

/-- Of a chain whose host has no manifests the authority before the first one that
authorizes the host is kept first. -/
theorem keep_split (hnodup : ((u ++ before :: a :: w).map (·.id)).Nodup) :
    ∃ rest, p.keep [] true (u ++ before :: a :: w) = before :: a :: rest := by
  obtain ⟨last, hlast⟩ : ∃ last, (a :: w).getLast? = some last := Option.isSome_iff_exists.mp (by simp)
  have hend : (u ++ before :: a :: w).getLast? = some last := by
    rw [List.getLast?_append, List.getLast?_cons_cons, hlast]
    rfl
  have hwanted : p.wantedIDs [] true (u ++ before :: a :: w) = [before.id, a.id, last.id] := by
    simp [wantedIDs, firstAuthorized_split hskip ha, hend]
  have hlater : ∀ x ∈ u, x.id ∉ [before.id, a.id, last.id] := by
    intro x hx hmem
    rw [List.map_append, List.nodup_append] at hnodup
    have hin : x.id ∈ (before :: a :: w).map (·.id) := by
      simp only [List.mem_cons, List.not_mem_nil, or_false] at hmem
      rcases hmem with h | h | h
      · simp [h]
      · simp [h]
      · exact List.mem_map.mpr ⟨last, List.mem_cons_of_mem _ (List.mem_of_getLast? hlast), h.symm⟩
    exact hnodup.2.2 x.id (List.mem_map_of_mem hx) x.id hin rfl
  have hdrop : u.filter (fun x => [before.id, a.id, last.id].contains x.id) = [] := by
    rw [List.filter_eq_nil_iff]
    intro x hx
    simpa using hlater x hx
  refine ⟨w.filter fun x => [before.id, a.id, last.id].contains x.id, ?_⟩
  rw [keep, hwanted, List.filter_append, hdrop, List.nil_append, List.filter_cons_of_pos (by simp),
    List.filter_cons_of_pos (by simp)]

omit hskip ha in
theorem stringValues_effective {g m : Manifest}
    (h : openPair g m r = some d) : stringValues d.effective = some d.effective := by
  simp only [openPair, Option.bind_eq_bind, Option.bind_eq_some_iff] at h
  obtain ⟨_, -, _, -, effective, hmerge, heq⟩ := h
  cases heq
  exact if_pos (validateVariables_of_encodable (encodable_of_mergeScopes hmerge))

omit hskip ha in
/-- The links between which the host's deliveries are compared. -/
theorem Honest.latest_opens (h : Honest p sys)
    (hl : Latest p sys bundle head g m) (hr : p.recipient = some r)
    (hauth : p.hostAuthorized head = true) (hog : og ∈ sys.service.global)
    (hom : om ∈ sys.service.machine) (hsame : om.authority = og.authority) :
    validateLatestAfterFirstDelivery og.manifest om.manifest g.manifest m.manifest og.authority head r =
      openPair g.manifest m.manifest r := by
  obtain ⟨hkind, hsubj, -, -⟩ := recipient_fields hr
  have hhist : Histories sys.service.global sys.service.machine r.subjectID := by
    rw [hsubj]
    exact h.histories
  have hhead := List.mem_of_getLast? hl.latest
  have hold := h.links og (Or.inl hog)
  have hown : ∀ a ∈ sys.service.authorities, a.accountID = p.identity.accountID := by
    intro a ha
    have hparse := h.retained.parsed a ha
    simpa using (Option.filter_eq_some_iff.mp hparse).2
  exact hhist.accepts_latest hkind hog hom rfl hsame hl.global hl.machine hl.globalHead hl.machineHead
    (by rw [hown _ hold, hown _ hhead]) (h.generation_inj hold hhead) (bindsRecipient_of_authorized hr hauth)

theorem find_split : (u ++ before :: a :: w).find? p.hostAuthorized = some a := by
  have hnone : (u ++ [before]).find? p.hostAuthorized = none :=
    List.find?_eq_none.mpr fun x hx => by simp [hskip x hx]
  rw [List.append_cons, List.find?_append, hnone, Option.none_or, List.find?_cons_of_pos ha]

end

section

variable (h : Honest p sys) (hl : Latest p sys bundle head g m) (hr : p.recipient = some r)
  (hauth : p.hostAuthorized head = true) (hopen : openPair g.manifest m.manifest r = some d)

include h hl hr hauth hopen

/-- A host without manifests gets the values of the latest pair. -/
theorem Honest.first_values (hless : manifestless sys.store.cache = true)
    (hfirst : FirstPair p sys.service r) :
    p.validateFirstDelivery bundle.bootstrap (p.keep [] true sys.service.authorities) head g.manifest m.manifest =
      some d.effective := by
  obtain ⟨u, before, a, w, fg, fm, hchain, hskip, ha, hbef, hfg, hfm, holder, hopens⟩ := hfirst.opens
  obtain ⟨boot, hboot, hbundle⟩ := hl.first hless
  have hbooted : boot = ⟨cursorOf a, envelopeOf fg.manifest, envelopeOf fm.manifest⟩ := by
    rw [Service.bootstrap, hchain, find_split hskip ha] at hboot
    simp only [Option.bind_eq_bind, Option.bind_some, hfg, hfm, Option.some.injEq] at hboot
    exact hboot.symm
  have hfgm := List.mem_of_find?_eq_some hfg
  have hfmm := List.mem_of_find?_eq_some hfm
  have hfga : fg.authority = a := by simpa using List.find?_some hfg
  have hfma : fm.authority = a := by simpa using List.find?_some hfm
  have hgresponse := response_self (h.histories.global.sound hfgm).parsed
  have hmresponse := response_self (h.histories.machine.sound hfmm).parsed
  rw [hfga] at hgresponse
  rw [hfma] at hmresponse
  have htrans : validateAuthorityTransition (some before) a = true := by
    have hext := h.chain
    rw [hchain, List.append_cons, extends_append, List.getLast?_concat, Option.some_or] at hext
    exact hext.2.2.1
  obtain ⟨rest, hkeep⟩ := keep_split hskip ha (hchain ▸ h.retained.nodup)
  have hprior : priorAuthority (some before) a = some (some before) ∧ before.generation < a.generation := by
    simp only [validateAuthorityTransition, Bool.and_eq_true, beq_iff_eq] at htrans
    obtain ⟨⟨-, hgen⟩, hprev⟩ := htrans
    exact ⟨by simp [priorAuthority, hprev, hgen], by omega⟩
  have hcurs : authorityForCursor (before :: a :: rest) (cursorOf a) = some (some before, a) := by
    have hne : cursorOf before ≠ cursorOf a := fun heq => by
      have hlt := hprior.2
      rw [cursorOf_injective heq] at hlt
      exact lt_irrefl _ hlt
    simp [authorityForCursor, authorityForCursor.go, hne]
  obtain ⟨hkind, hsubj, -, -⟩ := recipient_fields hr
  have hhist : Histories sys.service.global sys.service.machine r.subjectID := by
    rw [hsubj]
    exact h.histories
  have hfirstPair := hhist.accepts_first hkind htrans hbef (bindsRecipient_of_authorized hr ha) hfg hfm holder
  obtain ⟨d', hd'⟩ := Option.isSome_iff_exists.mp hopens
  have hlat := h.latest_opens hl hr hauth hfgm hfmm (by rw [hfga, hfma])
  rw [hfga] at hlat
  rw [hd'] at hfirstPair
  rw [hopen] at hlat
  rw [hchain, hkeep, hbundle, hbooted]
  simp [validateFirstDelivery, Option.filter_some, validAuthorityCursor_cursorOf, hcurs, hprior.1, hgresponse,
    hmresponse, hr, hfirstPair,
    hlat, stringValues_effective hopen]

/-- A host with manifests gets the values of the latest pair. -/
theorem Honest.next_values {current : List Authority}
    (hparse : p.parseAuthorities sys.store.cache.authorityDocuments = some current)
    {eg em : ManifestEnvelope} (heg : sys.store.cache.globalManifest = some eg)
    (hem : sys.store.cache.machineManifest = some em) :
    p.validateNextDelivery current head eg em g.manifest m.manifest = some d.effective := by
  obtain ⟨k, hk⟩ := h.holds
  obtain ⟨og, hog, om, hom, rfl, rfl, hsame⟩ := hk.pair eg em heg hem
  obtain ⟨v, hv⟩ := h.verified
  obtain ⟨-, ⟨hblank, -⟩ | ⟨-, authorities, last, hparse', -, hat⟩⟩ := restore_cases hv
  · simp [isBlank, heg] at hblank
  rw [hparse] at hparse'
  cases hparse'
  simp only [restoreAt, h.unrevoked, Bool.false_eq_true, if_false, heg, hem] at hat
  obtain ⟨hgsome, hmsome⟩ := restorePair_isSome hat
  have hfound : ∀ {y : Link} {found : Manifest × Authority}, Parsed y.manifest y.authority →
      parseCachedManifest (envelopeOf y.manifest) current = some found → found = (y.manifest, y.authority) := by
    rintro y ⟨n, a⟩ hparsed hfound
    have hresp := (response_of_cached hfound).2
    have hid := authorityID_of_response hresp
    have hauthority : a = y.authority := Authority.id_injective (hid.symm.trans hparsed.authorityID)
    rw [hauthority, response_self hparsed] at hresp
    rw [hauthority, Option.some.inj hresp]
  obtain ⟨fg, hfg⟩ := Option.isSome_iff_exists.mp hgsome
  obtain ⟨fm, hfm⟩ := Option.isSome_iff_exists.mp hmsome
  have hgeq := hfound (h.histories.global.sound hog).parsed hfg
  have hmeq := hfound (h.histories.machine.sound hom).parsed hfm
  have hlat := h.latest_opens hl hr hauth hog hom hsame.symm
  rw [hopen] at hlat
  rw [hsame] at hlat hgeq
  simp [validateNextDelivery, hfg, hfm, hgeq, hmeq, hr, validateLatestAfterHighWater, hlat,
    stringValues_effective hopen]

end

/-- At the latest authority the pair is accepted. -/
theorem Honest.apply_pair_eq (h : Honest p sys)
    (hl : Latest p sys bundle head g m) (hk : At p sys.service sys.store.cache sys.service.authorities.length)
      (hr : p.recipient = some r) (hauth : p.hostAuthorized head = true)
    (hopen : openPair g.manifest m.manifest r = some d)
    (hfirst : manifestless sys.store.cache = true → FirstPair p sys.service r) :
    ∃ w, p.apply sys.store.cache bundle = some (paired sys.store.cache head g m, w) ∧ w.vars = d.effective ∧
      w.revoked = false := by
  obtain ⟨v, hv⟩ := h.verified
  obtain ⟨current, hparse, hrest⟩ := restorable_of_restore hv
  have hcur : p.retainedAuthorities sys.store.cache = current := by
    rw [retainedAuthorities, hparse, Option.getD_some]
  have hcurs : sys.store.cache.authority = some (cursorOf head) := by
    rw [h.authority_eq hk, List.take_length, hl.latest]
    rfl
  have hhead : headAuthority sys.store.cache current = some head := by
    have hlast := hk.last
    rw [hcur, List.take_length, hl.latest] at hlast
    simp [headAuthority, hlast, hcurs, Option.filter_some]
  obtain ⟨-, hsubj, -, -⟩ := recipient_fields hr
  have hg := List.mem_of_getLast? hl.global
  have hm := List.mem_of_getLast? hl.machine
  have hact : activePair g.manifest.toManifestHeader m.manifest.toManifestHeader r.toRecipient = true := by
    have hhist : Histories sys.service.global sys.service.machine r.subjectID := hsubj ▸ h.histories
    exact hhist.active hg hm (by rw [hl.machineHead]; exact bindsRecipient_of_authorized hr hauth)
  have hgresponse := response_self (h.histories.global.sound hg).parsed
  have hmresponse := response_self (h.histories.machine.sound hm).parsed
  rw [hl.globalHead] at hgresponse
  rw [hl.machineHead] at hmresponse
  have hgactive : isGlobalActive g.manifest = true := by
    simp only [activePair, Bool.and_eq_true] at hact
    simp only [isGlobalActive, Bool.and_eq_true]
    tauto
  have hmactive : p.isMachineActive m.manifest = true := by
    simp only [activePair, Bool.and_eq_true, hsubj] at hact
    simp only [isMachineActive, Bool.and_eq_true]
    tauto
  have hvals : p.deliveredValues sys.store.cache bundle current head g.manifest m.manifest = some d.effective := by
    have hpair := hrest.manifests
    cases heg : sys.store.cache.globalManifest with
    | none =>
      have hem : sys.store.cache.machineManifest = none := by simpa [heg] using hpair
      have hless : manifestless sys.store.cache = true := by simp [manifestless, heg, hem]
      have hkept := hk.pending hless
      rw [hcur, List.take_length] at hkept
      simp only [deliveredValues, heg, hem, hkept]
      exact h.first_values hl hr hauth hopen hless (hfirst hless)
    | some eg =>
      obtain ⟨em, hem⟩ : ∃ em, sys.store.cache.machineManifest = some em :=
        Option.isSome_iff_exists.mp (by rw [← hpair, heg]; rfl)
      have hless : manifestless sys.store.cache = false := by simp [manifestless, heg]
      simp only [deliveredValues, heg, hem, hl.next hless]
      exact h.next_values hl hr hauth hopen hparse heg hem
  refine ⟨{ authority := sys.store.cache.authority, global := some (manifestCursor g.manifest),
            machine := some (manifestCursor m.manifest), vars := d.effective, ready := true }, ?_, rfl, rfl⟩
  rw [hl.apply_eq h.identity, if_pos hcurs]
  simp only [applyPair, hparse, hhead, hgresponse, hmresponse, Option.filter_some, hauth, hgactive, hmactive, hvals,
    if_true, Option.bind_eq_bind, Option.bind_some]
  rfl

theorem reach_honest (h : Reach (step p) (StaysAuthorized p) (init p) sys) : Honest p sys := by
  refine h.invariant init_honest ?_
  intro x y happening hx hok hstep
  cases happening with
  | extend a =>
    obtain ⟨sv, hsv, rfl⟩ := Option.map_eq_some_iff.mp hstep
    exact hx.extend hsv
  | publish m =>
    obtain ⟨sv, hsv, rfl⟩ := Option.map_eq_some_iff.mp hstep
    exact hx.publish hsv
  | page page =>
    obtain ⟨head, hhead, hstep⟩ := Option.bind_eq_some_iff.mp hstep
    split at hstep
    · next hcond =>
      obtain ⟨hne, hlen, hleading⟩ := hcond
      obtain ⟨k, hk⟩ := hx.holds
      obtain ⟨last, hlast⟩ : ∃ last, page.getLast? = some last := Option.isSome_iff_exists.mp (by simpa using hne)
      rw [hx.position_eq hk] at hleading
      obtain ⟨z, hz, -, hhonest, -⟩ := hx.page hk hhead (hok head hhead) hne hlen hleading hlast
      rw [hz] at hstep
      cases hstep
      exact hhonest
    · cases hstep
  | pair =>
    obtain ⟨bundle, hbundle, hstep⟩ := Option.bind_eq_some_iff.mp hstep
    obtain ⟨head, g, m, hl⟩ := pairBundle_cases hbundle
    obtain ⟨z, hz, hhonest, -⟩ := hx.pair hl
    rw [hz] at hstep
    cases hstep
    exact hhonest

/-! ### Recovery -/

/-- What is passed on to a host that the latest authority binds: the pages up to that
authority and the latest pair under it, which the host's key opens. -/
structure Delivers (p : CryptoProcessor) (sys : Following) (pages : List (List Authority)) (r : RecipientPrivate)
    (delivery : FirstHostDelivery) : Prop where
  recipient : p.recipient = some r
  latest : ∃ head g m, sys.service.authorities.getLast? = some head ∧ p.hostAuthorized head = true ∧
    sys.service.global.getLast? = some g ∧ g.authority = head ∧ sys.service.machine.getLast? = some m ∧
    m.authority = head ∧ openPair g.manifest m.manifest r = some delivery
  chain : pages.flatten = sys.service.authorities.drop (position sys.store.cache)
  sizes : ∀ page ∈ pages, page ≠ [] ∧ page.length ≤ 4

/-- The pages bring the host to the latest authority. -/
theorem Honest.pages (h : Honest p sys) {pages : List (List Authority)}
    (hhead : sys.service.authorities.getLast? = some head) (hauth : p.hostAuthorized head = true)
    (hchain : pages.flatten = sys.service.authorities.drop (position sys.store.cache))
    (hsizes : ∀ page ∈ pages, page ≠ [] ∧ page.length ≤ 4) (hpages : p.PagesAuthorize sys.store.cache pages) :
    ∃ sys', run (step p) sys (pages.map .page) = some sys' ∧ sys'.service = sys.service ∧ Honest p sys' ∧
      At p sys.service sys'.store.cache sys.service.authorities.length ∧
      manifestless sys'.store.cache = manifestless sys.store.cache := by
  induction pages generalizing sys with
  | nil =>
    obtain ⟨k, hk⟩ := h.holds
    have hfull : k = sys.service.authorities.length := by
      have hbound := hk.bound
      rw [h.position_eq hk] at hchain
      have hnil := List.drop_eq_nil_iff.mp hchain.symm
      omega
    exact ⟨sys, rfl, rfl, h, hfull ▸ hk, rfl⟩
  | cons page rest ih =>
    obtain ⟨hne, hlen⟩ := hsizes page (List.mem_cons_self ..)
    obtain ⟨last, hlast⟩ : ∃ last, page.getLast? = some last := Option.isSome_iff_exists.mp (by simpa using hne)
    obtain ⟨k, hk⟩ := h.holds
    have hleading : page <+: sys.service.authorities.drop (position sys.store.cache) := ⟨rest.flatten, by
      rw [← hchain, List.flatten_cons]⟩
    have hpos := h.position_eq hk
    obtain ⟨t, ht, hserv, hhonest, hmoves⟩ := h.page hk hhead hauth hne hlen (hpos ▸ hleading) hlast
    have hthis : manifestless sys.store.cache = true ∨ p.hostAuthorized last = true :=
      hpages.imp_right fun hall => hall page (List.mem_cons_self ..) last hlast
    obtain ⟨hat, hless⟩ := hmoves hthis
    rw [← hserv] at hat
    have hrest : p.PagesAuthorize t.store.cache rest := by
      rw [PagesAuthorize, hless]
      exact (pagesAuthorize_cons hlast hthis).mp hpages
    have hdrop : rest.flatten = t.service.authorities.drop (position t.store.cache) := by
      rw [hhonest.position_eq hat, hserv, ← List.drop_drop, ← hpos, ← hchain, List.flatten_cons, List.drop_left]
    have hstep : step p sys (.page page) = some t := by
      simp [step, hhead, hne, hlen, hleading, ht]
    obtain ⟨sys', hrun, hservice', hhonest', hat', hless'⟩ := ih hhonest (by rw [hserv]; exact hhead) hdrop
      (fun q hq => hsizes q (List.mem_cons_of_mem _ hq)) hrest
    refine ⟨sys', ?_, hservice'.trans hserv, hhonest', hserv ▸ hat', hless'.trans hless⟩
    rw [List.map_cons, run_cons hstep]
    exact hrun

/-- After any deliveries that revoked nothing, pages that may be compacted and the latest
pair leave the host ready with the merged values. -/
theorem reauthorized_host_recovers (p : CryptoProcessor) {sys : Following} {pages : List (List Authority)}
    {r : RecipientPrivate} {delivery : FirstHostDelivery}
    (hreach : Reach (step p) (StaysAuthorized p) (init p) sys) (hdelivers : Delivers p sys pages r delivery)
    (hpages : p.PagesAuthorize sys.store.cache pages)
    (hfirst : manifestless sys.store.cache = true → FirstPair p sys.service r) :
    ∃ sys', run (step p) sys (pages.map .page ++ [.pair]) = some sys' ∧ sys'.store.verified.ready = true ∧
      sys'.store.environment = .ok delivery.effective := by
  obtain ⟨head, g, m, hhead, hauth, hg, hga, hm, hma, hopen⟩ := hdelivers.latest
  obtain ⟨t, hrun, hservice, hhonest, hat, hless⟩ :=
    (reach_honest hreach).pages hhead hauth hdelivers.chain hdelivers.sizes hpages
  rw [← hservice] at hhead hg hm hat
  rw [← hless, ← hservice] at hfirst
  have hbundle : (t.service.pairBundle p t.store.cache).isSome = true := by
    cases hmanifests : manifestless t.store.cache with
    | false => simp [Service.pairBundle, hhead, hg, hm, hga, hma, hmanifests, Option.filter_some]
    | true =>
      obtain ⟨u, before, a, w, fg, fm, hchain, hskip, ha, -, hfg, hfm, -⟩ := (hfirst hmanifests).opens
      have hboot : t.service.bootstrap p = some ⟨cursorOf a, envelopeOf fg.manifest, envelopeOf fm.manifest⟩ := by
        rw [Service.bootstrap, hchain, find_split hskip ha]
        simp [hfg, hfm]
      simp [Service.pairBundle, hhead, hg, hm, hga, hma, hmanifests, hboot, Option.filter_some]
  obtain ⟨bundle, hbundle⟩ := Option.isSome_iff_exists.mp hbundle
  obtain ⟨head', g', m', hl⟩ := pairBundle_cases hbundle
  have hheadEq : head' = head := Option.some.inj (hl.latest.symm.trans hhead)
  have hgEq : g' = g := Option.some.inj (hl.global.symm.trans hg)
  have hmEq : m' = m := Option.some.inj (hl.machine.symm.trans hm)
  subst hheadEq hgEq hmEq
  obtain ⟨w, happly, hvars, hrevoked⟩ := hhonest.apply_pair_eq hl hat hdelivers.recipient hauth hopen hfirst
  obtain ⟨sys', hreceive, -, hresult⟩ := hhonest.pair hl
  obtain ⟨hverified, hready⟩ := hresult _ happly
  have hstep : step p t .pair = some sys' := by simp [step, hbundle, hreceive]
  refine ⟨sys', ?_, by rw [hverified]; exact hready, ?_⟩
  · rw [run_append hrun, run_cons hstep]
    rfl
  · simp only at hready
    simp [Store.environment, hverified, hready, hrevoked, hvars]

end Following

namespace Demo

open EnvironmentE2EE.Demo EnvironmentManager.Demo Following

/-- The manifests while the laptop is left out, and those under the authority that binds
it again. -/
def sharedRotated : Manifest := (publish unbound .global "" .active .rotate 3 2 [] []).get (by decide +kernel)
def ownRetired : Manifest := (publish unbound .machine "laptop" .retired .rotate 2 2 [] []).get (by decide +kernel)
def sharedBack : Manifest := (publish back .global "" .active .reauthorize 4 2 [] []).get (by decide +kernel)
def ownBack : Manifest := (publish back .machine "laptop" .active .reauthorize 3 2 [] []).get (by decide +kernel)

def firstDelivery : List Happening :=
  [.extend genesis, .publish global1, .extend bound, .publish sharedEmpty, .publish ownEmpty, .page [genesis, bound], .pair]

def leftOut : List Happening := [.extend unbound, .publish sharedRotated, .publish ownRetired]

def boundAgain : List Happening := [.extend back, .publish sharedBack, .publish ownBack]

/-- The laptop is told that it was left out before it is bound again. -/
def laptopRevoked : Following :=
  final (step laptopHost) (init laptopHost) (firstDelivery ++ leftOut ++ [.page [unbound]] ++ boundAgain) (by decide +kernel)

/-- The laptop hears nothing before it is bound again. -/
def laptopAway : Following :=
  finalChecked (step laptopHost) (StaysAuthorized laptopHost) (init laptopHost) (firstDelivery ++ leftOut ++ boundAgain)
    (by decide +kernel)

theorem laptopRevoked_reach : Reach (step laptopHost) Always (init laptopHost) laptopRevoked := reach_final _ _

theorem laptopAway_reach : Reach (step laptopHost) (StaysAuthorized laptopHost) (init laptopHost) laptopAway :=
  reach_finalChecked _ _

def laptopKey : RecipientPrivate := laptopHost.recipient.get (by decide +kernel)

def backDelivery : FirstHostDelivery := (openPair sharedBack ownBack laptopKey).get (by decide +kernel)

/-- What is published when the laptop is bound again. -/
def backService : Service where
  authorities := [genesis, bound, unbound, back]
  global := [⟨global1, genesis⟩, ⟨sharedEmpty, bound⟩, ⟨sharedRotated, unbound⟩, ⟨sharedBack, back⟩]
  machine := [⟨ownEmpty, bound⟩, ⟨ownRetired, unbound⟩, ⟨ownBack, back⟩]

theorem laptopRevoked_fields : laptopRevoked.service = backService ∧ position laptopRevoked.store.cache = 3 ∧
    manifestless laptopRevoked.store.cache = true := by decide +kernel

theorem laptopAway_fields : laptopAway.service = backService ∧ position laptopAway.store.cache = 2 ∧
    manifestless laptopAway.store.cache = false := by decide +kernel

theorem delivers_back {pages : List (List Authority)} (hserv : sys.service = backService)
    (hchain : pages.flatten = backService.authorities.drop (position sys.store.cache))
    (hsizes : ∀ page ∈ pages, page ≠ [] ∧ page.length ≤ 4) : Delivers laptopHost sys pages laptopKey backDelivery where
  recipient := by decide +kernel
  latest := by
    rw [hserv]
    exact ⟨back, ⟨sharedBack, back⟩, ⟨ownBack, back⟩, rfl, by decide +kernel, rfl, rfl, rfl, rfl, by decide +kernel⟩
  chain := by
    rw [hserv]
    exact hchain
  sizes := hsizes

theorem firstPair_back : FirstPair laptopHost backService laptopKey :=
  ⟨[], genesis, bound, [unbound, back], ⟨sharedEmpty, bound⟩, ⟨ownEmpty, bound⟩, rfl, by decide +kernel,
    by decide +kernel, by decide +kernel, by decide +kernel, by decide +kernel, by decide +kernel, by decide +kernel⟩

/-- The revoked laptop refuses the page that binds it again, and the pair after it. -/
theorem revoked_host_stays_out :
    ¬ ∀ (p : CryptoProcessor) (sys : Following) (pages : List (List Authority)) (r : RecipientPrivate)
      (delivery : FirstHostDelivery), Reach (step p) Always (init p) sys → Delivers p sys pages r delivery →
      p.PagesAuthorize sys.store.cache pages → (manifestless sys.store.cache = true → FirstPair p sys.service r) →
      ∃ sys', run (step p) sys (pages.map .page ++ [.pair]) = some sys' ∧ sys'.store.verified.ready = true ∧
        sys'.store.environment = .ok delivery.effective := by
  intro h
  have hdelivers : Delivers laptopHost laptopRevoked [[back]] laptopKey backDelivery :=
    delivers_back laptopRevoked_fields.1 (by rw [laptopRevoked_fields.2.1]; rfl) (by simp)
  obtain ⟨sys', hrun, hready, -⟩ := h laptopHost laptopRevoked [[back]] laptopKey backDelivery laptopRevoked_reach hdelivers
    (Or.inl laptopRevoked_fields.2.2) fun _ => laptopRevoked_fields.1 ▸ firstPair_back
  have hout : (run (step laptopHost) laptopRevoked [.page [back], .pair]).all (fun t => !t.store.verified.ready) = true := by
    decide +kernel
  have hrun' : run (step laptopHost) laptopRevoked [.page [back], .pair] = some sys' := hrun
  rw [hrun', Option.all_some, hready] at hout
  cases hout

theorem reauthorized_laptop_recovers :
    ∃ sys', run (step laptopHost) laptopAway [.page [unbound, back], .pair] = some sys' ∧
      sys'.store.verified.ready = true ∧ sys'.store.environment = .ok backDelivery.effective := by
  refine reauthorized_host_recovers laptopHost laptopAway_reach
    (@delivers_back laptopAway [[unbound, back]] laptopAway_fields.1 (by rw [laptopAway_fields.2.1]; rfl) (by simp))
    (Or.inr ?_) fun hless => ?_
  · rintro page hpage a ha
    rw [List.mem_singleton.mp hpage] at ha
    cases ha
    decide +kernel
  · exact absurd (laptopAway_fields.2.2.symm.trans hless) (by decide)

end Demo

end Paperboat.EnvInject
