import Paperboat.EnvInject.Rollback

/-! Authority paging. A chain of authorities reaches the host in pages, and after each page
the processor keeps at most three documents. Compacting after every page leaves what
compacting once at the end leaves. -/

namespace Paperboat.EnvInject.CryptoProcessor

open EnvironmentE2EE

variable {p : CryptoProcessor}

/-! ### Retained documents -/

variable {a b last head : Authority} {authorities l m current page : List Authority}
    {base : List DocumentID} {first : Bool} {document : ManifestEnvelope} {cache : Cache}
    {v : Verified}

theorem retains_trans (h : retains a b = true) (h' : retains b c = true) : retains a c = true := by
  simp only [retains, Bool.and_eq_true, decide_eq_true_eq, beq_iff_eq] at h h' ⊢
  refine ⟨⟨by omega, ?_⟩, h.2.trans h'.2⟩
  have hne : a.generation + 1 ≠ c.generation := by omega
  simp [hne]

instance : IsTrans Authority (fun a b => retains a b = true) := ⟨fun _ _ _ => retains_trans⟩

/-- Documents that the processor parses and keeps in order. -/
structure Retained (p : CryptoProcessor) (authorities : List Authority) : Prop where
  parsed : ∀ a ∈ authorities, p.parseOwn a.raw = some a
  ordered : authorities.Pairwise fun a b => retains a b = true

variable {docs : List AuthorityDocument} {previous : Option Authority} {g : ManifestEnvelope}
    {more : Bool} {next : Cache} {pages : List (List Authority)}

theorem mapM_parseOwn :
    docs.mapM p.parseOwn = some authorities ↔
      authorities.map (·.raw) = docs ∧ ∀ a ∈ authorities, p.parseOwn a.raw = some a := by
  induction docs generalizing authorities with
  | nil =>
    simp only [List.mapM_nil, Option.pure_def, Option.some.injEq, List.map_eq_nil_iff]
    refine ⟨?_, fun h => h.1.symm⟩
    rintro rfl
    exact ⟨rfl, by simp⟩
  | cons doc rest ih =>
    simp only [List.mapM_cons, Option.bind_eq_bind, Option.bind_eq_some_iff, ih, Option.pure_def,
      Option.some.injEq]
    constructor
    · rintro ⟨a, ha, tail, ⟨hraw, hparse⟩, rfl⟩
      have hdoc := parseOwn_raw ha
      refine ⟨by rw [List.map_cons, hraw, hdoc], ?_⟩
      rintro b (_ | ⟨_, hb⟩)
      · rw [hdoc]
        exact ha
      · exact hparse b hb
    · rintro ⟨hmap, hparse⟩
      cases authorities with
      | nil => cases hmap
      | cons a tail =>
        cases hmap
        exact ⟨a, hparse a (List.mem_cons_self ..), tail, ⟨rfl, fun b hb => hparse b (List.mem_cons_of_mem _ hb)⟩, rfl⟩

theorem parseAuthorities_iff :
    p.parseAuthorities docs = some authorities ↔ authorities.map (·.raw) = docs ∧ p.Retained authorities := by
  simp only [parseAuthorities, Option.bind_eq_bind, Option.bind_eq_some_iff, mapM_parseOwn]
  constructor
  · rintro ⟨as, ⟨hraw, hparse⟩, hif⟩
    split at hif
    · next hchain =>
      cases hif
      exact ⟨hraw, hparse, List.isChain_iff_pairwise.mp hchain⟩
    · cases hif
  · rintro ⟨hraw, hparse, hpair⟩
    exact ⟨authorities, ⟨hraw, hparse⟩, if_pos (List.isChain_iff_pairwise.mpr hpair)⟩

theorem Retained.sublist (h : p.Retained m) (hsub : l.Sublist m) : p.Retained l :=
  ⟨fun a ha => h.parsed a (hsub.subset ha), h.ordered.sublist hsub⟩

theorem Retained.generation_lt (h : p.Retained l) :
    l.Pairwise fun a b => a.generation < b.generation := by
  refine h.ordered.imp fun hr => ?_
  simp only [retains, Bool.and_eq_true, decide_eq_true_eq] at hr
  exact hr.1.1

theorem Retained.nodup (h : p.Retained l) : (l.map (·.id)).Nodup := by
  refine (List.pairwise_map.mpr (h.generation_lt.imp fun hlt heq => ?_))
  rw [Authority.id_injective heq] at hlt
  exact lt_irrefl _ hlt

/-! ### The first authority that authorizes the host -/

theorem firstAuthorized_cons_of_authorized (l : List Authority) (h : p.hostAuthorized a = true) :
    p.firstAuthorized (a :: l) = [a.id] := by
  cases l <;> simp [firstAuthorized, h]

theorem firstAuthorized_eq_nil : p.firstAuthorized l = [] ↔ ∀ a ∈ l, p.hostAuthorized a = false := by
  fun_induction firstAuthorized p l <;> simp_all

/-- The identifiers are of authorities of the list, at most two. -/
theorem firstAuthorized_subset (l : List Authority) : p.firstAuthorized l ⊆ l.map (·.id) := by
  fun_induction firstAuthorized p l with
  | case1 | case2 | case3 | case4 | case5 => simp
  | case6 a b rest h h' ih => exact fun x hx => List.mem_cons_of_mem _ (ih hx)

theorem firstAuthorized_length (l : List Authority) : (p.firstAuthorized l).length ≤ 2 := by
  fun_induction firstAuthorized p l <;> simp_all

/-- A list that begins with an authority that does not authorize the host. -/
theorem firstAuthorized_cons_skip (ha : p.hostAuthorized a = false)
    (hl : ∀ b, l.head? = some b → p.hostAuthorized b = false) : p.firstAuthorized (a :: l) = p.firstAuthorized l := by
  cases l with
  | nil => simp [firstAuthorized, ha]
  | cons b rest =>
    have hb := hl b rfl
    simp [firstAuthorized, ha, hb]

theorem firstAuthorized_append (h : p.firstAuthorized l ≠ []) :
    p.firstAuthorized (l ++ m) = p.firstAuthorized l := by
  fun_induction firstAuthorized p l with
  | case1 => exact absurd rfl h
  | case2 a ha => exact firstAuthorized_cons_of_authorized _ ha
  | case3 a ha => exact absurd rfl h
  | case4 a b rest ha => exact firstAuthorized_cons_of_authorized _ ha
  | case5 a b rest ha hb => simp [firstAuthorized, ha, hb]
  | case6 a b rest ha hb ih =>
    rw [List.cons_append, firstAuthorized_cons_skip (by simpa using ha) (by simpa using hb)]
    exact ih h

/-- Where nobody is authorized yet, only the last authority matters. -/
theorem firstAuthorized_append_of_none (h : p.firstAuthorized l = [])
    (hlast : l.getLast? = some last) : p.firstAuthorized (l ++ m) = p.firstAuthorized (last :: m) := by
  rw [firstAuthorized_eq_nil] at h
  induction l with
  | nil => cases hlast
  | cons a l ih =>
    cases l with
    | nil =>
      cases hlast
      rfl
    | cons b rest =>
      rw [List.cons_append, firstAuthorized_cons_skip (h a (by simp)) (by simpa using h b (by simp))]
      exact ih (fun x hx => h x (List.mem_cons_of_mem _ hx)) (by simpa using hlast)

theorem firstAuthorized_cons_length (ha : p.hostAuthorized a = false) :
    (p.firstAuthorized (a :: l)).length ≠ 1 := by
  induction l generalizing a with
  | nil => simp [firstAuthorized, ha]
  | cons b rest ih =>
    cases hb : p.hostAuthorized b with
    | true => simp [firstAuthorized, ha, hb]
    | false =>
      rw [firstAuthorized_cons_skip ha (by simpa using hb)]
      exact ih hb

/-- Dropping other authorities does not change which ones are wanted. -/
theorem firstAuthorized_filter (h : p.firstAuthorized l ≠ [])
    (hP : ∀ a ∈ l, a.id ∈ p.firstAuthorized l → P a = true) : p.firstAuthorized (l.filter P) = p.firstAuthorized l := by
  fun_induction firstAuthorized p l with
  | case1 => exact absurd rfl h
  | case2 a ha =>
    rw [List.filter_cons_of_pos (hP a (by simp) (by simp))]
    exact firstAuthorized_cons_of_authorized _ ha
  | case3 a ha => exact absurd rfl h
  | case4 a b rest ha =>
    rw [List.filter_cons_of_pos (hP a (by simp) (by simp))]
    exact firstAuthorized_cons_of_authorized _ ha
  | case5 a b rest ha hb =>
    rw [List.filter_cons_of_pos (hP a (by simp) (by simp)), List.filter_cons_of_pos (hP b (by simp) (by simp))]
    simp [firstAuthorized, ha, hb]
  | case6 a b rest ha hb ih =>
    have hrest := ih h fun x hx => hP x (List.mem_cons_of_mem _ hx)
    rw [List.filter_cons]
    split
    · -- the authority that follows in the filtered list does not authorize the host either
      refine (firstAuthorized_cons_skip (by simpa using ha) fun c hc => ?_).trans hrest
      obtain ⟨tail, htail⟩ : ∃ tail, (b :: rest).filter P = c :: tail := List.head?_eq_some_iff.mp hc
      by_contra hauth
      rw [htail, firstAuthorized_cons_of_authorized _ (by simpa using hauth)] at hrest
      exact firstAuthorized_cons_length (by simpa using hb) (by rw [← hrest]; rfl)
    · exact hrest

/-! ### Compaction -/

/-- The identifiers that compaction keeps of a list, beside those in `base`. -/
def wantedIDs (p : CryptoProcessor) (base : List DocumentID) (first : Bool) (l : List Authority) : List DocumentID :=
  base ++ (if first then p.firstAuthorized l else []) ++ (l.getLast?.map (·.id)).toList

def keep (p : CryptoProcessor) (base : List DocumentID) (first : Bool) (l : List Authority) : List Authority :=
  l.filter fun a => (p.wantedIDs base first l).contains a.id

theorem keep_sublist (base : List DocumentID) (first : Bool) (l : List Authority) : (p.keep base first l).Sublist l :=
  List.filter_sublist

/-- What a longer list wants of a part was wanted of the part. -/
theorem wantedIDs_append
    (hnodup : ((l ++ m).map (·.id)).Nodup) (ha : a ∈ l) (hw : a.id ∈ p.wantedIDs base first (l ++ m)) :
    a.id ∈ p.wantedIDs base first l := by
  have hfresh : ∀ b ∈ m, b.id ≠ a.id := by
    intro b hb heq
    rw [List.map_append] at hnodup
    exact (List.nodup_append.mp hnodup).2.2 a.id (List.mem_map_of_mem ha) b.id (List.mem_map_of_mem hb) heq.symm
  obtain ⟨last, hlast⟩ : ∃ last, l.getLast? = some last :=
    Option.isSome_iff_exists.mp (by simpa using List.ne_nil_of_mem ha)
  simp only [wantedIDs, List.mem_append, Option.mem_toList] at hw ⊢
  rcases hw with (hbase | hfirst) | hend
  · exact Or.inl (Or.inl hbase)
  · cases first with
    | false => cases hfirst
    | true =>
      by_cases hnil : p.firstAuthorized l = []
      · rw [firstAuthorized_append_of_none hnil hlast] at hfirst
        obtain ⟨b, hb, hid⟩ := List.mem_map.mp (firstAuthorized_subset _ hfirst)
        rcases List.mem_cons.mp hb with rfl | hb
        · exact Or.inr (by rw [hlast, Option.map_some, hid])
        · exact absurd hid (hfresh b hb)
      · rw [firstAuthorized_append hnil] at hfirst
        exact Or.inl (Or.inr hfirst)
  · cases m with
    | nil =>
      rw [List.append_nil] at hend
      exact Or.inr hend
    | cons b rest =>
      obtain ⟨c, hc, hid⟩ := Option.map_eq_some_iff.mp hend
      rw [List.getLast?_append_cons] at hc
      exact absurd hid (hfresh c (List.mem_of_getLast? hc))

theorem mem_keep_getLast
    (h : l.getLast? = some last) : (p.keep base first l).getLast? = some last := by
  obtain ⟨u, rfl⟩ := List.getLast?_eq_some_iff.mp h
  have hlast : (p.wantedIDs base first (u ++ [last])).contains last.id = true := by
    simp [wantedIDs]
  rw [keep, List.filter_append, List.filter_singleton, hlast]
  exact List.getLast?_concat

/-- The list before compaction and the compacted one want the same of what follows. -/
theorem firstAuthorized_keep :
    p.firstAuthorized (p.keep base true l ++ m) = p.firstAuthorized (l ++ m) := by
  by_cases hl : l = []
  · rw [hl]
    rfl
  obtain ⟨last, hlast⟩ : ∃ last, l.getLast? = some last := Option.isSome_iff_exists.mp (by simpa using hl)
  by_cases hnil : p.firstAuthorized l = []
  · have hkeep : p.firstAuthorized (p.keep base true l) = [] := by
      rw [firstAuthorized_eq_nil] at hnil ⊢
      exact fun a ha => hnil a ((keep_sublist base true l).subset ha)
    rw [firstAuthorized_append_of_none hnil hlast, firstAuthorized_append_of_none hkeep (mem_keep_getLast hlast)]
  · have hfilter : p.firstAuthorized (p.keep base true l) = p.firstAuthorized l := by
      refine firstAuthorized_filter hnil fun a _ hid => ?_
      simp [wantedIDs, hid]
    rw [firstAuthorized_append hnil, firstAuthorized_append (by rw [hfilter]; exact hnil), hfilter]

/-- Compacting in between leaves what compacting at the end leaves. -/
theorem keep_append
    (hnodup : ((l ++ m).map (·.id)).Nodup) : p.keep base first (p.keep base first l ++ m) = p.keep base first (l ++ m) := by
  have hwanted : p.wantedIDs base first (p.keep base first l ++ m) = p.wantedIDs base first (l ++ m) := by
    have hfirst : (if first then p.firstAuthorized (p.keep base first l ++ m) else []) =
        if first then p.firstAuthorized (l ++ m) else [] := by
      cases first with
      | false => rfl
      | true => exact firstAuthorized_keep
    have hend : (p.keep base first l ++ m).getLast? = (l ++ m).getLast? := by
      cases hm : l.getLast? with
      | none =>
        rw [List.getLast?_eq_none_iff] at hm
        rw [hm]
        rfl
      | some last => rw [List.getLast?_append, List.getLast?_append, mem_keep_getLast hm, hm]
    rw [wantedIDs, wantedIDs, hfirst, hend]
  have hpart : (p.keep base first l).filter (fun a => (p.wantedIDs base first (l ++ m)).contains a.id) =
      l.filter fun a => (p.wantedIDs base first (l ++ m)).contains a.id := by
    rw [keep, List.filter_filter]
    refine List.filter_congr fun a ha => ?_
    have himp := @wantedIDs_append p a l m base first hnodup ha
    simp only [List.contains_eq_mem, Bool.and_eq_decide, decide_eq_decide, decide_eq_true_eq]
    exact ⟨fun h => h.1, fun h => ⟨h, himp h⟩⟩
  calc p.keep base first (p.keep base first l ++ m)
      = (p.keep base first l ++ m).filter fun a =>
          (p.wantedIDs base first (p.keep base first l ++ m)).contains a.id := rfl
    _ = (l ++ m).filter fun a => (p.wantedIDs base first (l ++ m)).contains a.id := by
      rw [hwanted, List.filter_append, hpart, ← List.filter_append]
    _ = p.keep base first (l ++ m) := rfl

theorem keep_length (hnodup : (l.map (·.id)).Nodup) :
    (p.keep base first l).length ≤ (p.wantedIDs base first l).length := by
  have hsub : (p.keep base first l).map (·.id) ⊆ p.wantedIDs base first l := by
    intro x hx
    obtain ⟨a, ha, rfl⟩ := List.mem_map.mp hx
    simpa using (List.mem_filter.mp ha).2
  have hkeep : ((p.keep base first l).map (·.id)).Nodup := hnodup.sublist ((keep_sublist base first l).map _)
  simpa using (hkeep.subperm hsub).length_le

/-! ### Cached manifests -/

theorem authorityID_of_response {m : Manifest}
    (h : parseResponseManifest document a = some m) : document.envelope.authorityID = a.id := by
  have hparse := (Option.filter_eq_some_iff.mp h).1
  exact (parsed_iff.mp (Option.isSome_of_eq_some hparse)).authorityID

/-- A cached manifest is found under the one authority that it names. -/
theorem parseCachedManifest_iff (hnodup : (l.map (·.id)).Nodup)
    {m : Manifest} :
    parseCachedManifest document l = some (m, a) ↔ a ∈ l ∧ parseResponseManifest document a = some m := by
  refine ⟨response_of_cached, fun ⟨ha, hm⟩ => ?_⟩
  obtain ⟨u, w, rfl⟩ := List.append_of_mem ha
  have hid := authorityID_of_response hm
  have hother : ∀ b ∈ u ++ w, parseResponseManifest document b = none := by
    intro b hb
    by_contra hsome
    obtain ⟨m', hm'⟩ := Option.ne_none_iff_exists'.mp hsome
    have heq : b = a := Authority.id_injective ((authorityID_of_response hm').symm.trans hid)
    rw [List.map_append, List.map_cons, List.nodup_middle, ← List.map_append] at hnodup
    exact (List.nodup_cons.mp hnodup).1 (List.mem_map.mpr ⟨b, hb, by rw [heq]⟩)
  have hempty : ∀ v : List Authority, v ⊆ u ++ w →
      v.filterMap (fun a => (parseResponseManifest document a).map (·, a)) = [] := by
    intro v hv
    rw [List.filterMap_eq_nil_iff]
    exact fun b hb => by rw [hother b (hv hb), Option.map_none]
  rw [parseCachedManifest, List.filterMap_append, List.filterMap_cons, hm,
    hempty u (List.subset_append_left u w), hempty w (List.subset_append_right u w)]
  rfl

theorem parseCachedManifest_sublist
    (hnodup : (l.map (·.id)).Nodup) (hnodup' : (l'.map (·.id)).Nodup) {m : Manifest}
    (h : parseCachedManifest document l = some (m, a)) (ha : a ∈ l') : parseCachedManifest document l' = some (m, a) :=
  (parseCachedManifest_iff hnodup').mpr ⟨ha, ((parseCachedManifest_iff hnodup).mp h).2⟩

/-- No manifest is cached. -/
def manifestless (cache : Cache) : Bool := cache.globalManifest.isNone && cache.machineManifest.isNone

/-- The authorities of the cached manifests, in the order in which compaction asks. -/
def manifestBase (cache : Cache) (current : List Authority) : Option (List DocumentID) := do
  let global ← manifestAuthority cache.globalManifest current
  let machine ← manifestAuthority cache.machineManifest current
  some (global.toList ++ machine.toList)

theorem manifestBase_eq_nil
    (h : manifestBase cache current = some base) (hfirst : manifestless cache = true) : base = [] := by
  simp only [manifestless, Bool.and_eq_true, Option.isNone_iff_eq_none] at hfirst
  simp only [manifestBase, hfirst.1, hfirst.2, manifestAuthority, Option.bind_eq_bind, Option.bind_some,
    Option.some.injEq] at h
  exact h.symm

theorem wantedIDs_length (h : manifestBase cache current = some base) (l : List Authority) :
    (p.wantedIDs base (manifestless cache) l).length ≤ 3 := by
  have hlast : (l.getLast?.map (·.id)).toList.length ≤ 1 := by
    cases l.getLast? <;> simp
  cases hfirst : manifestless cache with
  | true =>
    have hnil := manifestBase_eq_nil h hfirst
    have htwo : (p.firstAuthorized l).length ≤ 2 := firstAuthorized_length l
    simp only [wantedIDs, hnil, if_true, List.length_append, List.length_nil]
    omega
  | false =>
    simp only [manifestBase, Option.bind_eq_bind, Option.bind_eq_some_iff, Option.some.injEq] at h
    obtain ⟨g, -, m, -, rfl⟩ := h
    have hg : g.toList.length ≤ 1 := by cases g <;> simp
    have hm : m.toList.length ≤ 1 := by cases m <;> simp
    simp only [wantedIDs, Bool.false_eq_true, if_false, List.length_append, List.length_nil]
    omega

theorem zip_filter_map {α β : Type} (f : α → β) (q : α → Bool) (l : List α) :
    ((l.zip (l.map f)).filter fun entry => q entry.1).map Prod.snd = (l.filter q).map f := by
  induction l with
  | nil => rfl
  | cons a l ih =>
    simp only [List.map_cons, List.zip_cons_cons, List.filter_cons]
    split <;> simp [ih]

/-- What compaction leaves after a page. -/
theorem compactAuthorityDocuments_eq
    (hret : p.Retained (current ++ page)) (hdocs : current.map (·.raw) = cache.authorityDocuments)
    (hpage : page ≠ []) (hbase : manifestBase cache current = some base) :
    p.compactAuthorityDocuments cache current page (page.map (·.raw)) =
      some ((p.keep base (manifestless cache) (current ++ page)).map (·.raw)) := by
  have hwanted : p.wantedAuthorities cache current (current ++ page) =
      some (p.wantedIDs base (manifestless cache) (current ++ page)) := by
    simp only [manifestBase, Option.bind_eq_bind, Option.bind_eq_some_iff, Option.some.injEq] at hbase
    obtain ⟨g, hg, m, hm, rfl⟩ := hbase
    simp only [wantedAuthorities, hg, hm, Option.bind_eq_bind, Option.bind_some, wantedIDs, manifestless]
    rfl
  have hmost : (p.keep base (manifestless cache) (current ++ page)).length ≤ 3 :=
    (keep_length hret.nodup).trans (wantedIDs_length hbase _)
  have hsome : (p.keep base (manifestless cache) (current ++ page)).length ≠ 0 := by
    obtain ⟨last, hlast⟩ : ∃ last, (current ++ page).getLast? = some last :=
      Option.isSome_iff_exists.mp (by simp [hpage])
    have hkeep := @mem_keep_getLast p _ _ base (manifestless cache) hlast
    intro h0
    rw [List.length_eq_zero_iff.mp h0] at hkeep
    cases hkeep
  have hresult : (((current ++ page).zip (cache.authorityDocuments ++ page.map (·.raw))).filter fun entry =>
      (p.wantedIDs base (manifestless cache) (current ++ page)).contains entry.1.id).map Prod.snd =
      (p.keep base (manifestless cache) (current ++ page)).map (·.raw) := by
    rw [← hdocs, ← List.map_append]
    exact zip_filter_map _ (fun a : Authority => (p.wantedIDs base (manifestless cache) (current ++ page)).contains a.id) _
  have hlen := congrArg List.length hresult
  simp only [List.length_map] at hlen
  simp only [compactAuthorityDocuments, hwanted, Option.bind_eq_bind, Option.bind_some, hlen, hresult]
  exact if_neg (by omega)

/-! ### Pages -/

/-- A chain of this account's authorities that follows `previous`. -/
def Extends (p : CryptoProcessor) : Option Authority → List Authority → Prop
  | _, [] => True
  | previous, a :: rest =>
    p.parseOwn a.raw = some a ∧ validateAuthorityTransition previous a = true ∧ Extends p (some a) rest

/-- All documents are signed by one root. -/
def OneSigner (l : List Authority) : Prop := ∃ root, ∀ a ∈ l, a.rootKeyID = root

theorem readPage_pinned (h : p.Extends previous page) :
    p.readPage previous (some root) (page.map (·.raw)) =
      if ∀ a ∈ page, a.rootKeyID = root then some page else none := by
  induction page generalizing previous root with
  | nil => simp [readPage]
  | cons a rest ih =>
    obtain ⟨hparse, htrans, hrest⟩ := h
    simp only [List.map_cons, readPage, hparse, htrans, Option.bind_eq_bind, Option.bind_some, Option.all_some,
      beq_iff_eq, true_and]
    by_cases hroot : root = a.rootKeyID
    · subst hroot
      rw [if_pos rfl, ih hrest]
      by_cases hall : ∀ b ∈ rest, b.rootKeyID = a.rootKeyID
      · rw [if_pos hall, if_pos (by simpa using hall)]
        rfl
      · rw [if_neg hall, if_neg (by simpa using hall)]
        rfl
    · rw [if_neg hroot, if_neg]
      exact fun hall => hroot (hall a (List.mem_cons_self ..)).symm

/-- The retained documents are signed by one root. -/
theorem Retained.oneSigner (h : p.Retained l) : OneSigner l := by
  cases l with
  | nil => exact ⟨.aek 0, by simp⟩
  | cons a rest =>
    refine ⟨a.rootKeyID, ?_⟩
    rintro b (_ | ⟨_, hb⟩)
    · rfl
    · have hr := List.rel_of_pairwise_cons h.ordered hb
      simp only [retains, Bool.and_eq_true, beq_iff_eq] at hr
      exact hr.2.symm

theorem readPage_eq (hcur : p.Retained current)
    (h : p.Extends current.getLast? page) [Decidable (OneSigner (current ++ page))] :
    p.readPage current.getLast? (current.head?.map (·.rootKeyID)) (page.map (·.raw)) =
      if OneSigner (current ++ page) then some page else none := by
  cases current with
  | nil =>
    cases page with
    | nil => rw [if_pos ⟨.aek 0, by simp⟩]; rfl
    | cons a rest =>
      obtain ⟨hparse, htrans, hrest⟩ := h
      have hiff : OneSigner ([] ++ a :: rest) ↔ ∀ b ∈ rest, b.rootKeyID = a.rootKeyID := by
        constructor
        · rintro ⟨root, hroot⟩ b hb
          rw [hroot b (by simp [hb]), hroot a (by simp)]
        · intro hall
          exact ⟨a.rootKeyID, by simpa using hall⟩
      simp only [List.map_cons, readPage, hparse, Option.bind_eq_bind, Option.bind_some, Option.all_none, and_true,
        List.head?_nil, Option.map_none, htrans, if_true, readPage_pinned hrest, hiff]
      split <;> rfl
  | cons c rest =>
    have hiff : OneSigner (c :: rest ++ page) ↔ ∀ a ∈ page, a.rootKeyID = c.rootKeyID := by
      obtain ⟨root, hroot⟩ := hcur.oneSigner
      constructor
      · rintro ⟨root', hroot'⟩ a ha
        rw [hroot' a (by simp [ha]), hroot' c (by simp)]
      · intro hall
        refine ⟨root, fun a ha => ?_⟩
        rcases List.mem_append.mp ha with ha | ha
        · exact hroot a ha
        · rw [hall a ha, hroot c (by simp)]
    simp only [List.head?_cons, Option.map_some, readPage_pinned h, hiff]

theorem retains_of_transition (h : validateAuthorityTransition (some a) b = true)
    (hroot : a.rootKeyID = b.rootKeyID) : retains a b = true := by
  have hgen : b.generation = a.generation + 1 := by
    simp only [validateAuthorityTransition, Bool.and_eq_true, beq_iff_eq] at h
    exact h.1.2
  simp only [retains, h, hgen, hroot, beq_self_eq_true, Bool.or_true, Bool.and_true, decide_eq_true_eq]
  omega

theorem Retained.concat (hcur : p.Retained current)
    (hparse : p.parseOwn a.raw = some a) (htrans : validateAuthorityTransition current.getLast? a = true)
    (hsig : OneSigner (current ++ [a])) : p.Retained (current ++ [a]) := by
  obtain ⟨root, hroot⟩ := hsig
  refine ⟨?_, List.pairwise_append.mpr ⟨hcur.ordered, List.pairwise_singleton _ _, ?_⟩⟩
  · intro b hb
    rcases List.mem_append.mp hb with hb | hb
    · exact hcur.parsed b hb
    · rw [List.mem_singleton.mp hb]
      exact hparse
  · intro b hb c hc
    rw [List.mem_singleton.mp hc]
    obtain ⟨last, hlast⟩ : ∃ last, current.getLast? = some last :=
      Option.isSome_iff_exists.mp (by simpa using List.ne_nil_of_mem hb)
    obtain ⟨u, rfl⟩ := List.getLast?_eq_some_iff.mp hlast
    rw [hlast] at htrans
    have hnew : retains last a = true :=
      retains_of_transition htrans ((hroot last (by simp)).trans (hroot a (by simp)).symm)
    rcases List.mem_append.mp hb with hu | hu
    · exact retains_trans ((List.pairwise_append.mp hcur.ordered).2.2 b hu last (by simp)) hnew
    · rw [List.mem_singleton.mp hu]
      exact hnew

/-- The retained documents and a page of the same signer can be retained together. -/
theorem Retained.append (hcur : p.Retained current)
    (h : p.Extends current.getLast? page) (hsig : OneSigner (current ++ page)) : p.Retained (current ++ page) := by
  induction page generalizing current with
  | nil =>
    rw [List.append_nil]
    exact hcur
  | cons a rest ih =>
    obtain ⟨hparse, htrans, hrest⟩ := h
    rw [List.append_cons] at hsig ⊢
    obtain ⟨root, hroot⟩ := hsig
    have hone : OneSigner (current ++ [a]) := ⟨root, fun b hb => hroot b (List.mem_append_left _ hb)⟩
    refine ih (hcur.concat hparse htrans hone) ?_ ⟨root, hroot⟩
    rw [List.getLast?_concat]
    exact hrest

/-! ### Restoring after a page -/

/-- What a cache that can be restored is made of. -/
structure Restorable (p : CryptoProcessor) (cache : Cache) (current : List Authority) : Prop where
  identity : cache.identity = p.identity
  documents : current.map (·.raw) = cache.authorityDocuments
  retained : p.Retained current
  authority : cache.authority = current.getLast?.map cursorOf
  manifests : cache.globalManifest.isSome = cache.machineManifest.isSome
  base : (manifestBase cache current).isSome = true

theorem manifestAuthority_of_cached {document : Option ManifestEnvelope}
    (h : ∀ d, document = some d → (parseCachedManifest d current).isSome = true) :
    (manifestAuthority document current).isSome = true := by
  cases document with
  | none => rfl
  | some d => simpa [manifestAuthority] using h d rfl

theorem manifestBase_isSome
    (hg : ∀ d, cache.globalManifest = some d → (parseCachedManifest d current).isSome = true)
    (hm : ∀ d, cache.machineManifest = some d → (parseCachedManifest d current).isSome = true) :
    (manifestBase cache current).isSome = true := by
  obtain ⟨g, hg'⟩ := Option.isSome_iff_exists.mp (manifestAuthority_of_cached hg)
  obtain ⟨m, hm'⟩ := Option.isSome_iff_exists.mp (manifestAuthority_of_cached hm)
  simp [manifestBase, hg', hm']

theorem headAuthority_eq (h : headAuthority cache authorities = some head) :
    authorities.getLast? = some head ∧ cache.authority = some (cursorOf head) := by
  obtain ⟨hlast, hcurs⟩ := Option.filter_eq_some_iff.mp h
  exact ⟨hlast, by simpa using hcurs⟩

/-- A cache that can be restored: nothing was delivered, or its documents end with the
authority of its cursor. -/
theorem restore_eq_restoreAt (hid : cache.identity = p.identity) (hblank : isBlank cache = false)
    (hparse : p.parseAuthorities cache.authorityDocuments = some authorities)
    (hhead : headAuthority cache authorities = some head) : p.restore cache = p.restoreAt cache authorities head := by
  simp [restore, hid, hblank, hparse, hhead]

theorem restorePair_isSome {m : ManifestEnvelope} (h : p.restorePair cache authorities head g m = some v) :
    (parseCachedManifest g authorities).isSome = true ∧ (parseCachedManifest m authorities).isSome = true := by
  rw [restorePair] at h
  split at h
  · simp only [Option.bind_eq_bind, Option.bind_eq_some_iff] at h
    obtain ⟨global, hglob, machine, hmach, -⟩ := h
    exact ⟨Option.isSome_of_eq_some (Option.filter_eq_some_iff.mp hglob).1,
      Option.isSome_of_eq_some (Option.filter_eq_some_iff.mp hmach).1⟩
  · cases h

theorem restorable_of_restore (h : p.restore cache = some v) :
    ∃ current, p.parseAuthorities cache.authorityDocuments = some current ∧ p.Restorable cache current := by
  obtain ⟨hid, ⟨hblank, -⟩ | ⟨-, authorities, head, hparse, hhead, hat⟩⟩ := restore_cases h
  · simp only [isBlank, Bool.and_eq_true, Option.isNone_iff_eq_none, Bool.not_eq_true', List.isEmpty_iff] at hblank
    obtain ⟨⟨⟨⟨hauth, hdocs⟩, hg⟩, hm⟩, -⟩ := hblank
    refine ⟨[], by rw [hdocs]; rfl, hid, hdocs.symm, ⟨by simp, List.Pairwise.nil⟩, hauth, by rw [hg, hm], ?_⟩
    exact manifestBase_isSome (by simp [hg]) (by simp [hm])
  · obtain ⟨hraw, hret⟩ := parseAuthorities_iff.mp hparse
    obtain ⟨hlast, hcurs⟩ := headAuthority_eq hhead
    have hfinish : ∀ hms : cache.globalManifest.isSome = cache.machineManifest.isSome,
        (∀ g m, cache.globalManifest = some g → cache.machineManifest = some m →
          (parseCachedManifest g authorities).isSome = true ∧ (parseCachedManifest m authorities).isSome = true) →
        p.Restorable cache authorities := by
      intro hms hpair
      refine ⟨hid, hraw, hret, by rw [hlast, hcurs]; rfl, hms, manifestBase_isSome ?_ ?_⟩
      · intro g hg
        obtain ⟨m, hm⟩ := Option.isSome_iff_exists.mp (hms ▸ Option.isSome_of_eq_some hg)
        exact (hpair g m hg hm).1
      · intro m hm
        obtain ⟨g, hg⟩ := Option.isSome_iff_exists.mp (hms.symm ▸ Option.isSome_of_eq_some hm)
        exact (hpair g m hg hm).2
    refine ⟨authorities, hparse, ?_⟩
    rw [restoreAt] at hat
    split at hat
    · split at hat
      · cases hat
      · next hcond =>
        simp only [Bool.or_eq_true, not_or, Bool.not_eq_true, Option.isSome_eq_false_iff, Option.isNone_iff_eq_none] at hcond
        exact hfinish (by rw [hcond.1.2, hcond.2]) (by simp [hcond.1.2])
    · split at hat
      · next hg hm => exact hfinish (by rw [hg, hm]) (by simp [hg])
      · next g m hg hm =>
        refine hfinish (by rw [hg, hm]; rfl) ?_
        rintro g' m' hg' hm'
        rw [hg] at hg'
        rw [hm] at hm'
        cases hg'
        cases hm'
        exact restorePair_isSome hat
      · cases hat

/-- The authority of a cached manifest stays. -/
theorem mem_keep_of_cached (hbase : manifestBase cache current = some base)
    (hdoc : cache.globalManifest = some document ∨ cache.machineManifest = some document) {m : Manifest}
    (h : parseCachedManifest document current = some (m, a)) :
    a ∈ p.keep base (manifestless cache) (current ++ page) := by
  have hid : a.id ∈ base := by
    simp only [manifestBase, Option.bind_eq_bind, Option.bind_eq_some_iff, Option.some.injEq] at hbase
    obtain ⟨g, hg, m', hm, rfl⟩ := hbase
    rcases hdoc with hdoc | hdoc
    · simp only [hdoc, manifestAuthority, h, Option.map_some, Option.some.injEq] at hg
      simp [← hg]
    · simp only [hdoc, manifestAuthority, h, Option.map_some, Option.some.injEq] at hm
      simp [← hm]
  refine List.mem_filter.mpr ⟨List.mem_append_left _ (response_of_cached h).1, ?_⟩
  simp [wantedIDs, hid]

theorem restorePair_advanced {kept : List Authority}
    {m : ManifestEnvelope} {documents : List AuthorityDocument}
    (h : p.restorePair cache current head g m = some v)
    (hg : parseCachedManifest g kept = parseCachedManifest g current)
    (hm : parseCachedManifest m kept = parseCachedManifest m current) :
    p.restorePair (advanced cache last documents) kept last g m =
      if p.hostAuthorized last = true then some { v with authority := some (cursorOf last) } else none := by
  rw [restorePair] at h ⊢
  split at h
  · split
    · simp only [Option.bind_eq_bind, Option.bind_eq_some_iff] at h
      obtain ⟨⟨global, a⟩, hglob, ⟨machine, b⟩, hmach, values, hvals, heq⟩ := h
      cases heq
      simp [hg, hm, hglob, hmach, hvals, Option.bind_eq_bind, Option.bind_some, advanced]
    · rfl
  · cases h

/-- The cache that a page leaves can be restored, unless it holds manifests and the page
ends with an authority that does not authorize the host. -/
theorem restore_advanced (hv : p.restore cache = some v) (hrev : cache.revoked = false)
    (hparse : p.parseAuthorities cache.authorityDocuments = some current)
    (hret : p.Retained (current ++ page)) (hbase : manifestBase cache current = some base)
    (hlast : (current ++ page).getLast? = some last) :
    p.restore (advanced cache last ((p.keep base (manifestless cache) (current ++ page)).map (·.raw))) =
      if manifestless cache = true ∨ p.hostAuthorized last = true then
        some { v with authority := some (cursorOf last) } else none := by
  obtain ⟨hid, hcases⟩ := restore_cases hv
  have hkept : p.Retained (p.keep base (manifestless cache) (current ++ page)) := hret.sublist (keep_sublist ..)
  have hcur : (current.map (·.id)).Nodup := (hret.sublist (List.sublist_append_left ..)).nodup
  have hhead : headAuthority (advanced cache last ((p.keep base (manifestless cache) (current ++ page)).map (·.raw)))
      (p.keep base (manifestless cache) (current ++ page)) = some last := by
    rw [headAuthority, mem_keep_getLast hlast]
    simp [advanced]
  generalize hkeep : p.keep base (manifestless cache) (current ++ page) = kept at hkept hhead
  have hident : (advanced cache last (kept.map (·.raw))).identity = p.identity := hid
  rw [restore_eq_restoreAt hident (by simp [isBlank, advanced]) (parseAuthorities_iff.mpr ⟨rfl, hkept⟩) hhead]
  cases hg : cache.globalManifest with
  | none =>
    cases hm : cache.machineManifest with
    | none =>
      have hless : manifestless cache = true := by simp [manifestless, hg, hm]
      have heq : v = { authority := v.authority } := by
        rcases hcases with ⟨-, rfl⟩ | ⟨-, authorities, head, -, -, hat⟩
        · rfl
        · simp only [restoreAt, hrev, hg, hm, Bool.false_eq_true, if_false, Option.some.injEq] at hat
          rw [← hat]
      rw [if_pos (Or.inl hless), heq]
      simp [restoreAt, advanced, hrev, hg, hm]
    | some m =>
      exfalso
      rcases hcases with ⟨hblank, -⟩ | ⟨-, authorities, head, -, -, hat⟩
      · simp [isBlank, hm] at hblank
      · simp [restoreAt, hrev, hg, hm] at hat
  | some g =>
    cases hm : cache.machineManifest with
    | none =>
      exfalso
      rcases hcases with ⟨hblank, -⟩ | ⟨-, authorities, head, -, -, hat⟩
      · simp [isBlank, hg] at hblank
      · simp [restoreAt, hrev, hg, hm] at hat
    | some m =>
      have hless : manifestless cache = false := by simp [manifestless, hg]
      rcases hcases with ⟨hblank, -⟩ | ⟨-, authorities, head, hparse', -, hat⟩
      · simp [isBlank, hg] at hblank
      · rw [hparse] at hparse'
        cases hparse'
        simp only [restoreAt, hrev, hg, hm, Bool.false_eq_true, if_false] at hat
        obtain ⟨hgsome, hmsome⟩ := restorePair_isSome hat
        obtain ⟨⟨mg, ag⟩, hmg⟩ := Option.isSome_iff_exists.mp hgsome
        obtain ⟨⟨mm, am⟩, hmm⟩ := Option.isSome_iff_exists.mp hmsome
        have hgkept := parseCachedManifest_sublist hcur hkept.nodup hmg
          (hkeep ▸ mem_keep_of_cached hbase (Or.inl hg) hmg)
        have hmkept := parseCachedManifest_sublist hcur hkept.nodup hmm
          (hkeep ▸ mem_keep_of_cached hbase (Or.inr hm) hmm)
        have hpair : p.restorePair (advanced cache last (kept.map (·.raw))) kept last g m =
            if p.hostAuthorized last = true then some { v with authority := some (cursorOf last) } else none :=
          restorePair_advanced hat (hgkept.trans hmg.symm) (hmkept.trans hmm.symm)
        have hat' : p.restoreAt (advanced cache last (kept.map (·.raw))) kept last =
            p.restorePair (advanced cache last (kept.map (·.raw))) kept last g m := by
          simp [restoreAt, advanced, hrev, hg, hm]
        rw [hat', hpair]
        simp [hless]

/-! ### Delivery in pages -/

/-- The bundle of one page of a delivery that ends with `head`. -/
def pageBundle (head : Authority) (page : List Authority) (more : Bool) : Bundle where
  authorityHead := cursorOf head
  authorityDocuments := page.map (·.raw)
  authorityHasMore := more

/-- Deliver the pages in order; every one has to be accepted. -/
def deliver (p : CryptoProcessor) (head : Authority) : Cache → List (List Authority) → Option (Cache × Verified)
  | _, [] => none
  | cache, [page] => p.apply cache (pageBundle head page false)
  | cache, page :: rest => do
    let result ← p.apply cache (pageBundle head page true)
    deliver p head result.1 rest

theorem validAuthorityCursor_cursorOf (a : Authority) : validAuthorityCursor (cursorOf a) = true := by
  have hvalid := a.valid
  simp only [validateAuthorityClaims, Bool.and_eq_true] at hvalid
  exact hvalid.1.1.1.1.1.1.1.1.2

open Classical in
/-- One page: it is refused where its signer differs, or where manifests are cached and it
ends with an authority that does not authorize the host. -/
theorem apply_page (hv : p.restore cache = some v) (hrev : cache.revoked = false)
    (hparse : p.parseAuthorities cache.authorityDocuments = some current)
    (hbase : manifestBase cache current = some base) (hpage : p.Extends current.getLast? page)
    (hlen : page.length ≤ 4) (hlast : page.getLast? = some last)
    (hends : pageEnds (pageBundle head page more) last = true)
    (hbound : last.generation = head.generation → p.hostAuthorized last = true) :
    p.apply cache (pageBundle head page more) =
      if OneSigner (current ++ page) ∧ (manifestless cache = true ∨ p.hostAuthorized last = true) then
        some (advanced cache last ((p.keep base (manifestless cache) (current ++ page)).map (·.raw)),
          { v with authority := some (cursorOf last) })
      else none := by
  obtain ⟨hraw, hret⟩ := parseAuthorities_iff.mp hparse
  have hne : page ≠ [] := by
    rintro rfl
    cases hlast
  have hid := (restore_cases hv).1
  have hguard : cache.identity = p.identity ∧ validAuthorityCursor (pageBundle head page more).authorityHead = true ∧
      (pageBundle head page more).authorityDocuments.length ≤ 4 :=
    ⟨hid, validAuthorityCursor_cursorOf head, by simpa [pageBundle] using hlen⟩
  have hdocs : (pageBundle head page more).authorityDocuments ≠ [] := by simpa [pageBundle] using hne
  rw [apply, if_pos hguard, if_pos hdocs, applyPage, if_neg (by simp [pageBundle])]
  have hcur : p.currentAuthorities cache = some current := by
    simp [currentAuthorities, hparse]
  have hread : p.readPage current.getLast? (current.head?.map (·.rootKeyID)) (pageBundle head page more).authorityDocuments =
      if OneSigner (current ++ page) then some page else none := readPage_eq hret hpage
  simp only [hcur, hread, Option.bind_eq_bind, Option.bind_some]
  by_cases hsig : OneSigner (current ++ page)
  · have hall := hret.append hpage hsig
    have hcomb : (current ++ page).getLast? = some last := by
      rw [List.getLast?_append, hlast]
      rfl
    have hcompact : p.compactAuthorityDocuments cache current page (pageBundle head page more).authorityDocuments =
        some ((p.keep base (manifestless cache) (current ++ page)).map (·.raw)) :=
      compactAuthorityDocuments_eq hall hraw hne hbase
    have hfilter : page.getLast?.filter (pageEnds (pageBundle head page more)) = some last := by
      rw [hlast, Option.filter_some, if_pos hends]
    have hgoes : ¬ ((!p.hostAuthorized last && last.generation ==
      (pageBundle head page more).authorityHead.generation) = true) := by
      simp only [Bool.and_eq_true, Bool.not_eq_true', beq_iff_eq, not_and]
      intro hunbound hgen
      rw [hbound hgen] at hunbound
      cases hunbound
    have hsettle : ∀ documents, p.settlePage cache (pageBundle head page more) last documents =
        (p.restore (advanced cache last documents)).map (advanced cache last documents, ·) := by
      intro documents
      rw [settlePage, if_neg (by simp [pageBundle]), if_neg (by simp [pageBundle]), if_neg hgoes]
    simp only [hsig, if_true, hfilter, hcompact, hsettle, Option.bind_some,
      restore_advanced hv hrev hparse hall hbase hcomb, true_and]
    split <;> rfl
  · simp [hsig]

theorem manifestBase_keep
    (hret : p.Retained (current ++ page)) (hbase : manifestBase cache current = some base)
    (hg : next.globalManifest = cache.globalManifest) (hm : next.machineManifest = cache.machineManifest) :
    manifestBase next (p.keep base (manifestless cache) (current ++ page)) = some base := by
  have hcur := (hret.sublist (List.sublist_append_left current page)).nodup
  have hkept := (hret.sublist (keep_sublist (p := p) base (manifestless cache) (current ++ page))).nodup
  have hsame : ∀ document id, (document = cache.globalManifest ∨ document = cache.machineManifest) →
      manifestAuthority document current = some id →
      manifestAuthority document (p.keep base (manifestless cache) (current ++ page)) = some id := by
    rintro document id hdoc hid
    cases document with
    | none => exact hid
    | some d =>
      obtain ⟨⟨m, a⟩, hma, rfl⟩ := Option.map_eq_some_iff.mp hid
      have hkeep := @mem_keep_of_cached p a current page base d cache hbase
        (hdoc.imp Eq.symm Eq.symm) m hma
      simp [manifestAuthority, parseCachedManifest_sublist hcur hkept hma hkeep]
  have hbase' := hbase
  simp only [manifestBase, Option.bind_eq_bind, Option.bind_eq_some_iff] at hbase'
  obtain ⟨g, hglob, m, hmach, heq⟩ := hbase'
  simp [manifestBase, hg, hm, hsame _ _ (Or.inl rfl) hglob, hsame _ _ (Or.inr rfl) hmach,
    Option.bind_eq_bind, Option.bind_some, heq]

theorem extends_append :
    p.Extends previous (u ++ w) ↔ p.Extends previous u ∧ p.Extends (u.getLast?.or previous) w := by
  induction u generalizing previous with
  | nil => simp [Extends]
  | cons a u ih =>
    have hlast : ((a :: u).getLast?).or previous = (u.getLast?).or (some a) := by
      cases u with
      | nil => rfl
      | cons b t =>
        rfl
    rw [List.cons_append, Extends, Extends, ih, hlast]
    constructor
    · rintro ⟨h1, h2, h3, h4⟩
      exact ⟨⟨h1, h2, h3⟩, h4⟩
    · rintro ⟨⟨h1, h2, h3⟩, h4⟩
      exact ⟨h1, h2, h3, h4⟩

theorem extends_generation (h : p.Extends (some a) l) (hb : b ∈ l) : a.generation < b.generation := by
  induction l generalizing a with
  | nil => cases hb
  | cons c l ih =>
    obtain ⟨-, htrans, hrest⟩ := h
    have hgen : c.generation = a.generation + 1 := by
      simp only [validateAuthorityTransition, Bool.and_eq_true, beq_iff_eq] at htrans
      exact htrans.1.2
    rcases List.mem_cons.mp hb with rfl | hb
    · omega
    · have := ih hrest hb
      omega

/-- Every page that matters ends with an authority that authorizes the host: all of them
while manifests are cached. -/
def PagesAuthorize (p : CryptoProcessor) (cache : Cache) (pages : List (List Authority)) : Prop :=
  manifestless cache = true ∨ ∀ page ∈ pages, ∀ a, page.getLast? = some a → p.hostAuthorized a = true

theorem pagesAuthorize_cons (hlast : page.getLast? = some last)
    (h : manifestless cache = true ∨ p.hostAuthorized last = true) :
    p.PagesAuthorize cache (page :: rest) ↔ p.PagesAuthorize cache rest := by
  constructor
  · exact fun hp => hp.imp id fun hall q hq => hall q (List.mem_cons_of_mem _ hq)
  · rintro (hless | hall)
    · exact Or.inl hless
    · refine h.imp id fun hauth q hq a ha => ?_
      rcases List.mem_cons.mp hq with rfl | hq
      · rw [hlast] at ha
        cases ha
        exact hauth
      · exact hall q hq a ha

theorem OneSigner.sublist (h : OneSigner m) (hsub : l ⊆ m) : OneSigner l := by
  obtain ⟨root, hroot⟩ := h
  exact ⟨root, fun a ha => hroot a (hsub ha)⟩

/-- Whether compaction happened in between does not matter for the signer. -/
theorem oneSigner_keep (hl : OneSigner l) (hlast : l.getLast? = some last) :
    OneSigner (p.keep base first l ++ m) ↔ OneSigner (l ++ m) := by
  constructor
  · rintro ⟨root, hroot⟩
    obtain ⟨root', hroot'⟩ := hl
    have heq : root' = root := by
      rw [← hroot' last (List.mem_of_getLast? hlast),
        hroot last (List.mem_append_left _ (List.mem_of_getLast? (mem_keep_getLast hlast)))]
    refine ⟨root, fun a ha => ?_⟩
    rcases List.mem_append.mp ha with ha | ha
    · rw [hroot' a ha, heq]
    · exact hroot a (List.mem_append_right _ ha)
  · exact fun h => h.sublist fun a ha => by
      rcases List.mem_append.mp ha with ha | ha
      · exact List.mem_append_left _ ((keep_sublist base first l).subset ha)
      · exact List.mem_append_right _ ha

open Classical in
/-- A delivery leaves what one page with all documents would leave. -/
theorem deliver_eq (hv : p.restore cache = some v) (hrev : cache.revoked = false)
    (hparse : p.parseAuthorities cache.authorityDocuments = some current)
    (hbase : manifestBase cache current = some base) (hpages : ∀ page ∈ pages, page ≠ [] ∧ page.length ≤ 4)
    (hchain : p.Extends current.getLast? pages.flatten) (hlast : pages.flatten.getLast? = some head)
    (hbound : p.hostAuthorized head = true) :
    p.deliver head cache pages =
      if OneSigner (current ++ pages.flatten) ∧ p.PagesAuthorize cache pages then
        some (advanced cache head ((p.keep base (manifestless cache) (current ++ pages.flatten)).map (·.raw)),
          { v with authority := some (cursorOf head) })
      else none := by
  induction pages generalizing cache v current with
  | nil => cases hlast
  | cons page rest ih =>
    obtain ⟨hne, hlen⟩ := hpages page (List.mem_cons_self ..)
    rw [List.flatten_cons] at hchain hlast ⊢
    cases rest with
    | nil =>
      simp only [List.flatten_nil, List.append_nil] at hchain hlast ⊢
      have hends : pageEnds (pageBundle head page false) head = true := by simp [pageEnds, pageBundle, cursorOf]
      rw [deliver, apply_page hv hrev hparse hbase hchain hlen hlast hends fun _ => hbound]
      have hauth : p.PagesAuthorize cache [page] := by
        refine Or.inr fun page' hpage' a ha => ?_
        rw [List.mem_singleton.mp hpage', hlast] at ha
        cases ha
        exact hbound
      simp [hauth, hbound]
    | cons page' rest =>
      obtain ⟨last, hpageLast⟩ : ∃ last, page.getLast? = some last := Option.isSome_iff_exists.mp (by simpa using hne)
      obtain ⟨hpage, hrest⟩ := extends_append.mp hchain
      rw [hpageLast, Option.some_or] at hrest
      have hrestLast : (page' :: rest).flatten.getLast? = some head := by
        have hflat : (page' :: rest).flatten ≠ [] := by
          simp [(hpages page' (by simp)).1]
        rw [List.getLast?_append_of_ne_nil _ hflat] at hlast
        exact hlast
      have hgen : last.generation < head.generation := extends_generation hrest (List.mem_of_getLast? hrestLast)
      have hends : pageEnds (pageBundle head page true) last = true := by
        simp [pageEnds, pageBundle, cursorOf, hgen, hgen.le, hgen.ne]
      have hstep : p.deliver head cache (page :: page' :: rest) =
          (p.apply cache (pageBundle head page true)).bind fun result => p.deliver head result.1 (page' :: rest) := rfl
      rw [hstep, apply_page hv hrev hparse hbase hpage hlen hpageLast hends fun heq => absurd heq hgen.ne]
      by_cases hcond : OneSigner (current ++ page) ∧ (manifestless cache = true ∨ p.hostAuthorized last = true)
      · obtain ⟨hsig, hauthorized⟩ := hcond
        have hret := (parseAuthorities_iff.mp hparse).2
        have hall := hret.append hpage hsig
        have hcomb : (current ++ page).getLast? = some last := by
          rw [List.getLast?_append, hpageLast]
          rfl
        have hres := restore_advanced hv hrev hparse hall hbase hcomb
        rw [if_pos hauthorized] at hres
        have hkeptLast := @mem_keep_getLast p _ _ base (manifestless cache) hcomb
        rw [if_pos ⟨hsig, hauthorized⟩, Option.bind_some,
          ih hres hrev (parseAuthorities_iff.mpr ⟨rfl, hall.sublist (keep_sublist ..)⟩)
            (manifestBase_keep hall hbase rfl rfl) (fun q hq => hpages q (List.mem_cons_of_mem _ hq))
            (by rw [hkeptLast]; exact hrest) hrestLast]
        have hmore := @pagesAuthorize_cons p last page cache (page' :: rest) hpageLast hauthorized
        have hsigners : OneSigner (p.keep base (manifestless cache) (current ++ page) ++ (page' :: rest).flatten) ↔
            OneSigner (current ++ (page ++ (page' :: rest).flatten)) := by
          rw [oneSigner_keep hsig hcomb, List.append_assoc]
        by_cases hfinal : OneSigner (current ++ (page ++ (page' :: rest).flatten)) ∧
            p.PagesAuthorize cache (page :: page' :: rest)
        · have hnodup := (hret.append hchain hfinal.1).nodup
          rw [← List.append_assoc] at hnodup
          have hkeep := @keep_append p _ _ base (manifestless cache) hnodup
          rw [if_pos hfinal, if_pos ⟨hsigners.mpr hfinal.1, hmore.mp hfinal.2⟩, ← List.append_assoc, ← hkeep]
          rfl
        · rw [if_neg hfinal, if_neg]
          rintro ⟨hone, hauth⟩
          exact hfinal ⟨hsigners.mp hone, hmore.mpr hauth⟩
      · rw [if_neg hcond, Option.bind_none, if_neg]
        rintro ⟨hsig, hauthorize⟩
        refine hcond ⟨hsig.sublist fun a ha => ?_, ?_⟩
        · simp only [List.mem_append] at ha ⊢
          rcases ha with ha | ha
          · exact Or.inl ha
          · exact Or.inr (Or.inl ha)
        · exact hauthorize.imp id fun h => h page (List.mem_cons_self ..) last hpageLast

theorem applyPage_of_apply (hdocs : bundle.authorityDocuments ≠ [])
    (h : p.apply cache bundle = some r) : p.applyPage cache bundle = some r := by
  rw [apply] at h
  split at h
  · exact h
  · cases h

theorem authority_ext (h : a.raw = b.raw) : a = b := by
  cases a
  cases b
  cases h
  rfl

/-- An accepted page of a revoked cache leaves it revoked, and does not end with an
authority that authorizes the host. -/
theorem apply_page_revoked (hrev : cache.revoked = true) (hlast : page.getLast? = some last)
    (h : p.apply cache (pageBundle head page more) = some (next, v)) :
    next.revoked = true ∧ p.hostAuthorized last = false := by
  have hdocs : (pageBundle head page more).authorityDocuments ≠ [] := by
    rintro hnil
    rw [List.map_eq_nil_iff.mp hnil] at hlast
    cases hlast
  obtain ⟨end', -, hend, hcases⟩ := applyPage_cases (applyPage_of_apply hdocs h)
  have heq : end' = last := by
    simp only [pageBundle, List.getLast?_map, hlast, Option.map_some, Option.some.injEq] at hend
    exact authority_ext hend.symm
  subst heq
  rcases hcases with ⟨hunauthorized, hresult⟩ | ⟨documents, rfl, hres⟩
  · cases hresult
    exact ⟨rfl, hunauthorized⟩
  · refine ⟨hrev, ?_⟩
    obtain ⟨-, authorities, head', -, hhead, hunauthorized⟩ := (restore_spec hres).2.2 hrev |>.1
    have hcurs := (headAuthority_eq hhead).2
    simp only [advanced, cursorOf, Option.some.injEq, Cursor.mk.injEq] at hcurs
    rw [Authority.id_injective hcurs.2]
    exact hunauthorized

theorem deliver_revoked (hpages : ∀ page ∈ pages, page ≠ []) (hrev : cache.revoked = true)
    (hlast : pages.flatten.getLast? = some head) (hbound : p.hostAuthorized head = true) :
    p.deliver head cache pages = none := by
  induction pages generalizing cache with
  | nil => cases hlast
  | cons page rest ih =>
    obtain ⟨last, hpageLast⟩ : ∃ last, page.getLast? = some last :=
      Option.isSome_iff_exists.mp (by simpa using hpages page (List.mem_cons_self ..))
    cases rest with
    | nil =>
      simp only [List.flatten_cons, List.flatten_nil, List.append_nil, hpageLast, Option.some.injEq] at hlast
      subst hlast
      rw [deliver, Option.eq_none_iff_forall_ne_some]
      rintro ⟨next, v⟩ h
      rw [(apply_page_revoked hrev hpageLast h).2] at hbound
      cases hbound
    | cons page' rest =>
      have hrest : (page' :: rest).flatten.getLast? = some head := by
        have hflat : (page' :: rest).flatten ≠ [] := by simp [hpages page' (by simp)]
        rw [List.flatten_cons, List.getLast?_append_of_ne_nil _ hflat] at hlast
        exact hlast
      have hstep : p.deliver head cache (page :: page' :: rest) =
          (p.apply cache (pageBundle head page true)).bind fun result => p.deliver head result.1 (page' :: rest) := rfl
      rw [hstep, Option.bind_eq_none_iff]
      rintro ⟨next, v⟩ h
      exact ih (fun q hq => hpages q (List.mem_cons_of_mem _ hq)) (apply_page_revoked hrev hpageLast h).1 hrest

/-- The authorities that the cache retains. -/
def retainedAuthorities (p : CryptoProcessor) (cache : Cache) : List Authority :=
  (p.parseAuthorities cache.authorityDocuments).getD []

/-- The cache that a chain leaves when all its documents are compacted at once. -/
def delivered (p : CryptoProcessor) (cache : Cache) (chain : List Authority) (head : Authority) : Cache :=
  advanced cache head
    ((p.compactAuthorityDocuments cache (p.retainedAuthorities cache) chain (chain.map (·.raw))).getD [])

/-- For a cache that can be restored and a chain of this account's authorities that follows
the cached ones and ends with one that authorizes the host: a delivery in pages
succeeds, with a result in which the page boundaries do not show, exactly when the
cache is not revoked, one root signed all documents, and while manifests are cached
every page ends with an authority that authorizes the host. -/
theorem paging_result_iff (p : CryptoProcessor) {cache : Cache} {v : Verified} (hv : p.restore cache = some v)
    {pages : List (List Authority)} (hpages : ∀ page ∈ pages, page ≠ [] ∧ page.length ≤ 4) {head : Authority}
    (hchain : p.Extends (p.retainedAuthorities cache).getLast? pages.flatten)
    (hlast : pages.flatten.getLast? = some head) (hbound : p.hostAuthorized head = true) :
    p.deliver head cache pages =
        some (p.delivered cache pages.flatten head, { v with authority := some (cursorOf head) }) ↔
      cache.revoked = false ∧ OneSigner (p.retainedAuthorities cache ++ pages.flatten) ∧
        p.PagesAuthorize cache pages := by
  classical
  obtain ⟨current, hparse, hrestorable⟩ := restorable_of_restore hv
  have hcurrent : p.retainedAuthorities cache = current := by rw [retainedAuthorities, hparse, Option.getD_some]
  rw [hcurrent] at hchain ⊢
  cases hrevoked : cache.revoked with
  | true =>
    rw [deliver_revoked (fun page hpage => (hpages page hpage).1) hrevoked hlast hbound]
    simp
  | false =>
    obtain ⟨base, hbase⟩ := Option.isSome_iff_exists.mp hrestorable.base
    rw [deliver_eq hv hrevoked hparse hbase hpages hchain hlast hbound]
    constructor
    · intro h
      split at h
      · next hcond => exact ⟨rfl, hcond⟩
      · cases h
    · rintro ⟨-, hsigner, hauthorize⟩
      have hne : pages.flatten ≠ [] := by
        rintro hnil
        rw [hnil] at hlast
        cases hlast
      rw [if_pos ⟨hsigner, hauthorize⟩, delivered, hcurrent, compactAuthorityDocuments_eq
        (hrestorable.retained.append hchain hsigner) hrestorable.documents hne hbase, Option.getD_some]

end Paperboat.EnvInject.CryptoProcessor

/-! ### A chain that leaves the host out for one authority -/

namespace Paperboat.EnvInject.Demo

open EnvironmentE2EE EnvironmentE2EE.Demo EnvironmentManager.Demo CryptoProcessor

/-- The laptop's cache after its first pair. -/
def laptopCache : Cache where
  identity := laptopHost.identity
  authority := some (cursorOf bound)
  authorityDocuments := [bound.raw]
  globalManifest := some (envelope sharedEmpty)
  machineManifest := some (envelope ownEmpty)

theorem laptopCache_restore : laptopHost.restore laptopCache = some (verifiedWith sharedEmpty []) := by decide +kernel

/-- The second manager goes. -/
def withoutBob : Authority :=
  ⟨document 5 (some back.id) [manager "alice" 1, host "laptop" 3, recovery 9] [], by decide +kernel⟩

theorem laptopCache_extends :
    laptopHost.Extends (laptopHost.retainedAuthorities laptopCache).getLast? [unbound, back, withoutBob] := by
  refine ⟨?_, ?_, ?_, ?_, ?_, ?_, trivial⟩ <;> decide +kernel

/-- In one page the chain is accepted; in two pages, of which the first ends where the host
is left out, it is not. -/
theorem paging_matters :
    laptopHost.hostAuthorized back = true ∧ (laptopHost.deliver back laptopCache [[unbound, back]]).isSome = true ∧
      laptopHost.deliver back laptopCache [[unbound], [back]] = none := by
  decide +kernel

theorem paging_result_two_pages :
    laptopHost.deliver withoutBob laptopCache [[unbound, back], [withoutBob]] =
      some (laptopHost.delivered laptopCache [unbound, back, withoutBob] withoutBob,
        { verifiedWith sharedEmpty [] with authority := some (cursorOf withoutBob) }) := by
  have hpages : ∀ page ∈ [[unbound, back], [withoutBob]], page ≠ [] ∧ page.length ≤ 4 := by simp
  refine (paging_result_iff laptopHost laptopCache_restore hpages laptopCache_extends rfl (by decide +kernel)).mpr
    ⟨rfl, ?_, Or.inr ?_⟩
  · exact ⟨.aek 0, by decide +kernel⟩
  · simp only [List.forall_mem_cons]
    refine ⟨?_, ?_, by simp⟩ <;> rintro _ ⟨⟩ <;> decide +kernel

end Paperboat.EnvInject.Demo
