import Paperboat.Lib.Index
import Paperboat.LocalAPI.Snapshot

/-! Watchers and wake-ups. A watcher that asks for what comes after the stored generation
finds a newer snapshot in its channel once the publishers have left their loops. A watcher
that asks for a later generation may not: a publisher that is overtaken puts its older
snapshot in the place of the newer one. -/

namespace Paperboat.LocalAPI.SnapshotStore

open Transition

variable {β : Type} {s t : SnapshotStore β}

/-- A watcher asks for what comes after the stored generation, or after an older one. -/
def AsksNext (s : SnapshotStore β) : Action β → Prop
  | .watch after => after ≤ s.generation
  | _ => True

instance (s : SnapshotStore β) (a : Action β) : Decidable (AsksNext s a) :=
  match a with
  | .watch after => inferInstanceAs (Decidable (after ≤ s.generation))
  | .publish .. | .update .. | .notify _ | .receive _ | .cancel _ | .leave _ => isTrue trivial

/-- No publisher is inside its notification loop. -/
def Quiet (s : SnapshotStore β) : Prop := ∀ x ∈ s.publishers, x.rest = []

/-- What a waiting call can rely on. -/
structure Served (s : SnapshotStore β) (i : Nat) (c : Call β) : Prop where
  registered : i ∈ s.watchers
  known : c.after ≤ s.generation
  held : ∀ snapshot, c.updates = some snapshot → c.after < snapshot.generation
  coming : ∀ (k : Nat) (x : Publisher β), s.publishers[k]? = some x → i ∈ x.rest → c.after < x.snapshot.generation
  woken : c.after < s.generation →
    c.updates.isSome = true ∨ ∃ (k : Nat) (x : Publisher β), s.publishers[k]? = some x ∧ i ∈ x.rest

structure Inv (s : SnapshotStore β) : Prop where
  served : ∀ (i : Nat) (c : Call β), s.calls[i]? = some c → c.phase = .waiting → Served s i c
  registered : ∀ i ∈ s.watchers, i < s.calls.length
  notified : ∀ (k : Nat) (x : Publisher β), s.publishers[k]? = some x → ∀ i ∈ x.rest, i < s.calls.length

theorem Inv.stored (h : Inv s) (hs : Stored s order t) : Inv t := by
  cases hs with
  | unchanged => exact h
  | newer snapshot hnewer hperm =>
    refine ⟨fun i c hc hw => ?_, h.registered, fun k x hx i hi => ?_⟩
    · have hserv := h.served i c hc hw
      have hlt : c.after < snapshot.generation := UInt64.lt_of_le_of_lt hserv.known hnewer
      refine ⟨hserv.registered, UInt64.le_of_lt hlt, hserv.held, fun k x hx hi => ?_, fun _ => Or.inr ?_⟩
      · rcases getElem?_concat_cases hx with hx | ⟨-, rfl⟩
        · exact hserv.coming k x hx hi
        · exact hlt
      · exact ⟨s.publishers.length, _, List.getElem?_concat_length, hperm.mem_iff.mpr hserv.registered⟩
    · rcases getElem?_concat_cases hx with hx | ⟨-, rfl⟩
      · exact h.notified k x hx i hi
      · exact h.registered i (hperm.mem_iff.mp hi)

variable {i : Nat} {a : Action β}

theorem Inv.notify (h : Inv s) (hs : s.notify i = some t) : Inv t := by
  obtain ⟨w, x, y, c, updates, hn⟩ := notify_cases hs
  have hlen : t.calls.length = s.calls.length := by rw [hn.calls, List.length_set]
  have hgen : t.generation = s.generation := by rw [generation, generation, hn.current]
  have hsubset : y.rest ⊆ x.rest := by
    rcases hn.rest with hsame | ⟨hnext, -⟩
    · rw [hsame]
      exact List.Subset.refl _
    · rw [hnext]
      exact List.subset_cons_self ..
  have hpub : ∀ {k : Nat} {z : Publisher β}, t.publishers[k]? = some z →
      ∃ z', s.publishers[k]? = some z' ∧ z.snapshot = z'.snapshot ∧ z.rest ⊆ z'.rest := by
    intro k z hz
    rw [hn.publishers, List.getElem?_set] at hz
    split at hz
    · next hk =>
      split at hz
      · cases hz
        exact ⟨x, hk ▸ hn.publisher, hn.snapshot, hsubset⟩
      · cases hz
    · exact ⟨z, hz, rfl, List.Subset.refl _⟩
  have hkept : ∀ {j k : Nat} {z : Publisher β}, j ≠ w ∨ y.rest = x.rest → s.publishers[k]? = some z → j ∈ z.rest →
      ∃ z', t.publishers[k]? = some z' ∧ j ∈ z'.rest := by
    intro j k z hj hz hmem
    rw [hn.publishers, List.getElem?_set]
    by_cases hk : i = k
    · subst hk
      have hx : z = x := Option.some.inj (hz.symm.trans hn.publisher)
      subst hx
      have hi := (List.getElem?_eq_some_iff.mp hz).1
      refine ⟨y, by simp [hi], ?_⟩
      rcases hn.rest with hsame | ⟨hnext, -⟩
      · rw [hsame]
        exact hmem
      · rcases hj with hj | hsame
        · rw [hnext] at hmem
          exact (List.mem_cons.mp hmem).resolve_left hj
        · rw [hsame]
          exact hmem
    · exact ⟨z, by rw [if_neg hk]; exact hz, hmem⟩
  refine ⟨fun j d hd hw => ?_, fun j hj => ?_, fun k z hz j hj => ?_⟩
  · rw [hn.calls, List.getElem?_set] at hd
    have hcoming : ∀ {e : Call β}, Served s j e → ∀ (k : Nat) (z : Publisher β), t.publishers[k]? = some z → j ∈ z.rest →
        e.after < z.snapshot.generation := by
      intro e he k z hz hj
      obtain ⟨z', hz', hsnap, hrest⟩ := hpub hz
      rw [hsnap]
      exact he.coming k z' hz' (hrest hj)
    by_cases hjw : w = j
    · subst hjw
      have hlt := (List.getElem?_eq_some_iff.mp hn.call).1
      simp only [if_true, hlt, Option.some.injEq] at hd
      subst hd
      have hserv := h.served w c hn.call hw
      refine ⟨hn.watchers ▸ hserv.registered, hgen ▸ hserv.known, fun held hheld => ?_,
        fun k z hz hj => hcoming hserv k z hz hj, ?_⟩
      · rcases hn.held held hheld with rfl | hheld
        · exact hserv.coming i x hn.publisher hn.target
        · exact hserv.held held hheld
      · intro _
        rcases hn.rest with hsame | ⟨-, hfull⟩
        · obtain ⟨z', hz', hmem⟩ := hkept (Or.inr hsame) hn.publisher hn.target
          exact Or.inr ⟨i, z', hz', hmem⟩
        · exact Or.inl hfull
    · rw [if_neg hjw] at hd
      have hserv := h.served j d hd hw
      refine ⟨hn.watchers ▸ hserv.registered, hgen ▸ hserv.known, hserv.held, hcoming hserv, fun hlt => ?_⟩
      rcases hserv.woken (hgen ▸ hlt) with hfull | ⟨k, z, hz, hmem⟩
      · exact Or.inl hfull
      · obtain ⟨z', hz', hmem'⟩ := hkept (Or.inl (Ne.symm hjw)) hz hmem
        exact Or.inr ⟨k, z', hz', hmem'⟩
  · rw [hlen]
    exact h.registered j (hn.watchers ▸ hj)
  · obtain ⟨z', hz', -, hrest⟩ := hpub hz
    rw [hlen]
    exact h.notified k z' hz' j (hrest hj)

/-- The calls other than `i` do not see what call `i` does. -/
theorem Inv.call {watchers : List Nat} (h : Inv s) (hwaits : c.phase ≠ .waiting)
    (hwatchers : ∀ j ≠ i, j ∈ s.watchers → j ∈ watchers) (hsub : watchers ⊆ s.watchers) :
    Inv { s with calls := s.calls.set i c, watchers := watchers } := by
  refine ⟨fun j d hd hw => ?_, fun j hj => ?_, fun k x hx j hj => ?_⟩
  · simp only [List.getElem?_set] at hd
    split at hd
    · split at hd
      · cases hd
        exact absurd hw hwaits
      · cases hd
    · next hij =>
      have hserv := h.served j d hd hw
      exact { hserv with registered := hwatchers j (Ne.symm hij) hserv.registered }
  · simpa using h.registered j (hsub hj)
  · simpa using h.notified k x hx j hj

theorem Inv.receive (h : Inv s) (hs : s.receive i = some t) : Inv t := by
  obtain ⟨c, hc, hs⟩ := Option.bind_eq_some_iff.mp hs
  split at hs
  · next snapshot hphase hupdates =>
    cases hs
    have hnewer := (h.served i c hc hphase).held snapshot hupdates
    rw [if_pos hnewer]
    exact h.call (by simp) (fun _ _ hj => hj) (List.Subset.refl _)
  · cases hs

theorem Inv.cancel (h : Inv s) (hs : s.cancel i = some t) : Inv t := by
  obtain ⟨c, -, hs⟩ := Option.bind_eq_some_iff.mp hs
  split at hs
  · cases hs
    exact h.call (by simp) (fun _ _ hj => hj) (List.Subset.refl _)
  · cases hs

theorem Inv.leave (h : Inv s) (hs : s.leave i = some t) : Inv t := by
  obtain ⟨c, -, hs⟩ := Option.bind_eq_some_iff.mp hs
  split at hs
  · cases hs
    exact h.call (by simp) (fun j hj hmem => (List.mem_erase_of_ne hj).mpr hmem) List.erase_subset
  · cases hs

theorem Inv.watch (h : Inv s) (hok : after ≤ s.generation) : Inv (s.watch after) := by
  have hold : ∀ {c : Call β} {watchers : List Nat}, s.watchers ⊆ watchers →
      (∀ j ∈ watchers, j < s.calls.length + 1) →
      (c.phase = .waiting → Served { s with calls := s.calls ++ [c], watchers := watchers } s.calls.length c) →
      Inv { s with calls := s.calls ++ [c], watchers := watchers } := by
    intro c watchers hsub hbound hnew
    refine ⟨fun j d hd hw => ?_, fun j hj => by simpa using hbound j hj, fun k x hx j hj => ?_⟩
    · rcases getElem?_concat_cases hd with hd | ⟨rfl, rfl⟩
      · have hserv := h.served j d hd hw
        exact { hserv with registered := hsub hserv.registered }
      · exact hnew hw
    · have hlt := h.notified k x hx j hj
      simp only [List.length_append, List.length_cons, List.length_nil]
      omega
  have hreg : ∀ j ∈ s.watchers, j < s.calls.length + 1 := fun j hj => Nat.lt_succ_of_lt (h.registered j hj)
  unfold SnapshotStore.watch
  split
  · exact hold (List.Subset.refl _) hreg (by simp)
  · next hnone =>
    split
    · exact hold (List.Subset.refl _) hreg (by simp)
    · refine hold (List.subset_append_left ..) (fun j hj => ?_) fun _ => ?_
      · rcases List.mem_append.mp hj with hj | hj
        · exact hreg j hj
        · rw [List.mem_singleton.mp hj]
          omega
      · refine ⟨by simp, hok, by simp, fun k x hx hi => ?_, fun hlt => ?_⟩
        · exact absurd (h.notified k x hx _ hi) (Nat.lt_irrefl _)
        · exfalso
          rw [Option.filter_eq_none_iff] at hnone
          cases hcur : s.current with
          | none => simp [generation, hcur] at hlt
          | some current => exact absurd (by simpa [generation, hcur] using hlt) (hnone current hcur)

variable [DecidableEq β] {validBody : β → Bool}

theorem Inv.step (h : Inv s) (hok : AsksNext s a) (hs : step validBody s a = some t) : Inv t := by
  cases a with
  | publish snapshot order => exact h.stored (stored_cases (fun _ => generation_of_publish) hs)
  | update observedAt callback order => exact h.stored (stored_cases (fun _ => generation_of_update) hs)
  | notify i => exact h.notify hs
  | watch after =>
    cases hs
    exact h.watch hok
  | receive i => exact h.receive hs
  | cancel i => exact h.cancel hs
  | leave i => exact h.leave hs

omit [DecidableEq β] in
theorem new_fields (h : new validBody initial = .ok s) :
    s.watchers = [] ∧ s.calls = [] ∧ s.publishers = [] := by
  unfold new at h
  split at h
  · cases h
    exact ⟨rfl, rfl, rfl⟩
  · cases h

/-! ### Answers -/

/-- What a call returns, once it is decided. -/
def Phase.result : Phase β → Option (Except SnapshotError (Snapshot β))
  | .waiting => none
  | .leaving result => some result
  | .returned result => some result

/-- A call returns only what is newer than it asked for. -/
def Answers (s : SnapshotStore β) : Prop :=
  ∀ c ∈ s.calls, ∀ snapshot, Phase.result c.phase = some (.ok snapshot) → c.after < snapshot.generation

omit [DecidableEq β] in
theorem Answers.set (h : Answers s) (hc : s.calls[i]? = some c)
    (hd : ∀ snapshot, Phase.result d.phase = some (.ok snapshot) →
      Phase.result c.phase = some (.ok snapshot) ∨ c.after < snapshot.generation)
    (hafter : d.after = c.after) : ∀ e ∈ s.calls.set i d, ∀ snapshot, Phase.result e.phase = some (.ok snapshot) →
      e.after < snapshot.generation := by
  intro e he snapshot hresult
  rcases List.mem_or_eq_of_mem_set he with he | rfl
  · exact h e he snapshot hresult
  · rw [hafter]
    rcases hd snapshot hresult with hold | hnew
    · exact h c (List.mem_of_getElem? hc) snapshot hold
    · exact hnew

omit [DecidableEq β] in
theorem Answers.watch (h : Answers s) : Answers (s.watch after) := by
  have hold : ∀ c : Call β, (∀ snapshot, Phase.result c.phase = some (.ok snapshot) → c.after < snapshot.generation) →
      ∀ e ∈ s.calls ++ [c], ∀ snapshot, Phase.result e.phase = some (.ok snapshot) → e.after < snapshot.generation := by
    intro c hc e he
    rcases List.mem_append.mp he with he | he
    · exact h e he
    · rw [List.mem_singleton.mp he]
      exact hc
  unfold SnapshotStore.watch
  split
  · next current hcur =>
    refine hold _ fun snapshot hresult => ?_
    cases hresult
    simpa using (Option.filter_eq_some_iff.mp hcur).2
  · split
    · exact hold _ (by simp [Phase.result])
    · exact hold _ (by simp [Phase.result])

theorem Answers.step (h : Answers s) (hs : step validBody s a = some t) : Answers t := by
  have hstored : ∀ {order : List Nat}, Stored s order t → Answers t := by
    rintro order ⟨⟩ <;> exact h
  cases a with
  | publish snapshot order => exact hstored (stored_cases (fun _ => generation_of_publish) hs)
  | update observedAt callback order => exact hstored (stored_cases (fun _ => generation_of_update) hs)
  | notify i =>
    obtain ⟨w, x, y, c, updates, hn⟩ := notify_cases hs
    have hset := h.set (d := { c with updates := updates }) hn.call (fun _ hr => Or.inl hr) rfl
    rw [← hn.calls] at hset
    exact hset
  | watch after =>
    cases hs
    exact h.watch
  | receive i =>
    obtain ⟨c, hc, hs⟩ := Option.bind_eq_some_iff.mp hs
    split at hs
    · next snapshot hphase hupdates =>
      cases hs
      refine h.set hc (fun held hresult => Or.inr ?_) rfl
      split at hresult
      · next hlt =>
        cases hresult
        exact hlt
      · cases hresult
    · cases hs
  | cancel i =>
    obtain ⟨c, hc, hs⟩ := Option.bind_eq_some_iff.mp hs
    split at hs
    · cases hs
      exact h.set hc (by simp [Phase.result]) rfl
    · cases hs
  | leave i =>
    obtain ⟨c, hc, hs⟩ := Option.bind_eq_some_iff.mp hs
    split at hs
    · next result hphase =>
      cases hs
      exact h.set hc (fun _ hr => Or.inl (by rw [hphase]; exact hr)) rfl
    · cases hs

/-- A step leaves the stored snapshot or replaces it by a newer one. -/
theorem step_generation (hs : step validBody s a = some t) :
    t.current = s.current ∨ s.generation < t.generation := by
  have hstored : ∀ {order : List Nat}, Stored s order t → t.current = s.current ∨ s.generation < t.generation := by
    rintro order (_ | ⟨snapshot, hnewer, -⟩)
    · exact Or.inl rfl
    · exact Or.inr hnewer
  cases a with
  | publish snapshot order => exact hstored (stored_cases (fun _ => generation_of_publish) hs)
  | update observedAt callback order => exact hstored (stored_cases (fun _ => generation_of_update) hs)
  | notify i =>
    obtain ⟨w, x, y, c, updates, hn⟩ := notify_cases hs
    exact Or.inl hn.current
  | watch after =>
    cases hs
    refine Or.inl ?_
    unfold SnapshotStore.watch
    split
    · rfl
    · split <;> rfl
  | receive i | cancel i | leave i =>
    obtain ⟨c, hc, hs⟩ := Option.bind_eq_some_iff.mp hs
    split at hs <;> cases hs
    exact Or.inl rfl

/-- Generations grow and answers are newer in every run. Where every watcher asks for what
comes after the stored generation, no waiting watcher misses a stored snapshot. -/
theorem watchers_miss_nothing (validBody : β → Bool) {initial : Option (Snapshot β)} {s₀ s : SnapshotStore β}
    (hnew : new validBody initial = .ok s₀) (h : Reach (step validBody) Always s₀ s) :
    (∀ a t, step validBody s a = some t → t.current = s.current ∨ s.generation < t.generation) ∧
      (∀ c ∈ s.calls, ∀ snapshot, c.phase = .returned (.ok snapshot) → c.after < snapshot.generation) ∧
      (Reach (step validBody) AsksNext s₀ s → Quiet s → ∀ c ∈ s.calls, c.phase = .waiting → c.after < s.generation →
        ∃ snapshot, c.updates = some snapshot ∧ c.after < snapshot.generation) := by
  obtain ⟨hwatchers, hcalls, hpublishers⟩ := new_fields hnew
  refine ⟨fun a t => step_generation, fun c hc snapshot hphase => ?_, fun hreach hquiet c hc hphase hlt => ?_⟩
  · have hanswers : Answers s := h.invariant (by simp [Answers, hcalls]) fun hx _ hs => hx.step hs
    exact hanswers c hc snapshot (by rw [hphase]; rfl)
  · have hinv : Inv s := by
      refine hreach.invariant ⟨?_, ?_, ?_⟩ fun hx hok hs => hx.step hok hs
      · simp [hcalls]
      · simp [hwatchers]
      · simp [hpublishers]
    obtain ⟨i, hi⟩ := List.getElem?_of_mem hc
    have hserved := hinv.served i c hi hphase
    have hfull : c.updates.isSome = true := by
      rcases hserved.woken hlt with hfull | ⟨k, x, hx, hmem⟩
      · exact hfull
      · rw [hquiet x (List.mem_of_getElem? hx)] at hmem
        cases hmem
    obtain ⟨snapshot, hsnapshot⟩ := Option.isSome_iff_exists.mp hfull
    exact ⟨snapshot, hsnapshot, hserved.held snapshot hsnapshot⟩

end Paperboat.LocalAPI.SnapshotStore

namespace Paperboat.LocalAPI.Demo

open Transition SnapshotStore

def status (generation : UInt64) : Snapshot Unit := ⟨snapshotSchemaV1, generation, 1, ()⟩

def start : SnapshotStore Unit := { current := some (status 1) }

/-- The second publisher notifies first; the first one finds the channel full, empties it
and puts its older snapshot there. -/
def overtaken (after : UInt64) : List (Action Unit) :=
  [.watch after, .publish (status 2) [0], .publish (status 6) [0], .notify 1, .notify 0, .notify 0, .notify 0]

def older (after : UInt64) : SnapshotStore Unit where
  current := some (status 6)
  watchers := [0]
  calls := [⟨after, some (status 2), .waiting⟩]
  publishers := [⟨status 2, [], .send⟩, ⟨status 6, [], .send⟩]

theorem newer_snapshot_lost :
    ¬ ∀ s, Reach (step fun _ : Unit => true) Always start s → Quiet s → ∀ c ∈ s.calls, c.phase = .waiting →
      c.after < s.generation → ∃ snapshot, c.updates = some snapshot ∧ c.after < snapshot.generation := by
  intro h
  have hrun : run (step fun _ => true) start (overtaken 5) = some (older 5) := rfl
  obtain ⟨snapshot, hupdates, hnewer⟩ := h (older 5) (reach_of_run _ hrun) (by simp [Quiet, older])
    ⟨5, some (status 2), .waiting⟩ (by simp [older]) rfl (by decide)
  cases hupdates
  revert hnewer
  decide

/-- A call that asks for what comes after the current snapshot is served by the older one, too. -/
theorem watcher_woken : runChecked (step fun _ => true) AsksNext start (overtaken 1) = some (older 1) ∧
    ∀ c ∈ (older 1).calls, ∃ snapshot, c.updates = some snapshot ∧ c.after < snapshot.generation := by
  have hrun : runChecked (step fun _ => true) AsksNext start (overtaken 1) = some (older 1) := rfl
  have hnew : new (fun _ => true) (some (status 1)) = .ok start := rfl
  have hmissed := watchers_miss_nothing (fun _ => true) hnew (reach_of_run _ (run_of_runChecked _ hrun))
  refine ⟨hrun, fun c hc => ?_⟩
  have hphase : c.phase = .waiting ∧ c.after < (older 1).generation := by
    cases List.mem_singleton.mp hc
    exact ⟨rfl, by decide⟩
  exact hmissed.2.2 (reach_of_runChecked _ hrun) (by simp [Quiet, older]) c hc hphase.1 hphase.2

end Paperboat.LocalAPI.Demo
