import Paperboat.SupervisorUpdate.Check

/-! Grants and rotations over whole histories of calls. `Approve` records a grant in the journal
and the binaries are rotated under it, by the same call or by a later `Check`. The invariant ties the
grant in the journal to the one that was made: while the journal is staged no rotation has begun under
it. It rests on workload generations that are not zero, because `Check` takes a recorded generation
of zero for one that was never recorded. -/

namespace Paperboat.SupervisorUpdate.Manager

/-- `Approve` sees a workload generation that is not zero. -/
def Call.Numbered : Call → Prop
  | .approve env _ => env.snapshot.generation ≠ 0
  | _ => True

variable (m : Manager)

/-- The last snapshot showed no protected workload, or there is a grant for the version and the
generation of that snapshot that had not expired. -/
def Granted (r : Rotation) : Prop :=
  r.last.protectedCount = 0 ∨ ∃ id g, r.approvalID = some id ∧ m.grants[id]? = some g ∧ g.version = r.version ∧
    g.generation = r.last.generation ∧ r.time < g.expiresAt

/-- The grants under which rotations have begun. -/
def used : List ℕ := m.rotations.filterMap (·.approvalID)

/-- A grant in the journal was made for its version and generation, and no rotation has begun
under it while the journal is staged. An idle journal is for no candidate. -/
structure Backed (grants : List Grant) (used : List ℕ) (j : Journal) : Prop where
  unused : ∀ id, j.approvalID = some id → j.stage = .staged → id ∉ used
  made : ∀ id, j.approvalID = some id → ∃ g, grants[id]? = some g ∧ j.approvalVersion = some g.version ∧
    j.approvalExpiresAt = g.expiresAt ∧ j.workloadGeneration = g.generation ∧ g.generation ≠ 0
  idle : j.stage = .idle → j.candidateVersion = none

structure Inv : Prop where
  backed : ∀ j, m.disk = some j → Backed m.grants m.used j
  lt_of_used : ∀ id ∈ m.used, id < m.grants.length
  nodup : m.used.Nodup
  granted : ∀ r ∈ m.rotations, m.Granted r

variable {m} {env : Env}

theorem backed_idleJournal : Backed gs us (idleJournal version now) :=
  ⟨by simp [idleJournal], by simp [idleJournal], fun _ => rfl⟩

/-- Once rotation begins the journal no longer has to be for an unused grant. -/
theorem Backed.rotating (hb : Backed gs us j) (hs : stage = .applying ∨ stage = .committed) :
    Backed gs us' { j with stage, activeVersion, updatedAt } :=
  ⟨by grind, hb.made, by grind⟩

section

variable (h : m.Inv)
include h

theorem Inv.setActive (active : Version) : Inv { m with active } := ⟨h.backed, h.lt_of_used, h.nodup, h.granted⟩

theorem Inv.write (hj : Backed m.grants m.used j)
    (hnext : validJournal j → Inv { m with disk := some j } → (next { m with disk := some j }).1.Inv) :
    (m.write env n j next).1.Inv := by
  unfold Manager.write
  split
  next hw => exact hnext hw.2 ⟨by rintro _ ⟨⟩; exact hj, h.lt_of_used, h.nodup, h.granted⟩
  next => exact h

/-- The call goes on with an idle or staged journal, or with none. -/
theorem Inv.recoverLocked (hnext : ∀ m' : Manager, m'.Inv →
    (∀ j, m'.disk = some j → j.stage = .idle ∨ j.stage = .staged) → (next m').1.Inv) :
    (m.recoverLocked env next).1.Inv := by
  have hidle {m : Manager} (h : m.Inv) (version now) : (m.write env 0 (idleJournal version now) next).1.Inv :=
    h.write backed_idleJournal fun _ hw => hnext _ hw (by rintro _ ⟨⟩; exact .inl rfl)
  unfold Manager.recoverLocked
  split
  next hd => exact hnext m h (by simp [hd])
  next =>
    split
    · exact h
    split
    · exact hnext m h (by simp_all)
    · exact hnext m h (by simp_all)
    · exact h
    · exact h
    split
    · exact hidle (h.setActive _) _ _
    · exact hidle h _ _

/-- The journal is staged for the version, with a grant for it only if there was one. -/
theorem Inv.stageLocked (hd : ∀ j, m.disk = some j → j.stage = .idle ∨ j.stage = .staged)
    (hnext : ∀ m' j, m'.Inv → m'.disk = some j → j.stage = .staged →
      j.candidateVersion = some env.version → (next m').1.Inv) : (m.stageLocked env next).1.Inv := by
  have hload : Backed m.grants m.used (m.loadOrNewJournal env) ∧ (m.loadOrNewJournal env).stage = .staged ∧
      (m.loadOrNewJournal env).candidateVersion = some env.version := by
    have hfresh : Backed m.grants m.used (loadOrNewJournal.fresh env m) :=
      ⟨by simp [loadOrNewJournal.fresh], by simp [loadOrNewJournal.fresh], by simp [loadOrNewJournal.fresh]⟩
    unfold loadOrNewJournal
    split
    next j hj =>
      split
      next hc =>
        -- A journal for a candidate is not idle.
        have hb := h.backed j hj
        exact ⟨hb, (hd j hj).resolve_left fun hi => by simp [hb.idle hi] at hc, hc⟩
      next => exact ⟨hfresh, rfl, rfl⟩
    next => exact ⟨hfresh, rfl, rfl⟩
  unfold Manager.stageLocked
  split
  · exact h
  · exact h.write hload.1 fun _ hw => hnext _ _ hw rfl hload.2.1 hload.2.2

theorem Inv.rotate (hb : Backed m.grants us j) : (m.rotate env j).1.Inv := by
  unfold Manager.rotate
  split
  · exact h.write backed_idleJournal fun _ h => h
  split
  · exact h
  · refine (h.setActive _).write (hb.rotating (.inr rfl)) fun _ hw => ?_
    exact hw.write backed_idleJournal fun _ h => h

/-- A rotation begins with a journal that is no longer staged. -/
theorem Inv.begin {r : Rotation} (hd : ∀ j, m.disk = some j → j.stage ≠ .staged) (hr : m.Granted r)
    (hid : ∀ id, r.approvalID = some id → id < m.grants.length ∧ id ∉ m.used) :
    Inv { m with rotations := r :: m.rotations } where
  backed j hj := ⟨fun _ _ hs => absurd hs (hd j hj), (h.backed j hj).made, (h.backed j hj).idle⟩
  lt_of_used := by
    have := h.lt_of_used
    grind [used]
  nodup := by
    have := h.nodup
    grind [used]
  granted := List.forall_mem_cons.mpr ⟨hr, h.granted⟩

/-- The journal is on disk and its generation is that of the last snapshot; it has a grant unless
the snapshot shows no workload. -/
theorem Inv.applyLocked (hd : m.disk = some j) (hs : j.stage = .staged)
    (hgen : last.generation = j.workloadGeneration) (hgrant : last.protectedCount = 0 ∨ j.approvalID ≠ none) :
    (m.applyLocked env last j).1.Inv := by
  have hb := h.backed j hd
  unfold Manager.applyLocked
  split
  · exact h
  split
  · exact h
  next hversion _ =>
  refine h.write (hb.rotating (.inl rfl)) fun hv hw => ?_
  refine Inv.rotate (hw.begin (by rintro _ ⟨⟩; simp) ?_ ?_) hb
  · rcases hid : j.approvalID with _ | id
    · exact .inl (hgrant.resolve_right (absurd hid))
    · obtain ⟨g, hg, hfor, hexpires, hrecorded, -⟩ := hb.made id hid
      refine .inr ⟨id, g, rfl, hg, ?_, (hgen.trans hrecorded).symm, ?_⟩
      · grind
      -- The journal that says so could be written, so its grant is later than the clock.
      · grind [validJournal]
  · intro id hid
    obtain ⟨g, hg, -⟩ := hb.made id hid
    exact ⟨(List.getElem?_eq_some_iff.mp hg).1, hb.unused id hid hs⟩

theorem Inv.checkStaged (hd : m.disk = some j) (hs : j.stage = .staged)
    (hc : j.candidateVersion = some env.version) : (m.checkStaged env).1.Inv := by
  have hload : m.loadOrNewJournal env = j := by simp [loadOrNewJournal, hd, hc]
  have hb := h.backed j hd
  -- A recorded generation is replaced only where it is zero, so never under a grant.
  have hmade : ∀ id, j.approvalID = some id → (checked env j).workloadGeneration = j.workloadGeneration := by
    intro id hid
    obtain ⟨g, -, -, -, hgen, hne⟩ := hb.made id hid
    exact if_neg (hgen ▸ hne)
  have hb' : Backed m.grants m.used (checked env j) :=
    ⟨hb.unused, fun id hid => hmade id hid ▸ hb.made id hid, hb.idle⟩
  unfold Manager.checkStaged
  rw [hload]
  refine h.write hb' fun _ hw => ?_
  split
  · exact hw
  split
  · exact hw
  next hgen hgrant =>
  apply hw.applyLocked rfl hs (Decidable.not_not.mp hgen)
  grind [grantValid, checked]

theorem Inv.approveStaged (hd : m.disk = some j) (hs : j.stage = .staged)
    (hc : j.candidateVersion = some env.version) (hn : env.snapshot.generation ≠ 0) :
    (m.approveStaged env).1.Inv := by
  have hload : m.loadOrNewJournal env = j := by simp [loadOrNewJournal, hd, hc]
  unfold Manager.approveStaged
  rw [hload, Manager.write]
  dsimp only
  split
  · have hg : Inv ⟨m.active, some (m.granted env j),
        m.grants ++ [⟨env.version, env.snapshot.generation, env.clock 2 + env.grantTTL⟩], m.rotations⟩ := by
      refine ⟨?_, ?_, h.nodup, ?_⟩
      · rintro _ ⟨⟩
        refine ⟨?_, ?_, by simp [Manager.granted, hs]⟩
        · rintro _ ⟨⟩ _ hu
          exact Nat.lt_irrefl _ (h.lt_of_used _ hu)
        · rintro _ ⟨⟩
          exact ⟨_, List.getElem?_concat_length, rfl, rfl, rfl, hn⟩
      · have := h.lt_of_used
        grind [used]
      · have := h.granted
        grind [Granted]
    split
    · exact hg
    split
    · exact hg
    split
    · exact hg
    next hgen => exact hg.applyLocked rfl hs (Decidable.not_not.mp hgen) (.inr (by simp [Manager.granted]))
  · exact h

theorem Inv.call (c : Call) (hc : c.Numbered) : (m.call c).Inv := by
  cases c with
  | check env => exact h.recoverLocked fun _ h hd => h.stageLocked hd fun _ _ h => h.checkStaged
  | approve env version =>
    refine h.recoverLocked fun m h hd => ?_
    split
    · exact h
    · exact h.stageLocked hd fun _ _ h hd hs hv => h.approveStaged hd hs hv hc
  | recover env => exact h.recoverLocked fun _ h _ => h
  | restart active => exact h.setActive active

theorem Inv.calls (cs : List Call) (hcs : ∀ c ∈ cs, c.Numbered) : (cs.foldl Manager.call m).Inv := by
  induction cs generalizing m with
  | nil => exact h
  | cons c cs ih => exact ih (h.call c (hcs c List.mem_cons_self)) fun c' hc => hcs c' (List.mem_cons_of_mem _ hc)

end

/-- Every rotation begins without protected workloads or under a fresh grant for its version and
generation, and no grant begins two. -/
theorem rotations_granted (cs : List Call) (hcs : ∀ c ∈ cs, c.Numbered)
    (hm : cs.foldl call { active := a } = m) : (∀ r ∈ m.rotations, m.Granted r) ∧ m.used.Nodup := by
  have hinv : m.Inv := hm ▸ Inv.calls ⟨by simp, by simp [used], by simp [used], by simp⟩ cs hcs
  exact ⟨hinv.granted, hinv.nodup⟩

/-- `Approve` makes a grant that it cannot use, because the index has changed; the next `Check` finds
the same release and begins. -/
def approvedThenChecked (generation generation' : ℕ) : List Call :=
  [.approve { sample generation 2 with sameRelease := false, grantTTL := 10 } (release 1), .check (sample generation' 2)]

theorem rotations_granted_approved :
    ∃ m, (approvedThenChecked 3 3).foldl call { active := release 0 } = m ∧
      m.rotations.map (·.approvalID) = [some 0] ∧ (∀ r ∈ m.rotations, m.Granted r) ∧ m.used.Nodup :=
  ⟨_, rfl, by decide, rotations_granted _ (by simp [approvedThenChecked, Call.Numbered, sample]) rfl⟩

/-- A grant for generation 0 is taken for one of generation 5. -/
theorem rotation_under_old_grant :
    ∃ m r, (approvedThenChecked 0 5).foldl call { active := release 0 } = m ∧ r ∈ m.rotations ∧ ¬ m.Granted r := by
  refine ⟨_, _, rfl, .head _, ?_⟩
  rintro (h | ⟨id, g, hid, hg, -, hgen, -⟩)
  · cases h
  · cases hid
    cases hg
    cases hgen

end Paperboat.SupervisorUpdate.Manager
