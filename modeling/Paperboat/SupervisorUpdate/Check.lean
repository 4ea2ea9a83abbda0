import Mathlib

/-! `Check` of the supervisor's updates and the journal it goes by: the workload generation and
the grant that earlier calls of `Check`, `Approve` and `Recover` recorded. A file operation or request
that fails ends the call. -/

namespace Paperboat.SupervisorUpdate

/-- The digits between the dots. -/
abbrev Version := List (List ℕ)

/-- The numbers that `Sscanf` reads: it stops at one that is too large, and the rest stay zero. -/
def numbers (v : Version) : List ℕ :=
  ((v.map (List.foldl (10 * · + ·) 0)).takeWhile (· < 2 ^ 64) ++ [0, 0, 0, 0]).take 4

structure WorkloadSnapshot where
  generation : ℕ
  protectedCount : ℕ

inductive Stage where
  | idle | staged | applying | committed | blocked
  deriving DecidableEq, Repr

/-- `none` is the empty text, a time of zero the zero time. -/
structure Journal where
  stage : Stage
  activeVersion : Version
  candidateVersion : Option Version := none
  workloadGeneration : ℕ := 0
  protectedWorkloads : ℕ := 0
  approvalID : Option ℕ := none
  approvalVersion : Option Version := none
  approvalExpiresAt : ℕ := 0
  updatedAt : ℕ

def validJournal (j : Journal) : Prop :=
  j.updatedAt ≠ 0 ∧ (j.approvalVersion = none ∨ j.approvalVersion = j.candidateVersion) ∧
    (j.approvalID = none ∨ j.updatedAt < j.approvalExpiresAt)

instance (j : Journal) : Decidable (validJournal j) := inferInstanceAs (Decidable (_ ∧ _))

def idleJournal (active : Version) (now : ℕ) : Journal := { stage := .idle, activeVersion := active, updatedAt := now }

def grantValid (j : Journal) (version : Version) (now : ℕ) : Bool :=
  j.approvalID ≠ none ∧ j.approvalVersion = some version ∧ j.approvalExpiresAt ≠ 0 ∧ now < j.approvalExpiresAt

/-- What a call meets. -/
structure Env where
  /-- Of the release that is resolved. -/
  version : Version
  snapshot : WorkloadSnapshot
  /-- What `Approve` finds when it resolves and takes the snapshot again. -/
  sameRelease : Bool := true
  latest : WorkloadSnapshot := snapshot
  grantTTL : ℕ := 1
  /-- The current slots hold the candidate's binaries. -/
  allCandidate : Bool := false
  rotated : Bool := true
  /-- The readings of the clock, in the order of the calls to `now`. -/
  clock : ℕ → ℕ
  /-- Whether the file operations and requests of each part succeed. -/
  ok : ℕ → Bool := fun _ => true

inductive Answer where
  | applied | current | recovered | maintenanceRequired | staleWorkloads | approvalExpired | invalidRelease | failed
  deriving DecidableEq, Repr

structure Grant where
  version : Version
  generation : ℕ
  expiresAt : ℕ

/-- A rotation of the binaries that begins, with the last snapshot taken and the grant in the journal. -/
structure Rotation where
  version : Version
  last : WorkloadSnapshot
  time : ℕ
  approvalID : Option ℕ

/-- The manager and the journal on disk. The grants made and the rotations begun are kept along
with them; a random ID is taken to be a place in the list of the grants. -/
structure Manager where
  active : Version
  disk : Option Journal := none
  grants : List Grant := []
  rotations : List Rotation := []

namespace Manager

variable (env : Env) (m : Manager)

def write (n : ℕ) (j : Journal) (next : Manager → Manager × Answer) : Manager × Answer :=
  if env.ok n ∧ validJournal j then next { m with disk := some j } else (m, .failed)

def recoverLocked (next : Manager → Manager × Answer) : Manager × Answer :=
  match m.disk with
  | none => next m
  | some j =>
    if j.activeVersion ≠ m.active ∧ j.stage ≠ .committed ∧
        ¬ (j.stage = .applying ∧ j.candidateVersion = some m.active) then (m, .failed)
    else match j.stage, j.candidateVersion with
      | .idle, _ | .staged, _ => next m
      | .blocked, _ | _, none => (m, .failed)
      | stage, some candidate =>
        if stage = .committed ∨ env.allCandidate then
          { m with active := candidate }.write env 0 (idleJournal candidate (env.clock 0)) next
        else m.write env 0 (idleJournal m.active (env.clock 0)) next

def loadOrNewJournal : Journal :=
  match m.disk with
  | some j => if j.candidateVersion = some env.version then j else fresh
  | none => fresh
where
  fresh : Journal :=
    { stage := .staged, activeVersion := m.active, candidateVersion := some env.version, updatedAt := env.clock 1 }

/-- The rest of `applyLocked` once the journal says that binaries are rotated. -/
def rotate (j : Journal) : Manager × Answer :=
  if env.rotated = false then m.write env 6 (idleJournal m.active (env.clock 6)) (·, .failed)
  else if env.ok 4 = false then (m, .failed)
  else { m with active := env.version }.write env 5
      { j with stage := .committed, activeVersion := env.version, updatedAt := env.clock 5 } fun m =>
    m.write env 6 (idleJournal env.version (env.clock 6)) (·, .applied)

def applyLocked (last : WorkloadSnapshot) (j : Journal) : Manager × Answer :=
  if j.approvalVersion ≠ none ∧ j.approvalVersion ≠ some env.version then (m, .invalidRelease)
  else if 0 < j.protectedWorkloads ∧ grantValid j env.version (env.clock 3) = false then
    (m, if j.approvalID ≠ none ∧ j.approvalVersion = some env.version ∧ j.approvalExpiresAt ≠ 0 then .approvalExpired
      else .maintenanceRequired)
  else m.write env 3 { j with stage := .applying, updatedAt := env.clock 4 } fun m =>
    { m with rotations := ⟨env.version, last, env.clock 4, j.approvalID⟩ :: m.rotations }.rotate env j

/-- Staging, unless the release is not newer. -/
def stageLocked (next : Manager → Manager × Answer) : Manager × Answer :=
  if numbers env.version ≤ numbers m.active then (m, .current) else m.write env 1 (m.loadOrNewJournal env) next

def checked (j : Journal) : Journal :=
  { j with
    workloadGeneration := if j.workloadGeneration = 0 then env.snapshot.generation else j.workloadGeneration
    protectedWorkloads := env.snapshot.protectedCount }

/-- The rest of `Check`, from the snapshot on. -/
def checkStaged : Manager × Answer :=
  let j := checked env (m.loadOrNewJournal env)
  m.write env 2 j fun m =>
    if env.snapshot.generation ≠ j.workloadGeneration then (m, .staleWorkloads)
    else if 0 < j.protectedWorkloads ∧ grantValid j env.version (env.clock 2) = false then (m, .maintenanceRequired)
    else m.applyLocked env env.snapshot j

def check : Manager × Answer := m.recoverLocked env (stageLocked env · (checkStaged env))

def granted (j : Journal) : Journal :=
  { j with
    workloadGeneration := env.snapshot.generation
    protectedWorkloads := env.snapshot.protectedCount
    approvalID := some m.grants.length
    approvalVersion := some env.version
    approvalExpiresAt := env.clock 2 + env.grantTTL }

/-- The rest of `Approve`, from the snapshot on. -/
def approveStaged : Manager × Answer :=
  let j := m.granted env (m.loadOrNewJournal env)
  m.write env 2 j fun m =>
    let m := { m with grants := m.grants ++ [⟨env.version, env.snapshot.generation, env.clock 2 + env.grantTTL⟩] }
    if env.sameRelease = false then (m, .invalidRelease)
    else if env.ok 7 = false then (m, .failed)
    else if env.latest.generation ≠ j.workloadGeneration then (m, .staleWorkloads)
    else m.applyLocked env env.latest j

def approve (version : Version) : Manager × Answer :=
  m.recoverLocked env fun m =>
    if env.version ≠ version then (m, .invalidRelease) else m.stageLocked env (approveStaged env)

def recover : Manager × Answer := m.recoverLocked env (·, .recovered)

inductive Call where
  | check (env : Env)
  | approve (env : Env) (version : Version)
  | recover (env : Env)
  /-- With the release that is installed. -/
  | restart (active : Version)

def call : Call → Manager
  | .check env => (m.check env).1
  | .approve env version => (m.approve env version).1
  | .recover env => (m.recover env).1
  | .restart active => { m with active }

def Valid : Prop := ∀ j, m.disk = some j → validJournal j

/-- The journal has no other workload generation than the snapshot and no grant that expires
before the update is committed. -/
def Unhindered (j : Journal) : Prop :=
  (j.workloadGeneration = 0 ∨ j.workloadGeneration = env.snapshot.generation) ∧
    (j.approvalID = none ∨ env.clock 4 < j.approvalExpiresAt ∧ env.clock 5 < j.approvalExpiresAt)

def Applied (r : Manager × Answer) : Prop :=
  r.2 = .applied ∧ r.1.active = env.version ∧ r.1.disk = some (idleJournal env.version (env.clock 6))

variable {env m}

section

variable (h : m.Valid)
include h

theorem Valid.keep (active : Version) (grants : List Grant) (rotations : List Rotation) :
    Valid ⟨active, m.disk, grants, rotations⟩ := h

theorem Valid.write (hnext : ∀ m, Valid m → (next m).1.Valid) : (m.write env n j next).1.Valid := by
  unfold Manager.write
  split
  next hw => exact hnext _ (by rintro _ ⟨⟩; exact hw.2)
  next => exact h

theorem Valid.recoverLocked (hnext : ∀ m, Valid m → (next m).1.Valid) : (m.recoverLocked env next).1.Valid := by
  unfold Manager.recoverLocked
  split
  · exact hnext m h
  split
  · exact h
  split
  · exact hnext m h
  · exact hnext m h
  · exact h
  · exact h
  split
  · exact (h.keep _ _ _).write hnext
  · exact h.write hnext

theorem Valid.rotate : (m.rotate env j).1.Valid := by
  unfold Manager.rotate
  split
  · exact h.write fun _ => id
  split
  · exact h
  · refine (h.keep _ _ _).write fun m hm => ?_
    exact hm.write fun _ => id

theorem Valid.applyLocked : (m.applyLocked env last j).1.Valid := by
  unfold Manager.applyLocked
  split
  · exact h
  split
  · exact h
  · exact h.write fun m hm => (hm.keep _ _ _).rotate

theorem Valid.stageLocked (hnext : ∀ m, Valid m → (next m).1.Valid) : (m.stageLocked env next).1.Valid := by
  unfold Manager.stageLocked
  split_ifs
  · exact h
  · exact h.write hnext

theorem Valid.checkStaged : (m.checkStaged env).1.Valid := by
  refine h.write fun m hm => ?_
  split_ifs
  · exact hm
  · exact hm
  · exact hm.applyLocked

theorem Valid.approveStaged : (m.approveStaged env).1.Valid := by
  refine h.write fun m hm => ?_
  split_ifs
  · exact hm
  · exact hm
  · exact hm
  · exact (hm.keep _ _ _).applyLocked

/-- Every call leaves a valid journal, if there is one. -/
theorem Valid.call (c : Call) : (m.call c).Valid := by
  cases c with
  | check env => exact h.recoverLocked fun _ hm => hm.stageLocked fun _ => Valid.checkStaged
  | approve env version =>
    refine h.recoverLocked fun m hm => ?_
    split_ifs
    · exact hm
    · exact hm.stageLocked fun _ => Valid.approveStaged
  | recover env => exact h.recoverLocked fun _ => id
  | restart active => exact h

theorem Valid.calls (cs : List Call) : (cs.foldl Manager.call m).Valid := by
  induction cs generalizing m with
  | nil => exact h
  | cons c cs ih => exact ih (h.call c)

end

theorem recoverLocked_settled (hd : m.disk = some j) (hs : j.stage = .idle ∨ j.stage = .staged) :
    m.recoverLocked env next = if j.activeVersion = m.active then next m else (m, .failed) := by
  obtain hs | hs := hs <;> simp [recoverLocked, hd, hs]

theorem loadOrNewJournal_valid (hclock : env.clock 1 ≠ 0) (hdisk : ∀ j, m.disk = some j → validJournal j) :
    validJournal (m.loadOrNewJournal env) ∧ (m.loadOrNewJournal env).candidateVersion = some env.version := by
  have hfresh : validJournal (loadOrNewJournal.fresh env m) := ⟨hclock, .inl rfl, .inl rfl⟩
  grind [loadOrNewJournal, loadOrNewJournal.fresh]

section

variable (hok : ∀ n, env.ok n) (hclock : ∀ n, env.clock n ≠ 0) (hrot : env.rotated = true)
include hok

theorem write_of_valid (hv : validJournal j) : m.write env n j next = next { m with disk := some j } :=
  if_pos ⟨hok n, hv⟩

include hclock hrot

theorem applyLocked_applied_iff (hv : validJournal j) (hc : j.candidateVersion = some env.version)
    (hp : j.protectedWorkloads = 0) : Applied env (m.applyLocked env last j) ↔
      (j.approvalID = none ∨ env.clock 4 < j.approvalExpiresAt ∧ env.clock 5 < j.approvalExpiresAt) := by
  have happroval : ¬ (j.approvalVersion ≠ none ∧ j.approvalVersion ≠ some env.version) := by
    have := hv.2.1
    grind
  rw [applyLocked, if_neg happroval, if_neg (by simp [hp])]
  simp only [rotate, write, hok, hrot]
  grind [validJournal, idleJournal, Applied]

theorem checkStaged_applied_iff (hd : m.disk = some j) (hv : validJournal j)
    (hc : j.candidateVersion = some env.version) (hidle : env.snapshot.protectedCount = 0) :
    Applied env (m.checkStaged env) ↔ Unhindered env j := by
  have hload : m.loadOrNewJournal env = j := by simp [loadOrNewJournal, hd, hc]
  have hv' : validJournal (checked env j) := hv
  rw [checkStaged, hload, write_of_valid hok hv']
  split
  · grind [checked, Unhindered, Applied]
  · rw [if_neg (by simp [checked, hidle]), applyLocked_applied_iff hok hclock hrot hv' hc hidle]
    grind [checked, Unhindered]

/-- On an idle machine `Check` applies a newer release exactly when the journal names the active
release and nothing recorded in it for this candidate stands in the way. -/
theorem idle_machine_updated_iff (hnew : ¬ numbers env.version ≤ numbers m.active)
    (hdisk : ∀ j, m.disk = some j → validJournal j ∧ (j.stage = .idle ∨ j.stage = .staged))
    (hidle : env.snapshot.protectedCount = 0) : Applied env (m.check env) ↔
      ∀ j, m.disk = some j → j.activeVersion = m.active ∧
        (j.candidateVersion = some env.version → Unhindered env j) := by
  obtain ⟨hv, hc⟩ := loadOrNewJournal_valid (hclock 1) fun j hj => (hdisk j hj).1
  have hstaged := checkStaged_applied_iff (m := { m with disk := _ }) hok hclock hrot rfl hv hc hidle
  rw [check]
  rcases hd : m.disk with _ | j
  · rw [recoverLocked, hd]
    dsimp only
    rw [stageLocked, if_neg hnew, write_of_valid hok hv, hstaged]
    simp [loadOrNewJournal, loadOrNewJournal.fresh, Unhindered, hd]
  · rw [recoverLocked_settled hd (hdisk j hd).2]
    split
    · rw [stageLocked, if_neg hnew, write_of_valid hok hv, hstaged]
      grind [loadOrNewJournal, loadOrNewJournal.fresh, Unhindered]
    · grind [Applied]

end

def release (n : ℕ) : Version := [[1], [0], [0], [n]]

def sample (generation workloads : ℕ) : Env where
  version := release 1
  snapshot := ⟨generation, workloads⟩
  clock := (· + 1)

/-- A `Check` that finds a workload, and a restart. -/
def restarted : Manager := [.check (sample 3 1), .restart (release 0)].foldl call { active := release 0 }

theorem idle_machine_updated_same_generation : Applied (sample 3 0) (restarted.check (sample 3 0)) := by
  have hvalid : restarted.Valid := Valid.calls (by rintro _ ⟨⟩) _
  exact (idle_machine_updated_iff (fun _ => rfl) (fun _ => Nat.succ_ne_zero _) rfl (by decide)
    (fun j hj => ⟨hvalid j hj, by cases hj; exact .inr rfl⟩) rfl).mpr
    (by rintro _ ⟨⟩; exact ⟨rfl, fun _ => ⟨.inr rfl, .inl rfl⟩⟩)

theorem idle_machine_held_back :
    restarted.disk.map (·.stage) = some .staged ∧ (restarted.check (sample 4 0)).2 = .staleWorkloads := by decide

end Manager

end Paperboat.SupervisorUpdate
