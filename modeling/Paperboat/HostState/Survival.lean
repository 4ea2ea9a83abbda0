import Paperboat.HostState.CrashSafety

/-! Histories of a state directory: the store is opened, commits are made, the process is
closed or dies anywhere between two file operations. Beside the files, the history notes
what was last acknowledged and the `Commit` whose outcome is open. -/

namespace Paperboat.HostState

open Crash Crash.Prog Transition

/-- A state under the revision it was committed as. -/
structure Entry where
  revision : UInt64
  state : State

def Entry.value (e : Entry) : UInt64 × State := (e.revision, normalizeState e.state)

structure System where
  disk : Disk
  store : Option Store := none
  /-- What the last successful `Commit` gave; before the first one, the content at the start. -/
  settled : Entry
  /-- The `Commit` that was cut off or reported its outcome as uncertain. -/
  inFlight : Option Entry := none

inductive Action where
  | open (now : Time) (faults : List Fault)
  | commit (expected : UInt64) (next : State) (now : Time) (faults : List Fault)
  | close
  | crash

variable (rules : Rules) (digest : File → UInt64)

/-- The entry that an opened store shows. -/
def System.shown (s : System) (store : Store) : Entry :=
  match s.inFlight with
  | some e => if e.revision = store.document.revision then e else s.settled
  | none => s.settled

/-- An `Open` while the store is open finds the lock held, and a `Commit` without a store is
refused. -/
def step (s : System) : Action → Option System
  | .open now faults =>
    if Fault.late ∈ faults then none
    else match s.store with
      | some _ => some s
      | none =>
        match (openStore rules digest now).exec s.disk faults with
        | (.ok store, disk) =>
          some { disk := disk, store := some store, settled := s.shown store, inFlight := none }
        | (_, disk) => some { s with disk := disk }
  | .commit expected next now faults =>
    if Fault.late ∈ faults then none
    else match s.store with
      | none => some s
      | some store =>
        match (commit rules store expected next now).exec s.disk faults with
        | (.ok (.ok revision, store'), disk) =>
          some { disk := disk, store := some store', settled := ⟨revision, next⟩, inFlight := none }
        | (.ok (.error err, store'), disk) =>
          some { s with
            disk := disk
            store := some store'
            inFlight := if err.changed then some ⟨expected + 1, next⟩ else s.inFlight }
        | (.error _, disk) => some { s with disk := disk }
        | (.crash, disk) =>
          some { s with disk := disk, store := none, inFlight := some ⟨expected + 1, next⟩ }
  | .close => some { s with store := none }
  | .crash => some { s with store := none }

/-- The directory is empty, or it holds a document of version 0. -/
inductive Initial : System → Prop
  | empty : Initial { disk := fun _ => none, settled := ⟨1, {}⟩ }
  | legacy {doc text} (disk : Disk) (hdoc : LegacyOk rules doc text)
      (hdisk : ∀ name, disk name = none ∨
        (name = .primary ∨ name = .backup) ∧ disk name = some (.legacy doc text))
      (hsome : disk .primary ≠ none ∨ disk .backup ≠ none) :
      Initial { disk := disk, settled := ⟨doc.nextRevision, doc.state⟩ }

/-! ### The invariant -/

variable {rules digest}

structure Inv (rules : Rules) (s : System) : Prop where
  keeps : Keeps rules s.settled.value s.disk ∨ ∃ e, s.inFlight = some e ∧ Keeps rules e.value s.disk
  later : ∀ e, s.inFlight = some e → s.settled.revision < e.revision
  running : ∀ store, s.store = some store → store.uncertain = false →
    Opened rules s.settled.value store s.disk ∧ s.inFlight = none

variable {s t : System} {store : Store} {disk : Disk} {now : Time} {faults : List Fault}
    {expected : UInt64} {next : State}

theorem Initial.inv (h : Initial rules s) : Inv rules s := by
  cases h with
  | empty =>
    refine ⟨.inl ⟨.nothing, ⟨?_, .nothing⟩, rfl⟩, ?_, ?_⟩
    · rintro _ ⟨⟩
    · rintro _ ⟨⟩
    · rintro _ ⟨⟩
  | @legacy doc text disk hdoc hdisk hsome =>
    refine ⟨.inl ⟨.legacy doc, ⟨?_, ?_⟩, rfl⟩, ?_, ?_⟩
    · intro raw hraw
      rcases hdisk .staging with hnone | ⟨hname, -⟩
      · cases hnone.symm.trans hraw
      · exact absurd hname (by decide)
    · change Files rules (disk .primary) (disk .backup) (.legacy doc)
      rcases hdisk .primary with hp | ⟨-, hp⟩ <;> rcases hdisk .backup with hb | ⟨-, hb⟩
      · exact absurd hsome (by simp [hp, hb])
      · rw [hp, hb]
        exact .legacyBackup hdoc
      · rw [hp, hb]
        exact .legacyPrimary hdoc
      · rw [hp, hb]
        exact .legacyBoth hdoc
    · rintro _ ⟨⟩
    · rintro _ ⟨⟩

section

variable (h : Inv rules s)

include h

/-- A store that opens on what the files keep runs on the entry it shows. -/
theorem Inv.shown (hvalue : value = s.settled.value ∨ ∃ e, s.inFlight = some e ∧ value = e.value)
    (hopened : Opened rules value store disk) : (s.shown store).value = value := by
  have hrevision : store.document.revision = value.1 := congrArg Prod.fst hopened.value
  rw [System.shown]
  rcases hvalue with rfl | ⟨e, he, rfl⟩
  · split
    next e he =>
      have hne : e.revision ≠ store.document.revision := by
        rw [hrevision]
        exact (UInt64.ne_of_lt (h.later e he)).symm
      rw [if_neg hne]
    next => rfl
  · rw [he]
    exact congrArg Entry.value (if_pos hrevision.symm)

theorem Inv.value : ∃ stored, Holds rules s.disk stored ∧
    (stored.value = s.settled.value ∨ ∃ e, s.inFlight = some e ∧ stored.value = e.value) := by
  rcases h.keeps with ⟨stored, hholds, hvalue⟩ | ⟨e, he, stored, hholds, hvalue⟩
  · exact ⟨stored, hholds, .inl hvalue⟩
  · exact ⟨stored, hholds, .inr ⟨e, he, hvalue⟩⟩

theorem Inv.open (hstep : step rules digest s (.open now faults) = some t) : Inv rules t := by
  rw [step] at hstep
  split at hstep
  next => cases hstep
  next hlate =>
    split at hstep
    next => cases hstep; exact h
    next hstore =>
      obtain ⟨stored, hholds, hvalue⟩ := h.value
      have hend := exec_of_wpc (p := openStore rules digest now) (wpc_openStore hholds) hlate
      have hkept : ∀ disk, Keeps rules stored.value disk → Inv rules { s with disk := disk } := by
        rintro disk hkeeps
        refine ⟨?_, h.later, fun store hs => ?_⟩
        · rcases hvalue with heq | ⟨e, he, heq⟩
          · exact .inl (heq ▸ hkeeps)
          · exact .inr ⟨e, he, heq ▸ hkeeps⟩
        · cases hstore.symm.trans hs
      split at hstep
      next store disk hexec =>
        cases hstep
        rw [hexec] at hend
        have hopened : Opened rules stored.value store disk := hend
        have hshown := h.shown hvalue hopened
        refine ⟨.inl ⟨_, hopened.holds, hopened.value.trans hshown.symm⟩, ?_, ?_⟩
        · rintro _ ⟨⟩
        · rintro _ ⟨⟩ -
          refine ⟨?_, rfl⟩
          rw [hshown]
          exact hopened
      next outcome disk hnot hexec =>
        cases hstep
        refine hkept disk ?_
        rw [hexec] at hend
        cases outcome with
        | ok store => exact absurd rfl (hnot store)
        | error e => exact hend
        | crash => exact hend

omit h in
/-- Without a store, or with one that is uncertain, the files and what is in flight decide. -/
theorem Inv.of_keeps
    (hkeeps : Keeps rules s.settled.value s.disk ∨ ∃ e, s.inFlight = some e ∧ Keeps rules e.value s.disk)
    (hlater : ∀ e, s.inFlight = some e → s.settled.revision < e.revision)
    (hstore : ∀ store, s.store = some store → store.uncertain = true) : Inv rules s := by
  refine ⟨hkeeps, hlater, fun store hs hcert => ?_⟩
  cases (hstore store hs).symm.trans hcert

theorem Inv.stop : Inv rules { s with store := none } := by
  refine .of_keeps h.keeps h.later ?_
  rintro _ ⟨⟩

/-- A `Commit` that got past the checks of a store is in flight, and no store is sure of it. -/
theorem Inv.cutOff (hstore : s.store = some store) (hcut : CutOff rules store expected next disk)
    (hleft : ∀ st, left = some st → st.uncertain = true) :
    Inv rules { s with disk := disk, store := left, inFlight := some ⟨expected + 1, next⟩ } := by
  obtain ⟨hopened, -⟩ := h.running store hstore hcut.certain
  have hrevision : store.document.revision = s.settled.revision := congrArg Prod.fst hopened.value
  have hkeeps := hcut.keeps
  rw [hopened.value] at hkeeps
  refine .of_keeps (hkeeps.imp id fun hnew => ⟨_, rfl, hnew⟩) ?_ hleft
  rintro _ ⟨⟩
  exact hrevision ▸ hcut.lt

/-- What a running store does to the invariant when its `Commit` ends. -/
theorem Inv.committed (hstore : s.store = some store)
    (hend : Committed rules store expected next s.disk a disk) :
    Inv rules (match a with
      | (.ok revision, store') =>
        { disk := disk, store := some store', settled := ⟨revision, next⟩, inFlight := none }
      | (.error err, store') =>
        { s with
          disk := disk
          store := some store'
          inFlight := if err.changed then some ⟨expected + 1, next⟩ else s.inFlight }) := by
  obtain ⟨err | revision, store'⟩ := a
  · rw [Committed] at hend
    dsimp only at hend ⊢
    split at hend
    next hchanged =>
      obtain ⟨hcert, hlt, rfl, hkeeps⟩ := hend
      rw [if_pos hchanged]
      exact h.cutOff hstore ⟨hcert, hlt, hkeeps⟩ (by rintro _ ⟨⟩; rfl)
    next hchanged =>
      obtain ⟨rfl, hdisk⟩ := hend
      rw [if_neg hchanged]
      rcases hdisk with rfl | ⟨hcert, hholds⟩
      · exact ⟨h.keeps, h.later, fun st hs hcert => by
          cases hs
          exact h.running _ hstore hcert⟩
      · obtain ⟨hopened, hnone⟩ := h.running _ hstore hcert
        refine ⟨.inl ⟨_, hholds, hopened.value⟩, h.later, ?_⟩
        rintro _ ⟨⟩ -
        exact ⟨⟨hholds, hopened.value, hcert⟩, hnone⟩
  · obtain ⟨-, -, -, hopened⟩ := hend
    refine ⟨.inl ⟨_, hopened.holds, hopened.value⟩, ?_, ?_⟩
    · rintro _ ⟨⟩
    · rintro _ ⟨⟩ -
      exact ⟨hopened, rfl⟩

theorem Inv.commit_ends (expected : UInt64) (next : State) (now : Time) (hstore : s.store = some store)
    (hlate : Fault.late ∉ faults) :
    ends (CutOff rules store expected next) (fun _ _ => False) (Committed rules store expected next s.disk)
      ((HostState.commit rules store expected next now).exec s.disk faults).1
      ((HostState.commit rules store expected next now).exec s.disk faults).2 :=
  exec_of_wpc (wpc_commit fun hcert => (h.running store hstore hcert).1.holds) hlate

theorem Inv.commit (hstep : step rules digest s (.commit expected next now faults) = some t) :
    Inv rules t := by
  rw [step] at hstep
  split at hstep
  next => cases hstep
  next hlate =>
    split at hstep
    next => cases hstep; exact h
    next store hstore =>
      have hend := h.commit_ends expected next now hstore hlate
      split at hstep
      next revision store' disk hexec =>
        cases hstep
        rw [hexec] at hend
        exact h.committed hstore (a := (.ok revision, store')) hend
      next err store' disk hexec =>
        cases hstep
        rw [hexec] at hend
        exact h.committed hstore (a := (.error err, store')) hend
      next err disk hexec =>
        rw [hexec] at hend
        exact hend.elim
      next disk hexec =>
        cases hstep
        rw [hexec] at hend
        exact h.cutOff hstore hend nofun

theorem Inv.step (hstep : step rules digest s a = some t) : Inv rules t := by
  cases a with
  | «open» now faults => exact h.open hstep
  | commit expected next now faults => exact h.commit hstep
  | close => cases hstep; exact h.stop
  | crash => cases hstep; exact h.stop

end

theorem inv_of_reach (h₀ : Initial rules s₀) (h : Reach (HostState.step rules digest) Always s₀ s) :
    Inv rules s :=
  h.invariant h₀.inv fun hx _ hstep => hx.step hstep

/-! ### Survival -/

/-- An undisturbed `Open` of these files succeeds, and its store shows the revision and the
state. -/
def Opens (rules : Rules) (digest : File → UInt64) (disk : Disk) (now : Time) (value : UInt64 × State) : Prop :=
  ∃ store disk', (openStore rules digest now).exec disk [] = (.ok store, disk') ∧
    snapshot store = .ok (value.2, value.1)

theorem opens_of_holds {stored : Stored} (h : Holds rules disk stored)
    (hadmits : Admits rules digest disk now) : Opens rules digest disk now stored.value := by
  obtain ⟨store, hok, -⟩ := exec_of_returns (returns_openStore h hadmits)
  have hend := exec_of_wpc (p := openStore rules digest now) (wpc_openStore h) (List.not_mem_nil (a := Fault.late))
  rw [hok] at hend
  have hopened : Opened rules stored.value store _ := hend
  refine ⟨store, _, Prod.ext hok rfl, ?_⟩
  rw [snapshot, hopened.uncertain, ← hopened.value]
  rfl

/-- The next `Open` shows what was last acknowledged or the one `Commit` in flight, never
anything older. -/
theorem Inv.opens (h : Inv rules s) (hadmits : Admits rules digest s.disk now) :
    ∃ e, (e = s.settled ∨ s.inFlight = some e) ∧ s.settled.revision ≤ e.revision ∧
      Opens rules digest s.disk now e.value := by
  obtain ⟨stored, hholds, hvalue⟩ := h.value
  have hopens := opens_of_holds hholds hadmits
  rcases hvalue with heq | ⟨e, he, heq⟩
  · exact ⟨s.settled, .inl rfl, UInt64.le_refl _, heq ▸ hopens⟩
  · exact ⟨e, .inr he, UInt64.le_of_lt (h.later e he), heq ▸ hopens⟩

theorem Inv.snapshot (h : Inv rules s) (hstore : s.store = some store) {state : State}
    (hsnap : snapshot store = .ok (state, revision)) :
    state.validate rules = true ∧ (revision, state) = s.settled.value := by
  rw [HostState.snapshot] at hsnap
  split at hsnap
  next => cases hsnap
  next hcert =>
    cases hsnap
    obtain ⟨hopened, -⟩ := h.running store hstore (Bool.eq_false_of_not_eq_true hcert)
    obtain ⟨-, hsealed, -⟩ := hopened.holds.files.document_cases
    exact ⟨hsealed.valid, hopened.value⟩

/-- An error that does not claim a change leaves the store, and the next `Open` shows what
it would have shown before. -/
theorem Inv.unchanged (h : Inv rules s) (hstore : s.store = some store)
    (hlate : Fault.late ∉ faults) {err : StoreError}
    (hexec : (HostState.commit rules store expected next now).exec s.disk faults = (.ok (.error err, store'), disk))
    (herr : err.changed = false) : store' = store ∧
      (disk = s.disk ∨ store.uncertain = false ∧ Holds rules disk (.document store.document)) := by
  have hend := h.commit_ends expected next now hstore hlate
  rw [hexec] at hend
  simpa [ends, Committed, herr] using hend

/-- In every history, and wherever an `Open` can seal what it has to: the next `Open`
succeeds and shows what was last acknowledged or the one `Commit` in flight; a snapshot is
valid and what was committed; an error that does not claim a change leaves the state. -/
theorem host_state_survives {s₀ s : System} (h₀ : Initial rules s₀)
    (h : Reach (step rules digest) Always s₀ s) :
    (s.store = none → ∀ now, Admits rules digest s.disk now →
      ∃ e, (e = s.settled ∨ s.inFlight = some e) ∧ s.settled.revision ≤ e.revision ∧
        Opens rules digest s.disk now e.value) ∧
    (∀ store state revision, s.store = some store → snapshot store = .ok (state, revision) →
      state.validate rules = true ∧ (revision, state) = s.settled.value) ∧
    (∀ store store' expected next now faults err disk, s.store = some store → Fault.late ∉ faults →
      (commit rules store expected next now).exec s.disk faults = (.ok (.error err, store'), disk) →
      err.changed = false → store' = store ∧ ∀ now', Admits rules digest s.disk now' →
        Admits rules digest disk now' → ∃ value, Opens rules digest s.disk now' value ∧
          Opens rules digest disk now' value) := by
  have hinv := inv_of_reach h₀ h
  refine ⟨fun _ now hadmits => hinv.opens hadmits, fun store state revision hstore hsnapshot =>
    hinv.snapshot hstore hsnapshot, ?_⟩
  intro store store' expected next now faults err disk hstore hlate hexec herr
  obtain ⟨rfl, hdisk⟩ := hinv.unchanged hstore hlate hexec herr
  refine ⟨rfl, fun now' hbefore hafter => ?_⟩
  rcases hdisk with rfl | ⟨hcertain, hholds⟩
  · obtain ⟨e, -, -, hopens⟩ := hinv.opens hbefore
    exact ⟨e.value, hopens, hopens⟩
  · obtain ⟨hopened, -⟩ := hinv.running _ hstore hcertain
    exact ⟨_, opens_of_holds hopened.holds hbefore, opens_of_holds hholds hafter⟩

namespace Demo

/-- Rules under which only the empty state is valid. Times have a text up to the end of the
year 9999. -/
def emptyRules : Rules where
  canonical _ := none
  decode _ := none
  contentHash _ := ""
  endpointID _ := none
  credentialReference _ := false
  timeSize t := if t < 315537897600 * 10 ^ 9 then some 22 else none
  stateSize _ := some 2
  checksum _ _ _ := ""
  timeSize_le t n h := by
    split at h
    · cases h
      decide
    · cases h
  stateSize_empty := rfl

def zeroDigest : File → UInt64 := fun _ => 0

/-- Written in the last second of the year 9999, an hour west of Greenwich. -/
def lastSecond : LegacyDocument := ⟨1, (315537897599 + 3600) * 10 ^ 9, {}⟩

def lastSecondText : String :=
  "\x7b\"schema\":\"paperboat.host-state\",\"schema_version\":0,\"revision\":1,\"written_at\":\"9999-12-31T23:59:59-01:00\",\"state\":\x7b\x7d\x7d"

def blocked : System where
  disk name := if name = .primary then some (.legacy lastSecond lastSecondText) else none
  settled := ⟨1, {}⟩

/-- In the summer of 2025. -/
def today : Time := 63888000000 * 10 ^ 9

end Demo

/-- In UTC the document is from the year 10000, which has no text in JSON, and it cannot be
migrated. -/
theorem open_blocked_by_late_document : Initial Demo.emptyRules Demo.blocked ∧
    Demo.blocked.store = none ∧
    ((openStore Demo.emptyRules Demo.zeroDigest Demo.today).exec Demo.blocked.disk []).1 =
      .error .unmarshalable := by
  have hdoc : LegacyOk Demo.emptyRules Demo.lastSecond Demo.lastSecondText := ⟨by decide, by decide⟩
  refine ⟨.legacy _ hdoc ?_ (.inl ?_), rfl, ?_⟩
  · intro name
    by_cases hname : name = .primary
    · exact .inr ⟨.inl hname, if_pos hname⟩
    · exact .inl (if_neg hname)
  · simp
  · decide +kernel

namespace Demo

/-- An empty directory, opened; then a `Commit` dies between the rename of the primary file
and its sync. -/
def cutActions : List Action :=
  [.open today [], .commit 1 {} today (List.replicate 6 .done ++ [.cutAfter])]

def empty : System := { disk := fun _ => none, settled := ⟨1, {}⟩ }

theorem cut_enabled : (run (step emptyRules zeroDigest) empty cutActions).isSome := by decide +kernel

def cut : System := final (step emptyRules zeroDigest) empty cutActions cut_enabled

theorem cut_store : cut.store = none := rfl

theorem cut_primary : cut.disk .primary ≠ none := by decide +kernel

theorem cut_files : ∀ name ∈ [Name.primary, Name.backup, Name.staging], ∀ doc text,
    cut.disk name ≠ some (.legacy doc text) := by
  intro name hname doc text
  fin_cases hname <;> exact fun h => File.noConfusion (Option.some.inj h)

theorem cut_preserved (kind : Kind) (code : UInt64) : cut.disk (.preserved kind code) = none := rfl

end Demo

theorem host_state_survives_cut : Demo.cut.store = none ∧ Demo.cut.inFlight = some ⟨2, {}⟩ ∧
    ∃ e, (e = Demo.cut.settled ∨ Demo.cut.inFlight = some e) ∧ Demo.cut.settled.revision ≤ e.revision ∧
      Opens Demo.emptyRules Demo.zeroDigest Demo.cut.disk Demo.today e.value := by
  refine ⟨Demo.cut_store, rfl, (host_state_survives .empty (reach_final _ Demo.cut_enabled)).1
    Demo.cut_store Demo.today ⟨fun hnone => absurd hnone Demo.cut_primary, ?_, ?_⟩⟩
  · rintro doc text (h | ⟨-, h⟩)
    · exact absurd h (Demo.cut_files _ (by decide) _ _)
    · exact absurd h (Demo.cut_files _ (by decide) _ _)
  · intro name _ raw _ kind other hother
    cases (Demo.cut_preserved kind _).symm.trans hother

end Paperboat.HostState
