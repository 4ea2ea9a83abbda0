import Paperboat.HostState.Store
import Paperboat.Lib.Transition

/-! The host state survives crashes. Whatever was cut off, the files hold one document for
the next `Open` to find: nothing yet, one of version 0, or a sealed one whose backup is not
ahead of it. -/

namespace Paperboat.HostState

open Crash Crash.Prog Transition

variable {rules : Rules} {digest : File → UInt64}

/-! ### What the files hold -/

/-- A document as `sealDocument` makes them. -/
structure Sealed (rules : Rules) (doc : Document) : Prop where
  revision : doc.revision ≠ 0
  writtenAt : doc.writtenAt ≠ 0
  valid : doc.state.validate rules = true
  normal : normalizeState doc.state = doc.state
  checksum : doc.checksum = rules.checksum doc.revision doc.writtenAt doc.state
  encoded : encodeDocument rules doc = .ok (.current doc)

/-- A text of version 0 that can be read. -/
structure LegacyOk (rules : Rules) (doc : LegacyDocument) (text : String) : Prop where
  valid : doc.state.validate rules = true
  size : text.utf8ByteSize ≤ maxStateBytes

/-- A backup beside its document. -/
def Document.Before (previous doc : Document) : Prop := previous = doc ∨ previous.revision < doc.revision

variable {previous : Document} {primary backup : Option File} {state : State} {revision : UInt64}
    {writtenAt : Time}

theorem Document.Before.not_ahead {doc : Document} (h : previous.Before doc) :
    ¬ doc.revision < previous.revision := by
  rcases h with rfl | hlt
  · exact UInt64.lt_irrefl _
  · exact UInt64.not_lt.mpr (UInt64.le_of_lt hlt)

theorem Document.Before.not_diverged {doc : Document} (h : previous.Before doc) :
    ¬ (previous.revision = doc.revision ∧ previous.checksum ≠ doc.checksum) := by
  rcases h with rfl | hlt
  · exact fun hne => hne.2 rfl
  · exact fun heq => UInt64.ne_of_lt hlt heq.1

inductive Stored where
  | nothing
  | legacy (doc : LegacyDocument)
  | document (doc : Document)

/-- The revision and the state that the next `Open` gives. -/
def Stored.value : Stored → UInt64 × State
  | .nothing => (1, {})
  | .legacy doc => (doc.nextRevision, normalizeState doc.state)
  | .document doc => (doc.revision, doc.state)

/-- What the primary and the backup file hold between them. -/
inductive Files (rules : Rules) : Option File → Option File → Stored → Prop
  | nothing : Files rules none none .nothing
  | legacyPrimary {doc text} (hdoc : LegacyOk rules doc text) :
      Files rules (some (.legacy doc text)) none (.legacy doc)
  | legacyBoth {doc text} (hdoc : LegacyOk rules doc text) :
      Files rules (some (.legacy doc text)) (some (.legacy doc text)) (.legacy doc)
  | legacyBackup {doc text} (hdoc : LegacyOk rules doc text) :
      Files rules none (some (.legacy doc text)) (.legacy doc)
  | alone {doc} (hdoc : Sealed rules doc) : Files rules (some (.current doc)) none (.document doc)
  | besideLegacy {doc old text} (hdoc : Sealed rules doc) (hold : LegacyOk rules old text) :
      Files rules (some (.current doc)) (some (.legacy old text)) (.document doc)
  | copy {doc} (hdoc : Sealed rules doc) :
      Files rules (some (.current doc)) (some (.current doc)) (.document doc)
  | older {doc previous} (hdoc : Sealed rules doc) (hprevious : Sealed rules previous)
      (hlt : previous.revision < doc.revision) :
      Files rules (some (.current doc)) (some (.current previous)) (.document doc)

structure Holds (rules : Rules) (disk : Disk) (stored : Stored) : Prop where
  staging : ∀ raw, disk .staging = some raw → raw.size rules ≤ maxStateBytes
  files : Files rules (disk .primary) (disk .backup) stored

variable {doc : Document} {raw : File} {name : Name} {stored : Stored}

/-- A document of version 0 gives way to any sealed one. -/
theorem Files.migrated (h : Files rules primary backup (.legacy old)) (hdoc : Sealed rules doc) :
    Files rules (some (.current doc)) backup (.document doc) := by
  cases h with
  | legacyPrimary hold => exact .alone hdoc
  | legacyBoth hold => exact .besideLegacy hdoc hold
  | legacyBackup hold => exact .besideLegacy hdoc hold

/-- What stands beside a sealed document. -/
theorem Files.document_cases (h : Files rules primary backup (.document doc)) :
    primary = some (.current doc) ∧ Sealed rules doc ∧ (backup = none ∨
      (∃ old text, backup = some (.legacy old text) ∧ LegacyOk rules old text) ∨
      ∃ previous, backup = some (.current previous) ∧ Sealed rules previous ∧
        previous.Before doc) := by
  cases h with
  | alone hdoc => exact ⟨rfl, hdoc, .inl rfl⟩
  | besideLegacy hdoc hold => exact ⟨rfl, hdoc, .inr (.inl ⟨_, _, rfl, hold⟩)⟩
  | copy hdoc => exact ⟨rfl, hdoc, .inr (.inr ⟨_, rfl, hdoc, .inl rfl⟩)⟩
  | older hdoc hprev hlt => exact ⟨rfl, hdoc, .inr (.inr ⟨_, rfl, hprev, .inr hlt⟩)⟩

/-- The files hold this revision and state. -/
def Keeps (rules : Rules) (value : UInt64 × State) (disk : Disk) : Prop :=
  ∃ stored, Holds rules disk stored ∧ stored.value = value

theorem encodeDocument_ok (h : encodeDocument rules doc = .ok raw) :
    raw = .current doc ∧ (File.current doc).size rules ≤ maxStateBytes := by
  rw [encodeDocument] at h
  split at h
  next => cases h
  next size hsize =>
    split at h
    next => cases h
    next hle =>
      rw [File.size, hsize]
      exact ⟨(Except.ok.inj h).symm, not_lt.mp hle⟩

theorem Sealed.size (h : Sealed rules doc) : (File.current doc).size rules ≤ maxStateBytes :=
  (encodeDocument_ok h.encoded).2

/-- What `sealDocument` gives. -/
theorem sealDocument_ok (h : sealDocument rules state revision writtenAt = .ok (doc, raw)) :
    Sealed rules doc ∧ raw = .current doc ∧ doc.revision = revision ∧
      doc.state = normalizeState state := by
  rw [sealDocument] at h
  dsimp only at h
  split at h
  next => cases h
  next hcond =>
    rw [not_or, not_or, Bool.not_eq_false] at hcond
    obtain ⟨hrevision, hwr, hvalid⟩ := hcond
    cases hfile : encodeDocument rules ⟨revision, writtenAt, normalizeState state,
        rules.checksum revision writtenAt (normalizeState state)⟩ with
    | error err => rw [hfile] at h; cases h
    | ok file =>
      rw [hfile] at h
      cases h
      obtain ⟨rfl, -⟩ := encodeDocument_ok hfile
      exact ⟨⟨hrevision, hwr, hvalid, normalizeState_idem state, rfl, hfile⟩, rfl, rfl, rfl⟩

theorem readCandidate_missing (h : disk name = none) : readCandidate rules disk name = .missing := by
  rw [readCandidate, h]

theorem readCandidate_current (h : disk name = some (.current doc)) (hdoc : Sealed rules doc) :
    readCandidate rules disk name = .current (.current doc) doc := by
  have hgood : ¬ (doc.revision = 0 ∨ doc.writtenAt = 0 ∨ doc.state.validate rules = false ∨
      doc.checksum ≠ rules.checksum doc.revision doc.writtenAt doc.state) := by
    simp [hdoc.revision, hdoc.writtenAt, hdoc.valid, hdoc.checksum]
  simp [readCandidate, h, not_lt.mpr hdoc.size, decodeAnyDocument, hgood, hdoc.normal]

theorem readCandidate_legacy {disk : Disk} {doc : LegacyDocument} {text : String}
    (h : disk name = some (.legacy doc text)) (hdoc : LegacyOk rules doc text) :
    readCandidate rules disk name = .legacy (.legacy doc text) doc := by
  have hsize : ¬ maxStateBytes < (File.legacy doc text).size rules := not_lt.mpr hdoc.size
  simp [readCandidate, h, hsize, decodeAnyDocument, hdoc.valid, Bool.true_eq_false]

/-! ### File operations -/

section Operations

variable {cut : Disk → Prop} {err : StoreError → Disk → Prop} {disk : Disk}

variable {ok : Unit → Disk → Prop}

theorem wpc_writeDurable {wrap : Stage → StoreError} (hbef : cut disk)
    (hafter : cut (Function.update disk name (some raw))) (herr : err (wrap .replace) disk)
    (herr' : err (wrap .syncDir) (Function.update disk name (some raw)))
    (hok : ok () (Function.update disk name (some raw))) :
    (writeDurable name raw wrap).wpc cut err ok disk :=
  wpc_then (wpc_write hbef hafter herr rfl) (wpc_write hafter hafter herr' hok)

theorem wpc_runHook (hcut : cut disk) (herr : err e disk) (hok : ok () disk) :
    (runHook e).wpc cut err ok disk :=
  wpc_write hcut hcut herr hok

theorem wpc_removeStaging (hbef : cut disk) (hafter : cut (Function.update disk .staging none))
    (herr : err e disk) (herr' : err e (Function.update disk .staging none))
    (hok : ok () (Function.update disk .staging none)) : (removeStaging e).wpc cut err ok disk :=
  wpc_then (wpc_write hbef hafter herr rfl) (wpc_write hafter hafter herr' hok)

/-- The files that matter for the next `Open` are the same. -/
structure Working (disk disk' : Disk) : Prop where
  primary : disk' .primary = disk .primary
  backup : disk' .backup = disk .backup
  staging : disk' .staging = disk .staging

theorem Working.refl : Working disk disk := ⟨rfl, rfl, rfl⟩

theorem Working.holds (h : Working disk disk') (hd : Holds rules disk stored) :
    Holds rules disk' stored := by
  obtain ⟨hp, hb, hs⟩ := h
  constructor
  · rw [hs]
    exact hd.staging
  · rw [hp, hb]
    exact hd.files

theorem working_preserved (disk : Disk) (kind : Kind) (code : UInt64) (raw : File) :
    Working disk (Function.update disk (.preserved kind code) (some raw)) :=
  ⟨rfl, rfl, rfl⟩

/-- Keeping a text touches none of the three files. -/
theorem wpc_preserve (hcut : ∀ t, Working disk t → cut t) (herr : ∀ e t, Working disk t → err e t) :
    (preserve rules digest kind raw phase).wpc cut err (fun _ t => Working disk t) disk := by
  have hself : Working disk disk := .refl
  have hwr := working_preserved disk kind (digest raw) raw
  rw [preserve]
  refine wpc_get.mpr ?_
  split
  next existing _ =>
    split
    next => exact herr _ _ hself
    next =>
      split
      next => exact herr _ _ hself
      next =>
        exact wpc_then (wpc_runHook (hcut _ hself) (herr _ _ hself) rfl) hself
  next =>
    refine wpc_then (wpc_writeDurable (hcut _ hself) (hcut _ hwr) (herr _ _ hself)
      (herr _ _ hwr) rfl) ?_
    exact wpc_then (wpc_runHook (hcut _ hwr) (herr _ _ hwr) rfl) hwr

end Operations

section

variable {disk : Disk} (h : Holds rules disk stored)

include h

theorem Holds.stage (hraw : raw.size rules ≤ maxStateBytes) :
    Holds rules (Function.update disk .staging (some raw)) stored := by
  refine ⟨?_, h.files⟩
  rintro _ ⟨⟩
  exact hraw

theorem Holds.clear : Holds rules (Function.update disk .staging none) stored := by
  refine ⟨?_, h.files⟩
  rintro _ ⟨⟩

theorem Holds.publish (hfiles : Files rules (some (.current doc)) (disk .backup) (.document doc)) :
    Holds rules (Function.update disk .primary (some (.current doc))) (.document doc) :=
  ⟨h.staging, hfiles⟩

omit h in
theorem Holds.copy (h : Holds rules disk (.document doc))
    (hprim : disk .primary = some (.current doc)) (hdoc : Sealed rules doc) :
    Holds rules (Function.update disk .backup (some (.current doc))) (.document doc) := by
  refine ⟨h.staging, ?_⟩
  rw [Function.update_of_ne (by decide), Function.update_self, hprim]
  exact .copy hdoc

theorem Holds.keeps : Keeps rules stored.value disk :=
  ⟨stored, h, rfl⟩

end

/-! ### Open -/

/-- A store that runs on what the files hold. -/
structure Opened (rules : Rules) (value : UInt64 × State) (store : Store) (disk : Disk) : Prop where
  holds : Holds rules disk (.document store.document)
  value : (store.document.revision, store.document.state) = value
  uncertain : store.uncertain = false

section Open

variable {disk : Disk} {stored : Stored} {doc : Document} {now : Time} {status : StartupStatus}

theorem wpc_recoverIncomplete (status : StartupStatus) (h : Holds rules disk stored) :
    (recoverIncomplete rules digest status).wpc (Keeps rules stored.value) (fun _ => Keeps rules stored.value)
      (fun _ t => Holds rules t stored) disk := by
  have hkeeps : ∀ t, Working disk t → Keeps rules stored.value t := fun t ht => (ht.holds h).keeps
  rw [recoverIncomplete]
  refine wpc_get.mpr ?_
  split
  next => exact h
  next raw _ =>
    split
    next => exact h.keeps
    next =>
      refine wpc_seq (wpc_preserve hkeeps fun _ => hkeeps) fun name t ht => ?_
      have ht := ht.holds h
      refine wpc_seq (m := fun _ u => Holds rules u stored)
        (wpc_removeStaging ht.keeps ht.clear.keeps ht.keeps ht.clear.keeps ht.clear) ?_
      rintro ⟨⟩ u hu
      exact hu

/-- A document goes to all the names, where the backup file does not contradict it. -/
theorem wpc_publish (phases : Phases) (h : Holds rules disk stored)
    (hdoc : Sealed rules doc) (hvalue : stored.value = (doc.revision, doc.state))
    (hfiles : Files rules (some (.current doc)) (disk .backup) (.document doc)) :
    (publish phases (.current doc)).wpc (Keeps rules stored.value) (fun _ => Keeps rules stored.value)
      (fun _ t => Holds rules t (.document doc)) disk := by
  have hstaged := h.stage hdoc.size
  have hprim := hstaged.publish hfiles
  have hback := hprim.copy rfl hdoc
  have hdone := hback.clear
  have hkeeps : ∀ {t}, Holds rules t (.document doc) → Keeps rules stored.value t := fun ht =>
    ⟨_, ht, hvalue.symm⟩
  rw [publish]
  refine wpc_then (wpc_writeDurable h.keeps hstaged.keeps h.keeps hstaged.keeps rfl) ?_
  refine wpc_then (wpc_runHook hstaged.keeps hstaged.keeps rfl) ?_
  refine wpc_then
    (wpc_writeDurable hstaged.keeps (hkeeps hprim) hstaged.keeps (hkeeps hprim) rfl) ?_
  refine wpc_then (wpc_runHook (hkeeps hprim) (hkeeps hprim) rfl) ?_
  refine wpc_then
    (wpc_writeDurable (hkeeps hprim) (hkeeps hback) (hkeeps hprim) (hkeeps hback) rfl) ?_
  refine wpc_then (wpc_runHook (hkeeps hback) (hkeeps hback) rfl) ?_
  refine wpc_then
    (wpc_removeStaging (hkeeps hback) (hkeeps hdone) (hkeeps hback) (hkeeps hdone) rfl) ?_
  exact wpc_runHook (hkeeps hdone) (hkeeps hdone) hdone

theorem wpc_migrate {doc : LegacyDocument} {raw : File}
    (h : Holds rules disk (.legacy doc)) :
    (migrate rules digest raw doc now status).wpc (Keeps rules (Stored.legacy doc).value)
      (fun _ => Keeps rules (Stored.legacy doc).value) (Opened rules (Stored.legacy doc).value) disk := by
  have hkeeps : ∀ t, Working disk t → Keeps rules (Stored.legacy doc).value t := fun t ht =>
    (ht.holds h).keeps
  rw [migrate]
  split
  next => exact h.keeps
  next =>
    refine wpc_seq (wpc_preserve hkeeps fun _ => hkeeps) fun name t ht => ?_
    have ht := ht.holds h
    split
    next => exact ht.keeps
    next sealed file hseal =>
      obtain ⟨hsealed, rfl, hrevision, hstate⟩ := sealDocument_ok hseal
      have hvalue : (Stored.legacy doc).value = (sealed.revision, sealed.state) := by
        rw [hrevision, hstate, Stored.value]
      refine wpc_seq (wpc_publish _ ht hsealed hvalue (ht.files.migrated hsealed)) ?_
      rintro ⟨⟩ u hu
      exact ⟨hu, hvalue.symm, rfl⟩

theorem wpc_repairBackup (h : Holds rules disk (.document doc))
    (hprim : disk .primary = some (.current doc)) (hdoc : Sealed rules doc) :
    (repairBackup (.current doc) doc status).wpc (Keeps rules (Stored.document doc).value)
      (fun _ => Keeps rules (Stored.document doc).value) (Opened rules (Stored.document doc).value) disk := by
  have hcopy := h.copy hprim hdoc
  rw [repairBackup]
  refine wpc_then (wpc_writeDurable h.keeps hcopy.keeps h.keeps hcopy.keeps rfl) ?_
  exact ⟨hcopy, rfl, rfl⟩

theorem wpc_preserveNoting {cut : Disk → Prop} {err : StoreError → Disk → Prop}
    (hcut : ∀ t, Working disk t → cut t) (herr : ∀ e t, Working disk t → err e t) :
    (preserveNoting rules digest kind raw code status).wpc cut err (fun _ t => Working disk t) disk :=
  wpc_seq (wpc_preserve hcut herr) fun _ _ ht => ht

/-- A sealed primary document is opened as it is, whatever the backup file still holds. -/
theorem wpc_openCurrent (h : Holds rules disk (.document doc)) :
    (openCurrent rules digest (.current doc) doc (readCandidate rules disk .backup) status).wpc
      (Keeps rules (Stored.document doc).value) (fun _ => Keeps rules (Stored.document doc).value)
      (Opened rules (Stored.document doc).value) disk := by
  have hkeeps : ∀ t, Working disk t → Keeps rules (Stored.document doc).value t := fun t ht =>
    (ht.holds h).keeps
  obtain ⟨hprim, hdoc, hback | ⟨old, text, hback, hold⟩ | ⟨previous, hback, hprev, horder⟩⟩ :=
    h.files.document_cases
  · rw [readCandidate_missing hback]
    exact wpc_repairBackup h hprim hdoc
  · rw [readCandidate_legacy hback hold]
    refine wpc_seq (wpc_preserveNoting hkeeps fun _ => hkeeps) fun _ t ht => ?_
    exact wpc_repairBackup (ht.holds h) (ht.primary.trans hprim) hdoc
  · rw [readCandidate_current hback hprev, openCurrent]
    rw [if_neg horder.not_ahead, if_neg horder.not_diverged]
    split
    · refine wpc_seq (wpc_preserveNoting hkeeps fun _ => hkeeps) fun _ t ht => ?_
      exact wpc_repairBackup (ht.holds h) (ht.primary.trans hprim) hdoc
    · exact ⟨h, rfl, rfl⟩

theorem normalizeState_empty : normalizeState {} = {} := rfl

theorem wpc_openInitial (h : Holds rules disk .nothing)
    (hback : disk .backup = none) :
    (openInitial rules now status).wpc (Keeps rules Stored.nothing.value)
      (fun _ => Keeps rules Stored.nothing.value) (Opened rules Stored.nothing.value) disk := by
  rw [openInitial]
  split
  next => exact h.keeps
  next doc raw hseal =>
    obtain ⟨hdoc, rfl, hrevision, hstate⟩ := sealDocument_ok hseal
    have hvalue : Stored.nothing.value = (doc.revision, doc.state) := by
      rw [hrevision, hstate, normalizeState_empty, Stored.value]
    have hfiles : Files rules (some (.current doc)) (disk .backup) (.document doc) := by
      rw [hback]
      exact .alone hdoc
    refine wpc_seq (wpc_publish _ h hdoc hvalue hfiles) ?_
    rintro ⟨⟩ u hu
    exact ⟨hu, hvalue.symm, rfl⟩

/-- The files with a document of version 0, or with nothing. -/
theorem Files.other_cases (h : Files rules primary backup stored) :
    (∃ doc, stored = .document doc) ∨
      (stored = .nothing ∧ primary = none ∧ backup = none) ∨
      ∃ old text, stored = .legacy old ∧ LegacyOk rules old text ∧
        ((primary = some (.legacy old text) ∧ (backup = none ∨ backup = some (.legacy old text))) ∨
          (primary = none ∧ backup = some (.legacy old text))) := by
  cases h with
  | nothing => exact .inr (.inl ⟨rfl, rfl, rfl⟩)
  | legacyPrimary hold => exact .inr (.inr ⟨_, _, rfl, hold, .inl ⟨rfl, .inl rfl⟩⟩)
  | legacyBoth hold => exact .inr (.inr ⟨_, _, rfl, hold, .inl ⟨rfl, .inr rfl⟩⟩)
  | legacyBackup hold => exact .inr (.inr ⟨_, _, rfl, hold, .inr ⟨rfl, rfl⟩⟩)
  | _ => exact .inl ⟨_, rfl⟩

/-- However an attempt to open ends, the files go on holding what they held, and a store
runs on just that. -/
theorem wpc_openStore (h : Holds rules disk stored) :
    (openStore rules digest now).wpc (Keeps rules stored.value) (fun _ => Keeps rules stored.value)
      (Opened rules stored.value) disk := by
  rw [openStore]
  refine wpc_seq (wpc_recoverIncomplete {} h) fun status t ht => ?_
  refine wpc_get.mpr ?_
  obtain ⟨doc, rfl⟩ | ⟨rfl, hprim, hback⟩ | ⟨old, text, rfl, hold, hfiles⟩ := ht.files.other_cases
  · obtain ⟨hprim, hdoc, -⟩ := ht.files.document_cases
    rw [readCandidate_current hprim hdoc]
    exact wpc_openCurrent ht
  · rw [readCandidate_missing hprim, readCandidate_missing hback]
    exact wpc_openInitial ht hback
  · rcases hfiles with ⟨hprim, hback | hback⟩ | ⟨hprim, hback⟩
    · rw [readCandidate_legacy hprim hold, readCandidate_missing hback]
      exact wpc_migrate ht
    · rw [readCandidate_legacy hprim hold, readCandidate_legacy hback hold]
      exact wpc_migrate ht
    · rw [readCandidate_missing hprim, readCandidate_legacy hback hold]
      exact wpc_migrate ht

end Open

/-! ### An attempt that nothing disturbs -/

/-- The version-0 document can be sealed at that time of the clock. -/
structure Fits (rules : Rules) (legacy : LegacyDocument) (now : Time) : Prop where
  writtenAt : laterTime now legacy.writtenAt ≠ 0
  size : ∃ size, encodedSize rules legacy.nextRevision (laterTime now legacy.writtenAt)
    (normalizeState legacy.state) = some size ∧ size < maxStateBytes

/-- What an `Open` needs besides the files being in order: a clock that JSON has a text for,
room for the checksum in a document of version 0, and no preserved text in the place of
another one. -/
structure Admits (rules : Rules) (digest : File → UInt64) (disk : Disk) (now : Time) : Prop where
  clock : disk .primary = none → disk .backup = none → now ≠ 0 ∧ (rules.timeSize now).isSome
  legacy : ∀ doc text, disk .primary = some (.legacy doc text) ∨
    disk .primary = none ∧ disk .backup = some (.legacy doc text) → Fits rules doc now
  free : ∀ name ∈ [Name.primary, Name.backup, Name.staging], ∀ raw, disk name = some raw →
    ∀ kind other, disk (.preserved kind (digest raw)) = some other → other = raw

/-- The disks differ in preserved texts of one kind only. -/
def Beside (kind : Kind) (disk disk' : Disk) : Prop :=
  ∀ name, (∀ code, name ≠ .preserved kind code) → disk' name = disk name

theorem sealDocument_of_size (hrevision : revision ≠ 0) (hwr : writtenAt ≠ 0)
    (hvalid : state.validate rules = true)
    (hsize : encodedSize rules revision writtenAt (normalizeState state) = some size)
    (hlt : size < maxStateBytes) :
    ∃ doc, sealDocument rules state revision writtenAt = .ok (doc, .current doc) := by
  have hgood : ¬ (revision = 0 ∨ writtenAt = 0 ∨ (normalizeState state).validate rules = false) := by
    simp [hrevision, hwr, validate_normalize hvalid]
  refine ⟨⟨revision, writtenAt, normalizeState state,
    rules.checksum revision writtenAt (normalizeState state)⟩, ?_⟩
  simp only [sealDocument, hgood, if_false, encodeDocument, hsize, not_lt.mpr (Nat.succ_le_of_lt hlt)]
  rfl

section Progress

variable {disk : Disk}

theorem returns_preserve {raw : File} {post : Name → Disk → Prop}
    (hsize : raw.size rules ≤ maxStateBytes)
    (hfree : ∀ other, disk (.preserved kind (digest raw)) = some other → other = raw)
    (hpost : ∀ name t, Beside kind disk t → post name t) :
    (preserve rules digest kind raw phase).returns post disk := by
  rw [preserve]
  refine returns_get.mpr ?_
  split
  next existing hexisting =>
    have heq := hfree existing hexisting
    rw [heq, if_neg (not_lt.mpr hsize), if_neg (not_not.mpr rfl)]
    exact hpost _ _ fun _ _ => rfl
  next =>
    refine hpost _ _ fun name hname => ?_
    exact Function.update_of_ne (hname _) _ _

theorem returns_publish : (publish phases raw).returns (fun _ _ => True) disk :=
  trivial

variable {now : Time} {status : StartupStatus}

theorem returns_migrate (hlegacy : LegacyOk rules legacy text) (hfits : Fits rules legacy now)
    (hfree : ∀ other, disk (.preserved .migrationV0 (digest (.legacy legacy text))) = some other →
      other = .legacy legacy text) :
    (migrate rules digest (.legacy legacy text) legacy now status).returns (fun _ _ => True) disk := by
  obtain ⟨size, hsize, hlt⟩ := hfits.size
  have hrevision : legacy.nextRevision ≠ 0 := by
    rw [LegacyDocument.nextRevision]
    split
    · decide
    · assumption
  obtain ⟨doc, hseal⟩ := sealDocument_of_size hrevision hfits.writtenAt hlegacy.valid hsize hlt
  rw [migrate, hlegacy.valid, if_neg (by decide), hseal]
  refine returns_bind.mpr (returns_preserve hlegacy.size hfree fun name t ht => ?_)
  exact returns_bind.mpr (returns_mono returns_publish fun _ _ _ => trivial)

theorem returns_openInitial (hnow : now ≠ 0)
    (htime : (rules.timeSize now).isSome) :
    (openInitial rules now status).returns (fun _ _ => True) disk := by
  obtain ⟨n, hn⟩ := Option.isSome_iff_exists.mp htime
  have hle := rules.timeSize_le now n hn
  have hsize : encodedSize rules 1 now (normalizeState {}) = some (172 + 1 + n + 2) := by
    rw [normalizeState_empty, encodedSize, hn, rules.stateSize_empty]
    rfl
  have hempty : State.validate rules {} = true := by simp [State.validate]
  obtain ⟨doc, hseal⟩ := sealDocument_of_size (by decide) hnow hempty hsize (by
    have : 300 < maxStateBytes := by decide
    omega)
  rw [openInitial, hseal]
  exact returns_bind.mpr (returns_mono returns_publish fun _ _ _ => trivial)

theorem returns_openCurrent (h : Holds rules disk (.document doc))
    (hfree : ∀ raw, disk .backup = some raw → ∀ kind, kind ≠ .incompleteCommit →
      ∀ other, disk (.preserved kind (digest raw)) = some other → other = raw) :
    (openCurrent rules digest (.current doc) doc (readCandidate rules disk .backup) status).returns
      (fun _ _ => True) disk := by
  obtain ⟨hprim, hdoc, hback | ⟨old, text, hback, hold⟩ | ⟨previous, hback, hprev, horder⟩⟩ :=
    h.files.document_cases
  · rw [readCandidate_missing hback]
    trivial
  · rw [readCandidate_legacy hback hold]
    refine returns_bind.mpr (returns_bind.mpr ?_)
    exact returns_preserve hold.size (hfree _ hback _ (by decide)) fun _ _ _ => trivial
  · rw [readCandidate_current hback hprev, openCurrent]
    rw [if_neg horder.not_ahead, if_neg horder.not_diverged]
    split
    · refine returns_bind.mpr (returns_bind.mpr ?_)
      exact returns_preserve hprev.size (hfree _ hback _ (by decide)) fun _ _ _ => trivial
    · trivial

/-- The staging file is kept under another name and goes. -/
theorem returns_recoverIncomplete {post : StartupStatus → Disk → Prop}
    (hsize : ∀ raw, disk .staging = some raw → raw.size rules ≤ maxStateBytes)
    (hfree : ∀ raw, disk .staging = some raw →
      ∀ other, disk (.preserved .incompleteCommit (digest raw)) = some other → other = raw)
    (hpost : ∀ status t, t .staging = none → (∀ name, name ≠ .staging →
      (∀ code, name ≠ .preserved .incompleteCommit code) → t name = disk name) → post status t) :
    (recoverIncomplete rules digest status).returns post disk := by
  rw [recoverIncomplete]
  refine returns_get.mpr ?_
  split
  next hnone => exact hpost _ _ hnone fun _ _ _ => rfl
  next raw hraw =>
    rw [if_neg (not_lt.mpr (hsize raw hraw))]
    refine returns_bind.mpr (returns_preserve (hsize raw hraw) (hfree raw hraw) fun _ t ht => ?_)
    refine hpost _ _ rfl fun name hstaging hname => ?_
    exact (Function.update_of_ne hstaging _ _).trans (ht name hname)

theorem returns_openStore (h : Holds rules disk stored) (hadmits : Admits rules digest disk now) :
    (openStore rules digest now).returns (fun _ _ => True) disk := by
  have hfree := hadmits.free
  refine returns_bind.mpr (returns_recoverIncomplete h.staging
    (fun raw hraw => hfree _ (by decide) raw hraw _) fun status t hstaging ht => ?_)
  have hprim : t .primary = disk .primary := ht _ (by decide) (fun _ => by simp)
  have hback : t .backup = disk .backup := ht _ (by decide) (fun _ => by simp)
  have hpreserved : ∀ kind, kind ≠ .incompleteCommit → ∀ code,
      t (.preserved kind code) = disk (.preserved kind code) := fun kind hkind code =>
    ht _ (by simp) (fun _ heq => hkind (Name.preserved.inj heq).1)
  have hfree' : ∀ {name}, name ∈ [.primary, .backup, .staging] → t name = disk name → ∀ raw, t name = some raw →
      ∀ kind, kind ≠ .incompleteCommit → ∀ other, t (.preserved kind (digest raw)) = some other → other = raw := by
    intro name hname hsame raw hraw kind hkind other hother
    exact hfree _ hname raw (hsame.symm.trans hraw) kind other ((hpreserved kind hkind _).symm.trans hother)
  have hfreeBackup := hfree' (by decide) hback
  have hfreePrimary := hfree' (by decide) hprim
  have hholds : Holds rules t stored := by
    refine ⟨fun raw hraw => ?_, ?_⟩
    · rw [hstaging] at hraw
      cases hraw
    · rw [hprim, hback]
      exact h.files
  refine returns_get.mpr ?_
  obtain ⟨doc, rfl⟩ | ⟨rfl, hp, hb⟩ | ⟨old, text, rfl, hold, hfiles⟩ := hholds.files.other_cases
  · obtain ⟨hp, hdoc, -⟩ := hholds.files.document_cases
    rw [readCandidate_current hp hdoc]
    exact returns_openCurrent hholds hfreeBackup
  · rw [readCandidate_missing hp, readCandidate_missing hb]
    obtain ⟨hnow, htime⟩ := hadmits.clock (hprim.symm.trans hp) (hback.symm.trans hb)
    exact returns_openInitial hnow htime
  · have hfits : Fits rules old now := by
      refine hadmits.legacy old text ?_
      rcases hfiles with ⟨hp, -⟩ | ⟨hp, hb⟩
      · exact .inl (hprim.symm.trans hp)
      · exact .inr ⟨hprim.symm.trans hp, hback.symm.trans hb⟩
    rcases hfiles with ⟨hp, hb | hb⟩ | ⟨hp, hb⟩
    · rw [readCandidate_legacy hp hold, readCandidate_missing hb]
      exact returns_migrate hold hfits (hfreePrimary _ hp _ (by decide))
    · rw [readCandidate_legacy hp hold, readCandidate_legacy hb hold]
      exact returns_migrate hold hfits (hfreePrimary _ hp _ (by decide))
    · rw [readCandidate_missing hp, readCandidate_legacy hb hold]
      exact returns_migrate hold hfits (hfreeBackup _ hb _ (by decide))

end Progress

/-! ### Commit -/

/-- Whether an error leaves open what the files hold. -/
def StoreError.changed : StoreError → Bool
  | .commit _ changed => changed
  | _ => false

section Commit

variable {disk : Disk}

/-- The files hold the one document or the other. -/
def Either (rules : Rules) (current doc : Document) (disk : Disk) : Prop :=
  Holds rules disk (.document current) ∨ Holds rules disk (.document doc)

variable {current : Document}

theorem Holds.back (h : Holds rules disk (.document current)) :
    Holds rules (Function.update disk .backup (some (.current current))) (.document current) :=
  h.copy h.files.document_cases.1 h.files.document_cases.2.1

/-- An error that does not claim a change leaves the document, and one that does leaves the
old or the new one. -/
theorem wpc_commitDocument {doc : Document} (h : Holds rules disk (.document current))
    (hdoc : Sealed rules doc) (hlt : current.revision < doc.revision) :
    (commitDocument rules current doc (.current doc)).wpc (Either rules current doc)
      (fun e t => if e.changed then Either rules current doc t else Holds rules t (.document current))
      (fun d t => d = doc ∧ Holds rules t (.document doc)) disk := by
  obtain ⟨hprim, hcur, -⟩ := h.files.document_cases
  have hstaged := h.stage hdoc.size
  have hback := hstaged.back
  have hnew := hback.publish (.older hdoc hcur hlt)
  have hdone := hnew.clear
  rw [commitDocument, hcur.encoded]
  refine wpc_then (wpc_writeDurable (.inl h) (.inl hstaged) h hstaged rfl) ?_
  refine wpc_then (wpc_runHook (.inl hstaged) hstaged rfl) ?_
  refine wpc_then (wpc_writeDurable (.inl hstaged) (.inl hback) hstaged hback rfl) ?_
  refine wpc_then (wpc_runHook (.inl hback) hback rfl) ?_
  refine wpc_then (wpc_writeDurable (.inl hback) (.inr hnew) hback (.inr hnew) rfl) ?_
  refine wpc_then (wpc_runHook (.inr hnew) (.inr hnew) rfl) ?_
  refine wpc_then (wpc_removeStaging (.inr hnew) (.inr hdone) (.inr hnew) (.inr hdone) rfl) ?_
  refine wpc_then (wpc_runHook (.inr hdone) (.inr hdone) rfl) ?_
  exact ⟨rfl, hdone⟩

variable {store : Store} {expected : UInt64} {next : State} {now : Time} {e : StoreError}

/-- The document that a `Commit` may publish. -/
theorem nextDocument_ok {doc : Document}
    {raw : File} (h : nextDocument rules store expected next now = .ok (doc, raw)) :
    store.uncertain = false ∧ expected = store.document.revision ∧ raw = .current doc ∧ Sealed rules doc ∧
      doc.revision = expected + 1 ∧ doc.state = normalizeState next := by
  rw [nextDocument] at h
  split at h
  next => cases h
  next huncertain =>
    split at h
    next => cases h
    next hexp =>
      split at h
      next => cases h
      next =>
        obtain ⟨hsealed, hraw, hrevision, hstate⟩ := sealDocument_ok h
        rw [normalizeState_idem] at hstate
        exact ⟨Bool.eq_false_of_not_eq_true huncertain, not_not.mp hexp, hraw, hsealed, hrevision, hstate⟩

theorem lt_of_succ_ne_zero {a : UInt64} (h : a + 1 ≠ 0) : a < a + 1 := by
  rw [UInt64.lt_iff_toNat_lt, UInt64.toNat_add]
  have hlt := a.toNat_lt
  have hne : (a + 1).toNat ≠ 0 := fun h0 => h (UInt64.toNat_inj.mp h0)
  rw [UInt64.toNat_add] at hne
  change a.toNat < (a.toNat + 1) % 2 ^ 64
  change (a.toNat + 1) % 2 ^ 64 ≠ 0 at hne
  omega

/-- What a `Commit` answers, with the store and the files after it. -/
def Committed (rules : Rules) (store : Store) (expected : UInt64) (next : State) (disk : Disk)
    (answer : Except StoreError UInt64 × Store) (disk' : Disk) : Prop :=
  match answer.1 with
  | .ok revision => store.uncertain = false ∧ revision = expected + 1 ∧ store.document.revision < revision ∧
      Opened rules (revision, normalizeState next) answer.2 disk'
  | .error err =>
    if err.changed then store.uncertain = false ∧ store.document.revision < expected + 1 ∧
      answer.2 = { store with uncertain := true } ∧
      (Keeps rules (store.document.revision, store.document.state) disk' ∨
        Keeps rules (expected + 1, normalizeState next) disk')
    else answer.2 = store ∧ (disk' = disk ∨
      store.uncertain = false ∧ Holds rules disk' (.document store.document))

theorem committed_unchanged {disk' : Disk}
    (he : e.changed = false)
    (h : disk' = disk ∨ store.uncertain = false ∧ Holds rules disk' (.document store.document)) :
    Committed rules store expected next disk (.error e, store) disk' := by
  simp only [Committed, he, Bool.false_eq_true, if_false]
  exact ⟨trivial, h⟩

theorem sealDocument_error (h : sealDocument rules state revision writtenAt = .error e) :
    e.changed = false := by
  simp only [sealDocument, encodeDocument] at h
  split at h
  next => cases h; rfl
  next =>
    split at h
    next => cases h; rfl
    next =>
      split at h
      next => cases h; rfl
      next => cases h

theorem nextDocument_error
    (h : nextDocument rules store expected next now = .error e) : e.changed = false := by
  rw [nextDocument] at h
  split at h
  next => cases h; rfl
  next =>
    split at h
    next => cases h; rfl
    next =>
      split at h
      next => cases h; rfl
      next => exact sealDocument_error h

/-- What is left by a `Commit` that is cut off. -/
structure CutOff (rules : Rules) (store : Store) (expected : UInt64) (next : State) (disk : Disk) : Prop where
  certain : store.uncertain = false
  lt : store.document.revision < expected + 1
  keeps : Keeps rules (store.document.revision, store.document.state) disk ∨
    Keeps rules (expected + 1, normalizeState next) disk

theorem wpc_commit (h : store.uncertain = false → Holds rules disk (.document store.document)) :
    (commit rules store expected next now).wpc (CutOff rules store expected next) (fun _ _ => False)
      (Committed rules store expected next disk) disk := by
  rw [commit]
  split
  next e he =>
    exact wpc_done.mpr (committed_unchanged (nextDocument_error he) (.inl rfl))
  next doc raw hnext =>
    obtain ⟨hcert, rfl, rfl, hdoc, hrevision, hstate⟩ := nextDocument_ok hnext
    have hlt : store.document.revision < store.document.revision + 1 :=
      lt_of_succ_ne_zero (hrevision ▸ hdoc.revision)
    have heither : ∀ t, Either rules store.document doc t →
        Keeps rules (store.document.revision, store.document.state) t ∨
          Keeps rules (store.document.revision + 1, normalizeState next) t := by
      intro t ht
      refine ht.imp (fun hold => hold.keeps) fun hnew => ?_
      rw [← hrevision, ← hstate]
      exact hnew.keeps
    have hspec := wpc_commitDocument (h hcert) hdoc (hrevision ▸ hlt)
    refine wpc_seq (m := fun result t => match result with
      | .ok d => d = doc ∧ Holds rules t (.document doc)
      | .error e => if e.changed then Either rules store.document doc t
          else Holds rules t (.document store.document))
      (wpc_attempt (wpc_mono hspec (fun t ht => ⟨hcert, hlt, heither t ht⟩) (fun _ _ ht => ht)
        fun _ _ ht => ht)) ?_
    rintro (e | d) t ht
    · split
      next => cases ‹Except.error _ = Except.ok _›
      next phase he =>
        cases he
        exact ⟨hcert, hlt, rfl, heither t ht⟩
      next e' hne he =>
        cases he
        have hchanged : e.changed = false := by
          cases e with
          | commit phase changed =>
            cases changed with
            | true => exact absurd rfl (hne phase)
            | false => rfl
          | _ => rfl
        have ht : Holds rules t (.document store.document) := by simpa [hchanged] using ht
        exact wpc_done.mpr (committed_unchanged hchanged (.inr ⟨hcert, ht⟩))
    · obtain ⟨rfl, hholds⟩ := ht
      exact ⟨hcert, hrevision, hrevision ▸ hlt, hholds, by rw [hstate], hcert⟩

end Commit

end Paperboat.HostState
