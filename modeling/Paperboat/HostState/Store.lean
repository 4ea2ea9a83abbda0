import Paperboat.HostState.State
import Paperboat.Lib.Crash

/-! The store of the host state. A document is published under the primary name, the one
before it stays under the backup name, and the one that is being written lies under the
staging name. A write replaces a whole file or leaves it; the sync of the directory after
it may fail on its own. The contents of a file are kept by what the decoder makes of them:
a sealed document, a document of version 0, one of a newer schema, or anything else. -/

namespace Paperboat.HostState

open Crash

structure Document where
  revision : UInt64
  writtenAt : Time
  state : State
  checksum : String
  deriving DecidableEq, Repr

/-- A document of version 0, from before there were checksums. -/
structure LegacyDocument where
  revision : UInt64
  writtenAt : Time
  state : State
  deriving DecidableEq, Repr

/-- The contents of a file. A sealed document has one text, the one that `encodeDocument`
gives. -/
inductive File where
  | current (doc : Document)
  | legacy (doc : LegacyDocument) (text : String)
  | newer (text : String)
  | other (text : String)
  deriving DecidableEq, Repr

/-- What a text is preserved as. -/
inductive Kind where
  | incompleteCommit | corruptPrimary | corruptBackup | legacyBackup | staleBackup | migrationV0
  deriving DecidableEq, Repr

/-- A preserved text has its kind and the first eight bytes of its digest in its name. -/
inductive Name where
  | primary
  | backup
  | staging
  | preserved (kind : Kind) (digest : UInt64)
  deriving DecidableEq, Repr

abbrev Disk := Name → Option File

inductive Phase where
  | commitStaged | commitBackupSynced | commitPrimarySynced | commitCleanupSynced
  | migrationSourcePreserved | migrationStaged | migrationPrimarySynced | migrationBackupSynced
  | migrationCleanupSynced | recoveryCorruptionSaved | recoveryBackupRestored
  | recoveryIncompleteSaved
  deriving DecidableEq, Repr

/-- Where a write failed: up to the rename, or at the sync of the directory after it. -/
inductive Stage where
  | replace
  | syncDir
  deriving DecidableEq, Repr

inductive StoreError where
  | locked | conflict | corrupt | incompatible | closed | uncertain | invalidState | unmarshalable
  | write (stage : Stage)
  | hook (phase : Phase)
  | remove
  | commit (phase : Phase) (changed : Bool)
  deriving DecidableEq, Repr

structure StartupStatus where
  degraded : Bool := false
  code : String := "ready"
  source : String := "primary"
  preservedPaths : List Name := []
  deriving DecidableEq, Repr

structure Store where
  document : Document
  status : StartupStatus
  uncertain : Bool := false
  deriving DecidableEq, Repr

variable (rules : Rules) (digest : File → UInt64)

/-! ### Documents -/

/-- The length of a sealed document in JSON. What stands around the revision, the time and
the state has 172 bytes, the checksum among them. -/
def encodedSize (revision : UInt64) (writtenAt : Time) (state : State) : Option ℕ := do
  let time ← rules.timeSize writtenAt
  let content ← rules.stateSize state
  some (172 + (Nat.toDigits 10 revision.toNat).length + time + content)

variable (now : Time) (raw : File) (doc : Document) (status : StartupStatus)

def encodeDocument : Except StoreError File :=
  match encodedSize rules doc.revision doc.writtenAt doc.state with
  | none => .error .unmarshalable
  | some size => if maxStateBytes < size + 1 then .error .invalidState else .ok (.current doc)

def sealDocument (state : State) (revision : UInt64) (writtenAt : Time) :
    Except StoreError (Document × File) :=
  let state := normalizeState state
  if revision = 0 ∨ writtenAt = 0 ∨ state.validate rules = false then .error .invalidState
  else
    let doc : Document := ⟨revision, writtenAt, state, rules.checksum revision writtenAt state⟩
    (encodeDocument rules doc).map fun file => (doc, file)

def decodeAnyDocument : File → Except StoreError (Document ⊕ LegacyDocument)
  | .current doc =>
    if doc.revision = 0 ∨ doc.writtenAt = 0 ∨ doc.state.validate rules = false ∨
        doc.checksum ≠ rules.checksum doc.revision doc.writtenAt doc.state then .error .corrupt
    else .ok (.inl { doc with state := normalizeState doc.state })
  | .legacy doc _ => if doc.state.validate rules = false then .error .corrupt else .ok (.inr doc)
  | .newer _ => .error .incompatible
  | .other _ => .error .corrupt

/-- The length of a file. -/
def File.size : File → ℕ
  | .current doc => (encodedSize rules doc.revision doc.writtenAt doc.state).elim 0 (· + 1)
  | .legacy _ text => text.utf8ByteSize
  | .newer text => text.utf8ByteSize
  | .other text => text.utf8ByteSize

inductive Candidate where
  | missing
  | unreadable
  | failed (raw : File) (err : StoreError)
  | legacy (raw : File) (doc : LegacyDocument)
  | current (raw : File) (doc : Document)

def readCandidate (disk : Disk) (name : Name) : Candidate :=
  match disk name with
  | none => .missing
  | some raw =>
    if maxStateBytes < raw.size rules then .unreadable
    else match decodeAnyDocument rules raw with
      | .error err => .failed raw err
      | .ok (.inl doc) => .current raw doc
      | .ok (.inr doc) => .legacy raw doc

/-! ### File operations -/

/-- `writeDurable`, with the error that its caller makes of a failure. -/
def writeDurable (name : Name) (raw : File) (wrap : Stage → StoreError) : Prog Disk StoreError Unit := do
  Prog.write (wrap .replace) fun disk => Function.update disk name (some raw)
  Prog.write (wrap .syncDir) id

def runHook (err : StoreError) : Prog Disk StoreError Unit := Prog.write err id

/-- `removeStaging`: the removal, then the sync of the directory. -/
def removeStaging (err : StoreError) : Prog Disk StoreError Unit := do
  Prog.write err fun disk => Function.update disk .staging none
  Prog.write err id

def preserve (kind : Kind) (raw : File) (phase : Phase) : Prog Disk StoreError Name := do
  let name := Name.preserved kind (digest raw)
  let disk ← Prog.get
  match disk name with
  | some existing =>
    if maxStateBytes < existing.size rules then .fail .invalidState
    else if existing ≠ raw then .fail .corrupt
    else do
      runHook (.commit phase false)
      return name
  | none => do
    writeDurable name raw fun _ => .commit phase false
    runHook (.commit phase false)
    return name

def recoverIncomplete : Prog Disk StoreError StartupStatus := do
  let disk ← Prog.get
  match disk .staging with
  | none => return status
  | some raw =>
    if maxStateBytes < raw.size rules then .fail .corrupt
    else do
      let preserved ← preserve rules digest .incompleteCommit raw .recoveryIncompleteSaved
      removeStaging .remove
      return { status with
        degraded := true
        code := "incomplete_commit_preserved"
        preservedPaths := status.preservedPaths ++ [preserved] }

/-! ### Publication -/

/-- The phases of a first publication or a migration. -/
structure Phases where
  staged : Phase
  primarySynced : Phase
  backupSynced : Phase
  cleanupSynced : Phase

def atomicWriteMayHaveChanged (stage : Stage) : Bool := stage = .syncDir

/-- The document goes to the staging, primary and backup names, and the staging one is
removed. -/
def publish (phases : Phases) (raw : File) : Prog Disk StoreError Unit := do
  writeDurable .staging raw fun _ => .commit phases.staged false
  runHook (.commit phases.staged false)
  writeDurable .primary raw fun stage => .commit phases.primarySynced (atomicWriteMayHaveChanged stage)
  runHook (.commit phases.primarySynced true)
  writeDurable .backup raw fun _ => .commit phases.backupSynced true
  runHook (.commit phases.backupSynced true)
  removeStaging (.commit phases.cleanupSynced true)
  runHook (.commit phases.cleanupSynced true)

def publishInitial : Prog Disk StoreError Unit :=
  publish ⟨.commitStaged, .commitPrimarySynced, .commitBackupSynced, .commitCleanupSynced⟩ raw

/-- The revision that a document of version 0 goes on with. -/
def LegacyDocument.nextRevision (legacy : LegacyDocument) : UInt64 :=
  if legacy.revision = 0 then 1 else legacy.revision

/-- The later of the clock's time and the time of the document before. -/
def laterTime (now previous : Time) : Time := if now < previous then previous else now

def migrate (source : File) (legacy : LegacyDocument) (now : Time) (status : StartupStatus) :
    Prog Disk StoreError Store :=
  if legacy.state.validate rules = false then .fail .corrupt
  else do
    let preserved ← preserve rules digest .migrationV0 source .migrationSourcePreserved
    match sealDocument rules legacy.state legacy.nextRevision (laterTime now legacy.writtenAt) with
    | .error err => .fail err
    | .ok (doc, raw) => do
      publish ⟨.migrationStaged, .migrationPrimarySynced, .migrationBackupSynced,
        .migrationCleanupSynced⟩ raw
      return { document := doc
               status := { status with
                 code := "migrated_v0_to_v1"
                 source := "migration"
                 preservedPaths := status.preservedPaths ++ [preserved] } }

/-! ### Open -/

/-- Keep a text and note it in the status. -/
def preserveNoting (kind : Kind) (raw : File) (code : String) (status : StartupStatus) :
    Prog Disk StoreError StartupStatus := do
  let preserved ← preserve rules digest kind raw .recoveryCorruptionSaved
  return { status with
    degraded := true
    code := code
    preservedPaths := status.preservedPaths ++ [preserved] }

/-- `Open` where the primary file is a document of version 0. -/
def openLegacy (legacy : LegacyDocument) (backup : Candidate) (now : Time)
    (status : StartupStatus) : Prog Disk StoreError Store :=
  match backup with
  | .failed _ .incompatible => .fail .incompatible
  | .unreadable => .fail .corrupt
  | .current _ _ => .fail .corrupt
  | .failed text _ => do
    let status ← preserveNoting rules digest .corruptBackup text "backup_corrupt_before_migration" status
    migrate rules digest raw legacy now status
  | .missing => migrate rules digest raw legacy now status
  | .legacy _ _ => migrate rules digest raw legacy now status

/-- The backup file becomes a copy of the primary one. -/
def repairBackup : Prog Disk StoreError Store := do
  writeDurable .backup raw .write
  return { document := doc, status := status }

/-- `Open` where the primary file is a sealed document. -/
def openCurrent (backup : Candidate) (status : StartupStatus) : Prog Disk StoreError Store :=
  match backup with
  | .failed _ .incompatible => .fail .incompatible
  | .missing => repairBackup raw doc { status with degraded := true, code := "backup_missing_repaired" }
  | .unreadable => do
    -- there is no text to keep, so an empty one is kept
    let status ← preserveNoting rules digest .corruptBackup (.other "") "backup_corrupt_repaired" status
    repairBackup raw doc status
  | .failed text _ => do
    let status ← preserveNoting rules digest .corruptBackup text "backup_corrupt_repaired" status
    repairBackup raw doc status
  | .legacy text _ => do
    let status ← preserveNoting rules digest .legacyBackup text "backup_legacy_repaired" status
    repairBackup raw doc status
  | .current text previous =>
    if doc.revision < previous.revision then .fail .corrupt
    else if previous.revision = doc.revision ∧ previous.checksum ≠ doc.checksum then .fail .corrupt
    else if previous.revision < doc.revision ∧ 1 < doc.revision - previous.revision then do
      let status ← preserveNoting rules digest .staleBackup text "backup_stale_repaired" status
      repairBackup raw doc status
    else return { document := doc, status := status }

/-- A document of revision 1 without any content. -/
def openInitial : Prog Disk StoreError Store :=
  match sealDocument rules {} 1 now with
  | .error err => .fail err
  | .ok (doc, raw) => do
    publishInitial raw
    return { document := doc, status := { status with code := "initialized", source := "initial" } }

/-- `Open` where the primary file is missing or has no document. -/
def openBackup (primaryExists : Bool) (backup : Candidate) (now : Time) (status : StartupStatus) :
    Prog Disk StoreError Store :=
  match backup with
  | .failed _ .incompatible => .fail .incompatible
  | .legacy raw legacy =>
    migrate rules digest raw legacy now
      { status with degraded := true, code := "primary_recovered_from_legacy_backup", source := "backup" }
  | .current raw doc => do
    writeDurable .primary raw .write
    runHook (.hook .recoveryBackupRestored)
    return { document := doc
             status := { status with
               degraded := true
               source := "backup"
               code := if primaryExists then "primary_corrupt_recovered_from_backup"
                 else "primary_missing_recovered_from_backup" } }
  | .unreadable => .fail .corrupt
  | .failed raw _ => do
    let _ ← preserve rules digest .corruptBackup raw .recoveryCorruptionSaved
    .fail .corrupt
  | .missing => if primaryExists then .fail .corrupt else openInitial rules now status

/-- `Open`, once the lock is held. -/
def openStore : Prog Disk StoreError Store := do
  let status ← recoverIncomplete rules digest {}
  let disk ← Prog.get
  let backup := readCandidate rules disk .backup
  match readCandidate rules disk .primary with
  | .failed _ .incompatible => .fail .incompatible
  | .legacy raw legacy => openLegacy rules digest raw legacy backup now status
  | .current raw doc => openCurrent rules digest raw doc backup status
  | .unreadable => .fail .corrupt
  | .failed raw _ => do
    let preserved ← preserve rules digest .corruptPrimary raw .recoveryCorruptionSaved
    openBackup rules digest true backup now
      { status with preservedPaths := status.preservedPaths ++ [preserved] }
  | .missing => openBackup rules digest false backup now status

/-! ### Snapshot and Commit -/

def snapshot (store : Store) : Except StoreError (State × UInt64) :=
  if store.uncertain then .error .uncertain else .ok (store.document.state, store.document.revision)

/-- The file operations of `Commit`, with the document that they publish. -/
def commitDocument (current doc : Document) (raw : File) : Prog Disk StoreError Document := do
  writeDurable .staging raw fun _ => .commit .commitStaged false
  runHook (.commit .commitStaged false)
  match encodeDocument rules current with
  | .error _ => .fail (.commit .commitBackupSynced false)
  | .ok currentRaw => do
    writeDurable .backup currentRaw fun _ => .commit .commitBackupSynced false
    runHook (.commit .commitBackupSynced false)
    writeDurable .primary raw fun stage => .commit .commitPrimarySynced (atomicWriteMayHaveChanged stage)
    runHook (.commit .commitPrimarySynced true)
    removeStaging (.commit .commitCleanupSynced true)
    runHook (.commit .commitCleanupSynced true)
    return doc

/-- The document that a `Commit` asks to publish. -/
def nextDocument (store : Store) (expectedRevision : UInt64) (next : State) (now : Time) :
    Except StoreError (Document × File) :=
  if store.uncertain then .error .uncertain
  else if expectedRevision ≠ store.document.revision then .error .conflict
  else if (normalizeState next).validate rules = false then .error .invalidState
  else sealDocument rules (normalizeState next) (expectedRevision + 1)
    (laterTime now store.document.writtenAt)

/-- `Commit`: the answer, and the store after it. -/
def commit (store : Store) (expectedRevision : UInt64) (next : State) (now : Time) :
    Prog Disk StoreError (Except StoreError UInt64 × Store) :=
  match nextDocument rules store expectedRevision next now with
  | .error err => return (.error err, store)
  | .ok (doc, raw) => do
    match ← (commitDocument rules store.document doc raw).attempt with
    | .ok doc => return (.ok doc.revision, { store with document := doc })
    | .error (.commit phase true) =>
      return (.error (.commit phase true), { store with uncertain := true })
    | .error err => return (.error err, store)

end Paperboat.HostState
