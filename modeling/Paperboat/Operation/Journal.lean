import Mathlib
import Paperboat.Lib.Transition

/-! The operation journal. A call reserves its operation in the store, runs it and records
its outcome; the entries in memory and the rows of the store answer repeated calls. The
journal's lock is held from the lookup to the reservation, the store is called once more
after the run without it. -/

namespace Paperboat.Operation

structure Outcome where
  result : List UInt8
  errorCode : String
  deriving DecidableEq, Repr

inductive ExecError where
  | invalidOperationID | invalidRequest | conflict | full | uncertain | store | canceled
  deriving DecidableEq, Repr

/-! ### The store -/

/-- How a call of the store ends. A call that fails late has taken effect. -/
inductive Fault where
  | ok | failed | late
  deriving DecidableEq, Repr

inductive StoreError where
  | conflict | notFound | resultTooLarge
  deriving DecidableEq, Repr

def maxOperationResultBytes : Nat := 64 * 1024

inductive RowState where
  | pending
  | completed (outcome : Outcome) (completedAt : Nat)
  deriving DecidableEq, Repr

/-- A row of `operation_results`. `reservation` numbers the insertions and is not stored. -/
structure Row (η : Type) where
  operationID : String
  requestHash : η
  state : RowState
  expiresAt : Nat
  reservation : Nat
  deriving DecidableEq

variable {η : Type} [DecidableEq η]

def findRow (rows : List (Row η)) (operationID : String) : Option (Row η) :=
  rows.find? fun row => row.operationID == operationID

/-- `ReserveOperation`: the row and whether it was inserted. -/
def reserveOperation (rows : List (Row η)) (operationID : String) (requestHash : η) (expiresAt reservation : Nat) :
    List (Row η) × Except StoreError (Row η × Bool) :=
  match findRow rows operationID with
  | none =>
    let row : Row η := ⟨operationID, requestHash, .pending, expiresAt, reservation⟩
    (rows ++ [row], .ok (row, true))
  | some existing =>
    if existing.requestHash = requestHash then (rows, .ok (existing, false)) else (rows, .error .conflict)

/-- `CompleteOperation`: the pending row becomes completed; a completed one must agree. -/
def completeOperation (rows : List (Row η)) (operationID : String) (requestHash : η) (outcome : Outcome)
    (completedAt expiresAt : Nat) : List (Row η) × Except StoreError Unit :=
  if outcome.result.length > maxOperationResultBytes then (rows, .error .resultTooLarge)
  else
    match findRow rows operationID with
    | none => (rows, .error .notFound)
    | some existing =>
      if existing.requestHash = requestHash then
        match existing.state with
        | .pending =>
          (rows.map fun row => if row.operationID = operationID then
              { row with state := .completed outcome completedAt, expiresAt := expiresAt } else row, .ok ())
        | .completed recorded _ => if recorded = outcome then (rows, .ok ()) else (rows, .error .conflict)
      else (rows, .error .conflict)

def deleteExpiredOperations (rows : List (Row η)) (now : Nat) : List (Row η) :=
  rows.filter fun row => decide (now < row.expiresAt)

/-- The order of the query: pending rows first, then by the time of completion. -/
def Row.rank (row : Row η) : Nat :=
  match row.state with
  | .pending => 0
  | .completed _ completedAt => completedAt + 1

/-- The rows a new journal loads, after the expired ones are gone. `LIKE` ignores case. -/
def operationsExcludingPrefix (rows : List (Row η)) (start : String) (limit : Nat) : List (Row η) :=
  ((rows.filter fun row => !start.toList.isPrefixOf row.operationID.toLower.toList).insertionSort
    fun a b => a.rank ≤ b.rank).take limit

/-! ### The journal -/

structure Config where
  max : Nat
  retention : Nat

/-- `cleanupInterval` in nanoseconds. -/
def cleanupInterval : Nat := 60 * 10 ^ 9

/-- An entry; `complete` is the closed channel. -/
structure Entry (η : Type) where
  hash : η
  outcome : Outcome := ⟨[], ""⟩
  complete : Bool := false
  err : Option ExecError := none
  reservation : Nat
  deriving DecidableEq

/-- The memory of a journal. Entries are pointers into `heap`; `lock` is the call that
holds the lock while it waits for the store. -/
structure Journal (η : Type) where
  entries : List (String × Nat) := []
  order : List String := []
  lastCleanup : Nat
  heap : List (Entry η) := []
  lock : Option Nat := none
  deriving DecidableEq

/-- Make room: the oldest completed entries go. -/
def evict (max : Nat) (entries : List (String × Nat)) : List String → List (String × Nat) × List String
  | [] => (entries, [])
  | oldest :: order =>
    if entries.length ≥ max then evict max (entries.filter fun e => e.1 != oldest) order
    else (entries, oldest :: order)

def entryOf (row : Row η) : Entry η :=
  match row.state with
  | .pending => { hash := row.requestHash, complete := true, err := some .uncertain, reservation := row.reservation }
  | .completed outcome _ =>
    { hash := row.requestHash, outcome := outcome, complete := true, reservation := row.reservation }

def Row.isCompleted (row : Row η) : Bool :=
  match row.state with
  | .pending => false
  | .completed .. => true

/-- The journal that `NewPersistentJournal` makes of the loaded rows. -/
def load (now : Nat) (records : List (Row η)) : Journal η where
  entries := records.zipIdx.map fun x => (x.1.operationID, x.2)
  order := (records.filter Row.isCompleted).map (·.operationID)
  lastCleanup := now
  heap := records.map entryOf

/-- Where a call of `Execute` is. -/
inductive Point where
  | entering
  | cleaning (now : Nat)
  | reserving
  | waiting (entry : Nat)
  | starting (entry : Nat)
  | running (entry : Nat)
  | completing (entry : Nat) (outcome : Outcome)
  | settling (entry : Nat) (outcome : Outcome) (err : Option ExecError)
  | returned
  deriving DecidableEq, Repr

structure Call (η : Type) where
  operationID : String
  hash : η
  point : Point := .entering
  deriving DecidableEq

/-- What a call returned. `reservation` is the insertion its answer comes from. -/
structure Reply (η : Type) where
  operationID : String
  hash : η
  outcome : Outcome := ⟨[], ""⟩
  replayed : Bool := false
  err : Option ExecError
  reservation : Option Nat := none
  deriving DecidableEq

/-- What happened to the operation of an insertion: how often the callback was started,
what it returned, and whether the store has the outcome. -/
structure Reservation (η : Type) where
  operationID : String
  hash : η
  starts : Nat := 0
  outcome : Option Outcome := none
  recorded : Bool := false
  deriving DecidableEq

/-! ### The system -/

structure System (η : Type) where
  rows : List (Row η) := []
  reservations : List (Reservation η) := []
  /-- The memory of the running process. -/
  journal : Option (Journal η) := none
  calls : List (Call η) := []
  replies : List (Reply η) := []
  deriving DecidableEq

inductive Action (ρ : Type) where
  | call (operationID : String) (request : ρ)
  | enter (call now : Nat)
  | cleanup (call : Nat) (fault : Fault)
  | reserve (call now : Nat) (fault : Fault)
  | start (call : Nat)
  | finish (call : Nat) (outcome : Outcome)
  | complete (call now : Nat) (fault : Fault)
  | settle (call : Nat)
  | wake (call : Nat)
  | cancel (call : Nat)
  | crash
  | boot (now : Nat) (fault : Fault)

namespace System

variable {ρ : Type} (canonicalHash : ρ → Option η) (config : Config)

variable (s : System η) (j : Journal η) (i : Nat)

def move (call : Call η) (point : Point) : System η :=
  { s with calls := s.calls.set i { call with point := point } }

/-- The call returns. -/
def reply (call : Call η) (r : Reply η) : System η :=
  { s.move i call .returned with replies := s.replies ++ [r] }

def refuse (call : Call η) (err : ExecError) : System η :=
  s.reply i call { operationID := call.operationID, hash := call.hash, err := some err }

/-- The checks of a call before it takes the lock; a call that fails them returns at once. -/
def call (operationID : String) (request : ρ) : Option (System η) :=
  if s.journal.isNone then none
  else
    match canonicalHash request with
    | none => some s
    | some hash =>
      if operationID.utf8ByteSize < 8 ∨ operationID.utf8ByteSize > 128 then some s
      else some { s with calls := s.calls ++ [{ operationID := operationID, hash := hash }] }

/-- The lookup, and the room for a new entry. -/
def enter (call : Call η) (now : Nat) : Option (System η) :=
  match j.entries.lookup call.operationID with
  | some ref => do
    let entry ← j.heap[ref]?
    if entry.hash = call.hash then some (s.move i call (.waiting ref)) else some (s.refuse i call .conflict)
  | none =>
    let (entries, order) := evict config.max j.entries j.order
    if entries.length ≥ config.max then
      some ({ s with journal := some { j with entries := entries, order := order } }.refuse i call .full)
    else
      let point := if j.lastCleanup + cleanupInterval ≤ now then .cleaning now else .reserving
      some ({ s with journal := some { j with entries := entries, order := order, lock := some i } }.move i call point)

def cleanup (call : Call η) (now : Nat) (fault : Fault) : System η :=
  let s := if fault = .failed then s else { s with rows := deleteExpiredOperations s.rows now }
  if fault = .ok then { s with journal := some { j with lastCleanup := now } }.move i call .reserving
  else { s with journal := some { j with lock := none } }.refuse i call .store

/-- What the call answers with an existing row. -/
def replay (call : Call η) (row : Row η) : Reply η :=
  match row.state with
  | .pending =>
    { operationID := call.operationID, hash := call.hash, replayed := true, err := some .uncertain,
      reservation := some row.reservation }
  | .completed outcome _ =>
    { operationID := call.operationID, hash := call.hash, outcome := outcome, replayed := true, err := none,
      reservation := some row.reservation }

/-- The reservation takes effect in the store. -/
def reserved (call : Call η) (rows : List (Row η)) (inserted : Bool) : System η :=
  { s with rows := rows
           reservations := if inserted then s.reservations ++ [{ operationID := call.operationID, hash := call.hash }]
             else s.reservations }

def reserve (call : Call η) (now : Nat) (fault : Fault) : System η :=
  let number := s.reservations.length
  let (rows, result) := reserveOperation s.rows call.operationID call.hash (now + config.retention) number
  let inserted := match result with
    | .ok (_, inserted) => inserted
    | .error _ => false
  let t := if fault = .failed then s else s.reserved call rows inserted
  let t := { t with journal := some { j with lock := none } }
  if fault = .ok then
    match result with
    | .error _ => t.refuse i call .conflict
    | .ok (row, false) => t.reply i call (replay call row)
    | .ok (_, true) =>
      let entry : Entry η := { hash := call.hash, reservation := number }
      let entries := (call.operationID, j.heap.length) :: j.entries
      { t with journal := some { j with lock := none, entries := entries, heap := j.heap ++ [entry] } }.move i call
        (.starting j.heap.length)
  else t.refuse i call .store

/-- Update what is known of an insertion. -/
def note (number : Nat) (f : Reservation η → Reservation η) : System η :=
  { s with reservations := s.reservations.modify number f }

def complete (call : Call η) (ref : Nat) (number : Nat) (outcome : Outcome) (now : Nat)
    (fault : Fault) : System η :=
  if outcome.result.length > maxOperationResultBytes then s.move i call (.settling ref outcome (some .uncertain))
  else
    let (rows, result) := completeOperation s.rows call.operationID call.hash outcome now (now + config.retention)
    let t : System η := if fault = .failed then s else
      match result with
      | .ok () => note { s with rows := rows } number fun v => { v with recorded := true }
      | .error _ => s
    match fault, result with
    | .ok, .ok () => t.move i call (.settling ref outcome none)
    | _, _ => t.move i call (.settling ref outcome (some .uncertain))

def settle (call : Call η) (ref : Nat) (entry : Entry η) (outcome : Outcome)
    (err : Option ExecError) : System η :=
  let order := if err.isNone then j.order ++ [call.operationID] else j.order
  let heap := j.heap.set ref { entry with outcome := outcome, complete := true, err := err }
  { s with journal := some { j with order := order, heap := heap } }.reply i call
    { operationID := call.operationID, hash := call.hash, outcome := outcome, err := err,
      reservation := some entry.reservation }

/-- `NewPersistentJournal`. -/
def boot (now : Nat) (fault : Fault) : Option (System η) :=
  if config.max < 1 ∨ config.max > 2 ^ 20 ∨ config.retention = 0 then none
  else
    match fault with
    | .failed => some s
    | .late => some { s with rows := deleteExpiredOperations s.rows now }
    | .ok =>
      let rows := deleteExpiredOperations s.rows now
      some { s with rows := rows, journal := some (load now (operationsExcludingPrefix rows "exec:" config.max)) }

/-- One step of a call, from where it is. -/
def stepCall (call : Call η) (a : Action ρ) : Option (System η) :=
  match a, call.point with
  | .enter _ now, .entering => if j.lock = none then s.enter config j i call now else none
  | .cleanup _ fault, .cleaning now => some (s.cleanup j i call now fault)
  | .reserve _ now fault, .reserving => some (s.reserve config j i call now fault)
  | .start _, .starting ref => do
    let entry ← j.heap[ref]?
    some ((s.note entry.reservation fun v => { v with starts := v.starts + 1 }).move i call (.running ref))
  | .finish _ outcome, .running ref => do
    let entry ← j.heap[ref]?
    some ((s.note entry.reservation fun v => { v with outcome := some outcome }).move i call (.completing ref outcome))
  | .complete _ now fault, .completing ref outcome => do
    let entry ← j.heap[ref]?
    some (s.complete config i call ref entry.reservation outcome now fault)
  | .settle _, .settling ref outcome err => do
    let entry ← j.heap[ref]?
    if j.lock = none then some (s.settle j i call ref entry outcome err) else none
  | .wake _, .waiting ref => do
    let entry ← j.heap[ref]?
    if entry.complete then
      some (s.reply i call { operationID := call.operationID, hash := call.hash, outcome := entry.outcome, replayed := true,
                             err := entry.err, reservation := some entry.reservation })
    else none
  | .cancel _, .waiting _ => some (s.refuse i call .canceled)
  | _, _ => none

def step (a : Action ρ) : Option (System η) :=
  match a with
  | .call operationID request => s.call canonicalHash operationID request
  | .crash => some { s with journal := none, calls := [] }
  | .boot now fault => if s.journal.isNone then s.boot config now fault else none
  | .enter i _ | .cleanup i _ | .reserve i _ _ | .start i | .finish i _ | .complete i _ _ | .settle i | .wake i
  | .cancel i => do
    let j ← s.journal
    let call ← s.calls[i]?
    s.stepCall config j i call a

end System

end Paperboat.Operation
