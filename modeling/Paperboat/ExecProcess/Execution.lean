import Mathlib
import Paperboat.Lib.Transition

/-! The output of one execution: events kept for replay within a limit, readers whose
cursors pin what they have not released, and calls of `output` that wait while too much is
pinned. Sequence numbers and reader identifiers are natural numbers, the latter from zero. -/

namespace Paperboat.ExecProcess

inductive State where
  | authorized
  | starting
  | running
  | exited
  | signaled
  | canceled
  | failed

def terminalState : State → Bool
  | .exited | .signaled | .canceled | .failed => true
  | _ => false

structure Result where
  code : Int
  signal : String := ""
  exitedAt : Int

structure Event where
  sequence : ℕ := 0
  stream : String := ""
  streamSequence : ℕ := 0
  data : List UInt8 := []
  state : Option State := none
  result : Option Result := none
  errorCode : String := ""

/-- The sizes and durations of a configuration; the last field stands for the checks of the
workspace root and the base environment. -/
structure Config where
  maximumActive : Int := 0
  maximumOperations : Int := 0
  replayBytes : ℕ := 0
  chunkBytes : ℕ := 0
  cancelGrace : Int := 0
  retention : Int := 0
  validSurroundings : Bool := true

def second : Int := 1000000000

structure Execution where
  state : State := .authorized
  result : Option Result := none
  errorCode : String := ""
  events : List Event := []
  streamSequences : String → ℕ := fun _ => 0
  eventBytes : ℕ := 0
  earliest : ℕ := 1
  next : ℕ := 1
  /-- The wake channels closed so far. -/
  wake : ℕ := 0
  /-- The registered cursors. -/
  readers : List (ℕ × ℕ) := []
  nextReader : ℕ := 0

namespace Execution

variable (config : Config) (e : Execution)

/-- The loop of `evictLocked` over the retained events. -/
def evictLoop (limit : ℕ) (may : ℕ → Bool) : ℕ → ℕ → List Event → ℕ × ℕ × List Event
  | earliest, bytes, [] => (earliest, bytes, [])
  | earliest, bytes, event :: rest =>
    if limit < bytes ∧ rest ≠ [] ∧ may earliest then
      evictLoop limit may (earliest + 1) (bytes - event.data.length) rest
    else (earliest, bytes, event :: rest)

/-- The lowest cursor, or the next sequence number. -/
def minimum : ℕ := (e.readers.map (·.2)).foldl min e.next

def evict : Execution :=
  let (earliest, bytes, events) := evictLoop config.replayBytes
    (fun earliest => e.readers.isEmpty || earliest < e.minimum) e.earliest e.eventBytes e.events
  { e with earliest, eventBytes := bytes, events }

def signal : Execution := { e with wake := e.wake + 1 }

def append (event : Event) : Execution :=
  let event := { event with sequence := e.next }
  (({ e with
      next := e.next + 1
      events := e.events ++ [event]
      eventBytes := e.eventBytes + event.data.length }).evict config).signal

/-- The loop condition of `output`. -/
def waits : Bool := config.replayBytes < e.eventBytes && !e.readers.isEmpty

/-- `output` up to its loop. -/
def output (stream : String) (data : List UInt8) : Execution :=
  let sequence := e.streamSequences stream
  ({ e with
      streamSequences := fun x => e.streamSequences x + if x = stream then data.length else 0
    }).append config { stream, streamSequence := sequence, data }

def transition (state : State) (result : Option Result) (code : String) : Execution :=
  if terminalState e.state then e
  else ({ e with state, errorCode := code, result := result.or e.result }).append config
    { state := some state, result, errorCode := code }

inductive Next where
  | event (event : Event)
  | replayUnavailable
  | eof
  | wait

/-- One round of the loop in `Next`. -/
def nextFrom (start : ℕ) : Next :=
  if start < e.earliest then .replayUnavailable
  else if start < e.next then
    match e.events[start - e.earliest]? with
    | some event => .event event
    | none => .replayUnavailable
  else if terminalState e.state then .eof
  else .wait

def openReader (start : ℕ) : Option Execution :=
  if start = 0 ∨ start < e.earliest then none
  else some { e with
    nextReader := e.nextReader + 1
    readers := e.readers ++ [(e.nextReader, start)] }

def advanceReader (id next : ℕ) : Execution :=
  if e.readers.any (·.1 == id) then
    (({ e with readers := e.readers.map fun (i, c) => (i, if i = id then next else c) }).evict
      config).signal
  else e

def removeReader (id : ℕ) : Execution :=
  (({ e with readers := e.readers.filter (·.1 ≠ id) }).evict config).signal

end Execution

end Paperboat.ExecProcess
