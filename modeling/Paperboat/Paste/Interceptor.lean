import Paperboat.Lib.Transition
import Paperboat.Paste.Stream

/-! The paste interceptor as a machine of atomic steps. One caller of `Write` and
`Close`, the worker goroutine and the uploads it started share the input channel, the
counter `queued` and the stream behind `stateMu`; a section of `stateMu` is one step
except where the worker reads the input channel inside it. Writes to `dest` succeed and
the session is not aborted. -/

namespace Paperboat.Paste

/-- The result of an upload: the body to paste in place of the one uploaded. -/
structure Completion where
  seq : ℕ
  body : Bytes
  deriving DecidableEq, Repr

/-- Where the caller is in `Write`. -/
inductive Writer where
  | idle
  /-- `queued` was zero, `stateMu` is next. -/
  | direct (p : Bytes)
  /-- In the loop, with `p` left. -/
  | queueing (p : Bytes)
  /-- The chunk is counted and not sent. -/
  | sending (chunk rest : Bytes)

/-- Where the worker is in `run`. -/
inductive Worker where
  | select
  /-- The input branch has a chunk, `stateMu` is next. -/
  | received (p : Bytes)
  /-- The input branch holds `stateMu` and has read `processed` chunks. -/
  | coalesce (processed : ℕ)
  /-- The completion branch is in `drainAcceptedInput`. -/
  | drainAccepted (c : Completion)
  /-- It has a chunk, `queued` is next. -/
  | drainReceived (c : Completion) (p : Bytes)
  /-- It has counted the chunk off, `stateMu` is next. -/
  | drainCounted (c : Completion) (p : Bytes)
  /-- The completion branch writes what is in turn. -/
  | publish
  | done
  deriving DecidableEq, Repr

/-- The loop of `Write` over the bytes left. -/
def Writer.loop (p : Bytes) : Writer := if p = [] then .idle else .queueing p

structure Options where
  directInput : Bool := false
  /-- In milliseconds. -/
  flushDelay : ℕ := 1
  queueChunkSize : ℕ := 32 * 1024
  queueChunks : ℕ := 32
  policy : Stream.Policy

structure Interceptor where
  stream : Stream := {}
  /-- The input channel. -/
  input : List Bytes := []
  /-- `Close` was called: the channel is closed. -/
  closed : Bool := false
  queued : ℤ := 0
  writer : Writer := .idle
  worker : Worker := .select
  /-- The worker saw the channel closed and reads it no more. -/
  inputClosed : Bool := false
  timerArmed : Bool := false
  /-- The uploads that are over. -/
  finished : List ℕ := []
  completed : List Completion := []
  completionBuffer : List Completion := []
  nextCompletion : ℕ := 0
  /-- All that `Write` was given, in the order of the calls. -/
  written : Bytes := []

namespace Interceptor

inductive Action where
  | write (p : Bytes)
  /-- `Write` in its section of `stateMu`. -/
  | writeDirect
  | countChunk
  | sendChunk
  | close
  /-- An upload ends: with a new body, or in a failure that leaves the old one. -/
  | finish (seq : ℕ) (rewritten : Option Bytes)
  | flushTimer
  | receive
  | receiveClosed
  | lock
  | coalesce
  | endBatch
  | receiveCompletion
  | drainReceive
  | drainCount
  | drainAppend
  | drainEnd
  | publish
  deriving DecidableEq, Repr

/-- The worker returns once the input is closed and no upload is pending. -/
def proceed (s : Interceptor) : Interceptor :=
  { s with worker := if s.inputClosed ∧ s.stream.pendingUploads = 0 then .done else .select }

def rearmFlush (o : Options) (s : Interceptor) : Interceptor :=
  { s with timerArmed := 0 < o.flushDelay ∧ s.stream.inPaste = false ∧ s.stream.buf ≠ [] }

variable (o : Options) (s : Interceptor)

/-- The steps of the caller. -/
def write (p : Bytes) : Option Interceptor :=
  match s.writer with
  | .idle =>
    if s.closed then some s
    else some { s with
      written := s.written ++ p
      writer := if o.directInput ∧ p ≠ [] ∧ s.queued = 0 then .direct p else .loop p }
  | _ => none

def writeDirect : Option Interceptor :=
  match s.writer, s.worker with
  | _, .coalesce _ => none
  | .direct p, _ =>
    if s.stream.ordinary p then
      some { s with stream := s.stream.writeDest p, writer := .idle }
    else some { s with writer := .loop p }
  | _, _ => none

def countChunk : Option Interceptor :=
  match s.writer with
  | .queueing p => some { s with
      queued := s.queued + 1
      writer := .sending (p.take o.queueChunkSize) (p.drop o.queueChunkSize) }
  | _ => none

def sendChunk : Option Interceptor :=
  match s.writer with
  | .sending chunk rest =>
    if s.input.length < o.queueChunks then
      some { s with input := s.input ++ [chunk], writer := .loop rest }
    else none
  | _ => none

/-- `Close` waits for `Write` to return. -/
def close : Option Interceptor :=
  match s.writer with
  | .idle => some { s with closed := true }
  | _ => none

/-- The end of `uploadAsync`; the channel of completions has room for 16. -/
def finish (seq : ℕ) (rewritten : Option Bytes) : Option Interceptor :=
  if seq ∈ s.finished ∨ 16 ≤ s.completed.length then none
  else s.stream.uploads[seq]?.map fun body => { s with
    finished := s.finished ++ [seq]
    completed := s.completed ++ [⟨seq, rewritten.getD body⟩] }

/-- The timer branch of the worker. -/
def flushTimer : Option Interceptor :=
  match s.worker with
  | .select =>
    if s.timerArmed then some { s with timerArmed := false, stream := s.stream.flushPartial }
    else none
  | _ => none

/-- The input branch. -/
def receive : Option Interceptor :=
  match s.worker, s.input with
  | .select, p :: rest =>
    if s.inputClosed then none else some { s with worker := .received p, input := rest }
  | _, _ => none

def receiveClosed : Option Interceptor :=
  match s.worker, s.input with
  | .select, [] =>
    if s.closed ∧ s.inputClosed = false then
      some (proceed { s with inputClosed := true, stream := s.stream.flush })
    else none
  | _, _ => none

def lock : Option Interceptor :=
  match s.worker with
  | .received p => some { s with worker := .coalesce 1, stream := s.stream.append p }
  | _ => none

def coalesce : Option Interceptor :=
  match s.worker, s.input with
  | .coalesce processed, p :: rest => some { s with
      worker := .coalesce (processed + 1), input := rest, stream := s.stream.append p }
  | _, _ => none

def endBatch : Option Interceptor :=
  match s.worker, s.input with
  | .coalesce processed, [] =>
    let drained := s.stream.drain o.policy
    let t := { s with queued := s.queued - processed }
    some (rearmFlush o (proceed (if s.closed then
      { t with stream := drained.flush, inputClosed := true } else { t with stream := drained })))
  | _, _ => none

/-- The completion branch. -/
def receiveCompletion : Option Interceptor :=
  match s.worker, s.completed with
  | .select, c :: rest => some { s with worker := .drainAccepted c, completed := rest }
  | _, _ => none

def drainReceive : Option Interceptor :=
  match s.worker, s.input with
  | .drainAccepted c, p :: rest =>
    if s.inputClosed then none else some { s with worker := .drainReceived c p, input := rest }
  | _, _ => none

def drainCount : Option Interceptor :=
  match s.worker with
  | .drainReceived c p => some { s with worker := .drainCounted c p, queued := s.queued - 1 }
  | _ => none

def drainAppend : Option Interceptor :=
  match s.worker with
  | .drainCounted c p => some { s with
      worker := .drainAccepted c, stream := (s.stream.append p).drain o.policy }
  | _ => none

/-- The input channel is empty, or was found closed before. A channel found closed now
is remembered, but nothing is flushed. -/
def drainEnd : Option Interceptor :=
  match s.worker with
  | .drainAccepted c =>
    if s.inputClosed ∨ s.input = [] then some { s with
      worker := .publish
      inputClosed := s.inputClosed || s.closed
      completionBuffer := s.completionBuffer ++ [c] }
    else none
  | _ => none

def publish : Option Interceptor :=
  match s.worker with
  | .publish =>
    match s.completionBuffer.find? (·.seq = s.nextCompletion) with
    | some c => some { s with
        completionBuffer := s.completionBuffer.filter (·.seq ≠ s.nextCompletion)
        nextCompletion := s.nextCompletion + 1
        stream := s.stream.publish c.body }
    | none => some s.proceed
  | _ => none

def step : Action → Option Interceptor
  | .write p => s.write o p
  | .writeDirect => s.writeDirect
  | .countChunk => s.countChunk o
  | .sendChunk => s.sendChunk o
  | .close => s.close
  | .finish seq rewritten => s.finish seq rewritten
  | .flushTimer => s.flushTimer
  | .receive => s.receive
  | .receiveClosed => s.receiveClosed
  | .lock => s.lock
  | .coalesce => s.coalesce
  | .endBatch => s.endBatch o
  | .receiveCompletion => s.receiveCompletion
  | .drainReceive => s.drainReceive
  | .drainCount => s.drainCount
  | .drainAppend => s.drainAppend o
  | .drainEnd => s.drainEnd
  | .publish => s.publish

/-! ### What a step changes -/

/-- The outcomes of a step. -/
inductive Moved : Action → Interceptor → Prop
  | refuse (hc : s.closed = true) : Moved (.write p) s
  | write {p : Bytes} {w : Writer} (hw : s.writer = .idle) (hc : s.closed = false)
      (h : w = .direct p ∧ s.queued = 0 ∨ w = .loop p) :
      Moved (.write p) { s with written := s.written ++ p, writer := w }
  | writeDirect (hw : s.writer = .direct p) (hl : ∀ n, s.worker ≠ .coalesce n)
      (h : s.stream.ordinary p = true) :
      Moved .writeDirect { s with stream := s.stream.writeDest p, writer := .idle }
  | fallBack (hw : s.writer = .direct p) :
      Moved .writeDirect { s with writer := .loop p }
  | countChunk (hw : s.writer = .queueing p) :
      Moved .countChunk { s with
        queued := s.queued + 1
        writer := .sending (p.take o.queueChunkSize) (p.drop o.queueChunkSize) }
  | sendChunk (hw : s.writer = .sending chunk rest) :
      Moved .sendChunk { s with input := s.input ++ [chunk], writer := .loop rest }
  | close (hw : s.writer = .idle) : Moved .close { s with closed := true }
  | finish {seq : ℕ} {rewritten : Option Bytes} {body : Bytes}
      (hb : s.stream.uploads[seq]? = some body) :
      Moved (.finish seq rewritten) { s with
        finished := s.finished ++ [seq]
        completed := s.completed ++ [⟨seq, rewritten.getD body⟩] }
  | flushTimer (hw : s.worker = .select) :
      Moved .flushTimer { s with timerArmed := false, stream := s.stream.flushPartial }
  | receive (hw : s.worker = .select) (hi : s.input = p :: rest)
      (hc : s.inputClosed = false) :
      Moved .receive { s with worker := .received p, input := rest }
  | receiveClosed (hw : s.worker = .select) (hi : s.input = []) (hc : s.closed = true) :
      Moved .receiveClosed (proceed { s with inputClosed := true, stream := s.stream.flush })
  | lock (hw : s.worker = .received p) :
      Moved .lock { s with worker := .coalesce 1, stream := s.stream.append p }
  | coalesce (hw : s.worker = .coalesce n)
      (hi : s.input = p :: rest) :
      Moved .coalesce { s with
        worker := .coalesce (n + 1), input := rest, stream := s.stream.append p }
  | endBatch (hw : s.worker = .coalesce n) (hc : s.closed = false) :
      Moved .endBatch (rearmFlush o (proceed { s with
        queued := s.queued - n, stream := s.stream.drain o.policy }))
  | endLastBatch (hw : s.worker = .coalesce n) (hi : s.input = [])
      (hc : s.closed = true) :
      Moved .endBatch (rearmFlush o (proceed { s with
        queued := s.queued - n, stream := (s.stream.drain o.policy).flush, inputClosed := true }))
  | receiveCompletion (hw : s.worker = .select)
      (hq : s.completed = c :: rest) :
      Moved .receiveCompletion { s with worker := .drainAccepted c, completed := rest }
  | drainReceive
      (hw : s.worker = .drainAccepted c) (hi : s.input = p :: rest) (hc : s.inputClosed = false) :
      Moved .drainReceive { s with worker := .drainReceived c p, input := rest }
  | drainCount (hw : s.worker = .drainReceived c p) :
      Moved .drainCount { s with worker := .drainCounted c p, queued := s.queued - 1 }
  | drainAppend (hw : s.worker = .drainCounted c p) :
      Moved .drainAppend { s with
        worker := .drainAccepted c, stream := (s.stream.append p).drain o.policy }
  | drainEnd (hw : s.worker = .drainAccepted c)
      (hi : s.inputClosed = true ∨ s.input = []) :
      Moved .drainEnd { s with
        worker := .publish
        inputClosed := s.inputClosed || s.closed
        completionBuffer := s.completionBuffer ++ [c] }
  | publish (hw : s.worker = .publish) (hc : c ∈ s.completionBuffer)
      (hs : c.seq = s.nextCompletion) :
      Moved .publish { s with
        completionBuffer := s.completionBuffer.filter (·.seq ≠ s.nextCompletion)
        nextCompletion := s.nextCompletion + 1
        stream := s.stream.publish c.body }
  | published (hw : s.worker = .publish) : Moved .publish s.proceed

variable {o s} {s' : Interceptor} {a : Action}

theorem moved_of_step (h : s.step o a = some s') : Moved o s a s' := by
  cases a with
  | write p =>
    rw [step, write] at h
    split at h
    next hw =>
      split at h
      next hc => cases h; exact .refuse hc
      next hc =>
        cases h
        refine .write hw (by simpa using hc) ?_
        split
        next hd => exact .inl ⟨rfl, hd.2.2⟩
        next => exact .inr rfl
    next => cases h
  | writeDirect =>
    rw [step, writeDirect] at h
    split at h
    next => cases h
    next p hw hl =>
      split at h <;> cases h
      next ho => exact .writeDirect hw hl ho
      next => exact .fallBack hw
    next => cases h
  | countChunk =>
    rw [step, countChunk] at h
    split at h <;> cases h
    exact .countChunk ‹_›
  | sendChunk =>
    rw [step, sendChunk] at h
    split at h
    next hw => split at h <;> cases h; exact .sendChunk hw
    next => cases h
  | close =>
    rw [step, close] at h
    split at h <;> cases h
    exact .close ‹_›
  | finish seq rewritten =>
    rw [step, finish] at h
    split at h
    next => cases h
    next =>
      obtain ⟨body, hb, rfl⟩ := Option.map_eq_some_iff.mp h
      exact .finish hb
  | flushTimer =>
    rw [step, flushTimer] at h
    split at h
    next hw => split at h <;> cases h; exact .flushTimer hw
    next => cases h
  | receive =>
    rw [step, receive] at h
    split at h
    next hw hi =>
      split at h <;> cases h
      next hc => exact .receive hw hi (Bool.eq_false_iff.mpr hc)
    next => cases h
  | receiveClosed =>
    rw [step, receiveClosed] at h
    split at h
    next hw hi =>
      split at h <;> cases h
      next hc => exact .receiveClosed hw hi hc.1
    next => cases h
  | lock =>
    rw [step, lock] at h
    split at h <;> cases h
    exact .lock ‹_›
  | coalesce =>
    rw [step, coalesce] at h
    split at h <;> cases h
    exact .coalesce ‹_› ‹_›
  | endBatch =>
    rw [step, endBatch] at h
    split at h
    next hw hi =>
      cases h
      split
      next hc => exact .endLastBatch hw hi hc
      next hc => exact .endBatch hw (by simpa using hc)
    next => cases h
  | receiveCompletion =>
    rw [step, receiveCompletion] at h
    split at h <;> cases h
    exact .receiveCompletion ‹_› ‹_›
  | drainReceive =>
    rw [step, drainReceive] at h
    split at h
    next hw hi =>
      split at h <;> cases h
      next hc => exact .drainReceive hw hi (Bool.eq_false_iff.mpr hc)
    next => cases h
  | drainCount =>
    rw [step, drainCount] at h
    split at h <;> cases h
    exact .drainCount ‹_›
  | drainAppend =>
    rw [step, drainAppend] at h
    split at h <;> cases h
    exact .drainAppend ‹_›
  | drainEnd =>
    rw [step, drainEnd] at h
    split at h
    next hw => split at h <;> cases h; exact .drainEnd hw ‹_›
    next => cases h
  | publish =>
    rw [step, publish] at h
    split at h
    next hw =>
      split at h <;> cases h
      next c hc =>
        exact .publish hw (List.mem_of_find?_eq_some hc) (by simpa using List.find?_some hc)
      next => exact .published hw
    next => cases h

end Interceptor

end Paperboat.Paste
