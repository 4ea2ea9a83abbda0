import Paperboat.Lib.Segment
import Paperboat.Lib.Transition

/-! The retained output of a terminal. A history keeps the most recent events of a byte
stream within a limit; evicted slots stay in front of `head` until the list is empty.
Buffers are values here: the reference counts that keep a shared buffer alive while an
event refers to it have no part in the model. -/

namespace Paperboat.TerminalHistory

/-- The content of a Go slice, whose length is a nonnegative `int`. -/
abbrev Slice := { bytes : List UInt8 // bytes.length < 2 ^ 63 }

namespace Slice

def empty : Slice := ⟨[], by decide⟩

/-- `uint64(len(s))` -/
def len (s : Slice) : UInt64 := .ofNat s.val.length

/-- `s[i:j]` -/
def slice (s : Slice) (i j : UInt64) : Slice :=
  ⟨(s.val.take j.toNat).drop i.toNat, by
    have := s.property
    rw [List.length_drop, List.length_take]
    omega⟩

end Slice

inductive Error where
  | invalidLimit
  | invalidCursor
  | sequenceFull
  | gap (requestedSequence earliestSequence latestSequence : UInt64)

structure Event where
  channel : UInt8 := 0
  startSequence : UInt64 := 0
  endSequence : UInt64 := 0
  data : Slice := .empty

/-- The part of an event between two sequence numbers. -/
def Event.part (event : Event) (start stop : UInt64) : Event :=
  { event with
    startSequence := start
    endSequence := stop
    data := event.data.slice (start - event.startSequence) (stop - event.startSequence) }

structure Replay where
  fromSequence : UInt64
  toSequence : UInt64
  earliestSequence : UInt64
  latestSequence : UInt64
  events : List Event := []

def Replay.add (r : Replay) (event : Event) : Replay :=
  { r with events := r.events ++ [event], toSequence := event.endSequence }

structure History where
  maxBytes : UInt64
  bytes : UInt64 := 0
  earliest : UInt64 := 0
  latest : UInt64 := 0
  events : List Event := []
  head : ℕ := 0
  acks : String → Option UInt64 := fun _ => none

/-- The bytes of the events in order. -/
def content (events : List Event) : List UInt8 := events.flatMap (·.data.val)

namespace History

/-- `h.events[h.head:]` -/
def retained (h : History) : List Event := h.events.drop h.head

def new (maxBytes : UInt64) : Except Error History :=
  if maxBytes = 0 then .error .invalidLimit else .ok { maxBytes }

/-- The loop of `Restore`. -/
def restoreLoop : List Event → History → Except Error History
  | [], h => .ok h
  | event :: rest, h =>
    if event.startSequence ≠ h.latest ∨
        event.endSequence - event.startSequence ≠ event.data.len then .error .invalidCursor
    else
      restoreLoop rest
        { h with
          events := h.events ++ [event]
          bytes := h.bytes + event.data.len
          latest := event.endSequence }

/-- `Restore` copies every event. The copies are alive together, so the call only returns
where all of them fit the address space: `none` is the process running out of memory. -/
def restore (maxBytes earliest latest : UInt64) (events : List Event) : Option (Except Error History) :=
  if (content events).length < 2 ^ 64 then
    some do
      match new maxBytes with
      | .error _ => .error .invalidCursor
      | .ok h =>
        if latest < earliest then .error .invalidCursor
        else
          let h ← restoreLoop events { h with earliest, latest := earliest }
          if h.latest ≠ latest ∨ maxBytes < h.bytes then .error .invalidCursor else .ok h
  else none

/-- The loop of `compactLocked`, which visits each slot from `head` on at most once. -/
def compactLoop : ℕ → History → History
  | 0, h => h
  | n + 1, h =>
    if h.maxBytes < h.bytes then
      match h.events[h.head]? with
      | some event =>
        compactLoop n
          { h with
            bytes := h.bytes - event.data.len
            earliest := event.endSequence
            events := h.events.set h.head {}
            head := h.head + 1 }
      | none => h
    else h

def compactLocked (h : History) : History :=
  let h := compactLoop (h.events.length - h.head) h
  if h.head = h.events.length then { h with earliest := h.latest, events := [], head := 0 } else h

/-- `Append`, `AppendOwned` and `AppendBuffer`, which differ in who owns the buffer. -/
def appendOwned (h : History) (channel : UInt8) (data : Slice) : Except Error Event × History :=
  if data.len = 0 then
    (.ok { channel, startSequence := h.latest, endSequence := h.latest }, h)
  else if UInt64.ofNat (2 ^ 64 - 1) - h.latest < data.len then (.error .sequenceFull, h)
  else
    let event : Event :=
      { channel, startSequence := h.latest, endSequence := h.latest + data.len, data }
    (.ok event,
      compactLocked
        { h with
          latest := event.endSequence
          bytes := h.bytes + data.len
          events := h.events ++ [event] })

def setLimit (h : History) (maxBytes : UInt64) : Except Error Unit × History :=
  if maxBytes = 0 then (.error .invalidLimit, h)
  else (.ok (), compactLocked { h with maxBytes })

def clear (h : History) : UInt64 × History :=
  (h.latest, { h with events := [], head := 0, bytes := 0, earliest := h.latest })

def acknowledge (h : History) (attachmentID : String) (nextSequence : UInt64) :
    Except Error Unit × History :=
  if attachmentID = "" ∨ h.latest < nextSequence ∨
      nextSequence < (h.acks attachmentID).getD 0 then (.error .invalidCursor, h)
  else (.ok (), { h with acks := Function.update h.acks attachmentID (some nextSequence) })

/-- The loop of `ReplayOwned`; `remaining` counts only where there is a limit. -/
def replayLoop (fromSequence byteLimit : UInt64) : List Event → UInt64 → Replay → Replay
  | [], _, r => r
  | event :: rest, remaining, r =>
    if event.endSequence ≤ fromSequence then replayLoop fromSequence byteLimit rest remaining r
    else
      let start := max fromSequence event.startSequence
      let stop :=
        if 0 < byteLimit ∧ remaining < event.endSequence - start then start + remaining
        else event.endSequence
      if start < stop then
        let r := r.add (event.part start stop)
        if 0 < byteLimit then
          let remaining := remaining - (stop - start)
          if remaining = 0 then r else replayLoop fromSequence byteLimit rest remaining r
        else replayLoop fromSequence byteLimit rest remaining r
      else replayLoop fromSequence byteLimit rest remaining r

/-- `ReplayOwned`, and `Replay`, which copies what it returns. -/
def replay (h : History) (fromSequence byteLimit : UInt64) : Except Error Replay :=
  if fromSequence < h.earliest then .error (.gap fromSequence h.earliest h.latest)
  else if h.latest < fromSequence then .error .invalidCursor
  else
    .ok (replayLoop fromSequence byteLimit h.retained byteLimit
      { fromSequence
        toSequence := fromSequence
        earliestSequence := h.earliest
        latestSequence := h.latest })

/-- Replays one after another, each from where the one before stopped. -/
def replays (h : History) : UInt64 → List UInt64 → Except Error (List Event × UInt64)
  | fromSequence, [] => .ok ([], fromSequence)
  | fromSequence, byteLimit :: rest => do
    let first ← h.replay fromSequence byteLimit
    let (events, toSequence) ← h.replays first.toSequence rest
    .ok (first.events ++ events, toSequence)

end History

/-! ### Runs -/

/-- A history and, for the statements about it, the stream that was appended to it from
the sequence number `origin` on. -/
structure Recording where
  history : History
  origin : ℕ
  stream : List UInt8

inductive Op where
  | append (channel : UInt8) (data : Slice)
  | setLimit (maxBytes : UInt64)
  | clear
  | acknowledge (attachmentID : String) (nextSequence : UInt64)

namespace Recording

/-- The stream with `data` at its end, as long as sequence numbers are left for it. -/
def accept (r : Recording) (data : Slice) : List UInt8 :=
  if r.origin + r.stream.length + data.val.length < 2 ^ 64 then r.stream ++ data.val else r.stream

def step (r : Recording) : Op → Option Recording
  | .append channel data =>
    some { r with
      history := (r.history.appendOwned channel data).2
      stream := r.accept data }
  | .setLimit maxBytes => some { r with history := (r.history.setLimit maxBytes).2 }
  | .clear => some { r with history := r.history.clear.2 }
  | .acknowledge attachmentID nextSequence =>
    some { r with history := (r.history.acknowledge attachmentID nextSequence).2 }

/-- A history that `New` or `Restore` returned. -/
inductive Initial : Recording → Prop
  | new {maxBytes : UInt64} {h : History} (hnew : History.new maxBytes = .ok h) :
      Initial ⟨h, 0, []⟩
  | restore {maxBytes earliest latest : UInt64} {events : List Event} {h : History}
      (hrestore : History.restore maxBytes earliest latest events = some (.ok h)) :
      Initial ⟨h, earliest.toNat, content events⟩

end Recording

end Paperboat.TerminalHistory
