import Paperboat.ResumableStream.Protocol

/-! One end of a resumable stream. Each goroutine of the source is a program
counter in the state: a reader and a sender for every carrier, the acknowledgement
writer, the writer of the final FINAck, and the one call that can hold the
transition lock. A step is one critical section or one frame read or written, so
any two goroutines interleave between the sections. Writes happen outside the
lock: `pending` is the packet a goroutine is about to write, `sent` and `sendErr`
are what it does after the write returned. Deadlines, events and log lines are
left out, they change no field a step reads. -/

namespace Paperboat.ResumableStream

/-- `readCarrier`: a frame is read and the carrier checked for supersession,
an application frame passes the disposition check, then the frame is handled.
`commitAck` and `discardAck` are the writes a control frame is answered with. -/
inductive Reader where
  | idle
  | reading
  | checked (f : Frame)
  | accepted (f : Frame)
  | commitAck (promoted : Bool)
  | discardAck
  | done
  deriving DecidableEq, Repr

/-- `confirmCarrier` on the initiator, then `writeActive` on either side. -/
inductive Sender where
  | idle
  | confirm
  | retire
  | loop (offset : ℕ)
  | data (offset sequence : ℕ) (payload : List Byte)
  | fin (offset sequence : ℕ)
  | finWritten (offset : ℕ)
  | done

/-- `writeAcknowledgements`. -/
inductive Acker where
  | idle
  | writing (l : Link) (offset : ℕ)
  | written (l : Link) (offset : ℕ)

/-- The call that holds `transitionMu`, with its local variables. -/
inductive Call where
  | idle
  | prepareHello (l : Link) (request : Hello)
  | prepareReady (l : Link) (request : Hello)
  | acceptHello (l : Link)
  | acceptReady (l : Link) (old : Option Link) (ready : Hello)
  | acceptDone (l : Link) (old : Option Link)
  | promoteCommit (l : Link)
  | promoteWait (l : Link)
  | dropDiscard (l : Link)
  | dropWait (l : Link)
  deriving DecidableEq, Repr

/-- Our end of a link: not handed over yet, open, or closed by us. -/
inductive LinkEnd where
  | unused | opened | closed
  deriving DecidableEq, Repr

/-- A physical carrier with its link and its two goroutines. -/
structure Carrier where
  id : CarrierID := 0
  epoch : ℕ := 0
  state : CarrierState := .unset
  link : LinkEnd := .unused
  reader : Reader := .idle
  sender : Sender := .idle

/-- A result channel of capacity one and whether the wait map still holds it;
`true` is the nil error. -/
structure WaitChan where
  registered : Bool := false
  value : Option Bool := none

/-- The sending half. `written` records every byte that `Write` accepted. -/
structure SendHalf where
  sendBase : ℕ := 0
  sendNext : ℕ := 0
  send : List Byte := []
  localFIN : Bool := false
  finSent : CarrierID := 0
  finAcked : Bool := false
  written : List Byte := []

/-- `discardAckedLocked`. -/
def SendHalf.discardAcked (tx : SendHalf) (offset : ℕ) : SendHalf :=
  if offset ≤ tx.sendBase then tx
  else { tx with send := tx.send.drop (offset - tx.sendBase), sendBase := offset }

/-- The receiving half. `returned` records every byte that `Read` returned and
`readEOF` whether it reported `io.EOF`. -/
structure RecvHalf where
  recvNext : ℕ := 0
  recvBase : ℕ := 0
  recv : List Byte := []
  ackCarrier : CarrierID := 0
  ackOffset : ℕ := 0
  remoteFIN : Bool := false
  remoteFINAt : ℕ := 0
  returned : List Byte := []
  readEOF : Bool := false

structure Conn where
  role : Role
  window : ℕ
  identity : Digest
  active : Option Link := none
  prepared : Option Link := none
  retained : Option Link := none
  nextEpoch : ℕ := 0
  committedEpoch : ℕ := 0
  commitWait : CarrierID → WaitChan := fun _ => {}
  discardWait : CarrierID → WaitChan := fun _ => {}
  detached : Bool := false
  detachedSeq : ℕ := 0
  /-- The detachments whose expiry timer runs. -/
  timers : List ℕ := []
  tx : SendHalf := {}
  rx : RecvHalf := {}
  closed : Bool := false
  terminal : Bool := false
  /-- The stages under which `failFrameProtocol` was reached. -/
  faults : List Stage := []
  carrier : Link → Carrier := fun _ => {}
  acker : Acker := .idle
  finAcker : Option (Link × ℕ) := none
  call : Call := .idle
  /-- The links that `Close` still has to reset and close. -/
  closing : List Link := []

namespace Conn

/-- `New`, after its checks of the configuration. -/
def new (role : Role) (window : ℕ) (identity : Digest) : Conn where
  role := role
  window := window
  identity := identity

variable (c : Conn) (l : Link)

def setCarrier (f : Carrier → Carrier) : Conn :=
  { c with carrier := Function.update c.carrier l (f (c.carrier l)) }

@[simp] theorem setCarrier_same (f : Carrier → Carrier) :
    (c.setCarrier l f).carrier l = f (c.carrier l) := Function.update_self ..

theorem setCarrier_other {l l' : Link} (f : Carrier → Carrier) (h : l' ≠ l) :
    (c.setCarrier l f).carrier l' = c.carrier l' := Function.update_of_ne h ..

def setReader (r : Reader) : Conn :=
  c.setCarrier l fun k => { k with reader := r }

def setSender (s : Sender) : Conn :=
  c.setCarrier l fun k => { k with sender := s }

def setState (s : CarrierState) : Conn :=
  c.setCarrier l fun k => { k with state := s }

def setLink (e : LinkEnd) : Conn :=
  c.setCarrier l fun k => { k with link := e }

def closeLink : Conn := c.setLink l .closed

/-- Close the link in a slot, if there is one. -/
def closeSlot : Option Link → Conn
  | none => c
  | some l => c.closeLink l

theorem closeSlot_eq (slot : Option Link) : c.closeSlot slot = { c with
      carrier := fun l =>
        if slot = some l then { c.carrier l with link := .closed } else c.carrier l } := by
  cases slot with
  | none => simp [closeSlot]
  | some l =>
    simp only [closeSlot, closeLink, setLink, setCarrier, Option.some.injEq]
    congr 1
    funext l'
    by_cases h : l' = l
    · subst h; simp
    · simp [h, Ne.symm h]

/-- The transition lock is free. -/
def unlocked : Bool := c.call = .idle

/-! ### The byte stream -/

/-- One round of the loop in `Write` on the bytes not yet accepted. -/
def write (data : List Byte) : Option Conn :=
  if data = [] ∨ c.tx.localFIN ∨ c.closed ∨ c.terminal then none
  else
    let available := c.window - c.tx.send.length
    if 0 < available then
      let chunk := data.take (min available data.length)
      some { c with tx := { c.tx with
        send := c.tx.send ++ chunk, sendNext := c.tx.sendNext + chunk.length,
        written := c.tx.written ++ chunk } }
    else none

/-- `Read` into a buffer of `size` bytes, when it returns bytes or `io.EOF`. -/
def read (size : ℕ) : Option Conn :=
  if size = 0 then none
  else if c.rx.recv ≠ [] then
    let chunk := c.rx.recv.take size
    some { c with rx := { c.rx with
      recv := c.rx.recv.drop size, recvBase := c.rx.recvBase + chunk.length,
      returned := c.rx.returned ++ chunk } }
  else if c.rx.remoteFIN ∧ c.rx.remoteFINAt ≤ c.rx.recvNext then
    some { c with rx := { c.rx with readEOF := true } }
  else none

def closeWrite : Option Conn :=
  if c.closed ∨ c.terminal then none
  else some { c with tx := { c.tx with localFIN := true } }

def discardAcked (offset : ℕ) : Conn :=
  { c with tx := c.tx.discardAcked offset }

/-! ### Failure -/

/-- `detachAllLocked` followed by closing what it returned. -/
def detachAll : Conn :=
  (((c.closeSlot c.active).closeSlot c.prepared).closeSlot c.retained) |>
    fun d => { d with active := none, prepared := none, retained := none }

def failTerminal : Conn := { c.detachAll with terminal := true }

/-- A protocol fault ends the stream, and the reader with it. -/
def failFrameProtocol (stage : Stage) : Conn :=
  ({ c with faults := stage :: c.faults }.failTerminal).setReader l .done

/-- Deliver a result to a registered waiter and take it off the map. -/
def signalWait (w : CarrierID → WaitChan) (id : CarrierID) (value : Bool) : CarrierID → WaitChan :=
  if (w id).registered then
    Function.update w id ⟨false, (w id).value.or (some value)⟩
  else w

/-- The carrier sits in one of the three slots. -/
def holds : Bool :=
  c.active = some l || c.prepared = some l || c.retained = some l

theorem detachAll_eq : c.detachAll = { c with
      active := none
      prepared := none
      retained := none
      carrier := fun l =>
        if c.holds l then { c.carrier l with link := .closed } else c.carrier l } := by
  simp only [detachAll, closeSlot_eq, holds]
  congr 1
  funext l
  split_ifs <;> simp_all

def clearSlot (slot : Option Link) : Option Link :=
  if slot = some l then none else slot

/-- The body of `failCarrier`, under its locks. -/
def dropCarrier : Conn :=
  if c.holds l then
    let wasActive : Bool := c.active = some l
    let seq := if wasActive && !c.detached then c.detachedSeq + 1 else c.detachedSeq
    let d := { c with
      active := clearSlot l c.active
      prepared := clearSlot l c.prepared
      retained := clearSlot l c.retained
      detached := c.detached || wasActive
      detachedSeq := seq
      timers := if wasActive then seq :: c.timers else c.timers
      commitWait := signalWait c.commitWait (c.carrier l).id false
      discardWait := signalWait c.discardWait (c.carrier l).id false }
    d.setCarrier l fun k => { k with state := .failed, link := .closed }
  else c

theorem dropCarrier_eq : c.dropCarrier l = { c with
      active := clearSlot l c.active
      prepared := clearSlot l c.prepared
      retained := clearSlot l c.retained
      detached := c.detached || c.active = some l
      detachedSeq := if c.active = some l ∧ !c.detached then c.detachedSeq + 1 else c.detachedSeq
      timers := if c.active = some l then
          (if c.detached then c.detachedSeq else c.detachedSeq + 1) :: c.timers
        else c.timers
      commitWait := if c.holds l then signalWait c.commitWait (c.carrier l).id false
        else c.commitWait
      discardWait := if c.holds l then signalWait c.discardWait (c.carrier l).id false
        else c.discardWait
      carrier := fun l' => if l' = l ∧ c.holds l then
          { c.carrier l' with state := .failed, link := .closed }
        else c.carrier l' } := by
  by_cases hheld : c.holds l
  · simp only [dropCarrier, hheld, if_true, setCarrier, and_true]
    congr 1
    · simp
    · by_cases ha : c.active = some l <;> by_cases hd : c.detached <;> simp [ha, hd]
    · funext l'
      by_cases hl : l' = l
      · subst hl; simp
      · simp [hl]
  · have hslots := hheld
    simp only [holds, Bool.or_eq_true, decide_eq_true_eq, not_or] at hslots
    obtain ⟨⟨ha, hp⟩, hr⟩ := hslots
    simp [dropCarrier, hheld, clearSlot, ha, hp, hr]

/-- `failCarrier`: the responder takes the transition lock first. -/
def failCarrier : Option Conn :=
  if c.role = .responder ∧ !c.unlocked then none else some (c.dropCarrier l)

/-- The final state of a detached stream that nobody recovered in time. -/
def expireDetached (seq : ℕ) : Option Conn :=
  if seq ∈ c.timers then
    let c := { c with timers := c.timers.erase seq }
    if c.detached ∧ c.detachedSeq = seq ∧ c.active = none ∧ !c.terminal ∧ !c.closed then
      some c.failTerminal
    else some c
  else none

/-- Empty the slots and leave their links to be reset and closed. -/
def detachForReset : Conn :=
  { c with
    active := none, prepared := none, retained := none
    closing := c.closing ++ c.active.toList ++ c.prepared.toList ++ c.retained.toList }

def close : Option Conn :=
  if c.closed then none
  else
    let graceful : Bool := (c.tx.localFIN && c.tx.send.isEmpty && c.tx.finAcked) ||
      (c.rx.remoteFIN && decide (c.rx.remoteFINAt ≤ c.rx.recvNext))
    if graceful then some { c.detachAll with closed := true }
    else some { c.detachForReset with closed := true }

/-- `watchContext`, once the context is done. -/
def contextDone : Option Conn :=
  some { c.detachForReset with terminal := c.terminal || !c.closed }

/-! ### Carrier handshake -/

/-- The PREPARE hello for a new carrier. -/
def request (id : CarrierID) : Hello where
  kind := .prepare
  digest := c.identity
  carrier := id
  epoch := c.nextEpoch + 1
  committedEpoch := c.committedEpoch
  ack := c.rx.recvBase
  fin := c.rx.remoteFIN
  finOffset := c.rx.remoteFINAt

variable (request : Hello) (p : Packet) (sequence : ℕ)

/-- The READY hello that answers a request. -/
def readyFor : Hello where
  kind := .ready
  digest := c.identity
  carrier := request.carrier
  epoch := request.epoch
  committedEpoch := c.committedEpoch
  ack := c.rx.recvBase
  fin := c.rx.remoteFIN
  finOffset := c.rx.remoteFINAt

/-- `PrepareCarrier` up to writing the PREPARE hello. A call in the wrong role
returns before it looks at the link. -/
def prepareCarrier (id : CarrierID) : Option Conn :=
  if (c.carrier l).link ≠ .unused then none
  else if c.role ≠ .initiator then some (c.setLink l .opened)
  else if !c.unlocked then none
  else if c.closed ∨ c.terminal ∨ c.prepared ≠ none ∨ c.nextEpoch = maximumEpoch ∨ id = 0 then
    some (c.closeLink l)
  else
    some { c.setLink l .opened with call := .prepareHello l (c.request id) }

/-- `PrepareCarrier` after it read an answer. -/
def prepareAnswer : Conn :=
  match p with
  | .frame _ => { c.closeLink l with call := .idle }
  | .hello ready =>
    if !ready.wellFormed ∨ ready.kind ≠ .ready ∨ ready.digest ≠ c.identity ∨
        ready.carrier ≠ request.carrier ∨ ready.epoch ≠ request.epoch ∨
        c.tx.sendNext < ready.ack ∨ c.closed ∨ c.terminal ∨ c.prepared ≠ none then
      { c.closeLink l with call := .idle }
    else
      ({ c.discardAcked ready.ack with
        nextEpoch := request.epoch
        prepared := some l
        detached := c.active = none
        call := .idle }).setCarrier l fun k =>
          { k with
            id := request.carrier, epoch := request.epoch, state := .prepared,
            reader := .reading }

/-- `AcceptCarrier` takes the transition lock before it reads the hello. -/
def acceptCarrier : Option Conn :=
  if (c.carrier l).link ≠ .unused then none
  else if c.role ≠ .responder then some (c.setLink l .opened)
  else if !c.unlocked then none
  else some { c.setLink l .opened with call := .acceptHello l }

/-- The requests that `AcceptCarrier` turns down before it touches its state. -/
def refuses : Bool :=
  c.closed || c.terminal || request.committedEpoch != c.committedEpoch ||
    decide (request.epoch ≤ c.committedEpoch) || decide (request.epoch ≤ c.nextEpoch) ||
    decide (c.tx.sendNext < request.ack)

/-- A prepared carrier that a newer request may not supersede. -/
def keepsPrepared : Bool :=
  match c.prepared with
  | none => false
  | some old =>
    (c.carrier old).state = .committing || decide (request.epoch ≤ (c.carrier old).epoch) ||
      ((c.carrier old).state ≠ .prepared && (c.carrier old).state ≠ .provisional)

def supersede : Option Link → Conn
  | none => c
  | some old => c.setState old .superseded

theorem supersede_eq (slot : Option Link) : c.supersede slot = { c with
      carrier := fun l =>
        if slot = some l then { c.carrier l with state := .superseded } else c.carrier l } := by
  cases slot with
  | none => simp [supersede]
  | some old =>
    simp only [supersede, setState, setCarrier, Option.some.injEq]
    congr 1
    funext l
    by_cases h : l = old
    · subst h; simp
    · simp [h, Ne.symm h]

/-- `AcceptCarrier` after it read a packet. -/
def acceptOffer : Conn :=
  match p with
  | .frame _ => { c.closeLink l with call := .idle }
  | .hello request =>
    if !request.wellFormed ∨ request.kind ≠ .prepare ∨ request.digest ≠ c.identity ∨
        c.refuses request ∨ c.keepsPrepared request then
      { c.closeLink l with call := .idle }
    else
      let old := c.prepared
      ({ (c.supersede old).discardAcked request.ack with
        nextEpoch := request.epoch
        prepared := some l
        call := .acceptReady l old (c.readyFor request) }).setCarrier l fun k =>
          { k with id := request.carrier, epoch := request.epoch, state := .provisional }

/-- The READY hello could not be written. -/
def acceptFailed (old : Option Link) : Conn :=
  let d := if c.prepared = some l ∧ (c.carrier l).state = .provisional then
      { c.setState l .failed with prepared := none }
    else c
  { (d.closeSlot old).closeLink l with call := .idle }

theorem acceptFailed_eq (old : Option Link) : c.acceptFailed l old = { c with
      call := .idle
      prepared := if c.prepared = some l ∧ (c.carrier l).state = .provisional then none
        else c.prepared
      carrier := fun l' => { c.carrier l' with
        state := if l' = l ∧ c.prepared = some l ∧ (c.carrier l).state = .provisional then .failed
          else (c.carrier l').state
        link := if l' = l ∨ old = some l' then .closed else (c.carrier l').link } } := by
  by_cases hp : c.prepared = some l ∧ (c.carrier l).state = .provisional <;>
  · simp only [acceptFailed, hp, closeSlot_eq, closeLink, setLink, setState, setCarrier, and_true,
      and_false, if_true, if_false]
    congr 1
    funext l'
    by_cases hl : l' = l
    · subst hl; by_cases ho : old = some l' <;> simp [ho]
    · by_cases ho : old = some l' <;> simp [ho, hl]

/-- The last section of `AcceptCarrier`. -/
def acceptFinish : Option Conn :=
  match c.call with
  | .acceptDone l old =>
    if c.prepared ≠ some l ∨ (c.carrier l).state ≠ .provisional then
      some { (c.closeSlot old).closeLink l with call := .idle }
    else
      some { ((c.setState l .prepared).closeSlot old).setReader l .reading with call := .idle }
  | _ => none

def promoteCarrier (h : CarrierHandle) : Option Conn :=
  if c.role ≠ .initiator ∨ h.id = 0 ∨ h.epoch = 0 ∨ !c.unlocked then none
  else match c.prepared with
    | none => none
    | some l =>
      let k := c.carrier l
      if k.id ≠ h.id ∨ k.epoch ≠ h.epoch ∨ (k.state ≠ .prepared ∧ k.state ≠ .committing) then none
      else
        some { c.setState l .committing with
          -- The channel of an earlier call that gave up is used again.
          commitWait := if (c.commitWait k.id).registered then c.commitWait
            else Function.update c.commitWait k.id ⟨true, none⟩
          call := .promoteCommit l }

/-- The promotion call wakes up with a result. -/
def promoteWake : Option Conn :=
  match c.call with
  | .promoteWait l =>
    let k := c.carrier l
    match (c.commitWait k.id).value with
    | none => none
    | some false =>
      some { c with
        commitWait := Function.update c.commitWait k.id { c.commitWait k.id with value := none }
        call := .idle }
    | some true =>
      let d := { c with commitWait := Function.update c.commitWait k.id {}, call := .idle }
      if c.active = some l ∧ k.state = .active ∧ c.committedEpoch = k.epoch then
        some (d.setSender l .confirm)
      else some d
  | _ => none

/-- The promotion call gives up: its context or the stream's is done. -/
def promoteExpire : Option Conn :=
  match c.call with
  | .promoteWait _ => some { c with call := .idle }
  | _ => none

def dropPrepared (h : CarrierHandle) : Option Conn :=
  if h.id = 0 ∨ !c.unlocked then none
  else match c.prepared with
    | none => none
    | some l =>
      let k := c.carrier l
      if k.id ≠ h.id ∨ k.state = .committing then none
      else some { c with
        discardWait := Function.update c.discardWait k.id ⟨true, none⟩
        call := .dropDiscard l }

/-- The drop call wakes up with a result and closes the link if it is nil. -/
def dropWake : Option Conn :=
  match c.call with
  | .dropWait l =>
    let id := (c.carrier l).id
    match (c.discardWait id).value with
    | none => none
    | some ok =>
      let d := { c with
        discardWait := Function.update c.discardWait id { c.discardWait id with value := none }
        call := .idle }
      some (if ok then d.closeLink l else d)
  | _ => none

def dropExpire : Option Conn :=
  match c.call with
  | .dropWait _ => some { c with call := .idle }
  | _ => none

/-! ### Reading frames -/

def applicationDisposition : Disposition :=
  let state := (c.carrier l).state
  if (c.active = some l ∧ state = .active) ∨ (c.retained = some l ∧ state = .retained) then .accept
  else if state = .retained ∨ state = .superseded ∨ state = .failed ∨
      (state = .active ∧ c.active ≠ some l) then .ignoreLate
  else .reject

/-- A frame was read: a superseded carrier is closed, any other frame is kept. -/
def readFrame (f : Frame) : Conn :=
  if (c.carrier l).state = .superseded ∨ (c.carrier l).state = .failed then
    (c.closeLink l).setReader l .done
  else c.setReader l (.checked f)

/-- Keep, drop or refuse an application frame. Without a stage a refused frame is
dropped as well. -/
def judge (f : Frame) (stage : Option Stage) : Conn :=
  match c.applicationDisposition l, stage with
  | .accept, _ => c.setReader l (.accepted f)
  | .ignoreLate, _ => c.setReader l .reading
  | .reject, none => c.setReader l .reading
  | .reject, some stage => c.failFrameProtocol l stage

/-- The disposition check of the four application frames. -/
def dispose : Option Conn :=
  match (c.carrier l).reader with
  | .checked (.data sequence payload) =>
    some (c.judge l (.data sequence payload) (some .dataCarrierNotApplication))
  -- A responder may acknowledge before the COMMIT reaches it.
  | .checked (.ack sequence) => some (c.judge l (.ack sequence) none)
  | .checked (.fin sequence) => some (c.judge l (.fin sequence) (some .finCarrierNotApplication))
  | .checked (.finAck sequence) =>
    some (c.judge l (.finAck sequence) (some .finAckCarrierNotApplication))
  | _ => none

def handleData (payload : List Byte) : Conn :=
  if c.rx.recvNext < sequence then c.failFrameProtocol l .dataSequenceGap
  else if sequence + payload.length ≤ c.rx.recvNext then c.setReader l .reading
  else
    let start := c.rx.recvNext - sequence
    if c.window < c.rx.recv.length + payload.length - start then
      c.failFrameProtocol l .dataWindowExceeded
    else
      { c.setReader l .reading with rx := { c.rx with
        recv := c.rx.recv ++ payload.drop start, recvNext := sequence + payload.length } }

def handleAck : Conn :=
  if c.tx.sendNext < sequence then c.failFrameProtocol l .ackBeyondSendNext
  else (c.discardAcked sequence).setReader l .reading

def handleFin : Conn :=
  if sequence < c.rx.recvNext ∨ (c.rx.remoteFIN ∧ sequence = c.rx.remoteFINAt) then
    c.setReader l .reading
  else if c.rx.recvNext < sequence ∨ c.rx.remoteFIN then
    c.failFrameProtocol l .finSequenceMismatch
  else
    { c.setReader l .reading with
      rx := { c.rx with remoteFIN := true, remoteFINAt := sequence }
      finAcker := some (l, sequence) }

def handleFinAck : Conn :=
  if !c.tx.localFIN ∨ sequence ≠ c.tx.sendNext then c.failFrameProtocol l .finAckStateMismatch
  else { c.setReader l .reading with tx := { c.tx with finAcked := true } }

/-- The reader stops at a RESET; the stream ends unless the peer had finished. -/
def handleReset : Conn :=
  if c.rx.remoteFIN ∧ c.rx.remoteFINAt ≤ c.rx.recvNext then c.setReader l .done
  else c.failTerminal.setReader l .done

def retireActive : Conn :=
  match c.active with
  | none => c
  | some old => c.setState old .retained

/-- The slot rotation shared by COMMIT and COMMIT_ACK: the active carrier becomes
the retained one, whatever was retained before. -/
def commitCarrier : Conn :=
  { c.retireActive.setState l .active with
    retained := c.active
    active := some l
    prepared := none
    committedEpoch := (c.carrier l).epoch
    detached := false }

theorem commitCarrier_eq : c.commitCarrier l = { c with
      retained := c.active
      active := some l
      prepared := none
      committedEpoch := (c.carrier l).epoch
      detached := false
      carrier := fun l' => if l' = l then { c.carrier l' with state := .active }
        else if c.active = some l' then { c.carrier l' with state := .retained }
        else c.carrier l' } := by
  cases ha : c.active with
  | none =>
    simp only [commitCarrier, retireActive, ha, setState, setCarrier]
    congr 1
    funext l'
    by_cases hl : l' = l
    · subst hl; simp
    · simp [hl]
  | some old =>
    simp only [commitCarrier, retireActive, ha, setState, setCarrier, Option.some.injEq]
    congr 1
    funext l'
    by_cases hl : l' = l
    · subst hl; by_cases ho : l' = old <;> simp [ho]
    · by_cases ho : l' = old
      · subst ho; simp [hl]
      · simp [hl, ho, Ne.symm ho]

def handleCommit : Option Conn :=
  let k := c.carrier l
  if c.role ≠ .responder ∨ sequence ≠ k.epoch then
    some (c.failFrameProtocol l .commitShapeOrRole)
  else if !c.unlocked then none
  else if k.state = .superseded ∨ k.state = .failed then
    some ((c.closeLink l).setReader l .done)
  else if c.active = some l ∧ c.committedEpoch = k.epoch then
    some (c.setReader l (.commitAck false))
  else if c.prepared ≠ some l ∨ (k.state ≠ .prepared ∧ k.state ≠ .committing) then
    some (c.failFrameProtocol l .commitCarrierNotPrepared)
  else some ((c.commitCarrier l).setReader l (.commitAck true))

def handleCommitAck : Conn :=
  let k := c.carrier l
  if c.role ≠ .initiator ∨ sequence ≠ k.epoch then c.failFrameProtocol l .commitAckShapeOrRole
  else if c.prepared ≠ some l ∨ k.state ≠ .committing then
    c.failFrameProtocol l .commitAckCarrierNotCommitting
  else
    { (c.commitCarrier l).setReader l .reading with
      -- The waiter keeps its place in the map, the call itself removes it.
      commitWait := if (c.commitWait k.id).registered then
          Function.update c.commitWait k.id ⟨true, (c.commitWait k.id).value.or (some true)⟩
        else c.commitWait }

def handleConfirm : Option Conn :=
  let k := c.carrier l
  if c.role ≠ .responder ∨ sequence ≠ k.epoch then
    some (c.failFrameProtocol l .confirmShapeOrRole)
  else if !c.unlocked then none
  else if k.state = .superseded ∨ k.state = .failed then
    some ((c.closeLink l).setReader l .done)
  else some { (c.closeSlot c.retained).setReader l .reading with retained := none }

def handleDiscard : Option Conn :=
  let k := c.carrier l
  if c.role ≠ .responder ∨ sequence ≠ k.epoch then
    some (c.failFrameProtocol l .discardShapeOrRole)
  else if !c.unlocked then none
  else if k.state = .superseded ∨ k.state = .failed then
    some ((c.closeLink l).setReader l .done)
  else if c.prepared ≠ some l ∨ k.state ≠ .prepared then
    some (c.failFrameProtocol l .discardCarrierNotPrepared)
  else some { c.setReader l .discardAck with prepared := none }

def handleDiscardAck : Conn :=
  let k := c.carrier l
  if c.role ≠ .initiator ∨ sequence ≠ k.epoch then c.failFrameProtocol l .discardAckShapeOrRole
  else if c.prepared ≠ some l ∨ k.state ≠ .prepared then
    c.failFrameProtocol l .discardAckCarrierNotPrepared
  else
    { c.setReader l .reading with
      prepared := none
      discardWait := signalWait c.discardWait k.id true }

/-- The section of `readCarrier` that handles the frame in hand. -/
def process : Option Conn :=
  match (c.carrier l).reader with
  | .accepted (.data sequence payload) => some (c.handleData l sequence payload)
  | .accepted (.ack sequence) => some (c.handleAck l sequence)
  | .accepted (.fin sequence) => some (c.handleFin l sequence)
  | .accepted (.finAck sequence) => some (c.handleFinAck l sequence)
  | .checked .reset => some (c.handleReset l)
  | .checked (.commit sequence) => c.handleCommit l sequence
  | .checked (.commitAck sequence) => some (c.handleCommitAck l sequence)
  | .checked (.confirm sequence) => c.handleConfirm l sequence
  | .checked (.discard sequence) => c.handleDiscard l sequence
  | .checked (.discardAck sequence) => some (c.handleDiscardAck l sequence)
  | _ => none

/-! ### Writing frames -/

/-- One round of `writeActive` up to its next write. A round that would wait is
not enabled. -/
def writeActive : Option Conn :=
  match (c.carrier l).sender with
  | .loop offset =>
    if c.active ≠ some l ∨ c.closed ∨ c.terminal then some (c.setSender l .done)
    else
      let offset := max offset c.tx.sendBase
      if offset < c.tx.sendNext then
        let start := offset - c.tx.sendBase
        let n := min maximumFrame (c.tx.send.length - start)
        let payload := (c.tx.send.drop start).take n
        some (c.setSender l (.data (offset + n) offset payload))
      else if c.tx.localFIN ∧ !c.tx.finAcked ∧ c.tx.finSent ≠ (c.carrier l).id then
        some (c.setSender l (.fin offset c.tx.sendNext))
      else none
  | _ => none

/-- The section after the FIN was written. -/
def finWritten : Option Conn :=
  match (c.carrier l).sender with
  | .finWritten offset =>
    let d := if c.active = some l then
        { c with tx := { c.tx with finSent := (c.carrier l).id } }
      else c
    some (d.setSender l (.loop offset))
  | _ => none

/-- The section of `confirmCarrier` after the CONFIRM was written. -/
def retire : Option Conn :=
  match (c.carrier l).sender with
  | .retire =>
    let d := if c.active = some l then { c.closeSlot c.retained with retained := none } else c
    some (d.setSender l (.loop 0))
  | _ => none

/-- One round of `writeAcknowledgements` up to its write. -/
def acknowledge : Option Conn :=
  match c.acker, c.active with
  | .idle, some l =>
    if c.rx.ackCarrier = (c.carrier l).id ∧ c.rx.recvBase ≤ c.rx.ackOffset then none
    else some { c with acker := .writing l c.rx.recvBase }
  | _, _ => none

/-- The section after an acknowledgement was written. -/
def acknowledged : Option Conn :=
  match c.acker with
  | .written l offset =>
    if c.active = some l then
      some { c with
        acker := .idle
        rx := { c.rx with
          ackCarrier := (c.carrier l).id, ackOffset := max offset c.rx.ackOffset } }
    else some { c with acker := .idle }
  | _ => none

/-- The goroutines that write to a link. -/
inductive Task where
  | call
  | reader (l : Link)
  | sender (l : Link)
  | acker
  | finAcker
  | closer
  deriving DecidableEq, Repr

/-- The packet a goroutine is about to write. -/
def pending : Task → Option (Link × Packet)
  | .call => match c.call with
    | .prepareHello l request => some (l, .hello request)
    | .acceptReady l _ ready => some (l, .hello ready)
    | .promoteCommit l => some (l, .frame (.commit (c.carrier l).epoch))
    | .dropDiscard l => some (l, .frame (.discard (c.carrier l).epoch))
    | _ => none
  | .reader l => match (c.carrier l).reader with
    | .commitAck _ => some (l, .frame (.commitAck (c.carrier l).epoch))
    | .discardAck => some (l, .frame (.discardAck (c.carrier l).epoch))
    | _ => none
  | .sender l => match (c.carrier l).sender with
    | .confirm => some (l, .frame (.confirm (c.carrier l).epoch))
    | .data _ sequence payload => some (l, .frame (.data sequence payload))
    | .fin _ sequence => some (l, .frame (.fin sequence))
    | _ => none
  | .acker => match c.acker with
    | .writing l offset => some (l, .frame (.ack offset))
    | _ => none
  | .finAcker => c.finAcker.map fun (l, sequence) => (l, .frame (.finAck sequence))
  | .closer => match c.closing with
    | [] => none
    | l :: _ => some (l, .frame .reset)

/-- A goroutine goes on after its write succeeded. -/
def sent : Task → Option Conn
  | .call => match c.call with
    | .prepareHello l request => some { c with call := .prepareReady l request }
    | .acceptReady l old _ => some { c with call := .acceptDone l old }
    | .promoteCommit l => some { c with call := .promoteWait l }
    | .dropDiscard l => some { c with call := .dropWait l }
    | _ => none
  | .reader l => match (c.carrier l).reader with
    | .commitAck promoted =>
      some (if promoted then (c.setReader l .reading).setSender l (.loop 0)
        else c.setReader l .reading)
    | .discardAck => some ((c.closeLink l).setReader l .done)
    | _ => none
  | .sender l => match (c.carrier l).sender with
    | .confirm => some (c.setSender l .retire)
    | .data offset _ _ => some (c.setSender l (.loop offset))
    | .fin offset _ => some (c.setSender l (.finWritten offset))
    | _ => none
  | .acker => match c.acker with
    | .writing l offset => some { c with acker := .written l offset }
    | _ => none
  | .finAcker => c.finAcker.map fun _ => { c with finAcker := none }
  | .closer => match c.closing with
    | [] => none
    | l :: rest => some { c.closeLink l with closing := rest }

/-- A goroutine goes on after its write failed. -/
def sendErr : Task → Option Conn
  | .call => match c.call with
    | .prepareHello l _ => some { c.closeLink l with call := .idle }
    | .acceptReady l old _ => some (c.acceptFailed l old)
    | .promoteCommit l | .dropDiscard l => (c.failCarrier l).map ({ · with call := .idle })
    | _ => none
  | .reader l => match (c.carrier l).reader with
    | .commitAck _ => (c.failCarrier l).map (·.setReader l .done)
    | .discardAck => some ((c.closeLink l).setReader l .done)
    | _ => none
  | .sender l => match (c.carrier l).sender with
    -- A failed CONFIRM does not fail the carrier, the writer starts regardless.
    | .confirm => some (c.setSender l (.loop 0))
    | .data _ _ _ | .fin _ _ => (c.failCarrier l).map (·.setSender l .done)
    | _ => none
  | .acker => match c.acker with
    | .writing l _ => (c.failCarrier l).map ({ · with acker := .idle })
    | _ => none
  | .finAcker => match c.finAcker with
    | some (l, _) => (c.failCarrier l).map ({ · with finAcker := none })
    | none => none
  | .closer => match c.closing with
    | [] => none
    | l :: rest => some { c.closeLink l with closing := rest }

/-- `readCarrier` gets a packet. -/
def recvFrame : Option Conn :=
  match (c.carrier l).reader, p with
  | .reading, .frame f =>
    if f.wellFormed then some (c.readFrame l f)
    else (c.failCarrier l).map (·.setReader l .done)
  -- A hello is no frame: `readFrame` reports an error.
  | .reading, .hello _ => (c.failCarrier l).map (·.setReader l .done)
  | _, _ => none

/-- A packet arrives at whoever reads from the link. -/
def recv : Option Conn :=
  if (c.carrier l).link ≠ .opened then none
  else match c.call with
    | .prepareReady l' request =>
      if l' = l then some (c.prepareAnswer l request p) else c.recvFrame l p
    | .acceptHello l' => if l' = l then some (c.acceptOffer l p) else c.recvFrame l p
    | _ => c.recvFrame l p

/-- `readCarrier` gets an error. -/
def readerErr : Option Conn :=
  match (c.carrier l).reader with
  | .reading => (c.failCarrier l).map (·.setReader l .done)
  | _ => none

/-- Reading from the link fails. -/
def recvErr : Option Conn :=
  match c.call with
  | .prepareReady l' _ =>
    if l' = l then some { c.closeLink l with call := .idle } else c.readerErr l
  | .acceptHello l' => if l' = l then some { c.closeLink l with call := .idle } else c.readerErr l
  | _ => c.readerErr l

/-! ### The transition system of one end -/

/-- What can happen to one end. -/
inductive Input where
  | write (data : List Byte)
  | read (size : ℕ)
  | closeWrite
  | close
  | abort
  | contextDone
  | expireDetached (seq : ℕ)
  | prepareCarrier (l : Link) (id : CarrierID)
  | acceptCarrier (l : Link)
  | acceptFinish
  | promoteCarrier (h : CarrierHandle)
  | promoteWake
  | promoteExpire
  | dropPrepared (h : CarrierHandle)
  | dropWake
  | dropExpire
  | dispose (l : Link)
  | process (l : Link)
  | writeActive (l : Link)
  | finWritten (l : Link)
  | retire (l : Link)
  | acknowledge
  | acknowledged
  | sent (t : Task)
  | sendErr (t : Task)
  | recv (l : Link) (p : Packet)
  | recvErr (l : Link)

def step : Input → Option Conn
  | .write data => c.write data
  | .read size => c.read size
  | .closeWrite => c.closeWrite
  | .close => c.close
  | .abort => some c.failTerminal
  | .contextDone => c.contextDone
  | .expireDetached seq => c.expireDetached seq
  | .prepareCarrier l id => c.prepareCarrier l id
  | .acceptCarrier l => c.acceptCarrier l
  | .acceptFinish => c.acceptFinish
  | .promoteCarrier h => c.promoteCarrier h
  | .promoteWake => c.promoteWake
  | .promoteExpire => c.promoteExpire
  | .dropPrepared h => c.dropPrepared h
  | .dropWake => c.dropWake
  | .dropExpire => c.dropExpire
  | .dispose l => c.dispose l
  | .process l => c.process l
  | .writeActive l => c.writeActive l
  | .finWritten l => c.finWritten l
  | .retire l => c.retire l
  | .acknowledge => c.acknowledge
  | .acknowledged => c.acknowledged
  | .sent t => c.sent t
  | .sendErr t => c.sendErr t
  | .recv l p => c.recv l p
  | .recvErr l => c.recvErr l

end Conn

end Paperboat.ResumableStream
