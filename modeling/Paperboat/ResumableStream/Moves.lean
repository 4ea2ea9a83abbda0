import Paperboat.ResumableStream.Conn

/-! What one step of an end can do, branch by branch. `Move` lists the outcomes of
every step together with the conditions under which the source takes them, and
`move_of_step` is the only place where the step functions are taken apart. -/

namespace Paperboat.ResumableStream

/-- The frame a reader holds. -/
def Reader.inHand : Reader → Option Frame
  | .checked f | .accepted f => some f
  | _ => none

/-- The frames that a responder handles under the transition lock. -/
def Frame.isControl : Frame → Bool
  | .commit _ | .confirm _ | .discard _ => true
  | _ => false

namespace Conn

/-! ### A carrier after the helper operations

Each equation changes fields of the carrier in place, so that a projection of it reduces
whatever link it is about. -/

section Fields

variable (c : Conn) (l l' : Link) (slot : Option Link)

@[simp] theorem carrier_setReader (r : Reader) : (c.setReader l r).carrier l' =
    { c.carrier l' with reader := if l' = l then r else (c.carrier l').reader } := by
  simp only [setReader, setCarrier, Function.update_apply]
  split <;> simp_all

@[simp] theorem carrier_setSender (s : Sender) : (c.setSender l s).carrier l' =
    { c.carrier l' with sender := if l' = l then s else (c.carrier l').sender } := by
  simp only [setSender, setCarrier, Function.update_apply]
  split <;> simp_all

@[simp] theorem carrier_setState (s : CarrierState) : (c.setState l s).carrier l' =
    { c.carrier l' with state := if l' = l then s else (c.carrier l').state } := by
  simp only [setState, setCarrier, Function.update_apply]
  split <;> simp_all

@[simp] theorem carrier_setLink (e : LinkEnd) : (c.setLink l e).carrier l' =
    { c.carrier l' with link := if l' = l then e else (c.carrier l').link } := by
  simp only [setLink, setCarrier, Function.update_apply]
  split <;> simp_all

@[simp] theorem carrier_closeLink : (c.closeLink l).carrier l' =
    { c.carrier l' with link := if l' = l then .closed else (c.carrier l').link } :=
  carrier_setLink ..

@[simp] theorem carrier_closeSlot : (c.closeSlot slot).carrier l' =
    { c.carrier l' with link := if slot = some l' then .closed else (c.carrier l').link } := by
  rw [closeSlot_eq]
  dsimp only
  split <;> rfl

@[simp] theorem carrier_detachAll : c.detachAll.carrier l' =
    { c.carrier l' with link := if c.holds l' then .closed else (c.carrier l').link } := by
  rw [detachAll_eq]
  dsimp only
  split <;> rfl

@[simp] theorem carrier_detachForReset : c.detachForReset.carrier = c.carrier := rfl

@[simp] theorem carrier_failTerminal : c.failTerminal.carrier l' =
    { c.carrier l' with link := if c.holds l' then .closed else (c.carrier l').link } :=
  carrier_detachAll ..

@[simp] theorem carrier_failFrameProtocol (stage : Stage) :
    (c.failFrameProtocol l stage).carrier l' = { c.carrier l' with
      link := if c.holds l' then .closed else (c.carrier l').link
      reader := if l' = l then .done else (c.carrier l').reader } := by
  rw [failFrameProtocol, carrier_setReader, carrier_failTerminal]
  rfl

@[simp] theorem carrier_dropCarrier : (c.dropCarrier l).carrier l' = { c.carrier l' with
    link := if l' = l ∧ c.holds l then .closed else (c.carrier l').link
    state := if l' = l ∧ c.holds l then .failed else (c.carrier l').state } := by
  rw [dropCarrier_eq]
  dsimp only
  split <;> rfl

@[simp] theorem carrier_supersede : (c.supersede slot).carrier l' =
    { c.carrier l' with state := if slot = some l' then .superseded else (c.carrier l').state } := by
  rw [supersede_eq]
  dsimp only
  split <;> rfl

@[simp] theorem carrier_commitCarrier : (c.commitCarrier l).carrier l' = { c.carrier l' with
    state := if l' = l then .active else if c.active = some l' then .retained
      else (c.carrier l').state } := by
  rw [commitCarrier_eq]
  dsimp only
  split_ifs <;> rfl

@[simp] theorem carrier_acceptFailed : (c.acceptFailed l slot).carrier l' = { c.carrier l' with
    link := if l' = l ∨ slot = some l' then .closed else (c.carrier l').link
    state := if l' = l ∧ c.prepared = some l ∧ (c.carrier l).state = .provisional then .failed
      else (c.carrier l').state } := by
  rw [acceptFailed_eq]

@[simp] theorem prepared_closeSlot : (c.closeSlot slot).prepared = c.prepared := by
  rw [closeSlot_eq]

end Fields

/-- The checks of `readCarrier` that end the stream, with the frame they are about. -/
inductive Fault (c : Conn) (l : Link) : Stage → Prop
  | dataCarrier (hr : (c.carrier l).reader = .checked (.data n payload))
      (hd : c.applicationDisposition l = .reject) : Fault c l .dataCarrierNotApplication
  | dataGap (hr : (c.carrier l).reader = .accepted (.data n payload))
      (hgap : c.rx.recvNext < n) : Fault c l .dataSequenceGap
  | dataWindow (hr : (c.carrier l).reader = .accepted (.data n payload)) (hseq : n ≤ c.rx.recvNext)
      (hnew : c.rx.recvNext < n + payload.length)
      (hfull : c.window < c.rx.recv.length + payload.length - (c.rx.recvNext - n)) :
      Fault c l .dataWindowExceeded
  | ackBeyond (hr : (c.carrier l).reader = .accepted (.ack n))
      (hlt : c.tx.sendNext < n) : Fault c l .ackBeyondSendNext
  | finCarrier (hr : (c.carrier l).reader = .checked (.fin n))
      (hd : c.applicationDisposition l = .reject) : Fault c l .finCarrierNotApplication
  | finSequence (hr : (c.carrier l).reader = .accepted (.fin n))
      (hnew : ¬ (n < c.rx.recvNext ∨ (c.rx.remoteFIN ∧ n = c.rx.remoteFINAt)))
      (hbad : c.rx.recvNext < n ∨ c.rx.remoteFIN) : Fault c l .finSequenceMismatch
  | finAckCarrier (hr : (c.carrier l).reader = .checked (.finAck n))
      (hd : c.applicationDisposition l = .reject) : Fault c l .finAckCarrierNotApplication
  | finAckState (hr : (c.carrier l).reader = .accepted (.finAck n))
      (hbad : c.tx.localFIN = false ∨ n ≠ c.tx.sendNext) : Fault c l .finAckStateMismatch
  | commitShape (hr : (c.carrier l).reader = .checked (.commit n))
      (hbad : c.role ≠ .responder ∨ n ≠ (c.carrier l).epoch) : Fault c l .commitShapeOrRole
  | commitCarrier (hr : (c.carrier l).reader = .checked (.commit n))
      (hlive : (c.carrier l).state ≠ .superseded ∧ (c.carrier l).state ≠ .failed)
      (hbad : c.prepared ≠ some l ∨
        ((c.carrier l).state ≠ .prepared ∧ (c.carrier l).state ≠ .committing)) :
      Fault c l .commitCarrierNotPrepared
  | commitAckShape (hr : (c.carrier l).reader = .checked (.commitAck n))
      (hbad : c.role ≠ .initiator ∨ n ≠ (c.carrier l).epoch) : Fault c l .commitAckShapeOrRole
  | commitAckCarrier (hr : (c.carrier l).reader = .checked (.commitAck n))
      (hbad : c.prepared ≠ some l ∨ (c.carrier l).state ≠ .committing) :
      Fault c l .commitAckCarrierNotCommitting
  | confirmShape (hr : (c.carrier l).reader = .checked (.confirm n))
      (hbad : c.role ≠ .responder ∨ n ≠ (c.carrier l).epoch) : Fault c l .confirmShapeOrRole
  | discardShape (hr : (c.carrier l).reader = .checked (.discard n))
      (hbad : c.role ≠ .responder ∨ n ≠ (c.carrier l).epoch) : Fault c l .discardShapeOrRole
  | discardCarrier (hr : (c.carrier l).reader = .checked (.discard n))
      (hlive : (c.carrier l).state ≠ .superseded ∧ (c.carrier l).state ≠ .failed)
      (hbad : c.prepared ≠ some l ∨ (c.carrier l).state ≠ .prepared) :
      Fault c l .discardCarrierNotPrepared
  | discardAckShape (hr : (c.carrier l).reader = .checked (.discardAck n))
      (hbad : c.role ≠ .initiator ∨ n ≠ (c.carrier l).epoch) : Fault c l .discardAckShapeOrRole
  | discardAckCarrier (hr : (c.carrier l).reader = .checked (.discardAck n))
      (hbad : c.prepared ≠ some l ∨ (c.carrier l).state ≠ .prepared) :
      Fault c l .discardAckCarrierNotPrepared

theorem Fault.inHand {c : Conn} (h : Fault c l stage) : ∃ f, (c.carrier l).reader.inHand = some f := by
  cases h with
  | dataCarrier hr | dataGap hr | dataWindow hr | ackBeyond hr | finCarrier hr | finSequence hr
  | finAckCarrier hr | finAckState hr | commitShape hr | commitCarrier hr | commitAckShape hr
  | commitAckCarrier hr | confirmShape hr | discardShape hr | discardCarrier hr
  | discardAckShape hr | discardAckCarrier hr => exact ⟨_, by rw [hr]; rfl⟩

/-- The outcomes of a step. -/
inductive Move (c : Conn) : Input → Conn → Prop
  -- The byte stream.
  | write {data chunk : List Byte} (hfin : c.tx.localFIN = false)
      (hroom : c.tx.send.length + chunk.length ≤ c.window) :
      Move c (.write data) { c with
        tx := { c.tx with
          send := c.tx.send ++ chunk
          sendNext := c.tx.sendNext + chunk.length
          written := c.tx.written ++ chunk } }
  | read :
      Move c (.read size) { c with
        rx := { c.rx with
          recv := c.rx.recv.drop size
          recvBase := c.rx.recvBase + (c.rx.recv.take size).length
          returned := c.rx.returned ++ c.rx.recv.take size } }
  | readEOF (hempty : c.rx.recv = []) (hfin : c.rx.remoteFIN)
      (hat : c.rx.remoteFINAt ≤ c.rx.recvNext) :
      Move c (.read size) { c with rx := { c.rx with readEOF := true } }
  | closeWrite (hopen : c.closed = false ∧ c.terminal = false) :
      Move c .closeWrite { c with tx := { c.tx with localFIN := true } }
  -- The end of the stream.
  | closeGraceful : Move c .close { c.detachAll with closed := true }
  | closeReset : Move c .close { c.detachForReset with closed := true }
  | abort : Move c .abort c.failTerminal
  | contextDone :
      Move c .contextDone { c.detachForReset with terminal := c.terminal || !c.closed }
  | expire : Move c (.expireDetached seq) { c with timers := c.timers.erase seq }
  | expireFatal :
      Move c (.expireDetached seq) ({ c with timers := c.timers.erase seq }).failTerminal
  -- Preparing a carrier.
  | prepareMisused {id : CarrierID} (hl : (c.carrier l).link = .unused)
      (hrole : c.role ≠ .initiator) : Move c (.prepareCarrier l id) (c.setLink l .opened)
  | prepareRefused {id : CarrierID} (hl : (c.carrier l).link = .unused)
      (hcall : c.call = .idle) : Move c (.prepareCarrier l id) (c.closeLink l)
  | prepare {id : CarrierID} (hl : (c.carrier l).link = .unused)
      (hrole : c.role = .initiator) (hcall : c.call = .idle) (hfree : c.prepared = none)
      (hopen : c.closed = false ∧ c.terminal = false) (hid : id ≠ 0) :
      Move c (.prepareCarrier l id) { c.setLink l .opened with
        call := .prepareHello l (c.request id) }
  | prepareSent {request : Hello} (hcall : c.call = .prepareHello l request) :
      Move c (.sent .call) { c with call := .prepareReady l request }
  | prepareSendErr {request : Hello} (hcall : c.call = .prepareHello l request) :
      Move c (.sendErr .call) { c.closeLink l with call := .idle }
  | answerErr {request : Hello} (hcall : c.call = .prepareReady l request) :
      Move c (.recvErr l) { c.closeLink l with call := .idle }
  | answerRefused {request : Hello} {p : Packet}
      (hcall : c.call = .prepareReady l request) (hbad : ∀ ready, p = .hello ready →
        !ready.wellFormed ∨ ready.kind ≠ .ready ∨ ready.digest ≠ c.identity ∨
        ready.carrier ≠ request.carrier ∨ ready.epoch ≠ request.epoch ∨
        c.tx.sendNext < ready.ack ∨ c.closed ∨ c.terminal ∨ c.prepared ≠ none) :
      Move c (.recv l p) { c.closeLink l with call := .idle }
  | answered {request ready : Hello} (hcall : c.call = .prepareReady l request)
      (hkind : ready.kind = .ready) (hid : ready.carrier = request.carrier)
      (hepoch : ready.epoch = request.epoch) (hack : ready.ack ≤ c.tx.sendNext)
      (hfree : c.prepared = none) :
      Move c (.recv l (.hello ready)) (({ c.discardAcked ready.ack with
        nextEpoch := request.epoch
        prepared := some l
        detached := c.active = none
        call := .idle }).setCarrier l fun k => { k with
          id := request.carrier, epoch := request.epoch, state := .prepared, reader := .reading })
  -- Accepting a carrier.
  | acceptMisused (hl : (c.carrier l).link = .unused) (hrole : c.role ≠ .responder) :
      Move c (.acceptCarrier l) (c.setLink l .opened)
  | accept (hl : (c.carrier l).link = .unused) (hrole : c.role = .responder)
      (hcall : c.call = .idle) :
      Move c (.acceptCarrier l) { c.setLink l .opened with call := .acceptHello l }
  | offerErr (hcall : c.call = .acceptHello l) :
      Move c (.recvErr l) { c.closeLink l with call := .idle }
  | offerRefused (hcall : c.call = .acceptHello l) :
      Move c (.recv l p) { c.closeLink l with call := .idle }
  | offered {request : Hello} (hcall : c.call = .acceptHello l)
      (hkind : request.kind = .prepare) (hok : c.refuses request = false)
      (hold : c.keepsPrepared request = false) (hwf : request.wellFormed) :
      Move c (.recv l (.hello request)) (({ (c.supersede c.prepared).discardAcked request.ack with
        nextEpoch := request.epoch
        prepared := some l
        call := .acceptReady l c.prepared (c.readyFor request) }).setCarrier l fun k => { k with
          id := request.carrier, epoch := request.epoch, state := .provisional })
  | readySent (hcall : c.call = .acceptReady l old ready) :
      Move c (.sent .call) { c with call := .acceptDone l old }
  | readySendErr (hcall : c.call = .acceptReady l old ready) :
      Move c (.sendErr .call) (c.acceptFailed l old)
  | acceptGone (hcall : c.call = .acceptDone l old)
      (hgone : c.prepared ≠ some l ∨ (c.carrier l).state ≠ .provisional) :
      Move c .acceptFinish { (c.closeSlot old).closeLink l with call := .idle }
  | accepted (hcall : c.call = .acceptDone l old)
      (hprep : c.prepared = some l) (hstate : (c.carrier l).state = .provisional) :
      Move c .acceptFinish
        { ((c.setState l .prepared).closeSlot old).setReader l .reading with call := .idle }
  -- Promoting a carrier.
  | promote (hrole : c.role = .initiator) (hcall : c.call = .idle)
      (hprep : c.prepared = some l) (hid : (c.carrier l).id = x.id)
      (hstate : (c.carrier l).state = .prepared ∨ (c.carrier l).state = .committing) :
      Move c (.promoteCarrier x) { c.setState l .committing with
        commitWait := if (c.commitWait (c.carrier l).id).registered then c.commitWait
          else Function.update c.commitWait (c.carrier l).id ⟨true, none⟩
        call := .promoteCommit l }
  | promoteSent (hcall : c.call = .promoteCommit l) :
      Move c (.sent .call) { c with call := .promoteWait l }
  | promoteSendErr (hcall : c.call = .promoteCommit l) (hrole : c.role = .initiator) :
      Move c (.sendErr .call) { c.dropCarrier l with call := .idle }
  | promoteDone (hcall : c.call = .promoteWait l)
      (hw : ∀ id, id ≠ (c.carrier l).id → w id = c.commitWait id) :
      Move c .promoteWake { c with commitWait := w, call := .idle }
  | promoted (hcall : c.call = .promoteWait l)
      (hactive : c.active = some l) (hstate : (c.carrier l).state = .active)
      (hw : ∀ id, id ≠ (c.carrier l).id → w id = c.commitWait id) :
      Move c .promoteWake (({ c with commitWait := w, call := .idle }).setSender l .confirm)
  | promoteExpire (hcall : c.call = .promoteWait l) :
      Move c .promoteExpire { c with call := .idle }
  -- Dropping a carrier.
  | drop (hcall : c.call = .idle) (hprep : c.prepared = some l)
      (hid : (c.carrier l).id = x.id) (hstate : (c.carrier l).state ≠ .committing) :
      Move c (.dropPrepared x) { c with
        discardWait := Function.update c.discardWait (c.carrier l).id ⟨true, none⟩
        call := .dropDiscard l }
  | dropSent (hcall : c.call = .dropDiscard l) :
      Move c (.sent .call) { c with call := .dropWait l }
  | dropSendErr (hcall : c.call = .dropDiscard l) (hrole : c.role = .initiator) :
      Move c (.sendErr .call) { c.dropCarrier l with call := .idle }
  | dropped (hcall : c.call = .dropWait l)
      (hv : (c.discardWait (c.carrier l).id).value = some true) :
      Move c .dropWake (({ c with
        discardWait := Function.update c.discardWait (c.carrier l).id
          { c.discardWait (c.carrier l).id with value := none }
        call := .idle }).closeLink l)
  | dropFailed (hcall : c.call = .dropWait l)
      (hv : (c.discardWait (c.carrier l).id).value = some false) :
      Move c .dropWake { c with
        discardWait := Function.update c.discardWait (c.carrier l).id
          { c.discardWait (c.carrier l).id with value := none }
        call := .idle }
  | dropExpire (hcall : c.call = .dropWait l) :
      Move c .dropExpire { c with call := .idle }
  -- Reading a frame.
  | readFrame (hl : (c.carrier l).link = .opened)
      (hr : (c.carrier l).reader = .reading)
      (hlive : (c.carrier l).state ≠ .superseded ∧ (c.carrier l).state ≠ .failed) :
      Move c (.recv l (.frame f)) (c.setReader l (.checked f))
  | readLate (hr : (c.carrier l).reader = .reading)
      (hlate : (c.carrier l).state = .superseded ∨ (c.carrier l).state = .failed) :
      Move c (.recv l (.frame f)) ((c.closeLink l).setReader l .done)
  | readBad (hr : (c.carrier l).reader = .reading)
      (hrole : c.role = .responder → c.call = .idle)
      (hp : ∀ f, p = .frame f → f.wellFormed = false) :
      Move c (.recv l p) ((c.dropCarrier l).setReader l .done)
  | readErr (hr : (c.carrier l).reader = .reading)
      (hrole : c.role = .responder → c.call = .idle) :
      Move c (.recvErr l) ((c.dropCarrier l).setReader l .done)
  | judgeAccept (hr : (c.carrier l).reader = .checked f)
      (hd : c.applicationDisposition l = .accept) :
      Move c (.dispose l) (c.setReader l (.accepted f))
  | judgeLate (hr : (c.carrier l).reader = .checked f)
      (hd : c.applicationDisposition l = .ignoreLate) :
      Move c (.dispose l) (c.setReader l .reading)
  | ackEarly (hr : (c.carrier l).reader = .checked (.ack n))
      (hd : c.applicationDisposition l = .reject) : Move c (.dispose l) (c.setReader l .reading)
  | disposeFault (hf : Fault c l stage) :
      Move c (.dispose l) (c.failFrameProtocol l stage)
  -- Handling a frame.
  | processFault (hf : Fault c l stage) :
      Move c (.process l) (c.failFrameProtocol l stage)
  | dataKnown (hr : (c.carrier l).reader = .accepted (.data n payload))
      (hold : n + payload.length ≤ c.rx.recvNext) : Move c (.process l) (c.setReader l .reading)
  | dataTaken (hr : (c.carrier l).reader = .accepted (.data n payload)) (hseq : n ≤ c.rx.recvNext)
      (hnew : c.rx.recvNext < n + payload.length) :
      Move c (.process l) { c.setReader l .reading with
        rx := { c.rx with
          recv := c.rx.recv ++ payload.drop (c.rx.recvNext - n)
          recvNext := n + payload.length } }
  | ackTaken (hr : (c.carrier l).reader = .accepted (.ack n))
      (hle : n ≤ c.tx.sendNext) : Move c (.process l) ((c.discardAcked n).setReader l .reading)
  | finKnown (hr : (c.carrier l).reader = .accepted (.fin n))
      (hold : n < c.rx.recvNext ∨ (c.rx.remoteFIN ∧ n = c.rx.remoteFINAt)) :
      Move c (.process l) (c.setReader l .reading)
  | finTaken (hr : (c.carrier l).reader = .accepted (.fin n))
      (hn : n = c.rx.recvNext) (hfin : c.rx.remoteFIN = false) :
      Move c (.process l) { c.setReader l .reading with
        rx := { c.rx with remoteFIN := true, remoteFINAt := n }
        finAcker := some (l, n) }
  | finAckTaken (hr : (c.carrier l).reader = .accepted (.finAck n)) :
      Move c (.process l) { c.setReader l .reading with tx := { c.tx with finAcked := true } }
  | resetFinished (hr : (c.carrier l).reader = .checked .reset) :
      Move c (.process l) (c.setReader l .done)
  | resetFatal (hr : (c.carrier l).reader = .checked .reset) :
      Move c (.process l) (c.failTerminal.setReader l .done)
  | controlLate (hr : (c.carrier l).reader = .checked f)
      (hf : f.isControl) (hrole : c.role = .responder)
      (hlate : (c.carrier l).state = .superseded ∨ (c.carrier l).state = .failed) :
      Move c (.process l) ((c.closeLink l).setReader l .done)
  | commitAgain (hr : (c.carrier l).reader = .checked (.commit n))
      (hrole : c.role = .responder) (hactive : c.active = some l)
      (hepoch : c.committedEpoch = (c.carrier l).epoch) :
      Move c (.process l) (c.setReader l (.commitAck false))
  | commit (hr : (c.carrier l).reader = .checked (.commit n))
      (hrole : c.role = .responder) (hcall : c.call = .idle) (hepoch : n = (c.carrier l).epoch)
      (hprep : c.prepared = some l) (hstate : (c.carrier l).state = .prepared ∨
        (c.carrier l).state = .committing) :
      Move c (.process l) ((c.commitCarrier l).setReader l (.commitAck true))
  | commitAck (hr : (c.carrier l).reader = .checked (.commitAck n))
      (hrole : c.role = .initiator) (hepoch : n = (c.carrier l).epoch)
      (hprep : c.prepared = some l) (hstate : (c.carrier l).state = .committing) :
      Move c (.process l) { (c.commitCarrier l).setReader l .reading with
        commitWait := if (c.commitWait (c.carrier l).id).registered then
            Function.update c.commitWait (c.carrier l).id
              ⟨true, (c.commitWait (c.carrier l).id).value.or (some true)⟩
          else c.commitWait }
  | confirm (hr : (c.carrier l).reader = .checked (.confirm n))
      (hrole : c.role = .responder) :
      Move c (.process l)
        { (c.closeSlot c.retained).setReader l .reading with retained := none }
  | discard (hr : (c.carrier l).reader = .checked (.discard n))
      (hrole : c.role = .responder) (hcall : c.call = .idle) (hprep : c.prepared = some l)
      (hstate : (c.carrier l).state = .prepared) :
      Move c (.process l) { c.setReader l .discardAck with prepared := none }
  | discardAck (hr : (c.carrier l).reader = .checked (.discardAck n))
      (hrole : c.role = .initiator) (hprep : c.prepared = some l)
      (hstate : (c.carrier l).state = .prepared) :
      Move c (.process l) { c.setReader l .reading with
        prepared := none
        discardWait := signalWait c.discardWait (c.carrier l).id true }
  -- Answers of a reader.
  | commitAckSent (hr : (c.carrier l).reader = .commitAck true) :
      Move c (.sent (.reader l)) ((c.setReader l .reading).setSender l (.loop 0))
  | commitAckSentAgain (hr : (c.carrier l).reader = .commitAck false) :
      Move c (.sent (.reader l)) (c.setReader l .reading)
  | commitAckSendErr (hr : (c.carrier l).reader = .commitAck b)
      (hrole : c.role = .responder → c.call = .idle) :
      Move c (.sendErr (.reader l)) ((c.dropCarrier l).setReader l .done)
  | discardAckSent (hr : (c.carrier l).reader = .discardAck) :
      Move c (.sent (.reader l)) ((c.closeLink l).setReader l .done)
  | discardAckSendErr (hr : (c.carrier l).reader = .discardAck) :
      Move c (.sendErr (.reader l)) ((c.closeLink l).setReader l .done)
  -- The writer of a carrier.
  | writerStops (hs : (c.carrier l).sender = .loop offset)
      (hstop : c.active ≠ some l ∨ c.closed ∨ c.terminal) :
      Move c (.writeActive l) (c.setSender l .done)
  | writerData (hs : (c.carrier l).sender = .loop offset)
      (hactive : c.active = some l) (hlt : max offset c.tx.sendBase < c.tx.sendNext)
      (hn : n = min maximumFrame (c.tx.send.length - (max offset c.tx.sendBase - c.tx.sendBase))) :
      Move c (.writeActive l) (c.setSender l (.data (max offset c.tx.sendBase + n)
        (max offset c.tx.sendBase)
        ((c.tx.send.drop (max offset c.tx.sendBase - c.tx.sendBase)).take n)))
  | writerFin (hs : (c.carrier l).sender = .loop offset)
      (hactive : c.active = some l) (hle : c.tx.sendNext ≤ max offset c.tx.sendBase)
      (hfin : c.tx.localFIN) :
      Move c (.writeActive l) (c.setSender l (.fin (max offset c.tx.sendBase) c.tx.sendNext))
  | dataSent (hs : (c.carrier l).sender = .data offset n payload) :
      Move c (.sent (.sender l)) (c.setSender l (.loop offset))
  | finSent (hs : (c.carrier l).sender = .fin offset n) :
      Move c (.sent (.sender l)) (c.setSender l (.finWritten offset))
  | streamSendErr {l : Link} {f : Frame}
      (hs : (∃ offset n payload, (c.carrier l).sender = .data offset n payload ∧
        f = .data n payload) ∨ ∃ offset n, (c.carrier l).sender = .fin offset n ∧ f = .fin n)
      (hrole : c.role = .responder → c.call = .idle) :
      Move c (.sendErr (.sender l)) ((c.dropCarrier l).setSender l .done)
  | finNoted (hs : (c.carrier l).sender = .finWritten offset)
      (hactive : c.active = some l) :
      Move c (.finWritten l) (({ c with
        tx := { c.tx with finSent := (c.carrier l).id } }).setSender l (.loop offset))
  | finStale (hs : (c.carrier l).sender = .finWritten offset)
      (hactive : c.active ≠ some l) : Move c (.finWritten l) (c.setSender l (.loop offset))
  | confirmSent (hs : (c.carrier l).sender = .confirm) :
      Move c (.sent (.sender l)) (c.setSender l .retire)
  | confirmSendErr (hs : (c.carrier l).sender = .confirm) :
      Move c (.sendErr (.sender l)) (c.setSender l (.loop 0))
  | retired (hs : (c.carrier l).sender = .retire) (hactive : c.active = some l) :
      Move c (.retire l)
        (({ c.closeSlot c.retained with retained := none }).setSender l (.loop 0))
  | retireStale (hs : (c.carrier l).sender = .retire) (hactive : c.active ≠ some l) :
      Move c (.retire l) (c.setSender l (.loop 0))
  -- Acknowledgements.
  | acknowledge (hactive : c.active = some l) (hidle : c.acker = .idle) :
      Move c .acknowledge { c with acker := .writing l c.rx.recvBase }
  | ackSent (ha : c.acker = .writing l offset) :
      Move c (.sent .acker) { c with acker := .written l offset }
  | ackSendErr (ha : c.acker = .writing l offset)
      (hrole : c.role = .responder → c.call = .idle) :
      Move c (.sendErr .acker) { c.dropCarrier l with acker := .idle }
  | ackNoted (ha : c.acker = .written l offset)
      (hactive : c.active = some l) :
      Move c .acknowledged { c with
        acker := .idle
        rx := { c.rx with
          ackCarrier := (c.carrier l).id
          ackOffset := max offset c.rx.ackOffset } }
  | ackStale (ha : c.acker = .written l offset)
      (hactive : c.active ≠ some l) : Move c .acknowledged { c with acker := .idle }
  | finAckSent (hf : c.finAcker = some (l, n)) :
      Move c (.sent .finAcker) { c with finAcker := none }
  | finAckSendErr (hf : c.finAcker = some (l, n))
      (hrole : c.role = .responder → c.call = .idle) :
      Move c (.sendErr .finAcker) { c.dropCarrier l with finAcker := none }
  -- Closing.
  | resetSent (hc : c.closing = l :: rest) :
      Move c (.sent .closer) { c.closeLink l with closing := rest }
  | resetSendErr (hc : c.closing = l :: rest) :
      Move c (.sendErr .closer) { c.closeLink l with closing := rest }

/-! ### Every step is one of the moves -/

section Inversion

variable {c d : Conn} {l : Link}

theorem idle_of_unlocked (h : ¬ (!c.unlocked) = true) : c.call = .idle := by
  simpa [unlocked] using h

theorem move_write (h : c.write data = some d) : Move c (.write data) d := by
  unfold write at h
  split at h
  · contradiction
  rename_i hopen
  have hfin : c.tx.localFIN = false := by
    cases hf : c.tx.localFIN with
    | false => rfl
    | true => exact absurd (.inr (.inl hf)) hopen
  dsimp only at h
  split at h
  · cases h
    refine .write hfin ?_
    rw [List.length_take]
    omega
  · contradiction

theorem move_read (h : c.read size = some d) : Move c (.read size) d := by
  unfold read at h
  split at h
  · contradiction
  split at h
  · cases h; exact .read
  rename_i hempty
  split at h
  · rename_i hfin
    cases h; exact .readEOF (not_not.mp hempty) hfin.1 hfin.2
  · contradiction

theorem move_closeWrite (h : c.closeWrite = some d) : Move c .closeWrite d := by
  unfold closeWrite at h
  split at h
  · contradiction
  · rename_i hopen
    cases h
    exact .closeWrite (by simpa using hopen)

theorem move_close (h : c.close = some d) : Move c .close d := by
  unfold close at h
  split at h
  · contradiction
  · dsimp only at h
    split at h <;> cases h
    · exact .closeGraceful
    · exact .closeReset

theorem move_expireDetached (h : c.expireDetached seq = some d) : Move c (.expireDetached seq) d := by
  unfold expireDetached at h
  split at h
  · dsimp only at h
    split at h <;> cases h
    · exact .expireFatal
    · exact .expire
  · contradiction

theorem move_prepareCarrier {id : CarrierID} (h : c.prepareCarrier l id = some d) :
    Move c (.prepareCarrier l id) d := by
  unfold prepareCarrier at h
  split at h
  · contradiction
  rename_i hl
  split at h
  · rename_i hrole
    cases h; exact .prepareMisused (not_not.mp hl) hrole
  rename_i hrole
  split at h
  · contradiction
  rename_i hlock
  split at h
  · cases h; exact .prepareRefused (not_not.mp hl) (idle_of_unlocked hlock)
  · rename_i hok
    simp only [not_or, Bool.not_eq_true, ne_eq, not_not] at hok
    cases h
    exact .prepare (not_not.mp hl) (not_not.mp hrole) (idle_of_unlocked hlock) hok.2.2.1
      ⟨hok.1, hok.2.1⟩ hok.2.2.2.2

variable {p : Packet} {n : ℕ}

theorem move_prepareAnswer {request : Hello}
    (hcall : c.call = .prepareReady l request) : Move c (.recv l p) (c.prepareAnswer l request p) := by
  unfold prepareAnswer
  split
  · exact .answerRefused hcall nofun
  split
  · rename_i hbad
    exact .answerRefused hcall fun _ h => by cases h; exact hbad
  · rename_i hok
    simp only [not_or, not_not, not_lt] at hok
    obtain ⟨-, hkind, -, hid, hepoch, hack, -, -, hfree⟩ := hok
    exact .answered hcall hkind hid hepoch hack hfree

theorem move_acceptCarrier (h : c.acceptCarrier l = some d) : Move c (.acceptCarrier l) d := by
  unfold acceptCarrier at h
  split at h
  · contradiction
  rename_i hl
  split at h
  · rename_i hrole
    cases h; exact .acceptMisused (not_not.mp hl) hrole
  rename_i hrole
  split at h
  · contradiction
  · rename_i hlock
    cases h; exact .accept (not_not.mp hl) (not_not.mp hrole) (idle_of_unlocked hlock)

theorem move_acceptOffer (hcall : c.call = .acceptHello l) : Move c (.recv l p) (c.acceptOffer l p) := by
  unfold acceptOffer
  split
  · exact .offerRefused hcall
  split
  · exact .offerRefused hcall
  · rename_i hok
    simp only [not_or, not_not, Bool.not_eq_true] at hok
    obtain ⟨hwf, hkind, -, hrefuse, hkeep⟩ := hok
    exact .offered hcall hkind hrefuse hkeep (by simpa using hwf)

theorem move_acceptFinish (h : c.acceptFinish = some d) : Move c .acceptFinish d := by
  unfold acceptFinish at h
  split at h
  · rename_i hcall
    split at h
    · rename_i hgone
      cases h; exact .acceptGone hcall hgone
    · rename_i hok
      simp only [not_or, not_not] at hok
      cases h; exact .accepted hcall hok.1 hok.2
  · contradiction

theorem move_promoteCarrier (h : c.promoteCarrier x = some d) : Move c (.promoteCarrier x) d := by
  unfold promoteCarrier at h
  split at h
  · contradiction
  rename_i hok
  simp only [not_or, not_not] at hok
  split at h
  · contradiction
  rename_i hprep
  dsimp only at h
  split at h
  · contradiction
  · rename_i hcar
    simp only [not_or, not_not, not_and_or] at hcar
    cases h
    exact .promote hok.1 (idle_of_unlocked hok.2.2.2) hprep hcar.1 hcar.2.2

theorem move_promoteWake (h : c.promoteWake = some d) : Move c .promoteWake d := by
  unfold promoteWake at h
  split at h
  · rename_i hcall
    dsimp only at h
    split at h
    · contradiction
    · cases h; exact .promoteDone hcall fun _ => (Function.update_of_ne · _ _)
    · split at h
      · rename_i hok
        cases h; exact .promoted hcall hok.1 hok.2.1 fun _ => (Function.update_of_ne · _ _)
      · cases h; exact .promoteDone hcall fun _ => (Function.update_of_ne · _ _)
  · contradiction

theorem move_promoteExpire (h : c.promoteExpire = some d) : Move c .promoteExpire d := by
  unfold promoteExpire at h
  split at h
  · rename_i hcall
    cases h; exact .promoteExpire hcall
  · contradiction

theorem move_dropPrepared (h : c.dropPrepared x = some d) : Move c (.dropPrepared x) d := by
  unfold dropPrepared at h
  split at h
  · contradiction
  rename_i hok
  simp only [not_or] at hok
  split at h
  · contradiction
  rename_i hprep
  dsimp only at h
  split at h
  · contradiction
  · rename_i hcar
    simp only [not_or, not_not] at hcar
    cases h
    exact .drop (idle_of_unlocked hok.2) hprep hcar.1 hcar.2

theorem move_dropWake (h : c.dropWake = some d) : Move c .dropWake d := by
  unfold dropWake at h
  split at h
  · rename_i hcall
    dsimp only at h
    split at h
    · contradiction
    · rename_i ok hv
      cases h
      cases ok with
      | true => exact .dropped hcall hv
      | false => exact .dropFailed hcall hv
  · contradiction

theorem move_dropExpire (h : c.dropExpire = some d) : Move c .dropExpire d := by
  unfold dropExpire at h
  split at h
  · rename_i hcall
    cases h; exact .dropExpire hcall
  · contradiction

theorem failCarrier_map_eq {g : Conn → Conn} (h : (c.failCarrier l).map g = some d) :
    d = g (c.dropCarrier l) ∧ (c.role = .responder → c.call = .idle) := by
  obtain ⟨x, hx, rfl⟩ := Option.map_eq_some_iff.mp h
  unfold failCarrier at hx
  split at hx
  · contradiction
  · rename_i hlock
    cases hx
    exact ⟨rfl, fun hrole => idle_of_unlocked fun hu => hlock ⟨hrole, hu⟩⟩

theorem move_judge (hr : (c.carrier l).reader = .checked f)
    (hf : c.applicationDisposition l = .reject → Fault c l stage) :
    Move c (.dispose l) (c.judge l f (some stage)) := by
  unfold judge
  split
  · exact .judgeAccept hr ‹_›
  · exact .judgeLate hr ‹_›
  · contradiction
  · rename_i hd hs
    cases hs
    exact .disposeFault (hf hd)

theorem move_dispose (h : c.dispose l = some d) : Move c (.dispose l) d := by
  unfold dispose at h
  split at h
  · rename_i hr
    cases h; exact move_judge hr fun hd => .dataCarrier hr hd
  · rename_i hr
    cases h
    unfold judge
    split
    · exact .judgeAccept hr ‹_›
    · exact .judgeLate hr ‹_›
    · exact .ackEarly hr ‹_›
    · contradiction
  · rename_i hr
    cases h; exact move_judge hr fun hd => .finCarrier hr hd
  · rename_i hr
    cases h; exact move_judge hr fun hd => .finAckCarrier hr hd
  · contradiction

theorem move_handleData (hr : (c.carrier l).reader = .accepted (.data n payload)) :
    Move c (.process l) (c.handleData l n payload) := by
  unfold handleData
  split
  · exact .processFault (.dataGap hr ‹_›)
  rename_i hseq
  split
  · exact .dataKnown hr ‹_›
  rename_i hnew
  dsimp only
  split
  · exact .processFault (.dataWindow hr (Nat.le_of_not_lt hseq) (Nat.lt_of_not_le hnew) ‹_›)
  · exact .dataTaken hr (Nat.le_of_not_lt hseq) (Nat.lt_of_not_le hnew)

theorem move_handleAck (hr : (c.carrier l).reader = .accepted (.ack n)) :
    Move c (.process l) (c.handleAck l n) := by
  unfold handleAck
  split
  · exact .processFault (.ackBeyond hr ‹_›)
  · exact .ackTaken hr (Nat.le_of_not_lt ‹_›)

theorem move_handleFin (hr : (c.carrier l).reader = .accepted (.fin n)) :
    Move c (.process l) (c.handleFin l n) := by
  unfold handleFin
  split
  · exact .finKnown hr ‹_›
  rename_i hnew
  split
  · exact .processFault (.finSequence hr hnew ‹_›)
  · rename_i hok
    simp only [not_or, not_lt, Bool.not_eq_true] at hok hnew
    exact .finTaken hr (le_antisymm hok.1 hnew.1) hok.2

theorem move_handleFinAck (hr : (c.carrier l).reader = .accepted (.finAck n)) :
    Move c (.process l) (c.handleFinAck l n) := by
  unfold handleFinAck
  split
  · rename_i hbad
    exact .processFault (.finAckState hr (by simpa using hbad))
  · exact .finAckTaken hr

theorem move_handleReset (hr : (c.carrier l).reader = .checked .reset) :
    Move c (.process l) (c.handleReset l) := by
  unfold handleReset
  split
  · exact .resetFinished hr
  · exact .resetFatal hr

theorem move_handleCommit (hr : (c.carrier l).reader = .checked (.commit n))
    (h : c.handleCommit l n = some d) : Move c (.process l) d := by
  unfold handleCommit at h
  dsimp only at h
  split at h
  · cases h; exact .processFault (.commitShape hr ‹_›)
  rename_i hshape
  simp only [not_or, not_not] at hshape
  split at h
  · contradiction
  rename_i hlock
  split at h
  · cases h; exact .controlLate hr rfl hshape.1 ‹_›
  rename_i hlive
  split at h
  · rename_i hact
    cases h; exact .commitAgain hr hshape.1 hact.1 hact.2
  split at h
  · cases h; exact .processFault (.commitCarrier hr (not_or.mp hlive) ‹_›)
  · rename_i hprep
    simp only [not_or, not_not, not_and_or] at hprep
    cases h
    exact .commit hr hshape.1 (idle_of_unlocked hlock) hshape.2 hprep.1 hprep.2

theorem move_handleCommitAck (hr : (c.carrier l).reader = .checked (.commitAck n)) :
    Move c (.process l) (c.handleCommitAck l n) := by
  unfold handleCommitAck
  dsimp only
  split
  · exact .processFault (.commitAckShape hr ‹_›)
  rename_i hshape
  split
  · exact .processFault (.commitAckCarrier hr ‹_›)
  · rename_i hprep
    simp only [not_or, not_not] at hshape hprep
    exact .commitAck hr hshape.1 hshape.2 hprep.1 hprep.2

theorem move_handleConfirm (hr : (c.carrier l).reader = .checked (.confirm n))
    (h : c.handleConfirm l n = some d) : Move c (.process l) d := by
  unfold handleConfirm at h
  dsimp only at h
  split at h
  · cases h; exact .processFault (.confirmShape hr ‹_›)
  rename_i hshape
  simp only [not_or, not_not] at hshape
  split at h
  · contradiction
  split at h
  · cases h; exact .controlLate hr rfl hshape.1 ‹_›
  · cases h; exact .confirm hr hshape.1

theorem move_handleDiscard (hr : (c.carrier l).reader = .checked (.discard n))
    (h : c.handleDiscard l n = some d) : Move c (.process l) d := by
  unfold handleDiscard at h
  dsimp only at h
  split at h
  · cases h; exact .processFault (.discardShape hr ‹_›)
  rename_i hshape
  simp only [not_or, not_not] at hshape
  split at h
  · contradiction
  rename_i hlock
  split at h
  · cases h; exact .controlLate hr rfl hshape.1 ‹_›
  rename_i hlive
  split at h
  · cases h; exact .processFault (.discardCarrier hr (not_or.mp hlive) ‹_›)
  · rename_i hprep
    simp only [not_or, not_not] at hprep
    cases h
    exact .discard hr hshape.1 (idle_of_unlocked hlock) hprep.1 hprep.2

theorem move_handleDiscardAck (hr : (c.carrier l).reader = .checked (.discardAck n)) :
    Move c (.process l) (c.handleDiscardAck l n) := by
  unfold handleDiscardAck
  dsimp only
  split
  · exact .processFault (.discardAckShape hr ‹_›)
  rename_i hshape
  split
  · exact .processFault (.discardAckCarrier hr ‹_›)
  · rename_i hprep
    simp only [not_or, not_not] at hshape hprep
    exact .discardAck hr hshape.1 hprep.1 hprep.2

theorem move_process (h : c.process l = some d) : Move c (.process l) d := by
  unfold process at h
  split at h <;> rename_i hr
  · cases h; exact move_handleData hr
  · cases h; exact move_handleAck hr
  · cases h; exact move_handleFin hr
  · cases h; exact move_handleFinAck hr
  · cases h; exact move_handleReset hr
  · exact move_handleCommit hr h
  · cases h; exact move_handleCommitAck hr
  · exact move_handleConfirm hr h
  · exact move_handleDiscard hr h
  · cases h; exact move_handleDiscardAck hr
  · contradiction

theorem move_writeActive (h : c.writeActive l = some d) : Move c (.writeActive l) d := by
  unfold writeActive at h
  split at h
  · rename_i hs
    split at h
    · cases h; exact .writerStops hs ‹_›
    rename_i hgo
    simp only [not_or, not_not] at hgo
    dsimp only at h
    split at h
    · cases h; exact .writerData hs hgo.1 ‹_› rfl
    rename_i hlt
    split at h
    · rename_i hfin
      cases h; exact .writerFin hs hgo.1 (Nat.le_of_not_lt hlt) hfin.1
    · contradiction
  · contradiction

theorem move_finWritten (h : c.finWritten l = some d) : Move c (.finWritten l) d := by
  unfold finWritten at h
  split at h
  · rename_i hs
    cases h
    split
    · exact .finNoted hs ‹_›
    · exact .finStale hs ‹_›
  · contradiction

theorem move_retire (h : c.retire l = some d) : Move c (.retire l) d := by
  unfold retire at h
  split at h
  · rename_i hs
    cases h
    split
    · exact .retired hs ‹_›
    · exact .retireStale hs ‹_›
  · contradiction

theorem move_acknowledge (h : c.acknowledge = some d) : Move c .acknowledge d := by
  unfold acknowledge at h
  split at h
  · rename_i hidle hact
    split at h
    · contradiction
    · cases h; exact .acknowledge hact hidle
  · contradiction

theorem move_acknowledged (h : c.acknowledged = some d) : Move c .acknowledged d := by
  unfold acknowledged at h
  split at h
  · rename_i ha
    split at h <;> cases h
    · exact .ackNoted ha ‹_›
    · exact .ackStale ha ‹_›
  · contradiction

theorem move_sent {t : Task} (h : c.sent t = some d) : Move c (.sent t) d := by
  unfold sent at h
  split at h
  · split at h <;> rename_i hcall
    · cases h; exact .prepareSent hcall
    · cases h; exact .readySent hcall
    · cases h; exact .promoteSent hcall
    · cases h; exact .dropSent hcall
    · contradiction
  · split at h <;> rename_i hr
    · cases h
      split
      · rename_i hp
        exact .commitAckSent (by rw [hr, hp])
      · rename_i hp
        exact .commitAckSentAgain (by rw [hr, Bool.eq_false_iff.mpr hp])
    · cases h; exact .discardAckSent hr
    · contradiction
  · split at h <;> rename_i hs
    · cases h; exact .confirmSent hs
    · cases h; exact .dataSent hs
    · cases h; exact .finSent hs
    · contradiction
  · split at h <;> rename_i ha
    · cases h; exact .ackSent ha
    · contradiction
  · obtain ⟨⟨l, n⟩, hf, rfl⟩ := Option.map_eq_some_iff.mp h
    exact .finAckSent hf
  · split at h
    · contradiction
    · cases h; exact .resetSent ‹_›

/-- A responder would wait here for the lock it holds itself. -/
theorem initiator_of_busy (hrole : c.role = .responder → c.call = .idle) (hcall : c.call ≠ .idle) :
    c.role = .initiator := by
  cases hr : c.role with
  | initiator => rfl
  | responder => exact absurd (hrole hr) hcall

theorem move_sendErr {t : Task} (h : c.sendErr t = some d) : Move c (.sendErr t) d := by
  unfold sendErr at h
  split at h
  · split at h <;> rename_i hcall
    · cases h; exact .prepareSendErr hcall
    · cases h; exact .readySendErr hcall
    · obtain ⟨rfl, hrole⟩ := failCarrier_map_eq h
      exact .promoteSendErr hcall (initiator_of_busy hrole (by simp [hcall]))
    · obtain ⟨rfl, hrole⟩ := failCarrier_map_eq h
      exact .dropSendErr hcall (initiator_of_busy hrole (by simp [hcall]))
    · contradiction
  · split at h <;> rename_i hr
    · obtain ⟨rfl, hrole⟩ := failCarrier_map_eq h
      exact .commitAckSendErr hr hrole
    · cases h; exact .discardAckSendErr hr
    · contradiction
  · split at h <;> rename_i hs
    · cases h; exact .confirmSendErr hs
    · obtain ⟨rfl, hrole⟩ := failCarrier_map_eq h
      exact .streamSendErr (.inl ⟨_, _, _, hs, rfl⟩) hrole
    · obtain ⟨rfl, hrole⟩ := failCarrier_map_eq h
      exact .streamSendErr (.inr ⟨_, _, hs, rfl⟩) hrole
    · contradiction
  · split at h <;> rename_i ha
    · obtain ⟨rfl, hrole⟩ := failCarrier_map_eq h
      exact .ackSendErr ha hrole
    · contradiction
  · split at h <;> rename_i hf
    · obtain ⟨rfl, hrole⟩ := failCarrier_map_eq h
      exact .finAckSendErr hf hrole
    · contradiction
  · split at h
    · contradiction
    · cases h; exact .resetSendErr ‹_›

theorem move_recvFrame (hl : (c.carrier l).link = .opened)
    (h : c.recvFrame l p = some d) : Move c (.recv l p) d := by
  unfold recvFrame at h
  split at h
  · rename_i hr
    split at h
    · cases h
      unfold Conn.readFrame
      split
      · exact .readLate hr ‹_›
      · exact .readFrame hl hr (not_or.mp ‹_›)
    · rename_i hwf
      obtain ⟨rfl, hrole⟩ := failCarrier_map_eq h
      exact .readBad hr hrole fun _ h => by cases h; simpa using hwf
  · rename_i hr
    obtain ⟨rfl, hrole⟩ := failCarrier_map_eq h
    exact .readBad hr hrole nofun
  · contradiction

theorem move_recv (h : c.recv l p = some d) : Move c (.recv l p) d := by
  unfold recv at h
  split at h
  · contradiction
  rename_i hl
  have hopen := not_not.mp hl
  split at h
  · rename_i hcall
    split at h
    · rename_i heq
      subst heq
      cases h; exact move_prepareAnswer hcall
    · exact move_recvFrame hopen h
  · rename_i hcall
    split at h
    · rename_i heq
      subst heq
      cases h; exact move_acceptOffer hcall
    · exact move_recvFrame hopen h
  · exact move_recvFrame hopen h

theorem move_readerErr (h : c.readerErr l = some d) : Move c (.recvErr l) d := by
  unfold readerErr at h
  split at h
  · obtain ⟨rfl, hrole⟩ := failCarrier_map_eq h
    exact .readErr ‹_› hrole
  · contradiction

theorem move_recvErr (h : c.recvErr l = some d) : Move c (.recvErr l) d := by
  unfold recvErr at h
  split at h
  · rename_i hcall
    split at h
    · rename_i heq
      subst heq
      cases h; exact .answerErr hcall
    · exact move_readerErr h
  · rename_i hcall
    split at h
    · rename_i heq
      subst heq
      cases h; exact .offerErr hcall
    · exact move_readerErr h
  · exact move_readerErr h

theorem move_of_step (h : c.step i = some d) : Move c i d := by
  cases i with
  | write data => exact move_write h
  | read size => exact move_read h
  | closeWrite => exact move_closeWrite h
  | close => exact move_close h
  | abort => cases h; exact .abort
  | contextDone => cases h; exact .contextDone
  | expireDetached seq => exact move_expireDetached h
  | prepareCarrier l id => exact move_prepareCarrier h
  | acceptCarrier l => exact move_acceptCarrier h
  | acceptFinish => exact move_acceptFinish h
  | promoteCarrier x => exact move_promoteCarrier h
  | promoteWake => exact move_promoteWake h
  | promoteExpire => exact move_promoteExpire h
  | dropPrepared x => exact move_dropPrepared h
  | dropWake => exact move_dropWake h
  | dropExpire => exact move_dropExpire h
  | dispose l => exact move_dispose h
  | process l => exact move_process h
  | writeActive l => exact move_writeActive h
  | finWritten l => exact move_finWritten h
  | retire l => exact move_retire h
  | acknowledge => exact move_acknowledge h
  | acknowledged => exact move_acknowledged h
  | sent t => exact move_sent h
  | sendErr t => exact move_sendErr h
  | recv l p => exact move_recv h
  | recvErr l => exact move_recvErr h

end Inversion

end Conn

end Paperboat.ResumableStream
