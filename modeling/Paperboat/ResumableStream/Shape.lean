import Paperboat.ResumableStream.Moves

/-! Which states the slots, the calls and the goroutines of one end can be in
together. These facts hold for every end whatever its peer sends. -/

namespace Paperboat.ResumableStream

/-- The states of a carrier that was promoted or is out of the running. No step
leads back from here to a carrier that waits to be promoted. -/
def CarrierState.settled : CarrierState → Bool
  | .active | .retained | .superseded | .failed => true
  | _ => false

/-- The link that a carrier call holds while no slot refers to it. -/
def Call.takes : Call → Option Link
  | .prepareHello l _ | .prepareReady l _ | .acceptHello l => some l
  | _ => none

/-- The superseded link that a call closes before it returns. -/
def Call.supersedes : Call → Option Link
  | .acceptReady _ old _ | .acceptDone _ old => old
  | _ => none

/-- The link of a call that works on a carrier. -/
def Call.uses : Call → Option Link
  | .acceptReady l _ _ | .acceptDone l _ | .promoteCommit l | .promoteWait l | .dropDiscard l
  | .dropWait l => some l
  | _ => none

/-- The reader handles a frame that only a promoted carrier brings. -/
def Reader.committed : Reader → Bool
  | .accepted _ | .commitAck _ => true
  | _ => false

def Acker.link : Acker → Option Link
  | .writing l _ | .written l _ => some l
  | .idle => none

namespace Conn

structure Shape (c : Conn) : Prop where
  active_state : ∀ l, c.active = some l → (c.carrier l).state = .active
  prepared_state : ∀ l, c.prepared = some l → (c.carrier l).state = .provisional ∨
    (c.carrier l).state = .prepared ∨ (c.carrier l).state = .committing
  retained_state : ∀ l, c.retained = some l → (c.carrier l).state = .retained
  unused : ∀ l, (c.carrier l).link = .unused → c.carrier l = {}
  takes : ∀ l, c.call.takes = some l → c.carrier l = { link := .opened }
  supersedes : ∀ l, c.call.supersedes = some l → (c.carrier l).state.settled
  uses : ∀ l, c.call.uses = some l → (c.carrier l).state ≠ .unset
  closing : ∀ l ∈ c.closing, (c.carrier l).state ≠ .unset
  reading : ∀ l, (c.carrier l).reader ≠ .idle →
    (c.carrier l).state ≠ .unset ∧ (c.carrier l).state ≠ .provisional
  sending : ∀ l, (c.carrier l).sender ≠ .idle → (c.carrier l).state.settled
  accepted : ∀ l, (c.carrier l).reader.committed → (c.carrier l).state.settled
  acker : ∀ l, c.acker.link = some l → (c.carrier l).state.settled
  finAcker : ∀ l n, c.finAcker = some (l, n) → (c.carrier l).state.settled

namespace Shape

variable {c d : Conn} {l : Link}

theorem initial (role : Role) (window : ℕ) (identity : Digest) : Shape (.new role window identity) := by
  constructor <;>
    simp [Conn.new, Call.takes, Call.supersedes, Call.uses, Acker.link, Reader.committed]

section

variable (h : Shape c)

include h

/-- A link in a slot carries the state of its slot, so no link is in two of them. -/
theorem active_ne_prepared (ha : c.active = some l) : c.prepared ≠ some l := by
  intro hp
  have hs := h.active_state l ha
  rcases h.prepared_state l hp with hp | hp | hp <;> rw [hs] at hp <;> cases hp

theorem active_ne_retained (ha : c.active = some l) : c.retained ≠ some l := by
  intro hr
  have hs := h.active_state l ha
  rw [h.retained_state l hr] at hs
  cases hs

theorem prepared_ne_retained (hp : c.prepared = some l) : c.retained ≠ some l := by
  intro hr
  have hs := h.retained_state l hr
  rcases h.prepared_state l hp with hp | hp | hp <;> rw [hs] at hp <;> cases hp

/-! ### What the helper operations keep -/

/-- Links that were handed over may be closed. -/
theorem closeLink (ht : c.call.takes ≠ some l) : Shape (c.closeLink l) := by
  cases h
  constructor <;>
    simp only [Conn.closeLink, setLink, setCarrier, Function.update_apply] <;> grind

theorem setReader {r : Reader} (hr : (c.carrier l).reader ≠ .idle)
    (ha : r.committed → (c.carrier l).state.settled) : Shape (c.setReader l r) := by
  cases h
  constructor <;>
    simp only [Conn.setReader, setCarrier, Function.update_apply] <;> grind

theorem setSender (s : Sender) (hs : (c.carrier l).state.settled) : Shape (c.setSender l s) := by
  cases h
  constructor <;>
    simp only [Conn.setSender, setCarrier, Function.update_apply] <;>
    grind [CarrierState.settled]

theorem detachAll : Shape c.detachAll := by
  cases h
  rw [detachAll_eq]
  constructor <;> simp only [holds] <;> grind

theorem failTerminal : Shape c.failTerminal :=
  { h.detachAll with }

theorem detachForReset : Shape c.detachForReset := by
  cases h
  constructor <;> simp only [Conn.detachForReset] <;> grind

theorem failFrameProtocol (stage : Stage) (hr : (c.carrier l).reader ≠ .idle) :
    Shape (c.failFrameProtocol l stage) := by
  have hfault : Shape { c with faults := stage :: c.faults } :=
    { h with }
  refine hfault.failTerminal.setReader ?_ nofun
  simp only [Conn.failTerminal, detachAll_eq]
  split <;> exact hr

theorem dropCarrier (l : Link) : Shape (c.dropCarrier l) := by
  unfold Conn.dropCarrier
  split
  · rename_i hheld
    simp only [holds] at hheld
    cases h
    constructor <;>
      simp only [setCarrier, clearSlot, Function.update_apply] <;>
      grind [CarrierState.settled]
  · exact h

theorem commitCarrier (hp : c.prepared = some l) : Shape (c.commitCarrier l) := by
  unfold Conn.commitCarrier Conn.retireActive
  cases h
  split <;> constructor <;>
    simp only [setState, setCarrier, Function.update_apply] <;>
    grind [CarrierState.settled]

/-! ### Moves -/

/-- Back to no call at all. -/
theorem toIdle : Shape { c with call := .idle } := by
  cases h
  constructor <;> simp only [Call.takes, Call.supersedes, Call.uses] <;> grind

end

variable {x : Call}

section

variable (h : Shape c)

include h

theorem setCall (ht : x.takes = none)
    (hs : ∀ l, x.supersedes = some l → (c.carrier l).state.settled)
    (hu : ∀ l, x.uses = some l → (c.carrier l).state ≠ .unset) : Shape { c with call := x } := by
  cases h
  constructor <;> simp only <;> grind

/-- A new link goes into the hands of a call. -/
theorem take (hl : (c.carrier l).link = .unused) (hx : x.takes = some l) (hs : x.supersedes = none)
    (hu : x.uses = none) : Shape { c.setLink l .opened with call := x } := by
  cases h
  constructor <;>
    simp only [setLink, setCarrier, Function.update_apply] <;> grind

theorem setLink (hl : (c.carrier l).link = .unused) (hc : c.call.takes ≠ some l) :
    Shape (c.setLink l e) := by
  cases h
  constructor <;>
    simp only [Conn.setLink, setCarrier, Function.update_apply] <;> grind

/-- The call closes its link and returns. -/
theorem giveUp (l : Link) : Shape { c.closeLink l with call := .idle } := by
  cases h
  constructor <;>
    simp only [Conn.closeLink, Conn.setLink, setCarrier, Function.update_apply, Call.takes,
      Call.supersedes, Call.uses] <;>
    grind

theorem closeSlot (hc : c.call.takes = none) (slot : Option Link) : Shape (c.closeSlot slot) := by
  cases slot with
  | none => exact h
  | some l => exact h.closeLink (by simp [hc])

/-- READY is taken: the link becomes a prepared carrier. -/
theorem answered {request ready : Hello} (hcall : c.call = .prepareReady l request) :
    Shape (({ c.discardAcked ready.ack with
        nextEpoch := request.epoch
        prepared := some l
        detached := c.active = none
        call := .idle }).setCarrier l fun k => { k with
          id := request.carrier, epoch := request.epoch, state := .prepared,
          reader := .reading }) := by
  have htakes := h.takes l (by rw [hcall]; rfl)
  cases h
  constructor <;>
    simp only [discardAcked, setCarrier, Function.update_apply, Call.takes, Call.supersedes,
      Call.uses] <;>
    grind [CarrierState.settled, Reader.committed]

/-- PREPARE is taken: the link becomes a provisional carrier, the prepared one is
superseded. -/
theorem offered {request : Hello} (hcall : c.call = .acceptHello l) :
    Shape (({ (c.supersede c.prepared).discardAcked request.ack with
        nextEpoch := request.epoch
        prepared := some l
        call := .acceptReady l c.prepared (c.readyFor request) }).setCarrier l fun k => { k with
          id := request.carrier, epoch := request.epoch, state := .provisional }) := by
  have htakes := h.takes l (by rw [hcall]; rfl)
  cases h
  cases hp : c.prepared with
  | none =>
    constructor <;>
      simp only [supersede, discardAcked, setCarrier, Function.update_apply, Call.takes,
        Call.supersedes, Call.uses] <;>
      grind [CarrierState.settled, Reader.committed]
  | some old =>
    constructor <;>
      simp only [supersede, setState, discardAcked, setCarrier, Function.update_apply, Call.takes,
        Call.supersedes, Call.uses] <;>
      grind [CarrierState.settled]

theorem acceptFailed (old : Option Link) : Shape (c.acceptFailed l old) := by
  unfold Conn.acceptFailed
  cases h
  split <;> constructor <;>
    simp only [closeSlot_eq, Conn.closeLink, Conn.setLink, setState, setCarrier,
      Function.update_apply, Call.takes, Call.supersedes, Call.uses] <;>
    grind [CarrierState.settled]

theorem accepted_move (hcall : c.call = .acceptDone l old) (hprep : c.prepared = some l) :
    Shape { ((c.setState l .prepared).closeSlot old).setReader l .reading with call := .idle } := by
  cases h
  constructor <;>
    simp only [hcall, closeSlot_eq, Conn.setReader, setState, setCarrier, Function.update_apply,
      Call.takes, Call.supersedes, Call.uses] <;>
    grind [CarrierState.settled, Reader.committed]

/-- The retained carrier is closed as it leaves its slot. -/
theorem releaseRetained : Shape { c.closeSlot c.retained with retained := none } := by
  cases h
  rw [closeSlot_eq]
  constructor <;> simp only <;> grind

/-- A prepared carrier leaves its slot. -/
theorem clearPrepared (w : CarrierID → WaitChan) :
    Shape { c with prepared := none, discardWait := w } := by
  cases h
  constructor <;> simp only <;> grind

omit h in
theorem settled_of_accept (hd : c.applicationDisposition l = .accept) : (c.carrier l).state.settled := by
  unfold applicationDisposition at hd
  dsimp only at hd
  split at hd
  · rename_i hok
    rcases hok with ⟨-, hs⟩ | ⟨-, hs⟩ <;> rw [hs] <;> rfl
  · split at hd <;> cases hd

theorem takes_ne (hr : (c.carrier l).reader ≠ .idle) : c.call.takes ≠ some l := by
  intro ht
  rw [h.takes l ht] at hr
  exact hr rfl

/-- The link is closed and its reader stops. -/
theorem stop (hr : (c.carrier l).reader ≠ .idle) : Shape ((c.closeLink l).setReader l .done) :=
  (h.closeLink (h.takes_ne hr)).setReader (by simpa [Conn.closeLink, Conn.setLink] using hr) nofun

/-- Only the halves of the stream and the writer of the FINAck change. -/
theorem halves (tx : SendHalf) (rx : RecvHalf)
    (hf : ∀ l n, fin = some (l, n) → (c.carrier l).state.settled) :
    Shape { c with tx := tx, rx := rx, finAcker := fin } := by
  cases h
  constructor <;> assumption

theorem setAcker (rx : RecvHalf) {x : Acker}
    (hx : ∀ l, x.link = some l → (c.carrier l).state.settled) :
    Shape { c with rx := rx, acker := x } := by
  cases h
  constructor <;> assumption

/-- A call starts on the prepared carrier. -/
theorem startCall (ht : x.takes = none) (hs : x.supersedes = none) (hu : x.uses = some l)
    (hp : c.prepared = some l) : Shape { c with call := x } := by
  refine h.setCall ht (fun l' hl' => by rw [hs] at hl'; cases hl') fun l' hl' => ?_
  rw [hu] at hl'
  cases hl'
  rcases h.prepared_state l hp with hst | hst | hst <;> rw [hst] <;> exact CarrierState.noConfusion

theorem setCommitting (hp : c.prepared = some l) (hs : (c.carrier l).state ≠ .provisional) :
    Shape (c.setState l .committing) := by
  cases h
  constructor <;>
    simp only [setState, setCarrier, Function.update_apply] <;> grind [CarrierState.settled]

theorem closeNext (hc : c.closing = l :: rest) : Shape { c.closeLink l with closing := rest } := by
  have hunset := h.closing l (by rw [hc]; exact List.mem_cons_self)
  have htakes : c.call.takes ≠ some l := fun ht => by
    rw [h.takes l ht] at hunset
    exact hunset rfl
  have hclosed := h.closeLink htakes
  refine { hclosed with closing := fun l' hl' => hclosed.closing l' ?_ }
  show l' ∈ c.closing
  rw [hc]
  exact List.mem_cons_of_mem _ hl'

omit h in
theorem dropCarrier_settled (c : Conn) (l l' : Link) (hs : (c.carrier l').state.settled) :
    ((c.dropCarrier l).carrier l').state.settled := by
  unfold Conn.dropCarrier
  split
  · by_cases hl : l' = l
    · subst hl; simp [CarrierState.settled]
    · rw [setCarrier_other _ _ hl]; exact hs
  · exact hs

/-- Every step of an end keeps its shape. -/
theorem move (hm : Move c i d) : Shape d := by
  cases hm with
  | write | read | readEOF | closeWrite | expire =>
    exact { h with }
  | closeGraceful => exact { h.detachAll with }
  | closeReset | contextDone => exact { h.detachForReset with }
  | abort => exact h.failTerminal
  | expireFatal =>
    exact failTerminal (c := { c with timers := _ }) ({ h with })
  | prepareMisused hl | acceptMisused hl | prepareRefused hl =>
    exact h.setLink hl fun ht => by rw [h.takes _ ht] at hl; cases hl
  | prepare hl | accept hl => exact h.take hl rfl rfl rfl
  | prepareSent hcall =>
    cases h
    constructor <;> simp only [hcall, Call.takes, Call.supersedes, Call.uses] at * <;> assumption
  | prepareSendErr | answerErr | answerRefused | offerErr | offerRefused => exact h.giveUp _
  | answered hcall => exact h.answered hcall
  | offered hcall => exact h.offered hcall
  | readySent hcall =>
    exact h.setCall rfl (fun l hl => h.supersedes l (by rw [hcall]; exact hl))
      fun l hl => h.uses l (by rw [hcall]; exact hl)
  | readySendErr => exact h.acceptFailed _
  | acceptGone hcall => exact (h.closeSlot (by rw [hcall]; rfl) _).giveUp _
  | accepted hcall hprep => exact h.accepted_move hcall hprep
  | promote hrole hcall hprep hid hstate =>
    have hmid := h.setCommitting hprep (by rcases hstate with hs | hs <;> rw [hs] <;> decide)
    exact { hmid.startCall (x := .promoteCommit _) rfl rfl rfl hprep with }
  | promoteSent hcall | dropSent hcall =>
    exact h.setCall rfl (by rintro _ ⟨⟩) fun l hl => h.uses l (by rw [hcall]; exact hl)
  | promoteSendErr | dropSendErr => exact (h.dropCarrier _).toIdle
  | promoteDone | dropFailed => exact { h.toIdle with }
  | promoted hcall hact hstate =>
    refine setSender (c := { c with commitWait := _, call := .idle }) ?_ _ ?_
    · exact { h.toIdle with }
    · rw [hstate]; rfl
  | promoteExpire | dropExpire => exact h.toIdle
  | drop hcall hprep =>
    exact { (h.startCall (x := .dropDiscard _) rfl rfl rfl hprep) with }
  | dropped hcall =>
    refine closeLink (c := { c with discardWait := _, call := .idle }) ?_ (by rintro ⟨⟩)
    exact { h.toIdle with }
  | readFrame hl hr => exact h.setReader (by rw [hr]; simp) (by rintro ⟨⟩)
  | readLate hr | controlLate hr | discardAckSent hr | discardAckSendErr hr =>
    exact h.stop (by simp [hr])
  | readBad hr | readErr hr | commitAckSendErr hr =>
    exact (h.dropCarrier _).setReader (by rw [carrier_dropCarrier, hr]; simp) (by rintro ⟨⟩)
  | judgeAccept hr hd =>
    exact h.setReader (by simp [hr]) fun _ => Shape.settled_of_accept hd
  | commitAgain hr hrole hact =>
    exact h.setReader (by simp [hr]) fun _ => by rw [h.active_state _ hact]; rfl
  | judgeLate hr | ackEarly hr | dataKnown hr | finKnown hr | resetFinished hr | commitAckSentAgain hr =>
    exact h.setReader (by rw [hr]; simp) (by rintro ⟨⟩)
  | disposeFault hf | processFault hf =>
    obtain ⟨f, hf⟩ := hf.inHand
    exact h.failFrameProtocol _ fun hi => by rw [hi] at hf; cases hf
  | dataTaken hr | ackTaken hr | finAckTaken hr =>
    have hread := h.setReader (r := .reading) (by rw [hr]; simp) (by rintro ⟨⟩)
    exact { hread with }
  | finTaken hr =>
    have hread := h.setReader (r := .reading) (by rw [hr]; simp) (by rintro ⟨⟩)
    refine hread.halves _ _ fun l n hl => ?_
    cases hl
    simpa [Conn.setReader] using h.accepted _ (by rw [hr]; rfl)
  | resetFatal hr =>
    refine h.failTerminal.setReader ?_ (by rintro ⟨⟩)
    simp only [Conn.failTerminal, detachAll_eq]
    split <;> simp [hr]
  | commit hr hrole hcall hepoch hprep =>
    refine (h.commitCarrier hprep).setReader (by simp [carrier_commitCarrier, hr]) fun _ => ?_
    simp [Conn.commitCarrier, setState, CarrierState.settled]
  | commitAck hr hrole hepoch hprep =>
    have hread := (h.commitCarrier hprep).setReader (r := .reading)
      (by rw [carrier_commitCarrier, hr]; simp) (by rintro ⟨⟩)
    exact { hread with }
  | confirm hr =>
    have hread := h.releaseRetained.setReader (l := _) (r := .reading)
      (by rw [carrier_closeSlot, hr]; simp) (by rintro ⟨⟩)
    exact { hread with }
  | discard hr =>
    have hread := h.setReader (r := .discardAck) (by rw [hr]; simp) (by rintro ⟨⟩)
    exact hread.clearPrepared c.discardWait
  | discardAck hr =>
    have hread := h.setReader (r := .reading) (by rw [hr]; simp) (by rintro ⟨⟩)
    exact hread.clearPrepared _
  | commitAckSent hr =>
    have hread := h.setReader (r := .reading) (by rw [hr]; simp) (by rintro ⟨⟩)
    refine hread.setSender _ ?_
    simpa [Conn.setReader] using h.accepted _ (by rw [hr]; rfl)
  | writerStops hs | dataSent hs | finSent hs | finStale hs | confirmSent hs | confirmSendErr hs
  | retireStale hs | writerData hs | writerFin hs =>
    exact h.setSender _ (h.sending _ (by simp [hs]))
  | streamSendErr hs =>
    refine (h.dropCarrier _).setSender _ (dropCarrier_settled _ _ _ (h.sending _ ?_))
    rcases hs with ⟨_, _, _, hs, -⟩ | ⟨_, _, hs, -⟩ <;> simp [hs]
  | finNoted hs =>
    refine setSender (c := { c with tx := _ }) ?_ _ (h.sending _ (by simp [hs]))
    exact { h with }
  | retired hs =>
    refine h.releaseRetained.setSender _ ?_
    have hset := h.sending _ (by rw [hs]; simp)
    rw [closeSlot_eq]
    dsimp only
    split <;> exact hset
  | acknowledge hact =>
    refine h.setAcker c.rx fun l hl => ?_
    cases hl
    rw [h.active_state _ hact]
    rfl
  | ackSent ha => exact h.setAcker c.rx fun l hl => h.acker l (by rw [ha]; exact hl)
  | ackSendErr => exact (h.dropCarrier _).setAcker _ (by rintro _ ⟨⟩)
  | ackNoted => exact h.setAcker _ (by rintro _ ⟨⟩)
  | ackStale => exact h.setAcker c.rx (by rintro _ ⟨⟩)
  | finAckSent => exact h.halves c.tx c.rx (by simp)
  | finAckSendErr => exact (h.dropCarrier _).halves _ _ (by simp)
  | resetSent hc | resetSendErr hc => exact h.closeNext hc

end

end Shape

end Conn

end Paperboat.ResumableStream
