import Paperboat.Lib.Transition
import Paperboat.ResumableStream.Shape

/-! Who closes a link. Every open link of one end is referenced by a slot, is in the
hands of the call that brought it, or was taken out of its slot by a goroutine that
closes it next. The peer is arbitrary here: a step may read any packet. Some steps of
the source drop an open link all the same; `keepsLinks` is the condition that rules
them out. -/

namespace Paperboat.ResumableStream

open Transition

/-- The link whose drop is waiting for an answer. -/
def Call.drops : Call → Option Link
  | .dropWait l => some l
  | _ => none

namespace Conn

variable (c : Conn) (l : Link)

/-- How many of the three slots refer to a link. -/
def slotCount : ℕ := [c.active, c.prepared, c.retained].count (some l)

/-- A goroutine took the link out of its slot and closes it next. -/
def closePending : Prop :=
  l ∈ c.closing ∨ (c.carrier l).reader = .discardAck ∨ c.call.supersedes = some l ∨
    (c.call.drops = some l ∧ (c.discardWait (c.carrier l).id).value = some true)

instance (c : Conn) (l : Link) : Decidable (c.closePending l) :=
  inferInstanceAs (Decidable (_ ∨ _ ∨ _ ∨ _))

/-- The steps that keep track of every link: calls in their own role, a commit only
while no carrier is retained, and an answer to DISCARD only while the call that sent
it waits. -/
def keepsLinks : Input → Bool
  | .prepareCarrier _ _ => c.role = .initiator
  | .acceptCarrier _ => c.role = .responder
  | .process l => match (c.carrier l).reader with
    | .checked (.commit _) | .checked (.commitAck _) => c.prepared ≠ some l ∨ c.retained = none
    | .checked (.discardAck _) => c.prepared ≠ some l ∨
        (c.call = .dropWait l ∧ (c.discardWait (c.carrier l).id).registered)
    | _ => true
  | .dropExpire => match c.call with
    | .dropWait l => (c.discardWait (c.carrier l).id).value ≠ some true
    | _ => true
  | _ => true

/-- A slot, a goroutine or a call answers for the link. -/
def Owned : Prop :=
  c.active = some l ∨ c.prepared = some l ∨ c.retained = some l ∨ c.closePending l ∨
    c.call.takes = some l

structure Owns (c : Conn) : Prop where
  owned : ∀ l, (c.carrier l).link = .opened → c.Owned l
  waits : ∀ id, (c.discardWait id).registered → (c.discardWait id).value = none

namespace Owns

variable {c d : Conn} {l : Link}

theorem initial (role : Role) (window : ℕ) (identity : Digest) : Owns (.new role window identity) := by
  constructor <;> simp [Conn.new]

/-! ### What the helper operations keep -/

/-- Only slots, waiters, the call and the links themselves count. -/
theorem congr (h : Owns c) (ha : d.active = c.active) (hp : d.prepared = c.prepared)
    (hr : d.retained = c.retained) (hcl : d.closing = c.closing) (hcall : d.call = c.call)
    (hw : d.discardWait = c.discardWait)
    (hcar : ∀ l, (d.carrier l).link = (c.carrier l).link ∧
      (d.carrier l).reader = (c.carrier l).reader ∧ (d.carrier l).id = (c.carrier l).id) : Owns d := by
  obtain ⟨h1, h2⟩ := h
  constructor <;> simp only [Owned, closePending, ha, hp, hr, hcl, hcall, hw, hcar] at * <;>
    assumption

section

variable (h : Owns c)

include h

theorem setSender (l : Link) (s : Sender) : Owns (c.setSender l s) := by
  refine h.congr rfl rfl rfl rfl rfl rfl fun l' => ?_
  by_cases hl : l' = l
  · subst hl; simp [Conn.setSender]
  · simp [Conn.setSender, setCarrier_other _ _ hl]

theorem setState (l : Link) (s : CarrierState) : Owns (c.setState l s) := by
  refine h.congr rfl rfl rfl rfl rfl rfl fun l' => ?_
  by_cases hl : l' = l
  · subst hl; simp [Conn.setState]
  · simp [Conn.setState, setCarrier_other _ _ hl]

/-- Closing one more link never hurts. -/
theorem closeLink (l : Link) : Owns (c.closeLink l) := by
  refine ⟨fun l' hl' => ?_, h.waits⟩
  have howned := h.owned l'
  simp only [Conn.closeLink, setLink, setCarrier, Owned, closePending,
    Function.update_apply] at *
  grind

/-- A reader may move on, unless the close of its link is all it still had to do. -/
theorem setReader (hr : (c.carrier l).reader = .discardAck → (c.carrier l).link = .closed) :
    Owns (c.setReader l r) := by
  refine ⟨fun l' hl' => ?_, h.waits⟩
  have howned := h.owned l'
  simp only [Conn.setReader, setCarrier, Owned, closePending, Function.update_apply] at *
  grind

theorem detachAll : Owns c.detachAll := by
  rw [detachAll_eq]
  refine ⟨fun l' hl' => ?_, h.waits⟩
  have howned := h.owned l'
  simp only [Owned, closePending, holds] at *
  grind

theorem detachForReset : Owns c.detachForReset := by
  refine ⟨fun l' hl' => ?_, h.waits⟩
  have howned := h.owned l' hl'
  simp only [Conn.detachForReset, Owned, closePending] at *
  grind

theorem failTerminal : Owns c.failTerminal :=
  { h.detachAll with }

theorem failFrameProtocol (stage : Stage) (hr : (c.carrier l).reader ≠ .discardAck) :
    Owns (c.failFrameProtocol l stage) := by
  have hfault : Owns { c with faults := stage :: c.faults } := { h with }
  refine hfault.failTerminal.setReader fun hd => absurd ?_ hr
  simp only [Conn.failTerminal, detachAll_eq] at hd
  split at hd <;> exact hd

omit h in
/-- Signalling a waiter adds no result to a channel that has one. -/
theorem waits_signalWait {w : CarrierID → WaitChan} (id : CarrierID) (value : Bool)
    (h : ∀ id, (w id).registered → (w id).value = none) (id' : CarrierID) :
    ((signalWait w id value) id').registered → ((signalWait w id value) id').value = none := by
  unfold signalWait
  split
  · by_cases hid : id' = id
    · subst hid; simp
    · rw [Function.update_of_ne hid]; exact h id'
  · exact h id'

omit h in
/-- A signal leaves a result that was delivered before it. -/
theorem signalWait_keeps {w : CarrierID → WaitChan} (id id' : CarrierID) (value : Bool)
    (h : ∀ id, (w id).registered → (w id).value = none) (hv : (w id').value = some true) :
    ((signalWait w id value) id').value = some true := by
  unfold signalWait
  split
  · rename_i hreg
    by_cases hid : id' = id
    · subst hid
      rw [h id' hreg] at hv
      contradiction
    · rw [Function.update_of_ne hid]; exact hv
  · exact hv

theorem dropCarrier (l : Link) : Owns (c.dropCarrier l) := by
  unfold Conn.dropCarrier
  split
  · refine ⟨fun l' hl' => ?_, waits_signalWait _ _ h.waits⟩
    have howned := h.owned l'
    have hkeeps := signalWait_keeps (c.carrier l).id (c.carrier l').id false h.waits
    simp only [setCarrier, Owned, closePending, clearSlot, Function.update_apply] at *
    grind
  · exact h

/-- A commit with an empty retained slot only moves links between slots. -/
theorem commitCarrier (hp : c.prepared = some l) (hr : c.retained = none) : Owns (c.commitCarrier l) := by
  unfold Conn.commitCarrier Conn.retireActive
  refine ⟨fun l' hl' => ?_, by split <;> exact h.waits⟩
  have howned := h.owned l'
  split at * <;> simp only [Conn.setState, setCarrier, Owned, closePending,
    Function.update_apply] at * <;> grind

/-- The retained link is closed as it leaves its slot. -/
theorem releaseRetained : Owns { c.closeSlot c.retained with retained := none } := by
  rw [closeSlot_eq]
  refine ⟨fun l' hl' => ?_, h.waits⟩
  have howned := h.owned l'
  simp only [Owned, closePending] at *
  grind

end

theorem dropCarrier_call (c : Conn) (l : Link) : (c.dropCarrier l).call = c.call := by
  unfold Conn.dropCarrier
  split <;> rfl

/-! ### Calls -/

/-- A call that answers for no link. -/
def Neutral (x : Call) : Prop := x.takes = none ∧ x.supersedes = none ∧ x.drops = none

section

variable (h : Owns c)

include h

/-- A call without a link may be followed by any other. -/
theorem setCall (hn : Neutral c.call) : Owns { c with call := x } := by
  refine ⟨fun l' hl' => ?_, h.waits⟩
  have howned := h.owned l' hl'
  obtain ⟨n1, n2, n3⟩ := hn
  simp only [Owned, closePending] at *
  grind

/-- A call takes a link that was never used. -/
theorem take {x : Call} (hn : Neutral c.call) (hx : x.takes = some l) :
    Owns { c.setLink l .opened with call := x } := by
  refine ⟨fun l' hl' => ?_, h.waits⟩
  have howned := h.owned l'
  obtain ⟨n1, n2, n3⟩ := hn
  simp only [setLink, setCarrier, Owned, closePending, Function.update_apply] at *
  grind

/-- A call closes the link it took and the one it superseded, and returns. -/
theorem giveUp (old : Option Link) (ht : c.call.takes = some l ∨ c.call.takes = none)
    (hs : c.call.supersedes = old) (hdrop : c.call.drops = none) :
    Owns { (c.closeSlot old).closeLink l with call := .idle } := by
  refine ⟨fun l' hl' => ?_, ?_⟩
  · have howned := h.owned l'
    simp only [closeSlot_eq, Conn.closeLink, setLink, setCarrier, Owned, closePending,
      Function.update_apply, Call.takes, Call.supersedes, Call.drops] at *
    grind
  · rw [closeSlot_eq]
    exact h.waits

/-- READY is taken: the link goes from the call into the prepared slot. -/
theorem answered {request ready : Hello} (hcall : c.call = .prepareReady l request)
    (hfree : c.prepared = none) :
    Owns (({ c.discardAcked ready.ack with
        nextEpoch := request.epoch
        prepared := some l
        detached := c.active = none
        call := .idle }).setCarrier l fun k => { k with
          id := request.carrier, epoch := request.epoch, state := .prepared,
          reader := .reading }) := by
  refine ⟨fun l' hl' => ?_, h.waits⟩
  have howned := h.owned l'
  simp only [hcall, discardAcked, setCarrier, Owned, closePending, Function.update_apply, Call.takes,
    Call.supersedes, Call.drops] at *
  grind

/-- PREPARE is taken: the superseded carrier leaves its slot and stays with the call. -/
theorem offered {request : Hello} (hcall : c.call = .acceptHello l) :
    Owns (({ (c.supersede c.prepared).discardAcked request.ack with
        nextEpoch := request.epoch
        prepared := some l
        call := .acceptReady l c.prepared (c.readyFor request) }).setCarrier l fun k => { k with
          id := request.carrier, epoch := request.epoch, state := .provisional }) := by
  have hw : ∀ slot, (c.supersede slot).discardWait = c.discardWait := fun slot => by
    cases slot <;> rfl
  refine ⟨fun l' hl' => ?_, by
    show ∀ id, ((c.supersede c.prepared).discardWait id).registered →
      ((c.supersede c.prepared).discardWait id).value = none
    rw [hw]
    exact h.waits⟩
  have howned := h.owned l'
  cases hp : c.prepared <;>
    simp only [hcall, hp, supersede, Conn.setState, discardAcked, setCarrier, Owned, closePending,
      Function.update_apply, Call.takes, Call.supersedes, Call.drops] at * <;>
    grind

theorem acceptFailed (hcall : c.call = .acceptReady l old ready) : Owns (c.acceptFailed l old) := by
  unfold Conn.acceptFailed
  dsimp only
  split
  · refine ⟨fun l' hl' => ?_, by rw [closeSlot_eq]; exact h.waits⟩
    have howned := h.owned l'
    simp only [hcall, closeSlot_eq, Conn.closeLink, setLink, Conn.setState, setCarrier, Owned,
      closePending, Function.update_apply, Call.takes, Call.supersedes, Call.drops] at *
    grind
  · exact h.giveUp _ (.inr (by rw [hcall]; rfl)) (by rw [hcall]; rfl) (by rw [hcall]; rfl)

theorem accepted (hcall : c.call = .acceptDone l old) (hprep : c.prepared = some l) :
    Owns { ((c.setState l .prepared).closeSlot old).setReader l .reading with call := .idle } := by
  refine ⟨fun l' hl' => ?_, by rw [closeSlot_eq]; exact h.waits⟩
  have howned := h.owned l'
  simp only [hcall, closeSlot_eq, Conn.setReader, Conn.setState, setCarrier, Owned, closePending,
    Function.update_apply, Call.takes, Call.supersedes, Call.drops] at *
  grind

/-- A drop that returns has closed its link, or found that it was not asked to. -/
theorem dropReturns (hcall : c.call = .dropWait l)
    (hv : (c.discardWait (c.carrier l).id).value = some ok) :
    Owns (if ok then ({ c with
        discardWait := Function.update c.discardWait (c.carrier l).id
          { c.discardWait (c.carrier l).id with value := none }
        call := .idle }).closeLink l
      else { c with
        discardWait := Function.update c.discardWait (c.carrier l).id
          { c.discardWait (c.carrier l).id with value := none }
        call := .idle }) := by
  have hwaits : ∀ id, ((Function.update c.discardWait (c.carrier l).id
      { c.discardWait (c.carrier l).id with value := none }) id).registered →
      ((Function.update c.discardWait (c.carrier l).id
      { c.discardWait (c.carrier l).id with value := none }) id).value = none := fun id => by
    have := h.waits id
    simp only [Function.update_apply]
    split <;> simp_all
  cases ok
  · refine ⟨fun l' hl' => ?_, hwaits⟩
    have howned := h.owned l'
    simp only [hcall, Owned, closePending, Call.takes, Call.supersedes, Call.drops] at *
    grind
  · refine ⟨fun l' hl' => ?_, hwaits⟩
    have howned := h.owned l'
    simp only [hcall, Conn.closeLink, setLink, setCarrier, Owned, closePending,
      Function.update_apply, Call.takes, Call.supersedes, Call.drops] at *
    grind

theorem drop {x : CarrierHandle} (hcall : c.call = .idle) : Owns { c with
      discardWait := Function.update c.discardWait x.id ⟨true, none⟩
      call := .dropDiscard l } := by
  refine ⟨fun l' hl' => ?_, fun id => ?_⟩
  · have howned := h.owned l' hl'
    simp only [hcall, Owned, closePending, Call.takes, Call.supersedes, Call.drops] at *
    grind
  · have := h.waits id
    simp only [Function.update_apply]
    split <;> simp_all

/-! ### Frames -/

/-- The link is closed and its reader stops. -/
theorem stop (l : Link) : Owns ((c.closeLink l).setReader l .done) :=
  (h.closeLink l).setReader fun _ => by simp [Conn.closeLink, setLink]

/-- DISCARD is taken: the reader answers and closes the link. -/
theorem discard (hp : c.prepared = some l) :
    Owns { c.setReader l .discardAck with prepared := none } := by
  refine ⟨fun l' hl' => ?_, h.waits⟩
  have howned := h.owned l'
  simp only [Conn.setReader, setCarrier, Owned, closePending, Function.update_apply] at *
  grind

/-- DISCARD_ACK is taken while the call that asked for it waits. -/
theorem discardAck (hne : (c.carrier l).reader ≠ .discardAck) (hp : c.prepared = some l)
    (hcall : c.call = .dropWait l) (hreg : (c.discardWait (c.carrier l).id).registered) :
    Owns { c.setReader l .reading with
      prepared := none
      discardWait := signalWait c.discardWait (c.carrier l).id true } := by
  refine ⟨fun l' hl' => ?_, waits_signalWait _ _ h.waits⟩
  have howned := h.owned l'
  have hdone : (signalWait c.discardWait (c.carrier l).id true (c.carrier l).id).value =
      some true := by
    simp [signalWait, hreg, h.waits _ hreg]
  simp only [hcall, Conn.setReader, setCarrier, Owned, closePending, Function.update_apply,
    Call.drops] at *
  grind

/-- The closer closes the first of its links. -/
theorem closeNext (hc : c.closing = l :: rest) : Owns { c.closeLink l with closing := rest } := by
  refine ⟨fun l' hl' => ?_, h.waits⟩
  have howned := h.owned l'
  simp only [Conn.closeLink, setLink, setCarrier, Owned, closePending, Function.update_apply,
    hc] at *
  grind

/-- Every step that keeps track of its links keeps the invariant. -/
theorem move {i : Input} (hok : c.keepsLinks i) (hm : Move c i d) : Owns d := by
  have hidle : c.call = .idle → Neutral c.call := fun hcall => by
    rw [hcall]; exact ⟨rfl, rfl, rfl⟩
  cases hm with
  | write | read | readEOF | closeWrite | expire => exact { h with }
  | closeGraceful => exact { h.detachAll with }
  | closeReset | contextDone => exact { h.detachForReset with }
  | abort => exact h.failTerminal
  | expireFatal =>
    exact failTerminal (c := { c with timers := _ }) ({ h with })
  | prepareMisused hl hrole | acceptMisused hl hrole =>
    exact absurd (of_decide_eq_true hok) hrole
  | prepareRefused => exact h.closeLink _
  | prepare hl hrole hcall | accept hl hrole hcall => exact h.take (hidle hcall) rfl
  | prepareSent hcall =>
    refine ⟨fun l' hl' => ?_, h.waits⟩
    simpa only [hcall, Owned, closePending, Call.takes, Call.supersedes, Call.drops] using
      h.owned l' hl'
  | prepareSendErr hcall | answerErr hcall | answerRefused hcall | offerErr hcall
  | offerRefused hcall =>
    exact h.giveUp none (.inl (by rw [hcall]; rfl)) (by rw [hcall]; rfl)
      (by rw [hcall]; rfl)
  | answered hcall _ _ _ _ hfree => exact h.answered hcall hfree
  | offered hcall => exact h.offered hcall
  | readySent hcall =>
    refine ⟨fun l' hl' => ?_, h.waits⟩
    simpa only [hcall, Owned, closePending, Call.takes, Call.supersedes, Call.drops] using
      h.owned l' hl'
  | readySendErr hcall => exact h.acceptFailed hcall
  | acceptGone hcall =>
    exact h.giveUp _ (.inr (by rw [hcall]; rfl)) (by rw [hcall]; rfl) (by rw [hcall]; rfl)
  | accepted hcall hprep => exact h.accepted hcall hprep
  | promote hrole hcall =>
    exact { (h.setState _ .committing).setCall (x := .promoteCommit _) (hidle hcall) with }
  | promoteSent hcall | promoteExpire hcall =>
    exact h.setCall (by rw [hcall]; exact ⟨rfl, rfl, rfl⟩)
  | dropSent hcall => exact h.setCall (by rw [hcall]; exact ⟨rfl, rfl, rfl⟩)
  | promoteSendErr hcall | dropSendErr hcall =>
    refine (h.dropCarrier _).setCall ?_
    rw [dropCarrier_call, hcall]
    exact ⟨rfl, rfl, rfl⟩
  | promoteDone hcall =>
    have hcall' := h.setCall (x := .idle) (by rw [hcall]; exact ⟨rfl, rfl, rfl⟩)
    exact { hcall' with }
  | promoted hcall =>
    have hcall' := h.setCall (x := .idle) (by rw [hcall]; exact ⟨rfl, rfl, rfl⟩)
    refine setSender (c := { c with commitWait := _, call := .idle }) ?_ ..
    exact { hcall' with }
  | drop hcall hprep hid => exact hid ▸ h.drop hcall
  | dropped hcall hv => exact h.dropReturns hcall hv
  | dropFailed hcall hv => exact h.dropReturns hcall hv
  | @dropExpire l hcall =>
    have hv : (c.discardWait (c.carrier l).id).value ≠ some true := by
      simpa [keepsLinks, hcall] using hok
    refine ⟨fun l' hl' => ?_, h.waits⟩
    have howned := h.owned l' hl'
    simp only [hcall, Owned, closePending, Call.takes, Call.supersedes, Call.drops] at *
    grind
  | readFrame hl hr | judgeAccept hr | judgeLate hr | ackEarly hr | dataKnown hr | finKnown hr
  | resetFinished hr | commitAgain hr | commitAckSentAgain hr =>
    exact h.setReader fun hd => by rw [hr] at hd; cases hd
  | readLate | controlLate | discardAckSent | discardAckSendErr => exact h.stop _
  | readBad hr | readErr hr | commitAckSendErr hr =>
    refine (h.dropCarrier _).setReader fun hd => ?_
    rw [carrier_dropCarrier, hr] at hd
    cases hd
  | disposeFault hf | processFault hf =>
    obtain ⟨f, hf⟩ := hf.inHand
    exact h.failFrameProtocol _ fun hd => by rw [hd] at hf; cases hf
  | dataTaken hr | finAckTaken hr | ackTaken hr | finTaken hr =>
    have hread := h.setReader (r := .reading) fun hd => by rw [hr] at hd; cases hd
    exact { hread with }
  | resetFatal hr =>
    refine h.failTerminal.setReader fun hd => ?_
    simp only [Conn.failTerminal, detachAll_eq] at hd
    split at hd <;> simp_all
  | commit hr hrole hcall hepoch hprep =>
    have hret : c.retained = none := by simpa [keepsLinks, hr, hprep] using hok
    refine (h.commitCarrier hprep hret).setReader fun hd => ?_
    rw [carrier_commitCarrier, hr] at hd
    cases hd
  | commitAck hr hrole hepoch hprep =>
    have hret : c.retained = none := by simpa [keepsLinks, hr, hprep] using hok
    have hread := (h.commitCarrier hprep hret).setReader (r := .reading) fun hd => by
      rw [carrier_commitCarrier, hr] at hd
      cases hd
    exact { hread with }
  | confirm hr =>
    have hread := h.releaseRetained.setReader (r := .reading) fun hd => by
      rw [carrier_closeSlot, hr] at hd
      cases hd
    exact { hread with }
  | discard hr hrole hcall hprep => exact h.discard hprep
  | @discardAck l _ hr hrole hprep =>
    have hwait : c.call = .dropWait l ∧ (c.discardWait (c.carrier l).id).registered := by
      simpa [keepsLinks, hr, hprep] using hok
    exact h.discardAck (by simp [hr]) hprep hwait.1 hwait.2
  | commitAckSent hr =>
    have hread := h.setReader (r := .reading) fun hd => by rw [hr] at hd; cases hd
    exact hread.setSender ..
  | writerStops | writerData | writerFin | dataSent | finSent | finStale | confirmSent
  | confirmSendErr | retireStale => exact h.setSender ..
  | streamSendErr => exact (h.dropCarrier _).setSender ..
  | finNoted =>
    refine setSender (c := { c with tx := _ }) ?_ ..
    exact { h with }
  | retired => exact h.releaseRetained.setSender ..
  | acknowledge | ackSent | ackNoted | ackStale | finAckSent =>
    exact { h with }
  | ackSendErr | finAckSendErr => exact { (h.dropCarrier _) with }
  | resetSent hc | resetSendErr hc => exact h.closeNext hc

end

end Owns

/-- A link in a slot is in exactly one slot. -/
theorem Shape.slotCount_eq_one {c : Conn} {l : Link} (h : Shape c)
    (hl : c.active = some l ∨ c.prepared = some l ∨ c.retained = some l) : c.slotCount l = 1 := by
  unfold slotCount
  rcases hl with ha | hp | hr
  · simp [ha, h.active_ne_prepared ha, h.active_ne_retained ha]
  · have ha : c.active ≠ some l := fun ha => h.active_ne_prepared ha hp
    simp [ha, hp, h.prepared_ne_retained hp]
  · have ha : c.active ≠ some l := fun ha => h.active_ne_retained ha hr
    have hp : c.prepared ≠ some l := fun hp => h.prepared_ne_retained hp hr
    simp [ha, hp, hr]

/-- In every run whose steps keep track of their links, an open link is referenced by
exactly one slot, or is about to be closed, or is held by the call that brought it. -/
theorem links_owned (role : Role) (window : ℕ) (identity : Digest) {c : Conn}
    (h : Reach Conn.step (fun c i => c.keepsLinks i) (.new role window identity) c) (l : Link)
    (hl : (c.carrier l).link = .opened) :
    c.slotCount l = 1 ∨ c.closePending l ∨ c.call.takes = some l := by
  have hshape : Shape c := h.invariant (Shape.initial role window identity)
    fun inv _ hst => inv.move (move_of_step hst)
  have hown : Owns c := h.invariant (Owns.initial role window identity)
    fun inv hok hst => inv.move hok (move_of_step hst)
  rcases hown.owned l hl with ha | hp | hr | hpending | htakes
  · exact .inl (hshape.slotCount_eq_one (.inl ha))
  · exact .inl (hshape.slotCount_eq_one (.inr (.inl hp)))
  · exact .inl (hshape.slotCount_eq_one (.inr (.inr hr)))
  · exact .inr (.inl hpending)
  · exact .inr (.inr htakes)

/-! ### Successive promotions at a responder -/

/-- The initiator's PREPARE for the epoch after `epoch`. -/
def offer (epoch : ℕ) : Packet :=
  .hello { kind := .prepare, digest := 7, carrier := l, epoch := epoch + 1,
           committedEpoch := epoch, ack := 0, fin := false, finOffset := 0 }

/-- Accept a carrier on a link and commit it. -/
def promoted (epoch : ℕ) : List Input :=
  [.acceptCarrier l, .recv l (offer l epoch), .sent .call, .acceptFinish,
    .recv l (.frame (.commit (epoch + 1))), .process l, .sent (.reader l)]

def confirmed (epoch : ℕ) : List Input :=
  [.recv l (.frame (.confirm (epoch + 1))), .process l]

theorem confirmed_enabled :
    (runChecked Conn.step (fun c i => c.keepsLinks i) (.new .responder maximumFrame 7)
      (promoted 1 0 ++ promoted 2 1 ++ confirmed 2 1 ++ promoted 3 2)).isSome := by
  decide +kernel

/-- The state of a responder that saw CONFIRM for link 2 before link 3 was committed. -/
def confirmedEnd : Conn :=
  finalChecked Conn.step (fun c i => c.keepsLinks i) (.new .responder maximumFrame 7)
    (promoted 1 0 ++ promoted 2 1 ++ confirmed 2 1 ++ promoted 3 2) confirmed_enabled

theorem links_owned_confirmed :
    (confirmedEnd.carrier 2).link = .opened ∧ confirmedEnd.retained = some 2 ∧
      (confirmedEnd.slotCount 2 = 1 ∨ confirmedEnd.closePending 2 ∨
        confirmedEnd.call.takes = some 2) := by
  have hreach : Reach Conn.step (fun c i => c.keepsLinks i) (.new .responder maximumFrame 7)
      confirmedEnd := reach_finalChecked _ confirmed_enabled
  have hopen : (confirmedEnd.carrier 2).link = .opened := by decide +kernel
  refine ⟨hopen, by decide +kernel, ?_⟩
  exact links_owned .responder maximumFrame 7 hreach 2 hopen

theorem overlap_enabled : (run Conn.step (.new .responder maximumFrame 7)
      (promoted 1 0 ++ promoted 2 1 ++ promoted 3 2)).isSome := by decide +kernel

/-- The state of a responder that commits link 3 while link 1 is still retained. -/
def overlapEnd : Conn :=
  final Conn.step (.new .responder maximumFrame 7) (promoted 1 0 ++ promoted 2 1 ++ promoted 3 2)
    overlap_enabled

/-- Link 1 is open, and nothing refers to it or is going to close it. -/
theorem overlapping_commit_leaks :
    Reach Conn.step Always (.new .responder maximumFrame 7) overlapEnd ∧
      (overlapEnd.carrier 1).link = .opened ∧ overlapEnd.slotCount 1 = 0 ∧
      ¬ overlapEnd.closePending 1 ∧ overlapEnd.call.takes = none :=
  ⟨reach_final _ overlap_enabled, by decide +kernel, by decide +kernel, by decide +kernel,
    by decide +kernel⟩

end Conn

end Paperboat.ResumableStream
