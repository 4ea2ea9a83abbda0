import Paperboat.ResumableStream.Delivery
import Paperboat.ResumableStream.Turns

/-! The half-close. The end that closed its writing half waits for a FINAck. The FIN is
sent again on every new carrier, but the FINAck is sent once, on the carrier that
brought the first FIN: whoever loses it leaves the other end waiting for ever. As long
as no step loses a FINAck, a FIN that was taken is acknowledged once everything has
come to rest. -/

namespace Paperboat.ResumableStream

open Transition

namespace System

def isFinAck : Packet → Bool
  | .frame (.finAck _) => true
  | _ => false

/-- The steps that lose no FINAck. It is written to a link that still delivers, it is
not part of a lost tail, the reader that gets it keeps it, and the carrier that brought
it is the active or the retained one. -/
def keepsFinAck (s : System) : Action → Bool
  | .send r .finAcker => (s.conn r).finAcker.all fun (l, _) => !(s.chan l r).broken
  | .sendErr _ .finAcker => false
  | .lose r l n => ((s.chan l r).queue.drop n).all fun p => !isFinAck p
  | .recv r l => match (s.chan l r.peer).queue with
    | .frame (.finAck n) :: _ => ((s.conn r).recv l (.frame (.finAck n))).all fun c =>
        (c.carrier l).reader = .checked (.finAck n)
    | _ => true
  | .act r (.dispose l) => match ((s.conn r).carrier l).reader with
    | .checked (.finAck _) => (s.conn r).applicationDisposition l = .accept
    | _ => true
  | _ => true

/-- A FINAck for the FIN of `r` is about to be written, in flight or in hand. -/
def finAckUnderWay (s : System) (r : Role) : Prop :=
  (s.conn r.peer).finAcker ≠ none ∨ (∃ l n, .frame (.finAck n) ∈ (s.chan l r.peer).queue) ∨
    ∃ l n, ((s.conn r).carrier l).reader.inHand = some (.finAck n)

/-- Nothing is in flight from `r` on the link, and neither its reader nor its writer at
`r` has a step left to take. -/
def linkAtRest (s : System) (l : Link) (r : Role) : Prop :=
  (s.chan l r).queue = [] ∧ ((s.conn r).carrier l).reader.inHand = none ∧
    (s.conn r).writeActive l = none ∧ (s.conn r).pending (.sender l) = none ∧
    (s.conn r).finWritten l = none

instance (s : System) (l : Link) (r : Role) : Decidable (linkAtRest s l r) := by
  unfold linkAtRest
  infer_instance

/-- Nothing is in flight and no goroutine has anything left to write. -/
structure AtRest (s : System) : Prop where
  links : ∀ l r, linkAtRest s l r
  ackers : ∀ r, (s.conn r).acknowledge = none ∧ (s.conn r).pending .acker = none ∧
    (s.conn r).acknowledged = none
  finAckers : ∀ r, (s.conn r).finAcker = none

/-- `r` closed its writing half and its peer has taken all of it, over a carrier that
both ends have active. -/
structure Closed (s : System) (r : Role) : Prop where
  localFIN : (s.conn r).tx.localFIN
  remoteFIN : (s.conn r.peer).rx.remoteFIN
  consumed : (s.conn r.peer).rx.returned = (s.conn r).tx.written
  active : ∃ l, (s.conn r).active = some l ∧ (s.conn r.peer).active = some l

end System

namespace Conn

variable {c d : Conn} {i : Input} {l : Link} {n : ℕ}

/-- A FINAck in hand is a fault only where its carrier may not bring one. -/
theorem Fault.of_finAck {stage : Stage} (hf : Fault c l stage)
    (hr : (c.carrier l).reader.inHand = some (.finAck n))
    (hok : c.tx.localFIN ∧ n = c.tx.sendNext) :
    (c.carrier l).reader = .checked (.finAck n) ∧ c.applicationDisposition l = .reject := by
  cases hf with
  | finAckCarrier hr' hd =>
    rw [hr'] at hr
    cases hr
    exact ⟨hr', hd⟩
  | finAckState hr' hbad =>
    rw [hr'] at hr
    cases hr
    rcases hbad with hbad | hbad
    · rw [hok.1] at hbad; cases hbad
    · exact absurd hok.2 hbad
  | dataCarrier hr' | dataGap hr' | dataWindow hr' | ackBeyond hr' | finCarrier hr'
  | finSequence hr' | commitShape hr' | commitCarrier hr' | commitAckShape hr'
  | commitAckCarrier hr' | confirmShape hr' | discardShape hr' | discardCarrier hr'
  | discardAckShape hr' | discardAckCarrier hr' =>
    rw [hr'] at hr
    cases hr

/-- A FINAck in hand stays there until it is taken. -/
theorem Move.keeps_inHand (hs : Shape c) (hm : Move c i d)
    (hr : (c.carrier l).reader.inHand = some (.finAck n))
    (hok : c.tx.localFIN ∧ n = c.tx.sendNext)
    (hi : i = .dispose l ∨ i = .process l → (c.carrier l).reader = .checked (.finAck n) →
      c.applicationDisposition l = .accept) :
    (d.carrier l).reader.inHand = some (.finAck n) ∨ d.tx.finAcked := by
  rcases hm.reader_eq hs l with heq | hread | ⟨hidle, -⟩
  · left; rwa [heq]
  · cases hm with
    | judgeAccept hr' =>
      cases hread
      rw [hr'] at hr
      left; simpa [Reader.inHand] using hr
    | judgeLate hr' hd =>
      cases hread
      rw [hr'] at hr
      cases hr
      rw [hi (.inl rfl) hr'] at hd
      cases hd
    | disposeFault hf | processFault hf =>
      cases hread
      obtain ⟨hr', hd⟩ := hf.of_finAck hr hok
      rw [hi (by simp) hr'] at hd
      cases hd
    | finAckTaken => right; rfl
    | answered hcall | offered hcall =>
      cases hread
      rw [hs.takes l (by rw [hcall]; rfl)] at hr
      cases hr
    | controlLate hr' hf =>
      cases hread
      rw [hr'] at hr
      cases hr
      cases hf
    | _ => cases hread <;> simp_all [Reader.inHand]
  · rw [hidle] at hr
    cases hr

/-! ### The FINAck that an end owes -/

/-- Who owes a FINAck owes it until it is written, and a FIN is only taken together
with that debt. -/
theorem Move.finAcker_eq (hm : Move c i d) :
    (d.finAcker = c.finAcker ∧ d.rx.remoteFIN = c.rx.remoteFIN) ∨
      ((i = .sent .finAcker ∨ i = .sendErr .finAcker) ∧ d.rx.remoteFIN = c.rx.remoteFIN) ∨
      (c.rx.remoteFIN = false ∧ d.finAcker ≠ none) := by
  cases hm with
  | finTaken _ _ hfin => exact .inr (.inr ⟨hfin, nofun⟩)
  | finAckSent => exact .inr (.inl ⟨.inl rfl, rfl⟩)
  | finAckSendErr => exact .inr (.inl ⟨.inr rfl, by simp [dropCarrier_eq]⟩)
  | _ =>
    left
    simp [setReader, setSender, setState, setLink, closeLink, setCarrier, closeSlot_eq,
      detachAll_eq, detachForReset, failTerminal, failFrameProtocol, dropCarrier_eq, supersede_eq,
      acceptFailed_eq, commitCarrier_eq, discardAcked]

theorem Move.remoteFIN_new (hm : Move c i d) (hf : d.rx.remoteFIN) :
    c.rx.remoteFIN ∨ d.finAcker ≠ none := by
  rcases hm.finAcker_eq with ⟨-, heq⟩ | ⟨-, heq⟩ | ⟨-, howed⟩
  · exact .inl (heq ▸ hf)
  · exact .inl (heq ▸ hf)
  · exact .inr howed

@[simp] theorem finAcked_discardAcked (tx : SendHalf) (offset : ℕ) :
    (tx.discardAcked offset).finAcked = tx.finAcked := by
  unfold SendHalf.discardAcked
  split <;> rfl

theorem Move.finAcked_mono (hm : Move c i d) (hf : c.tx.finAcked) : d.tx.finAcked := by
  cases hm <;>
    simp [setReader, setSender, setState, setLink, closeLink, setCarrier, closeSlot_eq,
      detachAll_eq, detachForReset, failTerminal, failFrameProtocol, dropCarrier_eq, supersede_eq,
      acceptFailed_eq, commitCarrier_eq, discardAcked, hf]

theorem process_finAck (hr : (c.carrier l).reader = .checked (.finAck n)) : c.process l = none := by
  simp [process, hr]

end Conn

/-! ### Where a FINAck is -/

namespace System

open Conn

variable {s s' : System} {a : Action} {i : Input} {d : Conn} {q r : Role} {l : Link} {n : ℕ}

theorem keeps_inHand (h : Delivers s) (hs : Shape (s.conn q)) (hm : Move (s.conn q) i d)
    (hi : q = r → i = .dispose l ∨ i = .process l →
      ((s.conn r).carrier l).reader = .checked (.finAck n) →
      (s.conn r).applicationDisposition l = .accept)
    (hr : ((s.conn r).carrier l).reader.inHand = some (.finAck n)) :
    (((s.setConn q d).conn r).carrier l).reader.inHand = some (.finAck n) ∨
      ((s.setConn q d).conn r).tx.finAcked := by
  by_cases hq : r = q
  · subst hq
    obtain ⟨hfin, hn⟩ := (h.agrees r).inHand l _ hr
    obtain ⟨hlocal, hat, -⟩ := (h.agrees r).outgoing.fin hfin
    rw [setConn_same]
    exact hm.keeps_inHand hs hr ⟨hlocal, hn.trans hat⟩ (hi rfl)
  · left
    rwa [conn_setConn, if_neg hq]

/-- A FINAck in hand stays there until it is taken. -/
theorem inHand_step (h : Delivers s) (hs : ∀ q, Shape (s.conn q)) (hst : s.step a = some s')
    (hok : keepsFinAck s a) (hr : ((s.conn r).carrier l).reader.inHand = some (.finAck n)) :
    ((s'.conn r).carrier l).reader.inHand = some (.finAck n) ∨ (s'.conn r).tx.finAcked := by
  cases moved_of_step hst with
  | @act q i d hloc hd =>
    refine keeps_inHand h (hs q) (move_of_step hd) (fun hq hi hr' => ?_) hr
    subst hq
    rcases hi with rfl | rfl
    · simpa [keepsFinAck, hr'] using hok
    · rw [Conn.step, process_finAck hr'] at hd
      cases hd
  | send _ _ hd | sendErr _ hd | recv _ _ hd | recvErr hd =>
    exact keeps_inHand h (hs _) (move_of_step hd) (fun _ hi => by simp at hi) hr
  | lose => exact .inl hr

/-- A FINAck in flight stays there until it is in hand. -/
theorem flight_step (hst : s.step a = some s') (hok : keepsFinAck s a)
    (hf : .frame (.finAck n) ∈ (s.chan l r.peer).queue) :
    .frame (.finAck n) ∈ (s'.chan l r.peer).queue ∨
      ((s'.conn r).carrier l).reader.inHand = some (.finAck n) := by
  cases moved_of_step hst with
  | act | recvErr => exact .inl hf
  | send =>
    left
    rw [chan_setChan]
    split
    · rename_i heq
      rw [heq.1, heq.2] at hf
      exact Channel.mem_send_of_mem hf
    · exact hf
  | sendErr =>
    left
    rw [chan_setChan]
    split
    · rename_i heq
      rw [heq.1, heq.2] at hf
      exact hf
    · exact hf
  | @recv q l' p rest d hq hb hd =>
    rw [chan_setChan]
    split
    · rename_i heq
      obtain ⟨rfl, hpeer⟩ := heq
      obtain rfl : r = q := by simpa using congrArg Role.peer hpeer
      rw [hq, List.mem_cons] at hf
      rcases hf with rfl | hf
      · simp only [keepsFinAck, hq] at hok
        rw [Conn.step] at hd
        have hchecked : (d.carrier l).reader = .checked (.finAck n) := by simpa [hd] using hok
        right
        simp [hchecked, Reader.inHand]
      · exact .inl hf
    · exact .inl hf
  | @lose q l' m =>
    left
    rw [chan_setChan]
    split
    · rename_i heq
      obtain ⟨rfl, rfl⟩ := heq
      rw [← List.take_append_drop m (s.chan l r.peer).queue, List.mem_append] at hf
      rcases hf with hf | hf
      · exact hf
      · simp only [keepsFinAck, List.all_eq_true] at hok
        simpa [isFinAck] using hok _ hf
    · exact hf

/-- Who owes a FINAck and moves, still owes it. -/
theorem keeps_owed (h : Delivers s) (hm : Move (s.conn q) i d)
    (hi : q = r.peer → i ≠ .sent .finAcker ∧ i ≠ .sendErr .finAcker)
    (hf : (s.conn r.peer).finAcker = some (l, n)) :
    ((s.setConn q d).conn r.peer).finAcker = some (l, n) := by
  by_cases hq : r.peer = q
  · subst hq
    rw [setConn_same]
    rcases hm.finAcker_eq with ⟨heq, -⟩ | ⟨hsent | herr, -⟩ | ⟨hfin, -⟩
    · rw [heq, hf]
    · exact absurd hsent (hi rfl).1
    · exact absurd herr (hi rfl).2
    · rw [((h.agrees r.peer).finAcker l n hf).1] at hfin
      cases hfin
  · rwa [conn_setConn, if_neg hq]

/-- A FINAck that is owed stays so until it is in flight. -/
theorem owed_step (h : Delivers s) (hst : s.step a = some s') (hok : keepsFinAck s a)
    (hf : (s.conn r.peer).finAcker = some (l, n)) :
    (s'.conn r.peer).finAcker = some (l, n) ∨
      .frame (.finAck n) ∈ (s'.chan l r.peer).queue := by
  cases moved_of_step hst with
  | act hloc hd =>
    left
    refine keeps_owed h (move_of_step hd) (fun _ => ⟨?_, ?_⟩) hf <;> rintro rfl <;> cases hloc
  | @send q t l' p d hp _ hd =>
    by_cases ht : q = r.peer ∧ t = .finAcker
    · obtain ⟨rfl, rfl⟩ := ht
      simp only [pending, hf, Option.map_some, Option.some.injEq, Prod.mk.injEq] at hp
      obtain ⟨rfl, rfl⟩ := hp
      right
      rw [chan_setChan, if_pos ⟨rfl, rfl⟩]
      exact Channel.mem_send_self (by simpa [keepsFinAck, hf] using hok)
    · exact .inl (keeps_owed h (move_of_step hd) (fun hq => by simp_all) hf)
  | @sendErr q t l' p d hp hd =>
    have ht : t ≠ .finAcker := by rintro rfl; cases hok
    exact .inl (keeps_owed h (move_of_step hd) (fun hq => by simp_all) hf)
  | recv _ _ hd | recvErr hd => exact .inl (keeps_owed h (move_of_step hd) (fun _ => by simp) hf)
  | lose => exact .inl hf

/-! ### Every FIN that was taken is acknowledged -/

structure Acknowledges (s : System) : Prop where
  delivers : Delivers s
  shape : ∀ r, Shape (s.conn r)
  acked : ∀ r, (s.conn r.peer).rx.remoteFIN → (s.conn r).tx.finAcked ∨ finAckUnderWay s r

theorem acknowledges_init (window : ℕ) (identity : Digest) :
    Acknowledges (.init window identity) where
  delivers := delivers_init window identity
  shape := shape_init window identity
  acked _ h := by cases h

theorem underWay_step (h : Acknowledges s) (hst : s.step a = some s') (hok : keepsFinAck s a)
    (hw : finAckUnderWay s r) : (s'.conn r).tx.finAcked ∨ finAckUnderWay s' r := by
  rcases hw with howed | ⟨l, n, hf⟩ | ⟨l, n, hr⟩
  · obtain ⟨⟨l, n⟩, hf⟩ := Option.ne_none_iff_exists'.mp howed
    rcases owed_step h.delivers hst hok hf with hf | hf
    · exact .inr (.inl (by simp [hf]))
    · exact .inr (.inr (.inl ⟨l, n, hf⟩))
  · rcases flight_step hst hok hf with hf | hr
    · exact .inr (.inr (.inl ⟨l, n, hf⟩))
    · exact .inr (.inr (.inr ⟨l, n, hr⟩))
  · rcases inHand_step h.delivers h.shape hst hok hr with hr | hacked
    · exact .inr (.inr (.inr ⟨l, n, hr⟩))
    · exact .inl hacked

theorem acknowledges_step (h : Acknowledges s) (hst : s.step a = some s')
    (hok : keepsFinAck s a) : Acknowledges s' where
  delivers := delivers_step h.delivers hst
  shape := shape_step h.shape hst
  acked r hfin := by
    have hnew := rel_step (fun c d => d.rx.remoteFIN → c.rx.remoteFIN ∨ d.finAcker ≠ none)
      (fun _ => .inl) Move.remoteFIN_new hst r.peer hfin
    rcases hnew with hfin | howed
    · rcases h.acked r hfin with hacked | hw
      · exact .inl (rel_step (fun c d => c.tx.finAcked → d.tx.finAcked) (fun _ => id)
          Move.finAcked_mono hst r hacked)
      · exact underWay_step h hst hok hw
    · exact .inr (.inl howed)

/-- In every run that loses no FINAck, a side whose FIN and bytes were all taken has
its FIN acknowledged once both ends and the links between them are at rest. -/
theorem fin_acknowledged (window : ℕ) (identity : Digest) {s : System}
    (h : Reach System.step (fun s a => keepsFinAck s a) (.init window identity) s)
    (hrest : AtRest s) (r : Role) (hc : Closed s r) : (s.conn r).tx.finAcked := by
  have hack : Acknowledges s := h.invariant (acknowledges_init window identity)
    fun inv hok hst => acknowledges_step inv hst hok
  rcases hack.acked r hc.remoteFIN with hacked | howed | ⟨l, n, hf⟩ | ⟨l, n, hr⟩
  · exact hacked
  · exact absurd (hrest.finAckers r.peer) howed
  · rw [(hrest.links l r.peer).1] at hf
    cases hf
  · rw [(hrest.links l r).2.1] at hr
    cases hr

/-! ### With and without the FINAck -/

theorem linkAtRest_of_untouched (hs : Shape (s.conn r)) (h : s.Untouched l) : linkAtRest s l r := by
  obtain ⟨hlink, hq⟩ := h r
  have hcar := hs.unused l hlink
  refine ⟨hq, ?_, ?_, ?_, ?_⟩ <;> simp [writeActive, pending, finWritten, hcar, Reader.inHand]

/-- Only the links that a run hands over need to be looked at. -/
theorem links_atRest {window : ℕ} {identity : Digest} (ls : List Link)
    (hrun : run step (.init window identity) as = some s)
    (has : as.all fun a => a.hands.all (· ∈ ls)) (hls : ∀ l ∈ ls, ∀ r, linkAtRest s l r) (l : Link)
      (r : Role) : linkAtRest s l r := by
  by_cases hl : l ∈ ls
  · exact hls l hl r
  · have hshape := shape_init window identity
    have hs : ∀ r, Shape (s.conn r) := (reach_of_run as hrun).invariant hshape
      fun inv _ hst => shape_step inv hst
    have hfresh := untouched_init window identity l
    refine linkAtRest_of_untouched (hs r) (untouched_run hrun hshape hfresh fun a ha heq => hl ?_)
    simpa [heq] using List.all_eq_true.mp has a ha

def acknowledge (r : Role) (l : Link) : List Action :=
  [.act r .acknowledge, .send r .acker, .act r .acknowledged, .recv r.peer l,
    .act r.peer (.dispose l), .act r.peer (.process l)]

/-- A byte and a FIN go over link 1, and the responder owes the FINAck. -/
def closedWriting : List Action :=
  prepare 1 ++ commit 1 1 ++ confirm 1 ++ [.act .initiator (.write [10])] ++
    transfer .initiator 1 ++ [.act .responder (.read 1), .act .initiator .closeWrite] ++
    transfer .initiator 1 ++ [.act .initiator (.finWritten 1)]

/-- Link 1 dies with the FINAck in flight. Link 2 takes over and brings the FIN again. -/
def finAckLost : List Action :=
  closedWriting ++ [.send .responder .finAcker] ++ sever 1 ++ prepare 2 ++ commit 2 2 ++
    confirm 2 ++ transfer .initiator 2 ++ [.act .initiator (.finWritten 2)] ++
    acknowledge .responder 2 ++ acknowledge .initiator 2 ++
    [.act .initiator (.writeActive 1), .act .responder (.writeActive 1)]

theorem finAckLost_enabled : (run step (.init maximumFrame 7) finAckLost).isSome := by
  decide +kernel

def finAckLostEnd : System := final step (.init maximumFrame 7) finAckLost finAckLost_enabled

/-- The duplicate FIN is ignored, so nobody ever acknowledges it. -/
theorem lost_finAck_not_repeated :
    ∃ s, Reach step Always (.init maximumFrame 7) s ∧ AtRest s ∧ Closed s .initiator ∧
      (s.conn .initiator).tx.finAcked = false := by
  have hrun : run step (.init maximumFrame 7) finAckLost = some finAckLostEnd :=
    (Option.some_get finAckLost_enabled).symm
  refine ⟨finAckLostEnd, reach_of_run _ hrun, ⟨?_, ?_, ?_⟩, ⟨?_, ?_, ?_, 2, ?_⟩, ?_⟩
  · exact links_atRest [1, 2] hrun (by decide) (by decide +kernel)
  all_goals decide +kernel

/-- The FINAck arrives before anything happens to link 1. -/
def finAckTaken : List Action :=
  closedWriting ++ [.send .responder .finAcker, .recv .initiator 1, .act .initiator (.dispose 1),
    .act .initiator (.process 1)] ++ acknowledge .responder 1 ++ acknowledge .initiator 1

theorem finAckTaken_enabled :
    (runChecked step (fun s a => keepsFinAck s a) (.init maximumFrame 7) finAckTaken).isSome := by
  decide +kernel

def finAckTakenEnd : System :=
  finalChecked step (fun s a => keepsFinAck s a) (.init maximumFrame 7) finAckTaken
    finAckTaken_enabled

theorem fin_acknowledged_delivered :
    AtRest finAckTakenEnd ∧ Closed finAckTakenEnd .initiator ∧
      (finAckTakenEnd.conn .initiator).tx.finAcked := by
  have hreach := reach_finalChecked finAckTaken finAckTaken_enabled
  have hrun : run step (.init maximumFrame 7) finAckTaken = some finAckTakenEnd :=
    run_of_runChecked finAckTaken (Option.some_get finAckTaken_enabled).symm
  have hrest : AtRest finAckTakenEnd :=
    ⟨links_atRest [1] hrun (by decide) (by decide +kernel), by decide +kernel, by decide +kernel⟩
  have hclosed : Closed finAckTakenEnd .initiator :=
    ⟨by decide +kernel, by decide +kernel, by decide +kernel, 1, by decide +kernel⟩
  exact ⟨hrest, hclosed, fin_acknowledged maximumFrame 7 hreach hrest .initiator hclosed⟩

end System

end Paperboat.ResumableStream
