import Paperboat.ResumableStream.Direction
import Paperboat.ResumableStream.System

/-! Delivery over any number of carriers. The invariant speaks about the two halves
of each direction and about the packets that are under way, and never about which
carrier is active: what an end takes from the network is sound whichever carrier
brought it. Steps that move no byte and no offset are `Quiet`; the few that do are
treated one by one. -/

namespace Paperboat.ResumableStream

open Transition

/-! ### Packets held by an end -/

/-- The stream frame a sender is about to write. -/
def Sender.frame : Sender → Option Frame
  | .data _ sequence payload => some (.data sequence payload)
  | .fin _ sequence => some (.fin sequence)
  | _ => none

/-- The offset that is about to be acknowledged. -/
def Acker.offset : Acker → Option ℕ
  | .writing _ offset => some offset
  | _ => none

/-- The hello that is about to be written. -/
def Call.hello : Call → Option Hello
  | .prepareHello _ h | .acceptReady _ _ h => some h
  | _ => none

/-- `d` holds no stream packet that `c` did not hold. -/
structure Holds (c d : Conn) : Prop where
  reader : ∀ l f, (d.carrier l).reader.inHand = some f → (c.carrier l).reader.inHand = some f
  sender : ∀ l f, (d.carrier l).sender.frame = some f → (c.carrier l).sender.frame = some f
  acker : ∀ n, d.acker.offset = some n → c.acker.offset = some n
  finAcker : ∀ x, d.finAcker = some x → c.finAcker = some x
  call : ∀ h, d.call.hello = some h → c.call.hello = some h

/-- No byte moves and no new stream packet is held. -/
structure Quiet (c d : Conn) : Prop extends Holds c d where
  tx : d.tx = c.tx
  rx : d.rx = c.rx

/-- Other halves do not change what is held. -/
theorem Holds.halves (h : Quiet c d) : Holds c { d with tx := tx, rx := rx } :=
  { h with }

namespace Quiet

variable {c d e : Conn} {l : Link}

theorem refl (c : Conn) : Quiet c c :=
  ⟨⟨fun _ _ h => h, fun _ _ h => h, fun _ h => h, fun _ h => h, fun _ h => h⟩, rfl, rfl⟩

theorem trans (h : Quiet c d) (h' : Quiet d e) : Quiet c e where
  tx := h'.tx.trans h.tx
  rx := h'.rx.trans h.rx
  reader l f hf := h.reader l f (h'.reader l f hf)
  sender l f hf := h.sender l f (h'.sender l f hf)
  acker n hn := h.acker n (h'.acker n hn)
  finAcker x hx := h.finAcker x (h'.finAcker x hx)
  call x hx := h.call x (h'.call x hx)

/-- Slots, epochs, waiters and flags are free to change. -/
theorem of_fields (htx : d.tx = c.tx) (hrx : d.rx = c.rx) (hcar : d.carrier = c.carrier)
    (hack : d.acker = c.acker) (hfin : d.finAcker = c.finAcker)
    (hcall : ∀ h, d.call.hello = some h → c.call.hello = some h) : Quiet c d where
  tx := htx
  rx := hrx
  reader _ _ h := hcar ▸ h
  sender _ _ h := hcar ▸ h
  acker _ h := hack ▸ h
  finAcker _ h := hfin ▸ h
  call := hcall

theorem setCarrier
    (hr : ∀ x, (f (c.carrier l)).reader.inHand = some x → (c.carrier l).reader.inHand = some x)
    (hs : ∀ x, (f (c.carrier l)).sender.frame = some x → (c.carrier l).sender.frame = some x) :
    Quiet c (c.setCarrier l f) := by
  refine ⟨⟨fun l' x h => ?_, fun l' x h => ?_, fun _ h => h, fun _ h => h, fun _ h => h⟩, rfl, rfl⟩
  · by_cases hl : l' = l
    · subst hl; exact hr x (by rwa [c.setCarrier_same] at h)
    · rwa [c.setCarrier_other _ hl] at h
  · by_cases hl : l' = l
    · subst hl; exact hs x (by rwa [c.setCarrier_same] at h)
    · rwa [c.setCarrier_other _ hl] at h

theorem setReader
    (hr : ∀ x, r.inHand = some x → (c.carrier l).reader.inHand = some x) :
    Quiet c (c.setReader l r) := setCarrier hr fun _ h => h

theorem setSender
    (hs : ∀ x, s.frame = some x → (c.carrier l).sender.frame = some x) :
    Quiet c (c.setSender l s) := setCarrier (fun _ h => h) hs

section

variable (c)

theorem setState (l : Link) (s : CarrierState) : Quiet c (c.setState l s) :=
  setCarrier (fun _ h => h) fun _ h => h

theorem setLink (l : Link) (e : LinkEnd) : Quiet c (c.setLink l e) :=
  setCarrier (fun _ h => h) fun _ h => h

theorem closeLink (l : Link) : Quiet c (c.closeLink l) := setLink ..

theorem closeSlot (slot : Option Link) : Quiet c (c.closeSlot slot) := by
  cases slot with
  | none => exact refl c
  | some l => exact closeLink c l

theorem detachAll : Quiet c c.detachAll :=
  ((closeSlot c _).trans ((closeSlot _ _).trans (closeSlot _ _))).trans
    { refl _ with }

theorem failTerminal : Quiet c c.failTerminal :=
  (detachAll c).trans { refl _ with }

theorem failFrameProtocol (l : Link) (stage : Stage) : Quiet c (c.failFrameProtocol l stage) := by
  have hfault : Quiet c { c with faults := stage :: c.faults } :=
    { refl _ with }
  exact (hfault.trans (failTerminal _)).trans (setReader nofun)

theorem dropCarrier (l : Link) : Quiet c (c.dropCarrier l) := by
  unfold Conn.dropCarrier
  split
  · refine trans ?_ (setCarrier (fun _ h => h) fun _ h => h)
    exact { refl _ with }
  · exact refl c

theorem retireActive : Quiet c c.retireActive := by
  unfold Conn.retireActive
  split
  · exact refl c
  · exact setState ..

theorem commitCarrier (l : Link) : Quiet c (c.commitCarrier l) :=
  ((retireActive c).trans (setState ..)).trans { refl _ with }

theorem supersede (slot : Option Link) : Quiet c (c.supersede slot) := by
  cases slot with
  | none => exact refl c
  | some l => exact setState ..

theorem acceptFailed (l : Link) (old : Option Link) : Quiet c (c.acceptFailed l old) := by
  have hlast : ∀ x : Conn, Quiet c x →
      Quiet c { (x.closeSlot old).closeLink l with call := .idle } := fun x hx =>
    (hx.trans ((closeSlot ..).trans (closeLink ..))).trans
      (of_fields rfl rfl rfl rfl rfl nofun)
  refine hlast _ ?_
  split
  · exact (setState c l .failed).trans { refl _ with }
  · exact refl c

end

end Quiet

/-! ### One end against the halves of its peer -/

/-- An end whose peer has the halves `ptx` and `prx`. -/
structure Agrees (c : Conn) (ptx : SendHalf) (prx : RecvHalf) : Prop where
  incoming : Direction ptx c.rx
  outgoing : Direction c.tx prx
  inHand : ∀ l f, (c.carrier l).reader.inHand = some f → (Packet.frame f).Sound ptx prx
  sender : ∀ l f, (c.carrier l).sender.frame = some f → (Packet.frame f).Sound c.tx c.rx
  acker : ∀ n, c.acker.offset = some n → n ≤ c.rx.recvBase
  finAcker : ∀ l n, c.finAcker = some (l, n) → c.rx.remoteFIN ∧ n = c.rx.remoteFINAt
  call : ∀ h, c.call.hello = some h → h.ack ≤ c.rx.recvBase

section Agrees

variable {c d : Conn} {ptx ptx' : SendHalf} {prx prx' : RecvHalf} {l : Link}

/-- The halves may grow as long as nothing new is held. -/
theorem Agrees.grow (h : Agrees c ptx prx) (hh : Holds c d) (hg : Grows c.tx d.tx c.rx d.rx)
    (hin : Direction ptx d.rx) (hout : Direction d.tx prx) : Agrees d ptx prx where
  incoming := hin
  outgoing := hout
  inHand l f hf := h.inHand l f (hh.reader l f hf)
  sender l f hf := (h.sender l f (hh.sender l f hf)).mono hg h.outgoing.sendNext_eq
  acker n hn := (h.acker n (hh.acker n hn)).trans hg.recvBase
  finAcker l n hn := by
    obtain ⟨hfin, hat⟩ := h.finAcker l n (hh.finAcker _ hn)
    obtain ⟨hfin', hat'⟩ := hg.remoteFIN hfin
    exact ⟨hfin', hat.trans hat'.symm⟩
  call x hx := (h.call x (hh.call x hx)).trans hg.recvBase

theorem Agrees.quiet (h : Agrees c ptx prx) (hq : Quiet c d) : Agrees d ptx prx := by
  refine h.grow hq.toHolds ?_ ?_ ?_
  · rw [hq.tx, hq.rx]; exact .refl ..
  · rw [hq.rx]; exact h.incoming
  · rw [hq.tx]; exact h.outgoing

/-- The peer takes a step of its own. -/
theorem Agrees.peer (h : Agrees c ptx prx) (hg : Grows ptx ptx' prx prx')
    (hin : Direction ptx' c.rx) (hout : Direction c.tx prx') : Agrees c ptx' prx' :=
  { h with
    incoming := hin
    outgoing := hout
    inHand := fun l f hf => (h.inHand l f hf).mono hg h.incoming.sendNext_eq }

/-- What a step of one end gives: it still agrees with its peer, and its halves
only grew. -/
structure Progress (c d : Conn) (ptx : SendHalf) (prx : RecvHalf) : Prop where
  agrees : Agrees d ptx prx
  grows : Grows c.tx d.tx c.rx d.rx

section

variable (h : Agrees c ptx prx)

include h

theorem Agrees.progress (hq : Quiet c d) : Progress c d ptx prx := by
  refine ⟨h.quiet hq, ?_⟩
  rw [hq.tx, hq.rx]
  exact .refl ..

omit h in
theorem Progress.quiet (h : Progress c d ptx prx) (hq : Quiet d e) : Progress c e ptx prx := by
  refine ⟨h.agrees.quiet hq, ?_⟩
  rw [hq.tx, hq.rx]
  exact h.grows

/-- New halves, and nothing new held. -/
theorem Agrees.advance (hh : Holds c d) (hg : Grows c.tx d.tx c.rx d.rx) (hin : Direction ptx d.rx)
    (hout : Direction d.tx prx) : Progress c d ptx prx := ⟨h.grow hh hg hin hout, hg⟩

omit h in
theorem grows_discardAcked (tx : SendHalf) (rx : RecvHalf) (offset : ℕ) :
    Grows tx (tx.discardAcked offset) rx rx := by
  unfold SendHalf.discardAcked
  split
  · exact .refl ..
  · rename_i hlt
    exact { Grows.refl tx rx with sendBase := Nat.le_of_not_le hlt }

theorem progress_discardAcked (ho : offset ≤ prx.recvBase) : Progress c (c.discardAcked offset) ptx prx :=
  h.advance (.halves (.refl c)) (grows_discardAcked ..) h.incoming (h.outgoing.discardAcked ho)

/-- A hello that is sound for this end may be put into the call. -/
theorem Agrees.setCall (htx : d.tx = c.tx) (hrx : d.rx = c.rx) (hcar : d.carrier = c.carrier)
    (hack : d.acker = c.acker) (hfin : d.finAcker = c.finAcker)
    (hc : ∀ x, d.call.hello = some x → x.ack ≤ c.rx.recvBase) : Agrees d ptx prx where
  incoming := hrx ▸ h.incoming
  outgoing := htx ▸ h.outgoing
  inHand l f hf := h.inHand l f (hcar ▸ hf)
  sender l f hf := by rw [htx, hrx]; exact h.sender l f (hcar ▸ hf)
  acker n hn := by rw [hrx]; exact h.acker n (hack ▸ hn)
  finAcker l n hn := by rw [hrx]; exact h.finAcker l n (hfin ▸ hn)
  call x hx := by rw [hrx]; exact hc x hx

theorem Agrees.setReader (hr : ∀ f, r.inHand = some f → (Packet.frame f).Sound ptx prx) :
    Agrees (c.setReader l r) ptx prx := by
  refine { h with inHand := fun l' f hf => ?_, sender := fun l' f hf => ?_ }
  · by_cases hl : l' = l
    · subst hl; exact hr f (by rwa [Conn.setReader, c.setCarrier_same] at hf)
    · exact h.inHand l' f (by rwa [Conn.setReader, c.setCarrier_other _ hl] at hf)
  · refine h.sender l' f ?_
    by_cases hl : l' = l
    · subst hl; rwa [Conn.setReader, c.setCarrier_same] at hf
    · rwa [Conn.setReader, c.setCarrier_other _ hl] at hf

theorem Agrees.setSender
    (hs : ∀ f, s.frame = some f → (Packet.frame f).Sound c.tx c.rx) :
    Agrees (c.setSender l s) ptx prx := by
  refine { h with inHand := fun l' f hf => ?_, sender := fun l' f hf => ?_ }
  · refine h.inHand l' f ?_
    by_cases hl : l' = l
    · subst hl; rwa [Conn.setSender, c.setCarrier_same] at hf
    · rwa [Conn.setSender, c.setCarrier_other _ hl] at hf
  · by_cases hl : l' = l
    · subst hl; exact hs f (by rwa [Conn.setSender, c.setCarrier_same] at hf)
    · exact h.sender l' f (by rwa [Conn.setSender, c.setCarrier_other _ hl] at hf)

/-- PREPARE is taken: its acknowledgement counts, and READY carries one of its own. -/
theorem progress_offered {request : Hello} (hp : (Packet.hello request).Sound ptx prx) :
    Progress c (({ (c.supersede c.prepared).discardAcked request.ack with
        nextEpoch := request.epoch
        prepared := some l
        call := .acceptReady l c.prepared (c.readyFor request) }).setCarrier l fun k => { k with
          id := request.carrier, epoch := request.epoch, state := .provisional }) ptx prx := by
  have hsup := Quiet.supersede c c.prepared
  have hack := progress_discardAcked (h.quiet hsup) hp
  refine Progress.quiet ⟨?_, ?_⟩ (Quiet.setCarrier (fun _ h => h) fun _ h => h)
  · refine hack.agrees.setCall rfl rfl rfl rfl rfl fun x hx => ?_
    cases hx
    show c.rx.recvBase ≤ (c.supersede c.prepared).rx.recvBase
    rw [hsup.rx]
  · have := hack.grows
    rwa [hsup.tx, hsup.rx] at this

theorem progress_finTaken (hr : (c.carrier l).reader = .accepted (.fin n)) (hn : n = c.rx.recvNext)
    (hfin : c.rx.remoteFIN = false) :
    Progress c { c.setReader l .reading with
      rx := { c.rx with remoteFIN := true, remoteFINAt := n }
      finAcker := some (l, n) } ptx prx := by
  obtain ⟨hlocal, hseq⟩ : ptx.localFIN ∧ n = ptx.sendNext := h.inHand l (.fin n) (by rw [hr]; rfl)
  subst hseq
  have hgrow : Grows c.tx c.tx c.rx { c.rx with remoteFIN := true, remoteFINAt := ptx.sendNext } :=
    { Grows.refl c.tx c.rx with remoteFIN := fun hf => by rw [hfin] at hf; cases hf }
  have hread : Quiet c (c.setReader l .reading) := .setReader nofun
  have hhalf := h.grow (.halves hread) hgrow (h.incoming.remoteFIN hlocal hn.symm) h.outgoing
  refine ⟨{ hhalf with finAcker := fun l' n' hn => ?_ }, hgrow⟩
  cases hn
  exact ⟨rfl, rfl⟩

/-- Any step of one end keeps it in agreement with its peer, provided that a packet
it reads is sound. -/
theorem progress_move (hm : Conn.Move c i d) (hi : ∀ l p, i = .recv l p → p.Sound ptx prx) :
    Progress c d ptx prx := by
  -- The reader goes on to the next frame.
  have hnext : ∀ l, Quiet c (c.setReader l .reading) := fun l => .setReader nofun
  have hcall : ∀ {e : Conn}, Quiet c e → ∀ x : Call, x.hello = none →
      Quiet c { e with call := x } := fun he x hx =>
    he.trans (.of_fields rfl rfl rfl rfl rfl fun y hy => by rw [hx] at hy; cases hy)
  cases hm with
  | write hfin =>
    refine h.advance (.halves (.refl c)) ?_ h.incoming (h.outgoing.write hfin _)
    exact { Grows.refl c.tx c.rx with
      written := List.prefix_append ..
      sendNext := Nat.le_add_right ..
      localFIN := fun hf => by rw [hfin] at hf; cases hf }
  | read =>
    exact h.advance (.halves (.refl c))
      { Grows.refl c.tx c.rx with recvBase := Nat.le_add_right .. } (h.incoming.read _) h.outgoing
  | readEOF hempty hfin =>
    exact h.advance (.halves (.refl c)) { Grows.refl c.tx c.rx with }
      (h.incoming.readEOF hempty hfin) h.outgoing
  | closeWrite =>
    exact h.advance (.halves (.refl c))
      { Grows.refl c.tx c.rx with localFIN := fun _ => ⟨rfl, rfl⟩ } h.incoming
      (h.outgoing.congr rfl rfl rfl rfl fun _ => rfl)
  | closeGraceful =>
    exact h.progress ((Quiet.detachAll c).trans { Quiet.refl _ with })
  | closeReset | contextDone | expire =>
    exact h.progress { Quiet.refl _ with }
  | abort => exact h.progress (.failTerminal c)
  | expireFatal =>
    refine h.progress (Quiet.trans ?_ (.failTerminal _))
    exact { Quiet.refl _ with }
  | prepareMisused | acceptMisused => exact h.progress (.setLink ..)
  | prepareRefused => exact h.progress (.closeLink ..)
  | prepare =>
    refine ⟨(h.quiet (.setLink c _ .opened)).setCall rfl rfl rfl rfl rfl fun x hx => ?_,
      Grows.refl ..⟩
    cases hx
    exact le_rfl
  | prepareSent | readySent | promoteSent | promoteExpire | dropSent | dropExpire =>
    exact h.progress (hcall (.refl c) _ rfl)
  | prepareSendErr | answerErr | answerRefused | offerErr | offerRefused =>
    exact h.progress (hcall (.closeLink ..) _ rfl)
  | answered =>
    refine ((progress_discardAcked h (hi _ _ rfl)).quiet ?_).quiet
      (Quiet.setCarrier (nofun) fun _ h => h)
    exact .of_fields rfl rfl rfl rfl rfl nofun
  | accept => exact h.progress (hcall (.setLink ..) _ rfl)
  | offered => exact progress_offered h (hi _ _ rfl)
  | readySendErr => exact h.progress (.acceptFailed ..)
  | acceptGone => exact h.progress (hcall ((Quiet.closeSlot ..).trans (.closeLink ..)) _ rfl)
  | accepted =>
    exact h.progress (hcall ((Quiet.setState ..).trans ((Quiet.closeSlot ..).trans
      (.setReader fun _ h => by cases h))) _ rfl)
  | promote =>
    exact h.progress ((Quiet.setState ..).trans (.of_fields rfl rfl rfl rfl rfl nofun))
  | promoteSendErr | dropSendErr => exact h.progress (hcall (.dropCarrier ..) _ rfl)
  | promoteDone | drop | dropFailed => exact h.progress (.of_fields rfl rfl rfl rfl rfl nofun)
  | promoted =>
    refine h.progress (Quiet.trans ?_ (.setSender nofun))
    exact .of_fields rfl rfl rfl rfl rfl nofun
  | dropped =>
    refine h.progress (Quiet.trans ?_ (.closeLink ..))
    exact .of_fields rfl rfl rfl rfl rfl nofun
  | readFrame =>
    refine ⟨h.setReader fun x hx => ?_, Grows.refl ..⟩
    cases hx
    exact hi _ _ rfl
  | readLate | controlLate | discardAckSent | discardAckSendErr =>
    exact h.progress ((Quiet.closeLink ..).trans (.setReader nofun))
  | readBad | readErr | commitAckSendErr =>
    exact h.progress ((Quiet.dropCarrier ..).trans (.setReader nofun))
  | judgeAccept hr => exact h.progress (.setReader fun x hx => by rw [hr]; exact hx)
  | judgeLate | ackEarly | dataKnown | finKnown | commitAckSentAgain =>
    exact h.progress (hnext _)
  | disposeFault | processFault => exact h.progress (.failFrameProtocol ..)
  | dataTaken hr hseq hnew =>
    refine h.advance (.halves (hnext _)) { Grows.refl c.tx c.rx with recvNext := hnew.le } ?_
      h.outgoing
    exact h.incoming.data (h.inHand _ _ (by rw [hr]; rfl)) hseq hnew
  | ackTaken hr =>
    exact (progress_discardAcked h (h.inHand _ _ (by rw [hr]; rfl))).quiet (.setReader nofun)
  | finTaken hr hn hfin => exact progress_finTaken h hr hn hfin
  | finAckTaken =>
    exact h.advance (.halves (hnext _)) { Grows.refl c.tx c.rx with finAcked := fun _ => rfl }
      h.incoming (h.outgoing.congr rfl rfl rfl rfl fun h => h)
  | resetFinished | commitAgain => exact h.progress (.setReader nofun)
  | resetFatal => exact h.progress ((Quiet.failTerminal c).trans (.setReader nofun))
  | commit => exact h.progress ((Quiet.commitCarrier ..).trans (.setReader nofun))
  | commitAck =>
    exact h.progress (((Quiet.commitCarrier ..).trans (.setReader fun _ h => by cases h)).trans
      { Quiet.refl _ with })
  | confirm =>
    exact h.progress (((Quiet.closeSlot ..).trans (.setReader fun _ h => by cases h)).trans
      { Quiet.refl _ with })
  | discard | discardAck =>
    exact h.progress ((Quiet.setReader fun _ h => by cases h).trans { Quiet.refl _ with })
  | commitAckSent => exact h.progress ((hnext _).trans (.setSender nofun))
  | writerData hs hact hlt hn =>
    refine ⟨h.setSender fun f hf => ?_, Grows.refl ..⟩
    cases hf
    exact h.outgoing.chunk_sound _ (Nat.le_max_right ..) hlt.le
  | writerFin hs hact hle hfin =>
    refine ⟨h.setSender fun f hf => ?_, Grows.refl ..⟩
    cases hf
    exact ⟨hfin, rfl⟩
  | writerStops | dataSent | finSent | finStale | confirmSent | confirmSendErr | retireStale =>
    exact h.progress (.setSender nofun)
  | streamSendErr => exact h.progress ((Quiet.dropCarrier ..).trans (.setSender nofun))
  | finNoted =>
    refine Progress.quiet ?_ (.setSender nofun)
    exact h.advance (.halves (.refl c)) { Grows.refl c.tx c.rx with } h.incoming
      (h.outgoing.congr rfl rfl rfl rfl fun h => h)
  | retired =>
    refine h.progress (Quiet.trans ?_ (.setSender nofun))
    exact (Quiet.closeSlot c c.retained).trans { Quiet.refl _ with }
  | acknowledge =>
    refine ⟨{ h with acker := fun n hn => ?_ }, Grows.refl ..⟩
    cases hn
    exact le_rfl
  | ackSent | ackStale => exact h.progress { Quiet.refl c with acker := nofun }
  | ackSendErr =>
    exact h.progress ((Quiet.dropCarrier ..).trans { Quiet.refl _ with acker := nofun })
  | ackNoted =>
    have hidle : Quiet c { c with acker := .idle } := { Quiet.refl c with acker := nofun }
    refine h.advance (.halves hidle) { Grows.refl c.tx c.rx with } ?_ h.outgoing
    exact { h.incoming with }
  | finAckSent => exact h.progress { Quiet.refl c with finAcker := nofun }
  | finAckSendErr =>
    exact h.progress ((Quiet.dropCarrier ..).trans { Quiet.refl _ with finAcker := nofun })
  | resetSent | resetSendErr =>
    exact h.progress ((Quiet.closeLink ..).trans { Quiet.refl _ with })

/-- What an end writes is sound for its halves. -/
theorem Agrees.pending (hp : c.pending t = some (l, p)) :
    p.Sound c.tx c.rx := by
  unfold Conn.pending at hp
  split at hp
  · split at hp
    · rename_i hc; cases hp; exact h.call _ (by rw [hc]; rfl)
    · rename_i hc; cases hp; exact h.call _ (by rw [hc]; rfl)
    · cases hp; trivial
    · cases hp; trivial
    · contradiction
  · split at hp
    · cases hp; trivial
    · cases hp; trivial
    · contradiction
  · split at hp
    · cases hp; trivial
    · rename_i hs; cases hp; exact h.sender l _ (by rw [hs]; rfl)
    · rename_i hs; cases hp; exact h.sender l _ (by rw [hs]; rfl)
    · contradiction
  · split at hp
    · rename_i ha; cases hp; exact h.acker _ (by rw [ha]; rfl)
    · contradiction
  · obtain ⟨⟨l', n⟩, hf, hx⟩ := Option.map_eq_some_iff.mp hp
    cases hx
    exact h.finAcker _ _ hf
  · split at hp
    · contradiction
    · cases hp; trivial

end

end Agrees

/-! ### Both ends -/

/-- Each end agrees with the halves of the other, and so does every packet in
flight. -/
structure Delivers (s : System) : Prop where
  agrees : ∀ r, Agrees (s.conn r) (s.conn r.peer).tx (s.conn r.peer).rx
  flight : ∀ l r p, p ∈ (s.chan l r).queue → p.Sound (s.conn r).tx (s.conn r).rx

theorem delivers_init (window : ℕ) (identity : Digest) : Delivers (.init window identity) where
  agrees r := by
    refine ⟨Direction.initial, Direction.initial, ?_, ?_, ?_, ?_, ?_⟩ <;>
      intros <;> contradiction
  flight l r p hp := by simp [System.init] at hp

section System

variable {s s' : System} {r : Role} {l : Link}

/-- An end moves on and the packets in flight stay the same. -/
theorem Delivers.setConn (h : Delivers s)
    (hp : Progress (s.conn r) d (s.conn r.peer).tx (s.conn r.peer).rx) : Delivers (s.setConn r d) := by
  have hlen := (h.agrees r).outgoing.sendNext_eq
  refine ⟨fun q => ?_, fun l q p hq => ?_⟩
  · by_cases hr : q = r
    · subst hr
      simpa using hp.agrees
    · have hpeer : q = r.peer := by cases q <;> cases r <;> simp_all [Role.peer]
      subst hpeer
      have hold := h.agrees r.peer
      rw [Role.peer_peer] at hold
      simpa using hold.peer hp.grows hp.agrees.outgoing hp.agrees.incoming
  · have hold := h.flight l q p hq
    by_cases hr : q = r
    · subst hr
      simpa using hold.mono hp.grows hlen
    · have hpeer : q = r.peer := by cases q <;> cases r <;> simp_all [Role.peer]
      subst hpeer
      simpa using hold

/-- A channel keeps only sound packets. -/
theorem Delivers.setChan (h : Delivers s)
    (hch : ∀ p ∈ ch.queue, p.Sound (s.conn r).tx (s.conn r).rx) : Delivers (s.setChan l r ch) := by
  refine ⟨h.agrees, fun l' q p hp => ?_⟩
  by_cases hl : l' = l
  · subst hl
    by_cases hq : q = r
    · subst hq
      exact hch p (by simpa [System.setChan] using hp)
    · exact h.flight l' q p (by simpa [System.setChan, hq] using hp)
  · exact h.flight l' q p (by simpa [System.setChan, hl] using hp)

theorem delivers_step (h : Delivers s) (hs : s.step a = some s') : Delivers s' := by
  cases System.moved_of_step hs with
  | act hloc hd =>
    refine h.setConn (progress_move (h.agrees _) (Conn.move_of_step hd) fun l p hi => ?_)
    subst hi
    cases hloc
  | @send r t l p d hp hl hd =>
    have hprog := progress_move (h.agrees r) (Conn.move_of_step hd) nofun
    have hlen := (h.agrees r).outgoing.sendNext_eq
    refine (h.setConn hprog).setChan fun q hq => ?_
    rw [System.setConn_same]
    rcases Channel.mem_of_mem_send hq with hq | rfl
    · exact (h.flight l r q hq).mono hprog.grows hlen
    · exact ((h.agrees r).pending hp).mono hprog.grows hlen
  | @sendErr r t l p d hp hd =>
    have hprog := progress_move (h.agrees r) (Conn.move_of_step hd) nofun
    exact (h.setConn hprog).setChan fun q hq => (h.setConn hprog).flight l r q hq
  | @recv r l p rest d hq hb hd =>
    have hsound := h.flight l r.peer p (by rw [hq]; exact List.mem_cons_self)
    have hprog := progress_move (h.agrees r) (Conn.move_of_step hd) fun _ _ hi => by cases hi; exact hsound
    refine (h.setConn hprog).setChan fun q hmem => (h.setConn hprog).flight l r.peer q ?_
    rw [System.chan_setConn, hq]
    exact List.mem_cons_of_mem _ hmem
  | recvErr hd =>
    exact h.setConn (progress_move (h.agrees _) (Conn.move_of_step hd) nofun)
  | lose => exact h.setChan fun p hp => h.flight _ _ p (Channel.mem_of_mem_lose hp)

/-- In every run, over any number of carriers and whichever of them fail, the bytes
read at one end are a prefix of the bytes written at the other, and the end of the
stream is reported only after the writer closed it and all of its bytes were read. -/
theorem delivery (window : ℕ) (identity : Digest) {s : System}
    (h : Reach System.step Always (.init window identity) s) (r : Role) :
    (s.conn r).rx.returned <+: (s.conn r.peer).tx.written ∧
      ((s.conn r).rx.readEOF →
        (s.conn r.peer).tx.localFIN ∧ (s.conn r).rx.returned = (s.conn r.peer).tx.written) := by
  have hdel : Delivers s := h.invariant (delivers_init window identity) fun inv _ hst =>
    delivers_step inv hst
  have hdir := (hdel.agrees r).incoming
  exact ⟨hdir.returned_isPrefix, hdir.eof_complete⟩

open Paperboat.ResumableStream.System in
/-- Link 1 dies with the last byte and the FIN outstanding, link 2 takes over. -/
def replacedCarrier : List Action :=
  prepare 1 ++ commit 1 1 ++ confirm 1 ++ [.act .initiator (.write [10, 20, 30])] ++
    transfer .initiator 1 ++
    [.act .responder (.read 2), .act .initiator (.write [40]), .act .initiator .closeWrite,
      .act .initiator (.writeActive 1), .send .initiator (.sender 1)] ++
    sever 1 ++ prepare 2 ++ commit 2 2 ++ confirm 2 ++ transfer .initiator 2 ++
    transfer .initiator 2 ++ [.act .responder (.read 9), .act .responder (.read 9)]

theorem replacedCarrier_enabled :
    (run System.step (.init maximumFrame 7) replacedCarrier).isSome := by decide +kernel

/-- The state that `replacedCarrier` ends in. -/
def replacedEnd : System :=
  final System.step (.init maximumFrame 7) replacedCarrier replacedCarrier_enabled

theorem delivery_replacedCarrier :
    (replacedEnd.conn .responder).rx.readEOF ∧
      (replacedEnd.conn .responder).rx.returned = [10, 20, 30, 40] ∧
      (replacedEnd.conn .responder).rx.returned <+: (replacedEnd.conn .initiator).tx.written ∧
      ((replacedEnd.conn .responder).rx.readEOF → (replacedEnd.conn .initiator).tx.localFIN ∧
        (replacedEnd.conn .responder).rx.returned = (replacedEnd.conn .initiator).tx.written) := by
  have hreach : Reach System.step Always (.init maximumFrame 7) replacedEnd :=
    reach_final replacedCarrier replacedCarrier_enabled
  have hpeer : Role.initiator = Role.responder.peer := rfl
  refine ⟨by decide +kernel, by decide +kernel, ?_⟩
  rw [hpeer]
  exact delivery maximumFrame 7 hreach .responder

/-- Whichever carriers fail, an end still has the bytes that the other has not read. -/
theorem unread_kept (window : ℕ) (identity : Digest) {s : System}
    (h : Reach System.step Always (.init window identity) s) (r : Role) :
    (s.conn r).tx.written.drop (s.conn r.peer).rx.returned.length <:+ (s.conn r).tx.send := by
  have hdel : Delivers s := h.invariant (delivers_init window identity) fun inv _ hst =>
    delivers_step inv hst
  have hdir := (hdel.agrees r).outgoing
  rw [hdir.returned_eq, hdir.send_eq, hdir.sendNext_eq, segment_end, List.length_take]
  -- Only what was read is acknowledged, and only what is acknowledged is dropped.
  apply List.drop_suffix_drop_left
  have hle := hdir.recvNext_le.trans hdir.sendNext_eq.le
  exact le_min hdir.base_le (hdir.base_le.trans (hdir.recvBase_le.trans hle))

/-- Link 1 is dead before the last two bytes are read. -/
theorem unread_kept_severed :
    ∃ s, run System.step (.init maximumFrame 7) (replacedCarrier.take 34) = some s ∧
      (s.conn .responder).rx.returned = [10, 20] ∧ [30, 40] <:+ (s.conn .initiator).tx.send := by
  have hsend := unread_kept maximumFrame 7
    (reach_final (replacedCarrier.take 34) (by decide +kernel)) .initiator
  exact ⟨_, run_final .., by decide +kernel, .trans (by decide +kernel) hsend⟩

end System

end Paperboat.ResumableStream
