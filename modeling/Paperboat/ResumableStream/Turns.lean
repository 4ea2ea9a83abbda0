import Paperboat.ResumableStream.Shape
import Paperboat.ResumableStream.System

/-! The life of a carrier at one end: its reader takes one step at a time, and a link that
nobody handed over stays as it is. -/

namespace Paperboat.ResumableStream

namespace Conn

/-! ### Readers -/

section Reader

variable {c d : Conn} {i : Input} {l : Link}

/-- The link whose reader takes the step. -/
def Input.reads : Input → Option Link
  | .recv l _ | .recvErr l | .dispose l | .process l | .sent (.reader l)
  | .sendErr (.reader l) => some l
  | _ => none

/-- A step moves one reader at most, apart from the one it starts. -/
theorem Move.reader_eq (hs : Shape c) (hm : Move c i d) (l : Link) :
    (d.carrier l).reader = (c.carrier l).reader ∨ i.reads = some l ∨
      ((c.carrier l).reader = .idle ∧ (d.carrier l).reader = .reading) := by
  by_cases hread : i.reads = some l
  · exact .inr (.inl hread)
  cases hm with
  | @accepted l₀ _ _ _ hstate =>
    by_cases hl : l = l₀
    · subst hl
      refine .inr (.inr ⟨?_, by simp⟩)
      by_contra hne
      exact (hs.reading l hne).2 hstate
    · left; simp [hl]
  | answered | offered =>
    have hl : l ≠ _ := fun h => hread (congrArg some h.symm)
    left; simp [setCarrier_other _ _ hl, discardAcked]
  | readFrame | readLate | readBad | readErr | judgeAccept | judgeLate | ackEarly | disposeFault
  | processFault | dataKnown | dataTaken | ackTaken | finKnown | finTaken | finAckTaken
  | resetFinished | resetFatal | controlLate | commitAgain | commit | commitAck | confirm
  | discard | discardAck | commitAckSent | commitAckSentAgain | commitAckSendErr
  | discardAckSent | discardAckSendErr =>
    have hl : l ≠ _ := fun h => hread (congrArg some h.symm)
    left; simp [hl, discardAcked]
  | _ => left; simp

end Reader

/-! ### Links that were never handed over -/

section Unused

variable {c d : Conn} {i : Input} {l : Link}

/-- The link that the application hands over. -/
def Input.hands : Input → Option Link
  | .prepareCarrier l _ | .acceptCarrier l => some l
  | _ => none

/-- Nobody refers to a link that was never handed over. -/
theorem Shape.holds_unused (hs : Shape c) (hu : (c.carrier l).link = .unused) : c.holds l = false := by
  have hstate : (c.carrier l).state = .unset := by rw [hs.unused l hu]
  have ha : c.active ≠ some l := fun h => by simpa [hstate] using hs.active_state l h
  have hp : c.prepared ≠ some l := fun h => by simpa [hstate] using hs.prepared_state l h
  have hr : c.retained ≠ some l := fun h => by simpa [hstate] using hs.retained_state l h
  simp [holds, ha, hp, hr]

/-- A link stays unused until it is handed over. -/
theorem Move.unused (hs : Shape c) (hm : Move c i d) (hu : (c.carrier l).link = .unused)
    (hi : i.hands ≠ some l) : (d.carrier l).link = .unused := by
  have hcar := hs.unused l hu
  have hheld := hs.holds_unused hu
  have hstate : (c.carrier l).state = .unset := by rw [hcar]
  have htakes : c.call.takes ≠ some l := fun h => by
    simpa [hu] using congrArg (·.link) (hs.takes l h)
  have huses : c.call.uses ≠ some l := fun h => hs.uses l h hstate
  have hholds : ∀ {l'}, l = l' → c.holds l' = false := by rintro _ rfl; exact hheld
  have hreader : ∀ {l' r}, (c.carrier l').reader = r → r ≠ .idle → l ≠ l' := by
    rintro _ _ rfl hidle rfl
    exact hidle (by rw [hcar])
  cases hm with
  | prepareMisused | prepareRefused | prepare | acceptMisused | accept =>
    have hne : l ≠ _ := fun h => hi (by rw [h]; rfl)
    simpa [setLink, setCarrier_other _ _ hne, hne] using hu
  | answered hcall | offered hcall =>
    have hne : l ≠ _ := fun h => htakes (by rw [hcall, h]; rfl)
    simpa [setCarrier_other _ _ hne, discardAcked] using hu
  | prepareSendErr hcall | answerErr hcall | answerRefused hcall | offerErr hcall
  | offerRefused hcall =>
    have hne : l ≠ _ := fun h => htakes (by rw [hcall, h]; rfl)
    simp [hu, hne]
  | @readySendErr _ old _ hcall | @acceptGone _ old hcall | @accepted _ old hcall =>
    have hne : l ≠ _ := fun h => huses (by rw [hcall, h]; rfl)
    have hold : old ≠ some l := by
      rintro rfl
      simpa [hstate, CarrierState.settled] using hs.supersedes l (by rw [hcall]; rfl)
    simp [hu, hne, hold]
  | dropped hcall =>
    have hne : l ≠ _ := fun h => huses (by rw [hcall, h]; rfl)
    simp [hu, hne]
  | readLate hr | controlLate hr | discardAckSent hr | discardAckSendErr hr =>
    simp [hu, hreader hr (by simp)]
  | confirm | retired =>
    simp only [holds, Bool.or_eq_false_iff, decide_eq_false_iff_not] at hheld
    simp [hu, hheld.2]
  | @resetSent l' rest hc | @resetSendErr l' rest hc =>
    have hne : l ≠ l' := by
      rintro rfl
      exact hs.closing l (by rw [hc]; exact List.mem_cons_self) hstate
    simp [hu, hne]
  | expireFatal =>
    rw [carrier_failTerminal]
    exact (if_neg (by simpa [holds] using hheld)).trans hu
  | _ =>
    simp only [carrier_detachAll, carrier_detachForReset, carrier_failTerminal, carrier_failFrameProtocol,
      carrier_dropCarrier, carrier_setReader, carrier_setSender, carrier_setState, carrier_commitCarrier, hheld,
      discardAcked, hu, Bool.false_eq_true, if_false]
    try exact if_neg fun h => by simpa [hholds h.1] using h.2

end Unused

end Conn

/-! ### Both ends -/

namespace System

open Transition

variable {s s' : System} {a : Action} {l : Link}

theorem shape_init (window : ℕ) (identity : Digest) (r : Role) :
    ((init window identity).conn r).Shape := Conn.Shape.initial r window identity

theorem shape_step (h : ∀ r, (s.conn r).Shape) (hst : s.step a = some s') (r : Role) :
    (s'.conn r).Shape :=
  rel_step (fun c d => c.Shape → d.Shape) (fun _ => id) (fun hm hs => hs.move hm) hst r (h r)

def Action.hands : Action → Option Link
  | .act _ i => i.hands
  | _ => none

/-- Neither end was handed the link, and it carries nothing. -/
def Untouched (s : System) (l : Link) : Prop :=
  ∀ r, ((s.conn r).carrier l).link = .unused ∧ (s.chan l r).queue = []

instance (s : System) (l : Link) : Decidable (s.Untouched l) :=
  inferInstanceAs (Decidable (∀ _, _))

theorem untouched_init (window : ℕ) (identity : Digest) (l : Link) :
    (init window identity).Untouched l := fun _ => ⟨rfl, rfl⟩

theorem untouched_step (hs : ∀ r, (s.conn r).Shape) (hst : s.step a = some s')
    (ha : a.hands ≠ some l) (h : s.Untouched l) : s'.Untouched l := by
  have hlink : ∀ {q i d}, (s.conn q).step i = some d → i.hands ≠ some l → ∀ r,
      (((s.setConn q d).conn r).carrier l).link = .unused := by
    intro q i d hd hi r
    rw [conn_setConn]
    split
    · rename_i hq
      subst hq
      exact (Conn.move_of_step hd).unused (hs r) (h r).1 hi
    · exact (h r).1
  cases moved_of_step hst with
  | act _ hd => exact fun r => ⟨hlink hd ha r, (h r).2⟩
  | recvErr hd => exact fun r => ⟨hlink hd nofun r, (h r).2⟩
  | @send q t l' p d _ hl hd =>
    -- Only an open link is written to.
    have hne : l ≠ l' := by rintro rfl; rw [(h q).1] at hl; cases hl
    exact fun r => ⟨hlink hd nofun r, by simp [chan_setChan, hne, (h r).2]⟩
  | sendErr _ hd =>
    refine fun r => ⟨hlink hd nofun r, ?_⟩
    rw [chan_setChan]
    split
    · rename_i heq
      rw [Channel.breakOff_queue, ← heq.1, ← heq.2]
      exact (h r).2
    · exact (h r).2
  | @recv q l' p rest d hq _ hd =>
    have hne : l ≠ l' := by rintro rfl; rw [(h q.peer).2] at hq; cases hq
    exact fun r => ⟨hlink hd nofun r, by simp [chan_setChan, hne, (h r).2]⟩
  | lose =>
    refine fun r => ⟨(h r).1, ?_⟩
    rw [chan_setChan]
    split
    · rename_i heq
      rw [← heq.1, ← heq.2, Channel.lose, (h r).2, List.take_nil]
    · exact (h r).2

theorem untouched_run (hrun : run step s as = some s')
    (hs : ∀ r, (s.conn r).Shape) (h : s.Untouched l) (has : ∀ a ∈ as, a.hands ≠ some l) :
    s'.Untouched l := by
  induction as generalizing s with
  | nil => cases hrun; exact h
  | cons a as ih =>
    obtain ⟨t, ht, hrun⟩ := Option.bind_eq_some_iff.mp hrun
    have ha := has a List.mem_cons_self
    exact ih hrun (shape_step hs ht) (untouched_step hs ht ha h)
      fun b hb => has b (List.mem_cons_of_mem _ hb)

end System

end Paperboat.ResumableStream
