import Mathlib.Tactic

/-! Wire vocabulary of the resumable stream: frames, the two hellos of a carrier
handshake, and the states of a carrier. Offsets and epochs are natural numbers;
a stream would have to carry `2 ^ 64` bytes before the source's counters wrap.
Carrier ids and identity digests are their bytes read as numbers, the zero id is
`0`. -/

namespace Paperboat.ResumableStream

abbrev Byte := UInt8

abbrev CarrierID := ℕ

abbrev Digest := ℕ

/-- The name of a physical link, one `net.Conn` at each end. -/
abbrev Link := ℕ

def maximumFrame : ℕ := 32 * 2 ^ 10

/-- The largest epoch, `^uint64(0)`. -/
def maximumEpoch : ℕ := 2 ^ 64 - 1

inductive Role where
  | initiator | responder
  deriving DecidableEq, Repr

instance : Fintype Role := ⟨{.initiator, .responder}, fun r => by cases r <;> decide⟩

def Role.peer : Role → Role
  | .initiator => .responder
  | .responder => .initiator

@[simp] theorem Role.peer_peer (r : Role) : r.peer.peer = r := by cases r <;> rfl

@[simp] theorem Role.peer_ne (r : Role) : r.peer ≠ r := by cases r <;> decide

inductive Frame where
  | data (sequence : ℕ) (payload : List Byte)
  | ack (sequence : ℕ)
  | fin (sequence : ℕ)
  | reset
  | finAck (sequence : ℕ)
  | commit (sequence : ℕ)
  | commitAck (sequence : ℕ)
  | confirm (sequence : ℕ)
  | discard (sequence : ℕ)
  | discardAck (sequence : ℕ)
  deriving DecidableEq, Repr

/-- `readFrame` refuses a payload above the frame limit. -/
def Frame.wellFormed : Frame → Bool
  | .data _ payload => payload.length ≤ maximumFrame
  | _ => true

inductive HelloKind where
  | prepare | ready
  deriving DecidableEq, Repr

structure Hello where
  kind : HelloKind
  digest : Digest
  carrier : CarrierID
  epoch : ℕ
  committedEpoch : ℕ
  ack : ℕ
  fin : Bool
  finOffset : ℕ
  deriving DecidableEq, Repr

/-- `readHello` refuses a zero carrier id and a zero epoch. -/
def Hello.wellFormed (h : Hello) : Bool := h.carrier != 0 && h.epoch != 0

inductive Packet where
  | hello (h : Hello)
  | frame (f : Frame)

/-- `unset` is the zero value, the state of a link that has no carrier yet. -/
inductive CarrierState where
  | unset | provisional | prepared | committing | active | retained | superseded | failed
  deriving DecidableEq, Repr

inductive Disposition where
  | reject | accept | ignoreLate
  deriving DecidableEq, Repr

structure CarrierHandle where
  id : CarrierID
  epoch : ℕ

/-- The stages under which `failFrameProtocol` ends the stream. -/
inductive Stage where
  | dataCarrierNotApplication | dataSequenceGap | dataWindowExceeded | ackBeyondSendNext
  | finCarrierNotApplication | finSequenceMismatch | finAckCarrierNotApplication
  | finAckStateMismatch | commitShapeOrRole | commitCarrierNotPrepared | commitAckShapeOrRole
  | commitAckCarrierNotCommitting | confirmShapeOrRole | discardShapeOrRole
  | discardCarrierNotPrepared | discardAckShapeOrRole | discardAckCarrierNotPrepared

end Paperboat.ResumableStream
