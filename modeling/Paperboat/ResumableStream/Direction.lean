import Paperboat.Lib.Segment
import Paperboat.ResumableStream.Conn

/-! One direction of the stream: the sending half of one end against the receiving
half of the other. `Direction` is the relation between the two counters, buffers and
FIN flags that no carrier can break, and `Sound` says which packets may be under way:
every DATA is a segment of what was written, every acknowledgement is covered by
what was read. -/

namespace Paperboat.ResumableStream

/-- The receiving half `rx` is a correct image of the sending half `tx`. -/
structure Direction (tx : SendHalf) (rx : RecvHalf) : Prop where
  sendNext_eq : tx.sendNext = tx.written.length
  send_eq : tx.send = segment tx.written tx.sendBase tx.sendNext
  base_le : tx.sendBase ≤ rx.recvBase
  recvBase_le : rx.recvBase ≤ rx.recvNext
  recvNext_le : rx.recvNext ≤ tx.sendNext
  returned_eq : rx.returned = tx.written.take rx.recvBase
  recv_eq : rx.recv = segment tx.written rx.recvBase rx.recvNext
  fin : rx.remoteFIN → tx.localFIN ∧ rx.remoteFINAt = tx.sendNext ∧ rx.recvNext = tx.sendNext
  eof : rx.readEOF → rx.remoteFIN ∧ rx.recvBase = rx.recvNext

/-- A packet that an end with the halves `tx` and `rx` may have written. -/
def Packet.Sound (tx : SendHalf) (rx : RecvHalf) : Packet → Prop
  | .hello h => h.ack ≤ rx.recvBase
  | .frame (.data sequence payload) =>
    payload = segment tx.written sequence (sequence + payload.length) ∧
      sequence + payload.length ≤ tx.sendNext
  | .frame (.ack sequence) => sequence ≤ rx.recvBase
  | .frame (.fin sequence) => tx.localFIN ∧ sequence = tx.sendNext
  | .frame (.finAck sequence) => rx.remoteFIN ∧ sequence = rx.remoteFINAt
  | .frame _ => True

/-- What the halves of one end never take back. -/
structure Grows (tx tx' : SendHalf) (rx rx' : RecvHalf) : Prop where
  written : tx.written <+: tx'.written
  sendBase : tx.sendBase ≤ tx'.sendBase
  sendNext : tx.sendNext ≤ tx'.sendNext
  localFIN : tx.localFIN → tx'.localFIN ∧ tx'.sendNext = tx.sendNext
  finAcked : tx.finAcked → tx'.finAcked
  recvBase : rx.recvBase ≤ rx'.recvBase
  recvNext : rx.recvNext ≤ rx'.recvNext
  remoteFIN : rx.remoteFIN → rx'.remoteFIN ∧ rx'.remoteFINAt = rx.remoteFINAt

variable {tx tx' : SendHalf} {rx rx' : RecvHalf}

theorem Grows.refl (tx : SendHalf) (rx : RecvHalf) : Grows tx tx rx rx where
  written := List.prefix_rfl
  sendBase := le_rfl
  sendNext := le_rfl
  localFIN h := ⟨h, rfl⟩
  finAcked h := h
  recvBase := le_rfl
  recvNext := le_rfl
  remoteFIN h := ⟨h, rfl⟩

/-- A packet stays sound while its writer's halves grow. -/
theorem Packet.Sound.mono {p : Packet} (hp : p.Sound tx rx) (hg : Grows tx tx' rx rx')
    (hlen : tx.sendNext = tx.written.length) : p.Sound tx' rx' := by
  match p, hp with
  | .hello h, hp => exact le_trans hp hg.recvBase
  | .frame (.data sequence payload), ⟨hpay, hend⟩ =>
    refine ⟨?_, hend.trans hg.sendNext⟩
    rw [segment_grow hg.written (hlen ▸ hend)]
    exact hpay
  | .frame (.ack sequence), hp => exact le_trans hp hg.recvBase
  | .frame (.fin sequence), ⟨hfin, hseq⟩ =>
    obtain ⟨hfin', hnext⟩ := hg.localFIN hfin
    exact ⟨hfin', hseq.trans hnext.symm⟩
  | .frame (.finAck sequence), ⟨hfin, hseq⟩ =>
    obtain ⟨hfin', hat⟩ := hg.remoteFIN hfin
    exact ⟨hfin', hseq.trans hat.symm⟩
  | .frame .reset, _ | .frame (.commit _), _ | .frame (.commitAck _), _
  | .frame (.confirm _), _ | .frame (.discard _), _ | .frame (.discardAck _), _ => trivial

namespace Direction

theorem initial : Direction {} {} where
  sendNext_eq := rfl
  send_eq := rfl
  base_le := le_rfl
  recvBase_le := le_rfl
  recvNext_le := le_rfl
  returned_eq := rfl
  recv_eq := rfl
  fin h := by contradiction
  eof h := by contradiction

variable (h : Direction tx rx)

include h

theorem base_le_next : tx.sendBase ≤ tx.sendNext :=
  h.base_le.trans (h.recvBase_le.trans h.recvNext_le)

theorem recvNext_le_length : rx.recvNext ≤ tx.written.length := h.sendNext_eq ▸ h.recvNext_le

theorem recv_length : rx.recv.length = rx.recvNext - rx.recvBase := by
  rw [h.recv_eq, segment_length h.recvNext_le_length]

/-- What was read is a prefix of what was written. -/
theorem returned_isPrefix : rx.returned <+: tx.written := by
  rw [h.returned_eq]
  exact List.take_prefix ..

/-- The end of the stream is reported only after all of it was read. -/
theorem eof_complete (heof : rx.readEOF) : tx.localFIN ∧ rx.returned = tx.written := by
  obtain ⟨hfin, hall⟩ := h.eof heof
  obtain ⟨hlocal, -, hnext⟩ := h.fin hfin
  refine ⟨hlocal, ?_⟩
  rw [h.returned_eq, hall, hnext, h.sendNext_eq, List.take_length]

/-! ### Steps of the sending half -/

theorem write (hfin : tx.localFIN = false) (chunk : List Byte) :
    Direction { tx with
      send := tx.send ++ chunk, sendNext := tx.sendNext + chunk.length,
      written := tx.written ++ chunk } rx := by
  have hnext := h.sendNext_eq
  have hrecv := h.recvNext_le_length
  have hpre : tx.written <+: tx.written ++ chunk := List.prefix_append ..
  refine ⟨by simp [hnext], ?_, h.base_le, h.recvBase_le, ?_, ?_, ?_, fun hf => ?_, h.eof⟩
  · have hbase : tx.sendBase ≤ tx.written.length := hnext ▸ h.base_le_next
    have hlen : tx.sendNext + chunk.length = (tx.written ++ chunk).length := by simp [hnext]
    show tx.send ++ chunk = segment (tx.written ++ chunk) tx.sendBase (tx.sendNext + chunk.length)
    rw [hlen, segment_append_end hbase, ← hnext, ← h.send_eq]
  · exact h.recvNext_le.trans (Nat.le_add_right ..)
  · show rx.returned = (tx.written ++ chunk).take rx.recvBase
    rw [List.take_append_of_le_length (h.recvBase_le.trans hrecv), h.returned_eq]
  · show rx.recv = segment (tx.written ++ chunk) rx.recvBase rx.recvNext
    rw [segment_grow hpre hrecv, h.recv_eq]
  · rw [(h.fin hf).1] at hfin
    contradiction

/-- Only the stream and its FIN flag matter, not who was told about them. -/
theorem congr (hbase : tx'.sendBase = tx.sendBase) (hnext : tx'.sendNext = tx.sendNext)
    (hsend : tx'.send = tx.send) (hw : tx'.written = tx.written)
    (hfin : tx.localFIN → tx'.localFIN) : Direction tx' rx := by
  refine ⟨?_, ?_, ?_, h.recvBase_le, ?_, ?_, ?_, fun hf => ?_, h.eof⟩
  · rw [hnext, hw, h.sendNext_eq]
  · rw [hsend, hw, hbase, hnext, h.send_eq]
  · rw [hbase]; exact h.base_le
  · rw [hnext]; exact h.recvNext_le
  · rw [hw]; exact h.returned_eq
  · rw [hw]; exact h.recv_eq
  · obtain ⟨hl, hat, hn⟩ := h.fin hf
    exact ⟨hfin hl, hat.trans hnext.symm, hn.trans hnext.symm⟩

theorem discardAcked (ho : offset ≤ rx.recvBase) : Direction (tx.discardAcked offset) rx := by
  unfold SendHalf.discardAcked
  split
  · exact h
  · rename_i hlt
    refine { h with base_le := ho, send_eq := ?_ }
    show tx.send.drop (offset - tx.sendBase) = segment tx.written offset tx.sendNext
    rw [h.send_eq, segment_drop, Nat.add_sub_cancel' (Nat.le_of_not_le hlt)]

/-- A frame cut from the send buffer is a segment of the stream. -/
theorem chunk_sound (rx' : RecvHalf) (hbase : tx.sendBase ≤ offset) (hnext : offset ≤ tx.sendNext) :
    (Packet.frame (.data offset ((tx.send.drop (offset - tx.sendBase)).take n))).Sound tx rx' := by
  have hcut : (tx.send.drop (offset - tx.sendBase)).take n =
      segment tx.written offset (min (offset + n) tx.sendNext) := by
    rw [h.send_eq, segment_drop, Nat.add_sub_cancel' hbase, segment_take]
  have hlen : ((tx.send.drop (offset - tx.sendBase)).take n).length =
      min (offset + n) tx.sendNext - offset := by
    rw [hcut, segment_length ((Nat.min_le_right ..).trans h.sendNext_eq.le)]
  have hend : offset + (min (offset + n) tx.sendNext - offset) = min (offset + n) tx.sendNext := by
    omega
  refine ⟨?_, ?_⟩
  · rw [hlen, hend, hcut]
  · rw [hlen, hend]
    exact Nat.min_le_right ..

/-! ### Steps of the receiving half -/

theorem read (size : ℕ) :
    Direction tx { rx with
      recv := rx.recv.drop size, recvBase := rx.recvBase + (rx.recv.take size).length,
      returned := rx.returned ++ rx.recv.take size } := by
  have hchunk : (rx.recv.take size).length = min size (rx.recvNext - rx.recvBase) := by
    rw [List.length_take, h.recv_length]
  have hle := h.recvBase_le
  have hbase : rx.recvBase + (rx.recv.take size).length = min (rx.recvBase + size) rx.recvNext := by
    omega
  refine ⟨h.sendNext_eq, h.send_eq, h.base_le.trans (Nat.le_add_right ..), ?_, h.recvNext_le,
    ?_, ?_, h.fin, fun he => ?_⟩
  · show rx.recvBase + (rx.recv.take size).length ≤ rx.recvNext
    omega
  · show rx.returned ++ rx.recv.take size = tx.written.take (rx.recvBase + (rx.recv.take size).length)
    rw [hbase, h.recv_eq, segment_take, h.returned_eq, ← segment_zero, ← segment_zero,
      segment_append (Nat.zero_le _) (by omega)]
  · show rx.recv.drop size = segment tx.written (rx.recvBase + (rx.recv.take size).length) rx.recvNext
    rw [hbase, h.recv_eq, segment_drop]
    rcases Nat.le_total (rx.recvBase + size) rx.recvNext with hs | hs
    · rw [Nat.min_eq_left hs]
    · rw [Nat.min_eq_right hs, segment_self]
      exact List.drop_eq_nil_of_le ((List.length_take_le ..).trans hs)
  · obtain ⟨hf, heq⟩ := h.eof he
    refine ⟨hf, ?_⟩
    show rx.recvBase + (rx.recv.take size).length = rx.recvNext
    omega

theorem readEOF (hrecv : rx.recv = []) (hfin : rx.remoteFIN) :
    Direction tx { rx with readEOF := true } := by
  refine { h with eof := fun _ => ⟨hfin, ?_⟩ }
  have hlen := h.recv_length
  have hle := h.recvBase_le
  rw [hrecv, List.length_nil] at hlen
  show rx.recvBase = rx.recvNext
  omega

/-- A DATA frame that starts inside what was received and ends after it. -/
theorem data {sequence : ℕ} {payload : List Byte}
    (hp : (Packet.frame (.data sequence payload)).Sound tx rx') (hseq : sequence ≤ rx.recvNext)
    (hend : rx.recvNext < sequence + payload.length) :
    Direction tx { rx with
      recv := rx.recv ++ payload.drop (rx.recvNext - sequence),
      recvNext := sequence + payload.length } := by
  obtain ⟨hpay, hle⟩ := hp
  -- A finished stream has nothing after `recvNext`.
  have hopen : ¬ rx.remoteFIN := fun hf => by
    have := (h.fin hf).2.2
    omega
  refine ⟨h.sendNext_eq, h.send_eq, h.base_le, ?_, hle, h.returned_eq, ?_,
    fun hf => absurd hf hopen, fun he => absurd (h.eof he).1 hopen⟩
  · exact h.recvBase_le.trans hend.le
  · show rx.recv ++ payload.drop (rx.recvNext - sequence) =
      segment tx.written rx.recvBase (sequence + payload.length)
    rw [h.recv_eq, hpay, segment_drop, Nat.add_sub_cancel' hseq, ← hpay,
      segment_append h.recvBase_le hend.le]

theorem remoteFIN (hfin : tx.localFIN) (hnext : rx.recvNext = tx.sendNext) :
    Direction tx { rx with remoteFIN := true, remoteFINAt := tx.sendNext } :=
  { h with
    fin := fun _ => ⟨hfin, rfl, hnext⟩
    eof := fun he => ⟨rfl, (h.eof he).2⟩ }

end Direction

end Paperboat.ResumableStream
