import Paperboat.Paste.Interceptor

/-! Ordinary bytes reach `dest` in the order of the calls to `Write`. A chunk on its way
is in the input channel or in the hand of the worker, and `queued` counts it from before
it is sent to when the worker owns it. `Write` may pass the channel by when the count is
zero. The worker counts a chunk off inside its section of `stateMu`, except on behalf of
an upload, where it counts first and locks later. -/

namespace Paperboat.Paste

open Transition

/-- The bytes `Write` has yet to send. -/
def Writer.left : Writer → Bytes
  | .idle => []
  | .direct p | .queueing p => p
  | .sending chunk rest => chunk ++ rest

/-- How many chunks `Write` has counted and not sent. -/
def Writer.counted : Writer → ℕ
  | .sending _ _ => 1
  | _ => 0

/-- The chunk the worker has read and the stream has not. -/
def Worker.inHand : Worker → Bytes
  | .received p | .drainReceived _ p | .drainCounted _ p => p
  | _ => []

/-- How many chunks the worker has read and not counted off. -/
def Worker.uncounted : Worker → ℕ
  | .received _ | .drainReceived _ _ => 1
  | .coalesce n => n
  | _ => 0

/-- The worker has counted off a chunk that the stream does not have. -/
def Worker.carries : Worker → Bool
  | .drainCounted _ _ => true
  | _ => false

@[simp] theorem Writer.left_loop (p : Bytes) : (loop p).left = p := by
  unfold loop
  split
  next h => exact h.symm
  next => rfl

@[simp] theorem Writer.counted_loop (p : Bytes) : (loop p).counted = 0 := by
  unfold loop
  split <;> rfl

theorem Writer.loop_ne_direct (p q : Bytes) : loop p ≠ direct q := by
  unfold loop
  split <;> exact nofun

theorem Worker.inHand_eq_nil {w : Worker} (hu : w.uncounted = 0) (hc : w.carries = false) :
    w.inHand = [] := by
  cases w with
  | received | drainReceived => cases hu
  | drainCounted => cases hc
  | _ => rfl

namespace Interceptor

@[simp] theorem inHand_proceed (s : Interceptor) : s.proceed.worker.inHand = [] := by
  unfold proceed
  split <;> rfl

@[simp] theorem uncounted_proceed (s : Interceptor) : s.proceed.worker.uncounted = 0 := by
  unfold proceed
  split <;> rfl

/-- No direct write while the worker carries a chunk. -/
def Patient (s : Interceptor) (a : Action) : Prop :=
  a = .writeDirect → s.worker.carries = false

instance (s : Interceptor) (a : Action) : Decidable (Patient s a) :=
  inferInstanceAs (Decidable (_ → _))

/-- The ordinary bytes in `dest` are those of a front part of the input, in order. -/
def InOrder (s : Interceptor) : Prop :=
  ∃ pieces rest, bytesOf pieces ++ rest = s.written ∧ plainOf s.stream.dest = plainOf pieces ∧
    pastesOf pieces = s.stream.uploads

/-- What follows the bytes of the stream in the input. -/
def onTheWay (s : Interceptor) : Bytes :=
  s.worker.inHand ++ (s.input.flatten ++ s.writer.left)

structure Ordered (s : Interceptor) : Prop where
  accounts : ∃ t, s.stream.Accounts t ∧ t ++ s.onTheWay = s.written
  counted : s.queued = s.input.length + s.worker.uncounted + s.writer.counted
  gate : ∀ p, s.writer = .direct p → s.queued = 0

variable {o : Options} {s s' : Interceptor} {a : Action}

theorem Ordered.inOrder (h : Ordered s) : InOrder s := by
  obtain ⟨t, ⟨pieces, ht, hp, hu⟩, hw⟩ := h.accounts
  exact ⟨pieces, s.stream.withheld ++ s.onTheWay, by rw [← List.append_assoc, ht, hw], hp.symm, hu⟩

/-- Nothing is on the way when a direct write that waited for the worker is at its turn. -/
theorem Ordered.onTheWay_direct {p : Bytes} (h : Ordered s) (hw : s.writer = .direct p)
    (hc : s.worker.carries = false) : s.onTheWay = p := by
  have hq : (0 : ℤ) = s.input.length + s.worker.uncounted + s.writer.counted :=
    (h.gate p hw).symm.trans h.counted
  have hi : s.input = [] := List.eq_nil_of_length_eq_zero (by omega)
  have hh : s.worker.inHand = [] := Worker.inHand_eq_nil (by omega) hc
  simp [onTheWay, hi, hh, hw, Writer.left]

/-- A batch ends with nothing in the worker's hand. -/
theorem onTheWay_proceed (hw : s.worker.inHand = [])
    (he : t ++ s.onTheWay = s.written) : t ++ s.proceed.onTheWay = s.written := by
  rw [onTheWay, hw] at he
  rw [onTheWay, inHand_proceed]
  exact he

theorem Ordered.accounts_step (h : Ordered s) (hp : Patient s a) (hm : Moved o s a s') :
    ∃ t, s'.stream.Accounts t ∧ t ++ s'.onTheWay = s'.written := by
  obtain ⟨t, ht, he⟩ := h.accounts
  cases hm with
  | refuse | finish | close => exact ⟨t, ht, he⟩
  | @write p w hw hc hd =>
    refine ⟨t, ht, ?_⟩
    have hleft : w.left = p := by
      rcases hd with ⟨rfl, -⟩ | rfl
      · rfl
      · exact Writer.left_loop p
    dsimp only [onTheWay]
    rw [hleft, ← he, onTheWay, hw]
    simp [Writer.left]
  | @writeDirect p hw hl hord =>
    -- With nothing on the way, and nothing withheld, the bytes are next.
    have hway := h.onTheWay_direct hw (hp rfl)
    refine ⟨t ++ p, ht.writeDest (Stream.withheld_of_ordinary hord), ?_⟩
    rw [hway] at he
    rw [onTheWay, hw, Writer.left, ← List.append_assoc] at hway
    have hnil : s.worker.inHand ++ s.input.flatten = [] := List.append_left_eq_self.mp hway
    dsimp only [onTheWay]
    rw [← List.append_assoc s.worker.inHand, hnil]
    simpa [Writer.left] using he
  | fallBack hw | countChunk hw | sendChunk hw =>
    refine ⟨t, ht, ?_⟩
    simp only [onTheWay, hw, Writer.left_loop] at he ⊢
    simpa [Writer.left] using he
  | flushTimer => exact ⟨t, ht.flushPartial, he⟩
  | receive hw hi | drainReceive hw hi =>
    exact ⟨t, ht, by simpa [onTheWay, hw, hi, Worker.inHand] using he⟩
  | receiveClosed hw => exact ⟨t, ht.flush, onTheWay_proceed (by rw [hw]; rfl) he⟩
  | lock hw => exact ⟨_, ht.append, by simpa [onTheWay, hw, Worker.inHand] using he⟩
  | coalesce hw hi => exact ⟨_, ht.append, by simpa [onTheWay, hw, hi, Worker.inHand] using he⟩
  | endBatch hw => exact ⟨t, ht.drain, onTheWay_proceed (by rw [hw]; rfl) he⟩
  | endLastBatch hw => exact ⟨t, ht.drain.flush, onTheWay_proceed (by rw [hw]; rfl) he⟩
  | receiveCompletion hw | drainCount hw | drainEnd hw =>
    exact ⟨t, ht, by simpa [onTheWay, hw, Worker.inHand] using he⟩
  | drainAppend hw =>
    exact ⟨_, ht.append.drain, by simpa [onTheWay, hw, Worker.inHand] using he⟩
  | publish => exact ⟨t, ht.publish, he⟩
  | published hw => exact ⟨t, ht, onTheWay_proceed (by rw [hw]; rfl) he⟩

theorem counted_proceed (hq : s.queued = s.input.length + s.writer.counted) :
    s.proceed.queued = s.proceed.input.length + s.proceed.worker.uncounted +
      s.proceed.writer.counted := by
  change s.queued = s.input.length + s.proceed.worker.uncounted + s.writer.counted
  rw [uncounted_proceed]
  omega

theorem Ordered.counted_step (h : Ordered s) (hm : Moved o s a s') :
    s'.queued = s'.input.length + s'.worker.uncounted + s'.writer.counted := by
  have hq := h.counted
  cases hm with
  | refuse | finish | close | flushTimer | publish => exact hq
  | @write p w hw hc hd =>
    have hleft : w.counted = 0 := by
      rcases hd with ⟨rfl, -⟩ | rfl
      · rfl
      · exact Writer.counted_loop p
    rw [hleft]
    simpa [hw, Writer.counted] using hq
  | writeDirect hw => simpa [hw, Writer.counted] using hq
  | fallBack hw =>
    rw [Writer.counted_loop]
    simpa [hw, Writer.counted] using hq
  | countChunk hw =>
    simp only [hw, Writer.counted] at hq ⊢
    omega
  | sendChunk hw =>
    simp only [hw, Writer.counted] at hq
    simp only [Writer.counted_loop, List.length_append, List.length_singleton]
    omega
  | receive hw hi | drainReceive hw hi | coalesce hw hi =>
    simp only [hw, hi, Worker.uncounted, List.length_cons] at hq ⊢
    omega
  | lock hw | receiveCompletion hw | drainAppend hw | drainEnd hw =>
    simpa [hw, Worker.uncounted] using hq
  | drainCount hw =>
    simp only [hw, Worker.uncounted] at hq ⊢
    omega
  | receiveClosed hw | published hw =>
    exact counted_proceed (by simpa [hw, Worker.uncounted] using hq)
  | @endBatch n hw | @endLastBatch n hw =>
    simp only [hw, Worker.uncounted] at hq
    have hz : s.queued - n = s.input.length + s.writer.counted := by omega
    exact counted_proceed (s := { s with queued := s.queued - n, stream := _, inputClosed := _ }) hz

/-- A step that leaves the caller at the gate leaves the count at zero. -/
theorem Ordered.gate_step (h : Ordered s) (hm : Moved o s a s') (p : Bytes)
    (hw' : s'.writer = .direct p) : s'.queued = 0 := by
  have hgate : s.writer = .direct p → s.queued = 0 := h.gate p
  have hq := h.counted
  cases hm with
  | refuse | finish | close | flushTimer | publish | receive | drainReceive | coalesce | lock
  | receiveCompletion | drainAppend | drainEnd | receiveClosed | published => exact hgate hw'
  | @write q w hw hc hd =>
    rcases hd with ⟨-, hz⟩ | rfl
    · exact hz
    · exact (Writer.loop_ne_direct _ _ hw').elim
  | writeDirect | countChunk => cases hw'
  | fallBack | sendChunk => exact (Writer.loop_ne_direct _ _ hw').elim
  | drainCount hw =>
    have hz := hgate hw'
    simp only [hw, Worker.uncounted] at hq
    omega
  | @endBatch n hw | @endLastBatch n hw =>
    have hz := hgate hw'
    simp only [hw, Worker.uncounted] at hq
    change s.queued - n = 0
    omega

theorem Ordered.step (h : Ordered s) (hp : Patient s a) (hst : s.step o a = some s') :
    Ordered s' where
  accounts := h.accounts_step hp (moved_of_step hst)
  counted := h.counted_step (moved_of_step hst)
  gate := h.gate_step (moved_of_step hst)

theorem ordered_init : Ordered {} where
  accounts := ⟨[], Stream.accounts_empty, rfl⟩
  counted := rfl
  gate p h := by cases h

theorem ordered_of_reach (h : Reach (step o) Patient {} s) : Ordered s :=
  h.invariant ordered_init fun hx hp hst => hx.step hp hst

/-- Ordinary bytes reach `dest` in the order of the calls to `Write`, as long as no
direct write runs while the worker carries a chunk that it has counted off. -/
theorem ordinary_bytes_in_order (o : Options) (h : Reach (step o) Patient {} s) : InOrder s :=
  (ordered_of_reach h).inOrder

namespace Demo

/-- Every paste names files and is uploaded. -/
def options (directInput : Bool) : Options where
  directInput := directInput
  policy _ _ := true

def letter : Bytes := [0x61]

/-- A paste is read by the worker and its upload started. -/
def upload : List Action := [.countChunk, .sendChunk, .receive, .lock, .endBatch]

/-- Behind a paste comes a lone ESC, which the worker reads on behalf of the upload. It
has counted the ESC off when the next key is written. -/
def overtaking : List Action :=
  [.write (framed letter), .writeDirect] ++ upload ++
  [.write [0x1b], .writeDirect, .countChunk, .sendChunk, .finish 0 none, .receiveCompletion,
    .drainReceive, .drainCount, .write [0x78], .writeDirect]

theorem overtaking_run :
    ((run (step (options true)) {} overtaking).map fun s =>
      (s.written, plainOf s.stream.dest, s.stream.uploads)) =
      some (framed letter ++ [0x1b, 0x78], [0x78], [letter]) := by
  decide +kernel

/-- The key overtakes the ESC. -/
theorem direct_input_overtakes :
    ¬ ∀ (o : Options) (s : Interceptor), Reach (step o) Always {} s → InOrder s := by
  intro hall
  obtain ⟨s, hrun, hs⟩ := Option.map_eq_some_iff.mp overtaking_run
  simp only [Prod.mk.injEq] at hs
  obtain ⟨hwritten, hdest, huploads⟩ := hs
  obtain ⟨pieces, rest, hb, hp, hu⟩ := hall _ s (reach_of_run _ hrun)
  rw [huploads] at hu
  obtain ⟨l, r, hlr, hplain⟩ := bytesOf_of_pastesOf_eq_singleton hu
  rw [hlr, hwritten] at hb
  rw [hdest, hplain] at hp
  -- The key stands before the paste or after it, and the ESC in neither place.
  rcases List.append_eq_singleton_iff.mp hp.symm with ⟨rfl, rfl⟩ | ⟨rfl, rfl⟩
  · simp [framed] at hb
  · simp [framed, startMarker] at hb

/-- Keys go straight through while the upload runs, and wait behind an ESC that the
worker has taken in. -/
def waiting : List Action :=
  [.write (framed letter), .writeDirect] ++ upload ++
  [.write [0x78], .writeDirect, .write [0x1b], .writeDirect, .countChunk, .sendChunk,
    .finish 0 none, .receiveCompletion, .drainReceive, .drainCount, .drainAppend,
    .write [0x79], .writeDirect, .countChunk, .sendChunk, .drainReceive, .drainCount,
    .drainAppend]

theorem waiting_run :
    ((runChecked (step (options true)) Patient {} waiting).map fun s =>
      plainOf s.stream.dest) = some [0x78, 0x1b, 0x79] := by
  decide +kernel

theorem ordinary_bytes_in_order_waiting :
    ∃ s, Reach (step (options true)) Patient {} s ∧
      plainOf s.stream.dest = [0x78, 0x1b, 0x79] ∧ InOrder s := by
  obtain ⟨s, hrun, hs⟩ := Option.map_eq_some_iff.mp waiting_run
  have hreach := reach_of_runChecked _ hrun
  exact ⟨s, hreach, hs, ordinary_bytes_in_order _ hreach⟩

end Demo

end Interceptor

end Paperboat.Paste
