import Paperboat.Paste.Order

/-! What the interceptor has written once `Close` returns. Bytes are neither lost nor
duplicated if the stream withholds nothing when the worker learns of the close on behalf
of an upload: of the three places where it may find the channel closed, that is the one
that does not flush. -/

namespace Paperboat.Paste

open Transition

namespace Interceptor

/-- The uploads fail, or leave the paste as it is. -/
def Unrewritten : Action → Prop
  | .finish _ rewritten => rewritten = none
  | _ => True

instance (a : Action) : Decidable (Unrewritten a) := by
  unfold Unrewritten
  split <;> infer_instance

/-- The completion branch does not find the channel closed while bytes are withheld. -/
def Flushed (s : Interceptor) (a : Action) : Prop :=
  a = .drainEnd → s.inputClosed = false → s.closed = true → s.stream.withheld = []

instance (s : Interceptor) (a : Action) : Decidable (Flushed s a) :=
  inferInstanceAs (Decidable (_ → _))

/-- The steps of the runs that lose nothing. -/
def Careful (s : Interceptor) (a : Action) : Prop :=
  Unrewritten a ∧ Patient s a ∧ Flushed s a

instance (s : Interceptor) (a : Action) : Decidable (Careful s a) :=
  inferInstanceAs (Decidable (_ ∧ _))

/-- `dest` has the input with the uploaded pastes in other places: the rest of the input in
order, and every upload once and in order. Without uploads it has the input. -/
structure Transparent (s : Interceptor) : Prop where
  pieces : ∃ pieces, bytesOf pieces = s.written ∧ plainOf s.stream.dest = plainOf pieces ∧
    pastesOf s.stream.dest = pastesOf pieces ∧ pastesOf pieces = s.stream.uploads
  unchanged : s.stream.uploads = [] → bytesOf s.stream.dest = s.written

/-- The completions that are not written yet. -/
def outstanding (s : Interceptor) : List Completion :=
  s.completed ++ s.completionBuffer ++
    match s.worker with
    | .drainAccepted c | .drainReceived c _ | .drainCounted c _ => [c]
    | _ => []

/-- The uploads: those before `nextCompletion` are written, the others pending. -/
structure Published (s : Interceptor) : Prop where
  written : pastesOf s.stream.dest = s.stream.uploads.take s.nextCompletion
  pending : s.stream.pendingUploads + s.nextCompletion = s.stream.uploads.length
  outstanding : ∀ c ∈ s.outstanding, s.stream.uploads[c.seq]? = some c.body

variable {o : Options} {s s' : Interceptor} {a : Action}

/-- A section of `stateMu` may start uploads. -/
theorem Published.grow (h : Published s) (hg : s.stream.Grows s'.stream)
    (hn : s'.nextCompletion = s.nextCompletion) (hc : ∀ c ∈ s'.outstanding, c ∈ s.outstanding) :
    Published s' := by
  obtain ⟨more, hu, hp, hd⟩ := hg
  have hpend := h.pending
  constructor
  · rw [hd, h.written, hu, hn, List.take_append_of_le_length (by omega)]
  · rw [hu, hp, hn, List.length_append]
    omega
  · intro c hmem
    have hold := h.outstanding c (hc c hmem)
    have hlt := (List.getElem?_eq_some_iff.mp hold).1
    rw [hu, List.getElem?_append_left hlt, hold]

theorem Published.publish (h : Published s) (hw : s.worker = .publish)
    (hc : c ∈ s.completionBuffer) (hs : c.seq = s.nextCompletion) :
    Published { s with
      completionBuffer := s.completionBuffer.filter (·.seq ≠ s.nextCompletion)
      nextCompletion := s.nextCompletion + 1
      stream := s.stream.publish c.body } := by
  have hpend := h.pending
  have hbody : s.stream.uploads[s.nextCompletion]? = some c.body :=
    hs ▸ h.outstanding c (by simp [Interceptor.outstanding, hc])
  obtain ⟨hlt, hget⟩ := List.getElem?_eq_some_iff.mp hbody
  constructor
  · simp [Stream.publish, h.written, List.take_add_one, hbody]
  · simp only [Stream.publish]
    omega
  · intro d hd
    simp only [Interceptor.outstanding, hw, List.append_nil, List.mem_append,
      List.mem_filter] at hd
    refine h.outstanding d ?_
    simp only [Interceptor.outstanding, List.mem_append]
    exact .inl (hd.imp_right And.left)

@[simp] theorem outstanding_rearmFlush (s : Interceptor) : (rearmFlush o s).outstanding = s.outstanding :=
  rfl

@[simp] theorem outstanding_proceed (s : Interceptor) :
    s.proceed.outstanding = s.completed ++ s.completionBuffer := by
  unfold proceed Interceptor.outstanding
  split_ifs <;> exact List.append_nil _

theorem Published.step (h : Published s) (hu : Unrewritten a) (hm : Moved o s a s') : Published s' := by
  have hsame : ∀ {c : Completion}, c ∈ s.completed ∨ c ∈ s.completionBuffer →
      c ∈ s.outstanding :=
    fun hc => List.mem_append_left _ (List.mem_append.mpr hc)
  cases hm with
  | refuse | write | fallBack | countChunk | sendChunk | close => exact ⟨h.1, h.2, h.3⟩
  | writeDirect => exact h.grow (Stream.grows_writeDest ..) rfl fun _ hc => hc
  | flushTimer => exact h.grow (Stream.grows_flushPartial _) rfl fun _ hc => hc
  | @finish seq rewritten body hb =>
    refine ⟨h.written, h.pending, fun c hc => ?_⟩
    simp only [Interceptor.outstanding, List.mem_append, List.mem_singleton] at hc
    have hnone : rewritten = none := hu
    rcases hc with ((hc | rfl) | hc) | hc
    · exact h.outstanding c (by simp [Interceptor.outstanding, hc])
    · rw [hnone]
      exact hb
    · exact h.outstanding c (by simp [Interceptor.outstanding, hc])
    · exact h.outstanding c (List.mem_append_right _ hc)
  | receive hw => exact h.grow (.refl _) rfl fun _ hc => by simpa [Interceptor.outstanding, hw] using hc
  | lock hw | coalesce hw =>
    exact h.grow (.of_eq rfl rfl rfl) rfl fun _ hc => by
      simpa [Interceptor.outstanding, hw] using hc
  | receiveClosed =>
    exact h.grow (Stream.grows_flush _) rfl fun _ hc => hsame (by simpa using hc)
  | endBatch =>
    exact h.grow (Stream.grows_drain _) rfl fun _ hc => hsame (by simpa using hc)
  | endLastBatch =>
    exact h.grow ((Stream.grows_drain _).trans (Stream.grows_flush _)) rfl fun _ hc =>
      hsame (by simpa using hc)
  | receiveCompletion hw hq =>
    exact h.grow (.refl _) rfl fun _ hc => by
      simp only [Interceptor.outstanding, hw, hq, List.mem_append, List.mem_cons,
        List.not_mem_nil, or_false] at hc ⊢
      tauto
  | drainReceive hw | drainCount hw =>
    exact h.grow (.refl _) rfl fun _ hc => by simpa [Interceptor.outstanding, hw] using hc
  | drainAppend hw =>
    exact h.grow (Stream.Grows.trans (.of_eq rfl rfl rfl) (Stream.grows_drain _)) rfl fun _ hc => by
      simpa [Interceptor.outstanding, hw] using hc
  | drainEnd hw =>
    exact h.grow (.refl _) rfl fun _ hc => by simpa [Interceptor.outstanding, hw] using hc
  | publish hw hc hs => exact h.publish hw hc hs
  | published => exact h.grow (.refl _) rfl fun _ hc => hsame (by simpa using hc)

/-! ### The end of the input -/

/-- The worker has a chunk that the stream has not drained. -/
def reads (s : Interceptor) : Bool :=
  match s.worker with
  | .received _ | .coalesce _ | .drainReceived _ _ | .drainCounted _ _ => true
  | _ => false

structure Ended (s : Interceptor) : Prop where
  idle : s.writer = .idle ∨ s.closed = false
  reads : s.reads = false ∨ s.inputClosed = false
  closed : s.inputClosed = false ∨ s.closed = true ∧ s.input = [] ∧ s.stream.withheld = []
  done : s.worker = .done → s.inputClosed = true ∧ s.stream.pendingUploads = 0

theorem reads_proceed (s : Interceptor) : s.proceed.reads = false := by
  unfold Interceptor.reads proceed
  split_ifs <;> rfl

theorem done_proceed (h : s.proceed.worker = .done) :
    s.inputClosed = true ∧ s.stream.pendingUploads = 0 := by
  unfold proceed at h
  split_ifs at h with hdone
  exact hdone

theorem withheld_flushPartial (h : s.stream.withheld = []) : s.stream.flushPartial.withheld = [] := by
  have hbuf : s.stream.buf = [] := (List.append_eq_nil_iff.mp h).2
  rwa [Stream.flushPartial, if_neg (by simp [hbuf])]

theorem Ended.step (h : Ended s) (hf : Flushed s a) (hm : Moved o s a s') : Ended s' := by
  have hopen : s.writer ≠ .idle → s.closed = false := h.idle.resolve_left
  have hreading : s.reads = true → s.inputClosed = false :=
    fun hr => h.reads.resolve_left (by simp [hr])
  have hlate : s.closed = false → s.inputClosed = false :=
    fun hc => h.closed.resolve_right (by simp [hc])
  cases hm with
  | refuse => exact h
  | finish => exact { h with }
  | close hw => exact ⟨.inl hw, h.reads, h.closed.imp_right fun hc => ⟨rfl, hc.2⟩, h.done⟩
  | write hw hc => exact { h with idle := .inr hc }
  | writeDirect hw | sendChunk hw =>
    have hc := hopen (by simp [hw])
    exact ⟨.inr hc, h.reads, .inl (hlate hc), h.done⟩
  | fallBack hw | countChunk hw => exact { h with idle := .inr (hopen (by simp [hw])) }
  | flushTimer hw =>
    refine ⟨h.idle, h.reads, ?_, fun hd => by simp [hw] at hd⟩
    exact h.closed.imp_right fun hc => ⟨hc.1, hc.2.1, withheld_flushPartial hc.2.2⟩
  | receive hw hi hc | drainReceive hw hi hc =>
    exact ⟨h.idle, .inr hc, .inl hc, nofun⟩
  | receiveClosed hw hi hc =>
    exact ⟨h.idle, .inl (reads_proceed _), .inr ⟨hc, hi, Stream.withheld_flush _⟩, done_proceed⟩
  | lock hw | coalesce hw | drainCount hw | drainAppend hw =>
    have hi := hreading (by simp [Interceptor.reads, hw])
    exact ⟨h.idle, .inr hi, .inl hi, nofun⟩
  | endBatch hw =>
    have hi := hreading (by simp [Interceptor.reads, hw])
    exact ⟨h.idle, .inl (reads_proceed _), .inl hi, done_proceed⟩
  | endLastBatch hw hi hc =>
    exact ⟨h.idle, .inl (reads_proceed _), .inr ⟨hc, hi, Stream.withheld_flush _⟩, done_proceed⟩
  | receiveCompletion => exact ⟨h.idle, .inl rfl, h.closed, nofun⟩
  | drainEnd hw hi =>
    refine ⟨h.idle, .inl rfl, ?_, nofun⟩
    -- The close is known already, or is found here with nothing withheld.
    rcases h.closed with hic | hic
    · cases hc : s.closed with
      | false => exact .inl (by simp [hic])
      | true => exact .inr ⟨rfl, hi.resolve_left (by simp [hic]), hf rfl hic hc⟩
    · exact .inr hic
  | publish hw => exact { h with done := fun hd => by simp [hw] at hd }
  | published => exact ⟨h.idle, .inl (reads_proceed _), h.closed, done_proceed⟩

/-! ### Once `Close` has returned -/

theorem ended_init : Ended {} := ⟨.inl rfl, .inl rfl, .inl rfl, nofun⟩

theorem published_init : Published {} := ⟨rfl, rfl, nofun⟩

theorem invariants_of_reach (h : Reach (step o) Careful {} s) : Ordered s ∧ Published s ∧ Ended s := by
  induction h with
  | refl => exact ⟨ordered_init, published_init, ended_init⟩
  | tail _ hok hst ih =>
    obtain ⟨hord, hpub, hend⟩ := ih
    obtain ⟨hu, hp, hf⟩ := hok
    have hm := moved_of_step hst
    exact ⟨hord.step hp hst, hpub.step hu hm, hend.step hf hm⟩

/-- `Close` returns when the worker has. Then `dest` has the whole input, if no upload
changed its paste, no direct write ran while the worker carried a chunk, and the worker
did not learn of the close on behalf of an upload with bytes withheld. -/
theorem transparent_after_close (o : Options) (h : Reach (step o) Careful {} s)
    (hdone : s.worker = .done) : Transparent s := by
  obtain ⟨hord, hpub, hend⟩ := invariants_of_reach h
  obtain ⟨hclosed, hpending⟩ := hend.done hdone
  obtain ⟨hc, hinput, hwithheld⟩ := hend.closed.resolve_left (by simp [hclosed])
  have hidle : s.writer = .idle := hend.idle.resolve_right (by simp [hc])
  obtain ⟨t, ⟨pieces, ht, hplain, hpastes⟩, hwritten⟩ := hord.accounts
  have hway : s.onTheWay = [] := by
    simp [onTheWay, hdone, hinput, hidle, Worker.inHand, Writer.left]
  have hbytes : bytesOf pieces = s.written := by
    rw [← hwritten, ← ht, hwithheld, hway, List.append_nil, List.append_nil]
  have huploads : pastesOf s.stream.dest = s.stream.uploads := by
    have hp := hpub.pending
    rw [hpub.written, List.take_of_length_le (by omega)]
  refine ⟨⟨pieces, hbytes, hplain.symm, huploads.trans hpastes.symm, hpastes⟩, fun hnone => ?_⟩
  rw [bytesOf_eq_plainOf (huploads.trans hnone), ← hplain,
    ← bytesOf_eq_plainOf (hpastes.trans hnone), hbytes]

namespace Demo

/-- A paste is being uploaded and another has begun when the caller closes. The worker
learns of the close from the upload. -/
def losing : List Action :=
  [.write (framed letter)] ++ upload ++ [.write (startMarker ++ letter)] ++ upload ++
  [.close, .finish 0 none, .receiveCompletion, .drainEnd, .publish, .publish]

theorem losing_run :
    ((runChecked (step (options false)) (fun _ a => Unrewritten a) {} losing).map fun s =>
      (s.worker, s.written, plainOf s.stream.dest, s.stream.uploads)) =
      some (.done, framed letter ++ (startMarker ++ letter), [], [letter]) := by
  decide +kernel

/-- The paste that has begun is lost. -/
theorem close_loses_withheld :
    ¬ ∀ (o : Options) (s : Interceptor), Reach (step o) (fun _ a => Unrewritten a) {} s →
      s.worker = .done → Transparent s := by
  intro hall
  obtain ⟨s, hrun, hs⟩ := Option.map_eq_some_iff.mp losing_run
  simp only [Prod.mk.injEq] at hs
  obtain ⟨hdone, hwritten, hdest, huploads⟩ := hs
  obtain ⟨pieces, hb, hp, -, hu⟩ := (hall _ s (reach_of_runChecked _ hrun) hdone).pieces
  rw [huploads] at hu
  obtain ⟨l, r, hlr, hplain⟩ := bytesOf_of_pastesOf_eq_singleton hu
  rw [hlr, hwritten] at hb
  rw [hdest, hplain] at hp
  obtain ⟨rfl, rfl⟩ := List.append_eq_nil_iff.mp hp.symm
  simp [startMarker] at hb

/-- The flush timer lets an ESC go while a paste is uploaded, and the input ends in a paste
without an end. The worker learns of the close by itself. -/
def closing : List Action :=
  [.write (framed letter)] ++ upload ++ [.write [0x1b]] ++ upload ++ [.flushTimer, .finish 0 none,
    .receiveCompletion, .drainEnd, .publish, .publish, .write startMarker] ++ upload ++
  [.close, .receiveClosed]

theorem closing_run :
    ((runChecked (step (options false)) Careful {} closing).map fun s =>
      (s.worker, bytesOf s.stream.dest)) =
      some (.done, [0x1b] ++ framed letter ++ startMarker) := by
  decide +kernel

theorem transparent_after_close_closing :
    ∃ s, Reach (step (options false)) Careful {} s ∧ s.worker = .done ∧
      bytesOf s.stream.dest = [0x1b] ++ framed letter ++ startMarker ∧ Transparent s := by
  obtain ⟨s, hrun, hs⟩ := Option.map_eq_some_iff.mp closing_run
  obtain ⟨hdone, hdest⟩ := Prod.mk.inj hs
  have hreach := reach_of_runChecked _ hrun
  exact ⟨s, hreach, hdone, hdest, transparent_after_close _ hreach hdone⟩

end Demo

/-- In whatever order the uploads end, their pastes reach `dest` in the order they began. -/
theorem pastes_in_order (o : Options) (h : Reach (step o) (fun _ a => Unrewritten a) {} s) :
    pastesOf s.stream.dest = s.stream.uploads.take s.nextCompletion := by
  have hpub : Published s := h.invariant published_init fun hx hu hst => hx.step hu (moved_of_step hst)
  exact hpub.written

open Demo in
/-- The second upload ends first. -/
def swapped : List Action :=
  [.write (framed letter ++ framed [])] ++ upload ++ [.finish 1 none, .finish 0 none, .receiveCompletion, .drainEnd,
    .publish, .receiveCompletion, .drainEnd, .publish, .publish]

open Demo in
theorem pastes_in_order_swapped : ∃ s, runChecked (step (options false)) (fun _ a => Unrewritten a) {} swapped = some s ∧
    pastesOf s.stream.dest = [letter, []] := by
  have h := pastes_in_order (options false) (reach_finalChecked swapped (by decide +kernel))
  exact ⟨_, runChecked_final .., h.trans (by decide +kernel)⟩

end Interceptor

end Paperboat.Paste
