import Paperboat.ExecProcess.Execution
import Paperboat.Lib.Index

/-! Replay without gaps. The system interleaves the locked sections of `output`, of the
readers' operations and of state changes on one execution; a recorder keeps every event
that was appended and every chunk the process emitted. -/

namespace Paperboat.ExecProcess

open Transition

structure Reader where
  next : ℕ
  closed : Bool := false
  /-- Where the reader began, and the events it has released. -/
  start : ℕ
  taken : List Event := []

structure System where
  e : Execution := {}
  readers : List Reader := []
  /-- Blocked calls of `output`, with the wake channel each of them waits on. -/
  waiting : List (String × ℕ) := []
  /-- Releases between the reader's section and the execution's. -/
  releasing : List (ℕ × ℕ) := []
  /-- All events, from sequence number 1 on, and the chunks emitted. -/
  log : List Event := []
  emitted : List (String × List UInt8) := []

inductive Action where
  | output (stream : String) (data : List UInt8)
  | wake (stream : String) (channel : ℕ)
  | transition (state : State) (result : Option Result) (code : String)
  | openReader (start : ℕ)
  | release (id sequence : ℕ)
  | advance (id next : ℕ)
  | close (id : ℕ)
  | remove (id : ℕ)

namespace System

/-- The call goes round its loop: it waits on the present channel or returns. -/
def round (config : Config) (s : System) (stream : String) : System :=
  if s.e.waits config then { s with waiting := s.waiting ++ [(stream, s.e.wake)] } else s

def step (config : Config) (s : System) : Action → Option System
  | .output stream data =>
    if data = [] ∨ config.chunkBytes < data.length ∨ s.waiting.any (·.1 == stream) then none
    else
      let streamSequence := s.e.streamSequences stream
      let event : Event := { sequence := s.e.next, stream, streamSequence, data }
      some ({ s with
        e := s.e.output config stream data
        log := s.log ++ [event]
        emitted := s.emitted ++ [(stream, data)] }.round config stream)
  | .wake stream channel =>
    if (stream, channel) ∈ s.waiting ∧ channel < s.e.wake then
      some ({ s with
        e := s.e.evict config
        waiting := s.waiting.erase (stream, channel) }.round config stream)
    else none
  | .transition state result code =>
    if terminalState s.e.state then some s
    else some { s with
      e := s.e.transition config state result code
      log := s.log ++ [{ sequence := s.e.next, state := some state, result, errorCode := code }] }
  | .openReader start =>
    (s.e.openReader start).map fun e =>
      { s with e, readers := s.readers ++ [{ next := start, start }] }
  | .release id sequence =>
    (s.readers[id]?).bind fun r =>
      -- Only an event that the reader was given can be released.
      if r.start ≤ sequence ∧ sequence ≤ r.next ∧ sequence < s.e.next then
        if r.closed then some s
        else
          let r := if r.next = sequence then { r with
            next := sequence + 1
            taken := r.taken ++ (s.log[sequence - 1]?).toList } else r
          some { s with
            readers := s.readers.set id r
            releasing := s.releasing ++ [(id, r.next)] }
      else none
  | .advance id next =>
    if (id, next) ∈ s.releasing then
      some { s with
        e := s.e.advanceReader config id next
        releasing := s.releasing.erase (id, next) }
    else none
  | .close id =>
    (s.readers[id]?).map fun r => { s with readers := s.readers.set id { r with closed := true } }
  | .remove id =>
    (s.readers[id]?).bind fun r =>
      if r.closed ∧ s.e.readers.any (·.1 == id) then
        some { s with e := s.e.removeReader config id }
      else none

/-- Every chunk fits into the limit by itself, and a reader's releases do not overlap. -/
def fits (config : Config) (s : System) : Action → Bool
  | .output _ data => data.length ≤ config.replayBytes
  | .release id _ => !s.releasing.any (·.1 == id)
  | _ => true

end System

/-! ### Eviction -/

/-- The bytes of some events. -/
def size (events : List Event) : ℕ := (events.map (·.data.length)).sum

variable {config : Config} {e : Execution} {log : List Event}

theorem size_drop_one {events : List Event} (hlen : (events.drop k).length ≤ 1)
    (hsmall : ∀ event ∈ events, event.data.length ≤ limit) : size (events.drop k) ≤ limit := by
  match hdrop : events.drop k with
  | [] => exact Nat.zero_le _
  | [event] =>
    have hmem : event ∈ events := List.mem_of_mem_drop (hdrop ▸ List.mem_singleton_self event)
    simpa [size] using hsmall event hmem
  | _ :: _ :: _ => simp [hdrop] at hlen

/-- The loop drops events from the front while it may, and stops when the rest is within the
limit, is a single event, or is pinned. -/
theorem Execution.evictLoop_spec (limit : ℕ) (may : ℕ → Bool) (events : List Event) (earliest : ℕ) :
    ∃ k ≤ events.length,
      evictLoop limit may earliest (size events) events =
        (earliest + k, size (events.drop k), events.drop k) ∧
      (∀ i < k, may (earliest + i)) ∧
      (size (events.drop k) ≤ limit ∨ (events.drop k).length ≤ 1 ∨ may (earliest + k) = false) := by
  induction events generalizing earliest with
  | nil => exact ⟨0, Nat.le_refl _, rfl, fun i hi => absurd hi (Nat.not_lt_zero i), .inl (Nat.zero_le _)⟩
  | cons event rest ih =>
    rw [evictLoop]
    split_ifs with hgo
    · obtain ⟨k, hk, heq, hmay, hstop⟩ := ih (earliest + 1)
      have hsize : size (event :: rest) - event.data.length = size rest := by simp [size]
      refine ⟨k + 1, Nat.succ_le_succ hk, ?_, fun i hi => ?_, ?_⟩
      · rw [hsize, heq, List.drop_succ_cons, Nat.add_right_comm, Nat.add_assoc]
      · cases i with
        | zero => exact hgo.2.2
        | succ i => simpa [Nat.add_assoc, Nat.add_comm 1] using hmay i (by omega)
      · simpa [Nat.add_assoc, Nat.add_comm 1] using hstop
    · refine ⟨0, Nat.zero_le _, rfl, fun i hi => absurd hi (Nat.not_lt_zero i), ?_⟩
      by_cases hle : size (event :: rest) ≤ limit
      · exact .inl hle
      by_cases hrest : rest = []
      · exact .inr (.inl (by simp [hrest]))
      · refine .inr (.inr ?_)
        cases hmay : may earliest with
        | false => rfl
        | true => exact absurd ⟨Nat.lt_of_not_le hle, hrest, hmay⟩ hgo

/-- The minimum is the next sequence number or a cursor. -/
theorem foldl_min (l : List ℕ) (a : ℕ) : l.foldl min a ≤ a ∧ (∀ c ∈ l, l.foldl min a ≤ c) ∧
    (l.foldl min a = a ∨ l.foldl min a ∈ l) := by
  induction l generalizing a with
  | nil => simp
  | cons b l ih =>
    obtain ⟨ha, hl, hmem⟩ := ih (min a b)
    simp only [List.foldl_cons, List.mem_cons, forall_eq_or_imp]
    refine ⟨by omega, ⟨by omega, hl⟩, ?_⟩
    rcases hmem with h | h
    · rcases Nat.le_total a b with hab | hab
      · exact .inl (by rw [h, Nat.min_eq_left hab])
      · exact .inr (.inl (by rw [h, Nat.min_eq_right hab]))
    · exact .inr (.inr h)

/-- The retained events are the end of the log, and no cursor lies before them. -/
structure Kept (log : List Event) (e : Execution) : Prop where
  next : e.next = log.length + 1
  lower : 1 ≤ e.earliest
  upper : e.earliest ≤ e.next
  events : e.events = log.drop (e.earliest - 1)
  bytes : e.eventBytes = size e.events
  pins : ∀ p ∈ e.readers, e.earliest ≤ p.2

/-- What is retained beyond the limit is pinned. -/
def Settled (config : Config) (e : Execution) : Prop :=
  e.eventBytes ≤ config.replayBytes ∨ (e.readers ≠ [] ∧ e.minimum ≤ e.earliest)

theorem Kept.evict (h : Kept log e) (hsmall : ∀ event ∈ log, event.data.length ≤ config.replayBytes) :
    Kept log (e.evict config) ∧ Settled config (e.evict config) := by
  obtain ⟨k, hk, heq, hmay, hstop⟩ := Execution.evictLoop_spec config.replayBytes
    (fun earliest => e.readers.isEmpty || earliest < e.minimum) e.events e.earliest
  obtain ⟨hmin, hcursors, -⟩ := foldl_min (e.readers.map (·.2)) e.next
  have hlen : e.events.length = e.next - e.earliest := by
    rw [h.events, List.length_drop, h.next]
    have := h.lower
    omega
  have hup : e.earliest + k ≤ e.next := by
    have := h.upper
    omega
  have hpin : ∀ p ∈ e.readers, e.earliest + k ≤ p.2 := by
    intro p hp
    rcases Nat.eq_zero_or_pos k with rfl | hpos
    · exact h.pins p hp
    · have hlast := hmay (k - 1) (by omega)
      have hne : e.readers.isEmpty = false := by
        simp [List.isEmpty_eq_false_iff, List.ne_nil_of_mem hp]
      rw [hne, Bool.false_or, decide_eq_true_eq] at hlast
      have hle := hcursors p.2 (List.mem_map_of_mem hp)
      unfold Execution.minimum at hlast
      omega
  rw [← h.bytes] at heq
  simp only [Execution.evict, heq]
  refine ⟨⟨h.next, by have := h.lower; dsimp only; omega, hup, ?_, rfl, hpin⟩, ?_⟩
  · have := h.lower
    simp only [h.events, List.drop_drop]
    congr 1
    omega
  · rcases hstop with hle | hone | hno
    · exact .inl hle
    · refine .inl (size_drop_one hone fun event he => hsmall event ?_)
      exact List.mem_of_mem_drop (h.events ▸ he)
    · simp only [Bool.or_eq_false_iff, decide_eq_false_iff_not, Nat.not_lt] at hno
      exact .inr ⟨by simpa using hno.1, hno.2⟩

theorem Settled.evict_eq (h : Settled config e) : e.evict config = e := by
  have hstop : ¬ (config.replayBytes < e.eventBytes ∧
      (e.readers.isEmpty || decide (e.earliest < e.minimum)) = true) := by
    rintro ⟨hlt, hmay⟩
    rcases h with hle | ⟨hne, hmin⟩
    · omega
    · have hempty : e.readers.isEmpty = false := by simp [hne]
      rw [hempty, Bool.false_or, decide_eq_true_eq] at hmay
      omega
  unfold Execution.evict
  cases hev : e.events with
  | nil => rw [Execution.evictLoop]; rw [← hev]
  | cons event rest =>
    rw [Execution.evictLoop, if_neg fun hgo => hstop ⟨hgo.1, hgo.2.2⟩]
    rw [← hev]

theorem Kept.append (h : Kept log e) (event : Event)
    (hsmall : ∀ x ∈ log ++ [{ event with sequence := e.next }], x.data.length ≤ config.replayBytes) :
    Kept (log ++ [{ event with sequence := e.next }]) (e.append config event) ∧
      Settled config (e.append config event) := by
  have hlog : Kept (log ++ [{ event with sequence := e.next }]) { e with
      next := e.next + 1
      events := e.events ++ [{ event with sequence := e.next }]
      eventBytes := e.eventBytes + event.data.length } := by
    have := h.upper
    have := h.next
    refine ⟨by simp; omega, h.lower, Nat.le_succ_of_le h.upper, ?_, ?_, h.pins⟩
    · dsimp only
      rw [List.drop_append_of_le_length (by omega), h.events]
    · simp [h.bytes, size]
  obtain ⟨hkept, hset⟩ := hlog.evict hsmall
  exact ⟨{ hkept with }, hset⟩

/-! ### The invariant -/

/-- The bytes of some events, or of some chunks, on one stream. -/
def bytesOn (x : String) (events : List Event) : List UInt8 :=
  events.flatMap fun event => if event.stream = x then event.data else []

def emittedOn (x : String) (chunks : List (String × List UInt8)) : List UInt8 :=
  chunks.flatMap fun chunk => if chunk.1 = x then chunk.2 else []

/-- The reader has taken the events from its start up to its cursor. -/
structure Took (log : List Event) (r : Reader) : Prop where
  lower : 1 ≤ r.start
  start : r.start ≤ r.next
  next : r.next ≤ log.length + 1 ∨ r.next = r.start
  taken : r.taken = (log.drop (r.start - 1)).take (r.next - r.start)

theorem Took.append (h : Took log r) (event : Event) : Took (log ++ [event]) r := by
  have hfirst := h.lower
  have hstart := h.start
  refine ⟨hfirst, hstart, h.next.imp_left fun hle => by simp; omega, ?_⟩
  rw [h.taken]
  rcases h.next with hle | heq
  · rw [List.drop_append_of_le_length (by omega), List.take_append_of_le_length]
    rw [List.length_drop]
    omega
  · simp [heq]

structure Inv (config : Config) (s : System) : Prop where
  kept : Kept s.log s.e
  settled : Settled config s.e
  small : ∀ event ∈ s.log, event.data.length ≤ config.replayBytes
  numbered : ∀ k event, s.log[k]? = some event → event.sequence = k + 1
  emitted : ∀ x, bytesOn x s.log = emittedOn x s.emitted
  count : s.e.nextReader = s.readers.length
  registered : ∀ p ∈ s.e.readers, ∃ r, s.readers[p.1]? = some r ∧ p.2 ≤ r.next ∧
    (p.2 = r.next ∨ ∃ q ∈ s.releasing, q.1 = p.1)
  opened : ∀ id r, s.readers[id]? = some r → r.closed = false → ∃ c, (id, c) ∈ s.e.readers
  releasing : ∀ q ∈ s.releasing, ∃ r, s.readers[q.1]? = some r ∧ q.2 = r.next
  took : ∀ r ∈ s.readers, Took s.log r
  waiting : ∀ w ∈ s.waiting, w.2 ≤ s.e.wake ∧
    (w.2 = s.e.wake → config.replayBytes < s.e.eventBytes)

variable {s t : System}

section

variable (h : Inv config s)

include h

theorem Inv.round (stream : String) : Inv config (s.round config stream) := by
  unfold System.round
  split
  · rename_i hwaits
    refine { h with waiting := fun w hw => ?_ }
    rcases List.mem_append.mp hw with hw | hw
    · exact h.waiting w hw
    · rw [List.mem_singleton.mp hw]
      simp only [Execution.waits, Bool.and_eq_true, decide_eq_true_eq] at hwaits
      exact ⟨Nat.le_refl _, fun _ => hwaits.1⟩
  · exact h

/-- A new event in the log and in the execution, which may have changed elsewhere. -/
theorem Inv.append (e : Execution) (event : Event) {emitted : List (String × List UInt8)}
    (he : Kept s.log e) (hreaders : e.readers = s.e.readers)
    (hcount : e.nextReader = s.e.nextReader) (hwake : e.wake = s.e.wake)
    (hsmall : event.data.length ≤ config.replayBytes)
    (hemitted : ∀ x, bytesOn x (s.log ++ [event]) = emittedOn x emitted) :
    Inv config { s with
      e := e.append config event
      log := s.log ++ [{ event with sequence := e.next }]
      emitted } := by
  have hall : ∀ x ∈ s.log ++ [{ event with sequence := e.next }], x.data.length ≤ config.replayBytes := by
    simpa [or_imp, forall_and] using ⟨h.small, hsmall⟩
  obtain ⟨hkept, hset⟩ := he.append event hall
  exact {
    kept := hkept
    settled := hset
    small := hall
    numbered := fun k x hx => by
      rcases getElem?_concat_cases hx with hx | ⟨rfl, rfl⟩
      · exact h.numbered k x hx
      · exact he.next
    emitted := fun x => by simpa [bytesOn] using hemitted x
    count := hcount.trans h.count
    registered := fun p hp => h.registered p (hreaders ▸ (show p ∈ e.readers from hp))
    opened := fun id r hr hopen => by
      obtain ⟨c, hc⟩ := h.opened id r hr hopen
      exact ⟨c, show (id, c) ∈ e.readers from hreaders ▸ hc⟩
    releasing := h.releasing
    took := fun r hr => (h.took r hr).append _
    waiting := fun w hw => by
      have hle := (h.waiting w hw).1
      have hnow : (e.append config event).wake = s.e.wake + 1 := congrArg (· + 1) hwake
      simp only [hnow]
      omega }

/-- The cursors change, and the execution evicts and signals. -/
theorem Inv.cursors {cursors releasing : List (ℕ × ℕ)} (hpins : ∀ p ∈ cursors, s.e.earliest ≤ p.2)
    (hreg : ∀ p ∈ cursors, ∃ r, s.readers[p.1]? = some r ∧ p.2 ≤ r.next ∧
      (p.2 = r.next ∨ ∃ q ∈ releasing, q.1 = p.1))
    (hopened : ∀ id r, s.readers[id]? = some r → r.closed = false → ∃ c, (id, c) ∈ cursors)
    (hsub : releasing ⊆ s.releasing) :
    Inv config { s with
      e := (({ s.e with readers := cursors }).evict config).signal, releasing } := by
  have hcursors : Kept s.log { s.e with readers := cursors } := { h.kept with pins := hpins }
  obtain ⟨hkept, hset⟩ := hcursors.evict h.small
  exact { h with
    kept := { hkept with }
    settled := hset
    registered := hreg
    opened := hopened
    releasing := fun q hq => h.releasing q (hsub hq)
    waiting := fun w hw => by
      have hle := (h.waiting w hw).1
      have hwake : ((({ s.e with readers := cursors }).evict config).signal).wake = s.e.wake + 1 := rfl
      simp only [hwake]
      omega }

theorem Inv.output (hok : s.fits config (.output stream data))
    (hst : s.step config (.output stream data) = some t) : Inv config t := by
  simp only [System.step] at hst
  split_ifs at hst
  cases hst
  have hsmall : data.length ≤ config.replayBytes := by simpa [System.fits] using hok
  let e : Execution := { s.e with
    streamSequences := fun x => s.e.streamSequences x + if x = stream then data.length else 0 }
  refine Inv.round (h.append e { stream, streamSequence := s.e.streamSequences stream, data }
    { h.kept with } rfl rfl rfl hsmall fun x => ?_) stream
  have hx := h.emitted x
  simp only [bytesOn, emittedOn, List.flatMap_append, List.flatMap_singleton] at hx ⊢
  rw [hx]

theorem Inv.transition (hst : s.step config (.transition state result code) = some t) : Inv config t := by
  simp only [System.step] at hst
  split_ifs at hst with hterm
  · cases hst
    exact h
  cases hst
  simp only [Execution.transition, if_neg hterm]
  let e : Execution := { s.e with state, errorCode := code, result := result.or s.e.result }
  refine h.append e { state := some state, result, errorCode := code } { h.kept with } rfl rfl rfl
    (Nat.zero_le _) fun x => ?_
  have hx := h.emitted x
  simp only [bytesOn, List.flatMap_append, List.flatMap_singleton, ite_self, List.append_nil] at hx ⊢
  exact hx

theorem Inv.openReader {start : ℕ} (hst : s.step config (.openReader start) = some t) : Inv config t := by
  simp only [System.step, Execution.openReader] at hst
  split_ifs at hst with hbad
  · cases hst
  simp only [Option.map_some, Option.some.injEq] at hst
  subst hst
  simp only [not_or, Nat.not_lt] at hbad
  have hlast : (s.readers ++ [{ next := start, start }])[s.e.nextReader]? =
      some { next := start, start } := by rw [h.count, List.getElem?_concat_length]
  have hpins : ∀ p ∈ s.e.readers ++ [(s.e.nextReader, start)], s.e.earliest ≤ p.2 := by
    simpa [or_imp, forall_and] using ⟨fun i c hc => h.kept.pins (i, c) hc, hbad.2⟩
  exact { h with
    kept := { h.kept with pins := hpins }
    settled := h.settled.imp_right fun ⟨_, hmin⟩ => by
      refine ⟨by simp, ?_⟩
      simp only [Execution.minimum, List.map_append, List.foldl_append, List.map_cons,
        List.map_nil, List.foldl_cons, List.foldl_nil] at hmin ⊢
      omega
    count := by simp [h.count]
    registered := fun p hp => by
      rcases List.mem_append.mp hp with hp | hp
      · obtain ⟨r, hr, hrest⟩ := h.registered p hp
        exact ⟨r, getElem?_concat_of hr, hrest⟩
      · rw [List.mem_singleton.mp hp]
        exact ⟨_, hlast, Nat.le_refl _, .inl rfl⟩
    opened := fun id r hr hopen => by
      rcases getElem?_concat_cases hr with hr | ⟨rfl, -⟩
      · obtain ⟨c, hc⟩ := h.opened id r hr hopen
        exact ⟨c, List.mem_append_left _ hc⟩
      · exact ⟨start, List.mem_append_right _ (by simp [h.count])⟩
    releasing := fun q hq => by
      obtain ⟨r, hr, hnext⟩ := h.releasing q hq
      exact ⟨r, getElem?_concat_of hr, hnext⟩
    took := fun r hr => by
      rcases List.mem_append.mp hr with hr | hr
      · exact h.took r hr
      · rw [List.mem_singleton.mp hr]
        exact ⟨by dsimp only; omega, Nat.le_refl _, .inr rfl, by simp⟩ }

/-- A reader moves on or is closed. -/
theorem Inv.setReader {id : ℕ} {releasing : List (ℕ × ℕ)}
    (hr : s.readers[id]? = some r) (hle : r.next ≤ r'.next)
    (hclosed : r'.closed = false → r.closed = false) (htook : Took s.log r')
    (hmoved : r'.next = r.next ∨ ∃ q ∈ releasing, q.1 = id) (hsub : s.releasing ⊆ releasing)
    (hrel : ∀ q ∈ releasing, if q.1 = id then q.2 = r'.next else q ∈ s.releasing) :
    Inv config { s with readers := s.readers.set id r', releasing } := by
  have hset : (s.readers.set id r')[id]? = some r' :=
    List.getElem?_set_self (List.getElem?_eq_some_iff.mp hr).1
  exact { h with
    count := by simp [h.count]
    registered := fun p hp => by
      obtain ⟨x, hx, hcurs, hnow⟩ := h.registered p hp
      by_cases hid : p.1 = id
      · rw [hid, hr] at hx
        cases hx
        refine ⟨r', by rw [hid]; exact hset, Nat.le_trans hcurs hle, ?_⟩
        rcases hmoved with heq | ⟨q, hq, hqid⟩
        · rcases hnow with hnow | ⟨q, hq, hqid⟩
          · exact .inl (hnow.trans heq.symm)
          · exact .inr ⟨q, hsub hq, hqid⟩
        · exact .inr ⟨q, hq, hqid.trans hid.symm⟩
      · refine ⟨x, by rw [List.getElem?_set_ne (Ne.symm hid)]; exact hx, hcurs, ?_⟩
        exact hnow.imp_right fun ⟨q, hq, hqid⟩ => ⟨q, hsub hq, hqid⟩
    opened := fun k x hx hopen => by
      rcases getElem?_set_cases hx with ⟨rfl, rfl⟩ | ⟨-, hx⟩
      · exact h.opened _ r hr (hclosed hopen)
      · exact h.opened k x hx hopen
    releasing := fun q hq => by
      have hq := hrel q hq
      split at hq
      next hid => exact ⟨r', by rw [hid]; exact hset, hq⟩
      next hid =>
        obtain ⟨x, hx, hnext⟩ := h.releasing q hq
        exact ⟨x, by rw [List.getElem?_set_ne (Ne.symm hid)]; exact hx, hnext⟩
    took := fun x hx => by
      rcases List.mem_or_eq_of_mem_set hx with hx | rfl
      · exact h.took x hx
      · exact htook }

theorem Inv.release {id sequence : ℕ} (hok : s.fits config (.release id sequence))
    (hst : s.step config (.release id sequence) = some t) : Inv config t := by
  obtain ⟨r, hr, hst⟩ := Option.bind_eq_some_iff.mp hst
  have htook := h.took r (List.mem_of_getElem? hr)
  have hrel : ∀ {n : ℕ}, ∀ q ∈ s.releasing ++ [(id, n)], if q.1 = id then q.2 = n else q ∈ s.releasing := by
    intro n q hq
    simp only [System.fits, Bool.not_eq_true', List.any_eq_false, beq_iff_eq] at hok
    rcases List.mem_append.mp hq with hq | hq
    · rw [if_neg (hok q hq)]
      exact hq
    · simp [List.mem_singleton.mp hq]
  have hlast : ∀ n : ℕ, ∃ q ∈ s.releasing ++ [(id, n)], q.1 = id := fun n => ⟨(id, n), by simp, rfl⟩
  split_ifs at hst with hgiven hclosed hnext
  · cases hst
    exact h
  · obtain ⟨hstart, -, hlt⟩ := hgiven
    subst hnext
    cases hst
    refine h.setReader hr (Nat.le_succ _) (fun hopen => hopen) ?_ (.inr (hlast _))
      (List.subset_append_left ..) hrel
    have hfirst := htook.lower
    rw [h.kept.next] at hlt
    refine ⟨hfirst, Nat.le_succ_of_le hstart, .inl hlt, ?_⟩
    have hcount : r.next + 1 - r.start = r.next - r.start + 1 := by omega
    have hplace : r.start - 1 + (r.next - r.start) = r.next - 1 := by omega
    rw [hcount, List.take_add_one, List.getElem?_drop, hplace, htook.taken]
  · cases hst
    exact h.setReader hr (Nat.le_refl _) (fun hopen => hopen) htook (.inl rfl)
      (List.subset_append_left ..) hrel

theorem Inv.advance {id next : ℕ} (hst : s.step config (.advance id next) = some t) : Inv config t := by
  simp only [System.step, Execution.advanceReader] at hst
  -- A cursor of another reader is as it was, and so is a release that is pending for it.
  have hother : ∀ p ∈ s.e.readers, p.1 ≠ id → ∃ x, s.readers[p.1]? = some x ∧ p.2 ≤ x.next ∧
      (p.2 = x.next ∨ ∃ q ∈ s.releasing.erase (id, next), q.1 = p.1) := by
    intro p hp hne
    obtain ⟨x, hx, hle, hnow⟩ := h.registered p hp
    refine ⟨x, hx, hle, hnow.imp_right fun ⟨q, hq, hqid⟩ => ⟨q, ?_, hqid⟩⟩
    refine (List.mem_erase_of_ne ?_).mpr hq
    rintro rfl
    exact hne hqid.symm
  split_ifs at hst with hpend hknown
  · obtain ⟨r, hr, rfl⟩ := h.releasing _ hpend
    cases hst
    refine h.cursors (fun p hp => ?_) (fun p hp => ?_) (fun id' r' hr' hopen => ?_) (List.erase_subset ..)
    · obtain ⟨⟨i, c⟩, hic, rfl⟩ := List.mem_map.mp hp
      have hpin : s.e.earliest ≤ c := h.kept.pins (i, c) hic
      split
      next hi =>
        subst hi
        obtain ⟨x, hx, hle, -⟩ := h.registered (i, c) hic
        rw [hr] at hx
        cases hx
        exact Nat.le_trans hpin hle
      next => exact hpin
    · obtain ⟨⟨i, c⟩, hic, rfl⟩ := List.mem_map.mp hp
      split
      next hi => exact ⟨r, hi ▸ hr, Nat.le_refl _, .inl rfl⟩
      next hi => exact hother (i, c) hic hi
    · obtain ⟨c, hc⟩ := h.opened id' r' hr' hopen
      exact ⟨_, List.mem_map_of_mem hc⟩
  · cases hst
    exact { h with
      registered := fun p hp => hother p hp fun hid => hknown (List.any_eq_true.mpr ⟨p, hp, by simp [hid]⟩)
      releasing := fun q hq => h.releasing q (List.mem_of_mem_erase hq) }

theorem Inv.step (hok : s.fits config a) (hst : s.step config a = some t) :
    Inv config t := by
  cases a with
  | output stream data => exact h.output hok hst
  | transition state result code => exact h.transition hst
  | openReader start => exact h.openReader hst
  | release id sequence => exact h.release hok hst
  | wake stream channel =>
    simp only [System.step] at hst
    split_ifs at hst
    cases hst
    rw [h.settled.evict_eq]
    have hrest : Inv config { s with waiting := s.waiting.erase (stream, channel) } :=
      { h with waiting := fun w hw => h.waiting w (List.mem_of_mem_erase hw) }
    exact hrest.round stream
  | advance id next => exact h.advance hst
  | close id =>
    obtain ⟨r, hr, rfl⟩ := Option.map_eq_some_iff.mp hst
    refine h.setReader hr (Nat.le_refl _) (fun hopen => by cases hopen)
      { h.took r (List.mem_of_getElem? hr) with } (.inl rfl) (List.Subset.refl _) fun q hq => ?_
    split
    next hid =>
      obtain ⟨x, hx, hnext⟩ := h.releasing q hq
      rw [hid, hr] at hx
      cases hx
      exact hnext
    next => exact hq
  | remove id =>
    obtain ⟨r, hr, hst⟩ := Option.bind_eq_some_iff.mp hst
    split_ifs at hst with hclosed
    cases hst
    refine h.cursors (fun p hp => h.kept.pins p (List.mem_filter.mp hp).1)
      (fun p hp => h.registered p (List.mem_filter.mp hp).1) (fun id' r' hr' hopen => ?_) (List.Subset.refl _)
    obtain ⟨c, hc⟩ := h.opened id' r' hr' hopen
    refine ⟨c, List.mem_filter.mpr ⟨hc, ?_⟩⟩
    rw [decide_eq_true_eq]
    rintro rfl
    rw [hr] at hr'
    cases hr'
    rw [hclosed.1] at hopen
    cases hopen

end

/-! ### Replay -/

/-- What readers pin: the retained events at or after a registered cursor. -/
def pinned (e : Execution) : List Event :=
  e.events.filter fun event => e.readers.any (·.2 ≤ event.sequence)

/-- No release and no `Close` is under way. -/
def System.quiet (s : System) : Prop :=
  s.releasing = [] ∧ ∀ p ∈ s.e.readers, ∀ r, s.readers[p.1]? = some r → r.closed = false

structure Replayed (config : Config) (s : System) : Prop where
  /-- The execution has numbered everything that was recorded. -/
  recorded : s.e.next = s.log.length + 1
  /-- A reader has taken consecutive events from its start. -/
  consecutive : ∀ r ∈ s.readers, ∀ k event, r.taken[k]? = some event → event.sequence = r.start + k
  /-- Its data on a stream are the bytes emitted between its start and its cursor. -/
  exact : ∀ r ∈ s.readers, ∀ x, emittedOn x s.emitted =
    bytesOn x (s.log.take (r.start - 1)) ++ bytesOn x r.taken ++ bytesOn x (s.log.drop (r.next - 1))
  /-- What an open reader has not released can be read. -/
  unread : ∀ r ∈ s.readers, r.closed = false → ∀ n, r.next ≤ n → n < s.e.next →
    ∃ event, s.log[n - 1]? = some event ∧ s.e.nextFrom n = .event event
  retained : s.e.eventBytes ≤ config.replayBytes + size (pinned s.e)
  /-- When every open reader has released everything, no call of `output` stays blocked. -/
  unblocked : s.quiet → (∀ r ∈ s.readers, r.closed = false → s.e.next ≤ r.next) →
    s.e.waits config = false ∧ ∀ w ∈ s.waiting, w.2 < s.e.wake

theorem Kept.nextFrom (h : Kept log e) (hle : e.earliest ≤ n) (hlt : n < e.next) :
    ∃ event, log[n - 1]? = some event ∧ e.nextFrom n = .event event := by
  have hfirst := h.lower
  have hnext := h.next
  have hplace : e.events[n - e.earliest]? = log[n - 1]? := by
    rw [h.events, List.getElem?_drop]
    congr 1
    omega
  have hevent := List.getElem?_eq_getElem (l := log) (i := n - 1) (by omega)
  refine ⟨_, hevent, ?_⟩
  rw [Execution.nextFrom, if_neg (Nat.not_lt.mpr hle), if_pos hlt, hplace, hevent]

/-- Beyond the limit, a registered cursor is at the first event that is retained. -/
theorem Inv.pinning (h : Inv config s) (hlt : config.replayBytes < s.e.eventBytes) :
    s.e.earliest < s.e.next ∧ ∃ p ∈ s.e.readers, p.2 ≤ s.e.earliest := by
  have hsome : s.e.earliest < s.e.next := by
    refine Nat.lt_of_le_of_ne h.kept.upper fun heq => ?_
    have hnone : s.e.events = [] := by
      rw [h.kept.events, heq, h.kept.next, Nat.add_sub_cancel, List.drop_length]
    rw [h.kept.bytes, hnone] at hlt
    exact Nat.not_lt_zero _ hlt
  rcases h.settled with hle | ⟨-, hmin⟩
  · exact absurd hlt (Nat.not_lt.mpr hle)
  rcases (foldl_min (s.e.readers.map (·.2)) s.e.next).2.2 with heq | hmem
  · rw [Execution.minimum, heq] at hmin
    omega
  · obtain ⟨p, hp, hcurs⟩ := List.mem_map.mp hmem
    exact ⟨hsome, p, hp, hcurs ▸ hmin⟩

theorem Inv.replayed (h : Inv config s) : Replayed config s where
  recorded := h.kept.next
  consecutive r hr k event hk := by
    have htook := h.took r hr
    have hfirst := htook.lower
    rw [htook.taken, List.getElem?_take] at hk
    split at hk
    · rw [List.getElem?_drop] at hk
      rw [h.numbered _ _ hk]
      omega
    · cases hk
  exact r hr x := by
    have htook := h.took r hr
    have hnext : s.log.drop (r.next - 1) = (s.log.drop (r.start - 1)).drop (r.next - r.start) := by
      have := htook.lower
      have := htook.start
      rw [List.drop_drop]
      congr 1
      omega
    have hsplit : s.log = s.log.take (r.start - 1) ++ r.taken ++ s.log.drop (r.next - 1) := by
      rw [htook.taken, hnext, List.append_assoc, List.take_append_drop, List.take_append_drop]
    rw [← h.emitted x]
    conv_lhs => rw [hsplit]
    simp [bytesOn, List.flatMap_append]
  unread r hr hopen n hle hlt := by
    obtain ⟨id, hid⟩ := List.getElem?_of_mem hr
    obtain ⟨c, hc⟩ := h.opened id r hid hopen
    obtain ⟨x, hx, hcurs, -⟩ := h.registered _ hc
    rw [hid] at hx
    cases hx
    exact h.kept.nextFrom (Nat.le_trans (h.kept.pins _ hc) (Nat.le_trans hcurs hle)) hlt
  retained := by
    by_cases hlt : config.replayBytes < s.e.eventBytes
    · obtain ⟨-, p, hp, hcurs⟩ := h.pinning hlt
      have hevery : pinned s.e = s.e.events := by
        refine List.filter_eq_self.mpr fun event he => List.any_eq_true.mpr ⟨p, hp, ?_⟩
        obtain ⟨k, hk⟩ := List.getElem?_of_mem he
        rw [h.kept.events, List.getElem?_drop] at hk
        rw [decide_eq_true_eq, h.numbered _ _ hk]
        omega
      rw [hevery, ← h.kept.bytes]
      exact Nat.le_add_left ..
    · omega
  unblocked hquiet hall := by
    have hsmall : s.e.eventBytes ≤ config.replayBytes := by
      refine Nat.not_lt.mp fun hlt => ?_
      obtain ⟨hsome, p, hp, hcurs⟩ := h.pinning hlt
      obtain ⟨r, hr, -, hnow | ⟨q, hq, -⟩⟩ := h.registered p hp
      · have hend := hall r (List.mem_of_getElem? hr) (hquiet.2 p hp r hr)
        omega
      · rw [hquiet.1] at hq
        cases hq
    refine ⟨by simp [Execution.waits, hsmall], fun w hw => ?_⟩
    obtain ⟨hle, hnow⟩ := h.waiting w hw
    refine Nat.lt_of_le_of_ne hle fun heq => ?_
    exact absurd (hnow heq) (Nat.not_lt.mpr hsmall)

theorem Inv.start : Inv config {} where
  kept := ⟨rfl, Nat.le_refl _, Nat.le_refl _, rfl, rfl, by simp⟩
  settled := .inl (Nat.zero_le _)
  small := by simp
  numbered := by simp
  emitted _ := rfl
  count := rfl
  registered := by simp
  opened := by simp
  releasing := by simp
  took := by simp
  waiting := by simp

namespace Demo

def sizes : Config := { replayBytes := 2 ^ 16, chunkBytes := 2 ^ 20 }

def accepted : Config :=
  { sizes with maximumActive := 32, maximumOperations := 1024, cancelGrace := 2 * second, retention := 3600 * second }

/-- Two chunks that only one of fits while the first is pinned by two readers. -/
def pinning (data : List UInt8) : List Action :=
  [.transition .running none "", .openReader 1, .openReader 2, .output "stdout" data,
    .output "stderr" data]

/-- One reader releases the first chunk, the other is closed, and the blocked call is woken. -/
def releasing : List Action :=
  [.release 0 1, .advance 0 2, .release 0 2, .close 1, .advance 0 3, .remove 1, .wake "stderr" 3]

end Demo

end Paperboat.ExecProcess
