import Mathlib
import Paperboat.Lib.Transition

/-! Read deadlines of a secure relay connection. `SecureConn.Read` receives one record under
a context with the connection's read deadline. The deadline is set on the stream as well,
and a callback of the context sets the stream's deadline to the present once it has passed. -/

namespace Paperboat.RelayCarrier

open Transition

abbrev Bytes := List UInt8

def headerLength : ℕ := 28
def recordVersion : UInt8 := 1
def authenticationBytes : ℕ := 16
def maximumCiphertext : ℕ := 65535

/-- The length field of a header. -/
def bodyLength (bytes : Bytes) : ℕ := (bytes.getD 26 0).toNat * 256 + (bytes.getD 27 0).toNat

def acceptsHeader (bytes : Bytes) : Bool :=
  bytes.getD 0 0 = recordVersion ∧ authenticationBytes ≤ bodyLength bytes ∧ bodyLength bytes ≤ maximumCiphertext

/-- A record that the peer sealed, with the plaintext that `Session.Open` gives for it in its turn. -/
structure Record where
  bytes : Bytes
  payload : Bytes
  accepted : acceptsHeader bytes = true
  length_eq : bytes.length = headerLength + bodyLength bytes

/-- Where `Read` is: in `io.ReadFull`, or about to reset the stream's deadline. -/
inductive Phase where
  | idle
  | reading
  | leaving
  deriving DecidableEq, Repr

/-- A time of zero is no deadline. -/
structure Conn where
  /-- The peer's records that have not been opened. -/
  records : List Record
  coming : Bytes
  stream : Bytes := []
  streamDeadline : ℕ := 0
  now : ℕ := 1
  readDeadline : ℕ := 0
  readBuffer : Bytes := []
  phase : Phase := .idle
  size : ℕ := 0
  /-- The deadline of the context. -/
  deadline : ℕ := 0
  /-- What `ReceiveRecord` has read; nothing after an error. -/
  record : Bytes := []
  /-- The context has started its callback. -/
  expired : Bool := false
  /-- Callbacks that were started and have not run. -/
  callbacks : ℕ := 0
  returned : Bytes := []
  /-- No `Read` failed but for its own deadline. -/
  faultless : Bool := true

inductive Action where
  | arrive (n : ℕ)
  | tick
  | setReadDeadline (deadline : ℕ)
  | read (size : ℕ)
  | fill (n : ℕ)
  | timeout
  | expire
  | callback
  | leave

namespace Conn

variable (s : Conn)

def start (records : List Record) : Conn where
  records := records
  coming := records.flatMap (·.bytes)

def passed (deadline : ℕ) : Prop := deadline ≠ 0 ∧ deadline ≤ s.now

instance (deadline : ℕ) : Decidable (s.passed deadline) := inferInstanceAs (Decidable (_ ∧ _))

def copy (size : ℕ) : Conn :=
  { s with returned := s.returned ++ s.readBuffer.take size, readBuffer := s.readBuffer.drop size }

def read (size : ℕ) : Conn :=
  if size = 0 then s
  else if s.readBuffer ≠ [] then s.copy size
  else if s.passed s.readDeadline then s
  else { s with
    phase := .reading, size := size, deadline := s.readDeadline, expired := false
    streamDeadline := if s.readDeadline = 0 then s.streamDeadline else s.readDeadline }

/-- How many bytes `ReceiveRecord` reads, the header first. -/
def wanted (record : Bytes) : ℕ :=
  if record.length < headerLength then headerLength else headerLength + bodyLength record

def fill (record : Bytes) : Conn :=
  if record.length = headerLength ∧ acceptsHeader record = false then
    { s with phase := .leaving, record := [], faultless := false }
  else { s with phase := if record.length = wanted record then .leaving else .reading, record := record }

/-- The deferred reset, then `Session.Open` and the rest of `Read`. -/
def leave : Conn :=
  let done := { s with streamDeadline := 0, phase := .idle, deadline := 0, record := [] }
  if s.record = [] then done
  else match s.records with
    | x :: rest =>
      if x.bytes = s.record then { done with records := rest, readBuffer := x.payload }.copy s.size
      else { done with faultless := false }
    | [] => { done with faultless := false }

def step : Action → Option Conn
  | .arrive n => some { s with stream := s.stream ++ s.coming.take n, coming := s.coming.drop n }
  | .tick => some { s with now := s.now + 1 }
  | .setReadDeadline deadline => some { s with readDeadline := deadline }
  | .read size => if s.phase = .idle then some (s.read size) else none
  | .fill n =>
    if s.phase = .reading ∧ 0 < n ∧ n ≤ s.stream.length ∧ s.record.length + n ≤ wanted s.record then
      some ({ s with stream := s.stream.drop n }.fill (s.record ++ s.stream.take n))
    else none
  | .timeout =>
    if s.phase = .reading ∧ s.passed s.streamDeadline then
      some { s with phase := .leaving, record := [], faultless := s.faultless && decide (s.passed s.deadline) }
    else none
  | .expire =>
    if s.passed s.deadline ∧ s.expired = false then some { s with expired := true, callbacks := s.callbacks + 1 } else none
  | .callback =>
    if 0 < s.callbacks then some { s with streamDeadline := s.now, callbacks := s.callbacks - 1 } else none
  | .leave => if s.phase = .leaving then some s.leave else none

/-- A deadline runs out between records only, and a started callback runs before the reset. -/
def Orderly : Action → Prop
  | .timeout => s.record = []
  | .leave => s.callbacks = 0
  | _ => True

instance (a : Action) : Decidable (s.Orderly a) := by
  cases a <;> unfold Orderly <;> infer_instance

/-- The stream stands behind what the call has taken, and the text behind what was read. -/
structure Inv (sent : List Record) (s : Conn) : Prop where
  bytes : s.record ++ (s.stream ++ s.coming) = s.records.flatMap (·.bytes)
  complete : s.phase = .leaving → s.record ≠ [] → ∃ x rest, s.records = x :: rest ∧ x.bytes = s.record
  text : s.returned ++ (s.readBuffer ++ s.records.flatMap (·.payload)) = sent.flatMap (·.payload)
  busy : s.phase ≠ .idle → s.readBuffer = []
  idle : s.phase = .idle → s.record = [] ∧ s.deadline = 0
  faultless : s.faultless = true
  deadline : s.streamDeadline ≠ 0 → s.deadline ≠ 0 ∧ s.deadline ≤ s.streamDeadline
  callbacks : 0 < s.callbacks → s.deadline ≠ 0 ∧ s.deadline ≤ s.now

variable {sent : List Record} {s t : Conn} {a : Action}

/-- A whole header is that of the first record. -/
theorem first_record {record rest : Bytes} {records : List Record} (hlen : headerLength ≤ record.length)
    (h : record ++ rest = records.flatMap (·.bytes)) :
    ∃ x later, records = x :: later ∧ bodyLength record = bodyLength x.bytes ∧
      acceptsHeader record = true ∧ (record.length = x.bytes.length → x.bytes = record) := by
  cases records with
  | nil => simp_all [headerLength]
  | cons x later =>
    rw [List.flatMap_cons] at h
    have hx : headerLength ≤ x.bytes.length := by rw [x.length_eq]; omega
    have hat : ∀ i < headerLength, record.getD i 0 = x.bytes.getD i 0 := by
      intro i hi
      have hi' := congrArg (·[i]?) h
      simp only [List.getElem?_append_left (Nat.lt_of_lt_of_le hi hlen),
        List.getElem?_append_left (Nat.lt_of_lt_of_le hi hx)] at hi'
      simp only [List.getD_eq_getElem?_getD, hi']
    have hbody : bodyLength record = bodyLength x.bytes := by
      simp only [bodyLength, hat 26 (by decide), hat 27 (by decide)]
    refine ⟨x, later, rfl, hbody, ?_, fun heq => (List.append_inj h heq).1.symm⟩
    rw [← x.accepted, acceptsHeader, acceptsHeader, hbody, hat 0 (by decide)]

theorem Inv.copy (h : Inv sent s) (hidle : s.phase = .idle) (size : ℕ) : Inv sent (s.copy size) := by
  refine { h with text := ?_, busy := fun hbusy => absurd hidle hbusy }
  simp [← h.text, Conn.copy, ← List.append_assoc (s.readBuffer.take size)]

theorem Inv.fill (h : Inv sent s) (hphase : s.phase = .reading) (n : ℕ) :
    Inv sent ({ s with stream := s.stream.drop n }.fill (s.record ++ s.stream.take n)) := by
  have hrest : s.record ++ s.stream.take n ++ (s.stream.drop n ++ s.coming) = s.records.flatMap (·.bytes) := by
    simp [← h.bytes, ← List.append_assoc (s.stream.take n)]
  have hbusy := h.busy (by simp [hphase])
  generalize s.record ++ s.stream.take n = record at hrest
  unfold Conn.fill
  split
  · next hbad => grind [first_record (Nat.le_of_eq hbad.1.symm) hrest]
  · refine { h with bytes := hrest, complete := fun hwhole _ => ?_, busy := fun _ => hbusy, idle := by grind }
    have hlen : record.length = wanted record := by grind
    have hhead : headerLength ≤ record.length := by grind [wanted]
    obtain ⟨x, later, hrecs, hbody, -, heq⟩ := first_record hhead hrest
    exact ⟨x, later, hrecs, heq (by rw [hlen, wanted, if_neg (Nat.not_lt.mpr hhead), hbody, x.length_eq])⟩

theorem Inv.step (h : Inv sent s) (hok : s.Orderly a) (hst : s.step a = some t) : Inv sent t := by
  obtain ⟨hbytes, hcomp, htext, hbusy, hidle, hfaultless, hdeadline, hcallbacks⟩ := id h
  cases a <;> simp only [Conn.step, Option.some.injEq, Option.ite_none_right_eq_some] at hst
  case fill n => exact hst.2 ▸ h.fill hst.1.1 n
  case arrive n => subst hst; exact { h with bytes := by simp [← hbytes] }
  case leave =>
    obtain ⟨hphase, rfl⟩ := hst
    have hquiet : s.callbacks = 0 := hok
    unfold leave
    split
    · next hnil =>
      exact { h with
        bytes := hnil ▸ hbytes, complete := nofun, busy := nofun, idle := fun _ => ⟨rfl, rfl⟩, deadline := by simp
        callbacks := by simp [hquiet] }
    · next hrec =>
      obtain ⟨x, rest, hrecs, heq⟩ := hcomp hphase hrec
      have hbuffer := hbusy (by simp [hphase])
      simp only [hrecs, List.flatMap_cons, heq, hbuffer, List.append_cancel_left_eq] at hbytes htext ⊢
      refine Inv.copy ?_ rfl _
      exact ⟨hbytes, nofun, htext, nofun, fun _ => ⟨rfl, rfl⟩, hfaultless, by simp, by simp [hquiet]⟩
  case read size =>
    obtain ⟨hphase, rfl⟩ := hst
    unfold Conn.read
    split
    · exact h
    split
    · exact h.copy hphase size
    split
    · exact h
    · grind [Inv]
  all_goals grind [Inv, passed, Orderly]

/-- While deadlines run out between records and callbacks run before the reset, what the
reads return is a prefix of the peer's text, no read fails but for its own deadline, and
between reads the stream goes on where they stopped. -/
theorem reads_lose_nothing (h : Reach step Orderly (start sent) s) :
    s.returned <+: sent.flatMap (·.payload) ∧ s.faultless = true ∧ (s.phase = .idle →
      s.returned ++ (s.readBuffer ++ s.records.flatMap (·.payload)) = sent.flatMap (·.payload) ∧
      s.stream ++ s.coming = s.records.flatMap (·.bytes)) := by
  have hinv : Inv sent s := by
    refine h.invariant ⟨rfl, nofun, rfl, nofun, fun _ => ⟨rfl, rfl⟩, rfl, nofun, nofun⟩ ?_
    exact fun hx hok hst => hx.step hok hst
  refine ⟨⟨_, hinv.text⟩, hinv.faultless, fun hidle => ⟨hinv.text, ?_⟩⟩
  have hbytes := hinv.bytes
  rwa [(hinv.idle hidle).1] at hbytes

/-- A record with two bytes and their tag of sixteen. -/
def sample : Record where
  bytes := recordVersion :: List.replicate 26 0 ++ List.replicate 19 18
  payload := [7, 8]
  accepted := by decide
  length_eq := by decide

/-- A deadline between two records, and the second one later. -/
def resumed : List Action :=
  [.arrive 46, .read 1, .fill 28, .fill 18, .leave, .read 1, .setReadDeadline 2, .read 1, .tick, .expire, .callback,
    .timeout, .leave, .setReadDeadline 0, .arrive 46, .read 4, .fill 28, .fill 18, .leave]

theorem reads_lose_nothing_resumed :
    (finalChecked step Orderly (start [sample, sample]) resumed (by decide +kernel)).returned <+: [7, 8, 7, 8] :=
  (reads_lose_nothing (reach_finalChecked resumed _)).1

/-- A deadline inside a header loses its first byte, and the next read fails. -/
theorem read_fails_after_deadline :
    (run step (start [sample]) [.arrive 1, .setReadDeadline 2, .read 1, .fill 1, .tick, .timeout, .leave,
      .setReadDeadline 0, .arrive 45, .read 1, .fill 28]).any (fun s => s.faultless = false) = true := by
  decide +kernel

end Conn

end Paperboat.RelayCarrier
