import Mathlib

/-! The terminal modes that a new attachment restores, read off the output of a terminal. `Consume`
searches a chunk for escape sequences and keeps an unfinished one at its end for the next chunk, up
to 64 bytes. It is compared with a scanner that reads byte by byte and keeps every unfinished
sequence, for which the chunks make no difference. -/

namespace Paperboat.Session

abbrev Bytes := List UInt8

structure TerminalModes where
  alternateScreen : Bool := false
  mouseClick : Bool := false
  mouseDrag : Bool := false
  mouseMotion : Bool := false
  mouseURXVT : Bool := false
  mouseSGR : Bool := false
  focusEvents : Bool := false
  bracketedPaste : Bool := false
  deriving DecidableEq

def escape : UInt8 := 0x1b

def text (chars : List Char) : Bytes := chars.map Char.toUInt8

namespace TerminalModes

/-- One parameter of a private mode sequence. -/
def set (m : TerminalModes) (value : Bytes) (enabled : Bool) : TerminalModes :=
  if value ∈ [text ['4', '7'], text ['1', '0', '4', '7'], text ['1', '0', '4', '9']] then
    { m with alternateScreen := enabled }
  else if value = text ['1', '0', '0', '0'] then { m with mouseClick := enabled }
  else if value = text ['1', '0', '0', '2'] then { m with mouseDrag := enabled }
  else if value = text ['1', '0', '0', '3'] then { m with mouseMotion := enabled }
  else if value = text ['1', '0', '1', '5'] then { m with mouseURXVT := enabled }
  else if value = text ['1', '0', '0', '6'] then { m with mouseSGR := enabled }
  else if value = text ['1', '0', '0', '4'] then { m with focusEvents := enabled }
  else if value = text ['2', '0', '0', '4'] then { m with bracketedPaste := enabled }
  else m

def setPrivate (m : TerminalModes) (params : Bytes) (enabled : Bool) : TerminalModes :=
  (params.splitOn ';'.toUInt8).foldl (·.set · enabled) m

/-- The sequence that turns one mode on. -/
def enable (id : Bytes) : Bytes := [escape] ++ text ['[', '?'] ++ id ++ text ['h']

def resumeSequence (m : TerminalModes) : Bytes :=
  [(m.alternateScreen, text ['1', '0', '4', '9']), (m.mouseClick, text ['1', '0', '0', '0']),
    (m.mouseDrag, text ['1', '0', '0', '2']), (m.mouseMotion, text ['1', '0', '0', '3']),
    (m.mouseURXVT, text ['1', '0', '1', '5']), (m.mouseSGR, text ['1', '0', '0', '6']),
    (m.bracketedPaste, text ['2', '0', '0', '4']), (m.focusEvents, text ['1', '0', '0', '4'])].flatMap
    fun item => if item.1 then enable item.2 else []

end TerminalModes

def isFinal (b : UInt8) : Bool := 0x40 ≤ b && b ≤ 0x7e

structure TerminalModeTracker where
  modes : TerminalModes := {}
  tail : Bytes := []

/-- The turns of the loop of `Consume`; each removes at least two bytes. -/
def consumeLoop : ℕ → TerminalModes → Bytes → TerminalModeTracker
  | 0, modes, _ => ⟨modes, []⟩
  | fuel + 1, modes, data =>
    match data.dropWhile (· != escape) with
    | [] => ⟨modes, []⟩
    | [first] => ⟨modes, [first]⟩
    | first :: second :: rest =>
      if second = 'c'.toUInt8 then consumeLoop fuel {} rest
      else if second ≠ '['.toUInt8 then consumeLoop fuel modes rest
      else
        match rest.dropWhile (!isFinal ·) with
        | [] => ⟨modes, if (first :: second :: rest).length ≤ 64 then first :: second :: rest else []⟩
        | final :: after =>
          consumeLoop fuel
            (if (final = 'h'.toUInt8 ∨ final = 'l'.toUInt8) ∧ 3 < (first :: second :: rest).length ∧
                rest.head? = some '?'.toUInt8 then
              modes.setPrivate ((rest.takeWhile (!isFinal ·)).drop 1) (final = 'h'.toUInt8)
            else modes) after

def TerminalModeTracker.consume (t : TerminalModeTracker) (data : Bytes) : TerminalModeTracker :=
  consumeLoop (t.tail ++ data).length t.modes (t.tail ++ data)

/-! ### Byte by byte -/

/-- The modes and the sequence that has begun and not ended. -/
structure Scan where
  modes : TerminalModes := {}
  pending : Bytes := []

namespace Scan

/-- The end of a control sequence, with what stands between its introducer and its final byte. -/
def finish (modes : TerminalModes) (body : Bytes) (final : UInt8) : TerminalModes :=
  if (final = 'h'.toUInt8 ∨ final = 'l'.toUInt8) ∧ body.head? = some '?'.toUInt8 then
    modes.setPrivate (body.drop 1) (final = 'h'.toUInt8)
  else modes

def step (s : Scan) (b : UInt8) : Scan :=
  match s.pending with
  | [] => if b = escape then { s with pending := [b] } else s
  | [first] =>
    if b = 'c'.toUInt8 then {}
    else if b = '['.toUInt8 then { s with pending := [first, b] }
    else { s with pending := [] }
  | _ :: _ :: body =>
    if isFinal b then ⟨finish s.modes body b, []⟩ else { s with pending := s.pending ++ [b] }

def scan (s : Scan) (data : Bytes) : Scan := data.foldl step s

/-- What `Consume` keeps: the unfinished sequence, unless it is too long. -/
def kept (s : Scan) : TerminalModeTracker := ⟨s.modes, if s.pending.length ≤ 64 then s.pending else []⟩

theorem scan_append (s : Scan) (x y : Bytes) : s.scan (x ++ y) = (s.scan x).scan y := List.foldl_append

/-- Outside of a sequence everything up to an escape is skipped. -/
theorem scan_dropWhile (m : TerminalModes) (data : Bytes) :
    scan ⟨m, []⟩ data = scan ⟨m, []⟩ (data.dropWhile (· != escape)) := by
  induction data with
  | nil => rfl
  | cons b data ih =>
    by_cases hb : b = escape
    · simp [hb]
    · rw [List.dropWhile_cons_of_pos (by simpa using hb), ← ih]
      simp [scan, step, hb]

/-- Inside of a control sequence everything up to its final byte is kept. -/
theorem scan_body (m : TerminalModes) (first second : UInt8) (body data : Bytes) :
    scan ⟨m, first :: second :: body⟩ data =
      match data.dropWhile (!isFinal ·) with
      | [] => ⟨m, first :: second :: (body ++ data)⟩
      | final :: after => scan ⟨finish m (body ++ data.takeWhile (!isFinal ·)) final, []⟩ after := by
  induction data generalizing body with
  | nil => simp [scan]
  | cons b data ih =>
    by_cases hb : isFinal b
    · simp [scan, step, hb]
    · have hstep : scan ⟨m, first :: second :: body⟩ (b :: data) =
          scan ⟨m, first :: second :: (body ++ [b])⟩ data := by
        simp [scan, step, hb]
      rw [hstep, ih, List.dropWhile_cons_of_pos (by simpa using hb), List.takeWhile_cons_of_pos (by simpa using hb)]
      simp

/-- The test of `Consume` for a private mode sequence, which also asks for a length. -/
theorem finish_eq (first second final : UInt8) (rest after : Bytes)
    (hfinal : rest.dropWhile (!isFinal ·) = final :: after) (m : TerminalModes) :
    (if (final = 'h'.toUInt8 ∨ final = 'l'.toUInt8) ∧ 3 < (first :: second :: rest).length ∧
        rest.head? = some '?'.toUInt8 then
      m.setPrivate ((rest.takeWhile (!isFinal ·)).drop 1) (final = 'h'.toUInt8)
    else m) = finish m (rest.takeWhile (!isFinal ·)) final := by
  have hprivate : (3 < (first :: second :: rest).length ∧ rest.head? = some '?'.toUInt8) ↔
      (rest.takeWhile (!isFinal ·)).head? = some '?'.toUInt8 := by
    have hmark : isFinal '?'.toUInt8 = false := by decide
    match rest with
    | [] => simp
    | [b] =>
      by_cases hb : isFinal b
      · simp [hb]
      · simp [hb] at hfinal
    | b :: c :: rest =>
      by_cases hb : isFinal b
      · have hne : b ≠ '?'.toUInt8 := by rintro rfl; simp [hmark] at hb
        simp [hb, hne]
      · simp [hb]
  simp only [hprivate, finish]

theorem consumeLoop_eq (fuel : ℕ) (m : TerminalModes) (data : Bytes) (hfuel : data.length ≤ fuel) :
    consumeLoop fuel m data = (scan ⟨m, []⟩ data).kept := by
  induction fuel generalizing m data with
  | zero => simp [List.length_eq_zero_iff.mp (Nat.le_zero.mp hfuel), consumeLoop, scan, kept]
  | succ fuel ih =>
    rw [consumeLoop, scan_dropWhile]
    have hlen : (data.dropWhile (· != escape)).length ≤ fuel + 1 :=
      Nat.le_trans (List.dropWhile_sublist _).length_le hfuel
    have hhead := List.head?_dropWhile_not (· != escape) data
    split
    next heq => simp [heq, scan, kept]
    next first heq =>
      obtain rfl : first = escape := by simpa [heq] using hhead
      simp [heq, scan, step, kept]
    next first second rest heq =>
      obtain rfl : first = escape := by simpa [heq] using hhead
      rw [heq] at hlen
      simp only [List.length_cons] at hlen
      have hscan : scan ⟨m, []⟩ (escape :: second :: rest) = scan (step ⟨m, [escape]⟩ second) rest := by
        simp [scan, step]
      rw [heq, hscan]
      by_cases hreset : second = 'c'.toUInt8
      · rw [if_pos hreset, ih {} rest (by omega)]
        simp [step, hreset]
      rw [if_neg hreset]
      by_cases hopens : second = '['.toUInt8
      · subst hopens
        have hopen : step ⟨m, [escape]⟩ '['.toUInt8 = ⟨m, escape :: '['.toUInt8 :: []⟩ := rfl
        rw [if_neg (by simp), hopen, scan_body]
        split
        next => rfl
        next final after hfinal =>
          have hafter := (List.dropWhile_sublist (!isFinal ·) (l := rest)).length_le
          rw [hfinal, List.length_cons] at hafter
          rw [finish_eq _ _ _ _ _ hfinal, ih _ after (by omega), List.nil_append]
      · rw [if_pos hopens, ih m rest (by omega)]
        simp [step, hreset, hopens]

/-- An unfinished sequence is read again as it was. -/
def Unfinished : Bytes → Prop
  | [] => True
  | [first] => first = escape
  | first :: second :: body => first = escape ∧ second = '['.toUInt8 ∧ ∀ b ∈ body, isFinal b = false

theorem Unfinished.step {s : Scan} (h : Unfinished s.pending) (b : UInt8) : Unfinished (s.step b).pending := by
  obtain ⟨m, pending⟩ := s
  match pending with
  | [] =>
    by_cases hb : b = escape <;> simp [Scan.step, hb, Unfinished]
  | [first] =>
    obtain rfl : first = escape := h
    unfold Scan.step
    dsimp only
    split_ifs with hreset hintroducer
    · trivial
    · exact ⟨rfl, hintroducer, by simp⟩
    · trivial
  | first :: second :: body =>
    obtain ⟨hfirst, hsecond, hbody⟩ := h
    unfold Scan.step
    dsimp only
    split_ifs with hfinal
    · trivial
    · refine ⟨hfirst, hsecond, fun c hc => ?_⟩
      rcases List.mem_append.mp hc with hc | hc
      · exact hbody c hc
      · rw [List.mem_singleton.mp hc]
        simpa using hfinal

theorem unfinished_scan (data : Bytes) : Unfinished (scan {} data).pending := by
  induction data using List.reverseRecOn with
  | nil => trivial
  | append_singleton data b ih =>
    rw [scan_append]
    exact ih.step b

theorem scan_pending (m : TerminalModes) {pending : Bytes} (h : Unfinished pending) :
    scan ⟨m, []⟩ pending = ⟨m, pending⟩ := by
  match pending with
  | [] => rfl
  | [first] =>
    obtain rfl : first = escape := h
    rfl
  | first :: second :: body =>
    obtain ⟨rfl, rfl, hbody⟩ := h
    have hopen : scan ⟨m, []⟩ (escape :: '['.toUInt8 :: body) = scan ⟨m, escape :: '['.toUInt8 :: []⟩ body := rfl
    rw [hopen, scan_body, List.dropWhile_eq_nil_iff.mpr (by simpa using hbody)]
    simp

end Scan

/-- Wherever the output is cut within a sequence, at most 64 bytes of it stand before the cut. -/
def CutShort (chunks : List Bytes) : Prop :=
  ∀ n < chunks.length, (Scan.scan {} (chunks.take n).flatten).pending.length ≤ 64

instance (chunks : List Bytes) : Decidable (CutShort chunks) := inferInstanceAs (Decidable (∀ n < _, _))

theorem consume_chunks (chunks : List Bytes) (h : CutShort chunks) :
    chunks.foldl TerminalModeTracker.consume {} = (Scan.scan {} chunks.flatten).kept := by
  induction chunks using List.reverseRecOn with
  | nil => rfl
  | append_singleton chunks chunk ih =>
    have hshort : CutShort chunks := by
      intro n hn
      have := h n (by rw [List.length_append]; omega)
      rwa [List.take_append_of_le_length (by omega)] at this
    have hcut := h chunks.length (by simp)
    rw [List.take_left] at hcut
    have hkept : (Scan.scan {} chunks.flatten).kept = ⟨(Scan.scan {} chunks.flatten).modes,
        (Scan.scan {} chunks.flatten).pending⟩ := by rw [Scan.kept, if_pos hcut]
    rw [List.foldl_concat, ih hshort, hkept, TerminalModeTracker.consume, Scan.consumeLoop_eq _ _ _ (Nat.le_refl _),
      Scan.scan_append, Scan.scan_pending _ (Scan.unfinished_scan _), List.flatten_append, Scan.scan_append]
    simp

theorem consume_eq (data : Bytes) : TerminalModeTracker.consume {} data = (Scan.scan {} data).kept :=
  Scan.consumeLoop_eq _ _ _ (Nat.le_refl _)

/-! ### Resuming -/

/-- One item of the resume sequence sets its mode, if it is there at all. -/
theorem scan_item (m : TerminalModes) (on : Bool) (id rest : Bytes)
    (hid : Scan.scan ⟨m, []⟩ (TerminalModes.enable id) = ⟨m.set id true, []⟩) :
    Scan.scan ⟨m, []⟩ ((if on then TerminalModes.enable id else []) ++ rest) =
      Scan.scan ⟨if on then m.set id true else m, []⟩ rest := by
  rw [Scan.scan_append]
  cases on
  · rfl
  · rw [if_pos rfl, hid, if_pos rfl]

theorem scan_resumeSequence (m : TerminalModes) : (Scan.scan {} m.resumeSequence).modes = m := by
  simp only [TerminalModes.resumeSequence, List.flatMap_cons, List.flatMap_nil]
  iterate 8 rw [scan_item _ _ _ _ rfl]
  obtain ⟨a, b, c, d, e, f, g, h⟩ := m
  cases a <;> cases b <;> cases c <;> cases d <;> cases e <;> cases f <;> cases g <;> cases h <;> rfl

/-- The modes do not depend on how the output is cut into chunks, and a resume sequence restores
its modes. -/
theorem modes_of_chunks (chunks : List Bytes) (m : TerminalModes) :
    (CutShort chunks → (chunks.foldl TerminalModeTracker.consume {}).modes =
      (TerminalModeTracker.consume {} chunks.flatten).modes) ∧
      (TerminalModeTracker.consume {} m.resumeSequence).modes = m := by
  constructor
  · intro h
    rw [consume_chunks chunks h, consume_eq]
  · rw [consume_eq]
    exact scan_resumeSequence m

/-- The sequence for the alternate screen with more separators, and a cut before its final byte. -/
def cutBeforeFinal (separators : ℕ) : List Bytes :=
  [[escape] ++ text ['[', '?', '1', '0', '4', '9'] ++ List.replicate separators ';'.toUInt8, text ['h']]

theorem modes_of_chunks_cut :
    ((cutBeforeFinal 3).foldl TerminalModeTracker.consume {}).modes =
        (TerminalModeTracker.consume {} (cutBeforeFinal 3).flatten).modes ∧
      ((cutBeforeFinal 3).foldl TerminalModeTracker.consume {}).modes = { alternateScreen := true } :=
  ⟨(modes_of_chunks _ {}).1 (by decide), by decide⟩

/-- A longer unfinished sequence is dropped at the cut. -/
theorem long_sequence_lost :
    (TerminalModeTracker.consume {} (cutBeforeFinal 58).flatten).modes = { alternateScreen := true } ∧
      ((cutBeforeFinal 58).foldl TerminalModeTracker.consume {}).modes = {} := by
  constructor <;> decide +kernel

end Paperboat.Session
