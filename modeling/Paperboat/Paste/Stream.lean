import Mathlib

/-! The part of the paste interceptor that `stateMu` guards: the bytes withheld from
`dest`, whether they are the body of a bracketed paste, and what was written to `dest`.
Ordinary bytes go through at once, a paste is held back to its end marker and then
either written with its markers or handed to an upload, and bytes that may begin a
marker wait for more. -/

namespace Paperboat.Paste

abbrev Bytes := List UInt8

/-- ESC `[200~` -/
def startMarker : Bytes := [0x1b, 0x5b, 0x32, 0x30, 0x30, 0x7e]

/-- ESC `[201~` -/
def endMarker : Bytes := [0x1b, 0x5b, 0x32, 0x30, 0x31, 0x7e]

def framed (body : Bytes) : Bytes := startMarker ++ body ++ endMarker

/-! ### Pieces of a terminal stream -/

/-- Ordinary bytes, or the body of a paste that went through an upload. -/
inductive Piece where
  | plain (p : Bytes)
  | paste (body : Bytes)

namespace Piece

def bytes : Piece → Bytes
  | plain p => p
  | paste body => framed body

def plainBytes : Piece → Bytes
  | plain p => p
  | paste _ => []

def body? : Piece → Option Bytes
  | plain _ => none
  | paste body => some body

end Piece

def bytesOf (ps : List Piece) : Bytes := ps.flatMap Piece.bytes

/-- The stream without its uploaded pastes. -/
def plainOf (ps : List Piece) : Bytes := ps.flatMap Piece.plainBytes

/-- The bodies of the uploaded pastes. -/
def pastesOf (ps : List Piece) : List Bytes := ps.filterMap Piece.body?

section Pieces

variable (ps qs : List Piece) (p : Piece)

@[simp] theorem bytesOf_append : bytesOf (ps ++ qs) = bytesOf ps ++ bytesOf qs :=
  List.flatMap_append

@[simp] theorem plainOf_append : plainOf (ps ++ qs) = plainOf ps ++ plainOf qs :=
  List.flatMap_append

@[simp] theorem pastesOf_append : pastesOf (ps ++ qs) = pastesOf ps ++ pastesOf qs :=
  List.filterMap_append

@[simp] theorem bytesOf_singleton : bytesOf [p] = p.bytes := List.flatMap_singleton ..

@[simp] theorem plainOf_singleton : plainOf [p] = p.plainBytes := List.flatMap_singleton ..

@[simp] theorem pastesOf_plain (b : Bytes) : pastesOf [.plain b] = [] := rfl

@[simp] theorem pastesOf_paste (b : Bytes) : pastesOf [.paste b] = [b] := rfl

end Pieces

/-- A stream without uploads is its ordinary bytes. -/
theorem bytesOf_eq_plainOf {ps : List Piece} (h : pastesOf ps = []) : bytesOf ps = plainOf ps := by
  induction ps with
  | nil => rfl
  | cons p ps ih =>
    cases p with
    | plain b => exact congrArg (b ++ ·) (ih h)
    | paste b => cases h

/-- A stream with one upload has its frame somewhere among the ordinary bytes. -/
theorem bytesOf_of_pastesOf_eq_singleton {ps : List Piece} (h : pastesOf ps = [b]) :
    ∃ l r, bytesOf ps = l ++ framed b ++ r ∧ plainOf ps = l ++ r := by
  induction ps with
  | nil => cases h
  | cons p ps ih =>
    cases p with
    | plain p =>
      obtain ⟨l, r, hb, hp⟩ := ih h
      exact ⟨p ++ l, r, by simpa [bytesOf, Piece.bytes] using hb,
        by simpa [plainOf, Piece.plainBytes] using hp⟩
    | paste b' =>
      obtain ⟨rfl, hps⟩ := List.cons.inj h
      exact ⟨[], bytesOf ps, rfl, (bytesOf_eq_plainOf hps).symm⟩

/-! ### The stream -/

structure Stream where
  buf : Bytes := []
  inPaste : Bool := false
  /-- The bodies handed to `uploadAsync`; the sequence number of an upload is its place. -/
  uploads : List Bytes := []
  pendingUploads : ℕ := 0
  /-- How many pastes came to their end marker. -/
  ended : ℕ := 0
  /-- The writes to `dest`. -/
  dest : List Piece := []

/-- How many bytes, at most `n`, to withhold. -/
def partialSuffixUpTo (buf marker : Bytes) : ℕ → ℕ
  | 0 => 0
  | n + 1 =>
    if buf.drop (buf.length - (n + 1)) = marker.take (n + 1) then n + 1
    else partialSuffixUpTo buf marker n

/-- The length of the longest suffix of `buf` that is a proper prefix of `marker`. -/
def partialSuffix (buf marker : Bytes) : ℕ :=
  partialSuffixUpTo buf marker (min (marker.length - 1) buf.length)

namespace Stream

def writeDest (s : Stream) (p : Bytes) : Stream := { s with dest := s.dest ++ [.plain p] }

/-- The bytes between two markers are written if there are any. -/
def writeSome (s : Stream) (p : Bytes) : Stream := if p = [] then s else s.writeDest p

/-- The completion of an upload is written. -/
def publish (s : Stream) (body : Bytes) : Stream :=
  { s with dest := s.dest ++ [.paste body], pendingUploads := s.pendingUploads - 1 }

def append (s : Stream) (p : Bytes) : Stream := { s with buf := s.buf ++ p }

/-- Write the bytes before the next start marker. The second component tells whether
there was one. -/
def drainNormal (s : Stream) : Stream × Bool :=
  match s.buf.dropInfix? startMarker with
  | none =>
    let cut := s.buf.length - partialSuffix s.buf startMarker
    ({ s.writeSome (s.buf.take cut) with buf := s.buf.drop cut }, false)
  | some (before, after) => ({ s.writeSome before with buf := after, inPaste := true }, true)

/-- Whether a paste is uploaded depends on the policy and on the files it names. The
oracle answers for the `n`th paste that ends. -/
abbrev Policy := ℕ → Bytes → Bool

/-- Handle the paste if its end marker is there. -/
def drainPaste (policy : Policy) (s : Stream) : Stream × Bool :=
  match s.buf.dropInfix? endMarker with
  | none => (s, false)
  | some (body, after) =>
    let s' := { s with buf := after, inPaste := false, ended := s.ended + 1 }
    if policy s.ended body then
      ({ s' with uploads := s.uploads ++ [body], pendingUploads := s.pendingUploads + 1 }, true)
    else (s'.writeDest (framed body), true)

/-- One round of `drain`. -/
def drainOnce (policy : Policy) (s : Stream) : Stream × Bool :=
  if s.inPaste then s.drainPaste policy else s.drainNormal

def drainFor (policy : Policy) : ℕ → Stream → Stream
  | 0, s => s
  | n + 1, s => if (s.drainOnce policy).2 then drainFor policy n (s.drainOnce policy).1
    else (s.drainOnce policy).1

/-- Every round that is not the last takes a marker off `buf`. -/
def drain (policy : Policy) (s : Stream) : Stream := s.drainFor policy (s.buf.length + 1)

/-- What `dest` has not got: the start marker was taken off `buf`. -/
def withheld (s : Stream) : Bytes := (if s.inPaste then startMarker else []) ++ s.buf

def flush (s : Stream) : Stream :=
  if s.buf = [] ∧ s.inPaste = false then s
  else { s.writeDest s.withheld with buf := [], inPaste := false }

/-- The flush timer gives up on a partial start marker. -/
def flushPartial (s : Stream) : Stream :=
  if s.inPaste = false ∧ s.buf ≠ [] then { s.writeDest s.buf with buf := [] } else s

/-- Bytes that need not go through the worker. -/
def ordinary (s : Stream) (p : Bytes) : Bool :=
  !s.inPaste && s.buf.isEmpty && (p.dropInfix? startMarker).isNone &&
    partialSuffix p startMarker == 0

theorem eq_of_dropInfix? {l m x y : Bytes} (h : l.dropInfix? m = some (x, y)) : l = x ++ m ++ y := by
  obtain ⟨⟨m', hl, hm⟩, -⟩ := List.dropInfix?_eq_some_iff.mp h
  rw [hl, eq_of_beq hm]

variable {s s' : Stream} {t p b : Bytes} {policy : Policy}

/-! ### Nothing is lost -/

/-- `dest` and the uploads have the bytes `t` between them, up to what is withheld:
`t` divides into the ordinary bytes that were written, in order, and the pastes that
are uploaded, in order. -/
def Accounts (s : Stream) (t : Bytes) : Prop :=
  ∃ pieces, bytesOf pieces ++ s.withheld = t ∧ plainOf pieces = plainOf s.dest ∧
    pastesOf pieces = s.uploads

theorem accounts_empty : Accounts {} [] := ⟨[], rfl, rfl, rfl⟩

theorem withheld_append (s : Stream) (p : Bytes) : (s.append p).withheld = s.withheld ++ p :=
  (List.append_assoc ..).symm

theorem Accounts.append (h : s.Accounts t) : (s.append p).Accounts (t ++ p) := by
  obtain ⟨ps, ht, hp⟩ := h
  exact ⟨ps, by rw [withheld_append, ← List.append_assoc, ht], hp⟩

/-- The front of the withheld bytes is written or uploaded. -/
theorem Accounts.piece (h : s.Accounts t) (piece : Piece) (hw : s.withheld = piece.bytes ++ s'.withheld)
    (hd : plainOf s'.dest = plainOf s.dest ++ plainOf [piece]) (hu : s'.uploads = s.uploads ++ pastesOf [piece]) :
    s'.Accounts t := by
  obtain ⟨ps, ht, hp, hq⟩ := h
  refine ⟨ps ++ [piece], ?_, ?_, ?_⟩
  · rw [← ht, hw]
    simp
  · rw [hd, ← hp]
    simp
  · rw [hu, ← hq]
    simp

theorem Accounts.written (h : s.Accounts t) (hw : s.withheld = b ++ s'.withheld)
    (hd : plainOf s'.dest = plainOf s.dest ++ b) (hu : s'.uploads = s.uploads) : s'.Accounts t :=
  h.piece (.plain b) hw (by simpa [Piece.plainBytes] using hd) (by simpa using hu)

@[simp] theorem plainOf_writeSome (s : Stream) (p : Bytes) :
    plainOf (s.writeSome p).dest = plainOf s.dest ++ p := by
  unfold writeSome
  split
  next h => simp [h]
  next => simp [writeDest, Piece.plainBytes]

@[simp] theorem uploads_writeSome (s : Stream) (p : Bytes) : (s.writeSome p).uploads = s.uploads := by
  unfold writeSome
  split <;> rfl

@[simp] theorem inPaste_writeSome (s : Stream) (p : Bytes) : (s.writeSome p).inPaste = s.inPaste := by
  unfold writeSome
  split <;> rfl

section

variable (h : s.Accounts t)

include h

theorem Accounts.drainNormal (hin : s.inPaste = false) : s.drainNormal.1.Accounts t := by
  unfold Stream.drainNormal
  have hw : s.withheld = s.buf := by simp [withheld, hin]
  split
  next =>
    refine h.written ?_ (plainOf_writeSome ..) (uploads_writeSome ..)
    rw [hw, withheld, inPaste_writeSome, hin]
    exact (List.take_append_drop ..).symm
  next before after hb =>
    refine h.written ?_ (plainOf_writeSome ..) (uploads_writeSome ..)
    rw [hw, eq_of_dropInfix? hb, List.append_assoc]
    rfl

theorem Accounts.drainPaste (hin : s.inPaste = true) : (s.drainPaste policy).1.Accounts t := by
  unfold Stream.drainPaste
  split
  next => exact h
  next body after hb =>
    have hw : s.withheld = framed body ++ after := by
      simp [withheld, hin, eq_of_dropInfix? hb, framed]
    split
    · exact h.piece (.paste _) hw (by simp [Piece.plainBytes]) rfl
    · exact h.written hw (by simp [writeDest, Piece.plainBytes]) rfl

theorem Accounts.drainOnce : (s.drainOnce policy).1.Accounts t := by
  unfold Stream.drainOnce
  split
  next hin => exact h.drainPaste hin
  next hin => exact h.drainNormal (by simpa using hin)

theorem Accounts.drainFor (n : ℕ) : (s.drainFor policy n).Accounts t := by
  induction n generalizing s with
  | zero => exact h
  | succ n ih =>
    unfold Stream.drainFor
    split
    · exact ih h.drainOnce
    · exact h.drainOnce

theorem Accounts.drain : (s.drain policy).Accounts t := h.drainFor _

omit h in
theorem withheld_flush (s : Stream) : s.flush.withheld = [] := by
  unfold flush
  split
  next h => simp [withheld, h]
  next => rfl

theorem Accounts.flush : s.flush.Accounts t := by
  unfold Stream.flush
  split
  next => exact h
  next => exact h.written (List.append_nil _).symm (by simp [writeDest, Piece.plainBytes]) rfl

theorem Accounts.flushPartial : s.flushPartial.Accounts t := by
  unfold Stream.flushPartial
  split
  next hp =>
    refine h.written (b := s.buf) ?_ (by simp [writeDest, Piece.plainBytes]) rfl
    simp [withheld, writeDest, hp.1]
  next => exact h

/-- Bytes that overtake nothing may be written at once. -/
theorem Accounts.writeDest (hw : s.withheld = []) : (s.writeDest p).Accounts (t ++ p) := by
  refine h.append.written (b := p) ?_ (by simp [Stream.writeDest, Stream.append, Piece.plainBytes]) rfl
  have hw' : (s.writeDest p).withheld = [] := hw
  rw [withheld_append, hw, hw', List.append_nil, List.nil_append]

theorem Accounts.publish : (s.publish b).Accounts t := by
  obtain ⟨ps, ht, hp, hq⟩ := h
  exact ⟨ps, ht, by simp [hp, Stream.publish, Piece.plainBytes], hq⟩

end

theorem withheld_of_ordinary (h : s.ordinary p = true) : s.withheld = [] := by
  simp only [ordinary, Bool.and_eq_true, Bool.not_eq_true', List.isEmpty_iff] at h
  simp [withheld, h.1.1.1, h.1.1.2]

/-! ### The uploads -/

/-- What the sections of `stateMu` do to the uploads: they may start some and publish
none. -/
def Grows (s s' : Stream) : Prop :=
  ∃ more, s'.uploads = s.uploads ++ more ∧
    s'.pendingUploads = s.pendingUploads + more.length ∧ pastesOf s'.dest = pastesOf s.dest

theorem Grows.refl (s : Stream) : s.Grows s := ⟨[], by simp⟩

theorem Grows.trans {s₁ s₂ s₃ : Stream} (h : s₁.Grows s₂) (h' : s₂.Grows s₃) : s₁.Grows s₃ := by
  obtain ⟨m, hu, hp, hd⟩ := h
  obtain ⟨m', hu', hp', hd'⟩ := h'
  refine ⟨m ++ m', ?_, ?_, hd'.trans hd⟩
  · rw [hu', hu, List.append_assoc]
  · rw [hp', hp, List.length_append]
    omega

/-- A section that starts no upload. -/
theorem Grows.of_eq (hu : s'.uploads = s.uploads) (hp : s'.pendingUploads = s.pendingUploads)
    (hd : pastesOf s'.dest = pastesOf s.dest) : s.Grows s' :=
  ⟨[], by simp [hu], by simp [hp], hd⟩

theorem grows_writeDest (s : Stream) (p : Bytes) : s.Grows (s.writeDest p) :=
  .of_eq rfl rfl (by simp [writeDest])

theorem grows_writeSome (s : Stream) (p : Bytes) : s.Grows (s.writeSome p) := by
  unfold writeSome
  split
  · exact .refl s
  · exact grows_writeDest s p

theorem grows_drainOnce (s : Stream) : s.Grows (s.drainOnce policy).1 := by
  unfold drainOnce drainPaste drainNormal
  split
  · split
    next => exact .refl s
    next body after _ =>
      split
      · exact ⟨[body], rfl, rfl, rfl⟩
      · exact .of_eq rfl rfl (by simp [writeDest])
  · split
    next => exact (grows_writeSome s _).trans (.of_eq rfl rfl rfl)
    next => exact (grows_writeSome s _).trans (.of_eq rfl rfl rfl)

theorem grows_drain (s : Stream) : s.Grows (s.drain policy) := by
  have hfor : ∀ n (r : Stream), r.Grows (r.drainFor policy n) := by
    intro n
    induction n with
    | zero => exact fun r => .refl r
    | succ n ih =>
      intro r
      unfold drainFor
      split
      · exact (grows_drainOnce r).trans (ih _)
      · exact grows_drainOnce r
  exact hfor _ s

theorem grows_flush (s : Stream) : s.Grows s.flush := by
  unfold flush
  split
  · exact .refl s
  · exact .of_eq rfl rfl (by simp [writeDest])

theorem grows_flushPartial (s : Stream) : s.Grows s.flushPartial := by
  unfold flushPartial
  split
  · exact .of_eq rfl rfl (by simp [writeDest])
  · exact .refl s

end Stream

end Paperboat.Paste
