import Paperboat.TransferCrypto.Separation

/-! The manifest and the final receipt of a transfer. The parsers go over the input with a
`binaryDecoder`, whose first failure makes every later read empty, and accept a value only if it is
encoded as the input. Slices and words of Go panic out of bounds: a decoder that panics has no
result here. `utf8.ValidString` is a parameter. -/

namespace Paperboat.TransferCrypto

open Codec
open TransferContext (appendString)

def maxFilenameBytes : ℕ := 255

def maxPathBytes : ℕ := 4096

def maxManifestFiles : ℕ := 65535

structure ManifestFile where
  transferID : Bytes
  fileOrdinal : UInt64
  name : Bytes
  relativeDestination : Bytes
  mode : UInt32
  size : UInt64
  plaintextSHA256 : Vector UInt8 32
  chunkCount : UInt64
  deriving DecidableEq

structure Manifest where
  batchID : Bytes
  files : List ManifestFile
  deriving DecidableEq

/-- Any byte; a receipt that is accepted has one of the three values below. -/
abbrev CollisionResult := UInt8

def collisionOriginal : CollisionResult := 1

def collisionRejected : CollisionResult := 3

structure ReceiptFile where
  fileOrdinal : UInt64
  result : CollisionResult
  relativePath : Bytes
  deriving DecidableEq

structure FinalReceipt where
  manifestHash : Vector UInt8 32
  files : List ReceiptFile
  deriving DecidableEq

/-! ### Encoding -/

section

variable (validString : Bytes → Bool)

def text (chars : List Char) : Bytes := chars.map Char.toUInt8

def validFilename (value : Bytes) : Bool :=
  0 < value.length && value.length ≤ maxFilenameBytes && validString value && value != text ['.'] &&
    value != text ['.', '.'] && !value.any fun c => text ['/', '\\', '\x00'] |>.contains c

def validRelativePath (value : Bytes) : Bool :=
  0 < value.length && value.length ≤ maxPathBytes && validString value && value.head? != some '/'.toUInt8 &&
    !(value.any fun c => text ['\\', '\x00'] |>.contains c) &&
    (value.splitOn '/'.toUInt8).all fun part => part != [] && part != text ['.'] && part != text ['.', '.']

def wantChunks (size : UInt64) : UInt64 :=
  let full := size / 2 ^ 20
  let chunks := if size % 2 ^ 20 ≠ 0 then full + 1 else full
  if chunks = 0 then 1 else chunks

def validateManifestFile (file : ManifestFile) : Bool :=
  identifierPattern file.transferID && file.fileOrdinal != recordFileOrdinal && validFilename validString file.name &&
    validRelativePath validString file.relativeDestination && file.mode &&& ~~~0o777 == 0 &&
    !allZero file.plaintextSHA256.toList && file.chunkCount == wantChunks file.size

def validReceiptFile (file : ReceiptFile) : Bool :=
  collisionOriginal ≤ file.result && file.result ≤ collisionRejected &&
    if file.result = collisionRejected then file.relativePath == [] else validRelativePath validString file.relativePath

def ManifestFile.encode (file : ManifestFile) : Bytes :=
  appendString file.transferID ++ (bigEndian 8 file.fileOrdinal.toNat ++ (appendString file.name ++
    (appendString file.relativeDestination ++ (bigEndian 4 file.mode.toNat ++ (bigEndian 8 file.size.toNat ++
      (file.plaintextSHA256.toList ++ bigEndian 8 file.chunkCount.toNat))))))

def ReceiptFile.encode (file : ReceiptFile) : Bytes :=
  bigEndian 8 file.fileOrdinal.toNat ++ ([file.result] ++ appendString file.relativePath)

/-- The loop over the files of a manifest, with what it has seen. -/
def Manifest.appendFiles : List ManifestFile → List Bytes → List UInt64 → Bytes → Except Error Bytes
  | [], _, _, encoded => .ok encoded
  | file :: files, seenTransfers, seenOrdinals, encoded =>
    if !validateManifestFile validString file then .error .invalid
    else if seenTransfers.contains file.transferID then .error .invalid
    else if seenOrdinals.contains file.fileOrdinal then .error .invalid
    else appendFiles files (file.transferID :: seenTransfers) (file.fileOrdinal :: seenOrdinals) (encoded ++ file.encode)

def FinalReceipt.appendFiles : List ReceiptFile → List UInt64 → Bytes → Except Error Bytes
  | [], _, encoded => .ok encoded
  | file :: files, seen, encoded =>
    if file.fileOrdinal = recordFileOrdinal ∨ validReceiptFile validString file = false then .error .invalid
    else if seen.contains file.fileOrdinal then .error .invalid
    else appendFiles files (file.fileOrdinal :: seen) (encoded ++ file.encode)

def bounded (encoded : Bytes) : Except Error Bytes :=
  if chunkSize < encoded.length then .error .invalid else .ok encoded

def manifestMagic : Bytes := text ['P', 'B', 'M', 'F']

def receiptMagic : Bytes := text ['P', 'B', 'R', 'C']

def Manifest.marshalBinary (m : Manifest) : Except Error Bytes :=
  if identifierPattern m.batchID = false ∨ m.files.length = 0 ∨ maxManifestFiles < m.files.length then .error .invalid
  else do
    let encoded ← appendFiles validString m.files [] []
      (manifestMagic ++ ([protocolVersion] ++ (appendString m.batchID ++ bigEndian 2 m.files.length)))
    bounded encoded

def FinalReceipt.marshalBinary (r : FinalReceipt) : Except Error Bytes :=
  if allZero r.manifestHash.toList ∨ r.files.length = 0 ∨ maxManifestFiles < r.files.length then .error .invalid
  else do
    let encoded ← appendFiles validString r.files []
      (receiptMagic ++ ([protocolVersion] ++ (r.manifestHash.toList ++ bigEndian 2 r.files.length)))
    bounded encoded

end

/-! ### Decoding -/

structure BinaryDecoder where
  value : Bytes
  offset : ℕ := 0
  err : Bool := false

/-- `none` is a panic. -/
abbrev Decode := StateT BinaryDecoder Option

/-- `value[low:high]` -/
def slice (value : Bytes) (low high : ℕ) : Option Bytes :=
  if low ≤ high ∧ high ≤ value.length then some ((value.drop low).take (high - low)) else none

namespace Decode

def take (size : ℕ) : Decode Bytes := fun d =>
  if d.err = true ∨ d.value.length < d.offset + size then some ([], { d with err := true })
  else (slice d.value d.offset (d.offset + size)).map (·, { d with offset := d.offset + size })

def magic (value : Bytes) : Decode Bool := do
  let taken ← take value.length
  pure (taken == value)

def byte : Decode UInt8 := do
  let value ← take 1
  if value.length ≠ 1 then pure 0 else StateT.lift value[0]?

def pad (value : Bytes) (size : ℕ) : Bytes := if value.length = size then value else List.replicate size 0

/-- `uint16`, `uint32` and `uint64`, by their sizes; the word panics on a shorter slice. -/
def number (size : ℕ) : Decode ℕ := do
  let value ← take size
  let word ← StateT.lift (slice (pad value size) 0 size)
  pure (ofBigEndian word)

def fail : Decode Unit := fun d => some ((), { d with err := true })

def string (maximum : ℕ) : Decode Bytes := do
  let length ← number 2
  if maximum < length then do
    fail
    pure []
  else take length

/-- The target is an array of zeros before. -/
def copy (size : ℕ) : Decode (Vector UInt8 size) := do
  let value ← take size
  pure (.ofFn fun i => value.getD i 0)

def failed : Decode Bool := fun d => some (d.err, d)

def done : Decode Bool := fun d => some (!d.err && d.offset == d.value.length, d)

def manifestFile : Decode ManifestFile := do
  let transferID ← string 128
  let fileOrdinal ← number 8
  let name ← string maxFilenameBytes
  let relativeDestination ← string maxPathBytes
  let mode ← number 4
  let size ← number 8
  let plaintextSHA256 ← copy 32
  let chunkCount ← number 8
  pure ⟨transferID, .ofNat fileOrdinal, name, relativeDestination, .ofNat mode, .ofNat size, plaintextSHA256,
    .ofNat chunkCount⟩

def receiptFile : Decode ReceiptFile := do
  let fileOrdinal ← number 8
  let result ← byte
  let relativePath ← string maxPathBytes
  pure ⟨.ofNat fileOrdinal, result, relativePath⟩

def repeated {α : Type} (file : Decode α) : ℕ → Decode (List α)
  | 0 => pure []
  | count + 1 => do
    let first ← file
    let rest ← repeated file count
    pure (first :: rest)

/-- The files of a manifest or a receipt, to the end of the input. -/
def files {α β : Type} (file : Decode α) (valid : Bool) (value : List α → β) : Decode (Option β) := do
  let count ← number 2
  let err ← failed
  if err = true ∨ valid = false ∨ count = 0 then pure none
  else do
    let files ← repeated file count
    let done ← done
    pure (if done then some (value files) else none)

/-- The magic and the version, and the rest if both are there. -/
def header {β : Type} (expected : Bytes) (rest : Decode (Option β)) : Decode (Option β) := do
  let found ← magic expected
  if found = false then pure none
  else do
    let version ← byte
    if version ≠ protocolVersion then pure none else rest

def manifest : Decode (Option Manifest) := header manifestMagic do
  let batchID ← string maxPathBytes
  files manifestFile (identifierPattern batchID) (Manifest.mk batchID)

def finalReceipt : Decode (Option FinalReceipt) := header receiptMagic do
  let manifestHash ← copy 32
  files receiptFile true (FinalReceipt.mk manifestHash)

end Decode

/-- A value is accepted only if it is encoded as the input. -/
def parse {β : Type} (decode : Decode (Option β)) (marshal : β → Except Error Bytes) (encoded : Bytes) :
    Option (Except Error β) :=
  if encoded.length = 0 ∨ chunkSize < encoded.length then some (.error .invalid)
  else (decode { value := encoded }).map fun r =>
    match r.1 with
    | none => .error .invalid
    | some v => if marshal v = .ok encoded then .ok v else .error .invalid

def parseManifest (validString : Bytes → Bool) : Bytes → Option (Except Error Manifest) :=
  parse Decode.manifest (Manifest.marshalBinary validString)

def parseFinalReceipt (validString : Bytes → Bool) : Bytes → Option (Except Error FinalReceipt) :=
  parse Decode.finalReceipt (FinalReceipt.marshalBinary validString)

/-! ### Reading back -/

/-- The decoder has not failed and stands before the bytes. -/
structure BinaryDecoder.At (d : BinaryDecoder) (rest : Bytes) : Prop where
  ok : d.err = false
  inside : d.offset ≤ d.value.length
  rest : d.value.drop d.offset = rest

/-- The decoder reads a value off its encoding, whatever follows. -/
def Reads {α : Type} (p : Decode α) (encoded : Bytes) (a : α) : Prop :=
  ∀ ⦃d : BinaryDecoder⦄ ⦃rest : Bytes⦄, d.At (encoded ++ rest) → ∃ d', p d = some (a, d') ∧ d'.At rest

/-- The decoder does not panic. -/
def Safe {α : Type} (p : Decode α) : Prop := ∀ d, ∃ r, p d = some r

section

variable {α β : Type} {p : Decode α} {q : α → Decode β} {x y : Bytes} {a : α} {b : β}

theorem Decode.bind_eq (h : p d = some (a, d')) : (p >>= q) d = q a d' := by
  change (p d).bind (fun r => q r.1 r.2) = _
  rw [h, Option.bind_some]

theorem Reads.pure (a : α) : Reads (pure a) [] a := fun d _ h => ⟨d, rfl, h⟩

theorem Reads.bind (hp : Reads p x a) (hq : Reads (q a) y b) : Reads (p >>= q) (x ++ y) b := by
  intro d rest h
  obtain ⟨d', hd, h'⟩ := hp (List.append_assoc x y rest ▸ h)
  obtain ⟨d'', hd', h''⟩ := hq h'
  exact ⟨d'', (Decode.bind_eq hd).trans hd', h''⟩

/-- The last read of a value. -/
theorem Reads.map (f : α → β) (hp : Reads p x a) : Reads (p >>= fun a => Pure.pure (f a)) x (f a) := by
  have h := Reads.bind (q := fun a => Pure.pure (f a)) hp (Reads.pure (f a))
  rwa [List.append_nil] at h

theorem Reads.lift {o : Option α} (h : o = some a) : Reads (StateT.lift o) [] a := by
  subst h
  exact fun d _ hd => ⟨d, rfl, hd⟩

theorem Safe.pure (a : α) : Safe (pure a) := fun d => ⟨(a, d), rfl⟩

theorem Safe.bind (hp : Safe p) (hq : ∀ a, Safe (q a)) : Safe (p >>= q) := by
  intro d
  obtain ⟨⟨a, d'⟩, hd⟩ := hp d
  obtain ⟨r, hr⟩ := hq a d'
  exact ⟨r, (Decode.bind_eq hd).trans hr⟩

end

theorem reads_take (x : Bytes) : Reads (Decode.take x.length) x x := by
  intro d rest h
  have hlen : x.length + rest.length = d.value.length - d.offset := by
    rw [← List.length_append, ← h.rest, List.length_drop]
  have hinside := h.inside
  have hslice : slice d.value d.offset (d.offset + x.length) = some x := by
    rw [slice, if_pos (by omega), h.rest]
    simp
  refine ⟨{ d with offset := d.offset + x.length }, ?_, h.ok, by dsimp only; omega, ?_⟩
  · rw [Decode.take, if_neg (by simp [h.ok]; omega), hslice]
    rfl
  · rw [← List.drop_drop, h.rest, List.drop_left]

theorem safe_take (size : ℕ) : Safe (Decode.take size) := by
  intro d
  by_cases hd : d.err = true ∨ d.value.length < d.offset + size
  · exact ⟨_, if_pos hd⟩
  · rw [Decode.take, if_neg hd, slice, if_pos (by omega)]
    exact ⟨_, rfl⟩

theorem reads_byte (b : UInt8) : Reads Decode.byte [b] b := (reads_take [b]).bind (.pure b)

theorem safe_byte : Safe Decode.byte := by
  refine (safe_take 1).bind fun value => ?_
  match value with
  | [] => exact .pure 0
  | [b] => exact .pure b
  | b :: c :: rest => exact .pure 0

theorem reads_number {size n : ℕ} (h : n < 256 ^ size) : Reads (Decode.number size) (bigEndian size n) n := by
  have htake := reads_take (bigEndian size n)
  have hword : slice (Decode.pad (bigEndian size n) size) 0 size = some (bigEndian size n) := by
    simp [slice, Decode.pad, List.take_of_length_le]
  rw [bigEndian_length] at htake
  have h' := htake.bind (q := fun value => StateT.lift (slice (Decode.pad value size) 0 size) >>= fun word =>
    pure (ofBigEndian word)) ((Reads.lift hword).map ofBigEndian)
  rwa [List.append_nil, ofBigEndian_bigEndian h] at h'

theorem safe_number (size : ℕ) : Safe (Decode.number size) := by
  refine (safe_take size).bind fun value => ?_
  have hpad : (Decode.pad value size).length = size := by
    unfold Decode.pad
    split <;> simp_all
  rw [slice, if_pos (by omega)]
  exact .pure _

theorem reads_string {maximum : ℕ} {value : Bytes} (h : value.length ≤ maximum) (hmax : maximum < 256 ^ 2) :
    Reads (Decode.string maximum) (appendString value) value := by
  refine (reads_number (by omega)).bind ?_
  rw [if_neg (by omega)]
  exact reads_take value

theorem safe_string (maximum : ℕ) : Safe (Decode.string maximum) := by
  refine (safe_number 2).bind fun length => ?_
  split
  · exact Safe.bind (fun d => ⟨_, rfl⟩) fun _ => .pure _
  · exact safe_take length

theorem reads_copy (value : Vector UInt8 n) : Reads (Decode.copy n) value.toList value := by
  have htake := reads_take value.toList
  rw [Vector.length_toList] at htake
  have hcopy := htake.map fun value => (Vector.ofFn fun i : Fin n => value.getD i 0)
  have hvalue : (Vector.ofFn fun i : Fin n => value.toList.getD i 0) = value := by
    ext i hi
    simp [List.getD]
  rwa [hvalue] at hcopy

theorem safe_copy (size : ℕ) : Safe (Decode.copy size) := (safe_take size).bind fun _ => .pure _

/-! ### Files -/

theorem wide (x : UInt64) : x.toNat < 256 ^ 8 := x.toNat_lt

variable {validString : Bytes → Bool}

theorem validRelativePath_length (h : validRelativePath validString value = true) : value.length ≤ maxPathBytes := by
  simp only [validRelativePath, Bool.and_eq_true, decide_eq_true_eq] at h
  exact h.1.1.1.1.2

theorem reads_manifestFile {file : ManifestFile} (h : validateManifestFile validString file = true) :
    Reads Decode.manifestFile file.encode file := by
  simp only [validateManifestFile, validFilename, Bool.and_eq_true, decide_eq_true_eq] at h
  have hid := identifierPattern_length_le h.1.1.1.1.1.1
  have hname : file.name.length ≤ maxFilenameBytes := h.1.1.1.1.2.1.1.1.1.2
  have hpath := validRelativePath_length h.1.1.1.2
  have hread : Reads Decode.manifestFile file.encode
      ⟨file.transferID, .ofNat file.fileOrdinal.toNat, file.name, file.relativeDestination, .ofNat file.mode.toNat,
        .ofNat file.size.toNat, file.plaintextSHA256, .ofNat file.chunkCount.toNat⟩ := by
    refine (reads_string hid (by decide)).bind ?_
    refine (reads_number (wide _)).bind ?_
    refine (reads_string hname (by decide)).bind ?_
    refine (reads_string hpath (by decide)).bind ?_
    refine (reads_number file.mode.toNat_lt).bind ?_
    refine (reads_number (wide _)).bind ?_
    refine (reads_copy _).bind ?_
    exact (reads_number (wide _)).map _
  simpa using hread

theorem safe_manifestFile : Safe Decode.manifestFile := by
  refine (safe_string _).bind fun _ => (safe_number _).bind fun _ => (safe_string _).bind fun _ => ?_
  refine (safe_string _).bind fun _ => (safe_number _).bind fun _ => (safe_number _).bind fun _ => ?_
  exact (safe_copy _).bind fun _ => (safe_number _).bind fun _ => .pure _

theorem reads_receiptFile {file : ReceiptFile} (h : validReceiptFile validString file = true) :
    Reads Decode.receiptFile file.encode file := by
  have hpath : file.relativePath.length ≤ maxPathBytes := by
    simp only [validReceiptFile, Bool.and_eq_true] at h
    obtain ⟨-, h⟩ := h
    split at h
    · simp_all
    · exact validRelativePath_length h
  have hread : Reads Decode.receiptFile file.encode
      ⟨.ofNat file.fileOrdinal.toNat, file.result, file.relativePath⟩ := by
    refine (reads_number (wide _)).bind ?_
    refine (reads_byte _).bind ?_
    exact (reads_string hpath (by decide)).map _
  simpa using hread

theorem safe_receiptFile : Safe Decode.receiptFile :=
  (safe_number _).bind fun _ => safe_byte.bind fun _ => (safe_string _).bind fun _ => .pure _

section

variable {α β : Type} {file : Decode α} {encode : α → Bytes}

theorem reads_repeated {as : List α} (h : ∀ a ∈ as, Reads file (encode a) a) :
    Reads (Decode.repeated file as.length) (as.flatMap encode) as := by
  induction as with
  | nil => exact .pure []
  | cons a as ih =>
    rw [List.forall_mem_cons] at h
    exact h.1.bind ((ih h.2).map _)

theorem safe_repeated (h : Safe file) (count : ℕ) : Safe (Decode.repeated file count) := by
  induction count with
  | zero => exact .pure []
  | succ count ih => exact h.bind fun _ => ih.bind fun _ => .pure _

/-- The decoder gives the value and the bytes are all of the input. -/
def Ends (p : Decode (Option β)) (encoded : Bytes) (v : β) : Prop :=
  ∀ ⦃d : BinaryDecoder⦄, d.At encoded → ∃ d', p d = some (some v, d')

theorem Reads.ends {p : Decode α} {q : α → Decode (Option β)} (hp : Reads p x a) (hq : Ends (q a) y v) :
    Ends (p >>= q) (x ++ y) v := by
  intro d h
  obtain ⟨d', hd, h'⟩ := hp h
  obtain ⟨d'', hd'⟩ := hq h'
  exact ⟨d'', (Decode.bind_eq hd).trans hd'⟩

theorem ends_files (value : List α → β) {as : List α} (h : ∀ a ∈ as, Reads file (encode a) a)
    (hne : as.length ≠ 0) (hcount : as.length ≤ maxManifestFiles) :
    Ends (Decode.files file true value) (bigEndian 2 as.length ++ as.flatMap encode) (value as) := by
  have hfailed : Reads Decode.failed [] false := fun d _ h => ⟨d, by rw [Decode.failed, h.ok], h⟩
  refine (reads_number (Nat.lt_of_le_of_lt hcount (by decide))).ends ?_
  refine hfailed.ends (y := as.flatMap encode) ?_
  rw [if_neg (by simpa using hne), ← List.append_nil (as.flatMap encode)]
  refine (reads_repeated h).ends fun d hd => ⟨d, ?_⟩
  have hend : d.offset = d.value.length := by
    have hrest := List.drop_eq_nil_iff.mp hd.rest
    have := hd.inside
    omega
  change some (if (!d.err && d.offset == d.value.length) = true then some (value as) else none, d) = _
  rw [if_pos (by simp [hd.ok, hend])]

theorem ends_header {rest : Decode (Option β)} (expected : Bytes) (h : Ends rest y v) :
    Ends (Decode.header expected rest) (expected ++ ([protocolVersion] ++ y)) v := by
  have hmagic : Reads (Decode.magic expected) expected true := by
    have h := (reads_take expected).map (· == expected)
    rwa [beq_self_eq_true] at h
  refine hmagic.ends ?_
  rw [if_neg (by simp)]
  refine (reads_byte protocolVersion).ends ?_
  rw [if_neg (by simp)]
  exact h

theorem safe_files (h : Safe file) (valid : Bool) (value : List α → β) : Safe (Decode.files file valid value) := by
  refine (safe_number 2).bind fun count => Safe.bind (fun d => ⟨_, rfl⟩) fun err => ?_
  split
  · exact .pure _
  · exact (safe_repeated h count).bind fun _ => Safe.bind (fun d => ⟨_, rfl⟩) fun _ => .pure _

theorem safe_header (expected : Bytes) {rest : Decode (Option β)} (h : Safe rest) : Safe (Decode.header expected rest) := by
  refine ((safe_take _).bind fun _ => .pure _ : Safe (Decode.magic expected)).bind fun found => ?_
  split
  · exact .pure _
  · refine safe_byte.bind fun version => ?_
    split
    · exact .pure _
    · exact h

end

/-! ### Manifests and receipts -/

theorem Manifest.appendFiles_ok {files : List ManifestFile} (h : appendFiles validString files ts os x = .ok b) :
    (∀ file ∈ files, validateManifestFile validString file = true) ∧ b = x ++ files.flatMap ManifestFile.encode := by
  induction files generalizing ts os x with
  | nil =>
    cases h
    simp
  | cons file files ih =>
    rw [appendFiles] at h
    split at h
    · cases h
    next hvalid =>
    split_ifs at h
    obtain ⟨hfiles, rfl⟩ := ih h
    exact ⟨List.forall_mem_cons.mpr ⟨by simpa using hvalid, hfiles⟩, by simp⟩

theorem FinalReceipt.appendFiles_ok {files : List ReceiptFile} (h : appendFiles validString files os x = .ok b) :
    (∀ file ∈ files, validReceiptFile validString file = true) ∧ b = x ++ files.flatMap ReceiptFile.encode := by
  induction files generalizing os x with
  | nil =>
    cases h
    simp
  | cons file files ih =>
    rw [appendFiles] at h
    split at h
    · cases h
    next hvalid =>
    split_ifs at h
    obtain ⟨hfiles, rfl⟩ := ih h
    exact ⟨List.forall_mem_cons.mpr ⟨by simpa using (not_or.mp hvalid).2, hfiles⟩, by simp⟩

theorem bind_bounded_ok {e : Except Error Bytes} (h : (e >>= bounded) = .ok b) : e = .ok b ∧ ¬ chunkSize < b.length := by
  obtain _ | encoded := e
  · cases h
  · change bounded encoded = .ok b at h
    unfold bounded at h
    split at h
    · cases h
    · cases h
      exact ⟨rfl, by assumption⟩

section

variable {β : Type} {decode : Decode (Option β)} {marshal : β → Except Error Bytes} {v : β} {b : Bytes}

theorem parse_of_ends (h : Ends decode b v) (hm : marshal v = .ok b) (hne : b ≠ []) (hlen : ¬ chunkSize < b.length) :
    parse decode marshal b = some (.ok v) := by
  obtain ⟨d, hd⟩ := @h { value := b } ⟨rfl, Nat.zero_le _, rfl⟩
  rw [parse, if_neg (by simp [hne, hlen]), hd]
  simp [hm]

theorem marshal_of_parse (h : parse decode marshal b = some (.ok v)) : marshal v = .ok b := by
  unfold parse at h
  split at h
  · cases h
  obtain ⟨⟨r, d⟩, -, hr⟩ := Option.map_eq_some_iff.mp h
  grind

theorem parse_safe (h : Safe decode) (b : Bytes) : parse decode marshal b ≠ none := by
  unfold parse
  split
  · simp
  · obtain ⟨r, hr⟩ := h { value := b }
    simp [hr]

end

theorem parse_manifest {m : Manifest} (h : m.marshalBinary validString = .ok b) :
    parseManifest validString b = some (.ok m) := by
  have hm := h
  unfold Manifest.marshalBinary at h
  split at h
  · cases h
  next hfields =>
  simp only [not_or, Bool.not_eq_false] at hfields
  obtain ⟨happend, hlen⟩ := bind_bounded_ok h
  obtain ⟨hfiles, hb⟩ := Manifest.appendFiles_ok happend
  refine parse_of_ends ?_ hm (by rw [hb]; simp [manifestMagic, text]) hlen
  rw [hb]
  simp only [List.append_assoc]
  refine ends_header _ ?_
  refine (reads_string (Nat.le_trans (identifierPattern_length_le hfields.1) (by decide)) (by decide)).ends ?_
  rw [hfields.1]
  exact ends_files _ (fun file hf => reads_manifestFile (hfiles file hf)) hfields.2.1 (Nat.not_lt.mp hfields.2.2)

theorem parse_finalReceipt {r : FinalReceipt} (h : r.marshalBinary validString = .ok b) :
    parseFinalReceipt validString b = some (.ok r) := by
  have hm := h
  unfold FinalReceipt.marshalBinary at h
  split at h
  · cases h
  next hfields =>
  simp only [not_or] at hfields
  obtain ⟨happend, hlen⟩ := bind_bounded_ok h
  obtain ⟨hfiles, hb⟩ := FinalReceipt.appendFiles_ok happend
  refine parse_of_ends ?_ hm (by rw [hb]; simp [receiptMagic, text]) hlen
  rw [hb]
  simp only [List.append_assoc]
  refine ends_header _ ((reads_copy _).ends ?_)
  exact ends_files _ (fun file hf => reads_receiptFile (hfiles file hf)) hfields.2.1 (Nat.not_lt.mp hfields.2.2)

/-- What is encoded is read back, what is accepted is encoded as it was read, and no input makes a
parser panic. -/
theorem codecs_round_trip (validString : Bytes → Bool) :
    (∀ m b, Manifest.marshalBinary validString m = .ok b → parseManifest validString b = some (.ok m)) ∧
      (∀ r b, FinalReceipt.marshalBinary validString r = .ok b → parseFinalReceipt validString b = some (.ok r)) ∧
      (∀ m b, parseManifest validString b = some (.ok m) → Manifest.marshalBinary validString m = .ok b) ∧
      (∀ r b, parseFinalReceipt validString b = some (.ok r) → FinalReceipt.marshalBinary validString r = .ok b) ∧
      ∀ b, parseManifest validString b ≠ none ∧ parseFinalReceipt validString b ≠ none := by
  refine ⟨fun _ _ => parse_manifest, fun _ _ => parse_finalReceipt, fun _ _ => marshal_of_parse,
    fun _ _ => marshal_of_parse, fun b => ⟨?_, ?_⟩⟩
  · exact parse_safe (safe_header _ ((safe_string _).bind fun _ => safe_files safe_manifestFile _ _)) b
  · exact parse_safe (safe_header _ ((safe_copy _).bind fun _ => safe_files safe_receiptFile _ _)) b

def sampleManifest : Manifest where
  batchID := text ['b']
  files := [{ transferID := text ['t', '1'], fileOrdinal := 0, name := text ['a'],
              relativeDestination := text ['d', '/', 'a'], mode := 0o644, size := 2 ^ 20 + 1,
              plaintextSHA256 := .replicate 32 7, chunkCount := 2 }]

def sampleReceipt : FinalReceipt where
  manifestHash := .replicate 32 9
  files := [⟨0, collisionOriginal, text ['d', '/', 'a']⟩, ⟨1, collisionRejected, []⟩]

theorem codecs_round_trip_sample :
    (∃ b, sampleManifest.marshalBinary (·.all (· < 128)) = .ok b ∧
      parseManifest (·.all (· < 128)) b = some (.ok sampleManifest)) ∧
    ∃ b, sampleReceipt.marshalBinary (·.all (· < 128)) = .ok b ∧
      parseFinalReceipt (·.all (· < 128)) b = some (.ok sampleReceipt) :=
  ⟨⟨_, rfl, (codecs_round_trip _).1 _ _ rfl⟩, _, rfl, (codecs_round_trip _).2.1 _ _ rfl⟩

end Paperboat.TransferCrypto
