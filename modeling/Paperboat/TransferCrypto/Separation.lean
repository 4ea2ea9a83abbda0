import Paperboat.TransferCrypto.Encryption

/-! Domain separation: an additional data string belongs to one context and one length,
and under one key a nonce is used for one chunk or one record. -/

namespace Paperboat.TransferCrypto

open Codec

theorem identifierPattern_length_le {value : Bytes} (h : identifierPattern value) : value.length ≤ 128 := by
  cases value with
  | nil => simp
  | cons c cs =>
    simp only [identifierPattern, Bool.and_eq_true, decide_eq_true_eq] at h
    rw [List.length_cons]
    omega

theorem identifierPattern_length {value : Bytes} (h : identifierPattern value) : value.length < 256 ^ 2 :=
  Nat.lt_of_le_of_lt (identifierPattern_length_le h) (by decide)

/-- What `TransferContext.encode` needs to be read back. -/
structure TransferContext.Named (c : TransferContext) : Prop where
  accountID : c.accountID.length < 256 ^ 2
  deviceID : c.deviceID.length < 256 ^ 2
  machineID : c.machineID.length < 256 ^ 2
  operationID : c.operationID.length < 256 ^ 2
  transferID : c.transferID.length < 256 ^ 2

namespace TransferContext

variable {c d : TransferContext} {n : Int}

theorem named_of_valid (h : c.valid n) : c.Named := by
  simp only [valid, List.all_cons, List.all_nil, Bool.and_eq_true] at h
  obtain ⟨⟨⟨⟨⟨⟨⟨ha, hd, hm, ho, ht, -⟩, -⟩, -⟩, -⟩, -⟩, -⟩, -⟩ := h
  exact ⟨identifierPattern_length ha, identifierPattern_length hd, identifierPattern_length hm,
    identifierPattern_length ho, identifierPattern_length ht⟩

theorem length_of_valid (h : c.valid n) : 0 ≤ n ∧ n ≤ 2 ^ 20 := by
  simp only [valid, Bool.and_eq_true, decide_eq_true_eq] at h
  exact ⟨h.1.2, h.2⟩

/-- The additional data determines the kind of the context and, with the generation that
follows later, the shared fields. -/
theorem encode_inj {kind kind' : Char} (hc : c.Named) (hd : d.Named)
    (h : c.encode kind ++ xs = d.encode kind' ++ ys) :
    kind.toUInt8 = kind'.toUInt8 ∧
      (c.transferGeneration = d.transferGeneration → c = d) ∧ xs = ys := by
  have string := selfDelimiting_lengthPrefixed 2
  have hash := selfDelimiting_vector (β := UInt8) 32
  simp only [encode, appendString, List.append_assoc, List.map_cons, List.map_nil,
    List.cons_append, List.nil_append, List.cons.injEq, true_and] at h
  obtain ⟨hkind, h⟩ := h
  obtain ⟨haccount, h⟩ := string hc.accountID hd.accountID h
  obtain ⟨hdevice, h⟩ := string hc.deviceID hd.deviceID h
  obtain ⟨hmach, h⟩ := string hc.machineID hd.machineID h
  obtain ⟨hinitiator, h⟩ := hash trivial trivial h
  obtain ⟨hresponder, h⟩ := hash trivial trivial h
  obtain ⟨hoperation, h⟩ := string hc.operationID hd.operationID h
  obtain ⟨htransfer, h⟩ := string hc.transferID hd.transferID h
  obtain ⟨hdir, h⟩ := selfDelimiting_singleton trivial trivial h
  refine ⟨hkind, fun hgen => ?_, h⟩
  cases c
  cases d
  simp_all only

end TransferContext

theorem selfDelimiting_uint64 : SelfDelimiting (fun _ => True) fun x : UInt64 => bigEndian 8 x.toNat :=
  .of_length (fun _ => bigEndian_length ..) fun x y _ _ h =>
    UInt64.toNat_inj.mp (bigEndian_inj x.toNat_lt y.toNat_lt h)

theorem selfDelimiting_plaintextLength :
    SelfDelimiting (fun n : Int => 0 ≤ n ∧ n ≤ 2 ^ 20) fun n => bigEndian 4 n.toNat := by
  refine .of_length (fun _ => bigEndian_length ..) fun m n hm hn h => ?_
  have := bigEndian_inj (by omega) (by omega) h
  omega

/-! ### Additional data -/

namespace ChunkContext

variable {c d : ChunkContext} {m n : Int} {e : Bytes}

theorem additionalData_eq_ok (h : c.additionalData n = .ok e) :
    c.valid n ∧ c.fileOrdinal ≠ recordFileOrdinal ∧
      e = c.encode 'C' ++ bigEndian 8 c.transferGeneration.toNat ++
        bigEndian 8 c.fileOrdinal.toNat ++ bigEndian 8 c.chunkOrdinal.toNat ++
        bigEndian 4 n.toNat ++ [if c.final then 1 else 0] := by
  unfold additionalData at h
  split at h
  · contradiction
  · rename_i hcheck
    simp only [Bool.or_eq_true, Bool.not_eq_true', beq_iff_eq, not_or] at hcheck
    exact ⟨by simpa using hcheck.1, hcheck.2, (Except.ok.inj h).symm⟩

theorem additionalData_inj (hc : c.additionalData m = .ok e) (hd : d.additionalData n = .ok e) :
    c = d ∧ m = n := by
  obtain ⟨hvc, -, rfl⟩ := additionalData_eq_ok hc
  obtain ⟨hvd, -, h⟩ := additionalData_eq_ok hd
  simp only [List.append_assoc] at h
  have word := selfDelimiting_uint64
  obtain ⟨-, hshared, h⟩ := TransferContext.encode_inj (TransferContext.named_of_valid hvc)
    (TransferContext.named_of_valid hvd) h
  obtain ⟨hgen, h⟩ := word trivial trivial h
  obtain ⟨hfile, h⟩ := word trivial trivial h
  obtain ⟨hchunk, h⟩ := word trivial trivial h
  obtain ⟨hlen, h⟩ := selfDelimiting_plaintextLength (TransferContext.length_of_valid hvc)
    (TransferContext.length_of_valid hvd) h
  have hfinal : c.final = d.final := by
    cases hc : c.final <;> cases hd : d.final <;> simp [hc, hd] at h <;> rfl
  refine ⟨?_, hlen⟩
  cases c
  cases d
  simp_all only

end ChunkContext

namespace RecordContext

variable {c d : RecordContext} {m n : Int} {e : Bytes}

theorem additionalData_eq_ok (h : c.additionalData n = .ok e) :
    c.valid n ∧ validRecordType c.type ∧ c.ordinal ≤ maxRecordOrdinal ∧
      e = c.encode 'R' ++ [c.type] ++ bigEndian 8 c.transferGeneration.toNat ++
        bigEndian 8 c.ordinal.toNat ++ bigEndian 4 n.toNat := by
  unfold additionalData at h
  split at h
  · contradiction
  · rename_i hcheck
    simp only [Bool.or_eq_true, Bool.not_eq_true', decide_eq_true_eq, not_or] at hcheck
    obtain ⟨⟨hvalid, htype⟩, hordinal⟩ := hcheck
    exact ⟨by simpa using hvalid, by simpa using htype, UInt64.not_lt.mp hordinal,
      (Except.ok.inj h).symm⟩

theorem additionalData_inj (hc : c.additionalData m = .ok e) (hd : d.additionalData n = .ok e) :
    c = d ∧ m = n := by
  obtain ⟨hvc, -, -, rfl⟩ := additionalData_eq_ok hc
  obtain ⟨hvd, -, -, h⟩ := additionalData_eq_ok hd
  simp only [List.append_assoc] at h
  have word := selfDelimiting_uint64
  obtain ⟨-, hshared, h⟩ := TransferContext.encode_inj (TransferContext.named_of_valid hvc)
    (TransferContext.named_of_valid hvd) h
  obtain ⟨htype, h⟩ := selfDelimiting_singleton trivial trivial h
  obtain ⟨hgen, h⟩ := word trivial trivial h
  obtain ⟨hordinal, h⟩ := word trivial trivial h
  have hlen := selfDelimiting_plaintextLength.inj (TransferContext.length_of_valid hvc)
    (TransferContext.length_of_valid hvd) h
  refine ⟨?_, hlen⟩
  cases c
  cases d
  simp_all only

end RecordContext

/-- The fourth byte tells a chunk from a record. -/
theorem chunk_additionalData_ne {c : ChunkContext} {d : RecordContext}
    (hc : c.additionalData m = .ok e) : d.additionalData n ≠ .ok e := by
  intro hd
  obtain ⟨hvc, -, rfl⟩ := ChunkContext.additionalData_eq_ok hc
  obtain ⟨hvd, -, -, h⟩ := RecordContext.additionalData_eq_ok hd
  simp only [List.append_assoc] at h
  have hkind := (TransferContext.encode_inj (TransferContext.named_of_valid hvc)
    (TransferContext.named_of_valid hvd) h).1
  exact absurd hkind (by decide)

theorem Context.additionalData_inj {x y : Context} (hx : x.additionalData m = .ok e)
    (hy : y.additionalData n = .ok e) : x = y ∧ m = n := by
  cases x <;> cases y
  case chunk.chunk => simpa using ChunkContext.additionalData_inj hx hy
  case chunk.record => exact absurd hy (chunk_additionalData_ne hx)
  case record.chunk => exact absurd hx (chunk_additionalData_ne hy)
  case record.record => simpa using RecordContext.additionalData_inj hx hy

/-! ### Nonces -/

theorem nonce_length (material : KeyMaterial) (high low : UInt64) :
    (nonce material high low).length = 24 := by
  simp [nonce]

theorem nonce_inj (h : nonce material high low = nonce material high' low') :
    high = high' ∧ low = low' := by
  simp only [nonce, List.append_assoc, List.append_cancel_left_eq] at h
  obtain ⟨hhigh, h⟩ := selfDelimiting_uint64 trivial trivial h
  exact ⟨hhigh, selfDelimiting_uint64.inj trivial trivial h⟩

/-- The type and the ordinal of a record share a word: the type has its top byte. -/
theorem packed_toNat {t : RecordType} {i : UInt64} (hi : i ≤ maxRecordOrdinal) :
    (t.toUInt64 <<< 56 ||| i).toNat = 2 ^ 56 * t.toNat + i.toNat := by
  have hi' : i.toNat < 2 ^ 56 := Nat.lt_of_le_of_lt (UInt64.le_iff_toNat_le.mp hi) (by decide)
  have ht : t.toNat <<< 56 < 2 ^ 64 := by
    have := t.toNat_lt
    omega
  have hshift : (t.toUInt64 <<< 56).toNat = t.toNat <<< 56 := by
    rw [UInt64.toNat_shiftLeft, UInt8.toNat_toUInt64]
    exact Nat.mod_eq_of_lt ht
  rw [UInt64.toNat_or, hshift, ← Nat.shiftLeft_add_eq_or_of_lt hi', Nat.shiftLeft_eq, mul_comm]

theorem packed_inj {s t : RecordType} (hi : i ≤ maxRecordOrdinal) (hj : j ≤ maxRecordOrdinal)
    (h : s.toUInt64 <<< 56 ||| i = t.toUInt64 <<< 56 ||| j) : s = t ∧ i = j := by
  have hword := congrArg UInt64.toNat h
  rw [packed_toNat hi, packed_toNat hj] at hword
  have hi' : i.toNat < 2 ^ 56 := Nat.lt_of_le_of_lt (UInt64.le_iff_toNat_le.mp hi) (by decide)
  have hj' : j.toNat < 2 ^ 56 := Nat.lt_of_le_of_lt (UInt64.le_iff_toNat_le.mp hj) (by decide)
  exact ⟨UInt8.toNat_inj.mp (by omega), UInt64.toNat_inj.mp (by omega)⟩

variable {p : Prepared}

theorem prepare_eq_ok {c : ChunkContext} (h : prepare material c n = .ok p) :
    c.additionalData n = .ok p.additionalData ∧
      p.nonce = nonce material c.fileOrdinal c.chunkOrdinal := by
  unfold prepare at h
  split at h
  · contradiction
  · cases hdata : c.additionalData n with
    | error => rw [hdata] at h; contradiction
    | ok e => rw [hdata] at h; cases h; exact ⟨rfl, rfl⟩

theorem prepareRecord_eq_ok {c : RecordContext} (h : prepareRecord material c n = .ok p) :
    c.additionalData n = .ok p.additionalData ∧
      p.nonce = nonce material recordFileOrdinal (c.type.toUInt64 <<< 56 ||| c.ordinal) := by
  unfold prepareRecord at h
  cases hdata : c.additionalData n with
  | error => rw [hdata] at h; contradiction
  | ok e =>
    rw [hdata] at h
    simp only [bind, Except.bind] at h
    split at h
    · contradiction
    · cases h; exact ⟨rfl, rfl⟩

theorem chunk_nonce_ne {q : Prepared} (hp : prepare material c m = .ok p)
    (hq : prepareRecord material d n = .ok q) : p.nonce ≠ q.nonce := by
  intro h
  obtain ⟨hdata, hc⟩ := prepare_eq_ok hp
  rw [hc, (prepareRecord_eq_ok hq).2] at h
  exact (ChunkContext.additionalData_eq_ok hdata).2.1 (nonce_inj h).1

theorem Context.prepare_additionalData {x : Context} (h : x.prepare material n = .ok p) :
    x.additionalData n = .ok p.additionalData := by
  cases x
  · exact (prepare_eq_ok h).1
  · exact (prepareRecord_eq_ok h).1

theorem Context.sameSlot_of_nonce {x y : Context} {q : Prepared} (hx : x.prepare material m = .ok p)
    (hy : y.prepare material n = .ok q) (h : p.nonce = q.nonce) : x.SameSlot y := by
  cases x <;> cases y
  case chunk.chunk =>
    rw [(prepare_eq_ok hx).2, (prepare_eq_ok hy).2] at h
    exact nonce_inj h
  case chunk.record => exact absurd h (chunk_nonce_ne hx hy)
  case record.chunk => exact absurd h.symm (chunk_nonce_ne hy hx)
  case record.record =>
    obtain ⟨hdata, hp⟩ := prepareRecord_eq_ok hx
    obtain ⟨hdata', hq⟩ := prepareRecord_eq_ok hy
    rw [hp, hq] at h
    exact packed_inj (RecordContext.additionalData_eq_ok hdata).2.2.1
      (RecordContext.additionalData_eq_ok hdata').2.2.1 (nonce_inj h).2

/-- Two encryptions with the same additional data have the same context and length, and
two encryptions under one key with the same nonce are of the same chunk or the same
record. -/
theorem domain_separation :
    (∀ (x y : Context) (m n : Int) (e : Bytes), x.additionalData m = .ok e →
      y.additionalData n = .ok e → x = y ∧ m = n) ∧
    ∀ (material : KeyMaterial) (x y : Context) (m n : Int) (p q : Prepared),
      x.prepare material m = .ok p → y.prepare material n = .ok q →
        p.nonce.length = 24 ∧ (p.nonce = q.nonce → x.SameSlot y) := by
  refine ⟨fun x y m n e => Context.additionalData_inj, fun material x y m n p q hp hq => ?_⟩
  refine ⟨?_, Context.sameSlot_of_nonce hp hq⟩
  cases x
  · rw [(prepare_eq_ok hp).2, nonce_length]
  · rw [(prepareRecord_eq_ok hp).2, nonce_length]

namespace Demo

def material : KeyMaterial := ⟨.replicate 32 1, .replicate 8 2⟩

def transfer : TransferContext where
  accountID := "acct".toUTF8.toList
  deviceID := "dev_1".toUTF8.toList
  machineID := "m:1".toUTF8.toList
  initiatorCertificateHash := .replicate 32 3
  responderCertificateHash := .replicate 32 4
  operationID := "op-1".toUTF8.toList
  transferID := "t.1".toUTF8.toList
  direction := directionFromMachine
  transferGeneration := 1

/-- The last chunk whose nonce could be taken for one of a record. -/
def chunk : ChunkContext where
  toTransferContext := transfer
  fileOrdinal := 2 ^ 64 - 2
  chunkOrdinal := 5 * 2 ^ 56 - 1
  final := true

def record : RecordContext where
  toTransferContext := transfer
  type := recordFinalReceipt
  ordinal := maxRecordOrdinal

def prepared : Prepared :=
  ⟨nonce material chunk.fileOrdinal chunk.chunkOrdinal,
    (chunk.additionalData 9).toOption.getD []⟩

def preparedRecord : Prepared :=
  ⟨nonce material recordFileOrdinal (5 * 2 ^ 56 - 1), (record.additionalData 9).toOption.getD []⟩

end Demo

theorem domain_separation_last_chunk :
    (Context.chunk Demo.chunk).prepare Demo.material 9 = .ok Demo.prepared ∧
      (Context.record Demo.record).prepare Demo.material 9 = .ok Demo.preparedRecord ∧
        Demo.prepared.nonce ≠ Demo.preparedRecord.nonce ∧
          Demo.prepared.additionalData ≠ Demo.preparedRecord.additionalData := by
  have hc : (Context.chunk Demo.chunk).prepare Demo.material 9 = .ok Demo.prepared := by
    decide +kernel
  have hr : (Context.record Demo.record).prepare Demo.material 9 = .ok Demo.preparedRecord := by
    decide +kernel
  refine ⟨hc, hr, fun h => (domain_separation.2 _ _ _ _ _ _ _ hc hr).2 h, fun h => ?_⟩
  have hdata := Context.prepare_additionalData hr
  rw [← h] at hdata
  exact absurd (domain_separation.1 _ _ _ _ _ (Context.prepare_additionalData hc) hdata).1
    (by simp)

/-! ### Ciphertexts -/

theorem foldl_or_eq_zero (value : Bytes) (a : UInt8) :
    value.foldl (· ||| ·) a = 0 ↔ a = 0 ∧ ∀ b ∈ value, b = 0 := by
  induction value generalizing a with
  | nil => simp
  | cons b rest ih => simp [ih, UInt8.or_eq_zero_iff, and_assoc]

theorem allZero_eq_false (value : Bytes) : allZero value = false ↔ ∃ b ∈ value, b ≠ 0 := by
  simp [allZero, foldl_or_eq_zero]

/-- Both parts of the material have a byte that is not zero. -/
def KeyMaterial.Usable (k : KeyMaterial) : Prop :=
  (∃ b ∈ k.key.toList, b ≠ 0) ∧ ∃ b ∈ k.noncePrefix.toList, b ≠ 0

structure TransferContext.Accepted (c : TransferContext) : Prop where
  identifiers : ∀ x ∈ [c.accountID, c.deviceID, c.machineID, c.operationID, c.transferID],
    identifierPattern x
  direction : c.direction = directionToMachine ∨ c.direction = directionFromMachine
  generation : c.transferGeneration ≠ 0
  initiator : ∃ b ∈ c.initiatorCertificateHash.toList, b ≠ 0
  responder : ∃ b ∈ c.responderCertificateHash.toList, b ≠ 0

/-- The contexts that can be encrypted in, whatever the plaintext. -/
def Context.Accepted : Context → Prop
  | .chunk c => c.toTransferContext.Accepted ∧ c.fileOrdinal ≠ recordFileOrdinal
  | .record c => c.toTransferContext.Accepted ∧ validRecordType c.type ∧ c.ordinal ≤ maxRecordOrdinal

theorem KeyMaterial.valid_iff (k : KeyMaterial) : k.valid ↔ k.Usable := by
  simp only [valid, Usable, Bool.and_eq_true, Bool.not_eq_true', allZero_eq_false]

theorem TransferContext.valid_iff (c : TransferContext) {n : ℕ} (hn : n ≤ chunkSize) :
    c.valid n ↔ c.Accepted := by
  simp only [valid, Bool.and_eq_true, List.all_eq_true, Bool.or_eq_true, beq_iff_eq, bne_iff_ne,
    Bool.not_eq_true', allZero_eq_false, decide_eq_true_eq]
  constructor
  · rintro ⟨⟨⟨⟨⟨⟨hids, hdir⟩, hgen⟩, hi⟩, hr⟩, -⟩, -⟩
    exact ⟨hids, hdir, hgen, hi, hr⟩
  · rintro ⟨hids, hdir, hgen, hi, hr⟩
    exact ⟨⟨⟨⟨⟨⟨hids, hdir⟩, hgen⟩, hi⟩, hr⟩, Int.natCast_nonneg n⟩, hn⟩

theorem Context.additionalData_cases (x : Context) {n : ℕ} (hn : n ≤ chunkSize) :
    (x.Accepted ∧ ∃ e, x.additionalData n = .ok e) ∨
      (¬ x.Accepted ∧ x.additionalData n = .error .invalid) := by
  cases x with
  | chunk c =>
    rw [Accepted, ← c.valid_iff hn, additionalData, ChunkContext.additionalData]
    split
    next hbad => exact .inr ⟨fun h => by simp [h.1, h.2] at hbad, rfl⟩
    next hok => exact .inl ⟨by simpa using hok, _, rfl⟩
  | record c =>
    rw [Accepted, ← c.valid_iff hn, additionalData, RecordContext.additionalData]
    split
    next hbad => exact .inr ⟨fun h => by simp [h.1, h.2.1, UInt64.not_lt.mpr h.2.2] at hbad, rfl⟩
    next hok => exact .inl ⟨by simpa [and_assoc] using hok, _, rfl⟩

theorem Context.prepare_cases (material : KeyMaterial) (x : Context) {n : ℕ} (hn : n ≤ chunkSize) :
    (material.Usable ∧ x.Accepted ∧ ∃ p, x.prepare material n = .ok p) ∨
      (¬ (material.Usable ∧ x.Accepted) ∧ x.prepare material n = .error .invalid) := by
  rw [← material.valid_iff]
  rcases x.additionalData_cases hn with ⟨hx, e, he⟩ | ⟨hx, he⟩ <;> by_cases hm : material.valid <;>
    cases x <;> simp only [additionalData] at he <;>
    simp [hx, hm, prepare, TransferCrypto.prepare, prepareRecord, he, bind, Except.bind]

/-- Usable material, an accepted context and a plaintext within the chunk size are what it
takes to encrypt, and `decrypt` opens the ciphertext in the same context. -/
theorem decrypt_encrypt (aead : AEAD) (material : KeyMaterial) (x : Context) (plaintext : Bytes) :
    ((∃ ciphertext, encrypt aead material x plaintext = .ok ciphertext ∧
        ciphertext.length = plaintext.length + overhead ∧
        decrypt aead material x ciphertext = .ok plaintext) ↔
      material.Usable ∧ x.Accepted ∧ plaintext.length ≤ chunkSize) ∧
    (¬ (material.Usable ∧ x.Accepted ∧ plaintext.length ≤ chunkSize) →
      encrypt aead material x plaintext = .error .invalid) := by
  have hfails : ¬ (material.Usable ∧ x.Accepted ∧ plaintext.length ≤ chunkSize) →
      encrypt aead material x plaintext = .error .invalid := by
    intro hbad
    rw [encrypt]
    split
    next => rfl
    next hsize =>
      rcases x.prepare_cases material (not_lt.mp hsize) with ⟨hm, hx, -⟩ | ⟨-, hp⟩
      · exact absurd ⟨hm, hx, not_lt.mp hsize⟩ hbad
      · simp [hp, bind, Except.bind]
  refine ⟨⟨fun ⟨_, hok, _⟩ => ?_, fun ⟨hm, hx, hsize⟩ => ?_⟩, hfails⟩
  · by_contra hbad
    rw [hfails hbad] at hok
    cases hok
  · obtain ⟨-, -, p, hp⟩ := (x.prepare_cases material hsize).resolve_right fun h => h.1 ⟨hm, hx⟩
    -- The length that the context was prepared with is read off the ciphertext.
    have hlen : ((aead.sealWith material.key p plaintext).length : Int) - overhead = plaintext.length := by
      rw [aead.sealWith_length]
      omega
    refine ⟨aead.sealWith material.key p plaintext, ?_, aead.sealWith_length .., ?_⟩
    · simp [encrypt, not_lt.mpr hsize, hp, bind, Except.bind]
    · simp [decrypt, hlen, hp, hsize, aead.openWith_sealWith, bind, Except.bind]

/-- A cipher that marks a message with half of its key. -/
def Demo.aead : AEAD where
  sealWith key _ plaintext := plaintext ++ key.toList.take overhead
  openWith key _ ciphertext :=
    if ciphertext.drop (ciphertext.length - overhead) = key.toList.take overhead then
      some (ciphertext.take (ciphertext.length - overhead))
    else none
  sealWith_length := by simp [overhead]
  openWith_sealWith := by simp [overhead]

theorem decrypt_encrypt_last_chunk :
    (∃ ciphertext, encrypt Demo.aead Demo.material (.chunk Demo.chunk) [9, 8] = .ok ciphertext ∧
      ciphertext.length = 18 ∧
      decrypt Demo.aead Demo.material (.chunk Demo.chunk) ciphertext = .ok [9, 8]) ∧
    encrypt Demo.aead Demo.material (.chunk { Demo.chunk with fileOrdinal := recordFileOrdinal }) [9, 8] =
      .error .invalid := by
  have hmaterial : Demo.material.Usable := (KeyMaterial.valid_iff _).mp (by decide +kernel)
  have hcontext : (Context.chunk Demo.chunk).Accepted :=
    ⟨(TransferContext.valid_iff _ (show ((2 : ℕ) : Int) ≤ chunkSize by decide)).mp (by decide +kernel),
      by decide +kernel⟩
  obtain ⟨ciphertext, henc, hlen, hdec⟩ :=
    (decrypt_encrypt Demo.aead _ _ [9, 8]).1.mpr ⟨hmaterial, hcontext, by decide⟩
  exact ⟨⟨ciphertext, henc, hlen, hdec⟩, (decrypt_encrypt ..).2 fun h => h.2.1.2 rfl⟩

end Paperboat.TransferCrypto
