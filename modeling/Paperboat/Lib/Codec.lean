import Mathlib

/-! Encodings that can be read off the front of a longer message. An encoder is
self-delimiting on a set of values when the message determines both the encoded value
and what follows it. Such encoders are concatenated freely: a message made of several
of them determines every one of its fields. -/

namespace Paperboat.Codec

variable {α β : Type*}

/-- Whatever follows the encoding of a value that meets `P`, both can be told from the
message. -/
def SelfDelimiting (P : α → Prop) (enc : α → List β) : Prop :=
  ∀ ⦃a b : α⦄ ⦃xs ys : List β⦄, P a → P b → enc a ++ xs = enc b ++ ys → a = b ∧ xs = ys

section Combinators

variable {P : α → Prop} {enc : α → List β}

theorem SelfDelimiting.inj (h : SelfDelimiting P enc) {a b : α} (ha : P a) (hb : P b)
    (heq : enc a = enc b) : a = b :=
  (h ha hb (congrArg (· ++ []) heq)).1

/-- An injective encoder of constant length needs no delimiter. -/
theorem SelfDelimiting.of_length {n : ℕ} (hlen : ∀ a, (enc a).length = n)
    (hinj : ∀ a b, P a → P b → enc a = enc b → a = b) : SelfDelimiting P enc := by
  intro a b xs ys ha hb h
  obtain ⟨henc, hrest⟩ := List.append_inj h (by rw [hlen, hlen])
  exact ⟨hinj a b ha hb henc, hrest⟩

end Combinators

/-! ### Numbers and strings -/

/-- The last `w` digits of `n` to the base 256, the most significant first. -/
def bigEndian : ℕ → ℕ → List UInt8
  | 0, _ => []
  | w + 1, n => bigEndian w (n / 256) ++ [UInt8.ofNat n]

@[simp] theorem bigEndian_length (w n : ℕ) : (bigEndian w n).length = w := by
  induction w generalizing n with
  | zero => rfl
  | succ w ih => rw [bigEndian, List.length_append, ih, List.length_singleton]

theorem bigEndian_inj {w m n : ℕ} (hm : m < 256 ^ w) (hn : n < 256 ^ w)
    (h : bigEndian w m = bigEndian w n) : m = n := by
  induction w generalizing m n with
  | zero => omega
  | succ w ih =>
    obtain ⟨hhigh, hlow⟩ := List.append_inj h (by simp)
    rw [pow_succ, mul_comm] at hm hn
    have hdiv : m / 256 = n / 256 := ih (Nat.div_lt_of_lt_mul hm) (Nat.div_lt_of_lt_mul hn) hhigh
    have hmod : m % 256 = n % 256 := by
      have := congrArg UInt8.toNat (List.cons.inj hlow).1
      simpa using this
    rw [← Nat.div_add_mod m 256, ← Nat.div_add_mod n 256, hdiv, hmod]

/-- The number that digits to the base 256 are of. -/
def ofBigEndian (digits : List UInt8) : ℕ := digits.foldl (fun n d => n * 256 + d.toNat) 0

theorem ofBigEndian_bigEndian {w n : ℕ} (h : n < 256 ^ w) : ofBigEndian (bigEndian w n) = n := by
  induction w generalizing n with
  | zero =>
    have : n = 0 := by omega
    simp [this, bigEndian, ofBigEndian]
  | succ w ih =>
    rw [pow_succ, mul_comm] at h
    have hdiv := ih (Nat.div_lt_of_lt_mul h)
    rw [ofBigEndian] at hdiv
    rw [ofBigEndian, bigEndian, List.foldl_concat, hdiv, UInt8.toNat_ofNat']
    exact Nat.div_add_mod' n 256

theorem selfDelimiting_bigEndian (w : ℕ) : SelfDelimiting (· < 256 ^ w) (bigEndian w) :=
  .of_length (bigEndian_length w) fun _ _ => bigEndian_inj

/-- A string after its length in `w` bytes. -/
def lengthPrefixed (w : ℕ) (value : List UInt8) : List UInt8 :=
  bigEndian w value.length ++ value

theorem selfDelimiting_lengthPrefixed (w : ℕ) :
    SelfDelimiting (fun value => value.length < 256 ^ w) (lengthPrefixed w) := by
  intro a b xs ys ha hb h
  simp only [lengthPrefixed, List.append_assoc] at h
  obtain ⟨hlen, hrest⟩ := selfDelimiting_bigEndian w ha hb h
  exact List.append_inj hrest hlen

theorem selfDelimiting_vector (n : ℕ) :
    SelfDelimiting (fun _ => True) (Vector.toList : Vector β n → List β) :=
  .of_length (fun _ => Vector.length_toList) fun _ _ _ _ h => Vector.toList_inj.mp h

theorem selfDelimiting_singleton : SelfDelimiting (fun _ => True) fun b : β => [b] :=
  .of_length (fun _ => List.length_singleton) fun _ _ _ _ h => (List.cons.inj h).1

end Paperboat.Codec
