import Paperboat.EnvironmentE2EE.Authority

/-! Recipients of a scope key: the order in which a manifest lists them and the set that
an authority prescribes for a scope. -/

namespace Paperboat.EnvironmentE2EE

structure Recipient where
  kind : RecipientKind
  subjectID : String
  keyGeneration : Nat
  keyID : KeyID
  deriving DecidableEq, Repr

def recipientLess (a b : Recipient) : Bool :=
  if a.kind ≠ b.kind then decide (a.kind.toNat < b.kind.toNat)
  else if a.subjectID ≠ b.subjectID then decide (a.subjectID < b.subjectID)
  else if a.keyGeneration ≠ b.keyGeneration then decide (a.keyGeneration < b.keyGeneration)
  else decide (a.keyID.rank < b.keyID.rank)

/-- The four fields as one value of a linear order. -/
def Recipient.rank (r : Recipient) : ℕ ×ₗ String ×ₗ ℕ ×ₗ ℕ ×ₗ ℕ :=
  toLex (r.kind.toNat, toLex (r.subjectID, toLex (r.keyGeneration, r.keyID.rank)))

theorem RecipientKind.toNat_injective : Function.Injective RecipientKind.toNat := by
  intro a b h
  cases a <;> cases b <;> simp_all [RecipientKind.toNat]

theorem Recipient.rank_injective : Function.Injective Recipient.rank := by
  rintro ⟨ka, sa, ga, ia⟩ ⟨kb, sb, gb, ib⟩ h
  simp only [Recipient.rank, EmbeddingLike.apply_eq_iff_eq, Prod.mk.injEq] at h
  obtain ⟨hk, hs, hg, hi⟩ := h
  rw [RecipientKind.toNat_injective hk, hs, hg, KeyID.rank_injective hi]

theorem recipientLess_iff (a b : Recipient) : recipientLess a b = true ↔ a.rank < b.rank := by
  have hk : a.kind.toNat = b.kind.toNat ↔ a.kind = b.kind := RecipientKind.toNat_injective.eq_iff
  rw [recipientLess, Recipient.rank, Recipient.rank]
  simp only [Prod.Lex.toLex_lt_toLex, hk]
  split
  · next h => simp [h]
  · next h =>
    simp only [not_not] at h
    split
    · next hs => simp [h, hs]
    · next hs =>
      simp only [not_not] at hs
      split
      · next hg => simp [h, hs, hg]
      · next hg =>
        simp only [not_not] at hg
        simp [h, hs, hg]

/-- The recipient's order as a linear order. -/
instance : LinearOrder Recipient := LinearOrder.lift' Recipient.rank Recipient.rank_injective

theorem recipientLess_iff_lt : recipientLess a b = true ↔ a < b := recipientLess_iff a b

variable (recipients : List Recipient)

def sortRecipients : List Recipient :=
  recipients.insertionSort fun a b => recipientLess b a = false

theorem sortRecipients_perm : (sortRecipients recipients).Perm recipients :=
  List.perm_insertionSort _ _

theorem sortRecipients_eq : sortRecipients recipients = recipients.insertionSort (· ≤ ·) := by
  have h : ∀ a b : Recipient, (recipientLess b a = false) = (a ≤ b) := by
    intro a b
    rw [← not_lt, ← recipientLess_iff_lt, Bool.not_eq_true]
  rw [sortRecipients]
  congr 1
  funext a b
  exact h a b

theorem sortRecipients_sorted : (sortRecipients recipients).Pairwise (· ≤ ·) := by
  rw [sortRecipients_eq]
  exact List.pairwise_insertionSort _ _

/-- The sorted list of distinct recipients is strictly increasing. -/
theorem sortRecipients_strict {recipients : List Recipient} (h : recipients.Nodup) :
    (sortRecipients recipients).Pairwise fun a b => recipientLess a b = true := by
  have hnodup : (sortRecipients recipients).Nodup := (sortRecipients_perm recipients).nodup_iff.mpr h
  refine ((sortRecipients_sorted recipients).and hnodup).imp ?_
  intro a b hab
  rw [recipientLess_iff_lt]
  exact lt_of_le_of_ne hab.1 hab.2

theorem sortRecipients_of_strict {recipients : List Recipient}
    (h : recipients.Pairwise fun a b => recipientLess a b = true) : sortRecipients recipients = recipients := by
  rw [sortRecipients_eq]
  refine List.Pairwise.insertionSort_eq (h.imp ?_)
  intro a b hab
  exact (recipientLess_iff_lt.mp hab).le

/-! ### The recipients an authority prescribes -/

/-- The recipient that a binding stands for in a scope, if any: hosts read the global
scope and, while it is active, the scope of their own machine. -/
def bindingRecipient (scope : ScopeKind) (state : ScopeState) (machineID : String) (b : KeyBinding) :
    Option Recipient :=
  match b.subjectKind with
  | .managerCLI | .managerBrowser => some ⟨.manager, b.subjectID, b.keyGeneration, b.recipientKeyID⟩
  | .recovery => some ⟨.recovery, b.subjectID, b.keyGeneration, b.recipientKeyID⟩
  | .host =>
    if scope = .global then some ⟨.host, b.subjectID, b.keyGeneration, b.recipientKeyID⟩
    else if state = .active ∧ b.subjectID = machineID then
      some ⟨.host, b.subjectID, b.keyGeneration, b.recipientKeyID⟩
    else none

def Authority.expectedRecipients (a : Authority) (scope : ScopeKind) (state : ScopeState)
    (machineID : String) : Option (List Recipient) :=
  let result := sortRecipients (a.bindings.filterMap (bindingRecipient scope state machineID))
  if scope = .machine ∧ state = .active ∧ result.countP (·.kind == .host) ≠ 1 then none else some result

end Paperboat.EnvironmentE2EE
