import Mathlib

/-! When a path is suspect: the loss and the timeouts (PTOs) of the observations in the loss
window. The PTOs are added in 32 bits; `round` is the rounding of a `float64` quotient. -/

namespace Paperboat.ConnectionManager

structure QualityPolicy where
  lossWindow : ℤ
  maximumSamples : ℕ
  suspectLossPercent : ℚ
  suspectPTOs : Fin (2 ^ 32)

structure QualityObservation where
  at_ : ℤ
  completion : ℤ
  succeeded : Bool
  ptos : Fin (2 ^ 32)

/-- `Record` on the list of a path, which is in order of time; a zero time is none. -/
def record (p : QualityPolicy) (target : List QualityObservation) (o : QualityObservation) :
    Option (List QualityObservation) :=
  if o.at_ = 0 ∨ o.completion ≤ 0 ∨ target.any (·.at_ = o.at_) then none
  else
    let sorted := (target ++ [o]).insertionSort (·.at_ ≤ ·.at_)
    some (sorted.drop (sorted.length - p.maximumSamples))

def inWindow (p : QualityPolicy) (now : ℤ) (o : QualityObservation) : Bool := now - p.lossWindow ≤ o.at_ ∧ o.at_ ≤ now

def lossPercent (round : ℚ → ℚ) (l : List QualityObservation) : ℚ :=
  if l = [] then 0 else round (l.countP (!·.succeeded) * 100 / l.length)

def ptos (l : List QualityObservation) : ℕ := (l.map (·.ptos.val)).sum % 2 ^ 32

/-- `Suspect` of `snapshot`, from the observations in the window. -/
def suspectIn (round : ℚ → ℚ) (p : QualityPolicy) (l : List QualityObservation) : Prop :=
  p.suspectLossPercent < lossPercent round l ∨ p.suspectPTOs ≤ ptos l

def suspect (round : ℚ → ℚ) (p : QualityPolicy) (now : ℤ) (observations : List QualityObservation) : Prop :=
  suspectIn round p (observations.filter (inWindow p now))

/-- The same observation with more trouble. -/
structure Worse (o o' : QualityObservation) : Prop where
  at_ : o'.at_ = o.at_
  ptos : o.ptos ≤ o'.ptos
  failed : o.succeeded = false → o'.succeeded = false

variable {round : ℚ → ℚ} {p : QualityPolicy} {now : ℤ} {a b : List QualityObservation} {o o' : QualityObservation}

theorem ptos_lt (l : List QualityObservation) : ptos l < 2 ^ 32 := Nat.mod_lt _ (by decide)

theorem ptos_insert : ptos (a ++ o :: b) = (ptos (a ++ b) + o.ptos) % 2 ^ 32 := by
  simp only [ptos, List.map_append, List.map_cons, List.sum_append, List.sum_cons]
  omega

/-- As many observations, and as many failures or more. -/
theorem lossPercent_mono (hround : Monotone round) (h : o.succeeded = false → o'.succeeded = false) :
    lossPercent round (a ++ o :: b) ≤ lossPercent round (a ++ o' :: b) := by
  have hcount : (a ++ o :: b).countP (!·.succeeded) ≤ (a ++ o' :: b).countP (!·.succeeded) := by
    simp only [List.countP_append, List.countP_cons]
    grind
  simp only [lossPercent, List.append_eq_nil_iff, reduceCtorEq, and_false, if_false, List.length_append, List.length_cons]
  apply hround
  gcongr

/-- The PTOs of the other observations are zero, or their sum with those of `o` has passed zero. -/
def Settled (a b : List QualityObservation) (o : QualityObservation) : Prop := ptos (a ++ b) = 0 ∨
    2 ^ 32 < ptos (a ++ b) + o.ptos

theorem suspectIn_worse (hround : Monotone round) (h : Worse o o') (hs : suspectIn round p (a ++ o :: b))
    (hsettled : lossPercent round (a ++ o :: b) ≤ p.suspectLossPercent → Settled a b o) :
    suspectIn round p (a ++ o' :: b) := by
  have hloss : lossPercent round (a ++ o :: b) ≤ lossPercent round (a ++ o' :: b) := lossPercent_mono hround h.failed
  have hmore := Fin.le_def.mp h.ptos
  have hlt := ptos_lt (a ++ b)
  rcases lt_or_ge p.suspectLossPercent (lossPercent round (a ++ o :: b)) with hhigh | hlow
  · exact Or.inl (hhigh.trans_le hloss)
  · have hptos := hs.resolve_left (not_lt.mpr hlow)
    have hcases := hsettled hlow
    rw [ptos_insert] at hptos
    rw [Settled] at hcases
    refine Or.inr ?_
    rw [ptos_insert]
    omega

/-- More PTOs bring the sum to zero. -/
theorem exists_worse (hround : Monotone round) (hpolicy : 0 < p.suspectPTOs)
    (hlow : lossPercent round (a ++ o :: b) ≤ p.suspectLossPercent) (h : ¬ Settled a b o) :
    ∃ o', Worse o o' ∧ ¬ suspectIn round p (a ++ o' :: b) := by
  have hlt := ptos_lt (a ++ b)
  rw [Settled] at h
  have hpos := Fin.lt_def.mp hpolicy
  have hzero : 2 ^ 32 - ptos (a ++ b) < 2 ^ 32 := by omega
  refine ⟨{ o with ptos := ⟨_, hzero⟩ }, ⟨rfl, Fin.le_def.mpr (by dsimp only; omega), id⟩, ?_⟩
  rintro (hloss | hptos)
  · exact absurd (hloss.trans_le (@lossPercent_mono _ _ _ _ o hround id)) (not_lt.mpr hlow)
  · rw [ptos_insert] at hptos
    dsimp only at hptos
    omega

/-- A suspicion that rests on the PTOs alone outlasts more of them exactly when their sum is settled. -/
theorem suspicion_kept_iff (hround : Monotone round) (hpolicy : 0 < p.suspectPTOs) (ho : inWindow p now o = true)
    (hs : suspect round p now (a ++ o :: b)) :
    (∀ o', Worse o o' → suspect round p now (a ++ o' :: b)) ↔
      (lossPercent round ((a ++ o :: b).filter (inWindow p now)) ≤ p.suspectLossPercent →
        Settled (a.filter (inWindow p now)) (b.filter (inWindow p now)) o) := by
  have hwindow : ∀ o', Worse o o' → (a ++ o' :: b).filter (inWindow p now) =
      a.filter (inWindow p now) ++ o' :: b.filter (inWindow p now) := by
    intro o' h
    have ho' : inWindow p now o' = true := by rw [← ho, inWindow, inWindow, h.at_]
    simp [ho']
  have hself := hwindow o ⟨rfl, le_rfl, id⟩
  rw [suspect, hself] at hs
  rw [hself]
  constructor
  · intro h hlow
    by_contra hsettled
    obtain ⟨o', hworse, hlost⟩ := exists_worse hround hpolicy hlow hsettled
    have hkept := h o' hworse
    rw [suspect, hwindow o' hworse] at hkept
    exact hlost hkept
  · intro h o' hworse
    rw [suspect, hwindow o' hworse]
    exact suspectIn_worse hround hworse hs h

namespace Demo

def policy : QualityPolicy := ⟨30, 64, 5, 2⟩

def observation (at_ : ℤ) (ptos : Fin (2 ^ 32)) : QualityObservation := ⟨at_, 1, true, ptos⟩

/-- The sum of three observations has passed zero; the second one gets worse. -/
theorem suspicion_kept_past_zero :
    suspect id policy 9 [observation 1 4294967290, observation 2 20, observation 3 1] ∧
      suspect id policy 9 [observation 1 4294967290, observation 2 30, observation 3 1] := by
  have hs : suspect id policy 9 ([observation 1 4294967290] ++ observation 2 20 :: [observation 3 1]) :=
    Or.inr (by decide)
  have hkept := (suspicion_kept_iff monotone_id (by decide) (by decide) hs).mpr fun _ => Or.inr (by decide)
  exact ⟨hs, hkept (observation 2 30) ⟨rfl, by decide, id⟩⟩

/-- One more PTO makes the sum of two recorded observations zero. -/
theorem suspicion_lost :
    (record policy [] (observation 1 4294967295)).bind (record policy · (observation 2 0)) =
        some [observation 1 4294967295, observation 2 0] ∧ Worse (observation 2 0) (observation 2 1) ∧
      suspect id policy 9 [observation 1 4294967295, observation 2 0] ∧
      ¬ suspect id policy 9 [observation 1 4294967295, observation 2 1] := by
  refine ⟨rfl, ⟨rfl, by decide, id⟩, Or.inr (by decide), ?_⟩
  simp [suspect, suspectIn, lossPercent, ptos, inWindow, policy, observation]

end Demo

end Paperboat.ConnectionManager
