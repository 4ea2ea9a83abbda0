import Mathlib.Data.Option.Basic

/-! Runs of a partial step function. A system is a step function
`σ → α → Option σ`; an action that is not enabled gives `none`. `Reach` collects
the states that a run can reach when every step it takes meets a side condition
on the state before the step and the action. The side condition `Always` gives
all runs. -/

namespace Paperboat.Transition

variable {σ α : Type*}

/-- Run a list of actions, failing at the first one that is not enabled. -/
def run (step : σ → α → Option σ) : σ → List α → Option σ
  | s, [] => some s
  | s, a :: as => (step s a).bind fun t => run step t as

theorem run_cons {step : σ → α → Option σ} {s t : σ} {a : α} {as : List α} (h : step s a = some t) :
    run step s (a :: as) = run step t as := by
  rw [run, h, Option.bind_some]

theorem run_append {step : σ → α → Option σ} {s t : σ} {as bs : List α}
    (h : run step s as = some t) : run step s (as ++ bs) = run step t bs := by
  induction as generalizing s with
  | nil => cases h; rfl
  | cons a as ih =>
    obtain ⟨x, hx, hr⟩ := Option.bind_eq_some_iff.mp h
    rw [List.cons_append, run_cons hx, ih hr]

/-- The states reached from `s` by steps that all meet `ok`. -/
inductive Reach (step : σ → α → Option σ) (ok : σ → α → Prop) (s : σ) : σ → Prop
  | refl : Reach step ok s s
  | tail {t u : σ} {a : α} : Reach step ok s t → ok t a → step t a = some u →
      Reach step ok s u

/-- No side condition. -/
def Always : σ → α → Prop := fun _ _ => True

variable {step : σ → α → Option σ} {ok ok' : σ → α → Prop} {s t u : σ}

/-- What the initial state has and every admitted step keeps, every reached
state has. -/
theorem Reach.invariant {Inv : σ → Prop} (h : Reach step ok s t) (hs : Inv s)
    (hstep : ∀ {x y a}, Inv x → ok x a → step x a = some y → Inv y) : Inv t := by
  induction h with
  | refl => exact hs
  | tail _ hok hst ih => exact hstep ih hok hst

theorem Reach.mono (h : Reach step ok s t) (hok : ∀ x a, ok x a → ok' x a) : Reach step ok' s t := by
  induction h with
  | refl => exact .refl
  | tail _ ha hst ih => exact ih.tail (hok _ _ ha) hst

theorem Reach.trans (h : Reach step ok s t) (h' : Reach step ok t u) : Reach step ok s u := by
  induction h' with
  | refl => exact h
  | tail _ ha hst ih => exact ih.tail ha hst

/-- Run a list of actions, failing also where the side condition fails. -/
def runChecked (step : σ → α → Option σ) (ok : σ → α → Prop)
    [∀ s a, Decidable (ok s a)] : σ → List α → Option σ
  | s, [] => some s
  | s, a :: as => if ok s a then (step s a).bind fun t => runChecked step ok t as else none

theorem run_of_runChecked [∀ s a, Decidable (ok s a)] (as : List α)
    (h : runChecked step ok s as = some t) : run step s as = some t := by
  induction as generalizing s with
  | nil => exact h
  | cons a as ih =>
    simp only [runChecked] at h
    split at h
    next =>
      obtain ⟨x, hx, hr⟩ := Option.bind_eq_some_iff.mp h
      simp [run, hx, ih hr]
    next => contradiction

theorem reach_of_runChecked [∀ s a, Decidable (ok s a)] (as : List α)
    (h : runChecked step ok s as = some t) : Reach step ok s t := by
  induction as generalizing s with
  | nil => cases h; exact .refl
  | cons a as ih =>
    simp only [runChecked] at h
    split at h
    next hok =>
      obtain ⟨x, hx, hr⟩ := Option.bind_eq_some_iff.mp h
      exact (Reach.refl.tail hok hx).trans (ih hr)
    next => contradiction

/-- A run of actions that are admitted in every state. -/
theorem reach_of_run_admitted (as : List α) (h : run step s as = some t) (hok : ∀ x, ∀ a ∈ as, ok x a) :
    Reach step ok s t := by
  induction as generalizing s with
  | nil => cases h; exact .refl
  | cons a as ih =>
    obtain ⟨x, hx, hr⟩ := Option.bind_eq_some_iff.mp h
    have hfirst := Reach.refl.tail (hok s a List.mem_cons_self) hx
    exact hfirst.trans (ih hr fun y b hb => hok y b (List.mem_cons_of_mem _ hb))

theorem reach_of_run (as : List α) (h : run step s as = some t) : Reach step Always s t := by
  induction as generalizing s with
  | nil => cases h; exact .refl
  | cons a as ih =>
    obtain ⟨x, hx, hr⟩ := Option.bind_eq_some_iff.mp h
    exact (Reach.refl.tail trivial hx).trans (ih hr)

/-- The state a run ends in, where every action of it is enabled. -/
def final (step : σ → α → Option σ) (s : σ) (as : List α) (h : (run step s as).isSome) : σ :=
  (run step s as).get h

theorem run_final (as : List α) (h : (run step s as).isSome) : run step s as = some (final step s as h) :=
  (Option.some_get h).symm

theorem reach_final (as : List α) (h : (run step s as).isSome) :
    Reach step Always s (final step s as h) :=
  reach_of_run as (run_final as h)

/-- The state a run ends in, where every action meets the side condition. -/
def finalChecked (step : σ → α → Option σ) (ok : σ → α → Prop) [∀ s a, Decidable (ok s a)]
    (s : σ) (as : List α) (h : (runChecked step ok s as).isSome) : σ :=
  (runChecked step ok s as).get h

theorem runChecked_final [∀ s a, Decidable (ok s a)] (as : List α) (h : (runChecked step ok s as).isSome) :
    runChecked step ok s as = some (finalChecked step ok s as h) :=
  (Option.some_get h).symm

theorem reach_finalChecked [∀ s a, Decidable (ok s a)] (as : List α)
    (h : (runChecked step ok s as).isSome) : Reach step ok s (finalChecked step ok s as h) :=
  reach_of_runChecked as (runChecked_final as h)

end Paperboat.Transition
