import Mathlib.Logic.Basic

/-! Programs over durable state whose effects can go wrong. An effect changes the durable
state as a whole or not at all; it may report an error in both cases, and the program
may be cut off before or after it. A program is a tree of effects, so that what it does
after an error is part of it. Weakest preconditions speak about every way a program can
end, a crash included. -/

namespace Paperboat.Crash

/-- What happens at one effect. -/
inductive Fault where
  | done | lost | late | cutBefore | cutAfter
  deriving DecidableEq, Repr

inductive Outcome (ε α : Type) where
  | ok (value : α)
  | error (err : ε)
  | crash
  deriving DecidableEq, Repr

inductive Prog (σ ε α : Type) where
  | done (value : α)
  | fail (err : ε)
  | read (next : σ → Prog σ ε α)
  | effect (change : σ → σ) (next : Bool → Prog σ ε α)

namespace Prog

variable {σ ε α β : Type}

def bind : Prog σ ε α → (α → Prog σ ε β) → Prog σ ε β
  | done a, g => g a
  | fail e, _ => fail e
  | read k, g => read fun s => (k s).bind g
  | effect f k, g => effect f fun reported => (k reported).bind g

instance : Monad (Prog σ ε) where
  pure := done
  bind := bind

/-- Look at the durable state. -/
def get : Prog σ ε σ := read done

/-- An effect whose error ends the program. -/
def write (err : ε) (change : σ → σ) : Prog σ ε Unit := effect change fun reported => if reported then done () else fail err

/-- Run a program with the faults that its effects meet, in order; effects beyond the
list go well. -/
def exec : Prog σ ε α → σ → List Fault → Outcome ε α × σ
  | done a, s, _ => (.ok a, s)
  | fail e, s, _ => (.error e, s)
  | read k, s, faults => (k s).exec s faults
  | effect f k, s, faults =>
    match faults with
    | [] => (k true).exec (f s) []
    | .done :: rest => (k true).exec (f s) rest
    | .lost :: rest => (k false).exec s rest
    | .late :: rest => (k false).exec (f s) rest
    | .cutBefore :: _ => (.crash, s)
    | .cutAfter :: _ => (.crash, f s)

/-- However the program ends when it is started in the state, the postcondition holds. -/
def wp (post : Outcome ε α → σ → Prop) : Prog σ ε α → σ → Prop
  | done a, s => post (.ok a) s
  | fail e, s => post (.error e) s
  | read k, s => (k s).wp post s
  | effect f k, s => (post .crash s ∧ post .crash (f s)) ∧
      ((k false).wp post s ∧ (k false).wp post (f s)) ∧ (k true).wp post (f s)

variable {p : Prog σ ε α} {g : α → Prog σ ε β}

theorem exec_of_wp {post : Outcome ε α → σ → Prop} (h : p.wp post s) (faults : List Fault) :
    post (p.exec s faults).1 (p.exec s faults).2 := by
  induction p generalizing s faults with
  | done a => exact h
  | fail e => exact h
  | read k ih => exact ih s h faults
  | effect f k ih =>
    obtain ⟨⟨hcut, hcutAfter⟩, ⟨hlost, hlate⟩, hdone⟩ := h
    match faults with
    | [] => exact ih true hdone []
    | .done :: rest => exact ih true hdone rest
    | .lost :: rest => exact ih false hlost rest
    | .late :: rest => exact ih false hlate rest
    | .cutBefore :: _ => exact hcut
    | .cutAfter :: _ => exact hcutAfter

/-- A sequence that no fault disturbs. -/
theorem exec_bind_nil (p : Prog σ ε α) (g : α → Prog σ ε β) (s : σ) :
    (p.bind g).exec s [] = match p.exec s [] with
      | (.ok a, t) => (g a).exec t []
      | (.error e, t) => (.error e, t)
      | (.crash, t) => (.crash, t) := by
  induction p generalizing s with
  | done a => rfl
  | fail e => rfl
  | read k ih => exact ih s s
  | effect f k ih => exact ih true (f s)

theorem wp_mono {post post' : Outcome ε α → σ → Prop} (h : p.wp post s)
    (himp : ∀ o t, post o t → post' o t) : p.wp post' s := by
  induction p generalizing s with
  | done a => exact himp _ _ h
  | fail e => exact himp _ _ h
  | read k ih => exact ih s h
  | effect f k ih =>
    obtain ⟨⟨hcut, hcutAfter⟩, ⟨hlost, hlate⟩, hdone⟩ := h
    exact ⟨⟨himp _ _ hcut, himp _ _ hcutAfter⟩, ⟨ih false hlost, ih false hlate⟩, ih true hdone⟩

/-- What a first part has to end in for the rest to go on from. -/
def andThen (g : α → Prog σ ε β) (post : Outcome ε β → σ → Prop) : Outcome ε α → σ → Prop
  | .ok a, s => (g a).wp post s
  | .error e, s => post (.error e) s
  | .crash, s => post .crash s

theorem wp_bind {post : Outcome ε β → σ → Prop} : (p.bind g).wp post s ↔ p.wp (andThen g post) s := by
  induction p generalizing s with
  | done a => rfl
  | fail e => rfl
  | read k ih => exact ih s
  | effect f k ih => simp [bind, wp, ih, andThen]

/-- The rule for a sequence, with the assertion between its parts. -/
theorem wp_seq {mid : Outcome ε α → σ → Prop} {post : Outcome ε β → σ → Prop} (hp : p.wp mid s)
    (hok : ∀ a t, mid (.ok a) t → (g a).wp post t)
    (herror : ∀ e t, mid (.error e) t → post (.error e) t)
    (hcrash : ∀ t, mid .crash t → post .crash t) : (p.bind g).wp post s := by
  rw [wp_bind]
  refine wp_mono hp fun o t h => ?_
  cases o with
  | ok a => exact hok a t h
  | error e => exact herror e t h
  | crash => exact hcrash t h

/-- Go on after an error with the error in hand. -/
def attempt {ε' : Type} : Prog σ ε α → Prog σ ε' (Except ε α)
  | done a => done (.ok a)
  | fail e => done (.error e)
  | read k => read fun s => (k s).attempt
  | effect f k => effect f fun reported => (k reported).attempt

/-- What a program has to end in when its error is taken as a result. -/
def caught {ε' : Type} (post : Outcome ε' (Except ε α) → σ → Prop) : Outcome ε α → σ → Prop
  | .ok a, s => post (.ok (.ok a)) s
  | .error e, s => post (.ok (.error e)) s
  | .crash, s => post .crash s

theorem wp_attempt {ε' : Type} {post : Outcome ε' (Except ε α) → σ → Prop} :
    (p.attempt).wp post s ↔ p.wp (caught post) s := by
  induction p generalizing s with
  | done a => rfl
  | fail e => rfl
  | read k ih => exact ih s
  | effect f k ih => simp [attempt, wp, ih, caught]

/-- A program that no fault disturbs returns a value, in a state as the postcondition says. -/
def returns (post : α → σ → Prop) : Prog σ ε α → σ → Prop
  | done a, s => post a s
  | fail _, _ => False
  | read k, s => (k s).returns post s
  | effect f k, s => (k true).returns post (f s)

theorem exec_of_returns {post : α → σ → Prop} (h : p.returns post s) :
    ∃ a, (p.exec s []).1 = .ok a ∧ post a (p.exec s []).2 := by
  induction p generalizing s with
  | done a => exact ⟨a, rfl, h⟩
  | fail e => exact h.elim
  | read k ih => exact ih s h
  | effect f k ih => exact ih true h

theorem returns_mono {post post' : α → σ → Prop} (h : p.returns post s)
    (himp : ∀ a t, post a t → post' a t) : p.returns post' s := by
  induction p generalizing s with
  | done a => exact himp a s h
  | fail e => exact h
  | read k ih => exact ih s h
  | effect f k ih => exact ih true h

theorem returns_get {k : σ → Prog σ ε α} {post : α → σ → Prop} :
    (get >>= k).returns post s ↔ (k s).returns post s := Iff.rfl

theorem returns_bind {post : β → σ → Prop} :
    (p.bind g).returns post s ↔ p.returns (fun a t => (g a).returns post t) s := by
  induction p generalizing s with
  | done a => rfl
  | fail e => rfl
  | read k ih => exact ih s
  | effect f k ih => exact ih true

theorem returns_attempt {ε' : Type} {post : Except ε α → σ → Prop}
    (h : p.returns (fun a t => post (.ok a) t) s) :
    (p.attempt : Prog σ ε' (Except ε α)).returns post s := by
  induction p generalizing s with
  | done a => exact h
  | fail e => exact h.elim
  | read k ih => exact ih s h
  | effect f k ih => exact ih true h

/-! ### Limited failures

`late s t` says that an effect from `s` to `t` may happen and still report an error. -/

section Limited

variable {late : σ → σ → Prop}

/-- No effect of the run happens with an error unless it may. -/
def meets (late : σ → σ → Prop) : Prog σ ε α → σ → List Fault → Prop
  | done _, _, _ => True
  | fail _, _, _ => True
  | read k, s, faults => (k s).meets late s faults
  | effect f k, s, faults =>
    match faults with
    | [] => (k true).meets late (f s) []
    | .done :: rest => (k true).meets late (f s) rest
    | .lost :: rest => (k false).meets late s rest
    | .late :: rest => late s (f s) ∧ (k false).meets late (f s) rest
    | .cutBefore :: _ => True
    | .cutAfter :: _ => True

/-- The weakest precondition for the runs with these failures. -/
def wpOn (late : σ → σ → Prop) (post : Outcome ε α → σ → Prop) : Prog σ ε α → σ → Prop
  | done a, s => post (.ok a) s
  | fail e, s => post (.error e) s
  | read k, s => (k s).wpOn late post s
  | effect f k, s => (post .crash s ∧ post .crash (f s)) ∧
      ((k false).wpOn late post s ∧ (late s (f s) → (k false).wpOn late post (f s))) ∧ (k true).wpOn late post (f s)

theorem exec_of_wpOn {post : Outcome ε α → σ → Prop} {p : Prog σ ε α} (h : p.wpOn late post s)
    (hmeets : p.meets late s faults) : post (p.exec s faults).1 (p.exec s faults).2 := by
  induction p generalizing s faults with
  | done a => exact h
  | fail e => exact h
  | read k ih => exact ih s h hmeets
  | effect f k ih =>
    obtain ⟨⟨hcut, hcutAfter⟩, ⟨hlost, hlate⟩, hdone⟩ := h
    match faults with
    | [] => exact ih true hdone hmeets
    | .done :: rest => exact ih true hdone hmeets
    | .lost :: rest => exact ih false hlost hmeets
    | .late :: rest => exact ih false (hlate hmeets.1) hmeets.2
    | .cutBefore :: _ => exact hcut
    | .cutAfter :: _ => exact hcutAfter

/-- The rule for a sequence, with the assertion between its parts. -/
theorem wpOn_seq {p : Prog σ ε α} {g : α → Prog σ ε β} {mid : Outcome ε α → σ → Prop}
    {post : Outcome ε β → σ → Prop} (hp : p.wpOn late mid s)
    (hok : ∀ a t, mid (.ok a) t → (g a).wpOn late post t)
    (herror : ∀ e t, mid (.error e) t → post (.error e) t)
    (hcrash : ∀ t, mid .crash t → post .crash t) : (p.bind g).wpOn late post s := by
  induction p generalizing s with
  | done a => exact hok a s hp
  | fail e => exact herror e s hp
  | read k ih => exact ih s hp
  | effect f k ih =>
    obtain ⟨⟨hcut, hcutAfter⟩, ⟨hlost, hlate⟩, hdone⟩ := hp
    exact ⟨⟨hcrash _ hcut, hcrash _ hcutAfter⟩, ⟨ih false hlost, fun hl => ih false (hlate hl)⟩, ih true hdone⟩

theorem meets_of_not_mem (h : Fault.late ∉ faults) (p : Prog σ ε α) (s : σ) : p.meets late s faults := by
  induction p generalizing s faults with
  | done a => trivial
  | fail e => trivial
  | read k ih => exact ih s h s
  | effect f k ih =>
    match faults with
    | [] => exact ih true h (f s)
    | .done :: rest => exact ih true (fun hmem => h (List.mem_cons_of_mem _ hmem)) (f s)
    | .lost :: rest => exact ih false (fun hmem => h (List.mem_cons_of_mem _ hmem)) s
    | .late :: rest => exact absurd List.mem_cons_self h
    | .cutBefore :: _ => trivial
    | .cutAfter :: _ => trivial

end Limited

/-! ### Failures that change nothing

An effect happens, or it reports an error and does not. -/

section Clean

/-- How a program ends: with a value, with an error, or cut off. -/
def ends (cut : σ → Prop) (err : ε → σ → Prop) (ok : α → σ → Prop) : Outcome ε α → σ → Prop
  | .ok a, s => ok a s
  | .error e, s => err e s
  | .crash, s => cut s

/-- The weakest precondition for runs in which no effect happens with an error. -/
def wpc (cut : σ → Prop) (err : ε → σ → Prop) (ok : α → σ → Prop) (p : Prog σ ε α) (s : σ) : Prop :=
  p.wpOn (fun _ _ => False) (ends cut err ok) s

variable {cut : σ → Prop} {err : ε → σ → Prop} {s : σ}

variable {ok : α → σ → Prop} {p : Prog σ ε α}

theorem exec_of_wpc (h : p.wpc cut err ok s) (hfaults : Fault.late ∉ faults) :
    ends cut err ok (p.exec s faults).1 (p.exec s faults).2 :=
  exec_of_wpOn h (meets_of_not_mem hfaults p s)

theorem wpc_done : (done a : Prog σ ε α).wpc cut err ok s ↔ ok a s := Iff.rfl

theorem wpc_get {k : σ → Prog σ ε α} :
    (get >>= k).wpc cut err ok s ↔ (k s).wpc cut err ok s := Iff.rfl

theorem wpc_write {ok : Unit → σ → Prop} {change : σ → σ} (hcut : cut s) (hcut' : cut (change s))
    (herr : err e s) (hok : ok () (change s)) : (write e change).wpc cut err ok s :=
  ⟨⟨hcut, hcut'⟩, ⟨herr, False.elim⟩, hok⟩

/-- The rule for a sequence, with the assertion between its parts. -/
theorem wpc_seq {m : α → σ → Prop} {ok : β → σ → Prop} {g : α → Prog σ ε β}
    (hp : p.wpc cut err m s) (hg : ∀ a t, m a t → (g a).wpc cut err ok t) : (p.bind g).wpc cut err ok s :=
  wpOn_seq hp hg (fun _ _ h => h) (fun _ h => h)

/-- The rule for a first part that ends in one state. -/
theorem wpc_then {ok : β → σ → Prop} {p : Prog σ ε Unit} {g : Unit → Prog σ ε β}
    (hp : p.wpc cut err (fun _ t => t = u) s) (hg : (g ()).wpc cut err ok u) :
    (p.bind g).wpc cut err ok s :=
  wpc_seq hp fun _ _ ht => ht ▸ hg

theorem wpc_mono {cut' : σ → Prop} {err' : ε → σ → Prop} {ok' : α → σ → Prop}
    (h : p.wpc cut err ok s) (hcut : ∀ t, cut t → cut' t) (herr : ∀ e t, err e t → err' e t)
    (hok : ∀ a t, ok a t → ok' a t) : p.wpc cut' err' ok' s := by
  induction p generalizing s with
  | done a => exact hok a s h
  | fail e => exact herr e s h
  | read k ih => exact ih s h
  | effect f k ih =>
    obtain ⟨⟨hbef, hafter⟩, ⟨hlost, -⟩, hdone⟩ := h
    exact ⟨⟨hcut _ hbef, hcut _ hafter⟩, ⟨ih false hlost, False.elim⟩, ih true hdone⟩

theorem wpc_attempt {ε' : Type} {err' : ε' → σ → Prop} {ok : Except ε α → σ → Prop}
    (h : p.wpc cut (fun e t => ok (.error e) t) (fun a t => ok (.ok a) t) s) :
    (p.attempt : Prog σ ε' (Except ε α)).wpc cut err' ok s := by
  induction p generalizing s with
  | done a => exact h
  | fail e => exact h
  | read k ih => exact ih s h
  | effect f k ih =>
    obtain ⟨⟨hbef, hafter⟩, ⟨hlost, -⟩, hdone⟩ := h
    exact ⟨⟨hbef, hafter⟩, ⟨ih false hlost, False.elim⟩, ih true hdone⟩

end Clean

@[simp] theorem bind_eq (p : Prog σ ε α) (g : α → Prog σ ε β) : (p >>= g) = p.bind g := rfl

@[simp] theorem pure_eq (a : α) : (pure a : Prog σ ε α) = done a := rfl

end Prog

end Paperboat.Crash
