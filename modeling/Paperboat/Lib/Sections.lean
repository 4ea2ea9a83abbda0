import Mathlib.Logic.Basic

/-! Programs in atomic sections. A program changes a shared state in sections that nothing
interrupts, and asks its surroundings for answers; other parties act between. A question
records its answer in the state in the same instant. `exec` runs a program alone, `resume`
makes one step of it, and `within` says that every section of it keeps a relation. -/

namespace Paperboat.Sections

inductive Prog (σ : Type) (Q : Type) (A : Q → Type) (α : Type) where
  | done (value : α)
  | atomic (change : σ → σ) (next : σ → Prog σ Q A α)
  | ask (query : Q) (record : A query → σ → σ) (next : A query → Prog σ Q A α)

namespace Prog

variable {σ Q : Type} {A : Q → Type} {α β : Type}

def bind : Prog σ Q A α → (α → Prog σ Q A β) → Prog σ Q A β
  | done a, g => g a
  | atomic f k, g => atomic f fun s => (k s).bind g
  | ask q r k, g => ask q r fun a => (k a).bind g

instance : Monad (Prog σ Q A) where
  pure := done
  bind := bind

@[simp] theorem bind_eq (p : Prog σ Q A α) (g : α → Prog σ Q A β) : (p >>= g) = p.bind g := rfl

@[simp] theorem pure_eq (a : α) : (pure a : Prog σ Q A α) = done a := rfl

/-- A section that reads a value and changes the state. -/
def update (f : σ → α × σ) : Prog σ Q A α := atomic (fun s => (f s).2) fun s => done (f s).1

def modify (f : σ → σ) : Prog σ Q A Unit := atomic f fun _ => done ()

def read (f : σ → α) : Prog σ Q A α := atomic id fun s => done (f s)

def call (q : Q) : Prog σ Q A (A q) := ask q (fun _ => id) done

/-- A question whose answer is noted in the state. -/
def callNoting (q : Q) (record : A q → σ → σ) : Prog σ Q A (A q) := ask q record done

/-! ### Runs -/

/-- The whole run of a program that is alone. -/
def exec (answer : ∀ q, A q) : Prog σ Q A α → σ → α × σ
  | done a, s => (a, s)
  | atomic f k, s => (k s).exec answer (f s)
  | ask q r k, s => (k (answer q)).exec answer (r (answer q) s)

theorem exec_bind (answer : ∀ q, A q) (p : Prog σ Q A α) (g : α → Prog σ Q A β) (s : σ) :
    (p.bind g).exec answer s = (g (p.exec answer s).1).exec answer (p.exec answer s).2 := by
  induction p generalizing s with
  | done a => rfl
  | atomic f k ih => exact ih s (f s)
  | ask q r k ih => exact ih (answer q) (r (answer q) s)

/-- One step. A program that is done stays. -/
def resume (answer : ∀ q, A q) : Prog σ Q A α → σ → σ × Prog σ Q A α
  | done a, s => (s, done a)
  | atomic f k, s => (f s, k s)
  | ask q r k, s => (r (answer q) s, k (answer q))

/-! ### Sections that all keep a relation -/

variable {guar : σ → σ → Prop} {p : Prog σ Q A α} {s : σ}

/-- Every section keeps the guarantee, from whatever state. -/
def within (guar : σ → σ → Prop) : Prog σ Q A α → Prop
  | done _ => True
  | atomic f k => ∀ s, guar s (f s) ∧ (k s).within guar
  | ask _ r k => ∀ a, (∀ s, guar s (r a s)) ∧ (k a).within guar

theorem within_bind {g : α → Prog σ Q A β} (hp : p.within guar)
    (hg : ∀ a, (g a).within guar) : (p.bind g).within guar := by
  induction p with
  | done a => exact hg a
  | atomic f k ih => exact fun s => ⟨(hp s).1, ih s (hp s).2⟩
  | ask q r k ih => exact fun a => ⟨(hp a).1, ih a (hp a).2⟩

theorem within_modify {f : σ → σ} (h : ∀ s, guar s (f s)) : (modify f : Prog σ Q A Unit).within guar :=
  fun s => ⟨h s, trivial⟩

theorem within_update {f : σ → α × σ} (h : ∀ s, guar s (f s).2) : (update f : Prog σ Q A α).within guar :=
  fun s => ⟨h s, trivial⟩

theorem within_read (hrefl : ∀ s, guar s s) {f : σ → α} : (read f : Prog σ Q A α).within guar :=
  fun s => ⟨hrefl s, trivial⟩

theorem within_call (hrefl : ∀ s, guar s s) {q : Q} : (call q : Prog σ Q A (A q)).within guar :=
  fun _ => ⟨hrefl, trivial⟩

theorem within_callNoting {q : Q} {record : A q → σ → σ} (h : ∀ a s, guar s (record a s)) :
    (callNoting q record : Prog σ Q A (A q)).within guar :=
  fun a => ⟨h a, trivial⟩

theorem within_resume (hrefl : ∀ s, guar s s) (h : p.within guar) (answer : ∀ q, A q)
    (s : σ) : guar s (p.resume answer s).1 ∧ ((p.resume answer s).2).within guar := by
  cases p with
  | done a => exact ⟨hrefl s, h⟩
  | atomic f k => exact h s
  | ask q r k => exact ⟨(h (answer q)).1 s, (h (answer q)).2⟩

/-! ### Runs from states that look alike -/

/-- In related states the two programs make the same steps, and keep the states related. -/
inductive Lockstep (rel : σ → σ → Prop) : Prog σ Q A α → Prog σ Q A α → Prop
  | done (a : α) : Lockstep rel (done a) (done a)
  | atomic {f g : σ → σ} {k l : σ → Prog σ Q A α} (hchange : ∀ s t, rel s t → rel (f s) (g t))
      (hnext : ∀ s t, rel s t → Lockstep rel (k s) (l t)) : Lockstep rel (atomic f k) (atomic g l)
  | ask {q : Q} {r r' : A q → σ → σ} {k l : A q → Prog σ Q A α}
      (hrecord : ∀ a s t, rel s t → rel (r a s) (r' a t)) (hnext : ∀ a, Lockstep rel (k a) (l a)) :
      Lockstep rel (ask q r k) (ask q r' l)

namespace Lockstep

variable {rel : σ → σ → Prop}

theorem bind {p p' : Prog σ Q A α} {g g' : α → Prog σ Q A β} (hp : Lockstep rel p p')
    (hg : ∀ a, Lockstep rel (g a) (g' a)) : Lockstep rel (p.bind g) (p'.bind g') := by
  induction hp with
  | done a => exact hg a
  | atomic hchange _ ih => exact .atomic hchange ih
  | ask hrec _ ih => exact .ask hrec ih

theorem modify {f g : σ → σ} (h : ∀ s t, rel s t → rel (f s) (g t)) :
    Lockstep rel (Prog.modify f : Prog σ Q A Unit) (Prog.modify g) :=
  .atomic h fun _ _ _ => .done ()

theorem update {f g : σ → α × σ} (h : ∀ s t, rel s t → (f s).1 = (g t).1 ∧ rel (f s).2 (g t).2) :
    Lockstep rel (Prog.update f : Prog σ Q A α) (Prog.update g) := by
  refine .atomic (fun s t hst => (h s t hst).2) fun s t hst => ?_
  rw [(h s t hst).1]
  exact .done _

theorem read {f g : σ → α} (h : ∀ s t, rel s t → f s = g t) :
    Lockstep rel (Prog.read f : Prog σ Q A α) (Prog.read g) := by
  refine .atomic (fun s t hst => hst) fun s t hst => ?_
  rw [h s t hst]
  exact .done _

theorem call {q : Q} : Lockstep rel (Prog.call q : Prog σ Q A (A q)) (Prog.call q) :=
  .ask (fun _ _ _ h => h) fun a => .done a

theorem callNoting {q : Q} {record : A q → σ → σ} (h : ∀ a s t, rel s t → rel (record a s) (record a t)) :
    Lockstep rel (Prog.callNoting q record : Prog σ Q A (A q)) (Prog.callNoting q record) :=
  .ask h fun a => .done a

theorem exec {p p' : Prog σ Q A α} (h : Lockstep rel p p') (answer : ∀ q, A q) {s t : σ} (hst : rel s t) :
    (p.exec answer s).1 = (p'.exec answer t).1 ∧ rel (p.exec answer s).2 (p'.exec answer t).2 := by
  induction h generalizing s t with
  | done a => exact ⟨rfl, hst⟩
  | atomic hchange _ ih => exact ih s t hst (hchange s t hst)
  | ask hrec _ ih => exact ih (answer _) (hrec (answer _) s t hst)

end Lockstep

/-! ### Properties of programs -/

/-- A property that sequencing keeps. -/
structure Sequential (K : ∀ {α : Type}, Prog σ Q A α → Prop) : Prop where
  done : ∀ {α : Type} (a : α), K (done a)
  bind : ∀ {α β : Type} {p : Prog σ Q A α} {g : α → Prog σ Q A β}, K p → (∀ a, K (g a)) → K (p.bind g)
  call : ∀ q, K (call q)

theorem sequential_within (hrefl : ∀ s, guar s s) :
    Sequential fun {α} (p : Prog σ Q A α) => p.within guar where
  done _ := trivial
  bind := within_bind
  call _ := within_call hrefl

theorem sequential_lockstep {rel : σ → σ → Prop} :
    Sequential fun {α} (p : Prog σ Q A α) => Lockstep rel p p where
  done := .done
  bind := .bind
  call _ := .call

end Prog

end Paperboat.Sections
