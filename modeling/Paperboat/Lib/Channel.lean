import Mathlib.Tactic

/-! First-in first-out channels that may lose their tail. Once a channel is
broken nothing written to it arrives, so what a reader sees is always a prefix of
what was written. -/

namespace Paperboat

variable {α : Type*}

structure Channel (α : Type*) where
  queue : List α := []
  broken : Bool := false

namespace Channel

def send (c : Channel α) (a : α) : Channel α :=
  if c.broken then c else { c with queue := c.queue ++ [a] }

/-- The writing end fails. -/
def breakOff (c : Channel α) : Channel α := { c with broken := true }

/-- Keep the first `n` entries, the rest and everything written later is lost. -/
def lose (c : Channel α) (n : ℕ) : Channel α := { queue := c.queue.take n, broken := true }

def recv (c : Channel α) : Option (α × Channel α) :=
  match c.queue with
  | [] => none
  | a :: rest => some (a, { c with queue := rest })

variable {c d : Channel α} {a b : α} {n : ℕ}

@[simp] theorem breakOff_queue : c.breakOff.queue = c.queue := rfl

theorem mem_of_mem_send (h : b ∈ (c.send a).queue) : b ∈ c.queue ∨ b = a := by
  unfold send at h
  split at h
  · exact .inl h
  · simpa using h

theorem mem_send_of_mem (h : b ∈ c.queue) : b ∈ (c.send a).queue := by
  unfold send
  split
  · exact h
  · exact List.mem_append_left _ h

theorem mem_send_self (h : c.broken = false) : a ∈ (c.send a).queue := by
  simp [send, h]

theorem mem_of_mem_lose (h : b ∈ (c.lose n).queue) : b ∈ c.queue := List.mem_of_mem_take h

theorem recv_eq_some (h : c.recv = some (a, d)) : c.queue = a :: d.queue ∧ d.broken = c.broken := by
  unfold recv at h
  split at h
  · contradiction
  · rename_i hq
    cases h
    exact ⟨hq, rfl⟩

end Channel

end Paperboat
