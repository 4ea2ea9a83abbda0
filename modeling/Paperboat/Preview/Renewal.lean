import Mathlib
import Paperboat.Lib.Transition

/-! The two writers of a preview lease. The renewal loop and the readiness observation of
the dispatch carrier each read the session's lease, send a mutation that names its
generation, and adopt the answer. The server keeps the identity of the lease; what is
left of a lease is its generation and whether all its states are ready. -/

namespace Paperboat.Preview

open Transition

structure Lease where
  generation : ℕ
  ready : Bool := false
  deriving DecidableEq, Repr

structure APIError where
  status : ℕ
  deriving DecidableEq, Repr

def APIError.retryable (e : APIError) : Bool := e.status = 408 ∨ e.status = 429 ∨ 500 ≤ e.status

inductive Answer where
  | ok (lease : Lease)
  | error (err : APIError)
  deriving DecidableEq, Repr

/-- The server: a mutation is applied if it names the current generation. -/
def mutate (server : Lease) (expected : ℕ) (change : Lease → Lease) : Lease × Answer :=
  if expected = server.generation then
    let lease := { change server with generation := server.generation + 1 }
    (lease, .ok lease)
  else (server, .error ⟨412⟩)

/-- Where `renewLoop` is. -/
inductive RenewLoop where
  | waiting
  | sending (lease : Lease)
  | answered (lease : Lease) (answer : Answer)
  | leaseLost
  deriving DecidableEq, Repr

/-- Where the callback of `readinessCarrier.Run` is. -/
inductive Readiness where
  | idle
  | reading (attempt : ℕ)
  | sending (attempt expected : ℕ)
  | answered (attempt expected : ℕ) (answer : Answer)
  | failed
  deriving DecidableEq, Repr

structure System where
  server : Lease
  lease : Lease
  readySet : Bool := false
  /-- The lease that was dispatched; it is read until `setSession`. -/
  admitted : Lease
  attached : Bool := false
  /-- The generation the carrier was started with. -/
  observed : ℕ
  renewal : RenewLoop := .waiting
  readiness : Readiness := .idle

inductive Action where
  | setSession
  | run
  | renew
  | serveRenewal
  | acceptRenewal
  | observe
  | read
  | serveReadiness
  | markReady
  deriving DecidableEq, Repr

namespace System

def start (lease : Lease) : System where
  server := lease
  lease := lease
  admitted := lease
  observed := lease.generation

variable (s : System)

/-- `dispatchSessionLease.current` -/
def current : Lease := if s.attached then s.lease else s.admitted

def acceptRenewal (previous : Lease) : Answer → System
  | .ok renewed =>
    if renewed.generation ≤ previous.generation then { s with renewal := .leaseLost }
    else { s with lease := renewed, renewal := .waiting }
  | .error e => { s with renewal := if e.retryable then .sending previous else .leaseLost }

def markReady (lease : Lease) : System :=
  if s.renewal = .leaseLost ∨ lease.ready = false ∨ (s.readySet ∧ lease.generation < s.lease.generation) then
    { s with readiness := .failed }
  else if s.readySet ∧ lease.generation = s.lease.generation then { s with readiness := .idle }
  else { s with lease := lease, readySet := true, readiness := .idle }

/-- One round of the callback, up to its request. -/
def read (attempt : ℕ) : System :=
  if attempt ≥ 4 ∨ s.observed > s.current.generation then { s with readiness := .failed }
  else { s with readiness := .sending attempt s.current.generation }

/-- The rest of the round. -/
def readinessAnswered (attempt expected : ℕ) : Answer → System
  | .ok updated =>
    if updated.ready = false ∨ updated.generation ≤ expected then { s with readiness := .failed }
    else s.markReady updated
  | .error _ =>
    { s with readiness := if s.current.generation > expected then .reading (attempt + 1) else .failed }

def step (a : Action) : Option System :=
  match a, s.renewal, s.readiness with
  | .setSession, _, _ => some { s with attached := true }
  | .run, _, .idle => some { s with observed := s.lease.generation }
  | .renew, .waiting, _ => some { s with renewal := .sending s.lease }
  | .serveRenewal, .sending lease, _ =>
    let (server, answer) := mutate s.server lease.generation id
    some { s with server, renewal := .answered lease answer }
  | .acceptRenewal, .answered lease answer, _ => some (s.acceptRenewal lease answer)
  | .observe, _, .idle => some { s with readiness := .reading 0 }
  | .read, _, .reading attempt => some (s.read attempt)
  | .serveReadiness, _, .sending attempt expected =>
    let (server, answer) := mutate s.server expected fun lease => { lease with ready := true }
    some { s with server, readiness := .answered attempt expected answer }
  | .markReady, _, .answered attempt expected answer => some (s.readinessAnswered attempt expected answer)
  | _, _, _ => none

/-- The two writers may overlap if it is the renewal that is applied: none is under way when the
server takes a readiness mutation, and none begins before that is adopted. Readiness reads the
session's lease, looks at an answer once the renewal before it is adopted, and comes too late at
most three times in a row. -/
def Yields (a : Action) : Bool :=
  match a, s.renewal, s.readiness with
  | .renew, _, .answered _ _ (.ok _) | .serveReadiness, .sending _, _ | .markReady, .answered _ _, _ => false
  | .read, _, .reading attempt => attempt < 4 ∧ s.current = s.lease
  | .markReady, _, _ => s.current = s.lease
  | _, _, _ => true

/-- Readiness has no answer to adopt, and what it has sent is not ahead of the session. -/
inductive Behind (server lease : Lease) : Readiness → Prop
  | idle : Behind server lease .idle
  | reading : Behind server lease (.reading n)
  | sending (h : expected ≤ lease.generation) : Behind server lease (.sending n expected)
  | refused (h : expected < server.generation) : Behind server lease (.answered n expected (.error e))

/-- The renewal loop has the session's lease, or an answer that is to be adopted. -/
inductive Renewing (server lease : Lease) : RenewLoop → Prop
  | waiting (h : lease = server) : Renewing server lease .waiting
  | sending (h : lease = server) : Renewing server lease (.sending lease)
  | answered (h : server.generation = lease.generation + 1) : Renewing server lease (.answered lease (.ok server))

/-- At most one of the two writers has an answer that the session is to adopt. -/
inductive Agrees (server lease : Lease) : RenewLoop → Readiness → Prop
  | renewing (hr : Renewing server lease r) (hd : Behind server lease d) : Agrees server lease r d
  | observed (h : server = ⟨lease.generation + 1, true⟩) :
    Agrees server lease .waiting (.answered n lease.generation (.ok server))

def Inv : Prop := Agrees s.server s.lease s.renewal s.readiness ∧ s.observed ≤ s.lease.generation

variable {s t : System}

theorem Behind.grow {server server' lease lease' : Lease} (h : Behind server lease d)
    (hs : server.generation ≤ server'.generation) (hl : lease.generation ≤ lease'.generation) :
    Behind server' lease' d := by
  cases h with
  | idle => exact .idle
  | reading => exact .reading
  | sending h => exact .sending (h.trans hl)
  | refused h => exact .refused (h.trans_le hs)

theorem Inv.step (h : s.Inv) (hok : s.Yields a) (hst : s.step a = some t) : t.Inv := by
  obtain ⟨server, lease, readySet, admitted, attached, observed, renewal, readiness⟩ := s
  obtain ⟨h, hseen⟩ : Agrees server lease renewal readiness ∧ observed ≤ lease.generation := h
  cases h with
  | observed h =>
    cases a with
    | setSession => cases hst; exact ⟨.observed h, hseen⟩
    | markReady =>
      subst h
      simp [System.step, readinessAnswered, markReady] at hst
      cases hst
      exact ⟨.renewing (.waiting rfl) .idle, hseen.trans (Nat.le_succ _)⟩
    | renew => cases hok
    | run | serveRenewal | acceptRenewal | observe | read | serveReadiness => cases hst
  | renewing hr hd =>
    cases a with
    | setSession => cases hst; exact ⟨.renewing hr hd, hseen⟩
    | run => cases hd <;> cases hst; exact ⟨.renewing hr .idle, le_rfl⟩
    | renew =>
      cases hr with
      | waiting h =>
        have hd' := hd
        cases hd <;> cases hst <;> exact ⟨.renewing (.sending h) hd', hseen⟩
      | sending | answered => cases hd <;> cases hst
    | serveRenewal =>
      cases hr with
      | sending h =>
        subst h
        simp only [System.step, mutate, if_true] at hst
        cases hst
        exact ⟨.renewing (.answered rfl) (hd.grow (Nat.le_succ _) le_rfl), hseen⟩
      | waiting | answered => cases hst
    | acceptRenewal =>
      cases hr with
      | answered h =>
        have hlt : lease.generation < server.generation := by omega
        simp only [System.step, acceptRenewal, if_neg hlt.not_ge] at hst
        cases hst
        exact ⟨.renewing (.waiting rfl) (hd.grow le_rfl hlt.le), hseen.trans hlt.le⟩
      | waiting | sending => cases hst
    | observe => cases hd <;> cases hst; exact ⟨.renewing hr .reading, hseen⟩
    | read =>
      cases hd with
      | reading =>
        obtain ⟨hn, hcur⟩ : _ < 4 ∧ current _ = lease := of_decide_eq_true hok
        simp only [System.step, read, hcur, if_neg (not_or.mpr ⟨hn.not_ge, hseen.not_gt⟩)] at hst
        cases hst
        exact ⟨.renewing hr (.sending le_rfl), hseen⟩
      | idle | sending | refused => cases hst
    | serveReadiness =>
      cases hd with
      | sending hle =>
        -- the server takes the mutation unless a renewal was applied since the lease was read
        have hserver : lease.generation ≤ server.generation := by cases hr <;> grind
        obtain rfl | hlt := (hle.trans hserver).eq_or_lt
        · obtain ⟨⟨⟩⟩ | _ | _ := hr
          · simp only [System.step, mutate, if_true] at hst
            cases hst
            exact ⟨.observed rfl, hseen⟩
          · cases hok
          · omega
        · simp only [System.step, mutate, if_neg hlt.ne] at hst
          cases hst
          exact ⟨.renewing hr (.refused hlt), hseen⟩
      | idle | reading | refused => cases hst
    | markReady =>
      cases hd with
      | refused hlt =>
        obtain ⟨⟨⟩⟩ | ⟨⟨⟩⟩ | _ := hr
        case answered => cases hok
        all_goals
          have hcur : current _ = server := of_decide_eq_true hok
          simp only [System.step, readinessAnswered, hcur, if_pos hlt] at hst
          cases hst
          exact ⟨.renewing (by constructor; rfl) .reading, hseen⟩
      | idle | reading | sending => cases hst

/-- While of two overlapping mutations it is the renewal that is applied, the renewal loop never
loses the lease and readiness is never reported as failed. -/
theorem lease_never_lost {lease : Lease} (h : Reach step (Yields · ·) (start lease) s) :
    s.renewal ≠ .leaseLost ∧ s.readiness ≠ .failed := by
  have hinv : s.Inv := by
    induction h with
    | refl => exact ⟨.renewing (.waiting rfl) .idle, le_rfl⟩
    | tail _ hok hst ih => exact ih.step hok hst
  obtain ⟨h, -⟩ := hinv
  generalize s.renewal = r, s.readiness = d at h
  rcases h with ⟨_ | _ | _, _ | _ | _ | _⟩ | _ <;> exact ⟨nofun, nofun⟩

/-- A renewal that readiness loses against, its second attempt, and another renewal. -/
def taken : List Action :=
  [.setSession, .observe, .read, .renew, .serveRenewal, .serveReadiness, .acceptRenewal, .markReady, .read,
    .serveReadiness, .markReady, .renew, .serveRenewal, .acceptRenewal]

theorem lease_never_lost_taken :
    (run step (start ⟨1, false⟩) (taken.take 8)).map (·.readiness) = some (.reading 1) ∧
      (finalChecked step (Yields · ·) (start ⟨1, false⟩) taken (by decide)).lease = ⟨4, true⟩ ∧
      (finalChecked step (Yields · ·) (start ⟨1, false⟩) taken (by decide)).renewal ≠ .leaseLost :=
  ⟨by decide, by decide, (lease_never_lost (reach_finalChecked taken _)).1⟩

/-- A renewal that is sent before the answer to readiness is adopted loses the lease. -/
theorem lease_lost_to_readiness :
    (run step (start ⟨1, false⟩) [.setSession, .observe, .read, .serveReadiness, .renew, .serveRenewal,
      .acceptRenewal]).any (·.renewal = .leaseLost) = true := by
  decide

end System

end Paperboat.Preview
