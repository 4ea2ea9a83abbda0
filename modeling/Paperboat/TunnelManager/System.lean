import Paperboat.TunnelManager.Manager
import Paperboat.Lib.Transition

/-! The manager among its callers. One operation at a time holds the lock; while it is
between two of its sections, sessions stage snapshots, the monitor hands over network
events, the update gate draws generations and a shutdown may begin. -/

namespace Paperboat.TunnelManager

open HostState Sections

/-- What the holder of the lock was called for. -/
inductive Call where
  | reconcile
  | replace (tunnelID connectorID : String) (generation : UInt64)
  /-- The reconciliation inside `Start`. -/
  | startup
  /-- The closing after a failed `Start`. -/
  | cleanup
  /-- The closing of `finishShutdown` and of `retryShutdown`. -/
  | closing

/-- Whether the call succeeded. -/
def Call.program (config : Config) : Call → M Bool
  | .reconcile => do return (← reconcileNow config).isNone
  | .replace tunnelID connectorID generation => do
    return (← replaceNetworkCarrier config tunnelID connectorID generation).isOk
  | .startup => do return (← reconcileNow config).isNone
  | .cleanup => closeAll
  | .closing => closeAll

structure Operation where
  call : Call
  rest : M Bool

/-- How far a `Start` that holds the lifecycle lock has come. -/
inductive StartPhase where
  | reconciling
  | failed
  | cleaned
  deriving DecidableEq, Repr

inductive ShutdownPhase where
  | none
  /-- The context is cancelled, the flags are not set. -/
  | stopping
  | stopped
  | finished (closed : Bool)
  deriving DecidableEq, Repr

structure System where
  m : Manager
  op : Option Operation := none
  starting : Option StartPhase := none
  shutdown : ShutdownPhase := .none
  /-- A call of `Shutdown` has returned without an error. -/
  shutDown : Bool := false
  /-- The counter of the update gate. -/
  recoveryGeneration : UInt64 := 0
  /-- What `RecordControlSessionBinding` was called with. -/
  offered : List (String × ControlSessionBinding) := []

inductive Action where
  | start (reconcile : Bool)
  | startReturn
  | begin (call : Call)
  | resume (answer : ∀ q, Answer q)
  | finish
  | shutdown
  | stop
  | observe (generation : UInt64)
  | observeTunnel (tunnelID : String) (generation : UInt64)
  | observeForTunnel (tunnelID : String) (generation : UInt64)
  | handle (generation : UInt64)
  | draw
  | record (tunnelID : String) (b : ControlSessionBinding)
  | stage (state : State)

/-- A call may begin when the lock is free and it is its turn. -/
def System.mayBegin (s : System) : Call → Bool
  | .reconcile => true
  | .replace _ _ _ => true
  | .startup => s.starting = some .reconciling
  | .cleanup => s.starting = some .failed
  | .closing => s.shutdown = .stopped ∨ s.shutdown = .finished false

/-- What the end of a call does to the lifecycle. -/
def System.finished (s : System) (call : Call) (ok : Bool) : System :=
  match call with
  | .startup => { s with op := none, starting := if ok then none else some .failed }
  | .cleanup => { s with op := none, starting := some .cleaned }
  | .closing => { s with op := none, shutdown := .finished ok }
  | _ => { s with op := none }

/-- `nextRecoveryGeneration` -/
def nextRecoveryGeneration (seen watermark : UInt64) : UInt64 :=
  (if seen < watermark then watermark else seen) + 1

def step (config : Config) (s : System) : Action → Option System
  | .start reconcile =>
    -- `Start` and the beginning of `Shutdown` exclude each other
    if s.starting.isSome then none
    else if s.m.started ∨ s.m.closed then some s
    else some { s with
      m := { s.m with started := true }
      starting := if reconcile then some .reconciling else none }
  | .startReturn =>
    if s.starting = some .cleaned then
      some { s with m := { s.m with started := false }, starting := none }
    else none
  | .begin call =>
    if s.op.isNone ∧ s.mayBegin call then some { s with op := some ⟨call, call.program config⟩ } else none
  | .resume answer =>
    match s.op with
    | none => none
    | some op =>
      let (m, rest) := op.rest.resume answer s.m
      some { s with m := m, op := some ⟨op.call, rest⟩ }
  | .finish =>
    match s.op with
    | some ⟨call, .done ok⟩ => some (s.finished call ok)
    | _ => none
  | .shutdown =>
    if s.starting.isSome then none
    else match s.shutdown with
      | .none => some (if s.m.started then { s with shutdown := .stopping } else { s with shutDown := true })
      | .finished true => some { s with shutDown := true }
      | _ => some s
  | .stop =>
    if s.shutdown = .stopping ∧ s.m.activating = false then
      some { s with m := { s.m with started := false, closed := true }, shutdown := .stopped }
    else none
  | .observe generation => some { s with m := (s.m.observeNetworkGeneration generation).2 }
  | .observeTunnel tunnelID generation =>
    some { s with m := (s.m.observeTunnelNetworkGeneration tunnelID generation).2 }
  | .observeForTunnel tunnelID generation =>
    some { s with m := (s.m.observeNetworkGenerationForTunnel tunnelID generation).2 }
  | .handle generation => some { s with m := s.m.note (.handled generation) }
  | .draw =>
    some { s with recoveryGeneration := nextRecoveryGeneration s.recoveryGeneration s.m.networkGeneration }
  | .record tunnelID b =>
    some { s with
      m := s.m.recordControlSessionBinding tunnelID b
      offered := (tunnelID, b) :: s.offered }
  | .stage state => some { s with m := { s.m with state := state, revision := s.m.revision + 1 } }

/-- A manager fresh from `New`, over some durable state. -/
def Initial (s : System) : Prop := ∃ state revision, s = { m := { state := state, revision := revision } }

theorem System.finished_op (s : System) (call : Call) (ok : Bool) : (s.finished call ok).op = none := by
  cases call <;> rfl

/-- Only `begin` and `resume` put another program in place. -/
theorem op_step {config : Config} (h : step config s a = some t) :
    (t.op = s.op ∨ t.op = none) ∨ (∃ call, t = { s with op := some ⟨call, call.program config⟩ }) ∨
      ∃ answer op, a = .resume answer ∧ s.op = some op ∧
        t = { s with m := (op.rest.resume answer s.m).1, op := some ⟨op.call, (op.rest.resume answer s.m).2⟩ } := by
  cases a <;> simp only [step] at h
  case start reconcile =>
    split at h
    · cases h
    · split at h <;> cases h <;> exact .inl (.inl rfl)
  case startReturn =>
    split at h
    · cases h; exact .inl (.inl rfl)
    · cases h
  case begin call =>
    split at h
    · cases h; exact .inr (.inl ⟨call, rfl⟩)
    · cases h
  case resume answer =>
    split at h
    · cases h
    next op hop => cases h; exact .inr (.inr ⟨answer, op, rfl, hop, rfl⟩)
  case finish =>
    split at h
    next call ok hop =>
      cases h
      exact .inl (.inr (System.finished_op s call ok))
    next => cases h
  case shutdown =>
    split at h
    · cases h
    · split at h
      · cases h
        split <;> exact .inl (.inl rfl)
      · cases h; exact .inl (.inl rfl)
      · cases h; exact .inl (.inl rfl)
  case stop =>
    split at h
    · cases h; exact .inl (.inl rfl)
    · cases h
  all_goals cases h; exact .inl (.inl rfl)

end Paperboat.TunnelManager
