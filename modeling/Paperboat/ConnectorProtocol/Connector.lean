import Paperboat.ConnectorProtocol.ClientMoves
import Paperboat.ConnectorProtocol.Server
import Paperboat.Lib.Transition

/-! A connector process: one client session and the calls in flight on it. One
call at a time holds the apply lock, from its check to its last section, and one
`HandleDrain` at most is between its sections, since the recorded drain stays. All
other calls run in between. The ledger counts what was done with every handle the
applier returned; aborting a handle after the last section of a call is part of
that section. -/

namespace Paperboat.ConnectorProtocol

open Transition

/-- Where the call that holds the apply lock is. -/
inductive Holder where
  /-- The applier runs. -/
  | preparing (change : Change)
  /-- The applier returned a handle that is not staged yet. -/
  | prepared (change : Change) (handle : Handle)
  | activating (activation : ClientSession.Activation)
  | activated (activation : ClientSession.Activation)
  /-- The activation failed and the handle was aborted. -/
  | failed (activation : ClientSession.Activation)

structure Connector where
  session : ClientSession
  holder : Option Holder := none
  /-- The request of a `HandleDrain` that waits for the runtime. -/
  draining : Option Drain := none
  /-- The number of handles the applier has returned. -/
  issued : ℕ := 0
  activations : Handle → ℕ := fun _ => 0
  aborts : Handle → ℕ := fun _ => 0

namespace Connector

inductive Action where
  /-- A call of one section. -/
  | call (sec : ClientSession.Section)
  | apply (now : Time) (change : Change)
  /-- The context is done before the applier is called. -/
  | cancelApply
  /-- The applier returns: whether with a handle, and whether with an error or too late. -/
  | prepare (returned failed : Bool)
  | stage (now : Time)
  | markReady (cancelled : Bool) (now : Time) (edgeReady routeReady originReady : Bool)
  | activate (success : Bool)
  | activateFailed (cancelled : Bool)
  | activateDone (now : Time)
  | handleDrain (cancelled : Bool) (now : Time) (request : Drain)
  | drainReject (counted : Bool)
  | drainFinish (activeStreams : ℕ)
  | close (reason : DisconnectReason)

/-- The calls that take the session lock once and no other lock. -/
def single : ClientSession.Section → Bool
  | .acceptWelcome .. | .heartbeat _ | .acceptHeartbeatAck .. | .applyRenewal ..
  | .drainProgress .. | .checkLease _ => true
  | _ => false

/-- The section of the session that an action runs. -/
def section? (x : Connector) : Action → Option ClientSession.Section
  | .call sec => some sec
  | .apply now change => some (.applyCheck now change)
  | .stage now =>
    match x.holder with
    | some (.prepared change handle) => some (.applyStage now handle change)
    | _ => none
  | .markReady cancelled now edgeReady routeReady originReady =>
    some (.markReadyCheck cancelled now edgeReady routeReady originReady)
  | .activateFailed cancelled =>
    match x.holder with
    | some (.failed a) => some (.markReadyFailed cancelled a)
    | _ => none
  | .activateDone now =>
    match x.holder with
    | some (.activated a) => some (.markReadyFinish now a)
    | _ => none
  | .handleDrain cancelled now request => some (.handleDrainStart cancelled now request)
  | .drainReject counted => x.draining.map fun request => .handleDrainReject request counted
  | .drainFinish activeStreams =>
    x.draining.map fun request => .handleDrainFinish request activeStreams
  | .close reason => some (.close reason)
  | .cancelApply | .prepare .. | .activate _ => none

def abort (x : Connector) (handle : Handle) : Connector :=
  { x with aborts := Function.update x.aborts handle (x.aborts handle + 1) }

def activate (x : Connector) (handle : Handle) : Connector :=
  { x with activations := Function.update x.activations handle (x.activations handle + 1) }

def step (rules : PayloadRules) (x : Connector) : Action → Option Connector
  | .call sec => if single sec then some { x with session := x.session.after rules sec } else none
  | .apply now change =>
    if x.holder.isSome then none
    else match x.session.applyCheck rules now change with
      | (.error _, c) => some { x with session := c }
      | (.ok (), c) => some { x with session := c, holder := some (.preparing change) }
  | .cancelApply =>
    match x.holder with
    | some (.preparing _) => some { x with holder := none }
    | _ => none
  | .prepare returned failed =>
    match x.holder with
    | some (.preparing change) =>
      if !returned then some { x with holder := none }
      else if failed then some ({ x with holder := none, issued := x.issued + 1 }.abort x.issued)
      else some { x with
        holder := some (.prepared change x.issued), issued := x.issued + 1 }
    | _ => none
  | .stage now =>
    match x.holder with
    | some (.prepared change handle) =>
      match x.session.applyStage now handle change with
      | (.error _, c) => some ({ x with session := c, holder := none }.abort handle)
      | (.ok _, c) => some { x with session := c, holder := none }
    | _ => none
  | .markReady cancelled now edgeReady routeReady originReady =>
    if x.holder.isSome then none
    else match x.session.markReadyCheck cancelled now edgeReady routeReady originReady with
      | (.error _, c) => some { x with session := c }
      | (.ok a, c) => some { x with session := c, holder := some (.activating a) }
  | .activate success =>
    match x.holder with
    | some (.activating a) =>
      if success then some ({ x with holder := some (.activated a) }.activate a.prepared)
      else some ({ x with holder := some (.failed a) }.abort a.prepared)
    | _ => none
  | .activateFailed cancelled =>
    match x.holder with
    | some (.failed a) =>
      some { x with session := (x.session.markReadyFailed cancelled a).2, holder := none }
    | _ => none
  | .activateDone now =>
    match x.holder with
    | some (.activated a) =>
      some { x with session := (x.session.markReadyFinish now a).2, holder := none }
    | _ => none
  | .handleDrain cancelled now request =>
    match x.session.handleDrainStart cancelled now request with
    | (.error _, c) => some { x with session := c }
    | (.ok (), c) => some { x with session := c, draining := some request }
  | .drainReject counted =>
    x.draining.map fun request =>
      { x with session := (x.session.handleDrainReject request counted).2, draining := none }
  | .drainFinish activeStreams =>
    x.draining.map fun request =>
      { x with
        session := (x.session.handleDrainFinish request activeStreams).2, draining := none }
  | .close reason =>
    if x.holder.isSome then none
    else match x.session.close reason with
      | (none, c) => some { x with session := c }
      | (some handle, c) => some ({ x with session := c }.abort handle)

variable {rules : PayloadRules} {x y : Connector} {a : Action}

/-- An action runs its section on the session, one without a section leaves it alone. -/
theorem session_step (h : x.step rules a = some y) :
    (x.section? a = none ∧ y.session = x.session) ∨
      ∃ sec, x.section? a = some sec ∧ y.session = x.session.after rules sec := by
  cases a <;> simp only [step] at h
  case call sec =>
    split at h <;> cases h
    exact .inr ⟨sec, rfl, rfl⟩
  case apply | markReady | close =>
    split at h
    · cases h
    split at h <;> rename_i heq <;> cases h <;>
      exact .inr ⟨_, rfl, (congrArg Prod.snd heq).symm⟩
  case cancelApply =>
    split at h <;> cases h
    exact .inl ⟨rfl, rfl⟩
  case prepare returned failed =>
    split at h
    · split at h
      · cases h; exact .inl ⟨rfl, rfl⟩
      split at h <;> cases h <;> exact .inl ⟨rfl, rfl⟩
    · cases h
  case stage now =>
    split at h
    next change handle hholder =>
      right
      refine ⟨.applyStage now handle change, by simp [section?, hholder], ?_⟩
      split at h <;> rename_i heq <;> cases h <;> exact (congrArg Prod.snd heq).symm
    next => cases h
  case activate success =>
    split at h
    · split at h <;> cases h <;> exact .inl ⟨rfl, rfl⟩
    · cases h
  case activateFailed cancelled =>
    split at h <;> cases h
    next a hholder => exact .inr ⟨.markReadyFailed cancelled a, by simp [section?, hholder], rfl⟩
  case activateDone now =>
    split at h <;> cases h
    next a hholder => exact .inr ⟨.markReadyFinish now a, by simp [section?, hholder], rfl⟩
  case handleDrain cancelled now request =>
    split at h <;> rename_i heq <;> cases h <;>
      exact .inr ⟨_, rfl, (congrArg Prod.snd heq).symm⟩
  case drainReject | drainFinish =>
    obtain ⟨request, hd, rfl⟩ := Option.map_eq_some_iff.mp h
    exact .inr ⟨_, by rw [section?, hd]; rfl, rfl⟩

/-! ### A connector to run -/

namespace Demo

def payloadRules : PayloadRules := ServerSession.Demo.serverConfig.rules

def newSession : Except Error ClientSession := ClientSession.new second (Server.Demo.hello 1)

def welcome : Welcome :=
  ⟨protocolName, protocolVersion, "sess_1", Server.Demo.capabilities,
    ⟨"sess_1", 46 * second, 15000⟩, true, second⟩

def snapshot (generation : UInt64) : Snapshot :=
  { ServerSession.Demo.snapshot generation with
    accountID := "account_1", connectorID := "connector_1", sessionID := "sess_1",
    processGeneration := 1 }

/-- A snapshot is applied and staged. -/
def staging (generation : UInt64) : List Action :=
  [.apply second (.snapshot (snapshot generation)), .prepare true false, .stage second]

def promoting : List Action :=
  [.markReady false second true true true, .activate true, .activateDone second]

def opening : List Action := [.call (.acceptWelcome second second welcome)]

end Demo

end Connector

end Paperboat.ConnectorProtocol
