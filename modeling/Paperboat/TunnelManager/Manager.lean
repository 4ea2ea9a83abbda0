import Paperboat.HostState.State
import Paperboat.Lib.Keyed
import Paperboat.Lib.Sections

/-! The tunnel manager of the host runtime: it brings the published runtimes in line with
the durable desired state and replaces carriers after network events. Operations are
serialized by one lock; sessions, network events and the shutdown act between their
sections. What an operation asks the outside for, its context, the store, the factory and
the runtimes, is a query. The manager keeps a log of what it did to candidates and runtimes
and of what it reported. -/

namespace Paperboat.TunnelManager

open HostState Sections

inductive ErrKind where
  | canceled | deadlineExceeded | originUnavailable | connectorUnavailable | generationConflict
  | notStarted | alreadyStarted | invalidConfig | invalidState | conflict
  | other (text : String)
  deriving DecidableEq, Repr

/-- An error, as the kinds that `errors.Is` finds in it. -/
structure Err where
  kinds : List ErrKind

def Err.is (e : Err) (kind : ErrKind) : Bool := e.kinds.contains kind

def ErrKind.err (kind : ErrKind) : Err := ⟨[kind]⟩

/-- `errors.Join` with an error that may be missing. -/
def ErrKind.join (kind : ErrKind) (e : Option Err) : Err := ⟨kind :: e.elim [] Err.kinds⟩

/-- `ctx.Err()` of a context that is over. -/
inductive Expiry where
  | canceled
  | deadlineExceeded

def Expiry.err : Expiry → Err
  | .canceled => ErrKind.canceled.err
  | .deadlineExceeded => ErrKind.deadlineExceeded.err

structure CarrierIdentity where
  accountID : String
  tunnelID : String
  connectorID : String
  sessionID : String
  processGeneration : UInt64
  generation : UInt64
  deriving DecidableEq, Repr

structure Candidate where
  handle : ℕ

/-- An active runtime. It may have no data carrier, one that has lost its identity, or one
with an identity. -/
structure Runtime where
  handle : ℕ
  tunnelID : String
  connectorID : String
  generation : UInt64
  contentHash : String
  carrier : Option (Option CarrierIdentity) := none
  deriving DecidableEq, Repr

structure ApplyRequest where
  tunnel : Tunnel
  connector : Connector
  snapshot : ConfigSnapshot
  decoded : TunnelConfigSnapshot
  recovery : Bool

structure ControlSessionBinding where
  accountID : String
  connectorID : String
  sessionID : String
  processGeneration : UInt64
  generation : UInt64
  contentHash : String

structure NetworkRecoveryState where
  observed : UInt64 := 0
  applied : UInt64 := 0
  inFlight : UInt64 := 0

inductive Code where
  | ready | reattached | networkReattached | originUnavailable | controlUnavailable
  | connectorUnavailable | applyFailed | persistenceConflict | paused | stopped

structure Observation where
  tunnelID : String
  connectorID : String
  desiredGeneration : UInt64
  appliedGeneration : UInt64
  code : Code
  retryable : Bool
  err : Option Err

/-- What the manager does to others, in the order in which it does it. -/
inductive Event where
  | prepared (c : Candidate)
  | aborted (c : Candidate)
  | activated (c : Candidate) (r : Runtime)
  | drained (r : Runtime)
  | closed (r : Runtime)
  /-- The call of `ActiveObserver`. -/
  | changed (tunnelID : String) (previous current : Option Runtime)
  | reported (o : Observation)
  /-- A network event is handed over by the monitor. -/
  | handled (generation : UInt64)
  /-- `ReplaceNetworkCarrier` returns a runtime. -/
  | replaced (tunnelID : String) (generation : UInt64) (r : Runtime)

structure Manager where
  started : Bool := false
  closed : Bool := false
  /-- `activationMu` is held. -/
  activating : Bool := false
  active : Keyed String Runtime := ∅
  seen : String → UInt64 := fun _ => 0
  sessionBindings : String → Option ControlSessionBinding := fun _ => none
  networkGeneration : UInt64 := 0
  networkStates : String → Option NetworkRecoveryState := fun _ => none
  /-- The durable state in the store, and its revision. -/
  state : State := {}
  revision : UInt64 := 1
  log : List Event := []

structure Config where
  rules : Rules
  hostID : String
  /-- There is a `Refresh` callback. -/
  refresh : Bool

/-! ### Queries -/

/-- Where an operation asks: on its own account, or for one application of a snapshot. -/
inductive Site where
  | operation
  | application (tunnelID : String) (recovery : Bool) (network : Option UInt64)

/-- The places where an operation looks at its context. -/
inductive Point where
  | entry | refreshed | probed | gate | activated
  | promoting (attempt : ℕ)
  | committed (attempt : ℕ)

inductive Query where
  /-- The manager was running when the call looked before it took the lock. -/
  | startedBefore
  | ctx (site : Site) (point : Point)
  | refresh
  | snapshot (site : Site) (attempt : ℕ)
  | prepare (request : ApplyRequest)
  | probe (request : ApplyRequest) (c : Candidate)
  | activate (request : ApplyRequest) (c : Candidate)
  | commit (site : Site) (attempt : ℕ)
  | close (r : Runtime)
  | clock (site : Site)

@[reducible] def Answer : Query → Type
  | .startedBefore => Bool
  | .ctx _ _ => Option Expiry
  | .refresh => Option Err
  | .snapshot _ _ => Option Err
  | .prepare _ => Except Err (Option Candidate)
  | .probe _ _ => Option Err × Bool
  | .activate _ _ => Option Runtime × Option Err
  | .commit _ _ => Option Err
  | .close _ => Option Err
  | .clock _ => Time

abbrev M := Prog Manager Query Answer

def ctxErr (site : Site) (point : Point) : M (Option Expiry) := Prog.call (A := Answer) (.ctx site point)

/-- `Store.Snapshot`: it may fail. -/
def readState (site : Site) (attempt : ℕ) : M (Except Err (State × UInt64)) := do
  match ← Prog.call (A := Answer) (.snapshot site attempt) with
  | some e => return .error e
  | none => return .ok (← Prog.read fun m => (m.state, m.revision))

/-! ### Small sections -/

variable (config : Config) (m : Manager) (tunnelID connectorID : String) (generation : UInt64)

def Manager.note (e : Event) : Manager := { m with log := m.log ++ [e] }

def Manager.running : Bool := m.started && !m.closed

def Manager.activeFor : Option Runtime := m.active.lookup tunnelID

def Manager.networkState : NetworkRecoveryState :=
  (m.networkStates tunnelID).getD {}

def Manager.setNetworkState (s : NetworkRecoveryState) : Manager :=
  { m with networkStates := Function.update m.networkStates tunnelID (some s) }

@[simp] theorem Manager.setNetworkState_self (s : NetworkRecoveryState) :
    (m.setNetworkState tunnelID s).networkStates tunnelID = some s :=
  Function.update_self _ _ _

theorem Manager.setNetworkState_of_ne {tunnelID other : String} (s : NetworkRecoveryState)
    (hne : other ≠ tunnelID) : (m.setNetworkState tunnelID s).networkStates other = m.networkStates other :=
  Function.update_of_ne hne _ _

def log (e : Event) : M Unit := Prog.modify fun m => m.note e

def report (t : Tunnel) (connectorID : String) (code : Code) (retryable : Bool) (err : Option Err) : M Unit :=
  log (.reported ⟨t.id, connectorID, t.desiredGeneration, t.appliedGeneration, code, retryable, err⟩)

def abort (c : Candidate) : M Unit := log (.aborted c)

def drain (r : Runtime) : M Unit := log (.drained r)

def closeActive (r : Runtime) : M (Option Err) :=
  Prog.callNoting (A := Answer) (.close r) fun _ m => m.note (.closed r)

/-- The published carrier belongs to the latest session that supplied the snapshot. -/
def Manager.activeMatchesControlSession (r : Runtime) : Bool :=
  match m.sessionBindings tunnelID with
  | none => true
  | some binding =>
    if r.connectorID ≠ binding.connectorID ∨ r.generation ≠ binding.generation ∨
        r.contentHash ≠ binding.contentHash then false
    else match r.carrier with
      | none => true
      | some none => false
      | some (some identity) =>
        identity = ⟨binding.accountID, tunnelID, binding.connectorID, binding.sessionID,
          binding.processGeneration, binding.generation⟩

def Manager.networkGenerationCurrent : Bool :=
  !m.closed && (m.networkStates tunnelID).any fun s => s.observed = generation

/-- A network reattachment, as the context carries it. -/
structure NetworkContext where
  tunnelID : String
  generation : UInt64

def localConnector (connectors : List Connector) (tunnelID hostID : String) : Except Err Connector :=
  match connectors.filter fun c => c.tunnelID = tunnelID ∧ c.hostID = hostID with
  | [c] => .ok c
  | _ => .error ErrKind.connectorUnavailable.err

/-! ### Promotion -/

/-- The durable state with the snapshot as the last one that is known to be good. -/
def promoted (state : State) (expected : Tunnel) (snapshot : ConfigSnapshot) (connector : Connector)
    (now : Time) : Option State :=
  let mine := fun t : Tunnel => t.id = snapshot.tunnelID
  let same := fun c : Connector =>
    c.id = connector.id ∧ c.tunnelID = snapshot.tunnelID ∧ c.hostID = connector.hostID
  if (state.tunnels.all fun t => mine t → t.stableEndpointID = expected.stableEndpointID ∧
        t.desiredState = expected.desiredState ∧ t.desiredGeneration = snapshot.generation ∧
        t.desiredSnapshot.contentHash = snapshot.contentHash) ∧
      (state.tunnels.any fun t => mine t) ∧ state.connectors.any fun c => same c then
    some { state with
      tunnels := state.tunnels.map fun t => if mine t then
        { t with appliedGeneration := snapshot.generation, lastKnownGood := some snapshot, updatedAt := now }
        else t
      connectors := state.connectors.map fun c => if same c then
        { c with lastAppliedGeneration := snapshot.generation } else c }
  else none

inductive CommitOutcome where
  | committed
  | conflicted
  | failed (err : Err)

/-- `Store.Commit`: it fails as the store answers, and for a revision that is not current. -/
def Manager.commit (revision : UInt64) (next : State) (failure : Option Err) : CommitOutcome × Manager :=
  if m.revision ≠ revision then (.conflicted, m)
  else match failure with
    | some e => (if e.is .conflict then .conflicted else .failed e, m)
    | none => (.committed, { m with state := next, revision := m.revision + 1 })

/-- The attempts of `promote` that are left. -/
def promoteFrom (site : Site) (expected : Tunnel) (snapshot : ConfigSnapshot) (connector : Connector) :
    ℕ → M (Option Err)
  | 0 => return some ErrKind.generationConflict.err
  | left + 1 => do
    match ← ctxErr site (.promoting left) with
    | some expiry => return some expiry.err
    | none =>
      match ← readState site left with
      | .error e => return some e
      | .ok (state, revision) =>
        let now ← Prog.call (A := Answer) (.clock site)
        match promoted state expected snapshot connector now with
        | none => return some ErrKind.generationConflict.err
        | some next =>
          let failure ← Prog.call (A := Answer) (.commit site left)
          match ← Prog.update fun m => m.commit revision next failure with
          | .committed => return (← ctxErr site (.committed left)).map Expiry.err
          | .conflicted => promoteFrom site expected snapshot connector left
          | .failed e => return some e

def promote (site : Site) (expected : Tunnel) (snapshot : ConfigSnapshot) (connector : Connector) :
    M (Option Err) :=
  promoteFrom site expected snapshot connector 4

/-! ### Application of a snapshot -/

def callPrepare (request : ApplyRequest) : M (Except Err (Option Candidate)) :=
  Prog.callNoting (A := Answer) (.prepare request) fun answer m => match answer with
    | .ok (some c) => m.note (.prepared c)
    | _ => m

def callActivate (request : ApplyRequest) (c : Candidate) : M (Option Runtime × Option Err) :=
  Prog.callNoting (A := Answer) (.activate request c) fun answer m =>
    answer.1.elim m fun r => m.note (.activated c r)

/-- `swapActiveIfRunning`, with the call of the observer; the error is missing where the
manager does not run. -/
def Manager.swapActiveIfRunning (r : Runtime)
    (network : Option NetworkContext) : Except (Option Err) (Option Runtime) × Manager :=
  if m.running = false then (.error none, m)
  else
    let old := m.activeFor tunnelID
    let swapped := { m with active := m.active.insert tunnelID r }.note (.changed tunnelID old (some r))
    match network with
    | none => (.ok old, swapped)
    | some expected =>
      let state := m.networkState expected.tunnelID
      if expected.tunnelID ≠ tunnelID ∨ m.networkGenerationCurrent expected.tunnelID expected.generation = false ∨
          state.inFlight ≠ expected.generation ∨ expected.generation ≤ state.applied then
        (.error (some ErrKind.generationConflict.err), m)
      else (.ok old, swapped.setNetworkState expected.tunnelID
        { state with applied := expected.generation, inFlight := 0 })

def unlockActivation : M Unit := Prog.modify fun m => { m with activating := false }

/-- The runtime before is retired. -/
def retire (old : Option Runtime) (r : Runtime) : M Unit :=
  match old with
  | none => return ()
  | some previous =>
    if previous = r then return ()
    else do
      drain previous
      let _ ← closeActive previous
      return ()

/-- The end of `apply`: the runtime is published. -/
def publish (t : Tunnel) (connector : Connector) (recovery : Bool) (network : Option NetworkContext)
    (r : Runtime) : M (Option Err) := do
  unlockActivation
  match ← Prog.update fun m => m.swapActiveIfRunning t.id r network with
  | .error swapErr => do
    let _ ← closeActive r
    return some (swapErr.getD ErrKind.notStarted.err)
  | .ok old => do
    retire old r
    let code := if recovery then Code.reattached
      else if network.isSome then Code.networkReattached else Code.ready
    report t connector.id code false none
    return none

/-- The runtime is the one that was asked for, and its session is the current one. -/
def Manager.accepts (request : ApplyRequest) (r : Runtime) : Bool :=
  r.tunnelID = request.tunnel.id ∧ r.connectorID = request.connector.id ∧
    r.generation = request.snapshot.generation ∧ r.contentHash = request.snapshot.contentHash ∧
    m.activeMatchesControlSession request.tunnel.id r

def closeIfAny : Option Runtime → M Unit
  | none => return ()
  | some r => do
    let _ ← closeActive r
    return ()

/-- A candidate whose activation failed, or gave a runtime that is not the one asked for. -/
def refuse (request : ApplyRequest) (c : Candidate) (active : Option Runtime) (failure : Option Err) :
    M (Option Err) := do
  unlockActivation
  closeIfAny active
  abort c
  let e := failure.getD ErrKind.generationConflict.err
  report request.tunnel request.connector.id .applyFailed true (some e)
  return some e

/-- A runtime that is not to be published. -/
def discard (r : Runtime) (e : Err) : M (Option Err) := do
  unlockActivation
  let _ ← closeActive r
  return some e

/-- The middle of `apply`, from the gate that the shutdown waits for. -/
def activate (request : ApplyRequest) (c : Candidate) (promoting : Bool) (network : Option NetworkContext) :
    M (Option Err) := do
  let t := request.tunnel
  let site := Site.application t.id request.recovery (network.map (·.generation))
  let running ← Prog.update fun m => (m.running, { m with activating := true })
  let expiry ← ctxErr site .gate
  if running = false ∨ expiry.isSome then do
    unlockActivation
    abort c
    return some (expiry.elim ErrKind.notStarted.err Expiry.err)
  else do
    let (active, failure) ← callActivate request c
    match active with
    | none => refuse request c none failure
    | some r => do
      let accepted ← Prog.read fun m => m.accepts request r
      if failure.isSome ∨ accepted = false then refuse request c (some r) failure
      else
        match ← ctxErr site .activated with
        | some expiry => discard r expiry.err
        | none => do
          let current ← Prog.read fun m => network.all fun expected =>
            m.networkGenerationCurrent expected.tunnelID expected.generation
          if current = false then discard r ErrKind.generationConflict.err
          else if promoting then
            match ← promote site t request.snapshot request.connector with
            | some e => do
              let _ ← discard r e
              report t request.connector.id .persistenceConflict true (some e)
              return some e
            | none => publish t request.connector request.recovery network r
          else publish t request.connector request.recovery network r

/-- The candidate is there; its origins decide whether it is activated. -/
def probeAndActivate (request : ApplyRequest) (c : Candidate) (promoting : Bool)
    (network : Option NetworkContext) : M (Option Err) := do
  let t := request.tunnel
  let (failure, ready) ← Prog.call (A := Answer) (.probe request c)
  match ← ctxErr (.application t.id request.recovery (network.map (·.generation))) .probed with
  | some expiry => do
    abort c
    return some expiry.err
  | none =>
    let e := ErrKind.originUnavailable.join failure
    if failure.isSome ∨ ready = false then
      if request.recovery then do
        -- a generation that was applied before may come back while its origin is down
        report t request.connector.id .originUnavailable true (some e)
        activate request c promoting network
      else do
        abort c
        report t request.connector.id .originUnavailable true (some e)
        return some e
    else activate request c promoting network

/-- The report of a failed preparation; none is made where the context is over. -/
def reportPrepare (t : Tunnel) (connector : Connector) (e : Err) : M Unit :=
  if e.is .canceled ∨ e.is .deadlineExceeded then return ()
  else if e.is .connectorUnavailable then report t connector.id .connectorUnavailable true (some e)
  else report t connector.id .applyFailed false (some e)

def apply (t : Tunnel) (connector : Connector) (snapshot : ConfigSnapshot)
    (recovery promoting : Bool) (network : Option NetworkContext) : M (Option Err) :=
  match parseTunnelConfigSnapshot config.rules snapshot.payload t.id snapshot.generation with
  | none => do
    report t connector.id .applyFailed false (some ErrKind.invalidState.err)
    return some ErrKind.invalidState.err
  | some decoded => do
    let request : ApplyRequest := ⟨t, connector, snapshot, decoded, recovery⟩
    match ← callPrepare request with
    | .error e => do
      reportPrepare t connector e
      return some e
    | .ok none => do
      report t connector.id .connectorUnavailable true (some ErrKind.connectorUnavailable.err)
      return some ErrKind.connectorUnavailable.err
    | .ok (some c) => probeAndActivate request c promoting network

/-! ### Reconciliation -/

/-- `removeAndDrain` -/
def removeAndDrain (r : Runtime) : M Unit := do
  Prog.modify fun m =>
    if m.activeFor tunnelID = some r then
      { m with active := m.active.erase tunnelID }.note (.changed tunnelID (some r) none)
    else m
  drain r
  let _ ← closeActive r
  return ()

def removeIfAny : Option Runtime → M Unit
  | none => return ()
  | some r => removeAndDrain tunnelID r

/-- `acceptGeneration`: the generations of a tunnel do not go back. -/
def Manager.acceptGeneration : Bool × Manager :=
  if generation < m.seen tunnelID then (false, m)
  else (true, { m with seen := Function.update m.seen tunnelID generation })

def pauseSite (t : Tunnel) : Site := .application t.id false none

def pause (t : Tunnel) (connector : Connector) : M (Option Err) := do
  let current ← Prog.read fun m => m.activeFor t.id
  removeIfAny t.id current
  if t.appliedGeneration ≠ t.desiredGeneration ∨
      t.lastKnownGood.all fun lkg => lkg.contentHash ≠ t.desiredSnapshot.contentHash then
    match ← promote (pauseSite t) t t.desiredSnapshot connector with
    | some e => do
      report t connector.id .persistenceConflict true (some e)
      return some e
    | none => do
      report t connector.id .paused false none
      return none
  else if current.isSome then do
    report t connector.id .paused false none
    return none
  else return none

/-- The runtime is what the desired snapshot asks for. -/
def Tunnel.isCurrent (t : Tunnel) (connector : Connector) (r : Runtime) : Bool :=
  r.connectorID = connector.id ∧ r.generation = t.desiredGeneration ∧
    r.contentHash = t.desiredSnapshot.contentHash

/-- The end of `reconcileTunnel`: the desired snapshot is applied where it is not. -/
def applyDesired (t : Tunnel) (connector : Connector) : M (Option Err) := do
  let (current, matching) ← Prog.read fun m =>
    ((m.activeFor t.id).any (Tunnel.isCurrent t connector),
      (m.activeFor t.id).any (m.activeMatchesControlSession t.id))
  if current then
    if matching then return none
    -- the configuration is unchanged and its session is not: the carrier is replaced alone
    else apply config t connector t.desiredSnapshot false false none
  else apply config t connector t.desiredSnapshot false true none

/-- The last-known-good snapshot comes back after a restart. A paused one does not. -/
def recoverLastKnownGood (t : Tunnel) (connector : Connector) (lkg : ConfigSnapshot) : M (Option Err) :=
  match parseTunnelConfigSnapshot config.rules lkg.payload t.id lkg.generation with
  | none => do
    report t connector.id .applyFailed false (some ErrKind.invalidState.err)
    return some ErrKind.invalidState.err
  | some decoded =>
    match decoded.desiredState with
    | .active => apply config t connector lkg true false none
    | .paused => return none
    | .deleted => return some ErrKind.generationConflict.err

def reconcileTunnel (t : Tunnel) (connector : Connector) : M (Option Err) := do
  let decoded := parseTunnelConfigSnapshot config.rules t.desiredSnapshot.payload t.id t.desiredGeneration
  if decoded.map (·.desiredState) ≠ some t.desiredState then do
    let e := (if decoded.isNone then ErrKind.invalidState else .generationConflict).err
    report t connector.id .applyFailed false (some e)
    return some e
  else
    let accepted ← Prog.update fun m => m.acceptGeneration t.id t.desiredGeneration
    if accepted = false then do
      report t connector.id .applyFailed false (some ErrKind.generationConflict.err)
      return some ErrKind.generationConflict.err
    else if t.desiredState = .paused then pause t connector
    else
      match ← Prog.read fun m => m.activeFor t.id, t.lastKnownGood with
      | some r, _ =>
        if t.desiredGeneration < r.generation then do
          report t connector.id .applyFailed false (some ErrKind.generationConflict.err)
          return some ErrKind.generationConflict.err
        else applyDesired config t connector
      | none, some lkg => do
        match ← recoverLastKnownGood config t connector lkg with
        | some e => return some e
        | none => applyDesired config t connector
      | none, none => applyDesired config t connector

/-- The errors that end a pass; the others were reported for their tunnel. -/
def Err.endsPass (e : Err) : Bool :=
  e.is .canceled || e.is .deadlineExceeded ||
    !(e.is .originUnavailable || e.is .connectorUnavailable || e.is .generationConflict)

def reportRefresh (t : Tunnel) : Option Err → M Unit
  | none => return ()
  | some e => report t "" .controlUnavailable true (some e)

/-- The loop of `ReconcileNow` over the tunnels. -/
def reconcileAll (connectors : List Connector) (refreshErr : Option Err) :
    List Tunnel → M (Option Err)
  | [] => return none
  | t :: rest => do
    reportRefresh t refreshErr
    match localConnector connectors t.id config.hostID with
    | .error e => do
      report t "" .connectorUnavailable true (some e)
      reconcileAll connectors refreshErr rest
    | .ok connector =>
      match ← reconcileTunnel config t connector with
      | none => reconcileAll connectors refreshErr rest
      | some e => if e.endsPass then return some e else reconcileAll connectors refreshErr rest

/-- The loop of `ReconcileNow` over the published runtimes that no tunnel wants. -/
def removeUnwanted (wanted : List String) : List (String × Runtime) → M Unit
  | [] => return ()
  | (tunnelID, r) :: rest =>
    if tunnelID ∈ wanted then removeUnwanted wanted rest
    else do
      removeAndDrain tunnelID r
      log (.reported ⟨tunnelID, r.connectorID, 0, r.generation, .stopped, false, none⟩)
      removeUnwanted wanted rest

/-- The part of `ReconcileNow` after `Refresh`. -/
def reconcileState (refreshErr : Option Err) : M (Option Err) := do
  match ← readState .operation 0 with
  | .error e => return some e
  | .ok (state, _) =>
    let tunnels := state.tunnels.insertionSort fun a b => a.id ≤ b.id
    match ← reconcileAll config state.connectors refreshErr tunnels with
    | some e => return some e
    | none => do
      let published ← Prog.read fun m => m.active.toList
      removeUnwanted (tunnels.map (·.id)) published
      return none

def reconcileNow : M (Option Err) := do
  let before ← Prog.call (A := Answer) .startedBefore
  match before, ← ctxErr .operation .entry with
  | false, _ => return some ErrKind.notStarted.err
  | true, some expiry => return some expiry.err
  | true, none =>
    let running ← Prog.read fun m => m.running
    if running = false then return some ErrKind.notStarted.err
    else if config.refresh then do
      let refreshErr ← Prog.call (A := Answer) .refresh
      match ← ctxErr .operation .refreshed with
      | some expiry => return some expiry.err
      | none => reconcileState config refreshErr
    else reconcileState config none

/-! ### Network generations -/

/-- `ObserveNetworkGeneration` -/
def Manager.observeNetworkGeneration : Bool × Manager :=
  if generation = 0 ∨ m.closed ∨ generation ≤ m.networkGeneration then (false, m)
  else (true, { m with
    networkGeneration := generation
    networkStates := fun tunnelID => (m.networkStates tunnelID).map fun s =>
      if s.observed < generation then { s with observed := generation } else s })

/-- `ObserveTunnelNetworkGeneration` -/
def Manager.observeTunnelNetworkGeneration : Bool × Manager :=
  if tunnelID = "" ∨ generation = 0 ∨ m.closed ∨ generation < m.networkGeneration ∨
      generation ≤ (m.networkState tunnelID).observed then (false, m)
  else (true, { m with networkGeneration := generation }.setNetworkState tunnelID
    { m.networkState tunnelID with observed := generation })

/-- `observeNetworkGenerationForTunnel` -/
def Manager.observeNetworkGenerationForTunnel : Bool × Manager :=
  let state := m.networkState tunnelID
  if tunnelID = "" ∨ generation = 0 ∨ m.closed ∨ generation < m.networkGeneration ∨
      generation < state.observed then (false, m)
  else
    let observed := if state.observed < generation then
      m.setNetworkState tunnelID { state with observed := generation } else m
    (true, { observed with
      networkGeneration := if m.networkGeneration < generation then generation else m.networkGeneration })

def Manager.clearNetworkInFlight : Manager :=
  match m.networkStates tunnelID with
  | none => m
  | some s => if s.inFlight = generation then m.setNetworkState tunnelID { s with inFlight := 0 } else m

/-- How `ReplaceNetworkCarrier` goes on after its first section. -/
inductive Admission where
  | refused (err : Err)
  | replayed (r : Runtime)
  | admitted

/-- A replacement is an observation of its generation where none was made. -/
def Manager.observed : Manager :=
  if (m.networkState tunnelID).observed < generation then
    { m with networkGeneration :=
        if m.networkGeneration < generation then generation else m.networkGeneration }.setNetworkState
      tunnelID { m.networkState tunnelID with observed := generation }
  else m

/-- The first section of `ReplaceNetworkCarrier`. -/
def Manager.admitReplacement : Admission × Manager :=
  let state := m.networkState tunnelID
  if m.closed ∨ generation < m.networkGeneration ∨ generation < state.observed then
    (.refused ErrKind.generationConflict.err, m)
  else
    let observed := m.observed tunnelID generation
    if generation ≤ state.applied then
      match m.activeFor tunnelID with
      | none => (.refused ErrKind.generationConflict.err, observed)
      | some r => if r.connectorID = connectorID then (.replayed r, observed)
          else (.refused ErrKind.generationConflict.err, observed)
    else if state.inFlight ≠ 0 ∧ state.inFlight ≠ generation then
      (.refused ErrKind.generationConflict.err, observed)
    else (.admitted, observed.setNetworkState tunnelID
      { observed.networkState tunnelID with inFlight := generation })

/-- `ReplaceNetworkCarrier` from the read of the durable state to its return. -/
def replaceAdmitted : M (Except Err Runtime) := do
  match ← readState (.application tunnelID false (some generation)) 0 with
  | .error e => return .error e
  | .ok (state, _) =>
    match state.tunnels.find? fun t => t.id = tunnelID, localConnector state.connectors tunnelID config.hostID with
    | none, _ => return .error ErrKind.generationConflict.err
    | some t, connector =>
      if t.desiredState ≠ .active then return .error ErrKind.generationConflict.err
      else match connector with
        | .error e => return .error e
        | .ok connector =>
          if connector.id ≠ connectorID then return .error ErrKind.generationConflict.err
          else
            let attached ← Prog.read fun m => (m.activeFor tunnelID).any (·.connectorID = connectorID)
            if attached = false then return .error ErrKind.connectorUnavailable.err
            else
              match ← apply config t connector t.desiredSnapshot false false (some ⟨tunnelID, generation⟩) with
              | some e => return .error e
              | none =>
                match ← Prog.read fun m => m.activeFor tunnelID with
                | none => return .error ErrKind.connectorUnavailable.err
                | some r =>
                  if r.connectorID = connectorID then return .ok r
                  else return .error ErrKind.connectorUnavailable.err

def replaceNetworkCarrier : M (Except Err Runtime) := do
  let site := Site.application tunnelID false (some generation)
  let expiry ← ctxErr site .entry
  let before ← Prog.call (A := Answer) .startedBefore
  if tunnelID = "" ∨ connectorID = "" ∨ generation = 0 then return .error ErrKind.invalidConfig.err
  else match expiry, before with
    | some expiry, _ => return .error expiry.err
    | none, false => return .error ErrKind.notStarted.err
    | none, true =>
      match ← Prog.update fun m => m.admitReplacement tunnelID connectorID generation with
      | .refused e => return .error e
      | .replayed r => do
        log (.replaced tunnelID generation r)
        return .ok r
      | .admitted =>
        match ← replaceAdmitted config tunnelID connectorID generation with
        | .ok r => do
          log (.replaced tunnelID generation r)
          return .ok r
        | .error e => do
          Prog.modify fun m => m.clearNetworkInFlight tunnelID generation
          return .error e

/-! ### Sessions, closing -/

/-- `RecordControlSessionBinding` -/
def Manager.recordControlSessionBinding (b : ControlSessionBinding) : Manager :=
  if b.accountID = "" ∨ tunnelID = "" ∨ b.connectorID = "" ∨ b.sessionID = "" ∨ b.processGeneration = 0 ∨
      b.generation = 0 ∨ b.contentHash = "" ∨ m.closed then m
  else
    let recorded := { m with sessionBindings := Function.update m.sessionBindings tunnelID (some b) }
    match m.sessionBindings tunnelID with
    | none => recorded
    | some previous =>
      if b.processGeneration < previous.processGeneration ∨ b.processGeneration = previous.processGeneration ∧
          (b.accountID ≠ previous.accountID ∨ b.connectorID ≠ previous.connectorID ∨
            b.sessionID ≠ previous.sessionID) then m
      else if b.processGeneration = previous.processGeneration ∧ b.sessionID = previous.sessionID ∧
          b.generation < previous.generation then m
      else recorded

/-- The loop of `closeAll`; a runtime whose closing fails stays published. -/
def closeEach : List (String × Runtime) → M Bool
  | [] => return true
  | (tunnelID, r) :: rest => do
    drain r
    match ← closeActive r with
    | some _ => do
      let _ ← closeEach rest
      return false
    | none => do
      Prog.modify fun m =>
        if m.activeFor tunnelID = some r then
          { m with active := m.active.erase tunnelID }.note (.changed tunnelID (some r) none)
        else m
      closeEach rest

/-- `closeAll`: whether every runtime could be closed. -/
def closeAll : M Bool := do
  let published ← Prog.read fun m => m.active.toList
  closeEach published

end Paperboat.TunnelManager
