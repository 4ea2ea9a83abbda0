import Mathlib.Tactic

/-! The controller that replaces a host's carrier after a network change. Observers report
changes, one replacement at a time is made for the newest network generation, and a failed
one is repeated after a delay. Times are nanosecond counts from the zero time `0`; every
reading of the clock and every jitter is an argument. Timers, wake-up signals and the
context that a newer generation cancels have no part in the model: a replacer may answer
anything at any time. -/

namespace Paperboat.NetworkRecovery

abbrev Time := Int

abbrev Duration := Int

def millisecond : Duration := 1000000

def second : Duration := 1000 * millisecond

/-! ### Observations and requests -/

/-- A set of network inputs that can invalidate a carrier, one bit each. -/
abbrev Reason := UInt16

def reasonDefaultRoute : Reason := 1
def reasonInterfaceAddress : Reason := 2
def reasonDNS : Reason := 4
def reasonProxy : Reason := 8
def reasonPathViability : Reason := 16
def reasonSleepWake : Reason := 32

def allReasons : Reason :=
  reasonDefaultRoute ||| reasonInterfaceAddress ||| reasonDNS ||| reasonProxy |||
    reasonPathViability ||| reasonSleepWake

structure Observation where
  generation : UInt64
  reasons : Reason
  viable : Bool
  time : Time := 0

def Observation.validate (o : Observation) : Bool :=
  o.generation ≠ 0 ∧ o.reasons ≠ 0 ∧ o.reasons &&& ~~~allReasons = 0

structure Identity where
  environmentID : String
  machineID : String
  tunnelID : String
  connectorID : String
  deriving DecidableEq, Repr

def Identity.validate (i : Identity) : Bool :=
  i.environmentID ≠ "" ∧ i.machineID ≠ "" ∧ i.tunnelID ≠ "" ∧ i.connectorID ≠ ""

structure ReplacementRequest where
  identity : Identity
  networkGeneration : UInt64
  previousNetworkGeneration : UInt64
  reasons : Reason
  attempt : UInt32

def ReplacementRequest.validate (r : ReplacementRequest) : Bool :=
  r.identity.validate ∧ r.networkGeneration ≠ 0 ∧ r.reasons ≠ 0 ∧
    r.reasons &&& ~~~allReasons = 0 ∧ r.attempt ≠ 0

structure ReplacementResult where
  identity : Identity
  networkGeneration : UInt64
  carrierGeneration : UInt64
  ready : Bool

/-! ### Failures -/

inductive FailureClass where
  | authentication
  | configuration
  | dns
  | origin
  | edge
  | localSystem
  | timeout
  | canceled
  | unknown
  | other (name : String)
  deriving DecidableEq, Repr

/-- The errors that `errors.Is` is asked about. -/
inductive Sentinel where
  | canceled
  | deadlineExceeded
  | timeout
  | authentication
  | configuration
  | identityChanged
  | replacementNotReady
  | dns
  | origin
  | edge
  | localSystem
  | invalidConfiguration
  | invalidObservation
  | stopped
  | noPendingChange
  deriving DecidableEq, Repr

/-- An error, by what `errors.As` finds in it as a failure marker and by the sentinels it
wraps. -/
structure Err where
  marker : Option (FailureClass × Bool) := none
  wraps : List Sentinel := []

def Err.is (e : Err) (s : Sentinel) : Bool := s ∈ e.wraps

/-- An error that is one of the sentinels. -/
def Sentinel.err (s : Sentinel) : Err := { wraps := [s] }

structure Failure where
  failureClass : FailureClass
  permanent : Bool := false

def classify (e : Err) : Failure :=
  match e.marker with
  | some (failureClass, permanent) => { failureClass, permanent }
  | none =>
    if e.is .canceled then { failureClass := .canceled, permanent := true }
    else if e.is .deadlineExceeded ∨ e.is .timeout then { failureClass := .timeout }
    else if e.is .authentication then { failureClass := .authentication, permanent := true }
    else if e.is .configuration then { failureClass := .configuration, permanent := true }
    else if e.is .identityChanged then { failureClass := .configuration, permanent := true }
    else if e.is .replacementNotReady then { failureClass := .localSystem }
    else if e.is .dns then { failureClass := .dns }
    else if e.is .origin then { failureClass := .origin }
    else if e.is .edge then { failureClass := .edge }
    else if e.is .localSystem then { failureClass := .localSystem }
    else { failureClass := .unknown }

def failureCode : FailureClass → String
  | .authentication => "carrier_authentication_failed"
  | .configuration => "carrier_configuration_failed"
  | .dns => "carrier_dns_failed"
  | .origin => "carrier_origin_failed"
  | .edge => "carrier_edge_failed"
  | .timeout => "carrier_timeout"
  | .localSystem => "carrier_local_system_failed"
  | .canceled => "carrier_canceled"
  | .unknown => "carrier_failed"
  | .other _ => "carrier_failed"

def ReplacementResult.validate (r : ReplacementResult) : Except Err Unit :=
  if r.identity.validate = false ∨ r.networkGeneration = 0 ∨ r.carrierGeneration = 0 then
    .error Sentinel.invalidConfiguration.err
  else if r.ready = false then .error Sentinel.replacementNotReady.err
  else .ok ()

/-! ### The controller -/

inductive HealthState where
  | unknown
  | ready
  | degraded
  | down
  | stopped
  deriving DecidableEq, Repr

structure HealthSnapshot where
  state : HealthState
  code : String
  failure : Option FailureClass := none
  reason : Reason := 0
  networkGeneration : UInt64 := 0
  activeNetworkGeneration : UInt64 := 0
  attempt : UInt32 := 0
  nextRetryAt : Time := 0
  stableSince : Time := 0
  checkedAt : Time

structure Config where
  identity : Identity
  debounce : Duration := 0
  initialBackoff : Duration := 0
  maxBackoff : Duration := 0
  stableReadyWindow : Duration := 0

def Config.withDefaults (c : Config) : Config :=
  { c with
    debounce := if c.debounce = 0 then 250 * millisecond else c.debounce
    initialBackoff := if c.initialBackoff = 0 then second else c.initialBackoff
    maxBackoff := if c.maxBackoff = 0 then 60 * second else c.maxBackoff
    stableReadyWindow := if c.stableReadyWindow = 0 then 5 * second else c.stableReadyWindow }

structure Controller where
  config : Config
  pending : Option Observation := none
  pendingAt : Time := 0
  latestGeneration : UInt64 := 0
  activeGeneration : UInt64 := 0
  retryObservation : Option Observation := none
  retryAt : Time := 0
  attempt : UInt32 := 0
  stableSince : Time := 0
  health : HealthSnapshot
  stopped : Bool := false

namespace Controller

def new (config : Config) (now : Time) : Except Err Controller :=
  if config.identity.validate = false then .error Sentinel.invalidConfiguration.err
  else
    let config := config.withDefaults
    if config.debounce < 0 ∨ config.initialBackoff ≤ 0 ∨ config.maxBackoff < config.initialBackoff ∨
        config.stableReadyWindow ≤ 0 then .error Sentinel.invalidConfiguration.err
    else .ok { config, health := { state := .unknown, code := "network_waiting", checkedAt := now } }

variable (c : Controller) (o : Observation) (now : Time)

/-- What `Observe` makes of the observation that waits already. -/
def merged : Observation :=
  match c.pending with
  | none => o
  | some p =>
    if c.latestGeneration < o.generation ∨ p.generation ≠ o.generation then o
    else { p with reasons := p.reasons ||| o.reasons, viable := o.viable, time := o.time }

/-- A new generation is a new decision: what was tried before is forgotten. -/
def freshGeneration : Controller :=
  if c.latestGeneration < o.generation then
    { c with retryObservation := none, retryAt := 0, attempt := 0, stableSince := 0 }
  else c

/-- `Observe`; `arrived` stands in for a time that the observation lacks. -/
def observe (arrived now : Time) : Except Err Controller :=
  if o.validate = false then .error Sentinel.invalidObservation.err
  else if c.stopped then .error Sentinel.stopped.err
  else if o.generation < c.latestGeneration then .ok c
  else
    let o := if o.time = 0 then { o with time := arrived } else o
    .ok { c.freshGeneration o with
      latestGeneration := o.generation
      pending := some (c.merged o)
      pendingAt := o.time
      health := { c.health with
        state := .degraded
        code := "network_change_pending"
        failure := none
        reason := (c.merged o).reasons
        networkGeneration := o.generation
        nextRetryAt := 0
        stableSince := 0
        checkedAt := now } }

def takePending (force : Bool) (now : Time) : Option (Observation × Controller) :=
  match c.pending with
  | none => none
  | some o =>
    if force = false ∧ now < c.pendingAt + c.config.debounce then none
    else some (o, { c with pending := none, pendingAt := 0 })

def takeRetry : Option (Observation × Controller) :=
  match c.retryObservation with
  | none => none
  | some o =>
    if c.retryAt = 0 ∨ now < c.retryAt ∨ o.generation ≠ c.latestGeneration then none
    else some (o, { c with retryObservation := none, retryAt := 0 })

/-- The loop that doubles the delay for each attempt after the first. -/
def backoffLoop (maxBackoff : Duration) : ℕ → Duration → Duration
  | 0, delay => delay
  | n + 1, delay =>
    if delay < maxBackoff then
      if maxBackoff / 2 < delay then maxBackoff else backoffLoop maxBackoff n (delay * 2)
    else delay

def backoff (attempt : UInt32) (jitter : Duration → Duration) : Duration :=
  let capDelay := backoffLoop c.config.maxBackoff (attempt.toNat - 1) c.config.initialBackoff
  let capDelay := if c.config.maxBackoff < capDelay then c.config.maxBackoff else capDelay
  let delay := jitter capDelay
  if delay < 0 then 0 else if capDelay < delay then capDelay else delay

def fail (e : Err) (checked now : Time)
    (jitter : Duration → Duration) : Err × Controller :=
  let failure := classify e
  if failure.failureClass = .canceled ∧ e.is .canceled then (e, c)
  else if c.stopped then (Sentinel.stopped.err, c)
  else if o.generation < c.latestGeneration then (e, c)
  else
    let attempt := c.attempt + 1
    let health := { c.health with
      failure := some failure.failureClass
      reason := o.reasons
      networkGeneration := c.latestGeneration
      activeNetworkGeneration := c.activeGeneration
      attempt
      stableSince := 0
      checkedAt := checked }
    if failure.permanent then
      (e, { c with
        attempt
        retryObservation := none
        retryAt := 0
        health := { health with
          state := .down, code := failureCode failure.failureClass, nextRetryAt := 0 } })
    else
      let retryAt := now + c.backoff attempt jitter
      (e, { c with
        attempt
        retryObservation := some o
        retryAt
        health := { health with
          state := .degraded, code := "carrier_retry_scheduled", nextRetryAt := retryAt } })

def markUnavailable : Controller :=
  if c.stopped ∨ o.generation < c.latestGeneration then c
  else
    { c with
      retryObservation := none
      retryAt := 0
      stableSince := 0
      health := { c.health with
        state := .down
        code := "network_unavailable"
        failure := none
        reason := o.reasons
        networkGeneration := o.generation
        activeNetworkGeneration := c.activeGeneration
        nextRetryAt := 0
        stableSince := 0
        checkedAt := now } }

def resetAfterStable (now checked : Time) : Controller :=
  if c.stableSince = 0 ∨ now < c.stableSince + c.config.stableReadyWindow ∨
      c.activeGeneration = 0 ∨ c.activeGeneration ≠ c.latestGeneration then c
  else
    { c with
      attempt := 0
      retryObservation := none
      retryAt := 0
      stableSince := 0
      health := { c.health with
        state := .ready
        code := "carrier_stable"
        failure := none
        attempt := 0
        nextRetryAt := 0
        stableSince := 0
        checkedAt := checked } }

def stop : Controller :=
  if c.stopped then c
  else
    { c with
      stopped := true
      health := { c.health with
        state := .stopped, code := "stopped", nextRetryAt := 0, checkedAt := now } }

/-! #### The sections of `replace` -/

/-- The first section of `replace`: the number of the attempt and the generation that is
active, or the answer of a call that ends here. -/
def replaceBegin : Except (Option Err) (UInt32 × UInt64) × Controller :=
  if o.validate = false then (.error (some Sentinel.invalidObservation.err), c)
  else if c.stopped then (.error (some Sentinel.stopped.err), c)
  else if o.generation < c.latestGeneration then (.error none, c)
  else
    (.ok (c.attempt + 1, c.activeGeneration),
      { c with
        health := { c.health with
          state := .degraded
          code := "carrier_replacing"
          failure := none
          attempt := c.attempt + 1
          reason := o.reasons
          networkGeneration := o.generation
          nextRetryAt := 0
          stableSince := 0
          checkedAt := now } })

/-- The checks of an answer of the replacer. -/
def checkResult :
    Except Err ReplacementResult → Except Err ReplacementResult
  | .error e => .error e
  | .ok result =>
    match result.validate with
    | .error e => .error e
    | .ok () =>
      if result.identity ≠ c.config.identity then .error Sentinel.identityChanged.err
      else if result.networkGeneration ≠ o.generation then .error Sentinel.invalidObservation.err
      else .ok result

/-- The last section of `replace`. -/
def replaceDone (result : ReplacementResult) (ready now : Time) : Option Err × Controller :=
  if c.stopped then (some Sentinel.stopped.err, c)
  else if o.generation < c.latestGeneration then (none, c)
  else
    (none,
      { c with
        activeGeneration := result.networkGeneration
        retryObservation := none
        retryAt := 0
        stableSince := ready
        health := { c.health with
          state := .ready
          code := "carrier_ready"
          failure := none
          networkGeneration := c.latestGeneration
          activeNetworkGeneration := result.networkGeneration
          stableSince := ready
          nextRetryAt := 0
          checkedAt := now } })

end Controller

end Paperboat.NetworkRecovery
