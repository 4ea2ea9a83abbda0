import Paperboat.Lib.Transition
import Paperboat.NetworkRecovery.Controller

/-! The controller with its callers. `Tick`, `Flush` and the loop each take an observation
that waits or is to be retried and call `replace`, which lets one call in at a time; any
number of them run side by side with observers. Every section that holds the controller's
lock is one step, so a run is any order of these sections. Beside the controller's state a
system keeps, for the statements, when each observation was accepted and taken and how its
call of `replace` ended. -/

namespace Paperboat.NetworkRecovery

/-- An observation in the hands of a caller, with the steps at which the newest report in
it was accepted and at which it was taken. -/
structure Work where
  observation : Observation
  accepted : ℕ
  taken : ℕ

/-- The call of `replace` that holds the work lock, since the step `started`. -/
structure Replacing where
  work : Work
  attempt : UInt32
  previous : UInt64
  started : ℕ
  called : Bool := false

inductive Outcome where
  | succeeded
  | transient
  | permanent
  | canceled
  | unavailable
  | skipped
  deriving DecidableEq, Repr

/-- A call of `replace` that returned. -/
structure Finished where
  work : Work
  started : ℕ
  outcome : Outcome

/-- What `fail` makes of an error. -/
def Err.outcome (e : Err) : Outcome :=
  if (classify e).failureClass = .canceled ∧ e.is .canceled then .canceled
  else if (classify e).permanent then .permanent
  else .transient

structure System where
  controller : Controller
  waiting : List Work := []
  current : Option Replacing := none
  clock : ℕ := 0
  pendingAccepted : ℕ := 0
  retryAccepted : ℕ := 0
  takes : List Work := []
  finished : List Finished := []

inductive Action where
  | observe (o : Observation) (arrived now : Time)
  | takePending (force : Bool) (now : Time)
  | takeRetry (now : Time)
  | resetAfterStable (now checked : Time)
  /-- A caller of `replace` enters. -/
  | enter (i : ℕ) (now : Time)
  /-- The request is checked and handed to the replacer. -/
  | request (checked now : Time) (jitter : Duration → Duration)
  /-- The replacer answers. -/
  | answer (result : Except Err ReplacementResult) (ready checked now : Time)
      (jitter : Duration → Duration)
  | stop (now : Time)

namespace System

variable (s : System)

/-- The call that holds the work lock returns. -/
def finish (r : Replacing) (outcome : Outcome) (c : Controller) : System :=
  { s with
    controller := c
    current := none
    retryAccepted := if outcome = .transient then r.work.accepted else s.retryAccepted
    finished := ⟨r.work, r.started, outcome⟩ :: s.finished }

def observe (o : Observation) (arrived now : Time) : System :=
  match s.controller.observe o arrived now with
  | .error _ => s
  | .ok c =>
    if o.generation < s.controller.latestGeneration then s
    else { s with controller := c, pendingAccepted := s.clock }

/-- An observation was taken. -/
def take (o : Observation) (accepted : ℕ) (c : Controller) : System :=
  { s with
    controller := c
    waiting := s.waiting ++ [⟨o, accepted, s.clock⟩]
    takes := ⟨o, accepted, s.clock⟩ :: s.takes }

def enter (i : ℕ) (now : Time) : Option System :=
  match s.current, s.waiting[i]? with
  | none, some w =>
    match s.controller.replaceBegin w.observation now with
    | (.error _, c) =>
      some { s with
        controller := c
        waiting := s.waiting.eraseIdx i
        finished := ⟨w, s.clock, .skipped⟩ :: s.finished }
    | (.ok (attempt, previous), c) =>
      some { s with
        controller := c
        waiting := s.waiting.eraseIdx i
        current := some ⟨w, attempt, previous, s.clock, false⟩ }
  | _, _ => none

/-- The call gives up an attempt with an error. -/
def fails (r : Replacing) (e : Err) (checked now : Time)
    (jitter : Duration → Duration) : System :=
  s.finish r e.outcome (s.controller.fail r.work.observation e checked now jitter).2

def request (checked now : Time) (jitter : Duration → Duration) : Option System :=
  match s.current with
  | none => none
  | some r =>
    let o := r.work.observation
    let request : ReplacementRequest :=
      ⟨s.controller.config.identity, o.generation, r.previous, o.reasons, r.attempt⟩
    if r.called then none
    else if request.validate = false then
      some (s.fails r Sentinel.invalidConfiguration.err checked now jitter)
    else if o.reasons &&& reasonPathViability ≠ 0 ∧ o.viable = false then
      some (s.finish r .unavailable (s.controller.markUnavailable o now))
    else if o.generation < s.controller.latestGeneration ∨ s.controller.stopped then
      some (s.finish r .skipped s.controller)
    else some { s with current := some { r with called := true } }

def answer (result : Except Err ReplacementResult) (ready checked now : Time)
    (jitter : Duration → Duration) : Option System :=
  match s.current with
  | none => none
  | some r =>
    if r.called = false then none
    else
      match s.controller.checkResult r.work.observation result with
      | .error e => some (s.fails r e checked now jitter)
      | .ok result =>
        some (s.finish r .succeeded
          (s.controller.replaceDone r.work.observation result ready checked).2)

/-- One section, without the count of the steps. -/
def act : Action → Option System
  | .observe o arrived now => some (s.observe o arrived now)
  | .takePending force now =>
    (s.controller.takePending force now).map fun p => s.take p.1 s.pendingAccepted p.2
  | .takeRetry now => (s.controller.takeRetry now).map fun p => s.take p.1 s.retryAccepted p.2
  | .resetAfterStable now checked =>
    some { s with controller := s.controller.resetAfterStable now checked }
  | .enter i now => s.enter i now
  | .request checked now jitter => s.request checked now jitter
  | .answer result ready checked now jitter => s.answer result ready checked now jitter
  | .stop now => some { s with controller := s.controller.stop now }

def step (a : Action) : Option System :=
  (s.act a).map fun t => { t with clock := s.clock + 1 }

/-- A controller that `New` returned, without callers. -/
def Initial : Prop :=
  ∃ config now c, Controller.new config now = .ok c ∧ s = { controller := c }

/-! ### What the statements speak about -/

/-- The observations that callers of `replace` hold. -/
def flying : List Work := s.waiting ++ (s.current.map (·.work)).toList

/-- Those of the latest generation. -/
def live : List Work :=
  s.flying.filter fun w => w.observation.generation = s.controller.latestGeneration

/-- The observation of the latest generation that was taken last. -/
def lastTaken : Option Work :=
  s.takes.find? fun w => w.observation.generation = s.controller.latestGeneration

/-- It ended in a replacement, in a permanent failure or as network unavailable. -/
def Answered : Prop :=
  ∃ w, s.lastTaken = some w ∧ ∃ f ∈ s.finished, f.work = w ∧
    f.outcome ∈ [Outcome.succeeded, .permanent, .unavailable]

/-- A retry that `takeRetry` will take once it is due. -/
def RetryScheduled : Prop :=
  ∃ o, s.controller.retryObservation = some o ∧ s.controller.retryAt ≠ 0 ∧
    o.generation = s.controller.latestGeneration

/-- The call was an attempt at a replacement. -/
def Finished.attempted (f : Finished) : Bool :=
  f.outcome ∈ [Outcome.succeeded, .transient, .permanent, .canceled]

/-- The last attempt at a replacement for the latest generation that ended. -/
def lastFinished : Option Finished :=
  s.finished.find? fun f =>
    f.work.observation.generation = s.controller.latestGeneration ∧ Finished.attempted f

end System

end Paperboat.NetworkRecovery
