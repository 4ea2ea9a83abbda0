import Mathlib

/-! The fence of the host daemon. A controller admits one active worker and one candidate;
the active epoch is recorded in a file before an activation is answered, leases never are.
The formats of identifiers, versions and leases are parameters. -/

namespace Paperboat.HostdProtocol

inductive Error where
  | invalidFrame
  | incompatible
  | fenced
  | notReady
  | epochExhausted
  | leaseGeneration
  | invalidConfig
  | random
  | persist

/-- The checks on single strings of a message. -/
structure Format where
  validWorkerID : String → Bool
  validVersion : String → Bool
  validLease : String → Bool

def maxAPIVersion : UInt16 := 1024

def validRange (minimum maximum : UInt16) : Bool :=
  0 < minimum && minimum ≤ maximum && maximum ≤ maxAPIVersion

def validAPIVersion (value : UInt16) : Bool :=
  0 < value && value ≤ maxAPIVersion

structure Hello where
  workerID : String
  version : String
  apiMin : UInt16
  apiMax : UInt16

variable (format : Format)

def Hello.valid (m : Hello) : Bool :=
  format.validWorkerID m.workerID && format.validVersion m.version && validRange m.apiMin m.apiMax

/-- The body of a welcome, a ready, an activate and a heartbeat message. -/
structure LeaseMessage where
  workerID : String
  apiVersion : UInt16
  epoch : UInt64
  lease : String

/-- `validateLeaseMessage` -/
def LeaseMessage.valid (m : LeaseMessage) : Bool :=
  format.validWorkerID m.workerID && validAPIVersion m.apiVersion && m.epoch != 0 &&
    format.validLease m.lease

inductive State where
  | candidate
  | active
  | empty
  deriving DecidableEq, Repr

structure Status where
  state : State
  workerID : String := ""
  apiVersion : UInt16 := 0
  epoch : UInt64 := 0
  lastHeartbeatUnixMilli : Int := 0

def Status.valid (m : Status) : Bool :=
  match m.state with
  | .empty => m.workerID == "" && m.apiVersion == 0 && m.epoch == 0 && m.lastHeartbeatUnixMilli == 0
  | .candidate | .active =>
    format.validWorkerID m.workerID && validAPIVersion m.apiVersion && m.epoch != 0 &&
      0 ≤ m.lastHeartbeatUnixMilli

structure Worker where
  workerID : String := ""
  apiVersion : UInt16 := 0
  epoch : UInt64 := 0
  lease : String := ""
  ready : Bool := false
  lastHeartbeat : Option Int := none

/-- `matches` -/
def Worker.isFrom (value : Worker) (m : LeaseMessage) : Bool :=
  value.epoch != 0 && value.workerID == m.workerID && value.apiVersion == m.apiVersion &&
    value.epoch == m.epoch && value.lease == m.lease

def statusFor (value : Worker) (state : State) : Status where
  state
  workerID := value.workerID
  apiVersion := value.apiVersion
  epoch := value.epoch
  lastHeartbeatUnixMilli := if state = .active then value.lastHeartbeat.getD 0 else 0

def selectVersion (hostMin hostMax workerMin workerMax : UInt16) : Option UInt16 :=
  let minimum := if hostMin < workerMin then workerMin else hostMin
  let maximum := if workerMax < hostMax then workerMax else hostMax
  if maximum < minimum then none else some maximum

/-! ### The recorded fence -/

/-- The content of the fence file. -/
structure FenceState where
  workerID : String := ""
  apiVersion : UInt16 := 0
  epoch : UInt64 := 0

/-- `LoadFenceState`; a file that does not exist is `none`. -/
def loadFenceState : Option FenceState → Except Error FenceState
  | none => .ok {}
  | some state =>
    if state.epoch = 0 then
      if state.workerID ≠ "" ∨ state.apiVersion ≠ 0 then .error .invalidFrame else .ok state
    else if !format.validWorkerID state.workerID || !validAPIVersion state.apiVersion then
      .error .invalidFrame
    else .ok state

/-- What a write of the fence file does: it takes effect, it fails, or it takes effect and
is reported as failed. -/
inductive Write where
  | done
  | failed
  | uncertain

/-- The function `NewFenceStatePersister` returns. -/
def persist (status : Status) (write : Write) (file : Option FenceState) :
    Except Error Unit × Option FenceState :=
  if status.state ≠ .active ∨ !status.valid format then (.error .invalidFrame, file)
  else
    let next : FenceState := ⟨status.workerID, status.apiVersion, status.epoch⟩
    match write with
    | .done => (.ok (), some next)
    | .failed => (.error .persist, file)
    | .uncertain => (.error .persist, some next)

/-! ### The controller -/

structure Controller where
  apiMin : UInt16
  apiMax : UInt16
  active : Worker := {}
  candidate : Worker := {}
  lastEpoch : UInt64

def newController (apiMin apiMax : UInt16) (initialEpoch : UInt64) : Except Error Controller :=
  if validRange apiMin apiMax then .ok { apiMin, apiMax, lastEpoch := initialEpoch }
  else .error .invalidConfig

namespace Controller

variable (format : Format) (c : Controller)

/-- `newUniqueLeaseLocked` with the results of the successive reads of the random source. -/
def newUniqueLease : ℕ → List (Option String) → Except Error String
  | 0, _ => .error .leaseGeneration
  | _ + 1, [] | _ + 1, none :: _ => .error .random
  | tries + 1, some lease :: rest =>
    if lease ≠ c.active.lease ∧ lease ≠ c.candidate.lease then .ok lease
    else newUniqueLease tries rest

def negotiate (hello : Hello) (draws : List (Option String)) : Except Error LeaseMessage × Controller :=
  if !hello.valid format then (.error .invalidFrame, c)
  else match selectVersion c.apiMin c.apiMax hello.apiMin hello.apiMax with
    | none => (.error .incompatible, c)
    | some apiVersion =>
      let c := if c.lastEpoch < c.active.epoch then { c with lastEpoch := c.active.epoch } else c
      if c.lastEpoch.toNat = 2 ^ 64 - 1 then (.error .epochExhausted, c)
      else match c.newUniqueLease 4 draws with
        | .error e => (.error e, c)
        | .ok lease =>
          let epoch := c.lastEpoch + 1
          (.ok ⟨hello.workerID, apiVersion, epoch, lease⟩, { c with
            lastEpoch := epoch
            candidate := { workerID := hello.workerID, apiVersion, epoch, lease } })

def markReady (m : LeaseMessage) : Except Error Unit × Controller :=
  if !m.valid format then (.error .invalidFrame, c)
  else if !c.candidate.isFrom m then (.error .fenced, c)
  else (.ok (), { c with candidate := { c.candidate with ready := true } })

def activate (m : LeaseMessage) (write : Write) (file : Option FenceState) :
    Except Error Status × Controller × Option FenceState :=
  if !m.valid format then (.error .invalidFrame, c, file)
  else if !c.candidate.isFrom m then (.error .fenced, c, file)
  else if !c.candidate.ready then (.error .notReady, c, file)
  else
    let status := statusFor c.candidate .active
    match persist format status write file with
    | (.error e, file) => (.error e, c, file)
    | (.ok _, file) => (.ok status, { c with active := c.candidate, candidate := {} }, file)

def acceptHeartbeat (m : LeaseMessage) (now : Int) : Except Error Unit × Controller :=
  if !m.valid format then (.error .invalidFrame, c)
  else if !c.active.isFrom m then (.error .fenced, c)
  else (.ok (), { c with active := { c.active with lastHeartbeat := some now } })

def status : Status :=
  if c.active.epoch ≠ 0 then statusFor c.active .active
  else if c.candidate.epoch ≠ 0 then statusFor c.candidate .candidate
  else { state := .empty }

def candidateStatus : Status :=
  if c.candidate.epoch ≠ 0 then statusFor c.candidate .candidate else { state := .empty }

end Controller

/-- A message with what the environment decides while it is handled. -/
inductive Message where
  | hello (m : Hello) (draws : List (Option String))
  | ready (m : LeaseMessage)
  | activate (m : LeaseMessage) (write : Write)
  | heartbeat (m : LeaseMessage) (now : Int)
  | status (m : Status)

inductive Reply where
  | welcome (m : LeaseMessage)
  | status (m : Status)

/-- `Handle` -/
def Controller.handle (c : Controller) (file : Option FenceState) :
    Message → Except Error Reply × Controller × Option FenceState
  | .hello m draws =>
    let (r, c) := c.negotiate format m draws
    (r.map .welcome, c, file)
  | .ready m =>
    let (r, c) := c.markReady format m
    (r.map fun _ => .status c.candidateStatus, c, file)
  | .activate m write =>
    let (r, c, file) := c.activate format m write file
    (r.map .status, c, file)
  | .heartbeat m now =>
    let (r, c) := c.acceptHeartbeat format m now
    (r.map fun _ => .status c.status, c, file)
  | .status m =>
    (if !m.valid format || m.state != .empty then .error .invalidFrame else .ok (.status c.status),
      c, file)

end Paperboat.HostdProtocol
