import Paperboat.Lib.Transition
import Paperboat.ConnectionManager.Candidates

/-! `Racer.connect` as a machine. The goroutines of the candidates report in any order
into one channel. The main loop reads the channel until it has a selection or all
reports; the reports it has not read are left to a goroutine that either warms standbys
or closes what comes. A candidate connects once, and its connection goes by its index. -/

namespace Paperboat.ConnectionManager

structure Outcome where
  index : ℕ
  path : Path
  /-- The relay region of a connection, or the error. -/
  result : Except Err String
  deriving DecidableEq, Repr

/-- An authenticated connection of the race. -/
structure Carrier where
  path : Path
  relayRegion : String
  connection : ℕ
  deriving DecidableEq, Repr

structure Selection extends Carrier where
  standby : Option Carrier := none
  deriving DecidableEq, Repr

inductive StandbyResult where
  | selection (c : Carrier)
  | err (f : Failure)

inductive RaceError where
  | terminal (f : Failure)
  /-- The error of the caller's context. -/
  | parent
  /-- The attempt's own deadline. -/
  | timeout
  | failures (fs : List Failure)
  deriving DecidableEq, Repr

/-- The goroutine that reads the reports left over. -/
inductive Background where
  | await (remaining : ℕ)
  | drain (remaining : ℕ) (selected : ℕ)
  | returned
  deriving DecidableEq, Repr

structure Race where
  config : Config
  mode : Mode
  candidates : List Candidate
  /-- The candidates that have not reported. -/
  running : List ℕ
  begun : List ℕ := []
  results : List Outcome := []
  /-- The attempt's context is done, and so is the caller's. -/
  ctxDone : Bool := false
  parentDone : Bool := false
  winner : Option Selection := none
  terminal : Option Failure := none
  failures : List Failure := []
  /-- The preference timer is awaited. -/
  preference : Bool := false
  directEligible : Bool := false
  directFinished : Bool := false
  readyFallback : Option Carrier := none
  readyWSS : Option Carrier := none
  completed : ℕ := 0
  returned : Option (Except RaceError Selection) := none
  background : Background := .returned
  /-- What was sent on `StandbyReady`. -/
  standbyReady : List StandbyResult := []
  /-- The connections that `Connector.Connect` returned. -/
  produced : List ℕ := []
  closed : List ℕ := []
  /-- The reports that the main loop has read. -/
  received : List Outcome := []

def Background.awaiting (n : ℕ) : Background := if n = 0 then .returned else .await n

def Background.draining (n selected : ℕ) : Background :=
  if n = 0 then .returned else .drain n selected

namespace Race

def preferDirect (mode : Mode) (cs : List Candidate) : Bool :=
  mode ≠ .auto && (cs[0]?.map (·.path) == some .directQUIC) &&
    (cs[1]?.map (·.path) == some .relayQUIC)

/-- The race as `connect` has set it up. -/
def init (config : Config) (mode : Mode) (cs : List Candidate) : Race where
  config := config
  mode := mode
  candidates := cs
  running := List.range cs.length
  begun := if (mode = .auto ∨ mode = .relayRace) ∧ config.sequentialFallback = false then
    List.range cs.length else [0]
  preference := preferDirect mode cs
  directEligible := preferDirect mode cs

variable (s : Race)

def prefersDirect : Bool := preferDirect s.mode s.candidates

def remaining : ℕ := s.candidates.length - s.completed

def cancel : Race := { s with ctxDone := true }

def close (i : ℕ) : Race := { s with closed := s.closed ++ [i] }

def begin (i : ℕ) : Race :=
  if i < s.candidates.length then { s with begun := s.begun ++ [i] } else s

/-- Return a selection and leave the other reports to `awaitWarmFallback`. -/
def returnWarm (w : Selection) : Race :=
  { s with winner := none, returned := some (.ok w), background := .awaiting s.remaining }

/-- Return a selection, cancel the others and leave their reports to
`drainCandidateResults`. -/
def returnCold (w : Selection) : Race :=
  { s.cancel with
    winner := none, returned := some (.ok w), background := .draining s.remaining w.connection }

/-- The direct path is there while the relay was held back for it, or too late. -/
def succeedDirect (c : Carrier) : Race :=
  if s.directEligible then
    match s.readyFallback, s.readyWSS with
    | some f, some w =>
      { s with
        readyFallback := none
        readyWSS := none
        directFinished := true
        standbyReady := s.standbyReady ++ [StandbyResult.selection w] }.returnCold { c with standby := some f }
    | some f, none =>
      { s with readyFallback := none, directFinished := true }.returnCold { c with standby := some f }
    | none, some w =>
      { s with readyWSS := none, directFinished := true }.returnCold { c with standby := some w }
    | none, none => { s with directFinished := true }.returnWarm { toCarrier := c }
  else { s with directFinished := true }.close c.connection

def succeed (c : Carrier) : Race :=
  if s.mode = .auto ∨ s.mode = .relayRace then
    if s.config.oneShot then s.returnCold { toCarrier := c } else s.returnWarm { toCarrier := c }
  else if s.prefersDirect ∧ c.path = .relayQUIC ∧ s.directEligible ∧ s.directFinished = false then
    { s with readyFallback := some c }
  else if s.prefersDirect ∧ c.path = .wss ∧ s.directEligible ∧ s.directFinished = false then
    { s with readyWSS := some c }
  else if s.prefersDirect ∧ c.path = .directQUIC then s.succeedDirect c
  else if s.winner = none ∧ s.terminal = none then
    if c.path = .directQUIC then
      { s.cancel with winner := some { c with standby := s.readyFallback }, readyFallback := none }
    else { s.cancel with winner := some { toCarrier := c } }
  else s.close c.connection

/-- What was held back for the direct path. -/
def heldBack : Option Selection :=
  match s.readyFallback, s.readyWSS with
  | some f, w => some { f with standby := w }
  | none, some w => some { toCarrier := w }
  | none, none => none

/-- A failure with no winner and no terminal failure before it. The source goes on to
look for a winner here, and there is none. -/
def failOn (index : ℕ) (failure : Failure) : Race :=
  if failure.allowsFallback = false ∧ s.mode ≠ .relayRace then
    { s.cancel with failures := s.failures ++ [failure], terminal := some failure }
  else { s with failures := s.failures ++ [failure] }.begin (index + 1)

def fail (index : ℕ) (path : Path) (err : Err) : Race :=
  let failure := typedFailure path err
  if s.terminal ≠ none then s
  else match s.winner with
    | some w =>
      if s.mode = .relayRace ∨ err.canceled ∨ err.deadlineExceeded ∨ failure.allowsFallback then s
      else { s.close w.connection with winner := none, terminal := some failure }
    | none =>
      if path = .directQUIC then
        let t := { s with directFinished := true, directEligible := false, preference := false }
        match s.heldBack with
        | some w => if failure.allowsFallback then
            { t.cancel with winner := some w, readyFallback := none, readyWSS := none }
          else t.failOn index failure
        | none => t.failOn index failure
      else s.failOn index failure

/-- The main loop reads a report. -/
def handle (o : Outcome) : Race :=
  let s := { s with completed := s.completed + 1, received := s.received ++ [o] }
  match o.result with
  | .ok region => s.succeed ⟨o.path, region, o.index⟩
  | .error err => s.fail o.index o.path err

/-- The preference timer fires. -/
def prefer : Race :=
  let s := { s with preference := false, directEligible := false }
  match s.readyFallback, s.readyWSS with
  | some f, some w =>
    { s with readyFallback := none, readyWSS := none }.returnCold { f with standby := some w }
  | some f, none => { s with readyFallback := none }.returnWarm { toCarrier := f }
  | none, some w => { s with readyWSS := none }.returnWarm { toCarrier := w }
  | none, none => s

def connections (c : Option Carrier) : List ℕ := c.toList.map (·.connection)

/-- All reports are in. The attempt is cancelled before the error of its context is
looked at, so the failures of the candidates are never returned. -/
def conclude : Race :=
  let t := { s.cancel with
    closed := s.closed ++ connections s.readyFallback ++ connections s.readyWSS
    readyFallback := none
    readyWSS := none
    winner := none }
  { t with returned := some (match s.winner, s.terminal with
      | some w, _ => .ok w
      | none, some f => .error (.terminal f)
      | none, none =>
        if t.parentDone then .error .parent
        else if t.ctxDone then .error .timeout
        else .error (.failures t.failures)) }

/-- `awaitWarmFallback` reads a report. -/
def warm (n : ℕ) (o : Outcome) : Race :=
  match o.result with
  | .ok region => { s with
      standbyReady := s.standbyReady ++ [.selection ⟨o.path, region, o.index⟩]
      background := .awaiting (n - 1) }
  | .error err =>
    if (typedFailure o.path err).allowsFallback then
      { s with background := .awaiting (n - 1) }.begin (o.index + 1)
    else { s with
      standbyReady := s.standbyReady ++ [.err (typedFailure o.path err)], background := .returned }

/-- `drainCandidateResults` reads a report. -/
def discard (n selected : ℕ) (o : Outcome) : Race :=
  let s := { s with background := .draining (n - 1) selected }
  match o.result with
  | .ok _ => s.close o.index
  | .error err =>
    if (typedFailure o.path err).allowsFallback then s else s.close selected

inductive Action where
  /-- A candidate has connected, or not. -/
  | report (i : ℕ) (ctx : Err) (c : Connected)
  /-- A candidate has waited for its start until the context was done. -/
  | giveUp (i : ℕ) (deadline : Bool)
  | cancelParent
  | timeout
  | receive
  | prefer
  | conclude
  | awaitReceive
  | awaitDone
  | drainReceive

def step : Action → Option Race
  | .report i ctx c => do
    let candidate ← s.candidates[i]?
    if i ∉ s.running ∨ (candidate.fallbackOnly ∧ i ∉ s.begun) then none
    else
      let result := report ctx candidate.path c
      some { s with
        running := s.running.erase i
        results := s.results ++ [⟨i, candidate.path, result⟩]
        produced := if c.connection.isSome then s.produced ++ [i] else s.produced
        closed := if c.connection.isSome ∧ result.toOption = none then s.closed ++ [i]
          else s.closed }
  | .giveUp i deadline => do
    let candidate ← s.candidates[i]?
    if i ∉ s.running ∨ s.ctxDone = false then none
    else some { s with
      running := s.running.erase i
      results := s.results ++ [⟨i, candidate.path,
        .error { deadlineExceeded := deadline, canceled := !deadline }⟩] }
  | .cancelParent => some { s with ctxDone := true, parentDone := true }
  | .timeout => some s.cancel
  | .receive =>
    match s.returned, s.results with
    | none, o :: rest =>
      if s.completed < s.candidates.length then some ({ s with results := rest }.handle o) else none
    | _, _ => none
  | .prefer =>
    if s.returned = none ∧ s.preference ∧ s.completed < s.candidates.length then some s.prefer
    else none
  | .conclude =>
    if s.returned = none ∧ s.candidates.length ≤ s.completed then some s.conclude else none
  | .awaitReceive =>
    match s.background, s.results with
    | .await n, o :: rest => some ({ s with results := rest }.warm n o)
    | _, _ => none
  | .awaitDone =>
    match s.background with
    | .await _ => if s.ctxDone then some { s with background := .returned } else none
    | _ => none
  | .drainReceive =>
    match s.background, s.results with
    | .drain n selected, o :: rest => some ({ s with results := rest }.discard n selected o)
    | _, _ => none

/-- The outcomes of a step. -/
inductive Moved : Action → Race → Prop
  | report {i : ℕ} {ctx : Err} {c : Connected} {candidate : Candidate}
      (hc : s.candidates[i]? = some candidate) (hi : i ∈ s.running) :
      Moved (.report i ctx c) { s with
        running := s.running.erase i
        results := s.results ++ [⟨i, candidate.path, report ctx candidate.path c⟩]
        produced := if c.connection.isSome then s.produced ++ [i] else s.produced
        closed := if c.connection.isSome ∧ (report ctx candidate.path c).toOption = none then
          s.closed ++ [i] else s.closed }
  | giveUp {i : ℕ} {deadline : Bool} {candidate : Candidate}
      (hc : s.candidates[i]? = some candidate) (hi : i ∈ s.running) :
      Moved (.giveUp i deadline) { s with
        running := s.running.erase i
        results := s.results ++ [⟨i, candidate.path,
          .error { deadlineExceeded := deadline, canceled := !deadline }⟩] }
  | cancelParent : Moved .cancelParent { s with ctxDone := true, parentDone := true }
  | timeout : Moved .timeout s.cancel
  | receive (hr : s.returned = none)
      (hres : s.results = o :: rest) : Moved .receive ({ s with results := rest }.handle o)
  | prefer (hr : s.returned = none) (hp : s.preference = true) : Moved .prefer s.prefer
  | conclude (hr : s.returned = none) (hn : s.candidates.length ≤ s.completed) :
      Moved .conclude s.conclude
  | awaitReceive (hb : s.background = .await n)
      (hres : s.results = o :: rest) : Moved .awaitReceive ({ s with results := rest }.warm n o)
  | awaitDone (hb : s.background = .await n) :
      Moved .awaitDone { s with background := .returned }
  | drainReceive (hb : s.background = .drain n selected) (hres : s.results = o :: rest) :
      Moved .drainReceive ({ s with results := rest }.discard n selected o)

variable {s} {t : Race} {a : Action}

theorem moved_of_step (h : s.step a = some t) : Moved s a t := by
  cases a <;> simp only [step] at h
  case report i ctx c =>
    simp only [bind, Option.bind_eq_some_iff] at h
    obtain ⟨candidate, hc, h⟩ := h
    split at h <;> cases h
    next hi => exact .report hc (by simpa using (not_or.mp hi).1)
  case giveUp i deadline =>
    simp only [bind, Option.bind_eq_some_iff] at h
    obtain ⟨candidate, hc, h⟩ := h
    split at h <;> cases h
    next hi => exact .giveUp hc (by simpa using (not_or.mp hi).1)
  case cancelParent => cases h; exact .cancelParent
  case timeout => cases h; exact .timeout
  case receive =>
    split at h
    next hr hres =>
      split at h <;> cases h
      exact .receive hr hres
    next => cases h
  case prefer =>
    split at h <;> cases h
    next hp => exact .prefer hp.1 hp.2.1
  case conclude =>
    split at h <;> cases h
    next hp => exact .conclude hp.1 hp.2
  case awaitReceive =>
    split at h <;> cases h
    next hb hres => exact .awaitReceive hb hres
  case awaitDone =>
    split at h
    next hb =>
      split at h <;> cases h
      exact .awaitDone hb
    next => cases h
  case drainReceive =>
    split at h <;> cases h
    next hb hres => exact .drainReceive hb hres

end Race

end Paperboat.ConnectionManager
