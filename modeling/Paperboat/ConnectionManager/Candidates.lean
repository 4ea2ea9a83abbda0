import Mathlib

/-! The candidates of a race for a peer connection: which paths are tried in which
order, what the goroutine of a candidate reports, and which failures of a path allow
another path to be used instead. -/

namespace Paperboat.ConnectionManager

inductive Path where
  | directQUIC | relayQUIC | wss
  deriving DecidableEq, Repr

inductive Mode where
  | auto | quic | wss | directQUIC | relayQUIC | relayRace
  deriving DecidableEq, Repr

inductive NetworkClass where
  | unknown | udpBlocked | directInfeasible | relayPreferred

inductive FailureClass where
  | reachability | timeout | udpBlocked | nat | transient
  | authentication | authorization | certificate | protocol | revoked | generation | internal
  deriving DecidableEq, Repr

inductive State where
  | probing | ready | trusted | suspect | failed
  deriving DecidableEq, Repr

/-! ### Failures -/

/-- An error as `errors.As` and `errors.Is` see it: the class of the failure in its
chain, if there is one of a known class, and the errors of a context. -/
structure Err where
  failure : Option FailureClass := none
  deadlineExceeded : Bool := false
  canceled : Bool := false
  deriving DecidableEq, Repr

structure Failure where
  kind : FailureClass
  path : Option Path
  cause : Err
  deriving DecidableEq, Repr

def FailureClass.allowsFallback : FailureClass → Bool
  | reachability | timeout | udpBlocked | nat | transient => true
  | _ => false

def Failure.allowsFallback (f : Failure) : Bool := f.kind.allowsFallback

/-- A failure as an error: its cause is in the chain. -/
def Failure.toErr (f : Failure) : Err := { f.cause with failure := some f.kind }

variable (path : Path) (config : Config) (paths : List Path)

def typedFailure (err : Err) : Failure where
  kind := err.failure.getD
    (if err.deadlineExceeded then .timeout else if err.canceled then .transient else .internal)
  path := some path
  cause := err

/-! ### The goroutine of a candidate -/

/-- What a connection says of itself. -/
structure Link where
  state : State
  /-- The answer of `AdmitInitialHealth`, if the connection has that method. -/
  admission : Option (Option Err) := none
  /-- The state after the admission. -/
  admitted : State := .trusted
  relayRegion : String := ""

/-- What `Connector.Connect` returned, and whether the candidate's deadline had passed. -/
structure Connected where
  connection : Option Link
  err : Option Err := none
  timedOut : Bool := false

/-- `ctx` is the error of the attempt's context. -/
def admitInitialHealth (ctx : Err) (path : Path) (link : Link) : Except Err Unit :=
  match link.admission with
  | none => .error { failure := some .protocol }
  | some none => .ok ()
  | some (some err) =>
    if err.failure.isSome then .error (typedFailure path err).toErr
    else if err.deadlineExceeded || ctx.deadlineExceeded then
      .error { err with failure := some .timeout }
    else .error { err with failure := some .transient }

def regionCharacter (c : Char) : Bool :=
  ('a' ≤ c && c ≤ 'z') || ('A' ≤ c && c ≤ 'Z') || ('0' ≤ c && c ≤ '9') || c == '_' || c == '.' ||
    c == ':' || c == '-'

def connectionRelayRegion (region : String) : Except Err String :=
  if region = "" then .ok ""
  else if path = .directQUIC || 128 < region.utf8ByteSize then .error { failure := some .protocol }
  else if region.toList.all regionCharacter then .ok region
  else .error { failure := some .protocol }

/-- The result a candidate reports. Whatever comes with an error is closed. -/
def report (ctx : Err) (path : Path) (c : Connected) : Except Err String :=
  let err := if c.timedOut then
    some { c.err.getD {} with failure := some .timeout, deadlineExceeded := true } else c.err
  match c.connection, err with
  | _, some err => .error err
  | none, none => .error { failure := some .internal }
  | some link, none => do
    if link.state = .ready then
      admitInitialHealth ctx path link
      if link.admitted ≠ .trusted then throw { failure := some .protocol }
    else if link.state ≠ .trusted then throw { failure := some .protocol }
    connectionRelayRegion path link.relayRegion

/-! ### Which candidates there are -/

/-- The options of a race; the durations decide when things happen, not what. -/
structure Config where
  sequentialFallback : Bool := false
  relayFirst : Bool := false
  oneShot : Bool := false

structure Candidate where
  path : Path
  /-- It starts when the one before it has failed. -/
  fallbackOnly : Bool := false
  deriving DecidableEq, Repr

/-- All candidates have the delay zero. `none` stands for the errors. -/
def candidates : Mode → NetworkClass → Option (List Path)
  | .directQUIC, _ => some [.directQUIC]
  | .relayQUIC, _ => some [.relayQUIC]
  | .relayRace, _ => some [.relayQUIC, .wss]
  | .wss, _ => some [.wss]
  | .quic, .udpBlocked => none
  | .quic, .directInfeasible => some [.relayQUIC]
  | .quic, .relayPreferred => some [.directQUIC, .relayQUIC]
  | .quic, .unknown => some [.directQUIC, .relayQUIC]
  | .auto, .udpBlocked => some [.wss]
  | .auto, .directInfeasible => some [.relayQUIC, .wss]
  | .auto, .relayPreferred => some [.directQUIC, .relayQUIC, .wss]
  | .auto, .unknown => some [.directQUIC, .relayQUIC, .wss]

def relayFirstCandidates : List Path :=
  [.relayQUIC, .wss, .directQUIC].flatMap fun path => paths.filter (· = path)

def sequential : List Path → List Candidate
  | [] => []
  | path :: paths => { path } :: paths.map fun path => { path, fallbackOnly := true }

/-- The paths in the order of the race, without those the caller does not want. -/
def eligible (mode : Mode) (excluded only : Option Path) (paths : List Path) : List Path :=
  (if config.relayFirst ∧ (mode = .auto ∨ mode = .relayRace) then relayFirstCandidates paths
    else paths).filter fun path => excluded ≠ some path ∧ (only = none ∨ only = some path)

def start : List Candidate :=
  if config.sequentialFallback then sequential paths else paths.map fun path => { path }

/-- The candidates that `connect` starts, `none` if it refuses to. -/
def plan (mode : Mode) (network : NetworkClass) (excluded only : Option Path) : Option (List Candidate) :=
  (candidates mode network).bind fun paths =>
    match eligible config mode excluded only paths with
    | [] => none
    | paths => some (start config paths)

/-! ### The shape of a plan -/

section

variable {mode : Mode} {network : NetworkClass} {paths : List Path}
  (h : candidates mode network = some paths)

include h

theorem candidates_nodup : paths.Nodup := by
  cases mode <;> cases network <;> cases h <;> decide

/-- Only the race of all paths has the direct one next to WSS. -/
theorem candidates_wss (hmode : mode ≠ .auto) (hdirect : .directQUIC ∈ paths) : .wss ∉ paths := by
  revert hmode hdirect
  cases mode <;> cases network <;> cases h <;> decide

end

theorem mem_relayFirstCandidates {paths : List Path} :
    p ∈ relayFirstCandidates paths ↔ p ∈ paths := by
  simp only [relayFirstCandidates, List.mem_flatMap, List.mem_filter, decide_eq_true_eq]
  constructor
  · rintro ⟨_, -, hp, -⟩
    exact hp
  · intro hp
    exact ⟨p, by cases p <;> decide, hp, rfl⟩

theorem relayFirstCandidates_nodup {paths : List Path} (h : paths.Nodup) :
    (relayFirstCandidates paths).Nodup := by
  have hone : ∀ path, (paths.filter (· = path)).Nodup := fun path => h.filter _
  have happ : ∀ {xs ys : List Path}, xs.Nodup → ys.Nodup → (∀ p ∈ xs, p ∉ ys) →
      (xs ++ ys).Nodup := fun hx hy hxy => List.nodup_append.mpr ⟨hx, hy, fun a ha b hb he =>
        hxy a ha (he ▸ hb)⟩
  simp only [relayFirstCandidates, List.flatMap_cons, List.flatMap_nil, List.append_nil]
  refine happ (hone _) (happ (hone _) (hone _) ?_) ?_
  all_goals
    grind

theorem start_paths : (start config paths).map (·.path) = paths := by
  unfold start
  split
  · cases paths with
    | nil => rfl
    | cons path paths => simp [sequential, Function.comp_def]
  · simp [Function.comp_def]

section Plan

variable {config : Config} {mode : Mode} {network : NetworkClass} {excluded only : Option Path}
  {cs : List Candidate} {paths : List Path}

theorem mem_of_mem_eligible (h : p ∈ eligible config mode excluded only paths) :
    p ∈ paths := by
  have hp := List.mem_of_mem_filter h
  split at hp
  · exact mem_relayFirstCandidates.mp hp
  · exact hp

theorem eligible_nodup (h : paths.Nodup) : (eligible config mode excluded only paths).Nodup := by
  refine List.Nodup.filter _ ?_
  split
  · exact relayFirstCandidates_nodup h
  · exact h

section

variable (h : plan config mode network excluded only = some cs)

include h

theorem plan_paths : ∃ paths, candidates mode network = some paths ∧
      cs.map (·.path) = eligible config mode excluded only paths := by
  obtain ⟨paths, hpaths, h⟩ := Option.bind_eq_some_iff.mp h
  refine ⟨paths, hpaths, ?_⟩
  split at h <;> cases h
  exact start_paths ..

theorem plan_nodup : (cs.map (·.path)).Nodup := by
  obtain ⟨paths, hpaths, he⟩ := plan_paths h
  rw [he]
  exact eligible_nodup (candidates_nodup hpaths)

theorem plan_wss (hmode : mode ≠ .auto) (hdirect : .directQUIC ∈ cs.map (·.path)) :
    .wss ∉ cs.map (·.path) := by
  obtain ⟨paths, hpaths, he⟩ := plan_paths h
  rw [he] at hdirect ⊢
  exact fun hwss => candidates_wss hpaths hmode (mem_of_mem_eligible hdirect)
    (mem_of_mem_eligible hwss)

end

end Plan

end Paperboat.ConnectionManager
