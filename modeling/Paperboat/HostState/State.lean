import Mathlib

/-! The durable state of the host runtime: tunnels with their desired and last-known-good
configurations, route generations, connectors and the update journal. The JSON and URL
rules that only decide about a single text are parameters (`Rules`): canonical form and
strict decoding of a configuration payload, its hash, the endpoint identity in it, and the
form of a credential reference. Times are nanosecond counts from the zero time `0`. -/

namespace Paperboat.HostState

abbrev Time := Int

inductive DesiredState where
  | active
  | paused
  | deleted
  deriving DecidableEq, Repr

structure ConfigSnapshot where
  tunnelID : String
  generation : UInt64
  contentHash : String
  payload : String
  deriving DecidableEq, Repr

/-- What the runtime reads from a configuration payload. -/
structure TunnelConfigSnapshot where
  tunnelID : String
  generation : UInt64
  desiredState : DesiredState
  stableEndpoint : String

structure Tunnel where
  id : String
  stableEndpointID : String
  desiredState : DesiredState
  desiredGeneration : UInt64
  appliedGeneration : UInt64
  desiredSnapshot : ConfigSnapshot
  lastKnownGood : Option ConfigSnapshot := none
  updatedAt : Time
  deriving DecidableEq, Repr

structure RouteGeneration where
  tunnelID : String
  routeID : String
  generation : UInt64
  deriving DecidableEq, Repr

structure CredentialReference where
  reference : String
  generation : UInt64
  deriving DecidableEq, Repr

structure Connector where
  id : String
  tunnelID : String
  hostID : String
  credential : CredentialReference
  rotationGeneration : UInt64
  lastAppliedGeneration : UInt64
  deriving DecidableEq, Repr

inductive JournalPhase where
  | received | validated | persisted | applying | ready | draining | complete
  deriving DecidableEq, Repr

inductive JournalState where
  | pending | applied | failed
  deriving DecidableEq, Repr

structure UpdateJournalEntry where
  id : String
  tunnelID : String
  phase : JournalPhase
  state : JournalState
  targetGeneration : UInt64
  failureCode : String := ""
  startedAt : Time
  updatedAt : Time
  deriving DecidableEq, Repr

structure State where
  tunnels : List Tunnel := []
  routeGenerations : List RouteGeneration := []
  connectors : List Connector := []
  updateJournal : List UpdateJournalEntry := []
  deriving DecidableEq, Repr

def maxTunnels : ℕ := 1000
def maxRoutes : ℕ := 20000
def maxConnectors : ℕ := 10000
def maxJournalEntries : ℕ := 2000
def maxSnapshotBytes : ℕ := 4 * 2 ^ 20
def maxStateBytes : ℕ := 8 * 2 ^ 20

/-! ### Rules for single texts -/

structure Rules where
  /-- `canonicalSafeJSON`. -/
  canonical : String → Option String
  /-- The strict decoding of a canonical payload with the checks of its fields and routes. -/
  decode : String → Option TunnelConfigSnapshot
  contentHash : String → String
  /-- `StableEndpointIDForEndpoint`. -/
  endpointID : String → Option String
  /-- The URL of a credential reference. -/
  credentialReference : String → Bool
  /-- The length of a time in JSON; there is none beyond the year 9999. -/
  timeSize : Time → Option ℕ
  /-- The length of a state in JSON, where all of its times have one. -/
  stateSize : State → Option ℕ
  /-- The checksum of an unsigned document. -/
  checksum : UInt64 → Time → State → String
  timeSize_le : ∀ t n, timeSize t = some n → n ≤ 37
  stateSize_empty : stateSize {} = some 2

/-- `idPattern` -/
def validID (value : String) : Bool :=
  match value.toList with
  | [] => false
  | first :: rest =>
    first.isAlphanum && rest.length ≤ 127 &&
      rest.all fun c => c.isAlphanum || c ∈ ['.', '_', ':', '-']

/-- `codePattern` -/
def validCode (value : String) : Bool :=
  match value.toList with
  | [] => false
  | first :: rest =>
    first.isLower && rest.length ≤ 127 && rest.all fun c => c.isLower || c.isDigit || c = '_'

/-- `stableEndpointIDPattern`: a lowercase UUID of the common variant. -/
def validStableEndpointID (value : String) : Bool :=
  let hex := fun c : Char => c.isDigit || c ∈ ['a', 'b', 'c', 'd', 'e', 'f']
  match value.splitOn "-" with
  | [a, b, c, d, e] =>
    [a, b, c, d, e].all (fun part => part.toList.all hex) &&
      [a, b, c, d, e].map String.length = [8, 4, 4, 4, 12] &&
      d.toList.head? ∈ [some '8', some '9', some 'a', some 'b']
  | _ => false

variable (rules : Rules)

/-! ### Validation -/

/-- `ParseTunnelConfigSnapshot` -/
def parseTunnelConfigSnapshot (payload : String) (tunnelID : String) (generation : UInt64) :
    Option TunnelConfigSnapshot :=
  if validID tunnelID = false ∨ generation = 0 ∨ payload.utf8ByteSize = 0 ∨
      maxSnapshotBytes < payload.utf8ByteSize then none
  else do
    let canonical ← rules.canonical payload
    let snapshot ← rules.decode canonical
    if snapshot.tunnelID ≠ tunnelID ∨ snapshot.generation ≠ generation then none else some snapshot

def validateSnapshot (snapshot : ConfigSnapshot) : Bool :=
  rules.canonical snapshot.payload = some snapshot.payload ∧
    snapshot.contentHash = rules.contentHash snapshot.payload ∧
    (parseTunnelConfigSnapshot rules snapshot.payload snapshot.tunnelID snapshot.generation).isSome

def validateStableEndpointIdentity (stableEndpointID : String) (snapshot : ConfigSnapshot) : Bool :=
  validStableEndpointID stableEndpointID ∧
    (parseTunnelConfigSnapshot rules snapshot.payload snapshot.tunnelID snapshot.generation).any
      fun decoded => rules.endpointID decoded.stableEndpoint = some stableEndpointID

def Tunnel.validate (t : Tunnel) : Bool :=
  validID t.id ∧ validStableEndpointID t.stableEndpointID ∧ t.desiredState ≠ .deleted ∧
    t.desiredGeneration ≠ 0 ∧ t.appliedGeneration ≤ t.desiredGeneration ∧ t.updatedAt ≠ 0 ∧
    validateSnapshot rules t.desiredSnapshot ∧ t.desiredSnapshot.tunnelID = t.id ∧
    t.desiredSnapshot.generation = t.desiredGeneration ∧
    validateStableEndpointIdentity rules t.stableEndpointID t.desiredSnapshot ∧
    (0 < t.appliedGeneration → t.lastKnownGood.isSome) ∧
    t.lastKnownGood.all fun lkg =>
      validateSnapshot rules lkg ∧ lkg.tunnelID = t.id ∧ lkg.generation = t.appliedGeneration ∧
        lkg.generation ≤ t.desiredGeneration ∧
        validateStableEndpointIdentity rules t.stableEndpointID lkg

/-- The tunnel of that name is there, and its desired generation is not below. -/
def State.admits (s : State) (tunnelID : String) (generation : UInt64) : Bool :=
  s.tunnels.any fun t => t.id = tunnelID ∧ generation ≤ t.desiredGeneration

def RouteGeneration.validate (s : State) (r : RouteGeneration) : Bool :=
  s.admits r.tunnelID r.generation ∧ validID r.routeID ∧ r.generation ≠ 0

def Connector.validate (s : State) (c : Connector) : Bool :=
  s.admits c.tunnelID c.lastAppliedGeneration ∧ validID c.id ∧ validID c.hostID ∧
    c.rotationGeneration ≠ 0 ∧ c.credential.generation = c.rotationGeneration ∧
    rules.credentialReference c.credential.reference

def UpdateJournalEntry.validate (s : State) (e : UpdateJournalEntry) : Bool :=
  s.admits e.tunnelID e.targetGeneration ∧ validID e.id ∧ e.targetGeneration ≠ 0 ∧
    e.startedAt ≠ 0 ∧ e.startedAt ≤ e.updatedAt ∧
    (if e.state = .failed then validCode e.failureCode else e.failureCode = "")

/-- `State.Validate` -/
def State.validate (s : State) : Bool :=
  s.tunnels.length ≤ maxTunnels ∧ s.routeGenerations.length ≤ maxRoutes ∧
    s.connectors.length ≤ maxConnectors ∧ s.updateJournal.length ≤ maxJournalEntries ∧
    (∀ t ∈ s.tunnels, t.validate rules) ∧ (s.tunnels.map (·.id)).Nodup ∧
    (∀ r ∈ s.routeGenerations, r.validate s) ∧
    (s.routeGenerations.map fun r => (r.tunnelID, r.routeID)).Nodup ∧
    (∀ c ∈ s.connectors, c.validate rules s) ∧ (s.connectors.map (·.id)).Nodup ∧
    (∀ e ∈ s.updateJournal, e.validate s) ∧ (s.updateJournal.map (·.id)).Nodup

/-! ### Normal form -/

/-- `normalizeState`: every list in the order of its keys, which a valid state has once. -/
def normalizeState (s : State) : State where
  tunnels := s.tunnels.insertionSort fun a b => a.id ≤ b.id
  routeGenerations := s.routeGenerations.insertionSort fun a b =>
    toLex (a.tunnelID, a.routeID) ≤ toLex (b.tunnelID, b.routeID)
  connectors := s.connectors.insertionSort fun a b => a.id ≤ b.id
  updateJournal := s.updateJournal.insertionSort fun a b => a.id ≤ b.id

section Normal

variable {rules}

theorem normalizeState_idem (s : State) : normalizeState (normalizeState s) = normalizeState s := by
  have hsorted : ∀ {α β : Type} [LinearOrder β] (key : α → β) (l : List α),
      (l.insertionSort fun a b => key a ≤ key b).insertionSort (fun a b => key a ≤ key b) =
        l.insertionSort fun a b => key a ≤ key b := by
    intro α β _ key l
    exact List.Pairwise.insertionSort_eq (List.pairwise_insertionSort _ l)
  simp only [normalizeState, State.mk.injEq]
  exact ⟨hsorted _ _, hsorted (fun r : RouteGeneration => toLex (r.tunnelID, r.routeID)) _,
    hsorted _ _, hsorted _ _⟩

theorem admits_normalize (s : State) (tunnelID : String) (generation : UInt64) :
    (normalizeState s).admits tunnelID generation = s.admits tunnelID generation := by
  rw [State.admits, State.admits, normalizeState]
  exact ((List.perm_insertionSort _ _).any_eq)

/-- A state is valid in whatever order its lists are. -/
theorem validate_normalize (h : s.validate rules) : (normalizeState s).validate rules := by
  have h := of_decide_eq_true h
  obtain ⟨hmaxT, hmaxR, hmaxC, hmaxJ, htunnels, hnodupT, hroutes, hnodupR, hconnectors, hnodupC,
    hjournal, hnodupJ⟩ := h
  have hnodup : ∀ {α β : Type} (r : α → α → Prop) [DecidableRel r] (key : α → β) (l : List α),
      (l.map key).Nodup → ((l.insertionSort r).map key).Nodup := by
    intro α β r _ key l hl
    exact ((List.perm_insertionSort r l).map key).nodup_iff.mpr hl
  refine decide_eq_true ⟨?_, ?_, ?_, ?_, fun t ht => ?_, hnodup _ _ _ hnodupT, fun r hr => ?_,
    hnodup _ _ _ hnodupR, fun c hc => ?_, hnodup _ _ _ hnodupC, fun e he => ?_, hnodup _ _ _ hnodupJ⟩
  · rw [normalizeState, List.length_insertionSort]
    exact hmaxT
  · rw [normalizeState, List.length_insertionSort]
    exact hmaxR
  · rw [normalizeState, List.length_insertionSort]
    exact hmaxC
  · rw [normalizeState, List.length_insertionSort]
    exact hmaxJ
  · exact htunnels t ((List.mem_insertionSort _).mp ht)
  · have := hroutes r ((List.mem_insertionSort _).mp hr)
    rw [RouteGeneration.validate] at this ⊢
    rw [admits_normalize]
    exact this
  · have := hconnectors c ((List.mem_insertionSort _).mp hc)
    rw [Connector.validate] at this ⊢
    rw [admits_normalize]
    exact this
  · have := hjournal e ((List.mem_insertionSort _).mp he)
    rw [UpdateJournalEntry.validate] at this ⊢
    rw [admits_normalize]
    exact this

end Normal

end Paperboat.HostState
