import Mathlib
import Paperboat.Lib.Transition

/-! The snapshot store of the local API. A publisher replaces the stored snapshot under the
lock and notifies the watchers after it; every watcher has a channel with one place, and
a full channel is emptied and filled again. -/

namespace Paperboat.LocalAPI

/-- A snapshot; `β` stands for the daemon state, the health items and the machines. A zero
time is no time. -/
structure Snapshot (β : Type) where
  schema : String
  generation : UInt64
  observedAt : Nat
  body : β
  deriving DecidableEq

/-- `callback` is the error of an update's own function. -/
inductive SnapshotError where
  | invalidResponse | invalidConfig | staleGeneration | watcherLimit | generationExhausted | callback | canceled

def snapshotSchemaV1 : String := "paperboat.status/v1"

def maxSnapshotWatchers : Nat := 128

variable {β : Type}

/-- `Snapshot.Validate`, with the checks of the body as a parameter. -/
def Snapshot.validate (validBody : β → Bool) (s : Snapshot β) : Bool :=
  s.schema == snapshotSchemaV1 && s.generation != 0 && s.observedAt != 0 && validBody s.body

def semanticSnapshotEqual [DecidableEq β] (left right : Snapshot β) : Bool :=
  left.schema == right.schema && left.body == right.body

/-! ### The store -/

/-- What a call of `Publish` stores, if it stores anything. -/
def publish [DecidableEq β] (validBody : β → Bool) (current : Option (Snapshot β)) (snapshot : Snapshot β) :
    Except SnapshotError (Option (Snapshot β)) :=
  if !snapshot.validate validBody then .error .invalidResponse
  else
    match current with
    | none => .ok (some snapshot)
    | some current =>
      if snapshot.generation < current.generation then .error .staleGeneration
      else if snapshot.generation = current.generation then
        if snapshot = current then .ok none else .error .staleGeneration
      else .ok (some snapshot)

/-- The generation that follows the stored one. -/
def nextGeneration (current : Option (Snapshot β)) : Option UInt64 :=
  match current with
  | none => some 1
  | some current => if current.generation = (-1 : UInt64) then none else some (current.generation + 1)

/-- What a call of `Update` stores; the callback sees the stored snapshot. -/
def update [DecidableEq β] (validBody : β → Bool) (current : Option (Snapshot β)) (observedAt : Nat)
    (callback : Option (Snapshot β) → Option (Snapshot β)) : Except SnapshotError (Option (Snapshot β)) :=
  if observedAt = 0 then .error .invalidConfig
  else
    match callback current with
    | none => .error .callback
    | some desired =>
      let desired := { desired with schema := snapshotSchemaV1, observedAt := observedAt }
      if current.any (semanticSnapshotEqual · desired) then .ok none
      else
        match nextGeneration current with
        | none => .error .generationExhausted
        | some generation =>
          let desired := { desired with generation := generation }
          if desired.validate validBody then .ok (some desired) else .error .invalidResponse

/-- A call of `Watch` that has registered waits until it takes a newer snapshot or is
canceled; then it leaves the watchers and returns. -/
inductive Phase (β : Type) where
  | waiting
  | leaving (result : Except SnapshotError (Snapshot β))
  | returned (result : Except SnapshotError (Snapshot β))

structure Call (β : Type) where
  after : UInt64
  /-- The channel with one place. -/
  updates : Option (Snapshot β) := none
  phase : Phase β := .waiting

/-- The next operation on the channel of the watcher being notified. -/
inductive Turn where
  | send | drain | again

/-- A publisher in its notification loop. -/
structure Publisher (β : Type) where
  snapshot : Snapshot β
  /-- The watchers still to notify; the first one is being notified. -/
  rest : List Nat
  turn : Turn := .send

/-- The store with the calls of `Watch` and the publishers after their critical sections.
`watchers` holds the numbers of the calls that have registered. -/
structure SnapshotStore (β : Type) where
  current : Option (Snapshot β)
  watchers : List Nat := []
  calls : List (Call β) := []
  publishers : List (Publisher β) := []

inductive Action (β : Type) where
  /-- `order` is the order in which the map yields the watchers. -/
  | publish (snapshot : Snapshot β) (order : List Nat)
  | update (observedAt : Nat) (callback : Option (Snapshot β) → Option (Snapshot β)) (order : List Nat)
  | notify (publisher : Nat)
  | watch (after : UInt64)
  | receive (call : Nat)
  | cancel (call : Nat)
  | leave (call : Nat)

namespace SnapshotStore

/-- `NewSnapshotStore`. -/
def new (validBody : β → Bool) (initial : Option (Snapshot β)) : Except SnapshotError (SnapshotStore β) :=
  if initial.all (Snapshot.validate validBody) then .ok { current := initial } else .error .invalidResponse

/-- The stored generation; zero while nothing is stored. -/
def generation (s : SnapshotStore β) : UInt64 := (s.current.map (·.generation)).getD 0

/-- The end of a publisher's critical section. -/
def stored (s : SnapshotStore β) (result : Except SnapshotError (Option (Snapshot β))) (order : List Nat) :
    Option (SnapshotStore β) :=
  match result with
  | .ok (some snapshot) =>
    if order.Perm s.watchers then
      some { s with current := some snapshot, publishers := s.publishers ++ [{ snapshot := snapshot, rest := order }] }
    else none
  | _ => some s

/-- One channel operation of the loop: a full channel is emptied and tried once more. -/
def notifyOne (snapshot : Snapshot β) (turn : Turn) (updates : Option (Snapshot β)) :
    Option (Snapshot β) × Option Turn :=
  match turn, updates with
  | .send, none => (some snapshot, none)
  | .send, some held => (some held, some .drain)
  | .drain, _ => (none, some .again)
  | .again, none => (some snapshot, none)
  | .again, some held => (some held, none)

def notify (s : SnapshotStore β) (i : Nat) : Option (SnapshotStore β) := do
  let publisher ← s.publishers[i]?
  let target ← publisher.rest.head?
  let call ← s.calls[target]?
  let (updates, turn) := notifyOne publisher.snapshot publisher.turn call.updates
  let publisher := match turn with
    | some turn => { publisher with turn := turn }
    | none => { publisher with rest := publisher.rest.tail, turn := .send }
  some { s with calls := s.calls.set target { call with updates := updates }, publishers := s.publishers.set i publisher }

/-- The critical section of `Watch`. -/
def watch (s : SnapshotStore β) (after : UInt64) : SnapshotStore β :=
  match s.current.filter fun current => after < current.generation with
  | some current => { s with calls := s.calls ++ [{ after := after, phase := .returned (.ok current) }] }
  | none =>
    if s.watchers.length ≥ maxSnapshotWatchers then
      { s with calls := s.calls ++ [{ after := after, phase := .returned (.error .watcherLimit) }] }
    else { s with calls := s.calls ++ [{ after := after }], watchers := s.watchers ++ [s.calls.length] }

/-- A waiting call takes what is in its channel, and goes on waiting if that is not newer. -/
def receive (s : SnapshotStore β) (i : Nat) : Option (SnapshotStore β) := do
  let call ← s.calls[i]?
  match call.phase, call.updates with
  | .waiting, some snapshot =>
    let phase := if call.after < snapshot.generation then .leaving (.ok snapshot) else .waiting
    some { s with calls := s.calls.set i { call with updates := none, phase := phase } }
  | _, _ => none

def cancel (s : SnapshotStore β) (i : Nat) : Option (SnapshotStore β) := do
  let call ← s.calls[i]?
  match call.phase with
  | .waiting => some { s with calls := s.calls.set i { call with phase := .leaving (.error .canceled) } }
  | _ => none

/-- The deferred critical section. -/
def leave (s : SnapshotStore β) (i : Nat) : Option (SnapshotStore β) := do
  let call ← s.calls[i]?
  match call.phase with
  | .leaving result =>
    some { s with calls := s.calls.set i { call with phase := .returned result }, watchers := s.watchers.erase i }
  | _ => none

def step [DecidableEq β] (validBody : β → Bool) (s : SnapshotStore β) : Action β → Option (SnapshotStore β)
  | .publish snapshot order => s.stored (LocalAPI.publish validBody s.current snapshot) order
  | .update observedAt callback order => s.stored (LocalAPI.update validBody s.current observedAt callback) order
  | .notify i => s.notify i
  | .watch after => some (s.watch after)
  | .receive i => s.receive i
  | .cancel i => s.cancel i
  | .leave i => s.leave i

/-! ### Generations -/

variable {validBody : β → Bool} {s t : SnapshotStore β} {snapshot : Snapshot β} {order : List Nat}

theorem validate_generation (h : snapshot.validate validBody = true) : 0 < snapshot.generation := by
  simp only [Snapshot.validate, Bool.and_eq_true, bne_iff_ne] at h
  exact UInt64.pos_iff_ne_zero.mpr h.1.1.2

theorem generation_of_publish [DecidableEq β]
    (h : LocalAPI.publish validBody s.current given = .ok (some snapshot)) :
    s.generation < snapshot.generation := by
  unfold LocalAPI.publish at h
  split at h
  · cases h
  · next hvalid =>
    have hgiven : given.validate validBody = true := by simpa using hvalid
    have hpos : 0 < given.generation := validate_generation hgiven
    split at h
    · next hnone =>
      cases h
      simpa [generation, hnone] using hpos
    · next current hcur =>
      split at h
      · cases h
      · next hlt =>
        split at h
        · split at h <;> cases h
        · next hne =>
          cases h
          simp only [generation, hcur, Option.map_some, Option.getD_some]
          grind

theorem nextGeneration_gt {current : Option (Snapshot β)} (h : nextGeneration current = some next) :
    (current.map (·.generation)).getD 0 < next := by
  cases current with
  | none =>
    cases h
    show (0 : UInt64) < 1
    decide
  | some current =>
    simp only [nextGeneration] at h
    split at h
    · cases h
    · next hmax =>
      cases h
      grind

theorem generation_of_update [DecidableEq β] {callback : Option (Snapshot β) → Option (Snapshot β)}
    (h : LocalAPI.update validBody s.current observedAt callback = .ok (some snapshot)) :
    s.generation < snapshot.generation := by
  unfold LocalAPI.update at h
  split at h
  · cases h
  · split at h
    · cases h
    · dsimp only at h
      split at h
      · cases h
      · split at h
        · cases h
        · next next hnext =>
          split at h
          · cases h
            exact nextGeneration_gt hnext
          · cases h

/-- What a step does to the store: a publisher stores a newer snapshot and takes the
registered watchers with it, or the stored snapshot stays. -/
inductive Stored (s : SnapshotStore β) (order : List Nat) : SnapshotStore β → Prop
  | unchanged : Stored s order s
  | newer (snapshot : Snapshot β) : s.generation < snapshot.generation → order.Perm s.watchers →
      Stored s order { s with current := some snapshot,
                              publishers := s.publishers ++ [{ snapshot := snapshot, rest := order }] }

theorem stored_cases
    (hnewer : ∀ snapshot, result = .ok (some snapshot) → s.generation < snapshot.generation)
    (h : s.stored result order = some t) : Stored s order t := by
  unfold stored at h
  split at h
  · next snapshot =>
    split at h
    · next hperm =>
      cases h
      exact .newer snapshot (hnewer snapshot rfl) hperm
    · cases h
  · cases h
    exact .unchanged

/-! ### One channel operation -/

variable {turn : Turn} {updates : Option (Snapshot β)}

theorem notifyOne_held (h : (notifyOne snapshot turn updates).1 = some held) :
    held = snapshot ∨ updates = some held := by
  cases turn <;> cases updates <;> simp_all [notifyOne]

/-- A publisher that goes on to the next watcher leaves a full channel behind. -/
theorem notifyOne_done (h : (notifyOne snapshot turn updates).2 = none) :
    (notifyOne snapshot turn updates).1.isSome = true := by
  cases turn <;> cases updates <;> simp_all [notifyOne]

/-- Publisher `i`, which is `x` before and `y` after, works on the channel of its first
watcher `w`, the call `c`. -/
structure Notified (s t : SnapshotStore β) (i w : Nat) (x y : Publisher β) (c : Call β)
    (updates : Option (Snapshot β)) : Prop where
  publisher : s.publishers[i]? = some x
  target : w ∈ x.rest
  call : s.calls[w]? = some c
  calls : t.calls = s.calls.set w { c with updates := updates }
  publishers : t.publishers = s.publishers.set i y
  current : t.current = s.current
  watchers : t.watchers = s.watchers
  snapshot : y.snapshot = x.snapshot
  held : ∀ held, updates = some held → held = x.snapshot ∨ c.updates = some held
  rest : y.rest = x.rest ∨ (x.rest = w :: y.rest ∧ updates.isSome = true)

theorem notify_cases (h : s.notify i = some t) : ∃ w x y c updates, Notified s t i w x y c updates := by
  simp only [notify, Option.bind_eq_bind, Option.bind_eq_some_iff, Option.some.injEq] at h
  obtain ⟨publisher, hpub, target, htgt, call, hcall, rfl⟩ := h
  obtain ⟨tail, hrest⟩ := List.head?_eq_some_iff.mp htgt
  have hmem : target ∈ publisher.rest := by simp [hrest]
  refine ⟨target, publisher, _, call, _, hpub, hmem, hcall, rfl, rfl, rfl, rfl, ?_, fun _ => notifyOne_held, ?_⟩
  · split <;> rfl
  · split
    · exact Or.inl rfl
    · next hdone => exact Or.inr ⟨by simp [hrest], notifyOne_done hdone⟩

end SnapshotStore

end Paperboat.LocalAPI
