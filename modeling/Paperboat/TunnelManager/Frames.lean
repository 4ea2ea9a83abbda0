import Paperboat.TunnelManager.System

/-! What the sections of a carrier replacement are, and what follows for all of them. A
property of programs that sequencing keeps and that these sections have holds of the whole
replacement. One such property is that every section keeps a relation between managers that
ignores the log and the activation lock; the other is that a replacement goes the same way
from managers that look alike for its tunnel. -/

namespace Paperboat.TunnelManager

open HostState Sections Prog

/-- A property that the sections of a replacement for the tunnel have. -/
structure Sectional (K : ∀ {α : Type}, M α → Prop) (tunnelID : String) (network : Option NetworkContext) :
    Prop extends Sequential K where
  log : ∀ e, K (log e)
  closeActive : ∀ r, K (closeActive r)
  callPrepare : ∀ request, K (callPrepare request)
  callActivate : ∀ request c, K (callActivate request c)
  lockActivation : K (Prog.update fun m => (m.running, { m with activating := true }))
  unlockActivation : K unlockActivation
  readState : ∀ site attempt, K (readState site attempt)
  active : ∀ {α : Type} (f : Option Runtime → α), K (Prog.read fun m => f (m.activeFor tunnelID))
  accepts : ∀ (request : ApplyRequest) r, request.tunnel.id = tunnelID → K (Prog.read fun m => m.accepts request r)
  current : K (Prog.read fun m => network.all fun expected =>
    m.networkGenerationCurrent expected.tunnelID expected.generation)
  swap : ∀ r, K (Prog.update fun m => m.swapActiveIfRunning tunnelID r network)

namespace Sectional

variable {K : ∀ {α : Type}, M α → Prop} {tunnelID : String} {network : Option NetworkContext}
  (h : Sectional K tunnelID network)

include h

theorem report (t : Tunnel) (connectorID : String) (code : Code) (retryable : Bool) (err : Option Err) :
    K (report t connectorID code retryable err) := h.log _

theorem retire (old : Option Runtime) (r : Runtime) : K (retire old r) := by
  cases old with
  | none => exact h.done _
  | some previous =>
    rw [TunnelManager.retire]
    split
    · exact h.done _
    · exact h.bind (h.log _) fun _ => h.bind (h.closeActive _) fun _ => h.done _

variable {t : Tunnel}

theorem publish (ht : t.id = tunnelID) (connector : Connector) (recovery : Bool) (r : Runtime) :
    K (publish t connector recovery network r) := by
  refine h.bind h.unlockActivation fun _ => h.bind (ht ▸ h.swap r) fun outcome => ?_
  cases outcome with
  | error swapErr => exact h.bind (h.closeActive r) fun _ => h.done _
  | ok old => exact h.bind (h.retire old r) fun _ => h.bind (h.report _ _ _ _ _) fun _ => h.done _

theorem refuse (request : ApplyRequest) (c : Candidate) (active : Option Runtime) (failure : Option Err) :
    K (refuse request c active failure) := by
  refine h.bind h.unlockActivation fun _ => h.bind ?_ fun _ =>
    h.bind (h.log _) fun _ => h.bind (h.report _ _ _ _ _) fun _ => h.done _
  cases active with
  | none => exact h.done _
  | some r => exact h.bind (h.closeActive r) fun _ => h.done _

theorem discard (r : Runtime) (e : Err) : K (discard r e) :=
  h.bind h.unlockActivation fun _ => h.bind (h.closeActive r) fun _ => h.done _

/-- Without promotion. -/
theorem activate {request : ApplyRequest} (ht : request.tunnel.id = tunnelID) (c : Candidate) :
    K (activate request c false network) := by
  refine h.bind h.lockActivation fun running => h.bind (h.call _) fun expiry => ?_
  split
  · exact h.bind h.unlockActivation fun _ => h.bind (h.log _) fun _ => h.done _
  · refine h.bind (h.callActivate request c) fun answer => ?_
    obtain ⟨active, failure⟩ := answer
    cases active with
    | none => exact h.refuse request c none failure
    | some r =>
      refine h.bind (h.accepts request r ht) fun accepted => ?_
      split
      · exact h.refuse request c (some r) failure
      · refine h.bind (h.call _) fun expiry => ?_
        cases expiry with
        | some expiry => exact h.discard r _
        | none =>
          refine h.bind h.current fun current => ?_
          split
          · exact h.discard r _
          · exact h.publish ht _ _ r

theorem reportPrepare (t : Tunnel) (connector : Connector) (e : Err) : K (reportPrepare t connector e) := by
  rw [TunnelManager.reportPrepare]
  split
  · exact h.done _
  · split
    · exact h.report _ _ _ _ _
    · exact h.report _ _ _ _ _

theorem apply (config : Config) (ht : t.id = tunnelID) (connector : Connector)
    (snapshot : ConfigSnapshot) (recovery : Bool) :
    K (apply config t connector snapshot recovery false network) := by
  rw [TunnelManager.apply]
  split
  · exact h.bind (h.report _ _ _ _ _) fun _ => h.done _
  · refine h.bind (h.callPrepare _) fun answer => ?_
    match answer with
    | .error e => exact h.bind (h.reportPrepare t connector e) fun _ => h.done _
    | .ok none => exact h.bind (h.report _ _ _ _ _) fun _ => h.done _
    | .ok (some c) =>
      refine h.bind (h.call _) fun probe => h.bind (h.call _) fun expiry => ?_
      cases expiry with
      | some expiry => exact h.bind (h.log _) fun _ => h.done _
      | none =>
        dsimp only
        split
        · split
          · exact h.bind (h.report _ _ _ _ _) fun _ => h.activate ht c
          · exact h.bind (h.log _) fun _ => h.bind (h.report _ _ _ _ _) fun _ => h.done _
        · exact h.activate ht c

omit h in
theorem replaceAdmitted (h : Sectional K tunnelID (some ⟨tunnelID, generation⟩)) (config : Config)
    (connectorID : String) : K (replaceAdmitted config tunnelID connectorID generation) := by
  refine h.bind (h.readState _ _) fun answer => ?_
  match answer with
  | .error e => exact h.done _
  | .ok (state, revision) =>
    dsimp only
    split
    · exact h.done _
    next _ t hfind =>
      have hid : t.id = tunnelID := by simpa using List.find?_some hfind
      split
      · exact h.done _
      · split
        · exact h.done _
        · split
          · exact h.done _
          · refine h.bind (h.active _) fun attached => ?_
            split
            · exact h.done _
            · refine h.bind (h.apply config hid _ _ _) fun result => ?_
              cases result with
              | some e => exact h.done _
              | none =>
                refine h.bind (h.active id) fun active => ?_
                cases active with
                | none => exact h.done _
                | some r =>
                  dsimp only
                  split
                  · exact h.done _
                  · exact h.done _

end Sectional

/-- The relation ignores the log and the activation lock. -/
structure Quiet (guar : Manager → Manager → Prop) : Prop where
  refl : ∀ m, guar m m
  note : ∀ m e, guar m (m.note e)
  activating : ∀ m b, guar m { m with activating := b }

variable {guar : Manager → Manager → Prop}

theorem Quiet.log (h : Quiet guar) (e : Event) : (log e).within guar :=
  within_modify fun m => h.note m e

theorem Quiet.sectional (h : Quiet guar)
    (hswap : ∀ m r, guar m (m.swapActiveIfRunning tunnelID r network).2) :
    Sectional (fun p => p.within guar) tunnelID network where
  toSequential := sequential_within h.refl
  log := h.log
  closeActive _ := within_callNoting fun _ m => h.note m _
  callPrepare request := by
    refine within_callNoting fun answer m => ?_
    match answer with
    | .error e => exact h.refl m
    | .ok none => exact h.refl m
    | .ok (some c) => exact h.note m _
  callActivate request c := by
    refine within_callNoting fun answer m => ?_
    cases answer.1 with
    | none => exact h.refl m
    | some r => exact h.note m _
  lockActivation := within_update fun m => h.activating m true
  unlockActivation := within_modify fun m => h.activating m false
  readState site attempt := by
    refine within_bind (within_call h.refl) fun answer => ?_
    cases answer with
    | some e => trivial
    | none => exact within_bind (within_read h.refl) fun _ => trivial
  active _ := within_read h.refl
  accepts _ _ _ := within_read h.refl
  current := within_read h.refl
  swap r := within_update fun m => hswap m r

/-! ### Two managers that look alike for one tunnel -/

/-- The relation ignores the log and the activation lock, and managers in it have the same
durable state, and the same runtime, session and network fence for the tunnel. -/
structure Alike (rel : Manager → Manager → Prop) (tunnelID : String) : Prop where
  note : ∀ m n e, rel m n → rel (m.note e) (n.note e)
  activating : ∀ m n b, rel m n → rel { m with activating := b } { n with activating := b }
  started : ∀ m n, rel m n → m.started = n.started
  closed : ∀ m n, rel m n → m.closed = n.closed
  durable : ∀ m n, rel m n → m.state = n.state ∧ m.revision = n.revision
  binding : ∀ m n, rel m n → m.sessionBindings tunnelID = n.sessionBindings tunnelID
  network : ∀ m n, rel m n → m.networkStates tunnelID = n.networkStates tunnelID
  active : ∀ m n, rel m n → m.activeFor tunnelID = n.activeFor tunnelID
  insert : ∀ m n r, rel m n →
    rel { m with active := m.active.insert tunnelID r } { n with active := n.active.insert tunnelID r }
  setNetworkState : ∀ m n s, rel m n → rel (m.setNetworkState tunnelID s) (n.setNetworkState tunnelID s)

/-- The network context is one of the tunnel. -/
def OfTunnel (tunnelID : String) (network : Option NetworkContext) : Prop :=
  ∀ expected, network = some expected → expected.tunnelID = tunnelID

theorem ofTunnel_some (tunnelID : String) (generation : UInt64) :
    OfTunnel tunnelID (some ⟨tunnelID, generation⟩) := by
  rintro _ ⟨⟩
  rfl

namespace Alike

variable {rel : Manager → Manager → Prop} {tunnelID : String} (h : Alike rel tunnelID)

section

variable {m n : Manager} (hmn : rel m n)

include h hmn

theorem running : m.running = n.running := by
  rw [Manager.running, Manager.running, h.started m n hmn, h.closed m n hmn]

theorem accepts {request : ApplyRequest} (ht : request.tunnel.id = tunnelID) (r : Runtime) :
    m.accepts request r = n.accepts request r := by
  rw [Manager.accepts, Manager.accepts, Manager.activeMatchesControlSession, Manager.activeMatchesControlSession,
    ht, h.binding m n hmn]

theorem generation (generation : UInt64) :
    m.networkGenerationCurrent tunnelID generation = n.networkGenerationCurrent tunnelID generation := by
  rw [Manager.networkGenerationCurrent, Manager.networkGenerationCurrent, h.closed m n hmn, h.network m n hmn]

theorem networkState : m.networkState tunnelID = n.networkState tunnelID := by
  rw [Manager.networkState, Manager.networkState, h.network m n hmn]

theorem swap {network : Option NetworkContext} (hnet : OfTunnel tunnelID network) (r : Runtime) :
    (m.swapActiveIfRunning tunnelID r network).1 = (n.swapActiveIfRunning tunnelID r network).1 ∧
      rel (m.swapActiveIfRunning tunnelID r network).2 (n.swapActiveIfRunning tunnelID r network).2 := by
  have hswapped : ∀ old, rel ({ m with active := m.active.insert tunnelID r }.note (.changed tunnelID old (some r)))
      ({ n with active := n.active.insert tunnelID r }.note (.changed tunnelID old (some r))) :=
    fun old => h.note _ _ _ (h.insert m n r hmn)
  rw [Manager.swapActiveIfRunning, Manager.swapActiveIfRunning, h.running hmn]
  split
  · exact ⟨rfl, hmn⟩
  · rw [h.active m n hmn]
    cases network with
    | none => exact ⟨rfl, hswapped _⟩
    | some expected =>
      obtain rfl := hnet expected rfl
      dsimp only
      rw [h.networkState hmn, h.generation hmn]
      split
      · exact ⟨rfl, hmn⟩
      · exact ⟨rfl, h.setNetworkState _ _ _ (hswapped _)⟩

end

theorem sectional (h : Alike rel tunnelID) {network : Option NetworkContext} (hnet : OfTunnel tunnelID network) :
    Sectional (fun p => Lockstep rel p p) tunnelID network where
  toSequential := sequential_lockstep
  log e := .modify fun m n hmn => h.note m n e hmn
  closeActive _ := .callNoting fun _ m n hmn => h.note m n _ hmn
  callPrepare request := by
    refine .callNoting fun answer m n hmn => ?_
    match answer with
    | .error e => exact hmn
    | .ok none => exact hmn
    | .ok (some c) => exact h.note m n _ hmn
  callActivate request c := by
    refine .callNoting fun answer m n hmn => ?_
    cases answer.1 with
    | none => exact hmn
    | some r => exact h.note m n _ hmn
  lockActivation := .update fun m n hmn => ⟨h.running hmn, h.activating m n true hmn⟩
  unlockActivation := .modify fun m n hmn => h.activating m n false hmn
  readState site attempt := by
    refine Lockstep.call.bind fun answer => ?_
    cases answer with
    | some e => exact .done _
    | none =>
      refine (Lockstep.read fun m n hmn => ?_).bind fun _ => .done _
      rw [(h.durable m n hmn).1, (h.durable m n hmn).2]
  active f := .read fun m n hmn => congrArg f (h.active m n hmn)
  accepts _ r ht := .read fun m n hmn => h.accepts hmn ht r
  current := by
    refine .read fun m n hmn => ?_
    cases network with
    | none => rfl
    | some expected =>
      obtain hid := hnet expected rfl
      rw [Option.all_some, Option.all_some, hid, h.generation hmn]
  swap r := .update fun m n hmn => h.swap hmn hnet r

end Alike

end Paperboat.TunnelManager
