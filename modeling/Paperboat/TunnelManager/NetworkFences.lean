import Paperboat.TunnelManager.Frames

/-! Network fences between tunnels. An operation on one tunnel leaves the runtime, the
session and the network state of the others as they are; what it can raise is the watermark
of the host, and with it the fence of every tunnel. -/

namespace Paperboat.TunnelManager

open HostState Sections Prog Transition

/-! ### What an operation on one tunnel touches -/

/-- Nothing but this tunnel has changed, and the watermark was at most lifted to this generation. -/
structure Elsewhere (tunnelID : String) (generation : UInt64) (m n : Manager) : Prop where
  started : m.started = n.started
  closed : m.closed = n.closed
  state : m.state = n.state
  revision : m.revision = n.revision
  bindings : m.sessionBindings = n.sessionBindings
  network : ∀ other, other ≠ tunnelID → m.networkStates other = n.networkStates other
  active : ∀ other, other ≠ tunnelID → m.activeFor other = n.activeFor other
  watermark : n.networkGeneration = m.networkGeneration ∨
    m.networkGeneration ≤ generation ∧ n.networkGeneration = generation

variable (m : Manager) (tunnelID : String) (generation : UInt64)

theorem Elsewhere.refl (m : Manager) : Elsewhere tunnelID generation m m :=
  ⟨rfl, rfl, rfl, rfl, rfl, fun _ _ => rfl, fun _ _ => rfl, .inl rfl⟩

theorem elsewhere_quiet : Quiet (Elsewhere tunnelID generation) where
  refl := Elsewhere.refl tunnelID generation
  note m _ := { Elsewhere.refl tunnelID generation m with }
  activating m _ := { Elsewhere.refl tunnelID generation m with }

theorem Elsewhere.trans {tunnelID : String} {generation : UInt64} {m n k : Manager} (h : Elsewhere tunnelID generation m n)
    (h' : Elsewhere tunnelID generation n k) : Elsewhere tunnelID generation m k where
  started := h.started.trans h'.started
  closed := h.closed.trans h'.closed
  state := h.state.trans h'.state
  revision := h.revision.trans h'.revision
  bindings := h.bindings.trans h'.bindings
  network other hne := (h.network other hne).trans (h'.network other hne)
  active other hne := (h.active other hne).trans (h'.active other hne)
  watermark := by
    obtain heq | ⟨hle, heq⟩ := h.watermark <;> obtain heq' | ⟨hle', heq'⟩ := h'.watermark <;> simp_all

theorem elsewhere_setNetworkState (s : NetworkRecoveryState) :
    Elsewhere tunnelID generation m (m.setNetworkState tunnelID s) :=
  { Elsewhere.refl tunnelID generation m with network := fun _ hne => (m.setNetworkState_of_ne s hne).symm }

theorem elsewhere_insert (r : Runtime) :
    Elsewhere tunnelID generation m { m with active := m.active.insert tunnelID r } :=
  { Elsewhere.refl tunnelID generation m with active := fun _ hne => (AList.lookup_insert_ne hne).symm }

theorem elsewhere_raise (h : m.networkGeneration ≤ generation) :
    Elsewhere tunnelID generation m { m with networkGeneration := generation } :=
  { Elsewhere.refl tunnelID generation m with watermark := .inr ⟨h, rfl⟩ }

/-- The watermark where an event does not lower it. -/
theorem elsewhere_raised : Elsewhere tunnelID generation m
    { m with networkGeneration := if m.networkGeneration < generation then generation else m.networkGeneration } := by
  split
  next h => exact elsewhere_raise m tunnelID generation (UInt64.le_of_lt h)
  next => exact .refl tunnelID generation m

theorem elsewhere_swap {tunnelID : String} {generation : UInt64} {network : Option NetworkContext}
    (hnet : OfTunnel tunnelID network)
    (r : Runtime) (m : Manager) : Elsewhere tunnelID generation m (m.swapActiveIfRunning tunnelID r network).2 := by
  have hswapped := (elsewhere_insert m tunnelID generation r).trans
    ((elsewhere_quiet tunnelID generation).note _ (.changed tunnelID (m.activeFor tunnelID) (some r)))
  rw [Manager.swapActiveIfRunning]
  split
  · exact .refl tunnelID generation m
  · cases network with
    | none => exact hswapped
    | some expected =>
      obtain rfl := hnet expected rfl
      dsimp only
      split
      · exact .refl _ _ m
      · exact hswapped.trans (elsewhere_setNetworkState _ _ _ _)

theorem elsewhere_observed : Elsewhere tunnelID generation m (m.observed tunnelID generation) := by
  rw [Manager.observed]
  split
  · exact (elsewhere_raised m tunnelID generation).trans (elsewhere_setNetworkState _ _ _ _)
  · exact .refl tunnelID generation m

omit m tunnelID generation in
theorem elsewhere_admit (m : Manager) (tunnelID connectorID : String) (generation : UInt64) :
    Elsewhere tunnelID generation m (m.admitReplacement tunnelID connectorID generation).2 := by
  have hrefl := Elsewhere.refl tunnelID generation m
  rw [Manager.admitReplacement]
  split
  · exact hrefl
  · have hobs := elsewhere_observed m tunnelID generation
    split
    · cases m.activeFor tunnelID with
      | none => exact hobs
      | some r =>
        dsimp only
        split
        · exact hobs
        · exact hobs
    · split
      · exact hobs
      · exact hobs.trans (elsewhere_setNetworkState _ _ _ _)

theorem elsewhere_clear : Elsewhere tunnelID generation m (m.clearNetworkInFlight tunnelID generation) := by
  rw [Manager.clearNetworkInFlight]
  split
  · exact .refl tunnelID generation m
  · split
    · exact elsewhere_setNetworkState _ _ _ _
    · exact .refl tunnelID generation m

theorem elsewhere_observeTunnel :
    Elsewhere tunnelID generation m (m.observeTunnelNetworkGeneration tunnelID generation).2 := by
  rw [Manager.observeTunnelNetworkGeneration]
  split
  · exact .refl tunnelID generation m
  · next h =>
    simp only [not_or, UInt64.not_lt] at h
    exact (elsewhere_raise m tunnelID generation h.2.2.2.1).trans (elsewhere_setNetworkState _ _ _ _)

theorem elsewhere_observeForTunnel :
    Elsewhere tunnelID generation m (m.observeNetworkGenerationForTunnel tunnelID generation).2 := by
  rw [Manager.observeNetworkGenerationForTunnel]
  split
  · exact .refl tunnelID generation m
  · split
    · exact (elsewhere_setNetworkState m tunnelID generation _).trans (elsewhere_raised _ tunnelID generation)
    · exact elsewhere_raised m tunnelID generation

theorem within_replaceAdmitted (config : Config) (tunnelID connectorID : String) (generation : UInt64) :
    (replaceAdmitted config tunnelID connectorID generation).within (Elsewhere tunnelID generation) := by
  have hswap : ∀ m r, Elsewhere tunnelID generation m _ := fun m r => elsewhere_swap (ofTunnel_some tunnelID generation) r m
  exact ((elsewhere_quiet tunnelID generation).sectional hswap).replaceAdmitted config connectorID

/-- Every section of a replacement keeps to its tunnel. -/
theorem within_replaceNetworkCarrier (config : Config) (tunnelID connectorID : String) (generation : UInt64) :
    (replaceNetworkCarrier config tunnelID connectorID generation).within (Elsewhere tunnelID generation) := by
  have hquiet := elsewhere_quiet tunnelID generation
  refine within_bind (within_call hquiet.refl) fun expiry => within_bind (within_call hquiet.refl) fun before => ?_
  split
  · trivial
  · split
    · trivial
    · trivial
    · refine within_bind (within_update fun m => elsewhere_admit m _ _ _) fun admission => ?_
      cases admission with
      | refused e => trivial
      | replayed r => exact within_bind (hquiet.log _) fun _ => trivial
      | admitted =>
        refine within_bind (within_replaceAdmitted config tunnelID connectorID generation) fun result => ?_
        cases result with
        | ok r => exact within_bind (hquiet.log _) fun _ => trivial
        | error e => exact within_bind (within_modify fun m => elsewhere_clear m _ _) fun _ => trivial

theorem Elsewhere.watermark_le {tunnelID : String} {generation : UInt64} {m n : Manager}
    (h : Elsewhere tunnelID generation m n) : m.networkGeneration ≤ n.networkGeneration := by
  obtain heq | ⟨hle, heq⟩ := h.watermark
  · exact heq ▸ UInt64.le_refl _
  · exact heq ▸ hle

/-! ### What a replacement looks at -/

/-- The managers look alike for this tunnel, but perhaps for the watermark. -/
structure View (tunnelID : String) (m n : Manager) : Prop where
  started : m.started = n.started
  closed : m.closed = n.closed
  state : m.state = n.state
  revision : m.revision = n.revision
  binding : m.sessionBindings tunnelID = n.sessionBindings tunnelID
  network : m.networkStates tunnelID = n.networkStates tunnelID
  active : m.activeFor tunnelID = n.activeFor tunnelID

theorem Elsewhere.view {tunnelID other : String} {generation : UInt64} {m n : Manager}
    (h : Elsewhere tunnelID generation m n)
    (hne : other ≠ tunnelID) : View other m n :=
  { h with binding := congrFun h.bindings other, network := h.network other hne, active := h.active other hne }

theorem view_alike : Alike (View tunnelID) tunnelID where
  note _ _ _ h := { h with }
  activating _ _ _ h := { h with }
  started _ _ h := h.started
  closed _ _ h := h.closed
  durable _ _ h := ⟨h.state, h.revision⟩
  binding _ _ h := h.binding
  network _ _ h := h.network
  active _ _ h := h.active
  insert m n r h := by
    refine { h with active := ?_ }
    rw [Manager.activeFor, Manager.activeFor, AList.lookup_insert, AList.lookup_insert]
  setNetworkState m n s h := by
    refine { h with network := ?_ }
    rw [Manager.setNetworkState_self, Manager.setNetworkState_self]

/-- Behind the fence, a replacement goes the same way wherever its tunnel looks the same. -/
theorem lockstep_replaceAdmitted (config : Config) (tunnelID connectorID : String) (generation : UInt64) :
    Lockstep (View tunnelID) (replaceAdmitted config tunnelID connectorID generation)
      (replaceAdmitted config tunnelID connectorID generation) :=
  ((view_alike tunnelID).sectional (ofTunnel_some _ _)).replaceAdmitted config connectorID

theorem view_observed {tunnelID : String} {m n : Manager} (h : View tunnelID m n) (generation : UInt64) :
    View tunnelID (m.observed tunnelID generation) (n.observed tunnelID generation) := by
  rw [Manager.observed, Manager.observed, (view_alike tunnelID).networkState h]
  split
  · refine (view_alike tunnelID).setNetworkState _ _ _ ?_
    exact { h with }
  · exact h

/-- The fence of the host, the watermark, is the one thing that the view leaves out. -/
theorem admit_view {tunnelID : String} (connectorID : String) {generation : UInt64} {m n : Manager} (h : View tunnelID m n)
    (hm : ¬ generation < m.networkGeneration) (hn : ¬ generation < n.networkGeneration) :
    (m.admitReplacement tunnelID connectorID generation).1 = (n.admitReplacement tunnelID connectorID generation).1 ∧
      View tunnelID (m.admitReplacement tunnelID connectorID generation).2
        (n.admitReplacement tunnelID connectorID generation).2 := by
  have halike := view_alike tunnelID
  have hobs := view_observed h generation
  rw [Manager.admitReplacement, Manager.admitReplacement]
  rw [h.closed, halike.networkState h, h.active]
  simp only [hm, hn, false_or]
  split
  · exact ⟨rfl, h⟩
  · split
    · cases n.activeFor tunnelID with
      | none => exact ⟨rfl, hobs⟩
      | some r =>
        dsimp only
        split
        · exact ⟨rfl, hobs⟩
        · exact ⟨rfl, hobs⟩
    · split
      · exact ⟨rfl, hobs⟩
      · refine ⟨rfl, ?_⟩
        rw [halike.networkState hobs]
        exact halike.setNetworkState _ _ _ hobs

/-! ### Verdicts -/

section Verdicts

variable {config : Config} {answer : ∀ q, Answer q} {tunnelID connectorID : String} {generation : UInt64}
  {m n : Manager}

/-- The call gets as far as the fence. -/
def Reaches (answer : ∀ q, Answer q) (tunnelID connectorID : String) (generation : UInt64) : Prop :=
  ¬ (tunnelID = "" ∨ connectorID = "" ∨ generation = 0) ∧
    answer (.ctx (.application tunnelID false (some generation)) .entry) = none ∧ answer .startedBefore = true

/-- `ReplaceNetworkCarrier` ends in a generation conflict. -/
def Refused (config : Config) (answer : ∀ q, Answer q) (m : Manager) (tunnelID connectorID : String)
    (generation : UInt64) : Prop :=
  ∃ e, ((replaceNetworkCarrier config tunnelID connectorID generation).exec answer m).1 = .error e ∧
    e.is .generationConflict = true

section

variable (h : Reaches answer tunnelID connectorID generation)

include h

/-- The answer of a call that gets as far as the fence. -/
theorem replace_result :
    ((replaceNetworkCarrier config tunnelID connectorID generation).exec answer m).1 =
      match (m.admitReplacement tunnelID connectorID generation).1 with
      | .refused e => .error e
      | .replayed r => .ok r
      | .admitted => ((replaceAdmitted config tunnelID connectorID generation).exec answer
          (m.admitReplacement tunnelID connectorID generation).2).1 := by
  obtain ⟨hargs, hctx, hbef⟩ := h
  have hlive : (ctxErr (.application tunnelID false (some generation)) .entry).exec answer m = (none, m) := by
    rw [← hctx]
    rfl
  have hstart : (Prog.call (A := Answer) Query.startedBefore : M Bool).exec answer m = (true, m) := by
    rw [← hbef]
    rfl
  rw [replaceNetworkCarrier]
  simp only [bind_eq, exec_bind, hlive, hstart, if_neg hargs]
  change (Prog.exec answer (match (m.admitReplacement tunnelID connectorID generation).1 with
    | .refused e => _ | .replayed r => _ | .admitted => _) (m.admitReplacement tunnelID connectorID generation).2).1 = _
  split
  · rfl
  · rfl
  · rw [exec_bind]
    generalize (replaceAdmitted config tunnelID connectorID generation).exec answer _ = result
    obtain ⟨result, m'⟩ := result
    cases result with
    | ok r => rfl
    | error e => rfl

theorem refused_of_lt (hlt : generation < m.networkGeneration) :
    Refused config answer m tunnelID connectorID generation := by
  have hadmit : (m.admitReplacement tunnelID connectorID generation).1 =
      .refused ErrKind.generationConflict.err := by
    rw [Manager.admitReplacement]
    rw [if_pos (.inr (.inl hlt))]
  refine ⟨ErrKind.generationConflict.err, ?_, by decide⟩
  rw [replace_result h, hadmit]

theorem refused_congr (hview : View tunnelID m n) (hm : ¬ generation < m.networkGeneration)
    (hn : ¬ generation < n.networkGeneration) :
    Refused config answer m tunnelID connectorID generation ↔
      Refused config answer n tunnelID connectorID generation := by
  obtain ⟨hadmission, hafter⟩ := admit_view connectorID hview hm hn
  have hrest := (Lockstep.exec (lockstep_replaceAdmitted config tunnelID connectorID generation) answer hafter).1
  rw [Refused, Refused, replace_result h, replace_result h, hadmission, hrest]

end

/-- A call that does not get there ends in some other way. -/
theorem not_refused_of_not_reaches (h : ¬ Reaches answer tunnelID connectorID generation) :
    ¬ Refused config answer m tunnelID connectorID generation := by
  rintro ⟨e, he, hconflict⟩
  have hexp : ∀ x : Expiry, x.err.is .generationConflict = false := by
    intro x
    cases x <;> decide
  rw [replaceNetworkCarrier] at he
  simp only [bind_eq, exec_bind] at he
  split at he
  next =>
    cases he
    exact absurd hconflict (by decide)
  next hargs =>
    split at he
    next _ x _ =>
      cases he
      rw [hexp x] at hconflict
      cases hconflict
    next =>
      cases he
      exact absurd hconflict (by decide)
    next hctx hbef => exact h ⟨hargs, hctx, hbef⟩

section

variable {changed : String} {raised : UInt64} (h : Elsewhere changed raised m n) (hne : tunnelID ≠ changed)

include h hne

/-- A change elsewhere moves a verdict only by lifting the watermark over the generation. -/
theorem refused_iff_of_elsewhere : (Refused config answer n tunnelID connectorID generation ↔
        Refused config answer m tunnelID connectorID generation) ↔
      ¬ (Reaches answer tunnelID connectorID generation ∧ generation < n.networkGeneration ∧
        ¬ Refused config answer m tunnelID connectorID generation) := by
  constructor
  · rintro hiff ⟨hreaches, hlt, hnot⟩
    exact hnot (hiff.mp (refused_of_lt hreaches hlt))
  · intro hcond
    by_cases hreaches : Reaches answer tunnelID connectorID generation
    · by_cases hlt : generation < n.networkGeneration
      · have hrefused : Refused config answer m tunnelID connectorID generation := by
          by_contra hnot
          exact hcond ⟨hreaches, hlt, hnot⟩
        exact iff_of_true (refused_of_lt hreaches hlt) hrefused
      · have hm : ¬ generation < m.networkGeneration := fun hm =>
          hlt (UInt64.lt_of_lt_of_le hm h.watermark_le)
        exact (refused_congr hreaches (h.view hne) hm hlt).symm
    · exact iff_of_false (not_refused_of_not_reaches hreaches) (not_refused_of_not_reaches hreaches)

theorem observe_iff_of_elsewhere : ((n.observeTunnelNetworkGeneration tunnelID generation).1 =
        (m.observeTunnelNetworkGeneration tunnelID generation).1 ↔
      ¬ (generation < n.networkGeneration ∧ (m.observeTunnelNetworkGeneration tunnelID generation).1 = true)) ∧
    ((n.observeNetworkGenerationForTunnel tunnelID generation).1 =
        (m.observeNetworkGenerationForTunnel tunnelID generation).1 ↔
      ¬ (generation < n.networkGeneration ∧ (m.observeNetworkGenerationForTunnel tunnelID generation).1 = true)) := by
  have hstate := (view_alike tunnelID).networkState (h.view hne)
  have hlt : generation < m.networkGeneration → generation < n.networkGeneration := fun hm =>
    UInt64.lt_of_lt_of_le hm h.watermark_le
  simp only [Manager.observeTunnelNetworkGeneration, Manager.observeNetworkGenerationForTunnel, ← h.closed, ← hstate]
  by_cases hn : generation < n.networkGeneration
  · simp only [hn, true_or, or_true, if_true, true_and]
    constructor
    · split <;> simp
    · split <;> simp
  · simp only [hn, mt hlt hn, false_or, false_and, not_false_eq_true, iff_true]
    constructor
    · split <;> rfl
    · split <;> rfl

end

end Verdicts

/-! ### Over all runs -/

/-- The step belongs to an operation that names this tunnel only. -/
def NamesOnly (s : System) : Action → Prop
  | .observeTunnel t _ => t = tunnelID
  | .observeForTunnel t _ => t = tunnelID
  | .begin (.replace t _ _) => t = tunnelID
  | .resume _ => ∃ rest connectorID generation, s.op = some ⟨.replace tunnelID connectorID generation, rest⟩
  | .finish => ∃ rest connectorID generation, s.op = some ⟨.replace tunnelID connectorID generation, rest⟩
  | _ => False

/-- The generation of the operation, where the step brings it to the watermark of the host. -/
def System.lifts (s : System) : Action → Option UInt64
  | .observeTunnel t generation => if (s.m.observeTunnelNetworkGeneration t generation).1 then some generation else none
  | .observeForTunnel t generation =>
    if (s.m.observeNetworkGenerationForTunnel t generation).1 then some generation else none
  | .resume answer =>
    match s.op with
    | some ⟨.replace _ _ generation, rest⟩ =>
      if (rest.resume answer s.m).1.networkGeneration = s.m.networkGeneration then none else some generation
    | _ => none
  | _ => none

/-- A replacement under way keeps to its tunnel. -/
def Confined (s : System) : Prop :=
  ∀ tunnelID connectorID generation rest, s.op = some ⟨.replace tunnelID connectorID generation, rest⟩ →
    rest.within (Elsewhere tunnelID generation)

theorem confined_begin {config : Config} {s : System} {call : Call} :
    Confined { s with op := some ⟨call, call.program config⟩ } := by
  rintro tunnelID connectorID generation rest ⟨⟩
  exact within_bind (within_replaceNetworkCarrier config tunnelID connectorID generation) fun _ => trivial

/-- What an operation leaves to itself stays, or is gone. -/
theorem confined_of_op (h : Confined s) (hop : t.op = s.op ∨ t.op = none) : Confined t := by
  intro tunnelID connectorID generation rest hrest
  rcases hop with heq | hnone
  · exact h _ _ _ _ (heq.symm.trans hrest)
  · cases hnone.symm.trans hrest

section

variable {config : Config} {s t : System} {a : Action} (h : Confined s)
  (hstep : step config s a = some t)

include h hstep

theorem confined_step : Confined t := by
  obtain hop | ⟨call, rfl⟩ | ⟨answer, op, rfl, hop, rfl⟩ := op_step hstep
  · exact confined_of_op h hop
  · exact confined_begin
  · obtain ⟨call, rest⟩ := op
    rintro tunnelID connectorID generation _ ⟨⟩
    exact (within_resume (Elsewhere.refl tunnelID generation) (h _ _ _ _ hop) answer s.m).2

omit h hstep in
theorem confined_of_reach {config : Config} (h₀ : Initial s₀)
    (h : Reach (step config) Always s₀ s) : Confined s := by
  refine h.invariant ?_ fun hx _ hstep => confined_step hx hstep
  obtain ⟨state, revision, rfl⟩ := h₀
  rintro _ _ _ _ ⟨⟩

/-- A step of an operation on one tunnel leaves everything else, but for the watermark. -/
theorem elsewhere_step {tunnelID : String} (hnames : NamesOnly tunnelID s a) :
    ∃ generation, Elsewhere tunnelID generation s.m t.m ∧
      (s.lifts a = none ∧ t.m.networkGeneration = s.m.networkGeneration ∨
        s.lifts a = some generation ∧ t.m.networkGeneration = generation) := by
  have hrefl := Elsewhere.refl tunnelID
  cases a with
  | observeTunnel other generation =>
    obtain rfl := hnames
    cases hstep
    refine ⟨generation, elsewhere_observeTunnel _ _ _, ?_⟩
    rw [System.lifts, Manager.observeTunnelNetworkGeneration]
    split
    · exact .inl ⟨rfl, rfl⟩
    · exact .inr ⟨rfl, rfl⟩
  | observeForTunnel other generation =>
    obtain rfl := hnames
    cases hstep
    refine ⟨generation, elsewhere_observeForTunnel _ _ _, ?_⟩
    rw [System.lifts, Manager.observeNetworkGenerationForTunnel]
    split
    · exact .inl ⟨rfl, rfl⟩
    · next h =>
      simp only [not_or, UInt64.not_lt] at h
      refine .inr ⟨rfl, ?_⟩
      dsimp only
      split
      · rfl
      · next hle => exact UInt64.le_antisymm h.2.2.2.1 (UInt64.not_lt.mp hle)
  | begin call =>
    simp only [step] at hstep
    split at hstep
    · cases hstep; exact ⟨0, hrefl 0 _, .inl ⟨rfl, rfl⟩⟩
    · cases hstep
  | resume answer =>
    obtain ⟨rest, connectorID, generation, hop⟩ := hnames
    simp only [step, hop] at hstep
    cases hstep
    have helse := (within_resume (hrefl generation) (h _ _ _ _ hop) answer s.m).1
    refine ⟨generation, helse, ?_⟩
    simp only [System.lifts, hop]
    split
    next heq => exact .inl ⟨rfl, heq⟩
    next hne => exact .inr ⟨rfl, (helse.watermark.resolve_left hne).2⟩
  | finish =>
    obtain ⟨rest, connectorID, generation, hop⟩ := hnames
    simp only [step, hop] at hstep
    split at hstep
    next call ok heq =>
      cases heq
      cases hstep
      exact ⟨0, hrefl 0 _, .inl ⟨rfl, rfl⟩⟩
    next => cases hstep
  | _ => exact hnames.elim

end

/-- In every run, a step of an operation that names only one tunnel changes a verdict for
another tunnel just where it brings a generation to the watermark of the host that is above one which
the other tunnel admits. -/
theorem fences_disturbed_iff {config : Config} {s₀ s t : System} {a : Action} {named : String} (h₀ : Initial s₀)
    (h : Reach (step config) Always s₀ s) (hstep : step config s a = some t) (hnames : NamesOnly named s a)
    {tunnelID : String} (hne : tunnelID ≠ named) (generation : UInt64) :
    (∀ answer connectorID, (Refused config answer t.m tunnelID connectorID generation ↔
          Refused config answer s.m tunnelID connectorID generation) ↔
        ¬ (Reaches answer tunnelID connectorID generation ∧ (∃ g ∈ s.lifts a, generation < g) ∧
          ¬ Refused config answer s.m tunnelID connectorID generation)) ∧
      ((t.m.observeTunnelNetworkGeneration tunnelID generation).1 =
          (s.m.observeTunnelNetworkGeneration tunnelID generation).1 ↔
        ¬ ((∃ g ∈ s.lifts a, generation < g) ∧
          (s.m.observeTunnelNetworkGeneration tunnelID generation).1 = true)) ∧
      ((t.m.observeNetworkGenerationForTunnel tunnelID generation).1 =
          (s.m.observeNetworkGenerationForTunnel tunnelID generation).1 ↔
        ¬ ((∃ g ∈ s.lifts a, generation < g) ∧
          (s.m.observeNetworkGenerationForTunnel tunnelID generation).1 = true)) := by
  obtain ⟨raised, helse, hlifts⟩ := elsewhere_step (confined_of_reach h₀ h) hstep hnames
  -- what is admitted before the step is not below the watermark
  have hlt : ∀ {admits : Prop}, (generation < s.m.networkGeneration → ¬ admits) →
      (generation < t.m.networkGeneration ∧ admits ↔ (∃ g ∈ s.lifts a, generation < g) ∧ admits) := by
    intro admits hbelow
    refine and_congr_left fun hadmits => ?_
    obtain ⟨hl, hw⟩ | ⟨hl, hw⟩ := hlifts <;> rw [hl, hw]
    · simpa using UInt64.not_lt.mp fun hs => hbelow hs hadmits
    · simp
  refine ⟨fun answer connectorID => ?_, ?_, ?_⟩
  · rw [refused_iff_of_elsewhere helse hne]
    exact not_congr (and_congr_right fun hreaches => hlt fun hs => not_not.mpr (refused_of_lt hreaches hs))
  · rw [(observe_iff_of_elsewhere helse hne).1, hlt]
    exact fun hs => by simp [Manager.observeTunnelNetworkGeneration, hs]
  · rw [(observe_iff_of_elsewhere helse hne).2, hlt]
    exact fun hs => by simp [Manager.observeNetworkGenerationForTunnel, hs]

namespace Demo

/-- Two tunnels that are wanted, with one connector each. -/
def rules : Rules where
  canonical payload := some payload
  decode payload := some ⟨payload, 1, .active, ""⟩
  contentHash payload := payload
  endpointID _ := none
  credentialReference _ := true
  timeSize _ := none
  stateSize s := some (2 + 400 * s.tunnels.length)
  checksum _ _ _ := ""
  timeSize_le _ _ h := by cases h
  stateSize_empty := rfl

def config : Config := ⟨rules, "h", false⟩

def tunnel (id : String) : Tunnel :=
  { id := id
    stableEndpointID := ""
    desiredState := .active
    desiredGeneration := 1
    appliedGeneration := 0
    desiredSnapshot := ⟨id, 1, id, id⟩
    updatedAt := 1 }

def connector (id : String) : Connector := ⟨"c" ++ id, id, "h", ⟨"", 1⟩, 1, 0⟩

def state : State := { tunnels := [tunnel "a", tunnel "b"], connectors := [connector "a", connector "b"] }

/-- Everything goes well, and the handles are the given one. -/
def answer (handle : ℕ) : ∀ q, Answer q
  | .startedBefore => true
  | .ctx _ _ => none
  | .refresh => none
  | .snapshot _ _ => none
  | .prepare _ => .ok (some ⟨handle⟩)
  | .probe _ _ => (none, true)
  | .activate request _ =>
    (some ⟨handle, request.tunnel.id, request.connector.id, request.snapshot.generation,
      request.snapshot.contentHash, none⟩, none)
  | .commit _ _ => none
  | .close _ => none
  | .clock _ => 1

def fresh : System := { m := { state := state } }

/-- One call from its beginning to its end. -/
def whole (call : Call) (handle : ℕ) : List Action :=
  .begin call :: List.replicate 60 (.resume (answer handle)) ++ [.finish]

theorem reconciled_enabled :
    (run (step config) fresh (.start false :: whole .reconcile 1)).isSome := by decide +kernel

/-- Both tunnels have been brought up. -/
def reconciled : System := final (step config) fresh (.start false :: whole .reconcile 1) reconciled_enabled

theorem reconciled_replaces :
    ((replaceNetworkCarrier config "a" "ca" 5).exec (answer 2) reconciled.m).1.isOk = true := by decide +kernel

theorem reaches : Reaches (answer 2) "a" "ca" 5 := ⟨by decide, rfl, rfl⟩

end Demo

/-- An event for one tunnel with generation 10 makes the other tunnel refuse generation 5. -/
theorem other_tunnel_fenced : ∃ s t, Reach (step Demo.config) Always Demo.fresh s ∧
    step Demo.config s (.observeTunnel "b" 10) = some t ∧
    ¬ Refused Demo.config (Demo.answer 2) s.m "a" "ca" 5 ∧ Refused Demo.config (Demo.answer 2) t.m "a" "ca" 5 := by
  refine ⟨Demo.reconciled, _, reach_final _ Demo.reconciled_enabled, rfl, ?_, ?_⟩
  · rintro ⟨e, he, -⟩
    have hok := Demo.reconciled_replaces
    rw [he] at hok
    cases hok
  · exact refused_of_lt Demo.reaches (by decide +kernel)

/-- An event for one tunnel with generation 4 leaves the other tunnel's generation 5. -/
theorem other_tunnel_kept : ∃ t, step Demo.config Demo.reconciled (.observeTunnel "b" 4) = some t ∧
    (Refused Demo.config (Demo.answer 2) t.m "a" "ca" 5 ↔
      Refused Demo.config (Demo.answer 2) Demo.reconciled.m "a" "ca" 5) := by
  have hstep : step Demo.config Demo.reconciled (.observeTunnel "b" 4) = some _ := rfl
  have hnames : NamesOnly "b" Demo.reconciled (.observeTunnel "b" 4) := rfl
  have hreach := reach_final _ Demo.reconciled_enabled
  have hne : "a" ≠ "b" := by decide
  refine ⟨_, hstep, ((fences_disturbed_iff ⟨_, _, rfl⟩ hreach hstep hnames hne 5).1 (Demo.answer 2) "ca").mpr ?_⟩
  rintro ⟨-, ⟨g, hg, hlt⟩, -⟩
  have hlifts : Demo.reconciled.lifts (.observeTunnel "b" 4) = some 4 := by decide +kernel
  cases hlifts.symm.trans hg
  exact absurd hlt (by decide)

end Paperboat.TunnelManager
