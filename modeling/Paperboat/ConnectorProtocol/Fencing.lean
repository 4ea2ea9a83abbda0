import Paperboat.ConnectorProtocol.ServerMoves
import Paperboat.Lib.Transition

/-! Any number of server sessions over one registry. A session that closes gives
up its entry in a second step, since the registry has a lock of its own and
other processes may attach in between. Session ids are drawn at random and taken
to be distinct. -/

namespace Paperboat.ConnectorProtocol

open Transition

structure Fleet where
  registry : SessionRegistry := fun _ => none
  sessions : List ServerSession := []
  /-- Closed sessions that have not called `Disconnect` yet. -/
  leaving : List SessionRef := []

namespace Fleet

inductive Action where
  | attach (ref : SessionRef)
  | disconnect (ref : SessionRef)
  | accept (server : Server) (now : Time) (hello : Hello) (authenticated : Option AuthResult)
      (source : Option Snapshot) (drawn : Option String)
  /-- The session at an index runs an operation of its server. -/
  | operate (i : ℕ) (config : ServerConfig) (now : Time) (op : ServerSession.Operation)
  | leave (ref : SessionRef)

def step (f : Fleet) : Action → Option Fleet
  | .attach ref => some { f with registry := (f.registry.attach ref).2 }
  | .disconnect ref => some { f with registry := f.registry.disconnect ref }
  | .accept server now hello authenticated source drawn =>
    if f.sessions.any fun s => drawn == some s.ref.sessionID then none
    else match server.accept f.registry now hello authenticated source drawn with
      | (.error _, r) => some { f with registry := r }
      | (.ok (session, _), r) => some { f with registry := r, sessions := f.sessions ++ [session] }
  | .operate i config now op =>
    match f.sessions[i]? with
    | none => none
    | some s =>
      let t := (ServerSession.perform config s f.registry now op).1
      some { f with
        sessions := f.sessions.set i t
        leaving := if s.state ≠ .closed ∧ t.state = .closed then s.ref :: f.leaving
          else f.leaving }
  | .leave ref =>
    if ref ∈ f.leaving then
      some { f with registry := f.registry.disconnect ref, leaving := f.leaving.erase ref }
    else none

variable {f g : Fleet} {a : Action} {id : String} {p q : SessionRef}

/-! ### The entries -/

/-- An entry changes only where a call names it or a newer process attaches. -/
theorem registry_step (hst : f.step a = some g) (hp : f.registry id = some p) :
    g.registry id = some p ∨ a = .disconnect p ∨ a = .leave p ∨
      ∃ q, g.registry id = some q ∧ p.processGeneration < q.processGeneration := by
  have hattach : ∀ ref, (f.registry.attach ref).2 id = some p ∨
      ∃ q, (f.registry.attach ref).2 id = some q ∧ p.processGeneration < q.processGeneration := by
    intro ref
    rcases f.registry.attach_cases ref with h | ⟨h, hlt⟩
    · rw [h]; exact .inl hp
    · rw [h]
      by_cases hid : id = ref.connectorID
      · subst hid
        exact .inr ⟨ref, Function.update_self .., hlt p hp⟩
      · exact .inl (by rw [Function.update_of_ne hid, hp])
  cases a with
  | attach ref =>
    cases hst
    exact (hattach ref).imp_right fun h => .inr (.inr h)
  | disconnect ref =>
    cases hst
    by_cases hne : p = ref
    · exact .inr (.inl (by rw [hne]))
    · exact .inl (SessionRegistry.disconnect_of_ne hp hne)
  | accept server now hello authenticated source drawn =>
    have haccept : g.registry =
        (server.accept f.registry now hello authenticated source drawn).2 := by
      simp only [step] at hst
      split at hst
      · cases hst
      split at hst <;> rename_i heq <;> cases hst <;> rw [heq]
    rw [haccept]
    rcases Server.accept_registry with h | ⟨ref, h⟩
    · rw [h]; exact .inl hp
    · rw [h]; exact (hattach ref).imp_right fun h => .inr (.inr h)
  | operate i config now op =>
    simp only [step] at hst
    split at hst
    · cases hst
    · cases hst
      exact .inl hp
  | leave ref =>
    simp only [step] at hst
    split at hst
    next =>
      cases hst
      by_cases hne : p = ref
      · exact .inr (.inr (.inl (by rw [hne])))
      · exact .inl (SessionRegistry.disconnect_of_ne hp hne)
    next => cases hst

theorem entry_step (hst : f.step a = some g) (hp : f.registry id = some p)
    (hq : g.registry id = some q) : q = p ∨ p.processGeneration < q.processGeneration := by
  have hsame : ∀ ref, f.registry.disconnect ref id = some q → q = p := fun ref h =>
    Option.some.inj ((SessionRegistry.of_disconnect h).symm.trans hp)
  rcases registry_step hst hp with h | rfl | rfl | ⟨q', h, hlt⟩
  · exact .inl (Option.some.inj (hq.symm.trans h))
  · cases hst
    exact .inl (hsame p hq)
  · simp only [step] at hst
    split at hst <;> cases hst
    exact .inl (hsame p hq)
  · cases hq.symm.trans h
    exact .inr hlt

/-- A step after which the connector still has an entry. -/
def KeepsEntry (id : String) (f : Fleet) (a : Action) : Prop :=
  ∀ g, f.step a = some g → (g.registry id).isSome

/-- Where the entry is never absent, it stays or moves to newer generations. -/
theorem entry_reach (h : Reach step (KeepsEntry id) f g) (hp : f.registry id = some p) :
    ∃ q, g.registry id = some q ∧ (q = p ∨ p.processGeneration < q.processGeneration) := by
  induction h with
  | refl => exact ⟨p, hp, .inl rfl⟩
  | @tail x y a _ hok hst ih =>
    obtain ⟨q, hq, hle⟩ := ih
    obtain ⟨q', hq'⟩ := Option.isSome_iff_exists.mp (hok y hst)
    refine ⟨q', hq', ?_⟩
    rcases entry_step hst hq hq' with rfl | hlt
    · exact hle
    · rcases hle with rfl | hlt'
      · exact .inr hlt
      · exact .inr (hlt'.trans hlt)

/-! ### The sessions -/

/-- Sessions have ids of their own, and one that is leaving is closed. -/
structure Distinct (f : Fleet) : Prop where
  ids : (f.sessions.map (·.ref.sessionID)).Nodup
  leaving : ∀ ref ∈ f.leaving, ∃ s ∈ f.sessions, s.ref = ref ∧ s.state = .closed

theorem map_ref_set {l : List ServerSession} (hs : l[i]? = some s)
    (ht : t.ref = s.ref) : (l.set i t).map (·.ref.sessionID) = l.map (·.ref.sessionID) := by
  apply List.ext_getElem?
  intro j
  by_cases hj : i = j
  · subst hj
    obtain ⟨hlt, rfl⟩ := List.getElem?_eq_some_iff.mp hs
    simp [hlt, ht]
  · simp [List.getElem?_set_ne hj]

/-- A session on its way out stays in the list, closed. -/
theorem closed_set {l : List ServerSession} (hs : l[i]? = some s)
    (hkeep : s.state = .closed → t = s) (hu : u ∈ l) (hclosed : u.state = .closed) : u ∈ l.set i t := by
  obtain ⟨j, hj⟩ := List.mem_iff_getElem?.mp hu
  refine List.mem_iff_getElem?.mpr ⟨j, ?_⟩
  by_cases hij : i = j
  · subst hij
    have hlt := (List.getElem?_eq_some_iff.mp hs).1
    obtain rfl : s = u := Option.some.inj (hs.symm.trans hj)
    simp [hlt, hkeep hclosed]
  · rw [List.getElem?_set_ne hij, hj]

theorem Distinct.step (h : Distinct f) (hst : f.step a = some g) : Distinct g := by
  cases a with
  | attach ref => cases hst; exact ⟨h.ids, h.leaving⟩
  | disconnect ref => cases hst; exact ⟨h.ids, h.leaving⟩
  | accept server now hello authenticated source drawn =>
    simp only [Fleet.step] at hst
    split at hst
    · cases hst
    next hfresh =>
      split at hst
      · cases hst; exact ⟨h.ids, h.leaving⟩
      next session welcome r heq =>
        cases hst
        have hid := (Server.accept_ok heq).2.1
        constructor
        · rw [List.map_append, List.nodup_append]
          refine ⟨h.ids, List.nodup_singleton _, ?_⟩
          simp only [List.map_cons, List.map_nil, List.mem_singleton]
          rintro x hx y rfl rfl
          obtain ⟨s, hs, hsid⟩ := List.mem_map.mp hx
          exact hfresh (List.any_eq_true.mpr ⟨s, hs, by simp [hid, hsid]⟩)
        · intro ref href
          obtain ⟨s, hs, hs'⟩ := h.leaving ref href
          exact ⟨s, List.mem_append_left _ hs, hs'⟩
  | operate i config now op =>
    simp only [Fleet.step] at hst
    split at hst
    · cases hst
    next s hs =>
      cases hst
      have hmove := ServerSession.move_of_perform config s f.registry now op
      refine ⟨by rw [map_ref_set hs hmove.ref_eq]; exact h.ids, ?_⟩
      have hold : ∀ ref ∈ f.leaving, ∃ u ∈ f.sessions.set i
          (ServerSession.perform config s f.registry now op).1, u.ref = ref ∧ u.state = .closed := by
        intro ref href
        obtain ⟨u, hu, hu'⟩ := h.leaving ref href
        exact ⟨u, closed_set hs hmove.eq_of_closed hu hu'.2, hu'⟩
      intro ref href
      split at href
      next hclose =>
        rcases List.mem_cons.mp href with rfl | href
        · have hlt := (List.getElem?_eq_some_iff.mp hs).1
          exact ⟨_, List.mem_set hlt _, hmove.ref_eq, hclose.2⟩
        · exact hold ref href
      next => exact hold ref href
  | leave ref =>
    simp only [Fleet.step] at hst
    split at hst <;> cases hst
    exact ⟨h.ids, fun q hq => h.leaving q (List.mem_of_mem_erase hq)⟩

theorem distinct_reach (h : Reach step Always {} f) : Distinct f :=
  h.invariant ⟨List.nodup_nil, by simp⟩ fun hx _ hst => hx.step hst

/-- The registry fences. While a connector has an entry, another process takes it
over only with a greater generation; of all sessions of a connector at most one
passes the liveness check; and an entry goes away only when a call names it, when
its own session, closed before, leaves, or when a newer process takes it over. -/
theorem registry_fencing (h : Reach step Always {} f) :
    (∀ id p g, f.registry id = some p → Reach step (KeepsEntry id) f g →
      ∃ q, g.registry id = some q ∧ (q = p ∨ p.processGeneration < q.processGeneration)) ∧
    (∀ (i j : ℕ) (s t : ServerSession) (now later : Time), f.sessions[i]? = some s → f.sessions[j]? = some t →
      s.ref.connectorID = t.ref.connectorID → s.Passes f.registry now →
        t.Passes f.registry later → i = j) ∧
    (∀ a g id p, f.step a = some g → f.registry id = some p → g.registry id = some p ∨
      a = .disconnect p ∨ (a = .leave p ∧ ∃ s ∈ f.sessions, s.ref = p ∧ s.state = .closed) ∨
      ∃ q, g.registry id = some q ∧ p.processGeneration < q.processGeneration) := by
  have hd := distinct_reach h
  refine ⟨fun id p g hp hr => entry_reach hr hp, ?_, ?_⟩
  · intro i j s t now later hs ht hid hps hpt
    have href : s.ref = t.ref := by
      have h1 := hps.active
      rw [hid, hpt.active] at h1
      exact (Option.some.inj h1).symm
    have hi : (f.sessions.map (·.ref.sessionID))[i]? = some s.ref.sessionID := by simp [hs]
    have hj : (f.sessions.map (·.ref.sessionID))[j]? = some t.ref.sessionID := by simp [ht]
    have hlt := (List.getElem?_eq_some_iff.mp hi).1
    exact (List.getElem?_inj hlt hd.ids).mp (by rw [hi, hj, href])
  · intro a g id p hst hp
    rcases registry_step hst hp with h | h | rfl | h
    · exact .inl h
    · exact .inr (.inl h)
    · have hmem : p ∈ f.leaving := by
        by_contra hn
        simp [step, hn] at hst
      exact .inr (.inr (.inl ⟨rfl, hd.leaving p hmem⟩))
    · exact .inr (.inr (.inr h))

namespace Demo

/-- A second process of the connector takes over from the first. -/
def takeover : List Action :=
  [.accept Server.Demo.server second (Server.Demo.hello 1) (some (Server.Demo.auth 1))
      (some (ServerSession.Demo.snapshot 1)) (some "sess_1"),
    .accept Server.Demo.server second (Server.Demo.hello 2) (some (Server.Demo.auth 2))
      (some (ServerSession.Demo.snapshot 1)) (some "sess_2")]

/-- Both sessions belong to the connector, and the second one passes. -/
theorem takeover_passes :
    ((run step {} takeover).bind fun f => f.sessions[0]?.bind fun s => f.sessions[1]?.map fun t =>
      decide (s.ref.connectorID = t.ref.connectorID) && decide (t.Passes f.registry second)) =
        some true := by
  decide +kernel

/-- The first process has noticed nothing yet and is fenced all the same. -/
theorem registry_fencing_takeover :
    ∃ f s, run step {} takeover = some f ∧ f.sessions[0]? = some s ∧
      ¬ s.Passes f.registry second := by
  obtain ⟨f, hf, h⟩ := Option.bind_eq_some_iff.mp takeover_passes
  obtain ⟨s, hs, h⟩ := Option.bind_eq_some_iff.mp h
  obtain ⟨t, ht, h⟩ := Option.map_eq_some_iff.mp h
  simp only [Bool.and_eq_true, decide_eq_true_eq] at h
  refine ⟨f, s, hf, hs, fun hpass => ?_⟩
  have hsame := (registry_fencing (reach_of_run takeover hf)).2.1 0 1 s t second second hs ht h.1
    hpass h.2
  cases hsame

end Demo

end Fleet

end Paperboat.ConnectorProtocol
