import Paperboat.EnvironmentE2EE.Build
import Paperboat.EnvironmentE2EE.HostDelivery
import Paperboat.EnvironmentE2EE.KeyEpochs

/-! The manifests that managers publish for a scope, and what a host finds in them. Every
manifest is accepted by `ValidateManifestTransition` after the one before it; the host
looks at single manifests only, the first one under an authority and the latest one. -/

namespace Paperboat.EnvironmentE2EE

/-- The manifest begins its scope under an authority that follows `previous`. -/
def Link.Starts (previous : Option Authority) (y : Link) : Prop :=
  validateManifestTransition none y.manifest previous y.authority = true

/-- What a host finds in any manifest that was accepted. -/
structure Link.Sound (y : Link) : Prop where
  parsed : Parsed y.manifest y.authority
  shape : validStandaloneManifestMutationShape y.manifest.toManifestHeader = true
  reset : y.manifest.mutation = .reset →
    authorityHasReset y.authority y.manifest.scope y.manifest.machineID = true ∧ y.authority.generation ≠ 1

/-- What lies further on in a scope's history. -/
structure Link.After (x y : Link) : Prop where
  version : x.manifest.version < y.manifest.version
  generation : x.authority.generation ≤ y.authority.generation
  reset : x.authority.generation = y.authority.generation → y.manifest.mutation ≠ .reset
  begins : beginsAgain y.manifest.toManifestHeader = false

variable {y : Link}

theorem Link.After.trans {x z : Link} (h : x.After y) (h' : y.After z) : x.After z := by
  have h1 := h.version
  have h2 := h'.version
  have h3 := h.generation
  have h4 := h'.generation
  exact ⟨by omega, by omega, fun heq => h'.reset (by omega), h'.begins⟩

instance : IsTrans Link Link.After := ⟨fun _ _ _ => Link.After.trans⟩

/-! ### From accepted steps -/

namespace Step

variable {o c : Manifest} {a b : Authority} {t : Bool}

section

variable (h : Step o c a b t)

include h

theorem previousVersion_pos : 0 < c.previousVersion := by
  have hver := h.old.version
  simp only [validInteger, Bool.and_eq_true, decide_eq_true_eq] at hver
  rw [h.previousVersion]
  exact hver.1

theorem not_initialise : c.mutation ≠ .initialise := by
  intro hm
  have hmut := h.mutation
  simp [validateMutation, hm] at hmut

theorem begins : beginsAgain c.toManifestHeader = false := by
  have hpos := h.previousVersion_pos
  have hinit := h.not_initialise
  simp only [beginsAgain, Bool.or_eq_false_iff, Bool.and_eq_false_iff, beq_eq_false_iff_ne]
  exact ⟨hinit, Or.inr (by omega)⟩

theorem reset_transition (hm : c.mutation = .reset) : t = true := by
  have hmut := h.mutation
  simp only [validateMutation, hm, Bool.and_eq_true] at hmut
  exact hmut.1.1.1

theorem keyEpoch_pos : 0 < c.keyEpoch := by
  have hepoch := h.next.keyEpoch
  simp only [validInteger, Bool.and_eq_true, decide_eq_true_eq] at hepoch
  exact hepoch.1

theorem shape : validStandaloneManifestMutationShape c.toManifestHeader = true := by
  have hmut := h.mutation
  have hpos := h.previousVersion_pos
  have hver : c.previousVersion + 1 = c.version := by rw [h.previousVersion, h.version]
  have hepoch := h.keyEpoch_pos
  simp only [validStandaloneManifestMutationShape, hver, beq_self_eq_true, Bool.true_and, Bool.and_eq_true,
    bne_iff_ne]
  refine ⟨by omega, ?_⟩
  cases hm : c.mutation <;> simp only [validateMutation, hm, Bool.and_eq_true] at hmut
  case initialise => cases hmut
  case set | unset =>
    obtain ⟨-, hnames⟩ := hmut
    rcases hc : c.changedNames with _ | ⟨name, _ | _⟩ <;> simp_all
  case reauthorize => exact hmut.1.1.2
  case rotate => exact hmut.1.1.2
  case reset => simp [show c.previousVersion ≠ 0 by omega, hmut.1.1.2]

omit h in
/-- A step to a new authority carries the scope over. -/
theorem carried (h : Step o c a b true) : carriedShape c.toManifestHeader = true := by
  have hmut := h.mutation
  have hpos := h.previousVersion_pos
  have hver : c.version = c.previousVersion + 1 := by rw [h.previousVersion, h.version]
  have hepoch := h.keyEpoch_pos
  simp only [carriedShape, hpos, hver, hepoch, decide_true, beq_self_eq_true, Bool.true_and]
  cases hm : c.mutation <;> simp only [validateMutation, hm, Bool.and_eq_true, Bool.not_true, Bool.false_and,
    Bool.false_eq_true] at hmut
  case reauthorize => simp [hmut.1.1.2]
  case rotate => simp [hmut.1.1.2]
  case reset => simp [hmut.1.1.2]

theorem sound : Link.Sound ⟨c, b⟩ := by
  refine ⟨h.next, h.shape, fun hm => ⟨?_, ?_⟩⟩
  · have hreset := h.reset
    rw [hm] at hreset
    simpa using hreset
  · rcases authorityStep_some h.authority with ⟨ht, -⟩ | ⟨-, -, hgen, -⟩
    · rw [h.reset_transition hm] at ht
      cases ht
    · have hpos := a.generation_pos
      dsimp only
      omega

theorem after : Link.After ⟨o, a⟩ ⟨c, b⟩ := by
  have hver := h.version
  refine ⟨by dsimp only; omega, ?_, ?_, h.begins⟩
  · rcases authorityStep_some h.authority with ⟨-, rfl⟩ | ⟨-, -, hgen, -⟩
    · exact le_rfl
    · dsimp only
      omega
  · intro heq hm
    rcases authorityStep_some h.authority with ⟨ht, -⟩ | ⟨-, -, hgen, -⟩
    · rw [h.reset_transition hm] at ht
      cases ht
    · dsimp only at heq
      omega

end

end Step

/-- What a manifest that begins a scope looks like. -/
theorem Link.Starts.spec (h : y.Starts previous) :
    Parsed y.manifest y.authority ∧ startsScope y.manifest.toManifestHeader = true ∧
      (y.manifest.mutation = .initialise ∨ (y.manifest.mutation = .reset ∧ authorityStep previous y.authority = some true ∧
        authorityHasReset y.authority y.manifest.scope y.manifest.machineID = true)) := by
  simp only [Link.Starts, validateManifestTransition, Bool.and_eq_true] at h
  obtain ⟨hparsed, h⟩ := h
  refine ⟨parsed_iff.mp hparsed, ?_⟩
  split at h
  · cases h
  · next t ht =>
    split at h
    · next hm =>
      simp only [validateManifestSuccessor, hm, Bool.and_eq_true] at h
      exact ⟨h.2.2, Or.inl hm⟩
    · next hm =>
      simp only [Bool.and_eq_true] at h
      obtain ⟨⟨htrue, hreset⟩, hstarts⟩ := h
      rw [htrue] at ht
      exact ⟨hstarts, Or.inr ⟨hm, ht, hreset⟩⟩
    · cases h

theorem Link.Starts.sound (h : y.Starts previous) : y.Sound := by
  obtain ⟨hparsed, hstarts, hmutation⟩ := h.spec
  have hfields := hstarts
  simp only [startsScope, blankNames, Bool.and_eq_true, beq_iff_eq] at hfields
  obtain ⟨⟨⟨hprev, hver⟩, hepoch⟩, -⟩ := hfields
  refine ⟨hparsed, ?_, fun hm => ?_⟩
  · rcases hmutation with hm | ⟨hm, -⟩
    · simp [validStandaloneManifestMutationShape, hm, hprev, hver, hepoch, hstarts]
    · simp [validStandaloneManifestMutationShape, hm, hprev, hver, hepoch, hstarts]
  · rcases hmutation with hinit | ⟨-, hstep, hreset⟩
    · rw [hm] at hinit
      cases hinit
    · refine ⟨hreset, ?_⟩
      cases previous with
      | none =>
        simp only [authorityStep] at hstep
        split at hstep <;> cases hstep
      | some a =>
        rcases authorityStep_some hstep with ⟨ht, -⟩ | ⟨-, -, hgen, -⟩
        · cases ht
        · have hpos := a.generation_pos
          omega

/-! ### Histories of a scope -/

/-- The published manifests of a scope, oldest first. -/
structure Published (scope : ScopeKind) (machineID : String) (l : List Link) : Prop where
  chain : l.IsChain Link.Accepts
  start : ∀ y, l.head? = some y → ∃ previous, y.Starts previous
  kind : ∀ y ∈ l, y.manifest.scope = scope ∧ y.manifest.machineID = machineID

namespace Published

variable {scope : ScopeKind} {machineID : String} {l : List Link}

variable {y : Link}

section

variable (h : Published scope machineID l)

include h

/-- A published manifest begins the scope or follows the one before it. -/
theorem cases (hl : l = u ++ y :: w) :
    (u = [] ∧ ∃ previous, y.Starts previous) ∨
      ∃ u' x, u = u' ++ [x] ∧ ∃ t, Step x.manifest y.manifest x.authority y.authority t := by
  rcases List.eq_nil_or_concat' u with rfl | ⟨u', x, rfl⟩
  · exact Or.inl ⟨rfl, h.start y (by rw [hl]; rfl)⟩
  · refine Or.inr ⟨u', x, rfl, ?_⟩
    have hchain := h.chain
    rw [hl, List.append_assoc, List.isChain_append] at hchain
    have hacc : x.Accepts y := (List.isChain_cons_cons.mp hchain.2.1).1
    exact validateManifestTransition_iff.mp hacc

theorem sound (hy : y ∈ l) : y.Sound := by
  obtain ⟨u, w, hl⟩ := List.append_of_mem hy
  rcases h.cases hl with ⟨-, previous, hstarts⟩ | ⟨u', x, -, t, hstep⟩
  · exact hstarts.sound
  · exact hstep.sound

theorem pairwise : l.Pairwise Link.After := by
  refine (h.chain.imp fun x y hacc => ?_).pairwise
  obtain ⟨t, hstep⟩ := validateManifestTransition_iff.mp hacc
  exact hstep.after

/-- Every published manifest is the latest one or lies before it. -/
theorem latest {x last : Link} (hx : x ∈ l) (hlast : l.getLast? = some last) :
    x = last ∨ x.After last := by
  obtain ⟨u, rfl⟩ := List.getLast?_eq_some_iff.mp hlast
  rcases List.mem_append.mp hx with hx | hx
  · exact Or.inr ((List.pairwise_append.mp h.pairwise).2.2 x hx last (by simp))
  · exact Or.inl (List.mem_singleton.mp hx)

omit h in
theorem parsed_machineID {m : Manifest} (h : Parsed m a) (hscope : m.scope = .global) :
    m.machineID = "" := by
  have hmach := h.machine
  simp only [validMachine, hscope, Bool.and_eq_true, beq_iff_eq] at hmach
  exact hmach.1

/-- The next manifest joins the history. -/
theorem concat (hscope : y.manifest.scope = scope) (hmach : y.manifest.machineID = machineID)
    (hstart : l = [] → ∃ previous, y.Starts previous)
    (hnext : ∀ x, l.getLast? = some x → x.Accepts y) : Published scope machineID (l ++ [y]) := by
  refine ⟨List.isChain_append.mpr ⟨h.chain, List.isChain_singleton _, ?_⟩, ?_, ?_⟩
  · intro x hx z hz
    cases hz
    exact hnext x hx
  · intro z hz
    cases l with
    | nil =>
      cases hz
      exact hstart rfl
    | cons x rest => exact h.start z hz
  · intro z hz
    rcases List.mem_append.mp hz with hz | hz
    · exact h.kind z hz
    · rw [List.mem_singleton.mp hz]
      exact ⟨hscope, hmach⟩

/-- The first manifest under an authority begins the scope or carries it over. -/
theorem first (hy : l.find? (fun x => decide (x.authority = a)) = some y) :
    validFirstPairTransitionShape y.manifest.toManifestHeader = true ∧
      (0 < y.manifest.previousVersion → carriedShape y.manifest.toManifestHeader = true) := by
  obtain ⟨hauth, u, w, hl, hbef⟩ := List.find?_eq_some_iff_append.mp hy
  have hauth : y.authority = a := by simpa using hauth
  rcases h.cases hl with ⟨-, previous, hstarts⟩ | ⟨u', x, rfl, t, hstep⟩
  · obtain ⟨-, hshape, hmutation⟩ := hstarts.spec
    have hprev : y.manifest.previousVersion = 0 := by
      simp only [startsScope, Bool.and_eq_true, beq_iff_eq] at hshape
      exact hshape.1.1.1
    refine ⟨?_, fun hpos => by omega⟩
    rcases hmutation with hm | ⟨hm, -⟩
    · simp [validFirstPairTransitionShape, hm, hshape]
    · simp [validFirstPairTransitionShape, hm, hprev, hshape]
  · have hother : x.authority ≠ a := by simpa using hbef x (by simp)
    have ht : t = true := by
      rcases authorityStep_some hstep.authority with ⟨-, heq⟩ | ⟨ht, -⟩
      · exact absurd (heq.trans hauth) hother
      · exact ht
    subst ht
    refine ⟨?_, fun _ => hstep.carried⟩
    have hpos := hstep.previousVersion_pos
    rw [validFirstPairTransitionShape, if_neg hstep.not_initialise, if_neg (by omega)]
    exact hstep.carried

end

end Published

/-! ### What the host accepts of them -/

theorem authorityHasHost_of_binds {recipient : Recipient} (h : bindsRecipient a recipient = true) :
    authorityHasHost a recipient.subjectID = true := by
  simp only [bindsRecipient, List.any_eq_true, Bool.and_eq_true] at h
  obtain ⟨b, hb, ⟨⟨hkind, hsubj⟩, -⟩, -⟩ := h
  simp only [authorityHasHost, List.any_eq_true, Bool.and_eq_true]
  exact ⟨b, hb, hkind, hsubj⟩

/-- The manifests of both scopes of one machine. -/
structure Histories (global machine : List Link) (machineID : String) : Prop where
  global : Published .global "" global
  machine : Published .machine machineID machine

variable {gs ms : List Link} {recipient : RecipientPrivate}

namespace Histories

theorem active (h : Histories gs ms recipient.subjectID) {g m : Link} (hg : g ∈ gs) (hm : m ∈ ms)
    (hbound : bindsRecipient m.authority recipient.toRecipient = true) :
    activePair g.manifest.toManifestHeader m.manifest.toManifestHeader recipient.toRecipient = true := by
  obtain ⟨hgscope, -⟩ := h.global.kind g hg
  obtain ⟨hmscope, hmach⟩ := h.machine.kind m hm
  have hgstate := (h.global.sound hg).parsed.state_eq
  have hmstate := (h.machine.sound hm).parsed.state_eq
  rw [hmach, authorityHasHost_of_binds hbound] at hmstate
  simp [activePair, hgscope, hgstate, hmscope, hmach, hmstate]

theorem resetAdmitted_latest (h : Published scope machineID l) (hy : y ∈ l)
    (hxy : x = y ∨ x.After y) :
    resetAdmitted x.manifest y.manifest y.authority scope machineID
      (y.authority.generation == x.authority.generation) = true := by
  obtain ⟨hscope, hmach⟩ := h.kind y hy
  simp only [resetAdmitted, Bool.or_eq_true, bne_iff_ne, Bool.and_eq_true, Bool.not_eq_true', beq_iff_eq,
    beq_eq_false_iff_ne]
  by_cases hm : y.manifest.mutation = .reset
  · obtain ⟨hreset, hgen⟩ := (h.sound hy).reset hm
    rw [hscope, hmach] at hreset
    refine Or.inr ⟨⟨hgen, hreset⟩, ?_⟩
    rcases hxy with rfl | hafter
    · exact Or.inr rfl
    · exact Or.inl fun heq => hafter.reset heq.symm hm
  · exact Or.inl hm

theorem notOlder_latest (hxy : x = y ∨ x.After y) : notOlder x.manifest y.manifest = true := by
  rcases hxy with rfl | hafter
  · simp [notOlder]
  · have hlt := hafter.version
    simp only [notOlder, Bool.and_eq_true, decide_eq_true_eq, Bool.or_eq_true, bne_iff_ne]
    exact ⟨hlt.le, Or.inl hlt.ne'⟩

section

variable (h : Histories gs ms recipient.subjectID) (hkind : recipient.kind = .host)

include h hkind

/-- The latest pair is accepted after any older published pair. -/
theorem accepts_latest {a head : Authority} (hog : og ∈ gs) (hom : om ∈ ms)
    (hoga : og.authority = a) (homa : om.authority = a) (hlg : gs.getLast? = some lg)
    (hlm : ms.getLast? = some lm) (hlga : lg.authority = head) (hlma : lm.authority = head)
    (haccount : a.accountID = head.accountID) (hsame : a.generation = head.generation → a = head)
    (hbound : bindsRecipient head recipient.toRecipient = true) :
    validateLatestAfterFirstDelivery og.manifest om.manifest lg.manifest lm.manifest a head recipient =
      openPair lg.manifest lm.manifest recipient := by
  have hlgm := List.mem_of_getLast? hlg
  have hlmm := List.mem_of_getLast? hlm
  have hg := h.global.latest hog hlg
  have hm := h.machine.latest hom hlm
  have hgreset := resetAdmitted_latest h.global hlgm hg
  have hmreset := resetAdmitted_latest h.machine hlmm hm
  have hact := h.active hlgm hlmm (by rw [hlma]; exact hbound)
  have hgparsed := (h.global.sound hlgm).parsed
  have hmparsed := (h.machine.sound hlmm).parsed
  have hgen : a.generation ≤ head.generation := by
    rcases hg with heq | hafter
    · rw [← hoga, ← hlga, heq]
    · rw [← hoga, ← hlga]
      exact hafter.generation
  rw [hlga, hoga] at hgreset
  rw [hlma, homa] at hmreset
  rw [hlga] at hgparsed
  rw [hlma] at hmparsed
  rw [validateLatestAfterFirstDelivery]
  refine if_pos ⟨hkind, haccount, hgen, ?_, hbound, parsed_iff.mpr hgparsed, parsed_iff.mpr hmparsed, hgreset, hmreset,
    ?_, hact, notOlder_latest hg, notOlder_latest hm, (h.global.sound hlgm).shape, (h.machine.sound hlmm).shape⟩
  · intro heq
    have heq : head.generation = a.generation := by simpa using heq
    rw [hsame heq.symm]
  · intro hne
    have hne : head.generation ≠ a.generation := by simpa using hne
    constructor
    · rcases hg with rfl | hafter
      · exact absurd (by rw [← hoga, ← hlga]) hne
      · exact hafter.begins
    · rcases hm with rfl | hafter
      · exact absurd (by rw [← homa, ← hlma]) hne
      · exact hafter.begins

/-- The first pair under an authority that binds the host for the first time is accepted,
if the global scope is older than the authority. -/
theorem accepts_first {g m : Link}
    (htrans : validateAuthorityTransition (some previous) a = true)
    (hbef : bindsRecipient previous recipient.toRecipient = false)
    (hbound : bindsRecipient a recipient.toRecipient = true)
    (hg : gs.find? (fun x => decide (x.authority = a)) = some g)
    (hm : ms.find? (fun x => decide (x.authority = a)) = some m)
    (holder : 0 < g.manifest.previousVersion) :
    validateFirstHostDelivery (some previous) a g.manifest m.manifest recipient =
      openPair g.manifest m.manifest recipient := by
  have hgm := List.mem_of_find?_eq_some hg
  have hmm := List.mem_of_find?_eq_some hm
  have hga : g.authority = a := by simpa using List.find?_some hg
  have hma : m.authority = a := by simpa using List.find?_some hm
  have hact := h.active hgm hmm (by rw [hma]; exact hbound)
  have hgsound := h.global.sound hgm
  have hmsound := h.machine.sound hmm
  obtain ⟨hgscope, hgmachine⟩ := h.global.kind g hgm
  obtain ⟨hmscope, hmmachine⟩ := h.machine.kind m hmm
  have hgreset : g.manifest.mutation = .reset → authorityHasReset a .global "" = true := by
    intro hr
    have hreset := (hgsound.reset hr).1
    rw [hga, hgscope, hgmachine] at hreset
    exact hreset
  have hmreset : m.manifest.mutation = .reset → authorityHasReset a .machine recipient.subjectID = true := by
    intro hr
    have hreset := (hmsound.reset hr).1
    rw [hma, hmscope, hmmachine] at hreset
    exact hreset
  have hshape : firstPairShape (some previous) g.manifest.toManifestHeader m.manifest.toManifestHeader = true := by
    simp [firstPairShape, (h.global.first hg).2 holder, (h.machine.first hm).1]
  rw [validateFirstHostDelivery]
  exact if_pos ⟨htrans, hkind, hbef, hbound, parsed_iff.mpr (hga ▸ hgsound.parsed),
    parsed_iff.mpr (hma ▸ hmsound.parsed), hgreset, hmreset, hact, hshape⟩

end

end Histories

end Paperboat.EnvironmentE2EE
