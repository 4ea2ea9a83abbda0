import Paperboat.EnvironmentE2EE.Build
import Paperboat.EnvironmentE2EE.KeyEpochs

/-! The manifest that a manager builds for each scope of a staged authority transition:
the choice between initialize, reauthorize, rotate and reset, and when the result passes
the check that the builder itself ends with. -/

namespace Paperboat.EnvironmentManager

open EnvironmentE2EE

structure ScopeRef where
  scope : ScopeKind
  machineID : String

inductive TransitionError where
  | noDecryptingKey | integrity
  deriving DecidableEq, Repr

/-- Who stages the manifests, and what is drawn at random on the way. -/
structure Staging where
  accountID : String
  recipient : RecipientPrivate
  signerID : KeyID
  signerPrivate : KeyID
  operation : Nat
  freshKey : Nat
  salt : List UInt8
  nonce : List UInt8
  signature : Nat

variable (s : Staging) (proposed : Authority) (machineID : String)

def scopeOf : ScopeKind := if machineID = "" then .global else .machine

def stateOf : ScopeState :=
  if machineID ≠ "" ∧ authorityHasHost proposed machineID = false then .retired else .active

def scopeRequested (scopes : List ScopeRef) (scope : ScopeKind) (machineID : String) : Bool :=
  scopes.any fun candidate => candidate.scope == scope && candidate.machineID == machineID

def recipientsRemoved (old : List Recipient) (proposed : Authority) (scope : ScopeKind) (state : ScopeState)
    (machineID : String) : Bool :=
  match proposed.expectedRecipients scope state machineID with
  | none => true
  | some expected => old.any fun prior => !expected.contains prior

/-- What the next manifest of a scope does and holds. -/
structure Plan where
  mutation : MutationKind
  previousVersion : Nat
  version : Nat
  keyEpoch : Nat
  changed : List String
  values : Values
  scopeKey : Nat

def planManifest (old : Option Manifest) (proposed : Authority) (machineID : String)
    (rotate : List ScopeRef) : Except TransitionError Plan :=
  let scope := scopeOf machineID
  let state := stateOf proposed machineID
  let reset := authorityHasReset proposed scope machineID
  match old with
  | some old =>
    if reset then .ok ⟨.reset, old.version, old.version + 1, old.keyEpoch + 1, old.names, [], s.freshKey⟩
    else
      match decryptManifest old s.recipient with
      | none => .error .noDecryptingKey
      | some decrypted =>
        if (state ≠ .active ∨ old.state = state) ∧
            (scopeRequested rotate scope machineID || recipientsRemoved old.recipients proposed scope state machineID) then
          .ok ⟨.rotate, old.version, old.version + 1, old.keyEpoch + 1, [], decrypted.values, s.freshKey⟩
        else .ok ⟨.reauthorize, old.version, old.version + 1, old.keyEpoch, [], decrypted.values, decrypted.scopeKey⟩
  | none => .ok ⟨if reset then .reset else .initialise, 0, 1, 1, [], [], s.freshKey⟩

def transitionClaims (plan : Plan) : ManifestHeader where
  accountID := s.accountID
  authorityGeneration := proposed.generation
  authorityID := proposed.id
  scope := scopeOf machineID
  machineID := machineID
  state := stateOf proposed machineID
  previousVersion := plan.previousVersion
  version := plan.version
  keyEpoch := plan.keyEpoch
  operationID := s.operation
  salt := []
  nonce := []
  mutation := plan.mutation
  changedNames := plan.changed
  names := []

def transitionInput (plan : Plan) (recipients : List Recipient) : BuildManifestInput where
  values := plan.values
  scopeKey := plan.scopeKey
  recipients := recipients
  signerKeyID := s.signerID
  signerPrivate := s.signerPrivate
  salt := s.salt
  nonce := s.nonce
  signature := s.signature

def buildTransitionManifest (old : Option Manifest) (current : Option Authority)
    (proposed : Authority) (machineID : String) (rotate : List ScopeRef) : Except TransitionError Manifest := do
  let plan ← planManifest s old proposed machineID rotate
  match proposed.expectedRecipients (scopeOf machineID) (stateOf proposed machineID) machineID with
  | none => .error .integrity
  | some recipients =>
    match buildManifest (transitionClaims s proposed machineID plan) (transitionInput s plan recipients) with
    | none => .error .integrity
    | some raw =>
      match parseManifest raw proposed with
      | none => .error .integrity
      | some next => if validateManifestTransition old next current proposed then .ok raw else .error .integrity

/-! ### The builder up to its last check -/

/-- A staged transition: the authorities follow each other, the manager is authorized in
the proposed authority and can read the scope's manifest, if there is one. -/
structure Ready (s : Staging) (old : Option Manifest) (current : Option Authority) (proposed : Authority)
    (machineID : String) : Prop where
  transition : validateAuthorityTransition current proposed = true
  account : s.accountID = proposed.accountID
  machine : machineID = "" ∨ validIdentifier machineID = true
  signer : s.signerPrivate = s.signerID
  authorized : authorizedSigner proposed s.signerID = true
  operation : s.operation ≠ 0
  salt : s.salt.length = 32
  nonce : s.nonce.length = 12
  old : ∀ o, old = some o → ∃ a, current = some a ∧ Parsed o a ∧ o.scope = scopeOf machineID ∧
    o.machineID = machineID ∧ (decryptManifest o s.recipient).isSome = true ∧
    o.version < maximumContractInteger ∧ o.keyEpoch < maximumContractInteger

theorem decryptManifest_values {m : Manifest} {r : RecipientPrivate}
    (h : decryptManifest m r = some d) : d.values.map Prod.fst = m.names ∧ encodeScope d.values = some d.values := by
  simp only [decryptManifest, Option.bind_eq_bind, Option.bind_eq_some_iff] at h
  obtain ⟨w, -, k, -, h⟩ := h
  split at h
  · obtain ⟨values, hdecode, h⟩ := Option.bind_eq_some_iff.mp h
    split at h
    · next hnames =>
      cases h
      exact ⟨beq_iff_eq.mp hnames, encodeScope_of_decodeScope hdecode⟩
    · cases h
  · cases h

section

variable {s : Staging} {old : Option Manifest} {current : Option Authority} {proposed : Authority}
  {machineID : String} {rotate : List ScopeRef} {plan : Plan}

/-- What the plan of a ready transition can be encoded with. -/
structure Plan.Valid (plan : Plan) : Prop where
  values : encodeScope plan.values = some plan.values
  version : validInteger plan.version = true
  previousVersion : plan.previousVersion ≤ maximumContractInteger
  keyEpoch : validInteger plan.keyEpoch = true
  changed : validateNames plan.changed = true

theorem validInteger_iff : validInteger n = true ↔ 0 < n ∧ n ≤ maximumContractInteger := by
  simp [validInteger]

theorem planManifest_valid (h : Ready s old current proposed machineID)
    (hplan : planManifest s old proposed machineID rotate = .ok plan) : plan.Valid := by
  cases old with
  | none =>
    cases hplan
    have hone : validInteger 1 = true := by decide
    exact ⟨encodeScope_nil, hone, Nat.zero_le _, hone, validateNames_nil⟩
  | some o =>
    obtain ⟨a, -, hparsed, -, -, -, hv, he⟩ := h.old o rfl
    have hv1 := (validInteger_iff.mp hparsed.version).2
    have hver : validInteger (o.version + 1) = true := validInteger_iff.mpr ⟨by omega, by omega⟩
    have hepoch : validInteger (o.keyEpoch + 1) = true := validInteger_iff.mpr ⟨by omega, by omega⟩
    simp only [planManifest] at hplan
    split at hplan
    · cases hplan
      exact ⟨encodeScope_nil, hver, hv1, hepoch, hparsed.names⟩
    · split at hplan
      · cases hplan
      · next d hd =>
        have hvals := (decryptManifest_values hd).2
        split at hplan
        · cases hplan
          exact ⟨hvals, hver, hv1, hepoch, validateNames_nil⟩
        · cases hplan
          exact ⟨hvals, hver, hv1, hparsed.keyEpoch, validateNames_nil⟩

theorem stateOf_active_iff (hmach : machineID ≠ "") :
    authorityHasHost proposed machineID = true ↔ stateOf proposed machineID = .active := by
  cases hhost : authorityHasHost proposed machineID <;> simp [stateOf, hmach, hhost]

theorem scopeOf_eq_global : scopeOf machineID = .global ↔ machineID = "" := by
  simp [scopeOf]

theorem scopeOf_eq_machine : scopeOf machineID = .machine ↔ machineID ≠ "" := by
  simp [scopeOf]

/-- The recipients that the builder wraps the scope key for. -/
def transitionRecipients (proposed : Authority) (machineID : String) : List Recipient :=
  sortRecipients (proposed.prescribed (scopeOf machineID) (stateOf proposed machineID) machineID)

theorem transitionRecipients_expected (proposed : Authority) (machineID : String) :
    proposed.expectedRecipients (scopeOf machineID) (stateOf proposed machineID) machineID =
      some (transitionRecipients proposed machineID) :=
  proposed.expectedRecipients_of fun h => stateOf_active_iff (scopeOf_eq_machine.mp h)

theorem buildable (h : Ready s old current proposed machineID) (hvalid : plan.Valid) :
    Buildable (transitionClaims s proposed machineID plan)
      (transitionInput s plan (transitionRecipients proposed machineID)) proposed where
  signer := h.signer
  authorized := h.authorized
  account := h.account
  generation := rfl
  authorityID := rfl
  version := hvalid.version
  previousVersion := hvalid.previousVersion
  keyEpoch := hvalid.keyEpoch
  operationID := h.operation
  salt := h.salt
  nonce := h.nonce
  machine := by
    by_cases hm : machineID = ""
    · simp [validMachine, transitionClaims, scopeOf, stateOf, hm]
    · simpa [validMachine, transitionClaims, scopeOf, hm] using h.machine.resolve_left hm
  state := fun hs => stateOf_active_iff (scopeOf_eq_machine.mp hs)
  changedNames := hvalid.changed
  recipients := rfl

/-- Everything up to the last check succeeds, and the last check decides. -/
theorem buildTransitionManifest_eq (h : Ready s old current proposed machineID)
    (hplan : planManifest s old proposed machineID rotate = .ok plan) :
    ∃ next, Parsed next proposed ∧ next.recipients = transitionRecipients proposed machineID ∧
      next.toManifestHeader = builtHeader (transitionClaims s proposed machineID plan)
        (transitionInput s plan (transitionRecipients proposed machineID)) plan.values ∧
      buildTransitionManifest s old current proposed machineID rotate =
        if validateManifestTransition old next current proposed then .ok next else .error .integrity := by
  have hvalid := planManifest_valid h hplan
  have hb := buildable h hvalid
  obtain ⟨padded, hpad, -⟩ := padPlaintext_of_encodeScope hvalid.values
  have hparsed := hb.parsed hvalid.values hpad
  refine ⟨_, hparsed, built_recipients, rfl, ?_⟩
  obtain ⟨m, hm⟩ := Option.isSome_iff_exists.mp (parsed_iff.mpr hparsed)
  cases parseManifest_eq_some hm
  simp [buildTransitionManifest, hplan, transitionRecipients_expected, hb.buildManifest_eq hvalid.values hpad,
    hm, bind, Except.bind]

/-! ### The last check -/

/-- The condition under which the manifest of a scope can be staged. A scope that has a
manifest is reset, or it is not a retired scope that becomes active again while one of
its recipients goes. A scope without a manifest is reset or belongs to a machine, or it
is the global scope of the first authority. -/
def Stageable (old : Option Manifest) (current : Option Authority) (proposed : Authority) (machineID : String) :
    Prop :=
  match old, current with
  | some o, _ => authorityHasReset proposed (scopeOf machineID) machineID = true ∨
      ¬ (o.state = .retired ∧ stateOf proposed machineID = .active ∧
        recipientsRemoved o.recipients proposed (scopeOf machineID) (stateOf proposed machineID) machineID = true)
  | none, some _ => authorityHasReset proposed (scopeOf machineID) machineID = true ∨ machineID ≠ ""
  | none, none => authorityHasReset proposed (scopeOf machineID) machineID = false ∧ machineID = ""

theorem recipientsRemoved_eq_false {recipients : List Recipient} :
    recipientsRemoved recipients proposed (scopeOf machineID) (stateOf proposed machineID) machineID = false ↔
      recipients ⊆ transitionRecipients proposed machineID := by
  rw [recipientsRemoved, transitionRecipients_expected]
  simp [List.subset_def]

variable {o : Manifest}

/-- A scope that is retired loses its host. -/
theorem recipientsRemoved_of_retired {a : Authority} (hparsed : Parsed o a)
    (hscope : o.scope = scopeOf machineID) (hact : o.state = .active)
    (hretired : stateOf proposed machineID = .retired) :
    recipientsRemoved o.recipients proposed (scopeOf machineID) (stateOf proposed machineID) machineID = true := by
  have hmach : machineID ≠ "" := by
    intro he
    simp [stateOf, he] at hretired
  have hsc : scopeOf machineID = .machine := scopeOf_eq_machine.mpr hmach
  -- the active manifest names one host, the retired scope prescribes none
  have hcount : o.recipients.countP (·.kind == .host) = 1 := by
    have hexp := hparsed.expected
    rw [hscope, hsc, hact, Authority.expectedRecipients] at hexp
    split at hexp
    · cases hexp
    · next hne =>
      rw [← Option.some.inj hexp]
      by_contra hc
      exact hne ⟨rfl, rfl, hc⟩
  obtain ⟨r, hr, hkind⟩ := List.countP_pos_iff.mp (by omega : 0 < o.recipients.countP (·.kind == .host))
  by_contra hremoved
  rw [Bool.not_eq_true] at hremoved
  have hin := recipientsRemoved_eq_false.mp hremoved hr
  rw [transitionRecipients, (sortRecipients_perm _).mem_iff, hsc, hretired, Authority.mem_prescribed] at hin
  obtain ⟨b, -, hb⟩ := hin
  have hhost := (bindingRecipient_eq_some hb).2.2.2.mp (beq_iff_eq.mp hkind)
  simp [bindingRecipient, hhost] at hb

/-- The step that a plan makes from an existing manifest. -/
theorem validate_step_iff {next : Manifest} {a : Authority} (htrans : validateAuthorityTransition (some a) proposed = true)
    (hold : Parsed o a) (hnext : Parsed next proposed) (hscope : o.scope = scopeOf machineID)
    (hmach : o.machineID = machineID) (haccount : proposed.accountID = a.accountID)
    (hhead : next.scope = scopeOf machineID ∧ next.machineID = machineID ∧ next.previousVersion = o.version ∧
      next.version = o.version + 1) :
    validateManifestTransition (some o) next (some a) proposed = true ↔
      authorityHasReset proposed (scopeOf machineID) machineID = (next.mutation == .reset) ∧
      (next.mutation ≠ .rotate → next.mutation ≠ .reset → o.recipients ⊆ next.recipients) ∧
      validateMutation o.toManifestHeader next.toManifestHeader true = true := by
  obtain ⟨hs, hm, hp, hv⟩ := hhead
  have hstep := authorityStep_next htrans
  rw [validateManifestTransition_iff]
  constructor
  · rintro ⟨t, ht⟩
    cases Option.some.inj (hstep.symm.trans ht.authority)
    refine ⟨?_, ht.kept rfl, ht.mutation⟩
    rw [← ht.reset, hs, hm]
  · rintro ⟨hreset, hkept, hmut⟩
    refine ⟨true, hold, hnext, hstep, ?_, fun _ => hkept, ?_, ?_, ?_, hp, hv, hmut⟩
    · rw [hs, hm, hreset]
    · rw [hnext.account, hold.account, haccount]
    · rw [hs, hscope]
    · rw [hm, hmach]

theorem exists_ok_iff {next : Manifest} {checked : Bool} :
    (∃ m, (if checked then Except.ok next else .error TransitionError.integrity) = .ok m) ↔ checked = true := by
  cases checked <;> simp

theorem built_first_iff (h : Ready s none current proposed machineID) :
    (∃ next, buildTransitionManifest s none current proposed machineID rotate = .ok next) ↔
      Stageable none current proposed machineID := by
  have hplan : planManifest s none proposed machineID rotate =
      .ok ⟨if authorityHasReset proposed (scopeOf machineID) machineID then .reset else .initialise,
        0, 1, 1, [], [], s.freshKey⟩ := rfl
  obtain ⟨next, hparsed, -, hhead, heq⟩ := buildTransitionManifest_eq h hplan
  have hstarts : startsScope next.toManifestHeader = true := by
    rw [hhead]
    rfl
  have hscope : next.scope = scopeOf machineID := congrArg ManifestHeader.scope hhead
  have hmach : next.machineID = machineID := congrArg ManifestHeader.machineID hhead
  have hmut : next.mutation = if authorityHasReset proposed (scopeOf machineID) machineID then .reset else .initialise :=
    congrArg ManifestHeader.mutation hhead
  rw [heq, exists_ok_iff]
  cases hreset : authorityHasReset proposed (scopeOf machineID) machineID <;> rw [hreset] at hmut <;>
    cases current with
    | none =>
      have hgen : proposed.generation = 1 := by
        have := h.transition
        simp only [validateAuthorityTransition, Bool.and_eq_true, beq_iff_eq] at this
        exact this.1
      have hstep : authorityStep none proposed = some false := by rw [authorityStep, if_pos h.transition]
      simp [validateManifestTransition, Stageable, parsed_iff.mpr hparsed, hstep, hmut, hscope, hmach, hreset,
        validateManifestSuccessor, hstarts, hgen, scopeOf_eq_global]
    | some a =>
      have hstep := authorityStep_next h.transition
      simp [validateManifestTransition, Stageable, parsed_iff.mpr hparsed, hstep, hmut, hscope, hmach, hreset,
        validateManifestSuccessor, hstarts, scopeOf_eq_machine]

theorem built_next_iff (h : Ready s (some o) current proposed machineID) :
    (∃ next, buildTransitionManifest s (some o) current proposed machineID rotate = .ok next) ↔
      Stageable (some o) current proposed machineID := by
  obtain ⟨a, rfl, hold, hscope, hmach, hdec, -⟩ := h.old o rfl
  obtain ⟨d, hd⟩ := Option.isSome_iff_exists.mp hdec
  have hnames := (decryptManifest_values hd).1
  have haccount : proposed.accountID = a.accountID := by
    have ht := h.transition
    simp only [validateAuthorityTransition, Bool.and_eq_true, beq_iff_eq] at ht
    exact ht.1.1
  -- the last check, for whichever plan was made
  have hlast : ∀ {plan : Plan}, planManifest s (some o) proposed machineID rotate = .ok plan →
      plan.previousVersion = o.version → plan.version = o.version + 1 →
      ((∃ next, buildTransitionManifest s (some o) (some a) proposed machineID rotate = .ok next) ↔
        authorityHasReset proposed (scopeOf machineID) machineID = (plan.mutation == .reset) ∧
        (plan.mutation ≠ .rotate → plan.mutation ≠ .reset → o.recipients ⊆ transitionRecipients proposed machineID) ∧
        validateMutation o.toManifestHeader (builtHeader (transitionClaims s proposed machineID plan)
          (transitionInput s plan (transitionRecipients proposed machineID)) plan.values) true = true) := by
    intro plan hplan hp hv
    obtain ⟨next, hparsed, hrec, hhead, heq⟩ := buildTransitionManifest_eq h hplan
    have hmut : next.mutation = plan.mutation := congrArg ManifestHeader.mutation hhead
    rw [heq, exists_ok_iff, validate_step_iff h.transition hold hparsed hscope hmach haccount
      ⟨congrArg ManifestHeader.scope hhead, congrArg ManifestHeader.machineID hhead,
        (congrArg ManifestHeader.previousVersion hhead).trans hp,
        (congrArg ManifestHeader.version hhead).trans hv⟩, hmut, hrec, hhead]
  cases hreset : authorityHasReset proposed (scopeOf machineID) machineID with
  | true =>
    have hplan : planManifest s (some o) proposed machineID rotate =
        .ok ⟨.reset, o.version, o.version + 1, o.keyEpoch + 1, o.names, [], s.freshKey⟩ := by
      simp [planManifest, hreset]
    rw [hlast hplan rfl rfl]
    simp [Stageable, hreset, validateMutation, builtHeader, transitionClaims]
  | false =>
    by_cases hrot : (stateOf proposed machineID ≠ .active ∨ o.state = stateOf proposed machineID) ∧
        (scopeRequested rotate (scopeOf machineID) machineID || recipientsRemoved o.recipients proposed
          (scopeOf machineID) (stateOf proposed machineID) machineID) = true
    · have hplan : planManifest s (some o) proposed machineID rotate =
          .ok ⟨.rotate, o.version, o.version + 1, o.keyEpoch + 1, [], d.values, s.freshKey⟩ := by
        simp only [planManifest, hreset, Bool.false_eq_true, if_false, hd]
        rw [if_pos hrot]
      have hstate : ¬ (o.state = .retired ∧ stateOf proposed machineID = .active) := by
        rintro ⟨hr, ha⟩
        rw [hr, ha] at hrot
        simp at hrot
      cases ho : o.state <;> cases hp : stateOf proposed machineID <;>
        simp_all [Stageable, validateMutation, builtHeader, transitionClaims]
    · have hplan : planManifest s (some o) proposed machineID rotate =
          .ok ⟨.reauthorize, o.version, o.version + 1, o.keyEpoch, [], d.values, d.scopeKey⟩ := by
        simp only [planManifest, hreset, Bool.false_eq_true, if_false, hd]
        rw [if_neg hrot]
      rw [hlast hplan rfl rfl]
      have hretire : ¬ (o.state = .active ∧ stateOf proposed machineID = .retired) := by
        rintro ⟨ha, hr⟩
        refine hrot ⟨Or.inl (by rw [hr]; decide), ?_⟩
        rw [recipientsRemoved_of_retired hold hscope ha hr, Bool.or_true]
      simp only [ne_eq, reduceCtorEq, not_false_eq_true, forall_const, ← recipientsRemoved_eq_false]
      cases ho : o.state <;> cases hp : stateOf proposed machineID <;>
        simp_all [Stageable, validateMutation, builtHeader, transitionClaims, transitionInput]

end

/-- When a manager stages a proposed authority, the manifest of a scope is built exactly
if the scope is not one that comes back from retirement while one of its recipients
goes, and a scope without a manifest is one that may start under that authority. -/
theorem transition_manifest_built_iff (s : Staging) (old : Option Manifest) (current : Option Authority)
    (proposed : Authority) (machineID : String) (rotate : List ScopeRef)
    (h : Ready s old current proposed machineID) :
    (∃ next, buildTransitionManifest s old current proposed machineID rotate = .ok next) ↔
      Stageable old current proposed machineID := by
  cases old with
  | none => exact built_first_iff h
  | some o => exact built_next_iff h

/-! ### A machine comes back -/

namespace Demo

open EnvironmentE2EE.Demo

/-- The laptop's host is bound, then removed, then bound again; at the end with or
without the second manager. -/
def bound : Authority :=
  ⟨document 2 (some genesis.id) [manager "alice" 1, manager "bob" 2, host "laptop" 3, recovery 9] [], by decide +kernel⟩

def unbound : Authority :=
  ⟨document 3 (some bound.id) [manager "alice" 1, manager "bob" 2, recovery 9] [], by decide +kernel⟩

def back : Authority :=
  ⟨document 4 (some unbound.id) [manager "alice" 1, manager "bob" 2, host "laptop" 3, recovery 9] [], by decide +kernel⟩

def backWithoutBob : Authority :=
  ⟨document 4 (some unbound.id) [manager "alice" 1, host "laptop" 3, recovery 9] [], by decide +kernel⟩

/-- The laptop's retired scope. -/
def laptop : Manifest :=
  (publish unbound .machine "laptop" .retired .rotate 2 2 [] [("TOKEN", [120])]).get (by decide +kernel)

def alice : Staging where
  accountID := "account"
  recipient := ⟨⟨.manager, "alice", 1, .envk 1⟩, .envk 1⟩
  signerID := .sigk 1
  signerPrivate := .sigk 1
  operation := 7
  freshKey := 5
  salt := List.replicate 32 1
  nonce := List.replicate 12 1
  signature := 1

theorem ready_back {proposed : Authority} (ht : validateAuthorityTransition (some unbound) proposed = true)
    (ha : "account" = proposed.accountID) (hs : authorizedSigner proposed (.sigk 1) = true) :
    Ready alice (some laptop) (some unbound) proposed "laptop" where
  transition := ht
  account := ha
  machine := Or.inr (by decide +kernel)
  signer := rfl
  authorized := hs
  operation := by decide
  salt := rfl
  nonce := rfl
  old := by
    rintro o ⟨⟩
    refine ⟨unbound, rfl, parsed_iff.mp (by decide +kernel), ?_⟩
    decide +kernel

/-- The proposal that binds the laptop again and removes a manager at once is valid, and
the laptop's manifest cannot be built for it. -/
theorem transition_manifest_stuck :
    ¬ ∀ (s : Staging) (old : Option Manifest) (current : Option Authority) (proposed : Authority)
      (machineID : String) (rotate : List ScopeRef), Ready s old current proposed machineID →
      ∃ next, buildTransitionManifest s old current proposed machineID rotate = .ok next := by
  intro h
  have hready : Ready alice (some laptop) (some unbound) backWithoutBob "laptop" :=
    ready_back (by decide +kernel) (by decide +kernel) (by decide +kernel)
  obtain ⟨next, hnext⟩ := h _ _ _ _ _ [] hready
  have hfail : buildTransitionManifest alice (some laptop) (some unbound) backWithoutBob "laptop" [] =
      .error .integrity := by decide +kernel
  cases hnext

theorem transition_manifest_built_back :
    ∃ next, buildTransitionManifest alice (some laptop) (some unbound) back "laptop" [] = .ok next := by
  have hready : Ready alice (some laptop) (some unbound) back "laptop" :=
    ready_back (by decide +kernel) (by decide +kernel) (by decide +kernel)
  rw [transition_manifest_built_iff _ _ _ _ _ _ hready]
  refine Or.inr ?_
  decide +kernel

end Demo

end Paperboat.EnvironmentManager
