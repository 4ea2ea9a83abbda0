import Paperboat.EnvironmentManager.BuildTransition
import Paperboat.EnvInject.Variables
import Paperboat.Lib.Transition

/-! Setting and unsetting variables. A manager edits one scope at a time; a host reads
the merge of the global scope with the scope of its machine. -/

namespace Paperboat.EnvironmentManager

open EnvironmentE2EE EnvInject Transition

/-- The latest manifests of an account as the server hands them out. -/
structure World where
  authority : Authority
  global : Manifest
  machines : String → Option Manifest

inductive Edit where
  | set (name : String) (value : Value)
  | unset (name : String)

/-- One call of `Set` or `Unset`; the machine identifier is empty for the global scope. -/
structure Call where
  writer : Staging
  machineID : String
  edit : Edit

/-- The plaintext of a manifest. -/
abbrev values (m : Manifest) : Values := m.ciphertext.entries

def configuredName (values : Values) (requested : String) : Option String :=
  (values.find? fun entry => toUpper entry.1 == toUpper requested).map Prod.fst

def validateEdit : Edit → Bool
  | .set name value => validVariableName name && validValue value
  | .unset name => validVariableName name

/-- The name that `Set` writes: the spelling that is configured, or the one requested. -/
def canonicalName (values : Values) (requested : String) : String := (configuredName values requested).getD requested

def assign (values : Values) (name : String) (value : Value) : Values :=
  values.filter (fun entry => entry.1 != name) ++ [(name, value)]

def delete (values : Values) (name : String) : Values := values.filter fun entry => entry.1 != name

/-- The edited variables, the changed name and the kind of mutation. -/
def applyEdit (values : Values) : Edit → Option (Values × String × MutationKind)
  | .set name value =>
    let canonical := canonicalName values name
    some (assign values canonical value, canonical, .set)
  | .unset name => (configuredName values name).map fun canonical => (delete values canonical, canonical, .unset)

def authorizedManager (authority : Authority) (writer : Staging) : Bool :=
  authority.bindings.any fun b => b.subjectKind == .managerCLI && b.subjectID == writer.recipient.subjectID &&
    b.keyGeneration == writer.recipient.keyGeneration && b.signingKeyID == some writer.signerID &&
    b.recipientKeyID == writer.recipient.keyID

def World.manifest (w : World) (machineID : String) : Option Manifest :=
  if machineID = "" then some w.global else w.machines machineID

def World.put (w : World) (machineID : String) (next : Manifest) : World :=
  if machineID = "" then { w with global := next }
  else { w with machines := Function.update w.machines machineID (some next) }

def mutationClaims (writer : Staging) (manifest : Manifest) (mutation : MutationKind) (name : String) :
    ManifestHeader :=
  { manifest.toManifestHeader with
    previousVersion := manifest.version, version := manifest.version + 1, operationID := writer.operation,
    mutation := mutation, changedNames := [name], salt := [], nonce := [], names := [] }

def mutationInput (writer : Staging) (edited : Values) (scopeKey : Nat) (recipients : List Recipient) :
    BuildManifestInput where
  values := edited
  scopeKey := scopeKey
  recipients := recipients
  signerKeyID := writer.signerID
  signerPrivate := writer.signerPrivate
  salt := writer.salt
  nonce := writer.nonce
  signature := writer.signature

/-- The manifest that a call publishes. -/
def mutate (w : World) (call : Call) : Option Manifest := do
  guard (validateEdit call.edit)
  guard (authorizedManager w.authority call.writer)
  let raw ← w.manifest call.machineID
  let manifest ← parseManifest raw w.authority
  guard (manifest.accountID == call.writer.accountID && manifest.scope == scopeOf call.machineID &&
    manifest.machineID == call.machineID)
  let decrypted ← decryptManifest manifest call.writer.recipient
  let (edited, name, mutation) ← applyEdit decrypted.values call.edit
  let recipients ← w.authority.expectedRecipients manifest.scope manifest.state manifest.machineID
  let raw ← buildManifest (mutationClaims call.writer manifest mutation name)
    (mutationInput call.writer edited decrypted.scopeKey recipients)
  let next ← parseManifest raw w.authority
  guard (validateManifestTransition (some manifest) next (some w.authority) w.authority)
  some next

def step (w : World) (call : Call) : Option World := (mutate w call).map (w.put call.machineID)

/-! ### What a call publishes -/

/-- A manifest that opens, to its plaintext, for everyone it is wrapped for. -/
def Opens (m : Manifest) : Prop :=
  ∀ r : RecipientPrivate, r.toRecipient ∈ m.recipients → r.privateKey = r.keyID →
    decryptManifest m r = some ⟨values m, m.ciphertext.scopeKey⟩

theorem decryptManifest_entries (h : decryptManifest m r = some d) :
    d.values = values m := by
  simp only [decryptManifest, Option.bind_eq_bind, Option.bind_eq_some_iff] at h
  obtain ⟨w, -, k, -, h⟩ := h
  split at h
  · obtain ⟨v, hdecode, h⟩ := Option.bind_eq_some_iff.mp h
    split at h
    · cases h
      exact (decodeScope_eq_some hdecode).1
    · cases h
  · cases h

theorem opens_of_buildManifest {input : BuildManifestInput}
    (h : buildManifest claims input = some m) : Opens m ∧ encodeScope input.values = some (values m) := by
  obtain ⟨entries, padded, henc, hpad, rfl, hvalid⟩ := buildManifest_eq_some h
  refine ⟨fun r hr hkey => ?_, henc⟩
  simp only [validateManifestClaims, Bool.and_eq_true, decide_eq_true_eq] at hvalid
  have hstrict := hvalid.1.2
  rw [built_recipients] at hr hstrict
  have hnodup : (sortRecipients input.recipients).Nodup := by
    have hp : (sortRecipients input.recipients).IsChain (· < ·) :=
      hstrict.imp fun _ _ hab => recipientLess_iff_lt.mp hab
    exact hp.pairwise.imp fun hab => ne_of_lt hab
  exact @built_decrypt _ { input with recipients := sortRecipients input.recipients } _ _ hnodup henc hpad _ hr hkey

theorem mutate_eq_some {call : Call} (h : mutate w call = some next) :
    ∃ old edited, w.manifest call.machineID = some old ∧ Opens next ∧
      encodeScope edited = some (values next) ∧ (applyEdit (values old) call.edit).map Prod.fst = some edited := by
  simp only [mutate, Option.bind_eq_bind, Option.bind_eq_some_iff] at h
  obtain ⟨-, -, -, -, old, hold, m, hm, -, -, d, hd, ⟨edited, name, mutation⟩, hedit, rec, -, raw, hraw, n, hn, -, -, h⟩ := h
  cases h
  cases parseManifest_eq_some hm
  cases parseManifest_eq_some hn
  obtain ⟨hopens, henc⟩ := opens_of_buildManifest hraw
  refine ⟨old, edited, hold, hopens, henc, ?_⟩
  rw [← decryptManifest_entries hd, hedit]
  rfl

/-! ### Pairs of scopes -/

/-- The global variables and those of a machine go together: no name is spelled
differently in them, and counted separately they fit the limits of one scope. -/
structure Paired (global machine : Values) : Prop where
  spelling : ∀ x ∈ global, ∀ y ∈ machine, toUpper x.1 = toUpper y.1 → x.1 = y.1
  length : global.length + machine.length ≤ maximumVariables
  size : plaintextSize (global ++ machine) ≤ maximumScopeBytes

/-- Variables that a call may write next to the variables of the other scope. -/
structure Fits (name : String) (edited other : Values) : Prop where
  spelling : ∀ x ∈ other, toUpper x.1 = toUpper name → x.1 = name
  length : edited.length + other.length ≤ maximumVariables
  size : plaintextSize (edited ++ other) ≤ maximumScopeBytes

/-- The scopes that are merged with the given one. -/
def World.Partner (w : World) (machineID : String) (other : Manifest) : Prop :=
  if machineID = "" then ∃ id, w.machines id = some other else other = w.global

/-- A call of `Set` that fits every scope it is merged with. -/
def Compatible (w : World) (call : Call) : Prop :=
  match call.edit with
  | .unset _ => True
  | .set name value => ∀ own other, w.manifest call.machineID = some own → w.Partner call.machineID other →
      Fits (canonicalName (values own) name)
        (assign (values own) (canonicalName (values own) name) value) (values other)

theorem Paired.of_perm {g g' m m' : Values} (h : Paired g m) (hg : g.Perm g') (hm : m.Perm m') : Paired g' m' where
  spelling := fun x hx y hy => h.spelling x (hg.mem_iff.mpr hx) y (hm.mem_iff.mpr hy)
  length := by rw [← hg.length_eq, ← hm.length_eq]; exact h.length
  size := by rw [← plaintextSize_perm (hg.append hm)]; exact h.size

theorem Paired.of_sublist {g g' m m' : Values} (h : Paired g m) (hg : g'.Sublist g) (hm : m'.Sublist m) :
    Paired g' m' where
  spelling := fun x hx y hy => h.spelling x (hg.subset hx) y (hm.subset hy)
  length := (Nat.add_le_add hg.length_le hm.length_le).trans h.length
  size := (plaintextSize_sublist (hg.append hm)).trans h.size

theorem Paired.merges (h : Paired g m) (hg : Encodable g) (hm : Encodable m) :
    ∃ merged, mergeScopes g m = some merged ∧ validateVariables merged = true := by
  obtain ⟨merged, hmerged⟩ := Option.isSome_iff_exists.mp (mergeScopes_isSome hg hm h.spelling h.length h.size)
  exact ⟨merged, hmerged, validateVariables_of_encodable (encodable_of_mergeScopes hmerged)⟩

theorem mem_assign {values : Values} {value : Value}
    (h : x ∈ assign values name value) : x ∈ values ∨ x.1 = name := by
  rcases List.mem_append.mp h with h | h
  · exact Or.inl (List.mem_filter.mp h).1
  · rw [List.mem_singleton.mp h]
    exact Or.inr rfl

/-- Writing the global scope keeps it paired. -/
theorem Paired.assign_global (h : Paired g m) (hfits : Fits name (assign g name value) m) :
    Paired (assign g name value) m where
  spelling := by
    intro x hx y hy hfold
    rcases mem_assign hx with hx | hx
    · exact h.spelling x hx y hy hfold
    · rw [hx] at hfold ⊢
      exact (hfits.spelling y hy hfold.symm).symm
  length := hfits.length
  size := hfits.size

/-- Writing the machine's scope keeps it paired. -/
theorem Paired.assign_machine (h : Paired g m) (hfits : Fits name (assign m name value) g) :
    Paired g (assign m name value) where
  spelling := by
    intro x hx y hy hfold
    rcases mem_assign hy with hy | hy
    · exact h.spelling x hx y hy hfold
    · rw [hy] at hfold ⊢
      exact hfits.spelling x hx hfold
  length := by rw [Nat.add_comm]; exact hfits.length
  size := by rw [plaintextSize_perm List.perm_append_comm]; exact hfits.size

/-! ### Every run of calls -/

/-- Nothing is configured yet. -/
structure Fresh (w : World) : Prop where
  global : Opens w.global ∧ values w.global = []
  machines : ∀ id m, w.machines id = some m → Opens m ∧ values m = []

/-- A bound host applies what it is handed: everyone who can open the global manifest and
the manifest of a machine gets variables that merge and pass the host's check. -/
def Applies (w : World) : Prop :=
  ∀ id m (r : RecipientPrivate), w.machines id = some m → r.toRecipient ∈ w.global.recipients →
    r.toRecipient ∈ m.recipients → r.privateKey = r.keyID →
    ∃ g v merged, decryptManifest w.global r = some g ∧ decryptManifest m r = some v ∧
      mergeScopes g.values v.values = some merged ∧ validateVariables merged = true

structure Good (m : Manifest) : Prop where
  opens : Opens m
  encodable : Encodable (values m)

structure Inv (w : World) : Prop where
  global : Good w.global
  machines : ∀ id m, w.machines id = some m → Good m
  paired : ∀ id m, w.machines id = some m → Paired (values w.global) (values m)

theorem encodable_nil : Encodable [] := encodable_of_encodeScope encodeScope_nil

theorem Fresh.inv (h : Fresh w) : Inv w where
  global := ⟨h.global.1, h.global.2 ▸ encodable_nil⟩
  machines := fun id m hm => ⟨(h.machines id m hm).1, (h.machines id m hm).2 ▸ encodable_nil⟩
  paired := by
    intro id m hm
    rw [h.global.2, (h.machines id m hm).2]
    exact ⟨by simp, by decide, by decide⟩

/-- The variables after an edit of the scope with plaintext `own`, up to their order. -/
inductive Edited (own : Values) (edit : Edit) : Values → Prop
  | assigned {name value} (h : edit = .set name value) :
      Edited own edit (assign own (canonicalName own name) value)
  | deleted {name canonical} (h : edit = .unset name) : Edited own edit (delete own canonical)

theorem edited_of_applyEdit (h : (applyEdit own edit).map Prod.fst = some edited) :
    Edited own edit edited := by
  cases edit with
  | set name value =>
    cases h
    exact .assigned rfl
  | unset name =>
    simp only [applyEdit, Option.map_map, Option.map_eq_some_iff] at h
    obtain ⟨canonical, -, rfl⟩ := h
    exact .deleted rfl

theorem Inv.step (h : Inv w) (hc : Compatible w call)
    (hst : EnvironmentManager.step w call = some w') : Inv w' := by
  obtain ⟨next, hnext, rfl⟩ := Option.map_eq_some_iff.mp hst
  obtain ⟨old, edited, hold, hopens, henc, hedit⟩ := mutate_eq_some hnext
  have hgood : Good next := ⟨hopens, encodable_of_encodeScope henc⟩
  have hperm : edited.Perm (values next) := (encodeScope_eq_some henc).1 ▸ (sortEntries_perm edited).symm
  have hedited := edited_of_applyEdit hedit
  by_cases hm : call.machineID = ""
  · -- the global scope is written, next to every machine's scope
    simp only [World.manifest, hm, if_true] at hold
    cases hold
    simp only [World.put, hm, if_true]
    refine ⟨hgood, h.machines, fun id m hid => ?_⟩
    refine Paired.of_perm ?_ hperm (List.Perm.refl _)
    have hpair := h.paired id m hid
    cases hedited with
    | @assigned name value he =>
      rw [Compatible, he] at hc
      refine hpair.assign_global (hc w.global m ?_ ?_)
      · simp [World.manifest, hm]
      · simp only [World.Partner, hm, if_true]
        exact ⟨id, hid⟩
    | deleted he => exact hpair.of_sublist List.filter_sublist (List.Sublist.refl _)
  · -- one machine's scope is written, next to the global scope
    simp only [World.manifest, hm, if_false] at hold
    simp only [World.put, hm, if_false]
    have hother : ∀ id m, Function.update w.machines call.machineID (some next) id = some m →
        m = next ∨ w.machines id = some m := by
      intro id m hid
      rw [Function.update_apply] at hid
      split at hid
      · exact Or.inl (Option.some.inj hid).symm
      · exact Or.inr hid
    refine ⟨h.global, fun id m hid => ?_, fun id m hid => ?_⟩
    · rcases hother id m hid with rfl | hid
      · exact hgood
      · exact h.machines id m hid
    · rcases hother id m hid with rfl | hid
      · refine Paired.of_perm ?_ (List.Perm.refl _) hperm
        have hpair := h.paired _ old hold
        cases hedited with
        | @assigned name value he =>
          rw [Compatible, he] at hc
          refine hpair.assign_machine (hc old w.global ?_ ?_)
          · simp [World.manifest, hm, hold]
          · simp [World.Partner, hm]
        | deleted he => exact hpair.of_sublist (List.Sublist.refl _) List.filter_sublist
      · exact h.paired id m hid

theorem Inv.applies (h : Inv w) : Applies w := by
  intro id m r hm hglob hmach hkey
  obtain ⟨merged, hmerged, hvalid⟩ := (h.paired id m hm).merges h.global.encodable (h.machines id m hm).encodable
  exact ⟨_, _, merged, h.global.opens r hglob hkey, (h.machines id m hm).opens r hmach hkey, hmerged, hvalid⟩

/-- In every run of `Set` and `Unset` calls from empty scopes in which each `Set` fits the
scopes it is merged with, hosts can apply what is published, at every point. -/
theorem published_environment_applies (w₀ w : World) (hfresh : Fresh w₀)
    (hrun : Reach step Compatible w₀ w) : Applies w := by
  have hinv : Inv w := hrun.invariant hfresh.inv fun hx hok hst => hx.step hok hst
  exact hinv.applies

namespace Demo

open EnvironmentE2EE.Demo

theorem global_published : (publish bound .global "" .active .reauthorize 2 1 [] []).isSome := by decide +kernel

theorem laptop_published : (publish bound .machine "laptop" .active .initialise 1 1 [] []).isSome := by decide +kernel

def globalScope : Manifest := Option.get _ global_published
def laptopScope : Manifest := Option.get _ laptop_published

def account : World where
  authority := bound
  global := globalScope
  machines := fun id => if id = "laptop" then some laptopScope else none

def setGlobal : Call := ⟨alice, "", .set "TOKEN" [49]⟩
def setLaptop (name : String) : Call := ⟨alice, "laptop", .set name [50]⟩

theorem opens_of_publish
    (h : publish a scope machineID state mutation version keyEpoch changedNames vs = some m) :
    Opens m := by
  obtain ⟨recipients, -, h⟩ := Option.bind_eq_some_iff.mp h
  exact (opens_of_buildManifest h).1

theorem account_fresh : Fresh account where
  global := ⟨opens_of_publish (Option.some_get global_published).symm, by decide +kernel⟩
  machines := by
    intro id m hm
    simp only [account] at hm
    split at hm
    · cases hm
      exact ⟨opens_of_publish (Option.some_get laptop_published).symm, by decide +kernel⟩
    · cases hm

/-- The account after the variable is set for all machines. -/
def withToken : World := (step account setGlobal).get (by decide +kernel)

theorem compatible_setGlobal : Compatible account setGlobal := by
  intro own other hown hother
  simp only [setGlobal, World.manifest, World.Partner, if_true] at hown hother
  cases hown
  obtain ⟨id, hid⟩ := hother
  simp only [account] at hid
  split at hid
  · cases hid
    exact ⟨by decide +kernel, by decide +kernel, by decide +kernel⟩
  · cases hid

theorem compatible_setLaptop : Compatible withToken (setLaptop "TOKEN") := by
  intro own other hown hother
  have hlaptop : withToken.manifest "laptop" = some laptopScope := by decide +kernel
  simp only [setLaptop, hlaptop, Option.some.injEq] at hown
  cases hown
  simp only [setLaptop, World.Partner, String.reduceEq, if_false] at hother
  rw [hother]
  exact ⟨by decide +kernel, by decide +kernel, by decide +kernel⟩

theorem published_environment_applies_token :
    ∃ w, (w.machines "laptop").isSome = true ∧ Reach step Compatible account w ∧ Applies w := by
  have h₁ : step account setGlobal = some withToken := (Option.some_get _).symm
  obtain ⟨w, h₂⟩ := Option.isSome_iff_exists.mp
    (by decide +kernel : (step withToken (setLaptop "TOKEN")).isSome = true)
  have hrun : Reach step Compatible account w :=
    (Reach.refl.tail compatible_setGlobal h₁).tail compatible_setLaptop h₂
  refine ⟨w, ?_, hrun, published_environment_applies account w account_fresh hrun⟩
  obtain ⟨next, -, rfl⟩ := Option.map_eq_some_iff.mp h₂
  rfl

/-! ### Two spellings of one name -/

/-- The key of the laptop's host. -/
def laptopHost : RecipientPrivate := ⟨⟨.host, "laptop", 1, .envk 3⟩, .envk 3⟩

/-- What the laptop's host makes of the manifests it is handed. -/
def merged (w : World) : Option Values :=
  ((w.machines "laptop").bind fun m => (decryptManifest w.global laptopHost).bind fun g =>
    (decryptManifest m laptopHost).bind fun v => mergeScopes g.values v.values)

theorem two_spellings_published :
    ((run step account [setGlobal, setLaptop "token"]).map fun w =>
      (merged w, w.global.recipients.contains laptopHost.toRecipient,
        (w.machines "laptop").map fun m => m.recipients.contains laptopHost.toRecipient)) =
      some (none, true, some true) := by
  decide +kernel

/-- A variable set for all machines and then, in another spelling, for one machine is
published without an error and refused by that machine's host. -/
theorem published_environment_refused :
    ¬ ∀ w₀ w : World, Fresh w₀ → Reach step Always w₀ w → Applies w := by
  intro h
  obtain ⟨w, hrun, hw⟩ := Option.map_eq_some_iff.mp two_spellings_published
  simp only [Prod.mk.injEq, Option.map_eq_some_iff, List.contains_iff_mem] at hw
  obtain ⟨hmerged, hglobal, m, hm, hmem⟩ := hw
  obtain ⟨g, v, e, hg, hv, he, -⟩ := h account w account_fresh (reach_of_run _ hrun) "laptop" m laptopHost hm
    hglobal hmem rfl
  simp only [merged, hm, hg, hv, he, Option.bind_some, reduceCtorEq] at hmerged

end Demo

end Paperboat.EnvironmentManager
