import Paperboat.EnvironmentE2EE.Transition

/-! What a host accepts: the first pair of manifests it ever gets, and the latest pair
after an older one. -/

namespace Paperboat.EnvironmentE2EE

structure FirstHostDelivery where
  global : DecryptedScope
  machine : DecryptedScope
  effective : Values
  deriving DecidableEq, Repr

/-- The authority binds a host with this machine, key generation and key. The generation
of the installation is not looked at. -/
def bindsRecipient (authority : Authority) (recipient : Recipient) : Bool :=
  authority.bindings.any fun b => b.subjectKind == .host && b.subjectID == recipient.subjectID &&
    b.keyGeneration == recipient.keyGeneration && b.recipientKeyID == recipient.keyID

/-- A manifest that carries a scope over to a new authority. -/
def carriedShape (m : ManifestHeader) : Bool :=
  decide (0 < m.previousVersion) && m.version == m.previousVersion + 1 && decide (0 < m.keyEpoch) &&
    (m.mutation == .reauthorize || m.mutation == .rotate || m.mutation == .reset) &&
    ((m.mutation != .reauthorize && m.mutation != .rotate) || m.changedNames.isEmpty) &&
    (m.mutation != .reset || m.names.isEmpty)

def validFirstPairTransitionShape (m : ManifestHeader) : Bool :=
  if m.mutation = .initialise then startsScope m
  else if m.mutation = .reset ∧ m.previousVersion = 0 then startsScope m
  else carriedShape m

def validStandaloneManifestMutationShape (m : ManifestHeader) : Bool :=
  m.previousVersion + 1 == m.version && m.keyEpoch != 0 &&
    match m.mutation with
    | .initialise => startsScope m
    | .set => match m.changedNames with
      | [name] => contains m.names name
      | _ => false
    | .unset => match m.changedNames with
      | [name] => !contains m.names name
      | _ => false
    | .reauthorize | .rotate => m.changedNames.isEmpty
    | .reset => if m.previousVersion = 0 then startsScope m else m.names.isEmpty

/-- Both manifests are for active scopes, the second one for the recipient's machine. -/
def activePair (global machine : ManifestHeader) (recipient : Recipient) : Bool :=
  global.scope == .global && global.state == .active && machine.scope == .machine &&
    machine.machineID == recipient.subjectID && machine.state == .active

/-- Open both manifests and merge what they hold. -/
def openPair (global machine : Manifest) (recipient : RecipientPrivate) : Option FirstHostDelivery := do
  let openedGlobal ← decryptManifest global recipient
  let openedMachine ← decryptManifest machine recipient
  let effective ← mergeScopes openedGlobal.values openedMachine.values
  some ⟨openedGlobal, openedMachine, effective⟩

/-- The shapes of the first pair. Under the first authority both scopes begin; later the
global scope is carried over, and the machine's scope begins or is carried over. -/
def firstPairShape (previousAuthority : Option Authority) (global machine : ManifestHeader) : Bool :=
  if previousAuthority.isNone then
    global.mutation == .initialise && startsScope global && machine.mutation == .initialise && startsScope machine
  else carriedShape global && validFirstPairTransitionShape machine

def validateFirstHostDelivery (previousAuthority : Option Authority) (currentAuthority : Authority)
    (global machine : Manifest) (recipient : RecipientPrivate) : Option FirstHostDelivery :=
  if validateAuthorityTransition previousAuthority currentAuthority = true ∧ recipient.kind = .host ∧
      previousAuthority.any (bindsRecipient · recipient.toRecipient) = false ∧
      bindsRecipient currentAuthority recipient.toRecipient = true ∧
      (parseManifest global currentAuthority).isSome = true ∧
      (parseManifest machine currentAuthority).isSome = true ∧
      (global.mutation = .reset → authorityHasReset currentAuthority .global "" = true) ∧
      (machine.mutation = .reset → authorityHasReset currentAuthority .machine recipient.subjectID = true) ∧
      activePair global.toManifestHeader machine.toManifestHeader recipient.toRecipient = true ∧
      firstPairShape previousAuthority global.toManifestHeader machine.toManifestHeader = true then
    openPair global machine recipient
  else none

/-- A reset in the latest pair is one that the current authority lists, and under the
authority of the older pair it is the older manifest itself. -/
def resetAdmitted (older latest : Manifest) (currentAuthority : Authority) (scope : ScopeKind) (machineID : String)
    (sameAuthority : Bool) : Bool :=
  latest.mutation != .reset || (currentAuthority.generation != 1 &&
    authorityHasReset currentAuthority scope machineID && (!sameAuthority || latest == older))

/-- Under a newer authority a scope does not begin again. -/
def beginsAgain (latest : ManifestHeader) : Bool :=
  latest.mutation == .initialise || (latest.mutation == .reset && latest.previousVersion == 0)

/-- The version does not go back, and stays only with the manifest. -/
def notOlder (older latest : Manifest) : Bool :=
  decide (older.version ≤ latest.version) && (latest.version != older.version || latest == older)

def validateLatestAfterFirstDelivery (bootstrapGlobal bootstrapMachine latestGlobal latestMachine : Manifest)
    (bootstrapAuthority currentAuthority : Authority) (recipient : RecipientPrivate) :
    Option FirstHostDelivery :=
  let sameAuthority := currentAuthority.generation == bootstrapAuthority.generation
  if recipient.kind = .host ∧ bootstrapAuthority.accountID = currentAuthority.accountID ∧
      bootstrapAuthority.generation ≤ currentAuthority.generation ∧
      (sameAuthority = true → currentAuthority.id = bootstrapAuthority.id) ∧
      bindsRecipient currentAuthority recipient.toRecipient = true ∧
      (parseManifest latestGlobal currentAuthority).isSome = true ∧
      (parseManifest latestMachine currentAuthority).isSome = true ∧
      resetAdmitted bootstrapGlobal latestGlobal currentAuthority .global "" sameAuthority = true ∧
      resetAdmitted bootstrapMachine latestMachine currentAuthority .machine recipient.subjectID sameAuthority = true ∧
      (sameAuthority = false → beginsAgain latestGlobal.toManifestHeader = false ∧
        beginsAgain latestMachine.toManifestHeader = false) ∧
      activePair latestGlobal.toManifestHeader latestMachine.toManifestHeader recipient.toRecipient = true ∧
      notOlder bootstrapGlobal latestGlobal = true ∧ notOlder bootstrapMachine latestMachine = true ∧
      validStandaloneManifestMutationShape latestGlobal.toManifestHeader = true ∧
      validStandaloneManifestMutationShape latestMachine.toManifestHeader = true then
    openPair latestGlobal latestMachine recipient
  else none

/-- `ValidateLatestAfterHighWater` is the same rule, from the pair that is already held. -/
def validateLatestAfterHighWater (oldGlobal oldMachine latestGlobal latestMachine : Manifest)
    (oldAuthority currentAuthority : Authority) (recipient : RecipientPrivate) : Option FirstHostDelivery :=
  validateLatestAfterFirstDelivery oldGlobal oldMachine latestGlobal latestMachine oldAuthority currentAuthority
    recipient

end Paperboat.EnvironmentE2EE
