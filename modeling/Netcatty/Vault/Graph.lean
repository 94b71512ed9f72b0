import Netcatty.Vault.Catalogs

/-! # The vault graph and its checks

`SavedVaultGraph` is the set of catalogs whose records refer to each other, `Inventory` adds the
known hosts and the connection logs.  The functions here are the checks that a commit, an import
and the reading of a snapshot make of them: that records are valid and ids unique, and that every
relation in force resolves. -/

namespace Netcatty.Vault

open Catalog

/-! ### Errors -/

inductive SavedVaultEntityKind
  | host | sshKeyReference | managedSshKey | identityReference | passwordIdentity | proxyProfile
  | group | snippet | note | portForwardRule | knownHost
  deriving DecidableEq, Repr

/-- The token of a compare-and-swap on the whole inventory. -/
structure SavedVaultInventoryRevision where
  storeId : Text
  loadedGeneration : ℕ
  maxSeenGeneration : ℕ
  sealText : Text
  deriving DecidableEq

inductive StoreError
  | io
  | serialization
  | validation (error : ValidationError)
  | artifactConflict
  | bothSlotsCorrupt
  | conflictingGeneration
  | generationOverflow
  | duplicateId (id : SavedHostId)
  | notFound (id : SavedHostId)
  | revisionConflict (id : SavedHostId) (expected actual : ℕ)
  | inventoryRevisionConflict (expected actual : SavedVaultInventoryRevision)
  | importConflict (id : SavedHostId)
  | duplicateGraphEntityId (kind : SavedVaultEntityKind)
  | graphImportConflict (kind : SavedVaultEntityKind)
  | missingGraphReference (source target : SavedVaultEntityKind)
  | incompatibleGraphReference (source target : SavedVaultEntityKind)
  | graphImportPlanMismatch
  | graphReplacementPlanMismatch
  | managedSecretRetentionUncertain
  | clockUnavailable
  deriving DecidableEq

def liftValidation {α : Type} : Except ValidationError α → Except StoreError α
  | .ok a => .ok a
  | .error error => .error (.validation error)

@[simp] theorem liftValidation_ok_iff {α : Type} {x : Except ValidationError α} {a : α} :
    liftValidation x = .ok a ↔ x = .ok a := by
  cases x <;> simp [liftValidation]

/-- Errors of a catalog that the store does not tell apart. -/
def liftSerialization {ε α : Type} : Except ε α → Except StoreError α
  | .ok a => .ok a
  | .error _ => .error .serialization

@[simp] theorem liftSerialization_ok_iff {ε α : Type} {x : Except ε α} {a : α} :
    liftSerialization x = .ok a ↔ x = .ok a := by
  cases x <;> simp [liftSerialization]

/-! ### The catalogs -/

structure SavedVaultGraph where
  hosts : List SavedHost
  sshKeyReferences : List SavedSshKeyReference
  managedSshKeys : List SavedManagedSshKey
  identityReferences : List SavedIdentityReference
  passwordIdentities : List SavedPasswordIdentity
  proxyProfiles : List SavedProxyProfile
  groups : List SavedGroupConfig
  customGroups : Option SavedGroupCatalog
  notesSnippets : SavedNotesSnippetsCatalog
  portForwardRules : List SavedPortForwardRule
  deriving DecidableEq

def SavedVaultGraph.empty : SavedVaultGraph :=
  ⟨[], [], [], [], [], [], [], none, .absent, []⟩

/-- `is_empty`: no record, and no optional catalog. -/
def SavedVaultGraph.isEmpty (graph : SavedVaultGraph) : Bool := graph = .empty

structure Inventory extends SavedVaultGraph where
  knownHosts : List SavedKnownHost
  connectionLogs : List SavedConnectionLog
  deriving DecidableEq

def Inventory.empty : Inventory := ⟨.empty, [], []⟩

/-! ### Normalizing the catalogs -/

section Normalize

variable (E : Externals)

def normalizeHosts (hosts : List SavedHost) : Except StoreError (List SavedHost) := do
  let _ ← checkUnique (fun host => liftValidation (host.validate E)) (·.id)
    (fun host => .duplicateId host.id) [] hosts
  return sortBy (SavedHost.stableCmp E) hosts

def normalizeSshKeyReferences (references : List SavedSshKeyReference) :
    Except StoreError (List SavedSshKeyReference) := do
  let _ ← checkUnique (fun reference => liftValidation reference.validate) (·.id)
    (fun _ => .duplicateGraphEntityId .sshKeyReference) [] references
  return sortBy (SavedSshKeyReference.stableCmp E) references

def normalizeManagedSshKeys (keys : List SavedManagedSshKey)
    (references : List SavedSshKeyReference) : Except StoreError (List SavedManagedSshKey) := do
  let _ ← checkUnique (fun key => liftValidation key.validate) (·.id)
    (fun _ => .duplicateGraphEntityId .managedSshKey) (references.map (·.id)) keys
  return sortBy (SavedManagedSshKey.stableCmp E) keys

def normalizePasswordIdentities (identities : List SavedPasswordIdentity)
    (references : List SavedIdentityReference) :
    Except StoreError (List SavedPasswordIdentity) := do
  let _ ← checkUnique (fun identity => liftValidation identity.validate) (·.id)
    (fun _ => .duplicateGraphEntityId .passwordIdentity) (references.map (·.id)) identities
  return sortBy (SavedPasswordIdentity.stableCmp E) identities

def normalizeProxyProfiles (profiles : List SavedProxyProfile) :
    Except StoreError (List SavedProxyProfile) := do
  let _ ← checkUnique (fun profile => liftValidation profile.validate) (·.id)
    (fun _ => .duplicateGraphEntityId .proxyProfile) [] profiles
  return sortBy (SavedProxyProfile.stableCmp E) profiles

/-- Groups are unique by id and by path. -/
def checkGroups : List Text → List Text → List SavedGroupConfig → Except StoreError Unit
  | _, _, [] => .ok ()
  | ids, paths, group :: groups => do
    if !group.isValid then .error .serialization
    if group.id ∈ ids ∨ group.path ∈ paths then .error (.duplicateGraphEntityId .group)
    checkGroups (group.id :: ids) (group.path :: paths) groups

def normalizeGroups (groups : List SavedGroupConfig) :
    Except StoreError (List SavedGroupConfig) := do
  checkGroups [] [] groups
  return sortBy (SavedGroupConfig.stableCmp E) groups

def mapPortForwardRuleError : SavedPortForwardRuleError → StoreError
  | .duplicateRule => .duplicateGraphEntityId .portForwardRule
  | .hostUnavailable => .missingGraphReference .portForwardRule .host
  | .hostUnsupported => .incompatibleGraphReference .portForwardRule .host
  | .invalidRule | .catalogTooLarge => .serialization

def normalizePortForwardRules (rules : List SavedPortForwardRule) (hosts : List SavedHost) :
    Except StoreError (List SavedPortForwardRule) :=
  match normalizeAndValidatePortForwardRules rules hosts with
  | .ok rules => .ok (sortBy SavedPortForwardRule.cmp rules)
  | .error error => .error (mapPortForwardRuleError error)

def normalizeConnectionLogs (logs : List SavedConnectionLog) :
    Except StoreError (List SavedConnectionLog) := do
  liftSerialization (validateSavedConnectionLogs logs)
  return sortBy SavedConnectionLog.cmp logs

end Normalize

/-! ### References -/

/-- The maps by which references are resolved. -/
structure GraphLookups where
  referenceCategories : Text → Option SavedSshKeyCategory
  managedCategories : Text → Option SavedSshKeyCategory
  identities : Text → Option SavedIdentityReference
  passwordIdentities : Text → Option SavedPasswordIdentity
  proxyProfiles : Text → Option SavedProxyProfile

def GraphLookups.of (references : List SavedSshKeyReference) (keys : List SavedManagedSshKey)
    (identities : List SavedIdentityReference) (passwordIdentities : List SavedPasswordIdentity)
    (profiles : List SavedProxyProfile) : GraphLookups where
  referenceCategories id := (lookupBy (·.id) references id).map (·.category)
  managedCategories id := (lookupBy (·.id) keys id).map (·.category)
  identities := lookupBy (·.id) identities
  passwordIdentities := lookupBy (·.id) passwordIdentities
  proxyProfiles := lookupBy (·.id) profiles

def SavedVaultGraph.lookups (graph : SavedVaultGraph) : GraphLookups :=
  .of graph.sshKeyReferences graph.managedSshKeys graph.identityReferences graph.passwordIdentities
    graph.proxyProfiles

/-- Entries of the first maps hide those of the second. -/
def GraphLookups.over (candidates loaded : GraphLookups) : GraphLookups where
  referenceCategories id := (candidates.referenceCategories id).or (loaded.referenceCategories id)
  managedCategories id := (candidates.managedCategories id).or (loaded.managedCategories id)
  identities id := (candidates.identities id).or (loaded.identities id)
  passwordIdentities id := (candidates.passwordIdentities id).or (loaded.passwordIdentities id)
  proxyProfiles id := (candidates.proxyProfiles id).or (loaded.proxyProfiles id)

def validateIdentityKeyReference (L : GraphLookups) (identity : SavedIdentityReference) :
    Except StoreError Unit :=
  if identity.authMethod.isCertificate then
    match L.managedCategories identity.keyId with
    | some category =>
      if category.isCertificate then .ok ()
      else .error (.incompatibleGraphReference .identityReference .managedSshKey)
    | none =>
      if (L.referenceCategories identity.keyId).isSome then
        .error (.incompatibleGraphReference .identityReference .sshKeyReference)
      else .error (.missingGraphReference .identityReference .managedSshKey)
  else
    match L.referenceCategories identity.keyId with
    | some category =>
      if category.isCertificate then
        .error (.incompatibleGraphReference .identityReference .sshKeyReference)
      else .ok ()
    | none =>
      match L.managedCategories identity.keyId with
      | some category =>
        if category.isPrivateKeyMaterial then .ok ()
        else .error (.incompatibleGraphReference .identityReference .managedSshKey)
      | none => .error (.missingGraphReference .identityReference .sshKeyReference)

/-- A relation in the flattened fields of a host. -/
def hostCatalogReference (host : SavedHost) (field : String) : Except StoreError (Option Text) :=
  match host.compatibilityFields.get? field with
  | none | some .null => .ok none
  | some (.string value) => if value.isEmpty then .ok none else .ok (some value)
  | some _ =>
    .error (.missingGraphReference .host
      (if field = "identityId" then .identityReference
        else if field = "telnetIdentityId" then .passwordIdentity
        else .sshKeyReference))

/-- The key that a host names itself. -/
def validateHostKeyReference (L : GraphLookups) (authMethod : SavedHostAuthMethod) (keyId : Text) :
    Except StoreError Unit :=
  if authMethod.isPassword then .error (.incompatibleGraphReference .host .sshKeyReference)
  else if authMethod.isKey then
    match L.referenceCategories keyId with
    | some category =>
      if category.isCertificate then .error (.incompatibleGraphReference .host .sshKeyReference)
      else .ok ()
    | none =>
      match L.managedCategories keyId with
      | some category =>
        if category.isPrivateKeyMaterial then .ok ()
        else .error (.incompatibleGraphReference .host .managedSshKey)
      | none => .error (.missingGraphReference .host .sshKeyReference)
  else if authMethod.isCertificate then
    match L.managedCategories keyId with
    | some category =>
      if category.isCertificate then .ok ()
      else .error (.incompatibleGraphReference .host .managedSshKey)
    | none =>
      if (L.referenceCategories keyId).isSome then
        .error (.incompatibleGraphReference .host .sshKeyReference)
      else .error (.missingGraphReference .host .managedSshKey)
  else if (L.referenceCategories keyId).isNone && (L.managedCategories keyId).isNone then
    .error (.missingGraphReference .host .sshKeyReference)
  else .ok ()

/-- The identity of a host, next to the key that the host names itself. -/
def validateHostIdentityReference (L : GraphLookups) (authMethod : SavedHostAuthMethod)
    (directKeyId : Option Text) (identityId : Text) : Except StoreError Unit :=
  if authMethod.isPassword then
    if (L.passwordIdentities identityId).isSome then .ok ()
    else if (L.identities identityId).isSome then
      .error (.incompatibleGraphReference .host .identityReference)
    else .error (.missingGraphReference .host .passwordIdentity)
  else
    match L.identities identityId with
    | none =>
      if (L.passwordIdentities identityId).isSome then
        .error (.incompatibleGraphReference .host .passwordIdentity)
      else .error (.missingGraphReference .host .identityReference)
    | some identity =>
      if directKeyId.any (· ≠ identity.keyId) then
        .error (.incompatibleGraphReference .host .identityReference)
      else if (!authMethod.isKey && !authMethod.isCertificate) ||
          (authMethod.isKey && !identity.authMethod.isKey) ||
          (authMethod.isCertificate && !identity.authMethod.isCertificate) then
        .error (.incompatibleGraphReference .host .identityReference)
      else .ok ()

def validateHostGraphReference (L : GraphLookups) (host : SavedHost) : Except StoreError Unit :=
  if host.protocol.isSerial then .ok ()
  else if host.protocol.isTelnet then do
    match ← hostCatalogReference host "telnetIdentityId" with
    | none => .ok ()
    | some identityId =>
      if (L.passwordIdentities identityId).isSome then .ok ()
      else if (L.identities identityId).isSome then
        .error (.incompatibleGraphReference .host .passwordIdentity)
      else .error (.missingGraphReference .host .passwordIdentity)
  else do
    let directKeyId ← hostCatalogReference host "identityFileId"
    let identityId ← hostCatalogReference host "identityId"
    match directKeyId with
    | none => .ok ()
    | some keyId => validateHostKeyReference L host.authMethod keyId
    match identityId with
    | none => .ok ()
    | some identityId => validateHostIdentityReference L host.authMethod directKeyId identityId

def validateProxyConfigReference (L : GraphLookups) (config : SavedProxyConfig)
    (source : SavedVaultEntityKind) : Except StoreError Unit := do
  liftValidation config.validate
  match config.identityId with
  | none => .ok ()
  | some identityId =>
    if (L.passwordIdentities identityId).isSome then .ok ()
    else if (L.identities identityId).isSome then
      .error (.incompatibleGraphReference source .identityReference)
    else .error (.missingGraphReference source .passwordIdentity)

/-- The proxy of a host.  An inline proxy hides the profile. -/
def validateHostProxyReference (E : Externals) (L : GraphLookups) (host : SavedHost) :
    Except StoreError Unit :=
  if host.protocol.isTelnet || host.protocol.isSerial then .ok ()
  else if (host.compatibilityFields.get? "proxyConfig").any (!·.isNull) then do
    match ← liftValidation (host.proxyConfig E) with
    | some config => validateProxyConfigReference L config .host
    | none => .error (.validation .invalidProxyConfig)
  else do
    match ← liftValidation host.proxyProfileId with
    | none => .ok ()
    | some profileId =>
      if (L.proxyProfiles profileId).isSome then .ok ()
      else .error (.missingGraphReference .host .proxyProfile)

def validateGroupGraphReference (L : GraphLookups) (hostIds : List Text)
    (group : SavedGroupConfig) : Except StoreError Unit := do
  match group.defaults.hostChain with
  | .set chain =>
    if chain.any (· ∉ hostIds) then .error (.missingGraphReference .group .host)
  | _ => .ok ()
  match group.defaults.identityFileId with
  | .set keyId =>
    if (L.referenceCategories keyId).isNone && (L.managedCategories keyId).isNone then
      .error (.missingGraphReference .group .sshKeyReference)
  | _ => .ok ()
  match group.defaults.identityId with
  | .set (.key id) =>
    if (L.identities id).isSome then .ok ()
    else if (L.passwordIdentities id).isSome then
      .error (.incompatibleGraphReference .group .passwordIdentity)
    else .error (.missingGraphReference .group .identityReference)
  | .set (.password id) =>
    if (L.passwordIdentities id).isSome then .ok ()
    else if (L.identities id).isSome then
      .error (.incompatibleGraphReference .group .identityReference)
    else .error (.missingGraphReference .group .passwordIdentity)
  | _ => .ok ()
  match group.defaults.telnetIdentityId with
  | .set id =>
    if (L.passwordIdentities id).isSome then .ok ()
    else if (L.identities id).isSome then
      .error (.incompatibleGraphReference .group .identityReference)
    else .error (.missingGraphReference .group .passwordIdentity)
  | _ => .ok ()
  match group.defaults.proxy with
  | .profile id =>
    if (L.proxyProfiles id).isSome then .ok ()
    else .error (.missingGraphReference .group .proxyProfile)
  | .inline config => validateProxyConfigReference L config .group
  | .inherit | .clear => .ok ()

/-! ### Scripts, snippet targets and note links -/

/-- The kinds of the snippets, by id. -/
abbrev Scripts := Text → Option (Option SavedSnippetKind)

def missingHostSnippetReference : StoreError := .missingGraphReference .host .snippet

def validateScriptReference (scripts : Scripts) (id : Text) : Except StoreError Unit :=
  match scripts id with
  | none => .error missingHostSnippetReference
  | some (some .script) => .ok ()
  | some _ => .error (.incompatibleGraphReference .host .snippet)

def validateScriptId (scripts : Scripts) : Value → Except StoreError Unit
  | .string id =>
    if id.isEmpty then .error missingHostSnippetReference else validateScriptReference scripts id
  | _ => .error missingHostSnippetReference

def validateTrigger (scripts : Scripts) : Value → Except StoreError Unit
  | .object trigger =>
    match trigger.lookup "scriptId".toList with
    | some value => validateScriptId scripts value
    | none => .error missingHostSnippetReference
  | _ => .error missingHostSnippetReference

/-- A field that holds a list of values. -/
def validateListField (check : Value → Except StoreError Unit) :
    Option Value → Except StoreError Unit
  | none | some .null => .ok ()
  | some (.array values) => checkAll check values
  | some _ => .error missingHostSnippetReference

def validateLoginScript (scripts : Scripts) : Option Value → Except StoreError Unit
  | none | some .null => .ok ()
  | some (.string id) => if id.isEmpty then .ok () else validateScriptReference scripts id
  | some _ => .error missingHostSnippetReference

def validateHostScriptReferences (scripts : Scripts) (host : SavedHost) :
    Except StoreError Unit := do
  validateLoginScript scripts (host.compatibilityFields.get? "loginScriptId")
  validateListField (validateScriptId scripts) (host.compatibilityFields.get? "connectScriptIds")
  validateListField (validateTrigger scripts) (host.compatibilityFields.get? "outputTriggers")

def validateGroupScriptReference (scripts : Scripts) (group : SavedGroupConfig) :
    Except StoreError Unit :=
  match group.defaults.loginScriptId with
  | .set id =>
    match scripts id with
    | none => .error (.missingGraphReference .group .snippet)
    | some (some .script) => .ok ()
    | some _ => .error (.incompatibleGraphReference .group .snippet)
  | _ => .ok ()

/-- `validate_host_references`: the hosts that snippets and notes name are among the ids. -/
def validateHostReferences (catalog : SavedNotesSnippetsCatalog) (hostIds : List Text) :
    Except StoreError Unit := do
  checkAll (fun id => if isOpaqueId id then .ok () else .error .serialization) hostIds
  checkAll (fun snippet => checkAll (fun id =>
    if id ∈ hostIds then .ok () else .error (.missingGraphReference .snippet .host))
      (snippet.targets.getD [])) (catalog.parts.snippets.getD [])
  checkAll (fun note => checkAll (fun id =>
    if id ∈ hostIds then .ok () else .error (.missingGraphReference .note .host))
      (note.linkedHostIds.getD [])) (catalog.parts.notes.getD [])

def scriptsOf (snippets : List SavedSnippet) : Scripts :=
  fun id => (lookupBy (·.id) snippets id).map (·.kind)

def validateNotesSnippetsGraphReferences (hosts : List SavedHost) (groups : List SavedGroupConfig)
    (catalog : SavedNotesSnippetsCatalog) : Except StoreError Unit := do
  validateHostReferences catalog (hosts.map (·.id))
  match catalog.parts.snippets with
  | none => .ok ()
  | some snippets =>
    checkAll (validateHostScriptReferences (scriptsOf snippets)) hosts
    checkAll (validateGroupScriptReference (scriptsOf snippets)) groups

/-! ### Candidates -/

section Candidates

variable (E : Externals)

def validateGraphCandidates (candidates : SavedVaultGraph) : Except StoreError Unit := do
  let _ ← checkUnique (fun host => liftValidation (host.validate E)) (·.id)
    (fun _ => .duplicateGraphEntityId .host) [] candidates.hosts
  let keyIds ← checkUnique (fun reference => liftValidation reference.validate) (·.id)
    (fun _ => .duplicateGraphEntityId .sshKeyReference) [] candidates.sshKeyReferences
  let _ ← checkUnique (fun key => liftValidation key.validate) (·.id)
    (fun _ => .duplicateGraphEntityId .managedSshKey) keyIds candidates.managedSshKeys
  let identityIds ← checkUnique (fun reference => liftValidation reference.validate) (·.id)
    (fun _ => .duplicateGraphEntityId .identityReference) [] candidates.identityReferences
  let _ ← checkUnique (fun identity => liftValidation identity.validate) (·.id)
    (fun _ => .duplicateGraphEntityId .passwordIdentity) identityIds candidates.passwordIdentities
  let _ ← checkUnique (fun profile => liftValidation profile.validate) (·.id)
    (fun _ => .duplicateGraphEntityId .proxyProfile) [] candidates.proxyProfiles
  checkGroups [] [] candidates.groups

/-- The snippets that a script is looked up in: those of the store before those of the
candidates. -/
def candidateScripts (loaded candidates : List SavedSnippet) : Scripts :=
  fun id => ((lookupBy (·.id) loaded id).or (candidates.find? (·.id = id))).map (·.kind)

def validateCandidateNotesSnippetsReferences (candidates loaded : SavedVaultGraph) :
    Except StoreError Unit := do
  validateHostReferences candidates.notesSnippets
    ((loaded.hosts ++ candidates.hosts).map (·.id))
  let loadedSnippets := loaded.notesSnippets.parts.snippets
  let candidateSnippets := candidates.notesSnippets.parts.snippets
  if loadedSnippets.isNone && candidateSnippets.isNone then .ok ()
  else
    let scripts := candidateScripts (loadedSnippets.getD []) (candidateSnippets.getD [])
    if candidateSnippets.isSome then do
      checkAll (validateHostScriptReferences scripts) (loaded.hosts ++ candidates.hosts)
      checkAll (validateGroupScriptReference scripts) (loaded.groups ++ candidates.groups)
    else do
      checkAll (validateHostScriptReferences scripts) candidates.hosts
      checkAll (validateGroupScriptReference scripts) candidates.groups

def validateCandidateGraphReferences (candidates loaded : SavedVaultGraph) :
    Except StoreError Unit := do
  let L := candidates.lookups.over loaded.lookups
  checkAll (validateIdentityKeyReference L) candidates.identityReferences
  checkAll (fun profile => validateProxyConfigReference L profile.config .proxyProfile)
    candidates.proxyProfiles
  checkAll (fun host => do
    validateHostGraphReference L host
    validateHostProxyReference E L host) candidates.hosts
  checkAll (validateGroupGraphReference L ((candidates.hosts ++ loaded.hosts).map (·.id)))
    candidates.groups
  let _ ← normalizePortForwardRules candidates.portForwardRules (loaded.hosts ++ candidates.hosts)
  validateCandidateNotesSnippetsReferences candidates loaded

end Candidates

/-! ### A complete inventory -/

section Inventory

variable (E : Externals)

def normalizeIdentityReferences (L : GraphLookups) (references : List SavedIdentityReference) :
    Except StoreError (List SavedIdentityReference) := do
  let _ ← checkUnique (fun reference => liftValidation reference.validate) (·.id)
    (fun _ => .duplicateGraphEntityId .identityReference) [] references
  checkAll (validateIdentityKeyReference L) references
  return sortBy (SavedIdentityReference.stableCmp E) references

def validateHostGraphReferences (L : GraphLookups) (hosts : List SavedHost) :
    Except StoreError Unit := checkAll (validateHostGraphReference L) hosts

def validateProxyGraphReferences (L : GraphLookups) (hosts : List SavedHost)
    (profiles : List SavedProxyProfile) : Except StoreError Unit := do
  checkAll (fun profile => validateProxyConfigReference L profile.config .proxyProfile) profiles
  checkAll (validateHostProxyReference E L) hosts

def validateGroupGraphReferences (L : GraphLookups) (groups : List SavedGroupConfig)
    (hosts : List SavedHost) : Except StoreError Unit :=
  checkAll (validateGroupGraphReference L (hosts.map (·.id))) groups

/-- The graph's catalogs that every snapshot format normalizes, references between keys and
identities included. -/
def normalizeCatalogs (inventory : Inventory) : Except StoreError Inventory := do
  let hosts ← normalizeHosts E inventory.hosts
  let sshKeyReferences ← normalizeSshKeyReferences E inventory.sshKeyReferences
  let managedSshKeys ← normalizeManagedSshKeys E inventory.managedSshKeys sshKeyReferences
  let identityReferences ← normalizeIdentityReferences E
    (.of sshKeyReferences managedSshKeys [] [] []) inventory.identityReferences
  let passwordIdentities ← normalizePasswordIdentities E inventory.passwordIdentities
    identityReferences
  let proxyProfiles ← normalizeProxyProfiles E inventory.proxyProfiles
  let groups ← normalizeGroups E inventory.groups
  return { inventory with hosts, sshKeyReferences, managedSshKeys, identityReferences,
                          passwordIdentities, proxyProfiles, groups }

def normalizeLoadedStore (inventory : Inventory) : Except StoreError Inventory := do
  let inventory ← normalizeCatalogs E inventory
  let portForwardRules ← normalizePortForwardRules inventory.portForwardRules inventory.hosts
  liftSerialization (validateSavedKnownHosts inventory.knownHosts)
  let connectionLogs ← normalizeConnectionLogs inventory.connectionLogs
  let L := inventory.lookups
  validateHostGraphReferences L inventory.hosts
  validateProxyGraphReferences E L inventory.hosts inventory.proxyProfiles
  validateGroupGraphReferences L inventory.groups inventory.hosts
  validateNotesSnippetsGraphReferences inventory.hosts inventory.groups inventory.notesSnippets
  return { inventory with portForwardRules, connectionLogs }

end Inventory

end Netcatty.Vault
