import Netcatty.Vault.Commitment

/-! # Graph imports and replacements

`applyGraphImport` merges the candidates of an import into a loaded inventory, catalog by catalog:
a candidate whose key is new is added, one that equals the record of its key is skipped, any other
conflicts with it and ends the import.  `assessGraphImport` classifies the candidates without
merging them.  A replacement (`projectGraphReplacement`) puts a complete graph in the place of the
loaded one. -/

namespace Netcatty.Vault

open Catalog

/-! ### Merging one catalog -/

def noClash {α : Type} (_ _ : α) : Bool := false
def noExclusion {α : Type} (_ : α) : Bool := false

def SavedGroupConfig.samePath (group candidate : SavedGroupConfig) : Bool :=
  group.path = candidate.path && group.id ≠ candidate.id

def hasManagedKey (keys : List SavedManagedSshKey) (candidate : SavedSshKeyReference) : Bool :=
  keys.any (·.id = candidate.id)

def hasKeyReference (references : List SavedSshKeyReference) (candidate : SavedManagedSshKey) :
    Bool := references.any (·.id = candidate.id)

def hasPasswordIdentity (identities : List SavedPasswordIdentity)
    (candidate : SavedIdentityReference) : Bool := identities.any (·.id = candidate.id)

def hasIdentityReference (references : List SavedIdentityReference)
    (candidate : SavedPasswordIdentity) : Bool := references.any (·.id = candidate.id)

def mergeSshKeyReferences (keys : List SavedManagedSshKey) :=
  merge (·.id) SavedSshKeyReference.businessFieldsEqual noClash (hasManagedKey keys)
    (fun _ => StoreError.graphImportConflict .sshKeyReference)

def mergeManagedSshKeys (references : List SavedSshKeyReference) :=
  merge (·.id) SavedManagedSshKey.businessFieldsEqual noClash (hasKeyReference references)
    (fun _ => StoreError.graphImportConflict .managedSshKey)

def mergeIdentityReferences (identities : List SavedPasswordIdentity) :=
  merge (·.id) SavedIdentityReference.businessFieldsEqual noClash (hasPasswordIdentity identities)
    (fun _ => StoreError.graphImportConflict .identityReference)

def mergePasswordIdentities (references : List SavedIdentityReference) :=
  merge (·.id) SavedPasswordIdentity.businessFieldsEqual noClash (hasIdentityReference references)
    (fun _ => StoreError.graphImportConflict .passwordIdentity)

def mergeProxyProfiles :=
  merge (·.id) SavedProxyProfile.businessFieldsEqual noClash noExclusion
    (fun _ => StoreError.graphImportConflict .proxyProfile)

def mergeGroups :=
  merge (·.id) SavedGroupConfig.businessFieldsEqual SavedGroupConfig.samePath noExclusion
    (fun _ => StoreError.graphImportConflict .group)

def mergeHosts :=
  merge (·.id) SavedHost.businessFieldsEqual noClash noExclusion
    (fun _ => StoreError.graphImportConflict .host)

def equalRecords {α : Type} [DecidableEq α] (current candidate : α) : Bool := current = candidate

def mergePortForwardRules :=
  merge (fun rule : SavedPortForwardRule => rule.id) equalRecords noClash noExclusion
    (fun _ => StoreError.graphImportConflict .portForwardRule)

def mergeSnippets :=
  merge (fun snippet : SavedSnippet => snippet.id) equalRecords noClash noExclusion
    (fun _ => StoreError.graphImportConflict .snippet)

def mergeNotes :=
  merge (fun note : SavedVaultNote => note.id) equalRecords noClash noExclusion
    (fun _ => StoreError.graphImportConflict .note)

/-! ### Optional catalogs -/

/-- An absent catalog takes over the candidates; what is imported is absent where nothing is new. -/
def mergeOptional {α : Type}
    (mergeList : List α → List α → Except StoreError (List α × List α)) :
    Option (List α) → Option (List α) → Except StoreError (Option (List α) × Option (List α))
  | current, none => .ok (current, none)
  | none, some candidates => .ok (some candidates, some candidates)
  | some existing, some candidates => do
    let (merged, additions) ← mergeList existing candidates
    return (some merged, if additions.isEmpty then none else some additions)

def mergePlainCatalogImport :
    Option (List Text) → Option (List Text) → Option (List Text) × Option (List Text)
  | current, none => (current, none)
  | none, some candidates => (some candidates, some candidates)
  | some existing, some candidates =>
    let additions := dedupFirst existing candidates
    if additions.isEmpty then (some existing, none)
    else (some (existing ++ additions), some additions)

def insertPaths (existing imported : SavedGroupCatalog) :
    List Text → Except StoreError (SavedGroupCatalog × SavedGroupCatalog)
  | [] => .ok (existing, imported)
  | path :: paths =>
    match existing.insertPath path with
    | none => .error .serialization
    | some (existing, false) => insertPaths existing imported paths
    | some (existing, true) =>
      match imported.insertPath path with
      | none => .error .serialization
      | some (imported, _) => insertPaths existing imported paths

def mergeCustomGroupImport :
    Option SavedGroupCatalog → Option SavedGroupCatalog →
      Except StoreError (Option SavedGroupCatalog × Option SavedGroupCatalog)
  | current, none => .ok (current, none)
  | none, some candidates => .ok (some candidates, some candidates)
  | some existing, some candidates => do
    let (merged, imported) ← insertPaths existing .empty candidates.explicitPaths
    return (some merged, if imported.isEmpty then none else some imported)

def mergeNotesSnippetsImport (current candidates : SavedNotesSnippetsCatalog) :
    Except StoreError (SavedNotesSnippetsCatalog × SavedNotesSnippetsCatalog) := do
  let (snippets, importedSnippets) ← mergeOptional mergeSnippets current.parts.snippets
    candidates.parts.snippets
  let (notes, importedNotes) ← mergeOptional mergeNotes current.parts.notes candidates.parts.notes
  let packages := mergePlainCatalogImport current.parts.snippetPackages
    candidates.parts.snippetPackages
  let groups := mergePlainCatalogImport current.parts.noteGroups candidates.parts.noteGroups
  let merged ← liftOption .serialization
    (SavedNotesSnippetsCatalog.fromNormalizedParts ⟨snippets, packages.1, notes, groups.1⟩)
  let imported ← liftOption .serialization
    (SavedNotesSnippetsCatalog.fromNormalizedParts
      ⟨importedSnippets, packages.2, importedNotes, groups.2⟩)
  return (merged, imported)

/-! ### The whole graph -/

section Graph

variable (E : Externals)

/-- The merge of the catalogs, before the result is checked. -/
def mergeGraph (loaded : Inventory) (candidates : SavedVaultGraph) :
    Except StoreError (Inventory × SavedVaultGraph) := do
  let sshKeyReferences ← mergeSshKeyReferences loaded.managedSshKeys loaded.sshKeyReferences
    candidates.sshKeyReferences
  let managedSshKeys ← mergeManagedSshKeys sshKeyReferences.1 loaded.managedSshKeys
    candidates.managedSshKeys
  let identityReferences ← mergeIdentityReferences loaded.passwordIdentities
    loaded.identityReferences candidates.identityReferences
  let passwordIdentities ← mergePasswordIdentities identityReferences.1 loaded.passwordIdentities
    candidates.passwordIdentities
  let proxyProfiles ← mergeProxyProfiles loaded.proxyProfiles candidates.proxyProfiles
  let groups ← mergeGroups loaded.groups candidates.groups
  let hosts ← mergeHosts loaded.hosts candidates.hosts
  let portForwardRules ← mergePortForwardRules loaded.portForwardRules candidates.portForwardRules
  let customGroups ← mergeCustomGroupImport loaded.customGroups candidates.customGroups
  let notesSnippets ← mergeNotesSnippetsImport loaded.notesSnippets candidates.notesSnippets
  return (
    ⟨⟨hosts.1, sshKeyReferences.1, managedSshKeys.1, identityReferences.1, passwordIdentities.1,
        proxyProfiles.1, groups.1, customGroups.1, notesSnippets.1, portForwardRules.1⟩,
      loaded.knownHosts, loaded.connectionLogs⟩,
    ⟨hosts.2, sshKeyReferences.2, managedSshKeys.2, identityReferences.2, passwordIdentities.2,
      proxyProfiles.2, groups.2, customGroups.2, notesSnippets.2, portForwardRules.2⟩)

/-- The catalogs of a merge, one by one. -/
structure MergedGraph (loaded : Inventory) (candidates : SavedVaultGraph) (merged : Inventory)
    (imported : SavedVaultGraph) : Prop where
  sshKeyReferences : mergeSshKeyReferences loaded.managedSshKeys loaded.sshKeyReferences
    candidates.sshKeyReferences = .ok (merged.sshKeyReferences, imported.sshKeyReferences)
  managedSshKeys : mergeManagedSshKeys merged.sshKeyReferences loaded.managedSshKeys
    candidates.managedSshKeys = .ok (merged.managedSshKeys, imported.managedSshKeys)
  identityReferences : mergeIdentityReferences loaded.passwordIdentities
    loaded.identityReferences candidates.identityReferences =
      .ok (merged.identityReferences, imported.identityReferences)
  passwordIdentities : mergePasswordIdentities merged.identityReferences
    loaded.passwordIdentities candidates.passwordIdentities =
      .ok (merged.passwordIdentities, imported.passwordIdentities)
  proxyProfiles : mergeProxyProfiles loaded.proxyProfiles candidates.proxyProfiles =
    .ok (merged.proxyProfiles, imported.proxyProfiles)
  groups : mergeGroups loaded.groups candidates.groups = .ok (merged.groups, imported.groups)
  hosts : mergeHosts loaded.hosts candidates.hosts = .ok (merged.hosts, imported.hosts)
  portForwardRules : mergePortForwardRules loaded.portForwardRules candidates.portForwardRules =
    .ok (merged.portForwardRules, imported.portForwardRules)
  customGroups : mergeCustomGroupImport loaded.customGroups candidates.customGroups =
    .ok (merged.customGroups, imported.customGroups)
  notesSnippets : mergeNotesSnippetsImport loaded.notesSnippets candidates.notesSnippets =
    .ok (merged.notesSnippets, imported.notesSnippets)
  knownHosts : merged.knownHosts = loaded.knownHosts
  connectionLogs : merged.connectionLogs = loaded.connectionLogs

theorem mergeGraph_ok_iff {loaded merged : Inventory} {candidates imported : SavedVaultGraph} :
    mergeGraph loaded candidates = .ok (merged, imported) ↔
      MergedGraph loaded candidates merged imported := by
  unfold mergeGraph
  constructor
  · intro h
    obtain ⟨⟨_, _⟩, h₁, h⟩ := bind_ok_iff.mp h
    obtain ⟨⟨_, _⟩, h₂, h⟩ := bind_ok_iff.mp h
    obtain ⟨⟨_, _⟩, h₃, h⟩ := bind_ok_iff.mp h
    obtain ⟨⟨_, _⟩, h₄, h⟩ := bind_ok_iff.mp h
    obtain ⟨⟨_, _⟩, h₅, h⟩ := bind_ok_iff.mp h
    obtain ⟨⟨_, _⟩, h₆, h⟩ := bind_ok_iff.mp h
    obtain ⟨⟨_, _⟩, h₇, h⟩ := bind_ok_iff.mp h
    obtain ⟨⟨_, _⟩, h₈, h⟩ := bind_ok_iff.mp h
    obtain ⟨⟨_, _⟩, h₉, h⟩ := bind_ok_iff.mp h
    obtain ⟨⟨_, _⟩, h₁₀, h⟩ := bind_ok_iff.mp h
    cases h
    exact ⟨h₁, h₂, h₃, h₄, h₅, h₆, h₇, h₈, h₉, h₁₀, rfl, rfl⟩
  · rintro ⟨h₁, h₂, h₃, h₄, h₅, h₆, h₇, h₈, h₉, h₁₀, hknown, hlogs⟩
    obtain ⟨_, _, _⟩ := merged
    cases hknown
    cases hlogs
    exact bind_ok_iff.mpr ⟨_, h₁, bind_ok_iff.mpr ⟨_, h₂, bind_ok_iff.mpr ⟨_, h₃,
      bind_ok_iff.mpr ⟨_, h₄, bind_ok_iff.mpr ⟨_, h₅, bind_ok_iff.mpr ⟨_, h₆,
      bind_ok_iff.mpr ⟨_, h₇, bind_ok_iff.mpr ⟨_, h₈, bind_ok_iff.mpr ⟨_, h₉,
      bind_ok_iff.mpr ⟨_, h₁₀, rfl⟩⟩⟩⟩⟩⟩⟩⟩⟩⟩

/-- The inventory after the import, and what has been imported. -/
def applyGraphImport (loaded : Inventory) (candidates : SavedVaultGraph) :
    Except StoreError (Inventory × SavedVaultGraph) := do
  validateGraphCandidates E candidates
  validateCandidateGraphReferences E candidates loaded.toSavedVaultGraph
  let (merged, imported) ← mergeGraph loaded candidates
  if imported.isEmpty then return (merged, imported)
  else
    let merged ← normalizeLoadedStore E merged
    return (merged, imported)

/-- The disposition of each candidate, catalog by catalog. -/
structure SavedVaultGraphImportAssessment where
  hosts : List Disposition
  sshKeyReferences : List Disposition
  managedSshKeys : List Disposition
  identityReferences : List Disposition
  passwordIdentities : List Disposition
  proxyProfiles : List Disposition
  groups : List Disposition
  customGroups : List Disposition
  snippets : List Disposition
  notes : List Disposition
  portForwardRules : List Disposition
  deriving DecidableEq

def SavedVaultGraphImportAssessment.all (assessment : SavedVaultGraphImportAssessment) :
    List Disposition :=
  assessment.hosts ++ assessment.sshKeyReferences ++ assessment.managedSshKeys ++
    assessment.identityReferences ++ assessment.passwordIdentities ++ assessment.proxyProfiles ++
    assessment.groups ++ assessment.customGroups ++ assessment.snippets ++ assessment.notes ++
    assessment.portForwardRules

def classifyHosts (existing candidates : List SavedHost) : List Disposition :=
  candidates.map (classify (·.id) SavedHost.businessFieldsEqual noClash noExclusion existing)

def classifySshKeyReferences (existing : List SavedSshKeyReference)
    (keys : List SavedManagedSshKey) (candidates : List SavedSshKeyReference) :
    List Disposition :=
  candidates.map (classify (·.id) SavedSshKeyReference.businessFieldsEqual noClash
    (hasManagedKey keys) existing)

def classifyManagedSshKeys (existing : List SavedManagedSshKey)
    (references : List SavedSshKeyReference) (candidates : List SavedManagedSshKey) :
    List Disposition :=
  candidates.map (classify (·.id) SavedManagedSshKey.businessFieldsEqual noClash
    (hasKeyReference references) existing)

def classifyIdentityReferences (existing : List SavedIdentityReference)
    (identities : List SavedPasswordIdentity) (candidates : List SavedIdentityReference) :
    List Disposition :=
  candidates.map (classify (·.id) SavedIdentityReference.businessFieldsEqual noClash
    (hasPasswordIdentity identities) existing)

def classifyPasswordIdentities (existing : List SavedPasswordIdentity)
    (references : List SavedIdentityReference) (candidates : List SavedPasswordIdentity) :
    List Disposition :=
  candidates.map (classify (·.id) SavedPasswordIdentity.businessFieldsEqual noClash
    (hasIdentityReference references) existing)

def classifyProxyProfiles (existing candidates : List SavedProxyProfile) : List Disposition :=
  candidates.map (classify (·.id) SavedProxyProfile.businessFieldsEqual noClash noExclusion
    existing)

def classifyGroups (existing candidates : List SavedGroupConfig) : List Disposition :=
  candidates.map (classify (·.id) SavedGroupConfig.businessFieldsEqual SavedGroupConfig.samePath
    noExclusion existing)

def classifyCustomGroups (existing candidates : Option SavedGroupCatalog) : List Disposition :=
  ((candidates.map (·.explicitPaths)).getD []).map fun path =>
    if existing.any (·.isExplicit path) then .duplicate else .importable

def classifySnippets (existing candidates : List SavedSnippet) : List Disposition :=
  candidates.map (classify (·.id) equalRecords noClash noExclusion existing)

def classifyNotes (existing candidates : List SavedVaultNote) : List Disposition :=
  candidates.map (classify (·.id) equalRecords noClash noExclusion existing)

def classifyPortForwardRules (existing candidates : List SavedPortForwardRule) :
    List Disposition :=
  candidates.map (classify (·.id) equalRecords noClash noExclusion existing)

def assessGraphImport (loaded : Inventory) (candidates : SavedVaultGraph) :
    Except StoreError SavedVaultGraphImportAssessment := do
  validateGraphCandidates E candidates
  validateCandidateGraphReferences E candidates loaded.toSavedVaultGraph
  return {
    hosts := classifyHosts loaded.hosts candidates.hosts
    sshKeyReferences := classifySshKeyReferences loaded.sshKeyReferences loaded.managedSshKeys
      candidates.sshKeyReferences
    managedSshKeys := classifyManagedSshKeys loaded.managedSshKeys loaded.sshKeyReferences
      candidates.managedSshKeys
    identityReferences := classifyIdentityReferences loaded.identityReferences
      loaded.passwordIdentities candidates.identityReferences
    passwordIdentities := classifyPasswordIdentities loaded.passwordIdentities
      loaded.identityReferences candidates.passwordIdentities
    proxyProfiles := classifyProxyProfiles loaded.proxyProfiles candidates.proxyProfiles
    groups := classifyGroups loaded.groups candidates.groups
    customGroups := classifyCustomGroups loaded.customGroups candidates.customGroups
    snippets := classifySnippets (loaded.notesSnippets.parts.snippets.getD [])
      (candidates.notesSnippets.parts.snippets.getD [])
    notes := classifyNotes (loaded.notesSnippets.parts.notes.getD [])
      (candidates.notesSnippets.parts.notes.getD [])
    portForwardRules := classifyPortForwardRules loaded.portForwardRules
      candidates.portForwardRules }

/-- A complete target graph in the place of the current one; known hosts and logs stay. -/
def projectGraphReplacement (current : Inventory) (replacement : SavedVaultGraph) :
    Except StoreError Inventory := do
  validateGraphCandidates E replacement
  validateCandidateGraphReferences E replacement .empty
  normalizeLoadedStore E ⟨replacement, current.knownHosts, current.connectionLogs⟩

/-- The part of `plan_graph_import` or `plan_graph_replacement` beside the revision. -/
structure SavedVaultGraphPlan where
  beforeGraphCommitment : SavedVaultGraphCommitment
  afterGraphCommitment : SavedVaultGraphCommitment
  deriving DecidableEq

variable (S : Serde) (storeId : Text)

def planGraphImport (loaded : Inventory) (candidates : SavedVaultGraph) :
    Except StoreError SavedVaultGraphPlan := do
  let beforeGraphCommitment ← graphCommitment S storeId loaded
  let (projected, _) ← applyGraphImport E loaded candidates
  let afterGraphCommitment ← graphCommitment S storeId projected
  return { beforeGraphCommitment, afterGraphCommitment }

/-- What a planned import hands over to be committed, if anything, and what it imports. -/
def plannedGraphImport (plan : SavedVaultGraphPlan) (loaded : Inventory)
    (candidates : SavedVaultGraph) : Except StoreError (Option Inventory × SavedVaultGraph) := do
  if (← graphCommitment S storeId loaded) ≠ plan.beforeGraphCommitment then
    .error .graphImportPlanMismatch
  let (projected, imported) ← applyGraphImport E loaded candidates
  if (← graphCommitment S storeId projected) ≠ plan.afterGraphCommitment then
    .error .graphImportPlanMismatch
  return (if imported.isEmpty then none else some projected, imported)

def planGraphReplacement (loaded : Inventory) (replacement : SavedVaultGraph) :
    Except StoreError SavedVaultGraphPlan := do
  let beforeGraphCommitment ← graphCommitment S storeId loaded
  let projected ← projectGraphReplacement E loaded replacement
  let afterGraphCommitment ← graphCommitment S storeId projected
  return { beforeGraphCommitment, afterGraphCommitment }

/-- Whether a planned replacement changes anything, and the graph that it puts in place. -/
def plannedGraphReplacement (plan : SavedVaultGraphPlan) (loaded : Inventory)
    (replacement : SavedVaultGraph) : Except StoreError (Bool × Inventory) := do
  if (← graphCommitment S storeId loaded) ≠ plan.beforeGraphCommitment then
    .error .graphReplacementPlanMismatch
  let projected ← projectGraphReplacement E loaded replacement
  if (← graphCommitment S storeId projected) ≠ plan.afterGraphCommitment then
    .error .graphReplacementPlanMismatch
  return (plan.beforeGraphCommitment ≠ plan.afterGraphCommitment, projected)

end Graph

/-! ### What a commitment tells apart -/

/-- The authentication methods are spelled as the model spells them. -/
def CanonicalAuth (inventory : Inventory) : Prop :=
  ∀ identity ∈ inventory.identityReferences,
    identity.authMethod.value = "key".toList ∨ identity.authMethod.value = "certificate".toList

theorem eq_of_canonical {s t : Text} (hs : s = "key".toList ∨ s = "certificate".toList)
    (ht : t = "key".toList ∨ t = "certificate".toList) (h : eqIgnoreAsciiCase s t) : s = t := by
  rcases hs with rfl | rfl <;> rcases ht with rfl | rfl
  · rfl
  · exact absurd h (by decide)
  · exact absurd h (by decide)
  · rfl

theorem SavedIdentityReference.eq_of_legacy {l r : SavedIdentityReference}
    (h : l.legacy = r.legacy) (hmethod : l.authMethod.value = r.authMethod.value) : l = r := by
  obtain ⟨_, _, _, ⟨_⟩, _, _, _, _⟩ := l
  obtain ⟨_, _, _, ⟨_⟩, _, _, _, _⟩ := r
  simp only [legacy, LegacyIdentityReferenceV2.mk.injEq] at h hmethod
  simp only [h, hmethod]

theorem SameUpToAuthCase.eq {left right : Inventory} (h : SameUpToAuthCase left right)
    (hl : CanonicalAuth left) (hr : CanonicalAuth right) : left = right := by
  have hids : left.identityReferences = right.identityReferences := by
    have hforall := h.identities
    unfold CanonicalAuth at hl hr
    generalize left.identityReferences = ls at hforall hl
    generalize right.identityReferences = rs at hforall hr
    induction hforall with
    | nil => rfl
    | @cons l r _ _ hfirst _ ih =>
        obtain ⟨hl, hls⟩ := List.forall_mem_cons.mp hl
        obtain ⟨hr, hrs⟩ := List.forall_mem_cons.mp hr
        rw [SavedIdentityReference.eq_of_legacy hfirst.1 (eq_of_canonical hl hr hfirst.2),
          ih hls hrs]
  rw [← h.others, ← hids]

theorem projectGraphReplacement_checked {E : Externals} {current projected : Inventory}
    {replacement : SavedVaultGraph}
    (h : projectGraphReplacement E current replacement = .ok projected) :
    projected.Checked E ∧ projected.InOrder E := by
  unfold projectGraphReplacement at h
  obtain ⟨-, h⟩ := check_ok_iff.mp h
  obtain ⟨-, h⟩ := check_ok_iff.mp h
  obtain ⟨hchecked, rules, hrules, rfl⟩ := normalizeLoadedStore_ok_iff.mp h
  exact hchecked.inOrder hrules

/-- **A commitment determines the catalogs**, up to the letter case of authentication methods: for
two inventories that pass the complete check, and for a planned replacement that reports no
change. -/
theorem graphCommitment_determines (E : Externals) (S : Serde) (storeId : Text)
    (hsha : Function.Injective S.sha256)
    (hjson : ∀ p q encoded, S.commitmentToVec p = some encoded →
      S.commitmentToVec q = some encoded → p = q) :
    (∀ left right left' right' commitment, normalizeLoadedStore E left = .ok left' →
      normalizeLoadedStore E right = .ok right' → graphCommitment S storeId left = .ok commitment →
      graphCommitment S storeId right = .ok commitment →
      SameUpToAuthCase left right ∧ (CanonicalAuth left → CanonicalAuth right → left = right)) ∧
    ∀ loaded loaded' plan replacement projected, normalizeLoadedStore E loaded = .ok loaded' →
      plannedGraphReplacement E S storeId plan loaded replacement = .ok (false, projected) →
      SameUpToAuthCase loaded projected ∧
        (CanonicalAuth loaded → CanonicalAuth projected → loaded = projected) := by
  have hdetermines : ∀ left right commitment, left.Checked E → right.Checked E →
      graphCommitment S storeId left = .ok commitment →
      graphCommitment S storeId right = .ok commitment →
      SameUpToAuthCase left right ∧ (CanonicalAuth left → CanonicalAuth right → left = right) := by
    intro left right commitment hl hr hleft hright
    have hsame := sameUpToAuthCase_of_commitment_eq hsha hjson hl hr hleft hright
    exact ⟨hsame, hsame.eq⟩
  constructor
  · intro left right left' right' commitment hl hr hleft hright
    exact hdetermines left right commitment (normalizeLoadedStore_ok_iff.mp hl).1
      (normalizeLoadedStore_ok_iff.mp hr).1 hleft hright
  · intro loaded loaded' plan replacement projected hl h
    unfold plannedGraphReplacement at h
    obtain ⟨before, hbefore, h⟩ := bind_ok_iff.mp h
    obtain ⟨hbeforeEq, h⟩ := refuse_ok_iff.mp h
    obtain ⟨projected', hproject, h⟩ := bind_ok_iff.mp h
    obtain ⟨after, hafter, h⟩ := bind_ok_iff.mp h
    obtain ⟨hafterEq, h⟩ := refuse_ok_iff.mp h
    obtain ⟨hchanged, rfl⟩ := Prod.mk.inj (pure_ok_iff.mp h)
    rw [not_not] at hbeforeEq hafterEq
    have hsame : plan.beforeGraphCommitment = plan.afterGraphCommitment := by
      simpa using hchanged
    rw [hbeforeEq, hsame] at hbefore
    rw [hafterEq] at hafter
    exact hdetermines loaded _ _ (normalizeLoadedStore_ok_iff.mp hl).1
      (projectGraphReplacement_checked hproject).1 hbefore hafter

/-! ### Two spellings of one method -/

/-- An inventory with one key file and an identity that uses it. -/
def inventoryWithMethod (method : String) : Inventory where
  hosts := []
  sshKeyReferences := [⟨"key-1".toList, "Laptop".toList, "/home/ada/.ssh/id_ed25519".toList,
    ⟨"key".toList⟩, ⟨"reference".toList⟩, 1, 1, []⟩]
  managedSshKeys := []
  identityReferences := [⟨"identity-1".toList, "Ada".toList, "ada".toList, ⟨method.toList⟩,
    "key-1".toList, 1, 1, []⟩]
  passwordIdentities := []
  proxyProfiles := []
  groups := []
  customGroups := none
  notesSnippets := .absent
  portForwardRules := []
  knownHosts := []
  connectionLogs := []

/-- The JSON of the one payload that both spellings give. -/
def methodPayloadJson : Bytes :=
  textBytesOf ("\x7b\"formatVersion\":1,\"storeId\":\"store\",\"hosts\":[]," ++
    "\"sshKeyReferences\":[\x7b\"id\":\"key-1\",\"label\":\"Laptop\"," ++
    "\"filePath\":\"/home/ada/.ssh/id_ed25519\",\"category\":\"key\"," ++
    "\"source\":\"reference\",\"createdAt\":1,\"updatedAt\":1\x7d]," ++
    "\"identityReferences\":[\x7b\"id\":\"identity-1\",\"label\":\"Ada\"," ++
    "\"username\":\"ada\",\"keyId\":\"key-1\",\"createdAt\":1,\"updatedAt\":1\x7d]\x7d")

/-- JSON of that payload, and the identity for a digest without collisions. -/
def methodSerde : Serde where
  envelopeToVec _ := none
  envelopeFromSlice _ := none
  checksumToVec _ := none
  commitmentToVec payload :=
    if payload = .of "store".toList (inventoryWithMethod "key") then some methodPayloadJson
    else none
  sha256 := id

theorem methodSerde_injective (p q : GraphCommitmentPayload) (encoded : Bytes)
    (hp : methodSerde.commitmentToVec p = some encoded)
    (hq : methodSerde.commitmentToVec q = some encoded) : p = q := by
  simp only [methodSerde] at hp hq
  split at hp
  · split at hq
    · rename_i hp' hq'
      rw [hp', hq']
    · exact absurd hq (by simp)
  · exact absurd hp (by simp)

theorem normalize_inventoryWithMethod :
    normalizeLoadedStore asciiExternals (inventoryWithMethod "key") =
      .ok (inventoryWithMethod "key") ∧
    normalizeLoadedStore asciiExternals (inventoryWithMethod "KEY") =
      .ok (inventoryWithMethod "KEY") := by
  decide

theorem graphCommitment_inventoryWithMethod :
    ∃ commitment,
      graphCommitment methodSerde "store".toList (inventoryWithMethod "key") = .ok commitment ∧
      graphCommitment methodSerde "store".toList (inventoryWithMethod "KEY") = .ok commitment := by
  have hpayload : GraphCommitmentPayload.of "store".toList (inventoryWithMethod "KEY") =
      .of "store".toList (inventoryWithMethod "key") := by
    decide
  refine ⟨_, rfl, ?_⟩
  unfold graphCommitment
  rw [hpayload]
  rfl

theorem graphCommitment_determines_inventoryWithMethod :
    SameUpToAuthCase (inventoryWithMethod "key") (inventoryWithMethod "KEY") := by
  obtain ⟨commitment, hlower, hupper⟩ := graphCommitment_inventoryWithMethod
  exact ((graphCommitment_determines asciiExternals methodSerde "store".toList
    Function.injective_id methodSerde_injective).1 _ _ _ _ commitment
    normalize_inventoryWithMethod.1 normalize_inventoryWithMethod.2 hlower hupper).1

/-- Commitments alone do not tell the spellings of an authentication method apart. -/
theorem not_graphCommitment_injective :
    ¬ ∀ (E : Externals) (S : Serde) (storeId : Text), Function.Injective S.sha256 →
      (∀ p q encoded, S.commitmentToVec p = some encoded →
        S.commitmentToVec q = some encoded → p = q) →
      ∀ left right commitment, normalizeLoadedStore E left = .ok left →
        normalizeLoadedStore E right = .ok right →
        graphCommitment S storeId left = .ok commitment →
        graphCommitment S storeId right = .ok commitment → left = right := by
  intro h
  obtain ⟨commitment, hlower, hupper⟩ := graphCommitment_inventoryWithMethod
  have heq := h asciiExternals methodSerde "store".toList Function.injective_id
    methodSerde_injective _ _ commitment normalize_inventoryWithMethod.1
    normalize_inventoryWithMethod.2 hlower hupper
  exact absurd heq (by decide)

end Netcatty.Vault
