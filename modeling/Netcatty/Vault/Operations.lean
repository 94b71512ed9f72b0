import Netcatty.Vault.Store

/-! # Operations on the store

Each mutating call loads the inventory, checks the revision that its caller has seen, forms the
inventory to be committed and commits it; where nothing changes it commits nothing
(`SavedHostStore.perform`).  What an operation hands over is in the order in which a snapshot is
read back (`Operation.edit_inOrder`), so that a commit and a reload give the same inventory. -/

namespace Netcatty.Vault

open Catalog Crash FileSystem

/-! ### What is handed over to be committed -/

section Edits

variable (E : Externals)

/-- `create`, with the host that `from_draft` has made. -/
def createHost (host : SavedHost) (loaded : Inventory) : Except StoreError (Option Inventory) := do
  if loaded.hosts.any (·.id = host.id) then .error (.duplicateId host.id)
  let hosts ← normalizeHosts E (loaded.hosts ++ [host])
  return some { loaded with hosts }

/-- `update`, where `apply` is `apply_update`. -/
def updateHost (id : SavedHostId) (expectedRevision : ℕ)
    (apply : SavedHost → Except StoreError SavedHost) (loaded : Inventory) :
    Except StoreError (Option Inventory) :=
  match loaded.hosts.find? (·.id = id) with
  | none => .error (.notFound id)
  | some current => do
    if current.revision ≠ expectedRevision then
      .error (.revisionConflict id expectedRevision current.revision)
    let updated ← apply current
    let hosts ← normalizeHosts E (loaded.hosts.set (loaded.hosts.findIdx (·.id = id)) updated)
    return some { loaded with hosts }

def deleteHost (id : SavedHostId) (expectedRevision : ℕ) (loaded : Inventory) :
    Except StoreError (Option Inventory) :=
  match loaded.hosts.find? (·.id = id) with
  | none => .error (.notFound id)
  | some current => do
    if current.revision ≠ expectedRevision then
      .error (.revisionConflict id expectedRevision current.revision)
    return some { loaded with hosts := loaded.hosts.eraseIdx (loaded.hosts.findIdx (·.id = id)) }

def replaceKnownHosts (knownHosts : List SavedKnownHost) (loaded : Inventory) :
    Except StoreError (Option Inventory) := do
  liftSerialization (validateSavedKnownHosts knownHosts)
  return if loaded.knownHosts = knownHosts then none else some { loaded with knownHosts }

def replaceConnectionLogs (logs : List SavedConnectionLog) (loaded : Inventory) :
    Except StoreError (Option Inventory) := do
  let kept ← liftSerialization (withLegacyRetention logs)
  let connectionLogs ← normalizeConnectionLogs kept
  return if loaded.connectionLogs = connectionLogs then none else some { loaded with connectionLogs }

def clearUnsavedConnectionLogs (loaded : Inventory) : Except StoreError (Option Inventory) := do
  let connectionLogs ← liftSerialization
    (withLegacyRetention (loaded.connectionLogs.filter (·.saved)))
  return if loaded.connectionLogs = connectionLogs then none else some { loaded with connectionLogs }

def validateImportCandidates (candidates : List SavedHost) : Except StoreError Unit := do
  let _ ← checkUnique (fun host => liftValidation (host.validate E)) (·.id)
    (fun host => .duplicateId host.id) [] candidates
  return ()

def mergeImportedHosts :=
  merge (·.id) SavedHost.businessFieldsEqual noClash noExclusion
    (fun candidate => StoreError.importConflict candidate.id)

def importHosts (candidates : List SavedHost) (loaded : Inventory) :
    Except StoreError (Option Inventory) := do
  validateImportCandidates E candidates
  let (merged, imported) ← mergeImportedHosts loaded.hosts candidates
  if imported.isEmpty then return none
  else
    let hosts ← normalizeHosts E merged
    return some { loaded with hosts }

def importGraph (candidates : SavedVaultGraph) (loaded : Inventory) :
    Except StoreError (Option Inventory) := do
  let (projected, imported) ← applyGraphImport E loaded candidates
  return if imported.isEmpty then none else some projected

end Edits

/-- The mutating calls; all but the first three carry the revision of the whole inventory. -/
inductive Operation
  | create (host : SavedHost)
  | update (id : SavedHostId) (expectedRevision : ℕ)
      (apply : SavedHost → Except StoreError SavedHost)
  | delete (id : SavedHostId) (expectedRevision : ℕ)
  | replaceKnownHosts (expected : SavedVaultInventoryRevision) (knownHosts : List SavedKnownHost)
  | replaceConnectionLogs (expected : SavedVaultInventoryRevision)
      (logs : List SavedConnectionLog)
  | clearUnsavedConnectionLogs (expected : SavedVaultInventoryRevision)
  | commitImport (expected : SavedVaultInventoryRevision) (candidates : List SavedHost)
  | commitGraphImport (expected : SavedVaultInventoryRevision) (candidates : SavedVaultGraph)
  | commitPlannedGraphImport (expected : SavedVaultInventoryRevision) (plan : SavedVaultGraphPlan)
      (candidates : SavedVaultGraph)
  | commitPlannedGraphReplacement (expected : SavedVaultInventoryRevision)
      (plan : SavedVaultGraphPlan) (replacement : SavedVaultGraph)

/-- The revision that the caller has seen. -/
def Operation.expected? : Operation → Option SavedVaultInventoryRevision
  | .create _ | .update .. | .delete .. => none
  | .replaceKnownHosts expected _ | .replaceConnectionLogs expected _
  | .clearUnsavedConnectionLogs expected | .commitImport expected _
  | .commitGraphImport expected _ | .commitPlannedGraphImport expected _ _
  | .commitPlannedGraphReplacement expected _ _ => some expected

/-- The result of a call: the revision afterwards, and the publication if there is one. -/
structure Performed where
  revision : SavedVaultInventoryRevision
  publication : Option CommitPublication
  deriving DecidableEq

namespace SavedHostStore

variable (V : SavedHostStore)

/-- What an operation makes of the inventory; `none` where it changes nothing. -/
def edit (loaded : Inventory) : Operation → Except StoreError (Option Inventory)
  | .create host => createHost V.externals host loaded
  | .update id expectedRevision apply => updateHost V.externals id expectedRevision apply loaded
  | .delete id expectedRevision => deleteHost id expectedRevision loaded
  | .replaceKnownHosts _ knownHosts => Vault.replaceKnownHosts knownHosts loaded
  | .replaceConnectionLogs _ logs => Vault.replaceConnectionLogs logs loaded
  | .clearUnsavedConnectionLogs _ => Vault.clearUnsavedConnectionLogs loaded
  | .commitImport _ candidates => importHosts V.externals candidates loaded
  | .commitGraphImport _ candidates => importGraph V.externals candidates loaded
  | .commitPlannedGraphImport _ plan candidates => do
    let (projected?, _) ← plannedGraphImport V.externals V.serde V.storeId plan loaded candidates
    return projected?
  | .commitPlannedGraphReplacement _ plan replacement => do
    let (changed, projected) ←
      plannedGraphReplacement V.externals V.serde V.storeId plan loaded replacement
    return if changed then some projected else none

def inventoryRevision (generation maxSeenGeneration : ℕ) : SavedVaultInventoryRevision :=
  ⟨V.storeId, generation, maxSeenGeneration, V.revisionSeal V.storeId generation maxSeenGeneration⟩

def verifyInventoryRevision (loaded : LoadedStore) :
    Option SavedVaultInventoryRevision → Except StoreError Unit
  | none => .ok ()
  | some expected =>
    let actual := V.inventoryRevision loaded.generation loaded.maxSeenGeneration
    if expected ≠ actual then .error (.inventoryRevisionConflict expected actual) else .ok ()

/-- The checks of a call in front of its commit. -/
def plan (loaded : LoadedStore) (op : Operation) : Except StoreError (Option Inventory) := do
  V.verifyInventoryRevision loaded op.expected?
  V.edit loaded.inventory op

def perform (op : Operation) : StoreProg (Except StoreError Performed) := do
  match V.loadLocked (← .read) with
  | .error error => return .error error
  | .ok loaded =>
    match V.plan loaded op with
    | .error error => return .error error
    | .ok none =>
      return .ok ⟨V.inventoryRevision loaded.generation loaded.maxSeenGeneration, none⟩
    | .ok (some inventory) =>
      match ← V.commitLocked { loaded with inventory } with
      | .error error => return .error error
      | .ok publication =>
        return .ok ⟨V.inventoryRevision publication.generation publication.generation,
          some publication⟩

end SavedHostStore

/-! ### Spellings -/

/-- The sources and methods are spelled as the constructors and the decoder spell them. -/
structure SavedVaultGraph.Spelled (graph : SavedVaultGraph) : Prop where
  sources : ∀ reference ∈ graph.sshKeyReferences, reference.source = .reference
  authMethods : ∀ identity ∈ graph.identityReferences,
    identity.authMethod = .key ∨ identity.authMethod = .certificate

/-- The graph that an operation brings in, if it does. -/
def Operation.graph? : Operation → Option SavedVaultGraph
  | .commitGraphImport _ graph | .commitPlannedGraphImport _ _ graph
  | .commitPlannedGraphReplacement _ _ graph => some graph
  | _ => none

def Operation.Spelled (op : Operation) : Prop := ∀ graph ∈ op.graph?, graph.Spelled

/-! ### The order of what is handed over -/

section InOrder

variable {E : Externals} {loaded inventory : Inventory}

theorem Inventory.InOrder.hosts_ordered (h : loaded.InOrder E) :
    Ordered (SavedHost.stableCmp E) loaded.hosts := by
  have heq : sortBy (SavedHost.stableCmp E) loaded.hosts = loaded.hosts :=
    congrArg SavedVaultGraph.hosts h.catalogs
  rw [← heq]
  exact ordered_sortBy _

theorem Inventory.InOrder.setHosts (h : loaded.InOrder E) {hosts : List SavedHost}
    (ho : Ordered (SavedHost.stableCmp E) hosts) :
    Inventory.InOrder E { loaded with hosts } := by
  refine ⟨?_, h.normal, h.rules, h.connectionLogs⟩
  have hcatalogs := h.catalogs
  simp only [SavedVaultGraph.sortCatalogs] at hcatalogs ⊢
  rw [sortBy_of_ordered ho]
  exact congrArg (fun graph : SavedVaultGraph => { graph with hosts }) hcatalogs

theorem Inventory.InOrder.setKnownHosts (h : loaded.InOrder E) (knownHosts : List SavedKnownHost) :
    Inventory.InOrder E { loaded with knownHosts } :=
  ⟨h.catalogs, h.normal, h.rules, h.connectionLogs⟩

theorem Inventory.InOrder.setConnectionLogs (h : loaded.InOrder E)
    {connectionLogs : List SavedConnectionLog} (ho : Ordered SavedConnectionLog.cmp connectionLogs) :
    Inventory.InOrder E { loaded with connectionLogs } :=
  ⟨h.catalogs, h.normal, h.rules, ho⟩

theorem normalizeHosts_ordered {hosts sorted : List SavedHost}
    (h : normalizeHosts E hosts = .ok sorted) : Ordered (SavedHost.stableCmp E) sorted := by
  rw [(normalizeHosts_ok_iff.mp h).2]
  exact ordered_sortBy _

theorem newestFirst_of_ordered {logs : List SavedConnectionLog}
    (h : Ordered SavedConnectionLog.cmp logs) : Ordered SavedConnectionLog.newestFirst logs := by
  refine List.Pairwise.imp (fun {left right} hle => ?_) h
  simp only [SavedConnectionLog.cmp, SavedConnectionLog.newestFirst, compareLex] at hle ⊢
  cases hcmp : compare right.startTime left.startTime <;> simp_all

/-- Of logs in order, the saved ones are in order as they are. -/
theorem withLegacyRetention_saved {logs kept : List SavedConnectionLog}
    (ho : Ordered SavedConnectionLog.cmp logs)
    (h : withLegacyRetention (logs.filter (·.saved)) = .ok kept) :
    kept = logs.filter (·.saved) := by
  have hsaved : (logs.filter (·.saved)).filter (·.saved) = logs.filter (·.saved) := by
    simp [List.filter_filter]
  have hunsaved : (logs.filter (·.saved)).filter (!·.saved) = [] := by
    simp [List.filter_filter]
  unfold withLegacyRetention at h
  obtain ⟨-, h⟩ := check_ok_iff.mp h
  rw [pure_ok_iff.mp h, hsaved, hunsaved, sortBy_nil, List.take_nil, List.append_nil]
  exact sortBy_of_ordered (newestFirst_of_ordered (Ordered.sublist ho List.filter_sublist))

theorem applyGraphImport_inOrder {candidates imported : SavedVaultGraph} {projected : Inventory}
    (h : applyGraphImport E loaded candidates = .ok (projected, imported))
    (hne : imported.isEmpty = false) : projected.InOrder E := by
  unfold applyGraphImport at h
  obtain ⟨-, h⟩ := check_ok_iff.mp h
  obtain ⟨-, h⟩ := check_ok_iff.mp h
  obtain ⟨⟨merged, imported'⟩, -, h⟩ := bind_ok_iff.mp h
  dsimp only at h
  split at h
  · rename_i hempty
    cases h
    exact absurd hempty (by simp [hne])
  · obtain ⟨normal, hnormal, h⟩ := bind_ok_iff.mp h
    cases h
    obtain ⟨hchecked, rules, hrules, rfl⟩ := normalizeLoadedStore_ok_iff.mp hnormal
    exact (hchecked.inOrder hrules).2

end InOrder

theorem plannedGraphImport_ok {E : Externals} {S : Serde} {storeId : Text}
    {plan : SavedVaultGraphPlan} {loaded : Inventory} {candidates imported : SavedVaultGraph}
    {projected? : Option Inventory}
    (h : plannedGraphImport E S storeId plan loaded candidates = .ok (projected?, imported)) :
    ∃ projected, applyGraphImport E loaded candidates = .ok (projected, imported) ∧
      projected? = if imported.isEmpty then none else some projected := by
  unfold plannedGraphImport at h
  obtain ⟨before, -, h⟩ := bind_ok_iff.mp h
  obtain ⟨-, h⟩ := refuse_ok_iff.mp h
  obtain ⟨⟨projected, imported'⟩, happly, h⟩ := bind_ok_iff.mp h
  obtain ⟨after, -, h⟩ := bind_ok_iff.mp h
  obtain ⟨-, h⟩ := refuse_ok_iff.mp h
  cases h
  exact ⟨projected, happly, rfl⟩

theorem plannedGraphReplacement_ok {E : Externals} {S : Serde} {storeId : Text}
    {plan : SavedVaultGraphPlan} {loaded projected : Inventory} {replacement : SavedVaultGraph}
    {changed : Bool}
    (h : plannedGraphReplacement E S storeId plan loaded replacement = .ok (changed, projected)) :
    projectGraphReplacement E loaded replacement = .ok projected := by
  unfold plannedGraphReplacement at h
  obtain ⟨before, -, h⟩ := bind_ok_iff.mp h
  obtain ⟨-, h⟩ := refuse_ok_iff.mp h
  obtain ⟨projected', hproject, h⟩ := bind_ok_iff.mp h
  obtain ⟨after, -, h⟩ := bind_ok_iff.mp h
  obtain ⟨-, h⟩ := refuse_ok_iff.mp h
  cases h
  exact hproject

/-- What an operation can hand over. -/
inductive Edited (E : Externals) (loaded : Inventory) (op : Operation) : Inventory → Prop
  | hosts (hosts : List SavedHost) (ho : loaded.InOrder E → Ordered (SavedHost.stableCmp E) hosts) :
      Edited E loaded op { loaded with hosts }
  | knownHosts (knownHosts : List SavedKnownHost) : Edited E loaded op { loaded with knownHosts }
  | connectionLogs (connectionLogs : List SavedConnectionLog)
      (ho : loaded.InOrder E → Ordered SavedConnectionLog.cmp connectionLogs) :
      Edited E loaded op { loaded with connectionLogs }
  | imported (candidates imported : SavedVaultGraph) (projected : Inventory)
      (hop : op.graph? = some candidates)
      (happly : applyGraphImport E loaded candidates = .ok (projected, imported))
      (hne : imported.isEmpty = false) : Edited E loaded op projected
  | replaced (replacement : SavedVaultGraph) (projected : Inventory)
      (hop : op.graph? = some replacement)
      (hproject : projectGraphReplacement E loaded replacement = .ok projected) :
      Edited E loaded op projected

theorem SavedHostStore.edited {V : SavedHostStore} {loaded inventory : Inventory} {op : Operation}
    (h : V.edit loaded op = .ok (some inventory)) : Edited V.externals loaded op inventory := by
  cases op with
  | create host =>
      simp only [edit, createHost] at h
      obtain ⟨-, h⟩ := refuse_ok_iff.mp h
      obtain ⟨hosts, hhosts, h⟩ := bind_ok_iff.mp h
      cases h
      exact .hosts hosts fun _ => normalizeHosts_ordered hhosts
  | update id expectedRevision apply =>
      simp only [edit, updateHost] at h
      split at h
      · exact absurd h (by simp)
      obtain ⟨-, h⟩ := refuse_ok_iff.mp h
      obtain ⟨updated, -, h⟩ := bind_ok_iff.mp h
      obtain ⟨hosts, hhosts, h⟩ := bind_ok_iff.mp h
      cases h
      exact .hosts hosts fun _ => normalizeHosts_ordered hhosts
  | delete id expectedRevision =>
      simp only [edit, deleteHost] at h
      split at h
      · exact absurd h (by simp)
      obtain ⟨-, h⟩ := refuse_ok_iff.mp h
      cases h
      exact .hosts _ fun ho => ho.hosts_ordered.sublist (List.eraseIdx_sublist _ _)
  | replaceKnownHosts expected knownHosts =>
      obtain ⟨-, h⟩ := check_ok_iff.mp h
      have heq := pure_ok_iff.mp h
      split at heq <;> cases heq
      exact .knownHosts knownHosts
  | replaceConnectionLogs expected logs =>
      obtain ⟨kept, -, h⟩ := bind_ok_iff.mp h
      obtain ⟨connectionLogs, hlogs, h⟩ := bind_ok_iff.mp h
      have heq := pure_ok_iff.mp h
      split at heq <;> cases heq
      rw [(normalizeConnectionLogs_ok_iff.mp hlogs).2]
      exact .connectionLogs _ fun _ => ordered_sortBy _
  | clearUnsavedConnectionLogs expected =>
      obtain ⟨connectionLogs, hlogs, h⟩ := bind_ok_iff.mp h
      have heq := pure_ok_iff.mp h
      split at heq <;> cases heq
      refine .connectionLogs _ fun ho => ?_
      rw [withLegacyRetention_saved ho.connectionLogs (liftSerialization_ok_iff.mp hlogs)]
      exact ho.connectionLogs.sublist List.filter_sublist
  | commitImport expected candidates =>
      obtain ⟨-, h⟩ := check_ok_iff.mp h
      obtain ⟨⟨merged, imported⟩, -, h⟩ := bind_ok_iff.mp h
      dsimp only at h
      split at h
      · exact absurd (pure_ok_iff.mp h) (by simp)
      obtain ⟨hosts, hhosts, h⟩ := bind_ok_iff.mp h
      cases h
      exact .hosts hosts fun _ => normalizeHosts_ordered hhosts
  | commitGraphImport expected candidates =>
      obtain ⟨⟨projected, imported⟩, happly, h⟩ := bind_ok_iff.mp h
      have heq := pure_ok_iff.mp h
      split at heq <;> cases heq
      rename_i hempty
      exact .imported candidates imported _ rfl happly (by simpa using hempty)
  | commitPlannedGraphImport expected plan candidates =>
      obtain ⟨⟨projected?, imported⟩, hplanned, h⟩ := bind_ok_iff.mp h
      obtain ⟨projected, happly, heq⟩ := plannedGraphImport_ok hplanned
      rw [← pure_ok_iff.mp h] at heq
      split at heq <;> cases heq
      rename_i hempty
      exact .imported candidates imported _ rfl happly (by simpa using hempty)
  | commitPlannedGraphReplacement expected plan replacement =>
      obtain ⟨⟨changed, projected⟩, hplanned, h⟩ := bind_ok_iff.mp h
      have heq := pure_ok_iff.mp h
      split at heq <;> cases heq
      exact .replaced replacement _ rfl (plannedGraphReplacement_ok hplanned)

/-- **What an operation hands over is in order** where the loaded inventory is. -/
theorem SavedHostStore.edit_inOrder {V : SavedHostStore} {loaded inventory : Inventory}
    {op : Operation} (ho : loaded.InOrder V.externals)
    (h : V.edit loaded op = .ok (some inventory)) : inventory.InOrder V.externals := by
  cases edited h with
  | hosts hosts hordered => exact ho.setHosts (hordered ho)
  | knownHosts knownHosts => exact ho.setKnownHosts knownHosts
  | connectionLogs connectionLogs hordered => exact ho.setConnectionLogs (hordered ho)
  | imported candidates imported projected hop happly hne =>
      exact applyGraphImport_inOrder happly hne
  | replaced replacement projected hop hproject =>
      exact (projectGraphReplacement_checked hproject).2

/-- The graphs of a replacement and of an import are spelled as their sources are. -/
theorem spelled_inOrder {E : Externals} {inventory : Inventory} {rules : List SavedPortForwardRule}
    (h : inventory.Spelled) : (inventory.inOrder E rules).Spelled := by
  refine ⟨fun reference hmem => ?_, fun identity hmem => ?_⟩
  · exact h.sources reference ((mem_sortBy _).mp hmem)
  · exact h.authMethods identity ((mem_sortBy _).mp hmem)

theorem spelled_applyGraphImport {E : Externals} {loaded projected : Inventory}
    {candidates imported : SavedVaultGraph} (hl : loaded.Spelled) (hc : candidates.Spelled)
    (h : applyGraphImport E loaded candidates = .ok (projected, imported)) :
    projected.Spelled := by
  unfold applyGraphImport at h
  obtain ⟨-, h⟩ := check_ok_iff.mp h
  obtain ⟨-, h⟩ := check_ok_iff.mp h
  obtain ⟨⟨merged, imported'⟩, hmerge, h⟩ := bind_ok_iff.mp h
  have hm := mergeGraph_ok_iff.mp hmerge
  have hspelled : merged.Spelled := by
    obtain ⟨hsources, hsub⟩ := merge_ok hm.sshKeyReferences
    obtain ⟨hmethods, hsub'⟩ := merge_ok hm.identityReferences
    refine ⟨fun reference hmem => ?_, fun identity hmem => ?_⟩
    · rw [hsources, List.mem_append] at hmem
      exact hmem.elim (hl.sources reference) fun hmem => hc.sources reference (hsub.subset hmem)
    · rw [hmethods, List.mem_append] at hmem
      exact hmem.elim (hl.authMethods identity)
        fun hmem => hc.authMethods identity (hsub'.subset hmem)
  dsimp only at h
  split at h
  · cases h
    exact hspelled
  · obtain ⟨normal, hnormal, h⟩ := bind_ok_iff.mp h
    cases h
    obtain ⟨-, rules, -, rfl⟩ := normalizeLoadedStore_ok_iff.mp hnormal
    exact spelled_inOrder hspelled

theorem spelled_projectGraphReplacement {E : Externals} {loaded projected : Inventory}
    {replacement : SavedVaultGraph} (hr : replacement.Spelled)
    (h : projectGraphReplacement E loaded replacement = .ok projected) : projected.Spelled := by
  unfold projectGraphReplacement at h
  obtain ⟨-, h⟩ := check_ok_iff.mp h
  obtain ⟨-, h⟩ := check_ok_iff.mp h
  obtain ⟨-, rules, -, rfl⟩ := normalizeLoadedStore_ok_iff.mp h
  exact spelled_inOrder hr

/-- An operation keeps the spellings. -/
theorem SavedHostStore.edit_spelled {V : SavedHostStore} {loaded inventory : Inventory}
    {op : Operation} (hl : loaded.Spelled) (hop : op.Spelled)
    (h : V.edit loaded op = .ok (some inventory)) : inventory.Spelled := by
  cases edited h with
  | hosts hosts _ => exact ⟨hl.sources, hl.authMethods⟩
  | knownHosts knownHosts => exact hl
  | connectionLogs connectionLogs _ => exact hl
  | imported candidates imported projected hgraph happly hne =>
      exact spelled_applyGraphImport hl (hop candidates hgraph) happly
  | replaced replacement projected hgraph hproject =>
      exact spelled_projectGraphReplacement (hop replacement hgraph) hproject

end Netcatty.Vault
