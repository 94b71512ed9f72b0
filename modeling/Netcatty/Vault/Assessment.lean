import Netcatty.Vault.ImportLaws

/-! # Assessments and planned imports

`assessGraphImport` reports a conflict exactly where `applyGraphImport` ends with one, as long as
the group paths fit into one catalog (`conflicts_reported`): the checks around the merge fail with other
errors (`normalizeLoadedStore_avoids`), and the merge fails with a conflict where the assessment
finds one (`mergeGraph_tells`).  `import_laws` puts the laws of imports together, `planned_stored`
says what a planned import hands over. -/

namespace Netcatty.Vault

open Catalog Crash FileSystem

/-- The error of a merge that meets a conflict. -/
def StoreError.IsConflict : StoreError → Prop
  | .graphImportConflict _ => True
  | _ => False

/-! ### The checks fail with other errors -/

section Checks

variable {E : Externals} {L : GraphLookups} {scripts : Scripts}

theorem liftValidation_avoids {α : Type} (x : Except ValidationError α) :
    Avoids StoreError.IsConflict (liftValidation x) := by
  cases x with
  | ok a => exact avoids_ok a
  | error error => exact avoids_error id

theorem liftSerialization_avoids {ε α : Type} (x : Except ε α) :
    Avoids StoreError.IsConflict (liftSerialization x) := by
  cases x with
  | ok a => exact avoids_ok a
  | error error => exact avoids_error id

theorem identityKeyReference_avoids (identity : SavedIdentityReference) :
    Avoids StoreError.IsConflict (validateIdentityKeyReference L identity) := by
  unfold validateIdentityKeyReference
  repeat' split
  all_goals first | exact avoids_ok () | exact avoids_error id

theorem hostCatalogReference_avoids (host : SavedHost) (field : String) :
    Avoids StoreError.IsConflict (hostCatalogReference host field) := by
  unfold hostCatalogReference
  repeat' split
  all_goals first | exact avoids_ok _ | exact avoids_error id

theorem hostKeyReference_avoids (authMethod : SavedHostAuthMethod) (keyId : Text) :
    Avoids StoreError.IsConflict (validateHostKeyReference L authMethod keyId) := by
  unfold validateHostKeyReference
  repeat' split
  all_goals first | exact avoids_ok () | exact avoids_error id

theorem hostIdentityReference_avoids (authMethod : SavedHostAuthMethod)
    (directKeyId : Option Text) (identityId : Text) :
    Avoids StoreError.IsConflict
      (validateHostIdentityReference L authMethod directKeyId identityId) := by
  unfold validateHostIdentityReference
  repeat' split
  all_goals first | exact avoids_ok () | exact avoids_error id

theorem hostGraphReference_avoids (host : SavedHost) :
    Avoids StoreError.IsConflict (validateHostGraphReference L host) := by
  unfold validateHostGraphReference
  split
  · exact avoids_ok ()
  split
  · refine (hostCatalogReference_avoids host _).bind fun identityId => ?_
    repeat' split
    all_goals first | exact avoids_ok () | exact avoids_error id
  · refine (hostCatalogReference_avoids host _).bind fun directKeyId => ?_
    refine (hostCatalogReference_avoids host _).bind fun identityId => ?_
    extract_lets identity
    have hidentity : Avoids StoreError.IsConflict (identity ()) := by
      simp only [identity]
      split
      · exact avoids_ok ()
      · exact hostIdentityReference_avoids _ _ _
    split
    · exact hidentity
    · exact (hostKeyReference_avoids _ _).bind fun _ => hidentity

theorem proxyConfigReference_avoids (config : SavedProxyConfig) (source : SavedVaultEntityKind) :
    Avoids StoreError.IsConflict (validateProxyConfigReference L config source) := by
  refine (liftValidation_avoids _).bind fun _ => ?_
  repeat' split
  all_goals first | exact avoids_ok () | exact avoids_error id

theorem hostProxyReference_avoids (host : SavedHost) :
    Avoids StoreError.IsConflict (validateHostProxyReference E L host) := by
  unfold validateHostProxyReference
  split
  · exact avoids_ok ()
  split
  · refine (liftValidation_avoids _).bind fun config? => ?_
    split
    · exact proxyConfigReference_avoids _ _
    · exact avoids_error id
  · refine (liftValidation_avoids _).bind fun profileId? => ?_
    repeat' split
    all_goals first | exact avoids_ok () | exact avoids_error id

theorem groupGraphReference_avoids (hostIds : List Text) (group : SavedGroupConfig) :
    Avoids StoreError.IsConflict (validateGroupGraphReference L hostIds group) := by
  unfold validateGroupGraphReference
  extract_lets proxy telnetIdentity identity key
  have hproxy : Avoids StoreError.IsConflict (proxy ()) := by
    simp only [proxy]
    split
    · split
      · exact avoids_ok ()
      · exact avoids_error id
    · exact proxyConfigReference_avoids _ _
    · exact avoids_ok ()
    · exact avoids_ok ()
  have htelnet : Avoids StoreError.IsConflict (telnetIdentity ()) := by
    simp only [telnetIdentity]
    repeat' split
    all_goals first | exact hproxy | exact avoids_error id
  have hidentity : Avoids StoreError.IsConflict (identity ()) := by
    simp only [identity]
    repeat' split
    all_goals first | exact htelnet | exact avoids_error id
  have hkey : Avoids StoreError.IsConflict (key ()) := by
    simp only [key]
    repeat' split
    all_goals first | exact hidentity | exact avoids_error id
  repeat' split
  all_goals first | exact hkey | exact avoids_error id

theorem scriptReference_avoids (id : Text) :
    Avoids StoreError.IsConflict (validateScriptReference scripts id) := by
  unfold validateScriptReference
  split
  · exact avoids_error fun h => h
  · exact avoids_ok ()
  · exact avoids_error fun h => h

theorem scriptId_avoids (value : Value) :
    Avoids StoreError.IsConflict (validateScriptId scripts value) := by
  unfold validateScriptId
  split
  · split
    · exact avoids_error id
    · exact scriptReference_avoids _
  · exact avoids_error id

theorem listField_avoids {check : Value → Except StoreError Unit}
    (h : ∀ value, Avoids StoreError.IsConflict (check value)) (field : Option Value) :
    Avoids StoreError.IsConflict (validateListField check field) := by
  unfold validateListField
  split
  · exact avoids_ok ()
  · exact avoids_ok ()
  · exact avoids_checkAll h _
  · exact avoids_error id

theorem hostScriptReferences_avoids (host : SavedHost) :
    Avoids StoreError.IsConflict (validateHostScriptReferences scripts host) := by
  refine Avoids.bind ?_ fun _ => (listField_avoids scriptId_avoids _).bind fun _ =>
    listField_avoids (fun value => ?_) _
  · unfold validateLoginScript
    split
    · exact avoids_ok ()
    · exact avoids_ok ()
    · split
      · exact avoids_ok ()
      · exact scriptReference_avoids _
    · exact avoids_error id
  · unfold validateTrigger
    split
    · split
      · exact scriptId_avoids _
      · exact avoids_error id
    · exact avoids_error id

theorem groupScriptReference_avoids (group : SavedGroupConfig) :
    Avoids StoreError.IsConflict (validateGroupScriptReference scripts group) := by
  unfold validateGroupScriptReference
  repeat' split
  all_goals first | exact avoids_ok () | exact avoids_error fun h => h

theorem hostReferences_avoids (catalog : SavedNotesSnippetsCatalog) (hostIds : List Text) :
    Avoids StoreError.IsConflict (validateHostReferences catalog hostIds) := by
  have hite : ∀ (p : Prop) [Decidable p] (error : StoreError), ¬ error.IsConflict →
      Avoids StoreError.IsConflict (if p then Except.ok () else .error error) := by
    intro p _ error herror
    split
    · exact avoids_ok ()
    · exact avoids_error herror
  refine (avoids_checkAll (fun id => hite _ _ (by exact fun h => h)) _).bind fun _ => ?_
  refine (avoids_checkAll (fun snippet => avoids_checkAll (fun id => ?_) _) _).bind fun _ => ?_
  · exact hite _ _ (by exact fun h => h)
  · exact avoids_checkAll (fun note => avoids_checkAll (fun id => hite _ _ (by exact fun h => h)) _) _

theorem notesSnippetsReferences_avoids (hosts : List SavedHost) (groups : List SavedGroupConfig)
    (catalog : SavedNotesSnippetsCatalog) :
    Avoids StoreError.IsConflict (validateNotesSnippetsGraphReferences hosts groups catalog) := by
  refine (hostReferences_avoids _ _).bind fun _ => ?_
  split
  · exact avoids_ok ()
  · exact (avoids_checkAll hostScriptReferences_avoids _).bind fun _ =>
      avoids_checkAll groupScriptReference_avoids _

theorem checkGroups_avoids (ids paths : List Text) (groups : List SavedGroupConfig) :
    Avoids StoreError.IsConflict (checkGroups ids paths groups) := by
  induction groups generalizing ids paths with
  | nil => exact avoids_ok ()
  | cons group groups ih =>
      unfold checkGroups
      refine Avoids.refuse ?_ (Avoids.refuse ?_ (ih _ _))
      · exact id
      · exact id

theorem portForwardRules_avoids (rules : List SavedPortForwardRule) (hosts : List SavedHost) :
    Avoids StoreError.IsConflict (normalizePortForwardRules rules hosts) := by
  unfold normalizePortForwardRules
  split
  · exact avoids_ok _
  · rename_i error _
    cases error <;> exact avoids_error id

/-- A catalog whose records are valid and unique, in order. -/
theorem uniqueCatalog_avoids {α : Type} {check : α → Except StoreError Unit} {key : α → Text}
    {duplicate : α → StoreError} (hcheck : ∀ a, Avoids StoreError.IsConflict (check a))
    (hduplicate : ∀ a, ¬ (duplicate a).IsConflict) (seen : List Text) (l sorted : List α) :
    Avoids StoreError.IsConflict
      ((checkUnique check key duplicate seen l).bind fun _ => .ok sorted) :=
  (avoids_checkUnique hcheck hduplicate seen l).bind fun _ => avoids_ok sorted

theorem normalizeCatalogs_avoids (inventory : Inventory) :
    Avoids StoreError.IsConflict (normalizeCatalogs E inventory) := by
  have hvalid : ∀ {α : Type} (validate : α → Except ValidationError Unit) (a : α),
      Avoids StoreError.IsConflict (liftValidation (validate a)) :=
    fun validate a => liftValidation_avoids (validate a)
  refine (uniqueCatalog_avoids (hvalid _) (fun _ => by exact id) _ _ _).bind fun _ => ?_
  refine (uniqueCatalog_avoids (hvalid _) (fun _ => by exact id) _ _ _).bind fun _ => ?_
  refine (uniqueCatalog_avoids (hvalid _) (fun _ => by exact id) _ _ _).bind fun _ => ?_
  refine Avoids.bind ?_ fun _ => ?_
  · refine (avoids_checkUnique (hvalid _) (fun _ => by exact id) _ _).bind fun _ => ?_
    exact (avoids_checkAll identityKeyReference_avoids _).bind fun _ => avoids_ok _
  refine (uniqueCatalog_avoids (hvalid _) (fun _ => by exact id) _ _ _).bind fun _ => ?_
  refine (uniqueCatalog_avoids (hvalid _) (fun _ => by exact id) _ _ _).bind fun _ => ?_
  refine Avoids.bind ?_ fun _ => avoids_ok _
  exact (checkGroups_avoids _ _ _).bind fun _ => avoids_ok _

theorem normalizeLoadedStore_avoids (inventory : Inventory) :
    Avoids StoreError.IsConflict (normalizeLoadedStore E inventory) := by
  refine (normalizeCatalogs_avoids inventory).bind fun _ => ?_
  refine (portForwardRules_avoids _ _).bind fun _ => ?_
  refine (liftSerialization_avoids _).bind fun _ => ?_
  refine Avoids.bind ((liftSerialization_avoids _).bind fun _ => avoids_ok _) fun _ => ?_
  refine (avoids_checkAll hostGraphReference_avoids _).bind fun _ => ?_
  refine Avoids.bind ((avoids_checkAll (fun profile => proxyConfigReference_avoids _ _) _).bind
    fun _ => avoids_checkAll hostProxyReference_avoids _) fun _ => ?_
  refine (avoids_checkAll (groupGraphReference_avoids _) _).bind fun _ => ?_
  exact (notesSnippetsReferences_avoids _ _ _).bind fun _ => avoids_ok _

end Checks

/-! ### Conflicts of the assessment -/

section Assessment

variable {E : Externals} {loaded : Inventory} {candidates : SavedVaultGraph}
  {assessment : SavedVaultGraphImportAssessment}

/-- No candidate conflicts with the store, catalog by catalog. -/
structure NoConflict (loaded : Inventory) (candidates : SavedVaultGraph) : Prop where
  sshKeyReferences : .conflict ∉ classifySshKeyReferences loaded.sshKeyReferences
    loaded.managedSshKeys candidates.sshKeyReferences
  managedSshKeys : .conflict ∉ classifyManagedSshKeys loaded.managedSshKeys
    loaded.sshKeyReferences candidates.managedSshKeys
  identityReferences : .conflict ∉ classifyIdentityReferences loaded.identityReferences
    loaded.passwordIdentities candidates.identityReferences
  passwordIdentities : .conflict ∉ classifyPasswordIdentities loaded.passwordIdentities
    loaded.identityReferences candidates.passwordIdentities
  proxyProfiles : .conflict ∉ classifyProxyProfiles loaded.proxyProfiles candidates.proxyProfiles
  groups : .conflict ∉ classifyGroups loaded.groups candidates.groups
  hosts : .conflict ∉ classifyHosts loaded.hosts candidates.hosts
  portForwardRules : .conflict ∉ classifyPortForwardRules loaded.portForwardRules
    candidates.portForwardRules
  snippets : .conflict ∉ classifySnippets (loaded.notesSnippets.parts.snippets.getD [])
    (candidates.notesSnippets.parts.snippets.getD [])
  notes : .conflict ∉ classifyNotes (loaded.notesSnippets.parts.notes.getD [])
    (candidates.notesSnippets.parts.notes.getD [])

theorem classifyCustomGroups_no_conflict (existing candidates : Option SavedGroupCatalog) :
    .conflict ∉ classifyCustomGroups existing candidates := by
  intro h
  obtain ⟨path, -, heq⟩ := List.mem_map.mp h
  split at heq <;> cases heq

theorem assessGraphImport_ok (h : assessGraphImport E loaded candidates = .ok assessment) :
    validateGraphCandidates E candidates = .ok () ∧
      validateCandidateGraphReferences E candidates loaded.toSavedVaultGraph = .ok () ∧
      (.conflict ∉ assessment.all ↔ NoConflict loaded candidates) := by
  obtain ⟨hrecords, h⟩ := check_ok_iff.mp h
  obtain ⟨hreferences, h⟩ := check_ok_iff.mp h
  cases h
  refine ⟨hrecords, hreferences, ?_⟩
  simp only [SavedVaultGraphImportAssessment.all, List.mem_append, not_or,
    classifyCustomGroups_no_conflict, not_false_eq_true, and_true]
  constructor
  · rintro ⟨⟨⟨⟨⟨⟨⟨⟨⟨h₁, h₂⟩, h₃⟩, h₄⟩, h₅⟩, h₆⟩, h₇⟩, h₈⟩, h₉⟩, h₁₀⟩
    exact ⟨h₂, h₃, h₄, h₅, h₆, h₇, h₁, h₁₀, h₈, h₉⟩
  · rintro ⟨h₂, h₃, h₄, h₅, h₆, h₇, h₁, h₁₀, h₈, h₉⟩
    exact ⟨⟨⟨⟨⟨⟨⟨⟨⟨h₁, h₂⟩, h₃⟩, h₄⟩, h₅⟩, h₆⟩, h₇⟩, h₈⟩, h₉⟩, h₁₀⟩

end Assessment

/-! ### Conflicts of the merge -/

section Merge

variable {α : Type} {key : α → Text} {equal clash : α → α → Bool} {excluded : α → Bool}
  {existing candidates : List α} {kind : SavedVaultEntityKind}

theorem merge_ok_classify (hm : Mergeable key clash existing candidates)
    {merged : List α × List α}
    (h : merge key equal clash excluded (fun _ => StoreError.graphImportConflict kind) existing
      candidates = .ok merged) :
    .conflict ∉ candidates.map (classify key equal clash excluded existing) := by
  intro hmem
  obtain ⟨a, ha, hconflict⟩ := List.mem_map.mp hmem
  exact merge_no_conflict hm h a ha hconflict

theorem merge_error_classify (hm : Mergeable key clash existing candidates) {error : StoreError}
    (h : merge key equal clash excluded (fun _ => StoreError.graphImportConflict kind) existing
      candidates = .error error) :
    .conflict ∈ candidates.map (classify key equal clash excluded existing) ∧
      error = .graphImportConflict kind := by
  obtain ⟨a, ha, hconflict, heq⟩ := merge_error hm h
  exact ⟨List.mem_map.mpr ⟨a, ha, hconflict⟩, heq⟩

theorem mergeOptional_ok_classify {existing candidates : Option (List α)}
    {merged : Option (List α) × Option (List α)}
    (hm : Mergeable key noClash (existing.getD []) (candidates.getD []))
    (h : mergeOptional (plainMerge key equal kind) existing candidates = .ok merged) :
    .conflict ∉ (candidates.getD []).map (plainClassify key equal (existing.getD [])) := by
  obtain ⟨-, -, hno⟩ := mergeOptional_takesUp hm h
  intro hmem
  obtain ⟨a, ha, hconflict⟩ := List.mem_map.mp hmem
  exact hno a ha hconflict

theorem mergeOptional_error_classify {existing candidates : Option (List α)} {error : StoreError}
    (hm : Mergeable key noClash (existing.getD []) (candidates.getD []))
    (h : mergeOptional (plainMerge key equal kind) existing candidates = .error error) :
    .conflict ∈ (candidates.getD []).map (plainClassify key equal (existing.getD [])) ∧
      error = .graphImportConflict kind := by
  obtain ⟨⟨a, ha, hconflict⟩, heq⟩ := mergeOptional_error hm h
  exact ⟨List.mem_map.mpr ⟨a, ha, hconflict⟩, heq⟩

end Merge

/-- Which result of a merge goes with conflicts and which without. -/
def Tells (loaded : Inventory) (candidates : SavedVaultGraph) {β : Type} :
    Except StoreError β → Prop
  | .ok _ => NoConflict loaded candidates
  | .error (.graphImportConflict _) => ¬ NoConflict loaded candidates
  | .error error => error = .serialization ∧
      (NoConflict loaded candidates ∨ ¬ PathsFit loaded.customGroups candidates.customGroups)

section Graph

variable {E : Externals} {loaded : Inventory} {candidates : SavedVaultGraph}
  {assessment : SavedVaultGraphImportAssessment}

theorem Tells.bind {β γ : Type} {x : Except StoreError β} {f : β → Except StoreError γ}
    (hok : ∀ b, x = .ok b → Tells loaded candidates (f b))
    (herror : ∀ error, x = .error error →
      Tells loaded candidates (Except.error error : Except StoreError γ)) :
    Tells loaded candidates (x >>= f) := by
  cases x with
  | ok b => exact hok b rfl
  | error error => exact herror error rfl

theorem tells_conflict {β : Type} {kind : SavedVaultEntityKind}
    {error : StoreError} {conflict : Prop} (h : conflict ∧ error = .graphImportConflict kind)
    (hno : NoConflict loaded candidates → ¬ conflict) :
    Tells loaded candidates (Except.error error : Except StoreError β) := by
  obtain ⟨hconflict, rfl⟩ := h
  exact fun h => hno h hconflict

/-- Keys that candidates exclude are told apart by the store alone. -/
theorem classifyManagedSshKeys_eq (hi : Importable E loaded candidates)
    {references : List SavedSshKeyReference × List SavedSshKeyReference}
    (h : mergeSshKeyReferences loaded.managedSshKeys loaded.sshKeyReferences
      candidates.sshKeyReferences = .ok references) :
    classifyManagedSshKeys loaded.managedSshKeys references.1 candidates.managedSshKeys =
      classifyManagedSshKeys loaded.managedSshKeys loaded.sshKeyReferences
        candidates.managedSshKeys :=
  List.map_congr_left fun a ha => classify_congr
    ((merge_takesUp hi.mergeable_sshKeyReferences h).any_key_eq (hi.records.disjoint_keys a ha))

theorem classifyPasswordIdentities_eq (hi : Importable E loaded candidates)
    {references : List SavedIdentityReference × List SavedIdentityReference}
    (h : mergeIdentityReferences loaded.passwordIdentities loaded.identityReferences
      candidates.identityReferences = .ok references) :
    classifyPasswordIdentities loaded.passwordIdentities references.1
        candidates.passwordIdentities =
      classifyPasswordIdentities loaded.passwordIdentities loaded.identityReferences
        candidates.passwordIdentities :=
  List.map_congr_left fun a ha => classify_congr
    ((merge_takesUp hi.mergeable_identityReferences h).any_key_eq
      (hi.records.disjoint_identities a ha))

theorem insertPaths_error {existing imported : SavedGroupCatalog} {paths : List Text}
    {error : StoreError} (h : insertPaths existing imported paths = .error error) :
    error = .serialization := by
  induction paths generalizing existing imported with
  | nil => cases h
  | cons path paths ih =>
      unfold insertPaths at h
      split at h
      · cases h
        rfl
      · exact ih h
      · split at h
        · cases h
          rfl
        · exact ih h

theorem mergeCustomGroup_error {existing candidates : Option SavedGroupCatalog} {error : StoreError}
    (h : mergeCustomGroupImport existing candidates = .error error) :
    error = .serialization ∧ ¬ PathsFit existing candidates := by
  refine ⟨?_, fun hfits => ?_⟩
  · cases candidates with
    | none => cases h
    | some candidates =>
        cases existing with
        | none => cases h
        | some existing =>
            rcases bind_error_iff.mp h with h | ⟨_, _, h⟩
            · exact insertPaths_error h
            · cases h
  · obtain ⟨result, hok⟩ := mergeCustomGroup_of_fits hfits
    rw [hok] at h
    cases h

/-- Neither snippets nor notes conflict. -/
def NotesAgree (loaded : Inventory) (candidates : SavedVaultGraph) : Prop :=
  .conflict ∉ classifySnippets (loaded.notesSnippets.parts.snippets.getD [])
      (candidates.notesSnippets.parts.snippets.getD []) ∧
    .conflict ∉ classifyNotes (loaded.notesSnippets.parts.notes.getD [])
      (candidates.notesSnippets.parts.notes.getD [])

theorem mergeNotesSnippets_agree {merged : SavedNotesSnippetsCatalog × SavedNotesSnippetsCatalog}
    (h : mergeNotesSnippetsImport loaded.notesSnippets candidates.notesSnippets = .ok merged) :
    NotesAgree loaded candidates := by
  obtain ⟨snippets, notes, hsnippets, hnotes, -⟩ := mergeNotesSnippets_ok_iff.mp h
  exact ⟨mergeOptional_ok_classify (mergeable_snippets _ _) hsnippets,
    mergeOptional_ok_classify (mergeable_notes _ _) hnotes⟩

theorem mergeNotesSnippets_error {error : StoreError}
    (h : mergeNotesSnippetsImport loaded.notesSnippets candidates.notesSnippets = .error error) :
    (∃ kind, error = .graphImportConflict kind) ∧ ¬ NotesAgree loaded candidates ∨
      error = .serialization ∧ NotesAgree loaded candidates := by
  unfold mergeNotesSnippetsImport at h
  rcases bind_error_iff.mp h with h | ⟨snippets, hsnippets, h⟩
  · obtain ⟨hconflict, heq⟩ := mergeOptional_error_classify (mergeable_snippets _ _) h
    exact .inl ⟨⟨_, heq⟩, fun hno => hno.1 hconflict⟩
  rcases bind_error_iff.mp h with h | ⟨notes, hnotes, h⟩
  · obtain ⟨hconflict, heq⟩ := mergeOptional_error_classify (mergeable_notes _ _) h
    exact .inl ⟨⟨_, heq⟩, fun hno => hno.2 hconflict⟩
  refine .inr ⟨?_, mergeOptional_ok_classify (mergeable_snippets _ _) hsnippets,
    mergeOptional_ok_classify (mergeable_notes _ _) hnotes⟩
  have hlift : ∀ {α : Type} (x : Option α), liftOption StoreError.serialization x = .error error →
      error = .serialization := by
    intro α x hx
    cases x with
    | none =>
        cases hx
        rfl
    | some a => cases hx
  rcases bind_error_iff.mp h with h | ⟨_, -, h⟩
  · exact hlift _ h
  · rcases bind_error_iff.mp h with h | ⟨_, -, h⟩
    · exact hlift _ h
    · cases h

/-- **The merge fails with a conflict where the assessment reports one.** -/
theorem mergeGraph_tells (hi : Importable E loaded candidates) :
    Tells loaded candidates (mergeGraph loaded candidates) := by
  refine Tells.bind (fun _ h₁ => ?_) fun _ h => tells_conflict
    (merge_error_classify hi.mergeable_sshKeyReferences h) NoConflict.sshKeyReferences
  refine Tells.bind (fun _ h₂ => ?_) fun _ h => tells_conflict
    (merge_error_classify hi.mergeable_managedSshKeys h) fun hno hconflict =>
      hno.managedSshKeys (classifyManagedSshKeys_eq hi h₁ ▸ hconflict)
  refine Tells.bind (fun _ h₃ => ?_) fun _ h => tells_conflict
    (merge_error_classify hi.mergeable_identityReferences h) NoConflict.identityReferences
  refine Tells.bind (fun _ h₄ => ?_) fun _ h => tells_conflict
    (merge_error_classify hi.mergeable_passwordIdentities h) fun hno hconflict =>
      hno.passwordIdentities (classifyPasswordIdentities_eq hi h₃ ▸ hconflict)
  refine Tells.bind (fun _ h₅ => ?_) fun _ h => tells_conflict
    (merge_error_classify hi.mergeable_proxyProfiles h) NoConflict.proxyProfiles
  refine Tells.bind (fun _ h₆ => ?_) fun _ h => tells_conflict
    (merge_error_classify hi.mergeable_groups h) NoConflict.groups
  refine Tells.bind (fun _ h₇ => ?_) fun _ h => tells_conflict
    (merge_error_classify hi.mergeable_hosts h) NoConflict.hosts
  refine Tells.bind (fun _ h₈ => ?_) fun _ h => tells_conflict
    (merge_error_classify hi.mergeable_portForwardRules h) NoConflict.portForwardRules
  refine Tells.bind (fun _ _ => ?_) fun _ h => by
    obtain ⟨rfl, hfits⟩ := mergeCustomGroup_error h
    exact ⟨rfl, .inr hfits⟩
  have hrest : NotesAgree loaded candidates → NoConflict loaded candidates := fun hagree => {
    sshKeyReferences := merge_ok_classify hi.mergeable_sshKeyReferences h₁
    managedSshKeys := classifyManagedSshKeys_eq hi h₁ ▸
      merge_ok_classify hi.mergeable_managedSshKeys h₂
    identityReferences := merge_ok_classify hi.mergeable_identityReferences h₃
    passwordIdentities := classifyPasswordIdentities_eq hi h₃ ▸
      merge_ok_classify hi.mergeable_passwordIdentities h₄
    proxyProfiles := merge_ok_classify hi.mergeable_proxyProfiles h₅
    groups := merge_ok_classify hi.mergeable_groups h₆
    hosts := merge_ok_classify hi.mergeable_hosts h₇
    portForwardRules := merge_ok_classify hi.mergeable_portForwardRules h₈
    snippets := hagree.1
    notes := hagree.2 }
  refine Tells.bind (fun _ h => hrest (mergeNotesSnippets_agree h)) fun _ h => ?_
  rcases mergeNotesSnippets_error h with ⟨⟨kind, rfl⟩, hconflict⟩ | ⟨rfl, hagree⟩
  · exact fun hno => hconflict ⟨hno.snippets, hno.notes⟩
  · exact ⟨rfl, .inl (hrest hagree)⟩

/-- Behind the first checks, an import ends with the error of the merge. -/
theorem applyGraphImport_error {error : StoreError}
    (hrecords : validateGraphCandidates E candidates = .ok ())
    (hreferences : validateCandidateGraphReferences E candidates loaded.toSavedVaultGraph = .ok ())
    (hmerge : mergeGraph loaded candidates = .error error) :
    applyGraphImport E loaded candidates = .error error := by
  unfold applyGraphImport
  rw [hrecords, hreferences]
  change (mergeGraph loaded candidates >>= _) = _
  rw [hmerge]
  rfl

/-- An import ends with a conflict where the merge does. -/
theorem applyGraphImport_conflict_iff {kind : SavedVaultEntityKind}
    (hrecords : validateGraphCandidates E candidates = .ok ())
    (hreferences : validateCandidateGraphReferences E candidates loaded.toSavedVaultGraph =
      .ok ()) :
    applyGraphImport E loaded candidates = .error (.graphImportConflict kind) ↔
      mergeGraph loaded candidates = .error (.graphImportConflict kind) := by
  unfold applyGraphImport
  rw [hrecords, hreferences]
  change (mergeGraph loaded candidates >>= _) = _ ↔ _
  rw [bind_error_iff]
  refine ⟨fun h => h.resolve_right ?_, .inl⟩
  rintro ⟨merged, -, h⟩
  dsimp only at h
  split at h
  · cases h
  · rcases bind_error_iff.mp h with h | ⟨_, -, h⟩
    · exact normalizeLoadedStore_avoids _ _ h trivial
    · cases h

/-- **Conflicts are reported where the import ends with one.**  A conflict that is reported makes
the import fail with one, or with too many group paths. -/
theorem conflicts_reported (hi : Importable E loaded candidates)
    (h : assessGraphImport E loaded candidates = .ok assessment) :
    ((∃ kind, applyGraphImport E loaded candidates = .error (.graphImportConflict kind)) →
      .conflict ∈ assessment.all) ∧
    (.conflict ∈ assessment.all →
      (∃ kind, applyGraphImport E loaded candidates = .error (.graphImportConflict kind)) ∨
        applyGraphImport E loaded candidates = .error .serialization ∧
          ¬ PathsFit loaded.customGroups candidates.customGroups) := by
  obtain ⟨hrecords, hreferences, hno⟩ := assessGraphImport_ok h
  have htells := mergeGraph_tells hi
  simp only [applyGraphImport_conflict_iff hrecords hreferences]
  constructor
  · rintro ⟨kind, hmerge⟩
    rw [hmerge] at htells
    by_contra hnot
    exact htells (hno.mp hnot)
  · intro hconflict
    have hnot : ¬ NoConflict loaded candidates := fun h => hno.mpr h hconflict
    cases hmerge : mergeGraph loaded candidates with
    | ok merged =>
        rw [hmerge] at htells
        exact absurd htells hnot
    | error error =>
        rw [hmerge] at htells
        cases error with
        | graphImportConflict kind => exact .inl ⟨kind, rfl⟩
        | serialization =>
            exact .inr ⟨applyGraphImport_error hrecords hreferences hmerge,
              htells.2.resolve_left hnot⟩
        | _ => exact absurd htells.1 (by simp)

end Graph

/-! ### Planned imports -/

section Planned

variable {V : SavedHostStore} {loaded projected : Inventory} {candidates imported : SavedVaultGraph}
  {plan : SavedVaultGraphPlan}

theorem planGraphImport_ok {E : Externals} {S : Serde} {storeId : Text}
    (h : planGraphImport E S storeId loaded candidates = .ok plan) :
    ∃ projected imported, applyGraphImport E loaded candidates = .ok (projected, imported) ∧
      graphCommitment S storeId loaded = .ok plan.beforeGraphCommitment ∧
      graphCommitment S storeId projected = .ok plan.afterGraphCommitment := by
  obtain ⟨before, hbefore, h⟩ := bind_ok_iff.mp h
  obtain ⟨⟨projected, imported⟩, happly, h⟩ := bind_ok_iff.mp h
  obtain ⟨after, hafter, h⟩ := bind_ok_iff.mp h
  cases h
  exact ⟨projected, imported, happly, hbefore, hafter⟩

/-- A plan that is carried out on the inventory that it was made for passes its checks. -/
theorem plannedGraphImport_eq {E : Externals} {S : Serde} {storeId : Text}
    (happly : applyGraphImport E loaded candidates = .ok (projected, imported))
    (hbefore : graphCommitment S storeId loaded = .ok plan.beforeGraphCommitment)
    (hafter : graphCommitment S storeId projected = .ok plan.afterGraphCommitment) :
    plannedGraphImport E S storeId plan loaded candidates =
      .ok (if imported.isEmpty then none else some projected, imported) := by
  unfold plannedGraphImport
  refine bind_ok_iff.mpr ⟨_, hbefore, refuse_ok_iff.mpr ⟨not_not_intro rfl, ?_⟩⟩
  refine bind_ok_iff.mpr ⟨_, happly, bind_ok_iff.mpr ⟨_, hafter, ?_⟩⟩
  exact refuse_ok_iff.mpr ⟨not_not_intro rfl, rfl⟩

/-- **A planned import is handed over as planned.** -/
theorem SavedHostStore.plan_plannedGraphImport (store : LoadedStore)
    (h : planGraphImport V.externals V.serde V.storeId store.inventory candidates = .ok plan) :
    ∃ projected imported,
      applyGraphImport V.externals store.inventory candidates = .ok (projected, imported) ∧
      graphCommitment V.serde V.storeId projected = .ok plan.afterGraphCommitment ∧
      V.plan store (.commitPlannedGraphImport
        (V.inventoryRevision store.generation store.maxSeenGeneration) plan candidates) =
        .ok (if imported.isEmpty then none else some projected) := by
  obtain ⟨projected, imported, happly, hbefore, hafter⟩ := planGraphImport_ok h
  refine ⟨projected, imported, happly, hafter, ?_⟩
  refine check_ok_iff.mpr ⟨?_, ?_⟩
  · simp [SavedHostStore.verifyInventoryRevision, Operation.expected?]
  · simp only [SavedHostStore.edit]
    rw [plannedGraphImport_eq happly hbefore hafter]
    rfl

/-- An import of nothing projects the inventory that was loaded. -/
theorem applyGraphImport_empty {E : Externals} (hi : Importable E loaded candidates)
    (h : applyGraphImport E loaded candidates = .ok (projected, imported))
    (hempty : imported.isEmpty = true) : projected = loaded := by
  obtain ⟨-, -, merged, hmerge, hprojected⟩ := applyGraphImport_ok_iff.mp h
  obtain rfl : imported = .empty := decide_eq_true_eq.mp hempty
  rw [if_pos hempty] at hprojected
  exact hprojected.trans (hmerge.unchanged hi)

/-- **A planned import that returns has stored what was planned.** -/
theorem planned_stored (hjson : V.serde.ReadsBack V.externals) {files after : StoreFiles}
    (hfiles : V.Reachable files) {store : LoadedStore} (hload : V.loadLocked files = .ok store)
    (hi : Importable V.externals store.inventory candidates) (hspelled : candidates.Spelled)
    (h : planGraphImport V.externals V.serde V.storeId store.inventory candidates = .ok plan)
    {tape rest : List (Choice ArtifactId)} {performed : Performed}
    (hrun : V.perform (.commitPlannedGraphImport
      (V.inventoryRevision store.generation store.maxSeenGeneration) plan candidates) files tape =
        .returned (.ok performed) after rest) :
    ∃ stored projected imported, V.loadLocked after = .ok stored ∧
      applyGraphImport V.externals store.inventory candidates = .ok (projected, imported) ∧
      stored.inventory = projected ∧
      graphCommitment V.serde V.storeId stored.inventory = .ok plan.afterGraphCommitment := by
  obtain ⟨projected, imported, happly, hafter, hplan⟩ := SavedHostStore.plan_plannedGraphImport _ h
  have hend := (SavedHostStore.perform_spec _ files).returned rfl hrun
  obtain ⟨revision, publication?⟩ := performed
  cases publication? with
  | none =>
      obtain ⟨rfl, store', hload', hplan', -⟩ := hend
      rw [hload] at hload'
      cases hload'
      rw [hplan] at hplan'
      split at hplan'
      · rename_i hempty
        have hsame := applyGraphImport_empty hi happly hempty
        exact ⟨store, projected, imported, hload, happly, hsame.symm, hsame ▸ hafter⟩
      · cases hplan'
  | some publication =>
      obtain ⟨store', inventory, encoded, hc, -⟩ := hend
      have hload' := hc.load
      have hplan' := hc.plan
      rw [hload] at hload'
      cases hload'
      rw [hplan] at hplan'
      split at hplan'
      · cases hplan'
      · cases hplan'
        have hsound := hfiles.sound hjson
        obtain ⟨inventory', hload', -, hstore⟩ := hsound.load
        rw [hload] at hload'
        cases hload'
        obtain ⟨id, hp⟩ := hc.published hjson hstore fun graph hgraph => by
          cases hgraph
          exact hspelled
        exact ⟨_, _, imported, (hp.sound hsound).2, happly, rfl, hafter⟩

end Planned

/-! ### The laws -/

theorem importable_of_references {E : Externals} {loaded : Inventory} {candidates : SavedVaultGraph}
    (hloaded : normalizeLoadedStore E loaded = .ok loaded)
    (hnormal : ∀ rule ∈ candidates.portForwardRules, rule.normalized = .ok rule)
    (hrecords : validateGraphCandidates E candidates = .ok ())
    (hreferences : validateCandidateGraphReferences E candidates loaded.toSavedVaultGraph =
      .ok ()) : Importable E loaded candidates := by
  obtain ⟨-, h⟩ := check_ok_iff.mp hreferences
  obtain ⟨-, h⟩ := check_ok_iff.mp h
  obtain ⟨-, h⟩ := check_ok_iff.mp h
  obtain ⟨-, h⟩ := check_ok_iff.mp h
  obtain ⟨rules, hrules, -⟩ := bind_ok_iff.mp h
  exact importable_of_checks hloaded hrecords hnormal hrules

/-- **Imports.**  An import that succeeds keeps every record, adds the candidates that are new and
leaves a closed graph; a second one changes nothing.  Conflicts are reported where the import ends
with one, and a planned import that returns has stored what was planned. -/
theorem import_laws (V : SavedHostStore) (loaded : Inventory) (candidates : SavedVaultGraph)
    (hloaded : normalizeLoadedStore V.externals loaded = .ok loaded)
    (hnormal : ∀ rule ∈ candidates.portForwardRules, rule.normalized = .ok rule) :
    (∀ projected imported,
      applyGraphImport V.externals loaded candidates = .ok (projected, imported) →
      Imports loaded candidates projected imported ∧ projected.Closed V.externals ∧
        projected.Records V.externals ∧
        applyGraphImport V.externals projected candidates = .ok (projected, .empty)) ∧
    (∀ assessment, assessGraphImport V.externals loaded candidates = .ok assessment →
      ((∃ kind, applyGraphImport V.externals loaded candidates =
          .error (.graphImportConflict kind)) → .conflict ∈ assessment.all) ∧
      (.conflict ∈ assessment.all →
        (∃ kind, applyGraphImport V.externals loaded candidates =
          .error (.graphImportConflict kind)) ∨
        applyGraphImport V.externals loaded candidates = .error .serialization ∧
          ¬ PathsFit loaded.customGroups candidates.customGroups)) ∧
    ∀ plan, planGraphImport V.externals V.serde V.storeId loaded candidates = .ok plan →
      (∃ projected imported,
        applyGraphImport V.externals loaded candidates = .ok (projected, imported) ∧
        graphCommitment V.serde V.storeId projected = .ok plan.afterGraphCommitment ∧
        ∀ generation maxSeenGeneration,
          V.plan ⟨generation, maxSeenGeneration, loaded⟩ (.commitPlannedGraphImport
            (V.inventoryRevision generation maxSeenGeneration) plan candidates) =
            .ok (if imported.isEmpty then none else some projected)) ∧
      (V.serde.ReadsBack V.externals → candidates.Spelled →
        ∀ files generation maxSeenGeneration, V.Reachable files →
          V.loadLocked files = .ok ⟨generation, maxSeenGeneration, loaded⟩ →
          ∀ tape performed after rest, V.perform (.commitPlannedGraphImport
            (V.inventoryRevision generation maxSeenGeneration) plan candidates) files tape =
              .returned (.ok performed) after rest →
          ∃ stored, V.loadLocked after = .ok stored ∧
            graphCommitment V.serde V.storeId stored.inventory = .ok plan.afterGraphCommitment) := by
  have himportable : ∀ {projected imported},
      applyGraphImport V.externals loaded candidates = .ok (projected, imported) →
      Importable V.externals loaded candidates := fun happly => by
    obtain ⟨hrecords, hreferences, -⟩ := applyGraphImport_ok_iff.mp happly
    exact importable_of_references hloaded hnormal hrecords hreferences
  refine ⟨fun projected imported happly => ?_, fun assessment hassess => ?_, fun plan hplan => ?_⟩
  · have hi := himportable happly
    obtain ⟨himports, hchecked, horder⟩ := applyGraphImport_imports hi happly
    exact ⟨himports, hchecked.closed horder, hchecked.records, applyGraphImport_again hi happly⟩
  · obtain ⟨hrecords, hreferences, -⟩ := assessGraphImport_ok hassess
    exact conflicts_reported (importable_of_references hloaded hnormal hrecords hreferences) hassess
  · obtain ⟨projected, imported, happly, hbefore, hafter⟩ := planGraphImport_ok hplan
    refine ⟨⟨projected, imported, happly, hafter, fun generation maxSeenGeneration => ?_⟩, ?_⟩
    · obtain ⟨projected', imported', happly', -, hplanned⟩ :=
        SavedHostStore.plan_plannedGraphImport ⟨generation, maxSeenGeneration, loaded⟩ hplan
      rw [show applyGraphImport V.externals loaded candidates = _ from happly'] at happly
      cases happly
      exact hplanned
    · intro hjson hspelled files generation maxSeenGeneration hfiles hload tape performed after rest
        hrun
      obtain ⟨stored, -, -, hstored, -, -, hcommitment⟩ :=
        planned_stored hjson hfiles hload (himportable happly) hspelled hplan hrun
      exact ⟨stored, hstored, hcommitment⟩

/-! ### A host in a group -/

/-- A host that is imported with its group into a store with another group. -/
def labCandidates : SavedVaultGraph :=
  { SavedVaultGraph.empty with hosts := [setupHost], customGroups := some labGroups }

def prodLabGroups : SavedGroupCatalog := ⟨["prod".toList, "lab".toList], by decide, by decide⟩

def labInventory : Inventory where
  toSavedVaultGraph :=
    { SavedVaultGraph.empty with hosts := [setupHost], customGroups := some prodLabGroups }
  knownHosts := []
  connectionLogs := []

theorem normalize_prodGroups :
    normalizeLoadedStore asciiExternals (groupsOnly prodGroups) = .ok (groupsOnly prodGroups) := by
  decide

theorem apply_labCandidates :
    applyGraphImport asciiExternals (groupsOnly prodGroups) labCandidates =
      .ok (labInventory, labCandidates) := by
  decide

theorem import_laws_lab :
    Imports (groupsOnly prodGroups) labCandidates labInventory labCandidates ∧
      labInventory.Closed asciiExternals ∧
      applyGraphImport asciiExternals labInventory labCandidates = .ok (labInventory, .empty) := by
  obtain ⟨happly, -⟩ := import_laws groupsStore (groupsOnly prodGroups) labCandidates
    normalize_prodGroups (fun rule hrule => absurd hrule List.not_mem_nil)
  obtain ⟨himports, hclosed, -, hagain⟩ := happly _ _ apply_labCandidates
  exact ⟨himports, hclosed, hagain⟩

/-! ### A catalog that is full -/

def numberedPaths (count : ℕ) : List Text := (List.range count).map (padded 4)

theorem nodup_numberedPaths {count : ℕ} (h : count ≤ 10 ^ 4) : (numberedPaths count).Nodup := by
  refine (List.nodup_map_iff_inj_on List.nodup_range).mpr fun n hn m hm heq => ?_
  have hvalue := congrArg decimalValue heq
  rw [decimalValue_padded, decimalValue_padded] at hvalue
  rw [List.mem_range] at hn hm
  omega

theorem length_numberedPaths (count : ℕ) : (numberedPaths count).length = count := by
  rw [numberedPaths, List.length_map, List.length_range]

theorem lab_not_mem_numberedPaths (count : ℕ) : "lab".toList ∉ numberedPaths count := by
  intro hmem
  obtain ⟨n, -, heq⟩ := List.mem_map.mp hmem
  have hdigit := padded_isDigit 4 n 'l' (heq ▸ List.mem_cons_self)
  exact absurd hdigit (by decide)

def numberedGroups (count : ℕ) (h : count ≤ maxGroupCatalogEntities) : SavedGroupCatalog :=
  ⟨numberedPaths count, nodup_numberedPaths (h.trans (by decide)),
    (length_numberedPaths count).le.trans h⟩

/-- As many paths as a catalog can have. -/
def fullGroups : SavedGroupCatalog := numberedGroups maxGroupCatalogEntities le_rfl

def deploySnippets (command : String) : Option (List SavedSnippet) :=
  some [⟨"deploy".toList, "Deploy".toList, command.toList, none, none, none, none, none, none,
    none, none, .null⟩]

def uptimeSnippets : SavedNotesSnippetsCatalog :=
  ⟨⟨deploySnippets "uptime", none, none, none⟩, by decide⟩

def rebootSnippets : SavedNotesSnippetsCatalog :=
  ⟨⟨deploySnippets "reboot", none, none, none⟩, by decide⟩

def snippetInventory (customGroups : Option SavedGroupCatalog) : Inventory where
  toSavedVaultGraph := { SavedVaultGraph.empty with customGroups, notesSnippets := uptimeSnippets }
  knownHosts := []
  connectionLogs := []

/-- A snippet in conflict, and one more group. -/
def rebootCandidates : SavedVaultGraph :=
  { SavedVaultGraph.empty with customGroups := some labGroups, notesSnippets := rebootSnippets }

/-- The checks of an inventory do not speak of its group paths. -/
theorem normalize_snippetInventory (customGroups : Option SavedGroupCatalog) :
    normalizeLoadedStore asciiExternals (snippetInventory customGroups) =
      .ok (snippetInventory customGroups) := by
  have hsmall : normalizeLoadedStore asciiExternals (snippetInventory none) =
      .ok (snippetInventory none) := by
    decide
  obtain ⟨hchecked, rules, hrules, heq⟩ := normalizeLoadedStore_ok_iff.mp hsmall
  refine normalizeLoadedStore_ok_iff.mpr ⟨⟨{ hchecked.records with }, ?_, hchecked.knownHosts,
    hchecked.connectionLogs⟩, rules, hrules, ?_⟩
  · exact { hchecked.references with }
  · simp only [Inventory.inOrder, snippetInventory, SavedVaultGraph.sortCatalogs, Inventory.mk.injEq,
      SavedVaultGraph.mk.injEq] at heq ⊢
    simpa using heq

theorem check_rebootCandidates :
    validateGraphCandidates asciiExternals rebootCandidates = .ok () ∧
      validateCandidateGraphReferences asciiExternals rebootCandidates
        (snippetInventory (some fullGroups)).toSavedVaultGraph = .ok () := by
  decide

theorem assess_rebootCandidates : ∃ assessment,
    assessGraphImport asciiExternals (snippetInventory (some fullGroups)) rebootCandidates =
      .ok assessment ∧ assessment.snippets = [.conflict] := by
  refine ⟨_, check_ok_iff.mpr ⟨check_rebootCandidates.1, check_ok_iff.mpr
    ⟨check_rebootCandidates.2, rfl⟩⟩, ?_⟩
  decide

theorem mergeCustomGroup_fullGroups :
    mergeCustomGroupImport (some fullGroups) (some labGroups) = .error .serialization := by
  have hfull : ∀ (count : ℕ) (h : count ≤ maxGroupCatalogEntities),
      maxGroupCatalogEntities ≤ count →
      (numberedGroups count h).insertPath "lab".toList = none := by
    intro count h hcount
    have hnew : "lab".toList ∉ (numberedGroups count h).explicitPaths :=
      lab_not_mem_numberedPaths count
    rcases insertPath_of_not_mem hnew with ⟨inserted, -, hpaths⟩ | ⟨hnone, -⟩
    · have hle := inserted.bounded
      have hlength : (numberedGroups count h).explicitPaths.length = count :=
        length_numberedPaths count
      rw [hpaths, List.length_append, hlength, List.length_singleton] at hle
      omega
    · exact hnone
  have hnone : fullGroups.insertPath "lab".toList = none := hfull _ _ le_rfl
  simp only [mergeCustomGroupImport, labGroups, insertPaths, hnone]
  rfl

/-- The catalogs in front of the group paths are empty. -/
theorem mergeGraph_rebootCandidates {customGroups : Option SavedGroupCatalog} {error : StoreError}
    (h : mergeCustomGroupImport customGroups (some labGroups) = .error error) :
    mergeGraph (snippetInventory customGroups) rebootCandidates = .error error := by
  change (mergeCustomGroupImport customGroups (some labGroups) >>= _) = _
  rw [h]
  rfl

theorem apply_rebootCandidates :
    applyGraphImport asciiExternals (snippetInventory (some fullGroups)) rebootCandidates =
      .error .serialization :=
  applyGraphImport_error check_rebootCandidates.1 check_rebootCandidates.2
    (mergeGraph_rebootCandidates mergeCustomGroup_fullGroups)

/-- A conflict that is reported need not be the error that the import ends with. -/
theorem not_conflict_reported_iff :
    ¬ ∀ (V : SavedHostStore) (loaded : Inventory) (candidates : SavedVaultGraph) assessment,
      normalizeLoadedStore V.externals loaded = .ok loaded →
      (∀ rule ∈ candidates.portForwardRules, rule.normalized = .ok rule) →
      assessGraphImport V.externals loaded candidates = .ok assessment →
      (.conflict ∈ assessment.all ↔
        ∃ kind, applyGraphImport V.externals loaded candidates =
          .error (.graphImportConflict kind)) := by
  intro h
  obtain ⟨assessment, hassess, hsnippets⟩ := assess_rebootCandidates
  have hiff := h groupsStore (snippetInventory (some fullGroups)) rebootCandidates assessment
    (normalize_snippetInventory _) (fun rule hrule => absurd hrule List.not_mem_nil) hassess
  have hmem : Disposition.conflict ∈ assessment.all := by
    simp [SavedVaultGraphImportAssessment.all, hsnippets]
  obtain ⟨kind, hconflict⟩ := hiff.mp hmem
  rw [show applyGraphImport groupsStore.externals _ _ = _ from apply_rebootCandidates] at hconflict
  cases hconflict

end Netcatty.Vault
