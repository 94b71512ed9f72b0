import Netcatty.Vault.Graph

/-! # What the checks of the vault establish

`SavedVaultGraph.Records` says of each record of a graph that it is valid, and that ids are unique;
`SavedVaultGraph.References` that every relation resolves in the graph itself.  The checks of a
commit hold exactly of the inventories that satisfy both (`checkCommit_ok_iff`), and so do those of
an import (`normalizeLoadedStore_ok_iff`), which returns the inventory with its catalogs in order. -/

namespace Netcatty.Vault

open Catalog

/-! ### Lookups do not depend on the order of catalogs -/

theorem lookups_perm {g g' : SavedVaultGraph}
    (hrefs : g.sshKeyReferences.Perm g'.sshKeyReferences)
    (hkeys : g.managedSshKeys.Perm g'.managedSshKeys)
    (hids : g.identityReferences.Perm g'.identityReferences)
    (hpws : g.passwordIdentities.Perm g'.passwordIdentities)
    (hproxies : g.proxyProfiles.Perm g'.proxyProfiles)
    (nrefs : (g.sshKeyReferences.map (·.id)).Nodup)
    (nkeys : (g.managedSshKeys.map (·.id)).Nodup)
    (nids : (g.identityReferences.map (·.id)).Nodup)
    (npws : (g.passwordIdentities.map (·.id)).Nodup)
    (nproxies : (g.proxyProfiles.map (·.id)).Nodup) : g.lookups = g'.lookups := by
  simp only [SavedVaultGraph.lookups, GraphLookups.of, GraphLookups.mk.injEq]
  refine ⟨?_, ?_, ?_, ?_, ?_⟩ <;> funext id
  · rw [lookupBy_perm nrefs hrefs]
  · rw [lookupBy_perm nkeys hkeys]
  · rw [lookupBy_perm nids hids]
  · rw [lookupBy_perm npws hpws]
  · rw [lookupBy_perm nproxies hproxies]

theorem lookupBy_nil {α κ : Type} [DecidableEq κ] (key : α → κ) (k : κ) :
    lookupBy key [] k = none := rfl

/-- Candidates for an empty store are looked up among themselves. -/
theorem lookups_over_empty (g : SavedVaultGraph) :
    g.lookups.over SavedVaultGraph.empty.lookups = g.lookups := by
  simp only [SavedVaultGraph.lookups, GraphLookups.over, GraphLookups.of, SavedVaultGraph.empty,
    lookupBy_nil, Option.map_none, Option.or_none]

/-! ### Groups -/

theorem checkGroups_ok_iff {ids paths : List Text} {groups : List SavedGroupConfig} :
    checkGroups ids paths groups = .ok () ↔
      (∀ group ∈ groups, group.isValid) ∧ (groups.map (·.id)).Nodup ∧
        (groups.map (·.path)).Nodup ∧ (∀ group ∈ groups, group.id ∉ ids) ∧
        ∀ group ∈ groups, group.path ∉ paths := by
  induction groups generalizing ids paths with
  | nil => simp [checkGroups]
  | cons group groups ih =>
      simp only [checkGroups, refuse_ok_iff, ih, not_or, Bool.not_eq_true', Bool.not_eq_false,
        List.mem_cons, forall_eq_or_imp, List.map_cons, List.nodup_cons, List.mem_map, not_exists,
        not_and]
      constructor
      · rintro ⟨hvalid, ⟨hid, hpath⟩, hvalids, hnid, hnpath, hids, hpaths⟩
        exact ⟨⟨hvalid, hvalids⟩, ⟨fun b hb => (hids b hb).1, hnid⟩,
          ⟨fun b hb => (hpaths b hb).1, hnpath⟩, ⟨hid, fun b hb => (hids b hb).2⟩, hpath,
          fun b hb => (hpaths b hb).2⟩
      · rintro ⟨⟨hvalid, hvalids⟩, ⟨hneid, hnid⟩, ⟨hnepath, hnpath⟩, ⟨hid, hids⟩, hpath, hpaths⟩
        exact ⟨hvalid, ⟨hid, hpath⟩, hvalids, hnid, hnpath, fun b hb => ⟨hneid b hb, hids b hb⟩,
          fun b hb => ⟨hnepath b hb, hpaths b hb⟩⟩

/-! ### Port-forward rules -/

/-- A rule and its normal form, whose host is one for SSH. -/
def RuleFor (hosts : List SavedHost) (rule normal : SavedPortForwardRule) : Prop :=
  rule.normalized = .ok normal ∧
    ∃ host, hosts.find? (·.id = normal.hostId) = some host ∧ host.protocol.isSsh

theorem normalizeRules_ok_iff {hosts : List SavedHost} {seen : List Text}
    {rules normal : List SavedPortForwardRule} :
    normalizeRules hosts seen rules = .ok normal ↔
      List.Forall₂ (RuleFor hosts) rules normal ∧ (normal.map (·.id)).Nodup ∧
        ∀ rule ∈ normal, rule.id ∉ seen := by
  induction rules generalizing seen normal with
  | nil =>
      constructor
      · intro h
        cases h
        simp
      · rintro ⟨h, -⟩
        cases h
        rfl
  | cons rule rules ih =>
      rw [normalizeRules, bind_ok_iff]
      constructor
      · rintro ⟨first, hfirst, h⟩
        obtain ⟨hid, h⟩ := refuse_ok_iff.mp h
        split at h
        · exact absurd h (by simp)
        · rename_i host hhost
          split at h
          · rename_i hssh
            obtain ⟨rest, hrest, hnormal⟩ := bind_ok_iff.mp h
            cases hnormal
            obtain ⟨hall, hnodup, hnew⟩ := ih.mp hrest
            refine ⟨.cons ⟨hfirst, host, hhost, hssh⟩ hall, ?_, ?_⟩
            · rw [List.map_cons, List.nodup_cons]
              refine ⟨fun hmem => ?_, hnodup⟩
              obtain ⟨other, hother, heq⟩ := List.mem_map.mp hmem
              exact hnew other hother (List.mem_cons.mpr (Or.inl heq))
            · intro other hother
              rcases List.mem_cons.mp hother with rfl | hother
              · exact hid
              · exact fun hmem => hnew other hother (List.mem_cons_of_mem _ hmem)
          · exact absurd h (by simp)
      · rintro ⟨hall, hnodup, hnew⟩
        cases hall with
        | @cons _ first _ rest hrule hall =>
            obtain ⟨hfirst, host, hhost, hssh⟩ := hrule
            rw [List.map_cons, List.nodup_cons] at hnodup
            have hid := hnew first List.mem_cons_self
            have hrest : normalizeRules hosts (first.id :: seen) rules = .ok rest := by
              refine ih.mpr ⟨hall, hnodup.2, fun other hother hmem => ?_⟩
              rcases List.mem_cons.mp hmem with heq | hmem
              · exact hnodup.1 (List.mem_map.mpr ⟨other, hother, heq⟩)
              · exact hnew other (List.mem_cons_of_mem _ hother) hmem
            refine ⟨first, hfirst, refuse_ok_iff.mpr ⟨hid, ?_⟩⟩
            simp only [hhost, hssh, if_true, hrest]
            rfl

theorem normalizeAndValidatePortForwardRules_ok_iff {rules normal : List SavedPortForwardRule}
    {hosts : List SavedHost} :
    normalizeAndValidatePortForwardRules rules hosts = .ok normal ↔
      rules.length ≤ maxSavedPortForwardRules ∧ List.Forall₂ (RuleFor hosts) rules normal ∧
        (normal.map (·.id)).Nodup := by
  unfold normalizeAndValidatePortForwardRules
  split_ifs with h
  · simp [Nat.not_le.mpr h]
  · simp [normalizeRules_ok_iff, Nat.not_lt.mp h]

theorem normalizePortForwardRules_ok_iff {rules sorted : List SavedPortForwardRule}
    {hosts : List SavedHost} :
    normalizePortForwardRules rules hosts = .ok sorted ↔
      ∃ normal, normalizeAndValidatePortForwardRules rules hosts = .ok normal ∧
        sorted = sortBy SavedPortForwardRule.cmp normal := by
  unfold normalizePortForwardRules
  split
  · rename_i normal h
    simp [h, eq_comm]
  · rename_i error h
    simp [h]

theorem ruleFor_perm {hosts hosts' : List SavedHost} (hnodup : (hosts.map (·.id)).Nodup)
    (hp : hosts.Perm hosts') {rule normal : SavedPortForwardRule} :
    RuleFor hosts rule normal ↔ RuleFor hosts' rule normal := by
  have hnodup' : (hosts'.map (·.id)).Nodup := (hp.map _).nodup_iff.mp hnodup
  simp only [RuleFor, find?_eq_some_iff hnodup, find?_eq_some_iff hnodup', hp.mem_iff]

theorem normalizeAndValidatePortForwardRules_perm {hosts hosts' : List SavedHost}
    (hnodup : (hosts.map (·.id)).Nodup) (hp : hosts.Perm hosts')
    {rules normal : List SavedPortForwardRule} :
    normalizeAndValidatePortForwardRules rules hosts = .ok normal ↔
      normalizeAndValidatePortForwardRules rules hosts' = .ok normal := by
  have h : RuleFor hosts = RuleFor hosts' := by
    funext rule normal
    exact propext (ruleFor_perm hnodup hp)
  rw [normalizeAndValidatePortForwardRules_ok_iff, normalizeAndValidatePortForwardRules_ok_iff, h]

/-! ### Snippets and notes -/

theorem validateHostReferences_ok_iff {catalog : SavedNotesSnippetsCatalog}
    {hostIds : List Text} :
    validateHostReferences catalog hostIds = .ok () ↔
      (∀ id ∈ hostIds, isOpaqueId id) ∧
        (∀ snippet ∈ catalog.parts.snippets.getD [], ∀ id ∈ snippet.targets.getD [],
          id ∈ hostIds) ∧
        ∀ note ∈ catalog.parts.notes.getD [], ∀ id ∈ note.linkedHostIds.getD [], id ∈ hostIds := by
  have hite : ∀ (p : Prop) [Decidable p] (error : StoreError),
      (if p then Except.ok () else .error error) = .ok () ↔ p := by
    intro p _ error
    split_ifs with h <;> simp [h]
  rw [validateHostReferences, check_ok_iff, check_ok_iff]
  simp only [checkAll_ok_iff, hite]

theorem validateNotesSnippetsGraphReferences_ok_iff {hosts : List SavedHost}
    {groups : List SavedGroupConfig} {catalog : SavedNotesSnippetsCatalog} :
    validateNotesSnippetsGraphReferences hosts groups catalog = .ok () ↔
      validateHostReferences catalog (hosts.map (·.id)) = .ok () ∧
        ∀ snippets, catalog.parts.snippets = some snippets →
          (∀ host ∈ hosts, validateHostScriptReferences (scriptsOf snippets) host = .ok ()) ∧
            ∀ group ∈ groups, validateGroupScriptReference (scriptsOf snippets) group = .ok () := by
  rw [validateNotesSnippetsGraphReferences, check_ok_iff]
  refine and_congr_right fun _ => ?_
  cases hsnippets : catalog.parts.snippets with
  | none => simp
  | some snippets => simp [check_ok_iff, checkAll_ok_iff]

theorem validateNotesSnippetsGraphReferences_perm {hosts hosts' : List SavedHost}
    {groups groups' : List SavedGroupConfig} (hhosts : hosts.Perm hosts')
    (hgroups : groups.Perm groups') {catalog : SavedNotesSnippetsCatalog} :
    validateNotesSnippetsGraphReferences hosts groups catalog = .ok () ↔
      validateNotesSnippetsGraphReferences hosts' groups' catalog = .ok () := by
  simp only [validateNotesSnippetsGraphReferences_ok_iff, validateHostReferences_ok_iff,
    (hhosts.map fun host : SavedHost => host.id).mem_iff, hhosts.mem_iff, hgroups.mem_iff]

theorem candidateScripts_nil {snippets : List SavedSnippet}
    (h : (snippets.map (·.id)).Nodup) : candidateScripts [] snippets = scriptsOf snippets := by
  funext id
  simp only [candidateScripts, scriptsOf, lookupBy_nil, Option.none_or, find?_eq_lookupBy h]

theorem validateCandidateNotesSnippetsReferences_empty (g : SavedVaultGraph) :
    validateCandidateNotesSnippetsReferences g .empty =
      validateNotesSnippetsGraphReferences g.hosts g.groups g.notesSnippets := by
  have hnodup := g.notesSnippets.bounded.nodup_snippets
  unfold validateCandidateNotesSnippetsReferences validateNotesSnippetsGraphReferences
  simp only [SavedVaultGraph.empty, SavedNotesSnippetsCatalog.absent, NotesSnippetsParts.absent,
    List.nil_append, Option.isNone_none, Bool.true_and, Option.getD_none]
  cases hsnippets : g.notesSnippets.parts.snippets with
  | none => rfl
  | some snippets =>
      rw [hsnippets, Option.getD_some] at hnodup
      simp only [Option.isNone_some, Bool.false_eq_true, if_false, Option.isSome_some, if_true,
        Option.getD_some, candidateScripts_nil hnodup]

/-! ### Records and references -/

variable (E : Externals)

/-- Every record is valid, and ids are unique within and across the key and identity catalogs. -/
structure SavedVaultGraph.Records (g : SavedVaultGraph) : Prop where
  hosts : ∀ host ∈ g.hosts, host.validate E = .ok ()
  nodup_hosts : (g.hosts.map (·.id)).Nodup
  sshKeyReferences : ∀ reference ∈ g.sshKeyReferences, reference.validate = .ok ()
  nodup_sshKeyReferences : (g.sshKeyReferences.map (·.id)).Nodup
  managedSshKeys : ∀ key ∈ g.managedSshKeys, key.validate = .ok ()
  nodup_managedSshKeys : (g.managedSshKeys.map (·.id)).Nodup
  disjoint_keys : ∀ key ∈ g.managedSshKeys, key.id ∉ g.sshKeyReferences.map (·.id)
  identityReferences : ∀ reference ∈ g.identityReferences, reference.validate = .ok ()
  nodup_identityReferences : (g.identityReferences.map (·.id)).Nodup
  passwordIdentities : ∀ identity ∈ g.passwordIdentities, identity.validate = .ok ()
  nodup_passwordIdentities : (g.passwordIdentities.map (·.id)).Nodup
  disjoint_identities : ∀ identity ∈ g.passwordIdentities,
    identity.id ∉ g.identityReferences.map (·.id)
  proxyProfiles : ∀ profile ∈ g.proxyProfiles, profile.validate = .ok ()
  nodup_proxyProfiles : (g.proxyProfiles.map (·.id)).Nodup
  groups : ∀ group ∈ g.groups, group.isValid
  nodup_groups : (g.groups.map (·.id)).Nodup
  nodup_paths : (g.groups.map (·.path)).Nodup

/-- Every relation in force resolves in the graph itself. -/
structure SavedVaultGraph.References (g : SavedVaultGraph) : Prop where
  identities : ∀ identity ∈ g.identityReferences,
    validateIdentityKeyReference g.lookups identity = .ok ()
  profiles : ∀ profile ∈ g.proxyProfiles,
    validateProxyConfigReference g.lookups profile.config .proxyProfile = .ok ()
  hosts : ∀ host ∈ g.hosts, validateHostGraphReference g.lookups host = .ok ()
  proxies : ∀ host ∈ g.hosts, validateHostProxyReference E g.lookups host = .ok ()
  groups : ∀ group ∈ g.groups,
    validateGroupGraphReference g.lookups (g.hosts.map (·.id)) group = .ok ()
  rules : ∃ rules, normalizeAndValidatePortForwardRules g.portForwardRules g.hosts = .ok rules
  notesSnippets : validateNotesSnippetsGraphReferences g.hosts g.groups g.notesSnippets = .ok ()

structure Inventory.Checked (inventory : Inventory) : Prop where
  records : inventory.Records E
  references : inventory.References E
  knownHosts : validateSavedKnownHosts inventory.knownHosts = .ok ()
  connectionLogs : validateSavedConnectionLogs inventory.connectionLogs = .ok ()

variable {E}

theorem validateGraphCandidates_ok_iff {g : SavedVaultGraph} :
    validateGraphCandidates E g = .ok () ↔ g.Records E := by
  simp only [validateGraphCandidates, bind_ok_iff, checkUnique_ok_iff, checkGroups_ok_iff,
    liftValidation_ok_iff, List.append_nil, List.not_mem_nil, not_false_eq_true, implies_true,
    true_and, and_true]
  constructor
  · rintro ⟨-, ⟨h₁, h₂, -⟩, -, ⟨h₃, h₄, rfl⟩, -, ⟨h₅, h₆, h₇, -⟩, -, ⟨h₈, h₉, rfl⟩, -,
      ⟨h₁₀, h₁₁, h₁₂, -⟩, -, ⟨h₁₃, h₁₄, -⟩, h₁₅, h₁₆, h₁₇⟩
    exact ⟨h₁, h₂, h₃, h₄, h₅, h₆, fun key hkey => by simpa using h₇ key hkey, h₈, h₉, h₁₀, h₁₁,
      fun identity hidentity => by simpa using h₁₂ identity hidentity, h₁₃, h₁₄, h₁₅, h₁₆, h₁₇⟩
  · intro h
    refine ⟨_, ⟨h.hosts, h.nodup_hosts, rfl⟩, _,
      ⟨h.sshKeyReferences, h.nodup_sshKeyReferences, rfl⟩, _,
      ⟨h.managedSshKeys, h.nodup_managedSshKeys, ?_, rfl⟩, _,
      ⟨h.identityReferences, h.nodup_identityReferences, rfl⟩, _,
      ⟨h.passwordIdentities, h.nodup_passwordIdentities, ?_, rfl⟩, _,
      ⟨h.proxyProfiles, h.nodup_proxyProfiles, rfl⟩, h.groups, h.nodup_groups, h.nodup_paths⟩
    · exact fun key hkey => by simpa using h.disjoint_keys key hkey
    · exact fun identity hidentity => by simpa using h.disjoint_identities identity hidentity

/-- Candidates for an empty store resolve among themselves. -/
theorem validateCandidateGraphReferences_empty_ok_iff {g : SavedVaultGraph} :
    validateCandidateGraphReferences E g .empty = .ok () ↔ g.References E := by
  unfold validateCandidateGraphReferences
  simp only [lookups_over_empty, validateCandidateNotesSnippetsReferences_empty, check_ok_iff,
    checkAll_ok_iff]
  simp only [bind_ok_iff, normalizePortForwardRules_ok_iff, SavedVaultGraph.empty, List.append_nil, List.nil_append]
  constructor
  · rintro ⟨hids, hprofiles, hhosts, hgroups, -, ⟨rules, hrules, -⟩, hnotes⟩
    exact ⟨hids, hprofiles, fun host hhost => (hhosts host hhost).1,
      fun host hhost => (hhosts host hhost).2, hgroups, ⟨rules, hrules⟩, hnotes⟩
  · intro h
    obtain ⟨rules, hrules⟩ := h.rules
    exact ⟨h.identities, h.profiles, fun host hhost => ⟨h.hosts host hhost, h.proxies host hhost⟩,
      h.groups, _, ⟨rules, hrules, rfl⟩, h.notesSnippets⟩

variable (E)

/-- The checks that a commit makes of the inventory that it is given. -/
def checkCommit (inventory : Inventory) : Except StoreError Unit := do
  validateGraphCandidates E inventory.toSavedVaultGraph
  liftSerialization (validateSavedKnownHosts inventory.knownHosts)
  liftSerialization (validateSavedConnectionLogs inventory.connectionLogs)
  validateCandidateGraphReferences E inventory.toSavedVaultGraph .empty

variable {E}

/-- **A commit accepts exactly the checked inventories.** -/
theorem checkCommit_ok_iff {inventory : Inventory} :
    checkCommit E inventory = .ok () ↔ inventory.Checked E := by
  simp only [checkCommit, check_ok_iff, validateGraphCandidates_ok_iff, liftSerialization_ok_iff,
    validateCandidateGraphReferences_empty_ok_iff]
  constructor
  · rintro ⟨h₁, h₂, h₃, h₄⟩
    exact ⟨h₁, h₄, h₂, h₃⟩
  · rintro ⟨h₁, h₄, h₂, h₃⟩
    exact ⟨h₁, h₂, h₃, h₄⟩

/-! ### The stored order -/

variable (E)

def SavedVaultGraph.sortCatalogs (g : SavedVaultGraph) : SavedVaultGraph :=
  { g with
    hosts := sortBy (SavedHost.stableCmp E) g.hosts
    sshKeyReferences := sortBy (SavedSshKeyReference.stableCmp E) g.sshKeyReferences
    managedSshKeys := sortBy (SavedManagedSshKey.stableCmp E) g.managedSshKeys
    identityReferences := sortBy (SavedIdentityReference.stableCmp E) g.identityReferences
    passwordIdentities := sortBy (SavedPasswordIdentity.stableCmp E) g.passwordIdentities
    proxyProfiles := sortBy (SavedProxyProfile.stableCmp E) g.proxyProfiles
    groups := sortBy (SavedGroupConfig.stableCmp E) g.groups }

variable {E}

theorem SavedVaultGraph.Records.lookups_sortCatalogs {g : SavedVaultGraph} (h : g.Records E) :
    (g.sortCatalogs E).lookups = g.lookups :=
  (lookups_perm (sortBy_perm _ _).symm (sortBy_perm _ _).symm (sortBy_perm _ _).symm
    (sortBy_perm _ _).symm (sortBy_perm _ _).symm h.nodup_sshKeyReferences h.nodup_managedSshKeys
    h.nodup_identityReferences h.nodup_passwordIdentities h.nodup_proxyProfiles).symm

theorem normalizeHosts_ok_iff {hosts sorted : List SavedHost} :
    normalizeHosts E hosts = .ok sorted ↔
      ((∀ host ∈ hosts, host.validate E = .ok ()) ∧ (hosts.map (·.id)).Nodup) ∧
        sorted = sortBy (SavedHost.stableCmp E) hosts := by
  rw [normalizeHosts, checkUnique_pure_ok_iff]
  simp

theorem normalizeSshKeyReferences_ok_iff {references sorted : List SavedSshKeyReference} :
    normalizeSshKeyReferences E references = .ok sorted ↔
      ((∀ reference ∈ references, reference.validate = .ok ()) ∧
        (references.map (·.id)).Nodup) ∧
        sorted = sortBy (SavedSshKeyReference.stableCmp E) references := by
  rw [normalizeSshKeyReferences, checkUnique_pure_ok_iff]
  simp

theorem normalizeManagedSshKeys_ok_iff {keys sorted : List SavedManagedSshKey}
    {references : List SavedSshKeyReference} :
    normalizeManagedSshKeys E keys references = .ok sorted ↔
      ((∀ key ∈ keys, key.validate = .ok ()) ∧ (keys.map (·.id)).Nodup ∧
        ∀ key ∈ keys, key.id ∉ references.map (·.id)) ∧
        sorted = sortBy (SavedManagedSshKey.stableCmp E) keys := by
  rw [normalizeManagedSshKeys, checkUnique_pure_ok_iff]
  simp

theorem normalizeIdentityReferences_ok_iff {L : GraphLookups}
    {references sorted : List SavedIdentityReference} :
    normalizeIdentityReferences E L references = .ok sorted ↔
      ((∀ reference ∈ references, reference.validate = .ok ()) ∧
        (references.map (·.id)).Nodup ∧
        ∀ reference ∈ references, validateIdentityKeyReference L reference = .ok ()) ∧
        sorted = sortBy (SavedIdentityReference.stableCmp E) references := by
  simp only [normalizeIdentityReferences, ↓check_ok_iff, bind_ok_iff, checkUnique_ok_iff,
    checkAll_ok_iff, pure_ok_iff, liftValidation_ok_iff]
  simp [and_assoc]

theorem normalizePasswordIdentities_ok_iff {identities sorted : List SavedPasswordIdentity}
    {references : List SavedIdentityReference} :
    normalizePasswordIdentities E identities references = .ok sorted ↔
      ((∀ identity ∈ identities, identity.validate = .ok ()) ∧ (identities.map (·.id)).Nodup ∧
        ∀ identity ∈ identities, identity.id ∉ references.map (·.id)) ∧
        sorted = sortBy (SavedPasswordIdentity.stableCmp E) identities := by
  rw [normalizePasswordIdentities, checkUnique_pure_ok_iff]
  simp

theorem normalizeProxyProfiles_ok_iff {profiles sorted : List SavedProxyProfile} :
    normalizeProxyProfiles E profiles = .ok sorted ↔
      ((∀ profile ∈ profiles, profile.validate = .ok ()) ∧ (profiles.map (·.id)).Nodup) ∧
        sorted = sortBy (SavedProxyProfile.stableCmp E) profiles := by
  rw [normalizeProxyProfiles, checkUnique_pure_ok_iff]
  simp

theorem normalizeGroups_ok_iff {groups sorted : List SavedGroupConfig} :
    normalizeGroups E groups = .ok sorted ↔
      ((∀ group ∈ groups, group.isValid) ∧ (groups.map (·.id)).Nodup ∧
        (groups.map (·.path)).Nodup) ∧
        sorted = sortBy (SavedGroupConfig.stableCmp E) groups := by
  simp only [normalizeGroups, check_ok_iff, checkGroups_ok_iff, pure_ok_iff]
  simp

theorem normalizeConnectionLogs_ok_iff {logs sorted : List SavedConnectionLog} :
    normalizeConnectionLogs logs = .ok sorted ↔
      validateSavedConnectionLogs logs = .ok () ∧ sorted = sortBy SavedConnectionLog.cmp logs := by
  simp only [normalizeConnectionLogs, check_ok_iff, liftSerialization_ok_iff, pure_ok_iff]

theorem mem_map_sortBy {α : Type} (cmp : α → α → Ordering) (id : α → Text) (l : List α)
    (k : Text) : k ∈ (sortBy cmp l).map id ↔ k ∈ l.map id := ((sortBy_perm cmp l).map id).mem_iff

theorem normalizeCatalogs_ok_iff {inventory normal : Inventory} :
    normalizeCatalogs E inventory = .ok normal ↔
      (inventory.Records E ∧
        ∀ identity ∈ inventory.identityReferences,
          validateIdentityKeyReference inventory.lookups identity = .ok ()) ∧
        normal = ⟨inventory.sortCatalogs E, inventory.knownHosts, inventory.connectionLogs⟩ := by
  simp only [normalizeCatalogs, bind_ok_iff, normalizeHosts_ok_iff,
    normalizeSshKeyReferences_ok_iff, normalizeManagedSshKeys_ok_iff,
    normalizeIdentityReferences_ok_iff, normalizePasswordIdentities_ok_iff,
    normalizeProxyProfiles_ok_iff, normalizeGroups_ok_iff, pure_ok_iff]
  constructor
  · rintro ⟨-, ⟨⟨h₁, h₂⟩, rfl⟩, -, ⟨⟨h₃, h₄⟩, rfl⟩, -, ⟨⟨h₅, h₆, h₇⟩, rfl⟩, -,
      ⟨⟨h₈, h₉, hids⟩, rfl⟩, -, ⟨⟨h₁₀, h₁₁, h₁₂⟩, rfl⟩, -, ⟨⟨h₁₃, h₁₄⟩, rfl⟩, -,
      ⟨⟨h₁₅, h₁₆, h₁₇⟩, rfl⟩, rfl⟩
    simp only [mem_map_sortBy] at h₇ h₁₂
    have h : inventory.Records E :=
      ⟨h₁, h₂, h₃, h₄, h₅, h₆, h₇, h₈, h₉, h₁₀, h₁₁, h₁₂, h₁₃, h₁₄, h₁₅, h₁₆, h₁₇⟩
    refine ⟨⟨h, fun identity hidentity => ?_⟩, rfl⟩
    rw [← h.lookups_sortCatalogs]
    exact hids identity hidentity
  · rintro ⟨⟨h, hids⟩, rfl⟩
    refine ⟨_, ⟨⟨h.hosts, h.nodup_hosts⟩, rfl⟩, _,
      ⟨⟨h.sshKeyReferences, h.nodup_sshKeyReferences⟩, rfl⟩, _,
      ⟨⟨h.managedSshKeys, h.nodup_managedSshKeys, ?_⟩, rfl⟩, _,
      ⟨⟨h.identityReferences, h.nodup_identityReferences, ?_⟩, rfl⟩, _,
      ⟨⟨h.passwordIdentities, h.nodup_passwordIdentities, ?_⟩, rfl⟩, _,
      ⟨⟨h.proxyProfiles, h.nodup_proxyProfiles⟩, rfl⟩, _,
      ⟨⟨h.groups, h.nodup_groups, h.nodup_paths⟩, rfl⟩, rfl⟩
    · simpa only [mem_map_sortBy] using h.disjoint_keys
    · intro identity hidentity
      rw [← hids identity hidentity, ← h.lookups_sortCatalogs]
      rfl
    · simpa only [mem_map_sortBy] using h.disjoint_identities

/-- The inventory with its catalogs in order, and its rules in normal form. -/
def Inventory.inOrder (E : Externals) (inventory : Inventory)
    (rules : List SavedPortForwardRule) : Inventory :=
  ⟨{ inventory.sortCatalogs E with portForwardRules := sortBy SavedPortForwardRule.cmp rules },
    inventory.knownHosts, sortBy SavedConnectionLog.cmp inventory.connectionLogs⟩

theorem validateGroupGraphReference_congr {L : GraphLookups} {ids ids' : List Text}
    (h : ∀ id, id ∈ ids ↔ id ∈ ids') (group : SavedGroupConfig) :
    validateGroupGraphReference L ids group = validateGroupGraphReference L ids' group := by
  simp only [validateGroupGraphReference, h]

/-- References do not depend on the order of catalogs. -/
theorem SavedVaultGraph.Records.references_sortCatalogs_iff {g : SavedVaultGraph}
    (h : g.Records E) : (g.sortCatalogs E).References E ↔ g.References E := by
  have hgroup : ∀ group, validateGroupGraphReference g.lookups
      ((g.sortCatalogs E).hosts.map (·.id)) group =
      validateGroupGraphReference g.lookups (g.hosts.map (·.id)) group :=
    validateGroupGraphReference_congr fun id => mem_map_sortBy _ _ _ id
  have hrules : ∀ rules, normalizeAndValidatePortForwardRules g.portForwardRules
      (g.sortCatalogs E).hosts = .ok rules ↔
      normalizeAndValidatePortForwardRules g.portForwardRules g.hosts = .ok rules := fun rules =>
    (normalizeAndValidatePortForwardRules_perm h.nodup_hosts (sortBy_perm _ _).symm).symm
  have hnotes : validateNotesSnippetsGraphReferences (g.sortCatalogs E).hosts
      (g.sortCatalogs E).groups g.notesSnippets = .ok () ↔
      validateNotesSnippetsGraphReferences g.hosts g.groups g.notesSnippets = .ok () :=
    validateNotesSnippetsGraphReferences_perm (sortBy_perm _ _) (sortBy_perm _ _)
  constructor
  · rintro ⟨h₁, h₂, h₃, h₄, h₅, ⟨rules, h₆⟩, h₇⟩
    simp only [h.lookups_sortCatalogs, hgroup] at h₁ h₂ h₃ h₄ h₅
    simp only [sortCatalogs, mem_sortBy] at h₁ h₂ h₃ h₄ h₅
    exact ⟨h₁, h₂, h₃, h₄, h₅, ⟨rules, (hrules rules).mp h₆⟩, hnotes.mp h₇⟩
  · rintro ⟨h₁, h₂, h₃, h₄, h₅, ⟨rules, h₆⟩, h₇⟩
    constructor
    case rules => exact ⟨rules, (hrules rules).mpr h₆⟩
    case notesSnippets => exact hnotes.mpr h₇
    all_goals
      simp only [h.lookups_sortCatalogs, hgroup]
      simpa only [sortCatalogs, mem_sortBy]

/-- **The complete check accepts exactly the checked inventories** and puts them in order. -/
theorem normalizeLoadedStore_ok_iff {inventory normal : Inventory} :
    normalizeLoadedStore E inventory = .ok normal ↔
      inventory.Checked E ∧ ∃ rules,
        normalizeAndValidatePortForwardRules inventory.portForwardRules inventory.hosts =
          .ok rules ∧ normal = inventory.inOrder E rules := by
  rw [normalizeLoadedStore, bind_ok_iff]
  constructor
  · rintro ⟨_, hsorted, h⟩
    obtain ⟨⟨hrecords, hids⟩, rfl⟩ := normalizeCatalogs_ok_iff.mp hsorted
    obtain ⟨_, hnormalize, h⟩ := bind_ok_iff.mp h
    obtain ⟨rules, hrules, rfl⟩ := normalizePortForwardRules_ok_iff.mp hnormalize
    obtain ⟨hknown, h⟩ := check_ok_iff.mp h
    obtain ⟨_, hsort, h⟩ := bind_ok_iff.mp h
    obtain ⟨hlogs, rfl⟩ := normalizeConnectionLogs_ok_iff.mp hsort
    obtain ⟨hhosts, h⟩ := check_ok_iff.mp h
    obtain ⟨hproxies, h⟩ := check_ok_iff.mp h
    obtain ⟨hprofiles, hproxies⟩ := check_ok_iff.mp hproxies
    obtain ⟨hgroups, h⟩ := check_ok_iff.mp h
    obtain ⟨hnotes, h⟩ := check_ok_iff.mp h
    have hsorted : (inventory.sortCatalogs E).References E := by
      refine ⟨fun identity hidentity => ?_, checkAll_ok_iff _ |>.mp hprofiles,
        checkAll_ok_iff _ |>.mp hhosts, checkAll_ok_iff _ |>.mp hproxies,
        checkAll_ok_iff _ |>.mp hgroups, ⟨rules, hrules⟩, hnotes⟩
      rw [hrecords.lookups_sortCatalogs]
      exact hids identity ((mem_sortBy _).mp hidentity)
    refine ⟨⟨hrecords, hrecords.references_sortCatalogs_iff.mp hsorted,
      liftSerialization_ok_iff.mp hknown, hlogs⟩, rules, ?_, pure_ok_iff.mp h⟩
    exact (normalizeAndValidatePortForwardRules_perm hrecords.nodup_hosts
      (sortBy_perm _ _).symm).mpr hrules
  · rintro ⟨⟨hrecords, hrefs, hknown, hlogs⟩, rules, hrules, rfl⟩
    have hsorted := hrecords.references_sortCatalogs_iff.mpr hrefs
    refine ⟨_, normalizeCatalogs_ok_iff.mpr ⟨⟨hrecords, hrefs.identities⟩, rfl⟩, ?_⟩
    refine bind_ok_iff.mpr ⟨_, normalizePortForwardRules_ok_iff.mpr ⟨rules, ?_, rfl⟩, ?_⟩
    · exact (normalizeAndValidatePortForwardRules_perm hrecords.nodup_hosts
        (sortBy_perm _ _).symm).mp hrules
    refine check_ok_iff.mpr ⟨liftSerialization_ok_iff.mpr hknown, ?_⟩
    refine bind_ok_iff.mpr ⟨_, normalizeConnectionLogs_ok_iff.mpr ⟨hlogs, rfl⟩, ?_⟩
    refine check_ok_iff.mpr ⟨(checkAll_ok_iff _).mpr hsorted.hosts, ?_⟩
    refine check_ok_iff.mpr ⟨check_ok_iff.mpr ⟨(checkAll_ok_iff _).mpr hsorted.profiles,
      (checkAll_ok_iff _).mpr hsorted.proxies⟩, ?_⟩
    refine check_ok_iff.mpr ⟨(checkAll_ok_iff _).mpr hsorted.groups, ?_⟩
    exact check_ok_iff.mpr ⟨hsorted.notesSnippets, rfl⟩

/-- Catalogs in the order in which a snapshot is read back, and rules in normal form. -/
structure Inventory.InOrder (E : Externals) (inventory : Inventory) : Prop where
  catalogs : inventory.sortCatalogs E = inventory.toSavedVaultGraph
  normal : ∀ rule ∈ inventory.portForwardRules, rule.normalized = .ok rule
  rules : Ordered SavedPortForwardRule.cmp inventory.portForwardRules
  connectionLogs : Ordered SavedConnectionLog.cmp inventory.connectionLogs

theorem forall₂_normal {hosts : List SavedHost} {rules normal : List SavedPortForwardRule}
    (h : List.Forall₂ (RuleFor hosts) rules normal) : ∀ rule ∈ normal, RuleFor hosts rule rule := by
  intro rule hrule
  induction h with
  | nil => exact absurd hrule List.not_mem_nil
  | cons hfirst _ ih =>
      rcases List.mem_cons.mp hrule with rfl | hrule
      · exact ⟨SavedPortForwardRule.normalized_idempotent hfirst.1, hfirst.2⟩
      · exact ih hrule

/-- Rules that are in normal form already come out as they are. -/
theorem eq_of_forall₂_normal {hosts : List SavedHost} {rules normal : List SavedPortForwardRule}
    (h : List.Forall₂ (RuleFor hosts) rules normal)
    (hrules : ∀ rule ∈ rules, rule.normalized = .ok rule) : normal = rules := by
  induction h with
  | nil => rfl
  | @cons rule _ _ _ hrule _ ih =>
      have hfirst := hrules rule List.mem_cons_self
      rw [hrule.1] at hfirst
      cases hfirst
      rw [ih fun other hother => hrules other (List.mem_cons_of_mem _ hother)]

/-- **A checked inventory in order is read back as it is.** -/
theorem Inventory.Checked.normalize {inventory : Inventory} (h : inventory.Checked E)
    (ho : inventory.InOrder E) : normalizeLoadedStore E inventory = .ok inventory := by
  obtain ⟨rules, hrules⟩ := h.references.rules
  obtain ⟨-, hall, -⟩ := normalizeAndValidatePortForwardRules_ok_iff.mp hrules
  obtain rfl := eq_of_forall₂_normal hall ho.normal
  refine normalizeLoadedStore_ok_iff.mpr ⟨h, _, hrules, ?_⟩
  simp only [inOrder, ho.catalogs, sortBy_of_ordered ho.rules, sortBy_of_ordered ho.connectionLogs]

theorem sortCatalogs_sortCatalogs (g : SavedVaultGraph) :
    (g.sortCatalogs E).sortCatalogs E = g.sortCatalogs E := by
  simp only [SavedVaultGraph.sortCatalogs, SavedVaultGraph.mk.injEq, and_self, and_true]
  refine ⟨?_, ?_, ?_, ?_, ?_, ?_, ?_⟩ <;> exact sortBy_of_ordered (ordered_sortBy _)

theorem SavedVaultGraph.Records.sortCatalogs {g : SavedVaultGraph} (h : g.Records E) :
    (g.sortCatalogs E).Records E := by
  have hnodup : ∀ {α : Type} (cmp : α → α → Ordering) (id : α → Text) (l : List α),
      (l.map id).Nodup → ((sortBy cmp l).map id).Nodup :=
    fun cmp id l hl => ((sortBy_perm cmp l).map id).nodup_iff.mpr hl
  constructor <;>
    simp only [SavedVaultGraph.sortCatalogs, mem_sortBy, mem_map_sortBy]
  case nodup_hosts => exact hnodup _ _ _ h.nodup_hosts
  case nodup_sshKeyReferences => exact hnodup _ _ _ h.nodup_sshKeyReferences
  case nodup_managedSshKeys => exact hnodup _ _ _ h.nodup_managedSshKeys
  case nodup_identityReferences => exact hnodup _ _ _ h.nodup_identityReferences
  case nodup_passwordIdentities => exact hnodup _ _ _ h.nodup_passwordIdentities
  case nodup_proxyProfiles => exact hnodup _ _ _ h.nodup_proxyProfiles
  case nodup_groups => exact hnodup _ _ _ h.nodup_groups
  case nodup_paths => exact hnodup _ _ _ h.nodup_paths
  case hosts => exact h.hosts
  case sshKeyReferences => exact h.sshKeyReferences
  case managedSshKeys => exact h.managedSshKeys
  case disjoint_keys => exact h.disjoint_keys
  case identityReferences => exact h.identityReferences
  case passwordIdentities => exact h.passwordIdentities
  case disjoint_identities => exact h.disjoint_identities
  case proxyProfiles => exact h.proxyProfiles
  case groups => exact h.groups

theorem inOrder_rules {inventory : Inventory} {rules : List SavedPortForwardRule}
    (hnodup : (inventory.hosts.map (·.id)).Nodup)
    (h : normalizeAndValidatePortForwardRules inventory.portForwardRules inventory.hosts =
      .ok rules) :
    normalizeAndValidatePortForwardRules (sortBy SavedPortForwardRule.cmp rules)
      (sortBy (SavedHost.stableCmp E) inventory.hosts) =
      .ok (sortBy SavedPortForwardRule.cmp rules) := by
  obtain ⟨hlen, hall, hids⟩ := normalizeAndValidatePortForwardRules_ok_iff.mp h
  have hperm := sortBy_perm SavedPortForwardRule.cmp rules
  rw [normalizeAndValidatePortForwardRules_perm
    (((sortBy_perm _ _).map _).nodup_iff.mpr hnodup) (sortBy_perm _ _)]
  refine normalizeAndValidatePortForwardRules_ok_iff.mpr ⟨?_, ?_, ?_⟩
  · rwa [hperm.length_eq, ← hall.length_eq]
  · rw [List.forall₂_same]
    exact fun rule hrule => forall₂_normal hall rule (hperm.mem_iff.mp hrule)
  · exact (hperm.map _).nodup_iff.mpr hids

/-- What the complete check returns is checked and in order. -/
theorem Inventory.Checked.inOrder {inventory : Inventory} (h : inventory.Checked E)
    {rules : List SavedPortForwardRule}
    (hrules : normalizeAndValidatePortForwardRules inventory.portForwardRules inventory.hosts =
      .ok rules) :
    (inventory.inOrder E rules).Checked E ∧ (inventory.inOrder E rules).InOrder E := by
  have hrefs := h.records.references_sortCatalogs_iff.mpr h.references
  have hnormal := inOrder_rules (E := E) h.records.nodup_hosts hrules
  obtain ⟨-, hall, -⟩ := normalizeAndValidatePortForwardRules_ok_iff.mp hrules
  refine ⟨⟨?_, ?_, h.knownHosts, ?_⟩, ⟨?_, ?_, ?_, ?_⟩⟩
  · exact { h.records.sortCatalogs with }
  · exact { hrefs with rules := ⟨_, hnormal⟩ }
  · exact (validateSavedConnectionLogs_perm (sortBy_perm _ _)).mpr h.connectionLogs
  · simp only [Inventory.inOrder, SavedVaultGraph.sortCatalogs]
    have h := sortCatalogs_sortCatalogs (E := E) inventory.toSavedVaultGraph
    simp only [SavedVaultGraph.sortCatalogs, SavedVaultGraph.mk.injEq] at h
    simp only [h]
  · exact fun rule hrule => (forall₂_normal hall rule ((mem_sortBy _).mp hrule)).1
  · exact ordered_sortBy _
  · exact ordered_sortBy _

end Netcatty.Vault
