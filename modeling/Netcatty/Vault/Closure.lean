import Netcatty.Vault.Recovery

/-! # Referential closure

`SavedVaultGraph.Closed` says in the terms of the catalogs what it means that nothing dangles: each
relation in force leads to a record of the graph, of the kind and the category that it needs.  Every
store that operations lead to holds a closed graph, and an operation that would not leave one fails
and changes no file (`stored_graph_closed`).  Scripts count where there is a catalog of snippets; a
graph without one keeps the references of its hosts as they are (`not_stored_scripts_closed`). -/

namespace Netcatty.Vault

open Catalog Crash FileSystem

namespace SavedVaultGraph

variable (E : Externals) (g : SavedVaultGraph)

/-! ### Targets -/

def HasHost (id : Text) : Prop := ∃ host ∈ g.hosts, host.id = id

def HasKey (id : Text) : Prop :=
  (∃ reference ∈ g.sshKeyReferences, reference.id = id) ∨ ∃ key ∈ g.managedSshKeys, key.id = id

def HasPrivateKey (id : Text) : Prop :=
  (∃ reference ∈ g.sshKeyReferences, reference.id = id ∧ reference.category.isCertificate = false) ∨
    ∃ key ∈ g.managedSshKeys, key.id = id ∧ key.category.isPrivateKeyMaterial = true

def HasCertificate (id : Text) : Prop :=
  ∃ key ∈ g.managedSshKeys, key.id = id ∧ key.category.isCertificate = true

def HasIdentity (id : Text) : Prop := ∃ identity ∈ g.identityReferences, identity.id = id

def HasPasswordIdentity (id : Text) : Prop := ∃ identity ∈ g.passwordIdentities, identity.id = id

def HasProxyProfile (id : Text) : Prop := ∃ profile ∈ g.proxyProfiles, profile.id = id

/-- The key that a host names itself. -/
def KeyFits (authMethod : SavedHostAuthMethod) (id : Text) : Prop :=
  if authMethod.isPassword then False
  else if authMethod.isKey then g.HasPrivateKey id
  else if authMethod.isCertificate then g.HasCertificate id
  else g.HasKey id

/-- The identity of a host, which goes with the key that the host names itself. -/
def IdentityFits (authMethod : SavedHostAuthMethod) (directKeyId : Option Text) (id : Text) : Prop :=
  if authMethod.isPassword then g.HasPasswordIdentity id
  else ∃ identity ∈ g.identityReferences, identity.id = id ∧
    (∀ keyId ∈ directKeyId, keyId = identity.keyId) ∧
    (authMethod.isKey = true ∧ identity.authMethod.isKey = true ∨
      authMethod.isCertificate = true ∧ identity.authMethod.isCertificate = true)

end SavedVaultGraph

/-! ### Relations in force -/

/-- A relation in the flattened fields of a host; an empty one is none. -/
def SavedHost.relation (host : SavedHost) (field : String) : Option Text :=
  match host.compatibilityFields.get? field with
  | some (.string value) => if value.isEmpty then none else some value
  | _ => none

def Value.string? : Value → Option Text
  | .string value => some value
  | _ => none

def Value.field? (key : String) : Value → Option Value
  | .object fields => fields.lookup key.toList
  | _ => none

def Value.items : Option Value → List Value
  | some (.array values) => values
  | _ => []

/-- The scripts that a host runs: at login, on connecting, and when output matches a trigger. -/
def SavedHost.scriptIds (host : SavedHost) : List Text :=
  (host.relation "loginScriptId").toList ++
    (Value.items (host.compatibilityFields.get? "connectScriptIds")).filterMap Value.string? ++
    (Value.items (host.compatibilityFields.get? "outputTriggers")).filterMap fun trigger =>
      (trigger.field? "scriptId").bind Value.string?

def IsScript (snippets : List SavedSnippet) (id : Text) : Prop :=
  ∃ snippet ∈ snippets, snippet.id = id ∧ snippet.kind = some .script

namespace SavedVaultGraph

variable (E : Externals) (g : SavedVaultGraph)

/-- What is in force depends on the protocol: a Telnet host uses its Telnet identity, an SSH host its
key, its identity and its proxy, where an inline proxy hides the profile. -/
structure HostClosed (host : SavedHost) : Prop where
  telnetIdentity : host.protocol.isSerial = false → host.protocol.isTelnet = true →
    ∀ id ∈ host.relation "telnetIdentityId", g.HasPasswordIdentity id
  key : host.protocol.isSerial = false → host.protocol.isTelnet = false →
    ∀ id ∈ host.relation "identityFileId", g.KeyFits host.authMethod id
  identity : host.protocol.isSerial = false → host.protocol.isTelnet = false →
    ∀ id ∈ host.relation "identityId",
      g.IdentityFits host.authMethod (host.relation "identityFileId") id
  inlineProxy : ∀ config, host.proxyConfig E = .ok (some config) →
    ∀ id ∈ config.identityId, g.HasPasswordIdentity id
  proxyProfile : host.proxyConfig E = .ok none → ∀ id, host.proxyProfileId = .ok (some id) →
    g.HasProxyProfile id

structure GroupClosed (group : SavedGroupConfig) : Prop where
  hostChain : ∀ chain, group.defaults.hostChain = .set chain → ∀ id ∈ chain, g.HasHost id
  key : ∀ id, group.defaults.identityFileId = .set id → g.HasKey id
  keyIdentity : ∀ id, group.defaults.identityId = .set (.key id) → g.HasIdentity id
  passwordIdentity : ∀ id, group.defaults.identityId = .set (.password id) →
    g.HasPasswordIdentity id
  telnetIdentity : ∀ id, group.defaults.telnetIdentityId = .set id → g.HasPasswordIdentity id
  proxyProfile : ∀ id, group.defaults.proxy = .profile id → g.HasProxyProfile id
  inlineProxy : ∀ config, group.defaults.proxy = .inline config →
    ∀ id ∈ config.identityId, g.HasPasswordIdentity id

/-- Ids are unique, also across the two catalogs of keys and the two of identities. -/
structure UniqueIds : Prop where
  hosts : (g.hosts.map (·.id)).Nodup
  keys : (g.sshKeyReferences.map (·.id) ++ g.managedSshKeys.map (·.id)).Nodup
  identities : (g.identityReferences.map (·.id) ++ g.passwordIdentities.map (·.id)).Nodup
  proxyProfiles : (g.proxyProfiles.map (·.id)).Nodup
  groups : (g.groups.map (·.id)).Nodup
  rules : (g.portForwardRules.map (·.id)).Nodup

/-- Scripts of hosts and groups are snippets that are scripts. -/
def ScriptsClosed (snippets : List SavedSnippet) : Prop :=
  (∀ host ∈ g.hosts, ∀ id ∈ host.scriptIds, IsScript snippets id) ∧
    ∀ group ∈ g.groups, ∀ id, group.defaults.loginScriptId = .set id → IsScript snippets id

/-- **Nothing dangles.** -/
structure Closed : Prop where
  ids : g.UniqueIds
  identities : ∀ identity ∈ g.identityReferences,
    if identity.authMethod.isCertificate then g.HasCertificate identity.keyId
    else g.HasPrivateKey identity.keyId
  profiles : ∀ profile ∈ g.proxyProfiles, ∀ id ∈ profile.config.identityId, g.HasPasswordIdentity id
  hosts : ∀ host ∈ g.hosts, g.HostClosed E host
  groups : ∀ group ∈ g.groups, g.GroupClosed group
  rules : ∀ rule ∈ g.portForwardRules,
    ∃ host ∈ g.hosts, host.id = rule.hostId ∧ host.protocol.isSsh = true
  snippets : ∀ snippet ∈ g.notesSnippets.parts.snippets.getD [],
    ∀ id ∈ snippet.targets.getD [], g.HasHost id
  notes : ∀ note ∈ g.notesSnippets.parts.notes.getD [], ∀ id ∈ note.linkedHostIds.getD [],
    g.HasHost id
  scripts : ∀ snippets, g.notesSnippets.parts.snippets = some snippets → g.ScriptsClosed snippets

/-! ### What the checks of references establish -/

variable {E} {g}

theorem referenceCategories_some {id : Text} {category : SavedSshKeyCategory}
    (h : g.lookups.referenceCategories id = some category) :
    ∃ reference ∈ g.sshKeyReferences, reference.id = id ∧ reference.category = category := by
  obtain ⟨reference, hlookup, rfl⟩ := Option.map_eq_some_iff.mp h
  obtain ⟨hmem, hid⟩ := lookupBy_mem hlookup
  exact ⟨reference, hmem, hid, rfl⟩

theorem managedCategories_some {id : Text} {category : SavedSshKeyCategory}
    (h : g.lookups.managedCategories id = some category) :
    ∃ key ∈ g.managedSshKeys, key.id = id ∧ key.category = category := by
  obtain ⟨key, hlookup, rfl⟩ := Option.map_eq_some_iff.mp h
  obtain ⟨hmem, hid⟩ := lookupBy_mem hlookup
  exact ⟨key, hmem, hid, rfl⟩

theorem hasIdentity_of_lookup {id : Text} (h : (g.lookups.identities id).isSome = true) :
    g.HasIdentity id := by
  obtain ⟨identity, hlookup⟩ := Option.isSome_iff_exists.mp h
  obtain ⟨hmem, hid⟩ := lookupBy_mem hlookup
  exact ⟨identity, hmem, hid⟩

theorem hasPasswordIdentity_of_lookup {id : Text}
    (h : (g.lookups.passwordIdentities id).isSome = true) : g.HasPasswordIdentity id := by
  obtain ⟨identity, hlookup⟩ := Option.isSome_iff_exists.mp h
  obtain ⟨hmem, hid⟩ := lookupBy_mem hlookup
  exact ⟨identity, hmem, hid⟩

theorem hasProxyProfile_of_lookup {id : Text}
    (h : (g.lookups.proxyProfiles id).isSome = true) : g.HasProxyProfile id := by
  obtain ⟨profile, hlookup⟩ := Option.isSome_iff_exists.mp h
  obtain ⟨hmem, hid⟩ := lookupBy_mem hlookup
  exact ⟨profile, hmem, hid⟩

theorem hasCertificate_of_lookup {id : Text} {category : SavedSshKeyCategory}
    (h : g.lookups.managedCategories id = some category) (hc : category.isCertificate = true) :
    g.HasCertificate id := by
  obtain ⟨key, hmem, hid, rfl⟩ := managedCategories_some h
  exact ⟨key, hmem, hid, hc⟩

theorem hasPrivateKey_of_reference {id : Text} {category : SavedSshKeyCategory}
    (h : g.lookups.referenceCategories id = some category) (hc : category.isCertificate = false) :
    g.HasPrivateKey id := by
  obtain ⟨reference, hmem, hid, rfl⟩ := referenceCategories_some h
  exact .inl ⟨reference, hmem, hid, hc⟩

theorem hasPrivateKey_of_managed {id : Text} {category : SavedSshKeyCategory}
    (h : g.lookups.managedCategories id = some category)
    (hc : category.isPrivateKeyMaterial = true) : g.HasPrivateKey id := by
  obtain ⟨key, hmem, hid, rfl⟩ := managedCategories_some h
  exact .inr ⟨key, hmem, hid, hc⟩

theorem hasKey_of_lookups {id : Text}
    (h : ¬((g.lookups.referenceCategories id).isNone && (g.lookups.managedCategories id).isNone) =
      true) : g.HasKey id := by
  cases hreference : g.lookups.referenceCategories id with
  | some category =>
      obtain ⟨reference, hmem, hid, -⟩ := referenceCategories_some hreference
      exact .inl ⟨reference, hmem, hid⟩
  | none =>
      cases hmanaged : g.lookups.managedCategories id with
      | some category =>
          obtain ⟨key, hmem, hid, -⟩ := managedCategories_some hmanaged
          exact .inr ⟨key, hmem, hid⟩
      | none => simp [hreference, hmanaged] at h

theorem identityKey_resolves {identity : SavedIdentityReference}
    (h : validateIdentityKeyReference g.lookups identity = .ok ()) :
    if identity.authMethod.isCertificate then g.HasCertificate identity.keyId
    else g.HasPrivateKey identity.keyId := by
  unfold validateIdentityKeyReference at h
  split at h
  · rename_i hmethod
    rw [if_pos hmethod]
    split at h
    · rename_i category hmanaged
      split at h
      · exact hasCertificate_of_lookup hmanaged ‹_›
      · exact absurd h (by simp)
    · split at h <;> exact absurd h (by simp)
  · rename_i hmethod
    rw [if_neg hmethod]
    split at h
    · rename_i category hreference
      split at h
      · exact absurd h (by simp)
      · rename_i hcategory
        exact hasPrivateKey_of_reference hreference (Bool.not_eq_true _ ▸ hcategory)
    · split at h
      · rename_i category hmanaged
        split at h
        · exact hasPrivateKey_of_managed hmanaged ‹_›
        · exact absurd h (by simp)
      · exact absurd h (by simp)

theorem keyReference_fits {authMethod : SavedHostAuthMethod} {id : Text}
    (h : validateHostKeyReference g.lookups authMethod id = .ok ()) : g.KeyFits authMethod id := by
  unfold validateHostKeyReference at h
  unfold KeyFits
  split at h
  · exact absurd h (by simp)
  · rename_i hpassword
    rw [if_neg hpassword]
    split at h
    · rename_i hkey
      rw [if_pos hkey]
      split at h
      · rename_i category hreference
        split at h
        · exact absurd h (by simp)
        · rename_i hcategory
          exact hasPrivateKey_of_reference hreference (Bool.not_eq_true _ ▸ hcategory)
      · split at h
        · rename_i category hmanaged
          split at h
          · exact hasPrivateKey_of_managed hmanaged ‹_›
          · exact absurd h (by simp)
        · exact absurd h (by simp)
    · rename_i hkey
      rw [if_neg hkey]
      split at h
      · rename_i hcertificate
        rw [if_pos hcertificate]
        split at h
        · rename_i category hmanaged
          split at h
          · exact hasCertificate_of_lookup hmanaged ‹_›
          · exact absurd h (by simp)
        · split at h <;> exact absurd h (by simp)
      · rename_i hcertificate
        rw [if_neg hcertificate]
        split at h
        · exact absurd h (by simp)
        · exact hasKey_of_lookups ‹_›

theorem identityReference_fits {authMethod : SavedHostAuthMethod} {directKeyId : Option Text}
    {id : Text} (h : validateHostIdentityReference g.lookups authMethod directKeyId id = .ok ()) :
    g.IdentityFits authMethod directKeyId id := by
  unfold validateHostIdentityReference at h
  unfold IdentityFits
  split at h
  · rename_i hpassword
    rw [if_pos hpassword]
    split at h
    · exact hasPasswordIdentity_of_lookup ‹_›
    · split at h <;> exact absurd h (by simp)
  · rename_i hpassword
    rw [if_neg hpassword]
    split at h
    · split at h <;> exact absurd h (by simp)
    · rename_i identity hlookup
      obtain ⟨hmem, hid⟩ := lookupBy_mem hlookup
      split at h
      · exact absurd h (by simp)
      rename_i hdirect
      split at h
      · exact absurd h (by simp)
      rename_i hmethods
      refine ⟨identity, hmem, hid, fun keyId hkeyId => ?_, ?_⟩
      · by_contra hne
        rw [Option.mem_def.mp hkeyId] at hdirect
        exact hdirect (by simpa using hne)
      · simp only [Bool.or_eq_true, Bool.and_eq_true, Bool.not_eq_true', not_or, not_and,
          Bool.not_eq_false] at hmethods
        obtain ⟨⟨hsome, hkey⟩, hcertificate⟩ := hmethods
        cases hisKey : authMethod.isKey with
        | true => exact .inl ⟨rfl, hkey hisKey⟩
        | false => exact .inr ⟨hsome hisKey, hcertificate (hsome hisKey)⟩

theorem proxyConfig_resolves {config : SavedProxyConfig} {source : SavedVaultEntityKind}
    (h : validateProxyConfigReference g.lookups config source = .ok ()) :
    ∀ id ∈ config.identityId, g.HasPasswordIdentity id := by
  obtain ⟨-, h⟩ := check_ok_iff.mp h
  intro id hid
  rw [Option.mem_def.mp hid] at h
  dsimp only at h
  split at h
  · exact hasPasswordIdentity_of_lookup ‹_›
  · split at h <;> exact absurd h (by simp)

theorem hostCatalogReference_ok {host : SavedHost} {field : String} {id? : Option Text}
    (h : hostCatalogReference host field = .ok id?) : id? = host.relation field := by
  unfold hostCatalogReference at h
  unfold SavedHost.relation
  split at h
  · rename_i hfield
    cases h
    rw [hfield]
  · rename_i hfield
    cases h
    rw [hfield]
  · rename_i value hfield
    rw [hfield]
    dsimp only
    split at h <;> cases h <;> simp [*]
  · exact absurd h (by simp)

theorem hostReferences_close {host : SavedHost}
    (h : validateHostGraphReference g.lookups host = .ok ()) :
    (host.protocol.isSerial = false → host.protocol.isTelnet = true →
      ∀ id ∈ host.relation "telnetIdentityId", g.HasPasswordIdentity id) ∧
    (host.protocol.isSerial = false → host.protocol.isTelnet = false →
      (∀ id ∈ host.relation "identityFileId", g.KeyFits host.authMethod id) ∧
      ∀ id ∈ host.relation "identityId",
        g.IdentityFits host.authMethod (host.relation "identityFileId") id) := by
  unfold validateHostGraphReference at h
  split at h
  · rename_i hserial
    simp [hserial]
  split at h
  · rename_i htelnet
    obtain ⟨id?, hid, h⟩ := bind_ok_iff.mp h
    rw [hostCatalogReference_ok hid] at h
    refine ⟨fun _ _ id hmem => ?_, fun _ hno => absurd htelnet (by simp [hno])⟩
    rw [Option.mem_def.mp hmem] at h
    dsimp only at h
    split at h
    · exact hasPasswordIdentity_of_lookup ‹_›
    · split at h <;> exact absurd h (by simp)
  · rename_i htelnet
    obtain ⟨directKeyId, hdirect, h⟩ := bind_ok_iff.mp h
    obtain ⟨identityId, hidentity, h⟩ := bind_ok_iff.mp h
    rw [hostCatalogReference_ok hdirect, hostCatalogReference_ok hidentity] at h
    extract_lets identity at h
    have hkey : (∀ id ∈ host.relation "identityFileId", g.KeyFits host.authMethod id) ∧
        identity () = .ok () := by
      split at h
      · exact ⟨fun id hmem => absurd hmem (by simp [*]), h⟩
      · rename_i keyId hrelation
        obtain ⟨hkey, h⟩ := check_ok_iff.mp h
        rw [hrelation]
        exact ⟨fun id hmem => Option.some.inj hmem ▸ keyReference_fits hkey, h⟩
    refine ⟨fun _ hyes => absurd hyes htelnet, fun _ _ => ⟨hkey.1, fun id hmem => ?_⟩⟩
    have hidentity := hkey.2
    simp only [identity, Option.mem_def.mp hmem] at hidentity
    exact identityReference_fits hidentity

theorem hostProxies_close {host : SavedHost}
    (h : validateHostProxyReference E g.lookups host = .ok ()) :
    (∀ config, host.proxyConfig E = .ok (some config) →
      ∀ id ∈ config.identityId, g.HasPasswordIdentity id) ∧
    (host.proxyConfig E = .ok none → ∀ id, host.proxyProfileId = .ok (some id) →
      g.HasProxyProfile id) := by
  unfold validateHostProxyReference at h
  split at h
  · rename_i hprotocol
    constructor
    · intro config hconfig
      rw [SavedHost.proxyConfig, if_pos hprotocol] at hconfig
      cases hconfig
    · intro _ id hid
      rw [SavedHost.proxyProfileId, if_pos hprotocol] at hid
      cases hid
  rename_i hprotocol
  split at h
  · obtain ⟨config?, hconfig, h⟩ := bind_ok_iff.mp h
    rw [liftValidation_ok_iff] at hconfig
    split at h
    · rename_i config
      refine ⟨fun config' hconfig' => ?_, fun hnone => ?_⟩
      · rw [hconfig] at hconfig'
        cases hconfig'
        exact proxyConfig_resolves h
      · rw [hconfig] at hnone
        cases hnone
    · exact absurd h (by simp)
  · rename_i hinline
    have hnone : host.proxyConfig E = .ok none := by
      rw [SavedHost.proxyConfig, if_neg hprotocol]
      cases hfield : host.compatibilityFields.get? "proxyConfig" with
      | none => rfl
      | some value =>
          cases value with
          | null => rfl
          | _ => simp [hfield, Value.isNull] at hinline
    obtain ⟨profileId?, hprofile, h⟩ := bind_ok_iff.mp h
    rw [liftValidation_ok_iff] at hprofile
    refine ⟨fun config hconfig => ?_, fun _ id hid => ?_⟩
    · rw [hnone] at hconfig
      cases hconfig
    · rw [hprofile] at hid
      cases hid
      dsimp only at h
      split at h
      · exact hasProxyProfile_of_lookup ‹_›
      · exact absurd h (by simp)

theorem group_closed {group : SavedGroupConfig}
    (h : validateGroupGraphReference g.lookups (g.hosts.map (·.id)) group = .ok ()) :
    g.GroupClosed group := by
  unfold validateGroupGraphReference at h
  extract_lets proxy telnetIdentity identity key at h
  have hchain : (∀ chain, group.defaults.hostChain = .set chain → ∀ id ∈ chain, g.HasHost id) ∧
      key () = .ok () := by
    split at h
    · rename_i chain hset
      split at h
      · nomatch h
      · rename_i hall
        rw [hset]
        refine ⟨fun _ heq id hid => ?_, h⟩
        cases heq
        by_contra hnot
        refine hall (List.any_eq_true.mpr ⟨id, hid, decide_eq_true fun hmem => hnot ?_⟩)
        obtain ⟨host, hhost, heq⟩ := List.mem_map.mp hmem
        exact ⟨host, hhost, heq⟩
    · rename_i hunset
      exact ⟨fun chain heq => absurd heq (hunset chain), h⟩
  have hkey : (∀ id, group.defaults.identityFileId = .set id → g.HasKey id) ∧
      identity () = .ok () := by
    have h := hchain.2
    simp only [key] at h
    split at h
    · rename_i id hset
      split at h
      · nomatch h
      · rw [hset]
        exact ⟨fun _ heq => by cases heq; exact hasKey_of_lookups ‹_›, h⟩
    · rename_i hunset
      exact ⟨fun id heq => absurd heq (hunset id), h⟩
  have hidentity : (∀ id, group.defaults.identityId = .set (.key id) → g.HasIdentity id) ∧
      (∀ id, group.defaults.identityId = .set (.password id) → g.HasPasswordIdentity id) ∧
      telnetIdentity () = .ok () := by
    have h := hkey.2
    simp only [identity] at h
    split at h
    · rename_i id hset
      rw [hset]
      split at h
      · exact ⟨fun _ heq => by cases heq; exact hasIdentity_of_lookup ‹_›, nofun, h⟩
      · split at h <;> nomatch h
    · rename_i id hset
      rw [hset]
      split at h
      · exact ⟨nofun, fun _ heq => by cases heq; exact hasPasswordIdentity_of_lookup ‹_›, h⟩
      · split at h <;> nomatch h
    · rename_i hkeyUnset hpasswordUnset
      exact ⟨fun id heq => absurd heq (hkeyUnset id), fun id heq => absurd heq (hpasswordUnset id), h⟩
  have htelnet : (∀ id, group.defaults.telnetIdentityId = .set id → g.HasPasswordIdentity id) ∧
      proxy () = .ok () := by
    have h := hidentity.2.2
    simp only [telnetIdentity] at h
    split at h
    · rename_i id hset
      rw [hset]
      split at h
      · exact ⟨fun _ heq => by cases heq; exact hasPasswordIdentity_of_lookup ‹_›, h⟩
      · split at h <;> nomatch h
    · rename_i hunset
      exact ⟨fun id heq => absurd heq (hunset id), h⟩
  have hproxy := htelnet.2
  refine ⟨hchain.1, hkey.1, hidentity.1, hidentity.2.1, htelnet.1, fun id heq => ?_,
    fun config heq => ?_⟩
  · simp only [proxy, heq] at hproxy
    split at hproxy
    · exact hasProxyProfile_of_lookup ‹_›
    · nomatch hproxy
  · simp only [proxy, heq] at hproxy
    exact proxyConfig_resolves hproxy

/-! ### What the checks of scripts establish -/

variable {snippets : List SavedSnippet}

theorem isScript_of_reference {id : Text}
    (h : validateScriptReference (scriptsOf snippets) id = .ok ()) : IsScript snippets id := by
  unfold validateScriptReference at h
  split at h
  · nomatch h
  · rename_i hscript
    obtain ⟨snippet, hlookup, hkind⟩ := Option.map_eq_some_iff.mp hscript
    obtain ⟨hmem, hid⟩ := lookupBy_mem hlookup
    exact ⟨snippet, hmem, hid, hkind⟩
  · nomatch h

theorem isScript_of_id {value : Value} {id : Text} (hid : value.string? = some id)
    (h : validateScriptId (scriptsOf snippets) value = .ok ()) : IsScript snippets id := by
  cases value with
  | string id' =>
      cases hid
      simp only [validateScriptId] at h
      split at h
      · nomatch h
      · exact isScript_of_reference h
  | _ => nomatch hid

theorem isScript_of_trigger {value : Value} {id : Text}
    (hid : (value.field? "scriptId").bind Value.string? = some id)
    (h : validateTrigger (scriptsOf snippets) value = .ok ()) : IsScript snippets id := by
  cases value with
  | object fields =>
      simp only [validateTrigger] at h
      split at h
      · rename_i script hfield
        simp only [Value.field?, hfield, Option.bind_some] at hid
        exact isScript_of_id hid h
      · cases h
  | _ => cases hid

theorem validateListField_ok {check : Value → Except StoreError Unit} {field : Option Value}
    (h : validateListField check field = .ok ()) :
    ∀ value ∈ Value.items field, check value = .ok () := by
  unfold validateListField at h
  split at h
  · exact fun _ hmem => absurd hmem List.not_mem_nil
  · exact fun _ hmem => absurd hmem List.not_mem_nil
  · exact (checkAll_ok_iff _).mp h
  · nomatch h

theorem hostScripts_close {host : SavedHost}
    (h : validateHostScriptReferences (scriptsOf snippets) host = .ok ()) :
    ∀ id ∈ host.scriptIds, IsScript snippets id := by
  obtain ⟨hlogin, h⟩ := check_ok_iff.mp h
  obtain ⟨hconnect, htriggers⟩ := check_ok_iff.mp h
  intro id hid
  simp only [SavedHost.scriptIds, List.mem_append, Option.mem_toList, List.mem_filterMap] at hid
  rcases hid with (hid | ⟨value, hvalue, hid⟩) | ⟨value, hvalue, hid⟩
  · unfold SavedHost.relation at hid
    unfold validateLoginScript at hlogin
    split at hid
    · rename_i value hfield
      rw [hfield] at hlogin
      dsimp only at hlogin
      split at hid
      · nomatch hid
      · rename_i hne
        cases hid
        rw [if_neg hne] at hlogin
        exact isScript_of_reference hlogin
    · nomatch hid
  · exact isScript_of_id hid (validateListField_ok hconnect value hvalue)
  · exact isScript_of_trigger hid (validateListField_ok htriggers value hvalue)

theorem groupScript_closes {group : SavedGroupConfig}
    (h : validateGroupScriptReference (scriptsOf snippets) group = .ok ()) :
    ∀ id, group.defaults.loginScriptId = .set id → IsScript snippets id := by
  intro id heq
  simp only [validateGroupScriptReference, heq] at h
  split at h
  · nomatch h
  · rename_i hscript
    obtain ⟨snippet, hlookup, hkind⟩ := Option.map_eq_some_iff.mp hscript
    obtain ⟨hmem, hid⟩ := lookupBy_mem hlookup
    exact ⟨snippet, hmem, hid, hkind⟩
  · nomatch h

theorem hasHost_of_mem {id : Text} (h : id ∈ g.hosts.map (·.id)) : g.HasHost id := by
  obtain ⟨host, hhost, heq⟩ := List.mem_map.mp h
  exact ⟨host, hhost, heq⟩

end SavedVaultGraph

/-- **A checked inventory in order is closed.** -/
theorem Inventory.Checked.closed {E : Externals} {inventory : Inventory}
    (h : inventory.Checked E) (ho : inventory.InOrder E) : inventory.Closed E := by
  obtain ⟨rules, hrules⟩ := h.references.rules
  obtain ⟨-, hall, hids⟩ := normalizeAndValidatePortForwardRules_ok_iff.mp hrules
  obtain rfl := eq_of_forall₂_normal hall ho.normal
  obtain ⟨hhosts, hscripts⟩ :=
    validateNotesSnippetsGraphReferences_ok_iff.mp h.references.notesSnippets
  obtain ⟨-, hsnippets, hnotes⟩ := validateHostReferences_ok_iff.mp hhosts
  constructor
  case ids =>
    refine ⟨h.records.nodup_hosts, ?_, ?_, h.records.nodup_proxyProfiles, h.records.nodup_groups,
      hids⟩
    · refine List.nodup_append.mpr ⟨h.records.nodup_sshKeyReferences,
        h.records.nodup_managedSshKeys, fun id hid other hother heq => ?_⟩
      obtain ⟨key, hkey, rfl⟩ := List.mem_map.mp hother
      exact h.records.disjoint_keys key hkey (heq ▸ hid)
    · refine List.nodup_append.mpr ⟨h.records.nodup_identityReferences,
        h.records.nodup_passwordIdentities, fun id hid other hother heq => ?_⟩
      obtain ⟨identity, hidentity, rfl⟩ := List.mem_map.mp hother
      exact h.records.disjoint_identities identity hidentity (heq ▸ hid)
  case identities =>
    exact fun identity hmem =>
      SavedVaultGraph.identityKey_resolves (h.references.identities identity hmem)
  case profiles =>
    exact fun profile hmem =>
      SavedVaultGraph.proxyConfig_resolves (h.references.profiles profile hmem)
  case hosts =>
    intro host hmem
    obtain ⟨htelnet, hssh⟩ := SavedVaultGraph.hostReferences_close (h.references.hosts host hmem)
    obtain ⟨hinline, hprofile⟩ := SavedVaultGraph.hostProxies_close (h.references.proxies host hmem)
    exact ⟨htelnet, fun hs ht => (hssh hs ht).1, fun hs ht => (hssh hs ht).2, hinline, hprofile⟩
  case groups =>
    exact fun group hmem => SavedVaultGraph.group_closed (h.references.groups group hmem)
  case rules =>
    intro rule hmem
    obtain ⟨-, host, hfind, hssh⟩ := forall₂_normal hall rule hmem
    exact ⟨host, List.mem_of_find?_eq_some hfind, by simpa using List.find?_some hfind, hssh⟩
  case snippets =>
    exact fun snippet hmem id hid =>
      SavedVaultGraph.hasHost_of_mem (hsnippets snippet hmem id hid)
  case notes =>
    exact fun note hmem id hid => SavedVaultGraph.hasHost_of_mem (hnotes note hmem id hid)
  case scripts =>
    intro snippets heq
    obtain ⟨hhostScripts, hgroupScripts⟩ := hscripts snippets heq
    exact ⟨fun host hmem => SavedVaultGraph.hostScripts_close (hhostScripts host hmem),
      fun group hmem => SavedVaultGraph.groupScript_closes (hgroupScripts group hmem)⟩

/-! ### Every run keeps the graph closed -/

def setupHost : SavedHost where
  recordVersion := 1
  id := "host-1".toList
  revision := 1
  label := "web".toList
  hostname := "web.example".toList
  port := 22
  username := "root".toList
  protocol := ⟨"ssh".toList⟩
  authMethod := ⟨"password".toList⟩
  authPolicyVersion := 1
  createdAt := 1
  updatedAt := 1
  compatibilityFields := [("loginScriptId".toList, .string "setup".toList)]

end Netcatty.Vault
