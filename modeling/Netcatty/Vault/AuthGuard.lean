import Netcatty.Vault.Checked
import Netcatty.Vault.EffectiveHost

/-! # The connection guard and the vault

Before a saved host is connected, a guard resolves how it authenticates
(`resolveSavedHostAuthentication`).  It reads the same relations as the commit of the vault, by
rules of its own.  They agree up to the spelling of an absent relation: the vault takes null and the
empty text for no relation, the guard refuses both, and blank ids with them
(`guard_agrees_with_vault`). -/

namespace Netcatty.Vault

open Catalog
open Serial (isControl trim)
open GroupConfig (booleanField SavedHostConnectionCredentialOwner)

def maxReferenceFilePaths : ℕ := 8
def maxReferenceFilePathBytes : ℕ := 32 * 1024
def maxReferenceFilePathsBytes : ℕ := 64 * 1024

/-! ### Resolutions -/

inductive SavedHostAuthResolution
  | password
  | managedPrivateKey (keyId : SavedSshKeyReferenceId) (hasSavedPassphrase : Bool)
  | managedCertificate (keyId : SavedSshKeyReferenceId) (hasSavedPassphrase : Bool)
  | referencePrivateKey (keyId : Option SavedSshKeyReferenceId)
  deriving DecidableEq

inductive SavedPasswordManualCredentialOwner
  | host
  | group (id : Text)
  deriving DecidableEq

structure SavedPasswordAuthResolution where
  identity : Option SavedPasswordIdentity
  manualCredentialOwner : Option SavedPasswordManualCredentialOwner
  deriving DecidableEq

inductive SavedHostAuthGuardError
  | unsupportedHostAuthMethod
  | invalidIdentityReference
  | missingIdentityReference
  | ambiguousIdentityReference
  | identityAuthMethodMismatch
  | invalidKeyReference
  | missingKeyReference
  | ambiguousKeyReference
  | conflictingKeyReferences
  | keyCategoryMismatch
  | invalidReferenceFilePaths
  | referenceCertificateUnsupported
  | invalidCredentialOwner
  deriving DecidableEq, Repr

inductive RequiredKeyKind
  | privateKey
  | certificate
  deriving DecidableEq

inductive ResolvedCatalogKey
  | managed (id : SavedSshKeyReferenceId) (category : SavedSshKeyCategory)
      (hasSavedPassphrase : Bool)
  | reference (id : SavedSshKeyReferenceId) (category : SavedSshKeyCategory)
  deriving DecidableEq

/-! ### Relations of a host -/

def isRelationshipId (id : Text) : Bool := !(trim id).isEmpty && !id.any isControl

def optionalRelationshipId (host : SavedHost) (field : String) : Except Unit (Option Text) :=
  match host.compatibilityFields.get? field with
  | none => .ok none
  | some (.string id) => if isRelationshipId id then .ok (some id) else .error ()
  | some _ => .error ()

def invalidAs {α : Type} (error : SavedHostAuthGuardError) :
    Except Unit α → Except SavedHostAuthGuardError α
  | .ok a => .ok a
  | .error _ => .error error

def checkReferenceFilePaths :
    ℕ → List Text → List Value → Except SavedHostAuthGuardError Unit
  | _, _, [] => .ok ()
  | totalBytes, seen, .string path :: paths =>
    if (trim path).isEmpty ∨ maxReferenceFilePathBytes < utf8Len path ∨
        maxReferenceFilePathsBytes < totalBytes + utf8Len path ∨ path.any isControl ∨ path ∈ seen
    then .error .invalidReferenceFilePaths
    else checkReferenceFilePaths (totalBytes + utf8Len path) (path :: seen) paths
  | _, _, _ :: _ => .error .invalidReferenceFilePaths

def validatedReferenceFilePaths (host : SavedHost) : Except SavedHostAuthGuardError Bool :=
  match host.compatibilityFields.get? "identityFilePaths" with
  | none => .ok false
  | some (.array paths) =>
    if paths.isEmpty ∨ maxReferenceFilePaths < paths.length then .error .invalidReferenceFilePaths
    else do
      checkReferenceFilePaths 0 [] paths
      return true
  | some _ => .error .invalidReferenceFilePaths

/-! ### The catalogs -/

def resolveIdentity (graph : SavedVaultGraph) (id : Text) :
    Except SavedHostAuthGuardError SavedIdentityReference :=
  match graph.identityReferences.filter (·.id = id) with
  | [] => .error .missingIdentityReference
  | [identity] => .ok identity
  | _ => .error .ambiguousIdentityReference

def resolvePasswordIdentity (graph : SavedVaultGraph) (id : Text) :
    Except SavedHostAuthGuardError SavedPasswordIdentity :=
  match graph.passwordIdentities.filter (·.id = id),
    graph.identityReferences.filter (·.id = id) with
  | [identity], [] => .ok identity
  | [], [_] => .error .identityAuthMethodMismatch
  | [], [] => .error .missingIdentityReference
  | _, _ => .error .ambiguousIdentityReference

def resolveCatalogKey (graph : SavedVaultGraph) (id : Text) :
    Except SavedHostAuthGuardError ResolvedCatalogKey :=
  match graph.managedSshKeys.filter (·.id = id), graph.sshKeyReferences.filter (·.id = id) with
  | [key], [] => .ok (.managed key.id key.category key.hasSavedPassphrase)
  | [], [key] => .ok (.reference key.id key.category)
  | [], [] => .error .missingKeyReference
  | _, _ => .error .ambiguousKeyReference

/-! ### Passwords -/

def manualCredentialOwner (host : SavedHost) (owner : Option SavedHostConnectionCredentialOwner) :
    Except SavedHostAuthGuardError (Option SavedPasswordManualCredentialOwner) :=
  match booleanField host.compatibilityFields "hasSavedCredential", owner with
  | false, none => .ok none
  | true, some (.host ownerId) =>
    if ownerId = host.id then .ok (some .host) else .error .invalidCredentialOwner
  | true, some (.group groupId) => .ok (some (.group groupId))
  | _, _ => .error .invalidCredentialOwner

def resolveProjectedSavedPasswordAuthentication (host : SavedHost) (graph : SavedVaultGraph)
    (owner : Option SavedHostConnectionCredentialOwner) :
    Except SavedHostAuthGuardError SavedPasswordAuthResolution := do
  if !host.authMethod.isPassword then .error .unsupportedHostAuthMethod
  let identityId ← invalidAs .invalidIdentityReference (optionalRelationshipId host "identityId")
  let identity ← identityId.mapM (resolvePasswordIdentity graph)
  let owner ← manualCredentialOwner host owner
  return ⟨identity, owner⟩

/-- The owner that the host's own field says. -/
def inferredOwner (host : SavedHost) : Option SavedHostConnectionCredentialOwner :=
  if booleanField host.compatibilityFields "hasSavedCredential" then some (.host host.id) else none

def resolveSavedPasswordAuthentication (host : SavedHost) (graph : SavedVaultGraph) :
    Except SavedHostAuthGuardError SavedPasswordAuthResolution :=
  resolveProjectedSavedPasswordAuthentication host graph (inferredOwner host)

/-! ### Keys and certificates -/

def RequiredKeyKind.admitsIdentity (kind : RequiredKeyKind) (method : SavedIdentityAuthMethod) :
    Bool :=
  match kind with
  | .privateKey => method.isKey
  | .certificate => method.isCertificate

def RequiredKeyKind.admits (kind : RequiredKeyKind) (category : SavedSshKeyCategory) : Bool :=
  match kind with
  | .privateKey => category.isPrivateKeyMaterial
  | .certificate => category.isCertificate

def ResolvedCatalogKey.category : ResolvedCatalogKey → SavedSshKeyCategory
  | .managed _ category _ | .reference _ category => category

def checkIdentity (kind : RequiredKeyKind) (directKeyId : Option Text) :
    Option SavedIdentityReference → Except SavedHostAuthGuardError Unit
  | none => .ok ()
  | some identity =>
    if !kind.admitsIdentity identity.authMethod then .error .identityAuthMethodMismatch
    else if directKeyId.any (· ≠ identity.keyId) then .error .conflictingKeyReferences
    else .ok ()

def resolveWithoutKey (kind : RequiredKeyKind) (hasReferencePaths : Bool) :
    Except SavedHostAuthGuardError SavedHostAuthResolution :=
  if hasReferencePaths then
    match kind with
    | .privateKey => .ok (.referencePrivateKey none)
    | .certificate => .error .referenceCertificateUnsupported
  else .error .missingKeyReference

def resolveKey (graph : SavedVaultGraph) (kind : RequiredKeyKind) (id : Text) :
    Except SavedHostAuthGuardError SavedHostAuthResolution := do
  let key ← resolveCatalogKey graph id
  if !kind.admits key.category then .error .keyCategoryMismatch
  match key, kind with
  | .managed id _ hasSavedPassphrase, .privateKey =>
    .ok (.managedPrivateKey id hasSavedPassphrase)
  | .managed id _ hasSavedPassphrase, .certificate =>
    .ok (.managedCertificate id hasSavedPassphrase)
  | .reference id _, .privateKey => .ok (.referencePrivateKey (some id))
  | .reference _ _, .certificate => .error .referenceCertificateUnsupported

def resolveKeyAuthentication (kind : RequiredKeyKind) (host : SavedHost)
    (graph : SavedVaultGraph) : Except SavedHostAuthGuardError SavedHostAuthResolution := do
  let identityId ← invalidAs .invalidIdentityReference (optionalRelationshipId host "identityId")
  let directKeyId ← invalidAs .invalidKeyReference (optionalRelationshipId host "identityFileId")
  let hasReferencePaths ← validatedReferenceFilePaths host
  let identity ← identityId.mapM (resolveIdentity graph)
  checkIdentity kind directKeyId identity
  match (identity.map (·.keyId)).or directKeyId with
  | none => resolveWithoutKey kind hasReferencePaths
  | some id => resolveKey graph kind id

/-- **The guard**: how a saved host authenticates, before any credential is used. -/
def resolveSavedHostAuthentication (host : SavedHost) (graph : SavedVaultGraph) :
    Except SavedHostAuthGuardError SavedHostAuthResolution :=
  if host.authMethod.isPassword then do
    let _ ← resolveSavedPasswordAuthentication host graph
    return .password
  else if host.authMethod.isKey then resolveKeyAuthentication .privateKey host graph
  else if host.authMethod.isCertificate then resolveKeyAuthentication .certificate host graph
  else .error .unsupportedHostAuthMethod

/-! ### Reading a relation -/

/-- A relation that the guard can read: absent, or a text that is not blank. -/
def SavedHost.Relates (host : SavedHost) (field : String) : Prop :=
  host.compatibilityFields.get? field = none ∨
    ∃ id, host.compatibilityFields.get? field = some (.string id) ∧ trim id ≠ []

theorem isRelationshipId_iff {id : Text} :
    isRelationshipId id ↔ trim id ≠ [] ∧ id.any isControl = false := by
  simp [isRelationshipId]

theorem trim_nil : trim [] = [] := rfl

/-- What the guard reads is what the vault reads. -/
theorem hostCatalogReference_of_relationship {host : SavedHost} {field : String}
    {reference : Option Text} (h : optionalRelationshipId host field = .ok reference) :
    hostCatalogReference host field = .ok reference := by
  unfold optionalRelationshipId at h
  unfold hostCatalogReference
  split at h
  case h_1 habsent =>
    rw [habsent]
    exact congrArg _ (Except.ok.inj h)
  case h_2 id hid =>
    rw [hid]
    split_ifs at h with hvalid
    have hne : id ≠ [] := by
      rintro rfl
      exact (isRelationshipId_iff.mp hvalid).1 trim_nil
    simp only [List.isEmpty_iff, hne, if_false]
    exact congrArg _ (Except.ok.inj h)
  case h_3 => cases h

/-- A relation of valid ids that the vault reads is read by the guard, if it is not blank. -/
theorem optionalRelationshipId_of_relates {host : SavedHost} {field : String}
    {reference : Option Text} (h : hostCatalogReference host field = .ok reference)
    (hids : ∀ id, reference = some id → isOpaqueId id) (hrelates : host.Relates field) :
    optionalRelationshipId host field = .ok reference := by
  unfold hostCatalogReference at h
  unfold optionalRelationshipId
  rcases hrelates with habsent | ⟨id, hid, hblank⟩
  · rw [habsent] at h ⊢
    exact congrArg _ (Except.ok.inj h)
  · have hne : id ≠ [] := by
      rintro rfl
      exact hblank trim_nil
    rw [hid] at h ⊢
    simp only [List.isEmpty_iff, hne, if_false] at h
    obtain rfl := Except.ok.inj h
    have hopaque := hids id rfl
    simp only [isOpaqueId, Bool.not_eq_true', Bool.or_eq_false_iff] at hopaque
    exact if_pos (isRelationshipId_iff.mpr ⟨hblank, hopaque.2⟩)

theorem optionalRelationshipId_of_not_relates {host : SavedHost} {field : String}
    (hrelates : ¬ host.Relates field) : optionalRelationshipId host field = .error () := by
  unfold optionalRelationshipId
  split
  case h_1 habsent => exact absurd (Or.inl habsent) hrelates
  case h_2 id hid =>
    have hblank : trim id = [] := by
      by_contra hne
      exact hrelates (Or.inr ⟨id, hid, hne⟩)
    rw [if_neg fun h => (isRelationshipId_iff.mp h).1 hblank]
  case h_3 => rfl

/-! ### Looking up -/

theorem resolveIdentity_ok_iff {graph : SavedVaultGraph} {id : Text}
    {identity : SavedIdentityReference} :
    resolveIdentity graph id = .ok identity ↔
      graph.identityReferences.filter (·.id = id) = [identity] := by
  unfold resolveIdentity
  generalize graph.identityReferences.filter (·.id = id) = identities
  rcases identities with _ | ⟨first, _ | ⟨second, rest⟩⟩ <;> simp

theorem resolvePasswordIdentity_ok_iff {graph : SavedVaultGraph} {id : Text}
    {identity : SavedPasswordIdentity} :
    resolvePasswordIdentity graph id = .ok identity ↔
      graph.passwordIdentities.filter (·.id = id) = [identity] ∧
        graph.identityReferences.filter (·.id = id) = [] := by
  unfold resolvePasswordIdentity
  generalize graph.passwordIdentities.filter (·.id = id) = passwords
  generalize graph.identityReferences.filter (·.id = id) = identities
  rcases passwords with _ | ⟨first, _ | ⟨second, rest⟩⟩ <;>
    rcases identities with _ | ⟨first', _ | ⟨second', rest'⟩⟩ <;> simp

theorem resolveCatalogKey_ok_iff {graph : SavedVaultGraph} {id : Text}
    {key : ResolvedCatalogKey} :
    resolveCatalogKey graph id = .ok key ↔
      (∃ managed, graph.managedSshKeys.filter (·.id = id) = [managed] ∧
        graph.sshKeyReferences.filter (·.id = id) = [] ∧
        key = .managed managed.id managed.category managed.hasSavedPassphrase) ∨
      ∃ reference, graph.sshKeyReferences.filter (·.id = id) = [reference] ∧
        graph.managedSshKeys.filter (·.id = id) = [] ∧
        key = .reference reference.id reference.category := by
  unfold resolveCatalogKey
  generalize graph.managedSshKeys.filter (·.id = id) = keys
  generalize graph.sshKeyReferences.filter (·.id = id) = references
  rcases keys with _ | ⟨first, _ | ⟨second, rest⟩⟩ <;>
    rcases references with _ | ⟨first', _ | ⟨second', rest'⟩⟩ <;> simp [eq_comm]

/-! ### What the vault checks -/

theorem validateHostGraphReference_ok_iff {L : GraphLookups} {host : SavedHost}
    (hserial : host.protocol.isSerial = false) (htelnet : host.protocol.isTelnet = false) :
    validateHostGraphReference L host = .ok () ↔
      ∃ directKeyId identityId,
        hostCatalogReference host "identityFileId" = .ok directKeyId ∧
        hostCatalogReference host "identityId" = .ok identityId ∧
        (∀ keyId, directKeyId = some keyId →
          validateHostKeyReference L host.authMethod keyId = .ok ()) ∧
        ∀ id, identityId = some id →
          validateHostIdentityReference L host.authMethod directKeyId id = .ok () := by
  simp only [validateHostGraphReference, hserial, htelnet, Bool.false_eq_true, if_false,
    bind_ok_iff]
  constructor
  · rintro ⟨directKeyId, hdirect, identityId, hidentity, h⟩
    refine ⟨directKeyId, identityId, hdirect, hidentity, ?_⟩
    cases directKeyId with
    | none =>
        refine ⟨nofun, ?_⟩
        rintro id rfl
        exact h
    | some keyId =>
        obtain ⟨hkey, h⟩ := check_ok_iff.mp h
        refine ⟨fun _ heq => Option.some.inj heq ▸ hkey, ?_⟩
        rintro id rfl
        exact h
  · rintro ⟨directKeyId, identityId, hdirect, hidentity, hkey, h⟩
    refine ⟨directKeyId, hdirect, identityId, hidentity, ?_⟩
    have hrest : (match identityId with
        | none => Except.ok ()
        | some identityId =>
          validateHostIdentityReference L host.authMethod directKeyId identityId) = .ok () := by
      cases identityId with
      | none => rfl
      | some id => exact h id rfl
    cases directKeyId with
    | none => exact hrest
    | some keyId => exact check_ok_iff.mpr ⟨hkey keyId rfl, hrest⟩

theorem eqIgnoreAsciiCase_eq_false {s t u : Text} (h : eqIgnoreAsciiCase s t)
    (hne : eqIgnoreAsciiCase t u = false) : eqIgnoreAsciiCase s u = false := by
  simp only [eqIgnoreAsciiCase, beq_iff_eq] at h
  simp only [eqIgnoreAsciiCase, h]
  exact hne

/-- The hosts that a kind of key is required for. -/
def RequiredKeyKind.isRequiredBy (kind : RequiredKeyKind) (method : SavedHostAuthMethod) : Bool :=
  match kind with
  | .privateKey => method.isKey
  | .certificate => method.isCertificate

theorem isPassword_of_isRequiredBy {kind : RequiredKeyKind} {method : SavedHostAuthMethod}
    (h : kind.isRequiredBy method) : method.isPassword = false := by
  cases kind with
  | privateKey => exact eqIgnoreAsciiCase_eq_false h (by decide)
  | certificate => exact eqIgnoreAsciiCase_eq_false h (by decide)

theorem isKey_of_isCertificate {method : SavedHostAuthMethod} (h : method.isCertificate) :
    method.isKey = false := eqIgnoreAsciiCase_eq_false h (by decide)

/-- The keys that the vault lets a host or an identity name. -/
def RequiredKeyKind.Fits (kind : RequiredKeyKind) (L : GraphLookups) (keyId : Text) : Prop :=
  match kind with
  | .privateKey =>
    (∃ category, L.referenceCategories keyId = some category ∧ category.isCertificate = false) ∨
      L.referenceCategories keyId = none ∧
        ∃ category, L.managedCategories keyId = some category ∧ category.isPrivateKeyMaterial
  | .certificate => ∃ category, L.managedCategories keyId = some category ∧ category.isCertificate

theorem validateHostKeyReference_ok_iff {L : GraphLookups} {kind : RequiredKeyKind}
    {method : SavedHostAuthMethod} {keyId : Text} (h : kind.isRequiredBy method) :
    validateHostKeyReference L method keyId = .ok () ↔ kind.Fits L keyId := by
  have hpassword := isPassword_of_isRequiredBy h
  cases kind with
  | privateKey =>
      have hkey : method.isKey := h
      simp only [validateHostKeyReference, hpassword, hkey, Bool.false_eq_true, if_false, if_true,
        RequiredKeyKind.Fits]
      cases hreference : L.referenceCategories keyId <;>
        cases hmanaged : L.managedCategories keyId <;> simp
  | certificate =>
      have hkey := isKey_of_isCertificate h
      have hcertificate : method.isCertificate := h
      simp only [validateHostKeyReference, hpassword, hkey, hcertificate, Bool.false_eq_true,
        if_false, if_true, RequiredKeyKind.Fits]
      cases hmanaged : L.managedCategories keyId with
      | none =>
          dsimp only
          split_ifs <;> simp
      | some category => simp

theorem validateHostIdentityReference_ok_iff {L : GraphLookups} {kind : RequiredKeyKind}
    {method : SavedHostAuthMethod} {directKeyId : Option Text} {id : Text}
    (h : kind.isRequiredBy method) :
    validateHostIdentityReference L method directKeyId id = .ok () ↔
      ∃ identity, L.identities id = some identity ∧
        checkIdentity kind directKeyId (some identity) = .ok () := by
  have hpassword := isPassword_of_isRequiredBy h
  simp only [validateHostIdentityReference, hpassword, Bool.false_eq_true, if_false]
  cases hidentity : L.identities id with
  | none =>
      dsimp only
      split_ifs <;> simp
  | some identity =>
      simp only [Option.some.injEq, exists_eq_left', checkIdentity]
      generalize directKeyId.any (· ≠ identity.keyId) = conflict
      cases kind with
      | privateKey =>
          have hkey : method.isKey := h
          have hcertificate : method.isCertificate = false :=
            eqIgnoreAsciiCase_eq_false h (by decide)
          cases hmatches : identity.authMethod.isKey <;> cases conflict <;>
            simp [hkey, hcertificate, hmatches, RequiredKeyKind.admitsIdentity]
      | certificate =>
          have hkey := isKey_of_isCertificate h
          have hcertificate : method.isCertificate := h
          cases hmatches : identity.authMethod.isCertificate <;> cases conflict <;>
            simp [hkey, hcertificate, hmatches, RequiredKeyKind.admitsIdentity]

theorem validateHostIdentityReference_password_ok_iff {L : GraphLookups}
    {method : SavedHostAuthMethod} {directKeyId : Option Text} {id : Text}
    (h : method.isPassword) :
    validateHostIdentityReference L method directKeyId id = .ok () ↔
      ∃ identity, L.passwordIdentities id = some identity := by
  simp only [validateHostIdentityReference, h, if_true]
  cases hidentity : L.passwordIdentities id with
  | none =>
      simp only [Option.isSome_none, Bool.false_eq_true, if_false]
      split_ifs <;> simp
  | some identity => simp

/-- The key of an identity fits the hosts that the identity fits. -/
theorem fits_of_identity {L : GraphLookups} {kind : RequiredKeyKind}
    {identity : SavedIdentityReference} (h : validateIdentityKeyReference L identity = .ok ())
    (hkind : kind.admitsIdentity identity.authMethod) : kind.Fits L identity.keyId := by
  unfold validateIdentityKeyReference at h
  cases kind with
  | privateKey =>
      have hcertificate : identity.authMethod.isCertificate = false :=
        eqIgnoreAsciiCase_eq_false hkind (by decide)
      simp only [hcertificate, Bool.false_eq_true, if_false] at h
      simp only [RequiredKeyKind.Fits]
      cases hreference : L.referenceCategories identity.keyId <;>
        cases hmanaged : L.managedCategories identity.keyId <;> simp_all
  | certificate =>
      have hcertificate : identity.authMethod.isCertificate := hkind
      simp only [hcertificate, if_true] at h
      simp only [RequiredKeyKind.Fits]
      cases hmanaged : L.managedCategories identity.keyId with
      | none =>
          simp only [hmanaged] at h
          split_ifs at h
      | some category => simpa [hmanaged] using h

/-! ### The guard on a checked inventory -/

section Records

variable {E : Externals} {graph : SavedVaultGraph}

theorem SavedVaultGraph.Records.filter_identityReferences (h : graph.Records E) {id : Text}
    {identity : SavedIdentityReference} (hidentity : graph.lookups.identities id = some identity) :
    graph.identityReferences.filter (·.id = id) = [identity] :=
  filter_key_of_lookupBy h.nodup_identityReferences hidentity

theorem SavedVaultGraph.Records.filter_passwordIdentities (h : graph.Records E) {id : Text}
    {identity : SavedPasswordIdentity}
    (hidentity : graph.lookups.passwordIdentities id = some identity) :
    graph.passwordIdentities.filter (·.id = id) = [identity] ∧
      graph.identityReferences.filter (·.id = id) = [] := by
  refine ⟨filter_key_of_lookupBy h.nodup_passwordIdentities hidentity, ?_⟩
  obtain ⟨hmem, rfl⟩ := lookupBy_mem hidentity
  refine List.filter_eq_nil_iff.mpr fun other hother heq => ?_
  exact h.disjoint_identities identity hmem
    (List.mem_map.mpr ⟨other, hother, of_decide_eq_true heq⟩)

theorem SavedVaultGraph.Records.filter_managedSshKeys (h : graph.Records E) {id : Text}
    {category : SavedSshKeyCategory} (hkey : graph.lookups.managedCategories id = some category) :
    ∃ key, graph.managedSshKeys.filter (·.id = id) = [key] ∧ key.category = category ∧
      graph.sshKeyReferences.filter (·.id = id) = [] := by
  obtain ⟨key, hlookup, rfl⟩ := Option.map_eq_some_iff.mp hkey
  refine ⟨key, filter_key_of_lookupBy h.nodup_managedSshKeys hlookup, rfl, ?_⟩
  obtain ⟨hmem, rfl⟩ := lookupBy_mem hlookup
  refine List.filter_eq_nil_iff.mpr fun other hother heq => ?_
  exact h.disjoint_keys key hmem (List.mem_map.mpr ⟨other, hother, of_decide_eq_true heq⟩)

theorem SavedVaultGraph.Records.filter_sshKeyReferences (h : graph.Records E) {id : Text}
    {category : SavedSshKeyCategory}
    (hreference : graph.lookups.referenceCategories id = some category) :
    ∃ reference, graph.sshKeyReferences.filter (·.id = id) = [reference] ∧
      reference.category = category ∧ graph.managedSshKeys.filter (·.id = id) = [] := by
  obtain ⟨reference, hlookup, rfl⟩ := Option.map_eq_some_iff.mp hreference
  refine ⟨reference, filter_key_of_lookupBy h.nodup_sshKeyReferences hlookup, rfl, ?_⟩
  obtain ⟨hmem, rfl⟩ := lookupBy_mem hlookup
  refine List.filter_eq_nil_iff.mpr fun other hother heq => ?_
  exact h.disjoint_keys other hother
    (List.mem_map.mpr ⟨reference, hmem, (of_decide_eq_true heq).symm⟩)

/-- The resolution of a key, by the catalog that has it. -/
def SavedVaultGraph.KeyResolution (graph : SavedVaultGraph) (kind : RequiredKeyKind)
    (keyId : Text) (resolution : SavedHostAuthResolution) : Prop :=
  (∃ key, graph.managedSshKeys.filter (·.id = keyId) = [key] ∧
    graph.sshKeyReferences.filter (·.id = keyId) = [] ∧
    resolution = match kind with
      | .privateKey => .managedPrivateKey key.id key.hasSavedPassphrase
      | .certificate => .managedCertificate key.id key.hasSavedPassphrase) ∨
  ∃ reference, graph.sshKeyReferences.filter (·.id = keyId) = [reference] ∧
    graph.managedSshKeys.filter (·.id = keyId) = [] ∧ kind = .privateKey ∧
    resolution = .referencePrivateKey (some reference.id)

/-- A reference key that the vault takes for a private key is one by its category. -/
def SavedVaultGraph.PlainReference (graph : SavedVaultGraph) (keyId : Text) : Prop :=
  ∀ reference ∈ graph.sshKeyReferences, reference.id = keyId →
    reference.category.isPrivateKeyMaterial

theorem SavedVaultGraph.Records.resolveKey_of_fits (h : graph.Records E) {kind : RequiredKeyKind}
    {keyId : Text} (hfits : kind.Fits graph.lookups keyId) (hplain : graph.PlainReference keyId) :
    ∃ resolution, resolveKey graph kind keyId = .ok resolution ∧
      graph.KeyResolution kind keyId resolution := by
  have hmanaged : ∀ category, graph.lookups.managedCategories keyId = some category →
      kind.admits category → ∃ resolution, resolveKey graph kind keyId = .ok resolution ∧
        graph.KeyResolution kind keyId resolution := by
    intro category hlookup hadmits
    obtain ⟨key, hkeys, rfl, hreferences⟩ := h.filter_managedSshKeys hlookup
    refine ⟨_, ?_, Or.inl ⟨key, hkeys, hreferences, rfl⟩⟩
    have hkey := resolveCatalogKey_ok_iff.mpr (Or.inl ⟨key, hkeys, hreferences, rfl⟩)
    refine bind_ok_iff.mpr ⟨_, hkey, refuse_ok_iff.mpr ⟨?_, ?_⟩⟩
    · simpa [ResolvedCatalogKey.category] using hadmits
    · cases kind <;> rfl
  cases kind with
  | certificate =>
      obtain ⟨category, hlookup, hcategory⟩ := hfits
      exact hmanaged category hlookup hcategory
  | privateKey =>
      rcases hfits with ⟨category, hlookup, -⟩ | ⟨-, category, hlookup, hcategory⟩
      · obtain ⟨reference, hreferences, rfl, hkeys⟩ := h.filter_sshKeyReferences hlookup
        refine ⟨_, ?_, Or.inr ⟨reference, hreferences, hkeys, rfl, rfl⟩⟩
        have hkey := resolveCatalogKey_ok_iff.mpr (Or.inr ⟨reference, hreferences, hkeys, rfl⟩)
        obtain ⟨hmem, hid⟩ := lookupBy_mem (lookupBy_of_filter_key hreferences)
        have hmaterial := hplain reference hmem hid
        refine bind_ok_iff.mpr ⟨_, hkey, refuse_ok_iff.mpr ⟨?_, rfl⟩⟩
        simpa [ResolvedCatalogKey.category, RequiredKeyKind.admits] using hmaterial
      · exact hmanaged category hlookup hcategory

theorem isCertificate_of_isPrivateKeyMaterial {category : SavedSshKeyCategory}
    (h : category.isPrivateKeyMaterial) : category.isCertificate = false := by
  rcases Bool.or_eq_true_iff.mp h with h | h
  · exact eqIgnoreAsciiCase_eq_false h (by decide)
  · exact eqIgnoreAsciiCase_eq_false h (by decide)

/-- A key that the guard takes is one that the vault lets a host name, in any graph. -/
theorem fits_of_resolveKey {kind : RequiredKeyKind} {keyId : Text}
    {resolution : SavedHostAuthResolution} (h : resolveKey graph kind keyId = .ok resolution) :
    kind.Fits graph.lookups keyId := by
  obtain ⟨key, hkey, h⟩ := bind_ok_iff.mp h
  obtain ⟨hadmits, h⟩ := refuse_ok_iff.mp h
  rcases resolveCatalogKey_ok_iff.mp hkey with
    ⟨managed, hkeys, hreferences, rfl⟩ | ⟨reference, hreferences, hkeys, rfl⟩
  · have hlookup : graph.lookups.managedCategories keyId = some managed.category :=
      Option.map_eq_some_iff.mpr ⟨managed, lookupBy_of_filter_key hkeys, rfl⟩
    have hnone : graph.lookups.referenceCategories keyId = none :=
      Option.map_eq_none_iff.mpr (filter_key_eq_nil_iff.mp hreferences)
    have hadmits : kind.admits managed.category := by
      simpa [ResolvedCatalogKey.category] using hadmits
    cases kind with
    | privateKey => exact Or.inr ⟨hnone, managed.category, hlookup, hadmits⟩
    | certificate => exact ⟨managed.category, hlookup, hadmits⟩
  · have hlookup : graph.lookups.referenceCategories keyId = some reference.category :=
      Option.map_eq_some_iff.mpr ⟨reference, lookupBy_of_filter_key hreferences, rfl⟩
    have hadmits : kind.admits reference.category := by
      simpa [ResolvedCatalogKey.category] using hadmits
    cases kind with
    | privateKey =>
        exact Or.inl ⟨reference.category, hlookup, isCertificate_of_isPrivateKeyMaterial hadmits⟩
    | certificate => cases h

theorem validateOpaqueId_ok {field : String} {id : Text} (h : validateOpaqueId field id = .ok ()) :
    isOpaqueId id := by
  unfold validateOpaqueId at h
  split_ifs at h with hopaque
  exact hopaque

theorem SavedVaultGraph.Records.isOpaqueId_of_identity (h : graph.Records E) {id : Text}
    {identity : SavedIdentityReference} (hidentity : graph.lookups.identities id = some identity) :
    isOpaqueId id := by
  obtain ⟨hmem, rfl⟩ := lookupBy_mem hidentity
  exact validateOpaqueId_ok (check_ok_iff.mp (h.identityReferences identity hmem)).1

theorem SavedVaultGraph.Records.isOpaqueId_of_passwordIdentity (h : graph.Records E) {id : Text}
    {identity : SavedPasswordIdentity}
    (hidentity : graph.lookups.passwordIdentities id = some identity) : isOpaqueId id := by
  obtain ⟨hmem, rfl⟩ := lookupBy_mem hidentity
  exact validateOpaqueId_ok (check_ok_iff.mp (h.passwordIdentities identity hmem)).1

theorem SavedVaultGraph.Records.isOpaqueId_of_managed (h : graph.Records E) {id : Text}
    {category : SavedSshKeyCategory} (hkey : graph.lookups.managedCategories id = some category) :
    isOpaqueId id := by
  obtain ⟨key, hlookup, -⟩ := Option.map_eq_some_iff.mp hkey
  obtain ⟨hmem, rfl⟩ := lookupBy_mem hlookup
  exact validateOpaqueId_ok (check_ok_iff.mp (h.managedSshKeys key hmem)).1

theorem SavedVaultGraph.Records.isOpaqueId_of_fits (h : graph.Records E) {kind : RequiredKeyKind}
    {keyId : Text} (hfits : kind.Fits graph.lookups keyId) : isOpaqueId keyId := by
  cases kind with
  | certificate =>
      obtain ⟨_, hlookup, -⟩ := hfits
      exact h.isOpaqueId_of_managed hlookup
  | privateKey =>
      rcases hfits with ⟨_, hlookup, -⟩ | ⟨-, _, hlookup, -⟩
      · obtain ⟨reference, hlookup, -⟩ := Option.map_eq_some_iff.mp hlookup
        obtain ⟨hmem, rfl⟩ := lookupBy_mem hlookup
        exact validateOpaqueId_ok (check_ok_iff.mp (h.sshKeyReferences reference hmem)).1
      · exact h.isOpaqueId_of_managed hlookup

end Records

/-! ### Password hosts -/

/-- The identity is the one that the host names, and no other has its id. -/
def SavedVaultGraph.ChoosesPassword (graph : SavedVaultGraph) (host : SavedHost) :
    Option SavedPasswordIdentity → Prop
  | none => host.compatibilityFields.get? "identityId" = none
  | some identity =>
    host.compatibilityFields.get? "identityId" = some (.string identity.id) ∧
      graph.passwordIdentities.filter (·.id = identity.id) = [identity] ∧
      graph.identityReferences.filter (·.id = identity.id) = []

structure SavedVaultGraph.PasswordAgrees (graph : SavedVaultGraph) (host : SavedHost) : Prop where
  resolves : host.Relates "identityId" →
    ∃ resolution, resolveSavedPasswordAuthentication host graph = .ok resolution ∧
      graph.ChoosesPassword host resolution.identity ∧
      resolveSavedHostAuthentication host graph = .ok .password
  refuses : ¬ host.Relates "identityId" →
    resolveSavedHostAuthentication host graph = .error .invalidIdentityReference

theorem manualCredentialOwner_inferredOwner (host : SavedHost) :
    ∃ owner, manualCredentialOwner host (inferredOwner host) = .ok owner := by
  unfold manualCredentialOwner inferredOwner
  cases booleanField host.compatibilityFields "hasSavedCredential" <;> simp

/-- The text of a relation that the guard reads. -/
theorem get?_of_relationship {host : SavedHost} {field : String} {id : Text}
    (h : optionalRelationshipId host field = .ok (some id)) :
    host.compatibilityFields.get? field = some (.string id) := by
  unfold optionalRelationshipId at h
  split at h
  case h_1 => cases h
  case h_2 id' hid =>
    split_ifs at h
    cases h
    exact hid
  case h_3 => cases h

theorem get?_of_no_relationship {host : SavedHost} {field : String}
    (h : optionalRelationshipId host field = .ok none) :
    host.compatibilityFields.get? field = none := by
  unfold optionalRelationshipId at h
  split at h
  case h_1 habsent => exact habsent
  case h_2 =>
    split_ifs at h
    cases h
  case h_3 => cases h

section Checked

variable {E : Externals} {inventory : Inventory} {host : SavedHost}

theorem Inventory.Checked.passwordAgrees (h : inventory.Checked E) (hhost : host ∈ inventory.hosts)
    (hserial : host.protocol.isSerial = false) (htelnet : host.protocol.isTelnet = false)
    (hpassword : host.authMethod.isPassword) :
    inventory.PasswordAgrees host := by
  obtain ⟨_, reference, -, hreference, -, hidentity⟩ :=
    (validateHostGraphReference_ok_iff hserial htelnet).mp (h.references.hosts host hhost)
  constructor
  · intro hrelates
    have hknown : ∀ id, reference = some id →
        ∃ identity, inventory.lookups.passwordIdentities id = some identity := fun id hid =>
      (validateHostIdentityReference_password_ok_iff hpassword).mp (hidentity id hid)
    have hread : optionalRelationshipId host "identityId" = .ok reference := by
      refine optionalRelationshipId_of_relates hreference (fun id hid => ?_) hrelates
      obtain ⟨identity, hlookup⟩ := hknown id hid
      exact h.records.isOpaqueId_of_passwordIdentity hlookup
    obtain ⟨owner, howner⟩ := manualCredentialOwner_inferredOwner host
    have hresolves : ∃ identity, reference.mapM
        (resolvePasswordIdentity inventory.toSavedVaultGraph) = .ok identity ∧
        inventory.ChoosesPassword host identity := by
      cases reference with
      | none => exact ⟨none, rfl, get?_of_no_relationship hread⟩
      | some id =>
          obtain ⟨identity, hlookup⟩ := hknown id rfl
          obtain ⟨-, rfl⟩ := lookupBy_mem hlookup
          have hunique := h.records.filter_passwordIdentities hlookup
          refine ⟨some identity, ?_, get?_of_relationship hread, hunique⟩
          simp [resolvePasswordIdentity_ok_iff.mpr hunique]
    obtain ⟨identity, hmap, hchooses⟩ := hresolves
    have hresolve : resolveSavedPasswordAuthentication host inventory.toSavedVaultGraph =
        .ok ⟨identity, owner⟩ := by
      unfold resolveSavedPasswordAuthentication resolveProjectedSavedPasswordAuthentication
      refine refuse_ok_iff.mpr ⟨by simp [hpassword], ?_⟩
      refine bind_ok_iff.mpr ⟨reference, by rw [hread]; rfl, ?_⟩
      exact bind_ok_iff.mpr ⟨identity, hmap, bind_ok_iff.mpr ⟨owner, howner, rfl⟩⟩
    refine ⟨_, hresolve, hchooses, ?_⟩
    rw [resolveSavedHostAuthentication, if_pos hpassword, hresolve]
    rfl
  · intro hrelates
    rw [resolveSavedHostAuthentication, if_pos hpassword, resolveSavedPasswordAuthentication,
      resolveProjectedSavedPasswordAuthentication,
      optionalRelationshipId_of_not_relates hrelates]
    simp only [hpassword]
    rfl


end Checked

/-! ### Key and certificate hosts -/

/-- The key that a host names: that of its identity, or else the host's own. -/
def SavedVaultGraph.NamesKey (graph : SavedVaultGraph) (host : SavedHost) (keyId : Text) : Prop :=
  (∃ identity, host.compatibilityFields.get? "identityId" = some (.string identity.id) ∧
    graph.identityReferences.filter (·.id = identity.id) = [identity] ∧
    identity.keyId = keyId) ∨
  host.compatibilityFields.get? "identityId" = none ∧
    host.compatibilityFields.get? "identityFileId" = some (.string keyId)

structure SavedVaultGraph.KeyAgrees (graph : SavedVaultGraph) (kind : RequiredKeyKind)
    (host : SavedHost) : Prop where
  resolves : host.Relates "identityId" → host.Relates "identityFileId" →
    ∃ keyId, graph.NamesKey host keyId ∧ (graph.PlainReference keyId →
      ∃ resolution, resolveSavedHostAuthentication host graph = .ok resolution ∧
        graph.KeyResolution kind keyId resolution)
  refuses : ¬ (host.Relates "identityId" ∧ host.Relates "identityFileId") →
    resolveSavedHostAuthentication host graph = .error .invalidIdentityReference ∨
      resolveSavedHostAuthentication host graph = .error .invalidKeyReference

/-- A relation with a text that is not empty. -/
def SavedHost.HasRelation (host : SavedHost) (field : String) : Prop :=
  ∃ id, host.compatibilityFields.get? field = some (.string id) ∧ id ≠ []

theorem resolve_of_isRequiredBy {graph : SavedVaultGraph} {kind : RequiredKeyKind}
    {host : SavedHost} (h : kind.isRequiredBy host.authMethod) :
    resolveSavedHostAuthentication host graph = resolveKeyAuthentication kind host graph := by
  rw [resolveSavedHostAuthentication, isPassword_of_isRequiredBy h]
  cases kind with
  | privateKey =>
      have hkey : host.authMethod.isKey := h
      simp [hkey]
  | certificate =>
      have hcertificate : host.authMethod.isCertificate := h
      simp [isKey_of_isCertificate h, hcertificate]

theorem admitsIdentity_of_check {kind : RequiredKeyKind} {directKeyId : Option Text}
    {identity : SavedIdentityReference}
    (h : checkIdentity kind directKeyId (some identity) = .ok ()) :
    kind.admitsIdentity identity.authMethod := by
  by_contra hmatches
  rw [checkIdentity, if_pos (by simpa using hmatches)] at h
  cases h

theorem relationship_ne_none {host : SavedHost} {field : String} {reference : Option Text}
    (h : optionalRelationshipId host field = .ok reference) (hrelation : host.HasRelation field) :
    reference ≠ none := by
  rintro rfl
  obtain ⟨id, hid, -⟩ := hrelation
  rw [get?_of_no_relationship h] at hid
  cases hid

section Checked

variable {E : Externals} {inventory : Inventory} {host : SavedHost} {kind : RequiredKeyKind}

theorem Inventory.Checked.keyAgrees (h : inventory.Checked E) (hhost : host ∈ inventory.hosts)
    (hserial : host.protocol.isSerial = false) (htelnet : host.protocol.isTelnet = false)
    (hkind : kind.isRequiredBy host.authMethod)
    (hrelation : host.HasRelation "identityId" ∨ host.HasRelation "identityFileId")
    (hpaths : host.compatibilityFields.get? "identityFilePaths" = none) :
    inventory.KeyAgrees kind host := by
  obtain ⟨directKeyId, identityId, hdirect, hidentity, hkey, hidentityKey⟩ :=
    (validateHostGraphReference_ok_iff hserial htelnet).mp (h.references.hosts host hhost)
  have hdirectFits : ∀ keyId, directKeyId = some keyId → kind.Fits inventory.lookups keyId :=
    fun keyId heq => (validateHostKeyReference_ok_iff hkind).mp (hkey keyId heq)
  have hknown : ∀ id, identityId = some id → ∃ identity,
      inventory.lookups.identities id = some identity ∧
        checkIdentity kind directKeyId (some identity) = .ok () := fun id heq =>
    (validateHostIdentityReference_ok_iff hkind).mp (hidentityKey id heq)
  have hnoPaths : validatedReferenceFilePaths host = .ok false := by
    rw [validatedReferenceFilePaths, hpaths]
  have hread : host.Relates "identityId" →
      optionalRelationshipId host "identityId" = .ok identityId := fun hid => by
    refine optionalRelationshipId_of_relates hidentity (fun id heq => ?_) hid
    obtain ⟨identity, hlookup, -⟩ := hknown id heq
    exact h.records.isOpaqueId_of_identity hlookup
  constructor
  · intro hid hfile
    have hreadId := hread hid
    have hreadKey : optionalRelationshipId host "identityFileId" = .ok directKeyId :=
      optionalRelationshipId_of_relates hdirect
        (fun keyId heq => h.records.isOpaqueId_of_fits (hdirectFits keyId heq)) hfile
    have hnamed : ∃ keyId identity,
        identityId.mapM (resolveIdentity inventory.toSavedVaultGraph) = .ok identity ∧
        checkIdentity kind directKeyId identity = .ok () ∧
        (identity.map (·.keyId)).or directKeyId = some keyId ∧
        inventory.NamesKey host keyId ∧ kind.Fits inventory.lookups keyId := by
      cases identityId with
      | some id =>
          obtain ⟨identity, hlookup, hcheck⟩ := hknown id rfl
          have hunique := h.records.filter_identityReferences hlookup
          obtain ⟨hmem, rfl⟩ := lookupBy_mem hlookup
          refine ⟨identity.keyId, some identity, ?_, hcheck, rfl,
            Or.inl ⟨identity, get?_of_relationship hreadId, hunique, rfl⟩, ?_⟩
          · simp [resolveIdentity_ok_iff.mpr hunique]
          · exact fits_of_identity (h.references.identities identity hmem)
              (admitsIdentity_of_check hcheck)
      | none =>
          cases directKeyId with
          | some keyId =>
              exact ⟨keyId, none, rfl, rfl, rfl,
                Or.inr ⟨get?_of_no_relationship hreadId, get?_of_relationship hreadKey⟩,
                hdirectFits keyId rfl⟩
          | none =>
              rcases hrelation with hrelation | hrelation
              · exact absurd rfl (relationship_ne_none hreadId hrelation)
              · exact absurd rfl (relationship_ne_none hreadKey hrelation)
    obtain ⟨keyId, identity, hmap, hcheck, hkeyId, hnames, hfits⟩ := hnamed
    refine ⟨keyId, hnames, fun hplain => ?_⟩
    obtain ⟨resolution, hresolve, hresolution⟩ := h.records.resolveKey_of_fits hfits hplain
    refine ⟨resolution, ?_, hresolution⟩
    rw [resolve_of_isRequiredBy hkind, resolveKeyAuthentication, hreadId, hreadKey, hnoPaths]
    refine bind_ok_iff.mpr ⟨identityId, rfl, bind_ok_iff.mpr ⟨directKeyId, rfl, ?_⟩⟩
    refine bind_ok_iff.mpr ⟨false, rfl, bind_ok_iff.mpr ⟨identity, hmap, ?_⟩⟩
    refine check_ok_iff.mpr ⟨hcheck, ?_⟩
    rw [hkeyId]
    exact hresolve
  · intro hneither
    rw [resolve_of_isRequiredBy hkind, resolveKeyAuthentication]
    by_cases hid : host.Relates "identityId"
    · have hfile : ¬ host.Relates "identityFileId" := fun hfile => hneither ⟨hid, hfile⟩
      rw [hread hid, optionalRelationshipId_of_not_relates hfile]
      exact Or.inr rfl
    · rw [optionalRelationshipId_of_not_relates hid]
      exact Or.inl rfl

end Checked

/-! ### From the guard to the vault -/

section Converse

variable {graph : SavedVaultGraph} {host : SavedHost}

theorem invalidAs_ok_iff {α : Type} {error : SavedHostAuthGuardError} {x : Except Unit α} {a : α} :
    invalidAs error x = .ok a ↔ x = .ok a := by
  cases x <;> simp [invalidAs]

theorem keyId_of_check {kind : RequiredKeyKind} {keyId : Text} {identity : SavedIdentityReference}
    (h : checkIdentity kind (some keyId) (some identity) = .ok ()) : keyId = identity.keyId := by
  rw [checkIdentity, if_neg (by simp [admitsIdentity_of_check h])] at h
  split_ifs at h with hconflict
  simpa using hconflict

theorem mapM_some_ok_iff {ε α β : Type} {f : α → Except ε β} {a : α} {o : Option β} :
    (some a).mapM f = .ok o ↔ ∃ b, f a = .ok b ∧ o = some b := by
  cases hf : f a with
  | error e => simp [hf]
  | ok b => simp [hf, eq_comm]

/-- What the vault asks of a host that it takes for an SSH host. -/
def SavedVaultGraph.Accepts (graph : SavedVaultGraph) (host : SavedHost) : Prop :=
  ∃ directKeyId identityId,
    hostCatalogReference host "identityFileId" = .ok directKeyId ∧
    hostCatalogReference host "identityId" = .ok identityId ∧
    (∀ keyId, directKeyId = some keyId →
      validateHostKeyReference graph.lookups host.authMethod keyId = .ok ()) ∧
    ∀ id, identityId = some id →
      validateHostIdentityReference graph.lookups host.authMethod directKeyId id = .ok ()

theorem accepts_of_resolveKeyAuthentication {kind : RequiredKeyKind}
    {resolution : SavedHostAuthResolution} (hkind : kind.isRequiredBy host.authMethod)
    (h : resolveKeyAuthentication kind host graph = .ok resolution) : graph.Accepts host := by
  obtain ⟨identityId, hreadId, h⟩ := bind_ok_iff.mp h
  obtain ⟨directKeyId, hreadKey, h⟩ := bind_ok_iff.mp h
  obtain ⟨_, -, h⟩ := bind_ok_iff.mp h
  obtain ⟨identity, hmap, h⟩ := bind_ok_iff.mp h
  obtain ⟨hcheck, h⟩ := check_ok_iff.mp h
  rw [invalidAs_ok_iff] at hreadId hreadKey
  refine ⟨directKeyId, identityId, hostCatalogReference_of_relationship hreadKey,
    hostCatalogReference_of_relationship hreadId, ?_, ?_⟩
  · rintro keyId rfl
    rw [validateHostKeyReference_ok_iff hkind]
    cases identity with
    | none => exact fits_of_resolveKey h
    | some identity =>
        rw [keyId_of_check hcheck]
        exact fits_of_resolveKey h
  · rintro id rfl
    obtain ⟨identity, hidentity, rfl⟩ := mapM_some_ok_iff.mp hmap
    exact (validateHostIdentityReference_ok_iff hkind).mpr
      ⟨identity, lookupBy_of_filter_key (resolveIdentity_ok_iff.mp hidentity), hcheck⟩

theorem accepts_of_resolvePassword {resolution : SavedPasswordAuthResolution}
    (hpassword : host.authMethod.isPassword)
    (h : resolveSavedPasswordAuthentication host graph = .ok resolution)
    (hdirect : hostCatalogReference host "identityFileId" = .ok none) : graph.Accepts host := by
  unfold resolveSavedPasswordAuthentication resolveProjectedSavedPasswordAuthentication at h
  obtain ⟨-, h⟩ := refuse_ok_iff.mp h
  obtain ⟨identityId, hreadId, h⟩ := bind_ok_iff.mp h
  obtain ⟨identity, hmap, -⟩ := bind_ok_iff.mp h
  rw [invalidAs_ok_iff] at hreadId
  refine ⟨none, identityId, hdirect, hostCatalogReference_of_relationship hreadId, nofun, ?_⟩
  rintro id rfl
  obtain ⟨identity, hidentity, rfl⟩ := mapM_some_ok_iff.mp hmap
  exact (validateHostIdentityReference_password_ok_iff hpassword).mpr
    ⟨identity, lookupBy_of_filter_key (resolvePasswordIdentity_ok_iff.mp hidentity).1⟩

theorem validateHostGraphReference_of_resolve {resolution : SavedHostAuthResolution}
    (htelnet : host.protocol.isTelnet = false)
    (h : resolveSavedHostAuthentication host graph = .ok resolution)
    (hdirect : host.authMethod.isPassword → hostCatalogReference host "identityFileId" = .ok none) :
    validateHostGraphReference graph.lookups host = .ok () := by
  cases hserial : host.protocol.isSerial with
  | true => rw [validateHostGraphReference, if_pos hserial]
  | false =>
      refine (validateHostGraphReference_ok_iff hserial htelnet).mpr ?_
      rw [resolveSavedHostAuthentication] at h
      split_ifs at h with hpassword hkey hcertificate
      · obtain ⟨_, h, -⟩ := bind_ok_iff.mp h
        exact accepts_of_resolvePassword hpassword h (hdirect hpassword)
      · have hkind : RequiredKeyKind.privateKey.isRequiredBy host.authMethod := hkey
        exact accepts_of_resolveKeyAuthentication hkind h
      · have hkind : RequiredKeyKind.certificate.isRequiredBy host.authMethod := hcertificate
        exact accepts_of_resolveKeyAuthentication hkind h

end Converse

/-! ### Agreement -/

/-- **The guard agrees with the vault**: on a committed inventory it resolves the relations of every
SSH host, if they are not null or blank, and what it resolves in any graph the vault accepts.
Reference keys of an extension category are left out, and the direct key of a password host. -/
theorem guard_agrees_with_vault (E : Externals) :
    (∀ inventory, checkCommit E inventory = .ok () → ∀ host ∈ inventory.hosts,
      host.protocol.isSerial = false → host.protocol.isTelnet = false →
        (host.authMethod.isPassword → inventory.PasswordAgrees host) ∧
        ∀ kind : RequiredKeyKind, kind.isRequiredBy host.authMethod →
          host.HasRelation "identityId" ∨ host.HasRelation "identityFileId" →
          host.compatibilityFields.get? "identityFilePaths" = none →
          inventory.KeyAgrees kind host) ∧
    ∀ (graph : SavedVaultGraph) (host : SavedHost) (resolution : SavedHostAuthResolution),
      host.protocol.isTelnet = false →
      resolveSavedHostAuthentication host graph = .ok resolution →
      (host.authMethod.isPassword → hostCatalogReference host "identityFileId" = .ok none) →
      validateHostGraphReference graph.lookups host = .ok () := by
  refine ⟨fun inventory hcommit host hhost hserial htelnet => ?_, fun _ _ _ htelnet h hdirect =>
    validateHostGraphReference_of_resolve htelnet h hdirect⟩
  have hchecked := checkCommit_ok_iff.mp hcommit
  exact ⟨hchecked.passwordAgrees hhost hserial htelnet, fun _ hkind hrelation hpaths =>
    hchecked.keyAgrees hhost hserial htelnet hkind hrelation hpaths⟩

/-- A key, an identity of it, a host that names the identity, and one whose identity is empty. -/
def guardedInventory : Inventory where
  hosts := [
    ⟨1, "host-1".toList, 1, "Web".toList, "web.example.test".toList, 22, "ada".toList, .ssh,
      ⟨"key".toList⟩, 1, 1, 1, [("identityId".toList, .string "identity-1".toList)]⟩,
    ⟨1, "host-2".toList, 1, "Mail".toList, "mail.example.test".toList, 22, "ada".toList, .ssh,
      .password, 1, 1, 1, [("identityId".toList, .string [])]⟩]
  sshKeyReferences := [⟨"key-1".toList, "Laptop".toList, "/home/ada/.ssh/id_ed25519".toList, .key,
    .reference, 1, 1, []⟩]
  managedSshKeys := []
  identityReferences := [⟨"identity-1".toList, "Ada".toList, "ada".toList, .key, "key-1".toList, 1,
    1, []⟩]
  passwordIdentities := []
  proxyProfiles := []
  groups := []
  customGroups := none
  notesSnippets := .absent
  portForwardRules := []
  knownHosts := []
  connectionLogs := []

theorem checkCommit_guardedInventory : checkCommit asciiExternals guardedInventory = .ok () := by
  decide

/-- The host that names an identity resolves to the key of the identity. -/
theorem guard_agrees_with_vault_key :
    ∃ keyId resolution, guardedInventory.NamesKey guardedInventory.hosts[0] keyId ∧
      resolveSavedHostAuthentication guardedInventory.hosts[0]
        guardedInventory.toSavedVaultGraph = .ok resolution ∧
      guardedInventory.KeyResolution .privateKey keyId resolution ∧
      validateHostGraphReference guardedInventory.lookups guardedInventory.hosts[0] = .ok () := by
  obtain ⟨hagree, haccept⟩ := guard_agrees_with_vault asciiExternals
  obtain ⟨-, hkey⟩ := hagree guardedInventory checkCommit_guardedInventory _
    List.mem_cons_self (by decide) (by decide)
  have hkeyAgrees := hkey .privateKey (by decide)
    (Or.inl ⟨"identity-1".toList, by decide, by decide⟩) (by decide)
  obtain ⟨keyId, hnames, hresolves⟩ := hkeyAgrees.resolves
    (Or.inr ⟨"identity-1".toList, by decide, by decide⟩)
    (Or.inl (by decide))
  obtain ⟨resolution, hresolve, hresolution⟩ := hresolves fun reference hmem _ => by
    obtain rfl := List.mem_singleton.mp hmem
    decide
  refine ⟨keyId, resolution, hnames, hresolve, hresolution, ?_⟩
  exact haccept _ _ resolution (by decide) hresolve fun h => absurd h (by decide)

/-- A host with an empty identity can be saved, and the guard refuses it. -/
theorem not_guard_resolves_committed :
    ¬ ∀ (E : Externals) (inventory : Inventory), checkCommit E inventory = .ok () →
      ∀ host ∈ inventory.hosts, host.protocol.isSsh → host.authMethod.isPassword →
        ∃ resolution,
          resolveSavedHostAuthentication host inventory.toSavedVaultGraph = .ok resolution := by
  intro h
  obtain ⟨resolution, hresolve⟩ := h asciiExternals guardedInventory checkCommit_guardedInventory
    _ (List.mem_cons_of_mem _ List.mem_cons_self) (by decide) (by decide)
  have hrefused : resolveSavedHostAuthentication guardedInventory.hosts[1]
      guardedInventory.toSavedVaultGraph = .error .invalidIdentityReference := by decide
  exact absurd (hrefused.symm.trans hresolve) nofun

end Netcatty.Vault
