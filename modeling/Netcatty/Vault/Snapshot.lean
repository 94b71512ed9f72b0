import Netcatty.Vault.Checked

/-! # Snapshots of the vault

A commit writes one envelope, in the oldest format that holds the catalogs in use
(`SnapshotEnvelope.newLatest`); reading it back checks its header, its checksum and then the graph,
as far as its format goes (`SnapshotEnvelope.validate`).  The two sides are written separately:
`validate_newLatest` says that what the checks of a commit accept is read back, in order.

JSON and SHA-256 are the fields of `Serde`. -/

namespace Netcatty.Vault

open Catalog

abbrev Bytes := List UInt8

inductive Slot
  | a
  | b
  deriving DecidableEq

def Slot.forGeneration (generation : ℕ) : Slot := if generation % 2 = 1 then .a else .b

def snapshotMagic : Text := "netcatty-saved-host-snapshot".toList

/-- The largest snapshot format. -/
def snapshotFormatV11 : ℕ := 11

def maxSnapshotBytes : ℕ := 32 * 1024 * 1024

structure SnapshotEnvelope where
  magic : Text
  formatVersion : ℕ
  storeId : Text
  slot : Slot
  generation : ℕ
  hosts : List SavedHost
  sshKeyReferences : Option (Option (List SavedSshKeyReference))
  managedSshKeys : Option (Option (List SavedManagedSshKey))
  identityReferences : Option (Option (List SavedIdentityReference))
  passwordIdentities : Option (Option (List SavedPasswordIdentity))
  proxyProfiles : Option (Option (List SavedProxyProfile))
  groups : Option (Option (List SavedGroupConfig))
  customGroups : Option (Option SavedGroupCatalog)
  notesSnippets : Option (Option SavedNotesSnippetsCatalog)
  portForwardRules : Option (Option (List SavedPortForwardRule))
  knownHosts : Option (Option (List SavedKnownHost))
  connectionLogs : Option (Option (List SavedConnectionLog))
  checksum : Text
  deriving DecidableEq

/-! ### What a checksum or a commitment covers -/

/-- The identity of a time when identities had no authentication method. -/
structure LegacyIdentityReferenceV2 where
  id : SavedIdentityReferenceId
  label : Text
  username : Text
  keyId : SavedSshKeyReferenceId
  createdAt : ℕ
  updatedAt : ℕ
  compatibilityFields : Fields
  deriving DecidableEq

def SavedIdentityReference.legacy (reference : SavedIdentityReference) :
    LegacyIdentityReferenceV2 :=
  ⟨reference.id, reference.label, reference.username, reference.keyId, reference.createdAt,
    reference.updatedAt, reference.compatibilityFields⟩

def legacyIdentityReferences (references : List SavedIdentityReference) :
    List LegacyIdentityReferenceV2 := references.map (·.legacy)

/-- The catalogs of a payload; a format has some of them. -/
structure CatalogPayload where
  hosts : List SavedHost
  sshKeyReferences : Option (List SavedSshKeyReference)
  managedSshKeys : Option (List SavedManagedSshKey)
  legacyIdentityReferences : Option (List LegacyIdentityReferenceV2)
  identityReferences : Option (List SavedIdentityReference)
  passwordIdentities : Option (List SavedPasswordIdentity)
  proxyProfiles : Option (List SavedProxyProfile)
  groups : Option (List SavedGroupConfig)
  customGroups : Option SavedGroupCatalog
  notesSnippets : Option SavedNotesSnippetsCatalog
  portForwardRules : Option (List SavedPortForwardRule)
  knownHosts : Option (List SavedKnownHost)
  connectionLogs : Option (List SavedConnectionLog)
  deriving DecidableEq

/-- `ChecksumPayloadV1` to `ChecksumPayloadV11`. -/
structure ChecksumPayload where
  magic : Option Text
  formatVersion : ℕ
  storeId : Text
  slot : Slot
  generation : ℕ
  catalogs : CatalogPayload
  deriving DecidableEq

/-- `GraphCommitmentPayloadV1` to `GraphCommitmentPayloadV10`. -/
structure GraphCommitmentPayload where
  formatVersion : ℕ
  storeId : Text
  catalogs : CatalogPayload
  deriving DecidableEq

/-- `serde_json`, and SHA-256. -/
structure Serde where
  envelopeToVec : SnapshotEnvelope → Option Bytes
  envelopeFromSlice : Bytes → Option SnapshotEnvelope
  checksumToVec : ChecksumPayload → Option Bytes
  commitmentToVec : GraphCommitmentPayload → Option Bytes
  sha256 : Bytes → Bytes

def liftOption {α : Type} (error : StoreError) : Option α → Except StoreError α
  | some a => .ok a
  | none => .error error

@[simp] theorem liftOption_ok_iff {α : Type} {error : StoreError} {x : Option α} {a : α} :
    liftOption error x = .ok a ↔ x = some a := by
  cases x <;> simp [liftOption]

/-- The eight bytes of a length, most significant first. -/
def toBeBytes (n : ℕ) : Bytes :=
  (List.range 8).map fun i => UInt8.ofNat (n / 256 ^ (7 - i))

def textBytesOf (s : String) : Bytes := s.toList.map fun c => UInt8.ofNat c.toNat

def hexDigit (n : ℕ) : Char := if n < 10 then Char.ofNat (48 + n) else Char.ofNat (87 + n)

def hexEncode (bytes : Bytes) : Text :=
  bytes.flatMap fun byte => [hexDigit (byte.toNat / 16), hexDigit (byte.toNat % 16)]

/-- Where a format has a catalog. -/
def since {α : Type} (version first : ℕ) (value : α) : Option α :=
  if first ≤ version then some value else none

def CatalogPayload.forChecksum (version : ℕ) (inventory : Inventory) : CatalogPayload where
  hosts := inventory.hosts
  sshKeyReferences := since version 2 inventory.sshKeyReferences
  managedSshKeys := since version 3 inventory.managedSshKeys
  legacyIdentityReferences :=
    if version = 2 then some (Vault.legacyIdentityReferences inventory.identityReferences) else none
  identityReferences := since version 3 inventory.identityReferences
  passwordIdentities := since version 4 inventory.passwordIdentities
  proxyProfiles := since version 5 inventory.proxyProfiles
  groups := since version 6 inventory.groups
  customGroups := if 11 ≤ version then inventory.customGroups else none
  notesSnippets := since version 7 inventory.notesSnippets
  portForwardRules := since version 8 inventory.portForwardRules
  knownHosts := since version 9 inventory.knownHosts
  connectionLogs := since version 10 inventory.connectionLogs

def ChecksumPayload.of (version : ℕ) (storeId : Text) (slot : Slot) (generation : ℕ)
    (inventory : Inventory) : ChecksumPayload where
  magic := since version 3 snapshotMagic
  formatVersion := version
  storeId := storeId
  slot := slot
  generation := generation
  catalogs := .forChecksum version inventory

section Serde

variable (E : Externals) (S : Serde)

/-- `snapshot_checksum_v1` to `snapshot_checksum_v11`; from the third on, the digest covers a
domain and the length. -/
def snapshotChecksum (payload : ChecksumPayload) : Except StoreError Text := do
  let encoded ← liftOption .serialization (S.checksumToVec payload)
  if payload.formatVersion < 3 then return hexEncode (S.sha256 encoded)
  else
    return hexEncode (S.sha256
      (textBytesOf ("netcatty-saved-host-snapshot-checksum-v" ++ toString payload.formatVersion ++
        "\x00") ++ toBeBytes encoded.length ++ encoded))

/-! ### Writing -/

/-- An envelope of one of the formats from 8 on, which hold every catalog that they know. -/
def SnapshotEnvelope.new (version : ℕ) (storeId : Text) (slot : Slot) (generation : ℕ)
    (inventory : Inventory) : Except StoreError SnapshotEnvelope := do
  let checksum ← snapshotChecksum S (.of version storeId slot generation inventory)
  return {
    magic := snapshotMagic
    formatVersion := version
    storeId := storeId
    slot := slot
    generation := generation
    hosts := inventory.hosts
    sshKeyReferences := some (some inventory.sshKeyReferences)
    managedSshKeys := some (some inventory.managedSshKeys)
    identityReferences := some (some inventory.identityReferences)
    passwordIdentities := some (some inventory.passwordIdentities)
    proxyProfiles := some (some inventory.proxyProfiles)
    groups := some (some inventory.groups)
    customGroups := if 11 ≤ version then inventory.customGroups.map some else none
    notesSnippets := some (some inventory.notesSnippets)
    portForwardRules := some (some inventory.portForwardRules)
    knownHosts := since version 9 (some inventory.knownHosts)
    connectionLogs := since version 10 (some inventory.connectionLogs)
    checksum := checksum }

def SnapshotEnvelope.newWithProxyProfiles := new S 8
def SnapshotEnvelope.newWithKnownHosts := new S 9
def SnapshotEnvelope.newWithConnectionLogs := new S 10
def SnapshotEnvelope.newWithCustomGroups := new S 11

/-- The newest format that the catalogs in use need. -/
def SnapshotEnvelope.newLatest (storeId : Text) (slot : Slot) (generation : ℕ)
    (inventory : Inventory) : Except StoreError SnapshotEnvelope :=
  if inventory.customGroups.isSome then newWithCustomGroups S storeId slot generation inventory
  else if !inventory.connectionLogs.isEmpty then
    newWithConnectionLogs S storeId slot generation inventory
  else if !inventory.knownHosts.isEmpty then
    newWithKnownHosts S storeId slot generation inventory
  else newWithProxyProfiles S storeId slot generation inventory

/-! ### Reading -/

/-- `optional_catalog`: an explicit null is refused. -/
def optionalCatalog {α : Type} : Option (Option (List α)) → Except StoreError (List α)
  | none => .ok []
  | some (some values) => .ok values
  | some none => .error .bothSlotsCorrupt

/-- `required_catalog` and `required_value`. -/
def isPresent {α : Type} (value : Option (Option α)) : Bool := value.join.isSome

/-- The catalogs of an envelope; what it lacks is empty. -/
def SnapshotEnvelope.inventory (envelope : SnapshotEnvelope) : Inventory where
  hosts := envelope.hosts
  sshKeyReferences := envelope.sshKeyReferences.join.getD []
  managedSshKeys := envelope.managedSshKeys.join.getD []
  identityReferences := envelope.identityReferences.join.getD []
  passwordIdentities := envelope.passwordIdentities.join.getD []
  proxyProfiles := envelope.proxyProfiles.join.getD []
  groups := envelope.groups.join.getD []
  customGroups := envelope.customGroups.join
  notesSnippets := envelope.notesSnippets.join.getD .absent
  portForwardRules := envelope.portForwardRules.join.getD []
  knownHosts := envelope.knownHosts.join.getD []
  connectionLogs := envelope.connectionLogs.join.getD []

/-- No catalog of a later format is there. -/
def SnapshotEnvelope.laterAbsent (envelope : SnapshotEnvelope) : Bool :=
  let version := envelope.formatVersion
  (3 ≤ version || envelope.managedSshKeys.isNone) &&
    (4 ≤ version || envelope.passwordIdentities.isNone) &&
    (5 ≤ version || envelope.proxyProfiles.isNone) && (6 ≤ version || envelope.groups.isNone) &&
    (11 ≤ version || envelope.customGroups.isNone) &&
    (7 ≤ version || envelope.notesSnippets.isNone) &&
    (8 ≤ version || envelope.portForwardRules.isNone) &&
    (9 ≤ version || envelope.knownHosts.isNone) &&
    (10 ≤ version || envelope.connectionLogs.isNone)

/-- Every catalog of the format is there; up to format 3, two of them may be left out. -/
def SnapshotEnvelope.requiredPresent (envelope : SnapshotEnvelope) : Bool :=
  let version := envelope.formatVersion
  (version < 3 || isPresent envelope.managedSshKeys) &&
    (version < 4 || isPresent envelope.sshKeyReferences) &&
    (version < 4 || isPresent envelope.identityReferences) &&
    (version < 4 || isPresent envelope.passwordIdentities) &&
    (version < 5 || isPresent envelope.proxyProfiles) &&
    (version < 6 || isPresent envelope.groups) &&
    (version < 11 || isPresent envelope.customGroups) &&
    (version < 7 || isPresent envelope.notesSnippets) &&
    (version < 8 || isPresent envelope.portForwardRules) &&
    (version < 9 || isPresent envelope.knownHosts) &&
    (version < 10 || isPresent envelope.connectionLogs)

/-- The checksum that an envelope should have. -/
def SnapshotEnvelope.expectedChecksum (envelope : SnapshotEnvelope) : Except StoreError Text := do
  let sshKeyReferences ← optionalCatalog envelope.sshKeyReferences
  let identityReferences ← optionalCatalog envelope.identityReferences
  let version := envelope.formatVersion
  if version = 0 ∨ snapshotFormatV11 < version ∨ !envelope.laterAbsent ∨
      !envelope.requiredPresent ∨
      version = 1 ∧ !(sshKeyReferences.isEmpty && identityReferences.isEmpty) then
    .error .bothSlotsCorrupt
  snapshotChecksum S (.of version envelope.storeId envelope.slot envelope.generation
    envelope.inventory)

structure ValidatedSnapshot where
  generation : ℕ
  inventory : Inventory
  deriving DecidableEq

/-- The checks of a format's relations, and the order of its catalogs. -/
def validateCatalogs (version : ℕ) (inventory : Inventory) : Except StoreError Inventory := do
  let inventory ← normalizeCatalogs E inventory
  let L := inventory.lookups
  if 3 ≤ version then validateHostGraphReferences L inventory.hosts
  if 5 ≤ version then validateProxyGraphReferences E L inventory.hosts inventory.proxyProfiles
  if 6 ≤ version then validateGroupGraphReferences L inventory.groups inventory.hosts
  if 7 ≤ version then
    validateNotesSnippetsGraphReferences inventory.hosts inventory.groups inventory.notesSnippets
  let portForwardRules ←
    if 8 ≤ version then normalizePortForwardRules inventory.portForwardRules inventory.hosts
    else .ok inventory.portForwardRules
  if 9 ≤ version then liftSerialization (validateSavedKnownHosts inventory.knownHosts)
  let connectionLogs ←
    if 10 ≤ version then normalizeConnectionLogs inventory.connectionLogs
    else .ok inventory.connectionLogs
  return { inventory with portForwardRules, connectionLogs }

def SnapshotEnvelope.validate (envelope : SnapshotEnvelope) (storeId : Text) (slot : Slot)
    (generation : ℕ) : Except StoreError ValidatedSnapshot := do
  if envelope.magic ≠ snapshotMagic ∨ envelope.storeId ≠ storeId ∨ envelope.slot ≠ slot ∨
      envelope.generation ≠ generation then
    .error .bothSlotsCorrupt
  let expectedChecksum ← envelope.expectedChecksum S
  if envelope.checksum ≠ expectedChecksum then .error .bothSlotsCorrupt
  let inventory ← validateCatalogs E envelope.formatVersion envelope.inventory
  return { generation := envelope.generation, inventory }

end Serde

/-! ### What is written is read back -/

section ReadBack

variable {E : Externals} {S : Serde}

/-- The format holds every catalog that is in use. -/
structure Holds (version : ℕ) (inventory : Inventory) : Prop where
  range : 8 ≤ version ∧ version ≤ snapshotFormatV11
  customGroups : 11 ≤ version ↔ inventory.customGroups.isSome
  knownHosts : version < 9 → inventory.knownHosts = []
  connectionLogs : version < 10 → inventory.connectionLogs = []

theorem SnapshotEnvelope.newLatest_eq_new (S : Serde) (storeId : Text) (slot : Slot)
    (generation : ℕ) (inventory : Inventory) :
    ∃ version, Holds version inventory ∧
      newLatest S storeId slot generation inventory =
        SnapshotEnvelope.new S version storeId slot generation inventory := by
  unfold newLatest
  split_ifs with hcustom hlogs hknown
  · exact ⟨11, ⟨by decide, by simp [hcustom], by simp, by simp⟩, rfl⟩
  · exact ⟨10, ⟨by decide, by simpa using hcustom, by simp, by simp⟩, rfl⟩
  · refine ⟨9, ⟨by decide, by simpa using hcustom, by simp, fun _ => ?_⟩, rfl⟩
    simpa using hlogs
  · refine ⟨8, ⟨by decide, by simpa using hcustom, fun _ => ?_, fun _ => ?_⟩, rfl⟩
    · simpa using hknown
    · simpa using hlogs

theorem SnapshotEnvelope.new_ok {version generation : ℕ} {storeId : Text} {slot : Slot}
    {inventory : Inventory} {envelope : SnapshotEnvelope} (hh : Holds version inventory)
    (h : SnapshotEnvelope.new S version storeId slot generation inventory = .ok envelope) :
    envelope.magic = snapshotMagic ∧ envelope.storeId = storeId ∧ envelope.slot = slot ∧
      envelope.generation = generation ∧ envelope.formatVersion = version ∧
      envelope.inventory = inventory ∧ envelope.expectedChecksum S = .ok envelope.checksum := by
  obtain ⟨checksum, hchecksum, h⟩ := bind_ok_iff.mp h
  have henvelope := pure_ok_iff.mp h
  obtain ⟨h8, h11⟩ := hh.range
  have hcustom : (if 11 ≤ version then inventory.customGroups.map some else none).join =
      inventory.customGroups := by
    split_ifs with hv
    · cases inventory.customGroups <;> rfl
    · exact (Option.not_isSome_iff_eq_none.mp (mt hh.customGroups.mpr hv)).symm
  have hknown : (since version 9 (some inventory.knownHosts)).join.getD [] =
      inventory.knownHosts := by
    unfold since
    split_ifs with hv
    · rfl
    · exact (hh.knownHosts (not_le.mp hv)).symm
  have hlogs : (since version 10 (some inventory.connectionLogs)).join.getD [] =
      inventory.connectionLogs := by
    unfold since
    split_ifs with hv
    · rfl
    · exact (hh.connectionLogs (not_le.mp hv)).symm
  have hinventory : envelope.inventory = inventory := by
    rw [henvelope]
    simp only [SnapshotEnvelope.inventory, hcustom, hknown, hlogs]
    rfl
  refine ⟨by rw [henvelope], by rw [henvelope], by rw [henvelope], by rw [henvelope],
    by rw [henvelope], hinventory, ?_⟩
  have hrequired : envelope.requiredPresent = true := by
    have hv := hh.customGroups
    have hdec : (version < 11 || inventory.customGroups.isSome) = true := by
      rw [Bool.or_eq_true, decide_eq_true_iff, ← hv]
      exact lt_or_ge version 11
    simp only [henvelope, SnapshotEnvelope.requiredPresent, isPresent, hcustom, hdec]
    by_cases h9 : 9 ≤ version <;> by_cases h10 : 10 ≤ version <;> simp [since, h9, h10] <;> omega
  have hlater : envelope.laterAbsent = true := by
    have hge : ∀ first ≤ 8, first ≤ version := fun first h => h.trans h8
    simp only [henvelope, SnapshotEnvelope.laterAbsent, hge 3 (by decide), hge 4 (by decide),
      hge 5 (by decide), hge 6 (by decide), hge 7 (by decide), h8]
    by_cases h9 : 9 ≤ version <;> by_cases h10 : 10 ≤ version <;>
      by_cases h11 : 11 ≤ version <;> simp [since, h9, h10, h11]
  have hrefs : optionalCatalog envelope.sshKeyReferences = .ok inventory.sshKeyReferences := by
    rw [henvelope]
    rfl
  have hids : optionalCatalog envelope.identityReferences = .ok inventory.identityReferences := by
    rw [henvelope]
    rfl
  refine bind_ok_iff.mpr ⟨_, hrefs, bind_ok_iff.mpr ⟨_, hids, refuse_ok_iff.mpr ⟨?_, ?_⟩⟩⟩
  · rw [hlater, hrequired, henvelope]
    simp
    omega
  · rw [hinventory, henvelope]
    exact hchecksum

/-- The relations that a format checks are those of a commit. -/
theorem validateCatalogs_ok {version : ℕ} {inventory : Inventory} (hh : Holds version inventory)
    (h : inventory.Checked E) {rules : List SavedPortForwardRule}
    (hrules : normalizeAndValidatePortForwardRules inventory.portForwardRules inventory.hosts =
      .ok rules) :
    validateCatalogs E version inventory = .ok (inventory.inOrder E rules) := by
  obtain ⟨hrecords, hrefs, hknown, hlogs⟩ := h
  have hsorted := hrecords.references_sortCatalogs_iff.mpr hrefs
  have h8 := hh.range.1
  unfold validateCatalogs
  simp only [show 3 ≤ version by omega, show 5 ≤ version by omega, show 6 ≤ version by omega,
    show 7 ≤ version by omega, h8, if_true]
  refine bind_ok_iff.mpr ⟨_, normalizeCatalogs_ok_iff.mpr ⟨⟨hrecords, hrefs.identities⟩, rfl⟩, ?_⟩
  refine check_ok_iff.mpr ⟨(checkAll_ok_iff _).mpr hsorted.hosts, ?_⟩
  refine check_ok_iff.mpr ⟨check_ok_iff.mpr ⟨(checkAll_ok_iff _).mpr hsorted.profiles,
    (checkAll_ok_iff _).mpr hsorted.proxies⟩, ?_⟩
  refine check_ok_iff.mpr ⟨(checkAll_ok_iff _).mpr hsorted.groups, ?_⟩
  refine check_ok_iff.mpr ⟨hsorted.notesSnippets, ?_⟩
  refine bind_ok_iff.mpr ⟨_, normalizePortForwardRules_ok_iff.mpr ⟨rules, ?_, rfl⟩, ?_⟩
  · exact (normalizeAndValidatePortForwardRules_perm hrecords.nodup_hosts
      (sortBy_perm _ _).symm).mp hrules
  have hknown' := liftSerialization_ok_iff.mpr hknown
  have hlogs' := normalizeConnectionLogs_ok_iff.mpr ⟨hlogs, rfl⟩
  have hsort : ¬ 10 ≤ version →
      sortBy SavedConnectionLog.cmp inventory.connectionLogs = inventory.connectionLogs := by
    intro h10
    rw [hh.connectionLogs (not_le.mp h10)]
    rfl
  by_cases h9 : 9 ≤ version <;> by_cases h10 : 10 ≤ version
  · rw [if_pos h9, if_pos h10]
    exact check_ok_iff.mpr ⟨hknown', bind_ok_iff.mpr ⟨_, hlogs', rfl⟩⟩
  · rw [if_pos h9, if_neg h10]
    simp only [Inventory.inOrder, hsort h10]
    exact check_ok_iff.mpr ⟨hknown', rfl⟩
  · exact absurd h10 (by omega)
  · rw [if_neg h9, if_neg h10]
    simp only [Inventory.inOrder, hsort h10]
    rfl

/-- Whatever is read has its catalogs in order. -/
theorem validateCatalogs_inOrder {version : ℕ} {inventory normal : Inventory}
    (hrules : version < 8 → inventory.portForwardRules = [])
    (hlogs : version < 10 → inventory.connectionLogs = [])
    (h : validateCatalogs E version inventory = .ok normal) : normal.InOrder E := by
  unfold validateCatalogs at h
  obtain ⟨_, hsorted, h⟩ := bind_ok_iff.mp h
  obtain ⟨-, rfl⟩ := normalizeCatalogs_ok_iff.mp hsorted
  obtain ⟨-, h⟩ := when_ok_iff.mp h
  obtain ⟨-, h⟩ := when_ok_iff.mp h
  obtain ⟨-, h⟩ := when_ok_iff.mp h
  obtain ⟨-, h⟩ := when_ok_iff.mp h
  obtain ⟨rules, hread, h⟩ := choose_ok_iff.mp h
  obtain ⟨-, h⟩ := when_ok_iff.mp h
  obtain ⟨logs, hreadLogs, h⟩ := choose_ok_iff.mp h
  obtain rfl := pure_ok_iff.mp h
  have hnormal : (∀ rule ∈ rules, rule.normalized = .ok rule) ∧
      Ordered SavedPortForwardRule.cmp rules := by
    split at hread
    · obtain ⟨normal, hnormal, rfl⟩ := normalizePortForwardRules_ok_iff.mp hread
      obtain ⟨-, hall, -⟩ := normalizeAndValidatePortForwardRules_ok_iff.mp hnormal
      exact ⟨fun rule hrule => (forall₂_normal hall rule ((mem_sortBy _).mp hrule)).1,
        ordered_sortBy _⟩
    · rename_i hversion
      cases hread
      rw [show (inventory.sortCatalogs E).portForwardRules = [] from hrules (not_le.mp hversion)]
      exact ⟨fun _ hrule => absurd hrule List.not_mem_nil, List.Pairwise.nil⟩
  have hsortedLogs : Ordered SavedConnectionLog.cmp logs := by
    split at hreadLogs
    · rw [(normalizeConnectionLogs_ok_iff.mp hreadLogs).2]
      exact ordered_sortBy _
    · rename_i hversion
      cases hreadLogs
      rw [hlogs (not_le.mp hversion)]
      exact List.Pairwise.nil
  refine ⟨?_, hnormal.1, hnormal.2, hsortedLogs⟩
  have hsort := sortCatalogs_sortCatalogs (E := E) inventory.toSavedVaultGraph
  simp only [SavedVaultGraph.sortCatalogs, SavedVaultGraph.mk.injEq] at hsort ⊢
  simp only [hsort, and_self]

theorem SnapshotEnvelope.validate_inOrder {envelope : SnapshotEnvelope} {storeId : Text}
    {slot : Slot} {generation : ℕ} {snapshot : ValidatedSnapshot}
    (h : envelope.validate E S storeId slot generation = .ok snapshot) :
    snapshot.generation = generation ∧ snapshot.inventory.InOrder E := by
  unfold validate at h
  obtain ⟨hheader, h⟩ := refuse_ok_iff.mp h
  obtain ⟨expected, hexpected, h⟩ := bind_ok_iff.mp h
  obtain ⟨-, h⟩ := refuse_ok_iff.mp h
  obtain ⟨inventory, hcatalogs, h⟩ := bind_ok_iff.mp h
  obtain rfl := pure_ok_iff.mp h
  refine ⟨by_contra fun hne => hheader (.inr (.inr (.inr hne))), ?_⟩
  unfold expectedChecksum at hexpected
  obtain ⟨_, -, hexpected⟩ := bind_ok_iff.mp hexpected
  obtain ⟨_, -, hexpected⟩ := bind_ok_iff.mp hexpected
  obtain ⟨hformat, -⟩ := refuse_ok_iff.mp hexpected
  have hlater : envelope.laterAbsent = true := by
    by_contra hlater
    exact hformat (.inr (.inr (.inl (by simpa using hlater))))
  simp only [laterAbsent, Bool.and_eq_true, Bool.or_eq_true, decide_eq_true_eq,
    Option.isNone_iff_eq_none] at hlater
  refine validateCatalogs_inOrder (fun hversion => ?_) (fun hversion => ?_) hcatalogs
  · have habsent := hlater.1.1.2.resolve_left (not_le.mpr hversion)
    simp [SnapshotEnvelope.inventory, habsent]
  · have habsent := hlater.2.resolve_left (not_le.mpr hversion)
    simp [SnapshotEnvelope.inventory, habsent]

/-- **What a commit writes is read back**, in order. -/
theorem SnapshotEnvelope.validate_newLatest {generation : ℕ} {storeId : Text} {slot : Slot}
    {inventory : Inventory} {envelope : SnapshotEnvelope} (hc : inventory.Checked E)
    {rules : List SavedPortForwardRule}
    (hrules : normalizeAndValidatePortForwardRules inventory.portForwardRules inventory.hosts =
      .ok rules)
    (h : newLatest S storeId slot generation inventory = .ok envelope) :
    envelope.validate E S storeId slot generation = .ok ⟨generation, inventory.inOrder E rules⟩ := by
  obtain ⟨version, hh, heq⟩ := newLatest_eq_new S storeId slot generation inventory
  rw [heq] at h
  obtain ⟨hmagic, hstore, hslot, hgeneration, hversion, hinventory, hchecksum⟩ := new_ok hh h
  have hheader : ¬ (envelope.magic ≠ snapshotMagic ∨ envelope.storeId ≠ storeId ∨
      envelope.slot ≠ slot ∨ envelope.generation ≠ generation) := by
    simp only [hmagic, hstore, hslot, hgeneration, ne_eq, not_true, or_self, not_false_eq_true]
  unfold validate
  refine refuse_ok_iff.mpr ⟨hheader, ?_⟩
  refine bind_ok_iff.mpr ⟨_, hchecksum, refuse_ok_iff.mpr ⟨not_not.mpr rfl, ?_⟩⟩
  rw [hversion, hinventory]
  refine bind_ok_iff.mpr ⟨_, validateCatalogs_ok hh hc hrules, ?_⟩
  rw [hgeneration]
  rfl

end ReadBack

end Netcatty.Vault
