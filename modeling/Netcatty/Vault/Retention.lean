import Mathlib.Data.List.Dedup
import Netcatty.Vault.Recovery

/-! # Managed secrets that are kept

A secret of a managed key may be thrown away only when no snapshot that can still become the current
one refers to it.  The scan reads every file of both slots and stops at the first that it cannot
place; whatever is lost, corrupted or published afterwards, a load refers to nothing that the scan
has not returned (`retention_safe`). -/

namespace Netcatty.Vault

open Catalog FileSystem

/-! ### The owner of a store -/

structure OwnerMarker where
  magic : Text
  formatVersion : ℕ
  storeId : Text

/-- JSON of owner markers, and the identifiers that are UUIDs. -/
structure OwnerCodec where
  ownerFromSlice : Bytes → Option OwnerMarker
  isUuid : Text → Bool

/-- The directory of a store: its entries and what is in the slots. -/
structure StoreRoot where
  entries : Directory Text
  files : StoreFiles

def ownerMagic : Text := "netcatty-saved-host-store".toList
def ownerFormatVersion : ℕ := 1
def ownerFile : Text := "owner.json".toList
def slotADirectory : Text := "slot-a".toList
def slotBDirectory : Text := "slot-b".toList
def maxOwnerBytes : ℕ := 4 * 1024

def isRootEntry (name : Text) : Bool :=
  name = ownerFile || name = slotADirectory || name = slotBDirectory ||
    (stripPrefix ".owner-" name).isSome && (stripSuffix ".tmp" name).isSome

def validateRootEntries (root : StoreRoot) : Except StoreError Unit :=
  if root.entries.keys.all isRootEntry then .ok () else .error .artifactConflict

def readOwner (codec : OwnerCodec) (root : StoreRoot) : Option Text := do
  let bytes ← readBounded root.entries ownerFile maxOwnerBytes
  let owner ← codec.ownerFromSlice bytes
  if owner.magic ≠ ownerMagic ∨ owner.formatVersion ≠ ownerFormatVersion ∨
      codec.isUuid owner.storeId = false then none
  else some owner.storeId

/-! ### The scan -/

structure SavedVaultManagedSecretRetention where
  entityId : SavedSshKeyReferenceId
  backendLocator : Text
  custodyRevision : ℕ
  deriving DecidableEq

/-- The order of `BTreeSet`. -/
def SavedVaultManagedSecretRetention.cmp :
    SavedVaultManagedSecretRetention → SavedVaultManagedSecretRetention → Ordering :=
  compareLex (compareOn (·.entityId)) <|
  compareLex (compareOn (·.backendLocator)) (compareOn (·.custodyRevision))

def SavedManagedSshKey.retention (key : SavedManagedSshKey) : SavedVaultManagedSecretRetention where
  entityId := key.id
  backendLocator := key.custody.backendLocator
  custodyRevision := key.custody.custodyRevision

namespace SavedHostStore

variable (V : SavedHostStore)

/-- A temporary file counts with the generation that it carries itself. -/
def readRetentionTempSnapshot (directory : SlotDirectory) (slot : Slot) (name : Text) :
    Except StoreError ValidatedSnapshot :=
  match (readBounded directory name maxSnapshotBytes).bind V.serde.envelopeFromSlice with
  | none => .error .managedSecretRetentionUncertain
  | some envelope =>
    if envelope.generation = 0 ∨ Slot.forGeneration envelope.generation ≠ slot then
      .error .managedSecretRetentionUncertain
    else
      match envelope.validate V.externals V.serde V.storeId slot envelope.generation with
      | .ok snapshot => .ok snapshot
      | .error _ => .error .managedSecretRetentionUncertain

/-- One entry of a slot, with the generations of the snapshots in front of it. -/
def readRetentionEntry (directory : SlotDirectory) (slot : Slot) (finalGenerations : List ℕ)
    (name : Text) : Except StoreError (ValidatedSnapshot × List ℕ) :=
  match parseSnapshotName name with
  | some generation =>
    if generation ∈ finalGenerations then .error .managedSecretRetentionUncertain
    else
      match V.readSnapshot directory slot name generation with
      | .ok snapshot => .ok (snapshot, generation :: finalGenerations)
      | .error _ => .error .managedSecretRetentionUncertain
  | none =>
    if isSnapshotTempName name then do
      let snapshot ← V.readRetentionTempSnapshot directory slot name
      return (snapshot, finalGenerations)
    else .error .managedSecretRetentionUncertain

def scanEntries (directory : SlotDirectory) (slot : Slot) :
    List Text → List ℕ → List SavedVaultManagedSecretRetention →
      Except StoreError (List SavedVaultManagedSecretRetention)
  | [], _, retained => return retained
  | name :: names, finalGenerations, retained => do
    let (snapshot, finalGenerations) ← V.readRetentionEntry directory slot finalGenerations name
    scanEntries directory slot names finalGenerations
      (retained ++ snapshot.inventory.managedSshKeys.map (·.retention))

def scanSlotManagedSecretRetention (directory : SlotDirectory) (slot : Slot)
    (retained : List SavedVaultManagedSecretRetention) :
    Except StoreError (List SavedVaultManagedSecretRetention) :=
  V.scanEntries directory slot directory.keys [] retained

/-- `managed_secret_retention_set_locked`. -/
def managedSecretRetentionSet (codec : OwnerCodec) (root : StoreRoot) :
    Except StoreError (List SavedVaultManagedSecretRetention) := do
  if (validateRootEntries root).isOk = false then .error .managedSecretRetentionUncertain
  let ownerId ← liftOption .managedSecretRetentionUncertain (readOwner codec root)
  if ownerId ≠ V.storeId then .error .managedSecretRetentionUncertain
  let retained ← V.scanSlotManagedSecretRetention root.files.slotA .a []
  let retained ← V.scanSlotManagedSecretRetention root.files.slotB .b retained
  return sortBy SavedVaultManagedSecretRetention.cmp retained.dedup

/-- What can become of the files: each snapshot is as it was, or was published from a temporary
file, or cannot be read. -/
def Aftermath (before after : StoreFiles) : Prop :=
  ∀ slot, ∀ name ∈ after.directory slot, ∀ generation, parseSnapshotName name = some generation →
    (∀ snapshot, V.readSnapshot (after.directory slot) slot name generation ≠ .ok snapshot) ∨
    (after.directory slot).lookup name = (before.directory slot).lookup name ∨
    ∃ temp, isSnapshotTempName temp = true ∧
      (after.directory slot).lookup name = (before.directory slot).lookup temp

/-! ### What a scan has seen -/

variable {V} {directory : SlotDirectory} {slot : Slot}

/-- The keys of a snapshot are in the set. -/
def Retains (retained : List SavedVaultManagedSecretRetention) (snapshot : ValidatedSnapshot) :
    Prop :=
  ∀ key ∈ snapshot.inventory.managedSshKeys, key.retention ∈ retained

/-- What has been found out about one entry. -/
def Seen (V : SavedHostStore) (directory : SlotDirectory) (slot : Slot)
    (retained : List SavedVaultManagedSecretRetention) (name : Text) : Prop :=
  (∀ generation, parseSnapshotName name = some generation → ∃ snapshot,
    V.readSnapshot directory slot name generation = .ok snapshot ∧ Retains retained snapshot) ∧
  (isSnapshotTempName name = true → ∃ snapshot,
    V.readRetentionTempSnapshot directory slot name = .ok snapshot ∧ Retains retained snapshot)

theorem Seen.mono {retained retained' : List SavedVaultManagedSecretRetention} {name : Text}
    (h : V.Seen directory slot retained name) (hsub : retained ⊆ retained') :
    V.Seen directory slot retained' name := by
  constructor
  · intro generation hparse
    obtain ⟨snapshot, hread, hretains⟩ := h.1 generation hparse
    exact ⟨snapshot, hread, fun key hkey => hsub (hretains key hkey)⟩
  · intro htemp
    obtain ⟨snapshot, hread, hretains⟩ := h.2 htemp
    exact ⟨snapshot, hread, fun key hkey => hsub (hretains key hkey)⟩

theorem readRetentionEntry_seen {finalGenerations finalGenerations' : List ℕ} {name : Text}
    {snapshot : ValidatedSnapshot}
    (h : V.readRetentionEntry directory slot finalGenerations name =
      .ok (snapshot, finalGenerations')) :
    V.Seen directory slot (snapshot.inventory.managedSshKeys.map (·.retention)) name := by
  have hretains : Retains (snapshot.inventory.managedSshKeys.map (·.retention)) snapshot :=
    fun key hkey => List.mem_map_of_mem hkey
  unfold readRetentionEntry at h
  split at h
  · rename_i generation hparse
    split at h
    · exact absurd h (by simp)
    split at h
    · rename_i snapshot' hread
      cases h
      refine ⟨fun generation' hparse' => ?_, fun htemp => ?_⟩
      · rw [hparse] at hparse'
        cases hparse'
        exact ⟨snapshot, hread, hretains⟩
      · rw [parse_eq_none_of_temp htemp] at hparse
        cases hparse
    · exact absurd h (by simp)
  · rename_i hparse
    split at h
    · obtain ⟨snapshot', hread, h⟩ := bind_ok_iff.mp h
      cases h
      refine ⟨fun generation hparse' => ?_, fun _ => ⟨snapshot, hread, hretains⟩⟩
      rw [hparse] at hparse'
      cases hparse'
    · exact absurd h (by simp)

/-- The scan only adds to the set, and has seen every entry. -/
theorem scanEntries_seen {names : List Text} {finalGenerations : List ℕ}
    {retained retained' : List SavedVaultManagedSecretRetention}
    (h : V.scanEntries directory slot names finalGenerations retained = .ok retained') :
    retained ⊆ retained' ∧ ∀ name ∈ names, V.Seen directory slot retained' name := by
  induction names generalizing finalGenerations retained with
  | nil =>
      cases h
      exact ⟨List.Subset.refl _, fun _ hmem => absurd hmem List.not_mem_nil⟩
  | cons name names ih =>
      obtain ⟨⟨snapshot, finalGenerations'⟩, hentry, h⟩ := bind_ok_iff.mp h
      obtain ⟨hsub, hnames⟩ := ih h
      refine ⟨fun entry hentry => hsub (List.mem_append_left _ hentry), fun other hother => ?_⟩
      rcases List.mem_cons.mp hother with rfl | hother
      · exact (readRetentionEntry_seen hentry).mono
          fun entry hentry => hsub (List.mem_append_right _ hentry)
      · exact hnames other hother

theorem managedSecretRetentionSet_seen {codec : OwnerCodec} {root : StoreRoot}
    {retained : List SavedVaultManagedSecretRetention}
    (h : V.managedSecretRetentionSet codec root = .ok retained) (slot : Slot) :
    ∀ name ∈ root.files.directory slot, V.Seen (root.files.directory slot) slot retained name := by
  unfold managedSecretRetentionSet at h
  obtain ⟨-, h⟩ := refuse_ok_iff.mp h
  obtain ⟨ownerId, -, h⟩ := bind_ok_iff.mp h
  obtain ⟨-, h⟩ := refuse_ok_iff.mp h
  obtain ⟨retainedA, hscanA, h⟩ := bind_ok_iff.mp h
  obtain ⟨retainedB, hscanB, h⟩ := bind_ok_iff.mp h
  cases h
  obtain ⟨-, hnamesA⟩ := scanEntries_seen hscanA
  obtain ⟨hsub, hnamesB⟩ := scanEntries_seen hscanB
  have hall : retainedB ⊆ sortBy SavedVaultManagedSecretRetention.cmp retainedB.dedup :=
    fun entry hentry => (mem_sortBy _).mpr (List.mem_dedup.mpr hentry)
  intro name hmem
  cases slot with
  | a => exact (hnamesA name (AList.mem_keys.mpr hmem)).mono (List.Subset.trans hsub hall)
  | b => exact (hnamesB name (AList.mem_keys.mpr hmem)).mono hall

theorem validate_generation {envelope : SnapshotEnvelope} {generation : ℕ}
    {snapshot : ValidatedSnapshot}
    (h : envelope.validate V.externals V.serde V.storeId slot generation = .ok snapshot) :
    envelope.generation = generation := by
  unfold SnapshotEnvelope.validate at h
  obtain ⟨hheader, -⟩ := refuse_ok_iff.mp h
  simp only [not_or, not_not] at hheader
  exact hheader.2.2.2

/-- A temporary file that is read as a snapshot is read as the scan has read it. -/
theorem readSnapshot_of_temp {before : SlotDirectory} {name temp : Text} {generation : ℕ}
    {snapshot snapshot' : ValidatedSnapshot}
    (hlookup : directory.lookup name = before.lookup temp)
    (hread : V.readSnapshot directory slot name generation = .ok snapshot)
    (htemp : V.readRetentionTempSnapshot before slot temp = .ok snapshot') :
    snapshot' = snapshot := by
  have hbytes : readBounded directory name maxSnapshotBytes =
      readBounded before temp maxSnapshotBytes := by
    simp only [readBounded, hlookup]
  unfold readSnapshot at hread
  unfold readRetentionTempSnapshot at htemp
  rw [hbytes] at hread
  split at hread
  · exact absurd hread (by simp)
  split at hread
  · exact absurd hread (by simp)
  rename_i envelope henvelope
  simp only [henvelope] at htemp
  have hgeneration : envelope.generation = generation := validate_generation hread
  split at htemp
  · exact absurd htemp (by simp)
  rw [hgeneration, hread] at htemp
  cases htemp
  rfl

theorem mem_of_readSnapshot {name : Text} {generation : ℕ} {snapshot : ValidatedSnapshot}
    (h : V.readSnapshot directory slot name generation = .ok snapshot) :
    (directory.lookup name).isSome := by
  cases hlookup : directory.lookup name with
  | some file => rfl
  | none =>
      simp only [readSnapshot, readBounded, hlookup, Option.bind_none] at h
      split at h <;> exact absurd h (by simp)

end SavedHostStore

/-- **Retention is safe.**  When a scan succeeds, then whatever is lost, corrupted or published from
a temporary file later on, a load refers only to custody entries that the scan has returned. -/
theorem retention_safe (V : SavedHostStore) (codec : OwnerCodec) (root : StoreRoot)
    (retained : List SavedVaultManagedSecretRetention) (after : StoreFiles) (loaded : LoadedStore)
    (hscan : V.managedSecretRetentionSet codec root = .ok retained)
    (hafter : V.Aftermath root.files after) (hload : V.loadLocked after = .ok loaded) :
    ∀ key ∈ loaded.inventory.managedSshKeys, key.retention ∈ retained := by
  rcases SavedHostStore.loadLocked_ok hload with ⟨-, rfl⟩ | ⟨slot, snapshot, hselected, rfl⟩
  · exact fun key hkey => absurd hkey List.not_mem_nil
  obtain ⟨name, generation, hnewest, hread⟩ := SavedHostStore.probeSlot_snapshot hselected.offer
  have hseen := SavedHostStore.managedSecretRetentionSet_seen hscan slot
  rcases hafter slot name hnewest.mem generation hnewest.parse with
    hcorrupt | hsame | ⟨temp, htemp, hpublished⟩
  · exact absurd hread (hcorrupt snapshot)
  · have hmem := (SavedHostStore.mem_of_lookup_eq hsame).mp hnewest.mem
    obtain ⟨snapshot', hread', hretains⟩ := (hseen name hmem).1 generation hnewest.parse
    rw [SavedHostStore.readSnapshot_congr hsame, hread'] at hread
    cases hread
    exact hretains
  · have hmem : temp ∈ root.files.directory slot := by
      refine AList.lookup_isSome.mp ?_
      rw [← hpublished]
      exact SavedHostStore.mem_of_readSnapshot hread
    obtain ⟨snapshot', htemp', hretains⟩ := (hseen temp hmem).2 htemp
    rw [SavedHostStore.readSnapshot_of_temp hpublished hread htemp'] at hretains
    exact hretains

/-! ### A snapshot that is published after the scan -/

def deployKey : SavedManagedSshKey where
  id := "key-1".toList
  label := "deploy".toList
  category := .key
  source := .imported
  hasSavedPassphrase := false
  createdAt := 1
  updatedAt := 1
  custody := ⟨List.replicate 64 'a', 1⟩
  compatibilityFields := []

def deployEnvelope : SnapshotEnvelope where
  magic := snapshotMagic
  formatVersion := 8
  storeId := sampleStoreId
  slot := .a
  generation := 1
  hosts := []
  sshKeyReferences := some (some [])
  managedSshKeys := some (some [deployKey])
  identityReferences := some (some [])
  passwordIdentities := some (some [])
  proxyProfiles := some (some [])
  groups := some (some [])
  customGroups := none
  notesSnippets := some (some .absent)
  portForwardRules := some (some [])
  knownHosts := none
  connectionLogs := none
  checksum := "ace3efa36b96a25941d3f6dfdd73cc531eaf1959dab3359c797c127f7053b8c6".toList

def deployJson : Text :=
  "\"magic\":\"netcatty-saved-host-snapshot\",\"formatVersion\":8,\"storeId\":".toList ++
    quoted sampleStoreId ++ ",\"slot\":\"a\",\"generation\":1,\"hosts\":[],".toList ++
    "\"sshKeyReferences\":[],\"managedSshKeys\":[\x7b\"id\":\"key-1\",\"label\":".toList ++
    "\"deploy\",\"category\":\"key\",\"source\":\"imported\",".toList ++
    "\"hasSavedPassphrase\":false,\"createdAt\":1,\"updatedAt\":1,\"custody\":\x7b".toList ++
    "\"backendLocator\":".toList ++ quoted (List.replicate 64 'a') ++
    ",\"custodyRevision\":1\x7d\x7d],\"identityReferences\":[],".toList ++
    "\"passwordIdentities\":[],\"proxyProfiles\":[],\"groups\":[],".toList ++
    "\"notesSnippets\":\x7b\x7d,\"portForwardRules\":[]".toList

def deployStore : SavedHostStore := { groupsStore with serde := soleSerde deployEnvelope deployJson }

def deployOwner : Bytes :=
  utf8Bytes ("\x7b\"magic\":\"netcatty-saved-host-store\",\"formatVersion\":1,".toList ++
    "\"storeId\":".toList ++ quoted sampleStoreId ++ ['\x7d'])

def deployCodec : OwnerCodec where
  ownerFromSlice bytes :=
    if bytes = deployOwner then some ⟨ownerMagic, 1, sampleStoreId⟩ else none
  isUuid id := id = sampleStoreId

/-- The machine has stopped in front of the link. -/
def deployRoot : StoreRoot where
  entries := ((AList.singleton slotBDirectory .irregular).insert slotADirectory .irregular).insert
    ownerFile (.regular deployOwner)
  files := ⟨AList.singleton (snapshotTempName sampleArtifactId) (.regular (soleBytes deployEnvelope deployJson)), ∅⟩

/-- The temporary file has become the snapshot of its generation. -/
def deployedFiles : StoreFiles :=
  ⟨AList.singleton (snapshotName 1 sampleArtifactId) (.regular (soleBytes deployEnvelope deployJson)), ∅⟩

theorem deployRoot_facts :
    deployStore.managedSecretRetentionSet deployCodec deployRoot = .ok [deployKey.retention] ∧
      deployStore.loadLocked deployedFiles =
        .ok ⟨1, 1, { Inventory.empty with managedSshKeys := [deployKey] }⟩ := by
  delta deployStore deployCodec deployRoot deployedFiles deployOwner deployJson deployEnvelope
    sampleStoreId
  repeat rewrite [String.toList_ofList]
  decide +kernel

theorem retention_safe_deploy :
    ({ Inventory.empty with managedSshKeys := [deployKey] } : Inventory).managedSshKeys.Forall
      fun key => key.retention ∈ [deployKey.retention] := by
  refine List.forall_iff_forall_mem.mpr ?_
  obtain ⟨hscan, hload⟩ := deployRoot_facts
  refine retention_safe deployStore deployCodec deployRoot _ deployedFiles _ hscan ?_ hload
  intro slot name hmem generation hparse
  refine .inr (.inr ⟨snapshotTempName sampleArtifactId, isSnapshotTempName_temp _, ?_⟩)
  cases slot with
  | a =>
      obtain rfl : name = snapshotName 1 sampleArtifactId := List.mem_singleton.mp hmem
      rfl
  | b => exact absurd hmem (AList.notMem_empty name)

end Netcatty.Vault
