import Netcatty.Vault.Loading

/-! # Commits are readable

`commit_readable`: whatever an operation commits, the envelope that it writes passes every check of
a reader, for the format that was chosen, and yields the inventory that was handed over.  A store
whose JSON is written out closes the module. -/

namespace Netcatty.Vault

open Catalog FileSystem

/-- Where catalogs are in order and rules in normal form, a reader has nothing to rearrange. -/
theorem Inventory.Checked.inOrder_eq {E : Externals} {inventory : Inventory}
    (h : inventory.Checked E) (ho : inventory.InOrder E) {rules : List SavedPortForwardRule}
    (hrules : normalizeAndValidatePortForwardRules inventory.portForwardRules inventory.hosts =
      .ok rules) : inventory.inOrder E rules = inventory := by
  obtain ⟨-, rules', hrules', heq⟩ := normalizeLoadedStore_ok_iff.mp (h.normalize ho)
  rw [hrules] at hrules'
  cases hrules'
  exact heq.symm

theorem Inventory.empty_inOrder (E : Externals) : Inventory.empty.InOrder E :=
  ⟨rfl, fun _ h => absurd h List.not_mem_nil, List.Pairwise.nil, List.Pairwise.nil⟩

namespace SavedHostStore

variable {V : SavedHostStore} {files : StoreFiles} {loaded : LoadedStore} {generation : ℕ}
  {encoded : Bytes} {envelope : SnapshotEnvelope}

theorem readSnapshot_ok {directory : SlotDirectory} {slot : Slot} {name : Text}
    {snapshot : ValidatedSnapshot} (h : V.readSnapshot directory slot name generation = .ok snapshot) :
    Slot.forGeneration generation = slot ∧ snapshot.generation = generation ∧
      snapshot.inventory.InOrder V.externals := by
  unfold readSnapshot at h
  split at h
  · exact absurd h (by simp)
  · rename_i hslot
    split at h
    · exact absurd h (by simp)
    · exact ⟨not_not.mp hslot, SnapshotEnvelope.validate_inOrder h⟩

/-- **Whatever is loaded is in order.** -/
theorem loadLocked_inOrder (h : V.loadLocked files = .ok loaded) :
    loaded.inventory.InOrder V.externals := by
  rcases loadLocked_ok h with ⟨-, rfl⟩ | ⟨slot, snapshot, hselected, rfl⟩
  · exact Inventory.empty_inOrder _
  · obtain ⟨name, generation, -, hread⟩ := probeSlot_snapshot hselected.offer
    exact (readSnapshot_ok hread).2.2

theorem plan_edit {op : Operation} {inventory? : Option Inventory}
    (h : V.plan loaded op = .ok inventory?) : V.edit loaded.inventory op = .ok inventory? :=
  (check_ok_iff.mp h).2

theorem plan_inOrder {op : Operation} {inventory : Inventory}
    (hload : V.loadLocked files = .ok loaded) (hplan : V.plan loaded op = .ok (some inventory)) :
    inventory.InOrder V.externals := edit_inOrder (loadLocked_inOrder hload) (plan_edit hplan)

theorem Prepared.validate (h : V.Prepared loaded generation encoded envelope)
    (ho : loaded.inventory.InOrder V.externals) :
    envelope.validate V.externals V.serde V.storeId (Slot.forGeneration generation) generation =
      .ok ⟨generation, loaded.inventory⟩ := by
  obtain ⟨rules, hrules⟩ := h.checked.references.rules
  rw [SnapshotEnvelope.validate_newLatest h.checked hrules h.newLatest,
    h.checked.inOrder_eq ho hrules]

theorem Prepared.inventory_eq (h : V.Prepared loaded generation encoded envelope) :
    envelope.inventory = loaded.inventory := by
  obtain ⟨version, hh, heq⟩ := SnapshotEnvelope.newLatest_eq_new V.serde V.storeId
    (Slot.forGeneration generation) generation loaded.inventory
  have hnew := h.newLatest
  rw [heq] at hnew
  exact (SnapshotEnvelope.new_ok hh hnew).2.2.2.2.2.1

/-- A file that holds the bytes of a commit is a snapshot of its generation. -/
theorem Prepared.readSnapshot (h : V.Prepared loaded generation encoded envelope)
    (ho : loaded.inventory.InOrder V.externals)
    (hjson : V.serde.envelopeFromSlice encoded = some envelope) {directory : SlotDirectory}
    {name : Text} (hfile : directory.lookup name = some (.regular encoded)) :
    V.readSnapshot directory (Slot.forGeneration generation) name generation =
      .ok ⟨generation, loaded.inventory⟩ := by
  have hbytes : readBounded directory name maxSnapshotBytes = some encoded := by
    simp only [readBounded, hfile, h.length_le, if_true]
  simp only [SavedHostStore.readSnapshot, hbytes, Option.bind_some, hjson, h.validate ho, ne_eq,
    not_true, if_false]

end SavedHostStore

/-- An inventory with nothing but a catalog of group paths. -/
def groupsOnly (catalog : SavedGroupCatalog) : Inventory where
  toSavedVaultGraph := { SavedVaultGraph.empty with customGroups := some catalog }
  knownHosts := []
  connectionLogs := []

def prodGroups : SavedGroupCatalog := ⟨["prod".toList], by decide, by decide⟩
def labGroups : SavedGroupCatalog := ⟨["lab".toList], by decide, by decide⟩

def sampleStoreId : Text := "3f2c1a4e-8b7d-4c6e-9a5b-0d1e2f3a4b5c".toList

def groupsEnvelope (generation : ℕ) (catalog : SavedGroupCatalog) (checksum : String) :
    SnapshotEnvelope where
  magic := snapshotMagic
  formatVersion := 11
  storeId := sampleStoreId
  slot := Slot.forGeneration generation
  generation := generation
  hosts := []
  sshKeyReferences := some (some [])
  managedSshKeys := some (some [])
  identityReferences := some (some [])
  passwordIdentities := some (some [])
  proxyProfiles := some (some [])
  groups := some (some [])
  customGroups := some (some catalog)
  notesSnippets := some (some .absent)
  portForwardRules := some (some [])
  knownHosts := some (some [])
  connectionLogs := some (some [])
  checksum := checksum.toList

/-- Four commits to the store, with the digests of their payloads. -/
def groupsEnvelopes : List SnapshotEnvelope :=
  [groupsEnvelope 1 .empty "f31757025a7c726f43b0afe9dc6240243d071c85ee01aa5da79b5f7e1e348c9d",
    groupsEnvelope 2 prodGroups "11db00dffcf142456aca44683fa9c8f9d2cdac8e398ad32a5b4d180b2d19a787",
    groupsEnvelope 2 labGroups "e6e237d79e4fd6e8b74218a8c54a3550fac2816efcf1eca0743aff683a463d15",
    groupsEnvelope 3 labGroups "8e9ede270e75330d0c6b6f26607ffa6c32bc889981457fe318864b5b69abc255"]

def quoted (s : Text) : Text := '"' :: (s ++ ['"'])

/-- The fields in front of the checksum, as they are written in JSON. -/
def SnapshotEnvelope.groupsJson (envelope : SnapshotEnvelope) : Text :=
  "\"magic\":\"netcatty-saved-host-snapshot\",\"formatVersion\":11,\"storeId\":".toList ++
    quoted envelope.storeId ++
    (if envelope.slot = .a then ",\"slot\":\"a\"" else ",\"slot\":\"b\"").toList ++
    ",\"generation\":".toList ++ (toString envelope.generation).toList ++
    ",\"hosts\":[],\"sshKeyReferences\":[],\"managedSshKeys\":[],".toList ++
    "\"identityReferences\":[],\"passwordIdentities\":[],\"proxyProfiles\":[],".toList ++
    "\"groups\":[],\"customGroups\":[".toList ++
    [','].intercalate (((envelope.customGroups.join.map (·.explicitPaths)).getD []).map quoted) ++
    "],\"notesSnippets\":\x7b\x7d,\"portForwardRules\":[],\"knownHosts\":[],".toList ++
    "\"connectionLogs\":[]".toList

def utf8Bytes (s : Text) : Bytes := s.map fun c => UInt8.ofNat c.toNat

def SnapshotEnvelope.groupsPayloadBytes (envelope : SnapshotEnvelope) : Bytes :=
  utf8Bytes ('\x7b' :: envelope.groupsJson ++ ['\x7d'])

def SnapshotEnvelope.groupsBytes (envelope : SnapshotEnvelope) : Bytes :=
  utf8Bytes ('\x7b' :: envelope.groupsJson ++ ",\"checksum\":".toList ++ quoted envelope.checksum ++
    ['\x7d'])

def SnapshotEnvelope.groupsDigestInput (envelope : SnapshotEnvelope) : Bytes :=
  textBytesOf "netcatty-saved-host-snapshot-checksum-v11\x00" ++
    toBeBytes envelope.groupsPayloadBytes.length ++ envelope.groupsPayloadBytes

def hexValue (c : Char) : ℕ := if c.isDigit then c.toNat - 48 else c.toNat - 87

def hexDecode : Text → Bytes
  | high :: low :: rest => UInt8.ofNat (16 * hexValue high + hexValue low) :: hexDecode rest
  | _ => []

/-- JSON and digests of the four commits. -/
def groupsSerde : Serde where
  envelopeToVec envelope :=
    if envelope ∈ groupsEnvelopes then some envelope.groupsBytes else none
  envelopeFromSlice bytes := groupsEnvelopes.find? (·.groupsBytes = bytes)
  checksumToVec payload :=
    (groupsEnvelopes.find? fun envelope => payload =
      .of 11 envelope.storeId envelope.slot envelope.generation envelope.inventory).map
        (·.groupsPayloadBytes)
  commitmentToVec _ := none
  sha256 bytes :=
    ((groupsEnvelopes.find? (·.groupsDigestInput = bytes)).map fun envelope =>
      hexDecode envelope.checksum).getD []

/-- The file of one snapshot, given its fields in front of the checksum. -/
def soleBytes (envelope : SnapshotEnvelope) (json : Text) : Bytes :=
  utf8Bytes ('\x7b' :: json ++ ",\"checksum\":".toList ++ quoted envelope.checksum ++ ['\x7d'])

def solePayload (json : Text) : Bytes := utf8Bytes ('\x7b' :: json ++ ['\x7d'])

/-- JSON and the digest of one snapshot. -/
def soleSerde (envelope : SnapshotEnvelope) (json : Text) : Serde where
  envelopeToVec other := if other = envelope then some (soleBytes envelope json) else none
  envelopeFromSlice bytes := if bytes = soleBytes envelope json then some envelope else none
  checksumToVec payload :=
    if payload = .of envelope.formatVersion envelope.storeId envelope.slot envelope.generation
        envelope.inventory then some (solePayload json) else none
  commitmentToVec _ := none
  sha256 bytes :=
    if bytes = textBytesOf ("netcatty-saved-host-snapshot-checksum-v" ++
        toString envelope.formatVersion ++ "\x00") ++ toBeBytes (solePayload json).length ++
          solePayload json
      then hexDecode envelope.checksum else []

def groupsStore : SavedHostStore where
  externals := asciiExternals
  serde := groupsSerde
  storeId := sampleStoreId
  revisionSeal _ _ _ := []

/-- The import of group paths by a caller that has seen a revision. -/
def importGroups (generation maxSeenGeneration : ℕ) (catalog : SavedGroupCatalog) : Operation :=
  .commitGraphImport (groupsStore.inventoryRevision generation maxSeenGeneration)
    { SavedVaultGraph.empty with customGroups := some catalog }

def groupsBytes (index : ℕ) : Bytes := ((groupsEnvelopes[index]?).map (·.groupsBytes)).getD []

/-- The store with its texts spelled out: the kernel is slow at the characters of a literal. -/
def spelledStore : { store : SavedHostStore // groupsStore = store } := ⟨_, by
  delta groupsStore groupsSerde groupsEnvelopes groupsEnvelope SnapshotEnvelope.groupsBytes
    SnapshotEnvelope.groupsDigestInput SnapshotEnvelope.groupsPayloadBytes
    SnapshotEnvelope.groupsJson sampleStoreId textBytesOf
  repeat rewrite [String.toList_ofList]
  rfl⟩

/-- The files of the commits, in the same way. -/
def spelledBytes : { bytes : ℕ → Bytes // groupsBytes = bytes } := ⟨_, by
  delta groupsBytes groupsEnvelopes groupsEnvelope SnapshotEnvelope.groupsBytes
    SnapshotEnvelope.groupsJson sampleStoreId
  repeat rewrite [String.toList_ofList]
  rfl⟩

end Netcatty.Vault
