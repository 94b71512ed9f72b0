import Netcatty.Library.FileSystem
import Netcatty.Vault.Import
import Netcatty.Vault.Names

/-! # The saved-host store

The store keeps immutable snapshots in two directories, the slots, which take the odd and the even
generations.  `loadLocked` selects the newer of the two slots' newest snapshots, where they can be
read.  `commitLocked` publishes the next generation: the bytes go to a file of their own, which is
then linked under the name of the snapshot; after a durable publication, older snapshots of the
slot are removed.  Every call of the file system is a step, which may fail and in front of which the
machine may stop. -/

namespace Netcatty.Vault

open Catalog Crash FileSystem

/-! ### Files -/

abbrev SlotDirectory := Directory Text

abbrev SlotProg := DirectoryProg Text ArtifactId

/-- The contents of the two slot directories. -/
structure StoreFiles where
  slotA : SlotDirectory
  slotB : SlotDirectory

def StoreFiles.empty : StoreFiles := ⟨∅, ∅⟩

def StoreFiles.directory (files : StoreFiles) : Slot → SlotDirectory
  | .a => files.slotA
  | .b => files.slotB

def StoreFiles.setDirectory (files : StoreFiles) (directory : SlotDirectory) : Slot → StoreFiles
  | .a => { files with slotA := directory }
  | .b => { files with slotB := directory }

/-- A process that has the store open; `revisionSeal` is `inventory_revision_seal`. -/
structure SavedHostStore where
  externals : Externals
  serde : Serde
  storeId : Text
  revisionSeal : Text → ℕ → ℕ → Text

inductive SavedVaultCommitDurability
  | durable
  | publishedDurabilityUncertain
  | publicationIndeterminate
  deriving DecidableEq, Repr

structure CommitPublication where
  generation : ℕ
  durability : SavedVaultCommitDurability
  deriving DecidableEq

structure LoadedStore where
  generation : ℕ
  maxSeenGeneration : ℕ
  inventory : Inventory
  deriving DecidableEq

namespace SavedHostStore

variable (V : SavedHostStore)

/-! ### Reading -/

def readSnapshot (directory : SlotDirectory) (slot : Slot) (name : Text) (generation : ℕ) :
    Except StoreError ValidatedSnapshot :=
  if Slot.forGeneration generation ≠ slot then .error .bothSlotsCorrupt
  else
    match (readBounded directory name maxSnapshotBytes).bind V.serde.envelopeFromSlice with
    | none => .error .bothSlotsCorrupt
    | some envelope => envelope.validate V.externals V.serde V.storeId slot generation

structure SlotProbe where
  empty : Bool
  maxSeen : Option ℕ
  snapshot : Option ValidatedSnapshot

/-- The files that are named as snapshots, with their generations. -/
def snapshotCandidates (directory : SlotDirectory) : List (ℕ × Text) :=
  directory.keys.filterMap fun name => (parseSnapshotName name).map (·, name)

/-- The newest generation of a slot must have one file. -/
def probeSlot (directory : SlotDirectory) (slot : Slot) : SlotProbe :=
  let candidates := snapshotCandidates directory
  match (candidates.map Prod.fst).max? with
  | none => ⟨true, none, none⟩
  | some maxSeen =>
    match candidates.filter (·.1 = maxSeen) with
    | [(generation, name)] =>
      ⟨false, some maxSeen, (V.readSnapshot directory slot name generation).toOption⟩
    | _ => ⟨false, some maxSeen, none⟩

def loadLocked (files : StoreFiles) : Except StoreError LoadedStore :=
  let slotA := V.probeSlot files.slotA .a
  let slotB := V.probeSlot files.slotB .b
  let maxSeenGeneration := max (slotA.maxSeen.getD 0) (slotB.maxSeen.getD 0)
  match slotA.snapshot, slotB.snapshot with
  | none, none =>
    if slotA.empty && slotB.empty then .ok ⟨0, maxSeenGeneration, .empty⟩
    else .error .bothSlotsCorrupt
  | some snapshot, none | none, some snapshot =>
    .ok ⟨snapshot.generation, maxSeenGeneration, snapshot.inventory⟩
  | some left, some right =>
    if left.generation = right.generation then .error .conflictingGeneration
    else
      let snapshot := if right.generation < left.generation then left else right
      .ok ⟨snapshot.generation, maxSeenGeneration, snapshot.inventory⟩

/-! ### Publication -/

/-- `published_bytes_match`. -/
def publishedBytesMatch (name : Text) (encoded : Bytes) (directory : SlotDirectory) : Bool :=
  readBounded directory name encoded.length = some encoded

def ioError : IoError → StoreError
  | .alreadyExists => .artifactConflict
  | .other => .io

/-- The temporary file is written and linked under the final name. -/
def prePublication (tempName finalName : Text) (encoded : Bytes) :
    SlotProg (Except StoreError Unit) := do
  match ← writeAll tempName encoded with
  | .error _ => return .error .io
  | .ok () =>
    match ← syncAll with
    | .error _ => return .error .io
    | .ok () =>
      match ← hardLink tempName finalName with
      | .error error => return .error (ioError error)
      | .ok () => return .ok ()

/-- What is known of a publication once the link is there. -/
def publicationOutcome (finalName : Text) (encoded : Bytes) :
    SlotProg SavedVaultCommitDurability := do
  match ← syncAll with
  | .ok () => return .durable
  | .error _ =>
    match ← inspect (publishedBytesMatch finalName encoded) with
    | .ok true => return .publishedDurabilityUncertain
    | .ok false | .error _ => return .publicationIndeterminate

def confirmPublication (tempName finalName : Text) (encoded : Bytes) :
    SlotProg SavedVaultCommitDurability := do
  let outcome ← publicationOutcome finalName encoded
  if outcome = .publicationIndeterminate then return outcome
  else
    let _ ← removeFile tempName
    let _ ← syncAll
    return outcome

def publishNamedNoOverwrite (finalName : Text) (encoded : Bytes) :
    SlotProg (Except StoreError SavedVaultCommitDurability) := do
  let tempName := snapshotTempName (← drawId)
  match ← createNew tempName with
  | .error error => return .error (ioError error)
  | .ok () =>
    match ← prePublication tempName finalName encoded with
    | .error error =>
      match ← tryExists finalName with
      | .ok false =>
        let _ ← removeFile tempName
        return .error error
      | .ok true | .error _ => return .error error
    | .ok () => return .ok (← confirmPublication tempName finalName encoded)

def publishAttempts : ℕ := 8

/-- Each attempt draws an artifact id; one that is taken leads to the next attempt. -/
def publishSnapshotNoOverwrite (generation : ℕ) (encoded : Bytes) :
    ℕ → SlotProg (Except StoreError SavedVaultCommitDurability)
  | 0 => return .error .artifactConflict
  | attempts + 1 => do
    let finalName := snapshotName generation (← drawId)
    match ← publishNamedNoOverwrite finalName encoded with
    | .error .artifactConflict => publishSnapshotNoOverwrite generation encoded attempts
    | result => return result

/-! ### Cleanup -/

/-- The generation of a temporary file that holds a complete snapshot. -/
def ownedTempGeneration (directory : SlotDirectory) (slot : Slot) (name : Text) : Option ℕ := do
  let encoded ← readBounded directory name maxSnapshotBytes
  let envelope ← V.serde.envelopeFromSlice encoded
  if envelope.generation = 0 ∨ Slot.forGeneration envelope.generation ≠ slot then none
  else
    match envelope.validate V.externals V.serde V.storeId slot envelope.generation with
    | .ok _ => some envelope.generation
    | .error _ => none

def isRemovable (slot : Slot) (published : ℕ) (name : Text) (directory : SlotDirectory) : Bool :=
  match parseSnapshotName name with
  | some generation =>
    generation < published && (V.readSnapshot directory slot name generation).isOk
  | none =>
    isSnapshotTempName name && (V.ownedTempGeneration directory slot name).any (· ≤ published)

/-- Whether any file has been removed. -/
def removeOwnedArtifacts (slot : Slot) (published : ℕ) : List Text → SlotProg Bool
  | [] => return false
  | name :: names => do
    match ← inspect (V.isRemovable slot published name) with
    | .ok true =>
      let removed ← removeFile name
      let removedAny ← removeOwnedArtifacts slot published names
      return removed.isOk || removedAny
    | .ok false | .error _ => removeOwnedArtifacts slot published names

def cleanupOwnedSlotArtifacts (slot : Slot) (published : ℕ) : SlotProg Unit := do
  match ← readDir with
  | .error _ => return ()
  | .ok names =>
    if ← V.removeOwnedArtifacts slot published names then
      let _ ← syncAll

/-! ### Committing -/

/-- The generation and the bytes that a commit publishes. -/
def prepareCommit (loaded : LoadedStore) : Except StoreError (ℕ × Bytes) := do
  checkCommit V.externals loaded.inventory
  let generation := max loaded.maxSeenGeneration loaded.generation + 1
  if 2 ^ 64 ≤ generation then .error .generationOverflow
  let envelope ← SnapshotEnvelope.newLatest V.serde V.storeId (Slot.forGeneration generation)
    generation loaded.inventory
  let encoded ← liftOption .serialization (V.serde.envelopeToVec envelope)
  if maxSnapshotBytes < encoded.length then .error .serialization
  return (generation, encoded)

/-- Publication in the directory of a slot. -/
def publishGeneration (slot : Slot) (generation : ℕ) (encoded : Bytes) :
    SlotProg (Except StoreError SavedVaultCommitDurability) := do
  match ← publishSnapshotNoOverwrite generation encoded publishAttempts with
  | .ok .durable =>
    V.cleanupOwnedSlotArtifacts slot generation
    return .ok .durable
  | result => return result

abbrev StoreProg := Prog StoreFiles (Choice ArtifactId)

def inDirectory {α : Type} (slot : Slot) (program : SlotProg α) : StoreProg α :=
  program.zoom (·.directory slot) fun directory files => files.setDirectory directory slot

def commitLocked (loaded : LoadedStore) : StoreProg (Except StoreError CommitPublication) := do
  match V.prepareCommit loaded with
  | .error error => return .error error
  | .ok (generation, encoded) =>
    let slot := Slot.forGeneration generation
    match ← inDirectory slot (V.publishGeneration slot generation encoded) with
    | .error error => return .error error
    | .ok durability => return .ok ⟨generation, durability⟩

end SavedHostStore

end Netcatty.Vault
