import Netcatty.Credentials.Accounts
import Netcatty.Library.Attempt
import Netcatty.Secret.SerdeText
import Netcatty.Vault.Commitment
import Netcatty.Vault.Loading

/-! # The journal of a credential transaction

The desktop changes the vault and the accounts of the keyring in one transaction.  What it may have to
undo is written to a journal before the first account is touched: for each owner, whether its account
was empty or has been backed up.  The journal has two slots.  A generation is written to the slot of
its parity under a temporary name, takes the place of the one before the last, and is read again.

JSON and SHA-256 are the fields of `JournalSerde`.  A call takes the handle that it is made on, the
generation that was last seen, and returns the new one. -/

namespace Netcatty.Desktop

open Crash FileSystem
open Credentials (LegacyImportCredentialOwnerKind)
open Secret (Uuid)
open Vault (SavedVaultGraphCommitment Slot Text isOpaqueId)

def journalMagic : Text := "netcatty-legacy-credential-import-transaction".toList
def legacyJournalFormatVersion : ℕ := 2
def blobJournalFormatVersion : ℕ := 3
def ownerJournalFormatVersion : ℕ := 4
def proxyJournalFormatVersion : ℕ := 5
def journalFormatVersion : ℕ := 6
def maxEntries : ℕ := 10000
def maxOwnerIdBytes : ℕ := 512
def maxJsonEscapedOwnerIdBytes : ℕ := maxOwnerIdBytes * 2

def maxJournalEntryFixedBytes : ℕ :=
  "\x7b\"ownerKind\":\"passwordIdentity\",\"ownerId\":\"\",\"previous\":\"backedUp\"\x7d".toList.length

/-- The envelope without entries, each scalar at its longest. -/
def maxJournalEnvelopeFixedBytes : ℕ :=
  "\x7b\"magic\":\"\",\"formatVersion\":,\"slot\":\"\",\"generation\":,".toList.length +
    "\"transactionId\":\"\",\"beforeGraphCommitment\":\"\",".toList.length +
    "\"afterGraphCommitment\":\"\",\"requiresBlobPublication\":,".toList.length +
    "\"phase\":\"\",\"entries\":[],\"checksum\":\"\"\x7d".toList.length +
    journalMagic.length + 1 + 1 + 20 + 36 + 64 + 64 + 5 + "rollbackTargetsRestored".toList.length + 64

@[irreducible] def maxJournalBytes : ℕ :=
  maxJournalEnvelopeFixedBytes +
    maxEntries * (maxJsonEscapedOwnerIdBytes + maxJournalEntryFixedBytes) + (maxEntries - 1)

/-! ### Entries -/

inductive LegacyPreviousCredentialState
  | unknown | absent | backedUp
  deriving DecidableEq

inductive LegacyImportTransactionPhase
  | preparing | blobsDurable | active | vaultDurable | rollbackTargetsRestored
  deriving DecidableEq

structure LegacyImportCredentialOwner where
  kind : LegacyImportCredentialOwnerKind
  id : Text
  deriving DecidableEq

structure LegacyImportTransactionEntry where
  ownerKind : LegacyImportCredentialOwnerKind
  ownerId : Text
  previous : LegacyPreviousCredentialState
  deriving DecidableEq

namespace LegacyImportTransactionEntry

def new (owner : LegacyImportCredentialOwner) : LegacyImportTransactionEntry :=
  ⟨owner.kind, owner.id, .unknown⟩

def owner (entry : LegacyImportTransactionEntry) : LegacyImportCredentialOwner :=
  ⟨entry.ownerKind, entry.ownerId⟩

/-- What the entry says once the state before the transaction is known. -/
def record (previous : LegacyPreviousCredentialState) (entry : LegacyImportTransactionEntry) :
    LegacyImportTransactionEntry := { entry with previous := previous }

@[simp] theorem owner_record (previous : LegacyPreviousCredentialState)
    (entry : LegacyImportTransactionEntry) : (entry.record previous).owner = entry.owner := rfl

@[simp] theorem previous_record (previous : LegacyPreviousCredentialState)
    (entry : LegacyImportTransactionEntry) : (entry.record previous).previous = previous := rfl

/-- An entry is its owner with the state. -/
theorem ext_owner {entry entry' : LegacyImportTransactionEntry} (howner : entry.owner = entry'.owner)
    (hprevious : entry.previous = entry'.previous) : entry = entry' := by
  cases entry
  cases entry'
  cases howner
  cases hprevious
  rfl

end LegacyImportTransactionEntry

inductive LegacyImportTransactionError
  | storage | serialization | invalidLayout | recoverySlotsUnavailable | existingTransaction
  | missingTransaction | concurrentMutation | generationOverflow | tooManyEntries | journalTooLarge
  | duplicateCredentialOwner | unknownCredentialOwner | incompletePreviousStateMap
  | invalidStateTransition | publicationVerificationFailed
  deriving DecidableEq

/-! ### Envelopes -/

/-- The fields that the checksum covers. -/
structure ChecksumPayload where
  magic : Text
  formatVersion : ℕ
  slot : Slot
  generation : ℕ
  transactionId : Uuid
  beforeGraphCommitment : SavedVaultGraphCommitment
  afterGraphCommitment : SavedVaultGraphCommitment
  requiresBlobPublication : Bool
  phase : LegacyImportTransactionPhase
  entries : List LegacyImportTransactionEntry
  deriving DecidableEq

structure JournalEnvelope extends ChecksumPayload where
  checksum : Text
  deriving DecidableEq

/-- The codecs that the journal relies on. -/
structure JournalSerde where
  toVec : JournalEnvelope → Option Bytes
  deserializeEnvelope : Bytes → Option JournalEnvelope
  payloadToVec : ChecksumPayload → Option Bytes
  sha256 : Bytes → Bytes

/-- The owners that an entry can name in a format. -/
def ownerKindInFormat (formatVersion : ℕ) (kind : LegacyImportCredentialOwnerKind) : Bool :=
  match kind with
  | .host => true
  | .passwordIdentity => ownerJournalFormatVersion ≤ formatVersion
  | .hostInlineProxy | .proxyProfile => proxyJournalFormatVersion ≤ formatVersion
  | .hostTelnet | .groupSsh | .groupTelnet | .groupProxy => journalFormatVersion ≤ formatVersion

def validatePhaseForFormat (formatVersion : ℕ) (requiresBlobPublication : Bool)
    (phase : LegacyImportTransactionPhase) : Except LegacyImportTransactionError Unit :=
  if formatVersion = legacyJournalFormatVersion then
    if !requiresBlobPublication && phase ≠ .blobsDurable then .ok ()
    else .error .invalidStateTransition
  else if blobJournalFormatVersion ≤ formatVersion ∧ formatVersion ≤ journalFormatVersion then
    if requiresBlobPublication || phase ≠ .blobsDurable then .ok ()
    else .error .invalidStateTransition
  else .error .invalidStateTransition

def validateTransactionId (transactionId : Uuid) : Except LegacyImportTransactionError Unit :=
  if transactionId.isRandom then .ok () else .error .invalidStateTransition

def validateGraphCommitments (before after : SavedVaultGraphCommitment) :
    Except LegacyImportTransactionError Unit :=
  if before = after then .error .invalidStateTransition else .ok ()

/-- The loop over the entries, with the owners that it has met. -/
def validateOwners (owners : List LegacyImportCredentialOwner) :
    List LegacyImportTransactionEntry → Except LegacyImportTransactionError Unit
  | [] => .ok ()
  | entry :: entries =>
      if !isOpaqueId entry.ownerId then .error .invalidStateTransition
      else if entry.owner ∈ owners then .error .duplicateCredentialOwner
      else validateOwners (entry.owner :: owners) entries

def validateEntries (entries : List LegacyImportTransactionEntry) :
    Except LegacyImportTransactionError Unit :=
  if maxEntries < entries.length then .error .tooManyEntries else validateOwners [] entries

section Serde

variable (S : JournalSerde)

def journalChecksum (payload : ChecksumPayload) : Except LegacyImportTransactionError Text :=
  if payload.formatVersion < legacyJournalFormatVersion ∨
      journalFormatVersion < payload.formatVersion then .error .serialization
  else if payload.formatVersion = legacyJournalFormatVersion ∧
      (payload.requiresBlobPublication ∨ payload.phase = .blobsDurable) then .error .serialization
  else if payload.entries.all fun entry => ownerKindInFormat payload.formatVersion entry.ownerKind then
    match S.payloadToVec payload with
    | some encoded => .ok (Secret.hexEncode (S.sha256 encoded))
    | none => .error .serialization
  else .error .serialization

def newWithBlobPublication (slot : Slot) (generation : ℕ) (transactionId : Uuid)
    (before after : SavedVaultGraphCommitment) (requiresBlobPublication : Bool)
    (phase : LegacyImportTransactionPhase) (entries : List LegacyImportTransactionEntry) :
    Except LegacyImportTransactionError JournalEnvelope := do
  if generation = 0 ∨ Slot.forGeneration generation ≠ slot then throw .invalidStateTransition
  validatePhaseForFormat journalFormatVersion requiresBlobPublication phase
  validateTransactionId transactionId
  validateGraphCommitments before after
  validateEntries entries
  let payload : ChecksumPayload :=
    ⟨journalMagic, journalFormatVersion, slot, generation, transactionId, before, after,
      requiresBlobPublication, phase, entries⟩
  let checksum ← journalChecksum S payload
  return ⟨payload, checksum⟩

/-- What is read from a slot is accepted. -/
def JournalEnvelope.validate (envelope : JournalEnvelope) (expectedSlot : Slot) : Bool :=
  envelope.magic = journalMagic &&
  (legacyJournalFormatVersion ≤ envelope.formatVersion &&
    envelope.formatVersion ≤ journalFormatVersion) &&
  envelope.slot = expectedSlot && envelope.generation ≠ 0 &&
  Slot.forGeneration envelope.generation = expectedSlot &&
  (validatePhaseForFormat envelope.formatVersion envelope.requiresBlobPublication
    envelope.phase).isOk &&
  (validateTransactionId envelope.transactionId).isOk &&
  (validateGraphCommitments envelope.beforeGraphCommitment envelope.afterGraphCommitment).isOk &&
  (validateEntries envelope.entries).isOk &&
  (journalChecksum S envelope.toChecksumPayload).toOption = some envelope.checksum

/-! ### Slots -/

inductive JournalName
  | slot (slot : Slot)
  | temp (id : Uuid)
  deriving DecidableEq

abbrev JournalDirectory := Directory JournalName

inductive SlotProbe
  | missing
  | valid (envelope : JournalEnvelope)
  | corrupt
  deriving DecidableEq

def probeSlot (d : JournalDirectory) (slot : Slot) : SlotProbe :=
  match d.lookup (.slot slot) with
  | none => .missing
  | some .irregular => .corrupt
  | some (.regular encoded) =>
      if maxJournalBytes < encoded.length then .corrupt
      else
        match S.deserializeEnvelope encoded with
        | none => .corrupt
        | some envelope => if envelope.validate S slot then .valid envelope else .corrupt

def preparingEntriesAdvanceOnce (older newer : List LegacyImportTransactionEntry) : Bool :=
  (older.zip newer).all (fun pair =>
    pair.1.previous = pair.2.previous || pair.1.previous = .unknown) &&
  (older.zip newer).countP (fun pair => pair.1.previous ≠ pair.2.previous) = 1

def preparingEntriesActivate (older newer : List LegacyImportTransactionEntry) : Bool :=
  (older.zip newer).all fun pair =>
    pair.2.previous ≠ .unknown &&
      (pair.1.previous = .unknown || pair.1.previous = pair.2.previous)

/-- What may stand in the older and in the newer slot. -/
def transitionIsValid (requiresBlobs : Bool) (older newer : LegacyImportTransactionPhase)
    (olderEntries newerEntries : List LegacyImportTransactionEntry) : Bool :=
  match older, newer with
  | .preparing, .preparing => preparingEntriesAdvanceOnce olderEntries newerEntries
  | .preparing, .active => !requiresBlobs && preparingEntriesActivate olderEntries newerEntries
  | .preparing, .blobsDurable => requiresBlobs && olderEntries = newerEntries
  | .blobsDurable, .blobsDurable => requiresBlobs && olderEntries = newerEntries
  | .blobsDurable, .active => requiresBlobs && preparingEntriesActivate olderEntries newerEntries
  | .active, .active
  | .active, .rollbackTargetsRestored
  | .rollbackTargetsRestored, .rollbackTargetsRestored
  | .active, .vaultDurable
  | .vaultDurable, .vaultDurable => olderEntries = newerEntries
  | _, _ => false

def validateSlotPair (left right : JournalEnvelope) : Bool :=
  left.transactionId = right.transactionId &&
  left.beforeGraphCommitment = right.beforeGraphCommitment &&
  left.afterGraphCommitment = right.afterGraphCommitment &&
  left.requiresBlobPublication = right.requiresBlobPublication &&
  (left.generation + 1 = right.generation || right.generation + 1 = left.generation) &&
  left.entries.map (·.owner) = right.entries.map (·.owner) &&
  let older := if left.generation < right.generation then left else right
  let newer := if left.generation < right.generation then right else left
  older.formatVersion ≤ newer.formatVersion &&
  transitionIsValid newer.requiresBlobPublication older.phase newer.phase older.entries
    newer.entries

/-- The pair of slots, as it is loaded. -/
def loadPair : SlotProbe → SlotProbe →
    Except LegacyImportTransactionError (Option JournalEnvelope)
  | .missing, .missing => .ok none
  | .valid left, .valid right =>
      if validateSlotPair left right then
        .ok (some (if right.generation < left.generation then left else right))
      else .error .recoverySlotsUnavailable
  | .valid envelope, _ => .ok (some envelope)
  | _, .valid envelope => .ok (some envelope)
  | _, _ => .error .recoverySlotsUnavailable

def loadEnvelope (d : JournalDirectory) :
    Except LegacyImportTransactionError (Option JournalEnvelope) :=
  loadPair (probeSlot S d .a) (probeSlot S d .b)

/-- Both slots say of the transaction of the handle what is asked. -/
def bothSlotsHaveSemantics (d : JournalDirectory) (handle : JournalEnvelope)
    (phase : LegacyImportTransactionPhase) : Bool :=
  match probeSlot S d .a, probeSlot S d .b with
  | .valid left, .valid right =>
      validateSlotPair left right && [left, right].all fun envelope =>
        envelope.transactionId = handle.transactionId &&
        envelope.beforeGraphCommitment = handle.beforeGraphCommitment &&
        envelope.afterGraphCommitment = handle.afterGraphCommitment &&
        envelope.requiresBlobPublication = handle.requiresBlobPublication &&
        envelope.phase = phase && envelope.entries = handle.entries
  | _, _ => false

/-! ### Writing -/

abbrev JournalAttempt (α : Type) :=
  Attempt JournalDirectory (Choice Uuid) LegacyImportTransactionError α

/-- A call of the file system. -/
def orStorage (m : DirectoryProg JournalName Uuid (Except IoError Unit)) : JournalAttempt Unit :=
  Attempt.orFail .storage m

def removeSlotIfPresent (slot : Slot) : JournalAttempt Unit := do
  let d ← Attempt.get
  match d.lookup (.slot slot) with
  | none => return
  | some .irregular => throw .invalidLayout
  | some (.regular _) => orStorage (removeFile (.slot slot))

def publishSlot (id : Uuid) (slot : Slot) (encoded : Bytes) : JournalAttempt Unit := do
  orStorage (createNew (.temp id))
  orStorage (writeAll (.temp id) encoded)
  orStorage syncAll
  removeSlotIfPresent slot
  orStorage (rename (.temp id) (.slot slot))
  orStorage syncAll

def writeSlot (envelope : JournalEnvelope) : JournalAttempt Unit := do
  match S.toVec envelope with
  | none => throw .serialization
  | some encoded =>
      if maxJournalBytes < encoded.length then throw .journalTooLarge
      else
        let id ← Attempt.always drawId
        match ← (publishSlot id envelope.slot encoded).outcome with
        | .error error =>
            let _ ← Attempt.always (removeFile (.temp id))
            throw error
        | .ok () =>
            let d ← Attempt.get
            if probeSlot S d envelope.slot = .valid envelope then return
            else throw .publicationVerificationFailed

/-- The next generation. -/
def nextEnvelope (handle : JournalEnvelope) (phase : LegacyImportTransactionPhase)
    (entries : List LegacyImportTransactionEntry) :
    Except LegacyImportTransactionError JournalEnvelope :=
  if 2 ^ 64 ≤ handle.generation + 1 then .error .generationOverflow
  else newWithBlobPublication S handle.slot.other (handle.generation + 1) handle.transactionId
    handle.beforeGraphCommitment handle.afterGraphCommitment handle.requiresBlobPublication phase
    entries

/-- The journal has to stand where the handle has seen it. -/
def expectCurrent (d : JournalDirectory) (handle : JournalEnvelope) :
    Except LegacyImportTransactionError Unit := do
  match ← loadEnvelope S d with
  | none => throw .missingTransaction
  | some current => if current = handle then return else throw .concurrentMutation

def publishNext (handle : JournalEnvelope) (phase : LegacyImportTransactionPhase)
    (entries : List LegacyImportTransactionEntry) : JournalAttempt JournalEnvelope := do
  let d ← Attempt.get
  Attempt.ofExcept (expectCurrent S d handle)
  let next ← Attempt.ofExcept (nextEnvelope S handle phase entries)
  writeSlot S next
  return next

/-! ### Calls -/

def beginForOwners (owners : List LegacyImportCredentialOwner)
    (before after : SavedVaultGraphCommitment) (requiresBlobPublication : Bool) :
    JournalAttempt JournalEnvelope := do
  Attempt.ofExcept (validateGraphCommitments before after)
  let entries := owners.map .new
  Attempt.ofExcept (validateEntries entries)
  let d ← Attempt.get
  match ← Attempt.ofExcept (loadEnvelope S d) with
  | some _ => throw .existingTransaction
  | none =>
      let transactionId ← Attempt.always drawId
      let envelope ← Attempt.ofExcept (newWithBlobPublication S .a 1 transactionId before after
        requiresBlobPublication .preparing entries)
      writeSlot S envelope
      return envelope

def recordPreviousForOwner (handle : JournalEnvelope) (owner : LegacyImportCredentialOwner)
    (previous : LegacyPreviousCredentialState) : JournalAttempt JournalEnvelope := do
  if handle.phase ≠ .preparing ∨ previous = .unknown then throw .invalidStateTransition
  else
    match handle.entries.find? (·.owner = owner) with
    | none => throw .unknownCredentialOwner
    | some entry =>
        if entry.previous = .unknown then
          publishNext S handle handle.phase
            (handle.entries.modify (handle.entries.findIdx (·.owner = owner)) (·.record previous))
        else if entry.previous = previous then return handle
        else throw .invalidStateTransition

/-- A phase is written until both slots carry it. -/
def markPhase (source target : LegacyImportTransactionPhase) (handle : JournalEnvelope) :
    JournalAttempt JournalEnvelope := do
  let d ← Attempt.get
  if handle.phase = target ∧ bothSlotsHaveSemantics S d handle target then return handle
  else if handle.phase = source ∨ handle.phase = target then
    let next ← publishNext S handle target handle.entries
    let d ← Attempt.get
    if bothSlotsHaveSemantics S d next target then return next
    else publishNext S next target next.entries
  else throw .invalidStateTransition

def markBlobsDurable (handle : JournalEnvelope) : JournalAttempt JournalEnvelope :=
  if handle.requiresBlobPublication then markPhase S .preparing .blobsDurable handle
  else throw .invalidStateTransition

def markRollbackTargetsRestored : JournalEnvelope → JournalAttempt JournalEnvelope :=
  markPhase S .active .rollbackTargetsRestored

def markVaultDurable : JournalEnvelope → JournalAttempt JournalEnvelope :=
  markPhase S .active .vaultDurable

abbrev PreviousState := LegacyImportCredentialOwner × LegacyPreviousCredentialState

/-- The states as they are supplied, each owner once. -/
def supplyPrevious (entries : List LegacyImportTransactionEntry) (supplied : List PreviousState) :
    List PreviousState → Except LegacyImportTransactionError (List PreviousState)
  | [] => .ok supplied
  | state :: states =>
      if state.2 = .unknown then .error .invalidStateTransition
      else if state.1 ∉ entries.map (·.owner) then .error .unknownCredentialOwner
      else if state.1 ∈ supplied.map Prod.fst then .error .duplicateCredentialOwner
      else supplyPrevious entries (state :: supplied) states

def activatedEntries : List PreviousState → List LegacyImportTransactionEntry →
    Except LegacyImportTransactionError (List LegacyImportTransactionEntry)
  | _, [] => .ok []
  | supplied, entry :: entries => do
      match supplied.find? (·.1 = entry.owner) with
      | none => throw .incompletePreviousStateMap
      | some state =>
          if entry.previous ≠ .unknown ∧ entry.previous ≠ state.2 then throw .invalidStateTransition
          else
            let rest ← activatedEntries (supplied.filter (·.1 ≠ entry.owner)) entries
            return entry.record state.2 :: rest

/-- The entries with the states that are supplied for all of them. -/
def completedEntries (entries : List LegacyImportTransactionEntry) (states : List PreviousState) :
    Except LegacyImportTransactionError (List LegacyImportTransactionEntry) := do
  let supplied ← supplyPrevious entries [] states
  if supplied.length ≠ entries.length then throw .incompletePreviousStateMap
  else activatedEntries supplied entries

/-- The phase from which a transaction can be activated. -/
def activationSource (handle : JournalEnvelope) : LegacyImportTransactionPhase :=
  if handle.requiresBlobPublication then .blobsDurable else .preparing

def activateForOwners (handle : JournalEnvelope) (states : List PreviousState) :
    JournalAttempt JournalEnvelope := do
  let d ← Attempt.get
  if handle.phase ≠ activationSource handle then throw .invalidStateTransition
  else if handle.requiresBlobPublication ∧ ¬bothSlotsHaveSemantics S d handle .blobsDurable then
    throw .invalidStateTransition
  else
    let entries ← Attempt.ofExcept (completedEntries handle.entries states)
    let next ← publishNext S handle .active entries
    publishNext S next .active entries

/-- The older slot goes first. -/
def finish (handle : JournalEnvelope) : JournalAttempt Unit := do
  let d ← Attempt.get
  Attempt.ofExcept (expectCurrent S d handle)
  removeSlotIfPresent handle.slot.other
  orStorage syncAll
  removeSlotIfPresent handle.slot
  orStorage syncAll

end Serde

end Netcatty.Desktop
