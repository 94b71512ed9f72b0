import Mathlib.Order.Lattice
import Netcatty.Library.SortedMap
import Netcatty.LogExport.Terminal
import Netcatty.Secret.Envelope
import Netcatty.Serial.FileName

/-! # Bundles of the replay store

The replay store keeps its index and every replay in the private key of a secret bundle.  The index
is the entries in the order of their digests, a replay a text with the digest of its log, each behind
a header of a fixed size.

A function that indexes, slices or adds where the source does so without a check returns an
`Option`, in which `none` is a panic. -/

namespace Netcatty.ReplayStore

open BigEndian
open LogExport (usizeLimit addOrPanic)
open Secret (Digest SshSecretBundle asciiBytes)
open Serial (encodeUtf8 decodeUtf8 isControl)
open Vault (Text utf8Len)

def maxConnectionLogRecords : ℕ := 10000
def maxConnectionLogReplayBytes : ℕ := 1000000
def maxIdBytes : ℕ := 512

def indexMagic : Bytes := asciiBytes "NCATIDX1"
def indexFormatVersion : ℕ := 1
def indexHeaderBytes : ℕ := 16
def indexEntryBytes : ℕ := 56
def replayMagic : Bytes := asciiBytes "NCATRPL1"
def replayFormatVersion : ℕ := 1
def replayHeaderBytes : ℕ := 48

/-- The codes of the two codecs. -/
inductive ConnectionLogReplayStoreErrorCode where
  | invalidInput
  | corruptStore
  deriving DecidableEq, Repr

open ConnectionLogReplayStoreErrorCode

abbrev Fallible := Except ConnectionLogReplayStoreErrorCode

/-! ### Reading -/

def sliceOrPanic (bytes : Bytes) (start stop : ℕ) : Option Bytes :=
  if start ≤ stop ∧ stop ≤ bytes.length then some (slice bytes start (stop - start)) else none

/-- `read_u16`, `read_u32` and `read_u64`, for a width of two, four and eight. -/
def readNumber (width : ℕ) (bytes : Bytes) (offset : ℕ) : Option ℕ := do
  let stop ← if offset + width < usizeLimit then some (offset + width) else none
  if stop ≤ bytes.length then some (readBe bytes offset width) else none

/-! ### The replay of a log -/

structure SavedConnectionLogReplay where
  logId : Text
  terminalData : Text

/-- The longest part at the end that fits. -/
def newestUtf8Suffix (maxBytes : ℕ) : Text → Text
  | [] => []
  | c :: rest =>
      if utf8Len (c :: rest) ≤ maxBytes then c :: rest else newestUtf8Suffix maxBytes rest

def SavedConnectionLogReplay.new (logId terminalData : Text) : Option SavedConnectionLogReplay :=
  if logId.isEmpty || maxIdBytes < utf8Len logId || logId.any isControl then none
  else some ⟨logId, newestUtf8Suffix maxConnectionLogReplayBytes terminalData⟩

/-- A bundle with a private key only. -/
def bundleOf (encoded : Bytes) : Fallible SshSecretBundle :=
  (SshSecretBundle.new encoded none none none).mapError fun _ => invalidInput

def replayHeader (digest : Digest) (length : ℕ) : Bytes :=
  replayMagic ++ beBytes 2 replayFormatVersion ++ beBytes 2 replayHeaderBytes ++ digest.bytes ++
    beBytes 4 length

def encodeReplayBundle (digest : Digest) (terminalData : Text) : Fallible SshSecretBundle :=
  match SavedConnectionLogReplay.new "validated-placeholder".toList terminalData with
  | none => .error invalidInput
  | some replay =>
      let terminalData := encodeUtf8 replay.terminalData
      if terminalData.length < 2 ^ 32 then
        bundleOf (replayHeader digest terminalData.length ++ terminalData)
      else .error invalidInput

def hasOnlyPrivateKey (bundle : SshSecretBundle) : Bool :=
  bundle.publicKey.isNone && bundle.certificate.isNone && bundle.passphrase.isNone

/-- The digest is compared where nothing before it has failed. -/
def replayHeaderMatches (bytes : Bytes) (expectedDigest : Digest) : Option Bool :=
  if bytes.length < replayHeaderBytes || bytes.take 8 ≠ replayMagic ||
      readNumber 2 bytes 8 ≠ some replayFormatVersion ||
      readNumber 2 bytes 10 ≠ some replayHeaderBytes then some false
  else (sliceOrPanic bytes 12 44).map fun digest => digest = expectedDigest.bytes

def decodeReplayText (bytes : Bytes) : Option (Fallible Text) :=
  match readNumber 4 bytes 44 with
  | none => some (.error corruptStore)
  | some length =>
      if maxConnectionLogReplayBytes < length ∨ usizeLimit ≤ replayHeaderBytes + length ∨
          replayHeaderBytes + length ≠ bytes.length then some (.error corruptStore)
      else do
        let terminalData ← sliceOrPanic bytes replayHeaderBytes bytes.length
        return (decodeUtf8 terminalData).elim (.error corruptStore) .ok

def decodeReplayBundle (bundle : SshSecretBundle) (expectedDigest : Digest) :
    Option (Fallible Text) :=
  if !hasOnlyPrivateKey bundle then some (.error corruptStore)
  else do
    let isMatch ← replayHeaderMatches bundle.privateKey expectedDigest
    if isMatch then decodeReplayText bundle.privateKey else return .error corruptStore

/-! ### The index -/

/-- Arrays of bytes are ordered as the numbers that they write. -/
instance : LinearOrder Digest := LinearOrder.lift' (fun digest => beValue digest.bytes) <| by
  intro digest digest' h
  have hbytes : digest.bytes = digest'.bytes := by
    rw [← beBytes_beValue digest.bytes, ← beBytes_beValue digest'.bytes, digest.length_eq,
      digest'.length_eq]
    exact congrArg (beBytes 32) h
  cases digest
  cases digest'
  cases hbytes
  rfl

structure ReplayIndexEntry where
  revision : UInt64
  startTime : UInt64
  saved : Bool
  deriving DecidableEq

/-- The index, `BTreeMap<[u8; 32], ReplayIndexEntry>`. -/
abbrev ReplayIndex := SortedMap Digest ReplayIndexEntry

def encodeEntry (digest : Digest) (entry : ReplayIndexEntry) : Bytes :=
  digest.bytes ++ beBytes 8 entry.revision.toNat ++ beBytes 8 entry.startTime.toNat ++
    [if entry.saved then 1 else 0] ++ List.replicate 7 0

def encodeEntries : List (Digest × ReplayIndexEntry) → Fallible Bytes
  | [] => .ok []
  | (digest, entry) :: rest =>
      if entry.revision = 0 ∨ entry.startTime = 0 then .error invalidInput
      else (encodeEntries rest).map (encodeEntry digest entry ++ ·)

def indexHeader (count : ℕ) : Bytes :=
  indexMagic ++ beBytes 2 indexFormatVersion ++ beBytes 2 indexHeaderBytes ++ beBytes 4 count

def encodeIndexBundle (entries : ReplayIndex) : Fallible SshSecretBundle :=
  if maxConnectionLogRecords < entries.entries.length then .error invalidInput
  else do
    let encoded ← encodeEntries entries.entries
    bundleOf (indexHeader entries.entries.length ++ encoded)

def indexHeaderMatches (bytes : Bytes) : Bool :=
  !(bytes.length < indexHeaderBytes || bytes.take 8 ≠ indexMagic ||
    readNumber 2 bytes 8 ≠ some indexFormatVersion || readNumber 2 bytes 10 ≠ some indexHeaderBytes)

def savedFlag (byte : UInt8) : Option Bool :=
  if byte = 0 then some false else if byte = 1 then some true else none

/-- `bytes[cursor + start..cursor + stop]`. -/
def fieldOrPanic (bytes : Bytes) (cursor start stop : ℕ) : Option Bytes := do
  let start ← addOrPanic cursor start
  let stop ← addOrPanic cursor stop
  sliceOrPanic bytes start stop

/-- A number that the loop reads; where there is none, the index is corrupt. -/
def readField (bytes : Bytes) (cursor start : ℕ) : Option (Fallible UInt64) := do
  let offset ← addOrPanic cursor start
  return (readNumber 8 bytes offset).elim (.error corruptStore) fun n => .ok (.ofNat n)

/-- The end of an entry, behind its numbers. -/
def readFlags (bytes : Bytes) (cursor : ℕ) (revision startTime : UInt64) :
    Option (Fallible Bool) := do
  let offset ← addOrPanic cursor 48
  let flag ← bytes[offset]?
  match savedFlag flag with
  | none => return .error corruptStore
  | some saved => do
      let reserved ← fieldOrPanic bytes cursor 49 indexEntryBytes
      if revision = 0 ∨ startTime = 0 ∨ reserved.any (· ≠ 0) then return .error corruptStore
      else return .ok saved

/-- What the loop reads of one entry, up to the check of the reserved bytes. -/
def readEntry (bytes : Bytes) (cursor : ℕ) : Option (Fallible (Digest × ReplayIndexEntry)) := do
  let digestBytes ← fieldOrPanic bytes cursor 0 32
  let digest ← Digest.fromSlice digestBytes
  let revision ← readField bytes cursor 32
  match revision with
  | .error code => return .error code
  | .ok revision => do
      let startTime ← readField bytes cursor 40
      match startTime with
      | .error code => return .error code
      | .ok startTime => do
          let saved ← readFlags bytes cursor revision startTime
          return saved.map fun saved => (digest, ⟨revision, startTime, saved⟩)

/-- The loop over the entries that are left. -/
def decodeEntries (bytes : Bytes) : ℕ → ℕ → ReplayIndex → Option (Fallible ReplayIndex)
  | 0, _, entries => some (.ok entries)
  | count + 1, cursor, entries => do
      let read ← readEntry bytes cursor
      match read with
      | .error code => return .error code
      | .ok (digest, entry) =>
          if entries.contains digest then return .error corruptStore
          else do
            let next ← addOrPanic cursor indexEntryBytes
            decodeEntries bytes count next (entries.insert digest entry)

def decodeIndexBundle (bundle : SshSecretBundle) : Option (Fallible ReplayIndex) :=
  if !hasOnlyPrivateKey bundle || !indexHeaderMatches bundle.privateKey then
    some (.error corruptStore)
  else
    match readNumber 4 bundle.privateKey 12 with
    | none => some (.error corruptStore)
    | some count =>
        if maxConnectionLogRecords < count ∨ usizeLimit ≤ count * indexEntryBytes ∨
            usizeLimit ≤ indexHeaderBytes + count * indexEntryBytes ∨
            indexHeaderBytes + count * indexEntryBytes ≠ bundle.privateKey.length then
          some (.error corruptStore)
        else decodeEntries bundle.privateKey count indexHeaderBytes .empty

end Netcatty.ReplayStore
