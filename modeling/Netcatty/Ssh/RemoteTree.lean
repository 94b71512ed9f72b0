import Netcatty.Ssh.DirectoryTransfer

/-! # Discovery of a remote tree

The plan of a download: the directories, the files and what is passed over below a root on an SFTP
server.  The server is asked for the canonical path of a directory, for the entries of a directory
and for the metadata behind a link.  A listing is counted and sorted before anything is done with
its entries, and each entry is checked before it is sorted into the plan. -/

namespace Netcatty.Ssh

open Catalog Fueled

/-! ### The server -/

inductive SftpEntryKind
  | file
  | directory
  | symlink
  | other
  deriving DecidableEq

structure SftpMetadata where
  kind : SftpEntryKind
  size : ℕ
  /-- In seconds. -/
  modifiedAt : Option ℕ
  deriving DecidableEq

structure SftpEntry where
  name : Text
  metadata : SftpMetadata
  deriving DecidableEq

inductive SftpError
  | operationFailed
  | fileTooLarge
  | invalidUploadPlan
  | destinationNotRegularFile
  | destinationChanged
  | recoveryArtifactConflict
  | uploadSizeMismatch
  | promotionFailed
  | recoveryFailed
  | backupCleanupFailed
  | cancelled
  | checkpointMismatch
  | sourceChanged
  deriving DecidableEq

/-- What a discovery asks of a server. -/
structure RemoteTreeSource (W : Type) where
  canonicalize : Text → W → Except SftpError Text × W
  readDirectory : Text → W → Except SftpError (List SftpEntry) × W
  followedMetadata : Text → W → Except SftpError SftpMetadata × W

inductive RemoteTreeError
  | source (error : SftpError)
  | traversal (error : DirectoryTraversalError)
  | unsafeEntryName (error : TransferPathError)
  | unsafeTargetPath (error : TransferPathError)
  | entryNameContainsSeparator
  | duplicateEntryName
  | nonUnicodeTargetPath
  | totalFileCountOverflow
  | totalByteCountOverflow
  deriving DecidableEq

def remoteTreeErrors : TreeErrors RemoteTreeError where
  traversal := .traversal
  totalFileCountOverflow := .totalFileCountOverflow
  totalByteCountOverflow := .totalByteCountOverflow

/-! ### Entries -/

inductive PendingKind
  | directory
  | file
  | unsupported
  deriving DecidableEq

structure PendingEntry extends Place Text where
  targetPath : OsPath
  metadata : SftpMetadata
  kind : PendingKind

def safeRelativeChild (parent name : Text) : Except RemoteTreeError Text := do
  let validated ← (joinRemoteTransferTarget ['/']
    (if parent.isEmpty then name else parent ++ '/' :: name)).mapError .unsafeEntryName
  return validated.dropWhile (· == '/')

def localPathText (path : OsPath) : Except RemoteTreeError Text :=
  match toText path with
  | some text => .ok text
  | none => .error .nonUnicodeTargetPath

def SftpEntryKind.pendingKind : SftpEntryKind → PendingKind
  | .directory => .directory
  | .file => .file
  | .symlink | .other => .unsupported

/-- `.` and `..` are not listed. -/
def SftpEntry.isProper (entry : SftpEntry) : Bool :=
  entry.name != ['.'] && entry.name != ['.', '.']

/-- Two entries in a row of one name. -/
def hasDuplicateNames : List SftpEntry → Bool
  | first :: second :: rest => first.name == second.name || hasDuplicateNames (second :: rest)
  | _ => false

def refuseDuplicateNames (listed : List SftpEntry) : Except RemoteTreeError Unit :=
  if hasDuplicateNames listed then .error .duplicateEntryName else .ok ()

def sortPending (pending : List PendingEntry) : Sorted Text PendingEntry where
  directories := (pending.filter (·.kind = .directory)).map (·.toPlace)
  files := pending.filter (·.kind = .file)
  unsupported := (pending.filter (·.kind = .unsupported)).map (·.toPlace)

/-! ### The steps of the discovery -/

section Steps

variable {W : Type} (D : ManifestDigest) (S : RemoteTreeSource W) (targetRoot : OsPath)

/-- A question to the server. -/
def askSource {α : Type} (question : W → Except SftpError α × W) :
    Discovery W RemoteTreeError α :=
  step fun s =>
    let (answer, world) := question s.world
    (answer.mapError .source, { s with world })

def entryMetadata (entry : SftpEntry) (sourcePath : Text) :
    Discovery W RemoteTreeError SftpMetadata :=
  if entry.metadata.kind = .symlink then askSource (S.followedMetadata sourcePath)
  else pure entry.metadata

/-- The paths of an entry. -/
def entryPaths (parentSource parentRelative : Text) (entry : SftpEntry) :
    Except RemoteTreeError (Text × Text × OsPath) :=
  if '/' ∈ entry.name then .error .entryNameContainsSeparator
  else do
    let sourcePath ←
      (joinRemoteTransferTarget parentSource entry.name).mapError .unsafeEntryName
    let relativePath ← safeRelativeChild parentRelative entry.name
    let targetPath ←
      (joinLocalTransferTarget targetRoot relativePath).mapError .unsafeTargetPath
    return (sourcePath, relativePath, targetPath)

def classifyEntry (parentSource parentRelative : Text) (entry : SftpEntry) :
    Discovery W RemoteTreeError PendingEntry := do
  let (sourcePath, relativePath, targetPath) ←
    ofExcept (entryPaths targetRoot parentSource parentRelative entry)
  let metadata ← entryMetadata S entry sourcePath
  return {
    sourcePath, relativePath, targetPath, metadata
    kind := metadata.kind.pendingKind
    isSymlink := entry.metadata.kind = .symlink }

/-- The target of a directory: that of the root is the root. -/
def directoryTarget (relativePath : Text) : Except RemoteTreeError OsPath :=
  if relativePath.isEmpty then .ok targetRoot
  else (joinLocalTransferTarget targetRoot relativePath).mapError .unsafeTargetPath

def openRemoteDirectory (place : Place Text) :
    Discovery W RemoteTreeError (Sorted Text PendingEntry) := do
  let targetPath ← ofExcept (directoryTarget targetRoot place.relativePath)
  let targetText ← ofExcept (localPathText targetPath)
  pushDirectory {
    relativePath := place.relativePath
    sourcePath := place.sourcePath
    targetPath := targetText
    isSymlink := place.isSymlink }
  let listed ← askSource (S.readDirectory place.sourcePath)
  accountEntries remoteTreeErrors (listed.filter SftpEntry.isProper).length
  let sorted := sortBy (compareOn SftpEntry.name) (listed.filter SftpEntry.isProper)
  ofExcept (refuseDuplicateNames sorted)
  let pending ← sorted.mapM' (classifyEntry S targetRoot place.sourcePath place.relativePath)
  return sortPending pending

def appendRemoteFile (entry : PendingEntry) : Discovery W RemoteTreeError Unit := do
  let targetText ← ofExcept (localPathText entry.targetPath)
  recordFile remoteTreeErrors D entry.relativePath entry.sourcePath targetText
    entry.metadata.size (min (entry.metadata.modifiedAt.getD 0 * 1000) (2 ^ 64 - 1))
    entry.isSymlink

def skipRemote (place : Place Text) (reason : TreeSkipReason) : Discovery W RemoteTreeError Unit :=
  pushSkipped ⟨place.relativePath, place.sourcePath, reason⟩

def remoteWalker : Walker W RemoteTreeError Text PendingEntry where
  errors := remoteTreeErrors
  canonicalize path := askSource (S.canonicalize path)
  openDirectory := openRemoteDirectory S targetRoot
  appendFile := appendRemoteFile D
  skip := skipRemote

/-- The name with which the roots are tried. -/
def rootValidationName : Text :=
  ['.', 'n', 'e', 't', 'c', 'a', 't', 't', 'y', '-', 'r', 'o', 'o', 't', '-', 'v', 'a', 'l', 'i', 'd',
    'a', 't', 'i', 'o', 'n']

def discoverRemoteTree (fuel : ℕ) (sourceRoot : Text) (options : TreeOptions) :
    Discovery W RemoteTreeError TreeManifest := do
  let _ ← ofExcept ((joinRemoteTransferTarget (normalizeRemoteRoot sourceRoot)
    rootValidationName).mapError .unsafeEntryName)
  let _ ← ofExcept ((joinLocalTransferTarget targetRoot
    rootValidationName).mapError .unsafeTargetPath)
  let targetRootText ← ofExcept (localPathText targetRoot)
  walkDirectory (remoteWalker D S targetRoot) options fuel
    ⟨normalizeRemoteRoot sourceRoot, [], false⟩ 0
  step fun s => (.ok (s.manifest (normalizeRemoteRoot sourceRoot) targetRootText), s)

end Steps

end Netcatty.Ssh
