import Netcatty.Ssh.DirectoryTransfer

/-! # Discovery of a local tree

The plan of an upload: the directories, the files and what is passed over below a local directory.
The entries of a directory are counted and classified while they are listed, in the order of the
file system; they are sorted by name afterwards, and only then directories are walked, files
appended and other entries passed over. -/

namespace Netcatty.Ssh

open Catalog Fueled

/-! ### The file system -/

/-- An error of the operating system. -/
structure IoError where
  code : ℕ
  deriving DecidableEq

inductive FileType
  | directory
  | file
  | symlink
  | other
  deriving DecidableEq

/-- Metadata of what a path leads to. -/
structure LocalMetadata where
  fileType : FileType
  len : ℕ
  /-- In milliseconds since the epoch, where it is known and not before it. -/
  modified : Option ℕ
  deriving DecidableEq

structure DirEntry where
  fileName : OsPath
  fileType : Except IoError FileType

/-- The answers of a file system. -/
structure LocalFileSystem where
  metadata : OsPath → Except IoError LocalMetadata
  symlinkMetadata : OsPath → Except IoError FileType
  canonicalize : OsPath → Except IoError OsPath
  readDir : OsPath → Except IoError (List (Except IoError DirEntry))

inductive LocalTreeError
  | io (path : OsPath) (source : IoError)
  | notDirectory (path : OsPath)
  | nonUnicodePath (path : OsPath)
  | totalFileCountOverflow
  | totalByteCountOverflow
  | traversal (error : DirectoryTraversalError)
  deriving DecidableEq

def localTreeErrors : TreeErrors LocalTreeError where
  traversal := .traversal
  totalFileCountOverflow := .totalFileCountOverflow
  totalByteCountOverflow := .totalByteCountOverflow

/-! ### Paths -/

/-- The text of a path, as an upload names it. -/
def uploadPathText (path : OsPath) : Except LocalTreeError Text :=
  match toText path with
  | some text => .ok text
  | none => .error (.nonUnicodePath path)

def normalizeTargetRoot (path : Text) : Text :=
  let normalized := path.map fun c => if c = '\\' then '/' else c
  if (trimEndSlashes normalized).isEmpty && startsWithChar '/' normalized then ['/']
  else trimEndSlashes normalized

def joinRelativePath (parent name : Text) : Text :=
  if parent.isEmpty then name else parent ++ '/' :: name

def joinTargetPath (root relativePath : Text) : Text :=
  if relativePath.isEmpty then root
  else if root = [] then relativePath
  else if root = ['/'] then '/' :: relativePath
  else root ++ '/' :: relativePath

def modifiedMillis (metadata : LocalMetadata) : ℕ := min (metadata.modified.getD 0) (2 ^ 64 - 1)

/-! ### The steps of the discovery -/

/-- An entry of a listing. -/
structure LocalPendingEntry where
  name : Text
  path : OsPath
  kind : FileType
  isSymlink : Bool

/-- A file of a listing, with its relative path. -/
structure LocalPendingFile where
  path : OsPath
  relativePath : Text
  isSymlink : Bool

section Steps

variable (D : ManifestDigest) (fs : LocalFileSystem) (targetRoot : Text)

/-- A question to the file system about a path. -/
def askFileSystem {α : Type} (path : OsPath) (answer : Except IoError α) :
    Discovery Unit LocalTreeError α := ofExcept (answer.mapError (.io path))

/-- What an entry is, with links followed. -/
def entryKind (path : OsPath) : FileType → Except LocalTreeError (FileType × Bool)
  | .symlink => do
    let target ← (fs.metadata path).mapError (.io path)
    return (target.fileType, true)
  | fileType => .ok (fileType, false)

/-- A name that is no text is reported with its path. -/
def entryName (path fileName : OsPath) : Except LocalTreeError Text :=
  match toText fileName with
  | some name => .ok name
  | none => .error (.nonUnicodePath path)

def readEntry (sourcePath : OsPath) (result : Except IoError DirEntry) :
    Except LocalTreeError LocalPendingEntry := do
  let entry ← result.mapError (.io sourcePath)
  let name ← entryName (sourcePath.push entry.fileName) entry.fileName
  let fileType ← entry.fileType.mapError (.io (sourcePath.push entry.fileName))
  let (kind, isSymlink) ← entryKind fs (sourcePath.push entry.fileName) fileType
  return { name, path := sourcePath.push entry.fileName, kind, isSymlink }

def listEntry (sourcePath : OsPath) (result : Except IoError DirEntry) :
    Discovery Unit LocalTreeError LocalPendingEntry := do
  accountEntries localTreeErrors 1
  ofExcept (readEntry fs sourcePath result)

def LocalPendingEntry.place (parent : Text) (entry : LocalPendingEntry) : Place OsPath where
  sourcePath := entry.path
  relativePath := joinRelativePath parent entry.name
  isSymlink := entry.isSymlink

def LocalPendingEntry.file (parent : Text) (entry : LocalPendingEntry) : LocalPendingFile where
  path := entry.path
  relativePath := joinRelativePath parent entry.name
  isSymlink := entry.isSymlink

def LocalPendingEntry.isUnsupported (entry : LocalPendingEntry) : Bool :=
  entry.kind != .directory && entry.kind != .file

def sortEntries (parent : Text) (entries : List LocalPendingEntry) :
    Sorted OsPath LocalPendingFile :=
  let entries := sortBy (compareOn LocalPendingEntry.name) entries
  { directories := (entries.filter (·.kind = .directory)).map (·.place parent)
    files := (entries.filter (·.kind = .file)).map (·.file parent)
    unsupported := (entries.filter (·.isUnsupported)).map (·.place parent) }

def openLocalDirectory (place : Place OsPath) :
    Discovery Unit LocalTreeError (Sorted OsPath LocalPendingFile) := do
  let sourceText ← ofExcept (uploadPathText place.sourcePath)
  pushDirectory {
    relativePath := place.relativePath
    sourcePath := sourceText
    targetPath := joinTargetPath targetRoot place.relativePath
    isSymlink := place.isSymlink }
  let reader ← askFileSystem place.sourcePath (fs.readDir place.sourcePath)
  let entries ← reader.mapM' (listEntry fs place.sourcePath)
  return sortEntries place.relativePath entries

def appendLocalFile (file : LocalPendingFile) : Discovery Unit LocalTreeError Unit := do
  let metadata ← askFileSystem file.path (fs.metadata file.path)
  let sourceText ← ofExcept (uploadPathText file.path)
  recordFile localTreeErrors D file.relativePath sourceText
    (joinTargetPath targetRoot file.relativePath) metadata.len (modifiedMillis metadata)
    file.isSymlink

def skipLocal (place : Place OsPath) (reason : TreeSkipReason) :
    Discovery Unit LocalTreeError Unit := do
  let sourceText ← ofExcept (uploadPathText place.sourcePath)
  pushSkipped ⟨place.relativePath, sourceText, reason⟩

def canonicalizeLocal (path : OsPath) : Discovery Unit LocalTreeError Text := do
  let canonical ← askFileSystem path (fs.canonicalize path)
  ofExcept (uploadPathText canonical)

def localWalker : Walker Unit LocalTreeError OsPath LocalPendingFile where
  errors := localTreeErrors
  canonicalize := canonicalizeLocal fs
  openDirectory := openLocalDirectory fs targetRoot
  appendFile := appendLocalFile D fs targetRoot
  skip := skipLocal

def checkDirectory (sourceRoot : OsPath) (metadata : LocalMetadata) : Except LocalTreeError Unit :=
  if metadata.fileType = .directory then .ok () else .error (.notDirectory sourceRoot)

def discoverLocalTree (fuel : ℕ) (sourceRoot : OsPath) (options : TreeOptions) :
    Discovery Unit LocalTreeError TreeManifest := do
  let metadata ← askFileSystem sourceRoot (fs.metadata sourceRoot)
  ofExcept (checkDirectory sourceRoot metadata)
  let rootType ← askFileSystem sourceRoot (fs.symlinkMetadata sourceRoot)
  let sourceRootText ← ofExcept (uploadPathText sourceRoot)
  walkDirectory (localWalker D fs (normalizeTargetRoot targetRoot)) options fuel
    ⟨sourceRoot, [], rootType = .symlink⟩ 0
  step fun s => (.ok (s.manifest sourceRootText (normalizeTargetRoot targetRoot)), s)

end Steps

end Netcatty.Ssh
