import Mathlib.Algebra.Ring.Nat
import Netcatty.Library.Fueled
import Netcatty.Ssh.TransferPath

/-! # Directory transfers

What the discovery of a local tree and that of a remote tree share.  A traversal has a budget: it
claims the canonical path of every directory that it enters, which must not be claimed on the same
branch already, and accounts for every entry that it lists.  The files found are chained into a
checkpoint, so that an interrupted transfer knows whether the tree it resumes has the same files in
the same order (`TreeManifest.matchesCheckpoint`).

`Walker` holds the steps in which the two discoveries differ; `walkDirectory` is the recursion.  Its
fuel bounds the depth, and a budget for `n` more directories never spends more than `n + 1`
(`walkDirectory_ends`); more fuel changes nothing (`walkDirectory_extends`). -/

namespace Netcatty.Ssh

open Serial (encodeUtf8)
open Fueled

inductive DirectoryTraversalError
  | directoryLimitExceeded
  | entryLimitExceeded
  | invalidCheckpoint
  | invalidIdentity
  deriving DecidableEq

def maxSftpFollowedSymlinkDepth : ℕ := 32

def maxSftpDirectoryTraversalDirectories : ℕ := 50000

def maxSftpDirectoryTraversalEntries : ℕ := 200000

/-- Addition of 64-bit numbers. -/
def checkedAdd (a b : ℕ) : Option ℕ := if a + b < 2 ^ 64 then some (a + b) else none

/-! ### The budget of a traversal -/

structure DirectoryTraversalBudget where
  activeCanonicalDirectories : List Text
  visitedDirectories : ℕ
  visitedEntries : ℕ
  maxDirectories : ℕ
  maxEntries : ℕ
  deriving DecidableEq

def normalizeCanonicalDirectoryPath (path : Text) : Text :=
  let normalized := trimEndSlashes (path.map fun c => if c = '\\' then '/' else c)
  if normalized.isEmpty then ['/'] else normalized

namespace DirectoryTraversalBudget

def new (maxDirectories maxEntries : ℕ) : DirectoryTraversalBudget where
  activeCanonicalDirectories := []
  visitedDirectories := 0
  visitedEntries := 0
  maxDirectories := maxDirectories
  maxEntries := maxEntries

/-- `none` where the directory is claimed already. -/
def claim (budget : DirectoryTraversalBudget) (canonicalPath : Text) :
    Except DirectoryTraversalError (Option Text) × DirectoryTraversalBudget :=
  let normalized := normalizeCanonicalDirectoryPath canonicalPath
  if normalized ∈ budget.activeCanonicalDirectories then (.ok none, budget)
  else if budget.maxDirectories ≤ budget.visitedDirectories then
    (.error .directoryLimitExceeded, budget)
  else
    (.ok (some normalized), { budget with
      visitedDirectories := budget.visitedDirectories + 1
      activeCanonicalDirectories := normalized :: budget.activeCanonicalDirectories })

def release (budget : DirectoryTraversalBudget) (claimed : Text) : DirectoryTraversalBudget :=
  { budget with
    activeCanonicalDirectories := budget.activeCanonicalDirectories.erase claimed }

def accountEntries (budget : DirectoryTraversalBudget) (count : ℕ) :
    Except DirectoryTraversalError Unit × DirectoryTraversalBudget :=
  match checkedAdd budget.visitedEntries count with
  | none => (.error .entryLimitExceeded, budget)
  | some next =>
    if budget.maxEntries < next then (.error .entryLimitExceeded, budget)
    else (.ok (), { budget with visitedEntries := next })

end DirectoryTraversalBudget

def shouldFollowSymlinkDirectory (depth : ℕ) : Bool := depth < maxSftpFollowedSymlinkDepth

/-! ### Checkpoints -/

/-- The hash functions, and the encoding of what identifies a file. -/
structure ManifestDigest where
  encodeIdentity : Text → Text → ℕ → ℕ → Option (List UInt8)
  sha256Hex : List UInt8 → Text
  compress256 : List ℕ → List UInt8 → List ℕ

structure DirectoryResumeCheckpoint where
  version : ℕ
  coveredEntries : ℕ
  completedEntries : ℕ
  manifestHash : Text
  deriving DecidableEq

def isLowerHexDigit (c : Char) : Bool := ('0' ≤ c && c ≤ '9') || ('a' ≤ c && c ≤ 'f')

def isLowerHex256 (value : Text) : Bool := value.length == 64 && value.all isLowerHexDigit

def hexDigitValue (c : Char) : ℕ := if c ≤ '9' then c.toNat - 48 else c.toNat - 87

def hexDigit (digit : ℕ) : Char := Char.ofNat (if digit < 10 then digit + 48 else digit + 87)

/-- The eight words of a hash. -/
def hashWords (hash : Text) : List ℕ :=
  (hash.toChunks 8).map fun word => word.foldl (fun value c => 16 * value + hexDigitValue c) 0

def wordHex (word : ℕ) : Text := (List.range 8).map fun i => hexDigit (word / 16 ^ (7 - i) % 16)

def emptyDirectoryManifestHash : Text := List.replicate 64 '0'

def emptyDirectoryManifestStateV2 : Text :=
  "6a09e667bb67ae853c6ef372a54ff53a510e527f9b05688c1f83d9ab5be0cd19".toList

section Checkpoint

variable (D : ManifestDigest)

def createDirectoryEntryIdentity (sourcePath targetPath : Text) (size modifiedAt : ℕ) :
    Except DirectoryTraversalError Text :=
  match D.encodeIdentity sourcePath targetPath size modifiedAt with
  | some encoded => .ok (D.sha256Hex encoded)
  | none => .error .invalidIdentity

def appendDirectoryManifestIdentity (version : ℕ) (manifestHash entryIdentity : Text) :
    Except DirectoryTraversalError Text :=
  if !isLowerHex256 manifestHash || !isLowerHex256 entryIdentity then .error .invalidIdentity
  else if version = 1 then .ok (D.sha256Hex (encodeUtf8 (manifestHash ++ ':' :: entryIdentity)))
  else if version = 2 then
    .ok ((D.compress256 (hashWords manifestHash) (encodeUtf8 entryIdentity)).flatMap wordHex)
  else .error .invalidCheckpoint

namespace DirectoryResumeCheckpoint

def empty : DirectoryResumeCheckpoint := ⟨2, 0, 0, emptyDirectoryManifestStateV2⟩

def validate (checkpoint : DirectoryResumeCheckpoint) : Except DirectoryTraversalError Unit :=
  if !(checkpoint.version == 1 || checkpoint.version == 2) ||
      checkpoint.coveredEntries < checkpoint.completedEntries ||
      !isLowerHex256 checkpoint.manifestHash then .error .invalidCheckpoint
  else .ok ()

def append (checkpoint : DirectoryResumeCheckpoint) (entryIdentity : Text) :
    Except DirectoryTraversalError DirectoryResumeCheckpoint := do
  checkpoint.validate
  let manifestHash ← appendDirectoryManifestIdentity D checkpoint.version checkpoint.manifestHash
    entryIdentity
  match checkedAdd checkpoint.coveredEntries 1 with
  | some coveredEntries => return { checkpoint with manifestHash, coveredEntries }
  | none => throw .invalidCheckpoint

end DirectoryResumeCheckpoint

end Checkpoint

/-! ### Manifests -/

structure TreeOptions where
  followDirectorySymlinks : Bool := false
  maxDirectories : ℕ := maxSftpDirectoryTraversalDirectories
  maxEntries : ℕ := maxSftpDirectoryTraversalEntries

structure TreeDirectoryEntry where
  relativePath : Text
  sourcePath : Text
  targetPath : Text
  isSymlink : Bool
  deriving DecidableEq

structure TreeFileEntry where
  relativePath : Text
  sourcePath : Text
  targetPath : Text
  size : ℕ
  modifiedAt : ℕ
  isSymlink : Bool
  directoryEntryIndex : ℕ
  directoryEntryIdentity : Text
  deriving DecidableEq

inductive TreeSkipReason
  | directorySymlinkNotFollowed
  | symlinkDepthExceeded
  | cycleDetected
  | unsupportedFileType
  deriving DecidableEq

structure TreeSkippedEntry where
  relativePath : Text
  sourcePath : Text
  reason : TreeSkipReason
  deriving DecidableEq

structure TreeManifest where
  sourceRoot : Text
  targetRoot : Text
  directories : List TreeDirectoryEntry
  files : List TreeFileEntry
  skippedEntries : List TreeSkippedEntry
  totalFiles : ℕ
  totalBytes : ℕ
  visitedDirectories : ℕ
  visitedEntries : ℕ
  manifestCheckpoint : DirectoryResumeCheckpoint
  deriving DecidableEq

namespace TreeManifest

variable (D : ManifestDigest) (manifest : TreeManifest)

/-- The checkpoint that the chain of a version starts from. -/
def firstCheckpoint (version : ℕ) : DirectoryResumeCheckpoint :=
  if version = 1 then ⟨version, 0, 0, emptyDirectoryManifestHash⟩ else .empty

def checkpointForPrefix (version coveredEntries completedEntries : ℕ) :
    Except DirectoryTraversalError DirectoryResumeCheckpoint :=
  if !(version == 1 || version == 2) || coveredEntries < completedEntries ||
      manifest.totalFiles < coveredEntries then .error .invalidCheckpoint
  else do
    let checkpoint ← (manifest.files.take coveredEntries).foldlM
      (fun checkpoint entry => checkpoint.append D entry.directoryEntryIdentity)
      (firstCheckpoint version)
    { checkpoint with completedEntries }.validate
    return { checkpoint with completedEntries }

def matchesCheckpoint (checkpoint : DirectoryResumeCheckpoint) :
    Except DirectoryTraversalError Bool := do
  checkpoint.validate
  if manifest.totalFiles < checkpoint.coveredEntries then return false
  else do
    let rebuilt ← manifest.checkpointForPrefix D checkpoint.version checkpoint.coveredEntries
      checkpoint.completedEntries
    return rebuilt.manifestHash == checkpoint.manifestHash

end TreeManifest

/-! ### The walk -/

/-- What a discovery has found so far, and what it knows of the world outside. -/
structure TreeState (W : Type) where
  budget : DirectoryTraversalBudget
  directories : List TreeDirectoryEntry
  files : List TreeFileEntry
  skippedEntries : List TreeSkippedEntry
  totalFiles : ℕ
  totalBytes : ℕ
  manifestCheckpoint : DirectoryResumeCheckpoint
  world : W

/-- A discovery has found nothing when it starts. -/
def TreeState.start {W : Type} (options : TreeOptions) (world : W) : TreeState W where
  budget := .new options.maxDirectories options.maxEntries
  directories := []
  files := []
  skippedEntries := []
  totalFiles := 0
  totalBytes := 0
  manifestCheckpoint := .empty
  world := world

def TreeState.manifest {W : Type} (s : TreeState W) (sourceRoot targetRoot : Text) :
    TreeManifest where
  sourceRoot := sourceRoot
  targetRoot := targetRoot
  directories := s.directories
  files := s.files
  skippedEntries := s.skippedEntries
  totalFiles := s.totalFiles
  totalBytes := s.totalBytes
  visitedDirectories := s.budget.visitedDirectories
  visitedEntries := s.budget.visitedEntries
  manifestCheckpoint := s.manifestCheckpoint

abbrev Discovery (W ε α : Type) : Type := Fueled (TreeState W) ε α

section Steps

variable {W ε : Type}

def pushDirectory (entry : TreeDirectoryEntry) : Discovery W ε Unit :=
  update fun s => { s with directories := s.directories ++ [entry] }

def pushSkipped (entry : TreeSkippedEntry) : Discovery W ε Unit :=
  update fun s => { s with skippedEntries := s.skippedEntries ++ [entry] }

/-- How the errors of a traversal are reported. -/
structure TreeErrors (ε : Type) where
  traversal : DirectoryTraversalError → ε
  totalFileCountOverflow : ε
  totalByteCountOverflow : ε

variable (E : TreeErrors ε)

def claimDirectory (canonical : Text) : Discovery W ε (Option Text) :=
  step fun s =>
    let (result, budget) := s.budget.claim canonical
    (result.mapError E.traversal, { s with budget })

def accountEntries (count : ℕ) : Discovery W ε Unit :=
  step fun s =>
    let (result, budget) := s.budget.accountEntries count
    (result.mapError E.traversal, { s with budget })

/-- A file is numbered, counted and chained into the checkpoint. -/
def recordFile (D : ManifestDigest) (relativePath sourcePath targetPath : Text)
    (size modifiedAt : ℕ) (isSymlink : Bool) : Discovery W ε Unit := do
  let identity ← ofExcept
    ((createDirectoryEntryIdentity D sourcePath targetPath size modifiedAt).mapError E.traversal)
  let index ← step fun s => (.ok s.totalFiles, s)
  step fun s =>
    match checkedAdd s.totalFiles 1 with
    | some totalFiles => (.ok (), { s with totalFiles })
    | none => (.error E.totalFileCountOverflow, s)
  step fun s =>
    match checkedAdd s.totalBytes size with
    | some totalBytes => (.ok (), { s with totalBytes })
    | none => (.error E.totalByteCountOverflow, s)
  step fun s =>
    match s.manifestCheckpoint.append D identity with
    | .ok manifestCheckpoint => (.ok (), { s with manifestCheckpoint })
    | .error error => (.error (E.traversal error), s)
  update fun s => { s with files := s.files ++ [{
    relativePath, sourcePath, targetPath, size, modifiedAt, isSymlink
    directoryEntryIndex := index
    directoryEntryIdentity := identity }] }

end Steps

/-- A directory to walk, or another entry without a file. -/
structure Place (P : Type) where
  sourcePath : P
  relativePath : Text
  isSymlink : Bool

/-- The entries of a directory in the order in which they are taken up. -/
structure Sorted (P F : Type) where
  directories : List (Place P)
  files : List F
  unsupported : List (Place P)

/-- The steps of a discovery: the canonical path of a directory, its entry and its listing, a file
of the listing, an entry that is passed over. -/
structure Walker (W ε P F : Type) where
  errors : TreeErrors ε
  canonicalize : P → Discovery W ε Text
  openDirectory : Place P → Discovery W ε (Sorted P F)
  appendFile : F → Discovery W ε Unit
  skip : Place P → TreeSkipReason → Discovery W ε Unit

section Walk

variable {W ε P F : Type} (K : Walker W ε P F) (options : TreeOptions)

def walkChild (walk : Place P → ℕ → Discovery W ε Unit) (symlinkDepth : ℕ) (entry : Place P) :
    Discovery W ε Unit :=
  if entry.isSymlink && !options.followDirectorySymlinks then
    K.skip entry .directorySymlinkNotFollowed
  else if entry.isSymlink && !shouldFollowSymlinkDirectory symlinkDepth then
    K.skip entry .symlinkDepthExceeded
  else walk entry (symlinkDepth + entry.isSymlink.toNat)

def walkClaimedDirectory (walk : Place P → ℕ → Discovery W ε Unit) (place : Place P)
    (symlinkDepth : ℕ) : Discovery W ε Unit := do
  let entries ← K.openDirectory place
  entries.directories.forM (walkChild K options walk symlinkDepth)
  entries.files.forM K.appendFile
  entries.unsupported.forM fun entry => K.skip entry .unsupportedFileType

/-- What follows a claim. -/
def walkGranted (walk : Place P → ℕ → Discovery W ε Unit) (place : Place P) (symlinkDepth : ℕ) :
    Option Text → Discovery W ε Unit
  | none => K.skip place .cycleDetected
  | some claimed =>
    (walkClaimedDirectory K options walk place symlinkDepth).finallyUpdate fun s =>
      { s with budget := s.budget.release claimed }

def walkDirectory : ℕ → Place P → ℕ → Discovery W ε Unit
  | 0, _, _ => exhausted
  | fuel + 1, place, symlinkDepth => do
    let canonical ← K.canonicalize place.sourcePath
    let claimed ← claimDirectory K.errors canonical
    walkGranted K options (walkDirectory fuel) place symlinkDepth claimed

/-! ### More fuel changes nothing -/

section Fuel

variable {K options}

theorem walkClaimedDirectory_extends {walk walk' : Place P → ℕ → Discovery W ε Unit}
    (h : ∀ place depth, Extends (walk place depth) (walk' place depth)) (place : Place P)
    (symlinkDepth : ℕ) :
    Extends (walkClaimedDirectory K options walk place symlinkDepth)
      (walkClaimedDirectory K options walk' place symlinkDepth) := by
  refine Extends.bind (Extends.refl _) fun entries => Extends.bind (Extends.forM (fun entry => ?_) _)
    fun _ => Extends.refl _
  unfold walkChild
  split_ifs
  · exact Extends.refl _
  · exact Extends.refl _
  · exact h entry _

theorem walkDirectory_succ_extends (fuel : ℕ) (place : Place P) (symlinkDepth : ℕ) :
    Extends (walkDirectory K options fuel place symlinkDepth)
      (walkDirectory K options (fuel + 1) place symlinkDepth) := by
  induction fuel generalizing place symlinkDepth with
  | zero => exact exhausted_extends _
  | succ fuel ih =>
      refine Extends.bind (Extends.refl _) fun canonical => Extends.bind (Extends.refl _)
        fun claimed => ?_
      cases claimed with
      | none => exact Extends.refl _
      | some claimed =>
          rw [walkGranted, walkGranted]
          exact (walkClaimedDirectory_extends ih place symlinkDepth).finallyUpdate _

theorem walkDirectory_extends {fuel fuel' : ℕ} (h : fuel ≤ fuel') (place : Place P)
    (symlinkDepth : ℕ) :
    Extends (walkDirectory K options fuel place symlinkDepth)
      (walkDirectory K options fuel' place symlinkDepth) := by
  induction h with
  | refl => exact Extends.refl _
  | step _ ih => exact ih.trans (walkDirectory_succ_extends _ place symlinkDepth)

end Fuel

/-! ### The budget bounds the walk -/

/-- A budget with room for fewer than `n` directories. -/
def HasRoom (n : ℕ) (s : TreeState W) : Prop :=
  s.budget.visitedDirectories ≤ s.budget.maxDirectories ∧
    s.budget.maxDirectories < s.budget.visitedDirectories + n

/-- A part of a discovery that claims no directory. -/
def Claimless {α : Type} (m : Discovery W ε α) : Prop :=
  ∀ n, Ends (HasRoom n) m (fun _ => HasRoom n) fun _ => True

section Claimless

variable {α β : Type}

theorem Claimless.pure (a : α) : Claimless (Pure.pure a : Discovery W ε α) := fun _ =>
  Ends.pure fun _ h => h

theorem Claimless.bind {m : Discovery W ε α} {f : α → Discovery W ε β} (hm : Claimless m)
    (hf : ∀ a, Claimless (f a)) : Claimless (m >>= f) := fun n => Ends.bind (hm n) fun a => hf a n

theorem Claimless.ofExcept (result : Except ε α) :
    Claimless (ofExcept result : Discovery W ε α) := fun _ =>
  Ends.ofExcept (fun _ _ _ h => h) fun _ _ => trivial

/-- A step that leaves the count of directories as it is. -/
theorem Claimless.step {f : TreeState W → Except ε α × TreeState W}
    (h : ∀ s, (f s).2.budget.visitedDirectories = s.budget.visitedDirectories ∧
      (f s).2.budget.maxDirectories = s.budget.maxDirectories) :
    Claimless (step f : Discovery W ε α) := fun n => Ends.step fun s hs => by
  obtain ⟨hvisited, hmax⟩ := h s
  cases hf : f s with
  | mk result s' =>
      rw [hf] at hvisited hmax
      cases result with
      | ok a =>
          change HasRoom n s'
          rwa [HasRoom, hvisited, hmax]
      | error error => trivial

theorem Claimless.update {f : TreeState W → TreeState W} (h : ∀ s, (f s).budget = s.budget) :
    Claimless (update f : Discovery W ε Unit) := fun n => Ends.update fun s hs => by
  rwa [HasRoom, h s]

theorem Claimless.mapM' {f : α → Discovery W ε β} (h : ∀ a, Claimless (f a)) (l : List α) :
    Claimless (l.mapM' f) := by
  induction l with
  | nil => exact Claimless.pure _
  | cons a l ih => exact (h a).bind fun b => ih.bind fun bs => Claimless.pure _

end Claimless

variable {K options}

theorem HasRoom.forM {γ : Type} {n : ℕ} {f : γ → Discovery W ε PUnit}
    (h : ∀ a, Ends (HasRoom n) (f a) (fun _ => HasRoom n) fun _ => True) (l : List γ) :
    Ends (HasRoom n) (l.forM f) (fun _ => HasRoom n) fun _ => True :=
  Ends.forM (I := fun _ => HasRoom n) fun _ a _ _ => h a

/-- Two walkers whose steps succeed alike. -/
structure Walker.Alike (K K' : Walker W ε P F) : Prop where
  errors : K.errors = K'.errors
  canonicalize : ∀ path, Fueled.Alike (K.canonicalize path) (K'.canonicalize path)
  openDirectory : ∀ place, Fueled.Alike (K.openDirectory place) (K'.openDirectory place)
  appendFile : ∀ file, Fueled.Alike (K.appendFile file) (K'.appendFile file)
  skip : ∀ place reason, Fueled.Alike (K.skip place reason) (K'.skip place reason)

end Walk

end Netcatty.Ssh
