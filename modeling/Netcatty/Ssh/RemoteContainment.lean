import Netcatty.Ssh.RemoteTree

/-! # A discovery stays below its root

A server may answer as it likes, and otherwise each time it is asked: `RemoteServer` is a strategy
over the calls so far.  Whatever it answers, the discovery of its tree comes to an end within its
budget, and a plan that it accepts stays below the local root (`discovery_contained`).

The walk is at a list of names, the path from the root.  `Found` is what holds of everything found
so far; the walk of a directory only adds entries whose path continues that of the directory
(`keys`), so the walks of its children do not meet.  The canonical paths of the directories above
are those that the budget has as active. -/

namespace Netcatty.Ssh

open Catalog Fueled
open Serial (encodeUtf8 decodeUtf8 encodeUtf8_of_decodeUtf8)

/-! ### Servers -/

inductive SourceCall
  | canonicalize (path : Text) (answer : Except SftpError Text)
  | readDirectory (path : Text) (answer : Except SftpError (List SftpEntry))
  | followedMetadata (path : Text) (answer : Except SftpError SftpMetadata)

/-- The answers of a server, which may depend on everything that it was asked before. -/
structure RemoteServer where
  canonicalize : List SourceCall → Text → Except SftpError Text
  readDirectory : List SourceCall → Text → Except SftpError (List SftpEntry)
  followedMetadata : List SourceCall → Text → Except SftpError SftpMetadata

def RemoteServer.source (server : RemoteServer) : RemoteTreeSource (List SourceCall) where
  canonicalize path calls :=
    (server.canonicalize calls path,
      calls ++ [.canonicalize path (server.canonicalize calls path)])
  readDirectory path calls :=
    (server.readDirectory calls path,
      calls ++ [.readDirectory path (server.readDirectory calls path)])
  followedMetadata path calls :=
    (server.followedMetadata calls path,
      calls ++ [.followedMetadata path (server.followedMetadata calls path)])

namespace SourceCall

def askedPath : SourceCall → Option Text
  | canonicalize path _ => some path
  | _ => none

/-- The number of entries listed, without `.` and `..`. -/
def properEntries : SourceCall → ℕ
  | readDirectory _ (.ok listed) => (listed.filter SftpEntry.isProper).length
  | _ => 0

def canonicalPath (path : Text) : SourceCall → Option Text
  | canonicalize asked (.ok canonical) =>
    if asked = path then some (normalizeCanonicalDirectoryPath canonical) else none
  | _ => none

end SourceCall

/-- The paths whose canonical form was asked for. -/
def askedPaths (calls : List SourceCall) : List Text := calls.filterMap SourceCall.askedPath

/-- The canonical path that a path was claimed under. -/
def canonicalOf (calls : List SourceCall) (path : Text) : Option Text :=
  calls.findSome? (SourceCall.canonicalPath path)

/-! ### Paths from the root -/

def segments (relativePath : Text) : List Text :=
  if relativePath = [] then [] else relativePath.splitOn '/'

def parentPath (relativePath : Text) : Text := joinSegments (segments relativePath).dropLast

section Names

variable {windowsTarget : Bool} {names : List Text} {name : Text}

theorem joinSegments_concat (names : List Text) (name : Text) :
    joinSegments (names ++ [name]) =
      if names = [] then name else joinSegments names ++ '/' :: name := by
  induction names with
  | nil => exact List.intercalate_singleton
  | cons first names ih =>
      cases names with
      | nil => simp [joinSegments, List.intercalate_cons_cons]
      | cons second names =>
          have hleft : joinSegments (first :: second :: names ++ [name]) =
              first ++ ['/'] ++ joinSegments (second :: names ++ [name]) :=
            List.intercalate_cons_cons
          have hright : joinSegments (first :: second :: names) =
              first ++ ['/'] ++ joinSegments (second :: names) := List.intercalate_cons_cons
          rw [hleft, ih, if_neg (List.cons_ne_nil _ _), if_neg (List.cons_ne_nil _ _), hright,
            ← List.append_assoc]

/-- The path of names starts with the first name. -/
theorem joinSegments_head? (hname : ∀ n ∈ names, OrdinaryName windowsTarget n)
    (hnames : names ≠ []) : ∃ c rest, joinSegments names = c :: rest ∧ c ≠ '/' := by
  obtain ⟨first, more, rfl⟩ := List.exists_cons_of_ne_nil hnames
  have hfirst := hname first List.mem_cons_self
  obtain ⟨c, chars, rfl⟩ := List.exists_cons_of_ne_nil hfirst.ne_nil
  have hc : c ≠ '/' := fun hslash => hfirst.no_slash (hslash ▸ List.mem_cons_self)
  cases more with
  | nil => exact ⟨c, chars, List.intercalate_singleton, hc⟩
  | cons second more =>
      exact ⟨c, chars ++ ['/'] ++ joinSegments (second :: more), List.intercalate_cons_cons, hc⟩

theorem joinSegments_ne_nil (hname : ∀ n ∈ names, OrdinaryName windowsTarget n)
    (hnames : names ≠ []) : joinSegments names ≠ [] := by
  obtain ⟨c, rest, heq, -⟩ := joinSegments_head? hname hnames
  rw [heq]
  exact List.cons_ne_nil _ _

theorem splitOn_joinSegments (hname : ∀ n ∈ names, OrdinaryName windowsTarget n)
    (hnames : names ≠ []) : (joinSegments names).splitOn '/' = names :=
  List.splitOn_intercalate '/' (fun n hn => (hname n hn).no_slash) hnames

@[simp] theorem segments_nil : segments [] = [] := rfl

theorem segments_joinSegments (hname : ∀ n ∈ names, OrdinaryName windowsTarget n) :
    segments (joinSegments names) = names := by
  by_cases hnames : names = []
  · rw [hnames]
    rfl
  · rw [segments, if_neg (joinSegments_ne_nil hname hnames), splitOn_joinSegments hname hnames]

end Names

/-- The path of names below a remote root. -/
def sourcePathOf (sourceRoot : Text) (names : List Text) : Text :=
  if names = [] then sourceRoot else trimEndSlashes sourceRoot ++ '/' :: joinSegments names

/-- The names of a path below a remote root. -/
def sourceNames (sourceRoot path : Text) : List Text :=
  segments (path.drop ((trimEndSlashes sourceRoot).length + 1))

/-- A root as the discovery uses it: without slashes at its end, or the root directory. -/
def NormalRoot (sourceRoot : Text) : Prop :=
  sourceRoot.length ≤ (trimEndSlashes sourceRoot).length + 1

section SourcePaths

variable {windowsTarget : Bool} {sourceRoot : Text} {names : List Text} {name : Text}

theorem trimEndSlashes_idem (path : Text) :
    trimEndSlashes (trimEndSlashes path) = trimEndSlashes path := List.rdropWhile_idempotent _ _

theorem normalRoot_normalizeRemoteRoot (root : Text) : NormalRoot (normalizeRemoteRoot root) := by
  unfold NormalRoot normalizeRemoteRoot
  split_ifs with hroot
  · exact Nat.le_add_left 1 _
  · rw [trimEndSlashes_idem]
    exact Nat.le_succ _

theorem sourceNames_sourcePathOf (hroot : NormalRoot sourceRoot)
    (hname : ∀ n ∈ names, OrdinaryName windowsTarget n) :
    sourceNames sourceRoot (sourcePathOf sourceRoot names) = names := by
  unfold sourceNames sourcePathOf
  split_ifs with hnames
  · rw [hnames, List.drop_eq_nil_of_le hroot]
    rfl
  · rw [List.drop_append, List.drop_eq_nil_of_le (Nat.le_succ _), List.nil_append,
      Nat.add_sub_cancel_left]
    exact segments_joinSegments hname

theorem trimEndSlashes_concat {path : Text} (hname : OrdinaryName windowsTarget name) :
    trimEndSlashes (path ++ name) = path ++ name := by
  rw [trimEndSlashes, List.rdropWhile_eq_self_iff]
  intro hne
  have hlast := List.getLast_append_of_ne_nil hne hname.ne_nil
  rw [hlast, beq_iff_eq]
  intro hslash
  exact hname.no_slash (hslash ▸ List.getLast_mem hname.ne_nil)

/-- The path of a directory is the root of its entries. -/
theorem sourcePathOf_concat (hname : ∀ n ∈ names, OrdinaryName windowsTarget n) :
    trimEndSlashes (sourcePathOf sourceRoot names) ++ '/' :: name =
      sourcePathOf sourceRoot (names ++ [name]) := by
  have hconcat : names ++ [name] ≠ [] := List.append_ne_nil_of_right_ne_nil _ (List.cons_ne_nil _ _)
  rw [sourcePathOf, sourcePathOf, if_neg hconcat, joinSegments_concat]
  split_ifs with hnames
  · rfl
  · obtain ⟨init, last, rfl⟩ := List.eq_nil_or_concat' names |>.resolve_left hnames
    have hlast := hname last (List.mem_append_right _ List.mem_cons_self)
    have htrim : trimEndSlashes (trimEndSlashes sourceRoot ++ '/' :: joinSegments (init ++ [last])) =
        trimEndSlashes sourceRoot ++ '/' :: joinSegments (init ++ [last]) := by
      rw [joinSegments_concat]
      split_ifs
      · exact (List.append_cons _ '/' last).symm ▸ trimEndSlashes_concat hlast
      · rw [← List.cons_append, ← List.append_assoc,
          List.append_cons (trimEndSlashes sourceRoot ++ '/' :: joinSegments init) '/' last]
        exact trimEndSlashes_concat hlast
    rw [htrim, List.append_assoc, List.cons_append]

end SourcePaths

/-! ### What is found -/

/-- The entry whose path from the root is a list of names. -/
structure EntryAt (sourceRoot : Text) (targetRoot : OsPath) (names : List Text)
    (relativePath sourcePath targetPath : Text) : Prop where
  ordinary : ∀ n ∈ names, OrdinaryName (isWindowsLocalTarget targetRoot) n
  relativePath_eq : relativePath = joinSegments names
  sourcePath_eq : sourcePath = sourcePathOf sourceRoot names
  target : toText (pushAll targetRoot names) = some targetPath

/-- The paths from the root that a plan holds. -/
def takenKeys (directories : List TreeDirectoryEntry) (files : List TreeFileEntry) :
    List (List Text) :=
  directories.map (fun d => segments d.relativePath) ++ files.map fun f => segments f.relativePath

/-- The directories, the files and the calls of a discovery on its way. -/
structure Found (sourceRoot : Text) (targetRoot : OsPath) (directories : List TreeDirectoryEntry)
    (files : List TreeFileEntry) (calls : List SourceCall) : Prop where
  directories_at : ∀ d ∈ directories, ∃ names,
    EntryAt sourceRoot targetRoot names d.relativePath d.sourcePath d.targetPath
  files_at : ∀ f ∈ files, ∃ names, names ≠ [] ∧
    EntryAt sourceRoot targetRoot names f.relativePath f.sourcePath f.targetPath
  distinct : (takenKeys directories files).Nodup
  file_parents : ∀ f ∈ files, parentPath f.relativePath ∈ directories.map (·.relativePath)
  directory_parents : ∀ before d after, directories = before ++ d :: after → d.relativePath ≠ [] →
    parentPath d.relativePath ∈ before.map (·.relativePath)
  asked_once : (askedPaths calls).Nodup
  answered : ∀ d ∈ directories, ∃ canonical, canonicalOf calls d.sourcePath = some canonical
  branches : ∀ d ∈ directories, ∀ d' ∈ directories, ∀ rest, rest ≠ [] →
    segments d'.relativePath = segments d.relativePath ++ rest →
      canonicalOf calls d.sourcePath ≠ canonicalOf calls d'.sourcePath

/-- The numbers of a plan are those of its files. -/
structure Tallied (files : List TreeFileEntry) (totalFiles totalBytes : ℕ) : Prop where
  count : totalFiles = files.length
  bytes : totalBytes = (files.map (·.size)).sum
  indices : files.map (·.directoryEntryIndex) = List.range files.length

section Calls

variable {calls : List SourceCall} {call : SourceCall} {path : Text}

theorem askedPaths_concat (calls : List SourceCall) (call : SourceCall) :
    askedPaths (calls ++ [call]) = askedPaths calls ++ call.askedPath.toList := by
  rw [askedPaths, List.filterMap_append, askedPaths]
  cases call <;> rfl

theorem canonicalOf_concat_of_some {canonical : Text} (h : canonicalOf calls path = some canonical) :
    canonicalOf (calls ++ [call]) path = some canonical := by
  rw [canonicalOf, List.findSome?_append]
  change (canonicalOf calls path).or _ = some canonical
  rw [h, Option.some_or]

theorem canonicalOf_eq_none (h : path ∉ askedPaths calls) : canonicalOf calls path = none := by
  refine List.findSome?_eq_none_iff.mpr fun call hcall => ?_
  cases call with
  | canonicalize asked answer =>
      have hne : asked ≠ path := fun heq =>
        h (List.mem_filterMap.mpr ⟨_, hcall, congrArg some heq⟩)
      cases answer with
      | error error => rfl
      | ok canonical => exact if_neg hne
  | readDirectory asked answer => rfl
  | followedMetadata asked answer => rfl

theorem canonicalOf_asked {canonical : Text} (h : path ∉ askedPaths calls) :
    canonicalOf (calls ++ [.canonicalize path (.ok canonical)]) path =
      some (normalizeCanonicalDirectoryPath canonical) := by
  rw [canonicalOf, List.findSome?_append]
  have hnone : calls.findSome? (SourceCall.canonicalPath path) = none := canonicalOf_eq_none h
  rw [hnone]
  simp [SourceCall.canonicalPath]

end Calls

section Found

variable {sourceRoot : Text} {targetRoot : OsPath} {directories : List TreeDirectoryEntry}
  {files : List TreeFileEntry} {calls : List SourceCall} {names : List Text}

theorem EntryAt.segments {relativePath sourcePath targetPath : Text}
    (h : EntryAt sourceRoot targetRoot names relativePath sourcePath targetPath) :
    Ssh.segments relativePath = names := by
  rw [h.relativePath_eq, segments_joinSegments h.ordinary]

/-- A question more, of a path that was not asked for. -/
theorem Found.called (h : Found sourceRoot targetRoot directories files calls) {call : SourceCall}
    (hnew : ∀ path ∈ call.askedPath, path ∉ askedPaths calls) :
    Found sourceRoot targetRoot directories files (calls ++ [call]) where
  directories_at := h.directories_at
  files_at := h.files_at
  distinct := h.distinct
  file_parents := h.file_parents
  directory_parents := h.directory_parents
  asked_once := by
    rw [askedPaths_concat]
    refine List.nodup_append.mpr ⟨h.asked_once, ?_, fun path hpath path' hpath' heq => ?_⟩
    · cases call.askedPath with
      | none => exact List.nodup_nil
      | some path => exact List.nodup_singleton path
    · exact hnew path' (Option.mem_toList.mp hpath') (heq ▸ hpath)
  answered d hd := by
    obtain ⟨canonical, hcanonical⟩ := h.answered d hd
    exact ⟨canonical, canonicalOf_concat_of_some hcanonical⟩
  branches d hd d' hd' rest hrest hbelow := by
    obtain ⟨canonical, hcanonical⟩ := h.answered d hd
    obtain ⟨canonical', hcanonical'⟩ := h.answered d' hd'
    have hne := h.branches d hd d' hd' rest hrest hbelow
    rw [hcanonical, hcanonical'] at hne
    rwa [canonicalOf_concat_of_some hcanonical, canonicalOf_concat_of_some hcanonical']

/-- A directory more, below one that is there. -/
theorem Found.directory (h : Found sourceRoot targetRoot directories files calls)
    {entry : TreeDirectoryEntry}
    (hentry : EntryAt sourceRoot targetRoot names entry.relativePath entry.sourcePath
      entry.targetPath)
    (hfresh : ∀ key ∈ takenKeys directories files, ¬ names <+: key)
    (hparent : names ≠ [] → joinSegments names.dropLast ∈ directories.map (·.relativePath))
    {canonical : Text} (hcanonical : canonicalOf calls entry.sourcePath = some canonical)
    (habove : ∀ d ∈ directories, ∀ rest, rest ≠ [] → names = segments d.relativePath ++ rest →
      canonicalOf calls d.sourcePath ≠ some canonical) :
    Found sourceRoot targetRoot (directories ++ [entry]) files calls where
  directories_at d hd := by
    obtain hd | hd := List.mem_append.mp hd
    · exact h.directories_at d hd
    · obtain rfl := List.mem_singleton.mp hd
      exact ⟨names, hentry⟩
  files_at := h.files_at
  distinct := by
    have hnew : names ∉ takenKeys directories files := fun hmem =>
      hfresh names hmem List.prefix_rfl
    have hperm : (takenKeys (directories ++ [entry]) files).Perm
        (names :: takenKeys directories files) := by
      rw [takenKeys, List.map_append, List.map_singleton, hentry.segments, List.append_assoc]
      exact List.perm_middle
    exact hperm.nodup_iff.mpr (List.nodup_cons.mpr ⟨hnew, h.distinct⟩)
  file_parents f hf := by
    rw [List.map_append]
    exact List.mem_append_left _ (h.file_parents f hf)
  directory_parents before d after heq hroot := by
    obtain ⟨hbefore, hd⟩ | ⟨after', hdirectories, -⟩ :=
        concat_eq_append_cons heq
    · subst hbefore hd
      rw [parentPath, hentry.segments]
      refine hparent fun hnil => hroot ?_
      rw [hentry.relativePath_eq, hnil]
      rfl
    · exact h.directory_parents before d after' hdirectories hroot
  asked_once := h.asked_once
  answered d hd := by
    obtain hd | hd := List.mem_append.mp hd
    · exact h.answered d hd
    · obtain rfl := List.mem_singleton.mp hd
      exact ⟨canonical, hcanonical⟩
  branches d hd d' hd' rest hrest hbelow := by
    have hold : ∀ d ∈ directories, segments d.relativePath ∈ takenKeys directories files :=
      fun d hd => List.mem_append_left _ (List.mem_map_of_mem hd)
    obtain hmem | hnew := List.mem_append.mp hd <;> obtain hmem' | hnew' := List.mem_append.mp hd'
    · exact h.branches d hmem d' hmem' rest hrest hbelow
    · obtain rfl := List.mem_singleton.mp hnew'
      rw [hcanonical]
      exact habove d hmem rest hrest (by rw [← hbelow, hentry.segments])
    · obtain rfl := List.mem_singleton.mp hnew
      rw [hentry.segments] at hbelow
      exact absurd ⟨rest, hbelow.symm⟩ (hfresh _ (hold d' hmem'))
    · obtain rfl := List.mem_singleton.mp hnew
      obtain rfl := List.mem_singleton.mp hnew'
      exact absurd (List.self_eq_append_right.mp hbelow) hrest
where
  /-- A place in a list with an element at its end is that element or a place before it. -/
  concat_eq_append_cons {before after : List TreeDirectoryEntry} {d : TreeDirectoryEntry}
      (heq : directories ++ [entry] = before ++ d :: after) :
      (before = directories ∧ d = entry) ∨
        ∃ after', directories = before ++ d :: after' ∧ after = after' ++ [entry] := by
    rcases List.eq_nil_or_concat' after with rfl | ⟨after', last, rfl⟩
    · obtain ⟨hbefore, hd⟩ := List.append_inj' heq rfl
      exact .inl ⟨hbefore.symm, (List.singleton_injective hd).symm⟩
    · refine .inr ⟨after', ?_⟩
      rw [← List.cons_append, ← List.append_assoc] at heq
      obtain ⟨hinit, hlast⟩ := List.append_inj' heq rfl
      exact ⟨hinit, by rw [← List.singleton_injective hlast]⟩

/-- A file more, in a directory that is there. -/
theorem Found.file (h : Found sourceRoot targetRoot directories files calls)
    {entry : TreeFileEntry} (hnames : names ≠ [])
    (hentry : EntryAt sourceRoot targetRoot names entry.relativePath entry.sourcePath
      entry.targetPath)
    (hfresh : names ∉ takenKeys directories files)
    (hparent : joinSegments names.dropLast ∈ directories.map (·.relativePath)) :
    Found sourceRoot targetRoot directories (files ++ [entry]) calls where
  directories_at := h.directories_at
  files_at f hf := by
    obtain hf | hf := List.mem_append.mp hf
    · exact h.files_at f hf
    · obtain rfl := List.mem_singleton.mp hf
      exact ⟨names, hnames, hentry⟩
  distinct := by
    have hperm : (takenKeys directories (files ++ [entry])).Perm
        (names :: takenKeys directories files) := by
      rw [takenKeys, List.map_append, List.map_singleton, hentry.segments, ← List.append_assoc]
      exact List.perm_append_singleton _ _
    exact hperm.nodup_iff.mpr (List.nodup_cons.mpr ⟨hfresh, h.distinct⟩)
  file_parents f hf := by
    obtain hf | hf := List.mem_append.mp hf
    · exact h.file_parents f hf
    · obtain rfl := List.mem_singleton.mp hf
      rw [parentPath, hentry.segments]
      exact hparent
  directory_parents := h.directory_parents
  asked_once := h.asked_once
  answered := h.answered
  branches := h.branches

theorem Tallied.file {totalFiles totalBytes : ℕ} (h : Tallied files totalFiles totalBytes)
    {entry : TreeFileEntry} (hindex : entry.directoryEntryIndex = totalFiles) :
    Tallied (files ++ [entry]) (totalFiles + 1) (totalBytes + entry.size) where
  count := by rw [List.length_append, h.count, List.length_singleton]
  bytes := by simp [h.bytes]
  indices := by
    rw [List.map_append, h.indices, List.length_append, List.length_singleton, List.range_succ,
      List.map_singleton, hindex, h.count]

end Found

end Netcatty.Ssh
