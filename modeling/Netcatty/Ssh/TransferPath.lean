import Netcatty.Library.Catalog
import Netcatty.Library.Words
import Netcatty.Serial.FileName

/-! # Transfer destinations

The path of a tree entry is joined to a root in two ways: below a remote (POSIX) root as text, and
below a local root as a path of the operating system.  Both joins take the relative path apart at
`/` and refuse every segment that could replace the root or walk above it; below a local root the
rules of Windows hold as well where the root has the form of a Windows path.

What a join accepts is its root followed by the segments (`joinRemoteTransferTarget_ok`,
`joinLocalTransferTarget_ok`), and the segments are the components that the target has more than the
root (`components_below`).  A local path is that of a Unix system: the bytes of its name. -/

namespace Netcatty.Ssh

open Catalog Words
open Serial (encodeUtf8 decodeUtf8 encodeUtf8_inj encodeUtf8_of_decodeUtf8)

/-- The characters of a text. -/
abbrev Text := List Char

/-- A path of the operating system. -/
abbrev OsPath := List UInt8

inductive TransferPathError
  | emptyRoot
  | emptyRelativePath
  | containsNul
  | absoluteRelativePath
  | drivePrefixedRelativePath
  | emptySegment
  | currentDirectorySegment
  | parentDirectorySegment
  | invalidWindowsSegment
  | outsideRoot
  deriving DecidableEq

/-! ### Paths of the operating system -/

/-- A component of a path. -/
inductive Component
  | rootDir
  | curDir
  | parentDir
  | normal (name : OsPath)
  deriving DecidableEq

namespace OsPath

/-- The separator. -/
abbrev slash : UInt8 := 0x2f

/-- `.` -/
abbrev dot : UInt8 := 0x2e

def parts (path : OsPath) : List OsPath := wordsBy (· == slash) path

/-- Empty parts and inner `.` parts are no components. -/
def partComponents (path : OsPath) : List Component :=
  (path.parts.filter (· != [dot])).map fun part =>
    if part = [dot, dot] then .parentDir else .normal part

def components (path : OsPath) : List Component :=
  if path.head? = some slash then .rootDir :: path.partComponents
  else if path.parts.head? = some [dot] then .curDir :: path.partComponents
  else path.partComponents

def startsWith (path base : OsPath) : Bool := base.components.isPrefixOf path.components

/-- An absolute path replaces the one it is pushed onto. -/
def push (path name : OsPath) : OsPath :=
  if name.head? = some slash then name
  else if path = [] ∨ path.getLast? = some slash then path ++ name
  else path ++ slash :: name

end OsPath

/-- The text of a path, where it is Unicode. -/
def toText (path : OsPath) : Option Text := decodeUtf8 path

/-! ### Checks -/

/-- The NUL character. -/
abbrev nul : Char := Char.ofNat 0

def startsWithChar (c : Char) (text : Text) : Bool := text.head? == some c

def hasWindowsDrivePrefix : Text → Bool
  | drive :: ':' :: _ => drive.isAlpha
  | _ => false

def isInvalidWindowsSegment (segment : Text) : Bool :=
  segment.contains '\\' || segment.contains ':' || segment.getLast? == some '.' ||
    segment.getLast? == some ' '

def checkSegment (windowsTarget : Bool) (segment : Text) : Except TransferPathError Unit :=
  if segment = [] then .error .emptySegment
  else if segment = ['.'] then .error .currentDirectorySegment
  else if segment = ['.', '.'] then .error .parentDirectorySegment
  else if windowsTarget && isInvalidWindowsSegment segment then .error .invalidWindowsSegment
  else .ok ()

def validateRelativeSegments (relativePath : Text) (windowsTarget : Bool) :
    Except TransferPathError (List Text) :=
  if relativePath = [] then .error .emptyRelativePath
  else if nul ∈ relativePath then .error .containsNul
  else if startsWithChar '/' relativePath || (windowsTarget && startsWithChar '\\' relativePath) then
    .error .absoluteRelativePath
  else if hasWindowsDrivePrefix relativePath then .error .drivePrefixedRelativePath
  else do
    checkAll (checkSegment windowsTarget) (relativePath.splitOn '/')
    return relativePath.splitOn '/'

def validateTextRoot (root : Text) : Except TransferPathError Unit :=
  if root = [] then .error .emptyRoot
  else if nul ∈ root then .error .containsNul
  else .ok ()

def validateLocalRoot (root : OsPath) : Except TransferPathError Unit :=
  if root = [] then .error .emptyRoot
  else if 0 ∈ root then .error .containsNul
  else .ok ()

/-- ASCII letters. -/
def isAsciiAlphabetic (b : UInt8) : Bool := (0x41 ≤ b && b ≤ 0x5a) || (0x61 ≤ b && b ≤ 0x7a)

/-- On a Unix build: a root with a drive, or one that begins with `\\` or `//`. -/
def isWindowsLocalTarget : OsPath → Bool
  | first :: second :: _ =>
    (isAsciiAlphabetic first && second == 0x3a) || (first == 0x5c && second == 0x5c) ||
      (first == OsPath.slash && second == OsPath.slash)
  | _ => false

/-! ### Joins -/

/-- A remote path without the slashes at its end. -/
def trimEndSlashes (path : Text) : Text := path.rdropWhile (· == '/')

/-- The root directory keeps its slash. -/
def normalizeRemoteRoot (root : Text) : Text :=
  if (trimEndSlashes root).isEmpty && startsWithChar '/' root then ['/'] else trimEndSlashes root

def joinSegments (segments : List Text) : Text := ['/'].intercalate segments

def remoteTargetIsBelowRoot (root target : Text) : Bool :=
  if root = ['/'] then startsWithChar '/' target && target.length > 1
  else
    match target.dropPrefix? root with
    | some suffix => startsWithChar '/' suffix && suffix.length > 1
    | none => false

def joinBelow (normalizedRoot relative : Text) : Text :=
  if normalizedRoot = ['/'] then '/' :: relative else normalizedRoot ++ '/' :: relative

def joinRemoteTransferTarget (root relativePath : Text) : Except TransferPathError Text := do
  validateTextRoot root
  let segments ← validateRelativeSegments relativePath false
  if remoteTargetIsBelowRoot (normalizeRemoteRoot root)
      (joinBelow (normalizeRemoteRoot root) (joinSegments segments)) then
    return joinBelow (normalizeRemoteRoot root) (joinSegments segments)
  else throw .outsideRoot

/-- The root with one segment after another pushed onto it. -/
def pushAll (root : OsPath) (segments : List Text) : OsPath :=
  segments.foldl (fun target segment => target.push (encodeUtf8 segment)) root

def joinLocalTransferTarget (root : OsPath) (relativePath : Text) :
    Except TransferPathError OsPath := do
  validateLocalRoot root
  let segments ← validateRelativeSegments relativePath (isWindowsLocalTarget root)
  if (pushAll root segments).startsWith root then return pushAll root segments
  else throw .outsideRoot

/-! ### What the joins accept -/

section Segments

variable {windowsTarget : Bool} {root : OsPath} {relativePath segment : Text}
  {segments : List Text}

/-- A name that is a component of a path, wherever it is put. -/
structure OrdinaryName (windowsTarget : Bool) (name : Text) : Prop where
  ne_nil : name ≠ []
  ne_dot : name ≠ ['.']
  ne_dotDot : name ≠ ['.', '.']
  no_slash : '/' ∉ name
  no_drive : hasWindowsDrivePrefix name = false
  no_windows : windowsTarget = true → '\\' ∉ name ∧ ':' ∉ name

theorem checkSegment_ok (h : checkSegment windowsTarget segment = .ok ()) :
    segment ≠ [] ∧ segment ≠ ['.'] ∧ segment ≠ ['.', '.'] ∧
      (windowsTarget = true → '\\' ∉ segment ∧ ':' ∉ segment) := by
  unfold checkSegment at h
  split_ifs at h with hnil hdot hdotDot hwindows
  refine ⟨hnil, hdot, hdotDot, fun htarget => ?_⟩
  rw [htarget, Bool.true_and, Bool.not_eq_true, isInvalidWindowsSegment] at hwindows
  simp only [Bool.or_eq_false_iff, List.contains_eq_mem, decide_eq_false_iff_not] at hwindows
  exact hwindows.1.1

theorem validateRelativeSegments_ok
    (h : validateRelativeSegments relativePath windowsTarget = .ok segments) :
    segments = relativePath.splitOn '/' ∧ relativePath ≠ [] ∧
      hasWindowsDrivePrefix relativePath = false ∧
      ∀ segment ∈ segments, checkSegment windowsTarget segment = .ok () := by
  unfold validateRelativeSegments at h
  split_ifs at h with hnil hnul habsolute hdrive
  obtain ⟨hcheck, hsegments⟩ := check_ok_iff.mp h
  obtain rfl := pure_ok_iff.mp hsegments
  exact ⟨rfl, hnil, Bool.not_eq_true _ ▸ hdrive, (checkAll_ok_iff _).mp hcheck⟩

theorem joinSegments_splitOn (relativePath : Text) :
    joinSegments (relativePath.splitOn '/') = relativePath := List.intercalate_splitOn '/'

theorem joinBelow_normalizeRemoteRoot (root relative : Text) :
    joinBelow (normalizeRemoteRoot root) relative = trimEndSlashes root ++ '/' :: relative := by
  unfold joinBelow normalizeRemoteRoot
  by_cases htrim : trimEndSlashes root = []
  · rw [htrim]
    cases startsWithChar '/' root <;> rfl
  · have hlast := List.rdropWhile_last_not (· == '/') root htrim
    have hslash : trimEndSlashes root ≠ ['/'] := by
      intro heq
      have hlast' : ¬ ((trimEndSlashes root).getLast htrim == '/') = true := hlast
      simp only [heq, List.getLast_singleton, beq_self_eq_true, not_true_eq_false] at hlast'
    have hempty : ((trimEndSlashes root).isEmpty && startsWithChar '/' root) = false := by
      rw [List.isEmpty_eq_false_iff.mpr htrim, Bool.false_and]
    simp only [hempty, Bool.false_eq_true, if_false, if_neg hslash]

/-- A remote target is its root followed by the relative path. -/
theorem joinRemoteTransferTarget_ok {root target : Text}
    (h : joinRemoteTransferTarget root relativePath = .ok target) :
    target = trimEndSlashes root ++ '/' :: relativePath ∧
      hasWindowsDrivePrefix relativePath = false ∧
      ∀ segment ∈ relativePath.splitOn '/', checkSegment false segment = .ok () := by
  obtain ⟨-, h⟩ := check_ok_iff.mp h
  obtain ⟨segments, hsegments, h⟩ := bind_ok_iff.mp h
  obtain ⟨rfl, -, hdrive, hcheck⟩ := validateRelativeSegments_ok hsegments
  split_ifs at h with hbelow
  obtain rfl := pure_ok_iff.mp h
  exact ⟨by rw [joinSegments_splitOn, joinBelow_normalizeRemoteRoot], hdrive, hcheck⟩

/-- A local target is its root with the segments of the relative path pushed onto it. -/
theorem joinLocalTransferTarget_ok {target : OsPath}
    (h : joinLocalTransferTarget root relativePath = .ok target) :
    root ≠ [] ∧ target = pushAll root (relativePath.splitOn '/') ∧
      ∀ segment ∈ relativePath.splitOn '/',
        checkSegment (isWindowsLocalTarget root) segment = .ok () := by
  obtain ⟨hroot, h⟩ := check_ok_iff.mp h
  obtain ⟨segments, hsegments, h⟩ := bind_ok_iff.mp h
  obtain ⟨rfl, -, -, hcheck⟩ := validateRelativeSegments_ok hsegments
  split_ifs at h with hbelow
  obtain rfl := pure_ok_iff.mp h
  refine ⟨?_, rfl, hcheck⟩
  rintro rfl
  nomatch hroot

end Segments

/-! ### The components of a target -/

section Components

open OsPath

variable {path name : OsPath} {windowsTarget : Bool}

/-- What a path that is a single ordinary component satisfies. -/
structure NormalPart (name : OsPath) : Prop where
  ne_nil : name ≠ []
  ne_dot : name ≠ [dot]
  ne_dotDot : name ≠ [dot, dot]
  no_slash : slash ∉ name

theorem NormalPart.parts (h : NormalPart name) : name.parts = [name] :=
  wordsBy_word h.ne_nil fun b hb => by
    rw [beq_eq_false_iff_ne]
    rintro rfl
    exact h.no_slash hb

theorem NormalPart.head? (h : NormalPart name) : name.head? ≠ some slash := fun hhead =>
  h.no_slash (List.mem_of_mem_head? hhead)

theorem parts_push (h : NormalPart name) (hpath : path ≠ []) :
    (path.push name).parts = path.parts ++ [name] := by
  have hsep : (slash == slash) = true := beq_self_eq_true slash
  rw [← h.parts, push, if_neg h.head?]
  split_ifs with hlast
  · obtain ⟨init, rfl⟩ := List.getLast?_eq_some_iff.mp (hlast.resolve_left hpath)
    have hinit : OsPath.parts (init ++ [slash]) = OsPath.parts init := by
      have happend := wordsBy_append_sep (p := (· == slash)) init [] hsep
      rwa [wordsBy_nil, List.append_nil] at happend
    rw [hinit, List.append_assoc, List.singleton_append]
    exact wordsBy_append_sep _ _ hsep
  · exact wordsBy_append_sep _ _ hsep

theorem head?_push (h : NormalPart name) (hpath : path ≠ []) :
    (path.push name).head? = path.head? := by
  obtain ⟨b, rest, rfl⟩ := List.exists_cons_of_ne_nil hpath
  rw [push, if_neg h.head?]
  split_ifs <;> rfl

theorem push_ne_nil (h : NormalPart name) (hpath : path ≠ []) : path.push name ≠ [] := by
  intro hnil
  have hhead := head?_push h hpath
  rw [hnil] at hhead
  exact hpath (List.head?_eq_none_iff.mp hhead.symm)

/-- A name pushed onto a path is one component more. -/
theorem components_push (h : NormalPart name) (hpath : path ≠ []) :
    (path.push name).components = path.components ++ [.normal name] := by
  have hinner : (path.push name).partComponents = path.partComponents ++ [.normal name] := by
    have hdot : [name].filter (· != [dot]) = [name] :=
      List.filter_cons_of_pos (bne_iff_ne.mpr h.ne_dot)
    rw [partComponents, parts_push h hpath, List.filter_append, List.map_append, hdot,
      List.map_singleton, if_neg h.ne_dotDot, partComponents]
  rw [components, components, head?_push h hpath, hinner, parts_push h hpath]
  split_ifs with hroot hcur hcur' hcur'
  · rfl
  · rfl
  · -- a path without parts has only separators
    cases hparts : path.parts with
    | nil =>
        rw [hparts, List.nil_append, List.head?_cons] at hcur
        exact absurd (Option.some.inj hcur) h.ne_dot
    | cons part rest =>
        rw [hparts] at hcur hcur'
        exact absurd hcur hcur'
  · cases hparts : path.parts with
    | nil =>
        rw [hparts] at hcur'
        nomatch hcur'
    | cons part rest =>
        rw [hparts] at hcur hcur'
        exact absurd hcur' hcur
  · rfl

theorem OrdinaryName.normalPart {name : Text} (h : OrdinaryName windowsTarget name) :
    NormalPart (encodeUtf8 name) where
  ne_nil hnil := h.ne_nil (encodeUtf8_inj (show encodeUtf8 name = encodeUtf8 [] from hnil))
  ne_dot hdot := h.ne_dot (encodeUtf8_inj (show encodeUtf8 name = encodeUtf8 ['.'] from hdot))
  ne_dotDot hdots :=
    h.ne_dotDot (encodeUtf8_inj (show encodeUtf8 name = encodeUtf8 ['.', '.'] from hdots))
  no_slash := Serial.ascii_notMem_encodeUtf8 (b := 0x2f) (by omega) fun c hc hslash =>
    h.no_slash (by rwa [← show c = '/' from Char.toNat_inj.mp hslash])

/-- **Below its root**: the names pushed onto a root are the components of the target that the root
does not have. -/
theorem components_below {root : OsPath} (hroot : root ≠ []) {names : List Text}
    (h : ∀ name ∈ names, OrdinaryName windowsTarget name) :
    (pushAll root names).components =
      root.components ++ names.map fun name => .normal (encodeUtf8 name) := by
  induction names generalizing root with
  | nil => exact (List.append_nil _).symm
  | cons name names ih =>
      have hname := (h name List.mem_cons_self).normalPart
      change (pushAll (root.push (encodeUtf8 name)) names).components = _
      rw [ih (push_ne_nil hname hroot) fun other hother => h other (List.mem_cons_of_mem _ hother),
        components_push hname hroot, List.append_assoc]
      rfl

end Components

end Netcatty.Ssh
