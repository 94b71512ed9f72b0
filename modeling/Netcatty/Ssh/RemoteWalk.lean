import Netcatty.Ssh.RemoteContainment

/-! # The walk of a hostile tree -/

namespace Netcatty.Ssh

open Catalog Fueled
open Serial (encodeUtf8 decodeUtf8 encodeUtf8_of_decodeUtf8)

abbrev RemoteState : Type := TreeState (List SourceCall)

def TreeState.called (s : RemoteState) (call : SourceCall) : RemoteState :=
  { s with world := s.world ++ [call] }

/-- The directories that were passed over because their branch has them already. -/
def cycleCount (skipped : List TreeSkippedEntry) : ℕ := skipped.countP (·.reason = .cycleDetected)

/-- What a discovery has spent wherever it ends: one claim for each directory of its budget and one
that is refused, beside those of a cycle. -/
structure WithinBudget (options : TreeOptions) (s : RemoteState) : Prop where
  visited : s.budget.visitedDirectories ≤ options.maxDirectories
  claims : (askedPaths s.world).length ≤ options.maxDirectories + 1 + cycleCount s.skippedEntries

/-- A discovery on its way, in directories at `above` whose canonical paths are `active`; the entries
of the last listing may not be accounted for yet. -/
structure Ready (sourceRoot : Text) (targetRoot : OsPath) (options : TreeOptions)
    (above : List Text → Prop) (active : List Text) (fuel unaccounted : ℕ) (s : RemoteState) :
    Prop where
  found : Found sourceRoot targetRoot s.directories s.files s.world
  tallied : Tallied s.files s.totalFiles s.totalBytes
  listed : (s.world.map SourceCall.properEntries).sum = s.budget.visitedEntries + unaccounted
  limit : s.budget.maxDirectories = options.maxDirectories
  visited : s.budget.visitedDirectories ≤ options.maxDirectories
  room : options.maxDirectories < s.budget.visitedDirectories + fuel
  claims : (askedPaths s.world).length ≤
    s.budget.visitedDirectories + cycleCount s.skippedEntries
  active_eq : s.budget.activeCanonicalDirectories = active
  branch : ∀ d ∈ s.directories, above (segments d.relativePath) →
    ∃ canonical ∈ active, canonicalOf s.world d.sourcePath = some canonical

/-- The paths from the root that a discovery has dealt with. -/
def keys (sourceRoot : Text) (s : RemoteState) : List (List Text) :=
  takenKeys s.directories s.files ++ (askedPaths s.world).map (sourceNames sourceRoot)

/-- What a part of a discovery adds is inside of a set of paths. -/
structure Grows (sourceRoot : Text) (inside : List Text → Prop) (s s' : RemoteState) : Prop where
  keys_inside : ∀ key ∈ keys sourceRoot s', key ∈ keys sourceRoot s ∨ inside key
  directories_inside : ∀ d ∈ s'.directories, d ∈ s.directories ∨ inside (segments d.relativePath)
  kept : s.directories ⊆ s'.directories
  calls : s.world <+: s'.world

section Grows

variable {sourceRoot : Text} {inside inside' : List Text → Prop} {s s' s'' : RemoteState}

theorem Grows.refl (s : RemoteState) : Grows sourceRoot inside s s where
  keys_inside _ h := .inl h
  directories_inside _ h := .inl h
  kept := List.Subset.refl _
  calls := List.prefix_rfl

theorem Grows.trans (h : Grows sourceRoot inside s s') (h' : Grows sourceRoot inside s' s'') :
    Grows sourceRoot inside s s'' where
  keys_inside key hkey := by
    obtain hkey | hinside := h'.keys_inside key hkey
    · exact h.keys_inside key hkey
    · exact .inr hinside
  directories_inside d hd := by
    obtain hd | hinside := h'.directories_inside d hd
    · exact h.directories_inside d hd
    · exact .inr hinside
  kept _ hd := h'.kept (h.kept hd)
  calls := h.calls.trans h'.calls

theorem Grows.mono (h : Grows sourceRoot inside s s') (hinside : ∀ key, inside key → inside' key) :
    Grows sourceRoot inside' s s' where
  keys_inside key hkey := (h.keys_inside key hkey).imp_right (hinside key)
  directories_inside d hd := (h.directories_inside d hd).imp_right (hinside _)
  kept := h.kept
  calls := h.calls

theorem canonicalOf_of_earlier {calls calls' : List SourceCall} (h : calls <+: calls') {path : Text}
    {canonical : Text} (hcanonical : canonicalOf calls path = some canonical) :
    canonicalOf calls' path = some canonical := by
  obtain ⟨more, rfl⟩ := h
  rw [canonicalOf, List.findSome?_append]
  change (canonicalOf calls path).or _ = some canonical
  rw [hcanonical, Option.some_or]

theorem grows_called {call : SourceCall}
    (h : ∀ path ∈ call.askedPath, inside (sourceNames sourceRoot path)) :
    Grows sourceRoot inside s (s.called call) where
  keys_inside key hkey := by
    change key ∈ takenKeys s.directories s.files ++
      (askedPaths (s.world ++ [call])).map (sourceNames sourceRoot) at hkey
    rw [askedPaths_concat, List.map_append, ← List.append_assoc] at hkey
    obtain hkey | hnew := List.mem_append.mp hkey
    · exact .inl hkey
    · obtain ⟨path, hpath, rfl⟩ := List.mem_map.mp hnew
      exact .inr (h path (Option.mem_toList.mp hpath))
  directories_inside _ hd := .inl hd
  kept := List.Subset.refl _
  calls := List.prefix_append _ _

end Grows

section Ready

variable {sourceRoot : Text} {targetRoot : OsPath} {options : TreeOptions}
  {above above' : List Text → Prop} {active : List Text} {fuel unaccounted : ℕ} {s s' : RemoteState}

theorem Ready.withinBudget
    (h : Ready sourceRoot targetRoot options above active fuel unaccounted s) :
    WithinBudget options s where
  visited := h.visited
  claims := by
    have hclaims := h.claims
    have hvisited := h.visited
    omega

/-- The directories above stay what they are where nothing is added above. -/
theorem Ready.branch_of_grows {inside : List Text → Prop}
    (h : Ready sourceRoot targetRoot options above active fuel unaccounted s)
    (hgrows : Grows sourceRoot inside s s') (houtside : ∀ key, inside key → ¬ above key) :
    ∀ d ∈ s'.directories, above (segments d.relativePath) →
      ∃ canonical ∈ active, canonicalOf s'.world d.sourcePath = some canonical := by
  intro d hd habove
  obtain hold | hinside := hgrows.directories_inside d hd
  · obtain ⟨canonical, hactive, hcanonical⟩ := h.branch d hold habove
    exact ⟨canonical, hactive, canonicalOf_of_earlier hgrows.calls hcanonical⟩
  · exact absurd habove (houtside _ hinside)

/-- A question that does not claim. -/
theorem Ready.called (h : Ready sourceRoot targetRoot options above active fuel unaccounted s)
    (call : SourceCall) (hasked : call.askedPath = none) :
    Ready sourceRoot targetRoot options above active fuel (unaccounted + call.properEntries)
      (s.called call) where
  found := h.found.called fun path hpath => by rw [hasked] at hpath; nomatch hpath
  tallied := h.tallied
  listed := by
    change ((s.world ++ [call]).map SourceCall.properEntries).sum = _
    rw [List.map_append, List.sum_append, h.listed, List.map_singleton, List.sum_singleton,
      Nat.add_assoc]
    rfl
  limit := h.limit
  visited := h.visited
  room := h.room
  claims := by
    change (askedPaths (s.world ++ [call])).length ≤ _
    rw [askedPaths_concat, hasked, Option.toList_none, List.append_nil]
    exact h.claims
  active_eq := h.active_eq
  branch := by
    have hgrows : Grows sourceRoot (fun _ => False) s (s.called call) :=
      grows_called fun path hpath => by rw [hasked] at hpath; nomatch hpath
    exact h.branch_of_grows hgrows fun _ hfalse => hfalse.elim

/-- An entry that is passed over, and not for a cycle or for one. -/
theorem Ready.skipped (h : Ready sourceRoot targetRoot options above active fuel unaccounted s)
    (entry : TreeSkippedEntry) :
    Ready sourceRoot targetRoot options above active fuel unaccounted
      { s with skippedEntries := s.skippedEntries ++ [entry] } where
  found := h.found
  tallied := h.tallied
  listed := h.listed
  limit := h.limit
  visited := h.visited
  room := h.room
  claims := by
    have hcount : cycleCount s.skippedEntries ≤ cycleCount (s.skippedEntries ++ [entry]) := by
      rw [cycleCount, cycleCount, List.countP_append]
      exact Nat.le_add_right _ _
    exact h.claims.trans (Nat.add_le_add_left hcount _)
  active_eq := h.active_eq
  branch := h.branch

end Ready

/-! ### The steps -/

section Steps

variable {sourceRoot : Text} {targetRoot : OsPath} {options : TreeOptions}
  {above : List Text → Prop} {active : List Text} {fuel unaccounted : ℕ} {s : RemoteState}
  {names : List Text} {D : ManifestDigest}

/-- The place whose path from the root is a list of names. -/
structure PlaceAt (sourceRoot : Text) (targetRoot : OsPath) (names : List Text)
    (place : Place Text) : Prop where
  ordinary : ∀ n ∈ names, OrdinaryName (isWindowsLocalTarget targetRoot) n
  relativePath_eq : place.relativePath = joinSegments names
  sourcePath_eq : place.sourcePath = sourcePathOf sourceRoot names

structure PendingAt (sourceRoot : Text) (targetRoot : OsPath) (names : List Text)
    (entry : PendingEntry) : Prop extends PlaceAt sourceRoot targetRoot names entry.toPlace where
  targetPath_eq : entry.targetPath = pushAll targetRoot names

theorem PlaceAt.segments {place : Place Text} (h : PlaceAt sourceRoot targetRoot names place) :
    Ssh.segments place.relativePath = names := by
  rw [h.relativePath_eq, segments_joinSegments h.ordinary]

theorem askSource_ends {α : Type} {question : List SourceCall → Except SftpError α × List SourceCall}
    {answer : Except SftpError α} {call : SourceCall}
    (h : question s.world = (answer, s.world ++ [call])) :
    Ends (· = s) (askSource question) (fun a s' => answer = .ok a ∧ s' = s.called call)
      (· = s.called call) := by
  refine Ends.step fun t ht => ?_
  subst ht
  cases answer with
  | ok a => simp only [h]; exact ⟨rfl, rfl⟩
  | error error => simp only [h]; rfl

theorem mapError_ok {ε ε' α : Type} {f : ε → ε'} {x : Except ε α} {a : α}
    (h : x.mapError f = .ok a) : x = .ok a := by
  cases x with
  | ok b => exact congrArg _ (Except.ok.inj h)
  | error error => nomatch h

theorem localPathText_ok {path : OsPath} {text : Text} (h : localPathText path = .ok text) :
    toText path = some text := by
  unfold localPathText at h
  cases htext : toText path with
  | some text' =>
      rw [htext] at h
      exact congrArg some (Except.ok.inj h)
  | none =>
      rw [htext] at h
      nomatch h

/-- The relative path of an entry is that of its directory and its name. -/
theorem safeRelativeChild_ok {name relativePath : Text}
    (hordinary : ∀ n ∈ names ++ [name], OrdinaryName false n)
    (h : safeRelativeChild (joinSegments names) name = .ok relativePath) :
    relativePath = joinSegments (names ++ [name]) := by
  have hnames : ∀ n ∈ names, OrdinaryName false n := fun n hn =>
    hordinary n (List.mem_append_left _ hn)
  have hcandidate : (if (joinSegments names).isEmpty then name
      else joinSegments names ++ '/' :: name) = joinSegments (names ++ [name]) := by
    rw [joinSegments_concat]
    by_cases hnil : names = []
    · rw [hnil]
      rfl
    · rw [if_neg hnil, if_neg]
      rw [List.isEmpty_iff]
      exact joinSegments_ne_nil hnames hnil
  unfold safeRelativeChild at h
  rw [hcandidate] at h
  obtain ⟨validated, hjoin, h⟩ := bind_ok_iff.mp h
  obtain ⟨rfl, -, -⟩ := joinRemoteTransferTarget_ok (mapError_ok hjoin)
  obtain ⟨c, rest, hhead, hc⟩ := joinSegments_head? hordinary
    (List.append_ne_nil_of_right_ne_nil names (List.cons_ne_nil name []))
  rw [pure_ok_iff.mp h, hhead]
  have hroot : trimEndSlashes ['/'] = [] := rfl
  simp [hroot, hc]

/-- **The paths of an entry**: its name is ordinary, and its paths are those of its directory with
the name at their end. -/
theorem entryPaths_ok {place : Place Text} (hplace : PlaceAt sourceRoot targetRoot names place)
    {entry : SftpEntry} {sourcePath relativePath : Text} {targetPath : OsPath}
    (h : entryPaths targetRoot place.sourcePath place.relativePath entry =
      .ok (sourcePath, relativePath, targetPath)) :
    (∀ n ∈ names ++ [entry.name], OrdinaryName (isWindowsLocalTarget targetRoot) n) ∧
      relativePath = joinSegments (names ++ [entry.name]) ∧
      sourcePath = sourcePathOf sourceRoot (names ++ [entry.name]) ∧
      targetPath = pushAll targetRoot (names ++ [entry.name]) := by
  unfold entryPaths at h
  split_ifs at h with hslash
  obtain ⟨source, hsource, h⟩ := bind_ok_iff.mp h
  obtain ⟨relative, hrelative, h⟩ := bind_ok_iff.mp h
  obtain ⟨target, htarget, h⟩ := bind_ok_iff.mp h
  obtain ⟨rfl, hresult⟩ := Prod.mk.inj (pure_ok_iff.mp h)
  obtain ⟨rfl, rfl⟩ := Prod.mk.inj hresult
  obtain ⟨hsource, hdrive, hcheck⟩ := joinRemoteTransferTarget_ok (mapError_ok hsource)
  have hself : entry.name.splitOn '/' = [entry.name] :=
    List.splitOnP_eq_singleton fun c hc => by
      rw [beq_eq_false_iff_ne]
      rintro rfl
      exact hslash hc
  rw [hself] at hcheck
  obtain ⟨hnil, hdot, hdots, -⟩ := checkSegment_ok (hcheck entry.name List.mem_cons_self)
  have hremote : OrdinaryName false entry.name :=
    ⟨hnil, hdot, hdots, hslash, hdrive, fun hfalse => nomatch hfalse⟩
  have hremotes : ∀ n ∈ names ++ [entry.name], OrdinaryName false n := by
    intro n hn
    obtain hn | hn := List.mem_append.mp hn
    · have hname := hplace.ordinary n hn
      exact ⟨hname.ne_nil, hname.ne_dot, hname.ne_dotDot, hname.no_slash, hname.no_drive,
        fun hfalse => nomatch hfalse⟩
    · rwa [List.mem_singleton.mp hn]
  rw [hplace.relativePath_eq] at hrelative
  have hrelativeEq := safeRelativeChild_ok hremotes hrelative
  obtain ⟨-, htargetEq, hlocal⟩ := joinLocalTransferTarget_ok (mapError_ok htarget)
  rw [hrelativeEq, splitOn_joinSegments hremotes
    (List.append_ne_nil_of_right_ne_nil names (List.cons_ne_nil _ []))] at htargetEq hlocal
  refine ⟨fun n hn => ?_, hrelativeEq, ?_, htargetEq⟩
  · obtain ⟨-, -, -, hwindows⟩ := checkSegment_ok (hlocal n hn)
    have hname := hremotes n hn
    exact ⟨hname.ne_nil, hname.ne_dot, hname.ne_dotDot, hname.no_slash, hname.no_drive, hwindows⟩
  · rw [hsource, hplace.sourcePath_eq, sourcePathOf_concat hplace.ordinary]

theorem classifyEntry_ends {server : RemoteServer} {place : Place Text}
    (hplace : PlaceAt sourceRoot targetRoot names place) (entry : SftpEntry)
    (h : Ready sourceRoot targetRoot options above active fuel unaccounted s) :
    Ends (· = s) (classifyEntry server.source targetRoot place.sourcePath place.relativePath entry)
      (fun pending s' => PendingAt sourceRoot targetRoot (names ++ [entry.name]) pending ∧
        Ready sourceRoot targetRoot options above active fuel unaccounted s' ∧
        Grows sourceRoot (fun _ => False) s s') (WithinBudget options) := by
  have hmetadata : ∀ sourcePath, Ends (· = s) (entryMetadata server.source entry sourcePath)
      (fun _ s' => Ready sourceRoot targetRoot options above active fuel unaccounted s' ∧
        Grows sourceRoot (fun _ => False) s s') (WithinBudget options) := by
    intro sourcePath
    unfold entryMetadata
    split_ifs
    · refine (askSource_ends rfl).weaken (fun _ hs => hs) (fun _ s' ⟨_, hs'⟩ => ?_) fun s' hs' => ?_
      · subst hs'
        exact ⟨h.called (.followedMetadata _ _) rfl, grows_called fun _ hpath => nomatch hpath⟩
      · subst hs'
        exact (h.called (.followedMetadata _ _) rfl).withinBudget
    · refine Ends.pure fun s' hs' => ?_
      subst hs'
      exact ⟨h, Grows.refl s'⟩
  refine Ends.bind (R := fun paths s' => entryPaths targetRoot place.sourcePath place.relativePath
    entry = .ok paths ∧ s' = s) (Ends.ofExcept (fun paths hpaths s' hs' => ⟨hpaths, hs'⟩)
    fun s' hs' => hs' ▸ h.withinBudget) fun ⟨sourcePath, relativePath, targetPath⟩ => ?_
  refine Ends.each fun s' ⟨hpaths, hs'⟩ => ?_
  subst hs'
  obtain ⟨hordinary, hrelative, hsource, htarget⟩ := entryPaths_ok hplace hpaths
  refine Ends.bind (hmetadata sourcePath) fun metadata => Ends.pure fun s' hs' => ⟨?_, hs'⟩
  exact ⟨⟨hordinary, hrelative, hsource⟩, htarget⟩

/-! ### A directory is opened -/

theorem nodup_names_of_ordered {l : List SftpEntry} (h : Ordered (compareOn SftpEntry.name) l)
    (hnone : hasDuplicateNames l = false) : (l.map SftpEntry.name).Nodup := by
  induction l with
  | nil => exact List.nodup_nil
  | cons first l ih =>
      obtain ⟨hfirst, hrest⟩ := List.pairwise_cons.mp h
      cases l with
      | nil => exact List.nodup_singleton _
      | cons second rest =>
          rw [hasDuplicateNames, Bool.or_eq_false_iff, beq_eq_false_iff_ne] at hnone
          refine List.nodup_cons.mpr ⟨fun hmem => ?_, ih hrest hnone.2⟩
          obtain ⟨entry, hentry, hname⟩ := List.mem_map.mp hmem
          -- the second entry is between the first and one of the same name
          have hsecond : (compareOn SftpEntry.name second first).isLE := by
            obtain rfl | hlater := List.mem_cons.mp hentry
            · simp [compareOn, hname]
            · have hle := (List.pairwise_cons.mp hrest).1 entry hlater
              simpa [compareOn, hname] using hle
          exact hnone.1 (Std.LawfulEqCmp.eq_of_compare
            (Std.OrientedCmp.isLE_antisymm (hfirst second List.mem_cons_self) hsecond))

/-- The entries of a directory, each at its name. -/
structure SortedAt (sourceRoot : Text) (targetRoot : OsPath) (names : List Text)
    (sorted : Sorted Text PendingEntry) : Prop where
  directories_at : ∀ place ∈ sorted.directories, ∃ name,
    PlaceAt sourceRoot targetRoot (names ++ [name]) place
  files_at : ∀ entry ∈ sorted.files, ∃ name, PendingAt sourceRoot targetRoot (names ++ [name]) entry
  distinct : (sorted.directories.map (fun place => segments place.relativePath) ++
    sorted.files.map fun entry => segments entry.relativePath).Nodup

theorem sortPending_at {pending : List PendingEntry} {listed : List SftpEntry}
    (h : List.Forall₂ (fun entry => PendingAt sourceRoot targetRoot (names ++ [entry.name])) listed
      pending) (hnames : (listed.map SftpEntry.name).Nodup) :
    SortedAt sourceRoot targetRoot names (sortPending pending) := by
  have hat : ∀ entry ∈ pending, ∃ name, PendingAt sourceRoot targetRoot (names ++ [name]) entry := by
    clear hnames
    induction h with
    | nil => exact fun _ hentry => nomatch hentry
    | cons hfirst _ ih =>
        intro entry hentry
        obtain rfl | hentry := List.mem_cons.mp hentry
        · exact ⟨_, hfirst⟩
        · exact ih entry hentry
  have hkeys : pending.map (fun entry => segments entry.relativePath) =
      (listed.map SftpEntry.name).map fun name => names ++ [name] := by
    clear hat hnames
    induction h with
    | nil => rfl
    | cons hentry _ ih => simp only [List.map_cons, hentry.segments, ih]
  have hnodup : (pending.map fun entry => segments entry.relativePath).Nodup := by
    rw [hkeys]
    exact hnames.map fun name name' heq => List.singleton_injective (List.append_cancel_left heq)
  refine ⟨fun place hplace => ?_, fun entry hentry => hat entry (List.mem_of_mem_filter hentry), ?_⟩
  · obtain ⟨entry, hentry, rfl⟩ := List.mem_map.mp hplace
    obtain ⟨name, hname⟩ := hat entry (List.mem_of_mem_filter hentry)
    exact ⟨name, hname.toPlaceAt⟩
  · -- an entry is of one kind
    rw [sortPending, List.map_map]
    refine List.nodup_append.mpr ⟨?_, ?_, ?_⟩
    · exact hnodup.sublist (List.filter_sublist.map _)
    · exact hnodup.sublist (List.filter_sublist.map _)
    · intro key hkey key' hkey' heq
      obtain ⟨entry, hentry, rfl⟩ := List.mem_map.mp hkey
      obtain ⟨entry', hentry', rfl⟩ := List.mem_map.mp hkey'
      have hsame := List.inj_on_of_nodup_map hnodup (List.mem_of_mem_filter hentry)
        (List.mem_of_mem_filter hentry') heq
      have hdirectory := List.of_mem_filter hentry
      have hfile := List.of_mem_filter hentry'
      rw [hsame, of_decide_eq_true hfile] at hdirectory
      nomatch hdirectory

theorem directoryTarget_ok {place : Place Text}
    (hplace : PlaceAt sourceRoot targetRoot names place) {targetPath : OsPath}
    (h : directoryTarget targetRoot place.relativePath = .ok targetPath) :
    targetPath = pushAll targetRoot names := by
  unfold directoryTarget at h
  rw [hplace.relativePath_eq] at h
  by_cases hnames : names = []
  · rw [hnames] at h ⊢
    exact (Except.ok.inj h).symm
  · rw [if_neg (by rw [List.isEmpty_iff]; exact joinSegments_ne_nil hplace.ordinary hnames)] at h
    obtain ⟨-, htarget, -⟩ := joinLocalTransferTarget_ok (mapError_ok h)
    rwa [splitOn_joinSegments hplace.ordinary hnames] at htarget

/-- The entry of the directory that the walk is in. -/
theorem pushDirectory_ends {claimed : Text}
    (h : Ready sourceRoot targetRoot options (· <+: names) (claimed :: active) fuel 0 s)
    {entry : TreeDirectoryEntry}
    (hentry : EntryAt sourceRoot targetRoot names entry.relativePath entry.sourcePath
      entry.targetPath)
    (hfresh : ∀ key ∈ takenKeys s.directories s.files, ¬ names <+: key)
    (hparent : names ≠ [] → joinSegments names.dropLast ∈ s.directories.map (·.relativePath))
    (hcanonical : canonicalOf s.world entry.sourcePath = some claimed)
    (habove : ∀ d ∈ s.directories, segments d.relativePath <+: names →
      canonicalOf s.world d.sourcePath ≠ some claimed) {X : RemoteState → Prop} :
    Ends (· = s) (pushDirectory entry : Discovery _ RemoteTreeError Unit)
      (fun _ s' => Ready sourceRoot targetRoot options (· <+: names) (claimed :: active) fuel 0 s' ∧
        Grows sourceRoot (· = names) s s' ∧
        joinSegments names ∈ s'.directories.map (·.relativePath)) X := by
  refine Ends.update fun t ht => ?_
  subst ht
  refine ⟨⟨?_, h.tallied, h.listed, h.limit, h.visited, h.room, h.claims, h.active_eq, ?_⟩,
    ⟨fun key hkey => ?_, fun d hd => ?_, fun d hd => List.mem_append_left _ hd, List.prefix_rfl⟩, ?_⟩
  · refine h.found.directory hentry hfresh hparent hcanonical fun d hd rest _ heq => ?_
    exact habove d hd ⟨rest, heq.symm⟩
  · intro d hd hprefix
    obtain hd | hd := List.mem_append.mp hd
    · exact h.branch d hd hprefix
    · obtain rfl := List.mem_singleton.mp hd
      exact ⟨claimed, List.mem_cons_self, hcanonical⟩
  · simp only [keys, takenKeys, List.map_append, List.map_singleton, hentry.segments,
      List.mem_append, List.mem_singleton] at hkey ⊢
    tauto
  · obtain hd | hd := List.mem_append.mp hd
    · exact .inl hd
    · obtain rfl := List.mem_singleton.mp hd
      exact .inr hentry.segments
  · exact List.mem_map.mpr ⟨entry, List.mem_append_right _ List.mem_cons_self,
      hentry.relativePath_eq⟩

theorem accountEntries_ends
    (h : Ready sourceRoot targetRoot options above active fuel unaccounted s) :
    Ends (· = s) (accountEntries remoteTreeErrors unaccounted)
      (fun _ s' => Ready sourceRoot targetRoot options above active fuel 0 s' ∧
        Grows sourceRoot (fun _ => False) s s') (WithinBudget options) := by
  refine Ends.step fun t ht => ?_
  subst ht
  unfold DirectoryTraversalBudget.accountEntries checkedAdd
  by_cases hsum : t.budget.visitedEntries + unaccounted < 2 ^ 64
  · by_cases hlimit : t.budget.maxEntries < t.budget.visitedEntries + unaccounted
    · simp only [if_pos hsum, if_pos hlimit]
      exact h.withinBudget
    · simp only [if_pos hsum, if_neg hlimit]
      exact ⟨⟨h.found, h.tallied, h.listed, h.limit, h.visited, h.room, h.claims, h.active_eq,
        h.branch⟩, fun key hkey => .inl hkey, fun d hd => .inl hd, fun d hd => hd, List.prefix_rfl⟩
  · simp only [if_neg hsum]
    exact h.withinBudget

theorem readDirectory_ends {server : RemoteServer}
    (h : Ready sourceRoot targetRoot options above active fuel 0 s) (path : Text) :
    Ends (· = s) (askSource (server.source.readDirectory path))
      (fun listed s' => Ready sourceRoot targetRoot options above active fuel
          (listed.filter SftpEntry.isProper).length s' ∧
        Grows sourceRoot (fun _ => False) s s') (WithinBudget options) := by
  refine (askSource_ends rfl).weaken (fun _ hs => hs) (fun listed s' hs' => ?_) fun s' hs' => ?_
  · obtain ⟨hanswer, rfl⟩ := hs'
    have hcalled := h.called (.readDirectory path (server.readDirectory s.world path)) rfl
    rw [hanswer, Nat.zero_add] at hcalled
    rw [hanswer]
    exact ⟨hcalled, grows_called fun _ hpath => nomatch hpath⟩
  · subst hs'
    exact (h.called (.readDirectory _ _) rfl).withinBudget

theorem classifyEntries_ends {server : RemoteServer} {place : Place Text}
    (hplace : PlaceAt sourceRoot targetRoot names place) (listed : List SftpEntry)
    (h : Ready sourceRoot targetRoot options above active fuel 0 s) :
    Ends (· = s)
      (listed.mapM' (classifyEntry server.source targetRoot place.sourcePath place.relativePath))
      (fun pending s' => List.Forall₂
          (fun entry => PendingAt sourceRoot targetRoot (names ++ [entry.name])) listed pending ∧
        Ready sourceRoot targetRoot options above active fuel 0 s' ∧
        Grows sourceRoot (fun _ => False) s s') (WithinBudget options) := by
  refine (Ends.mapM' (I := fun (done : List SftpEntry) pending s' => List.Forall₂
      (fun entry : SftpEntry => PendingAt sourceRoot targetRoot (names ++ [entry.name])) done pending ∧
    Ready sourceRoot targetRoot options above active fuel 0 s' ∧
    Grows sourceRoot (fun _ => False) s s') fun done pending entry rest _ =>
      Ends.each fun s₁ ⟨hdone, hready, hgrows⟩ => ?_).pre fun s₁ hs₁ => ?_
  · refine (classifyEntry_ends hplace entry hready).post fun result s₂ ⟨hresult, hready₂, hgrows₂⟩ => ?_
    exact ⟨List.rel_append hdone (.cons hresult .nil), hready₂, hgrows.trans hgrows₂⟩
  · subst hs₁
    exact ⟨.nil, h, Grows.refl s₁⟩

/-- **A directory is opened**: its entry is there, its listing is accounted for, and its entries are
at different names. -/
theorem openRemoteDirectory_ends {server : RemoteServer} {place : Place Text} {claimed : Text}
    (hplace : PlaceAt sourceRoot targetRoot names place)
    (h : Ready sourceRoot targetRoot options (· <+: names) (claimed :: active) fuel 0 s)
    (hfresh : ∀ key ∈ takenKeys s.directories s.files, ¬ names <+: key)
    (hparent : names ≠ [] → joinSegments names.dropLast ∈ s.directories.map (·.relativePath))
    (hcanonical : canonicalOf s.world place.sourcePath = some claimed)
    (habove : ∀ d ∈ s.directories, segments d.relativePath <+: names →
      canonicalOf s.world d.sourcePath ≠ some claimed) :
    Ends (· = s) (openRemoteDirectory server.source targetRoot place)
      (fun sorted s' => SortedAt sourceRoot targetRoot names sorted ∧
        Ready sourceRoot targetRoot options (· <+: names) (claimed :: active) fuel 0 s' ∧
        Grows sourceRoot (· = names) s s' ∧
        joinSegments names ∈ s'.directories.map (·.relativePath)) (WithinBudget options) := by
  have hstop : ∀ s' : RemoteState, s' = s → WithinBudget options s' := by
    rintro s' rfl
    exact h.withinBudget
  have hlater : ∀ {s₁ s₂ : RemoteState}, Grows sourceRoot (fun _ => False) s₁ s₂ →
      Grows sourceRoot (· = names) s s₁ → joinSegments names ∈ s₁.directories.map (·.relativePath) →
      Grows sourceRoot (· = names) s s₂ ∧
        joinSegments names ∈ s₂.directories.map (·.relativePath) := by
    intro s₁ s₂ hgrows hfirst hself
    exact ⟨hfirst.trans (hgrows.mono fun _ hfalse => hfalse.elim), List.map_subset _ hgrows.kept hself⟩
  refine Ends.bind (R := fun targetPath s' => targetPath = pushAll targetRoot names ∧ s' = s)
    (Ends.ofExcept (fun targetPath htarget s' hs' => ⟨directoryTarget_ok hplace htarget, hs'⟩) hstop)
    fun targetPath => ?_
  refine Ends.bind (R := fun text s' => toText (pushAll targetRoot names) = some text ∧ s' = s)
    (Ends.ofExcept (fun text htext s' hs' => ⟨hs'.1 ▸ localPathText_ok htext, hs'.2⟩)
      fun s' hs' => hstop s' hs'.2) fun targetText => Ends.each fun s₀ ⟨htext, hs₀⟩ => ?_
  subst hs₀
  have hentry : EntryAt sourceRoot targetRoot names place.relativePath place.sourcePath targetText :=
    ⟨hplace.ordinary, hplace.relativePath_eq, hplace.sourcePath_eq, htext⟩
  refine Ends.bind (pushDirectory_ends h hentry hfresh hparent hcanonical habove) fun _ =>
    Ends.each fun s₁ ⟨hready₁, hgrows₁, hself₁⟩ => ?_
  refine Ends.bind (readDirectory_ends hready₁ place.sourcePath) fun listed =>
    Ends.each fun s₂ ⟨hready₂, hgrows₂⟩ => ?_
  obtain ⟨hgrows₂, hself₂⟩ := hlater hgrows₂ hgrows₁ hself₁
  refine Ends.bind (accountEntries_ends hready₂) fun _ => Ends.each fun s₃ ⟨hready₃, hgrows₃⟩ => ?_
  obtain ⟨hgrows₃, hself₃⟩ := hlater hgrows₃ hgrows₂ hself₂
  refine Ends.bind (R := fun _ s' => hasDuplicateNames (sortBy (compareOn SftpEntry.name)
    (listed.filter SftpEntry.isProper)) = false ∧ s' = s₃) (Ends.ofExcept (fun _ hunique s' hs' => ?_)
      fun s' hs' => hs' ▸ hready₃.withinBudget) fun _ => Ends.each fun s' ⟨hunique, hs'⟩ => ?_
  · refine ⟨?_, hs'⟩
    unfold refuseDuplicateNames at hunique
    split_ifs at hunique with hduplicate
    exact Bool.eq_false_iff.mpr hduplicate
  subst hs'
  refine Ends.bind (classifyEntries_ends hplace _ hready₃) fun pending =>
    Ends.pure fun s₄ ⟨hpending, hready₄, hgrows₄⟩ => ?_
  obtain ⟨hgrows₄, hself₄⟩ := hlater hgrows₄ hgrows₃ hself₃
  exact ⟨sortPending_at hpending (nodup_names_of_ordered (ordered_sortBy _) hunique), hready₄,
    hgrows₄, hself₄⟩

/-! ### Files and entries that are passed over -/

theorem checkedAdd_eq_some {a b sum : ℕ} (h : checkedAdd a b = some sum) : sum = a + b := by
  unfold checkedAdd at h
  split_ifs at h
  exact (Option.some.inj h).symm

/-- A file is found, in a directory that is there. -/
theorem appendRemoteFile_ends {entry : PendingEntry} (hnames : names ≠ [])
    (hentry : PendingAt sourceRoot targetRoot names entry)
    (h : Ready sourceRoot targetRoot options above active fuel 0 s)
    (hfresh : names ∉ takenKeys s.directories s.files)
    (hparent : joinSegments names.dropLast ∈ s.directories.map (·.relativePath)) :
    Ends (· = s) (appendRemoteFile D entry)
      (fun _ s' => Ready sourceRoot targetRoot options above active fuel 0 s' ∧
        Grows sourceRoot (· = names) s s') (WithinBudget options) := by
  have hstop := h.withinBudget
  refine Ends.bind (R := fun text s' => toText entry.targetPath = some text ∧ s' = s)
    (Ends.ofExcept (fun text htext s' hs' => ⟨localPathText_ok htext, hs'⟩) fun s' hs' => hs' ▸ hstop)
    fun targetText => Ends.each fun s₀ ⟨htext, hs₀⟩ => ?_
  subst hs₀
  unfold recordFile
  refine Ends.bind (R := fun _ s' => s' = s₀) (Ends.ofExcept (fun _ _ s' hs' => hs')
    fun s' hs' => hs' ▸ hstop) fun identity => ?_
  refine Ends.bind (R := fun index s' => index = s₀.totalFiles ∧ s' = s₀)
    (Ends.step fun s' hs' => hs' ▸ ⟨rfl, rfl⟩) fun index => Ends.each fun s' ⟨hindex, hs'⟩ => ?_
  subst hindex hs'
  refine Ends.bind (R := fun _ s₁ => s₁ = { s' with totalFiles := s'.totalFiles + 1 })
    (Ends.step fun t ht => ?_) fun _ => ?_
  · subst ht
    cases hsum : checkedAdd t.totalFiles 1 with
    | none => exact hstop
    | some sum => simp only [checkedAdd_eq_some hsum]
  refine Ends.bind (R := fun _ s₂ => s₂ = { s' with
      totalFiles := s'.totalFiles + 1
      totalBytes := s'.totalBytes + entry.metadata.size }) (Ends.step fun t ht => ?_) fun _ => ?_
  · subst ht
    cases hsum : checkedAdd s'.totalBytes entry.metadata.size with
    | none => exact ⟨hstop.visited, hstop.claims⟩
    | some sum => simp only [checkedAdd_eq_some hsum]
  refine Ends.bind (R := fun _ s₃ => ∃ checkpoint, s₃ = { s' with
      totalFiles := s'.totalFiles + 1
      totalBytes := s'.totalBytes + entry.metadata.size
      manifestCheckpoint := checkpoint }) (Ends.step fun t ht => ?_) fun _ => ?_
  · subst ht
    cases s'.manifestCheckpoint.append D identity with
    | error error => exact ⟨hstop.visited, hstop.claims⟩
    | ok checkpoint => exact ⟨checkpoint, rfl⟩
  refine Ends.update fun t ⟨checkpoint, ht⟩ => ?_
  subst ht
  have hat : EntryAt sourceRoot targetRoot names entry.relativePath entry.sourcePath targetText :=
    ⟨hentry.ordinary, hentry.relativePath_eq, hentry.sourcePath_eq, hentry.targetPath_eq ▸ htext⟩
  refine ⟨⟨h.found.file hnames hat hfresh hparent, h.tallied.file rfl, h.listed, h.limit, h.visited,
    h.room, h.claims, h.active_eq, h.branch⟩, fun key hkey => ?_, fun d hd => .inl hd,
    fun d hd => hd, List.prefix_rfl⟩
  simp only [keys, takenKeys, List.map_append, List.map_singleton, hat.segments, List.mem_append,
    List.mem_singleton] at hkey ⊢
  tauto

theorem skipRemote_ends (h : Ready sourceRoot targetRoot options above active fuel 0 s)
    (place : Place Text) (reason : TreeSkipReason) {X : RemoteState → Prop} :
    Ends (· = s) (skipRemote place reason)
      (fun _ s' => Ready sourceRoot targetRoot options above active fuel 0 s' ∧
        Grows sourceRoot (fun _ => False) s s') X := by
  refine Ends.update fun t ht => ?_
  subst ht
  exact ⟨h.skipped _, fun key hkey => .inl hkey, fun d hd => .inl hd, fun d hd => hd,
    List.prefix_rfl⟩

/-! ### The walk -/

end Steps

section Walk

variable {sourceRoot : Text} {targetRoot : OsPath} {options : TreeOptions} {active : List Text}
  {fuel : ℕ} {s : RemoteState} {names : List Text} {D : ManifestDigest} {server : RemoteServer}
  {walk : Place Text → ℕ → Discovery (List SourceCall) RemoteTreeError Unit} {place : Place Text}
  {claimed : Text}

/-- What the walk of a directory does from a state in which it may start. -/
def Walks (sourceRoot : Text) (targetRoot : OsPath) (options : TreeOptions) (fuel : ℕ)
    (walk : Place Text → ℕ → Discovery (List SourceCall) RemoteTreeError Unit) : Prop :=
  ∀ (names : List Text) (place : Place Text) (depth : ℕ) (above : List Text → Prop)
    (active : List Text) (s : RemoteState), PlaceAt sourceRoot targetRoot names place →
    Ready sourceRoot targetRoot options above active fuel 0 s →
    (∀ key ∈ keys sourceRoot s, ¬ names <+: key) →
    (names ≠ [] → joinSegments names.dropLast ∈ s.directories.map (·.relativePath)) →
    (∀ key rest, rest ≠ [] → names = key ++ rest → above key) →
    (∀ key, names <+: key → ¬ above key) →
    Ends (· = s) (walk place depth)
      (fun _ s' => Ready sourceRoot targetRoot options above active fuel 0 s' ∧
        Grows sourceRoot (names <+: ·) s s' ∧
        (active = [] → joinSegments names ∈ s'.directories.map (·.relativePath)))
      (WithinBudget options)

theorem eq_of_concat_prefix {name name' : Text} {key : List Text} (h : names ++ [name] <+: key)
    (h' : names ++ [name'] <+: key) : name = name' := by
  have hlength : (names ++ [name]).length = (names ++ [name']).length := by
    rw [List.length_append, List.length_append]
    rfl
  have heq := List.prefix_of_prefix_length_le h h' hlength.le
  exact List.singleton_injective (List.append_cancel_left (heq.eq_of_length hlength))

theorem not_concat_prefix {name : Text} : ¬ names ++ [name] <+: names := fun h => by
  have hlength := h.length_le
  rw [List.length_append, List.length_singleton] at hlength
  omega

/-- The entries of a directory whose keys are not dealt with. -/
theorem concat_notMem_keys {inside : List Text → Prop} {s' : RemoteState} {name : Text}
    (hgrows : Grows sourceRoot inside s s')
    (hkeys : ∀ key ∈ keys sourceRoot s, names <+: key → key = names)
    (hinside : ∀ key, inside key → ¬ names ++ [name] <+: key) :
    ∀ key ∈ keys sourceRoot s', ¬ names ++ [name] <+: key := by
  intro key hkey hprefix
  obtain hold | hnew := hgrows.keys_inside key hkey
  · have hself := hkeys key hold ((List.prefix_append names [name]).trans hprefix)
    exact not_concat_prefix (hself ▸ hprefix)
  · exact hinside key hnew hprefix

/-- One of the directories of a listing. -/
theorem walkChild_ends (hwalk : Walks sourceRoot targetRoot options fuel walk) {name : Text}
    (hplace : PlaceAt sourceRoot targetRoot (names ++ [name]) place) (depth : ℕ)
    (h : Ready sourceRoot targetRoot options (· <+: names) active fuel 0 s)
    (hfresh : ∀ key ∈ keys sourceRoot s, ¬ names ++ [name] <+: key)
    (hself : joinSegments names ∈ s.directories.map (·.relativePath)) :
    Ends (· = s) (walkChild (remoteWalker D server.source targetRoot) options walk depth place)
      (fun _ s' => Ready sourceRoot targetRoot options (· <+: names) active fuel 0 s' ∧
        Grows sourceRoot (names ++ [name] <+: ·) s s') (WithinBudget options) := by
  have hskip : ∀ reason, Ends (· = s) (skipRemote place reason)
      (fun _ s' => Ready sourceRoot targetRoot options (· <+: names) active fuel 0 s' ∧
        Grows sourceRoot (names ++ [name] <+: ·) s s') (WithinBudget options) := fun reason =>
    (skipRemote_ends h place reason).post fun _ s' ⟨hready, hgrows⟩ =>
      ⟨hready, hgrows.mono fun _ hfalse => hfalse.elim⟩
  unfold walkChild
  split_ifs
  · exact hskip _
  · exact hskip _
  · refine (hwalk _ place _ (· <+: names) active s hplace h hfresh (fun _ => ?_) ?_ ?_).post
      fun _ s' ⟨hready, hgrows, _⟩ => ⟨hready, hgrows⟩
    · rwa [List.dropLast_concat]
    · intro key rest hrest heq
      obtain ⟨init, last, rfl⟩ := (List.eq_nil_or_concat' rest).resolve_left hrest
      rw [← List.append_assoc] at heq
      exact ⟨init, (List.append_inj' heq rfl).1.symm⟩
    · intro key hkey habove
      exact not_concat_prefix (hkey.trans habove)

/-- **A claimed directory**: it is opened, its directories are walked one after another, and its
files and what is left are added. -/
theorem walkClaimedDirectory_ends (hwalk : Walks sourceRoot targetRoot options fuel walk)
    (hplace : PlaceAt sourceRoot targetRoot names place) (depth : ℕ)
    (h : Ready sourceRoot targetRoot options (· <+: names) (claimed :: active) fuel 0 s)
    (hkeys : ∀ key ∈ keys sourceRoot s, names <+: key → key = names)
    (hfresh : ∀ key ∈ takenKeys s.directories s.files, ¬ names <+: key)
    (hparent : names ≠ [] → joinSegments names.dropLast ∈ s.directories.map (·.relativePath))
    (hcanonical : canonicalOf s.world place.sourcePath = some claimed)
    (habove : ∀ d ∈ s.directories, segments d.relativePath <+: names →
      canonicalOf s.world d.sourcePath ≠ some claimed) :
    Ends (· = s)
      (walkClaimedDirectory (remoteWalker D server.source targetRoot) options walk place depth)
      (fun _ s' =>
        Ready sourceRoot targetRoot options (· <+: names) (claimed :: active) fuel 0 s' ∧
          Grows sourceRoot (names <+: ·) s s' ∧
          joinSegments names ∈ s'.directories.map (·.relativePath)) (WithinBudget options) := by
  refine Ends.bind (openRemoteDirectory_ends hplace h hfresh hparent hcanonical habove)
    fun sorted => Ends.each fun s₁ ⟨hsorted, hready₁, hgrows₁, hself₁⟩ => ?_
  have hkeys₁ : ∀ key ∈ keys sourceRoot s₁, names <+: key → key = names := by
    intro key hkey hprefix
    obtain hold | hnew := hgrows₁.keys_inside key hkey
    · exact hkeys key hold hprefix
    · exact hnew
  have hdistinct := List.nodup_append.mp hsorted.distinct
  -- the directories of the listing
  have hdirectories : Ends (· = s₁) (sorted.directories.forM
      (walkChild (remoteWalker D server.source targetRoot) options walk depth))
      (fun _ s' =>
        Ready sourceRoot targetRoot options (· <+: names) (claimed :: active) fuel 0 s' ∧
          Grows sourceRoot (fun key => ∃ d ∈ sorted.directories, segments d.relativePath <+: key)
            s₁ s') (WithinBudget options) := by
    refine (Ends.forM (I := fun (done : List (Place Text)) s' =>
      Ready sourceRoot targetRoot options (· <+: names) (claimed :: active) fuel 0 s' ∧
        Grows sourceRoot (fun key => ∃ d ∈ done, segments d.relativePath <+: key) s₁ s')
      fun done child rest heq => Ends.each fun s₂ ⟨hready₂, hgrows₂⟩ => ?_).pre fun s' hs' => ?_
    · obtain ⟨name, hchild⟩ := hsorted.directories_at child
        (heq ▸ List.mem_append_right _ List.mem_cons_self)
      refine (walkChild_ends hwalk hchild depth hready₂ (concat_notMem_keys hgrows₂ hkeys₁ ?_)
        (List.map_subset _ hgrows₂.kept hself₁)).post fun _ s₃ ⟨hready₃, hgrows₃⟩ =>
          ⟨hready₃, (hgrows₂.mono ?_).trans (hgrows₃.mono ?_)⟩
      · rintro key ⟨d, hd, hdone⟩ hprefix
        obtain ⟨name', hd'⟩ := hsorted.directories_at d (heq ▸ List.mem_append_left _ hd)
        rw [hd'.segments] at hdone
        obtain rfl := eq_of_concat_prefix hprefix hdone
        have hnodup := hdistinct.1
        rw [heq, List.map_append, List.map_cons] at hnodup
        refine (List.nodup_append.mp hnodup).2.2 _ (List.mem_map_of_mem hd) _ List.mem_cons_self ?_
        rw [hd'.segments, hchild.segments]
      · rintro key ⟨d, hd, hdone⟩
        exact ⟨d, List.mem_append_left _ hd, hdone⟩
      · intro key hkey
        exact ⟨child, List.mem_append_right _ List.mem_cons_self, hchild.segments ▸ hkey⟩
    · subst hs'
      exact ⟨hready₁, Grows.refl s'⟩
  refine Ends.bind hdirectories fun _ => Ends.each fun s₂ ⟨hready₂, hgrows₂⟩ => ?_
  -- the files of the listing
  have hfiles : Ends (· = s₂) (sorted.files.forM (appendRemoteFile D))
      (fun _ s' =>
        Ready sourceRoot targetRoot options (· <+: names) (claimed :: active) fuel 0 s' ∧
          Grows sourceRoot (fun key => ∃ f ∈ sorted.files, key = segments f.relativePath) s₂ s')
      (WithinBudget options) := by
    refine (Ends.forM (I := fun (done : List PendingEntry) s' =>
      Ready sourceRoot targetRoot options (· <+: names) (claimed :: active) fuel 0 s' ∧
        Grows sourceRoot (fun key => ∃ f ∈ done, key = segments f.relativePath) s₂ s')
      fun done file rest heq => Ends.each fun s₃ ⟨hready₃, hgrows₃⟩ => ?_).pre fun s' hs' => ?_
    · have hfile : file ∈ sorted.files := heq ▸ List.mem_append_right _ List.mem_cons_self
      obtain ⟨name, hat⟩ := hsorted.files_at file hfile
      have hnew : names ++ [name] ∉ keys sourceRoot s₃ := by
        intro hmem
        obtain hold | ⟨f, hf, hsame⟩ := hgrows₃.keys_inside _ hmem
        · refine concat_notMem_keys hgrows₂ hkeys₁ ?_ _ hold List.prefix_rfl
          rintro key ⟨d, hd, hdone⟩ hprefix
          obtain ⟨name', hd'⟩ := hsorted.directories_at d hd
          rw [hd'.segments] at hdone
          obtain rfl := eq_of_concat_prefix hprefix hdone
          refine hdistinct.2.2 _ (List.mem_map_of_mem hd) _ (List.mem_map_of_mem hfile) ?_
          rw [hd'.segments, hat.segments]
        · have hnodup := hdistinct.2.1
          rw [heq, List.map_append, List.map_cons] at hnodup
          refine (List.nodup_append.mp hnodup).2.2 _ (List.mem_map_of_mem hf) _ List.mem_cons_self ?_
          rw [← hsame, hat.segments]
      refine (appendRemoteFile_ends (List.append_ne_nil_of_right_ne_nil _ (List.cons_ne_nil _ _)) hat
        hready₃ (fun hmem => hnew (List.mem_append_left _ hmem)) ?_).post
        fun _ s₄ ⟨hready₄, hgrows₄⟩ => ⟨hready₄, (hgrows₃.mono ?_).trans (hgrows₄.mono ?_)⟩
      · rw [List.dropLast_concat]
        exact List.map_subset _ hgrows₃.kept (List.map_subset _ hgrows₂.kept hself₁)
      · rintro key ⟨f, hf, hsame⟩
        exact ⟨f, List.mem_append_left _ hf, hsame⟩
      · rintro key rfl
        exact ⟨file, List.mem_append_right _ List.mem_cons_self, hat.segments.symm⟩
    · subst hs'
      exact ⟨hready₂, Grows.refl s'⟩
  refine Ends.bind hfiles fun _ => Ends.each fun s₃ ⟨hready₃, hgrows₃⟩ => ?_
  have hgrows : Grows sourceRoot (names <+: ·) s s₃ := by
    refine (hgrows₁.mono ?_).trans ((hgrows₂.mono ?_).trans (hgrows₃.mono ?_))
    · rintro key rfl
      exact List.prefix_rfl
    · rintro key ⟨d, hd, hkey⟩
      obtain ⟨name, hat⟩ := hsorted.directories_at d hd
      exact (List.prefix_append names [name]).trans (hat.segments ▸ hkey)
    · rintro key ⟨f, hf, rfl⟩
      obtain ⟨name, hat⟩ := hsorted.files_at f hf
      rw [hat.segments]
      exact List.prefix_append names [name]
  have hself₃ := List.map_subset (·.relativePath) hgrows₃.kept
    (List.map_subset _ hgrows₂.kept hself₁)
  -- the other entries
  refine (Ends.forM (I := fun (_ : List (Place Text)) s' =>
    Ready sourceRoot targetRoot options (· <+: names) (claimed :: active) fuel 0 s' ∧
      Grows sourceRoot (names <+: ·) s s' ∧
      joinSegments names ∈ s'.directories.map (·.relativePath)) fun _ entry _ _ =>
        Ends.each fun s₄ ⟨hready₄, hgrows₄, hself₄⟩ => ?_).pre fun s' hs' => ?_
  · refine (skipRemote_ends hready₄ entry _).post fun _ s₅ ⟨hready₅, hgrows₅⟩ =>
      ⟨hready₅, ?_, List.map_subset _ hgrows₅.kept hself₄⟩
    exact hgrows₄.trans (hgrows₅.mono fun _ hfalse => hfalse.elim)
  · subst hs'
    exact ⟨hready₃, hgrows, hself₃⟩

theorem length_askedPaths_canonicalize (calls : List SourceCall) (path : Text)
    (answer : Except SftpError Text) :
    (askedPaths (calls ++ [SourceCall.canonicalize path answer])).length =
      (askedPaths calls).length + 1 := by
  rw [askedPaths_concat, List.length_append]
  rfl

theorem sum_properEntries_canonicalize (calls : List SourceCall) (path : Text)
    (answer : Except SftpError Text) :
    ((calls ++ [SourceCall.canonicalize path answer]).map SourceCall.properEntries).sum =
      (calls.map SourceCall.properEntries).sum := by
  rw [List.map_append, List.sum_append]
  rfl

variable {above : List Text → Prop}

/-- A directory whose canonical path was asked for, and not claimed yet. -/
structure Asked (sourceRoot : Text) (targetRoot : OsPath) (options : TreeOptions)
    (above : List Text → Prop) (active names : List Text) (fuel : ℕ) (path canonical : Text)
    (s s₁ : RemoteState) : Prop where
  before : Ready sourceRoot targetRoot options above active fuel 0 s
  fresh : ∀ key ∈ keys sourceRoot s, ¬ names <+: key
  notAbove : ∀ key, names <+: key → ¬ above key
  only_calls : s₁ = { s with world := s₁.world }
  found : Found sourceRoot targetRoot s₁.directories s₁.files s₁.world
  listed : (s₁.world.map SourceCall.properEntries).sum = s₁.budget.visitedEntries
  claims : (askedPaths s₁.world).length ≤
    s₁.budget.visitedDirectories + cycleCount s₁.skippedEntries + 1
  canonical_eq : canonicalOf s₁.world path = some (normalizeCanonicalDirectoryPath canonical)
  grows : Grows sourceRoot (· = names) s s₁

theorem canonicalize_ends (hroot : NormalRoot sourceRoot)
    (hplace : PlaceAt sourceRoot targetRoot names place)
    (h : Ready sourceRoot targetRoot options above active fuel 0 s)
    (hfresh : ∀ key ∈ keys sourceRoot s, ¬ names <+: key)
    (hbelow : ∀ key, names <+: key → ¬ above key) :
    Ends (· = s) (askSource (server.source.canonicalize place.sourcePath))
      (fun canonical s₁ => Asked sourceRoot targetRoot options above active names fuel
        place.sourcePath canonical s s₁) (WithinBudget options) := by
  have hclaims := h.claims
  have hvisited := h.visited
  have hnames : sourceNames sourceRoot place.sourcePath = names := by
    rw [hplace.sourcePath_eq, sourceNames_sourcePathOf hroot hplace.ordinary]
  have hnotAsked : place.sourcePath ∉ askedPaths s.world := fun hmem =>
    hfresh names (List.mem_append_right _ (List.mem_map.mpr ⟨_, hmem, hnames⟩)) List.prefix_rfl
  refine (askSource_ends rfl).weaken (fun _ hs => hs) (fun canonical s₁ hs₁ => ?_) fun s₁ hs₁ => ?_
  · obtain ⟨hanswer, rfl⟩ := hs₁
    refine ⟨h, hfresh, hbelow, rfl, h.found.called fun path hpath => ?_,
      (sum_properEntries_canonicalize _ _ _).trans h.listed, ?_, ?_,
      grows_called fun path hpath => ?_⟩
    · obtain rfl := Option.some.inj hpath
      exact hnotAsked
    · exact (length_askedPaths_canonicalize _ _ _).le.trans (Nat.succ_le_succ hclaims)
    · rw [hanswer]
      exact canonicalOf_asked hnotAsked
    · obtain rfl := Option.some.inj hpath
      exact hnames
  · subst hs₁
    refine ⟨hvisited, (length_askedPaths_canonicalize _ _ _).le.trans ?_⟩
    change _ ≤ options.maxDirectories + 1 + cycleCount s.skippedEntries
    omega

section Claimed

variable {path canonical : Text} {s₁ : RemoteState}

theorem Asked.withinBudget (h : Asked sourceRoot targetRoot options above active names fuel path
    canonical s s₁) : WithinBudget options s₁ := by
  obtain ⟨hbefore, -, -, honly, -, -, hclaims, -, -⟩ := h
  have hvisited : s₁.budget.visitedDirectories ≤ options.maxDirectories := by
    rw [honly]
    exact hbefore.visited
  exact ⟨hvisited, by omega⟩

/-- The canonical path is on the branch already. -/
theorem Asked.cycle (h : Asked sourceRoot targetRoot options above active names fuel path canonical
    s s₁) (place : Place Text) :
    Ends (· = s₁) (skipRemote place .cycleDetected)
      (fun _ s' => Ready sourceRoot targetRoot options above active fuel 0 s' ∧
        Grows sourceRoot (names <+: ·) s s') (WithinBudget options) := by
  obtain ⟨hbefore, -, hnotAbove, honly, hfound, hlisted, hclaims, -, hgrows⟩ := h
  have hgrows' : Grows sourceRoot (names <+: ·) s s₁ := hgrows.mono fun key hkey =>
    hkey ▸ List.prefix_rfl
  have hbranch := hbefore.branch_of_grows hgrows' hnotAbove
  refine Ends.update fun t ht => ?_
  subst ht
  refine ⟨⟨hfound, ?_, hlisted, ?_, ?_, ?_, ?_, ?_, hbranch⟩,
    hgrows'.keys_inside, hgrows'.directories_inside, hgrows'.kept, hgrows'.calls⟩
  · rw [honly]
    exact hbefore.tallied
  · rw [honly]
    exact hbefore.limit
  · rw [honly]
    exact hbefore.visited
  · rw [honly]
    exact hbefore.room
  · have hcount : cycleCount (t.skippedEntries ++
        [⟨place.relativePath, place.sourcePath, .cycleDetected⟩]) =
          cycleCount t.skippedEntries + 1 := by
      rw [cycleCount, List.countP_append]
      rfl
    exact hclaims.trans (by rw [hcount, Nat.add_assoc])
  · rw [honly]
    exact hbefore.active_eq

/-- The canonical path is claimed. -/
theorem Asked.granted (h : Asked sourceRoot targetRoot options above active names (fuel + 1) path
    canonical s s₁) (habove : ∀ key rest, rest ≠ [] → names = key ++ rest → above key)
    (hvisited : s₁.budget.visitedDirectories < s₁.budget.maxDirectories) {s₂ : RemoteState}
    (hs₂ : s₂ = { s₁ with budget := { s₁.budget with
      visitedDirectories := s₁.budget.visitedDirectories + 1
      activeCanonicalDirectories := normalizeCanonicalDirectoryPath canonical ::
        s₁.budget.activeCanonicalDirectories } }) :
    Ready sourceRoot targetRoot options (· <+: names)
        (normalizeCanonicalDirectoryPath canonical :: active) fuel 0 s₂ ∧
      Grows sourceRoot (· = names) s s₂ := by
  obtain ⟨hbefore, hfresh, -, honly, hfound, hlisted, hclaims, -, hgrows⟩ := h
  subst hs₂
  have hlimit : s₁.budget.maxDirectories = options.maxDirectories := by
    rw [honly]
    exact hbefore.limit
  have hroom : options.maxDirectories < s₁.budget.visitedDirectories + (fuel + 1) := by
    rw [honly]
    exact hbefore.room
  refine ⟨⟨hfound, ?_, hlisted, hlimit, ?_, ?_, ?_, ?_, fun d hd hprefix => ?_⟩,
    hgrows.keys_inside, hgrows.directories_inside, hgrows.kept, hgrows.calls⟩
  · rw [honly]
    exact hbefore.tallied
  · change s₁.budget.visitedDirectories + 1 ≤ _
    omega
  · change _ < s₁.budget.visitedDirectories + 1 + fuel
    omega
  · change (askedPaths s₁.world).length ≤
      s₁.budget.visitedDirectories + 1 + cycleCount s₁.skippedEntries
    omega
  · change _ :: s₁.budget.activeCanonicalDirectories = _
    rw [honly]
    exact congrArg _ hbefore.active_eq
  · have hold : d ∈ s.directories := by
      rw [honly] at hd
      exact hd
    obtain ⟨rest, heq⟩ := hprefix
    have hrest : rest ≠ [] := by
      rintro rfl
      rw [List.append_nil] at heq
      exact hfresh _ (List.mem_append_left _ (List.mem_append_left _ (List.mem_map_of_mem hold)))
        (heq ▸ List.prefix_rfl)
    obtain ⟨canonical', hactive, hcanonical'⟩ :=
      hbefore.branch d hold (habove _ rest hrest heq.symm)
    exact ⟨canonical', List.mem_cons_of_mem _ hactive,
      canonicalOf_of_earlier hgrows.calls hcanonical'⟩

end Claimed

/-- What is known when a directory has been claimed, or has not. -/
def Claimed (canonical : Text) (active : List Text) (s₁ : RemoteState) :
    Option Text → RemoteState → Prop
  | none, s₂ => s₂ = s₁ ∧ active ≠ []
  | some claimed, s₂ => claimed = normalizeCanonicalDirectoryPath canonical ∧ claimed ∉ active ∧
      s₁.budget.visitedDirectories < s₁.budget.maxDirectories ∧
      s₂ = { s₁ with budget := { s₁.budget with
        visitedDirectories := s₁.budget.visitedDirectories + 1
        activeCanonicalDirectories := normalizeCanonicalDirectoryPath canonical ::
          s₁.budget.activeCanonicalDirectories } }

/-- **The walk of a directory**, with the fuel that its budget asks for. -/
theorem walkDirectory_walks (D : ManifestDigest) (server : RemoteServer)
    (hroot : NormalRoot sourceRoot) (fuel : ℕ) :
    Walks sourceRoot targetRoot options fuel
      (walkDirectory (remoteWalker D server.source targetRoot) options fuel) := by
  induction fuel with
  | zero =>
      intro names place depth above active s hplace h
      have hroom := h.room
      have hvisited := h.visited
      omega
  | succ fuel ih =>
      intro names place depth above active s hplace h hfresh hparent habove hbelow
      refine Ends.bind (canonicalize_ends hroot hplace h hfresh hbelow) fun canonical =>
        Ends.each fun s₁ hasked => ?_
      refine Ends.bind (R := Claimed canonical active s₁) (Ends.step fun t ht => ?_)
        fun claimed => Ends.each fun s₂ hs₂ => ?_
      · subst ht
        have hactive : t.budget.activeCanonicalDirectories = active := by
          rw [hasked.only_calls]
          exact hasked.before.active_eq
        unfold DirectoryTraversalBudget.claim
        by_cases hmem : normalizeCanonicalDirectoryPath canonical ∈
            t.budget.activeCanonicalDirectories
        · simp only [if_pos hmem]
          exact ⟨rfl, hactive ▸ List.ne_nil_of_mem hmem⟩
        · by_cases hlimit : t.budget.maxDirectories ≤ t.budget.visitedDirectories
          · simp only [if_neg hmem, if_pos hlimit]
            exact hasked.withinBudget
          · simp only [if_neg hmem, if_neg hlimit]
            exact ⟨rfl, hactive ▸ hmem, Nat.lt_of_not_le hlimit, rfl⟩
      cases claimed with
      | none =>
          obtain ⟨rfl, hactive⟩ := hs₂
          exact (hasked.cycle place).post fun _ s₃ hended =>
            ⟨hended.1, hended.2, fun hnil => absurd hnil hactive⟩
      | some claimed =>
          obtain ⟨rfl, hclaimed, hlimit, hs₂⟩ := hs₂
          obtain ⟨hready, hgrows⟩ := hasked.granted habove hlimit hs₂
          have hdirectories : s₂.directories = s.directories ∧ s₂.files = s.files ∧
              s₂.world = s₁.world := by
            rw [hs₂, hasked.only_calls]
            exact ⟨rfl, rfl, rfl⟩
          obtain ⟨hdirectories, hfiles, hworld⟩ := hdirectories
          have htaken : ∀ key ∈ takenKeys s.directories s.files, ¬ names <+: key :=
            fun key hkey => hfresh key (List.mem_append_left _ hkey)
          rw [walkGranted]
          refine Ends.finallyUpdate ((walkClaimedDirectory_ends ih hplace depth hready ?_ ?_ ?_ ?_
            ?_).weaken (fun _ hs => hs) (fun _ s₃ hended => ?_) fun s₃ hs₃ => ?_)
          · intro key hkey hprefix
            obtain hold | hself := hgrows.keys_inside key hkey
            · exact absurd hprefix (hfresh key hold)
            · exact hself
          · rw [hdirectories, hfiles]
            exact htaken
          · rw [hdirectories]
            exact hparent
          · rw [hworld]
            exact hasked.canonical_eq
          · intro d hd hprefix hcanonical
            rw [hdirectories] at hd
            obtain ⟨rest, heq⟩ := hprefix
            have hrest : rest ≠ [] := by
              rintro rfl
              rw [List.append_nil] at heq
              exact htaken _ (List.mem_append_left _ (List.mem_map_of_mem hd)) (heq ▸ List.prefix_rfl)
            obtain ⟨canonical', hactive, hcanonical'⟩ :=
              h.branch d hd (habove _ rest hrest heq.symm)
            rw [canonicalOf_of_earlier hgrows.calls hcanonical'] at hcanonical
            exact hclaimed (Option.some.inj hcanonical ▸ hactive)
          · obtain ⟨hready₃, hgrows₃, hself₃⟩ := hended
            have hall : Grows sourceRoot (names <+: ·) s s₃ :=
              (hgrows.mono fun key hkey => hkey ▸ List.prefix_rfl).trans hgrows₃
            have hroom := hready₃.room
            have hbranch := h.branch_of_grows hall hbelow
            refine ⟨⟨hready₃.found, hready₃.tallied, hready₃.listed, hready₃.limit, hready₃.visited,
              ?_, hready₃.claims, ?_, hbranch⟩, ⟨hall.keys_inside, hall.directories_inside,
                hall.kept, hall.calls⟩, fun _ => hself₃⟩
            · exact hroom.trans_le (Nat.add_le_add_left (Nat.le_succ fuel) _)
            · change s₃.budget.activeCanonicalDirectories.erase _ = active
              rw [hready₃.active_eq, List.erase_cons_head]
          · exact ⟨hs₃.visited, hs₃.claims⟩

end Walk

/-! ### The discovery -/

section Discovery

variable {targetRoot : OsPath}

/-- A target below a local root: the root followed by ordinary components. -/
def IsBelow (targetRoot : OsPath) (relativePath targetPath : Text) : Prop :=
  ∃ names, names ≠ [] ∧ (∀ n ∈ names, OrdinaryName (isWindowsLocalTarget targetRoot) n) ∧
    relativePath = joinSegments names ∧
    OsPath.components (encodeUtf8 targetPath) =
      targetRoot.components ++ names.map fun n => .normal (encodeUtf8 n)

/-- A plan that stays below a local root, as the calls to the server bear it out. -/
structure Contained (targetRoot : OsPath) (manifest : TreeManifest) (calls : List SourceCall) :
    Prop where
  root : ∃ d rest, manifest.directories = d :: rest ∧ d.relativePath = [] ∧
    d.targetPath = manifest.targetRoot
  directories_below : ∀ d ∈ manifest.directories, d.relativePath ≠ [] →
    IsBelow targetRoot d.relativePath d.targetPath
  files_below : ∀ f ∈ manifest.files, IsBelow targetRoot f.relativePath f.targetPath
  distinct : (manifest.directories.map (·.relativePath) ++
    manifest.files.map (·.relativePath)).Nodup
  file_parents : ∀ f ∈ manifest.files,
    parentPath f.relativePath ∈ manifest.directories.map (·.relativePath)
  directory_parents : ∀ before d after, manifest.directories = before ++ d :: after →
    d.relativePath ≠ [] → parentPath d.relativePath ∈ before.map (·.relativePath)
  asked_once : (askedPaths calls).Nodup
  answered : ∀ d ∈ manifest.directories, ∃ canonical, canonicalOf calls d.sourcePath = some canonical
  branches : ∀ d ∈ manifest.directories, ∀ d' ∈ manifest.directories, ∀ rest, rest ≠ [] →
    segments d'.relativePath = segments d.relativePath ++ rest →
      canonicalOf calls d.sourcePath ≠ canonicalOf calls d'.sourcePath
  total_files : manifest.totalFiles = manifest.files.length
  total_bytes : manifest.totalBytes = (manifest.files.map (·.size)).sum
  indices : manifest.files.map (·.directoryEntryIndex) = List.range manifest.files.length
  visited_entries : manifest.visitedEntries = (calls.map SourceCall.properEntries).sum

theorem encodeUtf8_of_toText {path : OsPath} {text : Text} (h : toText path = some text) :
    encodeUtf8 text = path := encodeUtf8_of_decodeUtf8 h

theorem EntryAt.isBelow {sourceRoot : Text} {names : List Text}
    {relativePath sourcePath targetPath : Text} (hroot : targetRoot ≠ [])
    (h : EntryAt sourceRoot targetRoot names relativePath sourcePath targetPath)
    (hnames : names ≠ []) : IsBelow targetRoot relativePath targetPath :=
  ⟨names, hnames, h.ordinary, h.relativePath_eq, by
    rw [encodeUtf8_of_toText h.target, components_below hroot h.ordinary]⟩

/-- What is found, as a plan. -/
theorem Ready.contained {sourceRoot targetRootText : Text} {options : TreeOptions}
    {above : List Text → Prop} {active : List Text} {fuel : ℕ} {s : RemoteState}
    (hroot : targetRoot ≠ []) (htext : toText targetRoot = some targetRootText)
    (h : Ready sourceRoot targetRoot options above active fuel 0 s)
    (hself : joinSegments [] ∈ s.directories.map (·.relativePath)) :
    Contained targetRoot (s.manifest sourceRoot targetRootText) s.world where
  root := by
    obtain ⟨first, rest, hdirectories⟩ := List.exists_cons_of_ne_nil
      (List.ne_nil_of_mem (List.mem_map.mp hself).choose_spec.1)
    have hfirst : first.relativePath = [] := by
      by_contra hne
      exact List.not_mem_nil (h.found.directory_parents [] first rest hdirectories hne)
    obtain ⟨names, hat⟩ := h.found.directories_at first (hdirectories ▸ List.mem_cons_self)
    have hnames := hat.segments
    rw [hfirst, segments_nil] at hnames
    subst hnames
    exact ⟨first, rest, hdirectories, hfirst, Option.some.inj (hat.target.symm.trans htext)⟩
  directories_below d hd hne := by
    obtain ⟨names, hat⟩ := h.found.directories_at d hd
    refine hat.isBelow hroot ?_
    rintro rfl
    exact hne hat.relativePath_eq
  files_below f hf := by
    obtain ⟨names, hnames, hat⟩ := h.found.files_at f hf
    exact hat.isBelow hroot hnames
  distinct := by
    have hdistinct := h.found.distinct
    have hmap : takenKeys s.directories s.files =
        (s.directories.map (·.relativePath) ++ s.files.map (·.relativePath)).map segments := by
      rw [takenKeys, List.map_append, List.map_map, List.map_map]
      rfl
    rw [hmap] at hdistinct
    exact hdistinct.of_map
  file_parents := h.found.file_parents
  directory_parents := h.found.directory_parents
  asked_once := h.found.asked_once
  answered := h.found.answered
  branches := h.found.branches
  total_files := h.tallied.count
  total_bytes := h.tallied.bytes
  indices := h.tallied.indices
  visited_entries := h.listed.symm

theorem ready_start (sourceRoot : Text) (targetRoot : OsPath) (options : TreeOptions) :
    Ready sourceRoot targetRoot options (fun _ => False) [] (options.maxDirectories + 1) 0
      (TreeState.start options []) where
  found := by
    refine ⟨fun d hd => ?_, fun f hf => ?_, List.nodup_nil, fun f hf => ?_, fun before d after heq => ?_,
      List.nodup_nil, fun d hd => ?_, fun d hd => ?_⟩
    · exact absurd hd List.not_mem_nil
    · exact absurd hf List.not_mem_nil
    · exact absurd hf List.not_mem_nil
    · exact absurd heq.symm (List.append_ne_nil_of_right_ne_nil _ (List.cons_ne_nil _ _))
    · exact absurd hd List.not_mem_nil
    · exact absurd hd List.not_mem_nil
  tallied := ⟨rfl, rfl, rfl⟩
  listed := rfl
  limit := rfl
  visited := Nat.zero_le _
  room := by
    change options.maxDirectories < 0 + (options.maxDirectories + 1)
    omega
  claims := Nat.le_refl 0
  active_eq := rfl
  branch d hd := absurd hd List.not_mem_nil

/-- A discovery with the least fuel. -/
theorem discoverRemoteTree_ends (D : ManifestDigest) (server : RemoteServer) (sourceRoot : Text)
    (targetRoot : OsPath) (options : TreeOptions) :
    Ends (· = TreeState.start options [])
      (discoverRemoteTree D server.source targetRoot (options.maxDirectories + 1) sourceRoot options)
      (fun manifest s => WithinBudget options s ∧ Contained targetRoot manifest s.world)
      (WithinBudget options) := by
  have hready := ready_start (normalizeRemoteRoot sourceRoot) targetRoot options
  have hstop : ∀ s : RemoteState, s = TreeState.start options [] → WithinBudget options s := by
    rintro s rfl
    exact hready.withinBudget
  refine Ends.bind (R := fun _ s => s = TreeState.start options [])
    (Ends.ofExcept (fun _ _ s hs => hs) hstop) fun _ => ?_
  refine Ends.bind (R := fun _ s => targetRoot ≠ [] ∧ s = TreeState.start options [])
    (Ends.ofExcept (fun target htarget s hs =>
      ⟨(joinLocalTransferTarget_ok (mapError_ok htarget)).1, hs⟩) hstop) fun _ => ?_
  refine Ends.bind (R := fun text s => targetRoot ≠ [] ∧ toText targetRoot = some text ∧
    s = TreeState.start options []) (Ends.ofExcept (fun text htext s hs =>
      ⟨hs.1, localPathText_ok htext, hs.2⟩) fun s hs => hstop s hs.2) fun targetText =>
        Ends.each fun s ⟨hroot, htext, hs⟩ => ?_
  subst hs
  have hplace : PlaceAt (normalizeRemoteRoot sourceRoot) targetRoot []
      ⟨normalizeRemoteRoot sourceRoot, [], false⟩ := ⟨fun _ hn => (nomatch hn), rfl, rfl⟩
  refine Ends.bind (walkDirectory_walks D server (normalRoot_normalizeRemoteRoot sourceRoot) _ []
    _ 0 (fun _ => False) [] _ hplace hready (fun _ hkey => absurd hkey List.not_mem_nil)
    (fun hne => absurd rfl hne) (fun key rest hrest heq => hrest (List.append_eq_nil_iff.mp heq.symm).2)
    fun _ _ => id) fun _ => Ends.step fun s ⟨hfinal, _, hself⟩ => ?_
  exact ⟨hfinal.withinBudget, hfinal.contained hroot htext (hself rfl)⟩

theorem discoverRemoteTree_extends {W : Type} (D : ManifestDigest) (S : RemoteTreeSource W)
    (sourceRoot : Text) (options : TreeOptions) {fuel fuel' : ℕ} (h : fuel ≤ fuel') :
    Extends (discoverRemoteTree D S targetRoot fuel sourceRoot options)
      (discoverRemoteTree D S targetRoot fuel' sourceRoot options) :=
  Extends.bind (Extends.refl _) fun _ => Extends.bind (Extends.refl _) fun _ =>
    Extends.bind (Extends.refl _) fun _ => Extends.bind (walkDirectory_extends h _ _) fun _ =>
      Extends.refl _

/-- **The discovery of a remote tree is contained and exact**: whatever the server answers, it comes
to an end within its budget of claims, and a plan that it accepts stays below the local root. -/
theorem discovery_contained (D : ManifestDigest) (server : RemoteServer) (sourceRoot : Text)
    (targetRoot : OsPath) (options : TreeOptions) :
    ∃ result s,
      (∀ fuel, options.maxDirectories < fuel →
        discoverRemoteTree D server.source targetRoot fuel sourceRoot options
          (TreeState.start options []) = some (result, s)) ∧
      WithinBudget options s ∧
      ∀ manifest, result = .ok manifest → Contained targetRoot manifest s.world := by
  obtain ⟨result, s, hrun, hresult⟩ := discoverRemoteTree_ends D server sourceRoot targetRoot
    options _ rfl
  refine ⟨result, s, fun fuel hfuel => discoverRemoteTree_extends D server.source sourceRoot options
    hfuel _ _ hrun, ?_, ?_⟩
  · cases result with
    | ok manifest => exact hresult.1
    | error error => exact hresult
  · rintro manifest rfl
    exact hresult.2

/-- A server whose root directory holds two links to itself. -/
def loopServer : RemoteServer where
  canonicalize _ _ := .ok ['/']
  readDirectory _ _ := .ok [⟨['a'], ⟨.symlink, 0, none⟩⟩, ⟨['b'], ⟨.symlink, 0, none⟩⟩]
  followedMetadata _ _ := .ok ⟨.directory, 0, none⟩

def loopOptions : TreeOptions := { followDirectorySymlinks := true, maxDirectories := 1 }

def loopRun : Option (Except RemoteTreeError TreeManifest × RemoteState) :=
  discoverRemoteTree ⟨fun _ _ _ _ => none, fun _ => [], fun _ _ => []⟩ loopServer.source
    [0x2f, 0x74] 2 ['/'] loopOptions (TreeState.start loopOptions [])

/-- The target of the root is the root itself, and a cycle is asked for beside the budget. -/
theorem loop_not_below : ∃ manifest s, loopRun = some (.ok manifest, s) ∧
    (∃ d ∈ manifest.directories, ¬ IsBelow [0x2f, 0x74] d.relativePath d.targetPath) ∧
    loopOptions.maxDirectories + 1 < (askedPaths s.world).length := by
  have hrun : (loopRun.map fun (result, s) => (result.toOption.map fun manifest =>
      manifest.directories.map fun d => (d.relativePath, d.targetPath),
        (askedPaths s.world).length)) = some (some [([], ['/', 't'])], 3) := by decide +kernel
  obtain ⟨⟨result, s⟩, heq, hresult⟩ := Option.map_eq_some_iff.mp hrun
  obtain ⟨hmanifest, hasked⟩ := Prod.mk.inj hresult
  cases result with
  | error error => nomatch hmanifest
  | ok manifest =>
      have hdirectories : manifest.directories.map (fun d => (d.relativePath, d.targetPath)) =
          [([], ['/', 't'])] := Option.some.inj hmanifest
      obtain ⟨d, hd, hpaths⟩ := List.map_eq_singleton_iff.mp hdirectories
      obtain ⟨-, htarget⟩ := Prod.mk.inj hpaths
      refine ⟨manifest, s, heq, ⟨d, hd ▸ List.mem_cons_self, ?_⟩, ?_⟩
      · rintro ⟨names, hnames, -, -, hcomponents⟩
        rw [htarget] at hcomponents
        have hroot : OsPath.components (encodeUtf8 ['/', 't']) = OsPath.components [0x2f, 0x74] := by
          decide +kernel
        exact hnames (List.map_eq_nil_iff.mp (List.self_eq_append_right.mp (hroot ▸ hcomponents)))
      · rw [hasked]
        decide

theorem discovery_contained_loop : ∃ manifest s, loopRun = some (.ok manifest, s) ∧
    Contained [0x2f, 0x74] manifest s.world := by
  obtain ⟨result, s, hrun, -, hcontained⟩ := discovery_contained
    ⟨fun _ _ _ _ => none, fun _ => [], fun _ _ => []⟩ loopServer ['/'] [0x2f, 0x74] loopOptions
  have heq : loopRun = some (result, s) := hrun 2 (by decide)
  have hok : loopRun.map (fun end_ => end_.1.isOk) = some true := by decide +kernel
  rw [heq, Option.map_some] at hok
  cases result with
  | error error => nomatch hok
  | ok manifest => exact ⟨manifest, s, heq, hcontained manifest rfl⟩

end Discovery

end Netcatty.Ssh
