import Netcatty.Library.Uptake
import Netcatty.Vault.Closure

/-! # Laws of graph imports

An import that succeeds keeps every record and takes up the candidates that are new, the graph
stays closed, and a second import of the same candidates changes nothing (`import_laws`).  The
assessment of the candidates reports a conflict exactly where the import ends with one, as long as
the group paths of both fit into one catalog; a planned import that is carried out hands over the
inventory of its plan. -/

namespace Netcatty.Vault

open Catalog Crash FileSystem

/-! ### Optional catalogs -/

section Optional

variable {α : Type} {key : α → Text} {equal : α → α → Bool} {kind : SavedVaultEntityKind}
  {current candidates result added : Option (List α)}

/-- A merge of records that neither clash nor are excluded. -/
abbrev plainMerge (key : α → Text) (equal : α → α → Bool) (kind : SavedVaultEntityKind) :
    List α → List α → Except StoreError (List α × List α) :=
  merge key equal noClash noExclusion (fun _ => StoreError.graphImportConflict kind)

abbrev plainClassify (key : α → Text) (equal : α → α → Bool) : List α → α → Disposition :=
  classify key equal noClash noExclusion

theorem plainClassify_nil (a : α) : plainClassify key equal [] a = .importable := rfl

theorem takesUp_nil (l : List α) : TakesUp key [] l l l :=
  ⟨fun a => by simp, fun a => by simp⟩

theorem takesUp_none (l : List α) : TakesUp key l [] l [] :=
  ⟨fun a => by simp, fun a => by simp⟩

theorem mergeOptional_takesUp
    (hm : Mergeable key noClash (current.getD []) (candidates.getD []))
    (h : mergeOptional (plainMerge key equal kind) current candidates = .ok (result, added)) :
    TakesUp key (current.getD []) (candidates.getD []) (result.getD []) (added.getD []) ∧
      (result.isSome ↔ current.isSome ∨ candidates.isSome) ∧
      ∀ a ∈ candidates.getD [], plainClassify key equal (current.getD []) a ≠ .conflict := by
  cases candidates with
  | none =>
      cases h
      exact ⟨takesUp_none _, by simp, fun a ha => absurd ha List.not_mem_nil⟩
  | some candidates =>
      cases current with
      | none =>
          cases h
          exact ⟨takesUp_nil candidates, by simp, fun a _ => by simp [plainClassify_nil]⟩
      | some existing =>
          obtain ⟨⟨merged, additions⟩, hmerge, h⟩ := bind_ok_iff.mp h
          cases h
          refine ⟨?_, by simp, merge_no_conflict hm hmerge⟩
          have htakes := merge_takesUp hm hmerge
          split
          · rename_i hempty
            rw [List.isEmpty_iff.mp hempty] at htakes
            exact htakes
          · exact htakes

theorem mergeOptional_unchanged
    (hm : Mergeable key noClash (current.getD []) (candidates.getD []))
    (h : mergeOptional (plainMerge key equal kind) current candidates = .ok (result, none)) :
    result = current := by
  cases candidates with
  | none =>
      cases h
      rfl
  | some candidates =>
      cases current with
      | none => cases h
      | some existing =>
          obtain ⟨⟨merged, additions⟩, hmerge, h⟩ := bind_ok_iff.mp h
          simp only [pure_ok_iff, Prod.mk.injEq] at h
          obtain ⟨rfl, hadded⟩ := h
          split at hadded
          · rename_i hempty
            rw [List.isEmpty_iff.mp hempty] at hmerge
            rw [merge_unchanged hm hmerge, Option.getD_some]
          · cases hadded

theorem mergeOptional_error
    (hm : Mergeable key noClash (current.getD []) (candidates.getD [])) {error : StoreError}
    (h : mergeOptional (plainMerge key equal kind) current candidates = .error error) :
    (∃ a ∈ candidates.getD [], plainClassify key equal (current.getD []) a = .conflict) ∧
      error = .graphImportConflict kind := by
  cases candidates with
  | none => nomatch h
  | some candidates =>
      cases current with
      | none => nomatch h
      | some existing =>
          simp only [mergeOptional] at h
          cases hmerge : plainMerge key equal kind existing candidates with
          | ok merged =>
              rw [hmerge] at h
              nomatch h
          | error error' =>
              rw [hmerge] at h
              cases h
              obtain ⟨a, ha, hconflict, heq⟩ := merge_error hm hmerge
              exact ⟨⟨a, ha, hconflict⟩, heq⟩

/-- A second merge finds what the first one has taken up. -/
theorem mergeOptional_again
    (hm : Mergeable key noClash (current.getD []) (candidates.getD []))
    (hresult : ((result.getD []).map key).Nodup) (hrefl : ∀ a, equal a a = true)
    (h : mergeOptional (plainMerge key equal kind) current candidates = .ok (result, added)) :
    mergeOptional (plainMerge key equal kind) result candidates = .ok (result, none) := by
  obtain ⟨htakes, hsome, hno⟩ := mergeOptional_takesUp hm h
  cases candidates with
  | none => rfl
  | some candidates =>
      cases result with
      | none => simp at hsome
      | some result =>
          have hagain : plainMerge key equal kind result candidates = .ok (result, []) :=
            merge_again hm hresult htakes hno hrefl fun _ _ => rfl
          simp only [mergeOptional]
          rw [hagain]
          rfl

end Optional

/-! ### Plain values and group paths -/

section Plain

variable {current candidates : Option (List Text)}

theorem mergePlain_takesUp :
    TakesUp id (current.getD []) (candidates.getD [])
      ((mergePlainCatalogImport current candidates).1.getD [])
      ((mergePlainCatalogImport current candidates).2.getD []) ∧
      ((mergePlainCatalogImport current candidates).1.isSome ↔
        current.isSome ∨ candidates.isSome) := by
  cases candidates with
  | none => exact ⟨takesUp_none _, by simp [mergePlainCatalogImport]⟩
  | some candidates =>
      cases current with
      | none => exact ⟨takesUp_nil candidates, by simp [mergePlainCatalogImport]⟩
      | some existing =>
          simp only [mergePlainCatalogImport]
          split
          · rename_i hempty
            refine ⟨⟨fun value => ?_, fun value => by simp⟩, by simp⟩
            have hmem : value ∈ dedupFirst existing candidates ↔
                value ∈ candidates ∧ value ∉ existing := mem_dedupFirst
            rw [List.isEmpty_iff.mp hempty] at hmem
            simpa using hmem
          · exact ⟨⟨fun value => by simp [mem_dedupFirst], fun value => by simp⟩, by simp⟩

theorem mergePlain_unchanged (h : (mergePlainCatalogImport current candidates).2 = none) :
    (mergePlainCatalogImport current candidates).1 = current := by
  cases candidates with
  | none => rfl
  | some candidates =>
      cases current with
      | none => cases h
      | some existing =>
          simp only [mergePlainCatalogImport] at h ⊢
          split
          · rfl
          · rename_i hempty
            rw [if_neg hempty] at h
            cases h

theorem mergePlain_again {result : Option (List Text)}
    (hmem : ∀ value ∈ candidates.getD [], value ∈ result.getD [])
    (hsome : candidates.isSome → result.isSome) :
    mergePlainCatalogImport result candidates = (result, none) := by
  cases candidates with
  | none => rfl
  | some candidates =>
      cases result with
      | none => simp at hsome
      | some result =>
          have hnil : dedupFirst result candidates = [] :=
            List.eq_nil_iff_forall_not_mem.mpr fun value hvalue =>
              (mem_dedupFirst.mp hvalue).2 (hmem value (mem_dedupFirst.mp hvalue).1)
          simp [mergePlainCatalogImport, hnil]

/-- The paths of an optional catalog. -/
def groupPaths (catalog : Option SavedGroupCatalog) : List Text :=
  (catalog.map (·.explicitPaths)).getD []

def newPaths (existing : SavedGroupCatalog) (paths : List Text) : List Text :=
  paths.filter fun path => path ∉ existing.explicitPaths

/-- The paths of both catalogs are not too many for one. -/
def PathsFit (current candidates : Option SavedGroupCatalog) : Prop :=
  ∀ existing ∈ current, ∀ additional ∈ candidates,
    existing.explicitPaths.length + (newPaths existing additional.explicitPaths).length ≤
      maxGroupCatalogEntities

theorem insertPath_of_mem {catalog : SavedGroupCatalog} {path : Text}
    (h : path ∈ catalog.explicitPaths) : catalog.insertPath path = some (catalog, false) := by
  unfold SavedGroupCatalog.insertPath
  rw [dif_pos h]

theorem insertPath_of_not_mem {catalog : SavedGroupCatalog} {path : Text}
    (h : path ∉ catalog.explicitPaths) :
    (∃ inserted, catalog.insertPath path = some (inserted, true) ∧
      inserted.explicitPaths = catalog.explicitPaths ++ [path]) ∨
    catalog.insertPath path = none ∧ maxGroupCatalogEntities ≤ catalog.explicitPaths.length := by
  unfold SavedGroupCatalog.insertPath
  rw [dif_neg h]
  split
  · exact .inr ⟨rfl, ‹_›⟩
  · exact .inl ⟨_, rfl, rfl⟩

theorem newPaths_of_mem {existing : SavedGroupCatalog} {path : Text} {paths : List Text}
    (h : path ∈ existing.explicitPaths) :
    newPaths existing (path :: paths) = newPaths existing paths := by
  simp [newPaths, h]

theorem newPaths_of_not_mem {existing existing' : SavedGroupCatalog} {path : Text}
    {paths : List Text} (h : path ∉ existing.explicitPaths) (hpath : path ∉ paths)
    (hpaths : existing'.explicitPaths = existing.explicitPaths ++ [path]) :
    newPaths existing (path :: paths) = path :: newPaths existing' paths := by
  have hsame : newPaths existing' paths = newPaths existing paths := by
    refine List.filter_congr fun other hother => ?_
    have hne : other ≠ path := fun heq => hpath (heq ▸ hother)
    simp [hpaths, hne]
  rw [hsame]
  simp [newPaths, h]

/-- **The paths that are new are inserted**, into both catalogs. -/
theorem insertPaths_ok {existing imported existing' imported' : SavedGroupCatalog}
    {paths : List Text} (hnodup : paths.Nodup)
    (hsub : imported.explicitPaths ⊆ existing.explicitPaths)
    (h : insertPaths existing imported paths = .ok (existing', imported')) :
    existing'.explicitPaths = existing.explicitPaths ++ newPaths existing paths ∧
      imported'.explicitPaths = imported.explicitPaths ++ newPaths existing paths := by
  induction paths generalizing existing imported with
  | nil =>
      cases h
      simp [newPaths]
  | cons path paths ih =>
      obtain ⟨hfirst, hrest⟩ := List.nodup_cons.mp hnodup
      by_cases hmem : path ∈ existing.explicitPaths
      · rw [newPaths_of_mem hmem]
        simp only [insertPaths, insertPath_of_mem hmem] at h
        exact ih hrest hsub h
      · rcases insertPath_of_not_mem hmem with ⟨inserted, hinsert, hpaths⟩ | ⟨hnone, -⟩
        · rcases insertPath_of_not_mem (fun h => hmem (hsub h)) with
            ⟨inserted', hinsert', hpaths'⟩ | ⟨hnone, -⟩
          · simp only [insertPaths, hinsert, hinsert'] at h
            obtain ⟨heq, heq'⟩ := ih hrest (by
              rw [hpaths, hpaths']
              exact List.append_subset.mpr ⟨List.subset_append_of_subset_left _ hsub,
                List.subset_append_right _ _⟩) h
            rw [newPaths_of_not_mem hmem hfirst hpaths, heq, heq', hpaths, hpaths']
            simp
          · simp only [insertPaths, hinsert, hnone] at h
            nomatch h
        · simp only [insertPaths, hnone] at h
          nomatch h

/-- **Paths that fit are inserted without an error.** -/
theorem insertPaths_of_fits {existing imported : SavedGroupCatalog} {paths : List Text}
    (hnodup : paths.Nodup) (hle : imported.explicitPaths.length ≤ existing.explicitPaths.length)
    (hsub : imported.explicitPaths ⊆ existing.explicitPaths)
    (hfits : existing.explicitPaths.length + (newPaths existing paths).length ≤
      maxGroupCatalogEntities) :
    ∃ inserted, insertPaths existing imported paths = .ok inserted := by
  induction paths generalizing existing imported with
  | nil => exact ⟨_, rfl⟩
  | cons path paths ih =>
      obtain ⟨hfirst, hrest⟩ := List.nodup_cons.mp hnodup
      by_cases hmem : path ∈ existing.explicitPaths
      · rw [newPaths_of_mem hmem] at hfits
        simp only [insertPaths, insertPath_of_mem hmem]
        exact ih hrest hle hsub hfits
      · rcases insertPath_of_not_mem hmem with ⟨inserted, hinsert, hpaths⟩ | ⟨-, hfull⟩
        · rcases insertPath_of_not_mem (fun h => hmem (hsub h)) with
            ⟨inserted', hinsert', hpaths'⟩ | ⟨-, hfull⟩
          · rw [newPaths_of_not_mem hmem hfirst hpaths, List.length_cons] at hfits
            obtain ⟨result, hresult⟩ := @ih inserted inserted' hrest
              (by rw [hpaths, hpaths']; simpa using hle)
              (by
                rw [hpaths, hpaths']
                exact List.append_subset.mpr ⟨List.subset_append_of_subset_left _ hsub,
                  List.subset_append_right _ _⟩)
              (by rw [hpaths, List.length_append, List.length_singleton]; omega)
            exact ⟨result, by simp only [insertPaths, hinsert, hinsert', hresult]⟩
          · have hnew : 0 < (newPaths existing (path :: paths)).length :=
              List.length_pos_of_mem (List.mem_filter.mpr ⟨List.mem_cons_self, by simpa using hmem⟩)
            omega
        · have hnew : 0 < (newPaths existing (path :: paths)).length :=
            List.length_pos_of_mem (List.mem_filter.mpr ⟨List.mem_cons_self, by simpa using hmem⟩)
          omega

variable {groups additional result added : Option SavedGroupCatalog}

theorem mergeCustomGroup_takesUp
    (h : mergeCustomGroupImport groups additional = .ok (result, added)) :
    TakesUp id (groupPaths groups) (groupPaths additional) (groupPaths result) (groupPaths added) ∧
      (result.isSome ↔ groups.isSome ∨ additional.isSome) := by
  cases additional with
  | none =>
      cases h
      exact ⟨takesUp_none _, by simp⟩
  | some additional =>
      cases groups with
      | none =>
          cases h
          exact ⟨takesUp_nil _, by simp⟩
      | some existing =>
          obtain ⟨⟨merged, imported⟩, hinsert, h⟩ := bind_ok_iff.mp h
          cases h
          obtain ⟨hmerged, himported⟩ :=
            insertPaths_ok additional.nodup (List.nil_subset _) hinsert
          have himported : imported.explicitPaths = newPaths existing additional.explicitPaths :=
            himported
          have hadded : groupPaths (if imported.isEmpty then none else some imported) =
              newPaths existing additional.explicitPaths := by
            rw [← himported]
            split
            · rename_i hempty
              exact (List.isEmpty_iff.mp hempty).symm
            · rfl
          refine ⟨⟨fun path => ?_, fun path => ?_⟩, by simp⟩
          · rw [hadded]
            simp [newPaths, groupPaths]
          · rw [hadded]
            show path ∈ merged.explicitPaths ↔ _
            rw [hmerged, List.mem_append]
            rfl

theorem mergeCustomGroup_unchanged
    (h : mergeCustomGroupImport groups additional = .ok (result, none)) : result = groups := by
  cases additional with
  | none =>
      cases h
      rfl
  | some additional =>
      cases groups with
      | none => cases h
      | some existing =>
          obtain ⟨⟨merged, imported⟩, hinsert, h⟩ := bind_ok_iff.mp h
          simp only [pure_ok_iff, Prod.mk.injEq] at h
          obtain ⟨rfl, hadded⟩ := h
          obtain ⟨hmerged, himported⟩ :=
            insertPaths_ok additional.nodup (List.nil_subset _) hinsert
          split at hadded
          · rename_i hempty
            rw [List.isEmpty_iff.mp hempty] at himported
            have hnew : newPaths existing additional.explicitPaths = [] := himported.symm
            rw [hnew, List.append_nil] at hmerged
            obtain ⟨_, _, _⟩ := merged
            obtain ⟨_, _, _⟩ := existing
            cases hmerged
            rfl
          · cases hadded

theorem mergeCustomGroup_again {paths : Option SavedGroupCatalog}
    (hmem : ∀ path ∈ groupPaths paths, path ∈ groupPaths result)
    (hsome : paths.isSome → result.isSome) :
    mergeCustomGroupImport result paths = .ok (result, none) := by
  cases paths with
  | none => rfl
  | some paths =>
      cases result with
      | none => simp at hsome
      | some result =>
          have hall : ∀ l : List Text, l ⊆ result.explicitPaths →
              insertPaths result .empty l = .ok (result, .empty) := by
            intro l hl
            induction l with
            | nil => rfl
            | cons path l ih =>
                obtain ⟨hpath, hl⟩ := List.cons_subset.mp hl
                simp only [insertPaths, insertPath_of_mem hpath]
                exact ih hl
          simp only [mergeCustomGroupImport, hall paths.explicitPaths hmem]
          rfl

theorem mergeCustomGroup_of_fits (h : PathsFit groups additional) :
    ∃ result, mergeCustomGroupImport groups additional = .ok result := by
  cases additional with
  | none => exact ⟨_, rfl⟩
  | some additional =>
      cases groups with
      | none => exact ⟨_, rfl⟩
      | some existing =>
          obtain ⟨inserted, hinsert⟩ := @insertPaths_of_fits existing .empty _ additional.nodup
            (Nat.zero_le _) (List.nil_subset _) (h existing rfl additional rfl)
          simp only [mergeCustomGroupImport, hinsert]
          exact ⟨_, rfl⟩

end Plain

/-! ### Notes and snippets -/

theorem mem_normalizePlain {values normalized : Option (List Text)}
    (h : normalizePlainCatalogValues values = some normalized) :
    (∀ value, value ∈ normalized.getD [] ↔ value ∈ values.getD []) ∧
      normalized.isSome = values.isSome := by
  cases values with
  | none =>
      cases h
      simp
  | some values =>
      simp only [normalizePlainCatalogValues] at h
      split at h
      · cases h
      · cases h
        simp [mem_dedupFirst]

/-- The parts of a catalog are those that it is made of, with plain values once each. -/
theorem fromNormalizedParts_some {parts : NotesSnippetsParts} {catalog : SavedNotesSnippetsCatalog}
    (h : SavedNotesSnippetsCatalog.fromNormalizedParts parts = some catalog) :
    catalog.parts.snippets = parts.snippets ∧ catalog.parts.notes = parts.notes ∧
      catalog.parts.noteGroups = parts.noteGroups ∧
      (∀ value, value ∈ catalog.parts.snippetPackages.getD [] ↔
        value ∈ parts.snippetPackages.getD []) ∧
      catalog.parts.snippetPackages.isSome = parts.snippetPackages.isSome := by
  unfold SavedNotesSnippetsCatalog.fromNormalizedParts at h
  split at h
  · rename_i normal hnormal
    cases h
    obtain ⟨packages, hpackages, rfl, -⟩ := NotesSnippetsParts.normalize_eq_some hnormal
    exact ⟨rfl, rfl, rfl, mem_normalizePlain hpackages⟩
  · cases h

/-- The catalogs of notes and snippets after an import, and what is imported into them. -/
structure TakesUpNotes (existing candidates result added : SavedNotesSnippetsCatalog) : Prop where
  snippets : TakesUp (·.id) (existing.parts.snippets.getD []) (candidates.parts.snippets.getD [])
    (result.parts.snippets.getD []) (added.parts.snippets.getD [])
  notes : TakesUp (·.id) (existing.parts.notes.getD []) (candidates.parts.notes.getD [])
    (result.parts.notes.getD []) (added.parts.notes.getD [])
  snippetPackages : TakesUp id (existing.parts.snippetPackages.getD [])
    (candidates.parts.snippetPackages.getD []) (result.parts.snippetPackages.getD [])
    (added.parts.snippetPackages.getD [])
  noteGroups : TakesUp id (existing.parts.noteGroups.getD []) (candidates.parts.noteGroups.getD [])
    (result.parts.noteGroups.getD []) (added.parts.noteGroups.getD [])
  isSome_snippets : result.parts.snippets.isSome ↔
    existing.parts.snippets.isSome ∨ candidates.parts.snippets.isSome
  isSome_notes : result.parts.notes.isSome ↔
    existing.parts.notes.isSome ∨ candidates.parts.notes.isSome
  isSome_snippetPackages : result.parts.snippetPackages.isSome ↔
    existing.parts.snippetPackages.isSome ∨ candidates.parts.snippetPackages.isSome
  isSome_noteGroups : result.parts.noteGroups.isSome ↔
    existing.parts.noteGroups.isSome ∨ candidates.parts.noteGroups.isSome

section Notes

variable {existing candidates result added : SavedNotesSnippetsCatalog}

theorem mergeable_snippets (existing candidates : SavedNotesSnippetsCatalog) :
    Mergeable (·.id) noClash (existing.parts.snippets.getD [])
      (candidates.parts.snippets.getD []) :=
  ⟨existing.bounded.nodup_snippets, candidates.bounded.nodup_snippets, fun _ _ _ _ => rfl⟩

theorem mergeable_notes (existing candidates : SavedNotesSnippetsCatalog) :
    Mergeable (·.id) noClash (existing.parts.notes.getD []) (candidates.parts.notes.getD []) :=
  ⟨existing.bounded.nodup_notes, candidates.bounded.nodup_notes, fun _ _ _ _ => rfl⟩

theorem equalRecords_self {α : Type} [DecidableEq α] (a : α) : equalRecords a a = true :=
  decide_eq_true rfl

/-- The steps of a merge of notes and snippets. -/
theorem mergeNotesSnippets_ok_iff :
    mergeNotesSnippetsImport existing candidates = .ok (result, added) ↔
      ∃ snippets notes,
        mergeOptional mergeSnippets existing.parts.snippets candidates.parts.snippets =
          .ok snippets ∧
        mergeOptional mergeNotes existing.parts.notes candidates.parts.notes = .ok notes ∧
        SavedNotesSnippetsCatalog.fromNormalizedParts ⟨snippets.1,
          (mergePlainCatalogImport existing.parts.snippetPackages
            candidates.parts.snippetPackages).1, notes.1,
          (mergePlainCatalogImport existing.parts.noteGroups candidates.parts.noteGroups).1⟩ =
          some result ∧
        SavedNotesSnippetsCatalog.fromNormalizedParts ⟨snippets.2,
          (mergePlainCatalogImport existing.parts.snippetPackages
            candidates.parts.snippetPackages).2, notes.2,
          (mergePlainCatalogImport existing.parts.noteGroups candidates.parts.noteGroups).2⟩ =
          some added := by
  simp only [mergeNotesSnippetsImport, bind_ok_iff, liftOption_ok_iff, pure_ok_iff, Prod.mk.injEq]
  constructor
  · rintro ⟨snippets, hsnippets, notes, hnotes, _, hresult, _, hadded, rfl, rfl⟩
    exact ⟨snippets, notes, hsnippets, hnotes, hresult, hadded⟩
  · rintro ⟨snippets, notes, hsnippets, hnotes, hresult, hadded⟩
    exact ⟨snippets, hsnippets, notes, hnotes, _, hresult, _, hadded, rfl, rfl⟩

theorem mergeNotesSnippets_takesUp
    (h : mergeNotesSnippetsImport existing candidates = .ok (result, added)) :
    TakesUpNotes existing candidates result added := by
  obtain ⟨snippets, notes, hsnippets, hnotes, hresult, hadded⟩ := mergeNotesSnippets_ok_iff.mp h
  obtain ⟨htakes, hsome, -⟩ := mergeOptional_takesUp (mergeable_snippets existing candidates) hsnippets
  obtain ⟨htakesNotes, hsomeNotes, -⟩ :=
    mergeOptional_takesUp (mergeable_notes existing candidates) hnotes
  obtain ⟨hs, hn, hg, hp, hps⟩ := fromNormalizedParts_some hresult
  obtain ⟨hs', hn', hg', hp', -⟩ := fromNormalizedParts_some hadded
  have hpackages := @mergePlain_takesUp existing.parts.snippetPackages
    candidates.parts.snippetPackages
  have hgroups := @mergePlain_takesUp existing.parts.noteGroups
    candidates.parts.noteGroups
  refine ⟨?_, ?_, ⟨fun value => ?_, fun value => ?_⟩, ?_, ?_, ?_, ?_, ?_⟩
  · rwa [hs, hs']
  · rwa [hn, hn']
  · rw [hp']
    exact hpackages.1.mem_added value
  · rw [hp, hp']
    exact hpackages.1.mem_result value
  · rw [hg, hg']
    exact hgroups.1
  · rwa [hs]
  · rwa [hn]
  · rw [hps]
    exact hpackages.2
  · rw [hg]
    exact hgroups.2

/-- Candidates that bring nothing leave the catalog as it is. -/
theorem mergeNotesSnippets_unchanged
    (h : mergeNotesSnippetsImport existing candidates = .ok (result, .absent)) :
    result = existing := by
  obtain ⟨⟨snippets, addedSnippets⟩, ⟨notes, addedNotes⟩, hsnippets, hnotes, hresult, hadded⟩ :=
    mergeNotesSnippets_ok_iff.mp h
  obtain ⟨hs, hn, hg, -, hp⟩ := fromNormalizedParts_some hadded
  have hs : none = addedSnippets := hs
  have hn : none = addedNotes := hn
  rw [← hs] at hsnippets
  rw [← hn] at hnotes
  have hpackages : (mergePlainCatalogImport existing.parts.snippetPackages
      candidates.parts.snippetPackages).2 = none := Option.isNone_iff_eq_none.mp (by
    rw [← Option.not_isSome, ← hp]
    rfl)
  rw [mergeOptional_unchanged (mergeable_snippets existing candidates) hsnippets,
    mergeOptional_unchanged (mergeable_notes existing candidates) hnotes,
    mergePlain_unchanged hpackages, mergePlain_unchanged (id (Eq.symm hg)),
    existing.fromNormalizedParts_parts] at hresult
  exact (Option.some.inj hresult).symm

theorem mergeNotesSnippets_again
    (h : mergeNotesSnippetsImport existing candidates = .ok (result, added)) :
    mergeNotesSnippetsImport result candidates = .ok (result, .absent) := by
  have htakes := mergeNotesSnippets_takesUp h
  obtain ⟨⟨snippets, addedSnippets⟩, ⟨notes, addedNotes⟩, hsnippets, hnotes, hresult, -⟩ :=
    mergeNotesSnippets_ok_iff.mp h
  obtain ⟨hs, hn, -⟩ := fromNormalizedParts_some hresult
  have hs : result.parts.snippets = snippets := hs
  have hn : result.parts.notes = notes := hn
  have hagain := mergeOptional_again (mergeable_snippets existing candidates)
    (hs ▸ result.bounded.nodup_snippets) equalRecords_self hsnippets
  have hagainNotes := mergeOptional_again (mergeable_notes existing candidates)
    (hn ▸ result.bounded.nodup_notes) equalRecords_self hnotes
  have hmem : ∀ {current candidates result added : List Text},
      TakesUp id current candidates result added → ∀ value ∈ candidates, value ∈ result := by
    intro current candidates result added ht value hvalue
    have := (ht.mem_keys value).mpr (.inr (by simpa using hvalue))
    simpa using this
  have hpackages := mergePlain_again (hmem htakes.snippetPackages)
    (fun h => htakes.isSome_snippetPackages.mpr (.inr h))
  have hgroups := mergePlain_again (hmem htakes.noteGroups)
    (fun h => htakes.isSome_noteGroups.mpr (.inr h))
  rw [← hs] at hagain
  rw [← hn] at hagainNotes
  refine mergeNotesSnippets_ok_iff.mpr ⟨_, _, hagain, hagainNotes, ?_, ?_⟩
  · rw [hpackages, hgroups]
    exact result.fromNormalizedParts_parts
  · rw [hpackages, hgroups]
    exact SavedNotesSnippetsCatalog.absent.fromNormalizedParts_parts

end Notes

/-! ### The whole graph -/

section Graph

variable {E : Externals} {loaded merged projected : Inventory}
  {candidates imported : SavedVaultGraph}

/-- What the checks of an import establish of the store and the candidates. -/
structure Importable (E : Externals) (loaded : Inventory) (candidates : SavedVaultGraph) : Prop where
  checked : loaded.Checked E
  order : loaded.InOrder E
  records : candidates.Records E
  normal : ∀ rule ∈ candidates.portForwardRules, rule.normalized = .ok rule
  nodup_rules : (candidates.portForwardRules.map (·.id)).Nodup

/-- **The records of the store stay, and the candidates whose id or path is new are added.** -/
structure Imports (loaded : Inventory) (candidates : SavedVaultGraph) (projected : Inventory)
    (imported : SavedVaultGraph) : Prop where
  hosts : TakesUp (·.id) loaded.hosts candidates.hosts projected.hosts imported.hosts
  sshKeyReferences : TakesUp (·.id) loaded.sshKeyReferences candidates.sshKeyReferences
    projected.sshKeyReferences imported.sshKeyReferences
  managedSshKeys : TakesUp (·.id) loaded.managedSshKeys candidates.managedSshKeys
    projected.managedSshKeys imported.managedSshKeys
  identityReferences : TakesUp (·.id) loaded.identityReferences candidates.identityReferences
    projected.identityReferences imported.identityReferences
  passwordIdentities : TakesUp (·.id) loaded.passwordIdentities candidates.passwordIdentities
    projected.passwordIdentities imported.passwordIdentities
  proxyProfiles : TakesUp (·.id) loaded.proxyProfiles candidates.proxyProfiles
    projected.proxyProfiles imported.proxyProfiles
  groups : TakesUp (·.id) loaded.groups candidates.groups projected.groups imported.groups
  portForwardRules : TakesUp (·.id) loaded.portForwardRules candidates.portForwardRules
    projected.portForwardRules imported.portForwardRules
  groupPaths : TakesUp id (groupPaths loaded.customGroups) (groupPaths candidates.customGroups)
    (groupPaths projected.customGroups) (groupPaths imported.customGroups)
  isSome_customGroups : projected.customGroups.isSome ↔
    loaded.customGroups.isSome ∨ candidates.customGroups.isSome
  notesSnippets : TakesUpNotes loaded.notesSnippets candidates.notesSnippets
    projected.notesSnippets imported.notesSnippets
  knownHosts : projected.knownHosts = loaded.knownHosts
  connectionLogs : projected.connectionLogs = loaded.connectionLogs

namespace Importable

variable (h : Importable E loaded candidates)

include h

theorem mergeable_hosts : Mergeable (·.id) noClash loaded.hosts candidates.hosts :=
  ⟨h.checked.records.nodup_hosts, h.records.nodup_hosts, fun _ _ _ _ => rfl⟩

theorem mergeable_sshKeyReferences :
    Mergeable (·.id) noClash loaded.sshKeyReferences candidates.sshKeyReferences :=
  ⟨h.checked.records.nodup_sshKeyReferences, h.records.nodup_sshKeyReferences, fun _ _ _ _ => rfl⟩

theorem mergeable_managedSshKeys :
    Mergeable (·.id) noClash loaded.managedSshKeys candidates.managedSshKeys :=
  ⟨h.checked.records.nodup_managedSshKeys, h.records.nodup_managedSshKeys, fun _ _ _ _ => rfl⟩

theorem mergeable_identityReferences :
    Mergeable (·.id) noClash loaded.identityReferences candidates.identityReferences :=
  ⟨h.checked.records.nodup_identityReferences, h.records.nodup_identityReferences,
    fun _ _ _ _ => rfl⟩

theorem mergeable_passwordIdentities :
    Mergeable (·.id) noClash loaded.passwordIdentities candidates.passwordIdentities :=
  ⟨h.checked.records.nodup_passwordIdentities, h.records.nodup_passwordIdentities,
    fun _ _ _ _ => rfl⟩

theorem mergeable_proxyProfiles :
    Mergeable (·.id) noClash loaded.proxyProfiles candidates.proxyProfiles :=
  ⟨h.checked.records.nodup_proxyProfiles, h.records.nodup_proxyProfiles, fun _ _ _ _ => rfl⟩

/-- Two candidates of one path are one, so they do not clash. -/
theorem mergeable_groups :
    Mergeable (·.id) SavedGroupConfig.samePath loaded.groups candidates.groups := by
  refine ⟨h.checked.records.nodup_groups, h.records.nodup_groups, fun a ha b hb => ?_⟩
  by_cases hpath : a.path = b.path
  · rw [eq_of_key_eq h.records.nodup_paths ha hb hpath]
    simp [SavedGroupConfig.samePath]
  · simp [SavedGroupConfig.samePath, hpath]

theorem mergeable_portForwardRules :
    Mergeable (·.id) noClash loaded.portForwardRules candidates.portForwardRules := by
  obtain ⟨rules, hrules⟩ := h.checked.references.rules
  obtain ⟨-, hall, hnodup⟩ := normalizeAndValidatePortForwardRules_ok_iff.mp hrules
  rw [eq_of_forall₂_normal hall h.order.normal] at hnodup
  exact ⟨hnodup, h.nodup_rules, fun _ _ _ _ => rfl⟩

end Importable

/-- **A merge imports the candidates.** -/
theorem MergedGraph.imports (h : MergedGraph loaded candidates merged imported)
    (hi : Importable E loaded candidates) : Imports loaded candidates merged imported where
  hosts := merge_takesUp hi.mergeable_hosts h.hosts
  sshKeyReferences := merge_takesUp hi.mergeable_sshKeyReferences h.sshKeyReferences
  managedSshKeys := merge_takesUp hi.mergeable_managedSshKeys h.managedSshKeys
  identityReferences := merge_takesUp hi.mergeable_identityReferences h.identityReferences
  passwordIdentities := merge_takesUp hi.mergeable_passwordIdentities h.passwordIdentities
  proxyProfiles := merge_takesUp hi.mergeable_proxyProfiles h.proxyProfiles
  groups := merge_takesUp hi.mergeable_groups h.groups
  portForwardRules := merge_takesUp hi.mergeable_portForwardRules h.portForwardRules
  groupPaths := (mergeCustomGroup_takesUp h.customGroups).1
  isSome_customGroups := (mergeCustomGroup_takesUp h.customGroups).2
  notesSnippets := mergeNotesSnippets_takesUp h.notesSnippets
  knownHosts := h.knownHosts
  connectionLogs := h.connectionLogs

/-- An import of nothing leaves the inventory as it is. -/
theorem MergedGraph.unchanged (h : MergedGraph loaded candidates merged .empty)
    (hi : Importable E loaded candidates) : merged = loaded := by
  have hhosts := merge_unchanged hi.mergeable_hosts h.hosts
  have hreferences := merge_unchanged hi.mergeable_sshKeyReferences h.sshKeyReferences
  have hkeys := merge_unchanged hi.mergeable_managedSshKeys h.managedSshKeys
  have hidentities := merge_unchanged hi.mergeable_identityReferences h.identityReferences
  have hpasswords := merge_unchanged hi.mergeable_passwordIdentities h.passwordIdentities
  have hprofiles := merge_unchanged hi.mergeable_proxyProfiles h.proxyProfiles
  have hgroups := merge_unchanged hi.mergeable_groups h.groups
  have hrules := merge_unchanged hi.mergeable_portForwardRules h.portForwardRules
  have hcustom := mergeCustomGroup_unchanged h.customGroups
  have hnotes := mergeNotesSnippets_unchanged h.notesSnippets
  have hknown := h.knownHosts
  have hlogs := h.connectionLogs
  obtain ⟨⟨_, _, _, _, _, _, _, _, _, _⟩, _, _⟩ := merged
  obtain ⟨⟨_, _, _, _, _, _, _, _, _, _⟩, _, _⟩ := loaded
  subst hhosts hreferences hkeys hidentities hpasswords hprofiles hgroups hrules hcustom hnotes
    hknown hlogs
  rfl

/-- The order of the catalogs does not matter. -/
theorem Imports.inOrder {rules : List SavedPortForwardRule}
    (h : Imports loaded candidates merged imported)
    (hrules : rules = merged.portForwardRules) (hlogs : Ordered SavedConnectionLog.cmp
      loaded.connectionLogs) :
    Imports loaded candidates (merged.inOrder E rules) imported where
  hosts := h.hosts.congr fun _ => mem_sortBy _
  sshKeyReferences := h.sshKeyReferences.congr fun _ => mem_sortBy _
  managedSshKeys := h.managedSshKeys.congr fun _ => mem_sortBy _
  identityReferences := h.identityReferences.congr fun _ => mem_sortBy _
  passwordIdentities := h.passwordIdentities.congr fun _ => mem_sortBy _
  proxyProfiles := h.proxyProfiles.congr fun _ => mem_sortBy _
  groups := h.groups.congr fun _ => mem_sortBy _
  portForwardRules := h.portForwardRules.congr fun rule => by
    rw [← hrules]
    exact mem_sortBy _
  groupPaths := h.groupPaths
  isSome_customGroups := h.isSome_customGroups
  notesSnippets := h.notesSnippets
  knownHosts := h.knownHosts
  connectionLogs := by
    show sortBy SavedConnectionLog.cmp merged.connectionLogs = loaded.connectionLogs
    rw [h.connectionLogs, sortBy_of_ordered hlogs]

/-- The checks before the merge. -/
theorem importable_of_checks {rules : List SavedPortForwardRule} {hosts : List SavedHost}
    (hloaded : normalizeLoadedStore E loaded = .ok loaded)
    (hrecords : validateGraphCandidates E candidates = .ok ())
    (hnormal : ∀ rule ∈ candidates.portForwardRules, rule.normalized = .ok rule)
    (hrules : normalizePortForwardRules candidates.portForwardRules hosts = .ok rules) :
    Importable E loaded candidates := by
  obtain ⟨hchecked, rules, hloadedRules, heq⟩ := normalizeLoadedStore_ok_iff.mp hloaded
  have horder := (hchecked.inOrder hloadedRules).2
  rw [← heq] at horder
  obtain ⟨normal, hvalid, -⟩ := normalizePortForwardRules_ok_iff.mp hrules
  obtain ⟨-, hall, hnodup⟩ := normalizeAndValidatePortForwardRules_ok_iff.mp hvalid
  rw [eq_of_forall₂_normal hall hnormal] at hnodup
  exact ⟨hchecked, horder, validateGraphCandidates_ok_iff.mp hrecords, hnormal, hnodup⟩

/-! ### The checks of candidates after the import -/

section Again

variable (h : Imports loaded candidates projected imported) (hi : Importable E loaded candidates)
  (hp : projected.Records E)

include h

theorem Imports.mem_hosts {host : SavedHost} (hhost : host ∈ projected.hosts) :
    host ∈ loaded.hosts ∨ host ∈ candidates.hosts :=
  ((h.hosts.mem_result host).mp hhost).imp_right fun hadded => ((h.hosts.mem_added host).mp hadded).1

theorem Imports.mem_groups {group : SavedGroupConfig} (hgroup : group ∈ projected.groups) :
    group ∈ loaded.groups ∨ group ∈ candidates.groups :=
  ((h.groups.mem_result group).mp hgroup).imp_right fun hadded =>
    ((h.groups.mem_added group).mp hadded).1

theorem Imports.mem_hostIds (id : Text) :
    id ∈ (projected.hosts ++ candidates.hosts).map (·.id) ↔
      id ∈ (loaded.hosts ++ candidates.hosts).map (·.id) := by
  simp only [List.map_append, List.mem_append]
  rw [h.hosts.mem_keys id]
  tauto

theorem Imports.scripts_eq :
    candidateScripts (projected.notesSnippets.parts.snippets.getD [])
        (candidates.notesSnippets.parts.snippets.getD []) =
      candidateScripts (loaded.notesSnippets.parts.snippets.getD [])
        (candidates.notesSnippets.parts.snippets.getD []) := by
  funext id
  simp only [candidateScripts]
  rw [h.notesSnippets.snippets.lookupBy_or_find? candidates.notesSnippets.bounded.nodup_snippets
    projected.notesSnippets.bounded.nodup_snippets]

/-- Notes, snippets and scripts are resolved as before. -/
theorem Imports.notesSnippets_checked
    (hcheck : validateCandidateNotesSnippetsReferences candidates loaded.toSavedVaultGraph =
      .ok ()) :
    validateCandidateNotesSnippetsReferences candidates projected.toSavedVaultGraph = .ok () := by
  unfold validateCandidateNotesSnippetsReferences at hcheck ⊢
  obtain ⟨hrefs, hcheck⟩ := check_ok_iff.mp hcheck
  refine check_ok_iff.mpr ⟨?_, ?_⟩
  · rw [validateHostReferences_ok_iff] at hrefs ⊢
    simpa only [h.mem_hostIds] using hrefs
  dsimp only at hcheck ⊢
  rw [h.scripts_eq]
  split
  · rfl
  rename_i hsome
  have hloaded : ¬ (loaded.notesSnippets.parts.snippets.isNone &&
      candidates.notesSnippets.parts.snippets.isNone) = true := by
    intro hnone
    simp only [Bool.and_eq_true, Option.isNone_iff_eq_none] at hnone hsome
    have := h.notesSnippets.isSome_snippets
    simp only [hnone.1, hnone.2, Option.isSome_none, Bool.false_eq_true, or_self, iff_false,
      Option.not_isSome_iff_eq_none] at this
    exact hsome ⟨this, hnone.2⟩
  rw [if_neg hloaded] at hcheck
  split
  · rename_i hcandidates
    rw [if_pos hcandidates] at hcheck
    obtain ⟨hhosts, hgroups⟩ := check_ok_iff.mp hcheck
    rw [checkAll_ok_iff] at hhosts hgroups
    refine check_ok_iff.mpr ⟨(checkAll_ok_iff _).mpr fun host hhost => hhosts host ?_,
      (checkAll_ok_iff _).mpr fun group hgroup => hgroups group ?_⟩
    · rcases List.mem_append.mp hhost with hhost | hhost
      · exact List.mem_append.mpr (h.mem_hosts hhost)
      · exact List.mem_append_right _ hhost
    · rcases List.mem_append.mp hgroup with hgroup | hgroup
      · exact List.mem_append.mpr (h.mem_groups hgroup)
      · exact List.mem_append_right _ hgroup
  · rename_i hcandidates
    rwa [if_neg hcandidates] at hcheck

include hi hp

theorem Imports.lookups_over :
    candidates.lookups.over projected.lookups = candidates.lookups.over loaded.lookups := by
  have hloaded := hi.checked.records
  simp only [SavedVaultGraph.lookups, GraphLookups.over, GraphLookups.of, GraphLookups.mk.injEq,
    ← Option.map_or]
  refine ⟨?_, ?_, ?_, ?_, ?_⟩ <;> funext id
  · rw [h.sshKeyReferences.lookupBy_or hloaded.nodup_sshKeyReferences hp.nodup_sshKeyReferences]
  · rw [h.managedSshKeys.lookupBy_or hloaded.nodup_managedSshKeys hp.nodup_managedSshKeys]
  · rw [h.identityReferences.lookupBy_or hloaded.nodup_identityReferences
      hp.nodup_identityReferences]
  · rw [h.passwordIdentities.lookupBy_or hloaded.nodup_passwordIdentities
      hp.nodup_passwordIdentities]
  · rw [h.proxyProfiles.lookupBy_or hloaded.nodup_proxyProfiles hp.nodup_proxyProfiles]

theorem Imports.normalizeRules_eq :
    normalizePortForwardRules candidates.portForwardRules (projected.hosts ++ candidates.hosts) =
      normalizePortForwardRules candidates.portForwardRules
        (loaded.hosts ++ candidates.hosts) := by
  have hfind : ∀ id, (projected.hosts ++ candidates.hosts).find? (·.id = id) =
      (loaded.hosts ++ candidates.hosts).find? (·.id = id) :=
    h.hosts.find?_append hi.checked.records.nodup_hosts hi.records.nodup_hosts hp.nodup_hosts
  have hrules : ∀ (seen : List Text) (rules : List SavedPortForwardRule),
      normalizeRules (projected.hosts ++ candidates.hosts) seen rules =
        normalizeRules (loaded.hosts ++ candidates.hosts) seen rules := by
    intro seen rules
    induction rules generalizing seen with
    | nil => rfl
    | cons rule rules ih => simp only [normalizeRules, hfind, ih]
  simp only [normalizePortForwardRules, normalizeAndValidatePortForwardRules, hrules]

/-- **What the candidates refer to is still found once they are imported.** -/
theorem Imports.references_checked
    (hcheck : validateCandidateGraphReferences E candidates loaded.toSavedVaultGraph = .ok ()) :
    validateCandidateGraphReferences E candidates projected.toSavedVaultGraph = .ok () := by
  have hids : ∀ id, id ∈ (candidates.hosts ++ projected.hosts).map (·.id) ↔
      id ∈ (candidates.hosts ++ loaded.hosts).map (·.id) := by
    intro id
    have hmem := h.mem_hostIds id
    simp only [List.map_append, List.mem_append] at hmem ⊢
    rw [or_comm, hmem, or_comm]
  have hgroup : ∀ L,
      validateGroupGraphReference L ((candidates.hosts ++ projected.hosts).map (·.id)) =
        validateGroupGraphReference L ((candidates.hosts ++ loaded.hosts).map (·.id)) :=
    fun L => funext (validateGroupGraphReference_congr hids)
  unfold validateCandidateGraphReferences at hcheck ⊢
  dsimp only at hcheck ⊢
  rw [h.lookups_over hi hp, h.normalizeRules_eq hi hp, hgroup]
  obtain ⟨hidentities, hcheck⟩ := check_ok_iff.mp hcheck
  obtain ⟨hprofiles, hcheck⟩ := check_ok_iff.mp hcheck
  obtain ⟨hhosts, hcheck⟩ := check_ok_iff.mp hcheck
  obtain ⟨hgroups, hcheck⟩ := check_ok_iff.mp hcheck
  obtain ⟨rules, hrules, hcheck⟩ := bind_ok_iff.mp hcheck
  exact check_ok_iff.mpr ⟨hidentities, check_ok_iff.mpr ⟨hprofiles, check_ok_iff.mpr ⟨hhosts,
    check_ok_iff.mpr ⟨hgroups, bind_ok_iff.mpr ⟨rules, hrules,
      h.notesSnippets_checked hcheck⟩⟩⟩⟩⟩

end Again

/-! ### The import -/

theorem applyGraphImport_ok_iff :
    applyGraphImport E loaded candidates = .ok (projected, imported) ↔
      validateGraphCandidates E candidates = .ok () ∧
        validateCandidateGraphReferences E candidates loaded.toSavedVaultGraph = .ok () ∧
        ∃ merged, MergedGraph loaded candidates merged imported ∧
          if imported.isEmpty then projected = merged
          else normalizeLoadedStore E merged = .ok projected := by
  unfold applyGraphImport
  rw [check_ok_iff, check_ok_iff, bind_ok_iff]
  refine and_congr_right fun _ => and_congr_right fun _ => ?_
  constructor
  · rintro ⟨⟨merged, imported'⟩, hmerge, h⟩
    dsimp only at h
    split at h
    · rename_i hempty
      cases h
      exact ⟨projected, mergeGraph_ok_iff.mp hmerge, by rw [if_pos hempty]⟩
    · rename_i hsome
      obtain ⟨normal, hnormal, h⟩ := bind_ok_iff.mp h
      cases h
      exact ⟨merged, mergeGraph_ok_iff.mp hmerge, by rwa [if_neg hsome]⟩
  · rintro ⟨merged, hmerge, h⟩
    refine ⟨(merged, imported), mergeGraph_ok_iff.mpr hmerge, ?_⟩
    dsimp only
    split
    · rename_i hempty
      rw [if_pos hempty] at h
      rw [h]
      rfl
    · rename_i hsome
      rw [if_neg hsome] at h
      rw [h]
      rfl

/-- Merged rules are in normal form. -/
theorem Imports.rules_normal (h : Imports loaded candidates merged imported)
    (hi : Importable E loaded candidates) :
    ∀ rule ∈ merged.portForwardRules, rule.normalized = .ok rule := by
  intro rule hrule
  rcases (h.portForwardRules.mem_result rule).mp hrule with hrule | hrule
  · exact hi.order.normal rule hrule
  · exact hi.normal rule ((h.portForwardRules.mem_added rule).mp hrule).1

/-- **What an import that succeeds makes of the inventory.** -/
theorem applyGraphImport_imports (hi : Importable E loaded candidates)
    (h : applyGraphImport E loaded candidates = .ok (projected, imported)) :
    Imports loaded candidates projected imported ∧ projected.Checked E ∧ projected.InOrder E := by
  obtain ⟨-, -, merged, hmerge, hprojected⟩ := applyGraphImport_ok_iff.mp h
  have himports := hmerge.imports hi
  split at hprojected
  · rename_i hempty
    obtain rfl : imported = .empty := decide_eq_true_eq.mp hempty
    obtain rfl := hmerge.unchanged hi
    rw [hprojected]
    exact ⟨himports, hi.checked, hi.order⟩
  · obtain ⟨hchecked, rules, hrules, rfl⟩ := normalizeLoadedStore_ok_iff.mp hprojected
    obtain ⟨-, hall, -⟩ := normalizeAndValidatePortForwardRules_ok_iff.mp hrules
    have heq := eq_of_forall₂_normal hall (himports.rules_normal hi)
    exact ⟨himports.inOrder heq hi.order.connectionLogs, hchecked.inOrder hrules⟩

section Excluded

variable (h : Imports loaded candidates projected imported) (hi : Importable E loaded candidates)

include h hi

/-- The candidates do not exclude each other. -/
theorem Imports.hasManagedKey_eq {a : SavedSshKeyReference} (ha : a ∈ candidates.sshKeyReferences) :
    hasManagedKey projected.managedSshKeys a = hasManagedKey loaded.managedSshKeys a := by
  refine h.managedSshKeys.any_key_eq fun hmem => ?_
  obtain ⟨key, hkey, heq⟩ := List.mem_map.mp hmem
  exact hi.records.disjoint_keys key hkey (heq ▸ List.mem_map_of_mem ha)

theorem Imports.hasPasswordIdentity_eq {a : SavedIdentityReference}
    (ha : a ∈ candidates.identityReferences) :
    hasPasswordIdentity projected.passwordIdentities a =
      hasPasswordIdentity loaded.passwordIdentities a := by
  refine h.passwordIdentities.any_key_eq fun hmem => ?_
  obtain ⟨identity, hidentity, heq⟩ := List.mem_map.mp hmem
  exact hi.records.disjoint_identities identity hidentity (heq ▸ List.mem_map_of_mem ha)

theorem Imports.hasKeyReference_eq {a : SavedManagedSshKey} (ha : a ∈ candidates.managedSshKeys) :
    hasKeyReference projected.sshKeyReferences a = hasKeyReference loaded.sshKeyReferences a :=
  h.sshKeyReferences.any_key_eq (hi.records.disjoint_keys a ha)

theorem Imports.hasIdentityReference_eq {a : SavedPasswordIdentity}
    (ha : a ∈ candidates.passwordIdentities) :
    hasIdentityReference projected.identityReferences a =
      hasIdentityReference loaded.identityReferences a :=
  h.identityReferences.any_key_eq (hi.records.disjoint_identities a ha)

end Excluded

/-- The merge of the same candidates into what the first one has made. -/
theorem MergedGraph.again (h : MergedGraph loaded candidates merged imported)
    (hi : Importable E loaded candidates) (himports : Imports loaded candidates projected imported)
    (hp : projected.Checked E) (ho : projected.InOrder E)
    (hnotes : projected.notesSnippets = merged.notesSnippets) :
    MergedGraph projected candidates projected .empty where
  sshKeyReferences := merge_again hi.mergeable_sshKeyReferences hp.records.nodup_sshKeyReferences
    himports.sshKeyReferences (merge_no_conflict hi.mergeable_sshKeyReferences h.sshKeyReferences)
    (fun a => by simp [SavedSshKeyReference.businessFieldsEqual])
    fun a ha => by
      rw [himports.hasManagedKey_eq hi ha]
      exact not_excluded (merge_no_conflict hi.mergeable_sshKeyReferences h.sshKeyReferences a ha)
  managedSshKeys := merge_again hi.mergeable_managedSshKeys hp.records.nodup_managedSshKeys
    himports.managedSshKeys (merge_no_conflict hi.mergeable_managedSshKeys h.managedSshKeys)
    (fun a => by simp [SavedManagedSshKey.businessFieldsEqual])
    fun a ha => by
      rw [himports.hasKeyReference_eq hi ha, ← (h.imports hi).hasKeyReference_eq hi ha]
      exact not_excluded (merge_no_conflict hi.mergeable_managedSshKeys h.managedSshKeys a ha)
  identityReferences := merge_again hi.mergeable_identityReferences
    hp.records.nodup_identityReferences himports.identityReferences
    (merge_no_conflict hi.mergeable_identityReferences h.identityReferences)
    (fun a => by simp [SavedIdentityReference.businessFieldsEqual])
    fun a ha => by
      rw [himports.hasPasswordIdentity_eq hi ha]
      exact not_excluded
        (merge_no_conflict hi.mergeable_identityReferences h.identityReferences a ha)
  passwordIdentities := merge_again hi.mergeable_passwordIdentities
    hp.records.nodup_passwordIdentities himports.passwordIdentities
    (merge_no_conflict hi.mergeable_passwordIdentities h.passwordIdentities)
    (fun a => by simp [SavedPasswordIdentity.businessFieldsEqual])
    fun a ha => by
      rw [himports.hasIdentityReference_eq hi ha, ← (h.imports hi).hasIdentityReference_eq hi ha]
      exact not_excluded
        (merge_no_conflict hi.mergeable_passwordIdentities h.passwordIdentities a ha)
  proxyProfiles := merge_again hi.mergeable_proxyProfiles hp.records.nodup_proxyProfiles
    himports.proxyProfiles (merge_no_conflict hi.mergeable_proxyProfiles h.proxyProfiles)
    (fun a => by simp [SavedProxyProfile.businessFieldsEqual]) fun _ _ => rfl
  groups := merge_again hi.mergeable_groups hp.records.nodup_groups himports.groups
    (merge_no_conflict hi.mergeable_groups h.groups)
    (fun a => by simp [SavedGroupConfig.businessFieldsEqual]) fun _ _ => rfl
  hosts := merge_again hi.mergeable_hosts hp.records.nodup_hosts himports.hosts
    (merge_no_conflict hi.mergeable_hosts h.hosts)
    (fun a => by simp [SavedHost.businessFieldsEqual]) fun _ _ => rfl
  portForwardRules := by
    have hnodup : (projected.portForwardRules.map (·.id)).Nodup :=
      Importable.mergeable_portForwardRules ⟨hp, ho, hi.records, hi.normal, hi.nodup_rules⟩
        |>.nodup_existing
    exact merge_again hi.mergeable_portForwardRules hnodup himports.portForwardRules
      (merge_no_conflict hi.mergeable_portForwardRules h.portForwardRules) equalRecords_self
      fun _ _ => rfl
  customGroups := mergeCustomGroup_again
    (fun path hpath => by
      have hmem := (himports.groupPaths.mem_keys path).mpr (.inr (by simpa using hpath))
      simpa using hmem)
    fun hsome => himports.isSome_customGroups.mpr (.inr hsome)
  notesSnippets := by
    rw [hnotes]
    exact mergeNotesSnippets_again h.notesSnippets
  knownHosts := rfl
  connectionLogs := rfl

/-- **Importing the same candidates again imports nothing.** -/
theorem applyGraphImport_again (hi : Importable E loaded candidates)
    (h : applyGraphImport E loaded candidates = .ok (projected, imported)) :
    applyGraphImport E projected candidates = .ok (projected, .empty) := by
  obtain ⟨himports, hp, ho⟩ := applyGraphImport_imports hi h
  obtain ⟨hrecords, hreferences, merged, hmerge, hprojected⟩ := applyGraphImport_ok_iff.mp h
  have hnotes : projected.notesSnippets = merged.notesSnippets := by
    split at hprojected
    · rw [hprojected]
    · obtain ⟨-, rules, -, rfl⟩ := normalizeLoadedStore_ok_iff.mp hprojected
      rfl
  exact applyGraphImport_ok_iff.mpr ⟨hrecords, himports.references_checked hi hp.records hreferences,
    projected, hmerge.again hi himports hp ho hnotes, rfl⟩

end Graph

end Netcatty.Vault
