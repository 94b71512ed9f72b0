import Mathlib.Data.List.Basic
import Mathlib.Data.List.Pairwise
import Mathlib.Order.Defs.LinearOrder
import Mathlib.Order.Lattice
import Mathlib.Tactic.Common

/-! # Ordered maps

A map is the list of its entries in ascending order of their keys, each key once.  Its entries
determine it in whatever order they are listed (`eq_of_perm`), and an entry with a fresh key is
added to them (`insert_perm`). -/

namespace Netcatty

structure SortedMap (κ ν : Type) [LinearOrder κ] where
  entries : List (κ × ν)
  sorted : entries.Pairwise fun a b => a.1 < b.1

namespace SortedMap

variable {κ ν : Type} [LinearOrder κ]

instance [DecidableEq ν] : DecidableEq (SortedMap κ ν) := fun m m' =>
  decidable_of_iff (m.entries = m'.entries) <| by
    obtain ⟨entries, sorted⟩ := m
    obtain ⟨entries', sorted'⟩ := m'
    simp

def empty : SortedMap κ ν := ⟨[], List.Pairwise.nil⟩

def contains (m : SortedMap κ ν) (key : κ) : Bool := m.entries.any (·.1 = key)

theorem contains_eq_false_iff {m : SortedMap κ ν} {key : κ} :
    m.contains key = false ↔ ∀ entry ∈ m.entries, entry.1 ≠ key := by
  simp [contains]

/-- Two maps with the same entries are the same. -/
theorem eq_of_perm {m m' : SortedMap κ ν} (h : m.entries.Perm m'.entries) : m = m' := by
  obtain ⟨entries, sorted⟩ := m
  obtain ⟨entries', sorted'⟩ := m'
  have heq : entries = entries' := by
    refine h.eq_of_pairwise (fun a b _ _ hab hba => ?_) sorted sorted'
    exact absurd hba (lt_asymm hab)
  subst heq
  rfl

theorem keys_nodup (m : SortedMap κ ν) : (m.entries.map Prod.fst).Nodup := by
  rw [List.Nodup, List.pairwise_map]
  exact m.sorted.imp fun h => ne_of_lt h

/-! ### Insertion -/

def insertEntry (key : κ) (value : ν) : List (κ × ν) → List (κ × ν)
  | [] => [(key, value)]
  | entry :: rest =>
      if key < entry.1 then (key, value) :: entry :: rest
      else if entry.1 < key then entry :: insertEntry key value rest
      else (key, value) :: rest

theorem mem_insertEntry {key : κ} {value : ν} {l : List (κ × ν)} {entry : κ × ν}
    (h : entry ∈ insertEntry key value l) : entry = (key, value) ∨ entry ∈ l := by
  induction l with
  | nil => exact .inl (List.mem_singleton.mp h)
  | cons first rest ih =>
      unfold insertEntry at h
      split_ifs at h
      · exact List.mem_cons.mp h
      · rcases List.mem_cons.mp h with h | h
        · exact .inr (List.mem_cons.mpr (.inl h))
        · exact (ih h).imp_right (List.mem_cons_of_mem _)
      · exact (List.mem_cons.mp h).imp_right (List.mem_cons_of_mem _)

theorem pairwise_insertEntry (key : κ) (value : ν) {l : List (κ × ν)}
    (h : l.Pairwise fun a b => a.1 < b.1) :
    (insertEntry key value l).Pairwise fun a b => a.1 < b.1 := by
  induction l with
  | nil => exact List.pairwise_singleton _ _
  | cons first rest ih =>
      obtain ⟨hfirst, hrest⟩ := List.pairwise_cons.mp h
      unfold insertEntry
      split_ifs with hlt hgt
      · refine List.pairwise_cons.mpr ⟨fun entry hmem => ?_, h⟩
        rcases List.mem_cons.mp hmem with rfl | hmem
        · exact hlt
        · exact lt_trans hlt (hfirst entry hmem)
      · refine List.pairwise_cons.mpr ⟨fun entry hmem => ?_, ih hrest⟩
        rcases mem_insertEntry hmem with rfl | hmem
        · exact hgt
        · exact hfirst entry hmem
      · have hkey : key = first.1 := le_antisymm (not_lt.mp hgt) (not_lt.mp hlt)
        refine List.pairwise_cons.mpr ⟨fun entry hmem => ?_, hrest⟩
        exact hkey ▸ hfirst entry hmem

def insert (m : SortedMap κ ν) (key : κ) (value : ν) : SortedMap κ ν :=
  ⟨insertEntry key value m.entries, pairwise_insertEntry key value m.sorted⟩

theorem insertEntry_perm {key : κ} (value : ν) {l : List (κ × ν)}
    (h : ∀ entry ∈ l, entry.1 ≠ key) : (insertEntry key value l).Perm ((key, value) :: l) := by
  induction l with
  | nil => exact List.Perm.refl _
  | cons first rest ih =>
      unfold insertEntry
      split_ifs with hlt hgt
      · exact List.Perm.refl _
      · exact ((ih fun entry hmem => h entry (List.mem_cons_of_mem _ hmem)).cons first).trans
          (List.Perm.swap _ _ _)
      · exact absurd (le_antisymm (not_lt.mp hlt) (not_lt.mp hgt)) (h first List.mem_cons_self)

/-- A fresh key adds its entry to the others. -/
theorem insert_perm {m : SortedMap κ ν} {key : κ} (h : m.contains key = false) (value : ν) :
    (m.insert key value).entries.Perm ((key, value) :: m.entries) :=
  insertEntry_perm value (contains_eq_false_iff.mp h)

end SortedMap

end Netcatty
