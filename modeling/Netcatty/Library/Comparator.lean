import Mathlib.Algebra.Order.Ring.Rat
import Mathlib.Data.List.Lex
import Mathlib.Tactic.Linarith

/-! # Sorting with a comparator

A comparator answers with a number that is negative where its first argument goes first.  A sort
returns the elements of its list, in order where the comparator is consistent on them; what it does
with one that is not is left open.

A comparator may take the first of several keys in which its arguments differ by more than a
threshold.  It is consistent where the keys differ by more than that or not at all
(`consistent_byKeys`), and the first element does not depend on the order of the list
(`head_unique`). -/

namespace Netcatty.Comparator

variable {α β : Type}

/-- The answers of a comparator on the elements of a list are those of an order. -/
structure Consistent (compare : α → α → ℚ) (l : List α) : Prop where
  sign : ∀ a ∈ l, ∀ b ∈ l, compare a b ≤ 0 ↔ 0 ≤ compare b a
  trans : ∀ a ∈ l, ∀ b ∈ l, ∀ c ∈ l, compare a b ≤ 0 → compare b c ≤ 0 → compare a c ≤ 0

theorem Consistent.mono {compare : α → α → ℚ} {l l' : List α} (h : Consistent compare l)
    (hsub : l' ⊆ l) : Consistent compare l' where
  sign a ha b hb := h.sign a (hsub ha) b (hsub hb)
  trans a ha b hb c hc := h.trans a (hsub ha) b (hsub hb) c (hsub hc)

/-- A sort of arrays. -/
structure ArraySort where
  sort : {α : Type} → (α → α → ℚ) → List α → List α
  perm : ∀ {α : Type} (compare : α → α → ℚ) (l : List α), (sort compare l).Perm l
  sorted : ∀ {α : Type} (compare : α → α → ℚ) (l : List α), Consistent compare l →
    (sort compare l).Pairwise fun a b => compare a b ≤ 0

variable {compare : α → α → ℚ} {l l' : List α}

/-- The first element goes before every other. -/
theorem head_le (S : ArraySort) (h : Consistent compare l) {a : α}
    (ha : (S.sort compare l).head? = some a) : a ∈ l ∧ ∀ b ∈ l, compare a b ≤ 0 := by
  have hperm := S.perm compare l
  have hsorted := S.sorted compare l h
  cases hsort : S.sort compare l with
  | nil =>
      rw [hsort] at ha
      nomatch ha
  | cons first rest =>
      rw [hsort] at ha hperm hsorted
      obtain rfl : first = a := Option.some.inj ha
      have hmem : first ∈ l := hperm.subset List.mem_cons_self
      refine ⟨hmem, fun b hb => ?_⟩
      obtain rfl | hrest := List.mem_cons.mp (hperm.symm.subset hb)
      · obtain hle | hle := le_total (compare b b) 0
        · exact hle
        · exact (h.sign b hmem b hmem).mpr hle
      · exact (List.pairwise_cons.mp hsorted).1 b hrest

theorem head?_eq_none_iff (S : ArraySort) (compare : α → α → ℚ) (l : List α) :
    (S.sort compare l).head? = none ↔ l = [] := by
  rw [List.head?_eq_none_iff]
  constructor
  · intro h
    have hperm := S.perm compare l
    rw [h] at hperm
    exact hperm.nil_eq.symm
  · rintro rfl
    exact (S.perm compare []).eq_nil

/-- **The first element does not depend on the order of the list**, where no two different ones
compare as equal. -/
theorem head_unique (S : ArraySort) {f : α → β} (h : Consistent compare l)
    (hties : ∀ a ∈ l, ∀ b ∈ l, compare a b ≤ 0 → compare b a ≤ 0 → f a = f b) (hperm : l'.Perm l) :
    (S.sort compare l').head?.map f = (S.sort compare l).head?.map f := by
  cases hl : (S.sort compare l).head? with
  | none =>
      obtain rfl := (head?_eq_none_iff S compare l).mp hl
      rw [(head?_eq_none_iff S compare l').mpr hperm.eq_nil]
  | some a =>
      cases hl' : (S.sort compare l').head? with
      | none =>
          rw [(head?_eq_none_iff S compare l').mp hl'] at hperm
          rw [← hperm.nil_eq, (head?_eq_none_iff S compare []).mpr rfl] at hl
          nomatch hl
      | some a' =>
          obtain ⟨ha, hle⟩ := head_le S h hl
          obtain ⟨ha', hle'⟩ := head_le S (h.mono hperm.subset) hl'
          have hmem : a' ∈ l := hperm.subset ha'
          exact congrArg some (hties a' hmem a ha (hle' a (hperm.symm.subset ha)) (hle a' hmem))

/-! ### Keys with a threshold -/

/-- The first difference of two lists of keys that is over the threshold. -/
def firstDelta (threshold : ℚ) : List ℚ → List ℚ → Option ℚ
  | a :: keys, b :: keys' =>
      if threshold < |a - b| then some (a - b) else firstDelta threshold keys keys'
  | _, _ => none

/-- Keys that are equal or differ by more than the threshold. -/
def Separated (threshold : ℚ) : List ℚ → List ℚ → Prop :=
  List.Forall₂ fun a b => a = b ∨ threshold < |a - b|

theorem firstDelta_spec {threshold : ℚ} (hthreshold : 0 ≤ threshold) {keys keys' : List ℚ}
    (h : Separated threshold keys keys') : match firstDelta threshold keys keys' with
      | none => keys = keys'
      | some delta => (delta < 0 ∧ keys < keys') ∨ (0 < delta ∧ keys' < keys) := by
  induction h with
  | nil => rfl
  | @cons a b keys keys' hab _ ih =>
      rw [firstDelta]
      split_ifs with hover
      · have hne : a ≠ b := by
          rintro rfl
          rw [sub_self, abs_zero] at hover
          exact absurd hover (not_lt.mpr hthreshold)
        obtain hlt | hlt := lt_or_gt_of_ne hne
        · exact .inl ⟨sub_neg.mpr hlt, List.Lex.rel hlt⟩
        · exact .inr ⟨sub_pos.mpr hlt, List.Lex.rel hlt⟩
      · obtain rfl := hab.resolve_right hover
        cases hdelta : firstDelta threshold keys keys' with
        | none =>
            rw [hdelta] at ih
            exact congrArg _ ih
        | some delta =>
            rw [hdelta] at ih
            obtain ⟨hsign, hlt⟩ | ⟨hsign, hlt⟩ := ih
            · exact .inl ⟨hsign, List.Lex.cons hlt⟩
            · exact .inr ⟨hsign, List.Lex.cons hlt⟩

section ByKeys

variable {threshold : ℚ} {keys : α → List ℚ} {tie : α → α → ℚ}

/-- A comparator by keys, and by another one for those without a difference. -/
def byKeys (threshold : ℚ) (keys : α → List ℚ) (tie : α → α → ℚ) (a b : α) : ℚ :=
  (firstDelta threshold (keys a) (keys b)).getD (tie a b)

theorem byKeys_le_iff (hthreshold : 0 ≤ threshold) {a b : α}
    (h : Separated threshold (keys a) (keys b)) :
    (byKeys threshold keys tie a b ≤ 0 ↔
      keys a < keys b ∨ keys a = keys b ∧ tie a b ≤ 0) ∧
    (0 ≤ byKeys threshold keys tie a b ↔
      keys b < keys a ∨ keys a = keys b ∧ 0 ≤ tie a b) := by
  have hspec := firstDelta_spec hthreshold h
  unfold byKeys
  cases hdelta : firstDelta threshold (keys a) (keys b) with
  | none =>
      rw [hdelta] at hspec
      have hsame : keys a = keys b := hspec
      rw [hsame]
      simp only [Option.getD_none, lt_irrefl, true_and, false_or]
  | some delta =>
      rw [hdelta] at hspec
      rw [Option.getD_some]
      obtain ⟨hsign, hlt⟩ | ⟨hsign, hlt⟩ := hspec
      · constructor
        · exact iff_of_true hsign.le (.inl hlt)
        · refine iff_of_false hsign.not_ge ?_
          rintro (hgt | ⟨hsame, -⟩)
          · exact lt_asymm hlt hgt
          · exact hlt.ne hsame
      · constructor
        · refine iff_of_false hsign.not_ge ?_
          rintro (hgt | ⟨hsame, -⟩)
          · exact lt_asymm hlt hgt
          · exact hlt.ne hsame.symm
        · exact iff_of_true hsign.le (.inl hlt)

/-- Keys that are equal or far apart make a consistent comparator. -/
theorem consistent_byKeys (hthreshold : 0 ≤ threshold)
    (hkeys : ∀ a ∈ l, ∀ b ∈ l, Separated threshold (keys a) (keys b)) (htie : Consistent tie l) :
    Consistent (byKeys threshold keys tie) l where
  sign a ha b hb := by
    rw [(byKeys_le_iff hthreshold (hkeys a ha b hb)).1,
      (byKeys_le_iff hthreshold (hkeys b hb a ha)).2, htie.sign a ha b hb, eq_comm]
  trans a ha b hb c hc hab hbc := by
    rw [(byKeys_le_iff hthreshold (hkeys a ha b hb)).1] at hab
    rw [(byKeys_le_iff hthreshold (hkeys b hb c hc)).1] at hbc
    rw [(byKeys_le_iff hthreshold (hkeys a ha c hc)).1]
    obtain hab | ⟨hsame, hab⟩ := hab
    · obtain hbc | ⟨hsame', -⟩ := hbc
      · exact .inl (hab.trans hbc)
      · exact .inl (hsame' ▸ hab)
    · obtain hbc | ⟨hsame', hbc⟩ := hbc
      · exact .inl (hsame ▸ hbc)
      · exact .inr ⟨hsame.trans hsame', htie.trans a ha b hb c hc hab hbc⟩

/-- Elements that compare as equal are tied. -/
theorem tied_of_byKeys (hthreshold : 0 ≤ threshold) {a b : α}
    (h : Separated threshold (keys a) (keys b)) (h' : Separated threshold (keys b) (keys a))
    (hab : byKeys threshold keys tie a b ≤ 0) (hba : byKeys threshold keys tie b a ≤ 0) :
    keys a = keys b ∧ tie a b ≤ 0 ∧ tie b a ≤ 0 := by
  rw [(byKeys_le_iff hthreshold h).1] at hab
  rw [(byKeys_le_iff hthreshold h').1] at hba
  obtain hab | ⟨hsame, hab⟩ := hab
  · obtain hba | ⟨hsame, -⟩ := hba
    · exact absurd hba (lt_asymm hab)
    · exact absurd hsame hab.ne'
  · obtain hba | ⟨-, hba⟩ := hba
    · exact absurd hsame hba.ne'
    · exact ⟨hsame, hab, hba⟩

end ByKeys

/-! ### A sort -/

def insertBy (compare : α → α → ℚ) (a : α) : List α → List α
  | [] => [a]
  | b :: rest => if compare a b ≤ 0 then a :: b :: rest else b :: insertBy compare a rest

def sortBy (compare : α → α → ℚ) : List α → List α
  | [] => []
  | a :: rest => insertBy compare a (sortBy compare rest)

theorem insertBy_perm (compare : α → α → ℚ) (a : α) (l : List α) :
    (insertBy compare a l).Perm (a :: l) := by
  induction l with
  | nil => exact List.Perm.refl _
  | cons b rest ih =>
      rw [insertBy]
      split_ifs
      · exact List.Perm.refl _
      · exact (ih.cons b).trans (List.Perm.swap a b rest)

theorem sortBy_perm (compare : α → α → ℚ) (l : List α) : (sortBy compare l).Perm l := by
  induction l with
  | nil => exact List.Perm.refl _
  | cons a rest ih => exact (insertBy_perm compare a _).trans (ih.cons a)

theorem insertBy_sorted {a : α} (h : Consistent compare (a :: l))
    (hsorted : l.Pairwise fun a b => compare a b ≤ 0) :
    (insertBy compare a l).Pairwise fun a b => compare a b ≤ 0 := by
  induction l with
  | nil => exact List.pairwise_singleton _ _
  | cons b rest ih =>
      obtain ⟨hb, hrest⟩ := List.pairwise_cons.mp hsorted
      have hbmem : b ∈ a :: b :: rest := List.mem_cons_of_mem _ List.mem_cons_self
      rw [insertBy]
      split_ifs with hle
      · refine List.pairwise_cons.mpr ⟨fun c hc => ?_, hsorted⟩
        obtain rfl | hc := List.mem_cons.mp hc
        · exact hle
        · exact h.trans a List.mem_cons_self b hbmem c
            (List.mem_cons_of_mem _ (List.mem_cons_of_mem _ hc)) hle (hb c hc)
      · have hba : compare b a ≤ 0 :=
          (h.sign b hbmem a List.mem_cons_self).mpr (le_of_lt (lt_of_not_ge hle))
        have hsmaller : Consistent compare (a :: rest) :=
          h.mono (List.cons_subset_cons a (List.subset_cons_self b rest))
        refine List.pairwise_cons.mpr ⟨fun c hc => ?_, ih hsmaller hrest⟩
        obtain rfl | hc := List.mem_cons.mp ((insertBy_perm compare a rest).subset hc)
        · exact hba
        · exact hb c hc

/-- Sorting by insertion. -/
def insertionSort : ArraySort where
  sort := sortBy
  perm := sortBy_perm
  sorted compare l h := by
    induction l with
    | nil => exact List.Pairwise.nil
    | cons a rest ih =>
        have hrest : Consistent compare rest := h.mono (List.subset_cons_self a rest)
        exact insertBy_sorted (h.mono ((sortBy_perm compare rest).cons a).subset) (ih hrest)

end Netcatty.Comparator
