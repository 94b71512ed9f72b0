import Mathlib.Algebra.BigOperators.Group.List.Basic
import Mathlib.Algebra.Ring.Nat
import Mathlib.Tactic.Common

/-! # Cutting at a boundary

Elements that take up several places each: a place is a boundary of a list (`isBoundary`) where an
element begins or the list ends.  `IsLongestSuffix` is the longest end of a list that fits a
budget.  It can be kept up to date from itself while the list grows (`IsLongestSuffix.append`), and
from the new part alone where that fills the budget (`IsLongestSuffix.of_filled`).  Counting up to
the next boundary finds it (`sliceFrom_nextBoundary`). -/

namespace Netcatty.Boundary

variable {α : Type} (size : α → ℕ)

/-- The number of places of a list. -/
def width (l : List α) : ℕ := (l.map size).sum

@[simp] theorem width_nil : width size [] = 0 := rfl

@[simp] theorem width_cons (a : α) (l : List α) : width size (a :: l) = size a + width size l := rfl

@[simp] theorem width_append (l m : List α) :
    width size (l ++ m) = width size l + width size m := by
  simp only [width, List.map_append, List.sum_append]

variable {size} in
theorem eq_nil_of_width (hpos : ∀ a, 0 < size a) {l : List α} (h : width size l = 0) : l = [] := by
  cases l with
  | nil => rfl
  | cons a rest =>
      have hsize := hpos a
      rw [width_cons] at h
      omega

variable {size} in
theorem eq_of_suffix_of_width_le (hpos : ∀ a, 0 < size a) {l m : List α} (h : l <:+ m)
    (hle : width size m ≤ width size l) : l = m := by
  obtain ⟨front, rfl⟩ := h
  rw [width_append] at hle
  rw [eq_nil_of_width hpos (show width size front = 0 by omega), List.nil_append]

/-- A suffix of a concatenation ends within the second part or within the first. -/
theorem suffix_append_cases {l m other : List α} (h : other <:+ l ++ m) :
    other <:+ m ∨ ∃ o, o ++ m = other ∧ o <:+ l := by
  rcases List.suffix_or_suffix_of_suffix h (List.suffix_append l m) with hm | ⟨o, rfl⟩
  · exact .inl hm
  · exact .inr ⟨o, rfl, List.suffix_append_self_iff.mp h⟩

/-! ### The longest suffix within a budget -/

structure IsLongestSuffix (budget : ℕ) (l kept : List α) : Prop where
  suffix : kept <:+ l
  fits : width size kept ≤ budget
  longest : ∀ other, other <:+ l → width size other ≤ budget → other <:+ kept

variable {size} {budget : ℕ} {l m kept kept' : List α}

namespace IsLongestSuffix

theorem refl (h : width size l ≤ budget) : IsLongestSuffix size budget l l :=
  ⟨List.suffix_rfl, h, fun _ hother _ => hother⟩

theorem unique (h : IsLongestSuffix size budget l kept)
    (h' : IsLongestSuffix size budget l kept') : kept = kept' := by
  have hle := h'.longest kept h.suffix h.fits
  have hge := h.longest kept' h'.suffix h'.fits
  exact hle.eq_of_length (Nat.le_antisymm hle.length_le hge.length_le)

/-- What is dropped from a list is dropped from a longer one too. -/
theorem append (h : IsLongestSuffix size budget l kept)
    (h' : IsLongestSuffix size budget (kept ++ m) kept') :
    IsLongestSuffix size budget (l ++ m) kept' := by
  obtain ⟨front, rfl⟩ := h.suffix
  have hsuffix : kept ++ m <:+ front ++ kept ++ m := ⟨front, (List.append_assoc _ _ _).symm⟩
  refine ⟨h'.suffix.trans hsuffix, h'.fits, fun other hother hfits => h'.longest other ?_ hfits⟩
  rcases suffix_append_cases hother with hm | ⟨o, rfl, ho⟩
  · exact hm.trans (List.suffix_append _ _)
  · rw [width_append] at hfits
    obtain ⟨more, hmore⟩ := h.longest o ho (by omega)
    exact ⟨more, by rw [← List.append_assoc, hmore]⟩

/-- Nothing before a part that fills the budget is kept. -/
theorem of_filled (hpos : ∀ a, 0 < size a) (hfilled : budget ≤ width size m)
    (h : IsLongestSuffix size budget m kept) (l : List α) :
    IsLongestSuffix size budget (l ++ m) kept := by
  refine ⟨h.suffix.trans (List.suffix_append _ _), h.fits, fun other hother hfits =>
    h.longest other ?_ hfits⟩
  rcases suffix_append_cases hother with hm | ⟨o, rfl, -⟩
  · exact hm
  · rw [width_append] at hfits
    rw [eq_nil_of_width hpos (show width size o = 0 by omega)]
    exact List.suffix_rfl

end IsLongestSuffix

/-! ### Counting up to a boundary -/

variable (size)

def isBoundary : List α → ℕ → Bool
  | _, 0 => true
  | [], _ + 1 => false
  | a :: rest, n + 1 => size a ≤ n + 1 && isBoundary rest (n + 1 - size a)

/-- What begins at a place. -/
def sliceFrom : List α → ℕ → List α
  | l, 0 => l
  | [], _ + 1 => []
  | a :: rest, n + 1 => sliceFrom rest (n + 1 - size a)

/-- The first place from `start` on, of the next `fuel` ones, that is a boundary. -/
def nextBoundary (l : List α) : ℕ → ℕ → ℕ
  | 0, start => start
  | fuel + 1, start => if isBoundary size l start then start else nextBoundary l fuel (start + 1)

theorem isBoundary_append (l m : List α) : isBoundary size (l ++ m) (width size l) = true := by
  induction l with
  | nil => cases m <;> rfl
  | cons a rest ih =>
      rw [width_cons]
      cases h : size a + width size rest with
      | zero => rfl
      | succ n =>
          rw [List.cons_append, isBoundary, ← h, Nat.add_sub_cancel_left, ih, Bool.and_true,
            decide_eq_true_eq]
          exact Nat.le_add_right _ _

variable {size}

/-- At a boundary the list is cut in two. -/
theorem isBoundary_iff {l : List α} {n : ℕ} :
    isBoundary size l n = true ↔
      ∃ front, l = front ++ sliceFrom size l n ∧ width size front = n := by
  induction l generalizing n with
  | nil =>
      cases n with
      | zero => exact iff_of_true rfl ⟨[], rfl, rfl⟩
      | succ n =>
          refine iff_of_false Bool.false_ne_true ?_
          rintro ⟨front, hfront, hwidth⟩
          rw [(List.append_eq_nil_iff.mp hfront.symm).1] at hwidth
          cases hwidth
  | cons a rest ih =>
      cases n with
      | zero => exact iff_of_true rfl ⟨[], rfl, rfl⟩
      | succ n =>
          rw [isBoundary, Bool.and_eq_true, decide_eq_true_eq, ih]
          constructor
          · rintro ⟨hle, front, hfront, hwidth⟩
            refine ⟨a :: front, ?_, by rw [width_cons]; omega⟩
            rw [sliceFrom, List.cons_append, ← hfront]
          · rintro ⟨front, hfront, hwidth⟩
            cases front with
            | nil => cases hwidth
            | cons b front =>
                rw [sliceFrom, List.cons_append, List.cons.injEq] at hfront
                obtain ⟨rfl, hrest⟩ := hfront
                rw [width_cons] at hwidth
                exact ⟨by omega, front, hrest, by omega⟩

theorem nextBoundary_spec {l : List α} {fuel start : ℕ}
    (h : isBoundary size l (start + fuel) = true) :
    isBoundary size l (nextBoundary size l fuel start) = true ∧
      start ≤ nextBoundary size l fuel start ∧
      ∀ n, start ≤ n → isBoundary size l n = true → nextBoundary size l fuel start ≤ n := by
  induction fuel generalizing start with
  | zero => exact ⟨h, Nat.le_refl _, fun _ hn _ => hn⟩
  | succ fuel ih =>
      rw [nextBoundary]
      by_cases hstart : isBoundary size l start = true
      · rw [if_pos hstart]
        exact ⟨hstart, Nat.le_refl _, fun _ hn _ => hn⟩
      · rw [if_neg hstart]
        rw [Nat.add_comm fuel, ← Nat.add_assoc] at h
        obtain ⟨hboundary, hle, hfirst⟩ := ih h
        refine ⟨hboundary, by omega, fun n hn hboundary' => hfirst n ?_ hboundary'⟩
        rcases Nat.eq_or_lt_of_le hn with rfl | hlt
        · exact absurd hboundary' hstart
        · exact hlt

/-- The first boundary within the budget, from the end, begins the longest suffix. -/
theorem sliceFrom_nextBoundary (hpos : ∀ a, 0 < size a) (h : budget ≤ width size l) :
    IsLongestSuffix size budget l
      (sliceFrom size l (nextBoundary size l budget (width size l - budget))) := by
  have hend : isBoundary size l (width size l - budget + budget) = true := by
    have := isBoundary_append size l []
    rwa [List.append_nil, ← Nat.sub_add_cancel h] at this
  obtain ⟨hboundary, hle, hfirst⟩ := nextBoundary_spec hend
  generalize nextBoundary size l budget (width size l - budget) = start at hboundary hle hfirst ⊢
  obtain ⟨front, hfront, hwidth⟩ := isBoundary_iff.mp hboundary
  have htotal := congrArg (width size) hfront
  rw [width_append] at htotal
  have hkept : sliceFrom size l start <:+ l := ⟨front, hfront.symm⟩
  refine ⟨hkept, by omega, fun other hother hfits => ?_⟩
  rcases List.suffix_or_suffix_of_suffix hother hkept with hle' | hge
  · exact hle'
  · -- the other cut is at a boundary as well, so it is not before the first one
    obtain ⟨front', rfl⟩ := hother
    have hwhole := width_append size front' other
    have hlater := hfirst (width size front') (by omega) (isBoundary_append size front' other)
    rewrite [eq_of_suffix_of_width_le hpos hge (by omega)]
    exact List.suffix_rfl

end Netcatty.Boundary
