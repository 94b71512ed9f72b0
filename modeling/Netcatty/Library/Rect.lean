import Mathlib.Algebra.BigOperators.Group.List.Basic
import Mathlib.Algebra.Order.Field.Basic
import Mathlib.Data.Set.Disjoint
import Mathlib.Order.CompletePartialOrder
import Mathlib.Tactic.Linarith
import Mathlib.Tactic.Positivity
import Mathlib.Tactic.Ring

/-! # Tilings by rectangles

A rectangle over an ordered field is cut by a vertical or a horizontal line into two.  `Tiles` says
that rectangles of positive size lie in another one, have disjoint interiors, and make up its area.
A rectangle tiles itself, and tilings of the parts of a cut make one of the whole
(`Tiles.beside`, `Tiles.stacked`). -/

namespace Netcatty

structure Rect (α : Type) where
  x : α
  y : α
  width : α
  height : α
  deriving DecidableEq

namespace Rect

variable {α : Type} [Field α] [LinearOrder α]

def Positive (r : Rect α) : Prop := 0 < r.width ∧ 0 < r.height

def area (r : Rect α) : α := r.width * r.height

def interior (r : Rect α) : Set (α × α) :=
  { p | (r.x < p.1 ∧ p.1 < r.x + r.width) ∧ r.y < p.2 ∧ p.2 < r.y + r.height }

/-! ### Cuts -/

def left (r : Rect α) (t : α) : Rect α := { r with width := r.width * t }

def right (r : Rect α) (t : α) : Rect α :=
  { r with x := r.x + r.width * t, width := r.width * (1 - t) }

def upper (r : Rect α) (t : α) : Rect α := { r with height := r.height * t }

def lower (r : Rect α) (t : α) : Rect α :=
  { r with y := r.y + r.height * t, height := r.height * (1 - t) }

structure Tiles (rects : List (Rect α)) (whole : Rect α) : Prop where
  positive : ∀ r ∈ rects, r.Positive
  inside : ∀ r ∈ rects, r.interior ⊆ whole.interior
  disjoint : rects.Pairwise fun r r' => Disjoint r.interior r'.interior
  area : (rects.map Rect.area).sum = whole.area

/-- Two parts of a rectangle that share no inner point and have its area. -/
structure Cut (a b whole : Rect α) : Prop where
  inside : a.interior ⊆ whole.interior ∧ b.interior ⊆ whole.interior
  disjoint : Disjoint a.interior b.interior
  area : a.area + b.area = whole.area

theorem Tiles.self {r : Rect α} (h : r.Positive) : Tiles [r] r where
  positive := fun r' hr' => List.mem_singleton.mp hr' ▸ h
  inside := fun r' hr' => by rw [List.mem_singleton.mp hr']
  disjoint := List.pairwise_singleton _ _
  area := by simp

theorem Tiles.append {a b whole : Rect α} {rects rects' : List (Rect α)} (h : Tiles rects a)
    (h' : Tiles rects' b) (hcut : Cut a b whole) : Tiles (rects ++ rects') whole where
  positive := fun r hr => (List.mem_append.mp hr).elim (h.positive r) (h'.positive r)
  inside := fun r hr => (List.mem_append.mp hr).elim
    (fun hr => (h.inside r hr).trans hcut.inside.1) fun hr => (h'.inside r hr).trans hcut.inside.2
  disjoint := List.pairwise_append.mpr ⟨h.disjoint, h'.disjoint, fun r hr r' hr' =>
    hcut.disjoint.mono (h.inside r hr) (h'.inside r' hr')⟩
  area := by rw [List.map_append, List.sum_append, h.area, h'.area, hcut.area]

section Ratio

variable [IsStrictOrderedRing α] {r : Rect α} {t : α} (ht : 0 < t) (ht' : t < 1)

include ht ht'

theorem positive_left (h : r.Positive) : (r.left t).Positive ∧ (r.right t).Positive :=
  ⟨⟨mul_pos h.1 ht, h.2⟩, mul_pos h.1 (sub_pos.mpr ht'), h.2⟩

theorem positive_upper (h : r.Positive) : (r.upper t).Positive ∧ (r.lower t).Positive :=
  ⟨⟨h.1, mul_pos h.2 ht⟩, h.1, mul_pos h.2 (sub_pos.mpr ht')⟩

theorem cut_beside (h : r.Positive) : Cut (r.left t) (r.right t) r := by
  have hleft : r.width * t < r.width := mul_lt_of_lt_one_right h.1 ht'
  have hpos : 0 < r.width * t := mul_pos h.1 ht
  have hrest : r.width * t + r.width * (1 - t) = r.width := by ring
  refine ⟨⟨?_, ?_⟩, ?_, by simp only [area, left, right]; ring⟩
  · rintro ⟨px, py⟩ ⟨⟨h₁, h₂⟩, h₃⟩
    simp only [left] at h₁ h₂ h₃
    exact ⟨⟨h₁, by dsimp only; linarith⟩, h₃⟩
  · rintro ⟨px, py⟩ ⟨⟨h₁, h₂⟩, h₃⟩
    simp only [right] at h₁ h₂ h₃
    exact ⟨⟨by dsimp only; linarith, by dsimp only; linarith⟩, h₃⟩
  · rw [Set.disjoint_left]
    rintro ⟨px, py⟩ ⟨⟨-, h₂⟩, -⟩ ⟨⟨h₁, -⟩, -⟩
    simp only [left, right] at h₁ h₂
    linarith

theorem cut_stacked (h : r.Positive) : Cut (r.upper t) (r.lower t) r := by
  have hupper : r.height * t < r.height := mul_lt_of_lt_one_right h.2 ht'
  have hpos : 0 < r.height * t := mul_pos h.2 ht
  have hrest : r.height * t + r.height * (1 - t) = r.height := by ring
  refine ⟨⟨?_, ?_⟩, ?_, by simp only [area, upper, lower]; ring⟩
  · rintro ⟨px, py⟩ ⟨h₃, h₁, h₂⟩
    simp only [upper] at h₁ h₂ h₃
    exact ⟨h₃, h₁, by dsimp only; linarith⟩
  · rintro ⟨px, py⟩ ⟨h₃, h₁, h₂⟩
    simp only [lower] at h₁ h₂ h₃
    exact ⟨h₃, by dsimp only; linarith, by dsimp only; linarith⟩
  · rw [Set.disjoint_left]
    rintro ⟨px, py⟩ ⟨-, -, h₂⟩ ⟨-, h₁, -⟩
    simp only [upper, lower] at h₁ h₂
    linarith

/-- Tilings of both parts of a vertical cut tile the whole. -/
theorem Tiles.beside {rects rects' : List (Rect α)} (h : r.Positive)
    (hleft : Tiles rects (r.left t)) (hright : Tiles rects' (r.right t)) :
    Tiles (rects ++ rects') r := hleft.append hright (cut_beside ht ht' h)

/-- Tilings of both parts of a horizontal cut tile the whole. -/
theorem Tiles.stacked {rects rects' : List (Rect α)} (h : r.Positive)
    (hupper : Tiles rects (r.upper t)) (hlower : Tiles rects' (r.lower t)) :
    Tiles (rects ++ rects') r := hupper.append hlower (cut_stacked ht ht' h)

end Ratio

end Rect

end Netcatty
