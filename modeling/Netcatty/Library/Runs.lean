import Mathlib.Algebra.BigOperators.Group.List.Basic
import Mathlib.Algebra.Order.Group.Nat
import Mathlib.Algebra.Ring.Nat
import Mathlib.Tactic.Common

/-! # Runs of a labelled transition system

`Run step s ls t`: from `s` the system reaches `t` by steps that carry the labels `ls`.  Three rules
reason about every run from one step: `Run.invariant` (a property of states), `Run.history` (a
property of a state and of the labels that led to it) and `Run.cost_le` (a potential that pays for
the cost of every step bounds the cost of the run). -/

namespace Netcatty.Runs

variable {σ ι : Type} {step : σ → ι → σ → Prop}

inductive Run (step : σ → ι → σ → Prop) (s : σ) : List ι → σ → Prop
  | refl : Run step s [] s
  | snoc {t u : σ} {ls : List ι} {l : ι} :
      Run step s ls t → step t l u → Run step s (ls ++ [l]) u

theorem Run.single {s t : σ} {l : ι} (h : step s l t) : Run step s [l] t :=
  Run.snoc Run.refl h

theorem Run.trans {s t u : σ} {ls ms : List ι} (h : Run step s ls t) (h' : Run step t ms u) :
    Run step s (ls ++ ms) u := by
  induction h' with
  | refl => simpa using h
  | snoc _ hs ih =>
      rw [← List.append_assoc]
      exact Run.snoc ih hs

theorem Run.mono {step' : σ → ι → σ → Prop} (hss : ∀ s l t, step s l t → step' s l t)
    {s t : σ} {ls : List ι} (h : Run step s ls t) : Run step' s ls t := by
  induction h with
  | refl => exact Run.refl
  | snoc _ hs ih => exact Run.snoc ih (hss _ _ _ hs)

/-- A run of a system is one of a part of it, where each step is a run of the part. -/
theorem Run.project {τ κ : Type} {step' : τ → κ → τ → Prop} (part : σ → τ) {emit : ι → List κ}
    (hpart : ∀ s l t, step s l t → Run step' (part s) (emit l) (part t)) {s t : σ} {ls : List ι}
    (h : Run step s ls t) : Run step' (part s) (ls.flatMap emit) (part t) := by
  induction h with
  | refl => exact Run.refl
  | snoc _ hs ih =>
      rw [List.flatMap_append, List.flatMap_singleton]
      exact ih.trans (hpart _ _ _ hs)

/-- A property of the labels and the state that every step carries on holds along every run. -/
theorem Run.history {H : List ι → σ → Prop} {s : σ} (h₀ : H [] s)
    (hstep : ∀ ls t l u, H ls t → step t l u → H (ls ++ [l]) u) {ls : List ι} {t : σ}
    (h : Run step s ls t) : H ls t := by
  induction h with
  | refl => exact h₀
  | snoc _ hs ih => exact hstep _ _ _ _ ih hs

theorem Run.invariant {I : σ → Prop} {s : σ} (h₀ : I s)
    (hstep : ∀ t l u, I t → step t l u → I u) {ls : List ι} {t : σ} (h : Run step s ls t) : I t :=
  h.history (H := fun _ t => I t) h₀ fun _ t l u ht hs => hstep t l u ht hs

/-- **A potential bounds the cost of every run**: where each step pays its cost out of the
potential, a run costs at most the potential it starts with. -/
theorem Run.cost_le {I : σ → Prop} {cost : ι → ℕ} (potential : σ → ℕ)
    (hI : ∀ t l u, I t → step t l u → I u)
    (hpay : ∀ t l u, I t → step t l u → potential u + cost l ≤ potential t)
    {s : σ} (h₀ : I s) {ls : List ι} {t : σ} (h : Run step s ls t) :
    (ls.map cost).sum ≤ potential s := by
  have key : I t ∧ potential t + (ls.map cost).sum ≤ potential s := by
    refine h.history (H := fun ls t => I t ∧ potential t + (ls.map cost).sum ≤ potential s)
      ⟨h₀, by simp⟩ ?_
    rintro ls t l u ⟨ht, hle⟩ hs
    refine ⟨hI t l u ht hs, ?_⟩
    have := hpay t l u ht hs
    simp only [List.map_append, List.map_cons, List.map_nil, List.sum_append, List.sum_cons,
      List.sum_nil, add_zero]
    omega
  omega

end Netcatty.Runs
