import Mathlib.Data.List.Induction
import Mathlib.Data.Set.Lattice
import Mathlib.Tactic.Common

/-! # Hash chains

A chain takes the elements of a list into a state, one after another; a step may fail.  Where no two
different inputs of the steps of two chains collide, the state at the end determines the list among
those of its length (`chain_inj`). -/

namespace Netcatty.HashChain

variable {σ α ε : Type} (step : σ → α → Except ε σ) (start : σ)

def chain (l : List α) : Except ε σ := l.foldlM step start

/-- The inputs of the steps of a chain. -/
def inputs (l : List α) : Set (σ × α) :=
  {input | ∃ front, front ++ [input.2] <+: l ∧ chain step start front = .ok input.1}

/-- No two inputs of the steps of the two chains collide. -/
def CollisionFree (l l' : List α) : Prop :=
  ∀ input ∈ inputs step start l ∪ inputs step start l',
    ∀ input' ∈ inputs step start l ∪ inputs step start l', ∀ s,
      step input.1 input.2 = .ok s → step input'.1 input'.2 = .ok s → input = input'

variable {step start}

@[simp] theorem chain_nil : chain step start [] = .ok start := rfl

theorem chain_concat (l : List α) (a : α) :
    chain step start (l ++ [a]) = (chain step start l).bind fun s => step s a := by
  rw [chain, List.foldlM_append]
  change (chain step start l >>= fun s => List.foldlM step s [a]) = _
  cases chain step start l with
  | error error => rfl
  | ok s =>
      change (step s a >>= pure) = step s a
      cases step s a <;> rfl

theorem chain_concat_ok {l : List α} {a : α} {s' : σ} (h : chain step start (l ++ [a]) = .ok s') :
    ∃ s, chain step start l = .ok s ∧ step s a = .ok s' := by
  rw [chain_concat] at h
  cases hl : chain step start l with
  | error error =>
      rw [hl] at h
      nomatch h
  | ok s =>
      rw [hl] at h
      exact ⟨s, rfl, h⟩

theorem inputs_singleton (a : α) : inputs step start [a] = {(start, a)} := by
  ext ⟨s, b⟩
  rw [Set.mem_singleton_iff, Prod.mk.injEq]
  constructor
  · rintro ⟨front, hfront, hchain⟩
    have hnil : front = [] := by
      have hlength := hfront.length_le
      rw [List.length_append, List.length_singleton, List.length_singleton] at hlength
      exact List.eq_nil_of_length_eq_zero (by omega)
    subst hnil
    exact ⟨(Except.ok.inj hchain).symm, (List.cons_prefix_cons.mp hfront).1⟩
  · rintro ⟨rfl, rfl⟩
    exact ⟨[], List.prefix_refl _, rfl⟩

theorem inputs_mono {l l' : List α} (h : l <+: l') : inputs step start l ⊆ inputs step start l' :=
  fun _ ⟨front, hfront, hchain⟩ => ⟨front, hfront.trans h, hchain⟩

theorem CollisionFree.of_prefix {l l' m m' : List α} (h : CollisionFree step start l l')
    (hl : m <+: l) (hl' : m' <+: l') : CollisionFree step start m m' := by
  intro input hinput input' hinput'
  exact h input (Set.union_subset_union (inputs_mono hl) (inputs_mono hl') hinput) input'
    (Set.union_subset_union (inputs_mono hl) (inputs_mono hl') hinput')

/-- **The state at the end of a chain determines its list.** -/
theorem chain_inj {l l' : List α} {s : σ} (hlength : l.length = l'.length)
    (h : chain step start l = .ok s) (h' : chain step start l' = .ok s)
    (hfree : CollisionFree step start l l') : l = l' := by
  induction l using List.reverseRecOn generalizing l' s with
  | nil => exact (List.eq_nil_of_length_eq_zero hlength.symm).symm
  | append_singleton l a ih =>
      rcases List.eq_nil_or_concat l' with rfl | ⟨m, b, rfl⟩
      · rw [List.length_append, List.length_singleton] at hlength
        nomatch hlength
      · rw [List.concat_eq_append] at hlength h' hfree ⊢
        obtain ⟨t, ht, hstep⟩ := chain_concat_ok h
        obtain ⟨t', ht', hstep'⟩ := chain_concat_ok h'
        have hsame : (t, a) = (t', b) := hfree (t, a) (.inl ⟨l, List.prefix_refl _, ht⟩) (t', b)
          (.inr ⟨m, List.prefix_refl _, ht'⟩) s hstep hstep'
        obtain ⟨rfl, rfl⟩ := Prod.mk.inj hsame
        rw [List.length_append, List.length_append] at hlength
        have hfront : l = m := ih (Nat.add_right_cancel hlength) ht ht'
          (hfree.of_prefix (List.prefix_append _ _) (List.prefix_append _ _))
        rw [hfront]

end Netcatty.HashChain
