import Mathlib.Tactic.Common
import Mathlib.Data.List.Sort

/-! # Eviction

`drain full next` takes what `next` chooses out of a store while the store is `full`: it keeps what
every removal keeps (`drain_invariant`), and with fuel for the size of the store it ends where the
store is not full or nothing is left to choose (`drain_ends`).  `oldest` is the first of a list in
the order of a comparison. -/

namespace Netcatty.Eviction

/-! ### The oldest entry -/

section Oldest

variable {α : Type} {le : α → α → Bool} {l : List α} {a : α}

/-- The head of the sorted list. -/
def oldest (le : α → α → Bool) (l : List α) : Option α := (l.mergeSort le).head?

theorem oldest_mem (h : oldest le l = some a) : a ∈ l :=
  List.mem_mergeSort.mp (List.mem_of_mem_head? h)

theorem oldest_eq_none : oldest le l = none ↔ l = [] := by
  rw [oldest, List.head?_eq_none_iff]
  constructor
  · intro h
    have hlen : (l.mergeSort le).length = l.length := List.length_mergeSort l
    rw [h] at hlen
    exact List.length_eq_zero_iff.mp hlen.symm
  · rintro rfl
    exact List.mergeSort_nil

/-- No entry is before the oldest one. -/
theorem oldest_le (htrans : ∀ a b c, le a b = true → le b c = true → le a c = true)
    (htotal : ∀ a b, (le a b || le b a) = true) (h : oldest le l = some a) {b : α} (hb : b ∈ l) :
    le a b = true := by
  have hsorted := List.pairwise_mergeSort htrans htotal l
  have hmem : b ∈ l.mergeSort le := List.mem_mergeSort.mpr hb
  unfold oldest at h
  cases hm : l.mergeSort le with
  | nil =>
      rw [hm] at h
      nomatch h
  | cons first rest =>
      rw [hm] at h hmem hsorted
      obtain rfl := Option.some.inj h
      rcases List.mem_cons.mp hmem with rfl | hrest
      · simpa using htotal b b
      · exact List.rel_of_pairwise_cons hsorted hrest

end Oldest

/-! ### Draining a store -/

section Drain

variable {σ : Type} {full : σ → Bool} {next : σ → Option σ} {s t : σ}

def drain (full : σ → Bool) (next : σ → Option σ) : ℕ → σ → σ
  | 0, s => s
  | fuel + 1, s =>
    if full s then
      match next s with
      | some t => drain full next fuel t
      | none => s
    else s

theorem drain_of_within {fuel : ℕ} (h : full s = false) : drain full next fuel s = s := by
  cases fuel with
  | zero => rfl
  | succ fuel => simp [drain, h]

theorem drain_of_none {fuel : ℕ} (h : next s = none) : drain full next fuel s = s := by
  cases fuel with
  | zero => rfl
  | succ fuel => simp [drain, h]

/-- **What every removal keeps is kept.** -/
theorem drain_invariant {I : σ → Prop}
    (h : ∀ s t, full s = true → next s = some t → I s → I t) {fuel : ℕ} (hs : I s) :
    I (drain full next fuel s) := by
  induction fuel generalizing s with
  | zero => exact hs
  | succ fuel ih =>
      cases hover : full s with
      | false => rwa [drain_of_within hover]
      | true =>
          cases hnext : next s with
          | none => rwa [drain_of_none hnext]
          | some t =>
              simp only [drain, hover, hnext, if_true]
              exact ih (h s t hover hnext hs)

/-- **The store is not full any more, or nothing is left to remove.** -/
theorem drain_ends {I : σ → Prop} {m : σ → ℕ}
    (h : ∀ s t, full s = true → next s = some t → I s → I t)
    (hm : ∀ s t, full s = true → next s = some t → I s → m t < m s) {fuel : ℕ}
    (hs : I s) (hfuel : m s ≤ fuel) :
    full (drain full next fuel s) = false ∨ next (drain full next fuel s) = none := by
  induction fuel generalizing s with
  | zero =>
      cases hover : full s with
      | false => exact .inl hover
      | true =>
          cases hnext : next s with
          | none => exact .inr hnext
          | some t =>
              have := hm s t hover hnext hs
              omega
  | succ fuel ih =>
      cases hover : full s with
      | false =>
          rw [drain_of_within hover]
          exact .inl hover
      | true =>
          cases hnext : next s with
          | none =>
              rw [drain_of_none hnext]
              exact .inr hnext
          | some t =>
              have hlt := hm s t hover hnext hs
              simp only [drain, hover, hnext, if_true]
              exact ih (h s t hover hnext hs) (by omega)

end Drain

end Netcatty.Eviction
