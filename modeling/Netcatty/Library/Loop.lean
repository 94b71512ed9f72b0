import Mathlib.Tactic.Common

/-! # Loops of rounds

`loop go round` repeats `round` while `go` allows it and the round asks for another one; the fuel
bounds the number of rounds.  A measure that every round lowers makes the fuel immaterial
(`loop_stable`, `loop_next`).  `trips` lists the states in which the
rounds of a loop start, and `loop_invariant` carries a property over them. -/

namespace Netcatty.Loop

variable {σ : Type}

def loop (go : σ → Bool) (round : σ → σ × Bool) : ℕ → σ → σ
  | 0, s => s
  | fuel + 1, s =>
    if go s then
      match round s with
      | (s, true) => loop go round fuel s
      | (s, false) => s
    else s

/-- The states in which the rounds of the loop start. -/
def trips (go : σ → Bool) (round : σ → σ × Bool) : ℕ → σ → List σ
  | 0, _ => []
  | fuel + 1, s =>
    if go s then
      s :: match round s with
        | (s, true) => trips go round fuel s
        | (_, false) => []
    else []

variable {go : σ → Bool} {round : σ → σ × Bool}

theorem loop_of_stop {fuel : ℕ} {s : σ} (h : go s = false) : loop go round fuel s = s := by
  cases fuel with
  | zero => rfl
  | succ fuel => simp [loop, h]

theorem loop_again {fuel : ℕ} {s t : σ} (h : go s = true) (hr : round s = (t, true)) :
    loop go round (fuel + 1) s = loop go round fuel t := by
  simp [loop, h, hr]

theorem loop_done {fuel : ℕ} {s t : σ} (h : go s = true) (hr : round s = (t, false)) :
    loop go round (fuel + 1) s = t := by
  simp [loop, h, hr]

theorem trips_again {fuel : ℕ} {s t : σ} (h : go s = true) (hr : round s = (t, true)) :
    trips go round (fuel + 1) s = s :: trips go round fuel t := by
  simp [trips, h, hr]

/-- **What every round of the loop keeps, the loop keeps.** -/
theorem loop_invariant {I : σ → Prop} {fuel : ℕ} {s : σ}
    (h : ∀ t ∈ trips go round fuel s, go t = true → I t → I (round t).1) (hs : I s) :
    I (loop go round fuel s) := by
  induction fuel generalizing s with
  | zero => exact hs
  | succ fuel ih =>
      cases hgo : go s with
      | false => rwa [loop_of_stop hgo]
      | true =>
          have hround : I (round s).1 := h s (by simp [trips, hgo]) hgo hs
          rcases hr : round s with ⟨t, more⟩
          rw [hr] at hround
          cases more with
          | false => rwa [loop_done hgo hr]
          | true =>
              rw [loop_again hgo hr]
              refine ih (fun u hu => h u ?_) hround
              rw [trips_again hgo hr]
              exact List.mem_cons_of_mem _ hu

theorem loop_invariant' {I : σ → Prop} {fuel : ℕ} {s : σ}
    (h : ∀ t, go t = true → I t → I (round t).1) (hs : I s) : I (loop go round fuel s) :=
  loop_invariant (fun t _ => h t) hs

section Measure

variable {μ : σ → ℕ}

/-- **Enough fuel is enough**: where every round lowers the measure, more fuel changes nothing. -/
theorem loop_stable (hμ : ∀ s t, go s = true → round s = (t, true) → μ t < μ s) {n m : ℕ} {s : σ}
    (hn : μ s < n) (hm : μ s < m) : loop go round n s = loop go round m s := by
  induction n generalizing m s with
  | zero => omega
  | succ n ih =>
      obtain ⟨m, rfl⟩ : ∃ k, m = k + 1 := ⟨m - 1, by omega⟩
      cases hgo : go s with
      | false => rw [loop_of_stop hgo, loop_of_stop hgo]
      | true =>
          rcases hr : round s with ⟨t, more⟩
          cases more with
          | false => rw [loop_done hgo hr, loop_done hgo hr]
          | true =>
              have hlt := hμ s t hgo hr
              rw [loop_again hgo hr, loop_again hgo hr]
              exact ih (by omega) (by omega)

/-- With the fuel its measure asks for, the loop goes on with that fuel after every round. -/
theorem loop_next (hμ : ∀ s t, go s = true → round s = (t, true) → μ t < μ s) {s t : σ}
    (h : go s = true) (hr : round s = (t, true)) :
    loop go round (μ s + 1) s = loop go round (μ t + 1) t := by
  rw [loop_again h hr]
  exact loop_stable hμ (hμ s t h hr) (Nat.lt_succ_self _)

end Measure

end Netcatty.Loop
