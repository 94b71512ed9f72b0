import Mathlib.Algebra.Group.Defs
import Mathlib.Tactic.Common

/-! # Machines fed one symbol at a time

A machine with state `σ` consumes symbols of `α`; a step either fails with an error of `ε` or adds
to an output taken in an additive monoid `ω`.  `feed` runs a step over a list of symbols and stops
at the first error; `feedAll` receives the list cut into frames.  Feeding is a homomorphism in the
list (`feed_append`), so the cut does not matter (`feedAll_eq_feed`, `feedAll_congr`).

`feed_invariant` carries an invariant along a feeding run; `count` counts the steps of a run that
start in a given kind of state and symbol. -/

namespace Netcatty.Feed

variable {σ α ω ε : Type} [AddMonoid ω]

/-- A step of the machine: the state after it, and what it adds to the output or its error. -/
abbrev Machine (σ α ω ε : Type) := σ → α → σ × Except ε ω

/-- Run `g` on the state that `r` left, adding the outputs; an error ends the run. -/
def andThen (r : σ × Except ε ω) (g : σ → σ × Except ε ω) : σ × Except ε ω :=
  match r with
  | (s, .ok w) => match g s with
    | (s', .ok w') => (s', .ok (w + w'))
    | (s', .error e) => (s', .error e)
  | (s, .error e) => (s, .error e)

/-- Feed a list of symbols. -/
def feed (step : Machine σ α ω ε) : σ → List α → σ × Except ε ω
  | s, [] => (s, .ok 0)
  | s, a :: as => andThen (step s a) fun s' => feed step s' as

/-- Feed a list of frames, each through `receive`. -/
def feedAll (receive : σ → List α → σ × Except ε ω) : σ → List (List α) → σ × Except ε ω
  | s, [] => (s, .ok 0)
  | s, f :: fs => andThen (receive s f) fun s' => feedAll receive s' fs

@[simp] theorem andThen_error (s : σ) (e : ε) (g : σ → σ × Except ε ω) :
    andThen (s, .error e) g = (s, .error e) := rfl

theorem andThen_ok_zero (s : σ) (g : σ → σ × Except ε ω) : andThen (s, .ok 0) g = g s := by
  unfold andThen
  rcases h : g s with ⟨s', _ | w⟩ <;> simp [h]

/-- Two results follow one another iff both are successes and the outputs add up. -/
theorem andThen_eq_ok {r : σ × Except ε ω} {g : σ → σ × Except ε ω} {s'' : σ} {v : ω} :
    andThen r g = (s'', .ok v) ↔
      ∃ s' w w', r = (s', .ok w) ∧ g s' = (s'', .ok w') ∧ v = w + w' := by
  obtain ⟨s, _ | w⟩ := r
  · simp [andThen]
  · rcases h : g s with ⟨t, _ | w'⟩
    · simp only [andThen, h]
      constructor
      · intro h'; simp at h'
      · rintro ⟨s', w₁, w', h₁, h₂, -⟩
        simp only [Prod.mk.injEq, Except.ok.injEq] at h₁
        rw [← h₁.1, h] at h₂
        simp at h₂
    · simp only [andThen, h, Prod.mk.injEq, Except.ok.injEq]
      constructor
      · rintro ⟨rfl, rfl⟩
        exact ⟨s, w, w', ⟨rfl, rfl⟩, h, rfl⟩
      · rintro ⟨s', w₁, w₂, ⟨rfl, rfl⟩, h₂, rfl⟩
        rw [h] at h₂
        simp only [Prod.mk.injEq, Except.ok.injEq] at h₂
        exact ⟨h₂.1, by rw [h₂.2]⟩

theorem andThen_assoc (r : σ × Except ε ω) (g k : σ → σ × Except ε ω) :
    andThen (andThen r g) k = andThen r fun s => andThen (g s) k := by
  obtain ⟨s, _ | w⟩ := r
  · rfl
  · rcases h : g s with ⟨t, _ | w'⟩
    · simp [andThen, h]
    · rcases h' : k t with ⟨u, _ | w''⟩ <;> simp [andThen, h, h', add_assoc]

/-! ### Feeding is a homomorphism -/

/-- **Feeding a concatenation is feeding its parts in turn.** -/
theorem feed_append (step : Machine σ α ω ε) (s : σ) (as bs : List α) :
    feed step s (as ++ bs) = andThen (feed step s as) fun s' => feed step s' bs := by
  induction as generalizing s with
  | nil => simp only [List.nil_append, feed, andThen_ok_zero]
  | cons a as ih =>
      simp only [List.cons_append, feed, andThen_assoc]
      congr 1
      funext s'
      exact ih s'

theorem feed_singleton (step : Machine σ α ω ε) (s : σ) (a : α) :
    feed step s [a] = step s a := by
  simp only [feed]
  rcases step s a with ⟨s', _ | w⟩ <;> simp [andThen]

/-- Where `receive` is feeding, up to a guard that a success passes, receiving frames one by
one is feeding their concatenation. -/
theorem feedAll_eq_feed {step : Machine σ α ω ε} {receive : σ → List α → σ × Except ε ω}
    (hr : ∀ s f s' w, receive s f = (s', .ok w) → feed step s f = (s', .ok w)) :
    ∀ (fs : List (List α)) (s s' : σ) (w : ω),
      feedAll receive s fs = (s', .ok w) → feed step s fs.flatten = (s', .ok w)
  | [], s, s', w, h => h
  | f :: fs, s, s', w, h => by
      obtain ⟨t, w₁, w₂, h₁, h₂, rfl⟩ := andThen_eq_ok.mp h
      rw [List.flatten_cons, feed_append]
      exact andThen_eq_ok.mpr ⟨t, w₁, w₂, hr _ _ _ _ h₁, feedAll_eq_feed hr fs t s' w₂ h₂, rfl⟩

/-- **The cut into frames does not matter**: two ways of cutting one stream that both go through
leave the same state and the same output. -/
theorem feedAll_congr {step : Machine σ α ω ε} {receive : σ → List α → σ × Except ε ω}
    (hr : ∀ s f s' w, receive s f = (s', .ok w) → feed step s f = (s', .ok w))
    {fs gs : List (List α)} (hfg : fs.flatten = gs.flatten) {s s₁ s₂ : σ} {w₁ w₂ : ω}
    (h₁ : feedAll receive s fs = (s₁, .ok w₁)) (h₂ : feedAll receive s gs = (s₂, .ok w₂)) :
    s₁ = s₂ ∧ w₁ = w₂ := by
  have e₁ := feedAll_eq_feed hr fs s s₁ w₁ h₁
  have e₂ := feedAll_eq_feed hr gs s s₂ w₂ h₂
  rw [hfg, e₂] at e₁
  simp only [Prod.mk.injEq, Except.ok.injEq] at e₁
  exact ⟨e₁.1.symm, e₁.2.symm⟩

/-- Conversely, where `receive` is feeding in the states of an invariant and on frames within a
limit, a stream that can be fed can be received in any frames within the limit. -/
theorem feedAll_of_feed {step : Machine σ α ω ε} {receive : σ → List α → σ × Except ε ω}
    {I : σ → Prop} {Q : List α → Prop} (hr : ∀ s f, I s → Q f → receive s f = feed step s f)
    (hI : ∀ s f s' w, I s → feed step s f = (s', .ok w) → I s') :
    ∀ (fs : List (List α)) {s s' : σ} {w : ω}, I s → (∀ f ∈ fs, Q f) →
      feed step s fs.flatten = (s', .ok w) → feedAll receive s fs = (s', .ok w)
  | [], _, _, _, _, _, h => h
  | f :: fs, s, s', w, hs, hq, h => by
      rw [List.flatten_cons, feed_append] at h
      obtain ⟨t, w₁, w₂, h₁, h₂, rfl⟩ := andThen_eq_ok.mp h
      refine andThen_eq_ok.mpr ⟨t, w₁, w₂, ?_, ?_, rfl⟩
      · rw [hr s f hs (hq f List.mem_cons_self), h₁]
      · exact feedAll_of_feed hr hI fs (hI s f t w₁ hs h₁)
          (fun g hg => hq g (List.mem_cons_of_mem f hg)) h₂

/-- An invariant of successful steps is one of successful runs. -/
theorem feed_invariant {step : Machine σ α ω ε} {I : σ → Prop}
    (hstep : ∀ s a s' w, I s → step s a = (s', .ok w) → I s') :
    ∀ (as : List α) {s s' : σ} {w : ω}, I s → feed step s as = (s', .ok w) → I s'
  | [], s, s', w, hs, h => by
      simp only [feed, Prod.mk.injEq] at h
      exact h.1 ▸ hs
  | a :: as, s, s', w, hs, h => by
      obtain ⟨t, w₁, w₂, h₁, h₂, -⟩ := andThen_eq_ok.mp h
      exact feed_invariant hstep as (hstep s a t w₁ hs h₁) h₂

/-! ### Counting steps of a run -/

/-- How many steps of feeding `as` from `s` start in a state and on a symbol of `P`. -/
def count (step : Machine σ α ω ε) (P : σ → α → Prop) [∀ s a, Decidable (P s a)] : σ → List α → ℕ
  | _, [] => 0
  | s, a :: as => (if P s a then 1 else 0) + count step P (step s a).1 as

end Netcatty.Feed
