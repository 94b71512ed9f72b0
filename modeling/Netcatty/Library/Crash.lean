import Mathlib.Data.List.Basic

/-! # Programs that may be stopped

A program acts on a state and takes a tape with what its surroundings do at each step: which fresh
name it draws, whether a step fails.  Where the tape ends, the machine stops, so that the tapes of
every length give every point at which a run can be cut short.

`Triple P m Q C` says that a run of `m` from a state with `P` ends with a value and a state that
satisfy `Q`, or was stopped in a state that satisfies `C`.  The rules (`Triple.pure`, `Triple.bind`,
`Triple.step`, `Triple.zoom`) follow the shape of the program. -/

namespace Netcatty.Crash

variable {σ ρ τ α β : Type}

/-- How a run came to its end. -/
inductive Run (σ τ α : Type)
  | returned (value : α) (state : σ) (rest : List τ)
  | stopped (state : σ)

def Run.state : Run σ τ α → σ
  | .returned _ state _ | .stopped state => state

def Run.value? : Run σ τ α → Option α
  | .returned value _ _ => some value
  | .stopped _ => none

theorem Run.eq_returned_of_value? {run : Run σ τ α} {value : α} (h : run.value? = some value) :
    ∃ rest, run = .returned value run.state rest := by
  cases run with
  | returned value' state rest =>
      cases h
      exact ⟨rest, rfl⟩
  | stopped state => exact absurd h (by simp [Run.value?])

def Prog (σ τ α : Type) : Type := σ → List τ → Run σ τ α

namespace Prog

protected def pure (a : α) : Prog σ τ α := fun s tape => .returned a s tape

protected def bind (m : Prog σ τ α) (f : α → Prog σ τ β) : Prog σ τ β := fun s tape =>
  match m s tape with
  | .returned a s tape => f a s tape
  | .stopped s => .stopped s

instance : Monad (Prog σ τ) where
  pure := Prog.pure
  bind := Prog.bind

/-- One step, in front of which the machine may stop. -/
def step (f : τ → σ → α × σ) : Prog σ τ α := fun s tape =>
  match tape with
  | [] => .stopped s
  | t :: rest => .returned (f t s).1 (f t s).2 rest

/-- The state as it is, without a step. -/
def read : Prog σ τ σ := fun s tape => .returned s s tape

/-- A program on a part of the state. -/
def zoom (get : ρ → σ) (set : σ → ρ → ρ) (m : Prog σ τ α) : Prog ρ τ α := fun r tape =>
  match m (get r) tape with
  | .returned a s tape => .returned a (set s r) tape
  | .stopped s => .stopped (set s r)

end Prog

/-! ### Triples -/

/-- From a state with `P`, a run returns with `Q` or is stopped with `C`. -/
def Triple (P : σ → Prop) (m : Prog σ τ α) (Q : α → σ → Prop) (C : σ → Prop) : Prop :=
  ∀ s tape, P s →
    match m s tape with
    | .returned a s' _ => Q a s'
    | .stopped s' => C s'

variable {P P' : σ → Prop} {Q Q' : α → σ → Prop} {C C' : σ → Prop} {m : Prog σ τ α}

theorem Triple.returned (h : Triple P m Q C) {s s' : σ} {tape rest : List τ} {a : α} (hs : P s)
    (hrun : m s tape = .returned a s' rest) : Q a s' := by
  have := h s tape hs
  rwa [hrun] at this

theorem Triple.stopped (h : Triple P m Q C) {s s' : σ} {tape : List τ} (hs : P s)
    (hrun : m s tape = .stopped s') : C s' := by
  have := h s tape hs
  rwa [hrun] at this

/-- What holds wherever a run comes to its end. -/
theorem Triple.state (h : Triple P m (fun _ => C) C) {s : σ} (hs : P s) (tape : List τ) :
    C (m s tape).state := by
  have := h s tape hs
  cases hrun : m s tape with
  | returned a s' rest => rwa [hrun] at this
  | stopped s' => rwa [hrun] at this

theorem Triple.weaken (h : Triple P m Q C) (hP : ∀ s, P' s → P s)
    (hQ : ∀ a s, Q a s → Q' a s) (hC : ∀ s, C s → C' s) : Triple P' m Q' C' := by
  intro s tape hs
  have := h s tape (hP s hs)
  cases hrun : m s tape with
  | returned a s' rest =>
      rw [hrun] at this
      exact hQ a s' this
  | stopped s' =>
      rw [hrun] at this
      exact hC s' this

theorem Triple.pure {a : α} (h : ∀ s, P s → Q a s) : Triple P (Pure.pure a : Prog σ τ α) Q C :=
  fun s _ hs => h s hs

theorem Triple.bind {f : α → Prog σ τ β} {R : α → σ → Prop} {Q : β → σ → Prop}
    (hm : Triple P m R C) (hf : ∀ a, Triple (R a) (f a) Q C) : Triple P (m >>= f) Q C := by
  intro s tape hs
  have hstart := hm s tape hs
  change match Prog.bind m f s tape with
    | .returned a s' _ => Q a s'
    | .stopped s' => C s'
  unfold Prog.bind
  cases hrun : m s tape with
  | returned a s' rest =>
      rw [hrun] at hstart
      exact hf a s' rest hstart
  | stopped s' =>
      rw [hrun] at hstart
      exact hstart

theorem Triple.step {f : τ → σ → α × σ} (hC : ∀ s, P s → C s)
    (hQ : ∀ t s, P s → Q (f t s).1 (f t s).2) : Triple P (Prog.step f) Q C := by
  intro s tape hs
  cases tape with
  | nil => exact hC s hs
  | cons t rest => exact hQ t s hs

theorem Triple.read : Triple P (Prog.read : Prog σ τ σ) (fun s₀ s => s = s₀ ∧ P s₀) C :=
  fun _ _ hs => ⟨rfl, hs⟩

theorem Triple.zoom {get : ρ → σ} {set : σ → ρ → ρ} {P : ρ → Prop} {Q : α → ρ → Prop}
    {C : ρ → Prop}
    (h : ∀ r, P r → Triple (· = get r) m (fun a s => Q a (set s r)) fun s => C (set s r)) :
    Triple P (m.zoom get set) Q C := by
  intro r tape hr
  have := h r hr (get r) tape rfl
  unfold Prog.zoom
  cases hrun : m (get r) tape with
  | returned a s' rest =>
      rw [hrun] at this
      exact this
  | stopped s' =>
      rw [hrun] at this
      exact this

end Netcatty.Crash
