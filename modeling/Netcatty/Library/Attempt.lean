import Netcatty.Library.FileSystem

/-! # Programs that may fail

An attempt is a program that ends with a value or with an error.  `Does P m Q X` says that a run of
`m` from a state with `P` returns a value with `Q`, and that it fails or is stopped only in a state
with `X`.  The rules follow the shape of an attempt (`Does.pure`, `Does.throw`, `Does.bind`). -/

namespace Netcatty.Crash

variable {σ ρ τ ε α β : Type}

abbrev Attempt (σ τ ε α : Type) := ExceptT ε (Prog σ τ) α

namespace Attempt

/-- The outcome of an attempt, as a value. -/
def outcome (m : Attempt σ τ ε α) : Attempt σ τ ε (Except ε α) := ExceptT.lift m.run

/-- A program that does not fail. -/
def always (m : Prog σ τ α) : Attempt σ τ ε α := ExceptT.lift m

/-- The state as it is. -/
def get : Attempt σ τ ε σ := always Prog.read

def ofExcept : Except ε α → Attempt σ τ ε α
  | .ok a => pure a
  | .error error => throw error

/-- A call whose failure has a code. -/
def orFail {κ : Type} (error : ε) (m : Prog σ τ (Except κ α)) : Attempt σ τ ε α :=
  ExceptT.mk do
    match ← m with
    | .ok a => return .ok a
    | .error _ => return .error error

end Attempt

theorem bind_eq_ok {x : Except ε α} {f : α → Except ε β} {b : β} :
    (x >>= f) = .ok b ↔ ∃ a, x = .ok a ∧ f a = .ok b := by
  cases x with
  | error error => simp [bind, Except.bind]
  | ok a => simp [bind, Except.bind]

/-- From a state with `P`, a run returns with `Q`, or fails or is stopped with `X`. -/
def Does (P : σ → Prop) (m : Attempt σ τ ε α) (Q : α → σ → Prop) (X : σ → Prop) : Prop :=
  Triple P m.run (fun result s => match result with
    | .ok a => Q a s
    | .error _ => X s) X

variable {P P' : σ → Prop} {Q Q' : α → σ → Prop} {X X' : σ → Prop} {m : Attempt σ τ ε α}

theorem Does.pure {a : α} (h : ∀ s, P s → Q a s) : Does P (Pure.pure a : Attempt σ τ ε α) Q X :=
  fun s _ hs => h s hs

theorem Does.throw {error : ε} (h : ∀ s, P s → X s) :
    Does P (MonadExcept.throw error : Attempt σ τ ε α) Q X :=
  fun s _ hs => h s hs

theorem Does.bind {f : α → Attempt σ τ ε β} {R : α → σ → Prop} {Q : β → σ → Prop}
    (hm : Does P m R X) (hf : ∀ a, Does (R a) (f a) Q X) : Does P (m >>= f) Q X := by
  apply Triple.bind hm
  intro result
  cases result with
  | ok a => exact hf a
  | error error => exact Triple.pure fun _ h => h

theorem Does.map {f : α → β} {Q : β → σ → Prop} (h : Does P m (fun a => Q (f a)) X) :
    Does P (f <$> m) Q X := by
  apply Triple.bind h
  intro result
  cases result with
  | ok a => exact Triple.pure fun _ h => h
  | error error => exact Triple.pure fun _ h => h

theorem Does.weaken (h : Does P m Q X) (hP : ∀ s, P' s → P s) (hQ : ∀ a s, Q a s → Q' a s)
    (hX : ∀ s, X s → X' s) : Does P' m Q' X' := by
  apply Triple.weaken h hP _ hX
  intro result s hs
  cases result with
  | ok a => exact hQ a s hs
  | error error => exact hX s hs

theorem Does.always {p : Prog σ τ α} (h : Triple P p Q X) :
    Does P (Attempt.always p : Attempt σ τ ε α) Q X :=
  Triple.bind h fun _ => Triple.pure fun _ h => h

/-- The rule for a state that is named. -/
theorem Does.each (h : ∀ s₀, P s₀ → Does (· = s₀) m Q X) : Does P m Q X :=
  fun s tape hs => h s hs s tape rfl

/-- What follows a look at the state. -/
theorem Does.get {f : σ → Attempt σ τ ε β} {Q : β → σ → Prop}
    (h : ∀ s₀, P s₀ → Does (· = s₀) (f s₀) Q X) : Does P (Attempt.get >>= f) Q X :=
  fun s tape hs => h s hs s tape rfl

theorem Does.ofExcept {r : Except ε α} (hok : ∀ a, r = .ok a → ∀ s, P s → Q a s)
    (herror : ∀ s, P s → X s) : Does P (Attempt.ofExcept r : Attempt σ τ ε α) Q X := by
  cases r with
  | ok a => exact Does.pure (hok a rfl)
  | error error => exact Does.throw herror

theorem Does.orFail {κ : Type} {error : ε} {p : Prog σ τ (Except κ α)}
    (h : Triple P p (fun result s => match result with
      | .ok a => Q a s
      | .error _ => X s) X) : Does P (Attempt.orFail error p) Q X := by
  apply Triple.bind h
  intro result
  cases result with
  | ok a => exact Triple.pure fun _ h => h
  | error e => exact Triple.pure fun _ h => h

theorem Does.outcome {R : Except ε α → σ → Prop} (h : Does P m Q X)
    (hok : ∀ a s, Q a s → R (.ok a) s) (herror : ∀ error s, X s → R (.error error) s) :
    Does P m.outcome R X := by
  apply Triple.bind h
  intro result
  apply Triple.pure
  intro s hs
  cases result with
  | ok a => exact hok a s hs
  | error error => exact herror error s hs

/-- A fact that the state does not decide. -/
theorem Does.assume {p : Prop} (h : p → Does P m Q X) : Does (fun s => p ∧ P s) m Q X :=
  fun s tape ⟨hp, hs⟩ => h hp s tape hs

/-- How a run ends. -/
theorem Does.cases (h : Does P m Q X) {s : σ} (hs : P s) (tape : List τ) :
    (∃ a, (m.run s tape).value? = some (.ok a) ∧ Q a (m.run s tape).state) ∨
      (∀ a, (m.run s tape).value? ≠ some (.ok a)) ∧ X (m.run s tape).state := by
  have hend := h s tape hs
  cases hrun : m.run s tape with
  | returned result s' rest =>
      rw [hrun] at hend
      cases result with
      | ok a => exact .inl ⟨a, rfl, hend⟩
      | error error => exact .inr ⟨fun a ha => (by cases ha), hend⟩
  | stopped s' =>
      rw [hrun] at hend
      exact .inr ⟨fun a ha => (by cases ha), hend⟩

/-- What holds wherever a run comes to its end. -/
theorem Does.state (h : Does P m (fun _ => X) X) {s : σ} (hs : P s) (tape : List τ) :
    X (m.run s tape).state := by
  apply Triple.state (Triple.weaken h (fun _ h => h) _ fun _ h => h) hs tape
  intro result s h
  cases result <;> exact h

end Netcatty.Crash
