import Mathlib.Data.List.Induction
import Netcatty.Library.Runs

/-! # Machines and their drivers

An `Actor` answers calls and queues actions; its driver takes the actions off the queue in order.
A `Driven` machine keeps the actions taken so far, so that `log` is every action the driver has
taken or will find in the queue. -/

namespace Netcatty.Driver

structure Actor (σ κ α ε : Type) where
  call : σ → κ → σ × Except ε Unit
  actions : σ → List α
  /-- The machine without its first action. -/
  pop : σ → σ
  actions_pop : ∀ s, actions (pop s) = (actions s).tail

structure Driven (σ α : Type) where
  machine : σ
  taken : List α

inductive Move (κ : Type) where
  | call (c : κ)
  | take

variable {σ κ α ε : Type} (A : Actor σ κ α ε)

namespace Actor

def step (d : Driven σ α) : Move κ → Driven σ α
  | .call c => ⟨(A.call d.machine c).1, d.taken⟩
  | .take => ⟨A.pop d.machine, d.taken ++ (A.actions d.machine).head?.toList⟩

def log (d : Driven σ α) : List α := d.taken ++ A.actions d.machine

theorem log_take (d : Driven σ α) : A.log (A.step d .take) = A.log d := by
  simp only [log, step, A.actions_pop]
  cases A.actions d.machine <;> simp

/-- A move of the driver that meets the condition `C`. -/
def Step (C : σ → Move κ → Prop) (d : Driven σ α) (m : Move κ) (d' : Driven σ α) : Prop :=
  C d.machine m ∧ d' = A.step d m

/-- The machine and its driver after a list of moves. -/
def after (d : Driven σ α) (moves : List (Move κ)) : Driven σ α := moves.foldl A.step d

theorem run_after (d : Driven σ α) (moves : List (Move κ)) :
    Runs.Run (A.Step fun _ _ => True) d moves (A.after d moves) := by
  induction moves using List.reverseRecOn with
  | nil => exact Runs.Run.refl
  | append_singleton moves m ih =>
      refine Runs.Run.snoc ih ⟨trivial, ?_⟩
      simp [after]

end Actor

/-! ### Logs that a failure closes -/

section Failure

variable (isFailure : α → Bool)

/-- No failure is on the list. -/
def Clean (log : List α) : Prop := ∀ a ∈ log, isFailure a = false

/-- A failure is on the list, at its end. -/
def Closed (log : List α) : Prop :=
  ∃ before a, log = before ++ [a] ∧ Clean isFailure before ∧ isFailure a = true

variable {isFailure}

theorem Clean.nil : Clean isFailure ([] : List α) := by simp [Clean]

theorem Clean.append {l l' : List α} :
    Clean isFailure (l ++ l') ↔ Clean isFailure l ∧ Clean isFailure l' := by
  simp only [Clean, List.mem_append]
  exact ⟨fun h => ⟨fun a ha => h a (.inl ha), fun a ha => h a (.inr ha)⟩,
    fun h a ha => ha.elim (h.1 a) (h.2 a)⟩

theorem Closed.append {l l' : List α} (h : Clean isFailure l) (h' : Closed isFailure l') :
    Closed isFailure (l ++ l') := by
  obtain ⟨before, a, rfl, hb, ha⟩ := h'
  exact ⟨l ++ before, a, by simp, Clean.append.mpr ⟨h, hb⟩, ha⟩

theorem Closed.concat {l : List α} {a : α} (h : Clean isFailure l) (ha : isFailure a = true) :
    Closed isFailure (l ++ [a]) :=
  ⟨l, a, rfl, h, ha⟩

theorem Closed.singleton {a : α} (ha : isFailure a = true) : Closed isFailure [a] :=
  ⟨[], a, rfl, Clean.nil, ha⟩

/-- Wherever a failure stands on a closed list, nothing follows it. -/
theorem Closed.last {l before after : List α} {a : α} (h : Closed isFailure l)
    (hl : l = before ++ a :: after) (ha : isFailure a = true) : after = [] := by
  obtain ⟨front, b, rfl, hfront, -⟩ := h
  rcases List.eq_nil_or_concat after with rfl | ⟨init, c, rfl⟩
  · rfl
  · have hl' : front ++ [b] = (before ++ a :: init) ++ [c] := by simpa using hl
    have hmem : a ∈ front := by
      rw [(List.append_inj' hl' rfl).1]
      simp
    rw [hfront a hmem] at ha
    simp at ha

end Failure

/-! ### Failure is final -/

section Final

variable {A} {isFailure : α → Bool} {terminal : σ → Prop} {C : σ → Move κ → Prop}

/-- The log is free of failures, or a failure closes it and the machine is terminal. -/
def Sound (A : Actor σ κ α ε) (isFailure : α → Bool) (terminal : σ → Prop) (d : Driven σ α) :
    Prop :=
  Clean isFailure (A.log d) ∨ terminal d.machine ∧ Closed isFailure (A.log d)

/-- **Failure is final** for an actor that refuses every call once it is terminal, and that ends a
call with a clean queue or with a failure at the end of it. -/
theorem sound_of_run
    (hterminal : ∀ s c, terminal s → (A.call s c).1 = s)
    (hpop : ∀ s, terminal s → terminal (A.pop s))
    (hcall : ∀ s c, ¬ terminal s → C s (.call c) → Clean isFailure (A.actions s) →
      Clean isFailure (A.actions (A.call s c).1) ∨
        terminal (A.call s c).1 ∧ Closed isFailure (A.actions (A.call s c).1))
    {d d' : Driven σ α} {moves : List (Move κ)} (h₀ : Sound A isFailure terminal d)
    (h : Runs.Run (A.Step C) d moves d') : Sound A isFailure terminal d' := by
  refine h.invariant (I := Sound A isFailure terminal) h₀ ?_
  rintro d m _ hd ⟨hC, rfl⟩
  cases m with
  | take =>
      unfold Sound
      rw [A.log_take]
      exact hd.imp id fun ⟨ht, hc⟩ => ⟨hpop _ ht, hc⟩
  | call c =>
      by_cases ht : terminal d.machine
      · have hsame : A.step d (.call c) = d := by
          simp only [Actor.step, hterminal _ c ht]
        rwa [hsame]
      · rcases hd with hclean | ⟨ht', -⟩
        · obtain ⟨htaken, hactions⟩ := Clean.append.mp hclean
          rcases hcall _ c ht hC hactions with hc | ⟨hterm, hclosed⟩
          · exact .inl (Clean.append.mpr ⟨htaken, hc⟩)
          · exact .inr ⟨hterm, hclosed.append htaken⟩
        · exact absurd ht' ht

/-- A terminal machine stays as it is: only the driver's taking goes on. -/
theorem terminal_of_run
    (hterminal : ∀ s c, terminal s → (A.call s c).1 = s)
    (hpop : ∀ s, terminal s → terminal (A.pop s))
    {d d' : Driven σ α} {moves : List (Move κ)} (h₀ : terminal d.machine)
    (h : Runs.Run (A.Step C) d moves d') : terminal d'.machine ∧ A.log d' = A.log d := by
  refine h.invariant (I := fun d' => terminal d'.machine ∧ A.log d' = A.log d) ⟨h₀, rfl⟩ ?_
  rintro e m _ ⟨ht, hlog⟩ ⟨-, rfl⟩
  cases m with
  | take => exact ⟨hpop _ ht, by rw [A.log_take, hlog]⟩
  | call c =>
      have hsame : A.step e (.call c) = e := by
        simp only [Actor.step, hterminal _ c ht]
      rw [hsame]
      exact ⟨ht, hlog⟩

/-- Once a failure is on the log it is the last action for ever, and the machine refuses its
callers: the driver may go on to make any moves. -/
def FailureIsFinal (A : Actor σ κ α ε) (isFailure : α → Bool) (refuses : σ → Prop)
    (d : Driven σ α) : Prop :=
  ∀ before a after, A.log d = before ++ a :: after → isFailure a = true →
    after = [] ∧ ∀ moves d', Runs.Run (A.Step fun _ _ => True) d moves d' →
      A.log d' = A.log d ∧ refuses d'.machine

theorem Sound.failureIsFinal {d : Driven σ α} {refuses : σ → Prop}
    (h : Sound A isFailure terminal d)
    (hterminal : ∀ s c, terminal s → (A.call s c).1 = s)
    (hpop : ∀ s, terminal s → terminal (A.pop s)) (hrefuses : ∀ s, terminal s → refuses s) :
    FailureIsFinal A isFailure refuses d := by
  intro before a after hlog ha
  rcases h with hclean | ⟨ht, hclosed⟩
  · have := hclean a (by simp [hlog])
    rw [ha] at this
    cases this
  · refine ⟨hclosed.last hlog ha, fun moves d' hrun => ?_⟩
    obtain ⟨ht', hlog'⟩ := terminal_of_run hterminal hpop ht hrun
    exact ⟨hlog', hrefuses _ ht'⟩

end Final

end Netcatty.Driver
