import Mathlib.Data.List.Induction
import Mathlib.Tactic.Common

/-! # Monitors

A monitor reads a trace of events: `after` is what it knows at the end of a trace, and a trace obeys
it where every event is allowed by what the monitor knows before it (`Obeys`).  A trace is extended
one event at a time (`obeys_concat`); events that the monitor allows and forgets change nothing
(`obeys_append_neutral`). -/

namespace Netcatty.Watch

variable {σ ι : Type}

structure Monitor (σ ι : Type) where
  init : σ
  next : σ → ι → σ
  allowed : σ → ι → Prop

variable (M : Monitor σ ι)

def after (events : List ι) : σ := events.foldl M.next M.init

/-- Every event is allowed by those before it. -/
def Obeys (events : List ι) : Prop :=
  ∀ before event rest, events = before ++ event :: rest → M.allowed (after M before) event

/-- An event the monitor allows and forgets. -/
def Neutral (event : ι) : Prop := ∀ s, M.allowed s event ∧ M.next s event = s

variable {M}

@[simp] theorem after_nil : after M [] = M.init := rfl

@[simp] theorem after_concat (events : List ι) (event : ι) :
    after M (events ++ [event]) = M.next (after M events) event := by
  simp [after]

theorem obeys_nil : Obeys M [] := by
  intro before event rest h
  simp at h

theorem obeys_concat {events : List ι} {event : ι} :
    Obeys M (events ++ [event]) ↔ Obeys M events ∧ M.allowed (after M events) event := by
  refine ⟨fun h => ⟨fun before e rest he => ?_, h events event [] rfl⟩, fun ⟨h, he⟩ => ?_⟩
  · exact h before e (rest ++ [event]) (by simp [he])
  · intro before e rest hl
    rcases List.eq_nil_or_concat rest with rfl | ⟨rest, last, rfl⟩
    · obtain ⟨rfl, hlast⟩ := List.append_inj' hl rfl
      obtain rfl : event = e := by simpa using hlast
      exact he
    · refine h before e rest ?_
      have hl' : events ++ [event] = (before ++ e :: rest) ++ [last] := by simpa using hl
      exact (List.append_inj' hl' rfl).1

theorem Obeys.left {events more : List ι} (h : Obeys M (events ++ more)) : Obeys M events := by
  intro before e rest he
  exact h before e (rest ++ more) (by simp [he])

theorem after_append_neutral {events more : List ι} (hmore : ∀ event ∈ more, Neutral M event) :
    after M (events ++ more) = after M events := by
  induction more using List.reverseRecOn with
  | nil => simp
  | append_singleton more event ih =>
      rw [← List.append_assoc, after_concat, ih fun e he => hmore e (by simp [he])]
      exact (hmore event (by simp) _).2

theorem obeys_append_neutral {events more : List ι} (h : Obeys M events)
    (hmore : ∀ event ∈ more, Neutral M event) : Obeys M (events ++ more) := by
  induction more using List.reverseRecOn with
  | nil => simpa using h
  | append_singleton more event ih =>
      rw [← List.append_assoc]
      exact obeys_concat.mpr ⟨ih fun e he => hmore e (by simp [he]), (hmore event (by simp) _).1⟩

end Netcatty.Watch
