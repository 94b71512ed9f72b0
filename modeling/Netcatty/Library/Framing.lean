import Mathlib.Tactic.Common

/-! # Self-delimiting encodings

An incremental parser answers `ok none` while its input may still grow into a value, and otherwise
the value with the number of symbols it takes, or an error.  `Decodes p R bytes x` says that `bytes`
is a self-delimiting encoding of `x`: the parser takes exactly `bytes` off every input that
continues it by a rest in `R`, and waits on each of its proper prefixes.

An encoding may be prefixed (`Decodes.shift`), and a buffer that holds the beginning of a stream of
encodings either waits or gives its first value (`Decodes.stream`). -/

namespace Netcatty.Framing

variable {α β γ ε : Type}

/-- An incremental parser: a value and how much of the input it takes. -/
abbrev Parser (α β ε : Type) := List α → Except ε (Option (β × ℕ))

structure Decodes (p : Parser α β ε) (R : List α → Prop) (bytes : List α) (x : β) : Prop where
  whole : ∀ rest, R rest → p (bytes ++ rest) = .ok (some (x, bytes.length))
  part : ∀ l t, bytes = l ++ t → t ≠ [] → p l = .ok none

namespace Decodes

variable {p : Parser α β ε} {R : List α → Prop} {bytes : List α} {x : β}

/-- **A buffer at the head of a stream waits for its first value or gives it.** -/
theorem stream (h : Decodes p R bytes x) {buffer future rest : List α}
    (hb : buffer ++ future = bytes ++ rest) (hR : ∀ r, buffer = bytes ++ r → R r) :
    (p buffer = .ok none ∧ ∃ t, t ≠ [] ∧ bytes = buffer ++ t ∧ future = t ++ rest) ∨
      ∃ r, buffer = bytes ++ r ∧ r ++ future = rest ∧ p buffer = .ok (some (x, bytes.length)) := by
  rcases List.append_eq_append_iff.mp hb with ⟨t, hbytes, hfuture⟩ | ⟨r, hbuffer, hrest⟩
  · by_cases ht : t = []
    · subst ht
      rw [List.append_nil] at hbytes
      refine Or.inr ⟨[], by simp [hbytes], by simpa using hfuture, ?_⟩
      have := h.whole [] (hR [] (by simp [hbytes]))
      rwa [List.append_nil, hbytes] at *
    · exact Or.inl ⟨h.part buffer t hbytes ht, t, ht, hbytes, hfuture⟩
  · refine Or.inr ⟨r, hbuffer, hrest.symm, ?_⟩
    rw [hbuffer]
    exact h.whole r (hR r hbuffer)

/-- A value whose encoding starts with `front`, read by a parser that waits on every proper prefix
of `front` and goes on with `p` after it. -/
theorem shift {q : Parser α γ ε} (f : β → γ) (front : List α) (h : Decodes p R bytes x)
    (hstep : ∀ l, q (front ++ l) =
      (p l).map fun r => r.map fun (y, n) => (f y, n + front.length))
    (hwait : ∀ l t, front = l ++ t → t ≠ [] → q l = .ok none) :
    Decodes q R (front ++ bytes) (f x) := by
  refine ⟨fun rest hr => ?_, fun l t hl ht => ?_⟩
  · rw [List.append_assoc, hstep, h.whole rest hr, List.length_append, Nat.add_comm front.length]
    rfl
  · rcases List.append_eq_append_iff.mp hl with ⟨s, rfl, hs⟩ | ⟨s, hs, rfl⟩
    · rw [hstep, h.part s t hs ht]
      rfl
    · by_cases hs' : s = []
      · subst hs'
        have hp := hstep []
        rw [List.append_nil] at hs hp
        rw [← hs, hp, h.part [] bytes rfl ht]
        rfl
      · exact hwait l s hs hs'

end Decodes

end Netcatty.Framing
