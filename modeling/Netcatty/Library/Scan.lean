import Mathlib.Tactic.Common

/-! # Scanning a growing buffer

A verdict on the beginning of a buffer accepts it with a value, rejects it, or waits for more
symbols.  `scan` drops the first symbol as long as the verdict rejects, and stops where it waits or
accepts.  Where accepting and rejecting are final (`Stable`), a buffer that is scanned as it grows
drops the same symbols and stops at the same place as one that is scanned at once (`scan_extend`),
and `scan` finds the first accepted position behind rejected ones (`scan_of_firstAccept`). -/

namespace Netcatty.Scan

variable {α β : Type}

inductive Verdict (β : Type) where
  | reject
  | wait
  | accept (value : β)

/-- Longer buffers do not change a decision, and there is none on the empty buffer. -/
structure Stable (v : List α → Verdict β) : Prop where
  nil : v [] = .wait
  reject : ∀ {l}, v l = .reject → ∀ m, v (l ++ m) = .reject
  accept : ∀ {l b}, v l = .accept b → ∀ m, v (l ++ m) = .accept b

/-- The symbols dropped, the value accepted, and the buffer left. -/
structure Outcome (α β : Type) where
  dropped : List α
  accepted : Option β
  rest : List α

namespace Outcome

def drop (a : α) (o : Outcome α β) : Outcome α β := { o with dropped := a :: o.dropped }

def dropAll (as : List α) (o : Outcome α β) : Outcome α β := { o with dropped := as ++ o.dropped }

end Outcome

def scan (v : List α → Verdict β) : List α → Outcome α β
  | [] => ⟨[], none, []⟩
  | a :: l =>
    match v (a :: l) with
    | .reject => (scan v l).drop a
    | .wait => ⟨[], none, a :: l⟩
    | .accept b => ⟨[], some b, a :: l⟩

variable {v : List α → Verdict β}

/-- **Nothing is lost.** -/
theorem scan_conserves (l : List α) : (scan v l).dropped ++ (scan v l).rest = l := by
  induction l with
  | nil => rfl
  | cons a l ih =>
      rw [scan]
      cases v (a :: l) with
      | reject => exact congrArg (a :: ·) ih
      | wait => rfl
      | accept b => rfl

/-- Rejected symbols are dropped one by one. -/
theorem scan_skip (as l : List α) (h : ∀ j < as.length, v ((as ++ l).drop j) = .reject) :
    scan v (as ++ l) = (scan v l).dropAll as := by
  induction as with
  | nil => rfl
  | cons a as ih =>
      have h₀ := h 0 (by simp)
      simp only [List.drop_zero, List.cons_append] at h₀
      have ih := ih fun j hj => by
        have := h (j + 1) (by simpa using hj)
        simpa using this
      simp only [List.cons_append, scan, h₀, ih]
      rfl

/-- **Scanning may be interrupted where it waits.** -/
theorem scan_extend (hv : Stable v) (l m : List α) (h : (scan v l).accepted = none) :
    scan v (l ++ m) = (scan v ((scan v l).rest ++ m)).dropAll (scan v l).dropped := by
  induction l with
  | nil => rfl
  | cons a l ih =>
      rw [scan] at h
      cases hverdict : v (a :: l) with
      | reject =>
          have hreject := hv.reject hverdict m
          rw [hverdict] at h
          rw [List.cons_append] at hreject ⊢
          simp only [scan, hreject, hverdict]
          exact congrArg (Outcome.drop a) (ih h)
      | wait =>
          have hstop : scan v (a :: l) = ⟨[], none, a :: l⟩ := by rw [scan, hverdict]
          rw [hstop]
          rfl
      | accept b =>
          rw [hverdict] at h
          simp at h

/-- The first position that is not rejected is accepted with `b`. -/
structure FirstAccept (v : List α → Verdict β) (l : List α) (i : ℕ) (b : β) : Prop where
  rejected : ∀ j < i, v (l.drop j) = .reject
  accepted : v (l.drop i) = .accept b

/-- There is at most one first position. -/
theorem FirstAccept.unique {l : List α} {i j : ℕ} {b c : β} (h : FirstAccept v l i b)
    (h' : FirstAccept v l j c) : i = j ∧ b = c := by
  rcases Nat.lt_trichotomy i j with hij | rfl | hij
  · have := h'.rejected i hij
    rw [h.accepted] at this
    simp at this
  · have := h'.accepted
    rw [h.accepted, Verdict.accept.injEq] at this
    exact ⟨rfl, this⟩
  · have := h.rejected j hij
    rw [h'.accepted] at this
    simp at this

/-- A first position is one in every longer buffer. -/
theorem FirstAccept.extend (hv : Stable v) {l : List α} {i : ℕ} {b : β} (h : FirstAccept v l i b)
    (m : List α) : FirstAccept v (l ++ m) i b := by
  have hle : i ≤ l.length := by
    by_contra hlt
    have := h.accepted
    rw [List.drop_eq_nil_of_le (by omega), hv.nil] at this
    simp at this
  refine ⟨fun j hj => ?_, ?_⟩
  · rw [List.drop_append_of_le_length (by omega)]
    exact hv.reject (h.rejected j hj) m
  · rw [List.drop_append_of_le_length hle]
    exact hv.accept h.accepted m

/-- **`scan` stops at the first position that is not rejected, if it is accepted.** -/
theorem scan_of_firstAccept (hv : Stable v) {l : List α} {i : ℕ} {b : β}
    (h : FirstAccept v l i b) : scan v l = ⟨l.take i, some b, l.drop i⟩ := by
  have hskip := scan_skip (v := v) (l.take i) (l.drop i) fun j hj => by
    rw [List.take_append_drop]
    rw [List.length_take] at hj
    exact h.rejected j (by omega)
  rw [List.take_append_drop] at hskip
  have hstop : scan v (l.drop i) = ⟨[], some b, l.drop i⟩ := by
    have haccept := h.accepted
    cases hdrop : l.drop i with
    | nil =>
        rw [hdrop, hv.nil] at haccept
        simp at haccept
    | cons a l =>
        rw [hdrop] at haccept
        rw [scan, haccept]
  rw [hskip, hstop]
  simp [Outcome.dropAll]

/-- Conversely, what `scan` accepts is at the first position that is not rejected. -/
theorem firstAccept_of_scan {l : List α} {b : β} (h : (scan v l).accepted = some b) :
    FirstAccept v l (scan v l).dropped.length b := by
  induction l with
  | nil => simp [scan] at h
  | cons a l ih =>
      rw [scan] at h ⊢
      cases hverdict : v (a :: l) with
      | reject =>
          rw [hverdict] at h
          have ih := ih h
          refine ⟨fun j hj => ?_, ih.accepted⟩
          cases j with
          | zero => exact hverdict
          | succ j => exact ih.rejected j (by simpa [Outcome.drop] using hj)
      | wait =>
          rw [hverdict] at h
          simp at h
      | accept c =>
          rw [hverdict] at h
          obtain rfl := Option.some.inj h
          exact ⟨fun j hj => by simp at hj, hverdict⟩

end Netcatty.Scan
