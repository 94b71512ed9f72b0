import Mathlib.Data.List.Basic
import Mathlib.Tactic.Common

/-! # Shift registers with feedback

A register of `w` bits that is shifted up, with a polynomial added where a one falls out: the
remainder of a cyclic redundancy check.  A shift is linear in exclusive or (`steps_xor`), and a one
that does not reach the top is only moved (`steps_eq_shiftLeft`), so `n` shifts are those of the `n`
highest bits, and the rest of the register moved up (`steps_split`). -/

namespace Netcatty.ShiftRegister

variable {w : ℕ} (poly : BitVec w)

def step (c : BitVec w) : BitVec w := if c.msb then (c <<< 1) ^^^ poly else c <<< 1

def steps (n : ℕ) (c : BitVec w) : BitVec w := Nat.repeat (step poly) n c

@[simp] theorem steps_zero (c : BitVec w) : steps poly 0 c = c := rfl

theorem steps_succ (n : ℕ) (c : BitVec w) : steps poly (n + 1) c = step poly (steps poly n c) := rfl

theorem step_xor (a b : BitVec w) : step poly (a ^^^ b) = step poly a ^^^ step poly b := by
  unfold step
  rw [BitVec.msb_xor, BitVec.shiftLeft_xor_distrib]
  cases a.msb with
  | true =>
      cases b.msb with
      | true =>
          -- the polynomial is added twice
          have hcancel : a <<< 1 ^^^ poly ^^^ (b <<< 1 ^^^ poly) =
              a <<< 1 ^^^ b <<< 1 ^^^ (poly ^^^ poly) := by ac_rfl
          rw [if_neg (by decide), if_pos rfl, if_pos rfl, hcancel, BitVec.xor_self, BitVec.xor_zero]
      | false =>
          rw [if_pos (by decide), if_pos rfl, if_neg (by decide)]
          ac_rfl
  | false =>
      cases b.msb with
      | true =>
          rw [if_pos (by decide), if_neg (by decide), if_pos rfl]
          ac_rfl
      | false => rw [if_neg (by decide), if_neg (by decide), if_neg (by decide)]

theorem steps_xor (n : ℕ) (a b : BitVec w) :
    steps poly n (a ^^^ b) = steps poly n a ^^^ steps poly n b := by
  induction n with
  | zero => rfl
  | succ n ih => rw [steps_succ, steps_succ, steps_succ, ih, step_xor]

/-- Where the highest bits are clear nothing falls out. -/
theorem steps_eq_shiftLeft {n : ℕ} {c : BitVec w} (hn : n ≤ w)
    (h : ∀ i, w - n ≤ i → c.getLsbD i = false) : steps poly n c = c <<< n := by
  induction n with
  | zero => exact (BitVec.shiftLeft_zero c).symm
  | succ n ih =>
      have hprev : steps poly n c = c <<< n := by
        apply ih (by omega)
        intro i hi
        exact h i (by omega)
      have hmsb : (c <<< n).msb = false := by
        rw [BitVec.msb_eq_getLsbD_last, BitVec.getLsbD_shiftLeft, h _ (by omega), Bool.and_false]
      rw [steps_succ, hprev, step, hmsb, if_neg Bool.false_ne_true, ← BitVec.shiftLeft_add]

/-- **The highest bits are folded, the others moved up.** -/
theorem steps_split {n : ℕ} (hn : n ≤ w) (c : BitVec w) :
    steps poly n c = steps poly n (c >>> (w - n) <<< (w - n)) ^^^ (c <<< n) := by
  generalize hhigh : c >>> (w - n) <<< (w - n) = high
  have hsame : ∀ i, w - n ≤ i → high.getLsbD i = c.getLsbD i := by
    intro i hi
    rw [← hhigh, BitVec.getLsbD_shiftLeft, BitVec.getLsbD_ushiftRight]
    have hindex : w - n + (i - (w - n)) = i := by omega
    rw [hindex]
    by_cases hlt : i < w
    · simp [hlt, hi]
    · rw [BitVec.getLsbD_of_ge _ _ (Nat.le_of_not_lt hlt)]
      exact Bool.and_false _
  have hlow : steps poly n (high ^^^ c) = (high ^^^ c) <<< n := by
    apply steps_eq_shiftLeft poly hn
    intro i hi
    rw [BitVec.getLsbD_xor, hsame i hi, Bool.xor_self]
  have hout : high <<< n = 0#w := by
    rw [← hhigh, ← BitVec.shiftLeft_add]
    exact BitVec.shiftLeft_eq_zero (by omega)
  have hparts : c = high ^^^ (high ^^^ c) := by
    rw [← BitVec.xor_assoc, BitVec.xor_self, BitVec.zero_xor]
  calc steps poly n c = steps poly n (high ^^^ (high ^^^ c)) := congrArg _ hparts
    _ = steps poly n high ^^^ (high ^^^ c) <<< n := by rw [steps_xor, hlow]
    _ = steps poly n high ^^^ c <<< n := by
        rw [BitVec.shiftLeft_xor_distrib, hout, BitVec.zero_xor]

end Netcatty.ShiftRegister
