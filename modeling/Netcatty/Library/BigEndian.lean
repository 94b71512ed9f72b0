import Mathlib.Algebra.Ring.Nat
import Mathlib.Data.List.Induction
import Mathlib.Tactic.Common

/-! # Big-endian numbers and slices of byte strings

`beBytes width n` writes a number in a fixed number of bytes, the most significant first, and
`beValue` reads it back (`beValue_beBytes`, `beBytes_beValue`).  `slice` cuts out the bytes of a
field; in a record of fields, the field at the lengths of those before it is what stands there
(`slice_flatten`), and a record can be taken apart field by field (`drop_eq_append_iff`). -/

namespace Netcatty.BigEndian

abbrev Bytes := List UInt8

/-- The last bytes of a number, as many as the width. -/
def beBytes : ℕ → ℕ → Bytes
  | 0, _ => []
  | width + 1, n => beBytes width (n / 256) ++ [UInt8.ofNat (n % 256)]

def beValue (bytes : Bytes) : ℕ := bytes.foldl (fun n b => 256 * n + b.toNat) 0

@[simp] theorem length_beBytes (width n : ℕ) : (beBytes width n).length = width := by
  induction width generalizing n with
  | zero => rfl
  | succ width ih => simp only [beBytes, List.length_append, ih, List.length_singleton]

theorem beValue_append (bytes : Bytes) (b : UInt8) :
    beValue (bytes ++ [b]) = 256 * beValue bytes + b.toNat := by
  simp only [beValue, List.foldl_append, List.foldl_cons, List.foldl_nil]

theorem beValue_beBytes {width n : ℕ} (h : n < 256 ^ width) : beValue (beBytes width n) = n := by
  induction width generalizing n with
  | zero =>
      have hzero : n = 0 := by simpa using h
      rw [hzero]
      rfl
  | succ width ih =>
      have hdiv : n / 256 < 256 ^ width :=
        Nat.div_lt_of_lt_mul (by rwa [Nat.pow_succ, Nat.mul_comm] at h)
      have hbyte : (UInt8.ofNat (n % 256)).toNat = n % 256 := by
        rw [UInt8.toNat_ofNat']
        omega
      rw [beBytes, beValue_append, ih hdiv, hbyte]
      omega

theorem beValue_lt (bytes : Bytes) : beValue bytes < 256 ^ bytes.length := by
  induction bytes using List.reverseRecOn with
  | nil => exact Nat.one_pos
  | append_singleton bytes b ih =>
      have hb := b.toNat_lt
      rw [beValue_append, List.length_append, List.length_singleton, Nat.pow_succ]
      omega

theorem beBytes_beValue (bytes : Bytes) : beBytes bytes.length (beValue bytes) = bytes := by
  induction bytes using List.reverseRecOn with
  | nil => rfl
  | append_singleton bytes b ih =>
      have hb := b.toNat_lt
      have hdiv : (256 * beValue bytes + b.toNat) / 256 = beValue bytes := by omega
      have hmod : (256 * beValue bytes + b.toNat) % 256 = b.toNat := by omega
      rw [List.length_append, List.length_singleton, beValue_append, beBytes, hdiv, hmod, ih]
      simp

/-! ### Fields -/

def slice (bytes : Bytes) (offset length : ℕ) : Bytes := (bytes.drop offset).take length

def readBe (bytes : Bytes) (offset width : ℕ) : ℕ := beValue (slice bytes offset width)

theorem slice_append (before field after : Bytes) {offset length : ℕ}
    (hoffset : offset = before.length) (hlength : length = field.length) :
    slice (before ++ (field ++ after)) offset length = field := by
  subst hoffset hlength
  rw [slice, List.drop_left, List.take_left]

/-- **A field of a record stands behind the fields before it.** -/
theorem slice_flatten (fields : List Bytes) {i offset length : ℕ} (h : i < fields.length)
    (hoffset : offset = ((fields.take i).map List.length).sum)
    (hlength : length = fields[i].length) : slice fields.flatten offset length = fields[i] := by
  have hsplit : fields.flatten =
      (fields.take i).flatten ++ (fields[i] ++ (fields.drop (i + 1)).flatten) := by
    rw [← List.flatten_cons, List.getElem_cons_drop, ← List.flatten_append, List.take_append_drop]
  rw [hsplit, slice_append _ _ _ (by rw [hoffset, List.length_flatten]) hlength]

theorem readBe_flatten (fields : List Bytes) {i offset width n : ℕ} (h : i < fields.length)
    (hoffset : offset = ((fields.take i).map List.length).sum)
    (hfield : fields[i] = beBytes width n) (hn : n < 256 ^ width) :
    readBe fields.flatten offset width = n := by
  rw [readBe, slice_flatten fields h hoffset (by rw [hfield, length_beBytes]), hfield,
    beValue_beBytes hn]

theorem length_slice {bytes : Bytes} {offset length : ℕ} (h : offset + length ≤ bytes.length) :
    (slice bytes offset length).length = length := by
  rw [slice, List.length_take, List.length_drop]
  omega

theorem beBytes_readBe {bytes : Bytes} {offset width : ℕ} (h : offset + width ≤ bytes.length) :
    beBytes width (readBe bytes offset width) = slice bytes offset width := by
  have hvalue := beBytes_beValue (slice bytes offset width)
  rwa [length_slice h] at hvalue

/-- A field holds a number where the number is read from it. -/
theorem slice_eq_beBytes_iff {bytes : Bytes} {offset width n : ℕ}
    (h : offset + width ≤ bytes.length) (hn : n < 256 ^ width) :
    slice bytes offset width = beBytes width n ↔ readBe bytes offset width = n := by
  constructor
  · intro hslice
    rw [readBe, hslice, beValue_beBytes hn]
  · rintro rfl
    exact (beBytes_readBe h).symm

/-- What begins with a field has it as its slice, and goes on behind it. -/
theorem drop_eq_append_iff {bytes field rest : Bytes} {offset length : ℕ}
    (hlength : field.length = length) :
    bytes.drop offset = field ++ rest ↔
      slice bytes offset length = field ∧ bytes.drop (offset + length) = rest := by
  constructor
  · intro h
    rw [slice, ← List.drop_drop, h, List.take_left' hlength, List.drop_left' hlength]
    exact ⟨rfl, rfl⟩
  · rintro ⟨rfl, rfl⟩
    rw [slice, ← List.drop_drop, List.take_append_drop]

end Netcatty.BigEndian
