import Netcatty.Library.ShiftRegister
import Netcatty.Serial.Zmodem.Codec
import Netcatty.Serial.Ymodem.Header

/-! # The two CRC-16 implementations

ZMODEM shifts its register bit by bit, YMODEM folds the two nibbles of each byte.  For one byte the
foldings of its high bits agree (`folded_eq`), and the rest of the register is moved up by either,
so the two checksums agree on every text (`crc16Xmodem_eq_crc16`). -/

namespace Netcatty.Serial

open ShiftRegister

def crc16Polynomial : BitVec 16 := 0x1021#16

/-- What the nibbles of a byte that falls out leave in the register. -/
def folded (byte : BitVec 8) : BitVec 16 :=
  let code := byte ^^^ (byte >>> 4)
  (code.setWidth 16 <<< 12) ^^^ (code.setWidth 16 <<< 5) ^^^ code.setWidth 16

set_option maxRecDepth 8000 in
theorem folded_eq (byte : BitVec 8) :
    steps crc16Polynomial 8 (byte.setWidth 16 <<< 8) = folded byte := by
  revert byte
  decide

/-! ### ZMODEM -/

theorem highest_bit (c : BitVec 16) : c &&& 0x8000#16 ≠ 0#16 ↔ c.msb = true := by
  have hmask : c &&& 0x8000#16 = if c.getLsbD 15 then BitVec.twoPow 16 15 else 0#16 :=
    BitVec.and_twoPow c 15
  have hone : BitVec.twoPow 16 15 ≠ 0#16 := by decide
  rw [hmask, BitVec.msb_eq_getLsbD_last]
  cases hbit : c.getLsbD 15 with
  | true => exact iff_of_true hone rfl
  | false => exact iff_of_false (fun h => h rfl) Bool.false_ne_true

theorem toBitVec_crc16Round (crc : UInt16) :
    (Zmodem.crc16Round crc).toBitVec = step crc16Polynomial crc.toBitVec := by
  have hbit : crc &&& 0x8000 ≠ 0 ↔ crc.toBitVec.msb = true := by
    rw [← highest_bit, ne_eq, ne_eq, ← UInt16.toBitVec_inj]
    rfl
  unfold Zmodem.crc16Round step
  by_cases hout : crc.toBitVec.msb = true
  · rw [if_pos (hbit.mpr hout), if_pos hout]
    rfl
  · rw [if_neg (fun h => hout (hbit.mp h)), if_neg hout]
    rfl

theorem toBitVec_repeat (n : ℕ) (crc : UInt16) :
    (Nat.repeat Zmodem.crc16Round n crc).toBitVec = steps crc16Polynomial n crc.toBitVec := by
  induction n with
  | zero => rfl
  | succ n ih => rw [steps_succ, ← ih, ← toBitVec_crc16Round]; rfl

/-- The register that a byte leaves, bit by bit. -/
def zmodemByte (crc : UInt16) (byte : UInt8) : UInt16 :=
  Nat.repeat Zmodem.crc16Round 8 (crc ^^^ (byte.toUInt16 <<< 8))

/-! ### YMODEM -/

/-- The register that a byte leaves, two nibbles at once. -/
def xmodemByte (crc : UInt16) (byte : UInt8) : UInt16 :=
  let code := (crc >>> 8).toUInt8 ^^^ byte
  let code := code ^^^ (code >>> 4)
  (crc <<< 8) ^^^ (code.toUInt16 <<< 12) ^^^ (code.toUInt16 <<< 5) ^^^ code.toUInt16

theorem toBitVec_xmodemByte (crc : UInt16) (byte : UInt8) :
    (xmodemByte crc byte).toBitVec =
      folded ((crc.toBitVec >>> 8).setWidth 8 ^^^ byte.toBitVec) ^^^ (crc.toBitVec <<< 8) := by
  have hsame : (xmodemByte crc byte).toBitVec =
      (crc.toBitVec <<< 8) ^^^
        ((((crc.toBitVec >>> 8).setWidth 8 ^^^ byte.toBitVec) ^^^
          (((crc.toBitVec >>> 8).setWidth 8 ^^^ byte.toBitVec) >>> 4)).setWidth 16 <<< 12) ^^^
        ((((crc.toBitVec >>> 8).setWidth 8 ^^^ byte.toBitVec) ^^^
          (((crc.toBitVec >>> 8).setWidth 8 ^^^ byte.toBitVec) >>> 4)).setWidth 16 <<< 5) ^^^
        (((crc.toBitVec >>> 8).setWidth 8 ^^^ byte.toBitVec) ^^^
          (((crc.toBitVec >>> 8).setWidth 8 ^^^ byte.toBitVec) >>> 4)).setWidth 16 := rfl
  rw [hsame, folded]
  ac_rfl

/-- The byte of the register that falls out with the next byte. -/
theorem high_byte (crc : BitVec 16) (byte : BitVec 8) :
    (crc ^^^ (byte.setWidth 16 <<< 8)) >>> 8 <<< 8 =
      ((crc >>> 8).setWidth 8 ^^^ byte).setWidth 16 <<< 8 := by
  apply BitVec.eq_of_getLsbD_eq
  intro i hi
  simp only [BitVec.getLsbD_shiftLeft, BitVec.getLsbD_ushiftRight, BitVec.getLsbD_xor,
    BitVec.getLsbD_setWidth]
  by_cases hlow : i < 8
  · simp [hlow]
  · have hindex : 8 + (i - 8) = i := by omega
    have hbyte : i - 8 < 8 := by omega
    have hwide : i - 8 < 16 := by omega
    simp [hlow, hi, hindex, hbyte, hwide]

/-- The two steps of a byte agree. -/
theorem xmodemByte_eq (crc : UInt16) (byte : UInt8) :
    xmodemByte crc byte = zmodemByte crc byte := by
  apply UInt16.toBitVec_inj.mp
  have hinput : (crc ^^^ (byte.toUInt16 <<< 8)).toBitVec =
      crc.toBitVec ^^^ (byte.toBitVec.setWidth 16 <<< 8) := rfl
  have hout : byte.toBitVec.setWidth 16 <<< 8 <<< 8 = 0#16 := by
    rw [← BitVec.shiftLeft_add]
    exact BitVec.shiftLeft_eq_zero (by decide)
  have hmoved : (crc.toBitVec ^^^ (byte.toBitVec.setWidth 16 <<< 8)) <<< 8 =
      crc.toBitVec <<< 8 := by
    rw [BitVec.shiftLeft_xor_distrib, hout, BitVec.xor_zero]
  rw [toBitVec_xmodemByte, zmodemByte, toBitVec_repeat, hinput,
    steps_split crc16Polynomial (by decide), hmoved, high_byte, folded_eq]

/-- **The two checksums agree.** -/
theorem crc16Xmodem_eq_crc16 (bytes : List UInt8) :
    Ymodem.crc16Xmodem bytes = Zmodem.crc16 bytes := by
  have hstep : xmodemByte = zmodemByte := funext fun crc => funext (xmodemByte_eq crc)
  show bytes.foldl xmodemByte 0 = bytes.foldl zmodemByte 0
  rw [hstep]

end Netcatty.Serial
