import Netcatty.Secret.Envelope
import Netcatty.Vault.Names

/-! # What serde writes

Digests are written in lower case hexadecimal digits, which are read back
(`decodeHex_hexEncode`), and numbers and texts as the scalars of a JSON document. -/

set_option maxRecDepth 8000

namespace Netcatty.Secret

open Vault

/-! ### Hexadecimal digits -/

def hexDigit (n : ℕ) : Char := if n < 10 then Char.ofNat (48 + n) else Char.ofNat (87 + n)

def hexEncode (bytes : Bytes) : Text :=
  bytes.flatMap fun byte => [hexDigit (byte.toNat / 16), hexDigit (byte.toNat % 16)]

def decodeNibble (c : Char) : Option UInt8 :=
  if c.isDigit then some (UInt8.ofNat (c.toNat - 48))
  else if 'a' ≤ c ∧ c ≤ 'f' then some (UInt8.ofNat (c.toNat - 87))
  else none

def decodeHex : Text → Option Bytes
  | [] => some []
  | [_] => none
  | high :: low :: rest => do
    let high ← decodeNibble high
    let low ← decodeNibble low
    let bytes ← decodeHex rest
    return (high <<< 4 ||| low) :: bytes

theorem hexDigit_isLowerHex {n : ℕ} (h : n < 16) : isLowerHex (hexDigit n) = true ∧
    (hexDigit n).utf8Size = 1 ∧ decodeNibble (hexDigit n) = some (UInt8.ofNat n) := by
  decide +revert

theorem high_low (byte : UInt8) :
    UInt8.ofNat (byte.toNat / 16) <<< 4 ||| UInt8.ofNat (byte.toNat % 16) = byte := by
  have h : ∀ n : Fin 256, UInt8.ofNat ((UInt8.ofNat n).toNat / 16) <<< 4 |||
      UInt8.ofNat ((UInt8.ofNat n).toNat % 16) = UInt8.ofNat n := by
    decide
  have hbyte := h ⟨byte.toNat, byte.toNat_lt⟩
  rwa [UInt8.ofNat_toNat] at hbyte

theorem decodeHex_hexEncode (bytes : Bytes) : decodeHex (hexEncode bytes) = some bytes := by
  induction bytes with
  | nil => rfl
  | cons byte bytes ih =>
      have hbyte := byte.toNat_lt
      have hhigh := hexDigit_isLowerHex (n := byte.toNat / 16) (by omega)
      have hlow := hexDigit_isLowerHex (n := byte.toNat % 16) (by omega)
      change decodeHex (hexDigit (byte.toNat / 16) :: hexDigit (byte.toNat % 16) ::
        hexEncode bytes) = _
      simp [decodeHex, hhigh.2.2, hlow.2.2, ih, high_low]

/-! ### JSON -/

inductive JsonScalar
  | string (value : Text)
  | number (value : ℕ)

def escapeChar (c : Char) : Text :=
  if c = '"' then ['\\', '"']
  else if c = '\\' then ['\\', '\\']
  else if c.toNat = 8 then ['\\', 'b']
  else if c.toNat = 9 then ['\\', 't']
  else if c.toNat = 10 then ['\\', 'n']
  else if c.toNat = 12 then ['\\', 'f']
  else if c.toNat = 13 then ['\\', 'r']
  else if c.toNat < 32 then "\\u00".toList ++ [hexDigit (c.toNat / 16), hexDigit (c.toNat % 16)]
  else [c]

def JsonScalar.toText : JsonScalar → Text
  | string value => '"' :: value.flatMap escapeChar ++ ['"']
  | number value => Nat.toDigits 10 value

end Netcatty.Secret
