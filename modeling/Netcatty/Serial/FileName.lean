import Mathlib.Data.List.DropRight
import Mathlib.Tactic.Common

/-! # File names on the wire

YMODEM and ZMODEM offer a file under a name that must not leave the download directory:
`sanitizeFileName` keeps the last path component, replaces control and reserved characters, trims
it, and falls back to a fixed name.  A sanitized name holds no NUL (`CleanName.ne_nul`), so it
survives its NUL-terminated encoding (`decodeUtf8_encodeUtf8`, `zero_notMem_encodeUtf8`). -/

namespace Netcatty.Serial

/-- Texts are equal if their characters are. -/
instance instLawfulBEqText : LawfulBEq (List Char) := inferInstance

/-! ### UTF-8 -/

def encodeUtf8 (chars : List Char) : List UInt8 := chars.flatMap String.utf8EncodeChar

def decodeUtf8 (bytes : List UInt8) : Option (List Char) :=
  (ByteArray.utf8Decode? ⟨bytes.toArray⟩).map Array.toList

theorem decodeUtf8_encodeUtf8 (chars : List Char) : decodeUtf8 (encodeUtf8 chars) = some chars := by
  have h : (⟨(encodeUtf8 chars).toArray⟩ : ByteArray) = chars.utf8Encode := by
    apply ByteArray.ext
    rw [List.utf8Encode, List.data_toByteArray]
    rfl
  unfold decodeUtf8
  rw [h, List.utf8Decode?_utf8Encode]
  rfl

theorem encodeUtf8_inj {chars chars' : List Char} (h : encodeUtf8 chars = encodeUtf8 chars') :
    chars = chars' := by
  have hdecode := congrArg decodeUtf8 h
  rw [decodeUtf8_encodeUtf8, decodeUtf8_encodeUtf8] at hdecode
  exact Option.some.inj hdecode

theorem encodeUtf8_of_decodeUtf8 {bytes : List UInt8} {chars : List Char}
    (h : decodeUtf8 bytes = some chars) : encodeUtf8 chars = bytes := by
  obtain ⟨decoded, hdecoded, rfl⟩ := Option.map_eq_some_iff.mp h
  have hencode := ByteArray.utf8Encode_get_utf8Decode? (b := ⟨bytes.toArray⟩)
    (h := by rw [hdecoded]; rfl)
  simp only [hdecoded, Option.get_some, List.utf8Encode] at hencode
  have hdata := congrArg (fun array : ByteArray => array.data.toList) hencode
  simpa only [encodeUtf8, List.data_toByteArray] using hdata

/-- An ASCII byte only encodes its own character. -/
theorem ascii_notMem_utf8EncodeChar {b : ℕ} (hb : b < 0x80) {c : Char} (h : c.toNat ≠ b) :
    UInt8.ofNat b ∉ String.utf8EncodeChar c := by
  have hval : c.val.toNat ≠ b := h
  have hne : ∀ n : ℕ, n % 256 ≠ b → UInt8.ofNat b ≠ UInt8.ofNat n := by
    intro n hn hbyte
    apply hn
    have := congrArg UInt8.toNat hbyte
    rw [UInt8.toNat_ofNat', UInt8.toNat_ofNat'] at this
    omega
  unfold String.utf8EncodeChar
  simp only
  split_ifs with h₁ h₂ h₃
  · simp only [List.mem_singleton]
    exact hne _ (by omega)
  · simp only [List.mem_cons, List.not_mem_nil, or_false, not_or]
    exact ⟨hne _ (by omega), hne _ (by omega)⟩
  · simp only [List.mem_cons, List.not_mem_nil, or_false, not_or]
    exact ⟨hne _ (by omega), hne _ (by omega), hne _ (by omega)⟩
  · simp only [List.mem_cons, List.not_mem_nil, or_false, not_or]
    exact ⟨hne _ (by omega), hne _ (by omega), hne _ (by omega), hne _ (by omega)⟩

theorem ascii_notMem_encodeUtf8 {b : ℕ} (hb : b < 0x80) {chars : List Char}
    (h : ∀ c ∈ chars, c.toNat ≠ b) : UInt8.ofNat b ∉ encodeUtf8 chars := by
  unfold encodeUtf8
  rw [List.mem_flatMap]
  rintro ⟨c, hc, hmem⟩
  exact ascii_notMem_utf8EncodeChar hb (h c hc) hmem

/-- A NUL byte only encodes the NUL character. -/
theorem zero_notMem_encodeUtf8 {chars : List Char} (h : ∀ c ∈ chars, c.toNat ≠ 0) :
    (0 : UInt8) ∉ encodeUtf8 chars := ascii_notMem_encodeUtf8 (b := 0) (by omega) h

/-! ### Sanitizing -/

/-- Unicode category Cc. -/
def isControl (c : Char) : Bool := c.toNat < 0x20 || (0x7f ≤ c.toNat && c.toNat ≤ 0x9f)

/-- Unicode property White_Space. -/
def isWhitespace (c : Char) : Bool :=
  (9 ≤ c.toNat && c.toNat ≤ 13) || c.toNat == 0x20 || c.toNat == 0x85 || c.toNat == 0xa0 ||
    c.toNat == 0x1680 || (0x2000 ≤ c.toNat && c.toNat ≤ 0x200a) || c.toNat == 0x2028 ||
    c.toNat == 0x2029 || c.toNat == 0x202f || c.toNat == 0x205f || c.toNat == 0x3000

/-- Characters that a file system reserves. -/
def isReserved (c : Char) : Bool := ['<', '>', ':', '"', '/', '\\', '|', '?', '*'].contains c

def trim (chars : List Char) : List Char := (chars.dropWhile isWhitespace).rdropWhile isWhitespace

/-- The part after the last path separator, of either kind. -/
def baseName (chars : List Char) : List Char :=
  let normalized := chars.map fun c => if c = '\\' then '/' else c
  normalized.rtakeWhile (· ≠ '/')

def sanitizeFileName (fallback value : List Char) : List Char :=
  let sanitized := trim ((baseName value).map fun c => if isControl c || isReserved c then '_' else c)
  if sanitized = [] ∨ sanitized = ['.'] ∨ sanitized = ['.', '.'] then fallback else sanitized

/-- What sanitizing leaves alone. -/
structure CleanName (name : List Char) : Prop where
  no_special : ∀ c ∈ name, isControl c = false ∧ isReserved c = false
  no_leading : name.dropWhile isWhitespace = name
  no_trailing : name.rdropWhile isWhitespace = name
  not_dots : name ≠ [] ∧ name ≠ ['.'] ∧ name ≠ ['.', '.']

theorem CleanName.sanitize {name : List Char} (h : CleanName name) (fallback : List Char) :
    sanitizeFileName fallback name = name := by
  have hsep : ∀ c ∈ name, c ≠ '\\' ∧ c ≠ '/' := by
    intro c hc
    have := (h.no_special c hc).2
    constructor <;> (rintro rfl; exact absurd this (by decide))
  have hnormalized : (name.map fun c => if c = '\\' then '/' else c) = name := by
    conv_rhs => rw [← List.map_id name]
    exact List.map_congr_left fun c hc => if_neg (hsep c hc).1
  have hbase : baseName name = name := by
    unfold baseName
    simp only [hnormalized]
    rw [List.rtakeWhile_eq_self_iff]
    intro c hc
    simpa using (hsep c hc).2
  have hmap : (name.map fun c => if isControl c || isReserved c then '_' else c) = name := by
    conv_rhs => rw [← List.map_id name]
    refine List.map_congr_left fun c hc => ?_
    obtain ⟨hc₁, hc₂⟩ := h.no_special c hc
    simp [hc₁, hc₂]
  have htrim : trim name = name := by
    unfold trim
    rw [h.no_leading, h.no_trailing]
  obtain ⟨h₁, h₂, h₃⟩ := h.not_dots
  simp only [sanitizeFileName, hbase, hmap, htrim, h₁, h₂, h₃, or_self, if_false]

theorem dropWhile_trim (chars : List Char) :
    (trim chars).dropWhile isWhitespace = trim chars := by
  have hbegins : trim chars <+: chars.dropWhile isWhitespace := List.rdropWhile_prefix _ _
  cases ht : trim chars with
  | nil => rfl
  | cons c cs =>
      rw [ht] at hbegins
      obtain ⟨rest, hrest⟩ := hbegins
      rw [List.dropWhile_cons_of_neg]
      have hlen : 0 < (chars.dropWhile isWhitespace).length := by
        rw [← hrest]
        simp
      have hnot := List.dropWhile_get_zero_not isWhitespace chars hlen
      simpa [← hrest] using hnot

theorem trim_trim (chars : List Char) : trim (trim chars) = trim chars := by
  conv_lhs => rw [trim, dropWhile_trim]
  exact List.rdropWhile_idempotent _ _

/-- Sanitizing gives a clean name, if the fallback is one. -/
theorem cleanName_sanitizeFileName {fallback : List Char} (hf : CleanName fallback)
    (value : List Char) : CleanName (sanitizeFileName fallback value) := by
  unfold sanitizeFileName
  simp only
  split_ifs with h
  · exact hf
  · rw [not_or, not_or] at h
    refine ⟨fun c hc => ?_, dropWhile_trim _, List.rdropWhile_idempotent _ _, h⟩
    have hmem : c ∈ (baseName value).map fun c => if isControl c || isReserved c then '_' else c := by
      have h₁ := (List.rdropWhile_prefix isWhitespace _).subset hc
      exact (List.dropWhile_suffix isWhitespace).subset h₁
    obtain ⟨d, -, rfl⟩ := List.mem_map.mp hmem
    cases hd : isControl d || isReserved d with
    | true => exact ⟨rfl, rfl⟩
    | false =>
        rw [Bool.or_eq_false_iff] at hd
        simpa using hd

theorem CleanName.ne_nul {name : List Char} (h : CleanName name) : ∀ c ∈ name, c.toNat ≠ 0 := by
  intro c hc h0
  have := (h.no_special c hc).1
  simp [isControl, h0] at this

end Netcatty.Serial
