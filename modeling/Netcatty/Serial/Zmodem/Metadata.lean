import Netcatty.Serial.FileName
import Netcatty.Serial.Zmodem.Codec

/-! # ZMODEM file metadata

A ZFILE subpacket carries a file's name, size, modification time and mode, and how much of the batch
is left.  `parseFileMetadata` reads back what `encodeFileMetadata` writes
(`parseFileMetadata_encodeFileMetadata`), and that fits the metadata limit
(`encodeFileMetadata_ok`). -/

namespace Netcatty.Serial.Zmodem

def maxU64 : ℕ := 2 ^ 64 - 1

/-! ### Names -/

def fallbackName : List Char := "zmodem-received.bin".toList

def sanitizeZmodemFilename (value : List Char) : Except Error (List Char) :=
  let sanitized := sanitizeFileName fallbackName value
  if (encodeUtf8 sanitized).length > maxFilenameBytes then .error (.filenameTooLong maxFilenameBytes)
  else .ok sanitized

theorem length_encodeUtf8_fallbackName :
    (encodeUtf8 fallbackName).length ≤ maxFilenameBytes := by decide

theorem zero_le_maxFileBytes : 0 ≤ maxFileBytes := Nat.zero_le _

theorem cleanName_fallbackName : CleanName fallbackName :=
  ⟨List.forall_iff_forall_mem.mp (by decide), by decide, by decide, by decide⟩

theorem sanitizeZmodemFilename_ok {value name : List Char}
    (h : sanitizeZmodemFilename value = .ok name) :
    CleanName name ∧ (encodeUtf8 name).length ≤ maxFilenameBytes := by
  unfold sanitizeZmodemFilename at h
  simp only at h
  split_ifs at h with hlen
  obtain rfl := Except.ok.inj h
  exact ⟨cleanName_sanitizeFileName cleanName_fallbackName value, by omega⟩

theorem sanitizeZmodemFilename_clean {name : List Char} (h : CleanName name)
    (hlen : (encodeUtf8 name).length ≤ maxFilenameBytes) :
    sanitizeZmodemFilename name = .ok name := by
  unfold sanitizeZmodemFilename
  simp only [h.sanitize]
  rw [if_neg (by omega)]

/-! ### Metadata -/

/-- What a sender offers a file under: its name is sanitized and its size fits an offset. -/
structure FileMetadata where
  fileName : List Char
  totalBytes : ℕ
  modifiedTime : UInt64
  mode : UInt32
  filesRemaining : Option ℕ
  bytesRemaining : Option ℕ
  fileName_clean : CleanName fileName
  fileName_le : (encodeUtf8 fileName).length ≤ maxFilenameBytes
  totalBytes_le : totalBytes ≤ maxFileBytes

def FileMetadata.new (fileName : List Char) (totalBytes : ℕ) (modifiedTime : UInt64)
    (mode : UInt32) : Except Error FileMetadata :=
  if h : totalBytes > maxFileBytes then .error (.fileTooLarge maxFileBytes)
  else
    match hname : sanitizeZmodemFilename fileName with
    | .error e => .error e
    | .ok name =>
      .ok {
        fileName := name
        totalBytes
        modifiedTime
        mode
        filesRemaining := none
        bytesRemaining := none
        fileName_clean := (sanitizeZmodemFilename_ok hname).1
        fileName_le := (sanitizeZmodemFilename_ok hname).2
        totalBytes_le := by omega }

/-! ### Encoding -/

def numeral (radix n : ℕ) : List UInt8 := (Nat.toDigits radix n).map fun c => UInt8.ofNat c.toNat

def encodeFileMetadata (m : FileMetadata) (filesRemaining bytesRemaining : ℕ) :
    Except Error (List UInt8) :=
  let mode := 0o100000 ||| (m.mode &&& 0o7777)
  let value := encodeUtf8 m.fileName ++ 0 :: (numeral 10 m.totalBytes ++
    0x20 :: (numeral 8 m.modifiedTime.toNat ++ 0x20 :: (numeral 8 mode.toNat ++
    0x20 :: 0x30 :: 0x20 :: (numeral 10 filesRemaining ++
    0x20 :: (numeral 10 bytesRemaining ++ [0])))))
  if value.length > maxMetadataBytes then .error (.metadataTooLarge maxMetadataBytes)
  else .ok value

/-! ### Parsing -/

def isAsciiWhitespace (byte : UInt8) : Bool :=
  byte == 0x20 || byte == 0x09 || byte == 0x0a || byte == 0x0c || byte == 0x0d

def splitAsciiWhitespace (bytes : List UInt8) : List (List UInt8) :=
  (bytes.splitOnP isAsciiWhitespace).filter fun part => !part.isEmpty

/-- The value of a digit below `radix`. -/
def isDigitBelow (radix : ℕ) (byte : UInt8) : Bool :=
  0x30 ≤ byte.toNat && byte.toNat < 0x30 + radix

/-- A plus sign may stand before a number. -/
def stripPlus : List UInt8 → List UInt8
  | 0x2b :: rest => rest
  | text => text

/-- An unsigned 64-bit number, in a radix of at most ten. -/
def parseU64 (radix : ℕ) (text : List UInt8) : Option ℕ :=
  let digits := stripPlus text
  if digits.isEmpty || !digits.all (isDigitBelow radix) then none
  else
    let value := Nat.ofDigitChars radix (digits.map fun byte => Char.ofNat byte.toNat) 0
    if value ≤ maxU64 then some value else none

def orInvalid {α : Type} : Option α → Except Error α
  | some a => .ok a
  | none => .error .invalidMetadata

def parseOptionalRadix (value : Option (List UInt8)) (radix : ℕ) : Except Error ℕ :=
  match value with
  | some text => orInvalid (parseU64 radix text)
  | none => .ok 0

def parseOptionalDecimal (value : Option (List UInt8)) : Except Error (Option ℕ) :=
  match value with
  | some text => (orInvalid (parseU64 10 text)).map some
  | none => .ok none

def parseFileMetadata (bytes : List UInt8) : Except Error FileMetadata :=
  if bytes.length > maxMetadataBytes then .error (.metadataTooLarge maxMetadataBytes)
  else if !bytes.contains 0 then .error .invalidMetadata
  else do
    let name ← orInvalid (decodeUtf8 (bytes.takeWhile (· ≠ 0)))
    let fields := ((bytes.dropWhile (· ≠ 0)).drop 1).takeWhile (· ≠ 0)
    let _ ← orInvalid (decodeUtf8 fields)
    let parts := splitAsciiWhitespace fields
    let total ← orInvalid parts[0]?
    let totalBytes ← orInvalid (parseU64 10 total)
    let modifiedTime ← parseOptionalRadix parts[1]? 8
    let mode ← parseOptionalRadix parts[2]? 8
    let mode ← if mode < 2 ^ 32 then Except.ok (UInt32.ofNat mode) else .error .invalidMetadata
    let filesRemaining ← parseOptionalDecimal parts[4]?
    let bytesRemaining ← parseOptionalDecimal parts[5]?
    if filesRemaining.any (· > maxBatchFiles) then .error (.invalidBatch maxBatchFiles)
    else if bytesRemaining.any (· > maxFileBytes * maxBatchFiles) then .error .batchSizeOverflow
    else
      (FileMetadata.new name totalBytes (UInt64.ofNat modifiedTime) mode).map fun metadata =>
        { metadata with filesRemaining, bytesRemaining }

/-! ### Round trip -/

theorem numeral_ne_nil (radix n : ℕ) : numeral radix n ≠ [] := by
  unfold numeral
  rw [ne_eq, List.map_eq_nil_iff]
  exact Nat.toDigits_ne_nil

theorem digitChar_cases {radix n : ℕ} (h₀ : 1 < radix) (h : radix ≤ 10) :
    ∀ c ∈ Nat.toDigits radix n, ∃ d < radix, c = Nat.digitChar d := by
  induction n using Nat.strongRecOn with
  | _ n ih =>
      intro c hc
      rw [Nat.toDigits_eq_if h₀] at hc
      split_ifs at hc with hlt
      · rw [List.mem_singleton] at hc
        exact ⟨n, hlt, hc⟩
      · rw [List.mem_append, List.mem_singleton] at hc
        rcases hc with hc | hc
        · exact ih (n / radix) (Nat.div_lt_self (by omega) h₀) c hc
        · exact ⟨n % radix, Nat.mod_lt n (by omega), hc⟩

/-- A numeral is made of digits. -/
theorem numeral_digits {radix n : ℕ} (h₀ : 1 < radix) (h : radix ≤ 10) :
    ∀ b ∈ numeral radix n, isDigitBelow radix b = true := by
  intro b hb
  unfold numeral at hb
  obtain ⟨c, hc, rfl⟩ := List.mem_map.mp hb
  obtain ⟨d, hd, rfl⟩ := digitChar_cases h₀ h c hc
  rw [Nat.toNat_digitChar_of_lt_ten (by omega)]
  simp [isDigitBelow]
  omega

theorem numeral_toChars {radix n : ℕ} (h₀ : 1 < radix) (h : radix ≤ 10) :
    (numeral radix n).map (fun byte => Char.ofNat byte.toNat) = Nat.toDigits radix n := by
  unfold numeral
  rw [List.map_map]
  conv_rhs => rw [← List.map_id (Nat.toDigits radix n)]
  refine List.map_congr_left fun c hc => ?_
  obtain ⟨d, hd, rfl⟩ := digitChar_cases h₀ h c hc
  have hnat := Nat.toNat_digitChar_of_lt_ten (n := d) (by omega)
  have hmod : (48 + d) % 256 = 48 + d := by omega
  simp only [Function.comp_apply, hnat, UInt8.toNat_ofNat', Nat.reducePow, hmod, id_eq]
  rw [← hnat]
  exact Char.ofNat_toNat _

theorem parseU64_numeral {radix n : ℕ} (h₀ : 1 < radix) (h : radix ≤ 10) (hn : n ≤ maxU64) :
    parseU64 radix (numeral radix n) = some n := by
  have hdigits := numeral_digits (n := n) h₀ h
  have hplus : stripPlus (numeral radix n) = numeral radix n := by
    unfold stripPlus
    split
    · rename_i rest hr
      have hmem := hdigits 0x2b (by rw [hr]; exact List.mem_cons_self)
      simp [isDigitBelow] at hmem
    · rfl
  have hempty : (numeral radix n).isEmpty = false := by
    rw [List.isEmpty_eq_false_iff]
    exact numeral_ne_nil radix n
  have hall : (numeral radix n).all (isDigitBelow radix) = true := List.all_eq_true.mpr hdigits
  unfold parseU64
  simp only [hplus, hempty, hall, numeral_toChars h₀ h, Nat.ofDigitChars_toDigits h₀ h]
  simp [hn]

/-- The fields after the name. -/
def metadataFields (m : FileMetadata) (mode : UInt32) (filesRemaining bytesRemaining : ℕ) :
    List UInt8 :=
  numeral 10 m.totalBytes ++ 0x20 :: (numeral 8 m.modifiedTime.toNat ++ 0x20 ::
    (numeral 8 mode.toNat ++ 0x20 :: ([0x30] ++ 0x20 :: (numeral 10 filesRemaining ++ 0x20 ::
      numeral 10 bytesRemaining))))

/-- The mode of a regular file that goes out on the wire. -/
def wireMode (m : FileMetadata) : UInt32 := 0o100000 ||| (m.mode &&& 0o7777)

theorem encodeFileMetadata_eq (m : FileMetadata) (filesRemaining bytesRemaining : ℕ) :
    encodeFileMetadata m filesRemaining bytesRemaining =
      let value := encodeUtf8 m.fileName ++ 0 ::
        (metadataFields m (wireMode m) filesRemaining bytesRemaining ++ [0])
      if value.length > maxMetadataBytes then .error (.metadataTooLarge maxMetadataBytes)
      else .ok value := by
  simp only [encodeFileMetadata, metadataFields, wireMode, List.append_assoc, List.cons_append,
    List.nil_append]

/-- Digits and spaces. -/
def isFieldByte (byte : UInt8) : Bool := isDigitBelow 10 byte || byte == 0x20

theorem isFieldByte_metadataFields (m : FileMetadata) (mode : UInt32) (filesRemaining
    bytesRemaining : ℕ) :
    ∀ b ∈ metadataFields m mode filesRemaining bytesRemaining, isFieldByte b = true := by
  have hdec : ∀ n, ∀ b ∈ numeral 10 n, isFieldByte b = true := by
    intro n b hb
    simp [isFieldByte, numeral_digits (by omega) (by omega) b hb]
  have hoct : ∀ n, ∀ b ∈ numeral 8 n, isFieldByte b = true := by
    intro n b hb
    have := numeral_digits (by omega) (by omega) b hb
    simp only [isDigitBelow, Bool.and_eq_true, decide_eq_true_eq] at this
    simp only [isFieldByte, isDigitBelow, Bool.or_eq_true, Bool.and_eq_true, decide_eq_true_eq]
    omega
  intro b hb
  simp only [metadataFields, List.mem_append, List.mem_cons, List.not_mem_nil, or_false] at hb
  rcases hb with hb | rfl | hb | rfl | hb | rfl | rfl | rfl | hb | rfl | hb
  all_goals first | rfl | exact hdec _ _ hb | exact hoct _ _ hb

/-- Fields are ASCII text. -/
theorem decodeUtf8_fields {bytes : List UInt8} (h : ∀ b ∈ bytes, isFieldByte b = true) :
    (decodeUtf8 bytes).isSome = true := by
  have hchar : ∀ b : UInt8, isFieldByte b = true →
      String.utf8EncodeChar (Char.ofNat b.toNat) = [b] := by
    have key : ∀ n < 256, isFieldByte (UInt8.ofNat n) = true →
        String.utf8EncodeChar (Char.ofNat (UInt8.ofNat n).toNat) = [UInt8.ofNat n] := by
      decide +kernel
    intro b hb
    have := key b.toNat b.toNat_lt
    rw [UInt8.ofNat_toNat] at this
    exact this hb
  have henc : encodeUtf8 (bytes.map fun b => Char.ofNat b.toNat) = bytes := by
    induction bytes with
    | nil => rfl
    | cons b bs ih =>
        have hb := hchar b (h b List.mem_cons_self)
        have ih := ih fun c hc => h c (List.mem_cons_of_mem b hc)
        unfold encodeUtf8 at ih ⊢
        rw [List.map_cons, List.flatMap_cons, hb, ih]
        rfl
  have hdec := decodeUtf8_encodeUtf8 (bytes.map fun b => Char.ofNat b.toNat)
  rw [henc] at hdec
  rw [hdec]
  rfl

theorem splitAsciiWhitespace_fields (m : FileMetadata) (mode : UInt32)
    (filesRemaining bytesRemaining : ℕ) :
    splitAsciiWhitespace (metadataFields m mode filesRemaining bytesRemaining) =
      [numeral 10 m.totalBytes, numeral 8 m.modifiedTime.toNat, numeral 8 mode.toNat, [0x30],
        numeral 10 filesRemaining, numeral 10 bytesRemaining] := by
  have hdigit : ∀ b, isDigitBelow 10 b = true → isAsciiWhitespace b = false := by
    intro b hb
    simp only [isDigitBelow, Bool.and_eq_true, decide_eq_true_eq] at hb
    simp only [isAsciiWhitespace, Bool.or_eq_false_iff, beq_eq_false_iff_ne]
    refine ⟨⟨⟨⟨?_, ?_⟩, ?_⟩, ?_⟩, ?_⟩ <;> (rintro rfl; simp at hb)
  have hdec : ∀ n, ∀ b ∈ numeral 10 n, isAsciiWhitespace b = false := fun n b hb =>
    hdigit b (numeral_digits (by omega) (by omega) b hb)
  have hoct : ∀ n, ∀ b ∈ numeral 8 n, isAsciiWhitespace b = false := by
    intro n b hb
    have := numeral_digits (by omega) (by omega) b hb
    simp only [isDigitBelow, Bool.and_eq_true, decide_eq_true_eq] at this
    refine hdigit b ?_
    simp only [isDigitBelow, Bool.and_eq_true, decide_eq_true_eq]
    omega
  have hserial : ∀ b ∈ [(0x30 : UInt8)], isAsciiWhitespace b = false :=
    List.forall_iff_forall_mem.mp (by decide)
  have hne : ∀ radix n, (numeral radix n).isEmpty = false := fun radix n =>
    List.isEmpty_eq_false_iff.mpr (numeral_ne_nil radix n)
  unfold splitAsciiWhitespace metadataFields
  rw [List.splitOnP_append_cons_of_forall_mem (hdec _) _ rfl,
    List.splitOnP_append_cons_of_forall_mem (hoct _) _ rfl,
    List.splitOnP_append_cons_of_forall_mem (hoct _) _ rfl,
    List.splitOnP_append_cons_of_forall_mem hserial _ rfl,
    List.splitOnP_append_cons_of_forall_mem (hdec _) _ rfl,
    List.splitOnP_eq_singleton (hdec _)]
  simp [hne]

/-- **Metadata is read back as it was written**, but for the mode bits of a regular file. -/
theorem parseFileMetadata_encodeFileMetadata {m : FileMetadata} {filesRemaining bytesRemaining : ℕ}
    {bytes : List UInt8} (h : encodeFileMetadata m filesRemaining bytesRemaining = .ok bytes)
    (hfiles : filesRemaining ≤ maxBatchFiles)
    (hbytes : bytesRemaining ≤ maxFileBytes * maxBatchFiles) :
    parseFileMetadata bytes = .ok { m with
      mode := wireMode m
      filesRemaining := some filesRemaining
      bytesRemaining := some bytesRemaining } := by
  rw [encodeFileMetadata_eq] at h
  simp only at h
  split_ifs at h with hlen
  obtain rfl := Except.ok.inj h
  have hname : ∀ b ∈ encodeUtf8 m.fileName, decide (b ≠ 0) = true := by
    intro b hb
    rw [decide_eq_true_eq]
    rintro rfl
    exact zero_notMem_encodeUtf8 m.fileName_clean.ne_nul hb
  have hfields : ∀ b ∈ metadataFields m (wireMode m) filesRemaining bytesRemaining,
      decide (b ≠ 0) = true := by
    intro b hb
    have := isFieldByte_metadataFields m (wireMode m) filesRemaining bytesRemaining b hb
    rw [decide_eq_true_eq]
    rintro rfl
    simp [isFieldByte, isDigitBelow] at this
  have htake : ∀ {front : List UInt8} (rest : List UInt8), (∀ b ∈ front, decide (b ≠ 0) = true) →
      (front ++ 0 :: rest).takeWhile (· ≠ 0) = front ∧
        (front ++ 0 :: rest).dropWhile (· ≠ 0) = 0 :: rest := by
    intro front rest hf
    rw [List.takeWhile_append_of_pos hf, List.dropWhile_append_of_pos hf]
    simp
  obtain ⟨hname₁, hname₂⟩ := htake (metadataFields m (wireMode m) filesRemaining
    bytesRemaining ++ [0]) hname
  have hfields₁ := (htake [] hfields).1
  have hutf8 := decodeUtf8_fields (isFieldByte_metadataFields m (wireMode m) filesRemaining
    bytesRemaining)
  obtain ⟨text, htext⟩ := Option.isSome_iff_exists.mp hutf8
  have htotal : parseU64 10 (numeral 10 m.totalBytes) = some m.totalBytes :=
    parseU64_numeral (by omega) (by omega)
      (m.totalBytes_le.trans (show maxFileBytes ≤ maxU64 by decide))
  have htime : parseU64 8 (numeral 8 m.modifiedTime.toNat) = some m.modifiedTime.toNat := by
    have := m.modifiedTime.toNat_lt
    exact parseU64_numeral (by omega) (by omega) (by unfold maxU64; omega)
  have hmode : parseU64 8 (numeral 8 (wireMode m).toNat) = some (wireMode m).toNat := by
    have := (wireMode m).toNat_lt
    exact parseU64_numeral (by omega) (by omega) (by unfold maxU64; omega)
  have hfilesParsed : parseU64 10 (numeral 10 filesRemaining) = some filesRemaining :=
    parseU64_numeral (by omega) (by omega)
      (hfiles.trans (show maxBatchFiles ≤ maxU64 by decide))
  have hbytesParsed : parseU64 10 (numeral 10 bytesRemaining) = some bytesRemaining :=
    parseU64_numeral (by omega) (by omega)
      (hbytes.trans (show maxFileBytes * maxBatchFiles ≤ maxU64 by decide))
  have hmodeLt : (wireMode m).toNat < 2 ^ 32 := (wireMode m).toNat_lt
  have hcontains : (encodeUtf8 m.fileName ++ 0 :: (metadataFields m (wireMode m) filesRemaining
      bytesRemaining ++ [0])).contains 0 = true := by simp
  have hnew : FileMetadata.new m.fileName m.totalBytes m.modifiedTime (wireMode m) =
      .ok { m with mode := wireMode m, filesRemaining := none, bytesRemaining := none } := by
    have hsanitize := sanitizeZmodemFilename_clean m.fileName_clean m.fileName_le
    unfold FileMetadata.new
    rw [dif_neg (by have := m.totalBytes_le; omega)]
    split
    · rename_i e he
      rw [hsanitize] at he
      simp at he
    · rename_i name hn
      rw [hsanitize] at hn
      obtain rfl := Except.ok.inj hn
      rfl
  unfold parseFileMetadata
  rw [if_neg hlen, hcontains]
  simp only [Bool.not_true, Bool.false_eq_true, if_false, hname₁, hname₂, List.drop_one,
    List.tail_cons, hfields₁, decodeUtf8_encodeUtf8, htext, splitAsciiWhitespace_fields, orInvalid,
    bind, Except.bind, List.getElem?_cons_zero, List.getElem?_cons_succ, htotal,
    parseOptionalRadix, htime, hmode, if_pos hmodeLt, parseOptionalDecimal, hfilesParsed,
    hbytesParsed, Except.map, Option.any_some, decide_eq_true_eq, if_neg (Nat.not_lt.mpr hfiles),
    if_neg (Nat.not_lt.mpr hbytes), UInt64.ofNat_toNat, UInt32.ofNat_toNat, hnew, gt_iff_lt]

/-- **Metadata always fits its subpacket.** -/
theorem encodeFileMetadata_ok (m : FileMetadata) {filesRemaining bytesRemaining : ℕ}
    (hfiles : filesRemaining ≤ maxBatchFiles)
    (hbytes : bytesRemaining ≤ maxFileBytes * maxBatchFiles) :
    ∃ bytes, encodeFileMetadata m filesRemaining bytesRemaining = .ok bytes ∧
      bytes.length ≤ maxSubpacketBytes := by
  have hdec : ∀ n, n ≤ maxU64 → (numeral 10 n).length ≤ 22 := by
    intro n hn
    unfold numeral
    rw [List.length_map, Nat.length_toDigits_le_iff (by omega) (by omega)]
    unfold maxU64 at hn
    omega
  have hoct : ∀ n, n ≤ maxU64 → (numeral 8 n).length ≤ 22 := by
    intro n hn
    unfold numeral
    rw [List.length_map, Nat.length_toDigits_le_iff (by omega) (by omega)]
    unfold maxU64 at hn
    omega
  have htotal := hdec m.totalBytes (m.totalBytes_le.trans (show maxFileBytes ≤ maxU64 by decide))
  have htime := hoct m.modifiedTime.toNat (by
    have := m.modifiedTime.toNat_lt
    unfold maxU64
    omega)
  have hmode := hoct (wireMode m).toNat (by
    have := (wireMode m).toNat_lt
    unfold maxU64
    omega)
  have hf := hdec filesRemaining (hfiles.trans (show maxBatchFiles ≤ maxU64 by decide))
  have hb := hdec bytesRemaining
    (hbytes.trans (show maxFileBytes * maxBatchFiles ≤ maxU64 by decide))
  have hname := m.fileName_le
  rw [encodeFileMetadata_eq]
  simp only
  have hlen : (encodeUtf8 m.fileName ++ 0 :: (metadataFields m (wireMode m) filesRemaining
      bytesRemaining ++ [0])).length ≤ maxMetadataBytes := by
    unfold maxFilenameBytes at hname
    unfold maxMetadataBytes metadataFields
    simp only [List.length_append, List.length_cons, List.length_nil]
    omega
  rw [if_neg (by omega)]
  refine ⟨_, rfl, hlen.trans (show maxMetadataBytes ≤ maxSubpacketBytes by decide)⟩

end Netcatty.Serial.Zmodem
