import Netcatty.Serial.Zmodem.Metadata

/-! # YMODEM file headers

Block 0 of a YMODEM batch names the next file and its size, and an empty name ends the batch.
`createFileHeader` always finds a packet size that its text fits (`createFileHeader_ok`), and
`parseFileHeader` reads the name and the size back from the payload, whatever room is left after
the text (`parseFileHeader_padded`). -/

namespace Netcatty.Serial.Ymodem

open Zmodem (numeral parseU64 isDigitBelow isAsciiWhitespace)

def maxFilenameBytes : ℕ := 255
/-- The largest integer that a double holds exactly. -/
def maxFileBytes : ℕ := 2 ^ 53 - 1

inductive PacketSize where
  | bytes128
  | bytes1024
deriving DecidableEq, Repr

def PacketSize.payloadBytes : PacketSize → ℕ
  | bytes128 => 128
  | bytes1024 => 1024

/-- SOH or STX. -/
def PacketSize.header : PacketSize → UInt8
  | bytes128 => 0x01
  | bytes1024 => 0x02

inductive Error where
  | filenameTooLong (maximumBytes : ℕ)
  | metadataTooLarge (maximumBytes : ℕ)
  | fileTooLarge (maximumBytes : ℕ)
  | invalidFileSize
  | invalidPacketPayload (expected actual : ℕ)
deriving DecidableEq, Repr

/-! ### Names -/

def fallbackName : List Char := "ymodem-received.bin".toList

def sanitizeYmodemFilename (value : List Char) : Except Error (List Char) :=
  let sanitized := sanitizeFileName fallbackName value
  if (encodeUtf8 sanitized).length > maxFilenameBytes then
    .error (.filenameTooLong maxFilenameBytes)
  else .ok sanitized

theorem cleanName_fallbackName : CleanName fallbackName :=
  ⟨List.forall_iff_forall_mem.mp (by decide), by decide, by decide, by decide⟩

theorem sanitizeYmodemFilename_ok {value name : List Char}
    (h : sanitizeYmodemFilename value = .ok name) :
    CleanName name ∧ (encodeUtf8 name).length ≤ maxFilenameBytes := by
  unfold sanitizeYmodemFilename at h
  simp only at h
  split_ifs at h with hlen
  obtain rfl := Except.ok.inj h
  exact ⟨cleanName_sanitizeFileName cleanName_fallbackName value, by omega⟩

theorem sanitizeYmodemFilename_clean {name : List Char} (h : CleanName name)
    (hlen : (encodeUtf8 name).length ≤ maxFilenameBytes) :
    sanitizeYmodemFilename name = .ok name := by
  unfold sanitizeYmodemFilename
  simp only [h.sanitize]
  rw [if_neg (by omega)]

/-! ### Metadata -/

/-- What a sender offers a file under: its name is sanitized and its size fits a double. -/
structure FileMetadata where
  fileName : List Char
  totalBytes : ℕ
  modifiedTime : UInt64
  mode : UInt32
  fileName_clean : CleanName fileName
  fileName_le : (encodeUtf8 fileName).length ≤ maxFilenameBytes
  totalBytes_le : totalBytes ≤ maxFileBytes

def FileMetadata.new (fileName : List Char) (totalBytes : ℕ) (modifiedTime : UInt64)
    (mode : UInt32) : Except Error FileMetadata :=
  if h : totalBytes > maxFileBytes then .error (.fileTooLarge maxFileBytes)
  else
    match hname : sanitizeYmodemFilename fileName with
    | .error e => .error e
    | .ok name =>
      .ok {
        fileName := name
        totalBytes
        modifiedTime
        mode
        fileName_clean := (sanitizeYmodemFilename_ok hname).1
        fileName_le := (sanitizeYmodemFilename_ok hname).2
        totalBytes_le := by omega }

theorem FileMetadata.new_ok {fileName : List Char} {totalBytes : ℕ} {modifiedTime : UInt64}
    {mode : UInt32} {m : FileMetadata} (h : new fileName totalBytes modifiedTime mode = .ok m) :
    sanitizeYmodemFilename fileName = .ok m.fileName ∧ m.totalBytes = totalBytes ∧
      m.modifiedTime = modifiedTime ∧ m.mode = mode := by
  unfold new at h
  split at h
  · cases h
  · split at h
    · cases h
    · rename_i name hname
      obtain rfl := Except.ok.inj h
      exact ⟨hname, rfl, rfl, rfl⟩

/-! ### Packets -/

def crc16Xmodem (bytes : List UInt8) : UInt16 :=
  bytes.foldl (fun (crc : UInt16) (byte : UInt8) =>
    let code := (crc >>> 8).toUInt8 ^^^ byte
    let code := code ^^^ (code >>> 4)
    (crc <<< 8) ^^^ (code.toUInt16 <<< 12) ^^^ (code.toUInt16 <<< 5) ^^^ code.toUInt16) 0

def encodePacket (packetSize : PacketSize) (blockNumber : UInt8) (payload : List UInt8) :
    Except Error (List UInt8) :=
  let expected := packetSize.payloadBytes
  if payload.length ≠ expected then .error (.invalidPacketPayload expected payload.length)
  else
    let crc := crc16Xmodem payload
    .ok (packetSize.header :: blockNumber :: (0xff - blockNumber) ::
      (payload ++ [(crc >>> 8).toUInt8, crc.toUInt8]))

/-- What a packet carries between its three header bytes and its checksum. -/
def packetPayload (packet : List UInt8) : List UInt8 := (packet.drop 3).dropLast.dropLast

theorem encodePacket_ok {packetSize : PacketSize} {payload : List UInt8}
    (h : payload.length = packetSize.payloadBytes) (blockNumber : UInt8) :
    ∃ packet, encodePacket packetSize blockNumber payload = .ok packet ∧
      packetPayload packet = payload := by
  unfold encodePacket
  simp only
  rw [if_neg (not_not.mpr h)]
  refine ⟨_, rfl, ?_⟩
  unfold packetPayload
  rw [List.drop_succ_cons, List.drop_succ_cons, List.drop_succ_cons, List.drop_zero,
    List.dropLast_append_of_ne_nil (List.cons_ne_nil _ _)]
  simp

/-! ### File headers -/

def headerText (m : FileMetadata) : List UInt8 :=
  encodeUtf8 m.fileName ++ 0 :: (numeral 10 m.totalBytes ++
    0x20 :: (numeral 8 m.modifiedTime.toNat ++ 0x20 :: numeral 8 m.mode.toNat))

/-- A payload of zeros with a text at its start. -/
def padded (packetSize : PacketSize) (text : List UInt8) : List UInt8 :=
  text ++ List.replicate (packetSize.payloadBytes - text.length) 0

def createFileHeader (m : FileMetadata) : Except Error (List UInt8) :=
  let bytes := headerText m
  if bytes.length > 1024 then .error (.metadataTooLarge 1024)
  else
    let packetSize := if bytes.length ≥ 128 then PacketSize.bytes1024 else .bytes128
    encodePacket packetSize 0 (padded packetSize bytes)

/-- Whether `second` may follow `first` in a sequence of three or four bytes. -/
def isSecondByte (first second : UInt8) : Bool :=
  if first = 0xe0 then 0xa0 ≤ second && second ≤ 0xbf
  else if first = 0xed then 0x80 ≤ second && second ≤ 0x9f
  else if 0xe1 ≤ first && first ≤ 0xef then 0x80 ≤ second && second ≤ 0xbf
  else if first = 0xf0 then 0x90 ≤ second && second ≤ 0xbf
  else if 0xf1 ≤ first && first ≤ 0xf3 then 0x80 ≤ second && second ≤ 0xbf
  else if first = 0xf4 then 0x80 ≤ second && second ≤ 0x8f
  else false

/-- How many bytes one replacement character stands for: the longest beginning of a well-formed
sequence, or one byte. -/
def illFormedLength : List UInt8 → ℕ
  | first :: second :: rest =>
    if !isSecondByte first second then 1
    else if 0xf0 ≤ first && rest.head?.any (fun third => 0x80 ≤ third && third ≤ 0xbf) then 3
    else 2
  | _ => 1

theorem illFormedLength_pos (bytes : List UInt8) : 0 < illFormedLength bytes := by
  unfold illFormedLength
  split
  · split_ifs <;> omega
  · omega

def fromUtf8Lossy (bytes : List UInt8) : List Char :=
  match bytes with
  | [] => []
  | first :: rest =>
    match ByteArray.utf8DecodeChar? ⟨(first :: rest).toArray⟩ 0 with
    | some c => c :: fromUtf8Lossy ((first :: rest).drop c.utf8Size)
    | none => '\ufffd' :: fromUtf8Lossy ((first :: rest).drop (illFormedLength (first :: rest)))
termination_by bytes.length
decreasing_by
  · have := c.utf8Size_pos
    rw [List.length_drop, List.length_cons]
    omega
  · have := illFormedLength_pos (first :: rest)
    rw [List.length_drop, List.length_cons]
    omega

/-- Well-formed text has nothing to replace. -/
theorem fromUtf8Lossy_encodeUtf8 (chars : List Char) :
    fromUtf8Lossy (encodeUtf8 chars) = chars := by
  induction chars with
  | nil => rw [encodeUtf8, List.flatMap_nil, fromUtf8Lossy]
  | cons c cs ih =>
      have hcons : encodeUtf8 (c :: cs) = String.utf8EncodeChar c ++ encodeUtf8 cs :=
        List.flatMap_cons
      have hdecode : ByteArray.utf8DecodeChar? ⟨(encodeUtf8 (c :: cs)).toArray⟩ 0 = some c := by
        have happend : (⟨(encodeUtf8 (c :: cs)).toArray⟩ : ByteArray) =
            (String.utf8EncodeChar c).toByteArray ++ (encodeUtf8 cs).toByteArray := by
          rw [hcons, ← List.toByteArray_append]
          exact ByteArray.ext List.data_toByteArray.symm
        rw [happend, ByteArray.utf8DecodeChar?_utf8EncodeChar_append]
      have hdrop : (encodeUtf8 (c :: cs)).drop c.utf8Size = encodeUtf8 cs := by
        rw [hcons, ← String.length_utf8EncodeChar c, List.drop_left]
      obtain ⟨first, rest, hbytes⟩ : ∃ first rest, encodeUtf8 (c :: cs) = first :: rest := by
        refine List.exists_cons_of_ne_nil fun hnil => ?_
        have hlen := congrArg List.length (hcons.symm.trans hnil)
        rw [List.length_append, String.length_utf8EncodeChar] at hlen
        have := c.utf8Size_pos
        simp only [List.length_nil] at hlen
        omega
      rw [hbytes] at hdecode hdrop
      rw [hbytes, fromUtf8Lossy, hdecode]
      simp only
      rw [hdrop, ih]

def orInvalidSize {α : Type} : Option α → Except Error α
  | some a => .ok a
  | none => .error .invalidFileSize

def isAsciiDigit (byte : UInt8) : Bool := isDigitBelow 10 byte

/-- The size before the first blank of the fields, which end at a NUL. -/
def parseSize (metadata : List UInt8) : Except Error ℕ :=
  let sizeText := (metadata.takeWhile (· ≠ 0)).takeWhile (!isAsciiWhitespace ·)
  if sizeText.isEmpty || !sizeText.all isAsciiDigit then .error .invalidFileSize
  else do
    let _ ← orInvalidSize (decodeUtf8 sizeText)
    orInvalidSize (parseU64 10 sizeText)

/-- `none` is the header that ends a batch. -/
def parseFileHeader (payload : List UInt8) : Except Error (Option FileMetadata) :=
  if payload.length ≠ 128 ∧ payload.length ≠ 1024 then
    .error (.invalidPacketPayload 128 payload.length)
  else
    let rawName := payload.takeWhile (· ≠ 0)
    if rawName.isEmpty then .ok none
    else
      match hname : sanitizeYmodemFilename (fromUtf8Lossy rawName) with
      | .error e => .error e
      | .ok fileName =>
        match parseSize ((payload.dropWhile (· ≠ 0)).drop 1) with
        | .error e => .error e
        | .ok totalBytes =>
          if h : totalBytes > maxFileBytes then .error (.fileTooLarge maxFileBytes)
          else
            .ok (some {
              fileName
              totalBytes
              modifiedTime := 0
              mode := 0
              fileName_clean := (sanitizeYmodemFilename_ok hname).1
              fileName_le := (sanitizeYmodemFilename_ok hname).2
              totalBytes_le := by omega })

/-! ### Round trip -/

theorem length_headerText_le (m : FileMetadata) : (headerText m).length ≤ 1024 := by
  have hnumeral : ∀ radix n, 8 ≤ radix → n ≤ Zmodem.maxU64 → (numeral radix n).length ≤ 22 := by
    intro radix n hradix hn
    unfold numeral
    rw [List.length_map, Nat.length_toDigits_le_iff (by omega) (by omega)]
    calc n ≤ Zmodem.maxU64 := hn
      _ < 8 ^ 22 := by decide
      _ ≤ radix ^ 22 := Nat.pow_le_pow_left hradix 22
  have htotal := hnumeral 10 m.totalBytes (by omega)
    (m.totalBytes_le.trans (show maxFileBytes ≤ Zmodem.maxU64 by decide))
  have htime := hnumeral 8 m.modifiedTime.toNat (by omega) (by
    have := m.modifiedTime.toNat_lt
    unfold Zmodem.maxU64
    omega)
  have hmode := hnumeral 8 m.mode.toNat (by omega) (by
    have := m.mode.toNat_lt
    unfold Zmodem.maxU64
    omega)
  have hname := m.fileName_le
  unfold maxFilenameBytes at hname
  unfold headerText
  simp only [List.length_append, List.length_cons]
  omega

theorem length_padded {packetSize : PacketSize} {text : List UInt8}
    (h : text.length ≤ packetSize.payloadBytes) :
    (padded packetSize text).length = packetSize.payloadBytes := by
  unfold padded
  rw [List.length_append, List.length_replicate]
  omega

/-- **A header always fits a packet.** -/
theorem createFileHeader_ok (m : FileMetadata) :
    ∃ packetSize packet, createFileHeader m = .ok packet ∧
      (headerText m).length ≤ packetSize.payloadBytes ∧
      packetPayload packet = padded packetSize (headerText m) := by
  have hlen := length_headerText_le m
  obtain ⟨packetSize, hsize, hfits⟩ : ∃ packetSize : PacketSize,
      (if (headerText m).length ≥ 128 then PacketSize.bytes1024 else .bytes128) = packetSize ∧
        (headerText m).length ≤ packetSize.payloadBytes := by
    by_cases hlong : (headerText m).length ≥ 128
    · exact ⟨.bytes1024, if_pos hlong, hlen⟩
    · exact ⟨.bytes128, if_neg hlong, by
        show (headerText m).length ≤ 128
        omega⟩
  obtain ⟨packet, hpacket, hpayload⟩ := encodePacket_ok (length_padded hfits) 0
  refine ⟨packetSize, packet, ?_, hfits, hpayload⟩
  unfold createFileHeader
  simp only
  rw [if_neg (by omega), hsize]
  exact hpacket

/-- The digits of the size are what stands before the first blank. -/
theorem parseSize_numeral {n : ℕ} (hn : n ≤ Zmodem.maxU64) (rest : List UInt8) :
    parseSize (numeral 10 n ++ 0x20 :: rest) = .ok n := by
  have hdigits := fun b hb =>
    Zmodem.numeral_digits (n := n) (show 1 < 10 by omega) (le_refl 10) b hb
  have hne : ∀ b ∈ numeral 10 n, b ≠ 0 ∧ isAsciiWhitespace b = false := by
    intro b hb
    have hb := hdigits b hb
    simp only [isDigitBelow, Bool.and_eq_true, decide_eq_true_eq] at hb
    simp only [isAsciiWhitespace, Bool.or_eq_false_iff, beq_eq_false_iff_ne]
    refine ⟨?_, ⟨⟨⟨⟨?_, ?_⟩, ?_⟩, ?_⟩, ?_⟩⟩ <;> (rintro rfl; simp at hb)
  have htext : ((numeral 10 n ++ 0x20 :: rest).takeWhile (· ≠ 0)).takeWhile
      (!isAsciiWhitespace ·) = numeral 10 n := by
    rw [List.takeWhile_append_of_pos (fun b hb => decide_eq_true (hne b hb).1),
      List.takeWhile_cons_of_pos (by decide),
      List.takeWhile_append_of_pos (fun b hb => by rw [(hne b hb).2]; rfl),
      List.takeWhile_cons_of_neg (by decide), List.append_nil]
  obtain ⟨text, hdecoded⟩ := Option.isSome_iff_exists.mp
    (Zmodem.decodeUtf8_fields fun b (hb : b ∈ numeral 10 n) => by
      simp [Zmodem.isFieldByte, hdigits b hb])
  have hempty : (numeral 10 n).isEmpty = false :=
    List.isEmpty_eq_false_iff.mpr (Zmodem.numeral_ne_nil 10 n)
  have hall : (numeral 10 n).all isAsciiDigit = true := List.all_eq_true.mpr hdigits
  unfold parseSize
  simp only [htext, hempty, hall, hdecoded, orInvalidSize, Bool.not_true, Bool.or_false,
    Bool.false_eq_true, if_false, bind, Except.bind,
    Zmodem.parseU64_numeral (show 1 < 10 by omega) (le_refl 10) hn]

/-- **The name and the size are read back, in a payload of either size.** -/
theorem parseFileHeader_padded (m : FileMetadata) {packetSize : PacketSize}
    (h : (headerText m).length ≤ packetSize.payloadBytes) :
    parseFileHeader (padded packetSize (headerText m)) =
      .ok (some { m with modifiedTime := 0, mode := 0 }) := by
  have hname : ∀ b ∈ encodeUtf8 m.fileName, decide (b ≠ 0) = true := by
    intro b hb
    rw [decide_eq_true_eq]
    rintro rfl
    exact zero_notMem_encodeUtf8 m.fileName_clean.ne_nul hb
  obtain ⟨rest, hpayload⟩ : ∃ rest, padded packetSize (headerText m) =
      encodeUtf8 m.fileName ++ 0 :: (numeral 10 m.totalBytes ++ 0x20 :: rest) := by
    refine ⟨(numeral 8 m.modifiedTime.toNat ++ 0x20 :: numeral 8 m.mode.toNat) ++
      List.replicate (packetSize.payloadBytes - (headerText m).length) 0, ?_⟩
    rw [padded, headerText]
    simp only [List.append_assoc, List.cons_append]
  have hlen : ¬((padded packetSize (headerText m)).length ≠ 128 ∧
      (padded packetSize (headerText m)).length ≠ 1024) := by
    rw [length_padded h]
    cases packetSize <;> decide
  have hraw : (padded packetSize (headerText m)).takeWhile (· ≠ 0) = encodeUtf8 m.fileName := by
    rw [hpayload, List.takeWhile_append_of_pos hname, List.takeWhile_cons_of_neg (by decide),
      List.append_nil]
  have hfields : ((padded packetSize (headerText m)).dropWhile (· ≠ 0)).drop 1 =
      numeral 10 m.totalBytes ++ 0x20 :: rest := by
    rw [hpayload, List.dropWhile_append_of_pos hname, List.dropWhile_cons_of_neg (by decide)]
    rfl
  have hempty : ¬(encodeUtf8 m.fileName).isEmpty = true := by
    intro hnil
    have hdecoded := decodeUtf8_encodeUtf8 m.fileName
    rw [List.isEmpty_iff.mp hnil] at hdecoded
    have hnil' : decodeUtf8 (encodeUtf8 []) = some [] := decodeUtf8_encodeUtf8 []
    exact m.fileName_clean.not_dots.1 (Option.some.inj (hdecoded.symm.trans hnil'))
  have hsanitize : sanitizeYmodemFilename
      (fromUtf8Lossy ((padded packetSize (headerText m)).takeWhile (· ≠ 0))) = .ok m.fileName := by
    rw [hraw, fromUtf8Lossy_encodeUtf8]
    exact sanitizeYmodemFilename_clean m.fileName_clean m.fileName_le
  have hsize : parseSize (((padded packetSize (headerText m)).dropWhile (· ≠ 0)).drop 1) =
      .ok m.totalBytes := by
    rw [hfields]
    exact parseSize_numeral
      (m.totalBytes_le.trans (show maxFileBytes ≤ Zmodem.maxU64 by decide)) rest
  unfold parseFileHeader
  rw [if_neg hlen]
  simp only
  rw [if_neg (by rw [hraw]; exact hempty)]
  split
  · rename_i e he
    rw [hsanitize] at he
    cases he
  rename_i name hn
  obtain rfl := Except.ok.inj (hsanitize.symm.trans hn)
  split
  · rename_i e he
    rw [hsize] at he
    cases he
  rename_i total ht
  obtain rfl := Except.ok.inj (hsize.symm.trans ht)
  rw [dif_neg (by have := m.totalBytes_le; omega)]

end Netcatty.Serial.Ymodem
