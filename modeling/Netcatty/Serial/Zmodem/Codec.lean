import Mathlib.Algebra.Ring.Nat
import Mathlib.Tactic.Common

/-! # The ZMODEM wire codec

Headers, data subpackets, checksums and the ZDLE escape of `netcatty-serial`, with the incremental
parsers of a buffered input.  A parser answers `ok none` where the input may still become a header
or a subpacket, and an error where it cannot.

A header is written in hexadecimal or in binary with a CRC16 or a CRC32 (`encodeHexHeader`,
`encodeBinaryHeader`, `parseHeaderAtStart`); a data subpacket is an escaped payload, a frame end and
a checksum (`encodeSubpacket`, `scanPayload`). -/

namespace Netcatty.Serial.Zmodem

/-! ### Wire bytes and limits -/

abbrev zpad : UInt8 := 0x2a
abbrev zdle : UInt8 := 0x18
abbrev zbin : UInt8 := 0x41
abbrev zhex : UInt8 := 0x42
abbrev zbin32 : UInt8 := 0x43
abbrev xon : UInt8 := 0x11
abbrev can : UInt8 := 0x18
abbrev backspace : UInt8 := 0x08
abbrev zcrce : UInt8 := 0x68
abbrev zcrcg : UInt8 := 0x69
abbrev zcrcq : UInt8 := 0x6a
abbrev zcrcw : UInt8 := 0x6b

def overAndOut : List UInt8 := [0x4f, 0x4f]

def cancelSequence : List UInt8 :=
  [can, can, can, can, can, backspace, backspace, backspace, backspace, backspace]

def hexHeaderPrefix : List UInt8 := [zpad, zpad, zdle, zhex]
def binary16HeaderPrefix : List UInt8 := [zpad, zdle, zbin]
def binary32HeaderPrefix : List UInt8 := [zpad, zdle, zbin32]

def maxRetryLimit : ℕ := 100
def wireSubpacketBytes : ℕ := 8 * 1024
def maxSubpacketBytes : ℕ := 64 * 1024
def maxInputBytes : ℕ := 256 * 1024
def maxFilenameBytes : ℕ := 255
def maxMetadataBytes : ℕ := 1024
def maxBatchFiles : ℕ := 1024
def maxPendingActions : ℕ := 512
/-- Classic ZMODEM carries file offsets in four little-endian bytes. -/
def maxFileBytes : ℕ := 2 ^ 32 - 1

inductive Error where
  | invalidTimeout
  | invalidRetryLimit (maximum : ℕ)
  | invalidChunkSize (maximumBytes : ℕ)
  | inputTooLarge (maximumBytes : ℕ)
  | subpacketTooLarge (maximumBytes : ℕ)
  | filenameTooLong (maximumBytes : ℕ)
  | metadataTooLarge (maximumBytes : ℕ)
  | invalidMetadata
  | invalidBatch (maximumFiles : ℕ)
  | fileTooLarge (maximumBytes : ℕ)
  | batchSizeOverflow
  | invalidHeader
  | unsupportedFrame
  | unsupportedPeerCapabilities
  | invalidEscape
  | crcMismatch
  | unexpectedFrame
  | invalidSourceChunk (maximumBytes actual : ℕ)
  | sourceLengthMismatch
  | sinkLengthMismatch (expected actual : ℕ)
  | incompleteFile
  | retryLimit
  | timedOut
  | cancelled
  | remoteCancelled
  | remoteAborted
  | actionQueueFull (maximum : ℕ)
  | invalidState
deriving DecidableEq, Repr

/-! ### Headers -/

inductive FrameType where
  | requestInit
  | receiverInit
  | senderInit
  | ack
  | file
  | skip
  | nak
  | abort
  | finish
  | receiverPosition
  | data
  | endOfFile
  | fileError
  | crc
  | challenge
  | complete
  | cancel
  | freeCount
  | command
  | standardError
deriving DecidableEq, Repr

namespace FrameType

def byte : FrameType → UInt8
  | requestInit => 0
  | receiverInit => 1
  | senderInit => 2
  | ack => 3
  | file => 4
  | skip => 5
  | nak => 6
  | abort => 7
  | finish => 8
  | receiverPosition => 9
  | data => 10
  | endOfFile => 11
  | fileError => 12
  | crc => 13
  | challenge => 14
  | complete => 15
  | cancel => 16
  | freeCount => 17
  | command => 18
  | standardError => 19

def tryFrom (value : UInt8) : Except Error FrameType :=
  match value with
  | 0 => .ok requestInit
  | 1 => .ok receiverInit
  | 2 => .ok senderInit
  | 3 => .ok ack
  | 4 => .ok file
  | 5 => .ok skip
  | 6 => .ok nak
  | 7 => .ok abort
  | 8 => .ok finish
  | 9 => .ok receiverPosition
  | 10 => .ok data
  | 11 => .ok endOfFile
  | 12 => .ok fileError
  | 13 => .ok crc
  | 14 => .ok challenge
  | 15 => .ok complete
  | 16 => .ok cancel
  | 17 => .ok freeCount
  | 18 => .ok command
  | 19 => .ok standardError
  | _ => .error .unsupportedFrame

@[simp] theorem tryFrom_byte (t : FrameType) : tryFrom t.byte = .ok t := by
  cases t <;> rfl

end FrameType

inductive Checksum where
  | crc16
  | crc32
deriving DecidableEq, Repr

/-- A frame type and its four parameter bytes. -/
structure Header where
  frameType : FrameType
  p₀ : UInt8
  p₁ : UInt8
  p₂ : UInt8
  p₃ : UInt8
deriving DecidableEq, Repr

namespace Header

/-- The offset goes out as its four low bytes, little-endian. -/
def withOffset (frameType : FrameType) (offset : ℕ) : Header :=
  ⟨frameType, .ofNat offset, .ofNat (offset / 2 ^ 8), .ofNat (offset / 2 ^ 16),
    .ofNat (offset / 2 ^ 24)⟩

def offset (h : Header) : ℕ :=
  h.p₀.toNat + 2 ^ 8 * h.p₁.toNat + 2 ^ 16 * h.p₂.toNat + 2 ^ 24 * h.p₃.toNat

@[simp] theorem withOffset_frameType (t : FrameType) (n : ℕ) : (withOffset t n).frameType = t := rfl

end Header

structure DecodedHeader where
  header : Header
  checksum : Checksum
deriving DecidableEq, Repr

/-! ### Subpackets -/

inductive FrameEnd where
  | endNoAck
  | continueNoAck
  | continueAck
  | endAck
deriving DecidableEq, Repr

namespace FrameEnd

def byte : FrameEnd → UInt8
  | endNoAck => zcrce
  | continueNoAck => zcrcg
  | continueAck => zcrcq
  | endAck => zcrcw

def fromByte (byte : UInt8) : Option FrameEnd :=
  if byte = zcrce then some endNoAck
  else if byte = zcrcg then some continueNoAck
  else if byte = zcrcq then some continueAck
  else if byte = zcrcw then some endAck
  else none

def endsFrame : FrameEnd → Bool
  | endNoAck | endAck => true
  | _ => false

def expectsAck : FrameEnd → Bool
  | continueAck | endAck => true
  | _ => false

@[simp] theorem fromByte_byte (e : FrameEnd) : fromByte e.byte = some e := by
  cases e <;> rfl

end FrameEnd

structure Subpacket where
  payload : List UInt8
  frameEnd : FrameEnd
deriving DecidableEq, Repr

/-! ### Checksums -/

def crc16Round (crc : UInt16) : UInt16 :=
  if crc &&& 0x8000 ≠ 0 then (crc <<< 1) ^^^ 0x1021 else crc <<< 1

def crc16 (bytes : List UInt8) : UInt16 :=
  bytes.foldl (fun (crc : UInt16) (byte : UInt8) =>
    Nat.repeat crc16Round 8 (crc ^^^ (byte.toUInt16 <<< 8))) 0

def crc32Round (crc : UInt32) : UInt32 :=
  let mask : UInt32 := 0 - (crc &&& 1)
  (crc >>> 1) ^^^ (0xedb88320 &&& mask)

def crc32 (bytes : List UInt8) : UInt32 :=
  ~~~ bytes.foldl (fun (crc : UInt32) (byte : UInt8) =>
    Nat.repeat crc32Round 8 (crc ^^^ byte.toUInt32)) 0xffffffff

def toBeBytes (crc : UInt16) : List UInt8 := [(crc >>> 8).toUInt8, crc.toUInt8]

def toLeBytes (crc : UInt32) : List UInt8 :=
  [crc.toUInt8, (crc >>> 8).toUInt8, (crc >>> 16).toUInt8, (crc >>> 24).toUInt8]

/-- The check bytes of a header or a subpacket. -/
def checkBytes (checksum : Checksum) (data : List UInt8) : List UInt8 :=
  match checksum with
  | .crc16 => toBeBytes (crc16 data)
  | .crc32 => toLeBytes (crc32 data)

def crcBytes : Checksum → ℕ
  | .crc16 => 2
  | .crc32 => 4

@[simp] theorem checkBytes_length (checksum : Checksum) (data : List UInt8) :
    (checkBytes checksum data).length = crcBytes checksum := by
  cases checksum <;> rfl

/-! ### Encoding -/

def mandatoryEscape (byte : UInt8) : Bool :=
  byte == zdle || byte == 0x10 || byte == 0x90 || byte == 0x11 || byte == 0x91 ||
    byte == 0x13 || byte == 0x93

/-- Whether a byte after `previous` is escaped. -/
def escapes (escapeControlBytes : Bool) (previous : Option UInt8) (byte : UInt8) : Bool :=
  let control := byte &&& 0x60 == 0
  let telnetCr := (byte == 0x0d || byte == 0x8d) && previous.any fun prior => prior &&& 0x7f == 0x40
  mandatoryEscape byte || (escapeControlBytes && control) || telnetCr

def encodeZdleFrom (escapeControlBytes : Bool) : Option UInt8 → List UInt8 → List UInt8
  | _, [] => []
  | previous, byte :: bytes =>
    (if escapes escapeControlBytes previous byte then [zdle, byte ^^^ 0x40] else [byte]) ++
      encodeZdleFrom escapeControlBytes (some byte) bytes

def encodeZdle (bytes : List UInt8) (escapeControlBytes : Bool) : List UInt8 :=
  encodeZdleFrom escapeControlBytes none bytes

def toHex (value : UInt8) : UInt8 :=
  if value ≤ 9 then 0x30 + value else 0x61 + value - 10

def fromHex (value : UInt8) : Option UInt8 :=
  if 0x30 ≤ value ∧ value ≤ 0x39 then some (value - 0x30)
  else if 0x61 ≤ value ∧ value ≤ 0x66 then some (value - 0x61 + 10)
  else if 0x41 ≤ value ∧ value ≤ 0x46 then some (value - 0x41 + 10)
  else none

def headerCrcBytes (h : Header) : List UInt8 := [h.frameType.byte, h.p₀, h.p₁, h.p₂, h.p₃]

def hexDigits (bytes : List UInt8) : List UInt8 :=
  bytes.flatMap fun (byte : UInt8) => [toHex (byte >>> 4), toHex (byte &&& 0x0f)]

def encodeHexHeader (h : Header) : List UInt8 :=
  let data := headerCrcBytes h
  hexHeaderPrefix ++ hexDigits (data ++ toBeBytes (crc16 data)) ++ [0x0d, 0x0a] ++
    if h.frameType = .finish ∨ h.frameType = .ack then [] else [xon]

def binaryHeaderPrefix : Checksum → List UInt8
  | .crc16 => binary16HeaderPrefix
  | .crc32 => binary32HeaderPrefix

def encodeBinaryHeader (h : Header) (checksum : Checksum) (escapeControlBytes : Bool) :
    List UInt8 :=
  let data := headerCrcBytes h
  binaryHeaderPrefix checksum ++ encodeZdle (data ++ checkBytes checksum data) escapeControlBytes

def subpacketBytes (payload : List UInt8) (frameEnd : FrameEnd) (checksum : Checksum)
    (escapeControlBytes : Bool) : List UInt8 :=
  encodeZdle payload escapeControlBytes ++ [zdle, frameEnd.byte] ++
    encodeZdle (checkBytes checksum (payload ++ [frameEnd.byte])) escapeControlBytes

def encodeSubpacket (payload : List UInt8) (frameEnd : FrameEnd) (checksum : Checksum)
    (escapeControlBytes : Bool) : Except Error (List UInt8) :=
  if payload.length > maxSubpacketBytes then .error (.subpacketTooLarge maxSubpacketBytes)
  else .ok (subpacketBytes payload frameEnd checksum escapeControlBytes)

/-! ### Parsing -/

def decodeZdleByte (encoded : UInt8) : Except Error UInt8 :=
  if encoded = 0x6c then .ok 0x7f
  else if encoded = 0x6d then .ok 0xff
  else if (FrameEnd.fromByte encoded).isSome then .error .invalidEscape
  else .ok (encoded ^^^ 0x40)

/-- Decode `n` escaped bytes: the bytes and how much of the input they take. -/
def decodeExactZdle : List UInt8 → ℕ → Except Error (Option (List UInt8 × ℕ))
  | _, 0 => .ok (some ([], 0))
  | [], _ + 1 => .ok none
  | byte :: rest, n + 1 =>
    if byte ≠ zdle then
      (decodeExactZdle rest n).map fun r => r.map fun (bytes, consumed) =>
        (byte :: bytes, consumed + 1)
    else
      match rest with
      | [] => .ok none
      | after :: rest =>
        match decodeZdleByte after with
        | .error e => .error e
        | .ok decoded =>
          (decodeExactZdle rest n).map fun r => r.map fun (bytes, consumed) =>
            (decoded :: bytes, consumed + 2)

/-- The payload of a subpacket, its frame end and how much of the input they take; `decoded` bytes
of the payload are already there. -/
def scanPayload : ℕ → List UInt8 → Except Error (Option ((List UInt8 × FrameEnd) × ℕ))
  | decoded, [] =>
    if decoded > maxSubpacketBytes then .error (.subpacketTooLarge maxSubpacketBytes) else .ok none
  | decoded, byte :: rest =>
    if byte ≠ zdle then
      (scanPayload (decoded + 1) rest).map fun r => r.map fun ((payload, frameEnd), consumed) =>
        ((byte :: payload, frameEnd), consumed + 1)
    else
      match rest with
      | [] => .ok none
      | after :: rest =>
        match FrameEnd.fromByte after with
        | some frameEnd => .ok (some (([], frameEnd), 2))
        | none =>
          match decodeZdleByte after with
          | .error e => .error e
          | .ok value =>
            if decoded + 1 > maxSubpacketBytes then .error (.subpacketTooLarge maxSubpacketBytes)
            else
              (scanPayload (decoded + 1) rest).map fun r =>
                r.map fun ((payload, frameEnd), consumed) =>
                  ((value :: payload, frameEnd), consumed + 2)

def decodeHeaderBody (data gotCrc : List UInt8) (checksum : Checksum) :
    Except Error DecodedHeader :=
  match data with
  | [t, p₀, p₁, p₂, p₃] =>
    if gotCrc ≠ checkBytes checksum data then .error .crcMismatch
    else (FrameType.tryFrom t).map fun frameType => ⟨⟨frameType, p₀, p₁, p₂, p₃⟩, checksum⟩
  | _ => .error .invalidHeader

/-- The bytes of hexadecimal digit pairs. -/
def decodeHexPairs : List UInt8 → Except Error (List UInt8)
  | high :: low :: rest =>
    match fromHex high, fromHex low with
    | some high, some low => (decodeHexPairs rest).map ((high <<< 4 ||| low) :: ·)
    | _, _ => .error .invalidHeader
  | _ => .ok []

def hexBodyBytes : ℕ := 14

/-- The line end after a hexadecimal header: how many bytes it takes. -/
def parseLineEnd : List UInt8 → Except Error (Option ℕ)
  | [] => .ok none
  | byte :: rest =>
    if byte = 0x0d ∨ byte = 0x8d then
      match rest with
      | [] => .ok none
      | after :: _ => if after = 0x0a ∨ after = 0x8a then .ok (some 2) else .error .invalidHeader
    else if byte = 0x0a ∨ byte = 0x8a then .ok (some 1)
    else .error .invalidHeader

def parseHexHeader (input : List UInt8) : Except Error (Option (DecodedHeader × ℕ)) :=
  let bodyStart := hexHeaderPrefix.length
  let bodyEnd := bodyStart + hexBodyBytes
  if input.length < bodyEnd + 1 then .ok none
  else
    match decodeHexPairs ((input.drop bodyStart).take hexBodyBytes) with
    | .error e => .error e
    | .ok decoded =>
      match parseLineEnd (input.drop bodyEnd) with
      | .error e => .error e
      | .ok none => .ok none
      | .ok (some lineEnd) =>
        let consumed := bodyEnd + lineEnd
        let consumed := if input[consumed]? = some xon then consumed + 1 else consumed
        (decodeHeaderBody (decoded.take 5) (decoded.drop 5) .crc16).map fun header =>
          some (header, consumed)

def headerBytes (checksum : Checksum) : ℕ := 5 + crcBytes checksum

def parseBinaryHeader (input : List UInt8) (checksum : Checksum) :
    Except Error (Option (DecodedHeader × ℕ)) :=
  match decodeExactZdle (input.drop 3) (headerBytes checksum) with
  | .error e => .error e
  | .ok none => .ok none
  | .ok (some (decoded, consumed)) =>
    (decodeHeaderBody (decoded.take 5) (decoded.drop 5) checksum).map fun header =>
      some (header, 3 + consumed)

def parseHeaderAtStart (input : List UInt8) : Except Error (Option (DecodedHeader × ℕ)) :=
  if hexHeaderPrefix.isPrefixOf input then parseHexHeader input
  else if binary16HeaderPrefix.isPrefixOf input then parseBinaryHeader input .crc16
  else if binary32HeaderPrefix.isPrefixOf input then parseBinaryHeader input .crc32
  else .ok none

def headerPrefixes : List (List UInt8) :=
  [hexHeaderPrefix, binary16HeaderPrefix, binary32HeaderPrefix]

def isPartialHeaderPrefix (input : List UInt8) : Bool :=
  headerPrefixes.any fun p => decide (input.length < p.length) && input.isPrefixOf p

/-- The input starts with a header prefix, or is the beginning of one. -/
def isHeaderCandidate (input : List UInt8) : Bool :=
  headerPrefixes.any (·.isPrefixOf input) || isPartialHeaderPrefix input

/-- The first position of a header candidate. -/
def findHeaderCandidate : List UInt8 → Option ℕ
  | [] => none
  | byte :: rest =>
    if isHeaderCandidate (byte :: rest) then some 0 else (findHeaderCandidate rest).map (· + 1)

/-- The longest proper header prefix that ends the input. -/
def retainPossibleHeaderPrefix (input : List UInt8) : List UInt8 :=
  let retain := ((List.range' 1 (min input.length (hexHeaderPrefix.length - 1))).reverse.find?
    fun length => isPartialHeaderPrefix (input.drop (input.length - length))).getD 0
  input.drop (input.length - retain)

/-- Five CAN bytes in a row. -/
def containsRemoteCancel : List UInt8 → Bool
  | [] => false
  | byte :: rest => (List.replicate 5 can).isPrefixOf (byte :: rest) || containsRemoteCancel rest

end Netcatty.Serial.Zmodem
