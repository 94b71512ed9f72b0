import Netcatty.Serial.Zmodem.RoundTrip

/-! # What a write says

Both machines write one header or one data subpacket at a time.  `readWrite` reads the bytes of one
write as the peer's decoder would, and `readWrite_hexHeader`, `readWrite_binaryHeader` and
`readWrite_subpacket` say that it finds what was written: no header passes for a data subpacket. -/

set_option maxRecDepth 8000

namespace Netcatty.Serial.Zmodem

open Netcatty.Framing

/-- The header or the data subpacket (with a CRC16) that the bytes of a write are. -/
def readWrite (bytes : List UInt8) : Option Decoded :=
  let d := bytes.foldl WireDecoder.pushByte {}
  match d.nextSubpacket .crc16 with
  | (rest, .ok (some packet)) => if rest.input = [] then some (.subpacket packet) else none
  | _ =>
    match d.nextHeader with
    | (rest, .ok (some decoded)) => if rest.input = [] then some (.header decoded) else none
    | _ => none

/-- Bytes without a frame end keep the scan of a payload waiting. -/
theorem scanPayload_plain_waits {l : List UInt8} (hl : ∀ b ∈ l, b ≠ zdle) :
    ∀ decoded, decoded + l.length ≤ maxSubpacketBytes → scanPayload decoded l = .ok none := by
  induction l with
  | nil =>
      intro decoded hle
      have hle : ¬ decoded > maxSubpacketBytes := by simp only [List.length_nil] at hle; omega
      simp [scanPayload, hle]
  | cons b l ih =>
      intro decoded hle
      rw [List.length_cons] at hle
      rw [scanPayload_plain (hl b (by simp)), ih (fun c hc => hl c (by simp [hc])) _ (by omega)]
      rfl

theorem hexDigits_ne_zdle (bytes : List UInt8) : ∀ b ∈ hexDigits bytes, b ≠ zdle := by
  have key : ∀ n < 256, toHex (UInt8.ofNat n >>> 4) ≠ zdle ∧ toHex (UInt8.ofNat n &&& 0x0f) ≠ zdle := by
    decide
  intro b hb
  obtain ⟨c, -, hc⟩ := List.mem_flatMap.mp hb
  have h := byte_cases (P := fun c => toHex (c >>> 4) ≠ zdle ∧ toHex (c &&& 0x0f) ≠ zdle) key c
  simp only [List.mem_cons, List.not_mem_nil, or_false] at hc
  rcases hc with rfl | rfl
  · exact h.1
  · exact h.2

/-- The letters of the header prefixes read as escaped control bytes. -/
theorem isEscaped_zhex : IsEscaped 0x02 zhex := ⟨by decide, by decide, by decide, by decide⟩

theorem isEscaped_zbin : IsEscaped 0x01 zbin := ⟨by decide, by decide, by decide, by decide⟩

theorem scanPayload_hexHeaderLine (h : Header) : scanPayload 0 (hexHeaderLine h) = .ok none := by
  have hlen := hexBody_length h
  have hrest : scanPayload 3 (hexDigits (headerBody h .crc16) ++ [0x0d, 0x0a]) = .ok none := by
    refine scanPayload_plain_waits ?_ _ ?_
    · intro b hb
      rcases List.mem_append.mp hb with hb | hb
      · exact hexDigits_ne_zdle _ b hb
      · have hline : ∀ b ∈ ([0x0d, 0x0a] : List UInt8), b ≠ zdle :=
          List.forall_iff_forall_mem.mp (by decide)
        exact hline b hb
    · rw [List.length_append, hlen]
      decide
  unfold hexHeaderLine hexHeaderPrefix
  simp only [List.cons_append, List.nil_append]
  rw [scanPayload_plain (by decide), scanPayload_plain (by decide),
    scanPayload_escaped isEscaped_zhex (by decide), hrest]
  rfl

theorem scanPayload_encodeBinaryHeader (h : Header) (esc : Bool) :
    scanPayload 0 (encodeBinaryHeader h .crc16 esc) = .ok none := by
  have hbody : scanPayload 2 (encodeZdle (headerBody h .crc16) esc) = .ok none := by
    have hdec := scanPayload_encodeZdleFrom esc .endAck (headerBody h .crc16) none 2
      (by rw [headerBody_length]; decide)
    exact hdec.part _ [zdle, FrameEnd.endAck.byte] rfl (by simp)
  show scanPayload 0 (zpad :: zdle :: zbin :: encodeZdle (headerBody h .crc16) esc) = .ok none
  rw [scanPayload_plain (by decide), scanPayload_escaped isEscaped_zbin (by decide), hbody]
  rfl

/-- A fresh decoder holds the bytes of an item. -/
theorem foldl_encode (item : Item) :
    (item.encode.foldl WireDecoder.pushByte {}).cancelled = false ∧
      (item.encode.foldl WireDecoder.pushByte {}).input = item.onWire := by
  have hcalm : Calm ({} : WireDecoder) [] := ⟨rfl, by simp, by simp⟩
  have hchain : ([] ++ item.encode.filter fun b => !isFlowControl b).IsChain
      fun a b => ¬ (a = can ∧ b = can) := by
    rw [List.nil_append, item.filter_encode]
    exact item.quiet_onWire.no_canPair
  obtain ⟨hcalm', hin⟩ := WireDecoder.pushBytes_calm item.encode hcalm hchain
  rw [item.filter_encode] at hin
  have hin' : (item.encode.foldl WireDecoder.pushByte {}).input = item.onWire := hin
  have hno := item.quiet_onWire.not_cancelled [] item.onWire []
    (by simp)
  exact ⟨by simp [WireDecoder.cancelled, hcalm'.not_cancelled, hin', hno], hin'⟩

/-- An item that fills the buffer is decoded. -/
theorem next_foldl_encode (item : Item) :
    (item.encode.foldl WireDecoder.pushByte {}).next item =
      ({ item.encode.foldl WireDecoder.pushByte {} with input := [] }, .ok (some item.value)) := by
  obtain ⟨hc, hin⟩ := foldl_encode item
  have hflow : ∀ b ∈ (item.encode.foldl WireDecoder.pushByte {}).input,
      isFlowControl b = false := by
    rw [hin]
    exact item.quiet_onWire.no_flowControl
  rcases WireDecoder.next_stream hc hflow (by rw [hin]) with
    ⟨-, t, ht, -, hfut⟩ | ⟨r, -, hrest, heq⟩
  · exact absurd (List.append_eq_nil_iff.mp hfut.symm).1 ht
  · rw [List.append_nil] at hrest
    rw [heq, hrest]

/-- What a decoding call answers is what the decoder's own call has answered. -/
theorem eq_of_map_eq {α β : Type} {f : α → β} {w : WireDecoder} {y : β}
    {x : WireDecoder × Except Error (Option α)}
    (h : (x.1, x.2.map fun r => r.map f) = (w, .ok (some y))) :
    ∃ a, f a = y ∧ x = (w, .ok (some a)) := by
  obtain ⟨w', result⟩ := x
  obtain ⟨rfl, hresult⟩ := Prod.mk.inj h
  cases result with
  | error e => cases hresult
  | ok r =>
      cases r with
      | none => cases hresult
      | some a => exact ⟨a, Option.some.inj (Except.ok.inj hresult), rfl⟩

theorem readWrite_subpacket {payload : List UInt8} (h : payload.length ≤ maxSubpacketBytes)
    (frameEnd : FrameEnd) (esc : Bool) :
    readWrite (subpacketBytes payload frameEnd .crc16 esc) =
      some (.subpacket ⟨payload, frameEnd⟩) := by
  have hnext := next_foldl_encode (.subpacket payload frameEnd .crc16 esc h)
  obtain ⟨packet, hpacket, heq⟩ := eq_of_map_eq (f := Decoded.subpacket) hnext
  obtain rfl : packet = ⟨payload, frameEnd⟩ := Decoded.subpacket.inj hpacket
  have hbytes : subpacketBytes payload frameEnd .crc16 esc =
      (Item.subpacket payload frameEnd .crc16 esc h).encode := rfl
  unfold readWrite
  simp only [hbytes, heq, if_true]

/-- An item that is no data subpacket, and decodes to a header. -/
theorem readWrite_header (item : Item) {decoded : DecodedHeader}
    (hscan : scanPayload 0 item.onWire = .ok none) (hvalue : item.value = .header decoded)
    (hnext : ∀ w : WireDecoder, w.next item =
      ((w.nextHeader).1, w.nextHeader.2.map fun r => r.map .header)) :
    readWrite item.encode = some (.header decoded) := by
  obtain ⟨hc, hin⟩ := foldl_encode item
  have hitem := next_foldl_encode item
  rw [hnext, hvalue] at hitem
  obtain ⟨header, hheader, heq⟩ := eq_of_map_eq (f := Decoded.header) hitem
  obtain rfl : header = decoded := Decoded.header.inj hheader
  have hsub : (item.encode.foldl WireDecoder.pushByte {}).nextSubpacket .crc16 =
      (item.encode.foldl WireDecoder.pushByte {}, .ok none) := by
    unfold WireDecoder.nextSubpacket
    rw [hc, hin, hscan]
    rfl
  unfold readWrite
  simp only [hsub, heq, if_true]

theorem readWrite_hexHeader (h : Header) :
    readWrite (encodeHexHeader h) = some (.header ⟨h, .crc16⟩) :=
  readWrite_header (.hexHeader h) (scanPayload_hexHeaderLine h) rfl fun _ => rfl

theorem readWrite_binaryHeader (h : Header) (esc : Bool) :
    readWrite (encodeBinaryHeader h .crc16 esc) = some (.header ⟨h, .crc16⟩) :=
  readWrite_header (.binaryHeader h .crc16 esc) (scanPayload_encodeBinaryHeader h esc) rfl
    fun _ => rfl

/-! ### Frame types -/

/-- The frame type of the header that the bytes of a write are. -/
def writtenType (bytes : List UInt8) : Option FrameType :=
  match readWrite bytes with
  | some (.header decoded) => some decoded.header.frameType
  | _ => none

@[simp] theorem writtenType_hexHeader (h : Header) :
    writtenType (encodeHexHeader h) = some h.frameType := by
  simp [writtenType, readWrite_hexHeader]

@[simp] theorem writtenType_binaryHeader (h : Header) (esc : Bool) :
    writtenType (encodeBinaryHeader h .crc16 esc) = some h.frameType := by
  simp [writtenType, readWrite_binaryHeader]

theorem writtenType_subpacket {payload : List UInt8} (h : payload.length ≤ maxSubpacketBytes)
    (frameEnd : FrameEnd) (esc : Bool) :
    writtenType (subpacketBytes payload frameEnd .crc16 esc) = none := by
  simp [writtenType, readWrite_subpacket h]

theorem writtenType_cancelSequence : writtenType cancelSequence = none := by decide

theorem writtenType_overAndOut : writtenType overAndOut = none := by decide

end Netcatty.Serial.Zmodem
