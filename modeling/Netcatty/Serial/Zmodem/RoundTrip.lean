import Mathlib.Data.List.Chain
import Netcatty.Library.Framing
import Netcatty.Library.Runs
import Netcatty.Serial.Zmodem.Wire

/-! # The wire codec round trip

The encodings of headers and data subpackets are self-delimiting (`decodeExactZdle_encodeZdle`,
`scanPayload_encodeZdle`, `parseHeaderAtStart_hexHeaderLine`,
`parseHeaderAtStart_encodeBinaryHeader`) and quiet: they hold no flow-control byte but the XON of a
hexadecimal header, and never two CAN bytes in a row (`Item.quiet_onWire`).  So a decoder at the
head of a stream of items waits for the next item or decodes it (`WireDecoder.next_stream`), in
whatever chunks the stream is pushed and whenever the calls are made (`wire_round_trip`). -/

set_option maxRecDepth 8000

namespace Netcatty.Serial.Zmodem

open Framing Runs

/-! ### Facts about single bytes -/

theorem byte_cases {P : UInt8 → Prop} (h : ∀ n < 256, P (UInt8.ofNat n)) (b : UInt8) : P b := by
  have := h b.toNat b.toNat_lt
  rwa [UInt8.ofNat_toNat] at this

/-- An escaped byte is a control byte. -/
theorem control_of_escapes {esc : Bool} {previous : Option UInt8} {b : UInt8}
    (h : escapes esc previous b = true) : b &&& 0x60 = 0 := by
  simp only [escapes, mandatoryEscape, Bool.or_eq_true, Bool.and_eq_true, beq_iff_eq] at h
  rcases h with (h | ⟨-, h⟩) | ⟨h | h, -⟩
  · rcases h with (((((rfl | rfl) | rfl) | rfl) | rfl) | rfl) | rfl <;> rfl
  · exact h
  · subst h; rfl
  · subst h; rfl

/-- What the second byte of an escape is like. -/
structure IsEscaped (b e : UInt8) : Prop where
  ne_zdle : e ≠ zdle
  not_flowControl : isFlowControl e = false
  not_frameEnd : FrameEnd.fromByte e = none
  decoded : decodeZdleByte e = .ok b

theorem isEscaped_of_control (b : UInt8) (h : b &&& 0x60 = 0) : IsEscaped b (b ^^^ 0x40) := by
  have key : ∀ n < 256, UInt8.ofNat n &&& 0x60 = 0 →
      UInt8.ofNat n ^^^ 0x40 ≠ zdle ∧ isFlowControl (UInt8.ofNat n ^^^ 0x40) = false ∧
        FrameEnd.fromByte (UInt8.ofNat n ^^^ 0x40) = none ∧
        decodeZdleByte (UInt8.ofNat n ^^^ 0x40) = .ok (UInt8.ofNat n) := by
    decide
  obtain ⟨h₁, h₂, h₃, h₄⟩ := byte_cases
    (P := fun b => b &&& 0x60 = 0 → b ^^^ 0x40 ≠ zdle ∧ isFlowControl (b ^^^ 0x40) = false ∧
      FrameEnd.fromByte (b ^^^ 0x40) = none ∧ decodeZdleByte (b ^^^ 0x40) = .ok b) key b h
  exact ⟨h₁, h₂, h₃, h₄⟩

/-- A byte that is sent as it is. -/
theorem plain_of_not_escapes {esc : Bool} {previous : Option UInt8} {b : UInt8}
    (h : escapes esc previous b = false) : b ≠ zdle ∧ isFlowControl b = false := by
  simp only [escapes, Bool.or_eq_false_iff] at h
  have hm := h.1.1
  simp only [mandatoryEscape, Bool.or_eq_false_iff, beq_eq_false_iff_ne] at hm
  obtain ⟨⟨⟨⟨⟨⟨h₁, h₂⟩, h₃⟩, h₄⟩, h₅⟩, h₆⟩, h₇⟩ := hm
  refine ⟨h₁, ?_⟩
  simp [isFlowControl, h₄, h₅, h₆, h₇]

/-- The two ways a byte is sent. -/
theorem encodeZdleFrom_cons (esc : Bool) (previous : Option UInt8) (b : UInt8) (bs : List UInt8) :
    (∃ e, IsEscaped b e ∧
        encodeZdleFrom esc previous (b :: bs) = zdle :: e :: encodeZdleFrom esc (some b) bs) ∨
      (b ≠ zdle ∧ isFlowControl b = false ∧
        encodeZdleFrom esc previous (b :: bs) = b :: encodeZdleFrom esc (some b) bs) := by
  cases h : escapes esc previous b with
  | true =>
      refine Or.inl ⟨b ^^^ 0x40, isEscaped_of_control b (control_of_escapes h), ?_⟩
      rw [encodeZdleFrom, h]
      rfl
  | false =>
      obtain ⟨hz, hf⟩ := plain_of_not_escapes h
      refine Or.inr ⟨hz, hf, ?_⟩
      rw [encodeZdleFrom, h]
      rfl

/-! ### The ZDLE escape -/

/-- Any rest may follow. -/
def AnyRest : List UInt8 → Prop := fun _ => True

theorem decodeExactZdle_plain {b : UInt8} (hb : b ≠ zdle) (n : ℕ) (rest : List UInt8) :
    decodeExactZdle (b :: rest) (n + 1) =
      (decodeExactZdle rest n).map fun r => r.map fun (bytes, consumed) =>
        (b :: bytes, consumed + 1) := by
  cases rest <;> simp [decodeExactZdle, hb]

theorem decodeExactZdle_escaped {b e : UInt8} (he : IsEscaped b e) (n : ℕ) (rest : List UInt8) :
    decodeExactZdle (zdle :: e :: rest) (n + 1) =
      (decodeExactZdle rest n).map fun r => r.map fun (bytes, consumed) =>
        (b :: bytes, consumed + 2) := by
  simp [decodeExactZdle, he.decoded]

theorem scanPayload_plain {b : UInt8} (hb : b ≠ zdle) (decoded : ℕ) (rest : List UInt8) :
    scanPayload decoded (b :: rest) =
      (scanPayload (decoded + 1) rest).map fun r => r.map fun ((payload, frameEnd), consumed) =>
        ((b :: payload, frameEnd), consumed + 1) := by
  cases rest <;> simp [scanPayload, hb]

theorem scanPayload_escaped {b e : UInt8} (he : IsEscaped b e) {decoded : ℕ}
    (hle : decoded + 1 ≤ maxSubpacketBytes) (rest : List UInt8) :
    scanPayload decoded (zdle :: e :: rest) =
      (scanPayload (decoded + 1) rest).map fun r => r.map fun ((payload, frameEnd), consumed) =>
        ((b :: payload, frameEnd), consumed + 2) := by
  have hle : ¬ decoded + 1 > maxSubpacketBytes := by omega
  simp [scanPayload, he.not_frameEnd, he.decoded, hle]

theorem decodeExactZdle_encodeZdleFrom (esc : Bool) (bytes : List UInt8) :
    ∀ previous : Option UInt8, Decodes (fun input => decodeExactZdle input bytes.length) AnyRest
      (encodeZdleFrom esc previous bytes) bytes := by
  induction bytes with
  | nil =>
      intro previous
      refine ⟨fun rest _ => ?_, fun l t h ht => ?_⟩
      · simp [encodeZdleFrom, decodeExactZdle]
      · simp [encodeZdleFrom, ht] at h
  | cons b bs ih =>
      intro previous
      rcases encodeZdleFrom_cons esc previous b bs with ⟨e, he, henc⟩ | ⟨hz, -, henc⟩
      · rw [henc]
        refine (ih (some b)).shift (b :: ·) [zdle, e]
          (fun l => decodeExactZdle_escaped he bs.length l) fun l t h ht => ?_
        match l, h with
        | [], _ => simp [decodeExactZdle]
        | [z], h => rw [← (List.cons.inj h).1]; simp [decodeExactZdle]
        | [z, e'], h => simp [ht] at h
      · rw [henc]
        refine (ih (some b)).shift (b :: ·) [b]
          (fun l => decodeExactZdle_plain hz bs.length l) fun l t h ht => ?_
        match l, h with
        | [], _ => simp [decodeExactZdle]
        | [b'], h => simp [ht] at h

theorem decodeExactZdle_encodeZdle (esc : Bool) {bytes : List UInt8} {n : ℕ}
    (hn : bytes.length = n) :
    Decodes (fun input => decodeExactZdle input n) AnyRest (encodeZdle bytes esc) bytes := by
  subst hn
  exact decodeExactZdle_encodeZdleFrom esc bytes none

theorem scanPayload_encodeZdleFrom (esc : Bool) (frameEnd : FrameEnd) (bytes : List UInt8) :
    ∀ (previous : Option UInt8) (decoded : ℕ), decoded + bytes.length ≤ maxSubpacketBytes →
      Decodes (scanPayload decoded) AnyRest
        (encodeZdleFrom esc previous bytes ++ [zdle, frameEnd.byte]) (bytes, frameEnd) := by
  induction bytes with
  | nil =>
      intro previous decoded hle
      have hle : ¬ decoded > maxSubpacketBytes := by simp only [List.length_nil] at hle; omega
      refine ⟨fun rest _ => ?_, fun l t h ht => ?_⟩
      · simp [encodeZdleFrom, scanPayload]
      · rcases l with _ | ⟨z, _ | ⟨e, l⟩⟩
        · simp [scanPayload, hle]
        · rw [← (List.cons.inj h).1]
          simp [scanPayload]
        · simp [encodeZdleFrom, ht] at h
  | cons b bs ih =>
      intro previous decoded hle
      rw [List.length_cons] at hle
      have hwait : scanPayload decoded [] = .ok none := by
        have : ¬ decoded > maxSubpacketBytes := by omega
        simp [scanPayload, this]
      have ih := ih (some b) (decoded + 1) (by omega)
      rcases encodeZdleFrom_cons esc previous b bs with ⟨e, he, henc⟩ | ⟨hz, -, henc⟩
      · rw [henc]
        refine ih.shift (fun part => (b :: part.1, part.2)) [zdle, e]
          (fun l => scanPayload_escaped he (by omega) l) fun l t h ht => ?_
        rcases l with _ | ⟨z, _ | ⟨e', l⟩⟩
        · exact hwait
        · rw [← (List.cons.inj h).1]
          simp [scanPayload]
        · simp [ht] at h
      · rw [henc]
        refine ih.shift (fun part => (b :: part.1, part.2)) [b]
          (fun l => scanPayload_plain hz decoded l) fun l t h ht => ?_
        rcases l with _ | ⟨b', l⟩
        · exact hwait
        · simp [ht] at h

theorem scanPayload_encodeZdle (esc : Bool) (frameEnd : FrameEnd) {payload : List UInt8}
    (h : payload.length ≤ maxSubpacketBytes) :
    Decodes (scanPayload 0) AnyRest (encodeZdle payload esc ++ [zdle, frameEnd.byte])
      (payload, frameEnd) :=
  scanPayload_encodeZdleFrom esc frameEnd payload none 0 (by omega)

/-! ### Hexadecimal digits -/

theorem hexDigit_cases (v : UInt8) :
    fromHex (toHex (v >>> 4)) = some (v >>> 4) ∧ fromHex (toHex (v &&& 0x0f)) = some (v &&& 0x0f) ∧
      (v >>> 4) <<< 4 ||| (v &&& 0x0f) = v := by
  refine byte_cases (P := fun v => fromHex (toHex (v >>> 4)) = some (v >>> 4) ∧
    fromHex (toHex (v &&& 0x0f)) = some (v &&& 0x0f) ∧ (v >>> 4) <<< 4 ||| (v &&& 0x0f) = v) ?_ v
  decide

theorem decodeHexPairs_hexDigits (bytes : List UInt8) :
    decodeHexPairs (hexDigits bytes) = .ok bytes := by
  induction bytes with
  | nil => rfl
  | cons b bs ih =>
      obtain ⟨h₁, h₂, h₃⟩ := hexDigit_cases b
      have hcons : hexDigits (b :: bs) =
          toHex (b >>> 4) :: toHex (b &&& 0x0f) :: hexDigits bs := rfl
      rw [hcons, decodeHexPairs]
      simp only [h₁, h₂, ih, Except.map, h₃]

theorem hexDigits_length (bytes : List UInt8) : (hexDigits bytes).length = 2 * bytes.length := by
  induction bytes with
  | nil => rfl
  | cons b bs ih =>
      have hcons : hexDigits (b :: bs) =
          toHex (b >>> 4) :: toHex (b &&& 0x0f) :: hexDigits bs := rfl
      rw [hcons, List.length_cons, List.length_cons, List.length_cons, ih]
      omega

/-! ### Headers -/

theorem decodeHeaderBody_headerCrcBytes (h : Header) (checksum : Checksum) :
    decodeHeaderBody (headerCrcBytes h) (checkBytes checksum (headerCrcBytes h)) checksum =
      .ok ⟨h, checksum⟩ := by
  simp [decodeHeaderBody, headerCrcBytes, Except.map]

/-- The body of a header: its bytes and their check bytes. -/
def headerBody (h : Header) (checksum : Checksum) : List UInt8 :=
  headerCrcBytes h ++ checkBytes checksum (headerCrcBytes h)

theorem headerBody_length (h : Header) (checksum : Checksum) :
    (headerBody h checksum).length = headerBytes checksum := by
  simp only [headerBody, headerBytes, headerCrcBytes, List.length_append, checkBytes_length,
    List.length_cons, List.length_nil]

theorem decodeHeaderBody_headerBody (h : Header) (checksum : Checksum) :
    decodeHeaderBody ((headerBody h checksum).take 5) ((headerBody h checksum).drop 5) checksum =
      .ok ⟨h, checksum⟩ := decodeHeaderBody_headerCrcBytes h checksum

/-- A hexadecimal header up to its line end. -/
def hexHeaderLine (h : Header) : List UInt8 :=
  hexHeaderPrefix ++ (hexDigits (headerBody h .crc16) ++ [0x0d, 0x0a])

theorem encodeHexHeader_eq (h : Header) :
    encodeHexHeader h = hexHeaderLine h ++
      if h.frameType = .finish ∨ h.frameType = .ack then [] else [xon] := by
  simp [encodeHexHeader, hexHeaderLine, headerBody, checkBytes]

theorem hexBody_length (h : Header) : (hexDigits (headerBody h .crc16)).length = 14 := by
  rw [hexDigits_length, headerBody_length]
  rfl

/-- The beginning of a header prefix is waited on. -/
theorem parseHeaderAtStart_part {l t : List UInt8} {front : List UInt8}
    (hfront : front ∈ headerPrefixes) (h : front = l ++ t) (ht : t ≠ []) :
    parseHeaderAtStart l = .ok none := by
  simp only [headerPrefixes, List.mem_cons, List.not_mem_nil, or_false] at hfront
  have hlen := congrArg List.length h
  have htake : l = front.take l.length := by rw [h, List.take_left]
  have ht : 0 < t.length := List.length_pos_iff.mpr ht
  rw [List.length_append] at hlen
  have key : ∀ n < front.length, parseHeaderAtStart (front.take n) = .ok none := by
    rcases hfront with rfl | rfl | rfl <;> decide
  rw [htake]
  exact key _ (by omega)

theorem parseHeaderAtStart_hex (l : List UInt8) :
    parseHeaderAtStart (hexHeaderPrefix ++ l) = parseHexHeader (hexHeaderPrefix ++ l) := by
  rfl

theorem parseHeaderAtStart_binary (checksum : Checksum) (l : List UInt8) :
    parseHeaderAtStart (binaryHeaderPrefix checksum ++ l) =
      parseBinaryHeader (binaryHeaderPrefix checksum ++ l) checksum := by
  cases checksum <;> rfl

/-- A rest that does not begin with the optional XON of a hexadecimal header. -/
def NoXon (rest : List UInt8) : Prop := rest.head? ≠ some xon

theorem parseHeaderAtStart_hexHeaderLine (h : Header) :
    Decodes parseHeaderAtStart NoXon (hexHeaderLine h) ⟨h, .crc16⟩ := by
  have hlen := hexBody_length h
  refine ⟨fun rest hr => ?_, fun l t hl ht => ?_⟩
  · have hdrop : (hexHeaderLine h ++ rest).drop 4 =
        hexDigits (headerBody h .crc16) ++ ([0x0d, 0x0a] ++ rest) := by
      simp [hexHeaderLine, hexHeaderPrefix]
    have hdrop' : (hexHeaderLine h ++ rest).drop 18 = [0x0d, 0x0a] ++ rest := by
      rw [show 18 = 4 + (hexDigits (headerBody h .crc16)).length by rw [hlen], ← List.drop_drop,
        hdrop, List.drop_left]
    have hlength : (hexHeaderLine h).length = 20 := by
      simp [hexHeaderLine, hlen, hexHeaderPrefix]
    have hget : (hexHeaderLine h ++ rest)[20]? ≠ some xon := by
      rw [List.getElem?_append_right hlength.le, hlength, ← List.head?_eq_getElem?]
      exact hr
    have hparse : parseHeaderAtStart (hexHeaderLine h ++ rest) =
        parseHexHeader (hexHeaderLine h ++ rest) := by
      unfold hexHeaderLine
      rw [List.append_assoc]
      exact parseHeaderAtStart_hex _
    rw [hparse]
    unfold parseHexHeader
    have hbody : (((hexHeaderLine h ++ rest).drop 4).take 14) =
        hexDigits (headerBody h .crc16) := by
      rw [hdrop, ← hlen, List.take_left]
    have hlt : ¬ (hexHeaderLine h ++ rest).length < 19 := by
      rw [List.length_append, hlength]
      omega
    simp only [show hexHeaderPrefix.length = 4 from rfl, hexBodyBytes, Nat.reduceAdd, if_neg hlt,
      hbody, decodeHexPairs_hexDigits, hdrop', List.cons_append, List.nil_append, parseLineEnd,
      true_or, if_true, if_neg hget, decodeHeaderBody_headerBody, hlength]
    rfl
  · rcases List.append_eq_append_iff.mp hl with ⟨s, rfl, hs⟩ | ⟨s, hs, rfl⟩
    · rw [parseHeaderAtStart_hex]
      unfold parseHexHeader
      simp only [show hexHeaderPrefix.length = 4 from rfl, hexBodyBytes, Nat.reduceAdd]
      split_ifs with hlt
      · rfl
      · -- only the line feed is missing
        have hslen : s.length = 15 := by
          have h₁ := congrArg List.length hs
          have h₂ : 0 < t.length := List.length_pos_iff.mpr ht
          have h₃ : hexHeaderPrefix.length = 4 := rfl
          simp only [List.length_append, hlen, List.length_cons, List.length_nil, h₃] at h₁ hlt
          omega
        have hs' : s = hexDigits (headerBody h .crc16) ++ [0x0d] := by
          have htake : s = (hexDigits (headerBody h .crc16) ++ [0x0d, 0x0a]).take 15 := by
            rw [hs, ← hslen, List.take_left]
          rw [htake, show 15 = (hexDigits (headerBody h .crc16)).length + 1 by rw [hlen],
            List.take_length_add_append]
          rfl
        have hdrop : (hexHeaderPrefix ++ s).drop 4 = s := rfl
        have hdrop' : (hexHeaderPrefix ++ s).drop 18 = [0x0d] := by
          rw [show 18 = 4 + (hexDigits (headerBody h .crc16)).length by rw [hlen],
            ← List.drop_drop, hdrop, hs', List.drop_left]
        have hbody : s.take 14 = hexDigits (headerBody h .crc16) := by
          rw [hs', ← hlen, List.take_left]
        simp [hdrop, hdrop', hbody, decodeHexPairs_hexDigits, parseLineEnd]
    · by_cases hs' : s = []
      · subst hs'
        rw [List.append_nil] at hs
        rw [← hs]
        rfl
      · exact parseHeaderAtStart_part (by simp [headerPrefixes]) hs hs'

theorem parseHeaderAtStart_encodeBinaryHeader (h : Header) (checksum : Checksum) (esc : Bool) :
    Decodes parseHeaderAtStart AnyRest (encodeBinaryHeader h checksum esc) ⟨h, checksum⟩ := by
  have hbody := decodeExactZdle_encodeZdle esc (headerBody_length h checksum)
  have henc : encodeBinaryHeader h checksum esc =
      binaryHeaderPrefix checksum ++ encodeZdle (headerBody h checksum) esc := rfl
  have hlen : (binaryHeaderPrefix checksum).length = 3 := by cases checksum <;> rfl
  have hdrop : ∀ l, (binaryHeaderPrefix checksum ++ l).drop 3 = l := by
    intro l
    rw [← hlen, List.drop_left]
  rw [henc]
  refine ⟨fun rest hr => ?_, fun l t hl ht => ?_⟩
  · have hw := hbody.whole rest hr
    rw [List.append_assoc, parseHeaderAtStart_binary]
    unfold parseBinaryHeader
    simp only [hdrop, hw, decodeHeaderBody_headerBody, List.length_append, hlen]
    rfl
  · rcases List.append_eq_append_iff.mp hl with ⟨s, rfl, hs⟩ | ⟨s, hs, rfl⟩
    · have hp := hbody.part s t hs ht
      rw [parseHeaderAtStart_binary]
      unfold parseBinaryHeader
      simp only [hdrop, hp]
    · by_cases hs' : s = []
      · subst hs'
        rw [List.append_nil] at hs
        rw [← hs]
        cases checksum <;> rfl
      · refine parseHeaderAtStart_part ?_ hs hs'
        cases checksum <;> simp [headerPrefixes, binaryHeaderPrefix]

/-! ### Quiet streams -/

/-- A stream without flow-control bytes and without two CAN bytes in a row, that does not end in a
CAN byte. -/
structure Quiet (bytes : List UInt8) : Prop where
  no_flowControl : ∀ b ∈ bytes, isFlowControl b = false
  no_canPair : bytes.IsChain fun a b => ¬ (a = can ∧ b = can)
  last_ne : bytes.getLast? ≠ some can

namespace Quiet

theorem nil : Quiet [] := ⟨by simp, List.isChain_nil, by simp⟩

theorem append {as bs : List UInt8} (ha : Quiet as) (hb : Quiet bs) : Quiet (as ++ bs) := by
  refine ⟨fun b h => ?_, ?_, ?_⟩
  · rcases List.mem_append.mp h with h | h
    · exact ha.no_flowControl b h
    · exact hb.no_flowControl b h
  · rw [List.isChain_append]
    refine ⟨ha.no_canPair, hb.no_canPair, fun x hx y _ hxy => ha.last_ne ?_⟩
    rw [← hxy.1]
    exact hx
  · rw [List.getLast?_append]
    cases h : bs.getLast? with
    | none => exact ha.last_ne
    | some b => rw [Option.some_or, ← h]; exact hb.last_ne

theorem singleton {b : UInt8} (hf : isFlowControl b = false) (hc : b ≠ can) : Quiet [b] :=
  ⟨by simpa using hf, List.isChain_singleton b, by simpa using hc⟩

theorem escape {e : UInt8} (hf : isFlowControl e = false) (hc : e ≠ zdle) : Quiet [zdle, e] := by
  refine ⟨?_, ?_, by simpa using hc⟩
  · intro b hb
    simp only [List.mem_cons, List.not_mem_nil, or_false] at hb
    rcases hb with rfl | rfl
    · rfl
    · exact hf
  · simp [hc]

theorem of_forall {bytes : List UInt8}
    (h : ∀ b ∈ bytes, isFlowControl b = false ∧ b ≠ can) : Quiet bytes := by
  induction bytes with
  | nil => exact nil
  | cons b bs ih =>
      obtain ⟨hf, hc⟩ := h b List.mem_cons_self
      exact (singleton hf hc).append (ih fun b hb => h b (List.mem_cons_of_mem _ hb))

theorem flatMap {ι : Type} {f : ι → List UInt8} {l : List ι} (h : ∀ i ∈ l, Quiet (f i)) :
    Quiet (l.flatMap f) := by
  induction l with
  | nil => exact nil
  | cons i l ih =>
      rw [List.flatMap_cons]
      exact (h i List.mem_cons_self).append (ih fun i hi => h i (List.mem_cons_of_mem _ hi))

/-- No part of a quiet stream looks like a cancellation. -/
theorem not_cancelled {bytes : List UInt8} (pre input post : List UInt8) (h : Quiet bytes)
    (hb : bytes = pre ++ input ++ post) : containsRemoteCancel input = false := by
  have hchain : input.IsChain fun a b => ¬ (a = can ∧ b = can) :=
    h.no_canPair.infix ⟨pre, post, hb.symm⟩
  clear hb h
  induction input with
  | nil => rfl
  | cons b bs ih =>
      rw [containsRemoteCancel, ih hchain.tail, Bool.or_false]
      rw [Bool.eq_false_iff]
      intro hp
      obtain ⟨t, ht⟩ := List.isPrefixOf_iff_prefix.mp hp
      simp only [List.replicate, List.cons_append, List.nil_append, List.cons.injEq] at ht
      obtain ⟨rfl, rfl⟩ := ht
      exact (List.isChain_cons_cons.mp hchain).1 ⟨rfl, rfl⟩

theorem filter_eq {bytes : List UInt8} (h : Quiet bytes) :
    bytes.filter (fun b => !isFlowControl b) = bytes := by
  rw [List.filter_eq_self]
  intro b hb
  simp [h.no_flowControl b hb]

end Quiet

theorem quiet_encodeZdleFrom (esc : Bool) (bytes : List UInt8) :
    ∀ previous : Option UInt8, Quiet (encodeZdleFrom esc previous bytes) := by
  induction bytes with
  | nil => intro previous; exact .nil
  | cons b bs ih =>
      intro previous
      rcases encodeZdleFrom_cons esc previous b bs with ⟨e, he, henc⟩ | ⟨hz, hf, henc⟩
      · rw [henc]
        exact (Quiet.escape he.not_flowControl he.ne_zdle).append (ih _)
      · rw [henc]
        exact (Quiet.singleton hf hz).append (ih _)

theorem quiet_hexDigits (bytes : List UInt8) : Quiet (hexDigits bytes) := by
  have key : ∀ n < 256, (isFlowControl (toHex (UInt8.ofNat n >>> 4)) = false ∧
      toHex (UInt8.ofNat n >>> 4) ≠ can) ∧ isFlowControl (toHex (UInt8.ofNat n &&& 0x0f)) = false ∧
      toHex (UInt8.ofNat n &&& 0x0f) ≠ can := by
    decide
  refine Quiet.flatMap fun b _ => Quiet.of_forall ?_
  have h := byte_cases (P := fun b => (isFlowControl (toHex (b >>> 4)) = false ∧
    toHex (b >>> 4) ≠ can) ∧ isFlowControl (toHex (b &&& 0x0f)) = false ∧
      toHex (b &&& 0x0f) ≠ can) key b
  simpa using h

theorem quiet_hexHeaderLine (h : Header) : Quiet (hexHeaderLine h) := by
  have hpad : Quiet [zpad, zpad] := Quiet.of_forall (List.forall_iff_forall_mem.mp (by decide))
  exact (hpad.append (Quiet.escape (e := zhex) rfl (by decide))).append
    ((quiet_hexDigits _).append (Quiet.of_forall (List.forall_iff_forall_mem.mp (by decide))))

theorem quiet_encodeBinaryHeader (h : Header) (checksum : Checksum) (esc : Bool) :
    Quiet (encodeBinaryHeader h checksum esc) := by
  refine Quiet.append ?_ (quiet_encodeZdleFrom _ _ _)
  have hpad : Quiet [zpad] := Quiet.singleton rfl (by decide)
  cases checksum with
  | crc16 => exact hpad.append (Quiet.escape (e := zbin) rfl (by decide))
  | crc32 => exact hpad.append (Quiet.escape (e := zbin32) rfl (by decide))

theorem quiet_subpacketBytes (payload : List UInt8) (frameEnd : FrameEnd) (checksum : Checksum)
    (esc : Bool) : Quiet (subpacketBytes payload frameEnd checksum esc) := by
  refine ((quiet_encodeZdleFrom _ _ _).append ?_).append (quiet_encodeZdleFrom _ _ _)
  cases frameEnd <;> exact Quiet.escape rfl (by decide)

/-! ### Items -/

/-- A header or a data subpacket, with the way it is encoded. -/
inductive Item where
  | hexHeader (header : Header)
  | binaryHeader (header : Header) (checksum : Checksum) (escapeControlBytes : Bool)
  | subpacket (payload : List UInt8) (frameEnd : FrameEnd) (checksum : Checksum)
      (escapeControlBytes : Bool) (payload_le : payload.length ≤ maxSubpacketBytes)

inductive Decoded where
  | header (decoded : DecodedHeader)
  | subpacket (subpacket : Subpacket)
deriving DecidableEq, Repr

namespace Item

def encode : Item → List UInt8
  | hexHeader h => encodeHexHeader h
  | binaryHeader h checksum esc => encodeBinaryHeader h checksum esc
  | subpacket payload frameEnd checksum esc _ => subpacketBytes payload frameEnd checksum esc

/-- What the decoder is to make of an item. -/
def value : Item → Decoded
  | hexHeader h => .header ⟨h, .crc16⟩
  | binaryHeader h checksum _ => .header ⟨h, checksum⟩
  | subpacket payload frameEnd _ _ _ => .subpacket ⟨payload, frameEnd⟩

/-- The bytes of an item that reach the decoder's buffer. -/
def onWire : Item → List UInt8
  | hexHeader h => hexHeaderLine h
  | item => item.encode

theorem quiet_onWire (item : Item) : Quiet item.onWire := by
  cases item with
  | hexHeader h => exact quiet_hexHeaderLine h
  | binaryHeader h checksum esc => exact quiet_encodeBinaryHeader h checksum esc
  | subpacket payload frameEnd checksum esc hle =>
      exact quiet_subpacketBytes payload frameEnd checksum esc

/-- Only the XON of a hexadecimal header is lost on the way to the buffer. -/
theorem filter_encode (item : Item) :
    item.encode.filter (fun b => !isFlowControl b) = item.onWire := by
  have hq := item.quiet_onWire.filter_eq
  cases item with
  | hexHeader h =>
      have henc : (hexHeader h).encode = encodeHexHeader h := rfl
      rw [henc, encodeHexHeader_eq, List.filter_append]
      have hxon : (if h.frameType = .finish ∨ h.frameType = .ack then [] else [xon]).filter
          (fun b => !isFlowControl b) = [] := by split <;> rfl
      rw [hxon, List.append_nil]
      exact hq
  | binaryHeader h checksum esc => exact hq
  | subpacket payload frameEnd checksum esc hle => exact hq

end Item

namespace WireDecoder

/-- The call that decodes an item. -/
def next (d : WireDecoder) : Item → WireDecoder × Except Error (Option Decoded)
  | .hexHeader _ | .binaryHeader _ _ _ =>
    ((d.nextHeader).1, d.nextHeader.2.map fun r => r.map .header)
  | .subpacket _ _ checksum _ _ =>
    ((d.nextSubpacket checksum).1, (d.nextSubpacket checksum).2.map fun r => r.map .subpacket)

variable {d : WireDecoder}

/-- The beginning of a header is a header candidate. -/
theorem findHeaderCandidate_front {front body input future : List UInt8}
    (hfront : front ∈ headerPrefixes) (hne : input ≠ []) (h : input ++ future = front ++ body) :
    findHeaderCandidate input = some 0 := by
  have hc : isHeaderCandidate input = true := by
    unfold isHeaderCandidate
    rw [Bool.or_eq_true]
    rcases List.append_eq_append_iff.mp h with ⟨s, hs, -⟩ | ⟨s, hs, -⟩
    · by_cases hs' : s = []
      · subst hs'
        rw [List.append_nil] at hs
        refine Or.inl (List.any_eq_true.mpr ⟨front, hfront, ?_⟩)
        rw [hs]
        exact List.isPrefixOf_iff_prefix.mpr (List.prefix_refl _)
      · refine Or.inr (List.any_eq_true.mpr ⟨front, hfront, ?_⟩)
        have hlen : 0 < s.length := List.length_pos_iff.mpr hs'
        rw [Bool.and_eq_true, decide_eq_true_eq, List.isPrefixOf_iff_prefix, hs]
        exact ⟨by rw [List.length_append]; omega, List.prefix_append _ _⟩
    · refine Or.inl (List.any_eq_true.mpr ⟨front, hfront, ?_⟩)
      rw [hs]
      exact List.isPrefixOf_iff_prefix.mpr (List.prefix_append _ _)
  cases input with
  | nil => exact absurd rfl hne
  | cons b bs => rw [findHeaderCandidate, if_pos hc]

/-- **A header at the head of the stream is waited for or taken off the buffer.** -/
theorem nextHeader_stream {front bytes future rest : List UInt8} {x : DecodedHeader}
    {R : List UInt8 → Prop} (hfront : front ∈ headerPrefixes) (hb : front <+: bytes)
    (hdec : Decodes parseHeaderAtStart R bytes x) (hc : d.cancelled = false)
    (hin : d.input ++ future = bytes ++ rest) (hR : ∀ r, d.input = bytes ++ r → R r) :
    (d.nextHeader = (d, .ok none) ∧ ∃ t, t ≠ [] ∧ bytes = d.input ++ t ∧ future = t ++ rest) ∨
      ∃ r, d.input = bytes ++ r ∧ r ++ future = rest ∧
        d.nextHeader = ({ d with input := r }, .ok (some x)) := by
  obtain ⟨body, rfl⟩ := hb
  unfold nextHeader
  rw [hc]
  by_cases hne : d.input = []
  · refine Or.inl ⟨?_, ?_⟩
    · obtain ⟨input, consecutiveCan, remoteCancelled⟩ := d
      obtain rfl : input = [] := hne
      rfl
    · rw [hne, List.nil_append] at hin
      refine ⟨front ++ body, ?_, by rw [hne]; rfl, hin⟩
      simp only [headerPrefixes, List.mem_cons, List.not_mem_nil, or_false] at hfront
      rcases hfront with rfl | rfl | rfl <;> exact List.cons_ne_nil _ _
  · have hcand := findHeaderCandidate_front hfront hne
      (by rw [hin, List.append_assoc])
    rcases hdec.stream hin hR with ⟨hwait, t, ht, hbytes, hfut⟩ | ⟨r, hbuf, hrest, htake⟩
    · refine Or.inl ⟨?_, t, ht, hbytes, hfut⟩
      simp [hcand, hwait]
    · refine Or.inr ⟨r, hbuf, hrest, ?_⟩
      simp only [Bool.false_eq_true, if_false, hcand, List.drop_zero, htake]
      rw [hbuf, List.drop_left]

/-- **A data subpacket at the head of the stream is waited for or taken off the buffer.** -/
theorem nextSubpacket_stream {payload future rest : List UInt8} {frameEnd : FrameEnd}
    {checksum : Checksum} {esc : Bool} (hle : payload.length ≤ maxSubpacketBytes)
    (hc : d.cancelled = false)
    (hin : d.input ++ future = subpacketBytes payload frameEnd checksum esc ++ rest) :
    (d.nextSubpacket checksum = (d, .ok none) ∧
        ∃ t, t ≠ [] ∧ subpacketBytes payload frameEnd checksum esc = d.input ++ t ∧
          future = t ++ rest) ∨
      ∃ r, d.input = subpacketBytes payload frameEnd checksum esc ++ r ∧ r ++ future = rest ∧
        d.nextSubpacket checksum = ({ d with input := r }, .ok (some ⟨payload, frameEnd⟩)) := by
  have hscan := scanPayload_encodeZdle esc frameEnd hle
  have hcrc := decodeExactZdle_encodeZdle esc
    (checkBytes_length checksum (payload ++ [frameEnd.byte]))
  unfold subpacketBytes at hin ⊢
  unfold nextSubpacket
  rw [hc]
  rw [List.append_assoc] at hin
  rcases hscan.stream hin fun _ _ => trivial with
    ⟨hwait, t, ht, hbytes, hfut⟩ | ⟨r, hbuf, hrest, htake⟩
  · refine Or.inl ⟨?_, t ++ encodeZdle (checkBytes checksum (payload ++ [frameEnd.byte])) esc,
      by simp [ht], ?_, ?_⟩
    · simp [hwait]
    · rw [hbytes, List.append_assoc]
    · rw [hfut, List.append_assoc]
  · have hdrop : d.input.drop (encodeZdle payload esc ++ [zdle, frameEnd.byte]).length = r := by
      rw [hbuf, List.drop_left]
    rcases hcrc.stream hrest fun _ _ => trivial with
      ⟨hwait, t, ht, hbytes, hfut⟩ | ⟨r', hbuf', hrest', htake'⟩
    · refine Or.inl ⟨?_, t, ht, ?_, hfut⟩
      · simp only [Bool.false_eq_true, if_false, htake, hdrop, hwait]
      · rw [hbytes, hbuf]
        simp only [List.append_assoc]
    · refine Or.inr ⟨r', ?_, hrest', ?_⟩
      · rw [hbuf, hbuf']
        simp only [List.append_assoc]
      · simp only [Bool.false_eq_true, if_false, htake, hdrop, htake', ne_eq, not_true_eq_false]
        rw [← List.drop_drop, hdrop, hbuf', List.drop_left]

/-- **An item at the head of the stream is waited for or decoded.** -/
theorem next_stream {item : Item} {future rest : List UInt8} (hc : d.cancelled = false)
    (hf : ∀ b ∈ d.input, isFlowControl b = false)
    (hin : d.input ++ future = item.onWire ++ rest) :
    (d.next item = (d, .ok none) ∧
        ∃ t, t ≠ [] ∧ item.onWire = d.input ++ t ∧ future = t ++ rest) ∨
      ∃ r, d.input = item.onWire ++ r ∧ r ++ future = rest ∧
        d.next item = ({ d with input := r }, .ok (some item.value)) := by
  cases item with
  | hexHeader h =>
      have hnoXon : ∀ r, d.input = hexHeaderLine h ++ r → NoXon r := by
        intro r hr hx
        have hmem : xon ∈ d.input := by
          rw [hr]
          exact List.mem_append_right _ (List.mem_of_mem_head? hx)
        exact absurd (hf xon hmem) (by decide)
      have hfront : hexHeaderPrefix <+: hexHeaderLine h := List.prefix_append _ _
      unfold next
      rcases nextHeader_stream (by simp [headerPrefixes]) hfront
        (parseHeaderAtStart_hexHeaderLine h) hc hin hnoXon with ⟨heq, ht⟩ | ⟨r, hr, hrest, heq⟩
      · exact Or.inl ⟨by rw [heq]; rfl, ht⟩
      · exact Or.inr ⟨r, hr, hrest, by rw [heq]; rfl⟩
  | binaryHeader h checksum esc =>
      have hfront : binaryHeaderPrefix checksum ∈ headerPrefixes := by
        cases checksum <;> simp [headerPrefixes, binaryHeaderPrefix]
      have hpre : binaryHeaderPrefix checksum <+: encodeBinaryHeader h checksum esc :=
        List.prefix_append _ _
      unfold next
      rcases nextHeader_stream hfront hpre (parseHeaderAtStart_encodeBinaryHeader h checksum esc)
        hc hin fun _ _ => trivial with ⟨heq, ht⟩ | ⟨r, hr, hrest, heq⟩
      · exact Or.inl ⟨by rw [heq]; rfl, ht⟩
      · exact Or.inr ⟨r, hr, hrest, by rw [heq]; rfl⟩
  | subpacket payload frameEnd checksum esc hle =>
      rcases nextSubpacket_stream hle hc hin with ⟨heq, ht⟩ | ⟨r, hr, hrest, heq⟩
      · exact Or.inl ⟨by simp only [next, heq]; rfl, ht⟩
      · exact Or.inr ⟨r, hr, hrest, by simp only [next, heq]; rfl⟩

end WireDecoder

/-! ### Streams -/

/-- The stream of a list of items, as the decoder sees it. -/
def stream (items : List Item) : List UInt8 := items.flatMap Item.onWire

theorem quiet_stream (items : List Item) : Quiet (stream items) :=
  Quiet.flatMap fun item _ => item.quiet_onWire

theorem filter_encode_stream (items : List Item) :
    (items.flatMap Item.encode).filter (fun b => !isFlowControl b) = stream items := by
  induction items with
  | nil => rfl
  | cons item items ih =>
      rw [List.flatMap_cons, List.filter_append, item.filter_encode, ih]
      rfl

/-! ### Pushing a quiet stream -/

/-- A decoder that has seen the quiet stream `sent` counts at most one CAN byte. -/
structure Calm (d : WireDecoder) (sent : List UInt8) : Prop where
  not_cancelled : d.remoteCancelled = false
  can_le : d.consecutiveCan ≤ 1
  can_last : d.consecutiveCan = 1 → sent.getLast? = some can

namespace WireDecoder

theorem pushByte_calm {d : WireDecoder} {sent : List UInt8} {b : UInt8} (h : Calm d sent)
    (hchain : (sent ++ [b].filter fun b => !isFlowControl b).IsChain
      fun a b => ¬ (a = can ∧ b = can)) :
    Calm (d.pushByte b) (sent ++ [b].filter fun b => !isFlowControl b) ∧
      (d.pushByte b).input = d.input ++ [b].filter fun b => !isFlowControl b := by
  obtain ⟨input, n, cancelled⟩ := d
  obtain ⟨hc, hle, hlast⟩ := h
  simp only at hc hle hlast
  by_cases hb : b = can
  · subst hb
    have hflow : isFlowControl can = false := rfl
    have hfilter : ([can].filter fun b => !isFlowControl b) = [can] := rfl
    have hn : n ≠ 1 := by
      intro hn
      rw [hfilter, List.isChain_append] at hchain
      exact hchain.2.2 can (hlast hn) can rfl ⟨rfl, rfl⟩
    have hn : n = 0 := by omega
    subst hn
    exact ⟨⟨by simp [pushByte, hflow, hc], by simp [pushByte, hflow], fun _ => by simp [hfilter]⟩,
      by simp [pushByte, hflow]⟩
  · cases hf : isFlowControl b with
    | true =>
        exact ⟨⟨by simp [pushByte, hb, hf, hc], by simp [pushByte, hb, hf],
          by simp [pushByte, hb, hf]⟩, by simp [pushByte, hb, hf]⟩
    | false =>
        exact ⟨⟨by simp [pushByte, hb, hf, hc], by simp [pushByte, hb, hf],
          by simp [pushByte, hb, hf]⟩, by simp [pushByte, hb, hf]⟩

theorem pushBytes_calm (bytes : List UInt8) : ∀ {d : WireDecoder} {sent : List UInt8}, Calm d sent →
    (sent ++ bytes.filter fun b => !isFlowControl b).IsChain (fun a b => ¬ (a = can ∧ b = can)) →
    Calm (bytes.foldl pushByte d) (sent ++ bytes.filter fun b => !isFlowControl b) ∧
      (bytes.foldl pushByte d).input = d.input ++ bytes.filter fun b => !isFlowControl b := by
  induction bytes with
  | nil =>
      intro d sent h _
      exact ⟨by simpa using h, by simp⟩
  | cons b bs ih =>
      intro d sent h hchain
      have hcons : (b :: bs).filter (fun b => !isFlowControl b) =
          [b].filter (fun b => !isFlowControl b) ++ bs.filter fun b => !isFlowControl b := by
        rw [← List.filter_append]
        rfl
      rw [hcons, ← List.append_assoc] at hchain ⊢
      obtain ⟨hcalm, hin⟩ := pushByte_calm h hchain.left_of_append
      obtain ⟨hcalm', hin'⟩ := ih hcalm hchain
      refine ⟨hcalm', ?_⟩
      rw [List.foldl_cons, hin', hin, List.append_assoc]

theorem push_ok {d d' : WireDecoder} {bytes : List UInt8} (h : d.push bytes = (d', .ok ())) :
    d' = bytes.foldl pushByte d := by
  unfold push at h
  split at h
  · simp at h
  · exact (Prod.mk.inj h).1.symm

/-- A buffered header is taken off the buffer. -/
theorem nextHeader_hexHeader {d : WireDecoder} {h : Header} {items : List Item}
    (hc : d.remoteCancelled = false) (hin : d.input = stream (.hexHeader h :: items)) :
    d.nextHeader = ({ d with input := stream items }, .ok (some ⟨h, .crc16⟩)) := by
  have hq := quiet_stream (.hexHeader h :: items)
  have hno : d.cancelled = false := by
    have := hq.not_cancelled [] d.input [] (by simp [hin])
    simp [cancelled, hc, this]
  have hflow : ∀ b ∈ d.input, isFlowControl b = false := by
    rw [hin]
    exact hq.no_flowControl
  have hhead : d.input ++ [] = hexHeaderLine h ++ stream items := by simp [hin, stream, Item.onWire]
  have hnoXon : ∀ r, d.input = hexHeaderLine h ++ r → NoXon r := by
    intro r hr hx
    have hmem : xon ∈ d.input := by
      rw [hr]
      exact List.mem_append_right _ (List.mem_of_mem_head? hx)
    exact absurd (hflow xon hmem) (by decide)
  rcases nextHeader_stream (by simp [headerPrefixes]) (List.prefix_append _ _)
    (parseHeaderAtStart_hexHeaderLine h) hno hhead hnoXon with ⟨-, t, ht, -, hfut⟩ | ⟨r, -, hrest, heq⟩
  · exact absurd (List.append_eq_nil_iff.mp hfut.symm).1 ht
  · rw [List.append_nil] at hrest
    rw [heq, hrest]

/-- A push of encoded items to an empty buffer leaves them there. -/
theorem push_items {items : List Item} {d : WireDecoder}
    (h : push {} (items.flatMap Item.encode) = (d, .ok ())) :
    d.remoteCancelled = false ∧ d.input = stream items := by
  have hcalm : Calm ({} : WireDecoder) [] := ⟨rfl, by simp, by simp⟩
  have hchain : ([] ++ (items.flatMap Item.encode).filter fun b => !isFlowControl b).IsChain
      fun a b => ¬ (a = can ∧ b = can) := by
    rw [filter_encode_stream]
    exact (quiet_stream items).no_canPair
  obtain ⟨hcalm', hin⟩ := pushBytes_calm (items.flatMap Item.encode) hcalm hchain
  rw [push_ok h]
  refine ⟨hcalm'.not_cancelled, ?_⟩
  rw [hin, filter_encode_stream]
  rfl

end WireDecoder

/-! ### Sessions -/

/-- A decoder and the items its caller still expects. -/
structure Session where
  decoder : WireDecoder
  items : List Item

inductive Event where
  | pushed (bytes : List UInt8)
  | waited
  | decoded (value : Decoded)
  | failed (error : Error)

/-- Push a chunk, or make the call that matches the next item. -/
inductive Session.Step : Session → Event → Session → Prop
  | push {d d' : WireDecoder} {items : List Item} {bytes : List UInt8} :
      d.push bytes = (d', .ok ()) → Step ⟨d, items⟩ (.pushed bytes) ⟨d', items⟩
  | wait {d d' : WireDecoder} {item : Item} {items : List Item} :
      d.next item = (d', .ok none) → Step ⟨d, item :: items⟩ .waited ⟨d', item :: items⟩
  | decode {d d' : WireDecoder} {item : Item} {items : List Item} {value : Decoded} :
      d.next item = (d', .ok (some value)) →
      Step ⟨d, item :: items⟩ (.decoded value) ⟨d', items⟩
  | fail {d d' : WireDecoder} {item : Item} {items : List Item} {error : Error} :
      d.next item = (d', .error error) →
      Step ⟨d, item :: items⟩ (.failed error) ⟨d', item :: items⟩

/-- The bytes pushed in a session. -/
def pushedBytes (events : List Event) : List UInt8 :=
  events.flatMap fun
    | .pushed bytes => bytes
    | _ => []

/-- The values decoded in a session. -/
def decodedValues (events : List Event) : List Decoded :=
  events.filterMap fun
    | .decoded value => some value
    | _ => none

/-- What holds of a session on `items` after `events`: the items are decoded in order, and the buffer
followed by what is still to come is the stream of the items left. -/
structure Session.OnTrack (items : List Item) (events : List Event) (future : List UInt8)
    (s : Session) : Prop where
  decoded : ∃ k, decodedValues events = (items.take k).map Item.value ∧ s.items = items.drop k
  no_failure : ∀ error, Event.failed error ∉ events
  calm : Calm s.decoder ((pushedBytes events).filter fun b => !isFlowControl b)
  buffer : s.decoder.input ++ future = stream s.items

namespace Session.OnTrack

variable {items : List Item} {events : List Event} {future : List UInt8} {s s' : Session}

/-- The buffer of a session on track is part of its stream. -/
theorem input_quiet (h : OnTrack items events future s) :
    s.decoder.cancelled = false ∧ ∀ b ∈ s.decoder.input, isFlowControl b = false := by
  have hq := quiet_stream s.items
  have hno := hq.not_cancelled [] s.decoder.input future (by rw [List.nil_append, h.buffer])
  refine ⟨?_, fun b hb => hq.no_flowControl b ?_⟩
  · unfold WireDecoder.cancelled
    rw [h.calm.not_cancelled, hno]
    rfl
  · rw [← h.buffer]
    exact List.mem_append_left _ hb

/-- **The call for the next item waits, or decodes exactly that item.** -/
theorem next (h : OnTrack items events future s) {item : Item} {rest : List Item}
    (hitems : s.items = item :: rest) :
    (s.decoder.next item = (s.decoder, .ok none) ∧ future ≠ []) ∨
      ∃ r, s.decoder.next item = ({ s.decoder with input := r }, .ok (some item.value)) ∧
        r ++ future = stream rest := by
  obtain ⟨hc, hf⟩ := h.input_quiet
  have hbuf := h.buffer
  rw [hitems, stream, List.flatMap_cons] at hbuf
  rcases WireDecoder.next_stream hc hf hbuf with ⟨heq, t, ht, -, hfut⟩ | ⟨r, -, hrest, heq⟩
  · refine Or.inl ⟨heq, ?_⟩
    rw [hfut]
    simp [ht]
  · exact Or.inr ⟨r, heq, hrest⟩

theorem step {event : Event} (h : OnTrack items events future s) (hs : Step s event s')
    {future' : List UInt8}
    (hfut : ((pushedBytes [event]).filter fun b => !isFlowControl b) ++ future' = future)
    (hquiet : ((pushedBytes events).filter fun b => !isFlowControl b) ++ future = stream items) :
    OnTrack items (events ++ [event]) future' s' := by
  have hdec : decodedValues (events ++ [event]) = decodedValues events ++ decodedValues [event] :=
    List.filterMap_append
  have hpush : pushedBytes (events ++ [event]) = pushedBytes events ++ pushedBytes [event] :=
    List.flatMap_append
  have hfail : ∀ error, Event.failed error ∉ events := h.no_failure
  obtain ⟨k, hk, hitems⟩ := h.decoded
  cases hs with
  | @push d d' items' bytes hpushed =>
      obtain rfl := WireDecoder.push_ok hpushed
      have hbytes : pushedBytes [Event.pushed bytes] = bytes := by simp [pushedBytes]
      rw [hbytes] at hfut hpush
      have hchain := (quiet_stream items).no_canPair
      rw [← hquiet, ← hfut, ← List.append_assoc] at hchain
      obtain ⟨hcalm, hin⟩ := WireDecoder.pushBytes_calm bytes h.calm hchain.left_of_append
      refine ⟨⟨k, ?_, hitems⟩, ?_, ?_, ?_⟩
      · rw [hdec, hk]
        simp [decodedValues]
      · simpa using hfail
      · rw [hpush, List.filter_append]
        exact hcalm
      · rw [hin, List.append_assoc, hfut]
        exact h.buffer
  | @wait d d' item items' hwait =>
      obtain rfl : future' = future := hfut
      rcases h.next (s := ⟨d, item :: items'⟩) rfl with ⟨heq, -⟩ | ⟨r, heq, -⟩
      · rw [hwait] at heq
        obtain ⟨rfl, -⟩ := Prod.mk.inj heq
        refine ⟨⟨k, ?_, hitems⟩, ?_, ?_, ?_⟩
        · rw [hdec, hk]
          simp [decodedValues]
        · simpa using hfail
        · rw [hpush, List.filter_append]
          simpa [pushedBytes] using h.calm
        · exact h.buffer
      · rw [hwait] at heq
        simp at heq
  | @decode d d' item items' value hdecode =>
      obtain rfl : future' = future := hfut
      rcases h.next (s := ⟨d, item :: items'⟩) rfl with ⟨heq, -⟩ | ⟨r, heq, hr⟩
      · rw [hdecode] at heq
        simp at heq
      · rw [hdecode] at heq
        obtain ⟨rfl, hvalue⟩ := Prod.mk.inj heq
        obtain rfl := Option.some.inj (Except.ok.inj hvalue)
        have hlt : k < items.length := by
          by_contra hle
          rw [List.drop_eq_nil_of_le (by omega)] at hitems
          simp at hitems
        have hget : items.drop k = items[k] :: items.drop (k + 1) := List.drop_eq_getElem_cons hlt
        rw [hget] at hitems
        obtain ⟨hitem, hitems⟩ := List.cons.inj hitems
        refine ⟨⟨k + 1, ?_, hitems⟩, ?_, ?_, ?_⟩
        · rw [hdec, hk, List.take_succ_eq_append_getElem hlt, List.map_append, ← hitem]
          rfl
        · simpa using hfail
        · rw [hpush, List.filter_append]
          have hcalm := h.calm
          refine ⟨hcalm.not_cancelled, hcalm.can_le, ?_⟩
          simpa [pushedBytes] using hcalm.can_last
        · exact hr
  | @fail d d' item items' error hfailed =>
      rcases h.next (s := ⟨d, item :: items'⟩) rfl with ⟨heq, -⟩ | ⟨r, heq, -⟩ <;>
        (rw [hfailed] at heq; simp at heq)

end Session.OnTrack

/-- Every session on a stream of items stays on track. -/
theorem Session.onTrack {items : List Item} {events : List Event} {s : Session}
    (h : Run Session.Step ⟨{}, items⟩ events s) : ∀ {future : List UInt8},
      ((pushedBytes events).filter fun b => !isFlowControl b) ++ future = stream items →
      OnTrack items events future s := by
  induction h with
  | refl =>
      intro future hfut
      refine ⟨⟨0, rfl, rfl⟩, by simp, ⟨rfl, Nat.zero_le 1, by simp⟩, hfut⟩
  | @snoc t u ls l _ hs ih =>
      intro future hfut
      have hpush : pushedBytes (ls ++ [l]) = pushedBytes ls ++ pushedBytes [l] :=
        List.flatMap_append
      rw [hpush, List.filter_append, List.append_assoc] at hfut
      exact (ih hfut).step hs rfl hfut

/-- **The wire codec round trip.**  Whatever chunks `raw` is pushed in, and whenever the calls are
made: where `raw` is the encodings of the items up to flow-control bytes, the calls decode exactly
the items, in order, and never fail; and once all of `raw` is pushed, the next call decodes the
next item, until the buffer is empty. -/
theorem wire_round_trip {items : List Item} {raw : List UInt8}
    (hraw : raw.filter (fun b => !isFlowControl b) =
      (items.flatMap Item.encode).filter fun b => !isFlowControl b)
    {events : List Event} {s : Session} (h : Run Session.Step ⟨{}, items⟩ events s)
    {unsent : List UInt8} (hsent : pushedBytes events ++ unsent = raw) :
    (∃ k, decodedValues events = (items.take k).map Item.value ∧ s.items = items.drop k) ∧
      (∀ error, Event.failed error ∉ events) ∧
      (∀ item rest, s.items = item :: rest → (s.decoder.next item).2 = .ok none ∨
        (s.decoder.next item).2 = .ok (some item.value)) ∧
      (unsent = [] → (s.items = [] → s.decoder.input = []) ∧
        ∀ item rest, s.items = item :: rest →
          (s.decoder.next item).2 = .ok (some item.value)) := by
  rw [filter_encode_stream, ← hsent, List.filter_append] at hraw
  have htrack := Session.onTrack h hraw
  refine ⟨htrack.decoded, htrack.no_failure, fun item rest hitems => ?_, fun hunsent => ⟨?_, ?_⟩⟩
  · rcases htrack.next hitems with ⟨heq, -⟩ | ⟨r, heq, -⟩
    · exact Or.inl (by rw [heq])
    · exact Or.inr (by rw [heq])
  · intro hitems
    have hbuf := htrack.buffer
    rw [hitems] at hbuf
    exact (List.append_eq_nil_iff.mp hbuf).1
  · intro item rest hitems
    rcases htrack.next hitems with ⟨-, hne⟩ | ⟨r, heq, -⟩
    · rw [hunsent] at hne
      exact absurd rfl hne
    · rw [heq]

/-- A ZRINIT header and a data subpacket of two bytes that are escaped. -/
def zrinitAndData : List Item :=
  [.hexHeader ⟨.receiverInit, 0, 0, 0, 0x63⟩,
    .subpacket [0x11, 0x18] .endAck .crc32 true (by decide)]

/-- Their encodings, with an XOFF before the second item. -/
def zrinitAndDataRaw : List UInt8 :=
  (Item.hexHeader ⟨.receiverInit, 0, 0, 0, 0x63⟩).encode ++ 0x13 ::
    subpacketBytes [0x11, 0x18] .endAck .crc32 true

theorem wire_round_trip_zrinitAndData :
    ∃ k, [Decoded.header ⟨⟨.receiverInit, 0, 0, 0, 0x63⟩, .crc16⟩] =
      (zrinitAndData.take k).map Item.value ∧
        [.subpacket [0x11, 0x18] .endAck .crc32 true (by decide)] = zrinitAndData.drop k := by
  have hpush : WireDecoder.push {} (zrinitAndDataRaw.take 24) =
      (⟨(zrinitAndDataRaw.take 24).filter (fun b => !isFlowControl b), 0, false⟩, .ok ()) := by
    decide
  have hnext : WireDecoder.next ⟨(zrinitAndDataRaw.take 24).filter fun b => !isFlowControl b, 0,
      false⟩ (.hexHeader ⟨.receiverInit, 0, 0, 0, 0x63⟩) =
        (⟨[zdle, 0x51], 0, false⟩, .ok (some (.header ⟨⟨.receiverInit, 0, 0, 0, 0x63⟩, .crc16⟩))) := by
    decide
  have hraw : zrinitAndDataRaw.filter (fun b => !isFlowControl b) =
      (zrinitAndData.flatMap Item.encode).filter fun b => !isFlowControl b := by
    decide
  have hsent : pushedBytes [.pushed (zrinitAndDataRaw.take 24),
      .decoded (.header ⟨⟨.receiverInit, 0, 0, 0, 0x63⟩, .crc16⟩)] ++ zrinitAndDataRaw.drop 24 =
        zrinitAndDataRaw := by
    decide
  exact (wire_round_trip hraw (Run.snoc (Run.single (Session.Step.push hpush)) (.decode hnext))
    hsent).1

end Netcatty.Serial.Zmodem
