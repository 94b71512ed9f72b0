import Netcatty.Serial.Zmodem.Codec

/-! # The ZMODEM wire decoder

The receive buffer of a transfer.  `push` drops the flow-control bytes and counts the CAN bytes in a
row; `nextHeader`, `nextSubpacket` and `nextOverAndOut` take one item off the buffer, answer `none`
where more bytes are needed, or report what is wrong with it. -/

namespace Netcatty.Serial.Zmodem

/-- The flow-control bytes, with either parity. -/
def isFlowControl (byte : UInt8) : Bool :=
  byte == 0x11 || byte == 0x13 || byte == 0x91 || byte == 0x93

structure WireDecoder where
  input : List UInt8 := []
  consecutiveCan : ℕ := 0
  remoteCancelled : Bool := false
deriving DecidableEq, Repr

namespace WireDecoder

def pushByte (d : WireDecoder) (byte : UInt8) : WireDecoder :=
  let d :=
    if byte = can then
      { d with
        consecutiveCan := d.consecutiveCan + 1
        remoteCancelled := d.remoteCancelled || decide (5 ≤ d.consecutiveCan + 1) }
    else { d with consecutiveCan := 0 }
  if isFlowControl byte then d else { d with input := d.input ++ [byte] }

def push (d : WireDecoder) (bytes : List UInt8) : WireDecoder × Except Error Unit :=
  if bytes.length > maxInputBytes ∨ d.input.length + bytes.length > maxInputBytes then
    (d, .error (.inputTooLarge maxInputBytes))
  else (bytes.foldl pushByte d, .ok ())

def reset (_ : WireDecoder) : WireDecoder := {}

/-- The bytes after the end of a batch. -/
def takeSuccessRemainder (d : WireDecoder) : WireDecoder × List UInt8 := ({}, d.input)

/-- The peer has sent five CAN bytes in a row. -/
def cancelled (d : WireDecoder) : Bool := d.remoteCancelled || containsRemoteCancel d.input

def nextHeader (d : WireDecoder) : WireDecoder × Except Error (Option DecodedHeader) :=
  if d.cancelled then ({}, .error .remoteCancelled)
  else
    match findHeaderCandidate d.input with
    | none => ({ d with input := retainPossibleHeaderPrefix d.input }, .ok none)
    | some candidate =>
      let input := d.input.drop candidate
      match parseHeaderAtStart input with
      | .ok (some (header, consumed)) => ({ d with input := input.drop consumed }, .ok (some header))
      | .ok none => ({ d with input }, .ok none)
      | .error e => ({ d with input := input.drop 1 }, .error e)

def nextSubpacket (d : WireDecoder) (checksum : Checksum) :
    WireDecoder × Except Error (Option Subpacket) :=
  if d.cancelled then ({}, .error .remoteCancelled)
  else
    match scanPayload 0 d.input with
    | .error (.subpacketTooLarge maximumBytes) =>
      ({ d with input := [] }, .error (.subpacketTooLarge maximumBytes))
    | .error e => (d, .error e)
    | .ok none => (d, .ok none)
    | .ok (some ((payload, frameEnd), cursor)) =>
      match decodeExactZdle (d.input.drop cursor) (crcBytes checksum) with
      | .error e => (d, .error e)
      | .ok none => (d, .ok none)
      | .ok (some (gotCrc, crcConsumed)) =>
        let d := { d with input := d.input.drop (cursor + crcConsumed) }
        if gotCrc ≠ checkBytes checksum (payload ++ [frameEnd.byte]) then (d, .error .crcMismatch)
        else (d, .ok (some ⟨payload, frameEnd⟩))

/-- The input after the first `OO`. -/
def afterOverAndOut : List UInt8 → Option (List UInt8)
  | [] => none
  | byte :: rest =>
    if overAndOut.isPrefixOf (byte :: rest) then some (rest.drop 1) else afterOverAndOut rest

def nextOverAndOut (d : WireDecoder) : WireDecoder × Except Error Bool :=
  if d.cancelled then ({}, .error .remoteCancelled)
  else
    match afterOverAndOut d.input with
    | some rest => ({ d with input := rest }, .ok true)
    | none =>
      if d.input.length > 1 then
        let retain := if d.input.getLast? = some 0x4f then 1 else 0
        ({ d with input := d.input.drop (d.input.length - retain) }, .ok false)
      else (d, .ok false)

/-! ### Progress

Each item taken off the buffer shortens it. -/

theorem parseHeaderAtStart_pos {l : List UInt8} {x : DecodedHeader} {n : ℕ}
    (h : parseHeaderAtStart l = .ok (some (x, n))) : 0 < n ∧ 0 < l.length := by
  have hne : 0 < l.length := by
    rw [List.length_pos_iff]
    rintro rfl
    simp [parseHeaderAtStart, hexHeaderPrefix, binary16HeaderPrefix, binary32HeaderPrefix] at h
  refine ⟨?_, hne⟩
  have hbinary : ∀ checksum, parseBinaryHeader l checksum = .ok (some (x, n)) → 0 < n := by
    intro checksum hb
    unfold parseBinaryHeader at hb
    split at hb
    · cases hb
    · cases hb
    · rename_i decoded consumed _
      cases hbody : decodeHeaderBody (decoded.take 5) (decoded.drop 5) checksum with
      | error e =>
          rw [hbody] at hb
          cases hb
      | ok header =>
          rw [hbody] at hb
          simp only [Except.map, Except.ok.injEq, Option.some.injEq, Prod.mk.injEq] at hb
          omega
  unfold parseHeaderAtStart at h
  split_ifs at h with hhex
  · unfold parseHexHeader at h
    simp only at h
    split_ifs at h with hlen
    · cases h
    split at h
    · cases h
    · rename_i decoded _
      split at h
      · cases h
      · cases h
      · rename_i lineEnd _
        cases hbody : decodeHeaderBody (decoded.take 5) (decoded.drop 5) .crc16 with
        | error e =>
            rw [hbody] at h
            cases h
        | ok header =>
            rw [hbody] at h
            simp only [Except.map, Except.ok.injEq, Option.some.injEq, Prod.mk.injEq] at h
            have hbytes : 0 < hexBodyBytes := by decide
            obtain ⟨-, rfl⟩ := h
            split_ifs <;> omega
  · exact hbinary _ h
  · exact hbinary _ h
  · cases h

theorem nextHeader_shortens {d d' : WireDecoder} {x : DecodedHeader}
    (h : d.nextHeader = (d', .ok (some x))) : d'.input.length < d.input.length := by
  unfold nextHeader at h
  split_ifs at h
  · cases h
  split at h
  · cases h
  · rename_i candidate _
    simp only at h
    split at h
    · rename_i header consumed hp
      obtain ⟨hpos, hlen⟩ := parseHeaderAtStart_pos hp
      obtain ⟨rfl, -⟩ := Prod.mk.inj h
      simp only [List.length_drop] at hlen ⊢
      omega
    · cases h
    · cases h

theorem scanPayload_pos {decoded : ℕ} {l : List UInt8} {x : List UInt8 × FrameEnd} {n : ℕ}
    (h : scanPayload decoded l = .ok (some (x, n))) : 0 < n ∧ 0 < l.length := by
  have hmap : ∀ {y : Except Error (Option ((List UInt8 × FrameEnd) × ℕ))} {byte : UInt8} {k : ℕ},
      (y.map fun r => r.map fun part =>
        ((byte :: part.1.1, part.1.2), part.2 + (k + 1))) = .ok (some (x, n)) → 0 < n := by
    intro y byte k hy
    cases y with
    | error e => cases hy
    | ok r =>
        cases r with
        | none => cases hy
        | some r =>
            simp only [Except.map, Option.map, Except.ok.injEq, Option.some.injEq,
              Prod.mk.injEq] at hy
            omega
  cases l with
  | nil =>
      unfold scanPayload at h
      split_ifs at h
      cases h
  | cons byte rest =>
      refine ⟨?_, by simp⟩
      unfold scanPayload at h
      split at h
      · exact hmap h
      split at h
      · cases h
      split at h
      · simp only [Except.ok.injEq, Option.some.injEq, Prod.mk.injEq] at h
        omega
      split at h
      · cases h
      split at h
      · cases h
      · exact hmap h

theorem nextSubpacket_shortens {d d' : WireDecoder} {checksum : Checksum} {x : Subpacket}
    (h : d.nextSubpacket checksum = (d', .ok (some x))) : d'.input.length < d.input.length := by
  unfold nextSubpacket at h
  split_ifs at h
  · cases h
  split at h
  · cases h
  · cases h
  · cases h
  · rename_i cursor hs
    obtain ⟨hpos, hlen⟩ := scanPayload_pos hs
    split at h
    · cases h
    · cases h
    · simp only at h
      split_ifs at h
      · cases h
      · obtain ⟨rfl, -⟩ := Prod.mk.inj h
        simp only [List.length_drop]
        omega

theorem afterOverAndOut_shortens {l rest : List UInt8} (h : afterOverAndOut l = some rest) :
    rest.length < l.length := by
  induction l with
  | nil => cases h
  | cons byte l ih =>
      unfold afterOverAndOut at h
      split_ifs at h
      · obtain rfl := Option.some.inj h
        simp only [List.length_drop, List.length_cons]
        omega
      · have := ih h
        simp only [List.length_cons]
        omega

theorem nextOverAndOut_shortens {d d' : WireDecoder} (h : d.nextOverAndOut = (d', .ok true)) :
    d'.input.length < d.input.length := by
  unfold nextOverAndOut at h
  split at h
  · cases h
  split at h
  · rename_i rest hrest
    obtain ⟨rfl, -⟩ := Prod.mk.inj h
    exact afterOverAndOut_shortens hrest
  · split at h <;> cases h

end WireDecoder

end Netcatty.Serial.Zmodem
