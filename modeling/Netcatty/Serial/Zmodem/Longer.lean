import Netcatty.Serial.Zmodem.Sentry
import Netcatty.Serial.Zmodem.Subpackets

/-! # Longer buffers

What the decoder takes off a buffer it takes off every longer one, unless the bytes that follow
cancel the transfer: the item is the same and what follows stays behind it (`nextHeader_longer`,
`nextSubpacket_longer`, `nextOverAndOut_longer`). -/

namespace Netcatty.Serial.Zmodem

/-- The bytes that `push` puts into the buffer. -/
def buffered (bytes : List UInt8) : List UInt8 := bytes.filter (!isFlowControl ·)

theorem head_buffered (bytes : List UInt8) : (buffered bytes).head? ≠ some xon := by
  intro h
  have hmem := (List.mem_filter.mp (List.mem_of_mem_head? h)).2
  exact absurd hmem (by decide)

theorem buffered_eq_self_iff {bytes : List UInt8} :
    buffered bytes = bytes ↔ ∀ b ∈ bytes, isFlowControl b = false := by
  rw [buffered, List.filter_eq_self]
  simp

/-! ### Headers -/

theorem decodeExactZdle_consumed {l bytes : List UInt8} {n k : ℕ}
    (h : decodeExactZdle l n = .ok (some (bytes, k))) : k ≤ l.length := by
  have hmap : ∀ {l : List UInt8} {n k i : ℕ} {byte : UInt8} {bytes : List UInt8},
      ((decodeExactZdle l n).map fun r => r.map fun part =>
        (byte :: part.1, part.2 + i)) = .ok (some (bytes, k)) →
      ∃ bytes' k', decodeExactZdle l n = .ok (some (bytes', k')) ∧ k = k' + i := by
    intro l n k i byte bytes h
    rcases hr : decodeExactZdle l n with e | _ | ⟨bytes', k'⟩
    · rw [hr] at h
      cases h
    · rw [hr] at h
      cases h
    · rw [hr] at h
      simp only [Except.map, Option.map, Except.ok.injEq, Option.some.injEq, Prod.mk.injEq] at h
      exact ⟨bytes', k', rfl, h.2.symm⟩
  induction l, n using decodeExactZdle.induct generalizing bytes k with
  | case1 =>
      simp only [decodeExactZdle, Except.ok.injEq, Option.some.injEq, Prod.mk.injEq] at h
      omega
  | case2 => cases h
  | case3 n byte rest hbyte ih =>
      rw [decodeExactZdle_plain hbyte] at h
      obtain ⟨bytes', k', hrest, rfl⟩ := hmap h
      have := ih hrest
      simp only [List.length_cons]
      omega
  | case4 n byte hbyte => simp [decodeExactZdle, not_not.mp hbyte] at h
  | case5 n byte hbyte after rest e hdecode =>
      simp [decodeExactZdle, not_not.mp hbyte, hdecode] at h
  | case6 n byte hbyte after rest value hdecode ih =>
      simp only [decodeExactZdle, hbyte, if_false, hdecode] at h
      obtain ⟨bytes', k', hrest, rfl⟩ := hmap h
      have := ih hrest
      simp only [List.length_cons]
      omega

theorem decodeExactZdle_longer {l bytes : List UInt8} {n k : ℕ}
    (h : decodeExactZdle l n = .ok (some (bytes, k))) (u : List UInt8) :
    decodeExactZdle (l ++ u) n = .ok (some (bytes, k)) := by
  rcases decodeExactZdle_extend u l n with hwait | hsame
  · rw [hwait] at h
    cases h
  · rw [hsame, h]

theorem parseHexHeader_longer {l u : List UInt8} {x : DecodedHeader} {n : ℕ}
    (h : parseHexHeader l = .ok (some (x, n))) (hu : u.head? ≠ some xon) :
    n ≤ l.length ∧ parseHexHeader (l ++ u) = .ok (some (x, n)) := by
  have hbegins : hexHeaderPrefix.length = 4 := rfl
  have hlineEnd : ∀ {m : List UInt8} {k : ℕ}, parseLineEnd m = .ok (some k) → k ≤ m.length := by
    intro m k hm
    unfold parseLineEnd at hm
    split at hm
    · cases hm
    · split_ifs at hm
      · split at hm
        · cases hm
        · split_ifs at hm
          obtain rfl := Option.some.inj (Except.ok.inj hm)
          simp
      · obtain rfl := Option.some.inj (Except.ok.inj hm)
        simp
  unfold parseHexHeader at h ⊢
  simp only [hbegins, hexBodyBytes, Nat.reduceAdd] at h ⊢
  by_cases hlt : l.length < 19
  · rw [if_pos hlt] at h
    cases h
  rw [if_neg hlt] at h
  have hlt' : ¬ (l ++ u).length < 19 := by
    rw [List.length_append]
    omega
  have hbody : ((l ++ u).drop 4).take 14 = (l.drop 4).take 14 := by
    rw [List.drop_append_of_le_length (by omega),
      List.take_append_of_le_length (by rw [List.length_drop]; omega)]
  have hend : (l ++ u).drop 18 = l.drop 18 ++ u := List.drop_append_of_le_length (by omega)
  rw [if_neg hlt', hbody, hend]
  rcases hpairs : decodeHexPairs ((l.drop 4).take 14) with e | decoded
  · rw [hpairs] at h
    cases h
  rw [hpairs] at h
  simp only at h ⊢
  rcases hline : parseLineEnd (l.drop 18) with e | _ | lineEnd
  · rw [hline] at h
    cases h
  · rw [hline] at h
    cases h
  have hsame : parseLineEnd (l.drop 18 ++ u) = .ok (some lineEnd) := by
    rcases parseLineEnd_extend (l.drop 18) u with hwait | hsame
    · rw [hwait] at hline
      cases hline
    · rw [hsame, hline]
  have hle := hlineEnd hline
  rw [List.length_drop] at hle
  -- the optional XON is read in the shorter buffer or not at all
  have hxon : (l ++ u)[18 + lineEnd]? = some xon ↔ l[18 + lineEnd]? = some xon := by
    rcases Nat.lt_or_ge (18 + lineEnd) l.length with hin | hout
    · rw [List.getElem?_append_left hin]
    · have hfull : 18 + lineEnd = l.length := by omega
      rw [List.getElem?_append_right hout, List.getElem?_eq_none hout, hfull, Nat.sub_self,
        ← List.head?_eq_getElem?]
      simp [hu]
  rw [hline] at h
  rw [hsame]
  simp only at h ⊢
  simp only [hxon]
  refine ⟨?_, h⟩
  rcases hheader : decodeHeaderBody (decoded.take 5) (decoded.drop 5) .crc16 with e | header
  · rw [hheader] at h
    cases h
  · rw [hheader] at h
    simp only [Except.map, Except.ok.injEq, Option.some.injEq, Prod.mk.injEq] at h
    obtain ⟨-, rfl⟩ := h
    split_ifs with hin
    · obtain ⟨hlt, -⟩ := List.getElem?_eq_some_iff.mp hin
      omega
    · omega

theorem parseBinaryHeader_longer {l : List UInt8} {checksum : Checksum} {x : DecodedHeader} {n : ℕ}
    (hl : 3 ≤ l.length) (h : parseBinaryHeader l checksum = .ok (some (x, n))) (u : List UInt8) :
    n ≤ l.length ∧ parseBinaryHeader (l ++ u) checksum = .ok (some (x, n)) := by
  unfold parseBinaryHeader at h ⊢
  rw [List.drop_append_of_le_length hl]
  rcases hdecode : decodeExactZdle (l.drop 3) (headerBytes checksum) with e | _ | ⟨decoded, k⟩
  · rw [hdecode] at h
    cases h
  · rw [hdecode] at h
    cases h
  · rw [hdecode] at h
    rw [decodeExactZdle_longer hdecode u]
    refine ⟨?_, h⟩
    have hk := decodeExactZdle_consumed hdecode
    rw [List.length_drop] at hk
    simp only at h
    rcases hheader : decodeHeaderBody (decoded.take 5) (decoded.drop 5) checksum with e | header
    · rw [hheader] at h
      cases h
    · rw [hheader] at h
      simp only [Except.map, Except.ok.injEq, Option.some.injEq, Prod.mk.injEq] at h
      omega

theorem parseHeaderAtStart_longer {l u : List UInt8} {x : DecodedHeader} {n : ℕ}
    (h : parseHeaderAtStart l = .ok (some (x, n))) (hu : u.head? ≠ some xon) :
    n ≤ l.length ∧ parseHeaderAtStart (l ++ u) = .ok (some (x, n)) := by
  have hexclusive : ∀ {front front' : List UInt8}, front.isPrefixOf l = true →
      ¬ (front' <+: front ∨ front <+: front') → front'.isPrefixOf (l ++ u) = false := by
    intro front front' hfront hne
    rw [Bool.eq_false_iff]
    intro hp
    exact hne (List.prefix_or_prefix_of_prefix (List.isPrefixOf_iff_prefix.mp hp)
      (List.isPrefixOf_iff_prefix.mp (isPrefixOf_extend hfront u)))
  unfold parseHeaderAtStart at h ⊢
  by_cases hhex : hexHeaderPrefix.isPrefixOf l = true
  · rw [if_pos hhex] at h
    rw [if_pos (isPrefixOf_extend hhex u)]
    exact parseHexHeader_longer h hu
  rw [if_neg hhex] at h
  by_cases h16 : binary16HeaderPrefix.isPrefixOf l = true
  · have hlen : 3 ≤ l.length := (List.isPrefixOf_iff_prefix.mp h16).length_le
    rw [if_pos h16] at h
    rw [hexclusive h16 (by decide), if_neg (by simp), if_pos (isPrefixOf_extend h16 u)]
    exact parseBinaryHeader_longer hlen h u
  rw [if_neg h16] at h
  by_cases h32 : binary32HeaderPrefix.isPrefixOf l = true
  · have hlen : 3 ≤ l.length := (List.isPrefixOf_iff_prefix.mp h32).length_le
    rw [if_pos h32] at h
    rw [hexclusive h32 (by decide), if_neg (by simp), hexclusive h32 (by decide), if_neg (by simp),
      if_pos (isPrefixOf_extend h32 u)]
    exact parseBinaryHeader_longer hlen h u
  · rw [if_neg h32] at h
    cases h

theorem findHeaderCandidate_longer {l u : List UInt8} {candidate n : ℕ} {x : DecodedHeader}
    (h : findHeaderCandidate l = some candidate)
    (hparse : parseHeaderAtStart (l.drop candidate) = .ok (some (x, n))) :
    findHeaderCandidate (l ++ u) = some candidate := by
  induction l generalizing candidate with
  | nil => cases h
  | cons byte rest ih =>
      rw [findHeaderCandidate] at h
      rw [List.cons_append, findHeaderCandidate]
      split_ifs at h with hc
      · obtain rfl := Option.some.inj h
        rw [List.drop_zero] at hparse
        have hstart : isHeaderCandidate (byte :: rest ++ u) = true := by
          unfold parseHeaderAtStart at hparse
          unfold isHeaderCandidate
          rw [Bool.or_eq_true]
          refine .inl (List.any_eq_true.mpr ?_)
          split_ifs at hparse with hhex h16 h32
          · exact ⟨_, by simp [headerPrefixes], isPrefixOf_extend hhex u⟩
          · exact ⟨_, by simp [headerPrefixes], isPrefixOf_extend h16 u⟩
          · exact ⟨_, by simp [headerPrefixes], isPrefixOf_extend h32 u⟩
          · cases hparse
        rw [List.cons_append] at hstart
        rw [if_pos hstart]
      · obtain ⟨candidate', hrest, rfl⟩ := Option.map_eq_some_iff.mp h
        rw [Bool.not_eq_true] at hc
        have hnot := isHeaderCandidate_extend hc u
        rw [List.cons_append] at hnot
        rw [hnot, if_neg (by simp), ih hrest hparse]
        rfl

/-! ### Subpackets -/

theorem scanPayload_longer {l payload : List UInt8} {decoded cursor : ℕ} {frameEnd : FrameEnd}
    (h : scanPayload decoded l = .ok (some ((payload, frameEnd), cursor))) (u : List UInt8) :
    cursor ≤ l.length ∧
      scanPayload decoded (l ++ u) = .ok (some ((payload, frameEnd), cursor)) := by
  obtain ⟨pieces, rest, rfl, -⟩ := pieces_of_scanPayload h
  have hfits : ¬ ChecksLength decoded pieces := by
    intro hchecks
    rw [(scanPayload_pieces decoded pieces _).1 hchecks] at h
    cases h
  have hscan := fun rest => ((scanPayload_pieces decoded pieces
    (zdle :: frameEnd.byte :: rest)).2 hfits).trans
      (by rw [scanPayload_frameEnd (decoded + pieces.length)])
  rw [hscan] at h
  refine ⟨?_, ?_⟩
  · simp only [Except.map, Option.map_some, prepend, Except.ok.injEq, Option.some.injEq,
      Prod.mk.injEq] at h
    simp only [List.length_append, List.length_cons]
    omega
  · rw [List.append_assoc, List.cons_append, List.cons_append, hscan, h]

namespace WireDecoder

/-! ### The end of the batch -/

theorem afterOverAndOut_longer {l rest : List UInt8} (h : afterOverAndOut l = some rest)
    (u : List UInt8) : afterOverAndOut (l ++ u) = some (rest ++ u) := by
  induction l with
  | nil => cases h
  | cons byte l ih =>
      rw [afterOverAndOut] at h
      rw [List.cons_append, afterOverAndOut]
      split_ifs at h with hmarker
      · obtain rfl := Option.some.inj h
        have hlen := (List.isPrefixOf_iff_prefix.mp hmarker).length_le
        have hlonger := isPrefixOf_extend hmarker u
        rw [List.cons_append] at hlonger
        have hpos : 1 ≤ l.length := by
          simp only [overAndOut, List.length_cons, List.length_nil] at hlen
          omega
        rw [if_pos hlonger, List.drop_append_of_le_length hpos]
      · have hpos : overAndOut.length ≤ (byte :: l).length := by
          cases l with
          | nil => cases h
          | cons after l => simp [overAndOut]
        have hsame := isPrefixOf_extend_eq overAndOut hpos u
        rw [List.cons_append] at hsame
        rw [hsame, if_neg hmarker, ih h]

/-! ### The decoder -/

theorem containsRemoteCancel_drop {l : List UInt8} (h : containsRemoteCancel l = false) (n : ℕ) :
    containsRemoteCancel (l.drop n) = false := by
  induction l generalizing n with
  | nil => simpa using h
  | cons byte rest ih =>
      cases n with
      | zero => exact h
      | succ n =>
          rw [containsRemoteCancel, Bool.or_eq_false_iff] at h
          exact ih h.2 n

theorem cancelled_drop {d : WireDecoder} (h : d.cancelled = false) (n : ℕ) :
    ({ d with input := d.input.drop n } : WireDecoder).cancelled = false := by
  rw [cancelled, Bool.or_eq_false_iff] at h ⊢
  exact ⟨h.1, containsRemoteCancel_drop h.2 n⟩

variable {d d' w : WireDecoder} {u : List UInt8}

/-- `w` has the bytes of `d` and those of `u` after them, and is not cancelled. -/
structure Longer (u : List UInt8) (d w : WireDecoder) : Prop where
  input : w.input = d.input ++ u
  live : w.cancelled = false

theorem Longer.drop (h : Longer u d w) {n : ℕ} (hn : n ≤ d.input.length) :
    Longer u { d with input := d.input.drop n } { w with input := w.input.drop n } where
  input := by
    simp only [h.input]
    exact List.drop_append_of_le_length hn
  live := cancelled_drop h.live n

theorem nextHeader_longer {x : DecodedHeader} (hu : u.head? ≠ some xon)
    (h : d.nextHeader = (d', .ok (some x))) (hw : Longer u d w) :
    ∃ w', w.nextHeader = (w', .ok (some x)) ∧ Longer u d' w' := by
  unfold nextHeader at h ⊢
  split_ifs at h with hcancelled
  · cases h
  rw [if_neg (by simp [hw.live]), hw.input]
  split at h
  · cases h
  rename_i candidate hfind
  obtain ⟨-, hlt, -⟩ := findHeaderCandidate_some hfind
  simp only at h
  split at h
  · rename_i header consumed hparse
    obtain ⟨rfl, hx⟩ := Prod.mk.inj h
    obtain rfl := Option.some.inj (Except.ok.inj hx)
    obtain ⟨hle, hparse'⟩ := parseHeaderAtStart_longer hparse hu
    rw [List.length_drop] at hle
    have hat : (d.input ++ u).drop candidate = d.input.drop candidate ++ u :=
      List.drop_append_of_le_length hlt.le
    rw [findHeaderCandidate_longer hfind hparse]
    simp only [hat, hparse']
    refine ⟨_, rfl, ?_⟩
    have hdrop := hw.drop (n := candidate + consumed) (by omega)
    simp only [hw.input, ← List.drop_drop, hat] at hdrop
    exact hdrop
  · cases h
  · cases h

theorem nextSubpacket_longer {checksum : Checksum} {x : Subpacket}
    (h : d.nextSubpacket checksum = (d', .ok (some x))) (hw : Longer u d w) :
    ∃ w', w.nextSubpacket checksum = (w', .ok (some x)) ∧ Longer u d' w' := by
  unfold nextSubpacket at h ⊢
  split_ifs at h with hcancelled
  · cases h
  rw [if_neg (by simp [hw.live]), hw.input]
  split at h
  · cases h
  · cases h
  · cases h
  rename_i payload frameEnd cursor hscan
  obtain ⟨hcursor, hscan'⟩ := scanPayload_longer hscan u
  split at h
  · cases h
  · cases h
  rename_i gotCrc crcConsumed hcrc
  have hconsumed := decodeExactZdle_consumed hcrc
  rw [List.length_drop] at hconsumed
  simp only at h
  split_ifs at h with hsum
  · cases h
  obtain ⟨rfl, hx⟩ := Prod.mk.inj h
  rw [hscan']
  simp only [List.drop_append_of_le_length hcursor, decodeExactZdle_longer hcrc u]
  rw [if_neg hsum]
  refine ⟨_, by rw [hx], ?_⟩
  have hdrop := hw.drop (n := cursor + crcConsumed) (by omega)
  rwa [hw.input] at hdrop

theorem nextOverAndOut_longer (h : d.nextOverAndOut = (d', .ok true)) (hw : Longer u d w) :
    ∃ w', w.nextOverAndOut = (w', .ok true) ∧ w'.input = d'.input ++ u := by
  unfold nextOverAndOut at h ⊢
  split at h
  · cases h
  rw [if_neg (by simp [hw.live]), hw.input]
  split at h
  · rename_i rest hrest
    obtain ⟨rfl, -⟩ := Prod.mk.inj h
    rw [afterOverAndOut_longer hrest u]
    exact ⟨_, rfl, rfl⟩
  · split at h <;> cases h

/-! ### Buffers that hold no item -/

/-- A buffer without bytes, or one of a transfer the peer has cancelled. -/
def Dry (d : WireDecoder) : Prop := d.cancelled = true ∨ d.input = []

theorem dry_empty : Dry {} := .inr rfl

theorem nextHeader_dry (h : d.Dry) : d.nextHeader.1.Dry ∧ ∀ x, d.nextHeader.2 ≠ .ok (some x) := by
  unfold nextHeader
  split_ifs with hcancelled
  · exact ⟨dry_empty, fun x hx => by cases hx⟩
  · have hempty := h.resolve_left hcancelled
    rw [hempty]
    exact ⟨.inr rfl, fun x hx => by cases hx⟩

theorem nextSubpacket_dry (checksum : Checksum) (h : d.Dry) :
    (d.nextSubpacket checksum).1.Dry ∧ ∀ x, (d.nextSubpacket checksum).2 ≠ .ok (some x) := by
  unfold nextSubpacket
  split_ifs with hcancelled
  · exact ⟨dry_empty, fun x hx => by cases hx⟩
  · have hempty := h.resolve_left hcancelled
    have hscan : scanPayload 0 [] = .ok none := rfl
    rw [hempty, hscan]
    exact ⟨.inr hempty, fun x hx => by cases hx⟩

theorem nextOverAndOut_dry (h : d.Dry) :
    d.nextOverAndOut.1.Dry ∧ d.nextOverAndOut.2 ≠ .ok true := by
  unfold nextOverAndOut
  by_cases hcancelled : d.cancelled = true
  · rw [if_pos hcancelled]
    exact ⟨dry_empty, fun hx => by cases hx⟩
  · have hempty := h.resolve_left hcancelled
    have hnone : afterOverAndOut [] = none := rfl
    rw [if_neg hcancelled, hempty, hnone]
    simp only [List.length_nil, gt_iff_lt, Nat.not_lt_zero, if_false]
    exact ⟨.inr hempty, fun hx => by cases hx⟩

/-! ### The bytes of a push -/

theorem foldl_pushByte_input (bytes : List UInt8) :
    (bytes.foldl pushByte d).input = d.input ++ buffered bytes := by
  induction bytes generalizing d with
  | nil => simp [buffered]
  | cons byte bytes ih =>
      have hbyte : (d.pushByte byte).input = d.input ++ buffered [byte] := by
        unfold pushByte buffered
        split_ifs <;> simp_all
      rw [List.foldl_cons, ih, hbyte, List.append_assoc]
      congr 1
      exact (List.filter_append [byte] bytes).symm

/-- The beginning of the bytes of a push can be pushed in their stead. -/
theorem push_longer {bytes more : List UInt8} (h : d.push (bytes ++ more) = (w, .ok ())) :
    ∃ d', d.push bytes = (d', .ok ()) ∧ w.input = d'.input ++ buffered more := by
  refine ⟨bytes.foldl pushByte d, ?_, ?_⟩
  · unfold push at h ⊢
    split_ifs at h with hlong
    · cases (Prod.mk.inj h).2
    · rw [List.length_append] at hlong
      rw [if_neg (by omega)]
  · rw [push_ok h, List.foldl_append, foldl_pushByte_input]

end WireDecoder

end Netcatty.Serial.Zmodem
