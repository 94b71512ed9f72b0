import Netcatty.Library.Runs
import Netcatty.Library.Scan
import Netcatty.Serial.Zmodem.Wire

/-! # The ZMODEM sentry

The sentry watches the terminal stream for the header that starts a transfer and passes every other
byte through.  Its loop is a scan of the buffer (`sentryLoop_eq_scan`) with a verdict that more bytes
do not change (`verdict_stable`), so it neither loses a byte nor depends on how the stream is pushed
(`sentry_detects_first`).  It reports the first initiating header behind positions that are ruled
out; a candidate that still waits for bytes holds back a header behind it
(`sentry_waits_on_candidate`). -/

set_option maxRecDepth 8000

namespace Netcatty.Serial.Zmodem

open Scan Runs

/-- A peer's ZRINIT asks to send, its ZRQINIT to receive. -/
inductive TransferDirection where
  | send
  | receive
deriving DecidableEq, Repr

structure Detection where
  direction : TransferDirection
  protocolBytes : List UInt8
deriving DecidableEq, Repr

structure SentryOutput where
  passthrough : List UInt8
  detected : Option Detection
deriving DecidableEq, Repr

structure Sentry where
  input : List UInt8 := []
deriving DecidableEq, Repr

/-- The direction that an initiating header asks for. -/
def initiatorDirection : FrameType → Option TransferDirection
  | .receiverInit => some .send
  | .requestInit => some .receive
  | _ => none

namespace Sentry

/-- The loop of `push`: each round but the last drops a byte. -/
def sentryLoop : ℕ → List UInt8 → List UInt8 → Sentry × SentryOutput
  | 0, input, passthrough => (⟨input⟩, ⟨passthrough, none⟩)
  | fuel + 1, input, passthrough =>
    match findHeaderCandidate input with
    | none => (⟨[]⟩, ⟨passthrough ++ input, none⟩)
    | some candidate =>
      let passthrough := passthrough ++ input.take candidate
      let input := input.drop candidate
      match parseHeaderAtStart input with
      | .ok (some (decoded, _)) =>
        match initiatorDirection decoded.header.frameType with
        | some direction => (⟨[]⟩, ⟨passthrough, some ⟨direction, input⟩⟩)
        | none =>
          -- an unrelated header is terminal data
          sentryLoop fuel (input.drop 1) (passthrough ++ input.take 1)
      | .ok none => (⟨input⟩, ⟨passthrough, none⟩)
      | .error _ => sentryLoop fuel (input.drop 1) (passthrough ++ input.take 1)

def push (s : Sentry) (bytes : List UInt8) : Sentry × Except Error SentryOutput :=
  if bytes.length > maxInputBytes ∨ s.input.length + bytes.length > maxInputBytes then
    (⟨[]⟩, .error (.inputTooLarge maxInputBytes))
  else
    let input := s.input ++ bytes
    let (s, output) := sentryLoop (input.length + 1) input []
    (s, .ok output)

end Sentry

/-! ### More bytes do not change a decision -/

theorem decodeExactZdle_extend (m : List UInt8) : ∀ (l : List UInt8) (n : ℕ),
    decodeExactZdle l n = .ok none ∨ decodeExactZdle (l ++ m) n = decodeExactZdle l n
  | _, 0 => Or.inr (by simp [decodeExactZdle])
  | [], n + 1 => Or.inl (by simp [decodeExactZdle])
  | [b], n + 1 => by
      by_cases hb : b = zdle
      · exact Or.inl (by simp [decodeExactZdle, hb])
      · cases n with
        | zero => exact Or.inr (by cases m <;> simp [decodeExactZdle, hb])
        | succ n => exact Or.inl (by simp [decodeExactZdle, hb, Except.map])
  | b :: c :: l, n + 1 => by
      by_cases hb : b = zdle
      · cases hc : decodeZdleByte c with
        | error e => exact Or.inr (by simp [decodeExactZdle, hb, hc])
        | ok v =>
            rcases decodeExactZdle_extend m l n with h | h
            · exact Or.inl (by simp [decodeExactZdle, hb, hc, h, Except.map])
            · exact Or.inr (by simp [decodeExactZdle, hb, hc, h])
      · rcases decodeExactZdle_extend m (c :: l) n with h | h
        · exact Or.inl (by simp [decodeExactZdle, hb, h, Except.map])
        · rw [List.cons_append] at h
          exact Or.inr (by simp [decodeExactZdle, hb, h])

theorem parseLineEnd_extend (l m : List UInt8) :
    parseLineEnd l = .ok none ∨ parseLineEnd (l ++ m) = parseLineEnd l := by
  match l with
  | [] => exact Or.inl rfl
  | [b] =>
      by_cases hb : b = 0x0d ∨ b = 0x8d
      · exact Or.inl (by simp [parseLineEnd, hb])
      · exact Or.inr (by simp [parseLineEnd, hb])
  | b :: c :: l => exact Or.inr (by simp [parseLineEnd])

/-- The header that a parser reports, whatever it takes off the input. -/
def headerOf (r : Except Error (Option (DecodedHeader × ℕ))) :
    Except Error (Option DecodedHeader) := r.map fun r => r.map Prod.fst

theorem headerOf_map (r : Except Error DecodedHeader) (n : ℕ) :
    headerOf (r.map fun header => some (header, n)) = r.map some := by
  cases r <;> rfl

theorem parseHexHeader_extend (l m : List UInt8) :
    parseHexHeader l = .ok none ∨
      headerOf (parseHexHeader (l ++ m)) = headerOf (parseHexHeader l) := by
  have hbegins : hexHeaderPrefix.length = 4 := rfl
  by_cases hlt : l.length < 19
  · refine Or.inl ?_
    unfold parseHexHeader
    simp only [hbegins, hexBodyBytes, Nat.reduceAdd, if_pos hlt]
  · have hlt' : ¬ (l ++ m).length < 19 := by rw [List.length_append]; omega
    have hbody : ((l ++ m).drop 4).take 14 = (l.drop 4).take 14 := by
      rw [List.drop_append_of_le_length (by omega),
        List.take_append_of_le_length (by rw [List.length_drop]; omega)]
    have hend : (l ++ m).drop 18 = l.drop 18 ++ m := List.drop_append_of_le_length (by omega)
    unfold parseHexHeader
    simp only [hbegins, hexBodyBytes, Nat.reduceAdd, if_neg hlt, if_neg hlt', hbody, hend]
    cases decodeHexPairs ((l.drop 4).take 14) with
    | error e => exact Or.inr rfl
    | ok decoded =>
        rcases parseLineEnd_extend (l.drop 18) m with hwait | hsame
        · exact Or.inl (by simp only [hwait])
        · rw [hsame]
          cases parseLineEnd (l.drop 18) with
          | error e => exact Or.inr rfl
          | ok lineEnd =>
              cases lineEnd with
              | none => exact Or.inl rfl
              | some n => exact Or.inr (by simp only [headerOf_map])

theorem parseBinaryHeader_extend (checksum : Checksum) {l : List UInt8} (hl : 3 ≤ l.length)
    (m : List UInt8) :
    parseBinaryHeader l checksum = .ok none ∨
      headerOf (parseBinaryHeader (l ++ m) checksum) = headerOf (parseBinaryHeader l checksum) := by
  have hdrop : (l ++ m).drop 3 = l.drop 3 ++ m := List.drop_append_of_le_length hl
  unfold parseBinaryHeader
  rw [hdrop]
  rcases decodeExactZdle_extend m (l.drop 3) (headerBytes checksum) with hwait | hsame
  · exact Or.inl (by rw [hwait])
  · rw [hsame]
    exact Or.inr rfl

/-- The input begins with `front`. -/
theorem isPrefixOf_extend {front l : List UInt8} (h : front.isPrefixOf l = true) (m : List UInt8) :
    front.isPrefixOf (l ++ m) = true := by
  rw [List.isPrefixOf_iff_prefix] at h ⊢
  exact h.trans (List.prefix_append l m)

/-- An input of at least four bytes has all of its prefix. -/
theorem isPrefixOf_extend_eq (front : List UInt8) {l : List UInt8} (h : front.length ≤ l.length) (m : List UInt8) :
    front.isPrefixOf (l ++ m) = front.isPrefixOf l := by
  rw [Bool.eq_iff_iff, List.isPrefixOf_iff_prefix, List.isPrefixOf_iff_prefix]
  refine ⟨fun hp => ?_, fun hp => hp.trans (List.prefix_append l m)⟩
  exact List.prefix_of_prefix_length_le hp (List.prefix_append l m) h

theorem parseHeaderAtStart_extend (l m : List UInt8) :
    parseHeaderAtStart l = .ok none ∨
      headerOf (parseHeaderAtStart (l ++ m)) = headerOf (parseHeaderAtStart l) := by
  -- the three prefixes exclude each other
  have hexcl : ∀ {front front' : List UInt8} {l' : List UInt8}, front.isPrefixOf l' = true →
      front'.isPrefixOf l' = true → front <+: front' ∨ front' <+: front := by
    intro front front' l' h h'
    rw [List.isPrefixOf_iff_prefix] at h h'
    exact List.prefix_or_prefix_of_prefix h h'
  unfold parseHeaderAtStart
  by_cases hhex : hexHeaderPrefix.isPrefixOf l = true
  · rw [if_pos hhex, if_pos (isPrefixOf_extend hhex m)]
    exact parseHexHeader_extend l m
  rw [if_neg hhex]
  have hnot : ∀ {front : List UInt8}, front.isPrefixOf l = true →
      ¬ (hexHeaderPrefix <+: front ∨ front <+: hexHeaderPrefix) →
      hexHeaderPrefix.isPrefixOf (l ++ m) = false := by
    intro front hf hne
    rw [Bool.eq_false_iff]
    intro hp
    exact hne (hexcl hp (isPrefixOf_extend hf m))
  by_cases h16 : binary16HeaderPrefix.isPrefixOf l = true
  · have hlen : 3 ≤ l.length := (List.isPrefixOf_iff_prefix.mp h16).length_le
    rw [if_pos h16, hnot h16 (by decide), if_neg (by simp), if_pos (isPrefixOf_extend h16 m)]
    exact parseBinaryHeader_extend .crc16 hlen m
  rw [if_neg h16]
  by_cases h32 : binary32HeaderPrefix.isPrefixOf l = true
  · have hlen : 3 ≤ l.length := (List.isPrefixOf_iff_prefix.mp h32).length_le
    have hnot16 : binary16HeaderPrefix.isPrefixOf (l ++ m) = false := by
      rw [isPrefixOf_extend_eq binary16HeaderPrefix hlen, Bool.eq_false_iff]
      exact h16
    rw [if_pos h32, hnot h32 (by decide), if_neg (by simp), hnot16, if_neg (by simp),
      if_pos (isPrefixOf_extend h32 m)]
    exact parseBinaryHeader_extend .crc32 hlen m
  · exact Or.inl (by rw [if_neg h32])

/-- A beginning that is no candidate does not become one. -/
theorem isHeaderCandidate_extend {l : List UInt8} (h : isHeaderCandidate l = false)
    (m : List UInt8) : isHeaderCandidate (l ++ m) = false := by
  rw [Bool.eq_false_iff] at h ⊢
  intro hc
  apply h
  have key : ∃ front ∈ headerPrefixes, front <+: l ++ m ∨ l ++ m <+: front := by
    unfold isHeaderCandidate at hc
    rw [Bool.or_eq_true] at hc
    rcases hc with hc | hc
    · obtain ⟨front, hfront, hp⟩ := List.any_eq_true.mp hc
      exact ⟨front, hfront, Or.inl (List.isPrefixOf_iff_prefix.mp hp)⟩
    · obtain ⟨front, hfront, hp⟩ := List.any_eq_true.mp hc
      rw [Bool.and_eq_true] at hp
      exact ⟨front, hfront, Or.inr (List.isPrefixOf_iff_prefix.mp hp.2)⟩
  obtain ⟨front, hfront, hp⟩ := key
  have hcomp : front <+: l ∨ l <+: front := by
    rcases hp with hp | hp
    · exact List.prefix_or_prefix_of_prefix hp (List.prefix_append l m)
    · exact Or.inr ((List.prefix_append l m).trans hp)
  unfold isHeaderCandidate
  rw [Bool.or_eq_true]
  by_cases hlen : front.length ≤ l.length
  · refine Or.inl (List.any_eq_true.mpr ⟨front, hfront, List.isPrefixOf_iff_prefix.mpr ?_⟩)
    rcases hcomp with hf | hf
    · exact hf
    · exact hf.eq_of_length_le hlen ▸ List.prefix_refl _
  · refine Or.inr (List.any_eq_true.mpr ⟨front, hfront, ?_⟩)
    rw [Bool.and_eq_true, decide_eq_true_eq, List.isPrefixOf_iff_prefix]
    rcases hcomp with hf | hf
    · exact absurd hf.length_le hlen
    · exact ⟨by omega, hf⟩

/-! ### The verdict on a position -/

/-- What the sentry makes of the stream from one position on: it rules the position out, it finds an
initiating header there, or it needs more bytes. -/
def verdict (input : List UInt8) : Verdict TransferDirection :=
  if input.isEmpty then .wait
  else if isHeaderCandidate input then
    match headerOf (parseHeaderAtStart input) with
    | .ok none => .wait
    | .ok (some decoded) =>
      match initiatorDirection decoded.header.frameType with
      | some direction => .accept direction
      | none => .reject
    | .error _ => .reject
  else .reject

theorem verdict_cons (b : UInt8) (l : List UInt8) :
    verdict (b :: l) = if isHeaderCandidate (b :: l) then
      match headerOf (parseHeaderAtStart (b :: l)) with
      | .ok none => .wait
      | .ok (some decoded) =>
        match initiatorDirection decoded.header.frameType with
        | some direction => .accept direction
        | none => .reject
      | .error _ => .reject
    else .reject := rfl

/-- A verdict that does not wait is final. -/
theorem verdict_extend (l m : List UInt8) : verdict l = .wait ∨ verdict (l ++ m) = verdict l := by
  cases l with
  | nil => exact Or.inl rfl
  | cons b l =>
      cases hc : isHeaderCandidate (b :: l) with
      | false =>
          have hc' := isHeaderCandidate_extend hc m
          rw [List.cons_append] at hc' ⊢
          rw [verdict_cons, verdict_cons, hc, hc']
          exact Or.inr rfl
      | true =>
          have hwait : parseHeaderAtStart (b :: l) = .ok none → verdict (b :: l) = .wait := by
            intro h
            rw [verdict_cons, if_pos hc, h]
            rfl
          rcases parseHeaderAtStart_extend (b :: l) m with h | h
          · exact Or.inl (hwait h)
          · cases hc' : isHeaderCandidate (b :: l ++ m) with
            | true =>
                rw [List.cons_append] at h hc' ⊢
                rw [verdict_cons, verdict_cons, hc, hc', if_pos rfl, if_pos rfl, h]
                exact Or.inr rfl
            | false =>
                -- only a beginning of a prefix can stop being a candidate
                refine Or.inl (hwait ?_)
                have hfull : ∀ front ∈ headerPrefixes, ¬ front.isPrefixOf (b :: l) = true := by
                  intro front hfront hp
                  rw [isHeaderCandidate, Bool.or_eq_false_iff] at hc'
                  have := List.any_eq_false.mp hc'.1 front hfront
                  exact this (isPrefixOf_extend hp m)
                unfold parseHeaderAtStart
                rw [if_neg (hfull _ (by simp [headerPrefixes])),
                  if_neg (hfull _ (by simp [headerPrefixes])),
                  if_neg (hfull _ (by simp [headerPrefixes]))]

theorem verdict_stable : Stable verdict := by
  refine ⟨rfl, fun {l} h m => ?_, fun {l b} h m => ?_⟩
  · rcases verdict_extend l m with hw | he
    · rw [h] at hw
      simp at hw
    · rw [he, h]
  · rcases verdict_extend l m with hw | he
    · rw [h] at hw
      simp at hw
    · rw [he, h]

/-! ### The loop is a scan -/

theorem findHeaderCandidate_none {input : List UInt8} (h : findHeaderCandidate input = none) :
    ∀ j < input.length, isHeaderCandidate (input.drop j) = false := by
  induction input with
  | nil => intro j hj; simp at hj
  | cons b l ih =>
      intro j hj
      rw [findHeaderCandidate] at h
      split_ifs at h with hc
      cases j with
      | zero => simpa using hc
      | succ j => exact ih (Option.map_eq_none_iff.mp h) j (by simpa using hj)

theorem findHeaderCandidate_some {input : List UInt8} : ∀ {c : ℕ},
    findHeaderCandidate input = some c →
      (∀ j < c, isHeaderCandidate (input.drop j) = false) ∧ c < input.length ∧
        isHeaderCandidate (input.drop c) = true := by
  induction input with
  | nil => intro c h; simp [findHeaderCandidate] at h
  | cons b l ih =>
      intro c h
      rw [findHeaderCandidate] at h
      split_ifs at h with hc
      · obtain rfl := Option.some.inj h
        exact ⟨fun j hj => by omega, by simp, hc⟩
      · obtain ⟨c', hc', rfl⟩ := Option.map_eq_some_iff.mp h
        obtain ⟨hbefore, hlt, hat⟩ := ih hc'
        refine ⟨fun j hj => ?_, by simpa using hlt, hat⟩
        cases j with
        | zero => simpa using hc
        | succ j => exact hbefore j (by omega)

theorem verdict_of_not_candidate {input : List UInt8} {j : ℕ} (hj : j < input.length)
    (h : isHeaderCandidate (input.drop j) = false) : verdict (input.drop j) = .reject := by
  rw [List.drop_eq_getElem_cons hj] at h ⊢
  rw [verdict_cons, h, if_neg (by simp)]

namespace Sentry

/-- What the sentry does with the outcome of a scan. -/
def ofOutcome (passthrough : List UInt8) (o : Outcome UInt8 TransferDirection) :
    Sentry × SentryOutput :=
  match o.accepted with
  | some direction => (⟨[]⟩, ⟨passthrough ++ o.dropped, some ⟨direction, o.rest⟩⟩)
  | none => (⟨o.rest⟩, ⟨passthrough ++ o.dropped, none⟩)

theorem ofOutcome_dropAll (passthrough as : List UInt8) (o : Outcome UInt8 TransferDirection) :
    ofOutcome passthrough (o.dropAll as) = ofOutcome (passthrough ++ as) o := by
  unfold ofOutcome Outcome.dropAll
  cases o.accepted <;> simp

/-- **The sentry's loop scans its buffer.** -/
theorem sentryLoop_eq_scan (fuel : ℕ) : ∀ (input passthrough : List UInt8), input.length < fuel →
    sentryLoop fuel input passthrough = ofOutcome passthrough (scan verdict input) := by
  induction fuel with
  | zero => intro input passthrough h; omega
  | succ fuel ih =>
      intro input passthrough hfuel
      rw [sentryLoop]
      cases hcand : findHeaderCandidate input with
      | none =>
          have hskip := scan_skip (v := verdict) input [] fun j hj => by
            rw [List.append_nil]
            exact verdict_of_not_candidate hj (findHeaderCandidate_none hcand j hj)
          rw [List.append_nil] at hskip
          rw [hskip]
          simp [ofOutcome, Outcome.dropAll, scan]
      | some c =>
          obtain ⟨hbefore, hlt, hat⟩ := findHeaderCandidate_some hcand
          have hskip := scan_skip (v := verdict) (input.take c) (input.drop c) fun j hj => by
            rw [List.take_append_drop]
            rw [List.length_take] at hj
            exact verdict_of_not_candidate (by omega) (hbefore j (by omega))
          rw [List.take_append_drop] at hskip
          rw [hskip, ofOutcome_dropAll]
          cases hdrop : input.drop c with
          | nil => rw [List.drop_eq_nil_iff] at hdrop; omega
          | cons b l =>
              rw [hdrop] at hat
              have hverdict := verdict_cons b l
              have hlen : l.length < fuel := by
                have := congrArg List.length hdrop
                rw [List.length_drop, List.length_cons] at this
                omega
              rw [if_pos hat] at hverdict
              -- a byte that is ruled out is passed through
              have hreject : verdict (b :: l) = .reject →
                  sentryLoop fuel ((b :: l).drop 1) (passthrough ++ input.take c ++ (b :: l).take 1) =
                    ofOutcome (passthrough ++ input.take c) (scan verdict (b :: l)) := by
                intro h
                rw [scan, h]
                exact (ih l _ hlen).trans (ofOutcome_dropAll _ [b] (scan verdict l)).symm
              simp only [hdrop]
              cases hparse : parseHeaderAtStart (b :: l) with
              | error e =>
                  rw [hparse] at hverdict
                  simp only
                  exact hreject hverdict
              | ok r =>
                  rw [hparse] at hverdict
                  cases r with
                  | none =>
                      have hwait : verdict (b :: l) = .wait := hverdict
                      rw [scan, hwait]
                      simp [ofOutcome]
                  | some r =>
                      obtain ⟨decoded, consumed⟩ := r
                      simp only [headerOf, Except.map, Option.map_some] at hverdict
                      cases hdir : initiatorDirection decoded.header.frameType with
                      | none =>
                          rw [hdir] at hverdict
                          simp only [hdir]
                          exact hreject hverdict
                      | some direction =>
                          rw [hdir] at hverdict
                          rw [scan, hverdict]
                          simp [ofOutcome, hdir]

end Sentry

/-! ### Watching a stream -/

/-- A push that reports no detection. -/
inductive Sentry.Silent : Sentry → List UInt8 × List UInt8 → Sentry → Prop
  | push {s s' : Sentry} {bytes passthrough : List UInt8} :
      s.push bytes = (s', .ok ⟨passthrough, none⟩) → Silent s (bytes, passthrough) s'

/-- The bytes pushed so far. -/
def pushedSoFar (pushes : List (List UInt8 × List UInt8)) : List UInt8 := pushes.flatMap Prod.fst

/-- The bytes passed through so far. -/
def passedThrough (pushes : List (List UInt8 × List UInt8)) : List UInt8 := pushes.flatMap Prod.snd

namespace Sentry

variable {s s' : Sentry} {bytes : List UInt8} {output : SentryOutput}

/-- A push within the limits scans what is retained and what is pushed. -/
theorem push_ok (h : s.push bytes = (s', .ok output)) :
    output.passthrough = (scan verdict (s.input ++ bytes)).dropped ∧
      output.detected = (scan verdict (s.input ++ bytes)).accepted.map
        (⟨·, (scan verdict (s.input ++ bytes)).rest⟩) ∧
      (output.detected = none → s'.input = (scan verdict (s.input ++ bytes)).rest) := by
  unfold push at h
  split at h
  · simp at h
  · simp only [sentryLoop_eq_scan _ _ _ (Nat.lt_succ_self _), ofOutcome] at h
    cases hacc : (scan verdict (s.input ++ bytes)).accepted with
    | none =>
        rw [hacc] at h
        obtain ⟨rfl, hout⟩ := Prod.mk.inj h
        obtain rfl := Except.ok.inj hout
        exact ⟨rfl, rfl, fun _ => rfl⟩
    | some direction =>
        rw [hacc] at h
        obtain ⟨rfl, hout⟩ := Prod.mk.inj h
        obtain rfl := Except.ok.inj hout
        exact ⟨rfl, rfl, fun hnone => by simp at hnone⟩

/-- After silent pushes, the sentry stands where a scan of the whole stream waits. -/
theorem silent_scan {pushes : List (List UInt8 × List UInt8)} (h : Run Silent {} pushes s) :
    scan verdict (pushedSoFar pushes) = ⟨passedThrough pushes, none, s.input⟩ := by
  induction h with
  | refl => rfl
  | @snoc t u pushes l _ hs ih =>
      cases hs with
      | @push _ bytes passthrough hpush =>
          obtain ⟨hthrough, hdetected, hrest⟩ := push_ok hpush
          have hnone : (scan verdict (t.input ++ bytes)).accepted = none :=
            Option.map_eq_none_iff.mp hdetected.symm
          have hextend := scan_extend verdict_stable (pushedSoFar pushes) bytes (by rw [ih])
          have happend : pushedSoFar (pushes ++ [(bytes, passthrough)]) =
              pushedSoFar pushes ++ bytes := by simp [pushedSoFar]
          have hpassed : passedThrough (pushes ++ [(bytes, passthrough)]) =
              passedThrough pushes ++ passthrough := by simp [passedThrough]
          rw [happend, hpassed, hextend, ih, hrest rfl]
          simp only [Outcome.dropAll, hnone]
          rw [← hthrough]

end Sentry

/-- The first position that the sentry does not rule out holds a CRC-valid initiating header. -/
def FirstHeader (bytes : List UInt8) (i : ℕ) (direction : TransferDirection) : Prop :=
  FirstAccept verdict bytes i direction

theorem FirstHeader.le_length {bytes : List UInt8} {i : ℕ} {direction : TransferDirection}
    (h : FirstHeader bytes i direction) : i ≤ bytes.length := by
  by_contra hlt
  have haccept := h.accepted
  rw [List.drop_eq_nil_of_le (by omega), verdict_stable.nil] at haccept
  simp at haccept

namespace Sentry

variable {pushes pushes' : List (List UInt8 × List UInt8)} {s s₁ s' s₁' : Sentry}
  {bytes bytes' : List UInt8} {output output' : SentryOutput}

theorem silent_conserves (h : Run Silent {} pushes s) :
    passedThrough pushes ++ s.input = pushedSoFar pushes := by
  have hconserves := scan_conserves (v := verdict) (pushedSoFar pushes)
  rw [silent_scan h] at hconserves
  exact hconserves

/-- A push after silent ones goes on with the scan of the whole stream. -/
theorem scan_after_silent (hrun : Run Silent {} pushes s) (hpush : s.push bytes = (s', .ok output)) :
    ∃ rest, scan verdict (pushedSoFar pushes ++ bytes) =
        ⟨passedThrough pushes ++ output.passthrough, output.detected.map Detection.direction, rest⟩ ∧
      (∀ d, output.detected = some d → d.protocolBytes = rest) ∧
      (output.detected = none → s'.input = rest) := by
  obtain ⟨hthrough, hdetected, hrest⟩ := push_ok hpush
  have hscan := silent_scan hrun
  have hextend := scan_extend verdict_stable (pushedSoFar pushes) bytes (by rw [hscan])
  rw [hscan] at hextend
  refine ⟨(scan verdict (s.input ++ bytes)).rest, ?_, fun d hd => ?_, hrest⟩
  · rw [hextend, hthrough, hdetected, Option.map_map]
    simp [Outcome.dropAll, Function.comp_def]
  · rw [hdetected] at hd
    obtain ⟨direction, -, rfl⟩ := Option.map_eq_some_iff.mp hd
    rfl

/-- A push after silent ones reports exactly the first header of the stream so far. -/
theorem detected_iff (hrun : Run Silent {} pushes s) (hpush : s.push bytes = (s', .ok output))
    (d : Detection) : output.detected = some d ↔
      ∃ i, FirstHeader (pushedSoFar pushes ++ bytes) i d.direction ∧
        d.protocolBytes = (pushedSoFar pushes ++ bytes).drop i := by
  obtain ⟨rest, hscan, hprotocol, -⟩ := scan_after_silent hrun hpush
  constructor
  · intro hd
    have hfirst := firstAccept_of_scan (v := verdict) (l := pushedSoFar pushes ++ bytes)
      (b := d.direction) (by rw [hscan, hd]; rfl)
    have hsplit := scan_of_firstAccept verdict_stable hfirst
    refine ⟨_, hfirst, ?_⟩
    rw [hprotocol d hd]
    rw [hscan] at hsplit ⊢
    exact congrArg Outcome.rest hsplit
  · rintro ⟨i, hfirst, hrest⟩
    have hsplit := scan_of_firstAccept verdict_stable hfirst
    rw [hscan] at hsplit
    obtain ⟨-, hdirection, rfl⟩ := Outcome.mk.inj hsplit
    obtain ⟨d', hd', hdir⟩ := Option.map_eq_some_iff.mp hdirection
    have hbytes := hprotocol d' hd'
    obtain ⟨direction, protocolBytes⟩ := d
    obtain ⟨direction', protocolBytes'⟩ := d'
    simp only at hdir hbytes hrest
    rw [hd', hdir, hbytes, hrest]

/-- The first header splits the stream. -/
theorem passthrough_of_firstHeader (hrun : Run Silent {} pushes s)
    (hpush : s.push bytes = (s', .ok output)) {i : ℕ} {direction : TransferDirection}
    (h : FirstHeader (pushedSoFar pushes ++ bytes) i direction) :
    passedThrough pushes ++ output.passthrough = (pushedSoFar pushes ++ bytes).take i := by
  obtain ⟨rest, hscan, -, -⟩ := scan_after_silent hrun hpush
  have hsplit := scan_of_firstAccept verdict_stable h
  rw [hscan] at hsplit
  exact congrArg Outcome.dropped hsplit

/-- Two detections in one stream agree. -/
theorem detected_unique {stream rest rest' : List UInt8} {d d' : Detection}
    (hrun : Run Silent {} pushes s) (hrun' : Run Silent {} pushes' s')
    (hpush : s.push bytes = (s₁, .ok output)) (hpush' : s'.push bytes' = (s₁', .ok output'))
    (hd : output.detected = some d) (hd' : output'.detected = some d')
    (hstream : pushedSoFar pushes ++ bytes ++ rest = stream)
    (hstream' : pushedSoFar pushes' ++ bytes' ++ rest' = stream) :
    d.direction = d'.direction ∧
      passedThrough pushes ++ output.passthrough =
        passedThrough pushes' ++ output'.passthrough := by
  obtain ⟨i, hfirst, -⟩ := (detected_iff hrun hpush d).mp hd
  obtain ⟨i', hfirst', -⟩ := (detected_iff hrun' hpush' d').mp hd'
  have hthrough := passthrough_of_firstHeader hrun hpush hfirst
  have hthrough' := passthrough_of_firstHeader hrun' hpush' hfirst'
  have h₁ := hfirst.extend verdict_stable rest
  have h₂ := hfirst'.extend verdict_stable rest'
  rw [hstream] at h₁
  rw [hstream'] at h₂
  obtain ⟨rfl, hdir⟩ := h₁.unique h₂
  refine ⟨hdir, ?_⟩
  rw [hthrough, hthrough', ← List.take_append_of_le_length hfirst.le_length,
    ← List.take_append_of_le_length hfirst'.le_length, hstream, hstream']

end Sentry

/-- **The sentry conserves the stream and reports exactly the first header.**  After pushes that
reported nothing, passthrough and buffer are the stream so far.  The next push reports a detection
iff the stream has a first header, which splits it into passthrough and protocol bytes.  Where two
ways of pushing one stream both detect, they agree on the direction and on the split. -/
theorem sentry_detects_first {pushes : List (List UInt8 × List UInt8)} {s s₁ : Sentry}
    {bytes : List UInt8} {output : SentryOutput} (hrun : Run Sentry.Silent {} pushes s)
    (hpush : s.push bytes = (s₁, .ok output)) :
    passedThrough pushes ++ s.input = pushedSoFar pushes ∧
      (∀ d, output.detected = some d ↔
        ∃ i, FirstHeader (pushedSoFar pushes ++ bytes) i d.direction ∧
          d.protocolBytes = (pushedSoFar pushes ++ bytes).drop i) ∧
      (∀ i direction, FirstHeader (pushedSoFar pushes ++ bytes) i direction →
        passedThrough pushes ++ output.passthrough = (pushedSoFar pushes ++ bytes).take i) ∧
      ∀ {pushes' : List (List UInt8 × List UInt8)} {s' s₁' : Sentry} {bytes' : List UInt8}
        {output' : SentryOutput} {d d' : Detection} {rest rest' : List UInt8},
        Run Sentry.Silent {} pushes' s' → s'.push bytes' = (s₁', .ok output') →
        output.detected = some d → output'.detected = some d' →
        pushedSoFar pushes ++ bytes ++ rest = pushedSoFar pushes' ++ bytes' ++ rest' →
        d.direction = d'.direction ∧ passedThrough pushes ++ output.passthrough =
          passedThrough pushes' ++ output'.passthrough :=
  ⟨Sentry.silent_conserves hrun, Sentry.detected_iff hrun hpush,
    fun _ _ h => Sentry.passthrough_of_firstHeader hrun hpush h,
    fun hrun' hpush' hd hd' hstream =>
      Sentry.detected_unique hrun hrun' hpush hpush' hd hd' hstream rfl⟩

def zrqinit : List UInt8 := encodeHexHeader ⟨.requestInit, 0, 0, 0, 0⟩

/-- A prompt and a ZRQINIT header, in two pushes. -/
theorem sentry_detects_first_zrqinit :
    ∃ i, FirstHeader ([0x24] ++ zrqinit) i .receive ∧ zrqinit = ([0x24] ++ zrqinit).drop i := by
  have hsilent : Sentry.push {} (0x24 :: zrqinit.take 9) =
      (⟨zrqinit.take 9⟩, .ok ⟨[0x24], none⟩) := by decide
  have hdetected : Sentry.push ⟨zrqinit.take 9⟩ (zrqinit.drop 9) =
      (⟨[]⟩, .ok ⟨[], some ⟨.receive, zrqinit⟩⟩) := by decide
  have hstream : [0x24] ++ zrqinit = 0x24 :: zrqinit.take 9 ++ zrqinit.drop 9 := by decide
  have h := sentry_detects_first (Run.single (Sentry.Silent.push hsilent)) hdetected
  rw [hstream]
  exact (h.2.1 _).mp rfl

/-- A candidate for a hexadecimal header, and behind it a whole ZRINIT header in binary. -/
def heldBack : List UInt8 :=
  hexHeaderPrefix ++ encodeBinaryHeader ⟨.receiverInit, 0, 0, 0, 0x23⟩ .crc16 false

/-- **A candidate that waits for bytes holds back the header behind it.** -/
theorem sentry_waits_on_candidate :
    parseHeaderAtStart (heldBack.drop 4) =
        .ok (some (⟨⟨.receiverInit, 0, 0, 0, 0x23⟩, .crc16⟩, 10)) ∧
      Sentry.push {} heldBack = (⟨heldBack⟩, .ok ⟨[], none⟩) := by
  decide

end Netcatty.Serial.Zmodem
