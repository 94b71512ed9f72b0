import Mathlib.Algebra.Order.Ring.Rat
import Mathlib.Data.List.Nodup
import Mathlib.Tactic.Common

/-! # JSON texts

Values as a script has them, with the texts that they are written to and read from.  A text is its
code units.  How a number is written is a parameter: `NumberText` says that the numeral of a double
reads as that double.  `parse_textOf`: what is written reads as the value that was written. -/

namespace Netcatty.Json

abbrev Text := List UInt16

def units (s : String) : Text := s.toList.map fun c => c.toNat.toUInt16

inductive Value
  | null
  | bool (b : Bool)
  | number (q : ℚ)
  | string (s : Text)
  | array (items : List Value)
  | object (fields : List (Text × Value))
  /-- Whatever JSON has no text for: `undefined`, a number that is not finite, a function, an
  instance of a class. -/
  | other

/-! ### Strings -/

def isHighSurrogate (c : UInt16) : Bool := 0xd800 ≤ c && c ≤ 0xdbff

def isLowSurrogate (c : UInt16) : Bool := 0xdc00 ≤ c && c ≤ 0xdfff

/-- The letter behind a backslash, and the unit that it stands for. -/
def escapes : List (UInt16 × UInt16) :=
  [(0x22, 0x22), (0x5c, 0x5c), (0x2f, 0x2f), (0x62, 8), (0x66, 12), (0x6e, 10), (0x72, 13),
    (0x74, 9)]

def hexDigit (n : ℕ) : UInt16 := if n < 10 then (0x30 + n).toUInt16 else (0x57 + n).toUInt16

def hexDigitValue (c : UInt16) : Option ℕ :=
  if 0x30 ≤ c.toNat ∧ c.toNat ≤ 0x39 then some (c.toNat - 0x30)
  else if 0x61 ≤ c.toNat ∧ c.toNat ≤ 0x66 then some (c.toNat - 0x57)
  else if 0x41 ≤ c.toNat ∧ c.toNat ≤ 0x46 then some (c.toNat - 0x37)
  else none

def hexEscape (c : UInt16) : Text :=
  [0x5c, 0x75, hexDigit (c.toNat / 4096), hexDigit (c.toNat / 256 % 16),
    hexDigit (c.toNat / 16 % 16), hexDigit (c.toNat % 16)]

def hexValue (a b c d : UInt16) : Option UInt16 := do
  let a ← hexDigitValue a
  let b ← hexDigitValue b
  let c ← hexDigitValue c
  let d ← hexDigitValue d
  return (((a * 16 + b) * 16 + c) * 16 + d).toUInt16

/-- A unit that is no half of a pair. -/
def escapeUnit (c : UInt16) : Text :=
  if c = 0x22 then [0x5c, 0x22]
  else if c = 0x5c then [0x5c, 0x5c]
  else if c = 8 then [0x5c, 0x62]
  else if c = 9 then [0x5c, 0x74]
  else if c = 10 then [0x5c, 0x6e]
  else if c = 12 then [0x5c, 0x66]
  else if c = 13 then [0x5c, 0x72]
  else if c < 0x20 || isHighSurrogate c || isLowSurrogate c then hexEscape c
  else [c]

def escape : Text → Text
  | [] => []
  | [c] => escapeUnit c
  | c :: d :: rest =>
      if isHighSurrogate c && isLowSurrogate d then c :: d :: escape rest
      else escapeUnit c ++ escape (d :: rest)

def quoted (s : Text) : Text := 0x22 :: (escape s ++ [0x22])

/-- What stands behind a quotation mark, up to the next one. -/
def readString : Text → Option (Text × Text)
  | [] => none
  | c :: rest =>
      if c = 0x22 then some ([], rest)
      else if c = 0x5c then
        match rest with
        | [] => none
        | e :: rest =>
            if e = 0x75 then
              match rest with
              | h₁ :: h₂ :: h₃ :: h₄ :: rest =>
                  (hexValue h₁ h₂ h₃ h₄).bind fun u =>
                    (readString rest).map fun result => (u :: result.1, result.2)
              | _ => none
            else
              (escapes.lookup e).bind fun u =>
                (readString rest).map fun result => (u :: result.1, result.2)
      else if c < 0x20 then none
      else (readString rest).map fun result => (c :: result.1, result.2)

theorem hexDigitValue_hexDigit {n : ℕ} (h : n < 16) : hexDigitValue (hexDigit n) = some n := by
  have hall : ∀ n < 16, hexDigitValue (hexDigit n) = some n := by decide
  exact hall n h

theorem readString_hexEscape (c : UInt16) (rest : Text) :
    readString (hexEscape c ++ rest) =
      (readString rest).map fun result => (c :: result.1, result.2) := by
  have hc : c.toNat < 65536 := c.toNat_lt
  have hvalue : hexValue (hexDigit (c.toNat / 4096)) (hexDigit (c.toNat / 256 % 16))
      (hexDigit (c.toNat / 16 % 16)) (hexDigit (c.toNat % 16)) = some c := by
    simp only [hexValue, hexDigitValue_hexDigit (show c.toNat / 4096 < 16 by omega),
      hexDigitValue_hexDigit (show c.toNat / 256 % 16 < 16 by omega),
      hexDigitValue_hexDigit (show c.toNat / 16 % 16 < 16 by omega),
      hexDigitValue_hexDigit (show c.toNat % 16 < 16 by omega), Option.bind_eq_bind,
      Option.bind_some]
    rw [show ((c.toNat / 4096 * 16 + c.toNat / 256 % 16) * 16 + c.toNat / 16 % 16) * 16 +
      c.toNat % 16 = c.toNat by omega]
    exact congrArg some UInt16.ofNat_toNat
  unfold hexEscape
  simp only [List.cons_append, List.nil_append]
  rw [readString, if_neg (by decide), if_pos rfl, if_pos rfl, hvalue, Option.bind_some]

theorem readString_quote (rest : Text) : readString (0x22 :: rest) = some ([], rest) := by
  rw [readString.eq_def]
  exact if_pos rfl

theorem readString_plain {c : UInt16} (hquote : c ≠ 0x22) (hslash : c ≠ 0x5c) (hcontrol : ¬c < 0x20)
    (rest : Text) :
    readString (c :: rest) = (readString rest).map fun result => (c :: result.1, result.2) := by
  rw [readString.eq_def]
  dsimp only
  rw [if_neg hquote, if_neg hslash, if_neg hcontrol]

theorem readString_letter {e u : UInt16} (he : e ≠ 0x75) (hu : escapes.lookup e = some u)
    (rest : Text) : readString (0x5c :: e :: rest) =
      (readString rest).map fun result => (u :: result.1, result.2) := by
  rw [readString.eq_def]
  dsimp only
  rw [if_neg (by decide), if_pos rfl, if_neg he, hu, Option.bind_some]

theorem readString_escapeUnit (c : UInt16) (rest : Text) :
    readString (escapeUnit c ++ rest) =
      (readString rest).map fun result => (c :: result.1, result.2) := by
  unfold escapeUnit
  split_ifs with h₁ h₂ h₃ h₄ h₅ h₆ h₇ h₈
  · obtain rfl := h₁
    exact readString_letter (by decide) (by decide) rest
  · obtain rfl := h₂
    exact readString_letter (by decide) (by decide) rest
  · obtain rfl := h₃
    exact readString_letter (by decide) (by decide) rest
  · obtain rfl := h₄
    exact readString_letter (by decide) (by decide) rest
  · obtain rfl := h₅
    exact readString_letter (by decide) (by decide) rest
  · obtain rfl := h₆
    exact readString_letter (by decide) (by decide) rest
  · obtain rfl := h₇
    exact readString_letter (by decide) (by decide) rest
  · exact readString_hexEscape c rest
  · simp only [Bool.or_eq_true, not_or, decide_eq_true_eq] at h₈
    exact readString_plain h₁ h₂ h₈.1.1 rest

theorem not_special_of_surrogate {c : UInt16} (h : 0xd800 ≤ c) :
    c ≠ 0x22 ∧ c ≠ 0x5c ∧ ¬c < 0x20 := by
  rw [UInt16.le_iff_toNat_le] at h
  refine ⟨?_, ?_, ?_⟩
  · rintro rfl
    exact absurd h (by decide)
  · rintro rfl
    exact absurd h (by decide)
  · rw [UInt16.lt_iff_toNat_lt]
    intro hlt
    have hhigh : (0xd800 : UInt16).toNat = 0xd800 := rfl
    have hlow : (0x20 : UInt16).toNat = 0x20 := rfl
    omega

/-- **A string reads back.** -/
theorem readString_escape (s rest : Text) :
    readString (escape s ++ 0x22 :: rest) = some (s, rest) := by
  induction s using escape.induct with
  | case1 => exact readString_quote rest
  | case2 c =>
      rw [escape, readString_escapeUnit, readString_quote]
      rfl
  | case3 c d s hpair ih =>
      rw [escape, if_pos hpair, List.cons_append, List.cons_append]
      simp only [isHighSurrogate, isLowSurrogate, Bool.and_eq_true, decide_eq_true_eq] at hpair
      have hd : (0xd800 : UInt16) ≤ d :=
        UInt16.le_trans (by decide : (0xd800 : UInt16) ≤ 0xdc00) hpair.2.1
      obtain ⟨hc₁, hc₂, hc₃⟩ := not_special_of_surrogate hpair.1.1
      obtain ⟨hd₁, hd₂, hd₃⟩ := not_special_of_surrogate hd
      rw [readString_plain hc₁ hc₂ hc₃, readString_plain hd₁ hd₂ hd₃, ih]
      rfl
  | case4 c d s hpair ih =>
      rw [escape, if_neg hpair, List.append_assoc, readString_escapeUnit, ih]
      rfl

/-! ### Values -/

def isNumeral (c : UInt16) : Bool :=
  (0x30 ≤ c && c ≤ 0x39) || c = 0x2b || c = 0x2d || c = 0x2e || c = 0x45 || c = 0x65

/-- How numbers are written and read.  A double reads back from its numeral. -/
structure NumberText where
  double : ℚ → Prop
  integer : ∀ n : ℕ, n ≤ 2 ^ 53 → double n
  text : ℚ → Text
  read : Text → Option ℚ
  numeral : ∀ q, double q → text q ≠ [] ∧ ∀ c ∈ text q, isNumeral c = true
  read_text : ∀ q, double q → read (text q) = some q

variable (F : NumberText)

mutual

/-- `JSON.stringify`, of a value that has a text. -/
def textOf : Value → Text
  | .null => units "null"
  | .bool true => units "true"
  | .bool false => units "false"
  | .number q => F.text q
  | .string s => quoted s
  | .array items => 0x5b :: (itemsText items ++ [0x5d])
  | .object fields => 0x7b :: (fieldsText fields ++ [0x7d])
  | .other => []

def itemsText : List Value → Text
  | [] => []
  | [item] => textOf item
  | item :: items => textOf item ++ 0x2c :: itemsText items

def fieldsText : List (Text × Value) → Text
  | [] => []
  | [field] => fieldText field
  | field :: fields => fieldText field ++ 0x2c :: fieldsText fields

def fieldText : Text × Value → Text
  | (key, value) => quoted key ++ 0x3a :: textOf value

end

def isSpace (c : UInt16) : Bool := c = 0x20 || c = 9 || c = 10 || c = 13

def skipSpace (text : Text) : Text := text.dropWhile isSpace

/-- A field of a name that is there already takes its place. -/
def setField (key : Text) (value : Value) : List (Text × Value) → List (Text × Value)
  | [] => [(key, value)]
  | field :: fields =>
      if field.1 = key then (key, value) :: fields else field :: setField key value fields

def literals : List (Text × Value) :=
  [(units "null", .null), (units "true", .bool true), (units "false", .bool false)]

def readLiteral (text : Text) : Option (Value × Text) :=
  literals.findSome? fun literal =>
    if literal.1.isPrefixOf text then some (literal.2, text.drop literal.1.length) else none

def readNumber (text : Text) : Option (Value × Text) :=
  (F.read (text.takeWhile isNumeral)).map fun q => (.number q, text.dropWhile isNumeral)

mutual

def readValue : ℕ → Text → Option (Value × Text)
  | 0, _ => none
  | fuel + 1, text =>
      match skipSpace text with
      | [] => none
      | c :: rest =>
          if c = 0x22 then (readString rest).map fun result => (.string result.1, result.2)
          else if c = 0x5b then
            match skipSpace rest with
            | [] => none
            | d :: rest' =>
                if d = 0x5d then some (.array [], rest')
                else (readItems fuel rest).map fun result => (.array result.1, result.2)
          else if c = 0x7b then
            match skipSpace rest with
            | [] => none
            | d :: rest' =>
                if d = 0x7d then some (.object [], rest')
                else (readFields fuel [] rest).map fun result => (.object result.1, result.2)
          else if isNumeral c then readNumber F (c :: rest)
          else readLiteral (c :: rest)

def readItems : ℕ → Text → Option (List Value × Text)
  | 0, _ => none
  | fuel + 1, text =>
      (readValue fuel text).bind fun result =>
        match skipSpace result.2 with
        | [] => none
        | c :: rest =>
            if c = 0x5d then some ([result.1], rest)
            else if c = 0x2c then
              (readItems fuel rest).map fun items => (result.1 :: items.1, items.2)
            else none

/-- The fields before are those that were read. -/
def readFields : ℕ → List (Text × Value) → Text → Option (List (Text × Value) × Text)
  | 0, _, _ => none
  | fuel + 1, before, text =>
      match skipSpace text with
      | [] => none
      | c :: rest =>
          if c = 0x22 then
            (readString rest).bind fun key =>
              match skipSpace key.2 with
              | [] => none
              | d :: rest =>
                  if d = 0x3a then
                    (readValue fuel rest).bind fun result =>
                      let fields := setField key.1 result.1 before
                      match skipSpace result.2 with
                      | [] => none
                      | e :: rest =>
                          if e = 0x7d then some (fields, rest)
                          else if e = 0x2c then readFields fuel fields rest
                          else none
                  else none
          else none

end

/-- `JSON.parse`; every value takes a unit of its text at least. -/
def parse (text : Text) : Option Value :=
  (readValue F (text.length + 1) text).bind fun result =>
    if (skipSpace result.2).isEmpty then some result.1 else none

/-! ### The round trip -/

/-- A value with a text: its numbers are doubles and its fields have different names. -/
inductive Plain : Value → Prop
  | null : Plain .null
  | bool (b : Bool) : Plain (.bool b)
  | number {q : ℚ} (h : F.double q) : Plain (.number q)
  | string (s : Text) : Plain (.string s)
  | array {items : List Value} (h : ∀ item ∈ items, Plain item) : Plain (.array items)
  | object {fields : List (Text × Value)} (hnodup : (fields.map Prod.fst).Nodup)
      (h : ∀ field ∈ fields, Plain field.2) : Plain (.object fields)

mutual

/-- The depth of recursion that a value takes, at most. -/
def cost : Value → ℕ
  | .array items => 1 + itemsCost items
  | .object fields => 1 + fieldsCost fields
  | .null | .bool _ | .number _ | .string _ | .other => 1

def itemsCost : List Value → ℕ
  | [] => 0
  | item :: items => 1 + cost item + itemsCost items

def fieldsCost : List (Text × Value) → ℕ
  | [] => 0
  | field :: fields => 1 + fieldCost field + fieldsCost fields

def fieldCost : Text × Value → ℕ
  | (_, value) => cost value

end

/-- What stands behind a value does not go on with a numeral. -/
def Ends (rest : Text) : Prop := ∀ c ∈ rest.head?, isNumeral c = false

theorem ends_nil : Ends [] := nofun

theorem ends_cons {c : UInt16} (h : isNumeral c = false) (rest : Text) : Ends (c :: rest) := by
  intro d hd
  rwa [← Option.some.inj hd]

theorem skipSpace_cons {c : UInt16} (h : isSpace c = false) (rest : Text) :
    skipSpace (c :: rest) = c :: rest := by
  unfold skipSpace
  rw [List.dropWhile_cons, h]
  rfl

variable {F}

theorem ne_of_isNumeral {c d : UInt16} (hc : isNumeral c = true) (hd : isNumeral d = false) :
    c ≠ d := by
  rintro rfl
  rw [hc] at hd
  cases hd

theorem isSpace_of_isNumeral {c : UInt16} (h : isNumeral c = true) : isSpace c = false := by
  have h₁ := ne_of_isNumeral h (show isNumeral 0x20 = false from rfl)
  have h₂ := ne_of_isNumeral h (show isNumeral 9 = false from rfl)
  have h₃ := ne_of_isNumeral h (show isNumeral 10 = false from rfl)
  have h₄ := ne_of_isNumeral h (show isNumeral 13 = false from rfl)
  simp [isSpace, h₁, h₂, h₃, h₄]

/-- The first unit of a text. -/
theorem textOf_head {value : Value} (h : Plain F value) :
    ∃ c t, textOf F value = c :: t ∧ isSpace c = false ∧ c ≠ 0x5d := by
  cases h with
  | null => exact ⟨_, _, rfl, by decide, by decide⟩
  | bool b =>
      cases b with
      | false => exact ⟨_, _, rfl, by decide, by decide⟩
      | true => exact ⟨_, _, rfl, by decide, by decide⟩
  | @number q hq =>
      obtain ⟨hne, hall⟩ := F.numeral q hq
      obtain ⟨c, t, ht⟩ := List.exists_cons_of_ne_nil hne
      have hc : isNumeral c = true := hall c (ht ▸ List.mem_cons_self)
      exact ⟨c, t, by rw [textOf, ht], isSpace_of_isNumeral hc, ne_of_isNumeral hc rfl⟩
  | string s => exact ⟨_, _, by rw [textOf, quoted], by decide, by decide⟩
  | array h => exact ⟨_, _, by rw [textOf], by decide, by decide⟩
  | object hnodup h => exact ⟨_, _, by rw [textOf], by decide, by decide⟩

theorem itemsText_cons_cons (item item' : Value) (items : List Value) :
    itemsText F (item :: item' :: items) =
      textOf F item ++ 0x2c :: itemsText F (item' :: items) := by
  rw [itemsText]
  exact nofun

theorem fieldsText_cons_cons (field field' : Text × Value) (fields : List (Text × Value)) :
    fieldsText F (field :: field' :: fields) =
      fieldText F field ++ 0x2c :: fieldsText F (field' :: fields) := by
  rw [fieldsText]
  exact nofun

theorem itemsText_cons (item : Value) (items : List Value) :
    ∃ t, itemsText F (item :: items) = textOf F item ++ t := by
  cases items with
  | nil => exact ⟨[], by rw [itemsText, List.append_nil]⟩
  | cons item' items => exact ⟨_, itemsText_cons_cons item item' items⟩

theorem fieldsText_cons (field : Text × Value) (fields : List (Text × Value)) :
    ∃ t, fieldsText F (field :: fields) = 0x22 :: t := by
  obtain ⟨key, value⟩ := field
  cases fields with
  | nil => exact ⟨_, by rw [fieldsText, fieldText, quoted, List.cons_append]⟩
  | cons field' fields =>
      rw [fieldsText_cons_cons, fieldText, quoted, List.cons_append, List.cons_append]
      exact ⟨_, rfl⟩

theorem setField_of_fresh {key : Text} {value : Value} {fields : List (Text × Value)}
    (h : key ∉ fields.map Prod.fst) : setField key value fields = fields ++ [(key, value)] := by
  induction fields with
  | nil => rfl
  | cons field fields ih =>
      rw [List.map_cons, List.mem_cons, not_or] at h
      rw [setField, if_neg (Ne.symm h.1), ih h.2]
      rfl

theorem readNumber_text {q : ℚ} (hq : F.double q) {rest : Text} (hrest : Ends rest) :
    readNumber F (F.text q ++ rest) = some (.number q, rest) := by
  obtain ⟨-, hall⟩ := F.numeral q hq
  have htake : rest.takeWhile isNumeral = [] ∧ rest.dropWhile isNumeral = rest := by
    cases rest with
    | nil => exact ⟨rfl, rfl⟩
    | cons c rest =>
        have hc := hrest c rfl
        rw [List.takeWhile_cons, List.dropWhile_cons, hc]
        exact ⟨rfl, rfl⟩
  rw [readNumber, List.takeWhile_append_of_pos hall, List.dropWhile_append_of_pos hall, htake.1,
    htake.2, List.append_nil, F.read_text q hq]
  rfl

theorem readValue_literal (literal : Text × Value) (h : literal ∈ literals) {fuel : ℕ}
    {rest : Text} : readValue F (fuel + 1) (literal.1 ++ rest) = some (literal.2, rest) := by
  have hnull : units "null" = [0x6e, 0x75, 0x6c, 0x6c] := by decide
  have htrue : units "true" = [0x74, 0x72, 0x75, 0x65] := by decide
  have hfalse : units "false" = [0x66, 0x61, 0x6c, 0x73, 0x65] := by decide
  simp only [literals, List.mem_cons, List.not_mem_nil, or_false] at h
  obtain rfl | rfl | rfl := h
  · rw [hnull]
    simp [readValue, skipSpace, isSpace, isNumeral, readLiteral, literals, hnull]
  · rw [htrue]
    simp [readValue, skipSpace, isSpace, isNumeral, readLiteral, literals, hnull, htrue]
  · rw [hfalse]
    simp [readValue, skipSpace, isSpace, isNumeral, readLiteral, literals, hnull, htrue, hfalse]

mutual

theorem readValue_textOf (value : Value) (h : Plain F value) {fuel : ℕ} {rest : Text}
    (hfuel : cost value ≤ fuel) (hrest : Ends rest) :
    readValue F fuel (textOf F value ++ rest) = some (value, rest) := by
  cases fuel with
  | zero => cases value <;> simp [cost] at hfuel
  | succ fuel =>
  cases value with
  | null => exact readValue_literal (units "null", .null) (by simp [literals])
  | bool b =>
      cases b with
      | false => exact readValue_literal (units "false", .bool false) (by simp [literals])
      | true => exact readValue_literal (units "true", .bool true) (by simp [literals])
  | number q =>
      cases h with
      | number hq =>
          obtain ⟨hne, hall⟩ := F.numeral q hq
          obtain ⟨c, t, ht⟩ := List.exists_cons_of_ne_nil hne
          have hc : isNumeral c = true := hall c (ht ▸ List.mem_cons_self)
          have hread := readNumber_text hq hrest
          rw [textOf]
          rw [ht, List.cons_append] at hread ⊢
          rw [readValue, skipSpace_cons (isSpace_of_isNumeral hc)]
          dsimp only
          rw [if_neg (ne_of_isNumeral hc rfl), if_neg (ne_of_isNumeral hc rfl),
            if_neg (ne_of_isNumeral hc rfl), if_pos hc, hread]
  | string s =>
      rw [textOf, quoted, List.cons_append, List.append_assoc, readValue,
        skipSpace_cons (by decide)]
      dsimp only
      rw [if_pos rfl]
      exact congrArg (Option.map _) (readString_escape s rest)
  | array items =>
      cases h with
      | array hitems =>
          rw [textOf, List.cons_append, List.append_assoc, readValue, skipSpace_cons (by decide)]
          dsimp only
          rw [if_neg (by decide), if_pos rfl]
          cases items with
          | nil =>
              rw [itemsText, List.nil_append, List.singleton_append, skipSpace_cons (by decide)]
              exact if_pos rfl
          | cons item items =>
              rw [cost] at hfuel
              have hread : readItems F fuel (itemsText F (item :: items) ++ 0x5d :: rest) =
                  some (item :: items, rest) :=
                readItems_itemsText (item :: items) hitems (List.cons_ne_nil _ _) (by omega)
              obtain ⟨t, ht⟩ := @itemsText_cons F item items
              obtain ⟨c, u, hu, hspace, hbracket⟩ := textOf_head (hitems item List.mem_cons_self)
              have hhead : skipSpace (itemsText F (item :: items) ++ ([0x5d] ++ rest)) =
                  c :: (u ++ t ++ ([0x5d] ++ rest)) := by
                rw [ht, hu, List.cons_append, List.cons_append, skipSpace_cons hspace]
              rw [hhead]
              dsimp only
              rw [if_neg hbracket, List.singleton_append, hread]
              rfl
  | object fields =>
      cases h with
      | object hnodup hfields =>
          rw [textOf, List.cons_append, List.append_assoc, readValue, skipSpace_cons (by decide)]
          dsimp only
          rw [if_neg (by decide), if_neg (by decide), if_pos rfl]
          cases fields with
          | nil =>
              rw [fieldsText, List.nil_append, List.singleton_append, skipSpace_cons (by decide)]
              exact if_pos rfl
          | cons field fields =>
              rw [cost] at hfuel
              have hread : readFields F fuel [] (fieldsText F (field :: fields) ++ 0x7d :: rest) =
                  some (field :: fields, rest) :=
                readFields_fieldsText (field :: fields) hfields (List.cons_ne_nil _ _) hnodup
                  (by omega)
              obtain ⟨t, ht⟩ := @fieldsText_cons F field fields
              have hhead : skipSpace (fieldsText F (field :: fields) ++ ([0x7d] ++ rest)) =
                  0x22 :: (t ++ ([0x7d] ++ rest)) := by
                rw [ht, List.cons_append, skipSpace_cons (by decide)]
              rw [hhead]
              dsimp only
              rw [if_neg (by decide), List.singleton_append, hread]
              rfl
  | other => cases h

theorem readItems_itemsText (items : List Value) (h : ∀ item ∈ items, Plain F item)
    (hne : items ≠ []) {fuel : ℕ} {rest : Text} (hfuel : itemsCost items ≤ fuel) :
    readItems F fuel (itemsText F items ++ 0x5d :: rest) = some (items, rest) := by
  cases items with
  | nil => exact absurd rfl hne
  | cons item items =>
      rw [itemsCost] at hfuel
      obtain ⟨fuel, rfl⟩ := Nat.exists_eq_add_of_le' (show 1 ≤ fuel by omega)
      have hitem := h item List.mem_cons_self
      have hitems := fun item' hitem' => h item' (List.mem_cons_of_mem item hitem')
      rw [readItems]
      cases items with
      | nil =>
          rw [itemsText, readValue_textOf item hitem (by omega) (ends_cons rfl rest),
            Option.bind_some]
          dsimp only
          rw [skipSpace_cons (by decide)]
          exact if_pos rfl
      | cons item' items =>
          rw [itemsText_cons_cons, List.append_assoc, List.cons_append,
            readValue_textOf item hitem (by omega) (ends_cons rfl _), Option.bind_some]
          dsimp only
          rw [skipSpace_cons (by decide)]
          dsimp only
          rw [if_neg (by decide), if_pos rfl,
            readItems_itemsText (item' :: items) hitems (List.cons_ne_nil _ _) (by omega)]
          rfl

theorem readFields_fieldsText (fields : List (Text × Value)) (h : ∀ field ∈ fields, Plain F field.2)
    (hne : fields ≠ []) {before : List (Text × Value)}
    (hnodup : ((before ++ fields).map Prod.fst).Nodup) {fuel : ℕ} {rest : Text}
    (hfuel : fieldsCost fields ≤ fuel) :
    readFields F fuel before (fieldsText F fields ++ 0x7d :: rest) =
      some (before ++ fields, rest) := by
  cases fields with
  | nil => exact absurd rfl hne
  | cons field fields =>
      obtain ⟨key, value⟩ := field
      rw [fieldsCost, fieldCost] at hfuel
      obtain ⟨fuel, rfl⟩ := Nat.exists_eq_add_of_le' (show 1 ≤ fuel by omega)
      have hvalue := h (key, value) List.mem_cons_self
      have hfields := fun field hfield => h field (List.mem_cons_of_mem (key, value) hfield)
      have hfresh : key ∉ before.map Prod.fst := by
        rw [List.map_append, List.map_cons] at hnodup
        exact fun hmem => (List.nodup_append.mp hnodup).2.2 key hmem key List.mem_cons_self rfl
      have happend : (before ++ [(key, value)]) ++ fields = before ++ (key, value) :: fields :=
        List.append_cons .. |>.symm
      rw [readFields]
      cases fields with
      | nil =>
          rw [fieldsText, fieldText, quoted, List.cons_append, List.cons_append,
            skipSpace_cons (by decide)]
          dsimp only
          rw [if_pos rfl, List.append_assoc, List.append_assoc, List.singleton_append,
            List.cons_append, readString_escape, Option.bind_some]
          dsimp only
          rw [skipSpace_cons (by decide)]
          dsimp only
          rw [if_pos rfl, readValue_textOf value hvalue (by omega) (ends_cons rfl rest),
            Option.bind_some]
          dsimp only
          rw [skipSpace_cons (by decide)]
          dsimp only
          rw [if_pos rfl, setField_of_fresh hfresh]
      | cons field' fields =>
          rw [fieldsText_cons_cons, fieldText, quoted, List.cons_append, List.cons_append,
            List.cons_append, skipSpace_cons (by decide)]
          dsimp only
          rw [if_pos rfl]
          simp only [List.append_assoc, List.cons_append, List.nil_append]
          rw [readString_escape, Option.bind_some]
          dsimp only
          rw [skipSpace_cons (by decide)]
          dsimp only
          rw [if_pos rfl, readValue_textOf value hvalue (by omega) (ends_cons rfl _),
            Option.bind_some]
          dsimp only
          rw [skipSpace_cons (by decide)]
          dsimp only
          rw [if_neg (by decide), if_pos rfl, setField_of_fresh hfresh,
            readFields_fieldsText (field' :: fields) hfields (List.cons_ne_nil _ _)
              (by rwa [happend]) (by omega), happend]

end

mutual

theorem cost_le_length (value : Value) (h : Plain F value) :
    cost value ≤ (textOf F value).length := by
  cases h with
  | null => exact Nat.le_add_left 1 3
  | bool b =>
      cases b with
      | false => exact Nat.le_add_left 1 4
      | true => exact Nat.le_add_left 1 3
  | number hq =>
      rw [cost, textOf]
      exact List.length_pos_iff.mpr (F.numeral _ hq).1
  | string s =>
      rw [cost, textOf, quoted, List.length_cons]
      omega
  | @array items hitems =>
      have hle := itemsCost_le_length items hitems
      rw [cost, textOf, List.length_cons, List.length_append, List.length_singleton]
      omega
  | @object fields hnodup hfields =>
      have hle := fieldsCost_le_length fields hfields
      rw [cost, textOf, List.length_cons, List.length_append, List.length_singleton]
      omega

theorem itemsCost_le_length (items : List Value) (h : ∀ item ∈ items, Plain F item) :
    itemsCost items ≤ (itemsText F items).length + 1 := by
  cases items with
  | nil => exact Nat.zero_le _
  | cons item items =>
      have hitem := cost_le_length item (h item List.mem_cons_self)
      have hitems := itemsCost_le_length items fun item' hitem' =>
        h item' (List.mem_cons_of_mem item hitem')
      rw [itemsCost]
      cases items with
      | nil =>
          rw [itemsText]
          rw [itemsCost]
          omega
      | cons item' items =>
          rw [itemsText_cons_cons, List.length_append, List.length_cons]
          omega

theorem fieldsCost_le_length (fields : List (Text × Value))
    (h : ∀ field ∈ fields, Plain F field.2) : fieldsCost fields ≤ (fieldsText F fields).length + 1 := by
  cases fields with
  | nil => exact Nat.zero_le _
  | cons field fields =>
      obtain ⟨key, value⟩ := field
      have hvalue := cost_le_length value (h (key, value) List.mem_cons_self)
      have hfields := fieldsCost_le_length fields fun field' hfield' =>
        h field' (List.mem_cons_of_mem (key, value) hfield')
      rw [fieldsCost, fieldCost]
      cases fields with
      | nil =>
          rw [fieldsText, fieldText, List.length_append, List.length_cons, fieldsCost]
          omega
      | cons field' fields =>
          rw [fieldsText_cons_cons, fieldText, List.length_append, List.length_append,
            List.length_cons, List.length_cons]
          omega

end

/-- **What is written reads back.** -/
theorem parse_textOf {value : Value} (h : Plain F value) :
    parse F (textOf F value) = some value := by
  have hcost := cost_le_length value h
  have hfuel : cost value ≤ (textOf F value).length + 1 := by omega
  have hread := readValue_textOf value h hfuel ends_nil
  rw [List.append_nil] at hread
  rw [parse, hread]
  rfl

end Netcatty.Json
