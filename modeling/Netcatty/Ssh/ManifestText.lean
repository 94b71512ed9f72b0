import Netcatty.Library.Words
import Netcatty.Secret.SerdeText
import Netcatty.Ssh.DirectoryTransfer

/-! # The texts of a manifest

A hash is written in lower case hexadecimal, and its eight words are read back from the text
(`hashWords_wordHex`, `wordHex_hashWords`).  What identifies a file is the JSON text of its paths,
its size and its time, which determines the four (`serdeTuple_inj`). -/

namespace Netcatty.Ssh

open Secret (JsonScalar escapeChar)
open Serial (encodeUtf8 encodeUtf8_inj)

/-! ### Hexadecimal digits -/

theorem hexDigitValue_hexDigit {digit : ℕ} (h : digit < 16) :
    hexDigitValue (hexDigit digit) = digit := by
  revert digit
  decide

theorem hexDigit_hexDigitValue {c : Char} (h : isLowerHexDigit c = true) :
    hexDigit (hexDigitValue c) = c ∧ hexDigitValue c < 16 := by
  have hall : ∀ n < 128, isLowerHexDigit (Char.ofNat n) = true →
      hexDigit (hexDigitValue (Char.ofNat n)) = Char.ofNat n ∧
        hexDigitValue (Char.ofNat n) < 16 := by decide
  have hascii : c.toNat < 128 := by
    have h9 : '9'.toNat = 57 := rfl
    have hf : 'f'.toNat = 102 := rfl
    simp only [isLowerHexDigit, Bool.or_eq_true, Bool.and_eq_true, decide_eq_true_eq] at h
    obtain ⟨-, hle⟩ | ⟨-, hle⟩ := h
    · have hnat : c.toNat ≤ '9'.toNat := hle
      omega
    · have hnat : c.toNat ≤ 'f'.toNat := hle
      omega
  have hc := hall c.toNat hascii
  rw [Char.ofNat_toNat] at hc
  exact hc h

theorem isLowerHexDigit_hexDigit {digit : ℕ} (h : digit < 16) :
    isLowerHexDigit (hexDigit digit) = true := by
  revert digit
  decide

/-! ### Words -/

def wordValue (word : Text) : ℕ := word.foldl (fun value c => 16 * value + hexDigitValue c) 0

theorem wordHex_eq (word : ℕ) :
    wordHex word = [hexDigit (word / 268435456 % 16), hexDigit (word / 16777216 % 16),
      hexDigit (word / 1048576 % 16), hexDigit (word / 65536 % 16), hexDigit (word / 4096 % 16),
      hexDigit (word / 256 % 16), hexDigit (word / 16 % 16), hexDigit (word / 1 % 16)] := rfl

theorem length_wordHex (word : ℕ) : (wordHex word).length = 8 := rfl

theorem wordValue_wordHex {word : ℕ} (h : word < 2 ^ 32) : wordValue (wordHex word) = word := by
  have hdigit : ∀ n : ℕ, hexDigitValue (hexDigit (n % 16)) = n % 16 := fun n =>
    hexDigitValue_hexDigit (Nat.mod_lt _ (by omega))
  rw [wordHex_eq, wordValue]
  simp only [List.foldl_cons, List.foldl_nil, hdigit]
  omega

/-- The digits of a number of 32 bits. -/
theorem digits_of_word {a b c d e f g k : ℕ} (ha : a < 16) (hb : b < 16) (hc : c < 16) (hd : d < 16)
    (he : e < 16) (hf : f < 16) (hg : g < 16) (hk : k < 16) {word : ℕ}
    (h : word = 268435456 * a + (16777216 * b + (1048576 * c + (65536 * d + (4096 * e +
      (256 * f + (16 * g + k))))))) :
    word / 268435456 % 16 = a ∧ word / 16777216 % 16 = b ∧ word / 1048576 % 16 = c ∧
      word / 65536 % 16 = d ∧ word / 4096 % 16 = e ∧ word / 256 % 16 = f ∧ word / 16 % 16 = g ∧
        word / 1 % 16 = k := by
  refine ⟨?_, ?_, ?_, ?_, ?_, ?_, ?_, ?_⟩ <;> omega

theorem wordHex_wordValue {word : Text} (hlength : word.length = 8)
    (h : word.all isLowerHexDigit = true) : wordHex (wordValue word) = word := by
  match word, hlength with
  | [a, b, c, d, e, f, g, k], _ =>
      simp only [List.all_cons, List.all_nil, Bool.and_true, Bool.and_eq_true] at h
      obtain ⟨ha, hb, hc, hd, he, hf, hg, hk⟩ := h
      obtain ⟨ha, hda⟩ := hexDigit_hexDigitValue ha
      obtain ⟨hb, hdb⟩ := hexDigit_hexDigitValue hb
      obtain ⟨hc, hdc⟩ := hexDigit_hexDigitValue hc
      obtain ⟨hd, hdd⟩ := hexDigit_hexDigitValue hd
      obtain ⟨he, hde⟩ := hexDigit_hexDigitValue he
      obtain ⟨hf, hdf⟩ := hexDigit_hexDigitValue hf
      obtain ⟨hg, hdg⟩ := hexDigit_hexDigitValue hg
      obtain ⟨hk, hdk⟩ := hexDigit_hexDigitValue hk
      have hvalue : wordValue [a, b, c, d, e, f, g, k] =
          268435456 * hexDigitValue a + (16777216 * hexDigitValue b + (1048576 * hexDigitValue c +
            (65536 * hexDigitValue d + (4096 * hexDigitValue e + (256 * hexDigitValue f +
              (16 * hexDigitValue g + hexDigitValue k)))))) := by
        simp only [wordValue, List.foldl_cons, List.foldl_nil]
        omega
      obtain ⟨h₁, h₂, h₃, h₄, h₅, h₆, h₇, h₈⟩ :=
        digits_of_word hda hdb hdc hdd hde hdf hdg hdk hvalue
      rw [wordHex_eq, h₁, h₂, h₃, h₄, h₅, h₆, h₇, h₈, ha, hb, hc, hd, he, hf, hg, hk]

/-! ### Hashes -/

theorem toChunks_go (n : ℕ) (l : List Char) (chunk : Array Char) (chunks : Array (List Char)) :
    List.toChunks.go n l chunk chunks = chunks.toList ++ List.toChunks.go n l chunk #[] := by
  induction l generalizing chunk chunks with
  | nil => simp [List.toChunks.go]
  | cons c l ih =>
      rw [List.toChunks.go, List.toChunks.go]
      split_ifs
      · rw [ih, ih _ (#[].push _)]
        simp
      · exact ih _ _

/-- A word, and the words behind it. -/
theorem toChunks_append {word : Text} (h : word.length = 8) (l : Text) :
    (word ++ l).toChunks 8 = word :: l.toChunks 8 := by
  match word, h with
  | [a, b, c, d, e, f, g, k], _ =>
      cases l with
      | nil => rfl
      | cons c' l =>
          change List.toChunks.go 8 l #[c'] #[[a, b, c, d, e, f, g, k]] = _
          rw [toChunks_go]
          rfl

theorem toChunks_flatten {words : List Text} (h : ∀ word ∈ words, word.length = 8) :
    words.flatten.toChunks 8 = words := by
  induction words with
  | nil => rfl
  | cons word words ih =>
      rw [List.flatten_cons, toChunks_append (h word List.mem_cons_self),
        ih fun other hother => h other (List.mem_cons_of_mem _ hother)]

/-- A text of eight times as many characters is made of words. -/
theorem exists_words {count : ℕ} {l : Text} (h : l.length = 8 * count) :
    ∃ words : List Text, l = words.flatten ∧ words.length = count ∧
      ∀ word ∈ words, word.length = 8 := by
  induction count generalizing l with
  | zero => exact ⟨[], List.eq_nil_of_length_eq_zero h, rfl, fun _ hmem => nomatch hmem⟩
  | succ count ih =>
      obtain ⟨words, hl, hcount, hwords⟩ := ih (l := l.drop 8) (by rw [List.length_drop]; omega)
      refine ⟨l.take 8 :: words, ?_, congrArg (· + 1) hcount, ?_⟩
      · rw [List.flatten_cons, ← hl, List.take_append_drop]
      · intro word hword
        obtain rfl | hmem := List.mem_cons.mp hword
        · rw [List.length_take]
          omega
        · exact hwords word hmem

theorem hashWords_eq (hash : Text) : hashWords hash = (hash.toChunks 8).map wordValue := rfl

/-- The words of a hash are read back. -/
theorem hashWords_wordHex {words : List ℕ} (h : ∀ word ∈ words, word < 2 ^ 32) :
    hashWords (words.flatMap wordHex) = words := by
  have hlength : ∀ text ∈ words.map wordHex, text.length = 8 := by
    intro text htext
    obtain ⟨word, -, rfl⟩ := List.mem_map.mp htext
    exact length_wordHex word
  rw [hashWords_eq, List.flatMap_def, toChunks_flatten hlength, List.map_map]
  have hsame : words.map (wordValue ∘ wordHex) = words.map id :=
    List.map_congr_left fun word hword => wordValue_wordHex (h word hword)
  rw [hsame, List.map_id]

/-- A hash is the text of its words. -/
theorem wordHex_hashWords {hash : Text} (h : isLowerHex256 hash = true) :
    (hashWords hash).flatMap wordHex = hash ∧ (hashWords hash).length = 8 := by
  rw [isLowerHex256, Bool.and_eq_true, beq_iff_eq] at h
  obtain ⟨hlength, hdigits⟩ := h
  obtain ⟨words, rfl, hcount, hwords⟩ := exists_words (show hash.length = 8 * 8 from hlength)
  rw [hashWords_eq, toChunks_flatten hwords]
  constructor
  · rw [List.flatMap_map, List.flatMap_def]
    have hsame : words.map (fun word => wordHex (wordValue word)) = words.map id := by
      refine List.map_congr_left fun word hword => wordHex_wordValue (hwords word hword) ?_
      refine List.all_eq_true.mpr fun c hc => ?_
      exact List.all_eq_true.mp hdigits c (List.mem_flatten.mpr ⟨word, hword, hc⟩)
    rw [hsame, List.map_id]
  · rw [List.length_map, hcount]

theorem isLowerHex256_wordHex {words : List ℕ} (h : words.length = 8) :
    isLowerHex256 (words.flatMap wordHex) = true := by
  rw [isLowerHex256, Bool.and_eq_true, beq_iff_eq]
  constructor
  · have hall : ∀ l : List ℕ, (l.flatMap wordHex).length = 8 * l.length := by
      intro l
      induction l with
      | nil => rfl
      | cons word l ih =>
          rw [List.flatMap_cons, List.length_append, ih, length_wordHex, List.length_cons]
          omega
    rw [hall, h]
  · refine List.all_eq_true.mpr fun c hc => ?_
    obtain ⟨word, -, hword⟩ := List.mem_flatMap.mp hc
    obtain ⟨i, -, rfl⟩ := List.mem_map.mp hword
    exact isLowerHexDigit_hexDigit (Nat.mod_lt _ (by omega))

theorem length_encodeUtf8_of_isLowerHex256 {identity : Text} (h : isLowerHex256 identity = true) :
    (encodeUtf8 identity).length = 64 := by
  rw [isLowerHex256, Bool.and_eq_true, beq_iff_eq] at h
  rw [← h.1]
  have hall : ∀ text : Text, text.all isLowerHexDigit = true →
      (encodeUtf8 text).length = text.length := by
    intro text htext
    induction text with
    | nil => rfl
    | cons c text ih =>
        rw [List.all_cons, Bool.and_eq_true] at htext
        have hsize : c.utf8Size = 1 := by
          rw [← (hexDigit_hexDigitValue htext.1).1]
          have hdigit := (hexDigit_hexDigitValue htext.1).2
          revert hdigit
          generalize hexDigitValue c = digit
          revert digit
          decide
        rw [encodeUtf8, List.flatMap_cons, List.length_append, String.length_utf8EncodeChar, hsize,
          List.length_cons]
        have hrest := ih htext.2
        rw [encodeUtf8] at hrest
        omega
  exact hall identity h.2

/-! ### What identifies a file -/

/-- The tuple of a file as `serde_json::to_vec` writes it. -/
def serdeTuple (sourcePath targetPath : Text) (size modifiedAt : ℕ) : List UInt8 :=
  encodeUtf8 ('[' :: (JsonScalar.string sourcePath).toText ++ ',' ::
    ((JsonScalar.string targetPath).toText ++ ',' :: ((JsonScalar.number size).toText ++ ',' ::
      ((JsonScalar.number modifiedAt).toText ++ [']']))))

example : serdeTuple "/a\"b".toList "/c".toList 5 7 =
    encodeUtf8 "[\"/a\\\"b\",\"/c\",5,7]".toList := by decide

/-- The character that an escape stands for, and what is behind it. -/
def readEscape : Text → Option (Char × Text)
  | '\\' :: '"' :: rest => some ('"', rest)
  | '\\' :: '\\' :: rest => some ('\\', rest)
  | '\\' :: 'b' :: rest => some (Char.ofNat 8, rest)
  | '\\' :: 't' :: rest => some (Char.ofNat 9, rest)
  | '\\' :: 'n' :: rest => some (Char.ofNat 10, rest)
  | '\\' :: 'f' :: rest => some (Char.ofNat 12, rest)
  | '\\' :: 'r' :: rest => some (Char.ofNat 13, rest)
  | '\\' :: 'u' :: '0' :: '0' :: high :: low :: rest =>
      some (Char.ofNat (16 * hexDigitValue high + hexDigitValue low), rest)
  | c :: rest => some (c, rest)
  | [] => none

theorem readEscape_escapeChar (c : Char) (rest : Text) :
    readEscape (escapeChar c ++ rest) = some (c, rest) := by
  have hcontrol : ∀ n < 32, Char.ofNat (16 * hexDigitValue (Secret.hexDigit (n / 16)) +
      hexDigitValue (Secret.hexDigit (n % 16))) = Char.ofNat n := by decide
  have hchar : ∀ n, c.toNat = n → Char.ofNat n = c := by
    rintro n rfl
    exact Char.ofNat_toNat c
  unfold escapeChar
  split_ifs with hquote hslash hb ht hn hf hr hlow
  · rw [hquote]
    rfl
  · rw [hslash]
    rfl
  · rw [← hchar 8 hb]
    rfl
  · rw [← hchar 9 ht]
    rfl
  · rw [← hchar 10 hn]
    rfl
  · rw [← hchar 12 hf]
    rfl
  · rw [← hchar 13 hr]
    rfl
  · change some (_, rest) = some (c, rest)
    rw [hcontrol c.toNat hlow, Char.ofNat_toNat]
  · change readEscape (c :: rest) = _
    rw [readEscape]
    all_goals
      intros
      exact hslash ‹c = '\\'›

theorem escapeChar_ne_quote (c : Char) :
    ∃ first rest, escapeChar c = first :: rest ∧ first ≠ '"' := by
  unfold escapeChar
  split_ifs with hquote
  · exact ⟨_, _, rfl, by decide⟩
  · exact ⟨_, _, rfl, by decide⟩
  · exact ⟨_, _, rfl, by decide⟩
  · exact ⟨_, _, rfl, by decide⟩
  · exact ⟨_, _, rfl, by decide⟩
  · exact ⟨_, _, rfl, by decide⟩
  · exact ⟨_, _, rfl, by decide⟩
  · exact ⟨'\\', _, rfl, by decide⟩
  · exact ⟨c, [], rfl, hquote⟩

/-- A string ends at the first quote that is not escaped. -/
theorem escaped_inj {value value' : Text} {l l' : Text}
    (h : value.flatMap escapeChar ++ '"' :: l = value'.flatMap escapeChar ++ '"' :: l') :
    value = value' ∧ l = l' := by
  induction value generalizing value' with
  | nil =>
      cases value' with
      | nil => exact ⟨rfl, List.tail_eq_of_cons_eq h⟩
      | cons c value' =>
          obtain ⟨first, rest, hescape, hne⟩ := escapeChar_ne_quote c
          rw [List.flatMap_cons, hescape] at h
          exact absurd (List.head_eq_of_cons_eq h).symm hne
  | cons c value ih =>
      cases value' with
      | nil =>
          obtain ⟨first, rest, hescape, hne⟩ := escapeChar_ne_quote c
          rw [List.flatMap_cons, hescape] at h
          exact absurd (List.head_eq_of_cons_eq h) hne
      | cons c' value' =>
          rw [List.flatMap_cons, List.flatMap_cons, List.append_assoc, List.append_assoc] at h
          have hread := congrArg readEscape h
          rw [readEscape_escapeChar, readEscape_escapeChar] at hread
          obtain ⟨rfl, hrest⟩ := Prod.mk.inj (Option.some.inj hread)
          obtain ⟨rfl, hl⟩ := ih hrest
          exact ⟨rfl, hl⟩

theorem string_inj {value value' l l' : Text}
    (h : (JsonScalar.string value).toText ++ l = (JsonScalar.string value').toText ++ l') :
    value = value' ∧ l = l' := by
  simp only [JsonScalar.toText, List.cons_append, List.append_assoc, List.nil_append,
    List.cons.injEq, true_and] at h
  exact escaped_inj h

/-- A number ends where its digits do. -/
theorem number_inj {value value' : ℕ} {c : Char} (hc : c.isDigit = false) {l l' : Text}
    (h : (JsonScalar.number value).toText ++ c :: l =
      (JsonScalar.number value').toText ++ c :: l') :
    value = value' ∧ l = l' := by
  have hmem : ∀ n, c ∉ Nat.toDigits 10 n := by
    intro n hmem
    rw [Nat.isDigit_of_mem_toDigits (by omega) (by omega) hmem] at hc
    nomatch hc
  have hsame : Nat.toDigits 10 value = Nat.toDigits 10 value' := by
    refine (Words.line_prefix_iff (hmem value) (hmem value') l').mp ⟨l, ?_⟩
    rw [List.append_assoc]
    exact h
  have hvalue := congrArg (Nat.ofDigitChars 10 · 0) hsame
  simp only [Nat.ofDigitChars_ten_toDigits] at hvalue
  refine ⟨hvalue, ?_⟩
  rw [hvalue] at h
  exact List.tail_eq_of_cons_eq (List.append_cancel_left h)

/-- **The text of a file determines its paths, its size and its time.** -/
theorem serdeTuple_inj {sourcePath targetPath sourcePath' targetPath' : Text}
    {size modifiedAt size' modifiedAt' : ℕ}
    (h : serdeTuple sourcePath targetPath size modifiedAt =
      serdeTuple sourcePath' targetPath' size' modifiedAt') :
    sourcePath = sourcePath' ∧ targetPath = targetPath' ∧ size = size' ∧
      modifiedAt = modifiedAt' := by
  have htext := List.tail_eq_of_cons_eq (encodeUtf8_inj h)
  obtain ⟨hsource, hrest⟩ := string_inj htext
  obtain ⟨htarget, hrest⟩ := string_inj (List.tail_eq_of_cons_eq hrest)
  obtain ⟨hsize, hrest⟩ := number_inj (by decide) (List.tail_eq_of_cons_eq hrest)
  obtain ⟨htime, -⟩ := number_inj (by decide) hrest
  exact ⟨hsource, htarget, hsize, htime⟩

end Netcatty.Ssh
