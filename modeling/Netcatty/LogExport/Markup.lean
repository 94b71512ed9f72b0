import Netcatty.LogExport.Render

/-! # Markup

The HTML of a screen is a sequence of pieces: a character, or a `span` with the declarations of a
style around some characters.  Its text is what is left without the tags and with the entities
replaced (`htmlText_toHtml`); nothing in it stands for markup but the tags of the pieces. -/

namespace Netcatty.LogExport

open Vault (Text utf8Len)

inductive HtmlPiece
  | character (content : Char)
  | span (style : Style) (content : Text)

def escapeText (text : Text) : Text := text.flatMap escapeHtmlChar

namespace HtmlPiece

def toHtml : HtmlPiece → Text
  | character content => escapeHtmlChar content
  | span style content => openTag (styleToCss style) ++ escapeText content ++ closeTag

def text : HtmlPiece → Text
  | character content => [content]
  | span _ content => content

end HtmlPiece

def toHtml (pieces : List HtmlPiece) : Text := pieces.flatMap HtmlPiece.toHtml

def textOf (pieces : List HtmlPiece) : Text := pieces.flatMap HtmlPiece.text

/-- Everything from a `<` to the next `>` is a tag. -/
def stripTags : Bool → Text → Text
  | _, [] => []
  | false, c :: rest => if c = '<' then stripTags true rest else c :: stripTags false rest
  | true, c :: rest => if c = '>' then stripTags false rest else stripTags true rest

def unescape : Text → Text
  | '&' :: 'a' :: 'm' :: 'p' :: ';' :: rest => '&' :: unescape rest
  | '&' :: 'l' :: 't' :: ';' :: rest => '<' :: unescape rest
  | '&' :: 'g' :: 't' :: ';' :: rest => '>' :: unescape rest
  | '&' :: 'q' :: 'u' :: 'o' :: 't' :: ';' :: rest => '"' :: unescape rest
  | '&' :: '#' :: '0' :: '3' :: '9' :: ';' :: rest => '\'' :: unescape rest
  | c :: rest => c :: unescape rest
  | [] => []

/-- The text that a reader of the HTML sees. -/
def htmlText (html : Text) : Text := unescape (stripTags false html)

/-! ### Entities -/

theorem escapeHtmlChar_cases (c : Char) :
    (c = '&' ∧ escapeHtmlChar c = "&amp;".toList) ∨ (c = '<' ∧ escapeHtmlChar c = "&lt;".toList) ∨
      (c = '>' ∧ escapeHtmlChar c = "&gt;".toList) ∨
      (c = '"' ∧ escapeHtmlChar c = "&quot;".toList) ∨
      (c = '\'' ∧ escapeHtmlChar c = "&#039;".toList) ∨
      c ≠ '&' ∧ c ≠ '<' ∧ c ≠ '>' ∧ c ≠ '"' ∧ escapeHtmlChar c = [c] := by
  unfold escapeHtmlChar
  by_cases h₁ : c = '&'
  · exact .inl ⟨h₁, if_pos h₁⟩
  · rw [if_neg h₁]
    by_cases h₂ : c = '<'
    · exact .inr (.inl ⟨h₂, if_pos h₂⟩)
    · rw [if_neg h₂]
      by_cases h₃ : c = '>'
      · exact .inr (.inr (.inl ⟨h₃, if_pos h₃⟩))
      · rw [if_neg h₃]
        by_cases h₄ : c = '"'
        · exact .inr (.inr (.inr (.inl ⟨h₄, if_pos h₄⟩)))
        · rw [if_neg h₄]
          by_cases h₅ : c = '\''
          · exact .inr (.inr (.inr (.inr (.inl ⟨h₅, if_pos h₅⟩))))
          · exact .inr (.inr (.inr (.inr (.inr ⟨h₁, h₂, h₃, h₄, if_neg h₅⟩))))

theorem unescape_append (c : Char) (rest : Text) :
    unescape (escapeHtmlChar c ++ rest) = c :: unescape rest := by
  obtain ⟨rfl, h⟩ | ⟨rfl, h⟩ | ⟨rfl, h⟩ | ⟨rfl, h⟩ | ⟨rfl, h⟩ | ⟨hne, -, -, -, h⟩ :=
    escapeHtmlChar_cases c
  · rw [h]; rfl
  · rw [h]; rfl
  · rw [h]; rfl
  · rw [h]; rfl
  · rw [h]; rfl
  · rw [h]
    simp [unescape, hne]

theorem unescape_escapeText (text : Text) : unescape (escapeText text) = text := by
  induction text with
  | nil => rfl
  | cons c text ih =>
      have hcons : escapeText (c :: text) = escapeHtmlChar c ++ escapeText text := rfl
      rw [hcons, unescape_append, ih]

theorem stripTags_escapeHtmlChar (c : Char) (rest : Text) :
    stripTags false (escapeHtmlChar c ++ rest) = escapeHtmlChar c ++ stripTags false rest := by
  obtain ⟨rfl, h⟩ | ⟨rfl, h⟩ | ⟨rfl, h⟩ | ⟨rfl, h⟩ | ⟨rfl, h⟩ | ⟨-, hne, -, -, h⟩ :=
    escapeHtmlChar_cases c
  · rw [h]; rfl
  · rw [h]; rfl
  · rw [h]; rfl
  · rw [h]; rfl
  · rw [h]; rfl
  · rw [h]
    simp [stripTags, hne]

theorem stripTags_escapeText (text rest : Text) :
    stripTags false (escapeText text ++ rest) = escapeText text ++ stripTags false rest := by
  induction text with
  | nil => rfl
  | cons c text ih =>
      have hcons : escapeText (c :: text) = escapeHtmlChar c ++ escapeText text := rfl
      rw [hcons, List.append_assoc, stripTags_escapeHtmlChar, ih, List.append_assoc]

theorem utf8Len_escapeHtmlChar (c : Char) : utf8Len (escapeHtmlChar c) = escapedHtmlCharLen c := by
  unfold escapeHtmlChar escapedHtmlCharLen
  by_cases h₁ : c = '&'
  · rw [if_pos h₁, if_pos h₁]; rfl
  · by_cases h₂ : c = '<'
    · simp only [h₂, true_or, if_true]; rfl
    · by_cases h₃ : c = '>'
      · simp only [h₃, or_true, if_true]; rfl
      · by_cases h₄ : c = '"'
        · simp only [h₄, true_or, if_true]; rfl
        · by_cases h₅ : c = '\''
          · simp only [h₅, or_true, if_true]; rfl
          · simp [h₁, h₂, h₃, h₄, h₅, utf8Len]

/-! ### Tags -/

/-- A declaration that the generator writes. -/
def IsDeclaration (declaration : Text) : Prop :=
  (∃ color : Color, declaration = "color: ".toList ++ color.val) ∨
    (∃ color : Color, declaration = "background-color: ".toList ++ color.val) ∨
    declaration = "font-weight: 700".toList ∨ declaration = "font-style: italic".toList ∨
    declaration = "text-decoration: underline".toList

/-- The declarations of every style are the generator's. -/
theorem isDeclaration_of_mem {style : Style} {declaration : Text}
    (h : declaration ∈ style.declarations) : IsDeclaration declaration := by
  unfold Style.declarations at h
  simp only [List.mem_append, Option.mem_toList, Option.map_eq_some_iff] at h
  obtain (((⟨color, -, rfl⟩ | ⟨color, -, rfl⟩) | h) | h) | h := h
  · exact .inl ⟨color, rfl⟩
  · exact .inr (.inl ⟨color, rfl⟩)
  · cases hbold : style.bold with
    | false => simp [hbold] at h
    | true =>
        rw [hbold, if_pos rfl, List.mem_singleton] at h
        exact .inr (.inr (.inl h))
  · cases hitalic : style.italic with
    | false => simp [hitalic] at h
    | true =>
        rw [hitalic, if_pos rfl, List.mem_singleton] at h
        exact .inr (.inr (.inr (.inl h)))
  · cases hunderline : style.underline with
    | false => simp [hunderline] at h
    | true =>
        rw [hunderline, if_pos rfl, List.mem_singleton] at h
        exact .inr (.inr (.inr (.inr h)))

/-- The characters of declarations: printable, and none that closes an attribute or a tag. -/
def isCssChar (c : Char) : Bool :=
  c.isAlphanum || c = '#' || c = ':' || c = ';' || c = '-' || c = ' '

theorem isCssChar_of_isLowerHex {c : Char} (h : Vault.isLowerHex c = true) :
    isCssChar c = true := by
  have halnum : c.isAlphanum = true := by
    simp only [Vault.isLowerHex, Bool.or_eq_true, Bool.and_eq_true, decide_eq_true_eq] at h
    delta Char.isAlphanum Char.isAlpha Char.isLower
    simp only [Bool.or_eq_true, Bool.and_eq_true, decide_eq_true_eq]
    obtain h | ⟨hlow, hhigh⟩ := h
    · exact .inr h
    · exact .inl (.inr ⟨hlow, UInt32.le_trans hhigh (by decide)⟩)
  simp [isCssChar, halnum]

theorem isCssChar_of_color (color : Color) : color.val.all isCssChar = true := by
  obtain ⟨text, htext⟩ := color
  unfold isColor at htext
  split at htext
  · rename_i digits
    rw [Bool.and_eq_true, List.all_eq_true] at htext
    rw [List.all_cons, Bool.and_eq_true, List.all_eq_true]
    exact ⟨by decide, fun c hc => isCssChar_of_isLowerHex (htext.2 c hc)⟩
  · cases htext

theorem isCssChar_of_declaration {declaration : Text} (h : IsDeclaration declaration) :
    declaration.all isCssChar = true := by
  obtain ⟨color, rfl⟩ | ⟨color, rfl⟩ | rfl | rfl | rfl := h
  · rw [List.all_append, isCssChar_of_color color]
    decide
  · rw [List.all_append, isCssChar_of_color color]
    decide
  · decide
  · decide
  · decide

theorem all_intercalate {p : Char → Bool} {sep : Text} (hsep : sep.all p = true)
    {parts : List Text} (h : ∀ part ∈ parts, part.all p = true) :
    (sep.intercalate parts).all p = true := by
  induction parts with
  | nil => rfl
  | cons part parts ih =>
      cases parts with
      | nil =>
          rw [List.intercalate_singleton]
          exact h part List.mem_cons_self
      | cons next parts =>
          rw [List.intercalate_cons_cons, List.all_append, List.all_append, hsep,
            h part List.mem_cons_self, ih fun other hother => h other (List.mem_cons_of_mem _ hother)]
          rfl

theorem isCssChar_styleToCss (style : Style) : (styleToCss style).all isCssChar = true :=
  all_intercalate (by decide) fun _ h => isCssChar_of_declaration (isDeclaration_of_mem h)

theorem stripTags_tag {tag : Text} (h : '>' ∉ tag) (rest : Text) :
    stripTags true (tag ++ '>' :: rest) = stripTags false rest := by
  induction tag with
  | nil => rfl
  | cons c tag ih =>
      rw [List.mem_cons, not_or] at h
      rw [List.cons_append, stripTags, if_neg (Ne.symm h.1), ih h.2]

theorem stripTags_openTag (style : Style) (rest : Text) :
    stripTags false (openTag (styleToCss style) ++ rest) = stripTags false rest := by
  have hcss : '>' ∉ styleToCss style := by
    intro hmem
    have hchar := List.all_eq_true.mp (isCssChar_styleToCss style) '>' hmem
    exact absurd hchar (by decide)
  have hstart : openTagStart = '<' :: openTagStart.tail := by decide
  have hend : openTagEnd = ['"'] ++ ['>'] := by decide
  have htag : openTag (styleToCss style) ++ rest =
      '<' :: ((openTagStart.tail ++ styleToCss style ++ ['"']) ++ '>' :: rest) := by
    rw [openTag, hstart, hend]
    simp only [List.tail_cons, List.cons_append, List.append_assoc, List.nil_append]
  rw [htag, stripTags, if_pos rfl, stripTags_tag]
  rw [List.mem_append, List.mem_append, not_or, not_or]
  exact ⟨⟨by decide, hcss⟩, by decide⟩

theorem stripTags_closeTag (rest : Text) :
    stripTags false (closeTag ++ rest) = stripTags false rest := by
  have hclose : closeTag = '<' :: (closeTag.tail.dropLast ++ ['>']) := by decide
  rw [hclose, List.cons_append, List.append_assoc, stripTags, if_pos rfl]
  exact stripTags_tag (by decide) rest

theorem stripTags_toHtml (pieces : List HtmlPiece) :
    stripTags false (toHtml pieces) = escapeText (textOf pieces) := by
  induction pieces with
  | nil => rfl
  | cons piece pieces ih =>
      have hcons : toHtml (piece :: pieces) = piece.toHtml ++ toHtml pieces := rfl
      have htext : escapeText (textOf (piece :: pieces)) =
          escapeText piece.text ++ escapeText (textOf pieces) := by
        simp [escapeText, textOf]
      rw [hcons, htext]
      cases piece with
      | character content =>
          have hone : escapeText [content] = escapeHtmlChar content := List.append_nil _
          rw [HtmlPiece.toHtml, HtmlPiece.text, stripTags_escapeHtmlChar, ih, hone]
      | span style content =>
          rw [HtmlPiece.toHtml, HtmlPiece.text, List.append_assoc, List.append_assoc,
            stripTags_openTag, stripTags_escapeText, stripTags_closeTag, ih]

/-- **The text of the HTML** is that of its pieces. -/
theorem htmlText_toHtml (pieces : List HtmlPiece) : htmlText (toHtml pieces) = textOf pieces := by
  rw [htmlText, stripTags_toHtml, unescape_escapeText]

/-! ### Control characters -/

/-- A printable character, or a line feed. -/
def IsClean (c : Char) : Prop := c = '\n' ∨ isTerminalPrintable c = true

theorem isTerminalPrintable_of_isCssChar {c : Char} (h : isCssChar c = true) :
    isTerminalPrintable c = true := by
  have hrange : 32 ≤ c.toNat ∧ c.toNat ≤ 122 := by
    simp only [isCssChar, Bool.or_eq_true, decide_eq_true_eq] at h
    obtain ((((halnum | rfl) | rfl) | rfl) | rfl) | rfl := h
    · delta Char.isAlphanum Char.isAlpha Char.isUpper Char.isLower Char.isDigit at halnum
      simp only [Bool.or_eq_true, Bool.and_eq_true, decide_eq_true_eq, ge_iff_le,
        UInt32.le_iff_toNat_le] at halnum
      obtain ((⟨hlow, hhigh⟩ | ⟨hlow, hhigh⟩) | ⟨hlow, hhigh⟩) := halnum
      · exact ⟨Nat.le_trans (by decide) hlow, Nat.le_trans hhigh (by decide)⟩
      · exact ⟨Nat.le_trans (by decide) hlow, Nat.le_trans hhigh (by decide)⟩
      · exact ⟨Nat.le_trans (by decide) hlow, Nat.le_trans hhigh (by decide)⟩
    all_goals decide
  have hne : c ≠ '\x7f' := by
    rintro rfl
    exact absurd hrange.2 (by decide)
  simp [isTerminalPrintable, hrange.1, hne]

theorem isClean_of_literal {text : Text} (h : text.all isTerminalPrintable = true) {c : Char}
    (hc : c ∈ text) : IsClean c := .inr (List.all_eq_true.mp h c hc)

theorem isClean_escapeHtmlChar {c d : Char} (hc : IsClean c) (hd : d ∈ escapeHtmlChar c) :
    IsClean d := by
  obtain ⟨rfl, h⟩ | ⟨rfl, h⟩ | ⟨rfl, h⟩ | ⟨rfl, h⟩ | ⟨rfl, h⟩ | ⟨-, -, -, -, h⟩ :=
    escapeHtmlChar_cases c
  · rw [h] at hd; exact isClean_of_literal (by decide) hd
  · rw [h] at hd; exact isClean_of_literal (by decide) hd
  · rw [h] at hd; exact isClean_of_literal (by decide) hd
  · rw [h] at hd; exact isClean_of_literal (by decide) hd
  · rw [h] at hd; exact isClean_of_literal (by decide) hd
  · rw [h, List.mem_singleton] at hd
    exact hd ▸ hc

/-- Markup brings no control character. -/
theorem isClean_toHtml {pieces : List HtmlPiece} (h : ∀ c ∈ textOf pieces, IsClean c) :
    ∀ c ∈ toHtml pieces, IsClean c := by
  intro c hc
  obtain ⟨piece, hpiece, hc⟩ := List.mem_flatMap.mp hc
  have hpieceText : ∀ d ∈ piece.text, IsClean d :=
    fun d hd => h d (List.mem_flatMap.mpr ⟨piece, hpiece, hd⟩)
  cases piece with
  | character content =>
      exact isClean_escapeHtmlChar (hpieceText content (List.mem_singleton_self _)) hc
  | span style content =>
      rw [HtmlPiece.toHtml, openTag, List.mem_append, List.mem_append, List.mem_append,
        List.mem_append] at hc
      obtain (((hc | hc) | hc) | hc) | hc := hc
      · exact isClean_of_literal (by decide) hc
      · exact .inr (isTerminalPrintable_of_isCssChar
          (List.all_eq_true.mp (isCssChar_styleToCss style) c hc))
      · exact isClean_of_literal (by decide) hc
      · obtain ⟨d, hd, hc⟩ := List.mem_flatMap.mp hc
        exact isClean_escapeHtmlChar (hpieceText d hd) hc
      · exact isClean_of_literal (by decide) hc

end Netcatty.LogExport
