import Netcatty.LogExport.Bounds
import Netcatty.LogExport.Markup

/-! # The two exports agree

The plain text of a screen is all of its text, but for blanks at the ends of lines and line feeds at
the end.  The HTML is safe by its form, stays within its limit, and its text is that of the screen
in the same sense, or of a part of the screen from its beginning where the limit is reached
(`exports_agree`). -/

namespace Netcatty.LogExport

open Vault (Text utf8Len)

/-! ### Texts up to blanks -/

/-- The lines of a text without the blanks at their ends. -/
def strippedLines (text : Text) : List Text :=
  (text.splitOn '\n').map fun line => line.rdropWhile isBlank

/-- The lines of a text, without blanks at their ends and empty lines at the end. -/
def canonicalLines (text : Text) : List Text := (strippedLines text).rdropWhile (· = [])

/-- Lines with a line feed before every one but the first. -/
def joinLines : Bool → List Text → Text
  | _, [] => []
  | first, line :: rest => (if first then [] else ['\n']) ++ line ++ joinLines false rest

section Canonical

theorem rdropWhile_append_of_all {α : Type} {p : α → Bool} (l : List α) {more : List α}
    (h : ∀ a ∈ more, p a = true) : (l ++ more).rdropWhile p = l.rdropWhile p := by
  unfold List.rdropWhile
  rw [List.reverse_append, List.dropWhile_append_of_pos]
  exact fun a ha => h a (List.mem_reverse.mp ha)

theorem exists_rdropWhile_append {α : Type} (p : α → Bool) (l : List α) :
    ∃ more, l = l.rdropWhile p ++ more ∧ ∀ a ∈ more, p a = true := by
  refine ⟨(l.reverse.takeWhile p).reverse, ?_, fun a ha => ?_⟩
  · unfold List.rdropWhile
    rw [← List.reverse_append, List.takeWhile_append_dropWhile, List.reverse_reverse]
  · exact List.mem_takeWhile_imp (List.mem_reverse.mp ha)

theorem strippedLines_append_cons (text rest : Text) :
    strippedLines (text ++ '\n' :: rest) = strippedLines text ++ strippedLines rest := by
  rw [strippedLines, List.splitOn_append_cons_self, List.map_append]
  rfl

theorem strippedLines_of_notMem {text : Text} (h : '\n' ∉ text) :
    strippedLines text = [text.rdropWhile isBlank] := by
  rw [strippedLines, List.splitOn_eq_singleton h]
  rfl

/-- A line feed at the end is of no account. -/
theorem canonicalLines_popNewlines (text : Text) :
    canonicalLines (popNewlines text) = canonicalLines text := by
  induction text using List.reverseRecOn with
  | nil => rfl
  | append_singleton text c ih =>
      by_cases hc : c = '\n'
      · subst hc
        have hpop : popNewlines (text ++ ['\n']) = popNewlines text := by
          rw [popNewlines, List.rdropWhile_concat_pos _ _ _ (by simp)]
          rfl
        have hlines : strippedLines (text ++ ['\n']) = strippedLines text ++ [[]] :=
          strippedLines_append_cons text []
        rw [hpop, ih, canonicalLines, canonicalLines, hlines,
          List.rdropWhile_concat_pos _ _ _ (by simp)]
      · rw [popNewlines, List.rdropWhile_concat_neg _ _ _ (by simpa using hc)]

/-- Lines that differ in blanks at their ends. -/
def SameLine (line line' : Text) : Prop :=
  '\n' ∉ line ∧ '\n' ∉ line' ∧ line.rdropWhile isBlank = line'.rdropWhile isBlank ∧ line <+: line'

theorem joinLines_cons_cons (line next : Text) (rest : List Text) :
    joinLines true (line :: next :: rest) = line ++ '\n' :: joinLines true (next :: rest) := by
  simp [joinLines]

/-- A beginning of two lines ends in the first one, or after it. -/
theorem prefix_line_cases {text line rest : Text} (h : text <+: line ++ '\n' :: rest) :
    text <+: line ∨ ∃ more, text = line ++ '\n' :: more ∧ more <+: rest := by
  obtain hshort | ⟨more, rfl⟩ := List.prefix_or_prefix_of_prefix h (List.prefix_append line _)
  · exact .inl hshort
  · rw [List.prefix_append_right_inj] at h
    obtain rfl | ⟨more', rfl, hmore⟩ := List.prefix_cons_iff.mp h
    · exact .inl (by simp)
    · exact .inr ⟨more', rfl, hmore⟩

/-- A beginning of some lines is that of lines which differ in blanks. -/
theorem exists_prefix_of_sameLines {lines lines' : List Text}
    (h : List.Forall₂ SameLine lines lines') {text : Text} (htext : text <+: joinLines true lines) :
    ∃ text', text' <+: joinLines true lines' ∧ strippedLines text = strippedLines text' := by
  induction h generalizing text with
  | nil => exact ⟨text, htext, rfl⟩
  | @cons line line' rest rest' hline hrest ih =>
      obtain ⟨hmem, hmem', hstrip, hbegins⟩ := hline
      have hhead : ∀ {text : Text}, text <+: line →
          ∃ text', text' <+: joinLines true (line' :: rest') ∧
            strippedLines text = strippedLines text' := by
        intro text htext
        refine ⟨text, (htext.trans hbegins).trans ?_, rfl⟩
        exact List.prefix_append _ _
      cases hrest with
      | nil =>
          have hone : joinLines true [line] = line := by simp [joinLines]
          rw [hone] at htext
          exact hhead htext
      | @cons next next' rest rest' hnext hrest =>
          rw [joinLines_cons_cons] at htext
          obtain hshort | ⟨more, rfl, hmore⟩ := prefix_line_cases htext
          · exact hhead hshort
          · obtain ⟨more', hmore', hsame⟩ := ih hmore
            refine ⟨line' ++ '\n' :: more', ?_, ?_⟩
            · rw [joinLines_cons_cons, List.prefix_append_right_inj]
              exact List.prefix_cons_iff.mpr (.inr ⟨more', rfl, hmore'⟩)
            · rw [strippedLines_append_cons, strippedLines_append_cons, strippedLines_of_notMem hmem,
                strippedLines_of_notMem hmem', hstrip, hsame]

/-- All of some lines, and lines which differ in blanks. -/
theorem strippedLines_joinLines {lines lines' : List Text}
    (h : List.Forall₂ SameLine lines lines') :
    strippedLines (joinLines true lines) = strippedLines (joinLines true lines') := by
  induction h with
  | nil => rfl
  | @cons line line' rest rest' hline hrest ih =>
      obtain ⟨hmem, hmem', hstrip, -⟩ := hline
      cases hrest with
      | nil => simp [joinLines, strippedLines_of_notMem, hmem, hmem', hstrip]
      | @cons next next' rest rest' hnext hrest =>
          rw [joinLines_cons_cons, joinLines_cons_cons, strippedLines_append_cons,
            strippedLines_append_cons, strippedLines_of_notMem hmem, strippedLines_of_notMem hmem',
            hstrip, ih]

end Canonical

/-! ### What is written -/

/-- The characters of cells. -/
def cellText (cells : List Cell) : Text := cells.map Cell.character

/-- The pieces of cells of one style. -/
def runPieces (cells : List Cell) (style : Style) : List HtmlPiece :=
  if (styleToCss style).isEmpty then (cellText cells).map HtmlPiece.character
  else if cells = [] then []
  else [HtmlPiece.span style (cellText cells)]

def linePieces : List Cell → List HtmlPiece
  | [] => []
  | cell :: rest =>
      runPieces (cell :: rest.takeWhile (·.style = cell.style)) cell.style ++
        linePieces (rest.dropWhile (·.style = cell.style))
  termination_by cells => cells.length
  decreasing_by exact Nat.lt_succ_of_le (List.length_dropWhile_le _ _)

/-- A line feed is a piece of its own, before every line but the first. -/
def docPieces : Bool → List (List Cell) → List HtmlPiece
  | _, [] => []
  | first, cells :: rest =>
      (if first then [] else [HtmlPiece.character '\n']) ++ linePieces cells ++ docPieces false rest

section Written

theorem utf8Len_append (text more : Text) : utf8Len (text ++ more) = utf8Len text + utf8Len more := by
  simp [utf8Len]

theorem limit_lt_satAdd {a b : ℕ} :
    maxRenderedContentBytes < satAdd a b ↔ maxRenderedContentBytes < a + b := by
  have hlimit : maxRenderedContentBytes < usizeLimit - 1 := by decide
  unfold satAdd
  omega

theorem limit_lt_satAdd_satAdd {a b c : ℕ} :
    maxRenderedContentBytes < satAdd a (satAdd b c) ↔ maxRenderedContentBytes < a + b + c := by
  have hlimit : maxRenderedContentBytes < usizeLimit - 1 := by decide
  unfold satAdd
  omega

theorem limit_lt_satAdd_required {a b c d : ℕ} :
    maxRenderedContentBytes < satAdd a (satAdd (satAdd b c) d) ↔
      maxRenderedContentBytes < a + b + c + d := by
  have hlimit : maxRenderedContentBytes < usizeLimit - 1 := by decide
  unfold satAdd
  omega

theorem toHtml_append (pieces more : List HtmlPiece) :
    toHtml (pieces ++ more) = toHtml pieces ++ toHtml more := List.flatMap_append

theorem textOf_append (pieces more : List HtmlPiece) :
    textOf (pieces ++ more) = textOf pieces ++ textOf more := List.flatMap_append

theorem toHtml_characters (text : Text) :
    toHtml (text.map HtmlPiece.character) = escapeText text := by
  rw [toHtml, List.flatMap_map]
  rfl

theorem textOf_characters (text : Text) : textOf (text.map HtmlPiece.character) = text := by
  rw [textOf, List.flatMap_map]
  exact List.flatMap_singleton' text

theorem textOf_runPieces (cells : List Cell) (style : Style) :
    textOf (runPieces cells style) = cellText cells := by
  unfold runPieces
  by_cases hcss : (styleToCss style).isEmpty = true
  · rw [if_pos hcss, textOf_characters]
  · rw [if_neg hcss]
    by_cases hcells : cells = []
    · rw [if_pos hcells, hcells]
      rfl
    · rw [if_neg hcells]
      exact List.append_nil _

theorem textOf_linePieces (cells : List Cell) : textOf (linePieces cells) = cellText cells := by
  induction cells using linePieces.induct with
  | case1 => simp [linePieces, textOf, cellText]
  | case2 cell rest ih =>
      rw [linePieces, textOf_append, textOf_runPieces, ih, cellText, cellText, ← List.map_append,
        List.cons_append, List.takeWhile_append_dropWhile]
      rfl

theorem textOf_docPieces (first : Bool) (lines : List (List Cell)) :
    textOf (docPieces first lines) = joinLines first (lines.map cellText) := by
  induction lines generalizing first with
  | nil => rfl
  | cons cells rest ih =>
      rw [docPieces, textOf_append, textOf_append, textOf_linePieces, ih, List.map_cons, joinLines]
      cases first <;> rfl

/-- **A writer's step**: pieces are written after what is there, all of them or a part from the
beginning, which happens where they do not fit. -/
structure Pushed (output : Text) (result : Text × Bool) (full : List HtmlPiece)
    (pieces : List HtmlPiece) : Prop where
  written : result.1 = output ++ toHtml pieces
  isPrefix : textOf pieces <+: textOf full
  fits : utf8Len output ≤ maxRenderedContentBytes → utf8Len result.1 ≤ maxRenderedContentBytes
  all_of_done : result.2 = true → pieces = full
  cut_of_not : result.2 = false → maxRenderedContentBytes < utf8Len output + utf8Len (toHtml full)

/-- Nothing is written where nothing fits. -/
theorem Pushed.cut {output : Text} {full : List HtmlPiece}
    (h : maxRenderedContentBytes < utf8Len output + utf8Len (toHtml full)) :
    Pushed output (output, false) full [] where
  written := (List.append_nil _).symm
  isPrefix := List.nil_prefix
  fits := id
  all_of_done h := nomatch h
  cut_of_not _ := h

/-- The second part is left out where the first one is cut. -/
theorem Pushed.cutBefore {output : Text} {text : Text} {full pieces more : List HtmlPiece}
    (h : Pushed output (text, false) full pieces) : Pushed output (text, false) (full ++ more) pieces where
  written := h.written
  isPrefix := by
    rw [textOf_append]
    exact h.isPrefix.trans (List.prefix_append _ _)
  fits := h.fits
  all_of_done h := nomatch h
  cut_of_not _ := by
    have := h.cut_of_not rfl
    rw [toHtml_append, utf8Len_append]
    omega

theorem Pushed.trans {output text : Text} {result : Text × Bool}
    {full full' pieces pieces' : List HtmlPiece} (h : Pushed output (text, true) full pieces)
    (h' : Pushed text result full' pieces') :
    Pushed output result (full ++ full') (pieces ++ pieces') := by
  obtain rfl := h.all_of_done rfl
  have htext := h.written
  dsimp only at htext
  subst htext
  refine ⟨?_, ?_, fun hle => h'.fits (h.fits hle), fun hdone => ?_, fun hcut => ?_⟩
  · rw [h'.written, toHtml_append, List.append_assoc]
  · rw [textOf_append, textOf_append, List.prefix_append_right_inj]
    exact h'.isPrefix
  · rw [h'.all_of_done hdone]
  · have := h'.cut_of_not hcut
    rw [utf8Len_append] at this
    rw [toHtml_append, utf8Len_append]
    omega

/-- Escaped characters, with room for what must follow them. -/
theorem pushEscapedCells_spec (reserved : ℕ) (output : Text) (cells : List Cell) :
    ∃ content, content <+: cellText cells ∧
      (pushEscapedCells reserved output cells).1 = output ++ escapeText content ∧
      (utf8Len output + reserved ≤ maxRenderedContentBytes →
        utf8Len (pushEscapedCells reserved output cells).1 + reserved ≤ maxRenderedContentBytes) ∧
      ((pushEscapedCells reserved output cells).2 = true → content = cellText cells) ∧
      ((pushEscapedCells reserved output cells).2 = false →
        maxRenderedContentBytes <
          utf8Len output + utf8Len (escapeText (cellText cells)) + reserved) := by
  induction cells generalizing output with
  | nil =>
      exact ⟨[], List.nil_prefix, (List.append_nil _).symm, id, fun _ => rfl, (nomatch ·)⟩
  | cons cell rest ih =>
      have hescaped : escapeText (cellText (cell :: rest)) =
          escapeHtmlChar cell.character ++ escapeText (cellText rest) := rfl
      have hlen := utf8Len_escapeHtmlChar cell.character
      by_cases hroom : maxRenderedContentBytes <
          satAdd (utf8Len output) (satAdd (escapedHtmlCharLen cell.character) reserved)
      · have hpush : pushEscapedCells reserved output (cell :: rest) = (output, false) := by
          simp only [pushEscapedCells, pushBoundedEscapedChar, if_pos hroom]
        rw [hpush]
        refine ⟨[], List.nil_prefix, (List.append_nil _).symm, id, (nomatch ·), fun _ => ?_⟩
        rw [limit_lt_satAdd_satAdd] at hroom
        rw [hescaped, utf8Len_append, hlen]
        omega
      · have hpush : pushEscapedCells reserved output (cell :: rest) =
            pushEscapedCells reserved (output ++ escapeHtmlChar cell.character) rest := by
          simp only [pushEscapedCells, pushBoundedEscapedChar, if_neg hroom]
        rw [limit_lt_satAdd_satAdd] at hroom
        obtain ⟨content, hbegins, hwritten, hfits, hall, hcut⟩ :=
          ih (output ++ escapeHtmlChar cell.character)
        rw [hpush]
        refine ⟨cell.character :: content, ?_, ?_, fun hle => hfits ?_, fun hdone => ?_,
          fun hnot => ?_⟩
        · exact List.prefix_cons_iff.mpr (.inr ⟨content, rfl, hbegins⟩)
        · rw [hwritten, List.append_assoc]
          rfl
        · rw [utf8Len_append, hlen]
          omega
        · rw [hall hdone]
          rfl
        · have := hcut hnot
          rw [utf8Len_append, hlen] at this
          rw [hescaped, utf8Len_append, hlen]
          omega

theorem pushHtmlRun_spec (output : Text) (cells : List Cell) (style : Style) :
    ∃ pieces, Pushed output (pushHtmlRun output cells style) (runPieces cells style) pieces := by
  by_cases hcss : (styleToCss style).isEmpty = true
  · have hpush : pushHtmlRun output cells style = pushEscapedCells 0 output cells := by
      simp only [pushHtmlRun, if_pos hcss]
    have hfull : runPieces cells style = (cellText cells).map HtmlPiece.character := if_pos hcss
    obtain ⟨content, hbegins, hwritten, hfits, hall, hcut⟩ := pushEscapedCells_spec 0 output cells
    refine ⟨content.map HtmlPiece.character, ?_⟩
    rw [hpush, hfull]
    refine ⟨?_, ?_, hfits, fun hdone => by rw [hall hdone], fun hnot => ?_⟩
    · rw [toHtml_characters, hwritten]
    · rw [textOf_characters, textOf_characters]
      exact hbegins
    · rw [toHtml_characters]
      exact hcut hnot
  · cases cells with
    | nil =>
        have hpush : pushHtmlRun output [] style = (output, true) := by
          simp only [pushHtmlRun, if_neg hcss]
        have hfull : runPieces [] style = [] := by
          simp [runPieces, cellText]
        rw [hpush, hfull]
        exact ⟨[], (List.append_nil _).symm, List.prefix_rfl, id, fun _ => rfl,
          fun h => absurd h Bool.true_eq_false.mp⟩
    | cons cell rest =>
        have hfull : runPieces (cell :: rest) style =
            [HtmlPiece.span style (cellText (cell :: rest))] := by
          simp only [runPieces, if_neg hcss, reduceCtorEq, if_false]
        have hhtml : ∀ content, toHtml [HtmlPiece.span style content] =
            openTag (styleToCss style) ++ escapeText content ++ closeTag :=
          fun content => List.append_nil _
        have hfirst : utf8Len (escapeText (cellText (cell :: rest))) =
            escapedHtmlCharLen cell.character + utf8Len (escapeText (cellText rest)) := by
          rw [← utf8Len_escapeHtmlChar, ← utf8Len_append]
          rfl
        have htext : ∀ content, textOf [HtmlPiece.span style content] = content :=
          fun content => List.append_nil _
        rw [hfull]
        by_cases hroom : maxRenderedContentBytes < satAdd (utf8Len output)
            (satAdd (satAdd (utf8Len (openTag (styleToCss style)))
              (escapedHtmlCharLen cell.character)) (utf8Len closeTag))
        · have hpush : pushHtmlRun output (cell :: rest) style = (output, false) := by
            simp only [pushHtmlRun, if_neg hcss, if_pos hroom]
          rw [hpush]
          refine ⟨[], Pushed.cut ?_⟩
          rw [hhtml, utf8Len_append, utf8Len_append, hfirst]
          rw [limit_lt_satAdd_required] at hroom
          omega
        · obtain ⟨content, hbegins, hwritten, hfits, hall, hcut⟩ := pushEscapedCells_spec
            (utf8Len closeTag) (output ++ openTag (styleToCss style)) (cell :: rest)
          have hpush : pushHtmlRun output (cell :: rest) style =
              ((pushEscapedCells (utf8Len closeTag) (output ++ openTag (styleToCss style))
                (cell :: rest)).1 ++ closeTag,
               (pushEscapedCells (utf8Len closeTag) (output ++ openTag (styleToCss style))
                (cell :: rest)).2) := by
            simp only [pushHtmlRun, if_neg hcss, if_neg hroom]
          rw [hpush]
          refine ⟨[HtmlPiece.span style content], ?_, ?_, fun hle => ?_, fun hdone => ?_,
            fun hnot => ?_⟩
          · rw [hhtml, hwritten]
            simp only [List.append_assoc]
          · rw [htext, htext]
            exact hbegins
          · rw [utf8Len_append]
            refine hfits ?_
            rw [utf8Len_append]
            rw [limit_lt_satAdd_required] at hroom
            omega
          · rw [hall hdone]
          · have := hcut hnot
            rw [utf8Len_append] at this
            rw [hhtml, utf8Len_append, utf8Len_append]
            omega

theorem pushHtmlRuns_spec (output : Text) (cells : List Cell) :
    ∃ pieces, Pushed output (pushHtmlRuns output cells) (linePieces cells) pieces := by
  induction cells using linePieces.induct generalizing output with
  | case1 =>
      rw [pushHtmlRuns, linePieces]
      exact ⟨[], (List.append_nil _).symm, List.prefix_rfl, id, fun _ => rfl,
        fun h => absurd h Bool.true_eq_false.mp⟩
  | case2 cell rest ih =>
      obtain ⟨pieces, hrun⟩ := pushHtmlRun_spec output
        (cell :: rest.takeWhile (·.style = cell.style)) cell.style
      rw [pushHtmlRuns, linePieces]
      cases hres : pushHtmlRun output (cell :: rest.takeWhile (·.style = cell.style)) cell.style with
      | mk text done =>
          rw [hres] at hrun
          cases done with
          | false => exact ⟨pieces, hrun.cutBefore⟩
          | true =>
              obtain ⟨more, hmore⟩ := ih text
              exact ⟨pieces ++ more, hrun.trans hmore⟩

end Written

/-! ### Lines -/

/-- The cells of a line that the HTML shows. -/
def shownCells (line : Line) : List Cell := line.take ((trimmedLineLength line).getD 0)

/-- All text of a screen. -/
def screenText (s : TerminalTextRenderer) : Text := joinLines true (s.lines.map cellText)

/-- The HTML of a screen without a limit. -/
def unlimitedHtml (s : TerminalTextRenderer) : Text :=
  toHtml (docPieces true (s.lines.map shownCells))

section Lines

theorem newline_notMem_cellText (cells : List Cell) : '\n' ∉ cellText cells := by
  intro hmem
  obtain ⟨cell, -, hcell⟩ := List.mem_map.mp hmem
  have hprintable := cell.printable
  rw [hcell] at hprintable
  exact absurd hprintable (by decide)

/-- Cells that are left out of a line are blank. -/
theorem sameLine_take {cells : Line} {n : ℕ}
    (h : ∀ i, n ≤ i → i < cells.length → ∀ cell, cells[i]? = some cell →
      isBlank cell.character = true) : SameLine (cellText (cells.take n)) (cellText cells) := by
  have hsplit : cellText cells = cellText (cells.take n) ++ cellText (cells.drop n) := by
    rw [cellText, cellText, cellText, ← List.map_append, List.take_append_drop]
  refine ⟨newline_notMem_cellText _, newline_notMem_cellText _, ?_, ?_⟩
  · rw [hsplit, rdropWhile_append_of_all]
    intro c hc
    obtain ⟨cell, hcell, rfl⟩ := List.mem_map.mp hc
    obtain ⟨i, hi, hget⟩ := List.mem_iff_getElem.mp hcell
    rw [List.length_drop] at hi
    refine h (n + i) (Nat.le_add_right _ _) (by omega) cell ?_
    rw [← hget, List.getElem_drop]
    exact List.getElem?_eq_getElem _
  · rw [hsplit]
    exact List.prefix_append _ _

theorem sameLine_shownCells (line : Line) : SameLine (cellText (shownCells line)) (cellText line) := by
  obtain ⟨n, hn, -, hblank⟩ := trimFrom_spec (Nat.le_refl _)
  have hshown : shownCells line = line.take n := by
    rw [shownCells, trimmedLineLength, hn]
    rfl
  rw [hshown]
  exact sameLine_take hblank

theorem sameLines_shownCells (lines : List Line) :
    List.Forall₂ SameLine ((lines.map shownCells).map cellText) (lines.map cellText) := by
  induction lines with
  | nil => exact .nil
  | cons line rest ih => exact .cons (sameLine_shownCells line) ih

theorem renderLineHtml_eq (output : Text) (line : Line) :
    renderLineHtml output line = some (pushHtmlRuns output (shownCells line)) := by
  obtain ⟨n, hn, hle, -⟩ := trimFrom_spec (Nat.le_refl _)
  have htrim : trimmedLineLength line = some n := hn
  simp only [renderLineHtml, shownCells, htrim, Option.bind_eq_bind, Option.bind_some, sliceTo,
    if_pos hle, Option.getD_some, Option.pure_def]

theorem startLine_spec (first : Bool) (output : Text) :
    ∃ pieces, Pushed output (startLine first output)
      (if first then [] else [HtmlPiece.character '\n']) pieces := by
  cases first with
  | true => exact ⟨[], (List.append_nil _).symm, List.prefix_rfl, id, fun _ => rfl, (nomatch ·)⟩
  | false =>
      have hlen : utf8Len (toHtml [HtmlPiece.character '\n']) = utf8Len ['\n'] := by decide
      rw [if_neg Bool.false_ne_true]
      unfold startLine pushBoundedStr
      rw [if_neg Bool.false_ne_true]
      by_cases hroom : maxRenderedContentBytes < satAdd (utf8Len output) (utf8Len ['\n'])
      · rw [if_pos hroom]
        rw [limit_lt_satAdd, ← hlen] at hroom
        exact ⟨[], Pushed.cut hroom⟩
      · rw [if_neg hroom]
        rw [limit_lt_satAdd] at hroom
        refine ⟨[HtmlPiece.character '\n'], rfl, List.prefix_rfl, fun _ => ?_, fun _ => rfl,
          (nomatch ·)⟩
        rw [utf8Len_append]
        omega

/-- **The HTML of lines** is their pieces, all of them or a part from the beginning. -/
theorem htmlLines_spec (first : Bool) (output : Text) (lines : List Line) :
    ∃ html done pieces, htmlLines first output lines = some html ∧
      Pushed output (html, done) (docPieces first (lines.map shownCells)) pieces := by
  induction lines generalizing first output with
  | nil =>
      exact ⟨output, true, [], rfl, (List.append_nil _).symm, List.prefix_rfl, id, fun _ => rfl,
        (nomatch ·)⟩
  | cons line rest ih =>
      obtain ⟨start, hstart⟩ := startLine_spec first output
      rw [List.map_cons, docPieces, htmlLines]
      cases hbegun : startLine first output with
      | mk begun begunDone =>
          rw [hbegun] at hstart
          cases begunDone with
          | false => exact ⟨begun, false, start, rfl, hstart.cutBefore.cutBefore⟩
          | true =>
              obtain ⟨pieces, hruns⟩ := pushHtmlRuns_spec begun (shownCells line)
              simp only [renderLineHtml_eq, Option.bind_eq_bind, Option.bind_some]
              cases hline : pushHtmlRuns begun (shownCells line) with
              | mk text done =>
                  rw [hline] at hruns
                  have hboth := hstart.trans hruns
                  cases done with
                  | false => exact ⟨text, false, start ++ pieces, rfl, hboth.cutBefore⟩
                  | true =>
                      obtain ⟨html, done, more, hhtml, hmore⟩ := ih false text
                      exact ⟨html, done, start ++ pieces ++ more, hhtml, hboth.trans hmore⟩

/-- Every other piece ends in a character that is no line feed. -/
theorem exists_last_toHtml {piece : HtmlPiece} (h : piece.toHtml ≠ ['\n']) :
    ∃ init last, piece.toHtml = init ++ [last] ∧ last ≠ '\n' := by
  cases piece with
  | character content =>
      rw [HtmlPiece.toHtml] at h ⊢
      obtain ⟨-, hc⟩ | ⟨-, hc⟩ | ⟨-, hc⟩ | ⟨-, hc⟩ | ⟨-, hc⟩ | ⟨-, -, -, -, hc⟩ :=
        escapeHtmlChar_cases content
      · rw [hc]; exact ⟨"&amp".toList, ';', rfl, by decide⟩
      · rw [hc]; exact ⟨"&lt".toList, ';', rfl, by decide⟩
      · rw [hc]; exact ⟨"&gt".toList, ';', rfl, by decide⟩
      · rw [hc]; exact ⟨"&quot".toList, ';', rfl, by decide⟩
      · rw [hc]; exact ⟨"&#039".toList, ';', rfl, by decide⟩
      · rw [hc] at h ⊢
        exact ⟨[], content, rfl, fun heq => h (by rw [heq])⟩
  | span style content =>
      have hclose : closeTag = closeTag.dropLast ++ ['>'] := by decide
      refine ⟨openTag (styleToCss style) ++ escapeText content ++ closeTag.dropLast, '>', ?_,
        by decide⟩
      rw [HtmlPiece.toHtml, List.append_assoc _ closeTag.dropLast, ← hclose]

/-- Line feeds at the end are pieces of their own. -/
theorem exists_toHtml_popNewlines (pieces : List HtmlPiece) :
    ∃ kept, toHtml kept = popNewlines (toHtml pieces) ∧ kept <+: pieces ∧
      canonicalLines (textOf kept) = canonicalLines (textOf pieces) := by
  induction pieces using List.reverseRecOn with
  | nil => exact ⟨[], rfl, List.prefix_rfl, rfl⟩
  | append_singleton pieces piece ih =>
      by_cases hpiece : piece.toHtml = ['\n']
      · obtain ⟨kept, hkept, hbegins, hsame⟩ := ih
        have hchar : piece.text = ['\n'] := by
          have htext := htmlText_toHtml [piece]
          have hone : toHtml [piece] = piece.toHtml := List.append_nil _
          rw [hone, hpiece] at htext
          have hback : textOf [piece] = piece.text := List.append_nil _
          rw [← hback, ← htext]
          rfl
        have hhtml : toHtml (pieces ++ [piece]) = toHtml pieces ++ ['\n'] := by
          rw [toHtml_append, ← hpiece]
          exact congrArg _ (List.append_nil _)
        have htext : textOf (pieces ++ [piece]) = textOf pieces ++ ['\n'] := by
          rw [textOf_append, ← hchar]
          exact congrArg _ (List.append_nil _)
        have hlines : strippedLines (textOf pieces ++ ['\n']) = strippedLines (textOf pieces) ++ [[]] :=
          strippedLines_append_cons _ []
        refine ⟨kept, ?_, hbegins.trans (List.prefix_append _ _), ?_⟩
        · rw [hkept, hhtml, popNewlines, popNewlines, List.rdropWhile_concat_pos _ _ _ (by simp)]
        · rw [hsame, htext, canonicalLines, canonicalLines, hlines,
            List.rdropWhile_concat_pos _ _ _ (by simp)]
      · obtain ⟨init, last, hlast, hne⟩ := exists_last_toHtml hpiece
        refine ⟨pieces ++ [piece], ?_, List.prefix_rfl, rfl⟩
        have hhtml : toHtml (pieces ++ [piece]) = toHtml pieces ++ init ++ [last] := by
          rw [toHtml_append, List.append_assoc, ← hlast]
          exact congrArg _ (List.append_nil _)
        rw [hhtml, popNewlines, List.rdropWhile_concat_neg _ _ _ (by simpa using hne)]

end Lines

/-! ### Plain text -/

section Plain

theorem utf8Len_cellText_le (cells : List Cell) : utf8Len (cellText cells) ≤ 4 * cells.length := by
  induction cells with
  | nil => exact Nat.le_refl _
  | cons cell cells ih =>
      have hsize := Char.utf8Size_le_four cell.character
      have hcons : utf8Len (cellText (cell :: cells)) =
          cell.character.utf8Size + utf8Len (cellText cells) := rfl
      rw [hcons, List.length_cons]
      omega

/-- Cells that fit are written. -/
theorem pushPlainCells_eq {output : Text} {cells : List Cell}
    (h : utf8Len output + utf8Len (cellText cells) ≤ maxRenderedContentBytes) :
    pushPlainCells output cells = output ++ cellText cells := by
  induction cells generalizing output with
  | nil => exact (List.append_nil _).symm
  | cons cell rest ih =>
      have hcons : utf8Len (cellText (cell :: rest)) =
          cell.character.utf8Size + utf8Len (cellText rest) := rfl
      rw [hcons] at h
      have hroom : ¬ maxRenderedContentBytes < satAdd (utf8Len output) cell.character.utf8Size := by
        rw [limit_lt_satAdd]
        omega
      have hone : utf8Len [cell.character] = cell.character.utf8Size := Nat.add_zero _
      simp only [pushPlainCells, pushBoundedChar, if_neg hroom]
      rw [ih, List.append_assoc]
      · rfl
      · rw [utf8Len_append, hone]
        omega

/-- The cells of a line that plain text shows. -/
def plainCells (line : Line) : List Cell := line.take (plainLength line)

theorem plainLength_le (line : Line) : plainLength line ≤ line.length :=
  (List.rdropWhile_prefix _ _).length_le

theorem sameLine_plainCells (line : Line) : SameLine (cellText (plainCells line)) (cellText line) := by
  refine sameLine_take fun i hi hlt cell hcell => ?_
  obtain ⟨more, hmore, hblank⟩ := exists_rdropWhile_append
    (fun cell : Cell => isBlank cell.character) line
  refine hblank cell ?_
  rw [hmore, List.getElem?_append_right hi] at hcell
  exact List.mem_of_getElem? hcell

theorem sameLines_plainCells (lines : List Line) :
    List.Forall₂ SameLine ((lines.map plainCells).map cellText) (lines.map cellText) := by
  induction lines with
  | nil => exact .nil
  | cons line rest ih => exact .cons (sameLine_plainCells line) ih

/-- **The plain text of lines** is all of them, where they fit with room for one line feed each. -/
theorem plainLines_eq {first : Bool} {output : Text} {lines : List Line}
    (h : utf8Len output + 4 * cellTotal lines + lines.length < maxRenderedContentBytes) :
    plainLines first output lines =
      some (output ++ joinLines first ((lines.map plainCells).map cellText)) := by
  induction lines generalizing first output with
  | nil => exact congrArg some (List.append_nil _).symm
  | cons line rest ih =>
      have hcells : cellTotal (line :: rest) = line.length + cellTotal rest := by simp [cellTotal]
      rw [hcells, List.length_cons] at h
      have hstart : startLine first output = (output ++ (if first then [] else ['\n']), true) := by
        cases first with
        | true => exact congrArg (·, true) (List.append_nil _).symm
        | false =>
            have hone : utf8Len ['\n'] = 1 := rfl
            have hroom : ¬ maxRenderedContentBytes <
                satAdd (utf8Len output) (utf8Len ['\n']) := by
              rw [limit_lt_satAdd, hone]
              omega
            simp only [startLine, pushBoundedStr, if_neg hroom, Bool.false_eq_true, if_false]
      have hbegun : utf8Len (output ++ (if first then [] else ['\n'])) ≤ utf8Len output + 1 := by
        rw [utf8Len_append]
        cases first with
        | true => exact Nat.le_succ _
        | false => exact Nat.le_refl _
      have hshown : utf8Len (cellText (plainCells line)) ≤ 4 * line.length := by
        refine Nat.le_trans (utf8Len_cellText_le _) ?_
        have := List.length_take_le' (plainLength line) line
        rw [plainCells]
        omega
      have hpush : pushPlainCells (output ++ (if first then [] else ['\n'])) (plainCells line) =
          output ++ (if first then [] else ['\n']) ++ cellText (plainCells line) :=
        pushPlainCells_eq (by omega)
      have hlen : utf8Len (output ++ (if first then [] else ['\n']) ++ cellText (plainCells line)) =
          utf8Len (output ++ (if first then [] else ['\n'])) + utf8Len (cellText (plainCells line)) :=
        utf8Len_append _ _
      rw [plainLines, hstart]
      simp only [sliceTo, if_pos (plainLength_le line), Option.bind_eq_bind, Option.bind_some]
      rw [plainCells] at hpush hlen hshown
      rw [hpush, if_neg (by omega), ih (by omega), List.map_cons, List.map_cons, joinLines]
      simp only [List.append_assoc, plainCells]

end Plain

/-! ### Both exports -/

/-- HTML made of characters and of spans with the generator's declarations. -/
def IsMarkup (html : Text) : Prop :=
  ∃ pieces, html = toHtml pieces ∧ ∀ style content, HtmlPiece.span style content ∈ pieces →
    ∀ declaration ∈ style.declarations, IsDeclaration declaration

theorem isClean_cellText {cells : List Cell} {c : Char} (h : c ∈ cellText cells) : IsClean c := by
  obtain ⟨cell, -, rfl⟩ := List.mem_map.mp h
  exact .inr cell.printable

theorem isClean_joinLines {first : Bool} {lines : List (List Cell)} {c : Char}
    (h : c ∈ joinLines first (lines.map cellText)) : IsClean c := by
  induction lines generalizing first with
  | nil => nomatch h
  | cons cells rest ih =>
      rw [List.map_cons, joinLines, List.mem_append, List.mem_append] at h
      obtain (hc | hc) | hc := h
      · cases first with
        | true => nomatch hc
        | false => exact .inl (List.mem_singleton.mp hc)
      · exact isClean_cellText hc
      · exact ih hc

/-- The screen fits as plain text, with its line feeds. -/
theorem plain_fits {s : TerminalTextRenderer} (h : Bounded s) :
    utf8Len [] + 4 * cellTotal s.lines + s.lines.length < maxRenderedContentBytes := by
  have hcells := h.cells
  have hvirtual := h.virtual_le
  have hrows := h.rows_le
  have hnil : utf8Len [] = 0 := rfl
  have hcellLimit : maxVirtualCells = 1000000 := rfl
  have hrowLimit : maxVirtualRows = 16384 := rfl
  have hlimit : maxRenderedContentBytes = 8388608 := rfl
  omega

theorem renderScreen_total (terminalData : Text) :
    ∃ s, renderScreen terminalData = some s ∧ Bounded s := by
  obtain ⟨s, hfeed, hs⟩ := feed_total terminalData
  obtain ⟨t, hfinish, ht⟩ := TerminalTextRenderer.finish_total hs
  refine ⟨t, ?_, ht⟩
  rw [renderScreen, hfeed]
  exact hfinish

theorem toPlainText_eq {s : TerminalTextRenderer} (h : Bounded s) :
    s.toPlainText = some (popNewlines (joinLines true ((s.lines.map plainCells).map cellText))) := by
  rw [TerminalTextRenderer.toPlainText, plainLines_eq (plain_fits h)]
  rfl

/-- **The renderer takes every input, and the exports every screen**: at any point of an input the
renderer is within its bounds, and nothing panics from there to the end. -/
theorem renderer_total_bounded (before after : Text) :
    ∃ s t, ({} : TerminalTextRenderer).feed before = some s ∧ Bounded s ∧
      after.foldlM TerminalTextRenderer.consume s = some t ∧
      ({} : TerminalTextRenderer).feed (before ++ after) = some t ∧ Bounded t ∧
      (∃ final plain html, t.finish = some final ∧ Bounded final ∧
        final.toPlainText = some plain ∧ final.toHtmlContent = some html) := by
  obtain ⟨s, hs, hbounded⟩ := feed_total before
  obtain ⟨t, ht, htotal⟩ := TerminalTextRenderer.consumeAll_total hbounded after
  obtain ⟨final, hfinal, hend⟩ := TerminalTextRenderer.finish_total htotal
  obtain ⟨html, done, pieces, hhtml, -⟩ := htmlLines_spec true [] final.lines
  refine ⟨s, t, hs, hbounded, ht, ?_, htotal, final, _, popNewlines html, hfinal, hend,
    toPlainText_eq hend, ?_⟩
  · rw [TerminalTextRenderer.feed, List.foldlM_append]
    rw [TerminalTextRenderer.feed] at hs
    rw [hs]
    exact ht
  · rw [TerminalTextRenderer.toHtmlContent, hhtml]
    rfl

/-- **Both exports of a replay**: the plain text is that of the screen, the HTML is markup within its
limit whose text is that of the screen or of a part from its beginning, and neither has a control
character below the space, or `DEL`, but for line feeds. -/
theorem exports_agree (terminalData : Text) :
    ∃ s plain html, renderScreen terminalData = some s ∧ renderPlainText terminalData = some plain ∧
      renderHtmlContent terminalData = some html ∧
      IsMarkup html ∧ utf8Len html ≤ maxRenderedContentBytes ∧
      canonicalLines plain = canonicalLines (screenText s) ∧
      (∃ shown, shown <+: screenText s ∧ canonicalLines (htmlText html) = canonicalLines shown ∧
        (shown = screenText s ∨ maxRenderedContentBytes < utf8Len (unlimitedHtml s))) ∧
      (∀ c ∈ plain, IsClean c) ∧ (∀ c ∈ html, IsClean c) := by
  obtain ⟨s, hs, hbounded⟩ := renderScreen_total terminalData
  obtain ⟨html, done, pieces, hhtml, hpushed⟩ := htmlLines_spec true [] s.lines
  obtain ⟨kept, hkept, hbegins, hsame⟩ := exists_toHtml_popNewlines pieces
  have hwritten : html = toHtml pieces := hpushed.written
  have hkeptText : textOf kept <+: textOf pieces := by
    obtain ⟨more, rfl⟩ := hbegins
    rw [textOf_append]
    exact List.prefix_append _ _
  have hpart := hpushed.isPrefix
  rw [textOf_docPieces] at hpart
  refine ⟨s, popNewlines (joinLines true ((s.lines.map plainCells).map cellText)), toHtml kept, hs,
    ?_, ?_, ?_, ?_, ?_, ?_, ?_, ?_⟩
  · rw [renderPlainText, hs]
    exact toPlainText_eq hbounded
  · rw [renderHtmlContent, hs]
    simp only [Option.bind_eq_bind, Option.bind_some]
    rw [TerminalTextRenderer.toHtmlContent, hhtml, hkept, hwritten]
    rfl
  · exact ⟨kept, rfl, fun style _ _ _ hmem => isDeclaration_of_mem hmem⟩
  · have hfits := hpushed.fits (Nat.zero_le _)
    dsimp only at hfits
    obtain ⟨more, hmore⟩ := hbegins
    rw [hwritten, ← hmore, toHtml_append, utf8Len_append] at hfits
    omega
  · rw [canonicalLines_popNewlines, canonicalLines, canonicalLines,
      strippedLines_joinLines (sameLines_plainCells s.lines)]
    rfl
  · rw [htmlText_toHtml, hsame]
    cases done with
    | true =>
        refine ⟨screenText s, List.prefix_rfl, ?_, .inl rfl⟩
        rw [hpushed.all_of_done rfl, textOf_docPieces, canonicalLines, canonicalLines,
          strippedLines_joinLines (sameLines_shownCells s.lines)]
        rfl
    | false =>
        obtain ⟨shown, hshown, hstripped⟩ :=
          exists_prefix_of_sameLines (sameLines_shownCells s.lines) hpart
        refine ⟨shown, hshown, ?_, .inr ?_⟩
        · rw [canonicalLines, canonicalLines, hstripped]
        · have hcut := hpushed.cut_of_not rfl
          have hnil : utf8Len [] = 0 := rfl
          rw [hnil, Nat.zero_add] at hcut
          exact hcut
  · intro c hc
    exact isClean_joinLines ((List.rdropWhile_prefix _ _).subset hc)
  · refine isClean_toHtml fun c hc => ?_
    exact isClean_joinLines (hpart.subset (hkeptText.subset hc))

/-- **A `C1` character is text**: `NEL` stands in both exports. -/
theorem next_line_exported :
    renderPlainText ['\u0085'] = some ['\u0085'] ∧
      renderHtmlContent ['\u0085'] = some ['\u0085'] := by
  decide +kernel

end Netcatty.LogExport
