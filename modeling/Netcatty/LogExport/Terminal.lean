import Netcatty.Secret.SerdeText

/-! # The terminal renderer

`TerminalTextRenderer` takes the characters of a replay one at a time.  It keeps the lines of a
virtual screen and of the screens before it, applies the editing controls, and passes over the
sequences that it does not know.

A function that indexes, slices or subtracts where the source does so without a check returns an
`Option`, in which `none` is a panic.  A color is one of the generator's by its type, and so is a
cell's character printable. -/

namespace Netcatty.LogExport

open Secret (hexDigit)
open Vault (Text utf8Len parseU64 isLowerHex)

def maxVirtualRows : ℕ := 16384
def maxVirtualColumns : ℕ := 16384
def maxVirtualCells : ℕ := 1000000
def maxCsiBytes : ℕ := 4096

/-! ### Checked arithmetic and slices -/

def usizeLimit : ℕ := 2 ^ 64

/-- `saturating_add`. -/
def satAdd (a b : ℕ) : ℕ := min (a + b) (usizeLimit - 1)

/-- An addition that panics where it overflows. -/
def addOrPanic (a b : ℕ) : Option ℕ := if a + b < usizeLimit then some (a + b) else none

def subOrPanic (a b : ℕ) : Option ℕ := if b ≤ a then some (a - b) else none

section Slices

variable {α : Type}

def sliceTo (l : List α) (stop : ℕ) : Option (List α) :=
  if stop ≤ l.length then some (l.take stop) else none

def sliceFrom (l : List α) (start : ℕ) : Option (List α) :=
  if start ≤ l.length then some (l.drop start) else none

end Slices

/-! ### Styles -/

/-- A number sign and six hexadecimal digits. -/
def isColor : Text → Bool
  | '#' :: digits => digits.length = 6 && digits.all isLowerHex
  | _ => false

abbrev Color := { text : Text // isColor text = true }

def defaultForeground : Color := ⟨"#d4d4d4".toList, by decide⟩
def defaultBackground : Color := ⟨"#1e1e1e".toList, by decide⟩

def basicColors : List Color :=
  [⟨"#000000".toList, by decide⟩, ⟨"#cd3131".toList, by decide⟩, ⟨"#0dbc79".toList, by decide⟩,
    ⟨"#e5e510".toList, by decide⟩, ⟨"#2472c8".toList, by decide⟩, ⟨"#bc3fbc".toList, by decide⟩,
    ⟨"#11a8cd".toList, by decide⟩, ⟨"#e5e5e5".toList, by decide⟩]

def brightColors : List Color :=
  [⟨"#666666".toList, by decide⟩, ⟨"#f14c4c".toList, by decide⟩, ⟨"#23d18b".toList, by decide⟩,
    ⟨"#f5f543".toList, by decide⟩, ⟨"#3b8eea".toList, by decide⟩, ⟨"#d670d6".toList, by decide⟩,
    ⟨"#29b8db".toList, by decide⟩, ⟨"#ffffff".toList, by decide⟩]

/-- Two digits, as `{:02x}` writes a byte. -/
def hexByte (n : ℕ) : Text := [hexDigit (n / 16), hexDigit (n % 16)]

theorem hexByte_isLowerHex {n : ℕ} (h : n ≤ 255) : (hexByte n).all isLowerHex = true := by
  have hhigh := (Secret.hexDigit_isLowerHex (n := n / 16) (by omega)).1
  have hlow := (Secret.hexDigit_isLowerHex (n := n % 16) (by omega)).1
  simp [hexByte, hhigh, hlow]

def rgbColor (red green blue : ℕ) (h : red ≤ 255 ∧ green ≤ 255 ∧ blue ≤ 255) : Color where
  val := '#' :: (hexByte red ++ hexByte green ++ hexByte blue)
  property := by
    obtain ⟨hred, hgreen, hblue⟩ := h
    simp only [isColor, List.all_append, hexByte_isLowerHex hred, hexByte_isLowerHex hgreen,
      hexByte_isLowerHex hblue]
    rfl

def colorFromRgb (red green blue : Option ℕ) : Option Color := do
  let red ← red
  let green ← green
  let blue ← blue
  if h : red ≤ 255 ∧ green ≤ 255 ∧ blue ≤ 255 then some (rgbColor red green blue h) else none

def colorCubeValue (value : ℕ) : ℕ := if value = 0 then 0 else 55 + value * 40

/-- The color of a palette index, if it has one. -/
def colorFromAnsi256 (value : ℕ) : Option (Option Color) :=
  if value ≤ 7 then basicColors[value]?.map some
  else if value ≤ 15 then do
    let index ← subOrPanic value 8
    brightColors[index]?.map some
  else if value ≤ 231 then do
    let value ← subOrPanic value 16
    return colorFromRgb (colorCubeValue (value / 36)) (colorCubeValue (value % 36 / 6))
      (colorCubeValue (value % 6))
  else if value ≤ 255 then do
    let index ← subOrPanic value 232
    let level := 8 + index * 10
    return colorFromRgb level level level
  else return none

def paletteColor (value : Option ℕ) : Option (Option Color) :=
  match value with
  | some value => colorFromAnsi256 value
  | none => some none

structure Style where
  foreground : Option Color := none
  background : Option Color := none
  bold : Bool := false
  italic : Bool := false
  underline : Bool := false
  inverse : Bool := false
  deriving DecidableEq

/-- The declarations of a style, which `style_to_css` joins. -/
def Style.declarations (style : Style) : List Text :=
  let foreground :=
    if style.inverse then some (style.background.getD defaultBackground) else style.foreground
  let background :=
    if style.inverse then some (style.foreground.getD defaultForeground) else style.background
  (foreground.map fun color => "color: ".toList ++ color.val).toList ++
    (background.map fun color => "background-color: ".toList ++ color.val).toList ++
    (if style.bold then ["font-weight: 700".toList] else []) ++
    (if style.italic then ["font-style: italic".toList] else []) ++
    (if style.underline then ["text-decoration: underline".toList] else [])

def styleToCss (style : Style) : Text := "; ".toList.intercalate style.declarations

/-! ### Cells -/

def isTerminalPrintable (character : Char) : Bool :=
  0x20 ≤ character.toNat && character != '\x7f'

structure Cell where
  character : Char
  style : Style
  printable : isTerminalPrintable character = true
  deriving DecidableEq

def Cell.blank : Cell := ⟨' ', {}, by decide⟩

abbrev Line := List Cell

/-- The cells of all lines. -/
def cellTotal (lines : List Line) : ℕ := (lines.map List.length).sum

def isBlank (character : Char) : Bool := character = ' ' || character = '\t'

/-- The loop of `trimmed_line_length`. -/
def trimFrom (cells : Line) : ℕ → Option ℕ
  | 0 => some 0
  | length + 1 => do
      let cell ← cells[length]?
      if !isBlank cell.character || !(styleToCss cell.style).isEmpty then return length + 1
      else trimFrom cells length

def trimmedLineLength (line : Line) : Option ℕ := trimFrom line line.length

/-- Blank lines are taken away, the last line first, and their cells from a count. -/
def popBlankLines : List Line → ℕ → Option (List Line × ℕ)
  | [], count => some ([], count)
  | line :: rest, count => do
      if (← trimmedLineLength line) = 0 then popBlankLines rest (count - line.length)
      else return (line :: rest, count)

def trimTrailingBlankLines (lines : List Line) : Option (List Line) := do
  let (kept, _) ← popBlankLines lines.reverse 0
  return kept.reverse

/-- Whether a line has more than blanks. -/
def hasContent (lines : List Line) : Option Bool :=
  lines.anyM fun line => do return 0 < (← trimmedLineLength line)

/-! ### The renderer -/

structure PendingClearedScreen where
  lines : List Line
  baseRow : ℕ
  cellCount : ℕ
  deriving DecidableEq

inductive ParserState
  | normal | escape | csi | csiDiscard | osc | oscEscape
  deriving DecidableEq, Repr

structure TerminalTextRenderer where
  lines : List Line := []
  row : ℕ := 0
  column : ℕ := 0
  screenBaseRow : ℕ := 0
  state : ParserState := .normal
  escapeBuffer : Text := []
  style : Style := {}
  cursorMovedHomeByCsi : Bool := false
  justStartedLogScreen : Bool := false
  hasPreservedScreenHistory : Bool := false
  pendingClearedScreen : Option PendingClearedScreen := none
  alternateScreenActive : Bool := false
  storedCellCount : ℕ := 0
  deriving DecidableEq

namespace TerminalTextRenderer

variable (s : TerminalTextRenderer)

def pendingCellCount : ℕ := (s.pendingClearedScreen.map (·.cellCount)).getD 0

def virtualCellCount : ℕ := satAdd s.storedCellCount s.pendingCellCount

def ensureLine : TerminalTextRenderer :=
  let row := min s.row (maxVirtualRows - 1)
  { s with row, lines := s.lines ++ List.replicate (row + 1 - s.lines.length) [] }

def clearLine (index : ℕ) : Option TerminalTextRenderer := do
  let line ← s.lines[index]?
  return { s with
    lines := s.lines.set index []
    storedCellCount := s.storedCellCount - line.length }

/-- The lines of a range, one after the other. -/
def clearLines (indices : List ℕ) : Option TerminalTextRenderer :=
  indices.foldlM clearLine s

def currentLogScreenHasContent : Option Bool := hasContent (s.lines.drop s.screenBaseRow)

/-! ### Screens -/

def startNewLogScreen : Option TerminalTextRenderer := do
  if s.justStartedLogScreen then return s
  let content ← hasContent s.lines
  let s ←
    if content && s.lines.length < maxVirtualRows then do
      let lines := s.lines ++ [[]]
      let row ← subOrPanic lines.length 1
      pure { s with lines, row }
    else if !content then pure { s with lines := [[]], storedCellCount := 0, row := 0 }
    else pure s
  return { s with
    screenBaseRow := s.row
    column := 0
    cursorMovedHomeByCsi := false
    justStartedLogScreen := true
    hasPreservedScreenHistory := content
    pendingClearedScreen := none }

/-- The lines of the screen are kept until the next one is begun, where they have content. -/
def keepClearedScreen (keepPending : Bool) : Option TerminalTextRenderer := do
  if keepPending && (← s.currentLogScreenHasContent) then do
    let lines ← sliceFrom s.lines s.screenBaseRow
    let cellCount := cellTotal (s.lines.drop s.screenBaseRow)
    return { s with pendingClearedScreen := some ⟨lines, s.screenBaseRow, cellCount⟩ }
  else if !keepPending then return { s with pendingClearedScreen := none }
  else return s

/-- The lines of the screen are cleared. -/
def blankScreen (targetRow : ℕ) : Option TerminalTextRenderer := do
  let s ← s.clearLines (List.range' s.screenBaseRow (s.lines.length - s.screenBaseRow))
  let s := { s with row := min (max s.screenBaseRow targetRow) (maxVirtualRows - 1) }.ensureLine
  return { s with cursorMovedHomeByCsi := false, justStartedLogScreen := true }

def clearCurrentLogScreen (keepPending : Bool) : Option TerminalTextRenderer := do
  let kept ← s.keepClearedScreen keepPending
  kept.blankScreen s.row

/-- The screen that stands where the pending one was. -/
def linesFrom (baseRow : ℕ) : Option (List Line) :=
  if baseRow < s.lines.length then sliceFrom s.lines baseRow else some [[]]

def buildLinesWithPendingClearedScreen (pending : PendingClearedScreen) :
    Option (List Line × ℕ) := do
  let before ← sliceTo s.lines (min pending.baseRow s.lines.length)
  let pendingLines ← trimTrailingBlankLines pending.lines
  let lines := before ++ pendingLines ++ [[]]
  let screenBaseRow := lines.length
  let after ← s.linesFrom pending.baseRow
  return ((lines ++ after).take maxVirtualRows, min screenBaseRow (maxVirtualRows - 1))

def commitPendingClearedScreen : Option TerminalTextRenderer :=
  match s.pendingClearedScreen with
  | none => some s
  | some pending => do
      let relativeRow := s.row - pending.baseRow
      let (lines, screenBaseRow) ← s.buildLinesWithPendingClearedScreen pending
      let screenBaseRow := min screenBaseRow (maxVirtualRows - 1)
      let s := { s with
        pendingClearedScreen := none
        lines := lines
        screenBaseRow := screenBaseRow
        row := min (satAdd screenBaseRow relativeRow) (maxVirtualRows - 1) }.ensureLine
      return { s with
        storedCellCount := cellTotal s.lines
        cursorMovedHomeByCsi := false
        justStartedLogScreen := true
        hasPreservedScreenHistory := true }

/-! ### Erasing and writing -/

def eraseLine (mode : ℕ) : Option TerminalTextRenderer := do
  let s := s.ensureLine
  let line ← s.lines[s.row]?
  if mode = 1 then
    let stop := satAdd s.column 1
    let erased := (line.take stop).map (fun _ => Cell.blank) ++ line.drop stop
    return { s with lines := s.lines.set s.row erased }
  else if mode = 2 then
    return { s with
      lines := s.lines.set s.row []
      storedCellCount := s.storedCellCount - line.length }
  else do
    let newLength := min line.length s.column
    let removed ← subOrPanic line.length newLength
    let kept ← if 0 < removed then sliceTo line newLength else pure line
    return { s with
      lines := s.lines.set s.row kept
      storedCellCount := s.storedCellCount - removed }

/-- The rest of the screen, after the cursor. -/
def eraseBelow : Option TerminalTextRenderer := do
  let s ← s.eraseLine 0
  let removed := cellTotal (s.lines.drop (satAdd s.row 1))
  let stop ← addOrPanic s.row 1
  return { s with
    lines := s.lines.take stop
    storedCellCount := s.storedCellCount - removed }

def eraseDisplay (mode : ℕ) : Option TerminalTextRenderer :=
  let s := s.ensureLine
  if mode = 3 then s.commitPendingClearedScreen
  else if mode = 2 then
    if s.hasPreservedScreenHistory then s.clearCurrentLogScreen true else s.startNewLogScreen
  else if mode = 1 then do
    let s ← s.clearLines
      (List.range' s.screenBaseRow (min s.row s.lines.length - s.screenBaseRow))
    s.eraseLine 1
  else if s.row = s.screenBaseRow ∧ s.column = 0 ∧ s.cursorMovedHomeByCsi ∧
      !s.hasPreservedScreenHistory then s.startNewLogScreen
  else s.eraseBelow

def writeCharacter (character : Char) (printable : isTerminalPrintable character = true) :
    Option TerminalTextRenderer :=
  if maxVirtualColumns ≤ s.column then some s
  else do
    let s := s.ensureLine
    let line ← s.lines[s.row]?
    let additionalCells := satAdd s.column 1 - line.length
    if maxVirtualCells < satAdd s.virtualCellCount additionalCells then return s
    else do
      let line := line ++ List.replicate (s.column - line.length) Cell.blank
      let cell : Cell := ⟨character, s.style, printable⟩
      let line := if s.column < line.length then line.set s.column cell else line ++ [cell]
      let column ← addOrPanic s.column 1
      return { s with
        lines := s.lines.set s.row line
        storedCellCount := satAdd s.storedCellCount additionalCells
        column := column
        cursorMovedHomeByCsi := false
        justStartedLogScreen := false }

/-- Blanks, one after the other. -/
def writeSpaces : ℕ → TerminalTextRenderer → Option TerminalTextRenderer
  | 0, s => some s
  | count + 1, s => do
      let s ← s.writeCharacter ' ' (by decide)
      writeSpaces count s

def applyRisReset : Option TerminalTextRenderer := do
  let (reversed, storedCellCount) ← popBlankLines s.lines.reverse s.storedCellCount
  let lines := reversed.reverse
  let s := { s with
    alternateScreenActive := false
    style := {}
    pendingClearedScreen := none
    lines := lines
    storedCellCount := storedCellCount }
  let s ←
    if lines.isEmpty then
      pure { s with
        lines := [[]]
        row := 0
        column := 0
        screenBaseRow := 0
        hasPreservedScreenHistory := false }
    else if lines.length < maxVirtualRows then do
      let lines := lines ++ [[]]
      let screenBaseRow ← subOrPanic lines.length 1
      pure { s with
        lines := lines
        screenBaseRow := screenBaseRow
        row := screenBaseRow
        column := 0
        hasPreservedScreenHistory := true }
    else pure s
  return { s with cursorMovedHomeByCsi := false, justStartedLogScreen := true }

/-! ### Styles and sequences -/

end TerminalTextRenderer

def setColor (code : ℕ) (color : Option Color) (style : Style) : Style :=
  match color with
  | none => style
  | some color =>
      if code = 38 then { style with foreground := some color }
      else { style with background := some color }

/-- What one code does to the style, and how many of the codes after it are its parameters. -/
def applySgrCode (style : Style) (code : ℕ) (rest : List (Option ℕ)) : Option (Style × ℕ) :=
  if code = 0 then some ({}, 0)
  else if code = 1 then some ({ style with bold := true }, 0)
  else if code = 3 then some ({ style with italic := true }, 0)
  else if code = 4 then some ({ style with underline := true }, 0)
  else if code = 7 then some ({ style with inverse := true }, 0)
  else if code = 22 then some ({ style with bold := false }, 0)
  else if code = 23 then some ({ style with italic := false }, 0)
  else if code = 24 then some ({ style with underline := false }, 0)
  else if code = 27 then some ({ style with inverse := false }, 0)
  else if 30 ≤ code ∧ code ≤ 37 then do
    let color ← basicColors[← subOrPanic code 30]?
    return ({ style with foreground := some color }, 0)
  else if code = 39 then some ({ style with foreground := none }, 0)
  else if 40 ≤ code ∧ code ≤ 47 then do
    let color ← basicColors[← subOrPanic code 40]?
    return ({ style with background := some color }, 0)
  else if code = 49 then some ({ style with background := none }, 0)
  else if 90 ≤ code ∧ code ≤ 97 then do
    let color ← brightColors[← subOrPanic code 90]?
    return ({ style with foreground := some color }, 0)
  else if 100 ≤ code ∧ code ≤ 107 then do
    let color ← brightColors[← subOrPanic code 100]?
    return ({ style with background := some color }, 0)
  else if (code = 38 ∨ code = 48) ∧ rest[0]?.join = some 5 then do
    let color ← paletteColor rest[1]?.join
    return (setColor code color style, 2)
  else if (code = 38 ∨ code = 48) ∧ rest[0]?.join = some 2 then
    some (setColor code (colorFromRgb rest[1]?.join rest[2]?.join rest[3]?.join) style, 4)
  else some (style, 0)

/-- The codes from the next one on, where the first ones may be skipped. -/
def applySgrCodes : ℕ → Style → List (Option ℕ) → Option Style
  | _, style, [] => some style
  | skip + 1, style, _ :: rest => applySgrCodes skip style rest
  | 0, style, code :: rest => do
      let (style, skip) ← applySgrCode style (code.getD 0) rest
      applySgrCodes skip style rest

/-- A parameter that is missing or zero is one. -/
def countOf (value : Option ℕ) : ℕ := (value.filter (· ≠ 0)).getD 1

/-- The parameters of a sequence; one that is no number is missing. -/
def csiValues (params : Text) : List (Option ℕ) :=
  ((params.filter fun c => !(c = '?' || c = '>' || c = '<' || c = '=')).splitOn ';').map fun part =>
    if part.isEmpty then none else parseU64 part

def isCsiFinal (character : Char) : Bool := '@' ≤ character && character ≤ '~'

namespace TerminalTextRenderer

variable (s : TerminalTextRenderer)

def applySgr (values : List (Option ℕ)) : Option TerminalTextRenderer := do
  let style ← applySgrCodes 0 s.style (if values.isEmpty then [some 0] else values)
  return { s with style }

def cursorUp (count : ℕ) : TerminalTextRenderer :=
  { s with row := max (s.row - count) s.screenBaseRow, cursorMovedHomeByCsi := false }.ensureLine

/-- Where the row is beyond the last one, the cursor stays. -/
def cursorDown (count : ℕ) (toStart : Bool) : TerminalTextRenderer :=
  let s :=
    if s.row + count < usizeLimit ∧ s.row + count < maxVirtualRows then
      { s with row := s.row + count, column := if toStart then 0 else s.column }.ensureLine
    else s
  { s with cursorMovedHomeByCsi := false }

def cursorTo (column : ℕ) : TerminalTextRenderer :=
  { s with
    column := if column < maxVirtualColumns then column else s.column
    cursorMovedHomeByCsi := false }

def cursorPosition (values : List (Option ℕ)) : TerminalTextRenderer :=
  let targetRow := s.screenBaseRow + (countOf values[0]?.join - 1)
  let targetColumn := countOf values[1]?.join - 1
  let s :=
    if targetRow < usizeLimit ∧ targetRow < maxVirtualRows ∧ targetColumn < maxVirtualColumns then
      { s with row := targetRow, column := targetColumn }.ensureLine
    else s
  { s with cursorMovedHomeByCsi := s.row = s.screenBaseRow && s.column = 0 }

/-- A sequence on the main screen. -/
def applyFinal (final : Char) (values : List (Option ℕ)) : Option TerminalTextRenderer :=
  let first := countOf values[0]?.join
  match final with
  | 'A' => some (s.cursorUp first)
  | 'B' => some (s.cursorDown first false)
  | 'E' => some (s.cursorDown first true)
  | 'C' =>
      some (if s.column + first < usizeLimit then s.cursorTo (s.column + first)
        else { s with cursorMovedHomeByCsi := false })
  | 'D' => some { s with column := s.column - first, cursorMovedHomeByCsi := false }
  | 'F' => some ({ s with column := 0 }.cursorUp first)
  | 'G' => some (s.cursorTo (first - 1))
  | 'H' | 'f' => some (s.cursorPosition values)
  | 'J' => s.eraseDisplay (values[0]?.join.getD 0)
  | 'K' => s.eraseLine (values[0]?.join.getD 0)
  | 'm' => s.applySgr values
  | _ => some s

/-- Whether a sequence enters or leaves the alternate screen. -/
def togglesAlternateScreen (final : Char) (params : Text) (values : List (Option ℕ)) : Bool :=
  (final = 'h' || final = 'l') && params.contains '?' &&
    values.any fun value => value = some 47 || value = some 1047 || value = some 1049

def applyCsi (sequence : Text) : Option TerminalTextRenderer :=
  match sequence.getLast? with
  | none => some s
  | some final =>
      let params := sequence.dropLast
      let values := csiValues params
      if togglesAlternateScreen final params values then
        some { s with alternateScreenActive := final = 'h' }
      else if s.alternateScreenActive then some s
      else s.applyFinal final values

/-! ### Characters -/

def consumeEscape (character : Char) : Option TerminalTextRenderer :=
  let s := { s with escapeBuffer := [] }
  if character = '[' then some { s with state := .csi }
  else if character = ']' then some { s with state := .osc }
  else if character = 'c' then do
    let s ← s.applyRisReset
    return { s with state := .normal }
  else some { s with state := .normal }

def consumeCsi (character : Char) : Option TerminalTextRenderer :=
  if maxCsiBytes ≤ utf8Len s.escapeBuffer then
    some { s with
      escapeBuffer := []
      state := if isCsiFinal character then .normal else .csiDiscard }
  else
    let sequence := s.escapeBuffer ++ [character]
    if isCsiFinal character then do
      let s ← { s with escapeBuffer := [] }.applyCsi sequence
      return { s with state := .normal }
    else some { s with escapeBuffer := sequence }

def lineFeed : Option TerminalTextRenderer := do
  let next ← addOrPanic s.row 1
  let s := if next < maxVirtualRows then { s with row := next, column := 0 }.ensureLine else s
  return { s with cursorMovedHomeByCsi := false }

/-- A character outside of every sequence, on the main screen. -/
def consumeText (character : Char) : Option TerminalTextRenderer :=
  if character = '\x08' then some { s with column := s.column - 1 }
  else if character = '\r' then some { s with column := 0, cursorMovedHomeByCsi := false }
  else if character = '\n' then s.lineFeed
  else if character = '\t' then do
    let spaces ← subOrPanic 8 (s.column % 8)
    writeSpaces spaces s
  else if h : isTerminalPrintable character = true then s.writeCharacter character h
  else some s

def consumeNormal (character : Char) : Option TerminalTextRenderer :=
  if character = '\x1b' then some { s with state := .escape, escapeBuffer := [] }
  else if character = '\u009b' then some { s with state := .csi, escapeBuffer := [] }
  else if s.alternateScreenActive then some s
  else s.consumeText character

def consume (character : Char) : Option TerminalTextRenderer :=
  match s.state with
  | .escape => s.consumeEscape character
  | .csi => s.consumeCsi character
  | .csiDiscard => some (if isCsiFinal character then { s with state := .normal } else s)
  | .osc =>
      some (if character = '\x07' then { s with state := .normal }
        else if character = '\x1b' then { s with state := .oscEscape }
        else s)
  | .oscEscape => some { s with state := if character = '\\' then .normal else .osc }
  | .normal => s.consumeNormal character

def feed (input : Text) : Option TerminalTextRenderer := input.foldlM consume s.ensureLine

def finish : Option TerminalTextRenderer :=
  { s with state := .normal, escapeBuffer := [] }.commitPendingClearedScreen

end TerminalTextRenderer

end Netcatty.LogExport
