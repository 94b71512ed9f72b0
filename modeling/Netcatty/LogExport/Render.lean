import Mathlib.Data.List.DropRight
import Netcatty.LogExport.Terminal

/-! # Rendering

The lines of the renderer are written as plain text, or as HTML with one `span` for each run of cells
of one style that is not the default one.  What is written is bounded; what does not fit is left
out, from there to the end. -/

namespace Netcatty.LogExport

open Vault (Text utf8Len)

def maxRenderedContentBytes : ℕ := 8 * 1024 * 1024

/-! ### Bounded output -/

def pushBoundedStr (output value : Text) : Text × Bool :=
  if maxRenderedContentBytes < satAdd (utf8Len output) (utf8Len value) then (output, false)
  else (output ++ value, true)

def pushBoundedChar (output : Text) (character : Char) : Text × Bool :=
  if maxRenderedContentBytes < satAdd (utf8Len output) character.utf8Size then (output, false)
  else (output ++ [character], true)

def escapeHtmlChar (character : Char) : Text :=
  if character = '&' then "&amp;".toList
  else if character = '<' then "&lt;".toList
  else if character = '>' then "&gt;".toList
  else if character = '"' then "&quot;".toList
  else if character = '\'' then "&#039;".toList
  else [character]

def escapedHtmlCharLen (character : Char) : ℕ :=
  if character = '&' then 5
  else if character = '<' ∨ character = '>' then 4
  else if character = '"' ∨ character = '\'' then 6
  else character.utf8Size

def pushBoundedEscapedChar (output : Text) (character : Char) (reserved : ℕ) : Text × Bool :=
  if maxRenderedContentBytes <
      satAdd (utf8Len output) (satAdd (escapedHtmlCharLen character) reserved) then (output, false)
  else (output ++ escapeHtmlChar character, true)

/-- A trailing line feed is taken away as long as there is one. -/
def popNewlines (output : Text) : Text := output.rdropWhile (· = '\n')

/-! ### Plain text -/

/-- The cells of a line, up to the first one that does not fit. -/
def pushPlainCells : Text → List Cell → Text
  | output, [] => output
  | output, cell :: rest =>
      match pushBoundedChar output cell.character with
      | (output, true) => pushPlainCells output rest
      | (output, false) => output

/-- One after the last cell that is not blank. -/
def plainLength (line : Line) : ℕ := (line.rdropWhile fun cell => isBlank cell.character).length

/-- A line feed stands before every line but the first. -/
def startLine (first : Bool) (output : Text) : Text × Bool :=
  if first then (output, true) else pushBoundedStr output ['\n']

def plainLines : Bool → Text → List Line → Option Text
  | _, output, [] => some output
  | first, output, line :: rest =>
      match startLine first output with
      | (output, false) => some output
      | (output, true) => do
          let shown ← sliceTo line (plainLength line)
          let output := pushPlainCells output shown
          if maxRenderedContentBytes ≤ utf8Len output then return output
          else plainLines false output rest

/-! ### HTML -/

def openTagStart : Text := "<span style=\"".toList
def openTagEnd : Text := "\">".toList

def openTag (css : Text) : Text := openTagStart ++ css ++ openTagEnd

def closeTag : Text := "</span>".toList

def pushEscapedCells (reserved : ℕ) : Text → List Cell → Text × Bool
  | output, [] => (output, true)
  | output, cell :: rest =>
      match pushBoundedEscapedChar output cell.character reserved with
      | (output, true) => pushEscapedCells reserved output rest
      | (output, false) => (output, false)

def pushHtmlRun (output : Text) (cells : List Cell) (style : Style) : Text × Bool :=
  let css := styleToCss style
  if css.isEmpty then pushEscapedCells 0 output cells
  else
    match cells with
    | [] => (output, true)
    | first :: _ =>
        let required := satAdd (satAdd (utf8Len (openTag css)) (escapedHtmlCharLen first.character))
          (utf8Len closeTag)
        if maxRenderedContentBytes < satAdd (utf8Len output) required then (output, false)
        else
          let (output, done) := pushEscapedCells (utf8Len closeTag) (output ++ openTag css) cells
          (output ++ closeTag, done)

/-- The runs of one style, one after the other. -/
def pushHtmlRuns (output : Text) : List Cell → Text × Bool
  | [] => (output, true)
  | cell :: rest =>
      match pushHtmlRun output (cell :: rest.takeWhile (·.style = cell.style)) cell.style with
      | (output, false) => (output, false)
      | (output, true) => pushHtmlRuns output (rest.dropWhile (·.style = cell.style))
  termination_by cells => cells.length
  decreasing_by exact Nat.lt_succ_of_le (List.length_dropWhile_le _ _)

def renderLineHtml (output : Text) (line : Line) : Option (Text × Bool) := do
  let shown ← sliceTo line (← trimmedLineLength line)
  return pushHtmlRuns output shown

def htmlLines : Bool → Text → List Line → Option Text
  | _, output, [] => some output
  | first, output, line :: rest =>
      match startLine first output with
      | (output, false) => some output
      | (output, true) => do
          match ← renderLineHtml output line with
          | (output, false) => return output
          | (output, true) => htmlLines false output rest

namespace TerminalTextRenderer

def toPlainText (s : TerminalTextRenderer) : Option Text := (plainLines true [] s.lines).map popNewlines

def toHtmlContent (s : TerminalTextRenderer) : Option Text := (htmlLines true [] s.lines).map popNewlines

end TerminalTextRenderer

/-! ### Exports -/

/-- The screen at the end of a replay. -/
def renderScreen (terminalData : Text) : Option TerminalTextRenderer := do
  let s ← ({} : TerminalTextRenderer).feed terminalData
  s.finish

def renderPlainText (terminalData : Text) : Option Text := do
  let s ← renderScreen terminalData
  s.toPlainText

def renderHtmlContent (terminalData : Text) : Option Text := do
  let s ← renderScreen terminalData
  s.toHtmlContent

end Netcatty.LogExport
