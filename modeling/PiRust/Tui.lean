import Mathlib.Data.List.Infix
import PiRust.Scroll

/- `tui.rs` and `cursor.rs` of `pi-tui`, with the inline surface, on a terminal that is a
grid of cells. What changes neither the cells nor the cursor is left out: synchronized
output, the reset of the styles after a line, the deletion of images and the flushes. -/
namespace PiRust.Tui

open Scroll (Window)

variable {Cell : Type}

/-- The terminal and what it makes of a text: its cells, as many as its `visible_width`. -/
structure Painter (Cell : Type) where
  blank : Cell
  draw : String → List Cell

def Painter.visibleWidth (painter : Painter Cell) (text : String) : Nat :=
  (painter.draw text).length

structure Terminal (Cell : Type) where
  window : Window (List Cell)
  columns : Nat
  column : Nat
  cursorVisible : Bool

namespace Terminal

variable (painter : Painter Cell) (terminal : Terminal Cell)

def height : Nat := terminal.window.rows.length

def blankRow : List Cell := List.replicate terminal.columns painter.blank

def put (column : Nat) (cells row : List Cell) : List Cell :=
  row.take column ++ cells ++ row.drop (column + cells.length)

def write (text : String) : Terminal Cell :=
  { terminal with
    window := terminal.window.update (put terminal.column (painter.draw text))
    column := terminal.column + (painter.draw text).length }

/-- The text `"\r"`. -/
def carriageReturn : Terminal Cell := { terminal with column := 0 }

/-- The text `"\r\n"`. -/
def newline : Terminal Cell :=
  { terminal with window := terminal.window.next (terminal.blankRow painter), column := 0 }

def moveBy (rows : Int16) : Terminal Cell :=
  { terminal with window := terminal.window.moveBy rows.toInt }

def moveToColumn (column : Nat) : Terminal Cell := { terminal with column := column }

def clearLine : Terminal Cell :=
  { terminal with window := terminal.window.update fun _ => terminal.blankRow painter }

def hideCursor : Terminal Cell := { terminal with cursorVisible := false }

def showCursor : Terminal Cell := { terminal with cursorVisible := true }

end Terminal

/-- `"\x1b_pi:c\x07"` -/
def cursorMarker : List Char := ['\x1b', '_', 'p', 'i', ':', 'c', '\x07']

def splitAtMarker : List Char → Option (List Char × List Char)
  | [] => none
  | c :: rest =>
    if cursorMarker.isPrefixOf (c :: rest) then
      some ([], (c :: rest).drop cursorMarker.length)
    else (splitAtMarker rest).map fun parts => (c :: parts.1, parts.2)

structure CursorPosition where
  row : Nat
  col : Nat

/-- The last marker in the lines that are seen goes, and gives the position. -/
def extractCursorMarker (painter : Painter Cell) (lines : List String) (terminalHeight : Nat) :
    List String × Option CursorPosition :=
  let start := lines.length - terminalHeight
  let marked := (List.range' start (lines.length - start)).reverse.findSome? fun row => do
    let line ← lines[row]?
    let parts ← splitAtMarker line.toList
    some (row, parts)
  match marked with
  | some (row, before, after) =>
    (lines.set row (String.ofList (before ++ after)),
      some ⟨row, painter.visibleWidth (String.ofList before)⟩)
  | none => (lines, none)

inductive RenderStrategy where
  | fullRedraw
  | differential (firstChangedLine lastChangedLine : Nat)
  | noChange

structure RenderOutcome where
  strategy : RenderStrategy
  lineCount : Nat

inductive TuiError where
  | lineTooWide (lineIndex width maxWidth : Nat) (line : String)

def validateFrom (painter : Painter Cell) (maxWidth : Nat) :
    Nat → List String → Except TuiError Unit
  | _, [] => .ok ()
  | lineIndex, line :: lines =>
    let width := painter.visibleWidth line
    if width > maxWidth then .error (.lineTooWide lineIndex width maxWidth line)
    else validateFrom painter maxWidth (lineIndex + 1) lines

def validateLines (painter : Painter Cell) (lines : List String) (maxWidth : Nat) :
    Except TuiError Unit :=
  validateFrom painter maxWidth 0 lines

def viewportTop (lineCount height : Nat) : Nat := lineCount - height

def lastLineWidth (painter : Painter Cell) (lines : List String) : Nat :=
  (lines.getLast?.map painter.visibleWidth).getD 0

def differingRows (previous next : List String) (shared : Nat) : Option Nat × Option Nat :=
  (List.range shared).foldl
    (fun found index =>
      if previous[index]? = next[index]? then found else (found.1.or (some index), some index))
    (none, none)

def changedLineRange (previous next : List String) : Option (Nat × Nat) :=
  let shared := min previous.length next.length
  let (first, last) := differingRows previous next shared
  if previous.length ≠ next.length then
    some (first.getD shared, max previous.length next.length - 1)
  else
    -- A first change has a last one.
    first.map fun firstChanged => (firstChanged, last.getD firstChanged)

end PiRust.Tui

namespace PiRust

structure Tui (Cell : Type) where
  terminal : Tui.Terminal Cell
  previousLines : List String := []
  previousWidth : Nat := 0
  previousHeight : Nat := 0
  previousViewportTop : Nat := 0
  cursorRow : Nat := 0
  ownedRows : Nat := 0
  renderedOnce : Bool := false
  hardwareCursorRow : Nat := 0
  hardwareCursorCol : Nat := 0
  hardwareCursorVisible : Bool := false
  clearOnShrink : Bool := true
  fullRedraws : Nat := 0

namespace Tui

variable {Cell : Type} (painter : Painter Cell)

def new (terminal : Terminal Cell) : Tui Cell where
  terminal := terminal

def setClearOnShrink (enabled : Bool) (tui : Tui Cell) : Tui Cell :=
  { tui with clearOnShrink := enabled }

def Terminal.eachRow {ι : Type} (one : ι → Terminal Cell → Terminal Cell) :
    List ι → Terminal Cell → Terminal Cell
  | [], terminal => terminal
  | [item], terminal => one item terminal
  | item :: following :: items, terminal =>
    eachRow one (following :: items) ((one item terminal).newline painter)

def writeLines (lines : List String) (tui : Tui Cell) : Tui Cell :=
  { tui with
    terminal := tui.terminal.eachRow painter (fun line terminal => terminal.write painter line) lines }

/-- One row of `rewrite_rows`. -/
def Terminal.rewriteRow (line : Option String) (terminal : Terminal Cell) : Terminal Cell :=
  let cleared := terminal.carriageReturn.clearLine painter
  match line with
  | some line => cleared.write painter line
  | none => cleared

def rewriteRows (startRow : Nat) (lines : List String) (rowsToClear : Nat) (tui : Tui Cell) :
    Tui Cell :=
  if rowsToClear = 0 then tui
  else
    { tui with
      terminal := tui.terminal.eachRow painter (Terminal.rewriteRow painter)
        ((List.range rowsToClear).map fun rowOffset => lines[rowOffset]?)
      hardwareCursorRow := startRow + rowsToClear - 1
      hardwareCursorCol := (lines[rowsToClear - 1]?.map painter.visibleWidth).getD 0 }

/-- The offsets are cast to `i16`, and wrap in their difference. -/
def relativeRow (row top : Nat) : Int16 := Int16.ofNat (row - top)

def moveToLogicalRow (targetRow : Nat) (tui : Tui Cell) : Tui Cell :=
  let target := relativeRow targetRow tui.previousViewportTop
  let current := relativeRow tui.hardwareCursorRow tui.previousViewportTop
  { tui with
    terminal := tui.terminal.moveBy (target - current)
    hardwareCursorRow := targetRow }

def toColumnZero (tui : Tui Cell) : Tui Cell :=
  { tui with terminal := tui.terminal.moveToColumn 0, hardwareCursorCol := 0 }

def positionHardwareCursor (cursor : Option CursorPosition) (tui : Tui Cell) : Tui Cell :=
  match cursor with
  | none =>
    if tui.hardwareCursorVisible then
      { tui with terminal := tui.terminal.hideCursor, hardwareCursorVisible := false }
    else tui
  | some cursor =>
    let moved := tui.moveToLogicalRow cursor.row
    let placed := moved.terminal.moveToColumn cursor.col
    { moved with
      terminal := if tui.hardwareCursorVisible then placed else placed.showCursor
      hardwareCursorVisible := true
      hardwareCursorCol := cursor.col }

def chooseStrategy (lines : List String) (width height : Nat) (tui : Tui Cell) : RenderStrategy :=
  if tui.previousWidth = 0 ∨ tui.previousHeight = 0 then .fullRedraw
  else if tui.previousWidth ≠ width ∨ tui.previousHeight ≠ height then .fullRedraw
  else if tui.clearOnShrink ∧ lines.length < tui.previousLines.length then .fullRedraw
  else
    match changedLineRange tui.previousLines lines with
    | some (firstChangedLine, lastChangedLine) => .differential firstChangedLine lastChangedLine
    | none => .noChange

def afterLines (lines : List String) (tui : Tui Cell) : Tui Cell :=
  { tui with
    hardwareCursorRow := lines.length - 1
    hardwareCursorCol := lastLineWidth painter lines }

def renderFullInline (lines : List String) (height : Nat) (tui : Tui Cell) : Tui Cell :=
  let hidden := { tui with terminal := tui.terminal.hideCursor, hardwareCursorVisible := false }
  if hidden.renderedOnce then
    let nextViewportTop := viewportTop lines.length height
    let visibleLines := lines.drop nextViewportTop
    let rowsToClear := min (max hidden.ownedRows visibleLines.length) height
    if rowsToClear > 0 then
      rewriteRows painter nextViewportTop visibleLines rowsToClear
        (hidden.moveToLogicalRow hidden.previousViewportTop).toColumnZero
    else hidden
  else (hidden.writeLines painter lines).afterLines painter lines

def renderDifferentialInline (lines : List String) (firstChangedLine lastChangedLine height : Nat)
    (tui : Tui Cell) : Tui Cell :=
  if firstChangedLine < tui.previousViewportTop then renderFullInline painter lines height tui
  else if lines.length > tui.previousLines.length ∧ firstChangedLine = tui.previousLines.length ∧
      firstChangedLine > 0 then
    let moved := (tui.moveToLogicalRow (firstChangedLine - 1)).toColumnZero
    ({ moved with terminal := moved.terminal.newline painter }.writeLines painter
      (lines.drop firstChangedLine)).afterLines painter lines
  else
    let moved := (tui.moveToLogicalRow firstChangedLine).toColumnZero
    let rowsToWrite :=
      if firstChangedLine < lines.length then
        min lastChangedLine (lines.length - 1) - firstChangedLine + 1
      else 0
    let oldRowsToClear :=
      if firstChangedLine < tui.previousLines.length then
        min lastChangedLine (tui.previousLines.length - 1) - firstChangedLine + 1
      else 0
    let changedLines := (lines.drop firstChangedLine).take rowsToWrite
    moved.rewriteRows painter firstChangedLine changedLines (max rowsToWrite oldRowsToClear)

/-- `render_full` with the inline surface. -/
def renderFull (lines : List String) (height : Nat) (tui : Tui Cell) : Tui Cell :=
  renderFullInline painter lines height { tui with fullRedraws := tui.fullRedraws + 1 }

def renderWith (strategy : RenderStrategy) (lines : List String) (height : Nat) (tui : Tui Cell) :
    Tui Cell :=
  match strategy with
  | .noChange => tui
  | .fullRedraw => renderFull painter lines height tui
  | .differential first last => renderDifferentialInline painter lines first last height tui

/-- `render_once`, of the lines that the components and overlays have given. -/
def renderOnce (frame : List String) (tui : Tui Cell) :
    Except TuiError (Tui Cell × RenderOutcome) := do
  let width := tui.terminal.columns
  let height := tui.terminal.height
  let (lines, cursor) := extractCursorMarker painter frame height
  validateLines painter lines width
  let strategy := tui.chooseStrategy lines width height
  let rendered := tui.renderWith painter strategy lines height
  let positioned := { rendered with
    previousViewportTop := viewportTop lines.length height
    ownedRows := min lines.length height
    renderedOnce := true }.positionHardwareCursor cursor
  let finished := { positioned with
    previousLines := lines
    previousWidth := width
    previousHeight := height
    cursorRow := lines.length - 1 }
  return (finished, ⟨strategy, lines.length⟩)

end Tui

end PiRust
