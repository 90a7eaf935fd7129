import PiRust.EditorText

/- The rows of `components/editor.rs`: `wrap_multiline`, which draws them, and `visual_lines`,
which finds the cursor among them. -/
namespace PiRust.Editing

open EditTool (Str splitChar)

/-- `string_sequence_len`, behind the two characters that open the sequence. -/
def stringSequenceLen : Str → Option Nat
  | [] => none
  | c :: rest =>
    if c = '\x07' then some 3
    else if c = '\x1b' ∧ rest.head? = some '\\' then some 4
    else (stringSequenceLen rest).map (· + 1)

def csiLen (rest : Str) : Option Nat :=
  (rest.findIdx? fun c => 0x40 ≤ c.toNat && c.toNat ≤ 0x7E).map (· + 3)

/-- `ansi_sequence_len` at the first character of a text. -/
def ansiSequenceLen (text : Str) : Option Nat :=
  match text with
  | c :: kind :: rest =>
    if c ≠ '\x1b' then none
    else if kind = '[' then csiLen rest
    else if kind = ']' ∨ kind = '_' then stringSequenceLen rest
    else none
  | _ => none

/-- The text of `visible_width` without its escape sequences, the first characters of which may
be left over from one. -/
def cleanText : Nat → Str → Str
  | _, [] => []
  | skip + 1, _ :: rest => cleanText skip rest
  | 0, c :: rest =>
    match ansiSequenceLen (c :: rest) with
    | some len => cleanText (len - 1) rest
    | none => (if c = '\t' then [' ', ' ', ' '] else [c]) ++ cleanText 0 rest

structure VisualLine where
  start : Nat
  «end» : Nat
  deriving DecidableEq, Repr

variable (unicode : Unicode)

def visibleWidth (text : Str) : Nat :=
  ((unicode.graphemes (cleanText 0 text)).map unicode.width).sum

/-- `graphemes(true).next()`. -/
def firstGrapheme (text : Str) : Str := (unicode.graphemes text).headD []

/-- The loop of `wrap_line`; `skip` characters of the rest are in the row already. -/
def wrapRows (width : Nat) : Nat → Str → Str → Nat → List Str
  | _, [], current, _ => if current = [] then [] else [current]
  | skip + 1, _ :: rest, current, currentWidth => wrapRows width skip rest current currentWidth
  | 0, c :: rest, current, currentWidth =>
    match ansiSequenceLen (c :: rest) with
    | some len =>
      wrapRows width (len - 1) rest (current ++ (c :: rest).take len) currentWidth
    | none =>
      let grapheme := firstGrapheme unicode (c :: rest)
      let graphemeWidth := visibleWidth unicode grapheme
      if currentWidth + graphemeWidth > width ∧ current ≠ [] then
        current :: wrapRows width (grapheme.length - 1) rest grapheme graphemeWidth
      else
        wrapRows width (grapheme.length - 1) rest (current ++ grapheme)
          (currentWidth + graphemeWidth)

def wrapLine (source : Str) (width : Nat) : List Str :=
  if source = [] then [[]] else wrapRows unicode width 0 source [] 0

def wrapMultiline (text : Str) (width : Nat) : List Str :=
  let lines := (splitChar '\n' text).flatMap fun source => wrapLine unicode source width
  let lines := if text.getLast? = some '\n' then lines ++ [[]] else lines
  if lines = [] then [[]] else lines

/-- The loop of `push_visual_line_ranges` at a position; `behind` is the text behind the line, up
to which an escape sequence may reach. -/
def visualRanges (width : Nat) (behind : Str) : Nat → Str → Nat → Nat → Nat → List VisualLine
  | _, [], pos, lineStart, _ => [⟨lineStart, pos⟩]
  | skip + 1, _ :: rest, pos, lineStart, currentWidth =>
    visualRanges width behind skip rest (pos + 1) lineStart currentWidth
  | 0, c :: rest, pos, lineStart, currentWidth =>
    match ansiSequenceLen (c :: rest ++ behind) with
    | some len => visualRanges width behind (len - 1) rest (pos + 1) lineStart currentWidth
    | none =>
      let grapheme := firstGrapheme unicode (c :: rest)
      let graphemeWidth := visibleWidth unicode grapheme
      if currentWidth + graphemeWidth > width ∧ lineStart < pos then
        ⟨lineStart, pos⟩ ::
          visualRanges width behind (grapheme.length - 1) rest (pos + 1) pos graphemeWidth
      else
        visualRanges width behind (grapheme.length - 1) rest (pos + 1) lineStart
          (currentWidth + graphemeWidth)

def pushVisualLineRanges (width : Nat) (content behind : Str) (start : Nat) : List VisualLine :=
  if content = [] then [⟨start, start⟩]
  else visualRanges unicode width behind 0 content start start 0

/-- The loop of `visual_lines` over the lines with their endings. -/
def visualSources (width : Nat) : List Str → Nat → List VisualLine
  | [], _ => []
  | line :: rest, start =>
    let content := if line.getLast? = some '\n' then line.dropLast else line
    let behind := line.drop content.length ++ rest.flatten
    pushVisualLineRanges unicode width content behind start ++
      visualSources width rest (start + line.length)

def visualLines (text : Str) (width : Nat) : List VisualLine :=
  visualSources unicode width (EditTool.splitLinesWithEndings text) 0 ++
    if text = [] ∨ text.getLast? = some '\n' then [⟨text.length, text.length⟩] else []

/-- The first line that a cursor is on; one at the end of a line whose end is the next line's
start is on that next line, unless it goes down. -/
def visualLineAtCursor (cursor : Nat) (down : Bool) : List VisualLine → Option Nat
  | [] => none
  | line :: rest =>
    if line.start ≤ cursor ∧ (cursor < line.end ∨ cursor = line.end ∧
        (down = true ∨ rest.head?.map VisualLine.start ≠ some cursor)) then some 0
    else (visualLineAtCursor cursor down rest).map (· + 1)

def currentVisualLineIndexFromLines (lines : List VisualLine) (cursor : Nat) : Nat :=
  (visualLineAtCursor cursor false lines).getD 0

def currentVisualLineIndex (text : Str) (cursor width : Nat) : Nat :=
  currentVisualLineIndexFromLines (visualLines unicode text width) cursor

/-- The loop of `cursor_at_visible_col`. -/
def visibleCol (desired : Nat) (behind : Str) : Nat → Str → Nat → Nat → Nat
  | _, [], pos, _ => pos
  | skip + 1, _ :: rest, pos, column => visibleCol desired behind skip rest (pos + 1) column
  | 0, c :: rest, pos, column =>
    match ansiSequenceLen (c :: rest ++ behind) with
    | some len => visibleCol desired behind (len - 1) rest (pos + 1) column
    | none =>
      let grapheme := firstGrapheme unicode (c :: rest)
      let next := column + visibleWidth unicode grapheme
      if next > desired then pos
      else visibleCol desired behind (grapheme.length - 1) rest (pos + 1) next

def cursorAtVisibleCol (text : Str) (line : VisualLine) (desired : Nat) : Nat :=
  visibleCol unicode desired (text.drop line.end) 0 ((text.take line.end).drop line.start)
    line.start 0

end PiRust.Editing
