import PiRust.Autocomplete
import PiRust.VisualLines

/- `Editor` of `components/editor.rs`: its state, its operations, and what one event does. -/
namespace PiRust.Editing

open EditTool (Str)
open Autocomplete (AutocompleteItem AutocompleteProvider)

structure KillRing where
  entries : List Str
  cursor : Nat
  deriving DecidableEq, Repr

namespace KillRing

def push (text : Str) (prepend accumulate : Bool) (ring : KillRing) : KillRing :=
  if text = [] then ring
  else
    match accumulate, ring.entries with
    | true, newest :: older =>
      ⟨(if prepend then text ++ newest else newest ++ text) :: older, 0⟩
    | _, entries => ⟨text :: entries, 0⟩

def yank (ring : KillRing) : Option Str := ring.entries[ring.cursor]?

def yankPop (ring : KillRing) : Option Str × KillRing :=
  if ring.entries = [] then (none, ring)
  else
    let turned := { ring with cursor := (ring.cursor + 1) % ring.entries.length }
    (turned.yank, turned)

end KillRing

structure EditorSnapshot where
  text : Str
  cursor : Nat
  deriving DecidableEq, Repr

/-- `UndoStack` of `max_entries` 100, the newest entry last. -/
structure UndoStack where
  entries : List EditorSnapshot
  deriving DecidableEq, Repr

namespace UndoStack

def maxEntries : Nat := 100

def push (state : EditorSnapshot) (stack : UndoStack) : UndoStack :=
  let entries := stack.entries ++ [state]
  ⟨if entries.length > maxEntries then entries.tail else entries⟩

def pop (stack : UndoStack) : Option (EditorSnapshot × UndoStack) :=
  stack.entries.getLast?.map fun state => (state, ⟨stack.entries.dropLast⟩)

end UndoStack

inductive LastAction where
  | kill | yank | typeWord
  deriving DecidableEq, Repr

inductive JumpDirection where
  | forward | backward
  deriving DecidableEq, Repr

inductive AutocompleteState where
  | regular | force
  deriving DecidableEq, Repr

structure Editor where
  text : Str := []
  cursor : Nat := 0
  focused : Bool := false
  lastRenderWidth : Nat := 80
  viewportHeight : Nat := 24
  scrollOffset : Nat := 0
  showBorder : Bool := false
  killRing : KillRing := ⟨[], 0⟩
  undoStack : UndoStack := ⟨[]⟩
  redoStack : UndoStack := ⟨[]⟩
  lastAction : Option LastAction := none
  lastYank : Option (Nat × Nat) := none
  disableSubmit : Bool := false
  history : List Str := []
  historyIndex : Option Nat := none
  jumpMode : Option JumpDirection := none
  pastes : List (Nat × Str) := []
  pasteCounter : Nat := 0
  autocompleteState : Option AutocompleteState := none
  autocompleteItems : List AutocompleteItem := []
  autocompleteSelected : Nat := 0
  autocompletePrefix : Str := []
  deriving DecidableEq, Repr

namespace Editor

def new : Editor := {}

variable (editor : Editor)

def cancelAutocomplete : Editor :=
  { editor with
    autocompleteState := none
    autocompleteItems := []
    autocompletePrefix := []
    autocompleteSelected := 0 }

def setText (text : Str) (editor : Editor) : Editor :=
  cancelAutocomplete { editor with
    text := text
    cursor := text.length
    undoStack := ⟨[]⟩
    redoStack := ⟨[]⟩
    lastAction := none
    lastYank := none
    historyIndex := none
    scrollOffset := 0 }

/-- `str::trim`. -/
def trimmed (text : Str) : Str :=
  ((text.dropWhile isWhitespace).reverse.dropWhile isWhitespace).reverse

def addToHistory (text : Str) (editor : Editor) : Editor :=
  if trimmed text = [] ∨ editor.history.head? = some (trimmed text) then editor
  else { editor with history := (trimmed text :: editor.history).take 100 }

def snapshot : EditorSnapshot := ⟨editor.text, editor.cursor⟩

def pushUndoSnapshot : Editor :=
  { editor with
    undoStack := editor.undoStack.push editor.snapshot
    redoStack := ⟨[]⟩ }

def insertWithoutUndo (text : Str) (editor : Editor) : Editor :=
  { editor with
    text := editor.text.take editor.cursor ++ text ++ editor.text.drop editor.cursor
    cursor := editor.cursor + text.length }

/-- `text.replace_range(start..end, "")`. -/
def without (text : Str) (start «end» : Nat) : Str := text.take start ++ text.drop «end»

section operations

variable (unicode : Unicode)

def insert (text : Str) (editor : Editor) : Editor :=
  if text = [] then editor
  else
    let word := isSinglePlainWordGrapheme unicode text
    let kept := if word ∧ editor.lastAction = some .typeWord then editor else editor.pushUndoSnapshot
    { kept.insertWithoutUndo text with
      lastAction := if word then some .typeWord else none
      lastYank := none
      historyIndex := none }

def submit : Editor :=
  if editor.disableSubmit then editor
  else
    cancelAutocomplete { editor with
      text := []
      cursor := 0
      undoStack := ⟨[]⟩
      redoStack := ⟨[]⟩
      lastAction := none
      lastYank := none
      historyIndex := none
      scrollOffset := 0
      pastes := []
      pasteCounter := 0 }

def deleteBackward (editor : Editor) : Editor :=
  if editor.cursor = 0 then editor
  else
    let start := previousGraphemeBoundary unicode editor.text editor.cursor
    { editor.pushUndoSnapshot with
      text := without editor.text start editor.cursor
      cursor := start
      lastAction := none
      lastYank := none
      historyIndex := none }

def deleteForward (editor : Editor) : Editor :=
  if editor.text.length ≤ editor.cursor then editor
  else
    let «end» := nextGraphemeBoundary unicode editor.text editor.cursor
    { editor.pushUndoSnapshot with
      text := without editor.text editor.cursor «end»
      lastAction := none
      lastYank := none
      historyIndex := none }

def killRange (start «end» : Nat) (prepend : Bool) (editor : Editor) : Editor :=
  if «end» ≤ start then editor
  else
    let deleted := (editor.text.take «end»).drop start
    { editor.pushUndoSnapshot with
      killRing := editor.killRing.push deleted prepend (editor.lastAction = some .kill)
      text := without editor.text start «end»
      cursor :=
        if editor.cursor > «end» then editor.cursor - («end» - start)
        else if editor.cursor > start then start
        else editor.cursor
      lastAction := some .kill
      lastYank := none
      historyIndex := none }

def deleteWordBackward : Editor :=
  if editor.cursor = 0 then editor
  else
    let start := findWordBackward editor.text editor.cursor
    { editor.killRange start editor.cursor true with cursor := start }

def deleteWordForward : Editor :=
  if editor.text.length ≤ editor.cursor then editor
  else editor.killRange editor.cursor (findWordForward editor.text editor.cursor) false

def deleteToLineStart (editor : Editor) : Editor :=
  let start := currentLineStart editor.text editor.cursor
  if start = editor.cursor ∧ editor.cursor > 0 then
    let newlineStart := previousGraphemeBoundary unicode editor.text editor.cursor
    { editor.killRange newlineStart editor.cursor true with cursor := newlineStart }
  else { editor.killRange start editor.cursor true with cursor := start }

def deleteToLineEnd (editor : Editor) : Editor :=
  let «end» := currentLineEnd editor.text editor.cursor
  if «end» = editor.cursor ∧ editor.cursor < editor.text.length then
    editor.killRange editor.cursor (nextGraphemeBoundary unicode editor.text editor.cursor) false
  else editor.killRange editor.cursor «end» false

def putYank (text : Str) (editor : Editor) : Editor :=
  { editor.insertWithoutUndo text with
    lastYank := some (editor.cursor, editor.cursor + text.length)
    lastAction := some .yank
    historyIndex := none }

def yank (editor : Editor) : Editor :=
  match editor.killRing.yank with
  | none => editor
  | some text => editor.pushUndoSnapshot.putYank text

def yankPop (editor : Editor) : Editor :=
  if editor.lastAction ≠ some .yank then editor
  else
    match editor.lastYank with
    | none => editor
    | some (start, «end») =>
      let turned := { editor with killRing := editor.killRing.yankPop.2 }
      match editor.killRing.yankPop.1 with
      | none => turned
      | some replacement =>
        let kept := turned.pushUndoSnapshot
        putYank replacement { kept with text := without kept.text start «end», cursor := start }

def restore (snapshot : EditorSnapshot) (editor : Editor) : Editor :=
  { editor with
    text := snapshot.text
    cursor := min snapshot.cursor snapshot.text.length
    lastAction := none
    lastYank := none
    historyIndex := none }

def undo : Editor :=
  match editor.undoStack.pop with
  | none => editor
  | some (snapshot, undoStack) =>
    restore snapshot { editor with
      undoStack := undoStack
      redoStack := editor.redoStack.push editor.snapshot }

def redo : Editor :=
  match editor.redoStack.pop with
  | none => editor
  | some (snapshot, redoStack) =>
    restore snapshot { editor with
      redoStack := redoStack
      undoStack := editor.undoStack.push editor.snapshot }

def moveTo (cursor : Nat) (editor : Editor) : Editor :=
  { editor with cursor := cursor, lastAction := none, lastYank := none }

def moveLeft (editor : Editor) : Editor :=
  editor.moveTo (previousGraphemeBoundary unicode editor.text editor.cursor)

def moveRight (editor : Editor) : Editor :=
  editor.moveTo (nextGraphemeBoundary unicode editor.text editor.cursor)

def moveLineStart : Editor :=
  editor.moveTo (currentLineStart editor.text editor.cursor)

def moveLineEnd : Editor :=
  editor.moveTo (currentLineEnd editor.text editor.cursor)

def moveWordLeft : Editor :=
  editor.moveTo (findWordBackward editor.text editor.cursor)

def moveWordRight : Editor :=
  editor.moveTo (findWordForward editor.text editor.cursor)

def rows (editor : Editor) : List VisualLine :=
  visualLines unicode editor.text (max editor.lastRenderWidth 1)

/-- `move_vertical`, `down` for a `delta` of 1 and up for one of -1. -/
def moveVertical (down : Bool) (editor : Editor) : Editor :=
  let lines := editor.rows unicode
  match visualLineAtCursor editor.cursor down lines with
  | none => editor
  | some currentIndex =>
    if ¬ down ∧ currentIndex = 0 then editor
    else
      match lines[currentIndex]?, lines[if down then currentIndex + 1 else currentIndex - 1]? with
      | some currentLine, some targetLine =>
        let desiredCol := visibleWidth unicode
          ((editor.text.take editor.cursor).drop currentLine.start)
        editor.moveTo (cursorAtVisibleCol unicode editor.text targetLine desiredCol)
      | _, _ => editor

def keepPaste (filtered : Str) (editor : Editor) : Str × Editor :=
  if lineCount filtered > 10 ∨ filtered.length > 1000 then
    let pasteId := editor.pasteCounter + 1
    (pasteMarker pasteId filtered, { editor with
      pasteCounter := pasteId
      pastes := editor.pastes.filter (·.1 ≠ pasteId) ++ [(pasteId, filtered)] })
  else (filtered, editor)

def apartFrom (before : Option Char) (filtered : Str) : Str :=
  if startsLikePath filtered ∧ before.any fun c => c = '_' || unicode.alphanumeric c then
    ' ' :: filtered
  else filtered

def handlePaste (pastedText : Str) (editor : Editor) : Editor :=
  let calm := { editor.cancelAutocomplete with
    historyIndex := none, lastAction := none, lastYank := none }
  let filtered := cleanPasteText pastedText
  if filtered = [] then calm
  else
    let before := (editor.text.take editor.cursor).getLast?
    let inserted := calm.keepPaste (apartFrom unicode before filtered)
    inserted.2.pushUndoSnapshot.insertWithoutUndo inserted.1

/-- `expand_paste_markers`, where the map of the pastes is gone through in some order. -/
def expandPasteMarkers (order : List (Nat × Str)) (text : Str) : Str :=
  order.foldl
    (fun expanded paste => Splice.replaceAll (pasteMarker paste.1 paste.2) paste.2 expanded) text

def jumpToChar (target : Str) (direction : JumpDirection) (editor : Editor) : Editor :=
  if target = [] then editor
  else
    let found :=
      match direction with
      | .forward =>
        let start := nextGraphemeBoundary unicode editor.text editor.cursor
        (findText (editor.text.drop start) target).map (start + ·)
      | .backward => rfindText (editor.text.take editor.cursor) target
    match found with
    | some index => editor.moveTo index
    | none => editor

def isOnFirstVisualLine (editor : Editor) : Bool :=
  currentVisualLineIndexFromLines (editor.rows unicode) editor.cursor = 0

def isOnLastVisualLine (editor : Editor) : Bool :=
  (editor.rows unicode).length ≤
    currentVisualLineIndexFromLines (editor.rows unicode) editor.cursor + 1

def replaceTextForHistory (text : Str) (editor : Editor) : Editor :=
  { cancelAutocomplete { editor with text := text, cursor := text.length, scrollOffset := 0 } with
    lastAction := none
    lastYank := none }

def navigateHistoryUp : Editor :=
  match editor.historyIndex with
  | none =>
    match editor.history[0]? with
    | none => editor
    | some text => replaceTextForHistory text { editor.pushUndoSnapshot with historyIndex := some 0 }
  | some index =>
    match editor.history[index + 1]? with
    | none => editor
    | some text => replaceTextForHistory text { editor with historyIndex := some (index + 1) }

/-- The entry is there in every state that can be reached; none models the panic. -/
def navigateHistoryDown : Option Editor :=
  match editor.historyIndex with
  | none => some editor
  | some 0 => some (replaceTextForHistory [] { editor with historyIndex := none })
  | some (index + 1) =>
    (editor.history[index]?).map fun text =>
      replaceTextForHistory text { editor with historyIndex := some index }

end operations

end Editor

end PiRust.Editing
