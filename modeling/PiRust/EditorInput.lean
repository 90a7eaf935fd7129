import PiRust.Editor
import PiRust.Keys
import PiRust.Transition

/- `handle_input` of `components/editor.rs`, with the completion of a line. -/
namespace PiRust.Editing

open EditTool (Str joinLines)
open Autocomplete (AutocompleteItem AutocompleteProvider AutocompleteSuggestions CompletionEdit)

inductive Binding where
  | selectCancel | selectUp | selectDown | selectConfirm
  | tab | undo | redo | newLine | submit | pageUp | pageDown
  | deleteToLineEnd | deleteToLineStart | deleteWordBackward | deleteWordForward
  | deleteCharBackward | deleteCharForward | yank | yankPop
  | cursorLineStart | cursorLineEnd | cursorWordLeft | cursorWordRight
  | cursorUp | cursorDown | cursorLeft | cursorRight | jumpForward | jumpBackward
  deriving DecidableEq, Repr

/-- Which presses are bound to what; a release matches nothing. -/
structure KeybindingsManager where
  bound : KeyEvent → Binding → Bool

def KeybindingsManager.matches (keybindings : KeybindingsManager) (event : InputEvent)
    (binding : Binding) : Bool :=
  match event with
  | .key event => !event.release && keybindings.bound event binding
  | _ => false

/-- What one press asks for. -/
inductive Command where
  | cancelAutocomplete | selectUp | selectDown | applySelected
  | undo | redo | newLine | submit | tab | scrollPage
  | deleteToLineEnd | deleteToLineStart | deleteWordBackward | deleteWordForward
  | deleteCharBackward | deleteCharForward | yank | yankPop
  | cursorLineStart | cursorLineEnd | cursorWordLeft | cursorWordRight
  | cursorUp | cursorDown | cursorLeft | cursorRight
  | jump (direction : JumpDirection)
  | type (text : Str)
  | nothing
  deriving DecidableEq, Repr

def autocompleteBindings : List (Binding × Command) :=
  [(.selectCancel, .cancelAutocomplete), (.selectUp, .selectUp), (.selectDown, .selectDown),
    (.tab, .applySelected), (.selectConfirm, .applySelected)]

def editorBindings : List (Binding × Command) :=
  [(.undo, .undo), (.redo, .redo), (.newLine, .newLine), (.submit, .submit), (.tab, .tab),
    (.pageUp, .scrollPage), (.pageDown, .scrollPage), (.deleteToLineEnd, .deleteToLineEnd),
    (.deleteToLineStart, .deleteToLineStart), (.deleteWordBackward, .deleteWordBackward),
    (.deleteWordForward, .deleteWordForward), (.deleteCharBackward, .deleteCharBackward),
    (.deleteCharForward, .deleteCharForward), (.yank, .yank), (.yankPop, .yankPop),
    (.cursorLineStart, .cursorLineStart), (.cursorLineEnd, .cursorLineEnd),
    (.cursorWordLeft, .cursorWordLeft), (.cursorWordRight, .cursorWordRight),
    (.cursorUp, .cursorUp), (.cursorDown, .cursorDown), (.cursorLeft, .cursorLeft),
    (.cursorRight, .cursorRight), (.jumpForward, .jump .forward), (.jumpBackward, .jump .backward)]

def typed (event : KeyEvent) : Command :=
  match event.key with
  | .char text => if event.modifiers.chorded then .nothing else .type text
  | .space => if event.modifiers.chorded then .nothing else .type [' ']
  | _ => .nothing

def bestAutocompleteMatch (items : List AutocompleteItem) (typed : Str) : Option Nat :=
  if typed = [] then none
  else
    (items.findIdx? fun item => item.value = typed).or
      (items.findIdx? fun item => typed.isPrefixOf item.value)

namespace Editor

variable (keybindings : KeybindingsManager) (unicode : Unicode)
  (provider : Option AutocompleteProvider)

def commandOf (event : KeyEvent) (editor : Editor) : Command :=
  let bindings :=
    if editor.autocompleteState.isSome then autocompleteBindings ++ editorBindings
    else editorBindings
  match bindings.find? fun entry => keybindings.matches (.key event) entry.1 with
  | some entry => entry.2
  | none => typed event

/-- Whether `handle_pending_jump` took the event, and the editor after it. -/
def handlePendingJump (event : InputEvent) (editor : Editor) : Bool × Editor :=
  match editor.jumpMode with
  | none => (false, editor)
  | some direction =>
    let calm := { editor with jumpMode := none }
    if keybindings.matches event .jumpForward ∨ keybindings.matches event .jumpBackward then
      (true, calm)
    else
      match event with
      | .key event =>
        if event.release then (true, editor)
        else
          match typed event with
          | .type target => (true, calm.jumpToChar unicode target direction)
          | _ => (false, calm)
      | _ => (false, calm)

def applyCompletionEdit (edit : CompletionEdit) (editor : Editor) : Editor :=
  { editor with
    text := joinLines edit.lines
    cursor := cursorFromLineCol edit.lines edit.cursorLine edit.cursorCol }

/-- None when the provider panics. -/
def applyAutocompleteItem (item : AutocompleteItem) (prefixText : Str) (editor : Editor) :
    Option Editor :=
  match provider with
  | none => some editor
  | some provider =>
    let around := linesAndCursor editor.text editor.cursor
    (provider.applyCompletion around.1 around.2.1 around.2.2 item prefixText).map fun edit =>
      { (editor.pushUndoSnapshot.applyCompletionEdit edit).cancelAutocomplete with
        historyIndex := none
        lastAction := none
        lastYank := none }

def openAutocomplete (suggestions : AutocompleteSuggestions) (force : Bool) (editor : Editor) :
    Editor :=
  { editor with
    autocompletePrefix := suggestions.prefixText
    autocompleteItems := suggestions.items
    autocompleteSelected := (bestAutocompleteMatch suggestions.items suggestions.prefixText).getD 0
    autocompleteState := some (if force then .force else .regular) }

def requestAutocomplete (force explicitTab : Bool) (editor : Editor) : Option Editor :=
  match provider with
  | none => some editor
  | some answers =>
    let around := linesAndCursor editor.text editor.cursor
    if force ∧ ¬ answers.shouldTriggerFileCompletion around.1 around.2.1 around.2.2 then
      some editor
    else
      match answers.getSuggestions around.1 around.2.1 around.2.2 force with
      | none => some editor.cancelAutocomplete
      | some suggestions =>
        match suggestions.items with
        | [] => some editor.cancelAutocomplete
        | item :: others =>
          if force ∧ explicitTab ∧ others = [] then
            editor.applyAutocompleteItem provider item suggestions.prefixText
          else some (editor.openAutocomplete suggestions force)

def refreshRegularAutocomplete (editor : Editor) : Option Editor :=
  editor.requestAutocomplete provider false false

def applySelectedAutocomplete (editor : Editor) : Option Editor :=
  match editor.autocompleteItems[editor.autocompleteSelected]? with
  | none => some editor.cancelAutocomplete
  | some item => editor.applyAutocompleteItem provider item editor.autocompletePrefix

def handleTabCompletion (editor : Editor) : Option Editor :=
  if editor.autocompleteState.isSome then editor.applySelectedAutocomplete provider
  else
    let around := linesAndCursor editor.text editor.cursor
    let beforeCursor := ((around.1.getD around.2.1 []).take around.2.2).dropWhile isWhitespace
    let force := beforeCursor.head? ≠ some '/' || beforeCursor.any isWhitespace
    editor.requestAutocomplete provider force true

def select (down : Bool) (editor : Editor) : Editor :=
  let count := editor.autocompleteItems.length
  if count = 0 then editor
  else
    { editor with
      autocompleteSelected :=
        (editor.autocompleteSelected + if down then 1 else count - 1) % count }

def perform (command : Command) (editor : Editor) : Option Editor :=
  match command with
  | .cancelAutocomplete => some editor.cancelAutocomplete
  | .selectUp => some (editor.select false)
  | .selectDown => some (editor.select true)
  | .applySelected => editor.applySelectedAutocomplete provider
  | .undo => some editor.undo
  | .redo => some editor.redo
  | .newLine => some (editor.insert unicode ['\n']).cancelAutocomplete
  | .submit => some editor.submit
  | .tab => editor.handleTabCompletion provider
  | .scrollPage => some editor
  | .deleteToLineEnd => (editor.deleteToLineEnd unicode).refreshRegularAutocomplete provider
  | .deleteToLineStart => (editor.deleteToLineStart unicode).refreshRegularAutocomplete provider
  | .deleteWordBackward => editor.deleteWordBackward.refreshRegularAutocomplete provider
  | .deleteWordForward => editor.deleteWordForward.refreshRegularAutocomplete provider
  | .deleteCharBackward => (editor.deleteBackward unicode).refreshRegularAutocomplete provider
  | .deleteCharForward => (editor.deleteForward unicode).refreshRegularAutocomplete provider
  | .yank => some editor.yank
  | .yankPop => some editor.yankPop
  | .cursorLineStart => some editor.moveLineStart
  | .cursorLineEnd => some editor.moveLineEnd
  | .cursorWordLeft => some editor.moveWordLeft
  | .cursorWordRight => some editor.moveWordRight
  | .cursorUp =>
    if editor.text = [] ∨ editor.historyIndex.isSome ∧ editor.isOnFirstVisualLine unicode then
      some editor.navigateHistoryUp
    else if editor.isOnFirstVisualLine unicode then some editor.moveLineStart
    else some (editor.moveVertical unicode false)
  | .cursorDown =>
    if editor.historyIndex.isSome ∧ editor.isOnLastVisualLine unicode then
      editor.navigateHistoryDown
    else if editor.isOnLastVisualLine unicode then some editor.moveLineEnd
    else some (editor.moveVertical unicode true)
  | .cursorLeft => some (editor.moveLeft unicode)
  | .cursorRight => some (editor.moveRight unicode)
  | .jump direction => some { editor.cancelAutocomplete with jumpMode := some direction }
  | .type text => (editor.insert unicode text).refreshRegularAutocomplete provider
  | .nothing => some editor

def handleInput (event : InputEvent) (editor : Editor) : Option Editor :=
  match editor.handlePendingJump keybindings unicode event with
  | (true, after) => some after
  | (false, after) =>
    match event with
    | .paste text => some (after.handlePaste unicode text)
    | .key event =>
      if event.release then some after
      else after.perform unicode provider (after.commandOf keybindings event)
    | _ => some after

def cursorMarker : Str := ['\x1b', '_', 'p', 'i', ':', 'c', '\x07']

def layoutText (editor : Editor) : Str :=
  if editor.focused then
    editor.text.take editor.cursor ++ cursorMarker ++ editor.text.drop editor.cursor
  else editor.text

def layoutLines (width : Nat) (editor : Editor) : List Str :=
  wrapMultiline unicode editor.layoutText width

def maxVisibleLines (layoutLines : Nat) (editor : Editor) : Nat :=
  let borderRows := if editor.showBorder then 2 else 0
  min (max ((editor.viewportHeight - borderRows) * 3 / 10) 5) (max layoutLines 1)

/-- The scroll offset that `render` leaves, for a number of rows and the row of the cursor. -/
def scrolledOffset (layoutLines cursorLine : Nat) (editor : Editor) : Nat :=
  let shown := editor.maxVisibleLines layoutLines
  let offset :=
    if cursorLine < editor.scrollOffset then cursorLine
    else if cursorLine ≥ editor.scrollOffset + shown then cursorLine - shown + 1
    else editor.scrollOffset
  min offset (layoutLines - shown)

/-- What `render` leaves of the editor. -/
def rendered (width : Nat) (editor : Editor) : Editor :=
  if width = 0 then editor
  else
    { editor with
      lastRenderWidth := width
      scrollOffset := editor.scrolledOffset (editor.layoutLines unicode width).length
        (currentVisualLineIndex unicode editor.text editor.cursor width) }

end Editor

/-- What is done with an editor from outside. -/
inductive Event where
  | input (provider : Option AutocompleteProvider) (event : InputEvent)
  | setText (text : Str)
  | addToHistory (text : Str)
  | setAutocompleteProvider
  | setDisableSubmit (disabled : Bool)
  | setShowBorder (showBorder : Bool)
  | setViewportSize (height : Nat)
  | setFocused (focused : Bool)
  | render (width : Nat)

def step (keybindings : KeybindingsManager) (unicode : Unicode) (event : Event) (editor : Editor) :
    Option Editor :=
  match event with
  | .input provider event => editor.handleInput keybindings unicode provider event
  | .setText text => some (editor.setText text)
  | .addToHistory text => some (editor.addToHistory text)
  | .setAutocompleteProvider => some editor.cancelAutocomplete
  | .setDisableSubmit disabled => some { editor with disableSubmit := disabled }
  | .setShowBorder showBorder => some { editor with showBorder := showBorder }
  | .setViewportSize height => some { editor with viewportHeight := max height 1 }
  | .setFocused focused => some { editor with focused := focused }
  | .render width => some (editor.rendered unicode width)

/-- The states that an editor can come to. -/
def Reachable (keybindings : KeybindingsManager) (unicode : Unicode) (editor : Editor) : Prop :=
  ∃ events, Transition.Run (step keybindings unicode) (fun _ _ => True) .new events editor

end PiRust.Editing
