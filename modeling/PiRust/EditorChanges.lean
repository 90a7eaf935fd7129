import PiRust.EditorPositions

/- What a step does to the text, the cursor and the snapshots of an editor. -/
namespace PiRust.Editing

open List

open EditTool (Str)
open Autocomplete (AutocompleteProvider AutocompleteItem CompletionEdit)

/-- The part of an editor that completion, scrolling and settings leave alone. -/
structure Core where
  text : Str
  cursor : Nat
  killRing : KillRing
  undoStack : UndoStack
  redoStack : UndoStack
  lastAction : Option LastAction
  lastYank : Option (Nat × Nat)
  historyIndex : Option Nat

def Editor.core (editor : Editor) : Core :=
  ⟨editor.text, editor.cursor, editor.killRing, editor.undoStack, editor.redoStack,
    editor.lastAction, editor.lastYank, editor.historyIndex⟩

/-- A move of the cursor, an undo, a redo or a new text; an edit; or an edit that goes further
with the one before it: a letter of a word being typed, a further step in the history. -/
inductive Kind where
  | move | edit | further
  deriving DecidableEq, Repr

/-- What a command can do to the core. -/
inductive Change : Kind → Core → Core → Prop
  | same {kind : Kind} {core : Core} : Change kind core core
  | calmed {kind : Kind} {before after : Core} (text : after.text = before.text)
      (cursor : after.cursor = before.cursor) (undo : after.undoStack = before.undoStack)
      (redo : after.redoStack = before.redoStack) (action : after.lastAction = none)
      (index : after.historyIndex = none) : Change kind before after
  | pushed {kind : Kind} {before after : Core}
      (undo : after.undoStack = before.undoStack.push ⟨before.text, before.cursor⟩)
      (redo : after.redoStack = ⟨[]⟩) (placed : after.cursor ≤ after.text.length)
      (yanked : after.lastAction = some .yank →
        ∃ start ≤ after.cursor, after.lastYank = some (start, after.cursor)) :
      Change kind before after
  | typed {before after : Core} (word : before.lastAction = some .typeWord)
      (undo : after.undoStack = before.undoStack) (redo : after.redoStack = before.redoStack)
      (action : after.lastAction = some .typeWord) (index : after.historyIndex = none)
      (placed : after.cursor ≤ after.text.length) : Change .further before after
  | stepped {before after : Core} (browsing : before.historyIndex ≠ none)
      (undo : after.undoStack = before.undoStack) (redo : after.redoStack = before.redoStack)
      (action : after.lastAction = none) (placed : after.cursor ≤ after.text.length) :
      Change .further before after
  | moved {before after : Core} (text : after.text = before.text)
      (undo : after.undoStack = before.undoStack) (redo : after.redoStack = before.redoStack)
      (action : after.lastAction = none) (index : after.historyIndex = before.historyIndex)
      (placed : after.cursor ≤ after.text.length) : Change .move before after
  | undone {before after : Core} {snapshot : EditorSnapshot} {rest : UndoStack}
      (popped : before.undoStack.pop = some (snapshot, rest)) (undo : after.undoStack = rest)
      (redo : after.redoStack = before.redoStack.push ⟨before.text, before.cursor⟩)
      (action : after.lastAction = none) (index : after.historyIndex = none)
      (placed : after.cursor ≤ after.text.length) : Change .move before after
  | redone {before after : Core} {snapshot : EditorSnapshot} {rest : UndoStack}
      (popped : before.redoStack.pop = some (snapshot, rest)) (redo : after.redoStack = rest)
      (undo : after.undoStack = before.undoStack.push ⟨before.text, before.cursor⟩)
      (action : after.lastAction = none) (index : after.historyIndex = none)
      (placed : after.cursor ≤ after.text.length) : Change .move before after
  | reset {before after : Core} (undo : after.undoStack = ⟨[]⟩) (redo : after.redoStack = ⟨[]⟩)
      (action : after.lastAction = none) (index : after.historyIndex = none)
      (placed : after.cursor ≤ after.text.length) : Change .move before after

def UndoStack.Placed (stack : UndoStack) : Prop :=
  ∀ snapshot ∈ stack.entries, snapshot.cursor ≤ snapshot.text.length

/-- What holds of every state that an editor can come to. -/
structure Core.Inv (core : Core) : Prop where
  placed : core.cursor ≤ core.text.length
  yanked : core.lastAction = some .yank →
    ∃ start ≤ core.cursor, core.lastYank = some (start, core.cursor)
  undoPlaced : core.undoStack.Placed
  redoPlaced : core.redoStack.Placed
  bounded : core.undoStack.entries.length + core.redoStack.entries.length ≤ UndoStack.maxEntries
  fresh : core.redoStack.entries ≠ [] → core.lastAction ≠ some .typeWord ∧ core.historyIndex = none

namespace UndoStack

theorem placed_nil : Placed ⟨[]⟩ := forall_mem_nil _

variable {stack : UndoStack}

theorem mem_push {state snapshot : EditorSnapshot}
    (inside : snapshot ∈ (stack.push state).entries) :
    snapshot ∈ stack.entries ∨ snapshot = state := by
  unfold push at inside
  dsimp only at inside
  split at inside
  · exact (mem_append.mp (mem_of_mem_tail inside)).imp_right mem_singleton.mp
  · exact (mem_append.mp inside).imp_right mem_singleton.mp

variable {state : EditorSnapshot}

theorem Placed.push (placed : stack.Placed)
    (here : state.cursor ≤ state.text.length) : (stack.push state).Placed := fun snapshot inside =>
  (mem_push inside).elim (placed snapshot) fun same => same ▸ here

theorem push_entries {stack : UndoStack}
    (room : stack.entries.length < maxEntries) :
    (stack.push state).entries = stack.entries ++ [state] := by
  unfold push
  dsimp only
  rw [if_neg]
  rw [length_append, length_singleton]
  omega

theorem length_push_le (state : EditorSnapshot) (bounded : stack.entries.length ≤ maxEntries) :
    (stack.push state).entries.length ≤ maxEntries := by
  unfold push
  dsimp only
  split
  · rw [length_tail, length_append, length_singleton]
    exact bounded
  · rename_i fits
    exact Nat.le_of_not_lt fits

theorem pop_eq_some_iff {stack rest : UndoStack} :
    stack.pop = some (state, rest) ↔ stack.entries = rest.entries ++ [state] := by
  obtain ⟨entries⟩ := stack
  obtain ⟨others⟩ := rest
  cases eq_nil_or_concat entries with
  | inl none => simp [none, pop]
  | inr some =>
    obtain ⟨older, last, split⟩ := some
    rw [concat_eq_append] at split
    simp only [split, pop, getLast?_concat, Option.map_some, dropLast_concat,
      Option.some.injEq, Prod.mk.injEq, UndoStack.mk.injEq]
    constructor
    · rintro ⟨rfl, rfl⟩
      rfl
    · intro same
      obtain ⟨older, last⟩ := append_inj' same rfl
      exact ⟨singleton_inj.mp last, older⟩

end UndoStack

theorem Core.Inv.change {kind : Kind} {before after : Core} (inv : before.Inv)
    (change : Change kind before after) : after.Inv := by
  have calm : after.lastAction = none → after.lastAction = some .yank →
      ∃ start ≤ after.cursor, after.lastYank = some (start, after.cursor) := fun none some =>
    absurd (none.symm.trans some) (Option.some_ne_none _).symm
  have other : after.lastAction = none → after.lastAction ≠ some .typeWord := fun none some =>
    absurd (none.symm.trans some) (Option.some_ne_none _).symm
  have bounded := inv.bounded
  cases change with
  | same => exact inv
  | calmed text cursor undo redo action index =>
    refine ⟨by rw [text, cursor]; exact inv.placed, calm action, undo ▸ inv.undoPlaced,
      redo ▸ inv.redoPlaced, by rw [undo, redo]; exact bounded, fun _ => ⟨other action, index⟩⟩
  | pushed undo redo placed yanked =>
    refine ⟨placed, yanked, undo ▸ inv.undoPlaced.push inv.placed, redo ▸ UndoStack.placed_nil,
      ?_, fun some => absurd (congrArg UndoStack.entries redo) some⟩
    rw [undo, redo]
    exact UndoStack.length_push_le _ (Nat.le_trans (Nat.le_add_right _ _) bounded)
  | typed word undo redo action index placed =>
    refine ⟨placed, fun yank => ?_, undo ▸ inv.undoPlaced, redo ▸ inv.redoPlaced,
      by rw [undo, redo]; exact bounded, fun some => ?_⟩
    · rw [action] at yank
      cases yank
    · exact absurd word (inv.fresh (redo ▸ some)).1
  | stepped browsing undo redo action placed =>
    exact ⟨placed, calm action, undo ▸ inv.undoPlaced, redo ▸ inv.redoPlaced,
      by rw [undo, redo]; exact bounded, fun some => absurd (inv.fresh (redo ▸ some)).2 browsing⟩
  | moved text undo redo action index placed =>
    exact ⟨placed, calm action, undo ▸ inv.undoPlaced, redo ▸ inv.redoPlaced,
      by rw [undo, redo]; exact bounded,
      fun some => ⟨other action, index.trans (inv.fresh (redo ▸ some)).2⟩⟩
  | undone popped undo redo action index placed =>
    have split := UndoStack.pop_eq_some_iff.mp popped
    have size := congrArg length split
    rw [length_append, length_singleton] at size
    refine ⟨placed, calm action, fun snapshot inside => ?_, redo ▸ inv.redoPlaced.push inv.placed,
      ?_, fun _ => ⟨other action, index⟩⟩
    · rw [undo] at inside
      exact inv.undoPlaced snapshot (split ▸ mem_append_left _ inside)
    · rw [undo, redo, UndoStack.push_entries (by omega), length_append, length_singleton]
      omega
  | redone popped redo undo action index placed =>
    have split := UndoStack.pop_eq_some_iff.mp popped
    have size := congrArg length split
    rw [length_append, length_singleton] at size
    refine ⟨placed, calm action, undo ▸ inv.undoPlaced.push inv.placed, fun snapshot inside => ?_,
      ?_, fun _ => ⟨other action, index⟩⟩
    · rw [redo] at inside
      exact inv.redoPlaced snapshot (split ▸ mem_append_left _ inside)
    · rw [undo, redo, UndoStack.push_entries (by omega), length_append, length_singleton]
      omega
  | reset undo redo action index placed =>
    exact ⟨placed, calm action, undo ▸ UndoStack.placed_nil, redo ▸ UndoStack.placed_nil,
      by rw [undo, redo]; exact Nat.zero_le _, fun _ => ⟨other action, index⟩⟩

def insertKind (unicode : Unicode) (text : Str) (editor : Editor) : Kind :=
  if isSinglePlainWordGrapheme unicode text ∧ editor.lastAction = some .typeWord then .further
  else .edit

def Command.kind (unicode : Unicode) (editor : Editor) : Command → Kind
  | .undo | .redo | .submit | .cursorLineStart | .cursorLineEnd | .cursorWordLeft
  | .cursorWordRight | .cursorLeft | .cursorRight => .move
  | .cursorUp =>
    if editor.text = [] ∨ editor.historyIndex.isSome ∧ editor.isOnFirstVisualLine unicode then
      if editor.historyIndex.isSome then .further else .edit
    else .move
  | .cursorDown =>
    if editor.historyIndex.isSome ∧ editor.isOnLastVisualLine unicode then .further else .move
  | .newLine => insertKind unicode ['\n'] editor
  | .type text => insertKind unicode text editor
  | _ => .edit

namespace Editor

variable (unicode : Unicode) {provider : Option AutocompleteProvider} {editor after : Editor}
  {kind : Kind}

theorem insert_placed (text : Str) (placed : editor.cursor ≤ editor.text.length) :
    (editor.insertWithoutUndo text).cursor ≤ (editor.insertWithoutUndo text).text.length := by
  simp only [insertWithoutUndo, length_append, length_take, length_drop]
  omega

theorem without_placed {text : Str} {start stop : Nat} (inside : start ≤ text.length) :
    start ≤ (without text start stop).length := by
  rw [without, length_append, length_take, Nat.min_eq_left inside]
  exact Nat.le_add_right _ _

theorem moveTo_change {cursor : Nat} (placed : cursor ≤ editor.text.length) :
    Change .move editor.core (editor.moveTo cursor).core := .moved rfl rfl rfl rfl rfl placed

theorem insert_change (text : Str) (placed : editor.cursor ≤ editor.text.length) :
    Change (insertKind unicode text editor) editor.core (editor.insert unicode text).core := by
  unfold insert
  split
  · exact .same
  · dsimp only
    unfold insertKind
    split
    · rename_i word
      rw [if_pos word.1]
      exact .typed word.2 rfl rfl rfl rfl (insert_placed text placed)
    · refine .pushed rfl rfl (insert_placed text placed) fun yank => ?_
      change (if _ then some LastAction.typeWord else none) = some .yank at yank
      split at yank
      · cases yank
      · cases yank

theorem killRange_change {start stop : Nat} (prepend : Bool) (front : start ≤ editor.cursor)
    (behind : editor.cursor ≤ stop) (placed : editor.cursor ≤ editor.text.length) :
    Change kind editor.core { editor.killRange start stop prepend with cursor := start }.core := by
  unfold killRange
  split
  · have same : start = editor.cursor := by omega
    subst same
    exact .same
  · refine .pushed rfl rfl (without_placed (Nat.le_trans front placed)) nofun

theorem killRange_forward {stop : Nat} (prepend : Bool) (behind : editor.cursor ≤ stop)
    (placed : editor.cursor ≤ editor.text.length) :
    Change kind editor.core (editor.killRange editor.cursor stop prepend).core := by
  unfold killRange
  split
  · exact .same
  · refine .pushed rfl rfl ?_ nofun
    change (if _ then _ else if _ then _ else _) ≤ _
    rw [if_neg (Nat.not_lt.mpr behind), if_neg (Nat.lt_irrefl _)]
    exact without_placed placed

theorem putYank_yanked (text : Str) (editor : Editor) :
    ∃ start ≤ (editor.putYank text).core.cursor,
      (editor.putYank text).core.lastYank = some (start, (editor.putYank text).core.cursor) :=
  ⟨editor.cursor, Nat.le_add_right _ _, rfl⟩

theorem yank_change (placed : editor.cursor ≤ editor.text.length) :
    Change kind editor.core editor.yank.core := by
  unfold yank
  split
  · exact .same
  · rename_i text found
    exact .pushed rfl rfl (@insert_placed editor.pushUndoSnapshot text placed)
      fun _ => putYank_yanked text editor.pushUndoSnapshot

theorem yankPop_change (inv : editor.core.Inv) : Change kind editor.core editor.yankPop.core := by
  unfold yankPop
  split
  · exact .same
  · rename_i yanked
    obtain ⟨start, before, last⟩ := inv.yanked (Decidable.not_not.mp yanked)
    have ring : editor.killRing.yankPop.1 = none → editor.killRing.yankPop.2 = editor.killRing := by
      unfold KillRing.yankPop
      split
      · exact fun _ => rfl
      · rename_i full
        intro none
        have size : 0 < editor.killRing.entries.length := length_pos_iff.mpr full
        exact absurd (getElem?_eq_none_iff.mp none) (Nat.not_le.mpr (Nat.mod_lt _ size))
    split
    · exact .same
    · rename_i first stop held
      obtain ⟨rfl, rfl⟩ := Prod.mk.inj (Option.some.inj (held.symm.trans last))
      dsimp only
      split
      · rename_i none
        rw [ring none]
        exact .same
      · rename_i replacement found
        have inside : first ≤ editor.text.length := Nat.le_trans before inv.placed
        exact .pushed rfl rfl (@insert_placed { editor with
          text := without editor.text first editor.cursor, cursor := first } replacement
          (without_placed inside)) fun _ => putYank_yanked replacement _

theorem undo_change : Change .move editor.core editor.undo.core := by
  unfold undo
  split
  · exact .same
  · rename_i snapshot rest popped
    exact .undone popped rfl rfl rfl rfl (Nat.min_le_right _ _)

theorem redo_change : Change .move editor.core editor.redo.core := by
  unfold redo
  split
  · exact .same
  · rename_i snapshot rest popped
    exact .redone popped rfl rfl rfl rfl (Nat.min_le_right _ _)

theorem moveVertical_change (down : Bool) :
    Change .move editor.core (editor.moveVertical unicode down).core := by
  unfold moveVertical
  dsimp only
  split
  · exact .same
  · split
    · exact .same
    · split
      · rename_i target
        exact moveTo_change (cursorAtVisibleCol_le unicode _ (mem_of_getElem? target) _)
      · exact .same

theorem keepPaste_core (filtered : Str) (editor : Editor) :
    (editor.keepPaste filtered).2.core = editor.core := by
  unfold keepPaste
  split
  · rfl
  · rfl

theorem pushed_insert {calm : Editor} (text : Str) (same : calm.core.cursor = editor.core.cursor)
    (kept : calm.core.text = editor.core.text) (undo : calm.core.undoStack = editor.core.undoStack)
    (action : calm.core.lastAction = none) (placed : editor.cursor ≤ editor.text.length) :
    Change kind editor.core (calm.pushUndoSnapshot.insertWithoutUndo text).core := by
  refine .pushed ?_ rfl (@insert_placed calm.pushUndoSnapshot text ?_) fun yank => ?_
  · rw [← undo, ← kept, ← same]
    rfl
  · change calm.core.cursor ≤ calm.core.text.length
    rw [same, kept]
    exact placed
  · exact absurd (action.symm.trans yank) (Option.some_ne_none _).symm

theorem handlePaste_change (pasted : Str) (placed : editor.cursor ≤ editor.text.length) :
    Change kind editor.core (editor.handlePaste unicode pasted).core := by
  unfold handlePaste
  dsimp only
  split
  · exact .calmed rfl rfl rfl rfl rfl rfl
  · have kept := keepPaste_core
      (apartFrom unicode (editor.text.take editor.cursor).getLast? (cleanPasteText pasted))
      { editor.cancelAutocomplete with historyIndex := none, lastAction := none, lastYank := none }
    refine pushed_insert _ ?_ ?_ ?_ ?_ placed
    · rw [kept]
      rfl
    · rw [kept]
      rfl
    · rw [kept]
      rfl
    · rw [kept]
      rfl

section

variable (placed : editor.cursor ≤ editor.text.length)
include placed

theorem deleteBackward_change : Change kind editor.core (editor.deleteBackward unicode).core := by
  unfold deleteBackward
  split
  · exact .same
  · exact .pushed rfl rfl (without_placed (Nat.le_trans
      (previousGraphemeBoundary_le unicode _ _) placed)) nofun

theorem deleteForward_change : Change kind editor.core (editor.deleteForward unicode).core := by
  unfold deleteForward
  split
  · exact .same
  · exact .pushed rfl rfl (without_placed placed) nofun

theorem deleteWordBackward_change : Change kind editor.core editor.deleteWordBackward.core := by
  unfold deleteWordBackward
  split
  · exact .same
  · exact killRange_change true (findWordBackward_le _ _) (Nat.le_refl _) placed

theorem deleteWordForward_change : Change kind editor.core editor.deleteWordForward.core := by
  unfold deleteWordForward
  split
  · exact .same
  · exact killRange_forward false (findWordForward_bounds placed).1 placed

theorem deleteToLineStart_change :
    Change kind editor.core (editor.deleteToLineStart unicode).core := by
  unfold deleteToLineStart
  dsimp only
  split
  · exact killRange_change true (previousGraphemeBoundary_le unicode _ _) (Nat.le_refl _) placed
  · exact killRange_change true (currentLineStart_le _ _) (Nat.le_refl _) placed

theorem deleteToLineEnd_change : Change kind editor.core (editor.deleteToLineEnd unicode).core := by
  unfold deleteToLineEnd
  dsimp only
  split
  · exact killRange_forward false (nextGraphemeBoundary_bounds unicode placed).1 placed
  · exact killRange_forward false (currentLineEnd_bounds placed).1 placed

end

theorem navigateHistoryUp_change (further : editor.historyIndex ≠ none → kind = .further) :
    Change kind editor.core editor.navigateHistoryUp.core := by
  unfold navigateHistoryUp
  split
  · split
    · exact .same
    · exact .pushed rfl rfl (Nat.le_refl _) nofun
  · rename_i index browsing
    have some : editor.historyIndex ≠ none := fun none => by cases browsing.symm.trans none
    rw [further some]
    split
    · exact .same
    · exact .stepped some rfl rfl rfl (Nat.le_refl _)

theorem navigateHistoryDown_change (done : editor.navigateHistoryDown = some after) :
    Change .further editor.core after.core := by
  unfold navigateHistoryDown at done
  split at done
  · cases done
    exact .same
  · rename_i browsing
    cases done
    exact .stepped (fun none => by cases browsing.symm.trans none) rfl rfl rfl (Nat.le_refl _)
  · rename_i index browsing
    obtain ⟨text, _, rfl⟩ := Option.map_eq_some_iff.mp done
    exact .stepped (fun none => by cases browsing.symm.trans none) rfl rfl rfl (Nat.le_refl _)

theorem applyAutocompleteItem_change {item : AutocompleteItem} {prefixText : Str}
    (done : editor.applyAutocompleteItem provider item prefixText = some after) :
    Change kind editor.core after.core := by
  unfold applyAutocompleteItem at done
  split at done
  · cases done
    exact .same
  · obtain ⟨edit, _, rfl⟩ := Option.map_eq_some_iff.mp done
    exact .pushed rfl rfl (cursorFromLineCol_le _ _ _) nofun

theorem requestAutocomplete_change {force explicitTab : Bool}
    (done : editor.requestAutocomplete provider force explicitTab = some after) :
    after.core = editor.core ∨
      force = true ∧ explicitTab = true ∧ Change kind editor.core after.core := by
  unfold requestAutocomplete at done
  split at done
  · cases done
    exact .inl rfl
  · dsimp only at done
    split at done
    · cases done
      exact .inl rfl
    · split at done
      · cases done
        exact .inl rfl
      · split at done
        · cases done
          exact .inl rfl
        · split at done
          · rename_i direct
            exact .inr ⟨direct.1, direct.2.1, applyAutocompleteItem_change done⟩
          · cases done
            exact .inl rfl

theorem refresh_core (done : editor.refreshRegularAutocomplete provider = some after) :
    after.core = editor.core := by
  obtain same | ⟨force, _⟩ := @requestAutocomplete_change _ _ _ .edit _ _ done
  · exact same
  · cases force

theorem Change.refreshed {before : Core} (change : Change kind before editor.core)
    (done : editor.refreshRegularAutocomplete provider = some after) :
    Change kind before after.core := (refresh_core done).symm ▸ change

theorem select_core (down : Bool) (editor : Editor) : (editor.select down).core = editor.core := by
  unfold select
  dsimp only
  split
  · rfl
  · rfl

theorem applySelected_change (done : editor.applySelectedAutocomplete provider = some after) :
    Change kind editor.core after.core := by
  unfold applySelectedAutocomplete at done
  split at done
  · cases done
    exact .same
  · exact applyAutocompleteItem_change done

theorem handleTab_change (done : editor.handleTabCompletion provider = some after) :
    Change kind editor.core after.core := by
  unfold handleTabCompletion at done
  split at done
  · exact applySelected_change done
  · obtain same | ⟨_, _, change⟩ := requestAutocomplete_change done
    · rw [same]
      exact .same
    · exact change

theorem submit_change : Change .move editor.core editor.submit.core := by
  unfold submit
  split
  · exact .same
  · exact .reset rfl rfl rfl rfl (Nat.le_refl _)

theorem perform_change {command : Command} (inv : editor.core.Inv)
    (done : editor.perform unicode provider command = some after) :
    Change (command.kind unicode editor) editor.core after.core := by
  have placed : editor.cursor ≤ editor.text.length := inv.placed
  cases command with
  | cancelAutocomplete | scrollPage | nothing | jump direction =>
    cases done
    exact .same
  | selectUp | selectDown =>
    cases done
    rw [select_core]
    exact .same
  | applySelected => exact applySelected_change done
  | undo =>
    cases done
    exact undo_change
  | redo =>
    cases done
    exact redo_change
  | newLine =>
    cases done
    exact insert_change unicode ['\n'] placed
  | submit =>
    cases done
    exact submit_change
  | tab => exact handleTab_change done
  | deleteToLineEnd => exact Change.refreshed (deleteToLineEnd_change unicode placed) done
  | deleteToLineStart => exact Change.refreshed (deleteToLineStart_change unicode placed) done
  | deleteWordBackward => exact Change.refreshed (deleteWordBackward_change placed) done
  | deleteWordForward => exact Change.refreshed (deleteWordForward_change placed) done
  | deleteCharBackward => exact Change.refreshed (deleteBackward_change unicode placed) done
  | deleteCharForward => exact Change.refreshed (deleteForward_change unicode placed) done
  | yank =>
    cases done
    exact yank_change placed
  | yankPop =>
    cases done
    exact yankPop_change inv
  | cursorLineStart =>
    cases done
    exact moveTo_change (Nat.le_trans (currentLineStart_le _ _) placed)
  | cursorLineEnd =>
    cases done
    exact moveTo_change (currentLineEnd_bounds placed).2
  | cursorWordLeft =>
    cases done
    exact moveTo_change (Nat.le_trans (findWordBackward_le _ _) placed)
  | cursorWordRight =>
    cases done
    exact moveTo_change (findWordForward_bounds placed).2
  | cursorLeft =>
    cases done
    exact moveTo_change (Nat.le_trans (previousGraphemeBoundary_le unicode _ _) placed)
  | cursorRight =>
    cases done
    exact moveTo_change (nextGraphemeBoundary_bounds unicode placed).2
  | type text => exact Change.refreshed (insert_change unicode text placed) done
  | cursorUp =>
    unfold perform at done
    dsimp only at done
    unfold Command.kind
    dsimp only
    split at done
    · rename_i history
      cases done
      rw [if_pos history]
      exact navigateHistoryUp_change fun some => if_pos (Option.isSome_iff_ne_none.mpr some)
    · rename_i history
      rw [if_neg history]
      split at done
      · cases done
        exact moveTo_change (Nat.le_trans (currentLineStart_le _ _) placed)
      · cases done
        exact moveVertical_change unicode false
  | cursorDown =>
    unfold perform at done
    dsimp only at done
    unfold Command.kind
    dsimp only
    split at done
    · rename_i history
      rw [if_pos history]
      exact navigateHistoryDown_change done
    · rename_i history
      rw [if_neg history]
      split at done
      · cases done
        exact moveTo_change (currentLineEnd_bounds placed).2
      · cases done
        exact moveVertical_change unicode true

theorem jumpToChar_change (target : Str) (direction : JumpDirection)
    (placed : editor.cursor ≤ editor.text.length) :
    Change .move editor.core (editor.jumpToChar unicode target direction).core := by
  unfold jumpToChar
  split
  · exact .same
  · dsimp only
    split
    · rename_i index found
      refine moveTo_change ?_
      split at found
      · obtain ⟨offset, there, rfl⟩ := Option.map_eq_some_iff.mp found
        have inside := findText_le there
        have bounds := nextGraphemeBoundary_bounds unicode placed
        rw [length_drop] at inside
        omega
      · have inside := rfindText_le found
        exact Nat.le_trans inside (length_take_le' _ _)
    · exact .same

theorem handlePendingJump_change {keybindings : KeybindingsManager} {event : InputEvent}
    {handled : Bool} (placed : editor.cursor ≤ editor.text.length)
    (done : editor.handlePendingJump keybindings unicode event = (handled, after)) :
    (handled = false → after.core = editor.core) ∧ Change .move editor.core after.core := by
  unfold handlePendingJump at done
  split at done
  · cases done
    exact ⟨fun _ => rfl, .same⟩
  · dsimp only at done
    split at done
    · cases done
      exact ⟨fun _ => rfl, .same⟩
    · split at done
      · split at done
        · cases done
          exact ⟨fun _ => rfl, .same⟩
        · split at done
          · rename_i target found
            obtain ⟨rfl, rfl⟩ := Prod.mk.inj done
            exact ⟨nofun,
              @jumpToChar_change unicode { editor with jumpMode := none } target _ placed⟩
          · cases done
            exact ⟨fun _ => rfl, .same⟩
      · cases done
        exact ⟨fun _ => rfl, .same⟩

end Editor

def Event.kind (keybindings : KeybindingsManager) (unicode : Unicode) (editor : Editor) :
    Event → Kind
  | .setText _ => .move
  | .input _ event =>
    match editor.handlePendingJump keybindings unicode event, event with
    | (true, _), _ => .move
    | (false, after), .key event =>
      if event.release then .edit else (after.commandOf keybindings event).kind unicode after
    | (false, _), _ => .edit
  | _ => .edit

variable {keybindings : KeybindingsManager} {unicode : Unicode} {editor : Editor}

theorem step_change {event : Event} {after : Editor} (inv : editor.core.Inv)
    (done : step keybindings unicode event editor = some after) :
    Change (event.kind keybindings unicode editor) editor.core after.core := by
  cases event with
  | setText text =>
    cases done
    exact .reset rfl rfl rfl rfl (Nat.le_refl _)
  | setAutocompleteProvider | setDisableSubmit disabled | setShowBorder showBorder
  | setViewportSize height | setFocused focused =>
    cases done
    exact .same
  | addToHistory text =>
    cases done
    unfold Editor.addToHistory
    split
    · exact .same
    · exact .same
  | render width =>
    cases done
    unfold Editor.rendered
    split
    · exact .same
    · exact .same
  | input provider event =>
    unfold step Editor.handleInput at done
    unfold Event.kind
    dsimp only at done ⊢
    split at done
    · rename_i final jumped
      cases done
      rw [jumped]
      exact (Editor.handlePendingJump_change unicode inv.placed jumped).2
    · rename_i calm passed
      have same := (Editor.handlePendingJump_change unicode inv.placed passed).1 rfl
      rw [passed, ← same]
      rw [← same] at inv
      split at done
      · cases done
        exact Editor.handlePaste_change unicode _ inv.placed
      · rename_i key
        split at done
        · rename_i release
          cases done
          exact .same
        · rename_i press
          dsimp only
          rw [if_neg press]
          exact Editor.perform_change unicode inv done
      · cases done
        exact .same

theorem Reachable.inv (reachable : Reachable keybindings unicode editor) : editor.core.Inv := by
  obtain ⟨events, run⟩ := reachable
  have start : Editor.new.core.Inv :=
    ⟨Nat.le_refl _, nofun, UndoStack.placed_nil, UndoStack.placed_nil,
      Nat.zero_le _, fun some => absurd rfl some⟩
  exact run.invariant (P := fun editor => editor.core.Inv)
    (fun _ _ _ inv _ done => inv.change (step_change inv done)) start

/-- In every state that an editor can come to, whatever is typed, pasted, completed or set: the
cursor is in the text, undo and redo together hold at most 100 snapshots, each with its cursor in
its text, and nothing can be redone within a word or while the history is browsed. -/
theorem Reachable.undo_bounded (reachable : Reachable keybindings unicode editor) :
    editor.cursor ≤ editor.text.length ∧
      (∀ snapshot ∈ editor.undoStack.entries ++ editor.redoStack.entries,
        snapshot.cursor ≤ snapshot.text.length) ∧
      editor.undoStack.entries.length + editor.redoStack.entries.length ≤ UndoStack.maxEntries ∧
      (editor.redoStack.entries ≠ [] →
        editor.lastAction ≠ some .typeWord ∧ editor.historyIndex = none) := by
  have inv := reachable.inv
  refine ⟨inv.placed, fun snapshot held => ?_, inv.bounded, inv.fresh⟩
  exact (mem_append.mp held).elim (inv.undoPlaced snapshot) (inv.redoPlaced snapshot)

/-- Each character a cluster of its own, one column wide. -/
def Unicode.plain : Unicode where
  graphemes := map fun c => [c]
  width := length
  alphanumeric := Char.isAlphanum
  flatten := fun text => by
    induction text with
    | nil => rfl
    | cons c rest ih => exact congrArg (c :: ·) ih
  nonempty := fun text cluster inside => by
    obtain ⟨c, _, rfl⟩ := mem_map.mp inside
    exact cons_ne_nil c []

/-- Every press is bound to one thing. -/
def KeybindingsManager.only (binding : Option Binding) : KeybindingsManager :=
  ⟨fun _ asked => some asked = binding⟩

def Event.press (key : Key) : Event := .input none (.key ⟨key, ⟨false, false, false, false⟩, .press⟩)

/-- A letter and a space, and an undo. -/
theorem Reachable.undo_bounded_letter : ∃ editor : Editor, editor.text = ['a'] ∧
    editor.undoStack.entries ≠ [] ∧ editor.redoStack.entries ≠ [] ∧
    editor.undoStack.entries.length + editor.redoStack.entries.length ≤ 100 ∧
    editor.lastAction ≠ some .typeWord := by
  let keybindings : KeybindingsManager :=
    ⟨fun event asked => event.key = .escape && asked = .undo⟩
  let events : List Event := [.press (.char ['a']), .press .space, .press .escape]
  have typed : Transition.follow (step keybindings .plain) events .new = some _ := rfl
  have bounded := Reachable.undo_bounded ⟨events, .of_follow (fun _ _ _ => trivial) typed⟩
  exact ⟨_, rfl, by decide, by decide, bounded.2.2.1, (bounded.2.2.2 (by decide)).1⟩

/-- What a press asks for. -/
def Event.command (keybindings : KeybindingsManager) (unicode : Unicode) (editor : Editor) :
    Event → Option Command
  | .input _ (.key event) =>
    match editor.handlePendingJump keybindings unicode (.key event) with
    | (true, _) => none
    | (false, after) => if event.release then none else some (after.commandOf keybindings event)
  | _ => none

theorem step_command {event : Event} {after : Editor} {command : Command}
    (placed : editor.cursor ≤ editor.text.length)
    (asked : event.command keybindings unicode editor = some command)
    (done : step keybindings unicode event editor = some after) :
    ∃ provider, ∃ calm : Editor, calm.core = editor.core ∧
      calm.perform unicode provider command = some after := by
  unfold Event.command at asked
  split at asked
  · rename_i provider key
    unfold step Editor.handleInput at done
    split at asked
    · cases asked
    · rename_i calm passed
      split at asked
      · cases asked
      · rename_i press
        cases asked
        dsimp only at done
        rw [passed] at done
        dsimp only at done
        rw [if_neg press] at done
        exact ⟨provider, calm, (Editor.handlePendingJump_change unicode placed passed).1 rfl, done⟩
  · cases asked

end PiRust.Editing
