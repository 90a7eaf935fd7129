import PiRust.EditorChanges

/- What undos and redos bring back after a run of edits. -/
namespace PiRust.Editing

open List

open EditTool (Str)

def Core.snapshot (core : Core) : EditorSnapshot := ⟨core.text, core.cursor⟩

/-- The snapshots that one edit pushes. -/
def createdBy (before after : Core) : List EditorSnapshot :=
  if after.undoStack = before.undoStack.push before.snapshot then [before.snapshot] else []

/-- What an edit pushes: nothing where it goes further, or leaves text and cursor. -/
inductive Creates (kind : Kind) (before after : Core) : List EditorSnapshot → Prop
  | nothing (stack : after.undoStack = before.undoStack)
      (still : kind ≠ .further → after.snapshot = before.snapshot) : Creates kind before after []
  | entry (stack : after.undoStack = before.undoStack.push before.snapshot) :
      Creates kind before after [before.snapshot]

theorem Change.creates {kind : Kind} {before after : Core} (change : Change kind before after)
    (edit : kind ≠ .move) : Creates kind before after (createdBy before after) := by
  unfold createdBy
  split
  · rename_i pushed
    exact .entry pushed
  · rename_i kept
    cases change with
    | same => exact .nothing rfl fun _ => rfl
    | calmed text cursor undo =>
      refine .nothing undo fun _ => ?_
      rw [Core.snapshot, text, cursor, Core.snapshot]
    | pushed undo => exact absurd undo kept
    | typed _ undo => exact .nothing undo (absurd rfl)
    | stepped _ undo => exact .nothing undo (absurd rfl)
    | moved | undone | redone | reset => exact absurd rfl edit

/-- A run of edits, with the texts held and the entries created; `opening` says which edits there
may be before the first entry. -/
inductive EditRun (keybindings : KeybindingsManager) (unicode : Unicode) (opening : Kind → Prop)
    (begun : Editor) : List Str → List EditorSnapshot → Editor → Prop
  | done : EditRun keybindings unicode opening begun [begun.text] [] begun
  | next {held : List Str} {entries : List EditorSnapshot} {before after : Editor} {event : Event}
      (earlier : EditRun keybindings unicode opening begun held entries before)
      (edit : event.kind keybindings unicode before ≠ .move)
      (opened : entries = [] → opening (event.kind keybindings unicode before))
      (taken : step keybindings unicode event before = some after) :
      EditRun keybindings unicode opening begun (held ++ [after.text])
        (entries ++ createdBy before.core after.core) after

namespace Editor

variable {editor : Editor}

theorem undo_spec {older : List EditorSnapshot} {snapshot : EditorSnapshot}
    (inv : editor.core.Inv) (stack : editor.undoStack.entries = older ++ [snapshot]) :
    editor.undo.snapshot = snapshot ∧ editor.undo.undoStack = ⟨older⟩ ∧
      editor.undo.redoStack = editor.redoStack.push editor.snapshot := by
  have placed := inv.undoPlaced snapshot (stack ▸ mem_append_right _ (mem_singleton_self _))
  have popped := (@UndoStack.pop_eq_some_iff _ _ ⟨older⟩).mpr stack
  unfold undo
  rw [popped]
  refine ⟨?_, rfl, rfl⟩
  change EditorSnapshot.mk _ (min _ _) = _
  rw [Nat.min_eq_left placed]
  rfl

theorem redo_spec {older : List EditorSnapshot} {snapshot : EditorSnapshot}
    (placed : snapshot.cursor ≤ snapshot.text.length)
    (stack : editor.redoStack.entries = older ++ [snapshot]) :
    editor.redo.snapshot = snapshot ∧ editor.redo.redoStack = ⟨older⟩ ∧
      editor.redo.undoStack = editor.undoStack.push editor.snapshot := by
  have popped := (@UndoStack.pop_eq_some_iff _ _ ⟨older⟩).mpr stack
  unfold redo
  rw [popped]
  refine ⟨?_, rfl, rfl⟩
  change EditorSnapshot.mk _ (min _ _) = _
  rw [Nat.min_eq_left placed]
  rfl

def undoView (editor : Editor) : EditorSnapshot × UndoStack × UndoStack :=
  (editor.snapshot, editor.undoStack, editor.redoStack)

theorem redo_undo (inv : editor.core.Inv) (some : editor.undoStack.entries ≠ []) :
    editor.undo.redo.undoView = editor.undoView := by
  obtain ⟨older, snapshot, stack⟩ := (eq_nil_or_concat editor.undoStack.entries).resolve_left some
  rw [concat_eq_append] at stack
  obtain ⟨shown, undo, redo⟩ := undo_spec inv stack
  have bounded : editor.undoStack.entries.length + editor.redoStack.entries.length ≤
    UndoStack.maxEntries := inv.bounded
  rw [stack, length_append, length_singleton] at bounded
  have pushed := @UndoStack.push_entries editor.snapshot editor.redoStack (by omega)
  obtain ⟨back, left, again⟩ := @redo_spec editor.undo _ _ inv.placed (redo ▸ pushed)
  rw [undo, shown] at again
  have restored := @UndoStack.push_entries snapshot ⟨older⟩ (by dsimp only; omega)
  unfold undoView
  rw [back, left, again]
  congr 2
  exact congrArg UndoStack.mk (restored.trans stack.symm)

theorem redo_undoView {first second : Editor} (same : first.undoView = second.undoView) :
    first.redo.undoView = second.redo.undoView := by
  obtain ⟨shown, others⟩ := Prod.mk.inj same
  obtain ⟨undo, redo⟩ := Prod.mk.inj others
  unfold Editor.redo
  rw [redo]
  cases second.redoStack.pop with
  | none => exact same
  | some top =>
    unfold undoView restore
    dsimp only
    rw [undo, shown]
    rfl

theorem redos_undos (inv : editor.core.Inv) {count : Nat}
    (enough : count ≤ editor.undoStack.entries.length) :
    (redo^[count] (undo^[count] editor)).undoView = editor.undoView := by
  induction count generalizing editor with
  | zero => rfl
  | succ count ih =>
    have some : editor.undoStack.entries ≠ [] :=
      length_pos_iff.mp (Nat.lt_of_lt_of_le (Nat.succ_pos count) enough)
    have fewer : count ≤ editor.undo.undoStack.entries.length := by
      obtain ⟨older, snapshot, stack⟩ :=
        (eq_nil_or_concat editor.undoStack.entries).resolve_left some
      rw [concat_eq_append] at stack
      rw [stack, length_append, length_singleton] at enough
      rw [(undo_spec inv stack).2.1]
      exact Nat.le_of_succ_le_succ enough
    rw [Function.iterate_succ_apply' redo, Function.iterate_succ_apply undo]
    exact (redo_undoView (ih (inv.change undo_change) fewer)).trans (redo_undo inv some)

theorem undos {older created : List EditorSnapshot} (inv : editor.core.Inv)
    (stack : editor.undoStack.entries = older ++ created) :
    (created ++ [editor.snapshot]).head? = some (undo^[created.length] editor).snapshot ∧
      ∀ count ≤ created.length, (undo^[count] editor).snapshot ∈ created ++ [editor.snapshot] := by
  induction created using reverseRecOn generalizing editor with
  | nil =>
    refine ⟨rfl, fun count none => ?_⟩
    rw [Nat.le_zero.mp none]
    exact mem_singleton_self _
  | append_singleton created last ih =>
    rw [← append_assoc] at stack
    obtain ⟨shown, rest, _⟩ := undo_spec inv stack
    obtain ⟨first, between⟩ := ih (inv.change undo_change) (congrArg UndoStack.entries rest)
    rw [shown] at first between
    rw [length_append, length_singleton]
    refine ⟨?_, fun count inside => ?_⟩
    · rw [Function.iterate_succ_apply, head?_append, first]
      rfl
    · cases count with
      | zero => exact mem_append_right _ (mem_singleton_self _)
      | succ count =>
        rw [Function.iterate_succ_apply]
        exact mem_append_left _ (between count (Nat.le_of_succ_le_succ inside))

end Editor

variable {created : List EditorSnapshot}
variable {keybindings : KeybindingsManager} {unicode : Unicode} {begun after : Editor}
  {held : List Str}

/-- What a run of edits keeps: the newest entries are those it created, each of a text it held. -/
structure EditRun.Kept (begun : Editor) (held : List Str) (created : List EditorSnapshot)
    (now : Editor) : Prop where
  inv : now.core.Inv
  stack : created.length ≤ UndoStack.maxEntries → ∃ older, now.undoStack.entries = older ++ created
  first : (created ++ [now.snapshot]).head? = some begun.snapshot
  held : ∀ snapshot ∈ created ++ [now.snapshot], snapshot.text ∈ held

theorem UndoStack.push_suffix {stack : UndoStack} {older : List EditorSnapshot}
    {state : EditorSnapshot} (entries : stack.entries = older ++ created)
    (few : (created ++ [state]).length ≤ maxEntries) :
    ∃ older, (stack.push state).entries = older ++ (created ++ [state]) := by
  unfold push
  dsimp only
  rw [entries, append_assoc]
  split
  · rename_i full
    cases older with
    | nil => exact absurd few (Nat.not_le.mpr full)
    | cons oldest older => exact ⟨older, rfl⟩
  · exact ⟨older, rfl⟩

theorem EditRun.kept (inv : begun.core.Inv)
    (run : EditRun keybindings unicode (· ≠ .further) begun held created after) :
    Kept begun held created after := by
  induction run with
  | done =>
    exact ⟨inv, fun _ => ⟨_, (append_nil _).symm⟩, rfl, fun snapshot inside => by
      rw [mem_singleton.mp inside]
      exact mem_singleton_self _⟩
  | @next held created before after event earlier edit opened taken ih =>
    have change := step_change ih.inv taken
    have inv := ih.inv.change change
    have last : ∀ snapshot ∈ [after.snapshot], snapshot.text ∈ held ++ [after.text] := by
      intro snapshot here
      rw [mem_singleton.mp here]
      exact mem_append_right _ (mem_singleton_self _)
    have kept : ∀ snapshot ∈ created ++ [before.snapshot], snapshot.text ∈ held ++ [after.text] :=
      fun snapshot inside => mem_append_left _ (ih.held snapshot inside)
    have creates := change.creates edit
    generalize createdBy before.core after.core = entries at creates ⊢
    cases creates with
    | nothing stack still =>
      rw [append_nil]
      refine ⟨inv, fun few => ?_, ?_, fun snapshot inside => ?_⟩
      · obtain ⟨older, entries⟩ := ih.stack few
        exact ⟨older, (congrArg UndoStack.entries stack).trans entries⟩
      · cases created with
        | nil => exact (congrArg some (still (opened rfl))).trans ih.first
        | cons entry created => exact ih.first
      · exact (mem_append.mp inside).elim
          (fun earlier => kept snapshot (mem_append_left _ earlier)) (last snapshot)
    | entry stack =>
      refine ⟨inv, fun few => ?_, ?_, fun snapshot inside => ?_⟩
      · obtain ⟨older, entries⟩ := ih.stack
          (Nat.le_trans (length_append ▸ Nat.le_add_right _ _) few)
        obtain ⟨older, entries⟩ := UndoStack.push_suffix entries few
        exact ⟨older, (congrArg UndoStack.entries stack).trans entries⟩
      · rw [head?_append, ← Option.some_or]
        exact congrArg (Option.or · _) ih.first
      · exact (mem_append.mp inside).elim (kept snapshot) (last snapshot)

theorem Change.discards {kind : Kind} {before after : Core} (inv : before.Inv)
    (change : Change kind before after) (edit : kind ≠ .move)
    (some : after.text ≠ before.text ∨ after.undoStack ≠ before.undoStack) :
    after.redoStack.entries = [] := by
  cases change with
  | same => exact some.elim (absurd rfl) (absurd rfl)
  | calmed text _ undo => exact absurd text (some.resolve_right (not_not_intro undo))
  | pushed _ redo => exact congrArg UndoStack.entries redo
  | typed word _ redo =>
    rw [redo]
    exact Decidable.byContradiction fun left => (inv.fresh left).1 word
  | stepped browsing _ redo =>
    rw [redo]
    exact Decidable.byContradiction fun left => browsing (inv.fresh left).2
  | moved | undone | redone | reset => exact absurd rfl edit

/-- Redos take back as many undos; undos take back a run of edits that begins with none that goes
further with an earlier one, through texts that the run held; and an edit discards the redos. -/
theorem Reachable.undo_redo {keybindings : KeybindingsManager} {unicode : Unicode} {editor : Editor}
    (reachable : Reachable keybindings unicode editor) :
    (∀ count ≤ editor.undoStack.entries.length,
      (Editor.redo^[count] (Editor.undo^[count] editor)).snapshot = editor.snapshot) ∧
    (∀ held created after, EditRun keybindings unicode (· ≠ .further) editor held created after →
      created.length ≤ 100 → (Editor.undo^[created.length] after).snapshot = editor.snapshot ∧
        ∀ count ≤ created.length, (Editor.undo^[count] after).text ∈ held) ∧
    ∀ event after, event.kind keybindings unicode editor ≠ .move →
      step keybindings unicode event editor = some after →
      after.text ≠ editor.text ∨ after.undoStack ≠ editor.undoStack →
      after.redoStack.entries = [] := by
  refine ⟨fun count enough => ?_, fun held created after run few => ?_,
    fun event after edit taken some => ?_⟩
  · exact (Prod.mk.inj (Editor.redos_undos reachable.inv enough)).1
  · have kept := EditRun.kept reachable.inv run
    obtain ⟨older, stack⟩ := kept.stack few
    obtain ⟨first, between⟩ := Editor.undos kept.inv stack
    exact ⟨Option.some.inj (first.symm.trans kept.first),
      fun count inside => kept.held _ (between count inside)⟩
  · exact Change.discards reachable.inv (step_change reachable.inv taken) edit some

theorem undo_redo_letter : ∃ after : Editor, after.text = "ab".toList ∧
    after.undo.snapshot = ⟨"a".toList, 1⟩ := by
  have reachable : Reachable (.only none) .plain (Editor.new.setText "a".toList) :=
    ⟨[.setText "a".toList], .next (.done _) trivial rfl⟩
  have undone := (Reachable.undo_redo reachable).2.1 _ _ _
    (@EditRun.next _ _ _ _ _ _ _ _ (.press (.char "b".toList)) .done (by decide)
      (fun _ => by decide) rfl) (by decide)
  exact ⟨(Editor.new.setText "a".toList).insert .plain "b".toList, rfl, undone.1⟩

/-- The letter after a letter creates no entry, and no undo comes back to the text before it. -/
theorem second_letter : ¬ ∀ (keybindings : KeybindingsManager) (unicode : Unicode)
    (editor after : Editor) (held : List Str) (created : List EditorSnapshot),
    Reachable keybindings unicode editor →
    EditRun keybindings unicode (fun _ => True) editor held created after →
    created.length ≤ 100 → ∃ count, (Editor.undo^[count] after).snapshot = editor.snapshot := by
  intro all
  have begun : Transition.follow (step (.only none) .plain) [.press (.char "a".toList)] .new =
    some _ := rfl
  obtain ⟨count, undone⟩ := all _ _ _ _ _ _ ⟨_, .of_follow (fun _ _ _ => trivial) begun⟩
    (@EditRun.next _ _ _ _ _ _ _ _ (.press (.char "b".toList)) .done (by decide)
      (fun _ => trivial) rfl) (by decide)
  cases count with
  | zero => exact absurd undone (by decide)
  | succ count =>
    rw [Function.iterate_succ_apply, Function.iterate_fixed rfl] at undone
    exact absurd undone (by decide)

end PiRust.Editing
