import PiRust.EditorChanges

/- What a run of kills leaves in the ring, and what yanks bring back. -/
namespace PiRust.Editing

open List

open EditTool (Str)
open Autocomplete (AutocompleteProvider)

def Command.kills : Command → Bool
  | .deleteWordBackward | .deleteWordForward | .deleteToLineStart | .deleteToLineEnd => true
  | _ => false

/-- A step that kills, or that leaves the text, the ring and all that goes with them. -/
def KillStep (keybindings : KeybindingsManager) (unicode : Unicode) (event : Event)
    (editor : Editor) : Prop :=
  (∃ command, event.command keybindings unicode editor = some command ∧ command.kills = true) ∨
    ∀ after, step keybindings unicode event editor = some after → after.core = editor.core

/-- What one kill does, `prepend` where it kills in front of the cursor. -/
inductive Core.Kill (before : Core) : Core → Prop
  | idle : Kill before before
  | killed {after : Core} {front removed back : Str} (prepend : Bool)
      (text : before.text = front ++ removed ++ back)
      (cursor : before.cursor = front.length + if prepend then removed.length else 0)
      (found : removed ≠ []) (left : after.text = front ++ back)
      (moved : after.cursor = front.length)
      (ring : after.killRing =
        before.killRing.push removed prepend (before.lastAction = some .kill))
      (action : after.lastAction = some .kill) : Kill before after

/-- A run of kills took `removed` out of the text in which it began. -/
structure Core.Killed (begun now : Core) (front removed back : Str) : Prop where
  text : begun.text = front ++ removed ++ back
  found : removed ≠ []
  left : now.text = front ++ back
  cursor : now.cursor = front.length
  ring : now.killRing = ⟨removed :: begun.killRing.entries, 0⟩
  action : now.lastAction = some .kill

theorem KillRing.push_fresh {text : Str} (found : text ≠ []) (prepend : Bool) (ring : KillRing) :
    ring.push text prepend false = ⟨text :: ring.entries, 0⟩ := by
  unfold push
  rw [if_neg found]

theorem KillRing.push_accumulated {text newest : Str} {older : List Str} (found : text ≠ [])
    (prepend : Bool) :
    KillRing.push text prepend true ⟨newest :: older, 0⟩ =
      ⟨(if prepend then text ++ newest else newest ++ text) :: older, 0⟩ := by
  unfold push
  rw [if_neg found]

theorem Core.Kill.next {begun now after : Core} (fresh : begun.lastAction ≠ some .kill)
    (so : now = begun ∨ ∃ front removed back, begun.Killed now front removed back)
    (kill : now.Kill after) :
    after = begun ∨ ∃ front removed back, begun.Killed after front removed back := by
  cases kill with
  | idle => exact so
  | @killed _ front removed back prepend text cursor found left moved ring action =>
    refine .inr ?_
    obtain rfl | ⟨front', taken, back', earlier⟩ := so
    · rw [decide_eq_false fresh, KillRing.push_fresh found] at ring
      exact ⟨front, removed, back, text, found, left, moved, ring, action⟩
    · rw [decide_eq_true earlier.action, earlier.ring, KillRing.push_accumulated found] at ring
      have split := earlier.left.symm.trans text
      have place := earlier.cursor.symm.trans cursor
      cases prepend with
      | true =>
        obtain ⟨rfl, rfl⟩ := append_inj split (place.trans length_append.symm)
        refine ⟨front, removed ++ taken, back', ?_, ?_, left, moved, ring, action⟩
        · simpa only [append_assoc] using earlier.text
        · exact fun none => found (append_eq_nil_iff.mp none).1
      | false =>
        rw [append_assoc] at split
        obtain ⟨rfl, rfl⟩ := append_inj split place
        refine ⟨front', taken ++ removed, back, ?_, ?_, left, moved, ring, action⟩
        · simpa only [append_assoc] using earlier.text
        · exact fun none => found (append_eq_nil_iff.mp none).2

namespace Editor

variable {unicode : Unicode} {provider : Option AutocompleteProvider} {editor after : Editor}
variable {stop : Nat} {front back : Str} {entries : List Str}

theorem killRange_kill {start : Nat} (prepend : Bool) (ordered : start ≤ stop)
    (inside : stop ≤ editor.text.length)
    (placed : editor.cursor = if prepend then stop else start) :
    editor.core.Kill { editor.killRange start stop prepend with cursor := start }.core := by
  unfold killRange
  split
  · rename_i none
    have same : editor.cursor = start := by
      rw [placed, Nat.le_antisymm none ordered, ite_self]
    rw [← same]
    exact .idle
  · rename_i some
    have length : ((editor.text.take stop).drop start).length = stop - start := by
      rw [length_drop, length_take, Nat.min_eq_left inside]
    have front : (editor.text.take start).length = start := by
      rw [length_take, Nat.min_eq_left (Nat.le_trans ordered inside)]
    refine @Core.Kill.killed _ _ (editor.text.take start) _ (editor.text.drop stop) prepend
      ?_ ?_ ?_ rfl front.symm rfl rfl
    · have whole : (editor.text.take stop).take start ++ (editor.text.take stop).drop start ++
          editor.text.drop stop = editor.text := by
        rw [take_append_drop, take_append_drop]
      rw [take_take, Nat.min_eq_left ordered] at whole
      exact whole.symm
    · change editor.cursor = _
      rw [placed, front, length]
      cases prepend with
      | true => exact (Nat.add_sub_cancel' ordered).symm
      | false => rfl
    · intro none
      rw [none] at length
      exact absurd length (by rw [length_nil]; omega)

theorem killForward_kill (behind : editor.cursor ≤ stop) (inside : stop ≤ editor.text.length) :
    editor.core.Kill (editor.killRange editor.cursor stop false).core := by
  have same : { editor.killRange editor.cursor stop false with cursor := editor.cursor } =
      editor.killRange editor.cursor stop false := by
    unfold killRange
    split
    · rfl
    · rw [if_neg (Nat.not_lt.mpr behind), if_neg (Nat.lt_irrefl _)]
  exact same ▸ killRange_kill false behind inside rfl

theorem perform_kill {command : Command} (kills : command.kills = true)
    (placed : editor.cursor ≤ editor.text.length)
    (done : editor.perform unicode provider command = some after) :
    editor.core.Kill after.core := by
  have kill {killed : Editor} (kill : editor.core.Kill killed.core)
      (done : killed.refreshRegularAutocomplete provider = some after) :
      editor.core.Kill after.core := (refresh_core done).symm ▸ kill
  cases command with
  | deleteWordBackward =>
    refine kill ?_ done
    unfold deleteWordBackward
    split
    · exact .idle
    · exact killRange_kill true (findWordBackward_le _ _) placed rfl
  | deleteWordForward =>
    refine kill ?_ done
    unfold deleteWordForward
    split
    · exact .idle
    · exact killForward_kill (findWordForward_bounds placed).1 (findWordForward_bounds placed).2
  | deleteToLineStart =>
    refine kill ?_ done
    unfold deleteToLineStart
    dsimp only
    split
    · exact killRange_kill true (previousGraphemeBoundary_le unicode _ _) placed rfl
    · exact killRange_kill true (currentLineStart_le _ _) placed rfl
  | deleteToLineEnd =>
    refine kill ?_ done
    unfold deleteToLineEnd
    dsimp only
    split
    · have bounds := nextGraphemeBoundary_bounds unicode placed
      exact killForward_kill bounds.1 bounds.2
    · exact killForward_kill (currentLineEnd_bounds placed).1 (currentLineEnd_bounds placed).2
  | _ => cases kills

/-- The text between `front` and `back` was yanked from the ring. -/
structure Yanked (front back : Str) (entries : List Str) (index : Nat) (editor : Editor) : Prop where
  ring : editor.killRing = ⟨entries, index⟩
  text : ∃ entry, entries[index]? = some entry ∧ editor.text = front ++ entry ++ back ∧
    editor.lastYank = some (front.length, front.length + entry.length)
  action : editor.lastAction = some .yank

theorem insert_between {front back : Str} (text : Str) (whole : editor.text = front ++ back)
    (cursor : editor.cursor = front.length) :
    (editor.insertWithoutUndo text).text = front ++ text ++ back := by
  change editor.text.take editor.cursor ++ text ++ editor.text.drop editor.cursor = _
  rw [whole, cursor, take_left, drop_left]

theorem Yanked.pop {index : Nat} (yanked : editor.Yanked front back entries index) :
    editor.yankPop.Yanked front back entries ((index + 1) % entries.length) := by
  obtain ⟨entry, at_index, text, last⟩ := yanked.text
  obtain ⟨inside, _⟩ := List.getElem?_eq_some_iff.mp at_index
  have some : entries ≠ [] := length_pos_iff.mp (Nat.zero_lt_of_lt inside)
  have next := Nat.mod_lt (index + 1) (Nat.zero_lt_of_lt inside)
  have turned : KillRing.yankPop ⟨entries, index⟩ =
      (entries[(index + 1) % entries.length]?, ⟨entries, (index + 1) % entries.length⟩) := by
    unfold KillRing.yankPop
    rw [if_neg some]
    rfl
  unfold yankPop
  rw [if_neg (not_not_intro yanked.action), last]
  dsimp only
  rw [yanked.ring, turned, getElem?_eq_getElem next]
  refine ⟨rfl, ⟨_, getElem?_eq_getElem next, insert_between _ ?_ rfl, rfl⟩, rfl⟩
  change without editor.text _ _ = _
  rw [text, without, append_assoc, take_left, ← append_assoc, ← length_append, drop_left]

theorem Yanked.pops (yanked : editor.Yanked front back entries 0) (count : Nat) :
    (yankPop^[count] editor).Yanked front back entries (count % entries.length) := by
  induction count with
  | zero => rwa [Nat.zero_mod]
  | succ count ih =>
    rw [Function.iterate_succ_apply']
    have next := ih.pop
    rwa [Nat.mod_add_mod] at next

theorem yank_yanked {newest : Str} {older : List Str}
    (ring : editor.killRing = ⟨newest :: older, 0⟩) (text : editor.text = front ++ back)
    (cursor : editor.cursor = front.length) :
    editor.yank.Yanked front back (newest :: older) 0 := by
  unfold yank
  rw [ring]
  refine ⟨ring, ⟨newest, rfl, @insert_between editor.pushUndoSnapshot _ _ newest text cursor, ?_⟩,
    rfl⟩
  rw [← cursor]
  rfl

end Editor

theorem Core.Killed.yanks {begun : Core} {after : Editor} {front removed back : Str}
    (killed : begun.Killed after.core front removed back) (laps : Nat) :
    (Editor.yankPop^[laps * after.killRing.entries.length] after.yank).text = begun.text := by
  have ring : after.killRing = ⟨removed :: begun.killRing.entries, 0⟩ := killed.ring
  obtain ⟨entry, here, text, _⟩ := ((Editor.yank_yanked ring killed.left killed.cursor).pops
    (laps * after.killRing.entries.length)).text
  rw [ring, Nat.mul_mod_left] at here
  cases here
  exact text.trans killed.text.symm

/-- A run of kills begun after anything but a kill leaves what it removed, in the order of the
text, as one new entry before the older ones; a yank, and a yank-pop for each entry after it,
bring the text back. -/
theorem Reachable.kill_run {keybindings : KeybindingsManager} {unicode : Unicode}
    {editor after : Editor} {events : List Event} (reachable : Reachable keybindings unicode editor)
    (fresh : editor.lastAction ≠ some .kill)
    (run : Transition.Run (step keybindings unicode) (KillStep keybindings unicode)
      editor events after)
    (removal : after.text.length < editor.text.length) :
    (∃ front removed back, editor.text = front ++ removed ++ back ∧ after.text = front ++ back ∧
      after.cursor = front.length ∧
      after.killRing.entries = removed :: editor.killRing.entries) ∧
    after.yank.text = editor.text ∧
    (Editor.yankPop^[after.killRing.entries.length] after.yank).text = editor.text := by
  have killed : after.core.Inv ∧ (after.core = editor.core ∨
      ∃ front removed back, editor.core.Killed after.core front removed back) := by
    refine run.invariant (P := fun now => now.core.Inv ∧ (now.core = editor.core ∨
      ∃ front removed back, editor.core.Killed now.core front removed back)) ?_
      ⟨reachable.inv, .inl rfl⟩
    intro event before next so admitted done
    refine ⟨so.1.change (step_change so.1 done), ?_⟩
    cases admitted with
    | inr idle =>
      rw [idle next done]
      exact so.2
    | inl kills =>
      obtain ⟨command, asked, kills⟩ := kills
      obtain ⟨provider, calm, same, done⟩ := step_command so.1.placed asked done
      have placed : calm.core.cursor ≤ calm.core.text.length := same.symm ▸ so.1.placed
      exact Core.Kill.next fresh so.2 (same ▸ Editor.perform_kill kills placed done)
  obtain same | ⟨front, removed, back, killed⟩ := killed.2
  · exact absurd removal (congrArg (fun core => core.text.length) same ▸ Nat.lt_irrefl _)
  · have once := killed.yanks 0
    have round := killed.yanks 1
    rw [Nat.zero_mul] at once
    rw [Nat.one_mul] at round
    exact ⟨⟨front, removed, back, killed.text, killed.left, killed.cursor,
      congrArg KillRing.entries killed.ring⟩, once, round⟩

theorem kill_run_two_words : ∃ after : Editor,
    (∃ front removed back, "a b".toList = front ++ removed ++ back ∧ after.text = front ++ back ∧
      after.cursor = front.length ∧ after.killRing.entries = [removed]) ∧
    after.yank.text = "a b".toList ∧
    (Editor.yankPop^[after.killRing.entries.length] after.yank).text = "a b".toList :=
  ⟨_, @Reachable.kill_run (.only (some .deleteWordBackward)) .plain
    (Editor.new.setText "a b".toList) _ [.press .space, .press .space]
    ⟨[.setText "a b".toList], .next (.done _) trivial rfl⟩ (by decide)
    (.next (.next (.done _) (.inl ⟨.deleteWordBackward, rfl, rfl⟩) rfl)
      (.inl ⟨.deleteWordBackward, rfl, rfl⟩) rfl) (by decide)⟩

/-- A kill after a kill adds to the entry that is there, the run beginning with it or not. -/
theorem kill_after_kill : ¬ ∀ (keybindings : KeybindingsManager) (unicode : Unicode)
    (editor after : Editor) (events : List Event), Reachable keybindings unicode editor →
    Transition.Run (step keybindings unicode) (KillStep keybindings unicode) editor events after →
    after.text.length < editor.text.length →
    ∃ front removed back, editor.text = front ++ removed ++ back ∧ after.text = front ++ back ∧
      after.killRing.entries = removed :: editor.killRing.entries := by
  intro all
  have begun : Transition.follow (step (.only (some .deleteWordBackward)) .plain)
      [.setText "a b".toList, .press .space] .new = some _ := rfl
  obtain ⟨_, removed, _, _, _, ring⟩ := all _ _ _ _ [.press .space]
    ⟨_, .of_follow (fun _ _ _ => trivial) begun⟩
    (.next (.done _) (.inl ⟨.deleteWordBackward, rfl, rfl⟩) rfl) (by decide)
  cases ring

end PiRust.Editing
