import PiRust.EditorInput
import PiRust.PreservedLines

/- The positions that the editor finds in a text: where they are. -/
namespace PiRust.Editing

open List

open EditTool (Str joinLines)

section words

theorem wordBackward_le (reversed : Str) (inWord : Bool) (boundary : Nat) :
    wordBackward reversed inWord boundary ≤ max boundary reversed.length := by
  induction reversed generalizing inWord boundary with
  | nil => exact Nat.le_max_left _ _
  | cons c rest ih =>
    unfold wordBackward
    split
    · split
      · exact Nat.le_max_right _ _
      · have := ih inWord boundary
        simp only [length_cons]
        omega
    · have := ih true rest.length
      simp only [length_cons]
      omega

theorem findWordBackward_le (text : Str) (cursor : Nat) : findWordBackward text cursor ≤ cursor := by
  have bound := wordBackward_le (text.take cursor).reverse false 0
  rw [length_reverse, length_take] at bound
  unfold findWordBackward
  omega

theorem wordForward_bounds (offset : Nat) (rest : Str) (seenWord : Bool) :
    offset ≤ wordForward offset rest seenWord ∧
      wordForward offset rest seenWord ≤ offset + rest.length := by
  induction rest generalizing offset seenWord with
  | nil => exact ⟨Nat.le_refl _, Nat.le_refl _⟩
  | cons c rest ih =>
    unfold wordForward
    have onward := fun seen => ih (offset + 1) seen
    simp only [length_cons]
    split
    · split
      · omega
      · have := onward seenWord
        omega
    · have := onward true
      omega

theorem findWordForward_bounds {text : Str} {cursor : Nat} (placed : cursor ≤ text.length) :
    cursor ≤ findWordForward text cursor ∧ findWordForward text cursor ≤ text.length := by
  have bounds := wordForward_bounds cursor (text.drop cursor) false
  rw [length_drop] at bounds
  unfold findWordForward
  omega

end words

section lines

theorem takeWhile_length_le (keep : Char → Bool) (text : Str) :
    (text.takeWhile keep).length ≤ text.length :=
  ( takeWhile_prefix keep).length_le

theorem currentLineStart_le (text : Str) (cursor : Nat) : currentLineStart text cursor ≤ cursor := by
  unfold currentLineStart
  have := length_take_le cursor text
  exact Nat.le_trans (Nat.sub_le _ _) this

theorem currentLineEnd_bounds {text : Str} {cursor : Nat} (placed : cursor ≤ text.length) :
    cursor ≤ currentLineEnd text cursor ∧ currentLineEnd text cursor ≤ text.length := by
  have bound := takeWhile_length_le (· ≠ '\n') (text.drop cursor)
  rw [length_drop] at bound
  unfold currentLineEnd
  omega

theorem cursorFromLineCol_le (lines : List Str) (row column : Nat) :
    cursorFromLineCol lines row column ≤ (joinLines lines).length := by
  induction lines generalizing row with
  | nil => exact Nat.zero_le _
  | cons line rest ih =>
    have whole : line.length ≤ (joinLines (line :: rest)).length := by
      unfold joinLines
      cases rest with
      | nil => exact Nat.le_of_eq (by simp)
      | cons next rest => simp [intercalate]
    cases row with
    | zero =>
      unfold cursorFromLineCol
      exact Nat.le_trans (Nat.min_le_right _ _) whole
    | succ row =>
      cases rest with
      | nil => exact whole
      | cons next rest =>
        have onward := ih row
        have joined : (joinLines (line :: next :: rest)).length =
            line.length + 1 + (joinLines (next :: rest)).length := by
          simp [joinLines, intercalate]
          omega
        rw [joined]
        exact Nat.add_le_add_left onward _

end lines

section graphemes

variable (unicode : Unicode)

theorem Unicode.graphemes_length (text : Str) :
    ((unicode.graphemes text).map length).sum = text.length := by
  rw [← length_flatten, unicode.flatten]

theorem previousGraphemeBoundary_le (text : Str) (cursor : Nat) :
    previousGraphemeBoundary unicode text cursor ≤ cursor := by
  have whole := unicode.graphemes_length (text.take cursor)
  have := length_take_le cursor text
  unfold previousGraphemeBoundary
  cases eq_nil_or_concat (unicode.graphemes (text.take cursor)) with
  | inl none =>
    rw [none]
    exact Nat.zero_le cursor
  | inr some =>
    obtain ⟨earlier, last, split⟩ := some
    rw [concat_eq_append] at split
    rw [split, map_append, sum_append] at whole
    rw [split, dropLast_concat]
    omega

theorem nextGraphemeBoundary_bounds {text : Str} {cursor : Nat} (placed : cursor ≤ text.length) :
    cursor ≤ nextGraphemeBoundary unicode text cursor ∧
      nextGraphemeBoundary unicode text cursor ≤ text.length := by
  have whole := unicode.graphemes_length (text.drop cursor)
  rw [length_drop] at whole
  unfold nextGraphemeBoundary
  split
  · rename_i first second rest found
    rw [found] at whole
    simp only [map_cons, sum_cons] at whole
    omega
  · exact ⟨placed, Nat.le_refl _⟩

end graphemes

section jumps

variable {text target : Str} {index : Nat}

theorem findText_le (found : findText text target = some index) : index ≤ text.length := by
  obtain ⟨⟨front, back, split, wide⟩, _⟩ := Splice.find_spec found
  rw [Splice.width_one] at wide
  rw [split, length_append, length_append]
  omega

theorem rfindText_le (found : rfindText text target = some index) : index ≤ text.length := by
  have inside := mem_of_find?_eq_some found
  rw [mem_reverse, mem_range] at inside
  exact Nat.le_of_lt_succ inside

end jumps

section rows

variable (unicode : Unicode) (width : Nat)

theorem visualRanges_bounds {behind rest : Str} {skip pos lineStart currentWidth : Nat}
    (begun : lineStart ≤ pos) :
    ∀ line ∈ visualRanges unicode width behind skip rest pos lineStart currentWidth,
      line.start ≤ line.end ∧ line.end ≤ pos + rest.length := by
  induction rest generalizing skip pos lineStart currentWidth with
  | nil =>
    intro line inside
    unfold visualRanges at inside
    rw [mem_singleton.mp inside]
    exact ⟨begun, Nat.le_refl _⟩
  | cons c rest ih =>
    have onward : ∀ {skip lineStart currentWidth : Nat}, lineStart ≤ pos + 1 →
        ∀ line ∈ visualRanges unicode width behind skip rest (pos + 1) lineStart currentWidth,
          line.start ≤ line.end ∧ line.end ≤ pos + (c :: rest).length := by
      intro skip lineStart currentWidth begun line inside
      have bounds := ih begun line inside
      rw [length_cons]
      omega
    intro line inside
    cases skip with
    | succ skip =>
      unfold visualRanges at inside
      exact onward (Nat.le_succ_of_le begun) line inside
    | zero =>
      unfold visualRanges at inside
      split at inside
      · exact onward (Nat.le_succ_of_le begun) line inside
      · dsimp only at inside
        split at inside
        · rename_i full
          cases mem_cons.mp inside with
          | inl first =>
            rw [first]
            exact ⟨Nat.le_of_lt full.2, Nat.le_add_right _ _⟩
          | inr later => exact onward (Nat.le_succ pos) line later
        · exact onward (Nat.le_succ_of_le begun) line inside

theorem visualSources_bounds (sources : List Str) (start : Nat) :
    ∀ line ∈ visualSources unicode width sources start,
      line.start ≤ line.end ∧ line.end ≤ start + sources.flatten.length := by
  induction sources generalizing start with
  | nil => exact forall_mem_nil _
  | cons source rest ih =>
    intro line inside
    have whole : (source :: rest).flatten.length = source.length + rest.flatten.length := by
      rw [flatten_cons, length_append]
    unfold visualSources at inside
    cases mem_append.mp inside with
    | inr later =>
      have := ih (start + source.length) line later
      omega
    | inl here =>
      have shorter : ((if source.getLast? = some '\n' then source.dropLast else source)).length ≤
          source.length := by
        split
        · rw [length_dropLast]
          exact Nat.sub_le _ _
        · exact Nat.le_refl _
      generalize (if source.getLast? = some '\n' then source.dropLast else source) = content
        at here shorter
      unfold pushVisualLineRanges at here
      split at here
      · rw [mem_singleton.mp here]
        exact ⟨Nat.le_refl _, Nat.le_add_right _ _⟩
      · have := visualRanges_bounds unicode width (Nat.le_refl start) line here
        omega

theorem visualLines_bounds (text : Str) :
    ∀ line ∈ visualLines unicode text width, line.start ≤ line.end ∧ line.end ≤ text.length := by
  intro line inside
  cases mem_append.mp inside with
  | inl source =>
    have bounds := visualSources_bounds unicode width _ 0 line source
    rwa [EditTool.splitLinesWithEndings_flatten, Nat.zero_add] at bounds
  | inr last =>
    split at last
    · rw [mem_singleton.mp last]
      exact ⟨Nat.le_refl _, Nat.le_refl _⟩
    · cases last

theorem visibleCol_le (desired : Nat) (behind rest : Str) (skip pos column : Nat) :
    visibleCol unicode desired behind skip rest pos column ≤ pos + rest.length := by
  induction rest generalizing skip pos column with
  | nil => exact Nat.le_refl pos
  | cons c rest ih =>
    have onward : ∀ skip column,
        visibleCol unicode desired behind skip rest (pos + 1) column ≤
          pos + (c :: rest).length := by
      intro skip column
      have := ih skip (pos + 1) column
      rw [length_cons]
      omega
    cases skip with
    | succ skip => exact onward skip column
    | zero =>
      unfold visibleCol
      split
      · exact onward _ _
      · dsimp only
        split
        · exact Nat.le_add_right _ _
        · exact onward _ _

theorem cursorAtVisibleCol_le {text : Str} {line : VisualLine}
    (inside : line ∈ visualLines unicode text width) (desired : Nat) :
    cursorAtVisibleCol unicode text line desired ≤ text.length := by
  have bounds := visualLines_bounds unicode width text line inside
  have found := visibleCol_le unicode desired (text.drop line.end)
    ((text.take line.end).drop line.start) 0 line.start 0
  rw [length_drop, length_take] at found
  unfold cursorAtVisibleCol
  omega

end rows

end PiRust.Editing
