import Mathlib.Tactic
import PiRust.Tui

/- What the strategies of `tui.rs` leave on the terminal. -/
namespace PiRust.Tui

open List

open Scroll (Views Window)

variable {Cell : Type} {painter : Painter Cell}

def Terminal.size (terminal : Terminal Cell) : Nat × Nat := (terminal.columns, terminal.height)

section Rows

variable (painter) in
def paintRow (columns : Nat) (line : String) : List Cell :=
  painter.draw line ++ replicate (columns - painter.visibleWidth line) painter.blank

theorem put_blank (columns : Nat) (line : String) :
    Terminal.put 0 (painter.draw line) (replicate columns painter.blank) =
      paintRow painter columns line := by
  rw [Terminal.put, take_zero, nil_append, Nat.zero_add, drop_replicate]
  rfl

variable {terminal : Terminal Cell}

theorem eachRow_window {ι : Type} {one : ι → Terminal Cell → Terminal Cell}
    {write : ι → List Cell → List Cell} {items : List ι}
    (each : ∀ item (at_start : Terminal Cell), at_start.column = 0 →
      at_start.columns = terminal.columns →
      (one item at_start).window = at_start.window.update (write item) ∧
        (one item at_start).columns = terminal.columns)
    (start : terminal.column = 0) :
    (terminal.eachRow painter one items).window =
        terminal.window.writeEach (terminal.blankRow painter) write items ∧
      (terminal.eachRow painter one items).columns = terminal.columns := by
  have from_here : ∀ at_start : Terminal Cell, at_start.column = 0 →
      at_start.columns = terminal.columns →
      (at_start.eachRow painter one items).window =
          at_start.window.writeEach (terminal.blankRow painter) write items ∧
        (at_start.eachRow painter one items).columns = terminal.columns := by
    induction items with
    | nil => exact fun _ _ same => ⟨rfl, same⟩
    | cons item items ih =>
      intro at_start start same
      obtain ⟨window, columns⟩ := each item at_start start same
      cases items with
      | nil => exact ⟨window, columns⟩
      | cons following items =>
        have down := ih ((one item at_start).newline painter) rfl columns
        have below : ((one item at_start).newline painter).window =
            (at_start.window.update (write item)).next (terminal.blankRow painter) := by
          rw [Terminal.newline, window, Terminal.blankRow, Terminal.blankRow, columns]
        rw [below] at down
        exact down
  exact from_here terminal start rfl

theorem writeLines_window (lines : List String)
    (start : terminal.column = 0) :
    (terminal.eachRow painter (fun line terminal => terminal.write painter line) lines).window =
        terminal.window.writeEach (terminal.blankRow painter)
          (fun line => Terminal.put 0 (painter.draw line)) lines ∧
      (terminal.eachRow painter (fun line terminal => terminal.write painter line) lines).columns =
        terminal.columns := by
  have each : ∀ line (at_start : Terminal Cell), at_start.column = 0 →
      at_start.columns = terminal.columns →
      (at_start.write painter line).window =
          at_start.window.update (Terminal.put 0 (painter.draw line)) ∧
        (at_start.write painter line).columns = terminal.columns := by
    intro line at_start start same
    refine ⟨?_, same⟩
    rw [Terminal.write, start]
  exact eachRow_window each start

theorem writeLines_size (lines : List String)
    (start : terminal.column = 0) :
    (terminal.eachRow painter (fun line terminal => terminal.write painter line) lines).size =
      terminal.size := by
  obtain ⟨window, columns⟩ := @writeLines_window _ painter terminal lines start
  refine Prod.ext columns ?_
  change (terminal.eachRow painter _ lines).window.rows.length = terminal.window.rows.length
  rw [window, Window.writeEach_height]

theorem paints_lines (terminal : Terminal Cell) (lines : List String) (blanks : Nat) :
    Views.Paints (terminal.blankRow painter) (fun line => Terminal.put 0 (painter.draw line))
      (paintRow painter terminal.columns) lines
      (replicate blanks (terminal.blankRow painter)) := by
  intro line _ old old_is
  rw [old_is.elim id eq_of_mem_replicate]
  exact put_blank _ _

def rewritten (painter : Painter Cell) (columns : Nat) : Option String → List Cell
  | some line => paintRow painter columns line
  | none => replicate columns painter.blank

theorem rewriteRows_window (items : List (Option String))
    (start : terminal.column = 0) :
    (terminal.eachRow painter (Terminal.rewriteRow painter) items).window =
        terminal.window.writeEach (terminal.blankRow painter)
          (fun item _ => rewritten painter terminal.columns item) items ∧
      (terminal.eachRow painter (Terminal.rewriteRow painter) items).columns =
        terminal.columns := by
  have each : ∀ item (at_start : Terminal Cell), at_start.column = 0 →
      at_start.columns = terminal.columns →
      (Terminal.rewriteRow painter item at_start).window =
          at_start.window.update (fun _ => rewritten painter terminal.columns item) ∧
        (Terminal.rewriteRow painter item at_start).columns = terminal.columns := by
    intro item at_start _ same
    cases item with
    | none =>
      refine ⟨?_, same⟩
      rw [← same]
      rfl
    | some line =>
      refine ⟨?_, same⟩
      have updated : (at_start.window.update fun _ => at_start.blankRow painter).update
          (Terminal.put 0 (painter.draw line)) =
            at_start.window.update (Terminal.put 0 (painter.draw line) ∘
              fun _ => at_start.blankRow painter) := Window.update_update _ _ _
      rw [rewritten, ← put_blank, ← same]
      exact updated
  exact eachRow_window each start

end Rows

section Moves

theorem relativeRow_sub {a b top : Nat} (first : a - top < 2 ^ 15) (second : b - top < 2 ^ 15) :
    (relativeRow a top - relativeRow b top).toInt = ((a - top : Nat) : Int) - (b - top : Nat) := by
  rw [Int16.toInt_sub, relativeRow, relativeRow, Int16.toInt_ofNat_of_lt first,
    Int16.toInt_ofNat_of_lt second]
  apply Int.bmod_eq_of_le <;> omega

theorem moveToLogicalRow_row {tui : Tui Cell} {base targetRow : Nat}
    (short : tui.terminal.height ≤ 2 ^ 15)
    (row : tui.terminal.window.row = base + (tui.hardwareCursorRow - tui.previousViewportTop))
    (inside : base + (targetRow - tui.previousViewportTop) < tui.terminal.height) :
    (tui.moveToLogicalRow targetRow).terminal.window.row =
      base + (targetRow - tui.previousViewportTop) := by
  have at_cursor : tui.terminal.window.row < tui.terminal.height := tui.terminal.window.inside
  have offset := @relativeRow_sub targetRow tui.hardwareCursorRow tui.previousViewportTop
    (by omega) (by omega)
  apply Window.moveBy_row _ inside
  rw [offset, row]
  omega

end Moves

section Changes

variable {previous next : List String}

theorem differingRows_succ (shared : Nat) : differingRows previous next (shared + 1) =
    if previous[shared]? = next[shared]? then differingRows previous next shared
    else ((differingRows previous next shared).1.or (some shared), some shared) := by
  rw [differingRows, range_succ, foldl_append]
  rfl

theorem differingRows_spec (shared : Nat) :
    (differingRows previous next shared = (none, none) ∧ ∀ i < shared, previous[i]? = next[i]?) ∨
    ∃ first last, differingRows previous next shared = (some first, some last) ∧ first ≤ last ∧
      last < shared ∧ (∀ i < first, previous[i]? = next[i]?) ∧
      ∀ i, last < i → i < shared → previous[i]? = next[i]? := by
  induction shared with
  | zero => exact .inl ⟨rfl, fun i below => absurd below (Nat.not_lt_zero i)⟩
  | succ shared ih =>
    rw [differingRows_succ]
    by_cases same : previous[shared]? = next[shared]?
    · rw [if_pos same]
      rcases ih with ⟨found, agree⟩ | ⟨first, last, found, order, bound, before, after⟩
      · refine .inl ⟨found, fun i below => ?_⟩
        rcases Nat.lt_succ_iff_lt_or_eq.mp below with earlier | rfl
        · exact agree i earlier
        · exact same
      · refine .inr ⟨first, last, found, order, by omega, before, fun i above below => ?_⟩
        rcases Nat.lt_succ_iff_lt_or_eq.mp below with earlier | rfl
        · exact after i above earlier
        · exact same
    · rw [if_neg same]
      rcases ih with ⟨found, agree⟩ | ⟨first, last, found, order, bound, before, after⟩
      · rw [found]
        exact .inr ⟨shared, shared, rfl, Nat.le_refl _, Nat.lt_succ_self _, agree,
          fun i above below => by omega⟩
      · rw [found]
        exact .inr ⟨first, shared, rfl, by omega, Nat.lt_succ_self _, before,
          fun i above below => by omega⟩

/-- The range of rows outside of which two frames agree. -/
structure Changed (previous next : List String) (first last : Nat) : Prop where
  before : previous.take first = next.take first
  inside : first ≤ previous.length ∧ first ≤ next.length
  rest : (previous.length = next.length ∧ first ≤ last ∧ last < previous.length ∧
      previous.drop (last + 1) = next.drop (last + 1)) ∨
    (previous.length ≠ next.length ∧ last = max previous.length next.length - 1)

theorem take_eq_of_agree {first : Nat} (agree : ∀ i < first, previous[i]? = next[i]?) :
    previous.take first = next.take first := by
  apply ext_getElem?
  intro i
  by_cases below : i < first
  · rw [getElem?_take_of_lt below, getElem?_take_of_lt below, agree i below]
  · rw [getElem?_eq_none (by rw [length_take]; omega),
      getElem?_eq_none (by rw [length_take]; omega)]

theorem changedLineRange_some {first last : Nat}
    (changed : changedLineRange previous next = some (first, last)) :
    Changed previous next first last := by
  unfold changedLineRange at changed
  dsimp only at changed
  rcases @differingRows_spec previous next (min previous.length next.length) with
    ⟨found, agree⟩ | ⟨low, high, found, order, bound, before, after⟩
  · rw [found] at changed
    split at changed
    · rename_i other
      cases changed
      refine ⟨take_eq_of_agree agree, ?_, .inr ⟨other, rfl⟩⟩
      change min previous.length next.length ≤ _ ∧ min previous.length next.length ≤ _
      omega
    · cases changed
  · rw [found] at changed
    split at changed
    · rename_i other
      cases changed
      refine ⟨take_eq_of_agree before, ?_, .inr ⟨other, rfl⟩⟩
      change low ≤ _ ∧ low ≤ _
      omega
    · rename_i same
      have length : previous.length = next.length := of_not_not same
      cases changed
      refine ⟨take_eq_of_agree before, by omega, .inl ⟨length, order, ?_, ?_⟩⟩
      · change high < previous.length
        omega
      · apply ext_getElem?
        intro i
        change (previous.drop (high + 1))[i]? = (next.drop (high + 1))[i]?
        rw [getElem?_drop, getElem?_drop]
        by_cases below : high + 1 + i < min previous.length next.length
        · exact after _ (by omega) below
        · rw [getElem?_eq_none (by omega), getElem?_eq_none (by omega)]

theorem changedLineRange_none (same : changedLineRange previous next = none) : previous = next := by
  unfold changedLineRange at same
  dsimp only at same
  split at same
  · cases same
  · rename_i equal
    have length : previous.length = next.length := of_not_not equal
    rcases @differingRows_spec previous next (min previous.length next.length) with
      ⟨found, agree⟩ | ⟨low, high, found, _⟩
    · apply ext_getElem?
      intro i
      by_cases below : i < min previous.length next.length
      · exact agree i below
      · rw [getElem?_eq_none (by omega), getElem?_eq_none (by omega)]
    · rw [found] at same
      cases same

end Changes

section Frames

/-- The lines of a frame that are seen stand under `above`, with blank rows below them,
and the cursor is in the row that it is recorded in. -/
structure Framed (painter : Painter Cell) (terminal : Terminal Cell) (lines : List String)
    (above : List (List Cell)) (cursorRow : Nat) : Prop where
  rows : ∃ blanks, terminal.window.rows = above ++
    ((lines.drop (viewportTop lines.length terminal.height)).map
        (paintRow painter terminal.columns) ++
      replicate blanks (terminal.blankRow painter))
  row : terminal.window.row = above.length + (cursorRow - viewportTop lines.length terminal.height)
  below : viewportTop lines.length terminal.height ≤ cursorRow

theorem framed_of_views {terminal : Terminal Cell} {lines : List String}
    {above : List (List Cell)} {first blanks cursorRow : Nat}
    (views : Views terminal.window
      (above ++ (lines.drop first).map (paintRow painter terminal.columns) ++
        replicate blanks (terminal.blankRow painter))
      (above.length + (cursorRow - first)))
    (from_first : first ≤ cursorRow)
    (top : viewportTop lines.length terminal.height = first +
      (above.length + (lines.length - first) + blanks - terminal.height - above.length)) :
    ∃ kept, kept <:+ above ∧ Framed painter terminal lines kept cursorRow := by
  have height : terminal.window.rows.length = terminal.height := rfl
  obtain ⟨row, rows⟩ := views.block rfl
  rw [length_map, length_drop, height] at row rows
  generalize gone_is : above.length + (lines.length - first) + blanks - terminal.height = gone
    at row rows top
  refine ⟨above.drop gone, drop_suffix gone above, ⟨?_, ?_, ?_⟩⟩
  · rw [← map_drop, drop_drop, ← top] at rows
    exact ⟨_, rows⟩
  · rw [length_drop, top]
    omega
  · rw [top]
    omega

end Frames

section Writes

variable {tui : Tui Cell} {above rest : List (List Cell)}

theorem blankRow_eq {terminal other : Terminal Cell} (same : terminal.columns = other.columns) :
    terminal.blankRow painter = other.blankRow painter := by
  rw [Terminal.blankRow, Terminal.blankRow, same]

theorem rewritten_rows (columns : Nat) {lines : List String} {count : Nat}
    (fits : lines.length ≤ count) :
    ((range count).map fun offset => lines[offset]?).map (rewritten painter columns) =
      lines.map (paintRow painter columns) ++
        replicate (count - lines.length) (replicate columns painter.blank) := by
  apply ext_getElem?
  intro i
  rw [getElem?_map, getElem?_map]
  by_cases line : i < lines.length
  · rw [getElem?_append_left (by rwa [length_map]), getElem?_map,
      getElem?_range (by omega), getElem?_eq_getElem line]
    simp only [Option.map_some, getElem?_eq_getElem line]
    rfl
  · rw [getElem?_append_right (by rw [length_map]; omega), length_map]
    by_cases below : i < count
    · rw [getElem?_range below, getElem?_replicate, if_pos (by omega)]
      simp only [Option.map_some, getElem?_eq_none (Nat.le_of_not_lt line)]
      rfl
    · rw [getElem?_eq_none (by rw [length_range]; omega), getElem?_replicate,
        if_neg (by omega)]
      rfl

theorem rewriteRows_views (rows : tui.terminal.window.rows = above ++ rest)
    (row : tui.terminal.window.row = above.length) (column : tui.terminal.column = 0)
    {lines : List String} {count : Nat} (startRow : Nat) (some_row : 0 < count)
    (fits : lines.length ≤ count) :
    Views (tui.rewriteRows painter startRow lines count).terminal.window
        (above ++ (lines.map (paintRow painter tui.terminal.columns) ++
          replicate (count - lines.length) (tui.terminal.blankRow painter)) ++
            rest.drop count) (above.length + count - 1) ∧
      (tui.rewriteRows painter startRow lines count).hardwareCursorRow = startRow + count - 1 ∧
      (tui.rewriteRows painter startRow lines count).terminal.size = tui.terminal.size := by
  unfold rewriteRows
  rw [if_neg (Nat.ne_of_gt some_row)]
  obtain ⟨window, columns⟩ := @rewriteRows_window _ painter tui.terminal
    ((range count).map fun offset => lines[offset]?) column
  have filled : ((range count).map fun offset => lines[offset]?) ≠ [] := by
    rw [Ne, map_eq_nil_iff, range_eq_nil]
    omega
  have paints : Views.Paints (tui.terminal.blankRow painter)
      (fun item _ => rewritten painter tui.terminal.columns item)
      (rewritten painter tui.terminal.columns)
      ((range count).map fun offset => lines[offset]?) rest :=
    fun _ _ _ _ => rfl
  have views := Views.writeEach filled rows row paints
  rw [← window, rewritten_rows _ fits, length_map, length_range] at views
  refine ⟨views, rfl, ?_⟩
  rw [Terminal.size, Terminal.size, Terminal.height, Terminal.height]
  refine Prod.ext columns ?_
  change (tui.terminal.eachRow painter (Terminal.rewriteRow painter) _).window.rows.length = _
  rw [window, Window.writeEach_height]

end Writes

section Renders

/-- The terminal shows the lines of the last frame. -/
structure Synced (painter : Painter Cell) (tui : Tui Cell) (above : List (List Cell)) : Prop where
  framed : Framed painter tui.terminal tui.previousLines above tui.hardwareCursorRow
  top : tui.previousViewportTop = viewportTop tui.previousLines.length tui.terminal.height
  owned : tui.ownedRows = min tui.previousLines.length tui.terminal.height
  rendered : tui.renderedOnce = true

/-- The terminal shows the new lines. -/
structure Rendered (painter : Painter Cell) (tui after : Tui Cell) (lines : List String)
    (above : List (List Cell)) : Prop where
  size : after.terminal.size = tui.terminal.size
  framed : ∃ kept, kept <:+ above ∧ Framed painter after.terminal lines kept after.hardwareCursorRow

theorem rendered_of_views {tui after : Tui Cell} {lines : List String}
    {above : List (List Cell)} {first blanks cursorRow : Nat}
    (size : after.terminal.size = tui.terminal.size)
    (cursor_row : after.hardwareCursorRow = cursorRow)
    (views : Views after.terminal.window
      (above ++ (lines.drop first).map (paintRow painter tui.terminal.columns) ++
        replicate blanks (tui.terminal.blankRow painter))
      (above.length + (cursorRow - first)))
    (from_first : first ≤ cursorRow)
    (top : viewportTop lines.length tui.terminal.height = first +
      (above.length + (lines.length - first) + blanks - tui.terminal.height - above.length)) :
    Rendered painter tui after lines above := by
  obtain ⟨columns, height⟩ := Prod.ext_iff.mp size
  change after.terminal.columns = tui.terminal.columns at columns
  change after.terminal.height = tui.terminal.height at height
  rw [← height] at top
  rw [← columns, ← blankRow_eq columns] at views
  rw [← cursor_row] at views from_first
  exact ⟨size, framed_of_views views from_first top⟩

theorem drop_blanks {α : Type} {shown : List α} {count blanks : Nat} {blank : α}
    (covered : shown.length ≤ count) :
    (shown ++ replicate blanks blank).drop count =
      replicate (blanks - (count - shown.length)) blank := by
  rw [drop_append, drop_eq_nil_of_le covered, drop_replicate, nil_append]

variable {tui : Tui Cell} {above : List (List Cell)} {lines : List String}

theorem length_seen (lines : List String) (columns height : Nat) :
    ((lines.drop (viewportTop lines.length height)).map (paintRow painter columns)).length =
      min lines.length height := by
  rw [length_map, length_drop, viewportTop]
  omega

theorem length_rows {blanks : Nat} (rows : tui.terminal.window.rows = above ++
    ((lines.drop (viewportTop lines.length tui.terminal.height)).map
        (paintRow painter tui.terminal.columns) ++
      replicate blanks (tui.terminal.blankRow painter))) :
    above.length + (min lines.length tui.terminal.height + blanks) = tui.terminal.height := by
  have sizes := congrArg length rows
  rw [length_append, length_append, length_seen, length_replicate] at sizes
  exact sizes.symm

theorem Synced.row (synced : Synced painter tui above) : tui.terminal.window.row =
    above.length + (tui.hardwareCursorRow - tui.previousViewportTop) := by
  rw [synced.top]
  exact synced.framed.row

theorem redraw_fits {height kept count blanks old seen : Nat}
    (total : kept + (old + blanks) = height) (within : seen ≤ height)
    (counted : max old seen = count) :
    kept + seen + (count - seen + (blanks - (count - old))) ≤ height + kept := by
  omega

theorem last_of_count (kept top : Nat) {count : Nat} (rows : 0 < count) :
    kept + count - 1 = kept + (top + count - 1 - top) := by
  omega

theorem renderFullInline_rendered (synced : Synced painter tui above)
    (short : tui.terminal.height ≤ 2 ^ 15) :
    Rendered painter tui (renderFullInline painter lines tui.terminal.height tui) lines above := by
  obtain ⟨blanks, rows⟩ := synced.framed.rows
  have total := length_rows rows
  have here := synced.row
  have inside : above.length < tui.terminal.height := by
    have cursor : tui.terminal.window.row < tui.terminal.height := tui.terminal.window.inside
    rw [here] at cursor
    exact Nat.lt_of_le_of_lt (Nat.le_add_right _ _) cursor
  have seen : (lines.drop (viewportTop lines.length tui.terminal.height)).length =
      min lines.length tui.terminal.height := by
    rw [length_drop, viewportTop]
    omega
  unfold renderFullInline
  dsimp only
  rw [if_pos synced.rendered]
  generalize counted : min (max tui.ownedRows
    (lines.drop (viewportTop lines.length tui.terminal.height)).length) tui.terminal.height = count
  rw [synced.owned, seen, Nat.min_eq_left (Nat.max_le.mpr
    ⟨Nat.min_le_right _ _, Nat.min_le_right _ _⟩)] at counted
  have old_rows : min tui.previousLines.length tui.terminal.height ≤ count :=
    counted ▸ Nat.le_max_left _ _
  have new_rows : min lines.length tui.terminal.height ≤ count := counted ▸ Nat.le_max_right _ _
  split
  · rename_i some_row
    let hidden : Tui Cell :=
      { tui with terminal := tui.terminal.hideCursor, hardwareCursorVisible := false }
    let at_top := (hidden.moveToLogicalRow hidden.previousViewportTop).toColumnZero
    have row : at_top.terminal.window.row = above.length := by
      have moved := @moveToLogicalRow_row _ hidden above.length hidden.previousViewportTop short
        here (by rw [Nat.sub_self]; exact inside)
      rwa [Nat.sub_self, Nat.add_zero] at moved
    obtain ⟨views, cursor_row, size⟩ := @rewriteRows_views _ painter at_top above _ rows row rfl
      (lines.drop (viewportTop lines.length tui.terminal.height)) count
      (viewportTop lines.length tui.terminal.height) some_row (by rw [seen]; exact new_rows)
    have shown := @length_seen _ painter tui.previousLines tui.terminal.columns tui.terminal.height
    have blank : at_top.terminal.blankRow painter = tui.terminal.blankRow painter := rfl
    rw [drop_blanks (by rw [shown]; exact old_rows), shown, seen, blank, ← append_assoc above,
      append_assoc, replicate_append_replicate,
      last_of_count _ (viewportTop lines.length tui.terminal.height) some_row] at views
    have first : viewportTop lines.length tui.terminal.height ≤
        viewportTop lines.length tui.terminal.height + count - 1 :=
      Nat.le_sub_of_add_le (Nat.add_le_add_left some_row _)
    have visible : lines.length - viewportTop lines.length tui.terminal.height =
        min lines.length tui.terminal.height := by
      rw [← length_drop, seen]
    have fits := redraw_fits total (Nat.min_le_right lines.length _) counted
    rw [← visible] at fits views
    refine @rendered_of_views _ painter tui _ lines above _ _ _ size cursor_row views first ?_
    rw [Nat.sub_sub, Nat.sub_eq_zero_of_le fits, Nat.add_zero]
  · rename_i no_row
    have none : count = 0 := Nat.eq_zero_of_not_pos no_row
    rw [none] at old_rows new_rows
    have none_before : tui.previousLines = [] := length_eq_zero_iff.mp (by omega)
    have none_now : lines = [] := length_eq_zero_iff.mp (by omega)
    have framed := synced.framed
    rw [none_before, ← none_now] at framed
    exact ⟨rfl, above, suffix_refl above, ⟨framed.rows, framed.row, framed.below⟩⟩

theorem drop_split (lines : List String) {top first : Nat} (order : top ≤ first) :
    (lines.drop top).take (first - top) ++ lines.drop first = lines.drop top := by
  have rest : lines.drop first = (lines.drop top).drop (first - top) := by
    rw [drop_drop]
    congr 1
    omega
  rw [rest, take_append_drop]

variable {previous next : List String}

theorem Changed.kept {first last : Nat}
    (changed : Changed previous next first last) (top : Nat) :
    (previous.drop top).take (first - top) = (next.drop top).take (first - top) := by
  rw [← drop_take, ← drop_take, changed.before]

theorem Changed.counts {first last written cleared : Nat}
    (changed : Changed previous next first last)
    (writes : written = if first < next.length then
      min last (next.length - 1) - first + 1 else 0)
    (clears : cleared = if first < previous.length then
      min last (previous.length - 1) - first + 1 else 0) :
    (written = last + 1 - first ∧ cleared = last + 1 - first ∧
        previous.length = next.length ∧ first ≤ last ∧ last < previous.length ∧
        previous.drop (last + 1) = next.drop (last + 1)) ∨
      (written = next.length - first ∧ cleared = previous.length - first) := by
  obtain ⟨in_previous, in_next⟩ := changed.inside
  rcases changed.rest with ⟨length, order, within, after⟩ | ⟨other, to_end⟩
  · rw [if_pos (by omega)] at writes clears
    exact .inl ⟨by omega, by omega, length, order, within, after⟩
  · refine .inr ⟨?_, ?_⟩
    · split at writes <;> omega
    · split at clears <;> omega

theorem Changed.bounds {first last written cleared count : Nat}
    (changed : Changed previous next first last)
    (writes : written = if first < next.length then
      min last (next.length - 1) - first + 1 else 0)
    (clears : cleared = if first < previous.length then
      min last (previous.length - 1) - first + 1 else 0)
    (counts : max written cleared = count) :
    count ≤ max previous.length next.length - first := by
  rcases changed.counts writes clears with ⟨rows, old_rows, length, _, within, _⟩ | ⟨rows, old_rows⟩
  · clear writes clears
    omega
  · rw [rows, old_rows] at counts
    clear writes clears
    omega

theorem Changed.rewrites {first last top written cleared count : Nat}
    (changed : Changed previous next first last) (seen : top ≤ first)
    (writes : written = if first < next.length then
      min last (next.length - 1) - first + 1 else 0)
    (clears : cleared = if first < previous.length then
      min last (previous.length - 1) - first + 1 else 0)
    (counts : count = max written cleared) {α : Type} (paint : String → α) (above : List α)
    (blank : α) (blanks : Nat) :
    ∃ left, above ++ ((previous.drop top).map paint).take (first - top) ++
        (((next.drop first).take written).map paint ++
          replicate (count - ((next.drop first).take written).length) blank) ++
        (((previous.drop top).map paint).drop (first - top) ++
          replicate blanks blank).drop count =
      above ++ (next.drop top).map paint ++ replicate left blank ∧
      next.length - first + left = max count (previous.length - first + blanks) := by
  obtain ⟨in_previous, in_next⟩ := changed.inside
  have old : ((previous.drop top).map paint).drop (first - top) = (previous.drop first).map paint := by
    rw [← map_drop, drop_drop]
    congr 2
    omega
  have kept : ((previous.drop top).map paint).take (first - top) =
      ((next.drop top).take (first - top)).map paint := by
    rw [← map_take, changed.kept top]
  rw [old, kept, length_take, length_drop]
  rcases changed.counts writes clears with ⟨rows, old_rows, length, order, within, after⟩ | range
  · have range : count = written ∧ written = last + 1 - first := ⟨by omega, rows⟩
    refine ⟨blanks, ?_, by omega⟩
    have below : ((previous.drop first).map paint ++ replicate blanks blank).drop count =
        (next.drop (first + written)).map paint ++ replicate blanks blank := by
      have rest : first + written = last + 1 := by omega
      rw [drop_append_of_le_length (by rw [length_map, length_drop]; omega),
        ← map_drop, drop_drop, range.1, rest, after]
    have middle : (next.drop first).take written ++ next.drop (first + written) =
        next.drop first := by
      rw [← drop_drop, take_append_drop]
    have nothing : count - min written (next.length - first) = 0 := by omega
    have whole : (next.drop top).map paint = ((next.drop top).take (first - top)).map paint ++
        (((next.drop first).take written).map paint ++
          (next.drop (first + written)).map paint) := by
      rw [← map_append, middle, ← map_append, drop_split next seen]
    rw [below, nothing, replicate_zero, append_nil, whole]
    simp only [append_assoc]
  · refine ⟨count - (next.length - first) + (blanks - (count - (previous.length - first))), ?_,
      by omega⟩
    have all : (next.drop first).take written = next.drop first := by
      apply take_of_length_le
      rw [length_drop]
      omega
    have below : ((previous.drop first).map paint ++ replicate blanks blank).drop count =
        replicate (blanks - (count - (previous.length - first))) blank := by
      rw [drop_blanks (by rw [length_map, length_drop]; omega), length_map, length_drop]
    have most : min written (next.length - first) = next.length - first := by omega
    have whole : (next.drop top).map paint =
        ((next.drop top).take (first - top)).map paint ++ (next.drop first).map paint := by
      rw [← map_append, drop_split next seen]
    rw [below, all, most, ← replicate_append_replicate, whole]
    simp

theorem append_fits {height kept before after blanks top : Nat} (top_is : top = before - height)
    (total : kept + (min before height + blanks) = height) (some_line : 0 < before)
    (more : before < after) (high : 0 < height) :
    top < before ∧ kept + (before - 1 - top) < height ∧
      after - height =
        top + (kept + (after - top) + (blanks - (after - before)) - height - kept) := by
  have under : top < before := by omega
  have rows : min before height = before - top := by omega
  rw [rows] at total
  refine ⟨under, by omega, ?_⟩
  clear rows
  omega

/-- New lines below those of the last frame go into the rows below the cursor. -/
theorem append_rendered (synced : Synced painter tui above)
    (short : tui.terminal.height ≤ 2 ^ 15) (more : tui.previousLines.length < lines.length)
    (some_line : 0 < tui.previousLines.length)
    (same : tui.previousLines = lines.take tui.previousLines.length) :
    let moved := (tui.moveToLogicalRow (tui.previousLines.length - 1)).toColumnZero
    Rendered painter tui
      (({ moved with terminal := moved.terminal.newline painter }.writeLines painter
        (lines.drop tui.previousLines.length)).afterLines painter lines) lines above := by
  intro moved
  obtain ⟨blanks, rows⟩ := synced.framed.rows
  have high : 0 < tui.terminal.height := Nat.zero_lt_of_lt tui.terminal.window.inside
  obtain ⟨under, on_screen, bottom⟩ := append_fits synced.top (length_rows rows) some_line more high
  rw [← synced.top] at rows
  have shown : ((tui.previousLines.drop tui.previousViewportTop).map
      (paintRow painter tui.terminal.columns)).length =
        tui.previousLines.length - tui.previousViewportTop := by
    rw [length_map, length_drop]
  have row := @moveToLogicalRow_row _ tui above.length (tui.previousLines.length - 1) short
    synced.row on_screen
  rcases eq_nil_or_concat ((tui.previousLines.drop tui.previousViewportTop).map
    (paintRow painter tui.terminal.columns)) with empty | ⟨upper, last, split⟩
  · rw [empty] at shown
    change 0 = _ at shown
    omega
  · rw [concat_eq_append] at split
    rw [split, length_append, length_singleton] at shown
    have placed : moved.terminal.window.rows =
        (above ++ upper) ++ last :: replicate blanks (tui.terminal.blankRow painter) := by
      change tui.terminal.window.rows = _
      rw [rows, split]
      simp
    have at_last : moved.terminal.window.row = (above ++ upper).length := by
      rw [length_append]
      refine row.trans ?_
      omega
    have filled : lines.drop tui.previousLines.length ≠ [] := by
      rw [Ne, drop_eq_nil_iff]
      omega
    have views := Views.writeEach_next filled (Views.writeEach filled) placed at_last
      (paints_lines tui.terminal _ blanks)
    have written := (@writeLines_window _ painter (moved.terminal.newline painter)
      (lines.drop tui.previousLines.length) rfl).1
    change _ = ((moved.terminal.window.next (tui.terminal.blankRow painter)).writeEach
      (tui.terminal.blankRow painter) _ _) at written
    have tape : above ++ upper ++ last :: (lines.drop tui.previousLines.length).map
          (paintRow painter tui.terminal.columns) ++
        (replicate blanks (tui.terminal.blankRow painter)).drop
          (lines.drop tui.previousLines.length).length =
        above ++ (lines.drop tui.previousViewportTop).map (paintRow painter tui.terminal.columns) ++
          replicate (blanks - (lines.length - tui.previousLines.length))
            (tui.terminal.blankRow painter) := by
      have whole := drop_split lines (by omega : tui.previousViewportTop ≤ tui.previousLines.length)
      rw [← drop_take, ← same] at whole
      rw [← whole, map_append, split, drop_replicate, length_drop]
      simp
    have place : (above ++ upper).length + (lines.drop tui.previousLines.length).length =
        above.length + (lines.length - 1 - tui.previousViewportTop) := by
      rw [length_append, length_drop]
      omega
    rw [tape, place, ← written] at views
    have size : (moved.terminal.newline painter).size = tui.terminal.size :=
      Prod.ext rfl (Window.next_height _ _)
    exact @rendered_of_views _ painter tui _ lines above _ _ (lines.length - 1)
      ((writeLines_size _ rfl).trans size) rfl views (by omega) bottom

theorem rewrite_scrolls {height before after above blanks first count left top : Nat}
    (top_is : top = before - height) (total : above + (min before height + blanks) = height)
    (lengths : after - first + left = max count (before - first + blanks))
    (inside : first ≤ before ∧ first ≤ after) (seen : top ≤ first)
    (steady : before ≤ after ∨ before ≤ height) (bound : count ≤ max before after - first) :
    after - height = top + (above + (after - top) + left - height - above) := by
  have ends : left = 0 ∨ after + left = before + blanks := by
    clear total steady top_is seen
    rcases Nat.le_total before after with more | fewer
    · rw [Nat.max_eq_right more] at bound
      omega
    · rw [Nat.max_eq_left fewer] at bound
      omega
  clear lengths bound
  rcases Nat.lt_or_ge height before with large | small
  · rw [Nat.min_eq_right (Nat.le_of_lt large)] at total
    omega
  · rw [Nat.min_eq_left small] at total
    have none : top = 0 := top_is.trans (Nat.sub_eq_zero_of_le small)
    rw [none]
    omega

theorem rewrite_starts {height kept before blanks first top row : Nat}
    (top_is : top = before - height) (total : kept + (min before height + blanks) = height)
    (here : kept + row < height) (onward : first < before ∨ first = 0) :
    kept + (first - top) < height := by
  omega

theorem rewrite_rendered (synced : Synced painter tui above)
    (short : tui.terminal.height ≤ 2 ^ 15) {first last written cleared : Nat}
    (changed : Changed tui.previousLines lines first last)
    (seen : tui.previousViewportTop ≤ first)
    (steady : tui.previousLines.length ≤ lines.length ∨
      tui.previousLines.length ≤ tui.terminal.height)
    (onward : first < tui.previousLines.length ∨ first = 0)
    (writes : written = if first < lines.length then
      min last (lines.length - 1) - first + 1 else 0)
    (clears : cleared = if first < tui.previousLines.length then
      min last (tui.previousLines.length - 1) - first + 1 else 0)
    (some_row : 0 < max written cleared) :
    Rendered painter tui ((tui.moveToLogicalRow first).toColumnZero.rewriteRows painter first
      ((lines.drop first).take written) (max written cleared)) lines above := by
  obtain ⟨blanks, rows⟩ := synced.framed.rows
  have inside : tui.terminal.window.row < tui.terminal.height := tui.terminal.window.inside
  rw [synced.row] at inside
  have total := length_rows rows
  have top := synced.top
  rw [← synced.top] at rows
  rw [viewportTop] at top
  generalize counts : max written cleared = count at some_row ⊢
  have row := @moveToLogicalRow_row _ tui above.length first short synced.row
    (rewrite_starts top total inside onward)
  let moved := (tui.moveToLogicalRow first).toColumnZero
  have shown : ((tui.previousLines.drop tui.previousViewportTop).map
      (paintRow painter tui.terminal.columns)).length =
        tui.previousLines.length - tui.previousViewportTop := by
    rw [length_map, length_drop]
  have depth : min (first - tui.previousViewportTop)
      (tui.previousLines.length - tui.previousViewportTop) = first - tui.previousViewportTop :=
    Nat.min_eq_left (Nat.sub_le_sub_right changed.inside.1 _)
  have placed : moved.terminal.window.rows =
      (above ++ ((tui.previousLines.drop tui.previousViewportTop).map
        (paintRow painter tui.terminal.columns)).take (first - tui.previousViewportTop)) ++
      (((tui.previousLines.drop tui.previousViewportTop).map
        (paintRow painter tui.terminal.columns)).drop (first - tui.previousViewportTop) ++
          replicate blanks (tui.terminal.blankRow painter)) := by
    refine Eq.trans rows ?_
    rw [append_assoc, ← append_assoc (take _ _), take_append_drop]
  have at_first : moved.terminal.window.row = (above ++
      ((tui.previousLines.drop tui.previousViewportTop).map
        (paintRow painter tui.terminal.columns)).take
          (first - tui.previousViewportTop)).length := by
    rw [length_append, length_take, shown, depth]
    exact row
  obtain ⟨views, cursor_row, size⟩ := @rewriteRows_views _ painter moved _ _ placed at_first rfl
    ((lines.drop first).take written) count first some_row
    (Nat.le_trans (length_take_le _ _) (counts ▸ Nat.le_max_left _ _))
  obtain ⟨left, tape, lengths⟩ := changed.rewrites seen writes clears counts.symm
    (paintRow painter tui.terminal.columns) above (tui.terminal.blankRow painter) blanks
  have place : (above ++ ((tui.previousLines.drop tui.previousViewportTop).map
      (paintRow painter tui.terminal.columns)).take
        (first - tui.previousViewportTop)).length + count - 1 =
      above.length + (first + count - 1 - tui.previousViewportTop) := by
    rw [length_append, length_take, shown, depth, Nat.add_assoc,
      ← Nat.sub_add_comm seen, Nat.add_sub_assoc (by omega), Nat.sub_right_comm]
  rw [place] at views
  have framed : Views (moved.rewriteRows painter first ((lines.drop first).take written)
      count).terminal.window
      (above ++ (lines.drop tui.previousViewportTop).map (paintRow painter tui.terminal.columns) ++
        replicate left (tui.terminal.blankRow painter))
      (above.length + (first + count - 1 - tui.previousViewportTop)) := by
    rw [← tape]
    exact views
  have low : tui.previousViewportTop ≤ first + count - 1 :=
    Nat.le_sub_of_add_le (Nat.add_le_add seen some_row)
  have bottom : viewportTop lines.length tui.terminal.height = tui.previousViewportTop +
      (above.length + (lines.length - tui.previousViewportTop) + left - tui.terminal.height -
        above.length) := by
    exact rewrite_scrolls top total lengths changed.inside seen steady
      (changed.bounds writes clears counts)
  exact @rendered_of_views _ painter tui _ lines above _ left (first + count - 1) size cursor_row
    framed low bottom

theorem renderDifferentialInline_rendered (synced : Synced painter tui above)
    (short : tui.terminal.height ≤ 2 ^ 15) {first last : Nat}
    (changed : Changed tui.previousLines lines first last)
    (steady : tui.previousLines.length ≤ lines.length ∨
      tui.previousLines.length ≤ tui.terminal.height ∨ first < tui.previousViewportTop) :
    Rendered painter tui
      (renderDifferentialInline painter lines first last tui.terminal.height tui) lines above := by
  obtain ⟨in_previous, in_next⟩ := changed.inside
  unfold renderDifferentialInline
  split
  · exact renderFullInline_rendered synced short
  · rename_i seen
    split
    · rename_i appended
      obtain ⟨more, at_end, some_line⟩ := appended
      subst at_end
      have same := changed.before
      rw [take_length] at same
      exact append_rendered synced short more some_line same
    · rename_i other
      have onward : first < tui.previousLines.length ∨ first = 0 := by
        rcases changed.rest with ⟨_, order, within, _⟩ | ⟨different, _⟩ <;> omega
      have lengths : tui.previousLines.length ≤ lines.length ∨
          tui.previousLines.length ≤ tui.terminal.height := by omega
      refine rewrite_rendered synced short changed (Nat.le_of_not_lt seen) lengths onward rfl rfl ?_
      rcases changed.counts rfl rfl with ⟨rows, _, _, order, _⟩ | ⟨rows, old_rows⟩
      · rw [rows]
        omega
      · rw [rows, old_rows]
        rcases changed.rest with ⟨_, order, within, _⟩ | ⟨different, _⟩ <;> omega

/-- Nothing has been rendered, and the rows from the cursor on are blank. -/
structure Fresh (painter : Painter Cell) (tui : Tui Cell) (above : List (List Cell)) : Prop where
  rows : ∃ blanks, tui.terminal.window.rows =
    above ++ replicate blanks (tui.terminal.blankRow painter)
  row : tui.terminal.window.row = above.length
  column : tui.terminal.column = 0
  first : tui.renderedOnce = false
  width : tui.previousWidth = 0

theorem first_rendered (fresh : Fresh painter tui above) :
    Rendered painter tui (renderFullInline painter lines tui.terminal.height tui) lines above := by
  obtain ⟨blanks, rows⟩ := fresh.rows
  have inside : tui.terminal.window.row < tui.terminal.height := tui.terminal.window.inside
  have total : above.length + blanks = tui.terminal.height := by
    have sizes := congrArg length rows
    rw [length_append, length_replicate] at sizes
    exact sizes.symm
  unfold renderFullInline
  dsimp only
  rw [if_neg (by rw [fresh.first]; exact Bool.false_ne_true)]
  by_cases empty : lines = []
  · subst empty
    refine ⟨rfl, above, suffix_refl above, ⟨blanks, ?_⟩, fresh.row.trans ?_, ?_⟩
    · rw [drop_nil, map_nil, nil_append]
      exact rows
    · exact (Nat.add_eq_left.mpr (Nat.zero_sub _)).symm
    · exact Nat.le_of_eq (Nat.zero_sub _)
  · have some_line : 0 < lines.length := length_pos_iff.mpr empty
    let hidden : Terminal Cell := tui.terminal.hideCursor
    have written := (@writeLines_window _ painter hidden lines fresh.column).1
    have views := Views.writeEach empty rows fresh.row (paints_lines tui.terminal lines blanks)
    change _ = tui.terminal.window.writeEach (tui.terminal.blankRow painter) _ _ at written
    rw [← written, drop_replicate] at views
    have place : above.length + lines.length - 1 = above.length + (lines.length - 1 - 0) := by omega
    rw [place] at views
    refine @rendered_of_views _ painter tui _ lines above 0 _ (lines.length - 1)
      (writeLines_size _ fresh.column) rfl views (Nat.zero_le _) ?_
    rw [viewportTop]
    omega

end Renders

end PiRust.Tui
