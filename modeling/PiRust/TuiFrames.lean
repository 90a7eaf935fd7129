import PiRust.TuiRenders

/- What the terminal shows of the frames that `pi-tui` renders one after another. -/
namespace PiRust.Tui

open List

variable {Cell : Type} {painter : Painter Cell}

section Cursor

theorem positionHardwareCursor_framed {tui : Tui Cell} {lines : List String}
    {above : List (List Cell)}
    (framed : Framed painter tui.terminal lines above tui.hardwareCursorRow)
    (top : tui.previousViewportTop = viewportTop lines.length tui.terminal.height)
    (short : tui.terminal.height ≤ 2 ^ 15) {cursor : Option CursorPosition}
    (seen : ∀ position, cursor = some position →
      viewportTop lines.length tui.terminal.height ≤ position.row ∧ position.row < lines.length) :
    Framed painter (tui.positionHardwareCursor cursor).terminal lines above
        (tui.positionHardwareCursor cursor).hardwareCursorRow ∧
      (tui.positionHardwareCursor cursor).terminal.size = tui.terminal.size := by
  cases cursor with
  | none =>
    unfold positionHardwareCursor
    dsimp only
    split
    · exact ⟨⟨framed.rows, framed.row, framed.below⟩, rfl⟩
    · exact ⟨framed, rfl⟩
  | some position =>
    obtain ⟨from_top, in_frame⟩ := seen position rfl
    obtain ⟨blanks, rows⟩ := framed.rows
    have total := length_rows rows
    have row := framed.row
    have here := from_top
    rw [viewportTop] at here
    rw [← top] at row
    have moved := @moveToLogicalRow_row _ tui above.length position.row short row (by
      rw [top, viewportTop]; omega)
    rw [top] at moved
    unfold positionHardwareCursor
    dsimp only
    split
    · exact ⟨⟨⟨blanks, rows⟩, moved, from_top⟩, rfl⟩
    · exact ⟨⟨⟨blanks, rows⟩, moved, from_top⟩, rfl⟩

theorem positionHardwareCursor_others (tui : Tui Cell) (cursor : Option CursorPosition) :
    (tui.positionHardwareCursor cursor).previousViewportTop = tui.previousViewportTop ∧
      (tui.positionHardwareCursor cursor).ownedRows = tui.ownedRows ∧
      (tui.positionHardwareCursor cursor).renderedOnce = tui.renderedOnce ∧
      (tui.positionHardwareCursor cursor).clearOnShrink = tui.clearOnShrink := by
  cases cursor with
  | none =>
    unfold positionHardwareCursor
    dsimp only
    split <;> exact ⟨rfl, rfl, rfl, rfl⟩
  | some position => exact ⟨rfl, rfl, rfl, rfl⟩

theorem extractCursorMarker_length (frame : List String) (height : Nat) :
    (extractCursorMarker painter frame height).1.length = frame.length := by
  unfold extractCursorMarker
  dsimp only
  split
  · exact length_set
  · rfl

theorem extractCursorMarker_row {frame : List String} {height : Nat} {position : CursorPosition}
    (found : (extractCursorMarker painter frame height).2 = some position) :
    viewportTop frame.length height ≤ position.row ∧ position.row < frame.length := by
  unfold extractCursorMarker at found
  dsimp only at found
  split at found
  · rename_i row before after marked
    cases found
    obtain ⟨index, member, here⟩ := exists_of_findSome?_eq_some marked
    rw [mem_reverse, mem_range'_1] at member
    have same : index = row := by
      cases line : frame[index]? with
      | none => simp [line] at here
      | some text =>
        cases parts : splitAtMarker text.toList with
        | none => simp [line, parts] at here
        | some parts' =>
          simp only [line, parts, Option.bind_eq_bind, Option.bind_some] at here
          cases here
          rfl
    rw [viewportTop]
    change _ ≤ row ∧ row < _
    omega
  · cases found

end Cursor

section Once

theorem validateFrom_ok {maxWidth : Nat} {lines : List String}
    (fits : ∀ line ∈ lines, painter.visibleWidth line ≤ maxWidth) (lineIndex : Nat) :
    validateFrom painter maxWidth lineIndex lines = .ok () := by
  induction lines generalizing lineIndex with
  | nil => rfl
  | cons line lines ih =>
    unfold validateFrom
    dsimp only
    rw [if_neg (Nat.not_lt.mpr (fits line mem_cons_self)),
      ih fun other member => fits other (mem_cons_of_mem line member)]

/-- A frame that shrinks is redrawn, was seen as a whole, or changes above what was seen. -/
def Steady (painter : Painter Cell) (tui : Tui Cell) (frame : List String) : Prop :=
  let lines := (extractCursorMarker painter frame tui.terminal.height).1
  tui.clearOnShrink = true ∨ tui.previousLines.length ≤ lines.length ∨
    tui.previousLines.length ≤ tui.terminal.height ∨
    ∃ first last, changedLineRange tui.previousLines lines = some (first, last) ∧
      first < tui.previousViewportTop

variable {tui : Tui Cell} {above : List (List Cell)} {lines : List String}

theorem Rendered.of_fullRedraws {after : Tui Cell} {redraws : Nat}
    (rendered : Rendered painter { tui with fullRedraws := redraws } after lines above) :
    Rendered painter tui after lines above :=
  ⟨rendered.size, rendered.framed⟩

theorem renderWith_fresh (fresh : Fresh painter tui above) :
    Rendered painter tui (tui.renderWith painter
      (tui.chooseStrategy lines tui.terminal.columns tui.terminal.height) lines
      tui.terminal.height) lines above := by
  unfold chooseStrategy
  rw [if_pos (.inl fresh.width)]
  have same : Fresh painter { tui with fullRedraws := tui.fullRedraws + 1 } above :=
    ⟨fresh.rows, fresh.row, fresh.column, fresh.first, fresh.width⟩
  exact (first_rendered same).of_fullRedraws

theorem renderWith_synced (synced : Synced painter tui above)
    (short : tui.terminal.height ≤ 2 ^ 15)
    (steady : tui.clearOnShrink = true ∨ tui.previousLines.length ≤ lines.length ∨
      tui.previousLines.length ≤ tui.terminal.height ∨
      ∃ first last, changedLineRange tui.previousLines lines = some (first, last) ∧
        first < tui.previousViewportTop) :
    Rendered painter tui (tui.renderWith painter
      (tui.chooseStrategy lines tui.terminal.columns tui.terminal.height) lines
      tui.terminal.height) lines above := by
  have full : Rendered painter tui
      (tui.renderWith painter .fullRedraw lines tui.terminal.height) lines above := by
    have same : Synced painter { tui with fullRedraws := tui.fullRedraws + 1 } above :=
      ⟨synced.framed, synced.top, synced.owned, synced.rendered⟩
    exact (renderFullInline_rendered same short).of_fullRedraws
  unfold chooseStrategy
  split
  · exact full
  split
  · exact full
  split
  · exact full
  · rename_i clear
    split
    · rename_i first last changed
      apply renderDifferentialInline_rendered synced short (changedLineRange_some changed)
      rcases steady with on | grown | small | ⟨first', last', found, hidden⟩
      · exact .inl (Nat.le_of_not_lt fun shrunk => clear ⟨on, shrunk⟩)
      · exact .inl grown
      · exact .inr (.inl small)
      · rw [changed] at found
        cases found
        exact .inr (.inr hidden)
    · rename_i same
      have framed := synced.framed
      rw [changedLineRange_none same] at framed
      exact ⟨rfl, above, suffix_refl above, framed⟩

theorem renderOnce_synced {frame : List String}
    (rendered : Rendered painter tui (tui.renderWith painter
      (tui.chooseStrategy (extractCursorMarker painter frame tui.terminal.height).1
        tui.terminal.columns tui.terminal.height)
      (extractCursorMarker painter frame tui.terminal.height).1 tui.terminal.height)
      (extractCursorMarker painter frame tui.terminal.height).1 above)
    (short : tui.terminal.height ≤ 2 ^ 15)
    (fits : ∀ line ∈ (extractCursorMarker painter frame tui.terminal.height).1,
      painter.visibleWidth line ≤ tui.terminal.columns) :
    ∃ after outcome kept, tui.renderOnce painter frame = .ok (after, outcome) ∧ kept <:+ above ∧
      Synced painter after kept ∧
      after.previousLines = (extractCursorMarker painter frame tui.terminal.height).1 ∧
      after.terminal.size = tui.terminal.size := by
  have seen := @extractCursorMarker_row _ painter frame tui.terminal.height
  have length := @extractCursorMarker_length _ painter frame tui.terminal.height
  unfold renderOnce
  dsimp only
  generalize extractCursorMarker painter frame tui.terminal.height = extracted at *
  obtain ⟨lines, cursor⟩ := extracted
  dsimp only at *
  obtain ⟨size, kept, suffix, framed⟩ := rendered
  have height := congrArg Prod.snd size
  rw [validateLines, validateFrom_ok fits 0]
  generalize tui.renderWith painter _ lines tui.terminal.height = rendered at *
  change rendered.terminal.height = tui.terminal.height at height
  let ready : Tui Cell :=
    { rendered with
      previousViewportTop := viewportTop lines.length tui.terminal.height
      ownedRows := min lines.length tui.terminal.height
      renderedOnce := true }
  have top : ready.previousViewportTop = viewportTop lines.length ready.terminal.height :=
    congrArg (viewportTop lines.length) height.symm
  have inside : ∀ position, cursor = some position →
      viewportTop lines.length ready.terminal.height ≤ position.row ∧
        position.row < lines.length := by
    intro position found
    have shown := seen found
    rw [← length] at shown
    rw [← top]
    exact shown
  obtain ⟨positioned, same⟩ := @positionHardwareCursor_framed _ painter ready lines kept framed top
    (by change rendered.terminal.height ≤ _; rwa [height]) cursor inside
  obtain ⟨viewport, owned, once, _⟩ := positionHardwareCursor_others ready cursor
  have steady : (ready.positionHardwareCursor cursor).terminal.height = tui.terminal.height :=
    (congrArg Prod.snd same).trans height
  refine ⟨_, _, kept, rfl, suffix, ⟨?_, ?_, ?_, ?_⟩, rfl, same.trans size⟩
  · exact ⟨positioned.rows, positioned.row, positioned.below⟩
  · exact viewport.trans (congrArg (viewportTop lines.length) steady.symm)
  · exact owned.trans (congrArg (min lines.length) steady.symm)
  · exact once

end Once

section Runs

inductive Call where
  | setClearOnShrink (enabled : Bool)
  | renderOnce (frame : List String)

variable (painter) in
def call (tui : Tui Cell) : Call → Except TuiError (Tui Cell)
  | .setClearOnShrink enabled => .ok (tui.setClearOnShrink enabled)
  | .renderOnce frame => (tui.renderOnce painter frame).map Prod.fst

variable (painter) in
def run (tui : Tui Cell) (calls : List Call) : Except TuiError (Tui Cell) :=
  calls.foldlM (call painter) tui

/-- Every frame is steady when its turn comes. -/
def SteadyRun (painter : Painter Cell) : Tui Cell → List Call → Prop
  | _, [] => True
  | tui, next :: calls =>
    (∀ frame, next = .renderOnce frame → Steady painter tui frame) ∧
      ∀ after, call painter tui next = .ok after → SteadyRun painter after calls

def Call.frame? : Call → Option (List String)
  | .setClearOnShrink _ => none
  | .renderOnce frame => some frame

/-- The frame that has been rendered last. -/
def lastFrame (calls : List Call) : Option (List String) := (calls.filterMap Call.frame?).getLast?

/-- The terminal shows the last lines of a frame, under rows of what it showed before
the first frame and with blank ones below, and a move to any of these lines arrives. -/
def Displays (painter : Painter Cell) (before : List (List Cell)) (tui : Tui Cell)
    (lines : List String) : Prop :=
  ∃ above blanks, above <:+ before ∧
    tui.terminal.window.rows = above ++
      ((lines.drop (lines.length - tui.terminal.height)).map
          (paintRow painter tui.terminal.columns) ++
        replicate blanks (tui.terminal.blankRow painter)) ∧
    ∀ row, lines.length - tui.terminal.height ≤ row → row < lines.length →
      (tui.moveToLogicalRow row).terminal.window.row =
        above.length + (row - (lines.length - tui.terminal.height))

theorem Synced.displays {tui : Tui Cell} {above before : List (List Cell)}
    (synced : Synced painter tui above) (suffix : above <:+ before)
    (short : tui.terminal.height ≤ 2 ^ 15) :
    Displays painter before tui tui.previousLines := by
  obtain ⟨blanks, rows⟩ := synced.framed.rows
  refine ⟨above, blanks, suffix, rows, fun row low high => ?_⟩
  have total := length_rows rows
  have top := synced.top
  rw [viewportTop] at top
  have moved := @moveToLogicalRow_row _ tui above.length row short synced.row (by omega)
  rwa [top] at moved

/-- How far a run has come. -/
def Tracks (painter : Painter Cell) (before : List (List Cell)) (tui : Tui Cell) :
    Option (List String) → Prop
  | none => Fresh painter tui before
  | some frame => ∃ above, above <:+ before ∧ Synced painter tui above ∧
      tui.previousLines = (extractCursorMarker painter frame tui.terminal.height).1

theorem call_tracks {before : List (List Cell)} {tui : Tui Cell} {last : Option (List String)}
    (tracks : Tracks painter before tui last) (short : tui.terminal.height ≤ 2 ^ 15) {next : Call}
    (fits : ∀ frame, next = .renderOnce frame →
      ∀ line ∈ (extractCursorMarker painter frame tui.terminal.height).1,
        painter.visibleWidth line ≤ tui.terminal.columns)
    (steady : ∀ frame, next = .renderOnce frame → Steady painter tui frame) :
    ∃ after, call painter tui next = .ok after ∧ after.terminal.size = tui.terminal.size ∧
      Tracks painter before after (next.frame?.or last) := by
  cases next with
  | setClearOnShrink enabled =>
    refine ⟨_, rfl, rfl, ?_⟩
    cases last with
    | none => exact ⟨tracks.rows, tracks.row, tracks.column, tracks.first, tracks.width⟩
    | some frame =>
      obtain ⟨above, suffix, synced, lines⟩ := tracks
      exact ⟨above, suffix, ⟨synced.framed, synced.top, synced.owned, synced.rendered⟩, lines⟩
  | renderOnce frame =>
    have rendered : ∃ above, above <:+ before ∧ Rendered painter tui (tui.renderWith painter
        (tui.chooseStrategy (extractCursorMarker painter frame tui.terminal.height).1
          tui.terminal.columns tui.terminal.height)
        (extractCursorMarker painter frame tui.terminal.height).1 tui.terminal.height)
        (extractCursorMarker painter frame tui.terminal.height).1 above := by
      cases last with
      | none => exact ⟨before, suffix_refl before, renderWith_fresh tracks⟩
      | some old =>
        obtain ⟨above, suffix, synced, _⟩ := tracks
        exact ⟨above, suffix, renderWith_synced synced short (steady frame rfl)⟩
    obtain ⟨above, suffix, rendered⟩ := rendered
    obtain ⟨after, outcome, kept, finished, still, synced, lines, size⟩ :=
      renderOnce_synced rendered short (fits frame rfl)
    refine ⟨after, by rw [call, finished]; rfl, size, kept, still.trans suffix, synced, ?_⟩
    have height : after.terminal.height = tui.terminal.height := congrArg Prod.snd size
    rw [height]
    exact lines

theorem run_tracks {before : List (List Cell)} {calls : List Call} {tui : Tui Cell}
    {last : Option (List String)} (tracks : Tracks painter before tui last)
    (short : tui.terminal.height ≤ 2 ^ 15)
    (fits : ∀ frame, .renderOnce frame ∈ calls →
      ∀ line ∈ (extractCursorMarker painter frame tui.terminal.height).1,
        painter.visibleWidth line ≤ tui.terminal.columns)
    (steady : SteadyRun painter tui calls) :
    ∃ after, run painter tui calls = .ok after ∧ after.terminal.size = tui.terminal.size ∧
      Tracks painter before after ((lastFrame calls).or last) := by
  induction calls generalizing tui last with
  | nil => exact ⟨tui, rfl, rfl, tracks⟩
  | cons next calls ih =>
    obtain ⟨middle, called, size, tracked⟩ := call_tracks tracks short
      (fun frame here => fits frame (by rw [here]; exact mem_cons_self)) steady.1
    have columns : middle.terminal.columns = tui.terminal.columns := congrArg Prod.fst size
    have height : middle.terminal.height = tui.terminal.height := congrArg Prod.snd size
    obtain ⟨after, ran, same, final⟩ := ih tracked (by rwa [height])
      (by
        intro frame member
        rw [height, columns]
        exact fits frame (mem_cons_of_mem next member))
      (steady.2 middle called)
    refine ⟨after, ?_, same.trans size, ?_⟩
    · rw [run, foldlM_cons, called]
      exact ran
    · have order : (lastFrame (next :: calls)).or last =
          (lastFrame calls).or (next.frame?.or last) := by
        cases next with
        | setClearOnShrink enabled => rfl
        | renderOnce frame =>
          rw [lastFrame, filterMap_cons, lastFrame]
          cases calls.filterMap Call.frame? with
          | nil => rfl
          | cons first rest =>
            simp [Call.frame?, getLast?_cons, Option.some_or, Option.getD_some]
      rw [order]
      exact final

theorem rewriteRows_clearOnShrink (startRow : Nat) (lines : List String) (count : Nat)
    (tui : Tui Cell) :
    (tui.rewriteRows painter startRow lines count).clearOnShrink = tui.clearOnShrink := by
  unfold rewriteRows
  split <;> rfl

theorem renderFullInline_clearOnShrink (lines : List String) (height : Nat) (tui : Tui Cell) :
    (renderFullInline painter lines height tui).clearOnShrink = tui.clearOnShrink := by
  unfold renderFullInline
  dsimp only
  split
  · split
    · exact rewriteRows_clearOnShrink _ _ _ _
    · rfl
  · rfl

theorem renderWith_clearOnShrink (strategy : RenderStrategy) (lines : List String) (height : Nat)
    (tui : Tui Cell) :
    (tui.renderWith painter strategy lines height).clearOnShrink = tui.clearOnShrink := by
  cases strategy with
  | noChange => rfl
  | fullRedraw => exact renderFullInline_clearOnShrink _ _ _
  | differential first last =>
    unfold renderWith renderDifferentialInline
    dsimp only
    split
    · exact renderFullInline_clearOnShrink _ _ _
    split
    · rfl
    · exact rewriteRows_clearOnShrink _ _ _ _

theorem call_clearOnShrink {tui after : Tui Cell} {frame : List String}
    (called : call painter tui (.renderOnce frame) = .ok after) :
    after.clearOnShrink = tui.clearOnShrink := by
  unfold call renderOnce at called
  dsimp only at called
  generalize extractCursorMarker painter frame tui.terminal.height = extracted at called
  obtain ⟨lines, cursor⟩ := extracted
  dsimp only at called
  cases valid : validateLines painter lines tui.terminal.columns with
  | error reason =>
    rw [valid] at called
    cases called
  | ok =>
    rw [valid] at called
    cases called
    exact (positionHardwareCursor_others _ cursor).2.2.2.trans (renderWith_clearOnShrink _ _ _ _)

theorem steadyRun_of_clearOnShrink {tui : Tui Cell} (clear : tui.clearOnShrink = true)
    {calls : List Call} (left : ∀ enabled, .setClearOnShrink enabled ∈ calls → enabled = true) :
    SteadyRun painter tui calls := by
  induction calls generalizing tui with
  | nil => exact trivial
  | cons next calls ih =>
    refine ⟨fun _ _ => .inl clear, fun after called => ?_⟩
    apply ih _ fun enabled member => left enabled (mem_cons_of_mem next member)
    cases next with
    | setClearOnShrink enabled =>
      cases called
      exact left enabled mem_cons_self
    | renderOnce frame => rw [call_clearOnShrink called, clear]

/-- A terminal that is handed over with blank rows from the cursor on. -/
structure Ready (painter : Painter Cell) (terminal : Terminal Cell) : Prop where
  column : terminal.column = 0
  blank : terminal.window.rows.drop terminal.window.row = replicate
    (terminal.height - terminal.window.row) (terminal.blankRow painter)

/-- After every run of steady frames the terminal shows the last one. -/
theorem run_displays (painter : Painter Cell) (terminal : Terminal Cell) (calls : List Call)
    (ready : Ready painter terminal) (short : terminal.height ≤ 2 ^ 15)
    (fits : ∀ frame, .renderOnce frame ∈ calls →
      ∀ line ∈ (extractCursorMarker painter frame terminal.height).1,
        painter.visibleWidth line ≤ terminal.columns)
    (steady : SteadyRun painter (new terminal) calls) :
    ∃ tui, run painter (new terminal) calls = .ok tui ∧
      tui.terminal.size = terminal.size ∧
      ∀ frame, lastFrame calls = some frame →
        Displays painter (terminal.window.rows.take terminal.window.row) tui
          (extractCursorMarker painter frame terminal.height).1 := by
  have inside := terminal.window.inside
  have fresh : Fresh painter (new terminal) (terminal.window.rows.take terminal.window.row) := by
    refine ⟨⟨terminal.height - terminal.window.row, ?_⟩, ?_, ready.column, rfl, rfl⟩
    · change terminal.window.rows = _ ++ replicate _ (terminal.blankRow painter)
      rw [← ready.blank, take_append_drop]
    · change terminal.window.row = _
      rw [length_take]
      omega
  obtain ⟨tui, ran, size, tracks⟩ := @run_tracks _ painter _ calls (new terminal) none fresh short
    fits steady
  refine ⟨tui, ran, size, fun frame last => ?_⟩
  rw [last] at tracks
  obtain ⟨above, suffix, synced, lines⟩ := tracks
  have height : tui.terminal.height = terminal.height := congrArg Prod.snd size
  rw [height] at lines
  rw [← lines]
  exact synced.displays suffix (by rwa [height])

end Runs

section Shrinking

def twoRows : Terminal Char where
  window := ⟨[[' '], [' ']], 0, by decide⟩
  columns := 1
  column := 0
  cursorVisible := true

def plain : Painter Char := ⟨' ', String.toList⟩

theorem twoRows_ready : Ready plain twoRows := ⟨rfl, rfl⟩

def growing : List Call := [.renderOnce ["a", "b", "c"], .renderOnce ["a", "b", "c", "d"]]

theorem growing_fits (frame : List String) (member : Call.renderOnce frame ∈ growing) :
    ∀ line ∈ (extractCursorMarker plain frame twoRows.height).1,
      plain.visibleWidth line ≤ twoRows.columns := by
  rcases mem_cons.mp member with first | second
  · cases first
    decide
  · cases mem_singleton.mp second
    decide

theorem growing_steady : SteadyRun plain (new twoRows) growing := by
  apply steadyRun_of_clearOnShrink rfl
  intro enabled member
  simp [growing] at member

theorem run_displays_growing : ∃ tui, run plain (new twoRows) growing = .ok tui ∧
    tui.terminal.size = twoRows.size ∧
    ∀ frame, lastFrame growing = some frame →
      Displays plain (twoRows.window.rows.take twoRows.window.row) tui
        (extractCursorMarker plain frame twoRows.height).1 :=
  run_displays plain twoRows growing twoRows_ready (by decide) growing_fits growing_steady

/-- A frame that is taller than the terminal loses its last line. -/
def shrinking : List Call :=
  [.setClearOnShrink false, .renderOnce ["a", "b", "c"], .renderOnce ["a", "b"]]

theorem shrinking_rows : (run plain (new twoRows) shrinking).map
    (fun tui => tui.terminal.window.rows) = .ok [['b'], [' ']] := by
  rfl

theorem shrinking_fits (frame : List String) (member : Call.renderOnce frame ∈ shrinking) :
    ∀ line ∈ (extractCursorMarker plain frame twoRows.height).1,
      plain.visibleWidth line ≤ twoRows.columns := by
  rcases mem_cons.mp member with off | member
  · cases off
  rcases mem_cons.mp member with first | second
  · cases first
    decide
  · cases mem_singleton.mp second
    decide

/-- The first line is not seen again. -/
theorem shrinking_not_displayed :
    ¬ ∀ (painter : Painter Char) (terminal : Terminal Char) (calls : List Call),
      Ready painter terminal → terminal.height ≤ 2 ^ 15 →
      (∀ frame, .renderOnce frame ∈ calls →
        ∀ line ∈ (extractCursorMarker painter frame terminal.height).1,
          painter.visibleWidth line ≤ terminal.columns) →
      ∃ tui, run painter (new terminal) calls = .ok tui ∧
        tui.terminal.size = terminal.size ∧
        ∀ frame, lastFrame calls = some frame →
          Displays painter (terminal.window.rows.take terminal.window.row) tui
            (extractCursorMarker painter frame terminal.height).1 := by
  intro always
  obtain ⟨tui, ran, size, displays⟩ :=
    always plain twoRows shrinking twoRows_ready (by decide) shrinking_fits
  obtain ⟨above, blanks, suffix, rows, _⟩ := displays ["a", "b"] rfl
  have seen := shrinking_rows
  rw [ran] at seen
  have seen_rows : tui.terminal.window.rows = [['b'], [' ']] := Except.ok.inj seen
  have height : tui.terminal.height = 2 := congrArg length seen_rows
  have columns : tui.terminal.columns = 1 := congrArg Prod.fst size
  have nothing : above = [] := suffix_nil.mp suffix
  have shown : (extractCursorMarker plain ["a", "b"] twoRows.height).1 = ["a", "b"] := by
    decide
  have first := congrArg head? rows
  rw [seen_rows, nothing, height, columns, shown] at first
  have other : (some ['b'] : Option (List Char)) ≠ some ['a'] := by decide
  exact other first

end Shrinking

end PiRust.Tui
