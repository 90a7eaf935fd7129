import PiRust.EditDiff
import PiRust.PreservedLines

/- The patch of an edit: that it turns the old content into the new one, and that no other does
with fewer lines. -/
namespace PiRust.EditTool

open EditScripts Truncate

section table

variable {oldLines newLines : List Str}

theorem headD_tails (f : List Str → Nat) (lines : List Str) :
    (lines.tails.map f).headD 0 = f lines := by
  cases lines with
  | nil => rfl
  | cons line lines => rfl

theorem lcsRow_ok (oldLine : Str) (oldLines newLines : List Str) :
    lcsRow oldLine newLines (newLines.tails.map (common oldLines)) =
      newLines.tails.map (common (oldLine :: oldLines)) := by
  induction newLines with
  | nil =>
    rw [lcsRow, List.tails, List.map_singleton, common]
  | cons newLine newLines ih =>
    rw [lcsRow, List.tails, List.map_cons, List.map_cons, List.tail_cons, List.headD_cons, ih,
      headD_tails, headD_tails, common]

theorem lcsTable_ok (newLines oldLines : List Str) :
    lcsTable newLines oldLines =
      oldLines.tails.map fun older => newLines.tails.map (common older) := by
  induction oldLines with
  | nil =>
    have zeros : newLines.tails.map (common []) = List.replicate (newLines.length + 1) 0 := by
      rw [← List.length_tails, ← List.map_const]
      exact List.map_congr_left fun newer _ => by rw [common]; rfl
    rw [lcsTable, List.tails, List.map_singleton, zeros]
  | cons oldLine oldLines ih =>
    have row : (oldLines.tails.map fun older => newLines.tails.map (common older)).headD [] =
        newLines.tails.map (common oldLines) := by
      cases oldLines with
      | nil => rfl
      | cons line lines => rfl
    rw [lcsTable, ih, row, lcsRow_ok, List.tails, List.map_cons]

theorem lcsEntry_ok {oldIdx newIdx : Nat} (old : oldIdx ≤ oldLines.length)
    (new : newIdx ≤ newLines.length) :
    lcsEntry (lcsTable newLines oldLines) oldIdx newIdx =
      common (oldLines.drop oldIdx) (newLines.drop newIdx) := by
  have outer : oldIdx < oldLines.tails.length := by
    rw [List.length_tails]
    omega
  have inner : newIdx < newLines.tails.length := by
    rw [List.length_tails]
    omega
  rw [lcsEntry, lcsTable_ok, List.getElem?_map, List.getElem?_eq_getElem outer,
    List.getElem_tails, Option.map_some, Option.getD_some, List.getElem?_map,
    List.getElem?_eq_getElem inner, List.getElem_tails, Option.map_some, Option.getD_some]

end table

section parts

def DiffPart.steps : DiffPart → List (Step Str)
  | .equal lines => lines.map .keep
  | .removed lines => lines.map .remove
  | .added lines => lines.map .add

def steps (parts : List DiffPart) : List (Step Str) := parts.flatMap DiffPart.steps

/-- A shortest script between the lines. -/
structure Walks (oldLines newLines : List Str) (script : List (Step Str)) : Prop where
  starts : before script = oldLines
  ends : after script = newLines
  longest : (kept script).length = common oldLines newLines

variable {oldLines newLines : List Str} {script : List (Step Str)}

theorem Walks.keep (walks : Walks oldLines newLines script) (line : Str) :
    Walks (line :: oldLines) (line :: newLines) (.keep line :: script) where
  starts := congrArg (line :: ·) walks.starts
  ends := congrArg (line :: ·) walks.ends
  longest := by
    rw [common, if_pos rfl, ← walks.longest]
    rfl

theorem Walks.remove {line other : Str} (walks : Walks oldLines (other :: newLines) script)
    (apart : line ≠ other)
    (more : common (line :: oldLines) newLines ≤ common oldLines (other :: newLines)) :
    Walks (line :: oldLines) (other :: newLines) (.remove line :: script) where
  starts := congrArg (line :: ·) walks.starts
  ends := walks.ends
  longest := by
    rw [common, if_neg apart, Nat.max_eq_left more, ← walks.longest]
    rfl

theorem Walks.add {line other : Str} (walks : Walks (line :: oldLines) newLines script)
    (apart : line ≠ other)
    (more : common oldLines (other :: newLines) ≤ common (line :: oldLines) newLines) :
    Walks (line :: oldLines) (other :: newLines) (.add other :: script) where
  starts := walks.starts
  ends := congrArg (other :: ·) walks.ends
  longest := by
    rw [common, if_neg apart, Nat.max_eq_right more, ← walks.longest]
    rfl

theorem Walks.removeAll (lines : List Str) :
    Walks lines [] (steps (lines.map fun line => .removed [line])) := by
  induction lines with
  | nil => exact ⟨rfl, rfl, by rw [common]; rfl⟩
  | cons line lines ih =>
    refine ⟨congrArg (line :: ·) ih.starts, ih.ends, ?_⟩
    have longest := ih.longest
    rw [common_nil_right] at longest ⊢
    exact longest

theorem Walks.addAll (lines : List Str) :
    Walks [] lines (steps (lines.map fun line => .added [line])) := by
  induction lines with
  | nil => exact ⟨rfl, rfl, by rw [common]; rfl⟩
  | cons line lines ih =>
    refine ⟨ih.starts, congrArg (line :: ·) ih.ends, ?_⟩
    have longest := ih.longest
    rw [common] at longest ⊢
    exact longest

theorem rawParts_ok {oldIdx newIdx : Nat} (old : oldIdx ≤ oldLines.length)
    (new : newIdx ≤ newLines.length) :
    Walks (oldLines.drop oldIdx) (newLines.drop newIdx)
      (steps (rawParts (lcsTable newLines oldLines) oldLines newLines oldIdx newIdx)) := by
  generalize table : lcsTable newLines oldLines = lcs
  fun_induction rawParts lcs oldLines newLines oldIdx newIdx with
  | case1 i j insideOld insideNew same ih =>
    rw [List.drop_eq_getElem_cons insideOld, List.drop_eq_getElem_cons insideNew, ← same]
    exact (ih insideOld insideNew).keep oldLines[i]
  | case2 i j insideOld insideNew apart more ih =>
    have later := ih insideOld new
    rw [← table, ge_iff_le, lcsEntry_ok old insideNew, lcsEntry_ok insideOld new,
      List.drop_eq_getElem_cons insideOld, List.drop_eq_getElem_cons insideNew] at more
    rw [List.drop_eq_getElem_cons insideNew] at later
    rw [List.drop_eq_getElem_cons insideOld, List.drop_eq_getElem_cons insideNew]
    exact later.remove apart more
  | case3 i j insideOld insideNew apart less ih =>
    have later := ih old insideNew
    rw [← table, ge_iff_le, lcsEntry_ok old insideNew, lcsEntry_ok insideOld new,
      List.drop_eq_getElem_cons insideOld, List.drop_eq_getElem_cons insideNew] at less
    rw [List.drop_eq_getElem_cons insideOld] at later
    rw [List.drop_eq_getElem_cons insideOld, List.drop_eq_getElem_cons insideNew]
    exact later.add apart (Nat.le_of_not_le less)
  | case4 i j insideOld beyond =>
    rw [List.drop_of_length_le (Nat.le_of_not_lt beyond)]
    exact Walks.removeAll _
  | case5 i j beyond =>
    rw [List.drop_of_length_le (Nat.le_of_not_lt beyond)]
    exact Walks.addAll _

theorem steps_append (front back : List DiffPart) : steps (front ++ back) = steps front ++ steps back :=
  List.flatMap_append

theorem steps_pushPart (coalesced : List DiffPart) (part : DiffPart) :
    steps (pushPart coalesced part) = steps coalesced ++ part.steps := by
  have pushed : steps (coalesced ++ [part]) = steps coalesced ++ part.steps := by
    rw [steps_append]
    simp [steps]
  have merged {last joined : DiffPart} (last_ : coalesced.getLast? = some last)
      (both : joined.steps = last.steps ++ part.steps) :
      steps (coalesced.dropLast ++ [joined]) = steps coalesced ++ part.steps := by
    obtain ⟨front, split⟩ := List.getLast?_eq_some_iff.mp last_
    rw [split, List.dropLast_concat, steps_append, steps_append]
    simp [steps, both]
  unfold pushPart
  split
  · next last => exact merged last (List.map_append ..)
  · next last => exact merged last (List.map_append ..)
  · next last => exact merged last (List.map_append ..)
  · exact pushed

theorem steps_coalesceParts (parts : List DiffPart) : steps (coalesceParts parts) = steps parts := by
  have loop : ∀ coalesced, steps (parts.foldl pushPart coalesced) = steps coalesced ++ steps parts := by
    induction parts with
    | nil => exact fun coalesced => (List.append_nil _).symm
    | cons part parts ih =>
      intro coalesced
      rw [List.foldl_cons, ih, steps_pushPart, List.append_assoc]
      rfl
  exact loop []

theorem diffParts_ok (oldContent newContent : Str) :
    Walks (splitLines oldContent) (splitLines newContent) (steps (diffParts oldContent newContent)) := by
  rw [diffParts, steps_coalesceParts]
  exact rawParts_ok (Nat.zero_le _) (Nat.zero_le _)

end parts

section text

def stepLine : Step Str → Str
  | .keep line => ' ' :: line
  | .remove line => '-' :: line
  | .add line => '+' :: line

def ended (line : Str) : Str := line ++ ['\n']

theorem partLines_steps (part : DiffPart) : partLines part = part.steps.map stepLine := by
  cases part with
  | equal lines | removed lines | added lines => simp [partLines, DiffPart.steps, stepLine]

theorem body_steps (parts : List DiffPart) :
    parts.flatMap partLines = (steps parts).map stepLine := by
  rw [steps, List.map_flatMap]
  exact congrArg (parts.flatMap ·) (funext partLines_steps)

theorem joinLines_append {front back : List Str} (first : front ≠ []) (second : back ≠ []) :
    joinLines (front ++ back) = joinLines front ++ '\n' :: joinLines back := by
  obtain ⟨line, front, rfl⟩ := List.exists_cons_of_ne_nil first
  obtain ⟨next, back, rfl⟩ := List.exists_cons_of_ne_nil second
  rw [joinLines, joinLines, joinLines, List.cons_append, Splice.intercalate_cons,
    Splice.intercalate_cons, Splice.intercalate_cons, Splice.behind_append, Splice.behind_cons]
  simp

variable {step : Step Str} {script : List (Step Str)}

theorem parseBody_line {kind : Char} {text : Str} {rest : List Str} {hunk : Hunk}
    (unmarked : ∀ note later, rest ≠ ('\\' :: note) :: later)
    (line : hunkLine kind (text ++ ['\n']) = some step) (later : parseBody rest = some hunk) :
    parseBody ((kind :: text) :: rest) = some (step :: hunk) := by
  rw [parseBody, line, later]
  · rfl
  · exact unmarked

theorem stepLine_unmarked (step : Step Str) (note : Str) : stepLine step ≠ '\\' :: note := by
  intro same
  cases step with
  | keep line | remove line | add line => exact absurd (List.cons.inj same).1 (by decide)

theorem parseBody_steps (script : List (Step Str)) :
    parseBody (script.map stepLine) = some (script.map (Step.map ended)) := by
  induction script with
  | nil => rfl
  | cons step script ih =>
    have unmarked : ∀ note later, script.map stepLine ≠ ('\\' :: note) :: later := by
      intro note later same
      obtain ⟨next, _, _, line, _⟩ := List.map_eq_cons_iff.mp same
      exact stepLine_unmarked next note line
    cases step with
    | keep line | remove line | add line => exact parseBody_line unmarked rfl ih

theorem digits_clear (n : Nat) : '\n' ∉ Nat.toDigits 10 n := by
  intro member
  exact absurd (Nat.isDigit_of_mem_toDigits (by decide) (by decide) member) (by decide)

theorem hunkHeader_clear (oldCount newCount : Nat) : '\n' ∉ hunkHeader oldCount newCount := by
  have first : '\n' ∉ "@@ -1,".toList := by decide
  have second : '\n' ∉ " +1,".toList := by decide
  have third : '\n' ∉ " @@".toList := by decide
  unfold hunkHeader
  simp only [List.mem_append, not_or]
  exact ⟨⟨⟨⟨first, digits_clear oldCount⟩, second⟩, digits_clear newCount⟩, third⟩

theorem mem_step (member : step ∈ script) :
    ∃ kind line, stepLine step = kind :: line ∧ kind ≠ '\n' ∧
      (line ∈ before script ∨ line ∈ after script) := by
  cases step with
  | keep line =>
    exact ⟨' ', line, rfl, by decide, .inl (List.mem_filterMap.mpr ⟨_, member, rfl⟩)⟩
  | remove line =>
    exact ⟨'-', line, rfl, by decide, .inl (List.mem_filterMap.mpr ⟨_, member, rfl⟩)⟩
  | add line =>
    exact ⟨'+', line, rfl, by decide, .inr (List.mem_filterMap.mpr ⟨_, member, rfl⟩)⟩

theorem splitLines_subset (content : Str) : splitLines content ⊆ splitChar '\n' content := by
  rw [splitLines]
  split
  · exact List.dropLast_subset _
  · exact List.Subset.refl _

theorem hunk_clear {oldContent newContent : Str}
    (walks : Walks (splitLines oldContent) (splitLines newContent) script) (old new : Nat) :
    ∀ line ∈ hunkHeader old new :: script.map stepLine, '\n' ∉ line := by
  refine List.forall_mem_cons.mpr ⟨hunkHeader_clear old new, fun text member => ?_⟩
  obtain ⟨step, inside, rfl⟩ := List.mem_map.mp member
  obtain ⟨kind, line, same, other, from_⟩ := mem_step inside
  have clear : '\n' ∉ line := by
    rw [walks.starts, walks.ends] at from_
    rcases from_ with old | new
    · exact splitChar_clear oldContent line (splitLines_subset oldContent old)
    · exact splitChar_clear newContent line (splitLines_subset newContent new)
  rw [same]
  exact List.not_mem_cons_of_ne_of_not_mem other.symm clear

theorem generateUnifiedPatch_read (path oldContent newContent : Str) :
    ∃ text, generateUnifiedPatch path oldContent newContent = fileHeader path ++ text ∧
      parseHunk text = some ((steps (diffParts oldContent newContent)).map (Step.map ended)) := by
  have walks := diffParts_ok oldContent newContent
  refine ⟨joinLines (hunkHeader (splitLines oldContent).length (splitLines newContent).length ::
    (steps (diffParts oldContent newContent)).map stepLine), ?_, ?_⟩
  · rw [generateUnifiedPatch, body_steps, fileHeader, List.append_assoc]
    have files : ["--- ".toList ++ path, "+++ ".toList ++ path] ≠ [] := List.cons_ne_nil _ _
    exact joinLines_append files (List.cons_ne_nil _ _)
  · rw [parseHunk, splitChar_joinLines (List.cons_ne_nil _ _) (hunk_clear walks _ _)]
    dsimp only
    have counted : hunkHeader (splitLines oldContent).length (splitLines newContent).length =
        hunkHeader (before ((steps (diffParts oldContent newContent)).map (Step.map ended))).length
          (after ((steps (diffParts oldContent newContent)).map (Step.map ended))).length := by
      rw [before_map, after_map, List.length_map, List.length_map, walks.starts, walks.ends]
    rw [parseBody_steps, counted]
    simp [guard]

end text

section application

/-- The last line of the content, if there is one, has its line feed. -/
def Terminated (content : Str) : Prop := content = [] ∨ content.getLast? = some '\n'

variable {content : Str}

theorem terminated_iff : Terminated content ↔ (Framing.pieces '\n' content).2 = [] := by
  constructor
  · rintro (rfl | last)
    · rfl
    · obtain ⟨front, rfl⟩ := List.getLast?_eq_some_iff.mp last
      exact Framing.pieces_ended '\n' front
  · intro whole
    have flat := Framing.pieces_flatten '\n' content
    rw [whole, List.append_nil] at flat
    rcases List.eq_nil_or_concat' (Framing.pieces '\n' content).1 with none | ⟨front, last, split⟩
    · rw [none] at flat
      exact .inl flat.symm
    · rw [split] at flat
      right
      rw [← flat]
      simp

theorem lines_terminated (terminated : Terminated content) :
    splitLinesWithEndings content = (splitLines content).map ended := by
  have whole := terminated_iff.mp terminated
  rw [splitLinesWithEndings, splitLines, splitChar, whole]
  simp [ended]

theorem lines_unterminated (unterminated : ¬ Terminated content) :
    ∃ front last, splitLines content = front ++ [last] ∧
      splitLinesWithEndings content = front.map ended ++ [last] := by
  have more : (Framing.pieces '\n' content).2 ≠ [] := fun whole =>
    unterminated (terminated_iff.mpr whole)
  refine ⟨(Framing.pieces '\n' content).1, (Framing.pieces '\n' content).2, ?_, ?_⟩
  · rw [splitLines, splitChar]
    simp [more]
  · rw [splitLinesWithEndings, if_neg more]
    rfl

theorem terminated_of_prefix
    (inside : (splitLines content).map ended <+: splitLinesWithEndings content) :
    Terminated content := by
  by_contra unterminated
  obtain ⟨front, last, lines, endings⟩ := lines_unterminated unterminated
  rw [lines, endings, List.map_append] at inside
  have same := inside.eq_of_length (by simp)
  have ends := List.append_cancel_left same
  have longer := congrArg List.length (List.cons.inj ends).1
  rw [ended, List.length_append, List.length_singleton] at longer
  omega

theorem terminated_of_flatten (same : ((splitLines content).map ended).flatten = content) :
    Terminated content := by
  by_contra unterminated
  obtain ⟨front, last, lines, endings⟩ := lines_unterminated unterminated
  have flat := splitLinesWithEndings_flatten content
  rw [endings, List.flatten_append] at flat
  rw [lines, List.map_append, List.flatten_append] at same
  have longer := congrArg List.length (same.trans flat.symm)
  rw [List.length_append, List.length_append] at longer
  simp [ended] at longer

theorem ended_injective : Function.Injective ended := fun _ _ same => List.append_cancel_right same

theorem applyHunk_script {hunk : Hunk} {oldContent newContent : Str}
    (applied : applyHunk hunk oldContent = some newContent) :
    ∃ rest : List Str, before (hunk ++ rest.map .keep) = splitLinesWithEndings oldContent ∧
      after (hunk ++ rest.map .keep) = splitLinesWithEndings newContent := by
  unfold applyHunk at applied
  dsimp only at applied
  split at applied
  · next inside =>
    split at applied
    · next lines =>
      cases applied
      obtain ⟨rest, split⟩ := inside
      refine ⟨rest, ?_, ?_⟩
      · rw [before_append, before_keep, split]
      · rw [after_append, after_keep, lines, ← split, List.drop_left]
    · cases applied
  · cases applied

variable {path oldContent newContent : Str}

theorem terminated_of_minimal
    (minimal : Minimal (generateUnifiedPatch path oldContent newContent) path oldContent
      newContent) : Terminated oldContent ∧ Terminated newContent := by
  obtain ⟨text, same, read⟩ := generateUnifiedPatch_read path oldContent newContent
  have walks := diffParts_ok oldContent newContent
  obtain ⟨text', hunk, same', read', applied, _⟩ := minimal
  rw [same, List.append_cancel_left_eq] at same'
  subst same'
  rw [read] at read'
  cases read'
  unfold applyHunk at applied
  rw [before_map, after_map, walks.starts, walks.ends] at applied
  dsimp only at applied
  split at applied
  · next inside =>
    have old := terminated_of_prefix inside
    refine ⟨old, ?_⟩
    rw [lines_terminated old, List.drop_length, List.append_nil] at applied
    split at applied
    · exact terminated_of_flatten (Option.some.inj applied)
    · cases applied
  · cases applied

theorem minimal_of_terminated (old : Terminated oldContent) (new : Terminated newContent) :
    Minimal (generateUnifiedPatch path oldContent newContent) path oldContent newContent := by
  obtain ⟨text, same, read⟩ := generateUnifiedPatch_read path oldContent newContent
  have walks := diffParts_ok oldContent newContent
  generalize steps (diffParts oldContent newContent) = script at read walks
  have starts : before (script.map (Step.map ended)) = splitLinesWithEndings oldContent := by
    rw [before_map, walks.starts, lines_terminated old]
  have ends : after (script.map (Step.map ended)) = splitLinesWithEndings newContent := by
    rw [after_map, walks.ends, lines_terminated new]
  refine ⟨text, _, same, read, ?_, fun other applied => ?_⟩
  · rw [applyHunk]
    dsimp only
    rw [starts, ends, if_pos List.prefix_rfl, List.drop_length, List.append_nil,
      splitLinesWithEndings_flatten, if_pos rfl]
  · obtain ⟨rest, otherStarts, otherEnds⟩ := applyHunk_script applied
    have longest : (kept (script.map (Step.map ended))).length =
        common (before (script.map (Step.map ended))) (after (script.map (Step.map ended))) := by
      rw [kept_map, List.length_map, walks.longest, before_map, after_map, walks.starts, walks.ends,
        common_map ended_injective]
    have few := fewest (starts.trans otherStarts.symm) (ends.trans otherEnds.symm) longest
    rw [removals_keep, additions_keep] at few
    exact few

/-- The patch of an edit is right and smallest exactly if both contents end with a line feed, as
far as they have lines. -/
theorem generateUnifiedPatch_iff (path oldContent newContent : Str) :
    Minimal (generateUnifiedPatch path oldContent newContent) path oldContent newContent ↔
      Terminated oldContent ∧ Terminated newContent :=
  ⟨terminated_of_minimal, fun terminated => minimal_of_terminated terminated.1 terminated.2⟩

/-- A last line without a line feed is written like one with it. -/
theorem unterminated_patch_wrong :
    ¬ ∀ path oldContent newContent,
      Minimal (generateUnifiedPatch path oldContent newContent) path oldContent newContent := by
  intro always
  rcases (terminated_of_minimal (always ['f'] ['a'] ['b'])).1 with empty | last
  · cases empty
  · exact absurd last (by decide)

end application

end PiRust.EditTool
