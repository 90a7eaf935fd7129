import PiRust.EditTool
import PiRust.SplicedLines

/- Replacing parts of a base while the lines that no replacement touches are kept from the
original. -/
namespace PiRust.EditTool

open Splice List

def TextReplacement.region (replacement : TextReplacement) : Region Char :=
  ⟨replacement.matchIndex, replacement.matchLength, replacement.newText⟩

section lines

variable {content : Str}

theorem splitLinesWithEndings_flatten (content : Str) :
    (splitLinesWithEndings content).flatten = content := by
  have whole := Framing.pieces_flatten '\n' content
  rw [splitLinesWithEndings, flatten_append]
  split
  · next ended =>
    rw [ended] at whole
    exact whole
  · simpa using whole

theorem lineSpans_length (content : Str) :
    (lineSpans content).length = (splitLinesWithEndings content).length := by
  have go : ∀ (lines : List Str) offset, (lineSpans.go offset lines).length = lines.length := by
    intro lines
    induction lines with
    | nil => exact fun _ => rfl
    | cons line rest ih => exact fun offset => congrArg (· + 1) (ih _)
  exact go _ 0

abbrev lineStart (lines : List Str) (i : Nat) : Nat := startOf Char.utf8Size lines i

abbrev LineTouched (lines : List Str) (replacement : TextReplacement) (i : Nat) : Prop :=
  replacement.region.Touches Char.utf8Size lines i

theorem lineSpans_getElem? {i : Nat} (inside : i < (splitLinesWithEndings content).length) :
    (lineSpans content)[i]? = some ⟨lineStart (splitLinesWithEndings content) i,
      lineStart (splitLinesWithEndings content) (i + 1)⟩ := by
  have go : ∀ (lines : List Str) offset i, i < lines.length →
      (lineSpans.go offset lines)[i]? =
        some ⟨offset + lineStart lines i, offset + lineStart lines (i + 1)⟩ := by
    intro lines
    induction lines with
    | nil => exact fun _ i inside => absurd inside (Nat.not_lt_zero i)
    | cons line rest ih =>
      intro offset i inside
      cases i with
      | zero => simp [lineSpans.go, lineStart, startOf, Str.len]
      | succ i =>
        have later := ih (offset + Str.len line) i (Nat.lt_of_succ_lt_succ inside)
        rw [lineSpans.go, getElem?_cons_succ, later]
        simp [lineStart, startOf, Str.len, Nat.add_assoc]
  have here := go _ 0 i inside
  rw [Nat.zero_add, Nat.zero_add] at here
  exact here

/-- The lines `first` to `last`, `last` excluded, are those that the replacement touches. -/
structure TouchedLines (lines : List Str) (replacement : TextReplacement) (first last : Nat) :
    Prop where
  ordered : first < last
  inside : last ≤ lines.length
  starts : lineStart lines first ≤ replacement.matchIndex
  ends : replacement.matchIndex + replacement.matchLength ≤ lineStart lines last
  touched : ∀ i, first ≤ i → i < last → LineTouched lines replacement i

theorem findIdx?_first {α : Type} {p : α → Bool} {xs : List α} {i : Nat} {x : α}
    (here : xs[i]? = some x) (holds : p x = true) :
    ∃ j ≤ i, xs.findIdx? p = some j := by
  have found : (xs.findIdx? p).isSome := by
    rw [findIdx?_isSome, any_eq_true]
    exact ⟨x, mem_of_getElem? here, holds⟩
  obtain ⟨j, found⟩ := Option.isSome_iff_exists.mp found
  refine ⟨j, ?_, found⟩
  by_contra late
  obtain ⟨_, _, others⟩ := findIdx?_eq_some_iff_getElem.mp found
  obtain ⟨inside, same⟩ := List.getElem?_eq_some_iff.mp here
  exact others i (by omega) (by rw [same]; exact holds)

/-- What `position` stops at, and what it has passed. -/
theorem findIdx?_spans {p : LineSpan → Bool} {first j : Nat}
    (found : ((lineSpans content).drop first).findIdx? p = some j) :
    first + j < (splitLinesWithEndings content).length ∧
      p ⟨lineStart (splitLinesWithEndings content) (first + j),
        lineStart (splitLinesWithEndings content) (first + j + 1)⟩ = true ∧
      ∀ m < j, p ⟨lineStart (splitLinesWithEndings content) (first + m),
        lineStart (splitLinesWithEndings content) (first + m + 1)⟩ = false := by
  obtain ⟨inside, holds, others⟩ := findIdx?_eq_some_iff_getElem.mp found
  rw [length_drop, lineSpans_length] at inside
  have reads : ∀ m (within : m < ((lineSpans content).drop first).length),
      first + m < (splitLinesWithEndings content).length →
      ((lineSpans content).drop first)[m] = ⟨lineStart (splitLinesWithEndings content) (first + m),
        lineStart (splitLinesWithEndings content) (first + m + 1)⟩ := by
    intro m within bound
    apply Option.some.inj
    rw [← getElem?_eq_getElem, getElem?_drop, lineSpans_getElem? bound]
  refine ⟨by omega, ?_, fun m earlier => ?_⟩
  · rw [reads j _ (by omega)] at holds
    exact holds
  · have passed := others m earlier
    rw [reads m _ (by omega)] at passed
    exact Bool.eq_false_iff.mpr passed

theorem endLineFrom_ok {first stop : Nat} (inside : first < (splitLinesWithEndings content).length)
    (bounded : stop ≤ width Char.utf8Size content) :
    ∃ last, endLineFrom (lineSpans content) stop first = some last ∧ first ≤ last ∧
      last < (splitLinesWithEndings content).length ∧
      stop ≤ lineStart (splitLinesWithEndings content) (last + 1) ∧
      ∀ i, first ≤ i → i < last → lineStart (splitLinesWithEndings content) (i + 1) < stop := by
  obtain ⟨k, count⟩ : ∃ k, (splitLinesWithEndings content).length = first + k + 1 :=
    Nat.exists_eq_add_of_lt inside
  have whole : lineStart (splitLinesWithEndings content) (first + k + 1) =
      width Char.utf8Size content := by
    rw [lineStart, ← count, startOf_length, splitLinesWithEndings_flatten]
  have reached : ((lineSpans content).drop first)[k]? = some
      ⟨lineStart (splitLinesWithEndings content) (first + k),
        lineStart (splitLinesWithEndings content) (first + k + 1)⟩ := by
    rw [getElem?_drop, lineSpans_getElem? (by omega)]
  obtain ⟨j, _, found⟩ := findIdx?_first (p := fun line => decide (¬ line.end < stop)) reached
    (by simp only [whole]; exact decide_eq_true (Nat.not_lt.mpr bounded))
  obtain ⟨bound, stops, passed⟩ := findIdx?_spans found
  refine ⟨first + j, by rw [endLineFrom, found]; rfl, Nat.le_add_right _ _, bound, ?_, ?_⟩
  · exact Nat.not_lt.mp (of_decide_eq_true stops)
  · intro i after before
    have here := passed (i - first) (by omega)
    rw [show first + (i - first) = i by omega] at here
    exact Decidable.not_not.mp (of_decide_eq_false here)

theorem replacementLineRange_ok {replacement : TextReplacement}
    (within : replacement.region.Within Char.utf8Size content) :
    ∃ first last, replacementLineRange (lineSpans content) replacement = some (first, last) ∧
      TouchedLines (splitLinesWithEndings content) replacement first last := by
  obtain ⟨nonempty, old, ⟨front, back, split, start⟩, fits⟩ := within
  have bounded : replacement.matchIndex + replacement.matchLength ≤
      width Char.utf8Size content := by
    rw [split, width_append, width_append, start, fits]
    exact Nat.le_add_right _ _
  have whole : lineStart (splitLinesWithEndings content) (splitLinesWithEndings content).length =
      width Char.utf8Size content := by
    rw [lineStart, startOf_length, splitLinesWithEndings_flatten]
  have early : replacement.matchIndex < lineStart (splitLinesWithEndings content)
      (splitLinesWithEndings content).length := by
    have : 0 < replacement.matchLength := nonempty
    rw [whole]
    omega
  obtain ⟨i, inside, below, above⟩ := exists_line early
  have reached := lineSpans_getElem? inside
  obtain ⟨first, _, found⟩ := findIdx?_first (p := fun line : LineSpan =>
    decide (replacement.matchIndex ≥ line.start ∧ replacement.matchIndex < line.end)) reached
    (decide_eq_true ⟨below, above⟩)
  rw [← drop_zero (l := lineSpans content)] at found
  obtain ⟨bound, holds, _⟩ := findIdx?_spans found
  rw [Nat.zero_add] at bound holds
  rw [drop_zero] at found
  obtain ⟨starts, enters⟩ := of_decide_eq_true holds
  obtain ⟨last, ends, ordered, inside, covered, passed⟩ := endLineFrom_ok bound bounded
  refine ⟨first, last + 1, ?_, Nat.lt_succ_of_le ordered, inside, starts, covered, ?_⟩
  · rw [replacementLineRange, found]
    simp only [Option.bind_eq_bind, Option.bind_some, ends]
    rfl
  · intro j after before
    have nonempty : 0 < replacement.matchLength := nonempty
    refine ⟨?_, ?_⟩
    · rcases Nat.lt_or_eq_of_le after with later | same
      · have := passed (j - 1) (by omega) (by omega)
        rw [Nat.sub_add_cancel (by omega)] at this
        exact this
      · rw [← same]
        exact Nat.lt_of_le_of_lt starts (Nat.lt_add_of_pos_right nonempty)
    · exact Nat.lt_of_lt_of_le enters (startOf_mono (Nat.succ_le_succ after))

end lines

section groups

variable {lines : List Str}

/-- A group of touched lines holds its replacements. -/
structure LineGroup.Fits (lines : List Str) (group : LineGroup) : Prop where
  ordered : group.startLine < group.endLine
  inside : group.endLine ≤ lines.length
  starts : ∀ replacement ∈ group.replacements,
    lineStart lines group.startLine ≤ replacement.matchIndex
  ends : ∀ replacement ∈ group.replacements,
    replacement.matchIndex + replacement.matchLength ≤ lineStart lines group.endLine
  touched : ∀ i, group.startLine ≤ i → i < group.endLine →
    ∃ replacement ∈ group.replacements, LineTouched lines replacement i

/-- Groups that do not share a line. -/
structure Grouping (lines : List Str) (groups : List LineGroup) (read : List TextReplacement) :
    Prop where
  fits : ∀ group ∈ groups, group.Fits lines
  apart : groups.Pairwise fun former latter => former.endLine ≤ latter.startLine
  all : groups.flatMap LineGroup.replacements = read

def InOrder (replacements : List TextReplacement) : Prop :=
  replacements.Pairwise fun former latter =>
    former.matchIndex + former.matchLength ≤ latter.matchIndex

variable {groups : List LineGroup} {read : List TextReplacement} {replacement : TextReplacement}
  {first last : Nat}

variable {group : LineGroup}

theorem TouchedLines.behind (range : TouchedLines lines replacement first last)
    (fits : group.Fits lines)
    (order : ∀ former ∈ group.replacements,
      former.matchIndex + former.matchLength ≤ replacement.matchIndex) :
    group.endLine ≤ first + 1 := by
  obtain ⟨former, member, reaches⟩ :=
    fits.touched (group.endLine - 1) (Nat.le_sub_one_of_lt fits.ordered)
      (Nat.sub_one_lt_of_lt fits.ordered)
  have before : lineStart lines (group.endLine - 1) < replacement.matchIndex :=
    Nat.lt_of_lt_of_le reaches.1 (order former member)
  have enters : replacement.matchIndex < lineStart lines (first + 1) :=
    (range.touched first (Nat.le_refl first) range.ordered).2
  by_contra later
  have : lineStart lines (first + 1) ≤ lineStart lines (group.endLine - 1) :=
    startOf_mono (by omega)
  omega

theorem TouchedLines.alone (range : TouchedLines lines replacement first last) :
    LineGroup.Fits lines ⟨first, last, [replacement]⟩ where
  __ := range
  starts := fun _ member => mem_singleton.mp member ▸ range.starts
  ends := fun _ member => mem_singleton.mp member ▸ range.ends
  touched := fun i start stop =>
    ⟨replacement, mem_singleton_self _, range.touched i start stop⟩

theorem TouchedLines.join (range : TouchedLines lines replacement first last)
    (fits : group.Fits lines) (meets : first + 1 = group.endLine) :
    LineGroup.Fits lines { group with
      endLine := max group.endLine last
      replacements := group.replacements ++ [replacement] } where
  ordered := Nat.lt_of_lt_of_le fits.ordered (Nat.le_max_left _ _)
  inside := Nat.max_le.mpr ⟨fits.inside, range.inside⟩
  starts := by
    intro other member
    rcases mem_append.mp member with former | this
    · exact fits.starts other former
    · rw [mem_singleton.mp this]
      have early : group.startLine ≤ first := by
        have := fits.ordered
        omega
      exact Nat.le_trans (startOf_mono early) range.starts
  ends := by
    intro other member
    rcases mem_append.mp member with former | this
    · exact Nat.le_trans (fits.ends other former) (startOf_mono (Nat.le_max_left _ _))
    · rw [mem_singleton.mp this]
      exact Nat.le_trans range.ends (startOf_mono (Nat.le_max_right _ _))
  touched := by
    intro i start stop
    by_cases before : i < group.endLine
    · obtain ⟨former, member, touches⟩ := fits.touched i start before
      exact ⟨former, mem_append_left _ member, touches⟩
    · have late : i < last := by
        have : i < max group.endLine last := stop
        omega
      exact ⟨replacement, mem_append_right _ (mem_singleton_self _),
        range.touched i (by omega) late⟩

theorem Grouping.push (grouping : Grouping lines groups read)
    (range : TouchedLines lines replacement first last)
    (clear : ∀ group ∈ groups, group.endLine ≤ first) :
    Grouping lines (groups ++ [⟨first, last, [replacement]⟩]) (read ++ [replacement]) where
  fits := by
    intro group member
    rcases mem_append.mp member with former | this
    · exact grouping.fits group former
    · rw [mem_singleton.mp this]
      exact range.alone
  apart := by
    refine pairwise_append.mpr ⟨grouping.apart, pairwise_singleton _ _, ?_⟩
    intro group former other this
    rw [mem_singleton.mp this]
    exact clear group former
  all := by
    rw [flatMap_append, grouping.all]
    rfl

theorem Grouping.join {front : List LineGroup}
    (grouping : Grouping lines (front ++ [group]) read)
    (range : TouchedLines lines replacement first last) (meets : first + 1 = group.endLine) :
    Grouping lines (front ++ [{ group with
      endLine := max group.endLine last
      replacements := group.replacements ++ [replacement] }]) (read ++ [replacement]) where
  fits := by
    intro other member
    rcases mem_append.mp member with former | this
    · exact grouping.fits other (mem_append_left _ former)
    · rw [mem_singleton.mp this]
      exact range.join (grouping.fits group (by simp)) meets
  apart := by
    obtain ⟨former, _, before⟩ := pairwise_append.mp grouping.apart
    refine pairwise_append.mpr ⟨former, pairwise_singleton _ _, ?_⟩
    intro other earlier joined this
    rw [mem_singleton.mp this]
    exact before other earlier group (mem_singleton_self _)
  all := by
    rw [← grouping.all, flatMap_append, flatMap_append]
    simp

theorem groupReplacements_ok {content : Str} {rest : List TextReplacement}
    (grouping : Grouping (splitLinesWithEndings content) groups read)
    (order : InOrder (read ++ rest))
    (within : ∀ replacement ∈ rest, replacement.region.Within Char.utf8Size content) :
    ∃ out, groupReplacements (lineSpans content) groups rest = some out ∧
      Grouping (splitLinesWithEndings content) out (read ++ rest) := by
  induction rest generalizing groups read with
  | nil => exact ⟨groups, rfl, by rw [append_nil]; exact grouping⟩
  | cons replacement rest ih =>
    obtain ⟨first, last, ranged, range⟩ :=
      replacementLineRange_ok (within replacement mem_cons_self)
    have former : ∀ group ∈ groups, ∀ other ∈ group.replacements,
        other.matchIndex + other.matchLength ≤ replacement.matchIndex := by
      intro group member other inside
      have listed : other ∈ read := by
        rw [← grouping.all]
        exact mem_flatMap.mpr ⟨group, member, inside⟩
      exact (pairwise_append.mp order).2.2 other listed replacement mem_cons_self
    have later : ∀ {next : List LineGroup},
        Grouping (splitLinesWithEndings content) next (read ++ [replacement]) →
        ∃ out, groupReplacements (lineSpans content) next rest = some out ∧
          Grouping (splitLinesWithEndings content) out (read ++ replacement :: rest) := by
      intro next grouped
      rw [append_cons] at order ⊢
      exact ih grouped order fun other member => within other (mem_cons_of_mem _ member)
    rw [groupReplacements, ranged]
    simp only [Option.bind_eq_bind, Option.bind_some]
    cases groups using reverseRecOn with
    | nil => exact later (grouping.push range fun group member => nomatch member)
    | append_singleton front group _ =>
      have inside : group ∈ front ++ [group] := mem_append_right _ (mem_singleton_self _)
      have fits := grouping.fits group inside
      have meets := range.behind fits (former group inside)
      rw [getLast?_concat, dropLast_concat]
      simp only
      split
      · exact later (grouping.join range (by omega))
      · next apart =>
        refine later (grouping.push range fun other member => ?_)
        rcases mem_append.mp member with earlier | this
        · have before := (pairwise_append.mp grouping.apart).2.2 other earlier group
            (mem_singleton_self _)
          have := fits.ordered
          omega
        · rw [mem_singleton.mp this]
          omega

end groups

section splice

variable {content : Str} {replacements : List TextReplacement} {offset : Nat}

theorem splitAt_replaceRange {text out : Str} {region : Region Char}
    (replaced : Splice.replaceRange Char.utf8Size text region = some out) :
    ∃ before old after, Str.splitAt text region.start = some (before, old ++ after) ∧
      Str.splitAt text (region.start + region.length) = some (before ++ old, after) ∧
      out = before ++ region.new ++ after := by
  rw [Splice.replaceRange] at replaced
  obtain ⟨⟨before, rest⟩, front, replaced⟩ := Option.bind_eq_some_iff.mp replaced
  obtain ⟨⟨old, after⟩, back, same⟩ := Option.bind_eq_some_iff.mp replaced
  cases same
  obtain ⟨whole, start⟩ := cutAt_sound front
  obtain ⟨inner, length⟩ := cutAt_sound back
  simp only at inner
  subst inner whole
  refine ⟨before, old, after, front, ?_, rfl⟩
  rw [Str.splitAt, ← start, ← length, ← width_append, ← append_assoc]
  exact cutAt_append Char.utf8Size_pos _ _

theorem foldlM_splice {ordered : List TextReplacement} {text out : Str}
    (later : ∀ replacement ∈ ordered, offset ≤ replacement.matchIndex)
    (replaced : (ordered.map fun replacement => replacement.region.behind offset).foldlM
      (Splice.replaceRange Char.utf8Size) text = some out) :
    (ordered.foldlM (fun result replacement => do
      guard (offset ≤ replacement.matchIndex)
      let matchIndex := replacement.matchIndex - offset
      let before ← Str.splitAt result matchIndex
      let after ← Str.splitAt result (matchIndex + replacement.matchLength)
      return before.1 ++ replacement.newText ++ after.2) text : Sliced Str) = some out := by
  induction ordered generalizing text with
  | nil => exact replaced
  | cons replacement ordered ih =>
    rw [map_cons, foldlM_cons] at replaced
    obtain ⟨next, here, replaced⟩ := Option.bind_eq_some_iff.mp replaced
    obtain ⟨before, old, after, first, second, rfl⟩ := splitAt_replaceRange here
    have inside : guard (offset ≤ replacement.matchIndex) = some () :=
      if_pos (later replacement mem_cons_self)
    rw [foldlM_cons, inside]
    simp only [TextReplacement.region, Region.behind] at first second
    simp only [Option.bind_eq_bind, Option.bind_some, first, second]
    exact ih (fun other member => later other (mem_cons_of_mem _ member)) replaced

theorem applyReplacements_ok
    (clear : (replacements.map TextReplacement.region).Pairwise Region.Clear)
    (later : ∀ replacement ∈ replacements, offset ≤ replacement.matchIndex)
    (within : ∀ replacement ∈ replacements,
      (replacement.region.behind offset).Within Char.utf8Size content) :
    applyReplacements content replacements offset =
      some (rewrite Char.utf8Size (fun c => [c]) (replacements.map TextReplacement.region) offset
        content) := by
  let descending : TextReplacement → TextReplacement → Prop := fun a b => b.matchIndex ≤ a.matchIndex
  have same : (replacements.insertionSort descending).Perm replacements :=
    perm_insertionSort descending replacements
  have listed : ∀ replacement ∈ replacements.insertionSort descending,
      replacement ∈ replacements := fun replacement => same.mem_iff.mp
  have total : Std.Total descending := ⟨fun a b => Nat.le_total _ _⟩
  have trans : IsTrans TextReplacement descending :=
    ⟨fun _ _ _ first second => Nat.le_trans second first⟩
  have sorted := pairwise_insertionSort descending replacements
  have full : ∀ region ∈ replacements.map TextReplacement.region, 0 < region.length := by
    intro region member
    obtain ⟨replacement, inside, rfl⟩ := mem_map.mp member
    exact (within replacement inside).1
  have order : LastFirst ((replacements.insertionSort descending).map fun replacement =>
      replacement.region.behind offset) := by
    refine lastFirst_of_sorted ?_ ?_ ?_
    · rw [pairwise_map] at clear ⊢
      refine ((same.pairwise_iff fun apart => apart.symm).mpr clear).imp_of_mem
        fun left right apart => ?_
      exact apart.behind (later _ (listed _ left)) (later _ (listed _ right))
    · intro region member
      obtain ⟨replacement, inside, rfl⟩ := mem_map.mp member
      exact (within replacement (listed replacement inside)).1
    · rw [pairwise_map]
      exact sorted.imp fun below => Nat.sub_le_sub_right below offset
  have folded := order.foldlM Char.utf8Size_pos fun region member => by
    obtain ⟨replacement, inside, rfl⟩ := mem_map.mp member
    exact within replacement (listed replacement inside)
  have moved : (replacements.insertionSort descending).map (fun replacement =>
      replacement.region.behind offset) =
      ((replacements.insertionSort descending).map TextReplacement.region).map
        (Region.behind offset) := by
    rw [map_map]
    rfl
  have spliced : applyReplacements content replacements offset = some (rewrite Char.utf8Size
      (fun c => [c]) ((replacements.insertionSort descending).map fun replacement =>
        replacement.region.behind offset) 0 content) :=
    foldlM_splice (fun replacement member => later replacement (listed replacement member)) folded
  have starts : ∀ region ∈ (replacements.insertionSort descending).map TextReplacement.region,
      offset ≤ region.start := by
    intro region member
    obtain ⟨replacement, inside, rfl⟩ := mem_map.mp member
    exact later replacement (listed replacement inside)
  rw [spliced, moved, rewrite_behind _ _ _ starts, Nat.add_zero,
    rewrite_perm (same.map TextReplacement.region).symm (starts_differ clear full)]

end splice

section parts

variable {original base : Str} {replacements : List TextReplacement} {parts : List Str}

def Untouched (lines : List Str) (replacements : List TextReplacement) (i : Nat) : Prop :=
  ∀ replacement ∈ replacements, ¬ LineTouched lines replacement i

instance (lines : List Str) (i : Nat) : Decidable (Untouched lines replacements i) :=
  decidableBAll (fun replacement => ¬ LineTouched lines replacement i) replacements

/-- Untouched lines are original, the others rewritten. -/
structure LineParts (original base : Str) (replacements : List TextReplacement)
    (parts : List Str) : Prop where
  length : parts.length = (splitLinesWithEndings base).length
  kept : ∀ i < parts.length, Untouched (splitLinesWithEndings base) replacements i →
    parts[i]? = (splitLinesWithEndings original)[i]?
  rewritten : ∀ i line, (splitLinesWithEndings base)[i]? = some line →
    ¬ Untouched (splitLinesWithEndings base) replacements i →
    parts[i]? = some (rewrite Char.utf8Size (fun c => [c])
      (replacements.map TextReplacement.region) (lineStart (splitLinesWithEndings base) i) line)

theorem exists_lineParts (original base : Str) (replacements : List TextReplacement)
    (same : (splitLinesWithEndings original).length = (splitLinesWithEndings base).length) :
    ∃ parts, LineParts original base replacements parts := by
  let part : Nat → Str := fun i =>
    if Untouched (splitLinesWithEndings base) replacements i then
      (splitLinesWithEndings original).getD i []
    else rewrite Char.utf8Size (fun c => [c]) (replacements.map TextReplacement.region)
      (lineStart (splitLinesWithEndings base) i) ((splitLinesWithEndings base).getD i [])
  have reads : ∀ i < (splitLinesWithEndings base).length,
      ((range (splitLinesWithEndings base).length).map part)[i]? = some (part i) := by
    intro i inside
    rw [getElem?_map, getElem?_range inside]
    rfl
  refine ⟨(range (splitLinesWithEndings base).length).map part, ?_, ?_, ?_⟩
  · rw [length_map, length_range]
  · intro i inside untouched
    rw [length_map, length_range] at inside
    rw [reads i inside]
    simp only [part, untouched, if_true]
    rw [← same] at inside
    rw [getD, getElem?_eq_getElem inside, Option.getD_some]
  · intro i line here touched
    have inside := (List.getElem?_eq_some_iff.mp here).1
    rw [reads i inside]
    simp [part, touched, here]

theorem slice_between {first last : Nat} (ordered : first ≤ last)
    (inside : last ≤ (splitLinesWithEndings base).length) :
    Str.slice base (lineStart (splitLinesWithEndings base) first)
        (lineStart (splitLinesWithEndings base) last) =
      some (between first last (splitLinesWithEndings base)).flatten := by
  have split := flatten_split ordered (splitLinesWithEndings base)
  rw [splitLinesWithEndings_flatten] at split
  have outer : Str.splitAt base (lineStart (splitLinesWithEndings base) last) =
      some (((splitLinesWithEndings base).take first).flatten ++
        (between first last (splitLinesWithEndings base)).flatten,
          ((splitLinesWithEndings base).drop last).flatten) := by
    have cut := cutAt_append Char.utf8Size_pos (((splitLinesWithEndings base).take first).flatten ++
      (between first last (splitLinesWithEndings base)).flatten)
      ((splitLinesWithEndings base).drop last).flatten
    rw [← split, width_append, ← startOf, ← startOf_between ordered inside] at cut
    exact cut
  rw [Str.slice, outer]
  simp only [Option.bind_eq_bind, Option.bind_some]
  rw [lineStart, startOf, Str.splitAt, cutAt_append Char.utf8Size_pos]
  rfl

theorem untouched_gap {groups : List LineGroup} {front : List TextReplacement}
    {written i : Nat} (stop : Nat) (fits : ∀ group ∈ groups, group.Fits (splitLinesWithEndings base))
    (all : front ++ groups.flatMap LineGroup.replacements = replacements)
    (before : ∀ replacement ∈ front, replacement.matchIndex + replacement.matchLength ≤
      lineStart (splitLinesWithEndings base) written)
    (behind : ∀ group ∈ groups, stop ≤ group.startLine) (late : written ≤ i) (early : i < stop) :
    Untouched (splitLinesWithEndings base) replacements i := by
  intro replacement member touched
  obtain ⟨reaches, starts⟩ := touched
  rw [← all] at member
  rcases mem_append.mp member with former | later
  · have ends : replacement.matchIndex + replacement.matchLength ≤
        lineStart (splitLinesWithEndings base) i :=
      (before replacement former).trans (startOf_mono late)
    exact absurd reaches (Nat.not_lt.mpr ends)
  · obtain ⟨group, listed, own⟩ := mem_flatMap.mp later
    have := behind group listed
    have below : lineStart (splitLinesWithEndings base) (i + 1) ≤
        lineStart (splitLinesWithEndings base) group.startLine := startOf_mono (by omega)
    exact absurd starts (Nat.not_lt.mpr (below.trans ((fits group listed).starts replacement own)))

theorem sliceLines_kept (same : (splitLinesWithEndings original).length =
      (splitLinesWithEndings base).length)
    (lines : LineParts original base replacements parts) {written stop : Nat}
    (ordered : written ≤ stop) (inside : stop ≤ (splitLinesWithEndings base).length)
    (gap : ∀ i, written ≤ i → i < stop → Untouched (splitLinesWithEndings base) replacements i) :
    sliceLines (splitLinesWithEndings original) written stop = some (between written stop parts) := by
  have bounds : guard (written ≤ stop ∧ stop ≤ (splitLinesWithEndings original).length) =
      some () := if_pos ⟨ordered, by rw [same]; exact inside⟩
  have kept : between written stop parts = between written stop (splitLinesWithEndings original) :=
    between_congr fun i late early =>
      lines.kept i (by rw [lines.length]; omega) (gap i late early)
  rw [sliceLines, bounds, kept]
  rfl

theorem applyReplacements_group {group : LineGroup} {front back : List TextReplacement}
    (lines : LineParts original base replacements parts)
    (clear : (replacements.map TextReplacement.region).Pairwise Region.Clear)
    (within : ∀ replacement ∈ replacements, replacement.region.Within Char.utf8Size base)
    (fits : group.Fits (splitLinesWithEndings base))
    (all : front ++ group.replacements ++ back = replacements)
    (before : ∀ replacement ∈ front, replacement.matchIndex + replacement.matchLength ≤
      lineStart (splitLinesWithEndings base) group.startLine)
    (behind : ∀ replacement ∈ back,
      lineStart (splitLinesWithEndings base) group.endLine ≤ replacement.matchIndex) :
    applyReplacements (between group.startLine group.endLine (splitLinesWithEndings base)).flatten
        group.replacements (lineStart (splitLinesWithEndings base) group.startLine) =
      some (between group.startLine group.endLine parts).flatten := by
  have ordered := Nat.le_of_lt fits.ordered
  have member : ∀ replacement ∈ group.replacements, replacement ∈ replacements := by
    intro replacement own
    rw [← all]
    exact mem_append_left _ (mem_append_right _ own)
  have own : (group.replacements.map TextReplacement.region).Pairwise Region.Clear := by
    rw [← all, map_append, map_append] at clear
    exact (pairwise_append.mp (pairwise_append.mp clear).1).2.1
  have inner : ∀ replacement ∈ group.replacements, (replacement.region.behind
      (lineStart (splitLinesWithEndings base) group.startLine)).Within Char.utf8Size
        (between group.startLine group.endLine (splitLinesWithEndings base)).flatten := by
    intro replacement listed
    have whole := within replacement (member replacement listed)
    rw [← splitLinesWithEndings_flatten base] at whole
    exact whole.between Char.utf8Size_pos ordered fits.inside (fits.starts replacement listed)
      (fits.ends replacement listed)
  have far : ∀ region ∈ front.map TextReplacement.region ++ back.map TextReplacement.region,
      region.start + region.length ≤ lineStart (splitLinesWithEndings base) group.startLine ∧
        0 < region.length ∨
      lineStart (splitLinesWithEndings base) group.startLine + width Char.utf8Size
        (between group.startLine group.endLine (splitLinesWithEndings base)).flatten ≤
          region.start := by
    intro region listed
    rw [← map_append] at listed
    obtain ⟨replacement, member, rfl⟩ := mem_map.mp listed
    rw [lineStart, ← startOf_between ordered fits.inside]
    rcases mem_append.mp member with former | later
    · refine .inl ⟨before replacement former, (within replacement ?_).1⟩
      rw [← all]
      exact mem_append_left _ (mem_append_left _ former)
    · exact .inr (behind replacement later)
  have written := flatten_rewritten (fun c : Char => [c])
    (replacements.map TextReplacement.region) ordered fits.inside
    fun i line start stop here => lines.rewritten i line here fun untouched => by
      obtain ⟨replacement, listed, touches⟩ := fits.touched i start stop
      exact untouched replacement (member replacement listed) touches
  rw [applyReplacements_ok own fits.starts inner, written, ← all, map_append, map_append,
    rewrite_near Char.utf8Size_pos _ _ far]

theorem writeGroups_ok {groups : List LineGroup} {written : Nat}
    (same : (splitLinesWithEndings original).length = (splitLinesWithEndings base).length)
    (lines : LineParts original base replacements parts)
    (clear : (replacements.map TextReplacement.region).Pairwise Region.Clear)
    (within : ∀ replacement ∈ replacements, replacement.region.Within Char.utf8Size base)
    (fits : ∀ group ∈ groups, group.Fits (splitLinesWithEndings base))
    (apart : groups.Pairwise fun former latter => former.endLine ≤ latter.startLine)
    (front : List TextReplacement)
    (all : front ++ groups.flatMap LineGroup.replacements = replacements)
    (before : ∀ replacement ∈ front, replacement.matchIndex + replacement.matchLength ≤
      lineStart (splitLinesWithEndings base) written)
    (behind : ∀ group ∈ groups, written ≤ group.startLine)
    (inside : written ≤ (splitLinesWithEndings base).length) :
    writeGroups (splitLinesWithEndings original) base (lineSpans base) written groups =
      some (between written (splitLinesWithEndings base).length parts).flatten := by
  induction groups generalizing written front with
  | nil =>
    rw [writeGroups, same, sliceLines_kept same lines inside (Nat.le_refl _)
      fun i late early => untouched_gap _ fits all before (forall_mem_nil _) late early]
    rfl
  | cons group rest ih =>
    obtain ⟨next, apart⟩ := pairwise_cons.mp apart
    have own : group.Fits (splitLinesWithEndings base) := fits group mem_cons_self
    have start : written ≤ group.startLine := behind group mem_cons_self
    have fitting : ∀ other ∈ rest, other.Fits (splitLinesWithEndings base) :=
      fun other member => fits other (mem_cons_of_mem _ member)
    have gap := sliceLines_kept same lines start (own.ordered.le.trans own.inside)
      fun i late early => untouched_gap group.startLine fits all before (by
        intro other member
        rcases mem_cons.mp member with rfl | later
        · exact Nat.le_refl _
        · exact own.ordered.le.trans (next other later)) late early
    rw [flatMap_cons, ← append_assoc] at all
    have touched := applyReplacements_group lines clear within own all
      (fun replacement member => (before replacement member).trans (startOf_mono start))
      (fun replacement member => by
        obtain ⟨other, listed, owned⟩ := mem_flatMap.mp member
        exact (startOf_mono (next other listed)).trans
          ((fitting other listed).starts replacement owned))
    have later := ih fitting apart (front ++ group.replacements) all (fun replacement member => by
      rcases mem_append.mp member with former | this
      · exact (before replacement former).trans (startOf_mono (start.trans own.ordered.le))
      · exact own.ends replacement this) next own.inside
    have bound : group.endLine - 1 < (splitLinesWithEndings base).length := by
      have := own.ordered
      have := own.inside
      omega
    have lastLine := lineSpans_getElem? bound
    rw [Nat.sub_add_cancel (Nat.one_le_of_lt own.ordered)] at lastLine
    rw [writeGroups, gap, lineSpans_getElem? (Nat.lt_of_lt_of_le own.ordered own.inside), lastLine]
    simp only [Option.bind_eq_bind, Option.bind_some,
      slice_between own.ordered.le own.inside, touched, later]
    have split := between_append parts start (own.ordered.le.trans own.inside)
      (by rw [lines.length])
    have inner := between_append parts own.ordered.le own.inside (by rw [lines.length])
    rw [← split, ← inner, flatten_append, flatten_append, append_assoc]
    rfl

/-- What each line of the original becomes: a line that no replacement touches stays as it is,
and a maximal run of touched lines is their text in the base with the replacements spliced in. -/
structure Widened (original base : Str) (replacements : List TextReplacement)
    (parts : List Str) : Prop where
  length : parts.length = (splitLinesWithEndings original).length
  kept : ∀ i < parts.length, Untouched (splitLinesWithEndings base) replacements i →
    parts[i]? = (splitLinesWithEndings original)[i]?
  spliced : ∀ first last, MaximalRun Char.utf8Size (splitLinesWithEndings base)
      (replacements.map TextReplacement.region) first last →
    spliceAll Char.utf8Size (between first last (splitLinesWithEndings base)).flatten
        (regionsBetween Char.utf8Size (splitLinesWithEndings base) first last
          (replacements.map TextReplacement.region)) =
      some (between first last parts).flatten
  whole : original = base →
    spliceAll Char.utf8Size original (replacements.map TextReplacement.region) = some parts.flatten

theorem untouched_iff {lines : List Str} {i : Nat} :
    Untouched lines replacements i ↔
      ∀ region ∈ replacements.map TextReplacement.region,
        ¬ region.Touches Char.utf8Size lines i := by
  rw [forall_mem_map]
  rfl

theorem LineParts.own (lines : LineParts base base replacements parts)
    (within : ∀ replacement ∈ replacements, replacement.region.Within Char.utf8Size base)
    {i : Nat} {line : Str} (here : (splitLinesWithEndings base)[i]? = some line) :
    parts[i]? = some (rewrite Char.utf8Size (fun c => [c])
      (replacements.map TextReplacement.region) (lineStart (splitLinesWithEndings base) i)
        line) := by
  by_cases untouched : Untouched (splitLinesWithEndings base) replacements i
  · have inside := (List.getElem?_eq_some_iff.mp here).1
    have far : ∀ region ∈ replacements.map TextReplacement.region,
        region.start + region.length ≤ lineStart (splitLinesWithEndings base) i ∧
          0 < region.length ∨
        lineStart (splitLinesWithEndings base) i + width Char.utf8Size line ≤ region.start := by
      intro region member
      have apart := untouched_iff.mp untouched region member
      obtain ⟨replacement, listed, rfl⟩ := mem_map.mp member
      rw [Region.Touches, startOf_succ here, not_and_or, Nat.not_lt, Nat.not_lt] at apart
      exact apart.imp (fun ends => ⟨ends, (within replacement listed).1⟩) id
    rw [lines.kept i (by rw [lines.length]; exact inside) untouched, here,
      rewrite_far Char.utf8Size_pos _ _ far, flatMap_singleton']
  · exact lines.rewritten i line here untouched

theorem LineParts.widened (lines : LineParts original base replacements parts)
    (same : (splitLinesWithEndings original).length = (splitLinesWithEndings base).length)
    (clear : (replacements.map TextReplacement.region).Pairwise Region.Clear)
    (within : ∀ replacement ∈ replacements, replacement.region.Within Char.utf8Size base) :
    Widened original base replacements parts where
  length := lines.length.trans same.symm
  kept := lines.kept
  spliced := by
    intro first last run
    have inner : ∀ region ∈ replacements.map TextReplacement.region,
        region.Within Char.utf8Size (splitLinesWithEndings base).flatten := by
      rw [splitLinesWithEndings_flatten, forall_mem_map]
      exact within
    have written := flatten_rewritten (fun c : Char => [c])
      (replacements.map TextReplacement.region) run.ordered.le run.inside
      fun i line start stop here => lines.rewritten i line here fun untouched => by
        obtain ⟨region, member, touches⟩ := run.touched i start stop
        exact untouched_iff.mp untouched region member touches
    rw [run.spliceAll Char.utf8Size_pos clear inner, written]
  whole := by
    rintro rfl
    have written := flatten_rewritten (fun c : Char => [c])
      (replacements.map TextReplacement.region)
      (Nat.zero_le (splitLinesWithEndings original).length) (Nat.le_refl _)
      fun i line _ _ here => lines.own within here
    have all : ∀ xs : List Str, xs.length = (splitLinesWithEndings original).length →
        between 0 (splitLinesWithEndings original).length xs = xs := by
      intro xs long
      rw [between, drop_zero, ← long, take_length]
    rw [all parts lines.length, all _ rfl, splitLinesWithEndings_flatten] at written
    rw [written]
    exact spliceAll_eq Char.utf8Size_pos clear (forall_mem_map.mpr within)

theorem LineParts.perm {others : List TextReplacement} (lines : LineParts original base others parts)
    (same : others.Perm replacements)
    (starts : (others.map TextReplacement.region).Pairwise fun former latter =>
      former.start ≠ latter.start) :
    LineParts original base replacements parts where
  length := lines.length
  kept := fun i inside untouched => lines.kept i inside fun replacement member =>
    untouched replacement (same.mem_iff.mp member)
  rewritten := by
    intro i line here touched
    rw [← rewrite_perm (same.map TextReplacement.region) starts]
    exact lines.rewritten i line here fun untouched => touched fun replacement member =>
      untouched replacement (same.mem_iff.mpr member)

/-- Replacements that are in bounds and do not meet are always applied, and widened to lines. -/
theorem preservingUnchangedLines_widened
    (same : (splitLinesWithEndings original).length = (splitLinesWithEndings base).length)
    (within : ∀ replacement ∈ replacements, replacement.region.Within Char.utf8Size base)
    (clear : (replacements.map TextReplacement.region).Pairwise Region.Clear) :
    ∃ parts, applyReplacementsPreservingUnchangedLines original base replacements =
        some (some parts.flatten) ∧ Widened original base replacements parts := by
  let ascending : TextReplacement → TextReplacement → Prop := fun a b => a.matchIndex ≤ b.matchIndex
  let sorted := replacements.insertionSort ascending
  have perm : sorted.Perm replacements := perm_insertionSort ascending replacements
  have inner : ∀ replacement ∈ sorted, replacement.region.Within Char.utf8Size base :=
    fun replacement member => within replacement (perm.mem_iff.mp member)
  have full : ∀ region ∈ sorted.map TextReplacement.region, 0 < region.length :=
    forall_mem_map.mpr fun replacement member => (inner replacement member).1
  have apart : (sorted.map TextReplacement.region).Pairwise Region.Clear :=
    ((perm.map TextReplacement.region).pairwise_iff Region.Clear.symm).mpr clear
  have total : Std.Total ascending := ⟨fun a b => Nat.le_total _ _⟩
  have trans : IsTrans TextReplacement ascending := ⟨fun _ _ _ => Nat.le_trans⟩
  have order : InOrder sorted := pairwise_map.mp
    (apart_of_ordered apart full (pairwise_map.mpr (pairwise_insertionSort ascending _)))
  have start : Grouping (splitLinesWithEndings base) [] [] :=
    ⟨forall_mem_nil _, Pairwise.nil, rfl⟩
  have placed : ∃ out, groupReplacements (lineSpans base) [] sorted = some out ∧
      Grouping (splitLinesWithEndings base) out ([] ++ sorted) :=
    groupReplacements_ok start order inner
  obtain ⟨groups, grouped, grouping⟩ := placed
  obtain ⟨parts, lines⟩ := exists_lineParts original base sorted same
  refine ⟨parts, ?_, (lines.perm perm (starts_differ apart full)).widened same clear within⟩
  have written := writeGroups_ok same lines apart inner grouping.fits grouping.apart []
    grouping.all (forall_mem_nil _) (fun _ _ => Nat.zero_le _) (Nat.zero_le _)
  have whole : between 0 (splitLinesWithEndings base).length parts = parts := by
    rw [between, drop_zero, ← lines.length, take_length]
  rw [whole] at written
  have counts : ¬ (splitLinesWithEndings original).length ≠ (lineSpans base).length := by
    rw [lineSpans_length]
    exact not_not.mpr same
  have arranged : groupReplacements (lineSpans base) []
      (replacements.insertionSort fun a b => a.matchIndex ≤ b.matchIndex) = some groups := grouped
  simp [applyReplacementsPreservingUnchangedLines, counts, arranged, written]

/-- A text with a curly quote in its first line, and its fuzzy form. -/
def curly : Str := ['“', '\n', 'a', 'b', '\n']

def straight : Str := ['"', '\n', 'a', 'b', '\n']

/-- Two letters that adjoin in the second line. -/
def lineEdits : List TextReplacement := [⟨3, 1, ['d']⟩, ⟨2, 1, ['c']⟩]

/-- The quote stays curly when the second line is replaced. -/
theorem curly_widened : ∃ parts, applyReplacementsPreservingUnchangedLines curly straight
    lineEdits = some (some parts.flatten) ∧ Widened curly straight lineEdits parts := by
  refine preservingUnchangedLines_widened (by decide) ?_ (pairwise_pair.mpr (.inr (by decide)))
  intro replacement member
  rcases mem_pair.mp member with rfl | rfl
  · exact ⟨Nat.one_pos, ['b'], ⟨['"', '\n', 'a'], ['\n'], rfl, by decide⟩, by decide⟩
  · exact ⟨Nat.one_pos, ['a'], ⟨['"', '\n'], ['b', '\n'], rfl, by decide⟩, by decide⟩

example : applyReplacementsPreservingUnchangedLines curly straight lineEdits =
    some (some ['“', '\n', 'c', 'd', '\n']) := by decide

end parts

end PiRust.EditTool
