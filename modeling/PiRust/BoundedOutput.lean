import PiRust.OutputTail

/- The displayed tail of a command's output against the output as a whole. -/
namespace PiRust.Bash

open EditTool Fitting Truncate List

section lines

theorem splitChar_append (front : Str) {text first : Str} {rest : List Str}
    (lines : splitChar '\n' text = first :: rest) :
    splitChar '\n' (front ++ text) = (Framing.pieces '\n' front).1 ++
      ((Framing.pieces '\n' front).2 ++ first) :: rest := by
  have step : ∀ (c : Char) (text : Str), splitChar '\n' (c :: text) =
      if c = '\n' then [] :: splitChar '\n' text
      else (splitChar '\n' text).modifyHead (c :: ·) := by
    intro c text
    rw [splitChar, splitChar, Framing.pieces]
    split
    · rfl
    · cases Framing.pieces '\n' text with
      | mk ended last => cases ended <;> rfl
  induction front with
  | nil => exact lines
  | cons c front ih =>
    rw [cons_append, step, ih, Framing.pieces]
    split
    · rfl
    · cases Framing.pieces '\n' front with
      | mk ended last => cases ended <;> rfl

theorem pieces_concat {c : Char} (other : c ≠ '\n') (text : Str) :
    (Framing.pieces '\n' (text ++ [c])).2 = (Framing.pieces '\n' text).2 ++ [c] := by
  obtain ⟨_, _, _, whole⟩ := Framing.pieces_split '\n' text
  have joined : '\n' ∉ (Framing.pieces '\n' text).2 ++ [c] := by
    rw [mem_append, mem_singleton, not_or]
    exact ⟨whole, other.symm⟩
  rw [Framing.pieces_append, Framing.pieces_whole '\n' joined]

theorem splitLines_append (front : Str) {text : Str} (some : text ≠ []) :
    ∃ first rest, splitLinesForCounting text = first :: rest ∧
      splitLinesForCounting (front ++ text) = (Framing.pieces '\n' front).1 ++
        ((Framing.pieces '\n' front).2 ++ first) :: rest := by
  obtain ⟨first, rest, lines⟩ : ∃ first rest, splitChar '\n' text = first :: rest := by
    refine exists_cons_of_ne_nil ?_
    simp [splitChar]
  have whole := splitChar_append front lines
  have full : text.isEmpty = false := by simpa using some
  have more : (front ++ text).isEmpty = false := by simp [some]
  have last : (front ++ text).getLast? = text.getLast? := by
    rw [getLast?_append]
    cases same : text.getLast? with
    | none => exact absurd (getLast?_eq_none_iff.mp same) some
    | some c => rfl
  rw [splitLinesForCounting, splitLinesForCounting, full, more, last, lines, whole]
  simp only [Bool.false_eq_true, if_false]
  split
  · next ended =>
    -- A text that ends with a line feed has a line behind it.
    obtain ⟨before, split⟩ := getLast?_eq_some_iff.mp ended
    have behind : rest ≠ [] := by
      intro none
      have cut := splitChar_append before (show splitChar '\n' ['\n'] = [[], []] from rfl)
      rw [← split, lines, none] at cut
      have := congrArg length cut
      simp at this
    obtain ⟨next, rest, rfl⟩ := exists_cons_of_ne_nil behind
    exact ⟨first, (next :: rest).dropLast, rfl, by simp⟩
  · exact ⟨first, rest, rfl, rfl⟩

end lines

section note

theorem append_cancel_last {c : Char} {front back text rest : Str} (plain : c ∉ text)
    (other : c ∉ rest) (same : front ++ c :: text = back ++ c :: rest) :
    front = back ∧ text = rest := by
  rcases append_eq_append_iff.mp same with ⟨between, split, inner⟩ | ⟨between, split, inner⟩
  · cases between with
    | nil =>
      rw [append_nil] at split
      exact ⟨split.symm, (cons.inj inner).2⟩
    | cons x between =>
      have inside := (cons.inj inner).2
      exact absurd (by rw [inside]; simp) plain
  · cases between with
    | nil =>
      rw [append_nil] at split
      exact ⟨split, (cons.inj inner).2.symm⟩
    | cons x between =>
      have inside := (cons.inj inner).2
      exact absurd (by rw [inside]; simp) other

theorem digits_inj {n m : Nat} (same : Nat.toDigits 10 n = Nat.toDigits 10 m) : n = m := by
  rw [← Nat.ofDigitChars_toDigits (b := 10) (n := n) (by decide) (by decide), same,
    Nat.ofDigitChars_toDigits (by decide) (by decide)]

theorem blank_digits (n : Nat) : ' ' ∉ Nat.toDigits 10 n := by
  intro member
  exact absurd (Nat.isDigit_of_mem_toDigits (by decide) (by decide) member) (by decide)

theorem truncationNote_eq (outputLines knownLines : Nat) :
    (truncationNote outputLines knownLines).toList =
      "\n\n[Output truncated: showing last".toList ++ ' ' :: Nat.toDigits 10 outputLines ++
        (" of " ++ toString knownLines ++ " lines (50KB/2000-line limit).]").toList := by
  have digits : (toString outputLines).toList = Nat.toDigits 10 outputLines := by
    rw [show toString outputLines = Nat.repr outputLines from rfl, Nat.repr_eq_ofList_toDigits,
      String.toList_ofList]
  have blank : "\n\n[Output truncated: showing last ".toList =
      "\n\n[Output truncated: showing last".toList ++ [' '] := by decide
  rw [append_cons, ← blank]
  unfold truncationNote
  simp

theorem shown_inj {out shown : Str} {n m known : Nat}
    (same : out ++ (truncationNote n known).toList = shown ++ (truncationNote m known).toList) :
    out = shown ∧ n = m := by
  rw [truncationNote_eq, truncationNote_eq] at same
  simp only [← append_assoc, append_cancel_right_eq] at same
  obtain ⟨front, digits⟩ := append_cancel_last (blank_digits n) (blank_digits m) same
  exact ⟨append_cancel_right front, digits_inj digits⟩

end note

section display

def displayed (text : Str) : List Str :=
  shownLines (fillLines cons defaultMaxLines defaultMaxBytes [] 0
    (splitLinesForCounting text).reverse)

theorem applyTruncation_overflowed (text : Str) (known : Nat) :
    applyTruncation text known true =
      joinLines (displayed text) ++ (truncationNote (displayed text).length known).toList := by
  simp only [applyTruncation, Bool.not_true, Bool.false_eq_true, and_false, if_false,
    Bool.true_or, if_true]
  rfl

def widths (text : Str) : List Nat := (splitLinesForCounting text).reverse.map Str.len

theorem displayed_cases (text : Str) :
    ∃ k, Filled defaultMaxLines defaultMaxBytes (widths text) k ∧
      (k = 0 → ∀ last rest, (splitLinesForCounting text).reverse = last :: rest →
        displayed text = [lastFit Char.utf8Size defaultMaxBytes last]) ∧
      (0 < k ∨ splitLinesForCounting text = [] →
        displayed text = ((splitLinesForCounting text).reverse.take k).reverse) := by
  obtain ⟨k, filled, loop⟩ :=
    fillTail_ok defaultMaxLines defaultMaxBytes (splitLinesForCounting text).reverse
  refine ⟨k, filled, ?_, ?_⟩
  · rintro rfl last rest lines
    have room : 0 < defaultMaxLines := Nat.zero_lt_succ _
    have beyond := filled.full (by rw [lines]; exact Nat.succ_pos _) room
    rw [lines] at beyond
    rw [displayed, loop, if_pos room, lines]
    simp only [take_zero, reverse_nil, getElem?_cons_zero, shownLines]
    rw [cutLine_eq beyond]
  · intro some
    rw [displayed, loop]
    cases out : ((splitLinesForCounting text).reverse.take k).reverse with
    | cons line rest => rw [shownLines]; simp
    | nil =>
      have none : splitLinesForCounting text = [] := by
        rcases some with positive | none
        · rw [reverse_eq_nil_iff, take_eq_nil_iff, reverse_eq_nil_iff] at out
          exact out.resolve_left (Nat.ne_of_gt positive)
        · exact none
      rw [none]
      simp [shownLines]

def FitsDisplay (text : Str) : Prop :=
  (splitLinesForCounting text).length ≤ defaultMaxLines ∧
    Str.len (joinLines (splitLinesForCounting text)) ≤ defaultMaxBytes

/-- No more can be shown of an output that ends with the text: its lines have no room, or it is one
line that leaves no room for another replacement character. -/
def FillsDisplay (text : Str) : Prop :=
  ¬ FitsDisplay text ∨ ∃ line, splitLinesForCounting text = [line] ∧
    defaultMaxBytes < replacementChar.utf8Size + Str.len line

theorem widths_length (text : Str) :
    (widths text).length = (splitLinesForCounting text).length := by
  rw [widths, length_map, length_reverse]

theorem fitsDisplay_iff (text : Str) :
    FitsDisplay text ↔ (widths text).length ≤ defaultMaxLines ∧ cost (widths text) ≤ defaultMaxBytes := by
  rw [FitsDisplay, widths_length, len_joinLines, widths, map_reverse, cost_perm (reverse_perm _)]

section front

variable {text first : Str} {rest : List Str} (front : Str)

theorem widths_front (lines : splitLinesForCounting text = first :: rest) :
    widths text = rest.reverse.map Str.len ++ [Str.len first] := by
  rw [widths, lines]
  simp

theorem reverse_front (whole : splitLinesForCounting (front ++ text) =
      (Framing.pieces '\n' front).1 ++ ((Framing.pieces '\n' front).2 ++ first) :: rest) :
    (splitLinesForCounting (front ++ text)).reverse = rest.reverse ++
      ((Framing.pieces '\n' front).2 ++ first) :: (Framing.pieces '\n' front).1.reverse := by
  rw [whole]
  simp

theorem displayed_append (some : text ≠ []) (full : ¬ FitsDisplay text) :
    displayed (front ++ text) = displayed text := by
  obtain ⟨first, rest, lines, whole⟩ := splitLines_append front some
  have last := reverse_front front whole
  obtain ⟨k, filled, cut, shown⟩ := displayed_cases text
  obtain ⟨j, other, cutAll, shownAll⟩ := displayed_cases (front ++ text)
  have within : k ≤ (rest.reverse.map Str.len).length := by
    by_contra all
    have inside := filled.inside
    have same : k = (widths text).length := by
      rw [widths_front lines, length_append, length_singleton] at inside ⊢
      omega
    rw [same] at filled
    exact full ((fitsDisplay_iff text).mpr filled.all)
  have extended : Filled defaultMaxLines defaultMaxBytes (widths (front ++ text)) k := by
    rw [widths_front lines] at filled
    rw [widths, last, map_append, map_cons]
    refine filled.extend within ?_ _
    rw [Str.len, Str.len, Splice.width_append]
    exact Nat.le_add_left _ _
  obtain rfl := extended.unique other
  rcases Nat.eq_zero_or_pos j with rfl | positive
  · have reversed : (splitLinesForCounting text).reverse = rest.reverse ++ [first] := by
      rw [lines, reverse_cons]
    cases back : rest.reverse with
    | cons line later =>
      rw [back] at last reversed
      rw [cut rfl _ _ reversed, cutAll rfl _ _ last]
    | nil =>
      rw [back] at last reversed
      have beyond := filled.full (by rw [widths_front lines]; simp) (Nat.zero_lt_succ _)
      rw [widths_front lines, back] at beyond
      rw [cut rfl _ _ reversed, cutAll rfl _ _ last, lastFit_append beyond]
  · have taken : (splitLinesForCounting (front ++ text)).reverse.take j =
        (splitLinesForCounting text).reverse.take j := by
      rw [length_map] at within
      rw [last, lines, reverse_cons, take_append_of_le_length within,
        take_append_of_le_length within]
    rw [shown (.inl positive), shownAll (.inl positive), taken]

theorem displayed_line {c : Char} (other : c ≠ '\n') (some : text ≠ [])
    (lines : splitLinesForCounting text = [first]) (fits : Str.len first ≤ defaultMaxBytes)
    (beyond : defaultMaxBytes < c.utf8Size + Str.len first) :
    displayed (front ++ [c] ++ text) = displayed text := by
  obtain ⟨line, rest, lines', whole⟩ := splitLines_append (front ++ [c]) some
  obtain ⟨rfl, rfl⟩ := cons.inj (lines'.symm.trans lines)
  have last := reverse_front (front ++ [c]) whole
  rw [pieces_concat other, append_assoc (Framing.pieces '\n' front).2,
    singleton_append, reverse_nil, nil_append] at last
  obtain ⟨k, filled, _, shown⟩ := displayed_cases text
  obtain ⟨j, cutOff, cutAll, _⟩ := displayed_cases (front ++ [c] ++ text)
  have one : Filled defaultMaxLines defaultMaxBytes (widths text) 1 := by
    have length : (widths text).length = 1 := by rw [widths_length, lines]; rfl
    rw [← length]
    refine filled_all ?_ ?_
    · rw [length]
      exact Nat.succ_le_of_lt (Nat.zero_lt_succ _)
    · rw [widths_front lines]
      exact fits
  have none : Filled defaultMaxLines defaultMaxBytes (widths (front ++ [c] ++ text)) 0 := by
    refine ⟨Nat.zero_le _, Nat.zero_le _, Nat.zero_le _, fun _ _ => ?_⟩
    rw [widths, last, map_cons]
    simp only [take_succ_cons, take_zero, cost, map_nil, sum_nil, Nat.add_zero]
    rw [Str.len, Splice.width_append, Splice.width_cons]
    exact Nat.lt_of_lt_of_le beyond (Nat.le_add_left _ _)
  obtain rfl := filled.unique one
  obtain rfl := cutOff.unique none
  rw [cutAll rfl _ _ last, shown (.inl Nat.one_pos), lines, lastFit_next fits beyond]
  rfl

theorem displayed_fits (fits : FitsDisplay text) : displayed text = splitLinesForCounting text := by
  obtain ⟨room, bytes⟩ := (fitsDisplay_iff text).mp fits
  obtain ⟨k, filled, _, shown⟩ := displayed_cases text
  obtain rfl := (filled_all room bytes).unique filled
  by_cases none : splitLinesForCounting text = []
  · rw [shown (.inr none), none]
    simp
  · have positive : 0 < (widths text).length := by
      rw [widths_length]
      exact length_pos_iff.mpr none
    rw [shown (.inl positive), widths_length, ← length_reverse, take_length, reverse_reverse]

theorem ne_nil_of_lines {line : Str} {lines : List Str}
    (split : splitLinesForCounting text = line :: lines) : text ≠ [] := by
  rintro rfl
  cases split

theorem displayed_more {c : Char} (other : c ≠ '\n') (fits : FitsDisplay text)
    (room : ∀ line, splitLinesForCounting text = [line] →
      c.utf8Size + Str.len line ≤ defaultMaxBytes)
    (lengths : (displayed (front ++ [c] ++ text)).length = (displayed text).length) :
    joinLines (displayed (front ++ [c] ++ text)) ≠ joinLines (displayed text) := by
  intro same
  rw [displayed_fits fits] at lengths same
  obtain ⟨j, filled, cut, shown⟩ := displayed_cases (front ++ [c] ++ text)
  rcases Nat.eq_zero_or_pos j with rfl | positive
  · have more : (splitLinesForCounting (front ++ [c] ++ text)).reverse ≠ [] := by
      intro none
      have empty := splitLines_join (front ++ [c] ++ text)
      rw [reverse_eq_nil_iff.mp none] at empty
      rcases empty with ⟨_, empty⟩ | ⟨some, _⟩
      · simp at empty
      · exact some rfl
    obtain ⟨last, rest, reversed⟩ := exists_cons_of_ne_nil more
    rw [cut rfl last rest reversed, length_singleton] at lengths
    obtain ⟨line, lines⟩ := length_eq_one_iff.mp lengths.symm
    obtain ⟨first, behind, lines', whole⟩ :=
      splitLines_append (front ++ [c]) (ne_nil_of_lines lines)
    obtain ⟨rfl, rfl⟩ := cons.inj (lines'.symm.trans lines)
    have ends := reverse_front (front ++ [c]) whole
    rw [reversed, pieces_concat other, append_assoc (Framing.pieces '\n' front).2,
      singleton_append, reverse_nil, nil_append] at ends
    rw [cut rfl last rest reversed, lines, joinLines_singleton, joinLines_singleton,
      (cons.inj ends).1] at same
    have longer : c :: first <:+ first := by
      have suffix := lastFit_longest (suffix_append (Framing.pieces '\n' front).2 (c :: first))
        (room first lines)
      rw [same] at suffix
      exact suffix
    have := longer.length_le
    rw [length_cons] at this
    omega
  · have count : ((splitLinesForCounting (front ++ [c] ++ text)).reverse.take j).length = j := by
      rw [length_take, length_reverse, ← widths_length, Nat.min_eq_left filled.inside]
    rw [shown (.inl positive)] at lengths same
    rw [length_reverse, count] at lengths
    obtain ⟨first, rest, lines⟩ : ∃ first rest, splitLinesForCounting text = first :: rest := by
      refine exists_cons_of_ne_nil fun none => ?_
      rw [none] at lengths
      exact absurd positive (by simp [lengths])
    obtain ⟨first', rest', lines', whole⟩ :=
      splitLines_append (front ++ [c]) (ne_nil_of_lines lines)
    obtain ⟨rfl, rfl⟩ := cons.inj (lines'.symm.trans lines)
    have ends := reverse_front (front ++ [c]) whole
    have taken : (splitLinesForCounting (front ++ [c] ++ text)).reverse.take j =
        rest'.reverse ++ [(Framing.pieces '\n' (front ++ [c])).2 ++ first'] := by
      rw [lines, length_cons] at lengths
      rw [ends, append_cons]
      exact take_left' (by simp [lengths])
    have costs := congrArg Str.len same
    have whole := cost_perm (reverse_perm ((first' :: rest').map Str.len))
    rw [map_cons, reverse_cons, cost_concat, ← map_cons] at whole
    rw [taken, lines, len_joinLines, len_joinLines, map_reverse,
      cost_perm (reverse_perm _), map_append, map_singleton, cost_concat, ← whole,
      map_reverse, pieces_concat other] at costs
    have wide : 0 < c.utf8Size := Char.utf8Size_pos c
    simp only [Str.len, Splice.width_append, Splice.width_cons, Splice.width_nil] at costs
    omega

end front

end display

section run

/-- Behind the continuation bytes at which the last bytes of an output start. -/
def lastBytes (bytes : Bytes) : Bytes :=
  (bytes.drop (bytes.length - bufferKeep)).dropWhile isContinuation

variable {keep : Nat} {whole front buf : Bytes}

theorem Drained.decoded (drained : Drained keep whole front buf) (long : 3 < keep) :
    utf8Decode none whole = utf8Decode none front ++ utf8Decode none buf := by
  obtain ⟨lead, run, split, _, continues, starts⟩ := drained.cut
  rw [drained.split]
  rcases starts with all | ⟨byte, rest, rfl, first⟩
  · rw [split]
    obtain ⟨text, alone, joined⟩ := utf8Decode_run lead continues (Nat.lt_of_lt_of_le long all) buf
    rw [joined, alone]
  · exact utf8Decode_starts front first rest

theorem Drained.replaced (drained : Drained keep whole front buf) (short : buf.length + 3 < keep) :
    ∃ text, utf8Decode none front = text ++ [replacementChar] := by
  obtain ⟨lead, run, split, early, continues, _⟩ := drained.cut
  have lengths := congrArg length drained.split
  rw [split, length_append, length_append] at lengths
  obtain ⟨text, alone, _⟩ := utf8Decode_run lead continues (by omega) []
  exact ⟨text, by rw [split, alone]⟩

theorem Drained.last (drained : Drained bufferKeep whole front buf) (short : buf.length < bufferKeep) :
    buf.dropWhile isContinuation = lastBytes whole := by
  obtain ⟨lead, run, split, early, continues, _⟩ := drained.cut
  have lengths := congrArg length drained.split
  rw [split, length_append, length_append] at lengths
  obtain ⟨n, cut⟩ : ∃ n, whole.length - bufferKeep = n := ⟨_, rfl⟩
  have outer : lead.drop n = [] := by
    rw [drop_eq_nil_iff]
    omega
  have inner : n - lead.length - run.length = 0 := by omega
  rw [lastBytes, cut, drained.split, split, append_assoc, drop_append, outer,
    nil_append, drop_append, inner, drop_zero, dropWhile_append_of_pos]
  exact fun byte member => continues byte (mem_of_mem_drop member)

theorem len_le (text : Str) : Str.len text ≤ Str.len (joinLines (splitLinesForCounting text)) + 1 := by
  rcases splitLines_join text with ⟨_, empty⟩ | ⟨_, same | same⟩
  · rw [empty]
    exact Nat.zero_le _
  · rw [← same]
    exact Nat.le_succ _
  · conv_lhs => rw [same]
    rw [Str.len, Splice.width_append]
    exact Nat.le_refl _

theorem FitsDisplay.short {bytes : Bytes} (fits : FitsDisplay (utf8Decode none bytes)) :
    bytes.length ≤ defaultMaxBytes + 1 :=
  (length_le_decoded bytes).trans ((len_le _).trans (Nat.succ_le_succ fits.2))

theorem FitsDisplay.back {front text : Str} (fits : FitsDisplay (front ++ text)) :
    FitsDisplay text := by
  by_cases none : text = []
  · subst none
    exact ⟨Nat.zero_le _, Nat.zero_le _⟩
  · obtain ⟨first, rest, lines, whole⟩ := splitLines_append front none
    obtain ⟨room, bytes⟩ := fits
    rw [whole] at room bytes
    rw [FitsDisplay, lines]
    constructor
    · rw [length_append] at room
      exact (Nat.le_add_left _ _).trans room
    · have line : joinLines (first :: rest) <:+
          joinLines (((Framing.pieces '\n' front).2 ++ first) :: rest) := by
        rw [joinLines, joinLines, Splice.intercalate_cons, Splice.intercalate_cons, append_assoc]
        exact suffix_append _ _
      exact (width_suffix (line.trans (joinLines_suffix _ _))).trans bytes

theorem outputText_eq (chunks : List Bytes) :
    outputText chunks = applyTruncation
      (utf8Decode none (chunks.foldl OutputTail.push OutputTail.new).buf)
      (chunks.flatten.count 0x0A) (decide (chunks.flatten.length > bufferKeep * 2)) := by
  have tracks := tracks_run chunks
  rw [outputText, tracks.lines, tracks.overflowed, OutputTail.bufToString, fromUtf8Lossy,
    String.toList_ofList]

theorem unboundedText_eq (bytes : Bytes) :
    unboundedText bytes = applyTruncation (utf8Decode none bytes) (bytes.count 0x0A)
      (decide (bytes.length > bufferKeep * 2)) := by
  rw [unboundedText, fromUtf8Lossy, String.toList_ofList]

theorem replacement_ne : replacementChar ≠ '\n' := by decide

theorem not_fits_more {text line : Str} (lines : splitLinesForCounting text = [line])
    (beyond : defaultMaxBytes < replacementChar.utf8Size + Str.len line) :
    ¬ FitsDisplay ([replacementChar] ++ text) := by
  intro fits
  obtain ⟨first, rest, lines', whole⟩ := splitLines_append [replacementChar] (ne_nil_of_lines lines)
  obtain ⟨rfl, rfl⟩ := cons.inj (lines'.symm.trans lines)
  have alone : Framing.pieces '\n' [replacementChar] = ([], [replacementChar]) :=
    Framing.pieces_whole '\n' (by simpa using replacement_ne.symm)
  have bytes := fits.2
  rw [whole, alone, nil_append, joinLines_singleton, singleton_append] at bytes
  exact absurd bytes (Nat.not_le.mpr beyond)

theorem Drained.displayed (drained : Drained bufferKeep whole front buf)
    (fills : FillsDisplay (utf8Decode none (lastBytes whole))) :
    displayed (utf8Decode none whole) = displayed (utf8Decode none buf) := by
  rw [drained.decoded (by decide)]
  by_cases fits : FitsDisplay (utf8Decode none buf)
  · have short : buf.length + 3 < bufferKeep := by
      have few : buf.length ≤ 50 * 1024 + 1 := fits.short
      simp only [bufferKeep]
      omega
    obtain ⟨text, ends⟩ := drained.replaced short
    have split : utf8Decode none buf =
        replicate (buf.takeWhile isContinuation).length replacementChar ++
          utf8Decode none (lastBytes whole) := by
      rw [← drained.last (by omega)]
      conv_lhs => rw [← takeWhile_append_dropWhile (p := isContinuation) (l := buf)]
      exact utf8Decode_continuations (fun byte member => mem_takeWhile_imp member) _
    rw [split] at fits
    obtain ⟨line, lines, beyond⟩ := fills.resolve_left (not_not.mpr fits.back)
    cases run : (buf.takeWhile isContinuation).length with
    | zero =>
      rw [run, replicate_zero, nil_append] at split fits
      have alone : Str.len line ≤ defaultMaxBytes := by
        have bytes := fits.2
        rw [lines, joinLines_singleton] at bytes
        exact bytes
      rw [split, ends]
      exact displayed_line text replacement_ne (ne_nil_of_lines lines) lines alone beyond
    | succ n =>
      rw [run, replicate_succ', append_assoc] at fits
      exact absurd fits.back (not_fits_more lines beyond)
  · have some : utf8Decode none buf ≠ [] := by
      intro none
      rw [none] at fits
      exact fits ⟨Nat.zero_le _, Nat.zero_le _⟩
    exact displayed_append _ some fits

theorem outputText_single (long : bufferKeep * 2 < whole.length)
    (room : ¬ FillsDisplay (utf8Decode none (lastBytes whole))) :
    outputText [whole] ≠ unboundedText whole := by
  intro same
  obtain ⟨fits, alone⟩ := not_or.mp room
  rw [not_not] at fits
  have kept : (OutputTail.new.push whole).buf = lastBytes whole := by
    have full : ([] ++ whole).length > bufferKeep * 2 := long
    have dropped : whole.length - bufferKeep ≠ 0 := by omega
    rw [OutputTail.push]
    simp only [OutputTail.new, full, if_true]
    rw [nil_append, drainByte, if_neg dropped, lastBytes]
  have tracks := tracks_run [whole]
  rw [flatten_singleton, foldl_cons, foldl_nil] at tracks
  have flag : (OutputTail.new.push whole).overflowed = true := by
    rw [tracks.overflowed]
    exact decide_eq_true long
  obtain ⟨front, drained⟩ := tracks.drained flag
  rw [kept] at drained
  have short : (lastBytes whole).length + 3 < bufferKeep := by
    have few : (lastBytes whole).length ≤ 50 * 1024 + 1 := fits.short
    simp only [bufferKeep]
    omega
  obtain ⟨text, ends⟩ := drained.replaced short
  rw [outputText_eq, unboundedText_eq, foldl_cons, foldl_nil, kept,
    flatten_singleton, decide_eq_true long, applyTruncation_overflowed,
    applyTruncation_overflowed, drained.decoded (by decide), ends] at same
  obtain ⟨shown, counts⟩ := shown_inj same
  refine displayed_more text replacement_ne fits ?_ counts.symm shown.symm
  intro line lines
  by_contra beyond
  exact alone ⟨line, lines, Nat.lt_of_not_le beyond⟩

/-- However the output is cut into chunks, its text is that of the unbounded output, unless it is
long and what is behind the continuation bytes at its last 65536 does not fill the display. -/
theorem outputText_iff (bytes : Bytes) :
    (∀ chunks, chunks.flatten = bytes → outputText chunks = unboundedText bytes) ↔
      bytes.length ≤ bufferKeep * 2 ∨ FillsDisplay (utf8Decode none (lastBytes bytes)) := by
  constructor
  · intro same
    by_contra neither
    rw [not_or, Nat.not_le] at neither
    exact outputText_single neither.1 neither.2 (same [bytes] (by simp))
  · rintro fills chunks rfl
    have tracks := tracks_run chunks
    rw [outputText_eq, unboundedText_eq]
    cases flag : (chunks.foldl OutputTail.push OutputTail.new).overflowed with
    | false => rw [tracks.kept flag]
    | true =>
      obtain ⟨front, drained⟩ := tracks.drained flag
      have long := tracks.overflowed
      rw [flag, eq_comm] at long
      have more := of_decide_eq_true long
      rw [long, applyTruncation_overflowed, applyTruncation_overflowed,
        drained.displayed (fills.resolve_left (by omega))]

/-- Output of continuation bytes alone: nothing of it is kept. -/
theorem continuations_lost :
    ¬ ∀ chunks : List Bytes, outputText chunks = unboundedText chunks.flatten := by
  intro always
  have same := always [replicate (bufferKeep * 2 + 1) 0x80]
  rw [flatten_singleton] at same
  refine outputText_single ?_ ?_ same
  · rw [length_replicate]
    exact Nat.lt_succ_self _
  · have lost : lastBytes (replicate (bufferKeep * 2 + 1) 0x80) = [] := by
      rw [lastBytes, dropWhile_eq_nil_iff]
      intro byte member
      rw [eq_of_mem_replicate (mem_of_mem_drop member)]
      decide
    rw [lost]
    rintro (unfit | ⟨line, lines, _⟩)
    · exact unfit ⟨Nat.zero_le _, Nat.zero_le _⟩
    · cases lines

end run

end PiRust.Bash
