import Mathlib.Data.List.Basic
import Mathlib.Data.List.Infix

/- Texts whose letters take several bytes each: where one text stands in another, and what
replacing parts of a text leaves of the rest. An offset counts the bytes in front of it. -/
namespace Splice

open List

section bytes

variable {α : Type} (size : α → Nat)

def width : List α → Nat
  | [] => 0
  | x :: text => size x + width text

@[simp] theorem width_nil : width size [] = 0 := rfl

@[simp] theorem width_cons (x : α) (text : List α) :
    width size (x :: text) = size x + width size text := rfl

@[simp] theorem width_append (front back : List α) :
    width size (front ++ back) = width size front + width size back := by
  induction front with
  | nil => simp
  | cons x front ih => rw [cons_append, width_cons, width_cons, ih, Nat.add_assoc]

theorem width_one (text : List α) : width (fun _ => 1) text = text.length := by
  induction text with
  | nil => rfl
  | cons x text ih => rw [width_cons, ih, length_cons, Nat.add_comm]

def cutAt : List α → Nat → Option (List α × List α)
  | text, 0 => some ([], text)
  | [], _ + 1 => none
  | x :: text, n + 1 =>
    if size x ≤ n + 1 then
      (cutAt text (n + 1 - size x)).map fun parts => (x :: parts.1, parts.2)
    else none

/-- `old` stands in `text` behind `n` bytes. -/
def OccursAt (old text : List α) (n : Nat) : Prop :=
  ∃ front back, text = front ++ old ++ back ∧ width size front = n

variable {size}

theorem eq_nil_of_width (letters : ∀ x, 0 < size x) {text : List α}
    (empty : width size text = 0) : text = [] := by
  cases text with
  | nil => rfl
  | cons x text =>
    have := letters x
    simp only [width_cons] at empty
    omega

theorem cutAt_append (letters : ∀ x, 0 < size x) (front back : List α) :
    cutAt size (front ++ back) (width size front) = some (front, back) := by
  induction front with
  | nil => cases back <;> rfl
  | cons x front ih =>
    have wide := letters x
    obtain ⟨n, offset⟩ : ∃ n, width size (x :: front) = n + 1 :=
      ⟨width size (x :: front) - 1, by simp only [width_cons]; omega⟩
    have inner : n + 1 - size x = width size front := by
      simp only [width_cons] at offset
      omega
    have fits : size x ≤ n + 1 := by
      simp only [width_cons] at offset
      omega
    rw [offset, cons_append, cutAt, if_pos fits, inner, ih]
    rfl

variable {old text : List α}

theorem OccursAt.inside {n : Nat} (occurs : OccursAt size old text n) : old <:+: text := by
  obtain ⟨front, back, split, _⟩ := occurs
  exact ⟨front, back, split.symm⟩

theorem exists_occursAt (inside : old <:+: text) : ∃ n, OccursAt size old text n := by
  obtain ⟨front, back, split⟩ := inside
  exact ⟨_, front, back, split.symm, rfl⟩

theorem OccursAt.cons {n : Nat} (occurs : OccursAt size old text n) (x : α) :
    OccursAt size old (x :: text) (size x + n) := by
  obtain ⟨front, back, rfl, rfl⟩ := occurs
  exact ⟨x :: front, back, rfl, rfl⟩

/-- `old` stands in `text` across itself: two occurrences share letters. -/
def Overlapping (old text : List α) : Prop :=
  ∃ shift, shift < old.length ∧ 0 < shift ∧ old.drop shift <+: old ∧ old.take shift ++ old <:+: text

theorem occursAt_behind {front back : List α} {m : Nat}
    (occurs : OccursAt size old (front ++ old ++ back) m) (behind : width size front < m) :
    old <:+: back ∨ Overlapping old (front ++ old ++ back) := by
  obtain ⟨later, rest, split, rfl⟩ := occurs
  rw [append_assoc, append_assoc] at split
  rcases append_eq_append_iff.mp split with ⟨between, rfl, inner⟩ | ⟨between, rfl, _⟩
  · have apart : 0 < between.length := by
      apply length_pos_iff.mpr
      rintro rfl
      simp at behind
    rcases append_eq_append_iff.mp inner with ⟨gap, rfl, after⟩ | ⟨shared, whole, after⟩
    · exact .inl ⟨gap, rest, by rw [after, append_assoc]⟩
    · by_cases touching : shared = []
      · subst touching
        exact .inl ⟨[], rest, by simpa using after⟩
      · refine .inr ⟨between.length, ?_, apart, ?_, ?_⟩
        · have := length_pos_iff.mpr touching
          rw [whole, length_append]
          omega
        · have rear : old.drop between.length = shared := by
            rw [whole, drop_left]
          rw [rear]
          have starts : shared <+: old ++ rest := ⟨back, after.symm⟩
          refine prefix_of_prefix_length_le starts ⟨rest, rfl⟩ ?_
          rw [whole, length_append]
          omega
        · have lead : old.take between.length = between := by
            rw [whole, take_left]
          rw [lead]
          exact ⟨front, rest, by rw [append_assoc front old, inner]; simp⟩
  · simp only [width_append] at behind
    omega

theorem overlapping_twice (letters : ∀ x, 0 < size x) (overlapping : Overlapping old text) :
    ∃ n m, OccursAt size old text n ∧ OccursAt size old text m ∧ n < m := by
  obtain ⟨shift, inside, apart, ⟨rest, border⟩, front, back, split⟩ := overlapping
  refine ⟨width size front, width size (front ++ old.take shift), ⟨front, rest ++ back, ?_, rfl⟩,
    ⟨front ++ old.take shift, back, ?_, rfl⟩, ?_⟩
  · have twice : old.take shift ++ old = old ++ rest := by
      calc old.take shift ++ old = old.take shift ++ (old.drop shift ++ rest) := by rw [border]
        _ = old ++ rest := by rw [← append_assoc, take_append_drop]
    rw [← split, twice]
    simp
  · rw [← split]
    simp
  · have nonempty : width size (old.take shift) ≠ 0 := by
      intro empty
      have := congrArg length (eq_nil_of_width letters empty)
      simp only [length_take, length_nil] at this
      omega
    simp only [width_append]
    omega

end bytes

section search

variable {α : Type} [DecidableEq α] (size : α → Nat)

/-- Where `old` first stands in a text. -/
def find (old : List α) : List α → Option Nat
  | [] => if old = [] then some 0 else none
  | x :: text =>
    if old.isPrefixOf (x :: text) then some 0
    else (find old text).map fun n => size x + n

variable {size} {old text : List α}

attribute [local simp] find

theorem find_spec {n : Nat} (found : find size old text = some n) :
    OccursAt size old text n ∧ ∀ m, OccursAt size old text m → n ≤ m := by
  induction text generalizing n with
  | nil =>
    rw [find] at found
    split at found
    · next empty =>
      cases found
      exact ⟨⟨[], [], by rw [empty]; rfl, rfl⟩, fun m _ => Nat.zero_le m⟩
    · cases found
  | cons x text ih =>
    rw [find] at found
    split at found
    · next starts =>
      cases found
      obtain ⟨back, split⟩ := isPrefixOf_iff_prefix.mp starts
      exact ⟨⟨[], back, split.symm, rfl⟩, fun m _ => Nat.zero_le m⟩
    · next apart =>
      obtain ⟨m, later, rfl⟩ := Option.map_eq_some_iff.mp found
      obtain ⟨occurs, first⟩ := ih later
      refine ⟨occurs.cons x, ?_⟩
      rintro k ⟨front, back, split, rfl⟩
      cases front with
      | nil => exact absurd ( isPrefixOf_iff_prefix.mpr ⟨back, split.symm⟩) apart
      | cons y front =>
        obtain ⟨rfl, rest⟩ := cons.inj split
        exact Nat.add_le_add_left (first _ ⟨front, back, rest, rfl⟩) _

theorem find_isSome_iff : (find size old text).isSome ↔ old <:+: text := by
  refine ⟨fun found => ?_, fun inside => ?_⟩
  · obtain ⟨n, found⟩ := Option.isSome_iff_exists.mp found
    exact (find_spec found).1.inside
  · induction text with
    | nil => simp [find, infix_nil.mp inside]
    | cons x text ih =>
      rw [find]
      split
      · rfl
      · next apart =>
        rcases infix_cons_iff.mp inside with starts | later
        · exact absurd ( isPrefixOf_iff_prefix.mpr starts) apart
        · rw [Option.isSome_map]
          exact ih later

theorem find_eq_of_first {n : Nat} (occurs : OccursAt size old text n)
    (first : ∀ m, OccursAt size old text m → n ≤ m) : find size old text = some n := by
  have inside : (find size old text).isSome := find_isSome_iff.mpr occurs.inside
  obtain ⟨m, found⟩ := Option.isSome_iff_exists.mp inside
  obtain ⟨other, least⟩ := find_spec found
  have := first m other
  have := least n occurs
  rw [found, show m = n by omega]

/-- The letters of a text outside the matches of `old`, and `none` for each match. Matches are
taken from the left and share no letter; the first letters may still belong to a match. -/
def tokens (old : List α) : Nat → List α → List (Option α)
  | _, [] => []
  | inside + 1, _ :: text => tokens old inside text
  | 0, x :: text =>
    if old.isPrefixOf (x :: text) then none :: tokens old (old.length - 1) text
    else some x :: tokens old 0 text

/-- How many matches of `old` a text has, when they may share no letter. -/
def countMatches (old text : List α) : Nat := (tokens old 0 text).countP Option.isNone

/-- The text with every match of `old` replaced. -/
def replaceAll (old new text : List α) : List α :=
  (tokens old 0 text).flatMap fun token => token.elim new fun x => [x]

attribute [local simp] tokens

theorem tokens_inside (inside : Nat) (text : List α) :
    tokens old inside text = tokens old 0 (text.drop inside) := by
  induction text generalizing inside with
  | nil => simp [tokens]
  | cons x text ih =>
    cases inside with
    | zero => rfl
    | succ inside => exact ih inside

theorem tokens_match (full : old ≠ []) (back : List α) :
    tokens old 0 (old ++ back) = none :: tokens old 0 back := by
  obtain ⟨x, rest, rfl⟩ := exists_cons_of_ne_nil full
  rw [cons_append, tokens, if_pos ( isPrefixOf_iff_prefix.mpr ⟨back, cons_append⟩),
    tokens_inside]
  simp

theorem tokens_first (full : old ≠ []) {front back : List α}
    (first : ∀ m, OccursAt size old (front ++ old ++ back) m → width size front ≤ m)
    (letters : ∀ x, 0 < size x) :
    tokens old 0 (front ++ old ++ back) = front.map some ++ none :: tokens old 0 back := by
  induction front with
  | nil => exact tokens_match full back
  | cons x front ih =>
    have apart : ¬ old <+: x :: (front ++ old ++ back) := by
      rintro ⟨rest, split⟩
      have here := first 0 ⟨[], rest, split.symm, rfl⟩
      have := letters x
      simp only [width_cons] at here
      omega
    have inner : ∀ m, OccursAt size old (front ++ old ++ back) m → width size front ≤ m := by
      intro m occurs
      have shifted := first _ (occurs.cons x)
      simp only [width_cons] at shifted
      omega
    rw [cons_append, cons_append, tokens, if_neg (mt isPrefixOf_iff_prefix.mp apart), ih inner]
    rfl

theorem replaceAll_match (full : old ≠ []) (new back : List α) :
    replaceAll old new (old ++ back) = new ++ replaceAll old new back := by
  rw [replaceAll, tokens_match full, flatMap_cons, ← replaceAll]
  rfl

theorem replaceAll_pass {x : α} (apart : ¬ old <+: x :: text) (new : List α) :
    replaceAll old new (x :: text) = x :: replaceAll old new text := by
  rw [replaceAll, tokens, if_neg (mt isPrefixOf_iff_prefix.mp apart), flatMap_cons, ← replaceAll]
  rfl

theorem replaceAll_skip {x : α} {old front : List α} (apart : x ∉ front) (new back : List α) :
    replaceAll (x :: old) new (front ++ back) = front ++ replaceAll (x :: old) new back := by
  induction front with
  | nil => rfl
  | cons y front ih =>
    rw [mem_cons, not_or] at apart
    rw [cons_append, replaceAll_pass fun starts => apart.1 (cons_prefix_cons.mp starts).1,
      ih apart.2, cons_append]

theorem replaceAll_singleton (letter : α) (new text : List α) :
    replaceAll [letter] new text = text.flatMap fun x => if x = letter then new else [x] := by
  induction text with
  | nil => rfl
  | cons x text ih =>
    rw [flatMap_cons, ← ih]
    split
    · next same =>
      rw [same]
      exact replaceAll_match (cons_ne_nil letter []) new text
    · next other =>
      have apart : ¬ [letter] <+: x :: text := by
        rintro ⟨rest, split⟩
        exact other (cons.inj split).1.symm
      exact replaceAll_pass apart new

theorem tokens_absent (absent : ¬ old <:+: text) : tokens old 0 text = text.map some := by
  induction text with
  | nil => rfl
  | cons x text ih =>
    rw [infix_cons_iff, not_or] at absent
    rw [tokens, if_neg (mt isPrefixOf_iff_prefix.mp absent.1), ih absent.2]
    rfl

theorem countMatches_absent (absent : ¬ old <:+: text) : countMatches old text = 0 := by
  simp [countMatches, tokens_absent absent, countP_eq_zero]

variable (letters : ∀ x, 0 < size x)
include letters

theorem countMatches_found (full : old ≠ []) {n : Nat} (found : find size old text = some n) :
    ∃ front back, text = front ++ old ++ back ∧ width size front = n ∧
      countMatches old text = 1 + countMatches old back := by
  obtain ⟨⟨front, back, rfl, rfl⟩, first⟩ := find_spec found
  refine ⟨front, back, rfl, rfl, ?_⟩
  have passed : countP Option.isNone (front.map some) = 0 := by
    simp [countP_eq_zero]
  rw [countMatches, tokens_first full first letters, countP_append, passed,
    countP_cons_of_pos rfl, countMatches]
  omega

theorem countMatches_present (full : old ≠ []) (inside : old <:+: text) :
    0 < countMatches old text := by
  have present : (find size old text).isSome := find_isSome_iff.mpr inside
  obtain ⟨n, found⟩ := Option.isSome_iff_exists.mp present
  obtain ⟨_, _, _, _, counted⟩ := countMatches_found letters full found
  omega

theorem only_iff (full : old ≠ []) {n : Nat} (found : find size old text = some n) :
    (∀ m, OccursAt size old text m → m = n) ↔
      countMatches old text ≤ 1 ∧ ¬ Overlapping old text := by
  obtain ⟨occurs, first⟩ := find_spec found
  obtain ⟨front, back, rfl, rfl, counted⟩ := countMatches_found letters full found
  constructor
  · intro only
    constructor
    · by_contra several
      have again : old <:+: back := by
        by_contra absent
        rw [countMatches_absent absent] at counted
        omega
      obtain ⟨m, before, after, split, rfl⟩ : ∃ m, OccursAt size old back m := exists_occursAt again
      have second := only (width size (front ++ old ++ before))
        ⟨front ++ old ++ before, after, by rw [split]; simp, rfl⟩
      have empty : width size old = 0 := by
        simp only [width_append] at second
        omega
      exact full (eq_nil_of_width letters empty)
    · intro overlapping
      obtain ⟨k, m, one, other, apart⟩ := overlapping_twice letters overlapping
      have := only k one
      have := only m other
      omega
  · rintro ⟨once, clear⟩ m other
    by_contra different
    have behind : width size front < m := by
      have := first m other
      omega
    rcases occursAt_behind other behind with again | overlapping
    · have := countMatches_present letters full again
      omega
    · exact clear overlapping

end search

section lines

variable {α : Type} {separator : α} {word : List α}

def behind (separator : α) (lines : List (List α)) : List α :=
  lines.flatMap (separator :: ·)

@[simp] theorem behind_nil : behind separator [] = [] := rfl

@[simp] theorem behind_cons (line : List α) (lines : List (List α)) :
    behind separator (line :: lines) = separator :: (line ++ behind separator lines) := rfl

@[simp] theorem behind_append (front back : List (List α)) :
    behind separator (front ++ back) = behind separator front ++ behind separator back :=
  flatMap_append

theorem intercalate_cons (line : List α) (lines : List (List α)) :
    [separator].intercalate (line :: lines) = line ++ behind separator lines := by
  induction lines generalizing line with
  | nil => simp
  | cons next lines ih =>
    rw [intercalate_cons_cons, ih, behind_cons, append_assoc, singleton_append]

theorem prefix_line (joined : separator ∉ word) (line : List α) (lines : List (List α)) :
    word <+: line ++ behind separator lines ↔ word <+: line := by
  refine ⟨fun starts => ?_, fun starts => starts.trans (prefix_append _ _)⟩
  induction word generalizing line with
  | nil => exact nil_prefix
  | cons x word ih =>
    rw [mem_cons, not_or] at joined
    cases line with
    | nil =>
      cases lines with
      | nil => exact starts
      | cons next lines => exact absurd (cons_prefix_cons.mp starts).1.symm joined.1
    | cons y line =>
      obtain ⟨rfl, rest⟩ := cons_prefix_cons.mp starts
      exact cons_prefix_cons.mpr ⟨rfl, ih joined.2 line rest⟩

variable [DecidableEq α] {size : α → Nat}
variable {line : List α}

theorem not_mem_of_splitOn {text : List α} (member : line ∈ text.splitOn separator) :
    separator ∉ line := by
  induction text generalizing line with
  | nil =>
    rw [splitOn_nil, mem_singleton] at member
    rw [member]
    exact not_mem_nil
  | cons x text ih =>
    rw [splitOn_cons_eq_if_modifyHead] at member
    split at member
    · rcases mem_cons.mp member with rfl | later
      · exact not_mem_nil
      · exact ih later
    · next other =>
      cases pieces : text.splitOn separator with
      | nil => exact absurd pieces (splitOn_ne_nil separator text)
      | cons front lines =>
        rw [pieces] at member ih
        rcases mem_cons.mp member with rfl | later
        · intro inside
          rcases mem_cons.mp inside with same | inner
          · exact other (beq_iff_eq.mpr same.symm)
          · exact ih mem_cons_self inner
        · exact ih (mem_cons_of_mem _ later)

theorem find_line (whole : separator ∉ line) (text : List α) :
    find size (separator :: word) (line ++ text) =
      (find size (separator :: word) text).map (width size line + ·) := by
  induction line with
  | nil => simp
  | cons x line ih =>
    rw [mem_cons, not_or] at whole
    have apart : ¬ (separator :: word).isPrefixOf (x :: (line ++ text)) := by
      intro starts
      exact whole.1 (cons_prefix_cons.mp ( isPrefixOf_iff_prefix.mp starts)).1
    rw [cons_append, find, if_neg apart, ih whole.2, Option.map_map, width_cons]
    apply Option.map_congr
    intro n _
    simp [Function.comp_apply, Nat.add_assoc]

theorem find_behind (joined : separator ∉ word) {quiet : List (List α)}
    (lines : List (List α))
    (apart : ∀ line ∈ quiet, separator ∉ line ∧ ¬ word <+: line) :
    find size (separator :: word) (behind separator (quiet ++ lines)) =
      (find size (separator :: word) (behind separator lines)).map
        (width size (behind separator quiet) + ·) := by
  induction quiet with
  | nil => simp
  | cons line quiet ih =>
    obtain ⟨⟨whole, other⟩, later⟩ := forall_mem_cons.mp apart
    have here : ¬ (separator :: word).isPrefixOf
        (separator :: (line ++ behind separator (quiet ++ lines))) := by
      intro starts
      have inner := (cons_prefix_cons.mp ( isPrefixOf_iff_prefix.mp starts)).2
      exact other ((prefix_line joined line _).mp inner)
    rw [cons_append, behind_cons, find, if_neg here, find_line whole, ih later,
      Option.map_map, Option.map_map, behind_cons, width_cons, width_append]
    apply Option.map_congr
    intro n _
    simp [Function.comp_apply, Nat.add_assoc]

theorem find_behind_none (joined : separator ∉ word) {lines : List (List α)}
    (whole : separator ∉ line) (apart : ∀ line ∈ lines, separator ∉ line ∧ ¬ word <+: line) :
    find size (separator :: word) (line ++ behind separator lines) = none := by
  have absent : find size (separator :: word) (behind separator (lines ++ [])) = none := by
    rw [find_behind joined [] apart]
    rfl
  rw [append_nil] at absent
  rw [find_line whole, absent]
  rfl

theorem find_behind_some (joined : separator ∉ word) {quiet : List (List α)}
    (whole : separator ∉ line) (apart : ∀ line ∈ quiet, separator ∉ line ∧ ¬ word <+: line)
    (tail : List α) (after : List (List α)) :
    find size (separator :: word)
        (line ++ behind separator (quiet ++ (word ++ tail) :: after)) =
      some (width size (line ++ behind separator quiet)) := by
  have here : (separator :: word).isPrefixOf
      (separator :: (word ++ tail ++ behind separator after)) := by
    rw [ isPrefixOf_iff_prefix, append_assoc]
    exact ⟨tail ++ behind separator after, rfl⟩
  rw [find_line whole, find_behind joined _ apart, behind_cons, find, if_pos here, width_append]
  rfl

end lines

section regions

variable {α β γ : Type}

/-- A part of a text that a new text replaces. -/
structure Region (β : Type) where
  start : Nat
  length : Nat
  new : List β

namespace Region

def covers (region : Region β) (offset : Nat) : Bool :=
  region.start ≤ offset && offset < region.start + region.length

def flatMap (write : β → List γ) (region : Region β) : Region γ :=
  { region with new := region.new.flatMap write }

end Region

variable (size : α → Nat)

/-- The text behind `offset` bytes with its regions replaced: a new text stands where its region
starts, and `keep` writes the letters outside the regions. -/
def rewrite (keep : α → List β) (regions : List (Region β)) : Nat → List α → List β
  | _, [] => []
  | offset, x :: text =>
    (regions.filter fun region => region.start = offset).flatMap Region.new ++
      ((if regions.any (Region.covers · offset) then [] else keep x) ++
        rewrite keep regions (offset + size x) text)

/-- `String::replace_range`: none when a letter lies across a bound of the region. -/
def replaceRange (text : List α) (region : Region α) : Option (List α) := do
  let before ← cutAt size text region.start
  let after ← cutAt size before.2 region.length
  return before.1 ++ region.new ++ after.2

/-- The region is a part of the text, and not an empty one. -/
def Region.Within (text : List α) (region : Region β) : Prop :=
  0 < region.length ∧ ∃ old, OccursAt size old text region.start ∧ width size old = region.length

def Apart (regions : List (Region β)) : Prop :=
  regions.Pairwise fun former latter => former.start + former.length ≤ latter.start

variable {size} {keep : α → List β} {regions : List (Region β)}

theorem rewrite_append (offset : Nat) (front back : List α) :
    rewrite size keep regions offset (front ++ back) =
      rewrite size keep regions offset front ++
        rewrite size keep regions (offset + width size front) back := by
  induction front generalizing offset with
  | nil => rfl
  | cons x front ih =>
    simp [cons_append, rewrite, ih, width_cons, append_assoc, Nat.add_assoc]

theorem rewrite_flatMap (write : β → List γ) (offset : Nat) (text : List α) :
    (rewrite size keep regions offset text).flatMap write =
      rewrite size (fun x => (keep x).flatMap write) (regions.map (Region.flatMap write))
        offset text := by
  induction text generalizing offset with
  | nil => rfl
  | cons x text ih =>
    have inserted : ((regions.filter fun region => region.start = offset).flatMap
        Region.new).flatMap write =
        ((regions.map (Region.flatMap write)).filter fun region =>
          region.start = offset).flatMap Region.new := by
      rw [filter_map, flatMap_map, flatMap_assoc]
      rfl
    have inside : (regions.map (Region.flatMap write)).any (Region.covers · offset) =
        regions.any (Region.covers · offset) := by
      rw [any_map]
      rfl
    simp only [rewrite, flatMap_append, ih, inserted, inside]
    split <;> rfl

theorem rewrite_map {δ : Type} (letter : δ → α) (offset : Nat) (text : List δ) :
    rewrite size keep regions offset (text.map letter) =
      rewrite (fun x => size (letter x)) (fun x => keep (letter x)) regions offset text := by
  induction text generalizing offset with
  | nil => rfl
  | cons x text ih => simp [rewrite, ih]

theorem rewrite_far (letters : ∀ x, 0 < size x) (offset : Nat) (text : List α)
    (far : ∀ region ∈ regions, region.start + region.length ≤ offset ∧ 0 < region.length ∨
      offset + width size text ≤ region.start) :
    rewrite size keep regions offset text = text.flatMap keep := by
  induction text generalizing offset with
  | nil => rfl
  | cons x text ih =>
    have wide := letters x
    have none_starts : (regions.filter fun region => region.start = offset) = [] := by
      rw [filter_eq_nil_iff]
      intro region member
      have := far region member
      simp only [width_cons] at this
      simp only [decide_eq_true_eq]
      omega
    have none_covers : regions.any (Region.covers · offset) = false := by
      rw [any_eq_false]
      intro region member
      have := far region member
      simp only [width_cons] at this
      simp only [Region.covers, Bool.and_eq_true, decide_eq_true_eq]
      omega
    have rest := ih (offset + size x) fun region member => by
      have := far region member
      simp only [width_cons] at this
      omega
    simp [rewrite, none_starts, none_covers, rest]

variable {region : Region β}

theorem rewrite_past (nonempty : 0 < region.length) (offset : Nat) (text : List α)
    (past : region.start + region.length ≤ offset) :
    rewrite size keep (region :: regions) offset text = rewrite size keep regions offset text := by
  induction text generalizing offset with
  | nil => rfl
  | cons x text ih =>
    have starts : ¬ region.start = offset := by omega
    have covers : region.covers offset = false := by
      simp only [Region.covers, Bool.and_eq_false_iff, decide_eq_false_iff_not]
      omega
    simp [rewrite, starts, covers, ih (offset + size x) (by omega)]

section

variable (letters : ∀ x, 0 < size x)
include letters

theorem rewrite_inside (offset : Nat) (text : List α) (behind : region.start < offset)
    (inside : offset + width size text ≤ region.start + region.length)
    (others : ∀ other ∈ regions, region.start + region.length ≤ other.start) :
    rewrite size keep (region :: regions) offset text = [] := by
  induction text generalizing offset with
  | nil => rfl
  | cons x text ih =>
    have wide := letters x
    simp only [width_cons] at inside
    have none_starts : ((region :: regions).filter fun r => r.start = offset) = [] := by
      rw [filter_eq_nil_iff]
      intro r member
      simp only [decide_eq_true_eq]
      rcases mem_cons.mp member with rfl | other
      · omega
      · have := others r other
        omega
    have covers : region.covers offset = true := by
      simp only [Region.covers, Bool.and_eq_true, decide_eq_true_eq]
      omega
    simp [rewrite, none_starts, covers, ih (offset + size x) (by omega) (by omega)]

theorem rewrite_region (nonempty : 0 < region.length) {old : List α}
    (fits : width size old = region.length)
    (others : ∀ other ∈ regions, region.start + region.length ≤ other.start) :
    rewrite size keep (region :: regions) region.start old = region.new := by
  cases old with
  | nil =>
    simp only [width_nil] at fits
    omega
  | cons x old =>
    have wide := letters x
    simp only [width_cons] at fits
    have starts : ((region :: regions).filter fun r => r.start = region.start) = [region] := by
      rw [filter_cons_of_pos (by simp), filter_eq_nil_iff.mpr]
      intro r member
      have := others r member
      simp only [decide_eq_true_eq]
      omega
    have covers : region.covers region.start = true := by
      simp only [Region.covers, Bool.and_eq_true, decide_eq_true_eq]
      omega
    simp [rewrite, starts, covers,
      rewrite_inside letters (region.start + size x) old (by omega) (by omega) others]

theorem replaceRange_append {region : Region α} (front old back : List α)
    (start : width size front = region.start) (fits : width size old = region.length) :
    replaceRange size (front ++ old ++ back) region = some (front ++ region.new ++ back) := by
  rw [replaceRange, ← start, ← fits, append_assoc, cutAt_append letters]
  simp only [Option.bind_eq_bind, Option.bind_some, cutAt_append letters]
  rfl

theorem replaceRange_reverse {regions : List (Region α)} (front text : List α)
    (apart : Apart regions) (within : ∀ region ∈ regions, region.Within size (front ++ text))
    (behind : ∀ region ∈ regions, width size front ≤ region.start) :
    regions.reverse.foldlM (replaceRange size) (front ++ text) =
      some (front ++ rewrite size (fun x => [x]) regions (width size front) text) := by
  induction regions generalizing front text with
  | nil =>
    have kept : rewrite size (fun x : α => [x]) [] (width size front) text =
        text.flatMap fun x => [x] := rewrite_far letters _ _ (by simp)
    rw [kept, flatMap_singleton']
    rfl
  | cons region regions ih =>
    obtain ⟨first, apart⟩ := pairwise_cons.mp apart
    obtain ⟨nonempty, old, ⟨lead, back, split, start⟩, fits⟩ := within region mem_cons_self
    obtain ⟨between, rfl⟩ : ∃ between, lead = front ++ between := by
      rw [append_assoc] at split
      rcases append_eq_append_iff.mp split with ⟨between, same, _⟩ | ⟨between, same, _⟩
      · exact ⟨between, same⟩
      · have ordered := behind region mem_cons_self
        rw [same, width_append] at ordered
        have := eq_nil_of_width letters (show width size between = 0 by omega)
        exact ⟨[], by rw [same, this, append_nil, append_nil]⟩
    have rest : text = between ++ old ++ back := append_cancel_left (by rw [split]; simp)
    subst rest
    have ends : width size (front ++ between ++ old) = region.start + region.length := by
      rw [width_append, start, fits]
    have split' : front ++ (between ++ old ++ back) = front ++ between ++ old ++ back := by
      simp
    rw [reverse_cons, foldlM_append, split',
      ih (front ++ between ++ old) back apart
        (fun other member => split' ▸ within other (mem_cons_of_mem _ member))
        (fun other member => by rw [ends]; exact first other member)]
    have far : rewrite size (fun x => [x]) (region :: regions) (width size front) between =
        between := by
      rw [rewrite_far letters, flatMap_singleton']
      intro other member
      have before : width size front + width size between = region.start := by
        rw [← width_append, start]
      rcases mem_cons.mp member with rfl | member
      · omega
      · have := first other member
        omega
    have here : width size front + width size between = region.start := by
      rw [← width_append, start]
    have there : width size front + width size (between ++ old) = region.start + region.length := by
      rw [width_append, ← Nat.add_assoc, here, fits]
    simp only [Option.bind_eq_bind, Option.bind_some, foldlM_cons, foldlM_nil,
      replaceRange_append letters _ _ _ start fits, rewrite_append, far, here, there, ends,
      rewrite_region letters nonempty fits first,
      rewrite_past nonempty _ _ (Nat.le_refl _)]
    simp only [append_assoc]
    rfl

end

theorem eq_of_perm_of_short {xs ys : List α} (same : xs.Perm ys)
    (short : xs.Pairwise fun _ _ => False) : xs = ys := by
  match xs, short with
  | [], _ => exact (nil_perm.mp same).symm
  | [x], _ => exact singleton_perm.mp same
  | x :: y :: rest, short => exact (rel_of_pairwise_cons short mem_cons_self).elim

theorem rewrite_perm {others : List (Region β)} (same : regions.Perm others)
    (starts : regions.Pairwise fun former latter => former.start ≠ latter.start) (offset : Nat)
    (text : List α) :
    rewrite size keep regions offset text = rewrite size keep others offset text := by
  induction text generalizing offset with
  | nil => rfl
  | cons x text ih =>
    have inserted : (regions.filter fun region => region.start = offset) =
        others.filter fun region => region.start = offset := by
      refine eq_of_perm_of_short (same.filter _) ?_
      refine (starts.filter _).imp_of_mem fun former latter differ => differ ?_
      have here := of_mem_filter former
      have there := of_mem_filter latter
      simp only [decide_eq_true_eq] at here there
      rw [here, there]
    have inside : regions.any (Region.covers · offset) = others.any (Region.covers · offset) :=
      same.any_eq
    simp [rewrite, inserted, inside, ih]

def AgreeOutside (size : α → Nat) (keep kept : α → List β) (regions : List (Region β))
    (offset : Nat) (text : List α) : Prop :=
  ∀ front x back, text = front ++ x :: back →
    regions.any (Region.covers · (offset + width size front)) = false → keep x = kept x

/-- Texts that no endings make equal. -/
def Clash (front back : List β) : Prop := ∀ rest last, front ++ rest ≠ back ++ last

theorem agreeOutside_cons (keep kept : α → List β) (regions : List (Region β)) (offset : Nat)
    (x : α) (text : List α) :
    AgreeOutside size keep kept regions offset (x :: text) ↔
      (regions.any (Region.covers · offset) = false → keep x = kept x) ∧
        AgreeOutside size keep kept regions (offset + size x) text := by
  constructor
  · intro agree
    refine ⟨fun outside => agree [] x text rfl outside, ?_⟩
    intro front y back split outside
    rw [Nat.add_assoc] at outside
    exact agree (x :: front) y back (by rw [split]; rfl) outside
  · rintro ⟨here, later⟩ front y back split outside
    cases front with
    | nil =>
      obtain ⟨rfl, _⟩ := cons.inj split
      exact here outside
    | cons z front =>
      obtain ⟨rfl, rest⟩ := cons.inj split
      refine later front y back rest ?_
      rw [Nat.add_assoc]
      exact outside

theorem width_rewrite_le (size : α → Nat) (weigh : β → Nat) {kept : α → List β}
    (regions : List (Region β)) (offset : Nat) {text : List α}
    (heavier : ∀ x ∈ text, width weigh (keep x) ≤ width weigh (kept x)) :
    width weigh (rewrite size keep regions offset text) ≤
      width weigh (rewrite size kept regions offset text) := by
  induction text generalizing offset with
  | nil => exact Nat.le_refl _
  | cons x text ih =>
    have here := heavier x mem_cons_self
    have rest := ih (offset + size x) fun y member => heavier y (mem_cons_of_mem _ member)
    simp only [rewrite, width_append]
    split
    · simp only [width_nil]
      omega
    · omega

theorem rewrite_eq_iff (weigh : β → Nat) {keep kept : α → List β} (regions : List (Region β))
    (offset : Nat) {text : List α}
    (heavier : ∀ x ∈ text, width weigh (keep x) ≤ width weigh (kept x))
    (clash : ∀ x ∈ text, width weigh (keep x) = width weigh (kept x) →
      keep x = kept x ∨ Clash (keep x) (kept x)) :
    rewrite size keep regions offset text = rewrite size kept regions offset text ↔
      AgreeOutside size keep kept regions offset text := by
  induction text generalizing offset with
  | nil =>
    refine ⟨fun _ front x back split => ?_, fun _ => rfl⟩
    cases front <;> cases split
  | cons x text ih =>
    have rest := ih (offset + size x) (fun y member => heavier y (mem_cons_of_mem _ member))
      fun y member => clash y (mem_cons_of_mem _ member)
    rw [agreeOutside_cons, ← rest]
    simp only [rewrite, append_cancel_left_eq]
    cases covered : regions.any (Region.covers · offset) with
    | true => simp
    | false =>
      simp only [Bool.false_eq_true, if_false, forall_const]
      constructor
      · intro same
        have here := heavier x mem_cons_self
        have later := width_rewrite_le size weigh regions (offset + size x)
          fun y member => heavier y (mem_cons_of_mem x member)
        have total := congrArg (width weigh) same
        simp only [width_append] at total
        rcases clash x mem_cons_self (by omega) with alike | apart
        · rw [alike, append_cancel_left_eq] at same
          exact ⟨alike, same⟩
        · exact absurd same (apart _ _)
      · rintro ⟨alike, same⟩
        rw [alike, same]

end regions

end Splice
