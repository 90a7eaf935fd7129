import PiRust.EditTool
import PiRust.Regex

/- `substitute_args` of `resources/system_prompt.rs`. -/
namespace PiRust.SubstituteArgs

open List

open EditTool (Str)
open Regex

/-- What `\d` stands for in the `regex` crate: the decimal digits of Unicode, with their values. -/
structure Digits where
  value : Char → Option Nat
  ascii : ∀ c, c.toNat < 128 → value c = if c.isDigit then some (c.toNat - 48) else none

def Digits.isDigit (digits : Digits) (c : Char) : Bool := (digits.value c).isSome

/-- The number that a numeral names, however long it is. -/
def Digits.number (digits : Digits) (numeral : Str) : Nat :=
  numeral.foldl (fun n c => 10 * n + (digits.value c).getD 0) 0

def asciiDigits : Digits where
  value c := if c.isDigit then some (c.toNat - 48) else none
  ascii _ _ := rfl

/-- How many values a `usize` has. -/
def usizeSize : Nat := 2 ^ 64

/-- The arguments of an invocation: a `Vec`, whose length is a `usize`. -/
structure Args where
  items : List Str
  bounded : items.length < usizeSize

/-- `str::parse::<usize>`. -/
def parseUsize (text : Str) : Option Nat :=
  let unsigned := match text with
    | '+' :: rest => rest
    | _ => text
  if unsigned ≠ [] ∧ unsigned.all Char.isDigit = true then
    let value := unsigned.foldl (fun n c => 10 * n + (c.toNat - 48)) 0
    if value < usizeSize then some value else none
  else none

/-- `a - b`, which panics below zero where overflow is checked, and wraps elsewhere. -/
def usizeSub (overflowChecks : Bool) (a b : Nat) : Option Nat :=
  if b ≤ a then some (a - b)
  else if overflowChecks then none
  else some (a + usizeSize - b)

section pattern

variable (digits : Digits)

def defaultForm : Pattern Char :=
  .seq (literal ['$', '{']) (.seq (.group 1 (plus digits.isDigit))
    (.seq (literal [':', '-']) (.seq (.group 2 (.many (· ≠ '}'))) (literal ['}']))))

def sliceLength : Pattern Char := .seq (literal [':']) (.group 4 (plus digits.isDigit))

def sliceForm : Pattern Char :=
  .seq (literal ['$', '{', '@', ':']) (.seq (.group 3 (plus digits.isDigit))
    (.seq (atMostOne (sliceLength digits)) (literal ['}'])))

def simpleForm : Pattern Char :=
  .seq (literal ['$']) (.group 5
    (.alt (literal "ARGUMENTS".toList) (.alt (literal ['@']) (plus digits.isDigit))))

def substituteRe : Pattern Char :=
  .alt (defaultForm digits) (.alt (sliceForm digits) (simpleForm digits))

end pattern

def join (args : List Str) : Str := [' '].intercalate args

/-- The closure that replaces a match; none where it panics. -/
def replacement (overflowChecks : Bool) (args : List Str) (caps : Captures Char) : Option Str :=
  match caps.lookup 1 with
  | some defaultNum =>
    (usizeSub overflowChecks ((parseUsize defaultNum).getD 1) 1).map fun index =>
      let defaultVal := (caps.lookup 2).getD []
      match args[index]? with
      | some v => if v.isEmpty then defaultVal else v
      | none => defaultVal
  | none =>
    match caps.lookup 3 with
    | some sliceStart =>
      let parsed := (parseUsize sliceStart).getD 1
      let start := if parsed = 0 then 0 else parsed - 1
      if start ≥ args.length then some []
      else
        match caps.lookup 4 with
        | some sliceLen =>
          let len := (parseUsize sliceLen).getD 0
          some (join ((args.drop start).take len))
        | none => some (join (args.drop start))
    | none =>
      match caps.lookup 5 with
      | some simple =>
        if simple = "ARGUMENTS".toList ∨ simple = ['@'] then some (join args)
        else
          (usizeSub overflowChecks ((parseUsize simple).getD 1) 1).map fun index =>
            args[index]?.getD []
      | none => some []

def substituteParts (overflowChecks : Bool) (digits : Digits) (content : Str) (args : Args) :
    Option (List Str) :=
  replaceParts (substituteRe digits) (replacement overflowChecks args.items) content

def substituteArgs (overflowChecks : Bool) (digits : Digits) (content : Str) (args : Args) :
    Option Str :=
  (substituteParts overflowChecks digits content args).map flatten

inductive Placeholder
  | positional (numeral : Str)
  | orDefault (numeral default : Str)
  | slice (numeral : Str) (length : Option Str)
  | all
  | arguments

namespace Placeholder

def source : Placeholder → Str
  | positional numeral => ['$'] ++ numeral
  | orDefault numeral default => ['$', '{'] ++ (numeral ++ ([':', '-'] ++ (default ++ ['}'])))
  | slice numeral none => ['$', '{', '@', ':'] ++ (numeral ++ ['}'])
  | slice numeral (some length) =>
    ['$', '{', '@', ':'] ++ (numeral ++ ([':'] ++ (length ++ ['}'])))
  | all => ['$'] ++ ['@']
  | arguments => ['$'] ++ "ARGUMENTS".toList

def groups : Placeholder → Captures Char
  | positional numeral => [(5, numeral)]
  | orDefault numeral default => [(1, numeral), (2, default)]
  | slice numeral none => [(3, numeral)]
  | slice numeral (some length) => [(3, numeral), (4, length)]
  | all => [(5, ['@'])]
  | arguments => [(5, "ARGUMENTS".toList)]

end Placeholder

theorem Digits.plain (digits : Digits) {c : Char} (ascii : c.toNat < 128)
    (other : c.isDigit = false) : digits.isDigit c = false := by
  rw [Digits.isDigit, digits.ascii c ascii, other]
  rfl

def IsNumeral (digits : Digits) (text : Str) : Prop :=
  text ≠ [] ∧ ∀ c ∈ text, digits.isDigit c = true

def Placeholder.WellFormed (digits : Digits) : Placeholder → Prop
  | positional numeral => IsNumeral digits numeral
  | orDefault numeral default => IsNumeral digits numeral ∧ '}' ∉ default
  | slice numeral length => IsNumeral digits numeral ∧ ∀ count ∈ length, IsNumeral digits count
  | all => True
  | arguments => True

/-- The numeral at the end of a placeholder is not cut off. -/
def Placeholder.Complete (digits : Digits) (rest : Str) : Placeholder → Prop
  | positional _ => ∀ c after, rest = c :: after → digits.isDigit c = false
  | _ => True

/-- A placeholder that is read here as a whole. -/
structure Stands (digits : Digits) (placeholder : Placeholder) (rest : Str) : Prop where
  wellFormed : placeholder.WellFormed digits
  complete : placeholder.Complete digits rest

section forms

variable {digits : Digits} {numeral default rest : Str}

theorem candidates_numeral (n : Nat) {back : Pattern Char} (written : IsNumeral digits numeral)
    (ends : ∀ c after, rest = c :: after → digits.isDigit c = false)
    (stuck : ∀ c after, digits.isDigit c = true → candidates back (c :: after) = []) :
    candidates (.seq (.group n (plus digits.isDigit)) back) (numeral ++ rest) =
      (candidates back rest).map (Match.andThen ⟨numeral, rest, [(n, numeral)]⟩) := by
  obtain ⟨later, first, others⟩ := plus_append written.1 written.2 ends
  exact candidates_group_seq n first others stuck

variable {c : Char} {text : Str} {m : Match Char}

theorem marked (ascii : c.toNat < 128) (other : c.isDigit = false) (word after : Str) :
    ∀ d text, (c :: word) ++ after = d :: text → digits.isDigit d = false := by
  rintro d text ⟨⟩
  exact digits.plain ascii other

theorem literal_stuck (ascii : c.toNat < 128) (other : c.isDigit = false) (word : Str)
    (back : Pattern Char) :
    ∀ d after, digits.isDigit d = true →
      candidates (.seq (literal (c :: word)) back) (d :: after) = [] := by
  intro d after digit
  refine candidates_literal_seq_apart (fun starts => ?_) back
  have same := (cons_prefix_cons.mp starts).1
  rw [← same, digits.plain ascii other] at digit
  cases digit

theorem defaultForm_source (written : IsNumeral digits numeral) (open_ : '}' ∉ default) :
    candidates (defaultForm digits) ((Placeholder.orDefault numeral default).source ++ rest) =
      [⟨(Placeholder.orDefault numeral default).source, rest, [(1, numeral), (2, default)]⟩] := by
  have letters : ∀ c ∈ default, decide (c ≠ '}') = true :=
    fun c member => decide_eq_true fun same => open_ (same ▸ member)
  have closing : ∀ c after, ['}'] ++ rest = c :: after → decide (c ≠ '}') = false := by
    rintro c after ⟨⟩
    rfl
  obtain ⟨later, first, others⟩ := stops_append letters closing
  have inner : candidates (.many (· ≠ '}')) (default ++ (['}'] ++ rest)) =
      ⟨default, ['}'] ++ rest, []⟩ :: later := first
  have stuck : ∀ c after, decide (c ≠ '}') = true → candidates (literal ['}']) (c :: after) = [] := by
    intro c after other
    refine candidates_literal_apart fun starts => ?_
    exact of_decide_eq_true other (cons_prefix_cons.mp starts).1.symm
  simp only [Placeholder.source, append_assoc]
  rw [defaultForm, candidates_literal_seq,
    candidates_numeral 1 written (marked (by decide) (by decide) _ _)
      (literal_stuck (by decide) (by decide) _ _),
    candidates_literal_seq, candidates_group_seq 2 inner others stuck, candidates_literal]
  simp [Match.andThen]

theorem closing_stuck (ascii : c.toNat < 128) (other : c.isDigit = false) :
    ∀ d after, digits.isDigit d = true → candidates (literal [c]) (d :: after) = [] := by
  intro d after digit
  refine candidates_literal_apart fun starts => ?_
  rw [← (cons_prefix_cons.mp starts).1, digits.plain ascii other] at digit
  cases digit

theorem sliceEnd_stuck (d : Char) (after : Str) (digit : digits.isDigit d = true) :
    candidates (.seq (atMostOne (sliceLength digits)) (literal ['}'])) (d :: after) = [] := by
  rw [candidates_atMostOne_seq, sliceLength, candidates_seq_assoc,
    literal_stuck (by decide) (by decide) _ _ d after digit,
    closing_stuck (by decide) (by decide) d after digit]
  rfl

theorem sliceEnd_none (rest : Str) :
    candidates (.seq (atMostOne (sliceLength digits)) (literal ['}'])) (['}'] ++ rest) =
      [⟨['}'], rest, []⟩] := by
  have apart : ¬ [':'] <+: ['}'] ++ rest :=
    fun starts => absurd (cons_prefix_cons.mp starts).1 (by decide)
  rw [candidates_atMostOne_seq, sliceLength, candidates_seq_assoc,
    candidates_literal_seq_apart apart, candidates_literal]
  rfl

theorem sliceEnd_some {count : Str} (written : IsNumeral digits count) (rest : Str) :
    candidates (.seq (atMostOne (sliceLength digits)) (literal ['}']))
        ([':'] ++ (count ++ (['}'] ++ rest))) =
      [⟨[':'] ++ (count ++ ['}']), rest, [(4, count)]⟩] := by
  have apart : ¬ ['}'] <+: [':'] ++ (count ++ (['}'] ++ rest)) :=
    fun starts => absurd (cons_prefix_cons.mp starts).1 (by decide)
  rw [candidates_atMostOne_seq, sliceLength, candidates_seq_assoc, candidates_literal_seq,
    candidates_numeral 4 written (marked (by decide) (by decide) _ _)
      (closing_stuck (by decide) (by decide)),
    candidates_literal, candidates_literal_apart apart]
  rfl

theorem sliceForm_source {length : Option Str} (written : IsNumeral digits numeral)
    (counted : ∀ count ∈ length, IsNumeral digits count) :
    candidates (sliceForm digits) ((Placeholder.slice numeral length).source ++ rest) =
      [⟨(Placeholder.slice numeral length).source, rest,
        (Placeholder.slice numeral length).groups⟩] := by
  cases length with
  | none =>
    simp only [Placeholder.source, Placeholder.groups, append_assoc]
    rw [sliceForm, candidates_literal_seq,
      candidates_numeral 3 written (marked (by decide) (by decide) _ _) sliceEnd_stuck,
      sliceEnd_none]
    simp [Match.andThen]
  | some count =>
    simp only [Placeholder.source, Placeholder.groups, append_assoc]
    rw [sliceForm, candidates_literal_seq,
      candidates_numeral 3 written (marked (by decide) (by decide) _ _) sliceEnd_stuck,
      sliceEnd_some (counted count rfl)]
    simp [Match.andThen]

theorem braceless {text : Str} (apart : ¬ ['{'] <+: text) :
    candidates (defaultForm digits) (['$'] ++ text) = [] ∧
      candidates (sliceForm digits) (['$'] ++ text) = [] := by
  constructor
  · refine candidates_literal_seq_apart (fun starts => ?_) _
    exact apart (cons_prefix_cons.mp starts).2
  · refine candidates_literal_seq_apart (fun starts => ?_) _
    have after := (cons_prefix_cons.mp starts).2
    exact apart (IsPrefix.trans ⟨['@', ':'], rfl⟩ after)

theorem slice_not_default (rest : Str) :
    candidates (defaultForm digits) (['$', '{', '@', ':'] ++ rest) = [] := by
  have none : candidates (plus digits.isDigit) (['@', ':'] ++ rest) = [] :=
    candidates_plus_nil (marked (by decide) (by decide) _ _)
  have group : candidates (.group 1 (plus digits.isDigit)) (['@', ':'] ++ rest) = [] := by
    rw [candidates, none, map_nil]
  have split : ['$', '{', '@', ':'] ++ rest = ['$', '{'] ++ (['@', ':'] ++ rest) := rfl
  rw [split, defaultForm, candidates_literal_seq, candidates_seq_nil group, map_nil]

theorem matchAt_simple {text taken : Str} (apart : ¬ ['{'] <+: text)
    (first : (candidates (.alt (literal "ARGUMENTS".toList)
      (.alt (literal ['@']) (plus digits.isDigit))) text).head? = some ⟨taken, rest, []⟩) :
    matchAt (substituteRe digits) (['$'] ++ text) = some ⟨['$'] ++ taken, rest, [(5, taken)]⟩ := by
  obtain ⟨noDefault, noSlice⟩ : candidates (defaultForm digits) (['$'] ++ text) = [] ∧
      candidates (sliceForm digits) (['$'] ++ text) = [] := braceless apart
  rw [matchAt, substituteRe, candidates, candidates, noDefault, noSlice, nil_append,
    nil_append, simpleForm, candidates_literal_seq, candidates, map_map, head?_map,
    first]
  rfl

theorem numeral_apart (written : IsNumeral digits numeral) (ascii : c.toNat < 128)
    (other : c.isDigit = false) (word rest : Str) : ¬ c :: word <+: numeral ++ rest := by
  obtain ⟨d, inner, rfl⟩ := exists_cons_of_ne_nil written.1
  intro starts
  have digit := written.2 d mem_cons_self
  rw [← (cons_prefix_cons.mp starts).1, digits.plain ascii other] at digit
  cases digit

theorem slice_starts (numeral : Str) (length : Option Str) (rest : Str) :
    ∃ text, (Placeholder.slice numeral length).source ++ rest = ['$', '{', '@', ':'] ++ text := by
  cases length with
  | none => exact ⟨_, append_assoc _ _ _⟩
  | some count => exact ⟨_, append_assoc _ _ _⟩

theorem matchAt_source {placeholder : Placeholder} (stands : Stands digits placeholder rest) :
    matchAt (substituteRe digits) (placeholder.source ++ rest) =
      some ⟨placeholder.source, rest, placeholder.groups⟩ := by
  obtain ⟨wellFormed, complete⟩ := stands
  cases placeholder with
  | positional numeral =>
    obtain ⟨later, first, _⟩ := plus_append wellFormed.1 wellFormed.2 complete
    rw [Placeholder.source, append_assoc]
    refine matchAt_simple (numeral_apart wellFormed (by decide) (by decide) _ _) ?_
    have noName : ¬ "ARGUMENTS".toList <+: numeral ++ rest :=
      numeral_apart wellFormed (by decide) (by decide) _ _
    rw [candidates, candidates, candidates_literal_apart noName,
      candidates_literal_apart (numeral_apart wellFormed (by decide) (by decide) _ _), first]
    rfl
  | orDefault numeral default =>
    rw [matchAt, substituteRe, candidates, defaultForm_source wellFormed.1 wellFormed.2]
    rfl
  | slice numeral length =>
    have noDefault : candidates (defaultForm digits)
        ((Placeholder.slice numeral length).source ++ rest) = [] := by
      obtain ⟨text, split⟩ := slice_starts numeral length rest
      rw [split, slice_not_default]
    rw [matchAt, substituteRe, candidates, candidates, noDefault,
      sliceForm_source wellFormed.1 wellFormed.2]
    rfl
  | all =>
    have apart : ¬ "ARGUMENTS".toList <+: ['@'] ++ rest :=
      fun starts => absurd (cons_prefix_cons.mp starts).1 (by decide)
    rw [Placeholder.source, append_assoc]
    refine matchAt_simple (fun starts => ?_) ?_
    · exact absurd (cons_prefix_cons.mp starts).1 (by decide)
    · rw [candidates, candidates, candidates_literal_apart apart, candidates_literal]
      rfl
  | arguments =>
    rw [Placeholder.source, append_assoc]
    refine matchAt_simple (fun starts => ?_) ?_
    · exact absurd (cons_prefix_cons.mp starts).1 (by decide)
    · rw [candidates, candidates_literal]
      rfl

theorem source_of_default (member : m ∈ candidates (defaultForm digits) text) :
    ∃ placeholder : Placeholder, placeholder.WellFormed digits ∧
      text = placeholder.source ++ m.rest := by
  obtain ⟨opening, opened, _, behindOpening, rfl⟩ := mem_seq.mp member
  obtain ⟨_, numberGroup, _, behindNumber, rfl⟩ := mem_seq.mp behindOpening
  obtain ⟨numeral, numbered, rfl⟩ := mem_map.mp numberGroup
  obtain ⟨marks, marked, _, behindMarks, rfl⟩ := mem_seq.mp behindNumber
  obtain ⟨_, defaultGroup, closing, closed, rfl⟩ := mem_seq.mp behindMarks
  obtain ⟨default, taken, rfl⟩ := mem_map.mp defaultGroup
  obtain ⟨full, _, letters⟩ := mem_plus numbered
  obtain ⟨split, _, unclosed⟩ := split_of_mem_stops taken
  have first : text = ['$', '{'] ++ opening.rest := (mem_literal opened).1
  have second : opening.rest = numeral.taken ++ numeral.rest := split_of_mem numbered
  have third : numeral.rest = [':', '-'] ++ marks.rest := (mem_literal marked).1
  have last : default.rest = ['}'] ++ closing.rest := (mem_literal closed).1
  refine ⟨.orDefault numeral.taken default.taken, ⟨⟨full, letters⟩, fun inside => ?_⟩, ?_⟩
  · exact of_decide_eq_true (unclosed _ inside) rfl
  · simp [first, second, third, split, last, Placeholder.source, Match.andThen]

theorem source_of_slice (member : m ∈ candidates (sliceForm digits) text) :
    ∃ placeholder : Placeholder, placeholder.WellFormed digits ∧
      text = placeholder.source ++ m.rest := by
  obtain ⟨opening, opened, _, behindOpening, rfl⟩ := mem_seq.mp member
  obtain ⟨_, numberGroup, closing, ending, rfl⟩ := mem_seq.mp behindOpening
  obtain ⟨numeral, numbered, rfl⟩ := mem_map.mp numberGroup
  obtain ⟨full, _, letters⟩ := mem_plus numbered
  have first : text = ['$', '{', '@', ':'] ++ opening.rest := (mem_literal opened).1
  have second : opening.rest = numeral.taken ++ numeral.rest := split_of_mem numbered
  rw [candidates_atMostOne_seq] at ending
  rcases mem_append.mp ending with long | closed
  · obtain ⟨_, length, closing, closed, rfl⟩ := mem_seq.mp long
    obtain ⟨marks, marked, _, countGroup, rfl⟩ := mem_seq.mp length
    obtain ⟨count, counted, rfl⟩ := mem_map.mp countGroup
    obtain ⟨countFull, _, countLetters⟩ := mem_plus counted
    have third : numeral.rest = [':'] ++ marks.rest := (mem_literal marked).1
    have fourth : marks.rest = count.taken ++ count.rest := split_of_mem counted
    have last : count.rest = ['}'] ++ closing.rest := (mem_literal closed).1
    refine ⟨.slice numeral.taken (some count.taken), ⟨⟨full, letters⟩, ?_⟩, ?_⟩
    · rintro _ ⟨⟩
      exact ⟨countFull, countLetters⟩
    · simp [first, second, third, fourth, last, Placeholder.source, Match.andThen]
  · refine ⟨.slice numeral.taken none, ⟨⟨full, letters⟩, by simp⟩, ?_⟩
    have last : numeral.rest = ['}'] ++ closing.rest := (mem_literal closed).1
    simp only [first, second, last, Placeholder.source, append_assoc, Match.andThen]

theorem source_of_match (member : m ∈ candidates (substituteRe digits) text) :
    ∃ placeholder : Placeholder, placeholder.WellFormed digits ∧
      text = placeholder.source ++ m.rest := by
  rcases mem_append.mp member with inDefault | later
  · exact source_of_default inDefault
  · rcases mem_append.mp later with inSlice | inSimple
    · exact source_of_slice inSlice
    · obtain ⟨first, dollar, second, tail, rfl⟩ := mem_seq.mp inSimple
      obtain ⟨split, _⟩ := mem_literal dollar
      obtain ⟨inner, chosen, rfl⟩ := mem_map.mp tail
      rcases mem_append.mp chosen with named | other
      · refine ⟨.arguments, trivial, ?_⟩
        obtain ⟨rest, _⟩ := mem_literal named
        rw [split, rest, Placeholder.source, append_assoc]
        rfl
      · rcases mem_append.mp other with every | numbered
        · refine ⟨.all, trivial, ?_⟩
          obtain ⟨rest, _⟩ := mem_literal every
          rw [split, rest, Placeholder.source, append_assoc]
          rfl
        · obtain ⟨full, _, letters⟩ := mem_plus numbered
          refine ⟨.positional inner.taken, ⟨full, letters⟩, ?_⟩
          rw [split, split_of_mem numbered, Placeholder.source, append_assoc]
          rfl

theorem stands_of_match (found : matchAt (substituteRe digits) text = some m) :
    ∃ (placeholder : Placeholder) (rest : Str), Stands digits placeholder rest ∧
      text = placeholder.source ++ rest := by
  obtain ⟨placeholder, wellFormed, split⟩ := source_of_match (mem_of_head? found)
  cases placeholder with
  | positional numeral =>
    let isDigit := digits.isDigit
    refine ⟨.positional (numeral ++ m.rest.takeWhile isDigit), m.rest.dropWhile isDigit,
      ⟨⟨?_, ?_⟩, ?_⟩, ?_⟩
    · exact append_ne_nil_of_left_ne_nil wellFormed.1 _
    · intro c member
      rcases mem_append.mp member with inside | more
      · exact wellFormed.2 c inside
      · exact mem_takeWhile_imp more
    · intro c after stop
      have first := head?_dropWhile_not isDigit m.rest
      rw [stop] at first
      exact first
    · rw [split, Placeholder.source, Placeholder.source, append_assoc, append_assoc,
        append_assoc, takeWhile_append_dropWhile]
  | _ => exact ⟨_, m.rest, ⟨wellFormed, trivial⟩, split⟩

end forms

inductive Piece
  | text (c : Char)
  | placeholder (placeholder : Placeholder)

/-- The pieces of a template, read from the left. -/
inductive Reads (digits : Digits) : Str → List Piece → Prop
  | nil : Reads digits [] []
  | placeholder {placeholder : Placeholder} {rest : Str} {pieces : List Piece}
      (stands : Stands digits placeholder rest) (later : Reads digits rest pieces) :
      Reads digits (placeholder.source ++ rest) (.placeholder placeholder :: pieces)
  | text {c : Char} {rest : Str} {pieces : List Piece}
      (apart : ∀ placeholder after, Stands digits placeholder after →
        c :: rest ≠ placeholder.source ++ after)
      (later : Reads digits rest pieces) : Reads digits (c :: rest) (.text c :: pieces)

def argument (args : Args) (n : Nat) : Option Str :=
  if n = 0 then none else args.items[n - 1]?

def nonemptyOr (v : Option Str) (default : Str) : Str :=
  match v with
  | some v => if v.isEmpty then default else v
  | none => default

/-- The arguments from a number on; zero is taken for one. -/
def chosen (args : Args) (first : Nat) (count : Option Nat) : List Str :=
  match count with
  | some count => (args.items.drop (first - 1)).take count
  | none => args.items.drop (first - 1)

def Placeholder.documented (digits : Digits) (args : Args) : Placeholder → Str
  | positional numeral => (argument args (digits.number numeral)).getD []
  | orDefault numeral default => nonemptyOr (argument args (digits.number numeral)) default
  | slice numeral length =>
    join (chosen args (digits.number numeral) (length.map digits.number))
  | all => join args.items
  | arguments => join args.items

def Piece.documented (digits : Digits) (args : Args) : Piece → Str
  | .text c => [c]
  | .placeholder inner => inner.documented digits args

/-- The parts of the result are those documented for the pieces of the template. -/
def SubstitutesAsDocumented (overflowChecks : Bool) (digits : Digits) (content : Str)
    (args : Args) : Prop :=
  ∃ pieces, Reads digits content pieces ∧
    substituteParts overflowChecks digits content args =
      some (pieces.map (Piece.documented digits args)) ∧
    substituteArgs overflowChecks digits content args =
      some (pieces.flatMap (Piece.documented digits args))

/-- Numerals that are parsed are not zero where overflow is checked; the others name the same
text as the number that is taken for them. -/
def Placeholder.Sound (overflowChecks : Bool) (digits : Digits) (args : Args) :
    Placeholder → Prop
  | positional numeral =>
    match parseUsize numeral with
    | some n => overflowChecks = true → n ≠ 0
    | none => (argument args (digits.number numeral)).getD [] = (argument args 1).getD []
  | orDefault numeral default =>
    match parseUsize numeral with
    | some n => overflowChecks = true → n ≠ 0
    | none => nonemptyOr (argument args (digits.number numeral)) default =
        nonemptyOr (argument args 1) default
  | slice numeral length =>
    join (chosen args (digits.number numeral) (length.map digits.number)) =
      join (chosen args ((parseUsize numeral).getD 1)
        (length.map fun count => (parseUsize count).getD 0))
  | all => True
  | arguments => True

section replacing

variable {digits : Digits} {overflowChecks : Bool} {args : Args}

theorem number_eq {text : Str} (ascii : ∀ c ∈ text, c.isDigit = true) :
    digits.number text = text.foldl (fun n c => 10 * n + (c.toNat - 48)) 0 := by
  refine foldl_ext _ _ 0 fun n c member => ?_
  have digit := ascii c member
  have small : c.toNat < 128 := by
    have bounds : c.toNat ≤ 57 := (Char.isDigit_iff_toNat.mp digit).2
    omega
  rw [digits.ascii c small, if_pos digit]
  rfl

theorem parseUsize_number {numeral : Str} (written : IsNumeral digits numeral) {n : Nat}
    (parsed : parseUsize numeral = some n) : digits.number numeral = n := by
  obtain ⟨d, rest, rfl⟩ := exists_cons_of_ne_nil written.1
  have unsigned : d ≠ '+' := by
    rintro rfl
    have digit := written.2 '+' mem_cons_self
    rw [digits.plain (by decide) (by decide)] at digit
    cases digit
  unfold parseUsize at parsed
  split at parsed
  · next same => exact absurd (cons.inj same).1 unsigned
  · dsimp only at parsed
    split at parsed
    · next ascii =>
      split at parsed
      · rw [number_eq (all_eq_true.mp ascii.2)]
        exact Option.some.inj parsed
      · cases parsed
    · cases parsed

theorem usizeSub_argument (v : Nat) :
    (usizeSub overflowChecks v 1).map (args.items[·]?) =
      if overflowChecks = true ∧ v = 0 then none else some (argument args v) := by
  unfold usizeSub argument
  cases v with
  | zero =>
    cases overflowChecks with
    | true => rfl
    | false =>
      have beyond : args.items[0 + usizeSize - 1]? = none := by
        rw [getElem?_eq_none_iff]
        have := args.bounded
        omega
      simpa using beyond
  | succ v => simp

theorem replacement_positional {numeral : Str} (written : IsNumeral digits numeral) :
    replacement overflowChecks args.items (Placeholder.positional numeral).groups =
      if overflowChecks = true ∧ (parseUsize numeral).getD 1 = 0 then none
      else some ((argument args ((parseUsize numeral).getD 1)).getD []) := by
  have apart : ∀ {c : Char}, c.toNat < 128 → c.isDigit = false → ∀ word, numeral ≠ c :: word := by
    intro c ascii other word same
    exact numeral_apart written ascii other word [] (by rw [same]; exact prefix_append _ _)
  have noName : ¬ (numeral = "ARGUMENTS".toList ∨ numeral = ['@']) := by
    rintro (same | same)
    · exact apart (by decide) (by decide) _ same
    · exact apart (by decide) (by decide) _ same
  have plain : replacement overflowChecks args.items (Placeholder.positional numeral).groups =
      ((usizeSub overflowChecks ((parseUsize numeral).getD 1) 1).map (args.items[·]?)).map
        (·.getD []) := by
    have first : lookup 1 [(5, numeral)] = none := rfl
    have third : lookup 3 [(5, numeral)] = none := rfl
    have fifth : lookup 5 [(5, numeral)] = some numeral := rfl
    simp only [replacement, Placeholder.groups, first, third, fifth, if_neg noName, Option.map_map]
    rfl
  rw [plain, usizeSub_argument]
  split <;> rfl

theorem replacement_orDefault (numeral default : Str) :
    replacement overflowChecks args.items (Placeholder.orDefault numeral default).groups =
      if overflowChecks = true ∧ (parseUsize numeral).getD 1 = 0 then none
      else some (nonemptyOr (argument args ((parseUsize numeral).getD 1)) default) := by
  have plain : replacement overflowChecks args.items (Placeholder.orDefault numeral default).groups =
      ((usizeSub overflowChecks ((parseUsize numeral).getD 1) 1).map (args.items[·]?)).map
        (nonemptyOr · default) := by
    have first : lookup 1 [(1, numeral), (2, default)] = some numeral := rfl
    have second : lookup 2 [(1, numeral), (2, default)] = some default := rfl
    simp only [replacement, Placeholder.groups, first, second, Option.getD_some, Option.map_map]
    rfl
  rw [plain, usizeSub_argument]
  split <;> rfl

theorem replacement_slice (numeral : Str) (length : Option Str) :
    replacement overflowChecks args.items (Placeholder.slice numeral length).groups =
      some (join (chosen args ((parseUsize numeral).getD 1)
        (length.map fun count => (parseUsize count).getD 0))) := by
  have start : ∀ n, (if n = 0 then 0 else n - 1) = n - 1 := by
    intro n
    split <;> omega
  have nothing : ∀ n, n ≥ args.items.length → args.items.drop n = [] :=
    fun n beyond => drop_eq_nil_of_le beyond
  cases length with
  | none =>
    have first : lookup 1 [(3, numeral)] = none := rfl
    have third : lookup 3 [(3, numeral)] = some numeral := rfl
    have fourth : lookup 4 [(3, numeral)] = none := rfl
    simp only [replacement, Placeholder.groups, first, third, fourth, start, chosen,
      Option.map_none]
    split
    · next beyond =>
      rw [nothing _ beyond]
      rfl
    · rfl
  | some count =>
    have first : lookup 1 [(3, numeral), (4, count)] = none := rfl
    have third : lookup 3 [(3, numeral), (4, count)] = some numeral := rfl
    have fourth : lookup 4 [(3, numeral), (4, count)] = some count := rfl
    simp only [replacement, Placeholder.groups, first, third, fourth, start, chosen,
      Option.map_some]
    split
    · next beyond =>
      rw [nothing _ beyond, take_nil]
      rfl
    · rfl

theorem replacement_documented_iff {placeholder : Placeholder}
    (wellFormed : placeholder.WellFormed digits) :
    replacement overflowChecks args.items placeholder.groups =
        some (placeholder.documented digits args) ↔
      placeholder.Sound overflowChecks digits args := by
  cases placeholder with
  | positional numeral =>
    rw [replacement_positional wellFormed, Placeholder.Sound, Placeholder.documented]
    cases parsed : parseUsize numeral with
    | none => simp [eq_comm]
    | some n =>
      rw [parseUsize_number wellFormed parsed]
      simp
  | orDefault numeral default =>
    rw [replacement_orDefault, Placeholder.Sound, Placeholder.documented]
    cases parsed : parseUsize numeral with
    | none => simp [eq_comm]
    | some n =>
      rw [parseUsize_number wellFormed.1 parsed]
      simp
  | slice numeral length =>
    rw [replacement_slice, Placeholder.Sound, Placeholder.documented, Option.some.injEq]
    exact eq_comm
  | all => exact iff_of_true rfl trivial
  | arguments => exact iff_of_true rfl trivial

theorem Placeholder.source_ne_nil (placeholder : Placeholder) : placeholder.source ≠ [] := by
  cases placeholder with
  | slice numeral length => cases length <;> exact cons_ne_nil _ _
  | _ => exact cons_ne_nil _ _

def Piece.replaced (overflowChecks : Bool) (args : Args) : Piece → Option Str
  | .text c => some [c]
  | .placeholder inner => replacement overflowChecks args.items inner.groups

theorem Reads.parts {content : Str} {pieces : List Piece} (reads : Reads digits content pieces) :
    substituteParts overflowChecks digits content args =
      pieces.mapM (Piece.replaced overflowChecks args) := by
  induction reads with
  | nil => rfl
  | @placeholder placeholder rest pieces stands _ ih =>
    rw [substituteParts, replaceParts, cut_match placeholder.source_ne_nil (matchAt_source stands), mapM_cons,
      mapM_cons, ← ih]
    rfl
  | @text c rest pieces apart _ ih =>
    have unmatched : matchAt (substituteRe digits) (c :: rest) = none := by
      cases found : matchAt (substituteRe digits) (c :: rest) with
      | none => rfl
      | some m =>
        obtain ⟨placeholder, after, stands, split⟩ := stands_of_match found
        exact absurd split (apart placeholder after stands)
    rw [substituteParts, replaceParts, cut_pass unmatched, mapM_cons, mapM_cons, ← ih]
    rfl

theorem reads_total (digits : Digits) (content : Str) : ∃ pieces, Reads digits content pieces := by
  induction size : content.length using Nat.strongRecOn generalizing content with
  | ind n ih =>
    cases content with
    | nil => exact ⟨[], .nil⟩
    | cons c rest =>
      by_cases standing : ∃ placeholder after, Stands digits placeholder after ∧
          c :: rest = placeholder.source ++ after
      · obtain ⟨placeholder, after, stands, split⟩ := standing
        have shorter : after.length < n := by
          have full := length_pos_iff.mpr placeholder.source_ne_nil
          rw [← size, split, length_append]
          omega
        obtain ⟨pieces, later⟩ := ih after.length shorter after rfl
        exact ⟨.placeholder placeholder :: pieces, split ▸ .placeholder stands later⟩
      · obtain ⟨pieces, later⟩ := ih rest.length (by simp [← size]) rest rfl
        refine ⟨.text c :: pieces, .text ?_ later⟩
        exact fun placeholder after stands split => standing ⟨placeholder, after, stands, split⟩

theorem mapM_eq_some_iff {pieces : List Piece} :
    pieces.mapM (Piece.replaced overflowChecks args) =
        some (pieces.map (Piece.documented digits args)) ↔
      ∀ piece ∈ pieces, piece.replaced overflowChecks args = some (piece.documented digits args) := by
  induction pieces with
  | nil => simp
  | cons piece pieces ih =>
    rw [forall_mem_cons, ← ih, mapM_cons]
    cases piece.replaced overflowChecks args with
    | none => simp
    | some part =>
      cases pieces.mapM (Piece.replaced overflowChecks args) with
      | none => simp
      | some parts => simp

variable {content : Str} {pieces : List Piece}

theorem Reads.wellFormed (reads : Reads digits content pieces) {placeholder : Placeholder}
    (member : .placeholder placeholder ∈ pieces) : placeholder.WellFormed digits := by
  induction reads with
  | nil => cases member
  | placeholder stands _ ih =>
    rcases mem_cons.mp member with same | later
    · cases same
      exact stands.wellFormed
    · exact ih later
  | text _ _ ih =>
    rcases mem_cons.mp member with same | later
    · cases same
    · exact ih later

theorem Reads.documented_iff (reads : Reads digits content pieces) :
    substituteParts overflowChecks digits content args =
        some (pieces.map (Piece.documented digits args)) ↔
      ∀ placeholder, .placeholder placeholder ∈ pieces →
        placeholder.Sound overflowChecks digits args := by
  rw [reads.parts, mapM_eq_some_iff]
  refine ⟨fun each placeholder member => ?_, fun sound piece member => ?_⟩
  · exact (replacement_documented_iff (reads.wellFormed member)).mp (each _ member)
  · cases piece with
    | text c => rfl
    | placeholder inner =>
      exact (replacement_documented_iff (reads.wellFormed member)).mpr (sound inner member)

end replacing

/-- A template is substituted as documented exactly when the numerals of its placeholders are
sound. -/
theorem substitutesAsDocumented_iff (overflowChecks : Bool) (digits : Digits) (content : Str)
    (args : Args) :
    SubstitutesAsDocumented overflowChecks digits content args ↔
      ∃ pieces, Reads digits content pieces ∧
        ∀ placeholder, .placeholder placeholder ∈ pieces →
          placeholder.Sound overflowChecks digits args := by
  constructor
  · rintro ⟨pieces, reads, parts, _⟩
    exact ⟨pieces, reads, reads.documented_iff.mp parts⟩
  · rintro ⟨pieces, reads, sound⟩
    have parts := reads.documented_iff.mpr sound
    refine ⟨pieces, reads, parts, ?_⟩
    rw [substituteArgs, parts, Option.map_some, flatMap_def]

/-- Every template has a reading, and each placeholder of it is replaced once. -/
theorem substituteArgs_onePass (overflowChecks : Bool) (digits : Digits) (content : Str)
    (args : Args) :
    ∃ pieces, Reads digits content pieces ∧ substituteArgs overflowChecks digits content args =
      (pieces.mapM (Piece.replaced overflowChecks args)).map flatten := by
  obtain ⟨pieces, reads⟩ := reads_total digits content
  exact ⟨pieces, reads, congrArg (Option.map flatten) reads.parts⟩

/-- The price in a template is a placeholder, and there is no argument before the first. -/
theorem zero_panics :
    ¬ SubstitutesAsDocumented true asciiDigits "Ask for $0 first".toList ⟨[], by decide⟩ := by
  rintro ⟨pieces, _, _, output⟩
  have panics : substituteArgs true asciiDigits "Ask for $0 first".toList ⟨[], by decide⟩ = none := by
    decide
  rw [panics] at output
  cases output

end PiRust.SubstituteArgs
