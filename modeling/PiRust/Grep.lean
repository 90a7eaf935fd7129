import Mathlib.Data.List.Infix
import Mathlib.Data.List.ReduceOption
import PiRust.Truncate

/- `tools/grep.rs`, from the candidates and the compiled pattern on. An addition or a multiplication
that overflows stops the search without a result. Numbers of lines and of files, which the memory
bounds, are not checked. -/
namespace PiRust.Grep

open EditTool Truncate List

def defaultLimit : Nat := 100

def maxLineChars : Nat := 500

def maxGrepFileBytes : Nat := 5 * 1024 * 1024

inductive Number where
  | posInt (n : UInt64)
  | negInt (n : Int64)
  | float (value : Rat)

def Number.asU64 : Number → Option Nat
  | .posInt n => some n.toNat
  | _ => none

def Number.asI64 : Number → Option Int
  | .posInt n => if n.toNat < 2 ^ 63 then some n.toNat else none
  | .negInt n => some n.toInt
  | .float _ => none

/-- The rounding of a large integer is left out: it is only asked for the sign of one. -/
def Number.asF64 : Number → Rat
  | .posInt n => n.toNat
  | .negInt n => n.toInt
  | .float value => value

/-- `u64::try_from`. -/
def tryU64 (n : Int) : Option Nat := if 0 ≤ n then some n.toNat else none

/-- A float `as u64`, which truncates and saturates. -/
def floatToU64 (value : Rat) : Nat := min value.floor.toNat (2 ^ 64 - 1)

/-- The argument is `none` where it is missing or no number. -/
def limitArg (limit : Option Number) : Nat :=
  match limit with
  | none => defaultLimit
  | some value =>
    max 1 ((value.asU64.or (value.asI64.bind tryU64)).getD (floatToU64 (max value.asF64 1)))

def contextArg (context : Option Number) : Nat :=
  match context with
  | none => 0
  | some value =>
    (value.asU64.or (value.asI64.bind fun n => tryU64 (max n 0))).getD
      (floatToU64 (max value.asF64 0))

def checkedAdd (a b : Nat) : Option Nat := if a + b < 2 ^ 64 then some (a + b) else none

def checkedMul (a b : Nat) : Option Nat := if a * b < 2 ^ 64 then some (a * b) else none

structure Candidate where
  display : Str
  basename : Str
  metadata : Option Nat
  raw : Option Bytes

structure Glob where
  hasSlash : Bool
  isMatch : Str → Bool

structure Search where
  candidates : List Candidate
  glob : Option Glob
  regex : Str → Bool
  context : Option Number
  limit : Option Number

structure Row where
  candidate : Candidate
  number : Nat
  marked : Bool
  text : Str

def Row.render (row : Row) : Str :=
  let sign := if row.marked then ':' else '-'
  row.candidate.display ++ sign :: (toString row.number).toList ++ sign :: ' ' :: row.text

def truncateLine (line : Str) : Str × Bool :=
  if line.length ≤ maxLineChars then (line, false) else (line.take maxLineChars, true)

def rowAt (candidate : Candidate) (lines : List Str) (lineIndex current : Nat) : Row × Bool :=
  let (line, truncated) := truncateLine (lines.getD current [])
  (⟨candidate, current + 1, current = lineIndex, line⟩, truncated)

def blockEnd (lines : List Str) (lineIndex context : Nat) : Option Nat :=
  if context = 0 then some lineIndex
  else (checkedAdd lineIndex context).map fun reach => min reach (lines.length - 1)

def outputMatchBlock (candidate : Candidate) (lines : List Str) (lineIndex context : Nat) :
    Option (List Row × Bool) :=
  let start := if context = 0 then lineIndex else lineIndex - context
  (blockEnd lines lineIndex context).map fun last =>
    let rows := (range' start (last + 1 - start)).map (rowAt candidate lines lineIndex)
    (rows.map Prod.fst, rows.any Prod.snd)

structure Progress where
  out : List Row := []
  matchCount : Nat := 0
  matchLimitReached : Bool := false
  linesTruncated : Bool := false
  skippedLargeFiles : Nat := 0

section loops

variable (search : Search)

def Search.limitValue : Nat := limitArg search.limit

def Search.contextValue : Nat := contextArg search.context

def outputMatch (candidate : Candidate) (lines : List Str) (lineIndex : Nat) (progress : Progress) :
    Option Progress := do
  let matchCount ← checkedAdd progress.matchCount 1
  let (rows, truncated) ← outputMatchBlock candidate lines lineIndex search.contextValue
  return { progress with
    out := progress.out ++ rows
    matchCount
    matchLimitReached := search.limitValue ≤ matchCount
    linesTruncated := progress.linesTruncated || truncated }

def scanLines (candidate : Candidate) (lines : List Str) :
    List (Str × Nat) → Progress → Option Progress
  | [], progress => some progress
  | (line, lineIndex) :: rest, progress =>
    if search.regex line then do
      let progress ← outputMatch search candidate lines lineIndex progress
      if progress.matchLimitReached then some progress
      else scanLines candidate lines rest progress
    else scanLines candidate lines rest progress

def globAdmits (candidate : Candidate) : Bool :=
  match search.glob with
  | none => true
  | some matcher =>
    matcher.isMatch (if matcher.hasSlash then candidate.display else candidate.basename)

/-- The text of a file, with its line endings as line feeds. -/
def contentOf (raw : Bytes) : Str := normalizeToLf (fromUtf8Lossy raw).toList

def scanCandidate (candidate : Candidate) (progress : Progress) : Option Progress :=
  if globAdmits search candidate then
    match candidate.metadata with
    | none => some progress
    | some len =>
      if maxGrepFileBytes < len then
        some { progress with skippedLargeFiles := progress.skippedLargeFiles + 1 }
      else
        match candidate.raw with
        | none => some progress
        | some raw =>
          let lines := splitChar '\n' (contentOf raw)
          scanLines search candidate lines lines.zipIdx progress
  else some progress

def scanCandidates : List Candidate → Progress → Option Progress
  | [], progress => some progress
  | candidate :: rest, progress => do
    let progress ← scanCandidate search candidate progress
    if progress.matchLimitReached then some progress else scanCandidates rest progress

end loops

inductive Notice where
  | matchLimit (limit raised : Nat)
  | bytes
  | longLines
  | skipped (files : Nat)
  deriving DecidableEq

structure Output where
  found : Progress
  content : Str
  notices : List Notice

def grepExecute (search : Search) : Option Output := do
  let found ← scanCandidates search search.candidates {}
  if found.matchCount = 0 then
    return ⟨found, "No matches found".toList,
      if 0 < found.skippedLargeFiles then [.skipped found.skippedLargeFiles] else []⟩
  else
    let truncation := truncateHead (joinLines (found.out.map Row.render))
      ⟨some (2 ^ 64 - 1), some defaultMaxBytes⟩
    let reached ←
      if found.matchLimitReached then
        (checkedMul search.limitValue 2).map fun raised => [.matchLimit search.limitValue raised]
      else some []
    return ⟨found, truncation.content,
      reached ++ (if truncation.truncated then [.bytes] else []) ++
        (if found.linesTruncated then [.longLines] else []) ++
        if 0 < found.skippedLargeFiles then [.skipped found.skippedLargeFiles] else []⟩

/-- The texts of the notices. `formatSize` is the floating point printer `format_size`. -/
def Notice.text (formatSize : Nat → String) : Notice → String
  | .matchLimit limit raised =>
    s!"{limit} matches limit reached. Use limit={raised} for more, or refine pattern"
  | .bytes => s!"{formatSize defaultMaxBytes} limit reached"
  | .longLines =>
    s!"Some lines truncated to {maxLineChars} chars. Use read tool to see full lines"
  | .skipped files =>
    s!"{files} file(s) skipped because they exceeded the {formatSize maxGrepFileBytes} safety limit"

def Output.text (formatSize : Nat → String) (output : Output) : String :=
  let notices := ". ".intercalate (output.notices.map (Notice.text formatSize))
  String.ofList output.content ++ if output.notices.isEmpty then "" else s!"\n\n[{notices}]"

def searched (search : Search) (candidate : Candidate) : Option Str :=
  if globAdmits search candidate then
    match candidate.metadata with
    | some len =>
      if len ≤ maxGrepFileBytes then candidate.raw.map contentOf else none
    | none => none
  else none

structure Place where
  candidate : Candidate
  content : Str
  index : Nat

def placesIn (regex : Str → Bool) (split : Str → List Str) (candidate : Candidate) (content : Str) :
    List Place :=
  ((split content).zipIdx.filter fun entry => regex entry.1).map fun entry =>
    ⟨candidate, content, entry.2⟩

def placesOf (search : Search) (split : Str → List Str) : List Place :=
  search.candidates.flatMap fun candidate =>
    (searched search candidate).elim [] (placesIn search.regex split candidate)

/-- The lines from `context` before a place to `context` after it. -/
def block (split : Str → List Str) (context : Nat) (place : Place) : List Row :=
  (((split place.content).zipIdx.take (place.index + context + 1)).drop
    (place.index - context)).map fun entry =>
      ⟨place.candidate, entry.2 + 1, entry.2 = place.index, (truncateLine entry.1).1⟩

/-- The first matching lines of files, as many as the limit lets through. -/
def firstMatches (search : Search) (split : Str → List Str) : List Place :=
  (placesOf search split).take search.limitValue

/-- The output is that of the matching lines, a line being a line of the file. -/
def Exact (search : Search) : Prop :=
  ∃ output, grepExecute search = some output ∧
    output.found.out =
      (firstMatches search splitLinesForCounting).flatMap
        (block splitLinesForCounting search.contextValue) ∧
    ((∃ raised, .matchLimit search.limitValue raised ∈ output.notices) ↔
      (firstMatches search splitLinesForCounting).length = search.limitValue)

def Ended (content : Str) : Prop := content = [] ∨ content.getLast? = some '\n'

def Fits (context : Nat) (place : Place) : Prop := context = 0 ∨ place.index + context < 2 ^ 64

/-- A place whose context stays within the lines, where a last piece is none. -/
def Clear (context : Nat) (place : Place) : Prop :=
  (Ended place.content → place.index + context < (splitLinesForCounting place.content).length) ∧
    Fits context place

example (n : UInt64) : contextArg (some (.posInt n)) = n.toNat := rfl

theorem splitChar_lines (content : Str) :
    ∃ last, splitChar '\n' content = splitLinesForCounting content ++ [last] ∧ Ended content ∨
      splitChar '\n' content = splitLinesForCounting content ∧ ¬ Ended content := by
  have nonempty : splitChar '\n' content ≠ [] := by simp [splitChar]
  unfold splitLinesForCounting Ended
  cases content with
  | nil => exact ⟨[], .inl ⟨rfl, .inl rfl⟩⟩
  | cons c content =>
    refine ⟨(splitChar '\n' (c :: content)).getLast nonempty, ?_⟩
    by_cases fed : (c :: content).getLast? = some '\n'
    · left
      simp [fed, dropLast_append_getLast]
    · right
      simp [fed]

section blocks

variable {candidate : Candidate} {content : Str} {index context : Nat}

theorem window_eq (lines : List Str) (inside : index < lines.length) (context : Nat) {α : Type}
    (f : Str × Nat → α) :
    (range' (index - context) (min (index + context) (lines.length - 1) + 1 - (index - context))).map
        (fun current => f (lines.getD current [], current)) =
      ((lines.zipIdx.take (index + context + 1)).drop (index - context)).map f := by
  apply ext_getElem
  · simp
    omega
  · intro i here there
    simp at here there ⊢
    rw [getElem?_eq_getElem (by omega), Option.getD_some]

theorem blockEnd_eq (lines : List Str) (inside : index < lines.length) :
    blockEnd lines index context =
      if context = 0 ∨ index + context < 2 ^ 64 then some (min (index + context) (lines.length - 1))
      else none := by
  unfold blockEnd checkedAdd
  by_cases none : context = 0
  · simp [none]
    omega
  · simp only [none, if_false, false_or]
    split <;> rfl

theorem outputMatchBlock_eq (lines : List Str) (inside : index < lines.length) :
    outputMatchBlock candidate lines index context =
      if context = 0 ∨ index + context < 2 ^ 64 then
        let entries := (lines.zipIdx.take (index + context + 1)).drop (index - context)
        some (entries.map fun entry =>
            ⟨candidate, entry.2 + 1, entry.2 = index, (truncateLine entry.1).1⟩,
          entries.any fun entry => (truncateLine entry.1).2)
      else none := by
  have start : (if context = 0 then index else index - context) = index - context := by
    split <;> omega
  rw [outputMatchBlock, start, blockEnd_eq lines inside]
  split
  · have shown := window_eq lines inside context fun entry : Str × Nat =>
      (⟨candidate, entry.2 + 1, entry.2 = index, (truncateLine entry.1).1⟩ : Row)
    have cut := congrArg (any · id) (window_eq lines inside context
      fun entry : Str × Nat => (truncateLine entry.1).2)
    simp only [any_map] at cut
    dsimp only [Option.map_some]
    rw [map_map, any_map]
    exact congrArg some (Prod.ext shown cut)
  · rfl

end blocks

section scanning

variable {search : Search}

/-- The matches at the places, one after the other, with the files that are left out between them,
until the limit is reached. -/
def report (search : Search) : List (Option Place) → Progress → Option Progress
  | [], progress => some progress
  | none :: rest, progress =>
    report search rest { progress with skippedLargeFiles := progress.skippedLargeFiles + 1 }
  | some place :: rest, progress => do
    let progress ←
      outputMatch search place.candidate (splitChar '\n' place.content) place.index progress
    if progress.matchLimitReached then some progress else report search rest progress

def meets (search : Search) (candidate : Candidate) : List (Option Place) :=
  if globAdmits search candidate then
    match candidate.metadata with
    | none => []
    | some len =>
      if maxGrepFileBytes < len then [none]
      else (candidate.raw.elim [] fun raw =>
        placesIn search.regex (splitChar '\n') candidate (contentOf raw)).map some
  else []

theorem report_append (former latter : List (Option Place)) {progress : Progress}
    (unreached : progress.matchLimitReached = false) :
    report search (former ++ latter) progress = (report search former progress).bind fun between =>
      if between.matchLimitReached then some between else report search latter between := by
  induction former generalizing progress with
  | nil => simp [report, unreached]
  | cons step former ih =>
    cases step with
    | none =>
      simp only [cons_append, report]
      exact ih unreached
    | some place =>
      simp only [cons_append, report, Option.bind_eq_bind, Option.bind_assoc]
      congr 1
      funext between
      by_cases reached : between.matchLimitReached = true
      · simp [reached]
      · simp only [if_neg reached]
        exact ih (Bool.not_eq_true _ ▸ reached)

theorem scanLines_report (candidate : Candidate) (content : Str) (numbered : List (Str × Nat))
    (progress : Progress) :
    scanLines search candidate (splitChar '\n' content) numbered progress =
      report search (((numbered.filter fun entry => search.regex entry.1).map fun entry =>
        (⟨candidate, content, entry.2⟩ : Place)).map some) progress := by
  induction numbered generalizing progress with
  | nil => rfl
  | cons entry numbered ih =>
    unfold scanLines
    rw [filter_cons]
    split
    · simp only [map_cons, report, ih]
    · exact ih progress

theorem scanCandidate_report (candidate : Candidate) (progress : Progress) :
    scanCandidate search candidate progress = report search (meets search candidate) progress := by
  unfold scanCandidate meets
  split
  · cases candidate.metadata with
    | none => rfl
    | some len =>
      dsimp only
      split
      · rfl
      · cases candidate.raw with
        | none => rfl
        | some raw =>
          rw [Option.elim_some, placesIn]
          exact scanLines_report candidate (contentOf raw) _ progress
  · rfl

theorem scanCandidates_report (candidates : List Candidate) {progress : Progress}
    (unreached : progress.matchLimitReached = false) :
    scanCandidates search candidates progress =
      report search (candidates.flatMap (meets search)) progress := by
  induction candidates generalizing progress with
  | nil => rfl
  | cons candidate candidates ih =>
    rw [flatMap_cons, report_append _ _ unreached, ← scanCandidate_report, scanCandidates]
    congr 1
    funext between
    by_cases reached : between.matchLimitReached = true
    · simp [reached]
    · simp only [if_neg reached]
      exact ih (Bool.not_eq_true _ ▸ reached)

theorem meets_places (candidate : Candidate) :
    (meets search candidate).reduceOption = (searched search candidate).elim []
      (placesIn search.regex (splitChar '\n') candidate) := by
  unfold meets searched
  split
  · cases candidate.metadata with
    | none => rfl
    | some len =>
      by_cases large : maxGrepFileBytes < len
      · simp only [if_pos large, if_neg (Nat.not_le.mpr large)]
        rfl
      · simp only [if_neg large, if_pos (Nat.not_lt.mp large)]
        cases candidate.raw <;> simp [reduceOption]
  · rfl

theorem floatToU64_lt (value : Rat) : floatToU64 value < 2 ^ 64 := by
  unfold floatToU64
  omega

theorem limitArg_bounds (limit : Option Number) : 1 ≤ limitArg limit ∧ limitArg limit < 2 ^ 64 := by
  unfold limitArg
  cases limit with
  | none => decide
  | some value =>
    have saturated := floatToU64_lt (max value.asF64 1)
    refine ⟨Nat.le_max_left _ _, Nat.max_lt.mpr ⟨by decide, ?_⟩⟩
    cases value with
    | posInt n => simpa [Number.asU64] using n.toNat_lt
    | negInt n =>
      have small := n.toInt_lt
      simp only [Number.asU64, Number.asI64, tryU64, Option.none_or, Option.bind_some]
      split
      · rw [Option.getD_some]
        omega
      · exact saturated
    | float value => exact saturated

theorem outputMatch_eq {place : Place} {before : Progress}
    (inside : place.index < (splitChar '\n' place.content).length)
    (going : before.matchCount < search.limitValue) :
    (Fits search.contextValue place → ∃ truncated,
      outputMatch search place.candidate (splitChar '\n' place.content) place.index before =
        some { before with
          out := before.out ++ block (splitChar '\n') search.contextValue place
          matchCount := before.matchCount + 1
          matchLimitReached := search.limitValue ≤ before.matchCount + 1
          linesTruncated := truncated }) ∧
      (¬ Fits search.contextValue place →
        outputMatch search place.candidate (splitChar '\n' place.content) place.index before =
          none) := by
  have small : checkedAdd before.matchCount 1 = some (before.matchCount + 1) := by
    have bound : search.limitValue < 2 ^ 64 := (limitArg_bounds search.limit).2
    exact if_pos (by omega)
  unfold outputMatch Fits
  rw [small, Option.bind_eq_bind, Option.bind_some, outputMatchBlock_eq _ inside]
  constructor
  · intro fits
    rw [if_pos fits]
    exact ⟨_, rfl⟩
  · intro beyond
    rw [if_neg beyond]
    rfl

theorem report_shown (steps : List (Option Place)) {before : Progress}
    (inside : ∀ place ∈ steps.reduceOption, place.index < (splitChar '\n' place.content).length)
    (going : before.matchCount < search.limitValue) (unreached : before.matchLimitReached = false) :
    let shown := steps.reduceOption.take (search.limitValue - before.matchCount)
    ((∀ place ∈ shown, Fits search.contextValue place) →
      ∃ after, report search steps before = some after ∧
        after.out = before.out ++ shown.flatMap (block (splitChar '\n') search.contextValue) ∧
        after.matchCount = before.matchCount + shown.length ∧
        (after.matchLimitReached = true ↔ search.limitValue ≤ after.matchCount)) ∧
      ((∃ place ∈ shown, ¬ Fits search.contextValue place) → report search steps before = none) := by
  induction steps generalizing before with
  | nil =>
    rw [reduceOption_nil, take_nil]
    exact ⟨fun _ => ⟨before, rfl, by simp, rfl, by simp [unreached, going]⟩, by simp⟩
  | cons step steps ih =>
    cases step with
    | none =>
      rw [reduceOption_cons_of_none] at inside ⊢
      exact @ih { before with skippedLargeFiles := before.skippedLargeFiles + 1 }
        inside going unreached
    | some place =>
      obtain ⟨room, more⟩ : ∃ room, search.limitValue - before.matchCount = room + 1 :=
        ⟨search.limitValue - before.matchCount - 1, by omega⟩
      rw [reduceOption_cons_of_some] at inside ⊢
      rw [more, take_succ_cons]
      obtain ⟨shows, overflows⟩ := outputMatch_eq (inside place mem_cons_self) going
      by_cases fits : Fits search.contextValue place
      · obtain ⟨truncated, shown⟩ := shows fits
        simp only [report, shown, Option.bind_eq_bind, Option.bind_some]
        by_cases full : search.limitValue ≤ before.matchCount + 1
        · have last : room = 0 := by omega
          simp [full, last, fits]
        · rw [if_neg (by simpa using full)]
          obtain ⟨shows, overflows⟩ := @ih { before with
              out := before.out ++ block (splitChar '\n') search.contextValue place
              matchCount := before.matchCount + 1
              matchLimitReached := search.limitValue ≤ before.matchCount + 1
              linesTruncated := truncated }
            (fun place among => inside place (mem_cons_of_mem _ among)) (Nat.lt_of_not_le full)
            (by simpa using full)
          have rest : search.limitValue - (before.matchCount + 1) = room := by omega
          simp only [rest] at shows overflows
          constructor
          · intro all
            obtain ⟨after, ended, out, count, reached⟩ :=
              shows fun place among => all place (mem_cons_of_mem _ among)
            refine ⟨after, ended, ?_, ?_, reached⟩
            · rw [out, flatMap_cons, append_assoc]
            · rw [count, length_cons]
              omega
          · rintro ⟨other, among, beyond⟩
            rcases mem_cons.mp among with rfl | later
            · exact absurd fits beyond
            · exact overflows ⟨other, later, beyond⟩
      · refine ⟨fun all => absurd (all place mem_cons_self) fits, fun _ => ?_⟩
        simp only [report, overflows fits]
        rfl

end scanning

section lines

variable {search : Search} {place : Place} {context : Nat}

theorem place_searched {split : Str → List Str} (found : place ∈ placesOf search split) :
    searched search place.candidate = some place.content ∧
      place.index < (split place.content).length := by
  obtain ⟨candidate, _, here⟩ := mem_flatMap.mp found
  cases read : searched search candidate with
  | none => simp [read] at here
  | some content =>
    rw [read, Option.elim_some, placesIn] at here
    obtain ⟨entry, among, rfl⟩ := mem_map.mp here
    have inside := mem_zipIdx (mem_filter.mp among).1
    exact ⟨read, by simpa using inside.2.1⟩

theorem placesIn_lines (regex : Str → Bool) (candidate : Candidate) (content : Str) :
    placesIn regex splitLinesForCounting candidate content =
      (placesIn regex (splitChar '\n') candidate content).filter fun place =>
        place.index < (splitLinesForCounting place.content).length := by
  have inner : ∀ entry ∈ (splitLinesForCounting content).zipIdx,
      entry.2 < (splitLinesForCounting content).length := by
    intro entry among
    have := mem_zipIdx among
    omega
  have kept : (splitLinesForCounting content).zipIdx.filter (fun entry =>
      regex entry.1 && decide (entry.2 < (splitLinesForCounting content).length)) =
      (splitLinesForCounting content).zipIdx.filter fun entry => regex entry.1 := by
    apply filter_congr
    intro entry among
    simp [inner entry among]
  unfold placesIn
  rw [filter_map, filter_filter]
  simp only [Function.comp_def]
  congr 1
  obtain ⟨last, ⟨pieces, _⟩ | ⟨pieces, _⟩⟩ := splitChar_lines content
  · rw [pieces, zipIdx_append, filter_append, ← kept]
    simp [Bool.and_comm]
  · rw [pieces, ← kept]
    simp [Bool.and_comm]

theorem take_filter {α : Type} {p : α → Bool} {n : Nat} {l : List α}
    (kept : ∀ x ∈ l.take n, p x) : (l.filter p).take n = l.take n := by
  have split : l.filter p = l.take n ++ (l.drop n).filter p := by
    rw [← filter_eq_self.mpr kept, ← filter_append, take_append_drop]
  by_cases full : n ≤ l.length
  · rw [split, take_append_of_le_length (by simp; omega), take_take, Nat.min_self]
  · rw [split, drop_eq_nil_of_le (by omega), filter_nil, append_nil, take_take, Nat.min_self]

theorem firstMatches_lines (real : ∀ place ∈ firstMatches search (splitChar '\n'),
    place.index < (splitLinesForCounting place.content).length) :
    firstMatches search splitLinesForCounting = firstMatches search (splitChar '\n') := by
  have lines : placesOf search splitLinesForCounting =
      (placesOf search (splitChar '\n')).filter fun place =>
        place.index < (splitLinesForCounting place.content).length := by
    unfold placesOf
    rw [filter_flatMap]
    congr 1
    funext candidate
    cases searched search candidate with
    | none => rfl
    | some content => exact placesIn_lines search.regex candidate content
  rw [firstMatches, lines, firstMatches]
  exact take_filter (by simpa [firstMatches] using real)

theorem block_lines (ended : Ended place.content)
    (clear : place.index + context < (splitLinesForCounting place.content).length) :
    block splitLinesForCounting context place = block (splitChar '\n') context place := by
  obtain ⟨last, ⟨pieces, _⟩ | ⟨_, unended⟩⟩ := splitChar_lines place.content
  · unfold block
    rw [pieces, zipIdx_append, take_append_of_le_length]
    rw [length_zipIdx]
    omega
  · exact absurd ended unended

theorem block_number {row : Row} (shown : row ∈ block splitLinesForCounting context place) :
    row.candidate = place.candidate ∧
      row.number ≤ (splitLinesForCounting place.content).length := by
  obtain ⟨entry, among, rfl⟩ := mem_map.mp shown
  have inside := mem_zipIdx (mem_of_mem_take (mem_of_mem_drop among))
  refine ⟨rfl, ?_⟩
  show entry.2 + 1 ≤ _
  omega

theorem block_reaches (ended : Ended place.content)
    (inside : place.index < (splitChar '\n' place.content).length)
    (reaches : (splitLinesForCounting place.content).length ≤ place.index + context) :
    ∃ row ∈ block (splitChar '\n') context place,
      row.candidate = place.candidate ∧
        row.number = (splitLinesForCounting place.content).length + 1 := by
  obtain ⟨last, ⟨pieces, _⟩ | ⟨_, unended⟩⟩ := splitChar_lines place.content
  · rw [pieces, length_append, length_singleton] at inside
    have among : (last, (splitLinesForCounting place.content).length) ∈
        ((splitChar '\n' place.content).zipIdx.take (place.index + context + 1)).drop
          (place.index - context) := by
      apply mem_iff_getElem?.mpr
      refine ⟨(splitLinesForCounting place.content).length - (place.index - context), ?_⟩
      rw [getElem?_drop, getElem?_take, if_pos (by omega),
        Nat.add_sub_cancel' (by omega), pieces]
      simp
    exact ⟨_, mem_map.mpr ⟨_, among, rfl⟩, rfl, rfl⟩
  · exact absurd ended unended

-- The file has one line; the window around it has two rows.
example (candidate : Candidate) :
    (block (splitChar '\n') 1 ⟨candidate, ['a', '\n'], 0⟩).map Row.number = [1, 2] := rfl

end lines

section exactness

variable {search : Search}

theorem scan_shown (search : Search) :
    ((∀ place ∈ firstMatches search (splitChar '\n'), Fits search.contextValue place) →
      ∃ found, scanCandidates search search.candidates {} = some found ∧
        found.out = (firstMatches search (splitChar '\n')).flatMap
          (block (splitChar '\n') search.contextValue) ∧
        found.matchCount = (firstMatches search (splitChar '\n')).length ∧
        (found.matchLimitReached = true ↔ search.limitValue ≤ found.matchCount)) ∧
      ((∃ place ∈ firstMatches search (splitChar '\n'), ¬ Fits search.contextValue place) →
        scanCandidates search search.candidates {} = none) := by
  have places : (search.candidates.flatMap (meets search)).reduceOption =
      placesOf search (splitChar '\n') := by
    rw [reduceOption, filterMap_flatMap, placesOf]
    congr 1
    funext candidate
    exact meets_places candidate
  have positive : 0 < search.limitValue := (limitArg_bounds search.limit).1
  have shown := @report_shown search (search.candidates.flatMap (meets search)) {}
    (fun place among => (place_searched (places ▸ among)).2) positive rfl
  rw [scanCandidates_report _ rfl]
  simpa [places, firstMatches] using shown

theorem grepExecute_none (stuck : scanCandidates search search.candidates {} = none) :
    grepExecute search = none := by
  rw [grepExecute, stuck]
  rfl

theorem grepExecute_found {found : Progress}
    (scanned : scanCandidates search search.candidates {} = some found)
    (reached : found.matchLimitReached = true ↔ search.limitValue ≤ found.matchCount) :
    if search.limitValue ≤ found.matchCount ∧ 2 ^ 63 ≤ search.limitValue then
      grepExecute search = none
    else ∃ output, grepExecute search = some output ∧ output.found = found ∧
      ((∃ raised, .matchLimit search.limitValue raised ∈ output.notices) ↔
        search.limitValue ≤ found.matchCount) := by
  have positive : 0 < search.limitValue := (limitArg_bounds search.limit).1
  unfold grepExecute
  rw [scanned, Option.bind_eq_bind, Option.bind_some]
  by_cases empty : found.matchCount = 0
  · rw [if_neg (by omega), if_pos empty]
    refine ⟨_, rfl, rfl, ?_⟩
    split <;> simp <;> omega
  · rw [if_neg empty]
    by_cases full : search.limitValue ≤ found.matchCount
    · rw [if_pos (reached.mpr full), checkedMul]
      by_cases small : search.limitValue * 2 < 2 ^ 64
      · rw [if_neg (by omega), if_pos small]
        exact ⟨_, rfl, rfl, by simp [full]⟩
      · rw [if_pos ⟨full, by omega⟩, if_neg small]
        rfl
    · have below : found.matchLimitReached = false := by
        rw [← Bool.not_eq_true]
        exact fun stopped => full (reached.mp stopped)
      rw [below, if_neg (by simp [full])]
      refine ⟨_, rfl, rfl, ?_⟩
      simp only [full, iff_false]
      rintro ⟨raised, notice⟩
      simp only [nil_append, mem_append] at notice
      repeat' split at notice
      all_goals simp at notice

theorem grepExecute_exact_iff (search : Search) :
    Exact search ↔
      (∀ place ∈ firstMatches search (splitChar '\n'), Clear search.contextValue place) ∧
        ((firstMatches search (splitChar '\n')).length = search.limitValue →
          search.limitValue < 2 ^ 63) := by
  have most : ∀ split, (firstMatches search split).length ≤ search.limitValue := by
    intro split
    exact length_take_le _ _
  constructor
  · rintro ⟨output, returned, shown, _⟩
    have fits : ∀ place ∈ firstMatches search (splitChar '\n'), Fits search.contextValue place := by
      intro place among
      by_contra far
      rw [grepExecute_none ((scan_shown search).2 ⟨place, among, far⟩)] at returned
      cases returned
    obtain ⟨found, scanned, out, count, reached⟩ := (scan_shown search).1 fits
    have ends := grepExecute_found scanned reached
    split at ends
    · rw [ends] at returned
      cases returned
    · next small =>
      obtain ⟨same, given, rest, _⟩ := ends
      rw [given, Option.some.injEq] at returned
      subst returned
      rw [rest, out] at shown
      refine ⟨fun place among => ⟨fun ended => ?_, fits place among⟩, by omega⟩
      by_contra reaches
      have inside := place_searched (mem_of_mem_take among)
      obtain ⟨row, here, whose, number⟩ := block_reaches ended inside.2 (Nat.not_lt.mp reaches)
      have outside : row ∈ (firstMatches search (splitChar '\n')).flatMap
          (block (splitChar '\n') search.contextValue) := mem_flatMap.mpr ⟨place, among, here⟩
      rw [shown] at outside
      obtain ⟨other, found, there⟩ := mem_flatMap.mp outside
      obtain ⟨same, bound⟩ := block_number there
      have read := (place_searched (mem_of_mem_take found)).1
      rw [← same, whose, inside.1, Option.some.injEq] at read
      rw [number, ← read] at bound
      omega
  · rintro ⟨clear, limited⟩
    obtain ⟨found, scanned, out, count, reached⟩ :=
      (scan_shown search).1 fun place among => (clear place among).2
    have same : firstMatches search splitLinesForCounting = firstMatches search (splitChar '\n') := by
      apply firstMatches_lines
      intro place among
      obtain ⟨last, ⟨_, ended⟩ | ⟨pieces, _⟩⟩ := splitChar_lines place.content
      · have := (clear place among).1 ended
        omega
      · rw [← pieces]
        exact (place_searched (mem_of_mem_take among)).2
    have ends := grepExecute_found scanned reached
    rw [if_neg (by have := most (splitChar '\n'); omega)] at ends
    obtain ⟨output, given, rest, notice⟩ := ends
    refine ⟨output, given, ?_, ?_⟩
    · rw [rest, out, same]
      apply flatMap_congr
      intro place among
      obtain ⟨last, ⟨_, ended⟩ | ⟨pieces, _⟩⟩ := splitChar_lines place.content
      · exact (block_lines ended ((clear place among).1 ended)).symm
      · unfold block
        rw [pieces]
    · have := most (splitChar '\n')
      rw [notice, same, count]
      omega

end exactness

def farContext : Search where
  candidates := [⟨['f'], ['f'], some 3, some [97, 10, 98]⟩]
  glob := none
  regex := fun line => line = ['b']
  context := some (.posInt 18446744073709551615)
  limit := none

theorem far_context_overflows : ¬ Exact farContext := by
  rintro ⟨output, returned, _⟩
  have content : contentOf [97, 10, 98] = ['a', '\n', 'b'] := by
    rw [contentOf, fromUtf8Lossy, String.toList_ofList]
    decide
  have places : placesOf farContext (splitChar '\n') =
      [⟨⟨['f'], ['f'], some 3, some [97, 10, 98]⟩, ['a', '\n', 'b'], 1⟩] := by
    simp only [placesOf, farContext, flatMap_cons, flatMap_nil, searched, globAdmits,
      if_true, maxGrepFileBytes, Option.map_some, content]
    rfl
  have stuck := (scan_shown farContext).2
  rw [firstMatches, places] at stuck
  rw [grepExecute_none (stuck ⟨_, mem_cons_self, by unfold Fits; decide⟩)] at returned
  cases returned

end PiRust.Grep
