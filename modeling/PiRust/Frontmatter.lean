import Mathlib.Data.List.TakeWhile
import PiRust.EditTool

/- `resources/frontmatter.rs`: the YAML in front of a resource's text. -/
namespace PiRust.Frontmatter

open List

open EditTool (Str Sliced joinLines)

inductive DiagnosticSeverity
  | error
  | warning
  | info
  deriving DecidableEq

structure ResourceDiagnostic where
  severity : DiagnosticSeverity
  code : String
  message : String
  path : String
  deriving DecidableEq

/-- What `serde_yaml` is used for: its values are not looked into. -/
structure Yaml (ψ : Type) where
  fromStr : Str → Except String ψ
  /-- `Value::Mapping(Mapping::new())`. -/
  emptyMapping : ψ

structure Parsed (ψ : Type) where
  metadata : ψ
  body : Str
  diagnostics : List ResourceDiagnostic

def fence : Str := ['-', '-', '-']

def endMarker : Str := '\n' :: fence

def normalized (content : Str) : Str := Splice.replaceAll ['\r', '\n'] ['\n'] content

/-- `str::trim_start_matches('\n')`. -/
def trimLines (text : Str) : Str := text.dropWhile (· = '\n')

def endsLine (text : Str) : Bool := text.getLast? = some '\n'

/-- The check on `rest.get(..)`, which is none where the text cannot be sliced. -/
def isNoneOrLine (text : Option Str) : Bool :=
  match text with
  | none => true
  | some text => text.head? = some '\n' || text.isEmpty

def warning (code message : String) : ResourceDiagnostic := ⟨.warning, code, message, ""⟩

variable {ψ : Type} (yaml : Yaml ψ)

def readMetadata (yamlStr : Str) : ψ × List ResourceDiagnostic :=
  match yaml.fromStr yamlStr with
  | .ok v => (v, [])
  | .error e =>
    (yaml.emptyMapping,
      [warning "frontmatter_parse_error" ("failed to parse frontmatter YAML: " ++ e)])

def parseFrontmatter (content : Str) : Sliced (Parsed ψ) := do
  if !(fence ++ ['\n']).isPrefixOf (normalized content) then
    return ⟨yaml.emptyMapping, normalized content, []⟩
  let rest := (← (normalized content).splitAt 4).2
  match rest.find endMarker with
  | none =>
    return ⟨yaml.emptyMapping, normalized content,
      [warning "frontmatter_no_closing" "no closing --- found for frontmatter"]⟩
  | some pos =>
    let before := (← rest.splitAt pos).1
    let behind := (rest.splitAt (pos + endMarker.len)).map Prod.snd
    if !(endsLine before || isNoneOrLine behind) then
      return ⟨yaml.emptyMapping, normalized content,
        [warning "frontmatter_no_closing"
          "frontmatter does not have closing --- on its own line"]⟩
    let metadata := readMetadata yaml before
    let bodyStart := pos + endMarker.len
    if bodyStart < rest.len then
      return ⟨metadata.1, trimLines (← rest.splitAt bodyStart).2, metadata.2⟩
    return ⟨metadata.1, [], metadata.2⟩

def fenced : List Str → Option (List Str × List Str)
  | [] => none
  | first :: later =>
    if first = fence ∧ later.contains fence = true then
      some (later.takeWhile (· ≠ fence), (later.dropWhile (· ≠ fence)).tail)
    else none

def lines (content : Str) : List Str := (normalized content).splitOn '\n'

def documented (content : Str) : ψ × Str :=
  match fenced (lines content) with
  | some (between, rest) =>
    ((readMetadata yaml (joinLines between)).1, trimLines (joinLines rest))
  | none => (yaml.emptyMapping, normalized content)

def Recognizes (content : Str) : Prop :=
  ∃ parsed, parseFrontmatter yaml content = some parsed ∧
    (parsed.metadata, parsed.body) = documented yaml content

def opensFence (line : Str) : Bool := fence.isPrefixOf line

/-- Behind an opening fence the next line is no fence, and the first line to start with hyphens
from there is one; or it does not stand behind a blank line, and no fence comes after it. -/
def Regular : List Str → Prop
  | first :: next :: more =>
    first = fence → next ≠ fence ∧
      match more.dropWhile (!opensFence ·) with
      | [] => True
      | line :: after =>
        line = fence ∨ ((more.takeWhile (!opensFence ·)).getLast? ≠ some [] ∧ fence ∉ after)
  | _ => True

section

variable {yaml} {content line : Str} {quiet after : List Str}

theorem joinLines_cons (line : Str) (later : List Str) :
    joinLines (line :: later) = line ++ Splice.behind '\n' later :=
  Splice.intercalate_cons line later

theorem parse_plain (apart : ¬ fence ++ ['\n'] <+: normalized content) :
    parseFrontmatter yaml content = some ⟨yaml.emptyMapping, normalized content, []⟩ := by
  have other : (fence ++ ['\n']).isPrefixOf (normalized content) = false :=
    Bool.eq_false_iff.mpr (mt isPrefixOf_iff_prefix.mp apart)
  unfold parseFrontmatter
  simp [other]

theorem parse_unclosed
    (text : normalized content = fence ++ '\n' :: (line ++ Splice.behind '\n' quiet))
    (whole : '\n' ∉ line) (apart : ∀ line ∈ quiet, '\n' ∉ line ∧ ¬ fence <+: line) :
    parseFrontmatter yaml content = some ⟨yaml.emptyMapping, normalized content,
      [warning "frontmatter_no_closing" "no closing --- found for frontmatter"]⟩ := by
  have opens : (fence ++ ['\n']).isPrefixOf (normalized content) = true := by
    rw [text, isPrefixOf_iff_prefix]
    exact ⟨line ++ Splice.behind '\n' quiet, rfl⟩
  have opening : (normalized content).splitAt 4 =
      some (fence ++ ['\n'], line ++ Splice.behind '\n' quiet) := by
    rw [text]
    exact Splice.cutAt_append Char.utf8Size_pos (fence ++ ['\n']) _
  have missing : (line ++ Splice.behind '\n' quiet).find endMarker = none :=
    Splice.find_behind_none (by decide) whole apart
  unfold parseFrontmatter
  simp [opens, opening, missing]

theorem endsLine_iff (whole : '\n' ∉ line) (apart : ∀ line ∈ quiet, '\n' ∉ line) :
    endsLine (line ++ Splice.behind '\n' quiet) = true ↔ quiet.getLast? = some [] := by
  have last : ∀ {text : Str}, '\n' ∉ text → text.getLast? ≠ some '\n' :=
    fun absent ends => absent (mem_of_getLast? ends)
  rw [endsLine, decide_eq_true_iff]
  induction quiet using reverseRecOn with
  | nil => simpa using last whole
  | append_singleton quiet final _ =>
    rw [Splice.behind_append, getLast?_append, getLast?_concat, Option.some.injEq]
    have inner := last (apart final (by simp))
    cases final with
    | nil => simp
    | cons c rest =>
      simp only [Splice.behind_cons, Splice.behind_nil, append_nil,
        getLast?_append, getLast?_cons_cons, reduceCtorEq, iff_false]
      rw [getLast?_cons] at inner ⊢
      exact inner

variable {tail : Str} {between later : List Str}

theorem isNoneOrLine_iff (whole : '\n' ∉ tail) :
    isNoneOrLine (some (tail ++ Splice.behind '\n' after)) = true ↔ tail = [] := by
  cases tail with
  | nil => cases after <;> simp [isNoneOrLine]
  | cons c tail =>
    have other : c ≠ '\n' := fun same => whole (by simp [same])
    simp [isNoneOrLine, other]

theorem parse_found {before rest : Str}
    (text : normalized content = fence ++ '\n' :: (before ++ (endMarker ++ rest)))
    (found : (before ++ (endMarker ++ rest)).find endMarker = some before.len) :
    parseFrontmatter yaml content = some
      (if endsLine before || isNoneOrLine (some rest) then
        ⟨(readMetadata yaml before).1, trimLines rest, (readMetadata yaml before).2⟩
      else ⟨yaml.emptyMapping, normalized content,
        [warning "frontmatter_no_closing"
          "frontmatter does not have closing --- on its own line"]⟩) := by
  have opens : (fence ++ ['\n']).isPrefixOf (normalized content) = true := by
    rw [text, isPrefixOf_iff_prefix]
    exact ⟨before ++ (endMarker ++ rest), rfl⟩
  have opening : (normalized content).splitAt 4 =
      some (fence ++ ['\n'], before ++ (endMarker ++ rest)) := by
    rw [text]
    exact Splice.cutAt_append Char.utf8Size_pos (fence ++ ['\n']) _
  have front : (before ++ (endMarker ++ rest)).splitAt before.len =
      some (before, endMarker ++ rest) :=
    Splice.cutAt_append Char.utf8Size_pos before _
  have offset : before.len + endMarker.len = (before ++ endMarker).len :=
    (Splice.width_append _ _ _).symm
  have back : (before ++ (endMarker ++ rest)).splitAt (before.len + endMarker.len) =
      some (before ++ endMarker, rest) := by
    rw [offset, ← append_assoc]
    exact Splice.cutAt_append Char.utf8Size_pos (before ++ endMarker) rest
  unfold parseFrontmatter
  simp only [opens, opening, found, front, back, Option.map_some, Bool.not_true,
    Bool.false_eq_true, if_false, Option.bind_eq_bind, Option.bind_some, Option.pure_def]
  cases endsLine before || isNoneOrLine (some rest) with
  | false => simp
  | true =>
    by_cases more : before.len + endMarker.len < (before ++ (endMarker ++ rest)).len
    · simp [more]
    · have none : rest = [] := by
        apply Splice.eq_nil_of_width Char.utf8Size_pos
        simp only [Str.len, Splice.width_append] at more
        omega
      simp [none, trimLines]

theorem find_marker (whole : '\n' ∉ line) (apart : ∀ line ∈ quiet, '\n' ∉ line ∧ ¬ fence <+: line) :
    ((line ++ Splice.behind '\n' quiet) ++
        (endMarker ++ (tail ++ Splice.behind '\n' after))).find endMarker =
      some (line ++ Splice.behind '\n' quiet).len := by
  have split : (line ++ Splice.behind '\n' quiet) ++
      (endMarker ++ (tail ++ Splice.behind '\n' after)) =
        line ++ Splice.behind '\n' (quiet ++ (fence ++ tail) :: after) := by
    simp [endMarker]
  rw [split]
  exact Splice.find_behind_some (by decide) whole apart tail after

theorem parse_closed {tail : Str}
    (text : normalized content =
      fence ++ '\n' :: (line ++ Splice.behind '\n' (quiet ++ (fence ++ tail) :: after)))
    (whole : '\n' ∉ line) (apart : ∀ line ∈ quiet, '\n' ∉ line ∧ ¬ fence <+: line)
    (ended : '\n' ∉ tail) :
    ∃ parsed, parseFrontmatter yaml content = some parsed ∧ (parsed.metadata, parsed.body) =
      if quiet.getLast? = some [] ∨ tail = [] then
        ((readMetadata yaml (line ++ Splice.behind '\n' quiet)).1,
          trimLines (tail ++ Splice.behind '\n' after))
      else (yaml.emptyMapping, normalized content) := by
  have split : normalized content = fence ++ '\n' :: ((line ++ Splice.behind '\n' quiet) ++
      (endMarker ++ (tail ++ Splice.behind '\n' after))) := by
    rw [text]
    simp [endMarker]
  have accepted : (endsLine (line ++ Splice.behind '\n' quiet) ||
      isNoneOrLine (some (tail ++ Splice.behind '\n' after))) = true ↔
        quiet.getLast? = some [] ∨ tail = [] := by
    rw [Bool.or_eq_true, endsLine_iff whole fun line member => (apart line member).1,
      isNoneOrLine_iff ended]
  refine ⟨_, parse_found split (find_marker whole apart), ?_⟩
  by_cases closed : quiet.getLast? = some [] ∨ tail = []
  · rw [if_pos closed, if_pos (accepted.mpr closed)]
  · rw [if_neg closed, if_neg (mt accepted.mp closed)]

theorem length_trimLines_le (text : Str) : (trimLines text).length ≤ text.length :=
  (dropWhile_sublist _).length_le

theorem length_trimLines_lt {c : Char} (other : c ≠ '\n') (front back : Str) :
    back.length < (trimLines (front ++ c :: back)).length := by
  induction front with
  | nil => simp [trimLines, other]
  | cons x front ih =>
    by_cases same : x = '\n'
    · simpa [trimLines, same] using ih
    · simp only [trimLines, cons_append, same, decide_false, Bool.false_eq_true,
        not_false_eq_true, dropWhile_cons_of_neg, length_cons, length_append]
      omega

theorem trimLines_joinLines (lines : List Str) :
    trimLines (joinLines lines) = trimLines (Splice.behind '\n' lines) := by
  cases lines with
  | nil => rfl
  | cons line lines => simp [joinLines_cons, trimLines]

theorem fenced_split (first : fence ∉ between) (rest : List Str) :
    fenced (fence :: (between ++ fence :: rest)) = some (between, rest) := by
  have others : ∀ line ∈ between, decide (line ≠ fence) = true :=
    fun line member => decide_eq_true fun same => first (same ▸ member)
  rw [fenced, if_pos ⟨rfl, by simp⟩, takeWhile_append_of_pos others, dropWhile_append_of_pos others]
  simp

theorem fenced_none (absent : fence ∉ later) : fenced (fence :: later) = none := by
  rw [fenced, if_neg fun both => absent (contains_iff_mem.mp both.2)]


theorem text_of_lines (content : Str) : normalized content = joinLines (lines content) :=
  (intercalate_splitOn '\n').symm

theorem whole_lines {shape : List Str} (split : lines content = shape) :
    ∀ line ∈ shape, '\n' ∉ line := by
  rw [← split]
  exact fun line => Splice.not_mem_of_splitOn

theorem fence_opens {first : Str} (whole : '\n' ∉ first)
    (starts : fence ++ ['\n'] <+: joinLines (first :: later)) : first = fence ∧ later ≠ [] := by
  rw [joinLines_cons] at starts
  obtain ⟨tail, rfl⟩ :=
    (Splice.prefix_line (by decide) first later).mp ((prefix_append _ _).trans starts)
  rw [append_assoc, prefix_append_right_inj] at starts
  cases tail with
  | nil =>
    refine ⟨append_nil fence, ?_⟩
    rintro rfl
    exact absurd (prefix_nil.mp starts) (cons_ne_nil _ _)
  | cons c tail =>
    have same := (cons_prefix_cons.mp starts).1
    exact absurd (mem_append_right fence (same ▸ mem_cons_self)) whole

theorem recognizes_of_result {result : ψ × Str}
    (run : ∃ parsed, parseFrontmatter yaml content = some parsed ∧
      (parsed.metadata, parsed.body) = result) :
    Recognizes yaml content ↔ result = documented yaml content := by
  obtain ⟨parsed, returned, rfl⟩ := run
  refine ⟨?_, fun same => ⟨parsed, returned, same⟩⟩
  rintro ⟨other, again, same⟩
  rw [returned, Option.some.injEq] at again
  rw [again]
  exact same

theorem documented_fenced {rest : List Str}
    (shape : lines content = fence :: (between ++ fence :: rest)) (first : fence ∉ between) :
    documented yaml content =
      ((readMetadata yaml (joinLines between)).1, trimLines (Splice.behind '\n' rest)) := by
  rw [documented, shape, fenced_split first]
  simp [trimLines_joinLines]

theorem documented_plain (plain : fenced (lines content) = none) :
    documented yaml content = (yaml.emptyMapping, normalized content) := by
  rw [documented, plain]

theorem shorter_ne {metadata other : ψ} {body longer : Str} (shorter : body.length < longer.length) :
    (metadata, body) ≠ (other, longer) := by
  intro same
  rw [(Prod.mk.inj same).2] at shorter
  exact Nat.lt_irrefl _ shorter

theorem first_opening (more : List Str) :
    (more.dropWhile (!opensFence ·) = [] ∧ ∀ line ∈ more, ¬ fence <+: line) ∨
      ∃ quiet tail after, more = quiet ++ (fence ++ tail) :: after ∧
        more.takeWhile (!opensFence ·) = quiet ∧
        more.dropWhile (!opensFence ·) = (fence ++ tail) :: after ∧
        ∀ line ∈ quiet, ¬ fence <+: line := by
  have passed : ∀ line ∈ more.takeWhile (!opensFence ·), ¬ fence <+: line := by
    intro line member starts
    have unopened : (!opensFence line) = true := mem_takeWhile_imp (p := (!opensFence ·)) member
    rw [opensFence, isPrefixOf_iff_prefix.mpr starts] at unopened
    cases unopened
  have split := takeWhile_append_dropWhile (p := (!opensFence ·)) (l := more)
  cases stop : more.dropWhile (!opensFence ·) with
  | nil =>
    rw [stop, append_nil] at split
    rw [split] at passed
    exact .inl ⟨rfl, passed⟩
  | cons line after =>
    have opened : opensFence line = true := by
      have first := head_dropWhile_not (!opensFence ·) (show more.dropWhile _ ≠ [] by simp [stop])
      simpa [stop] using first
    obtain ⟨tail, rfl⟩ := isPrefixOf_iff_prefix.mp opened
    refine .inr ⟨more.takeWhile (!opensFence ·), tail, after, ?_, rfl, rfl, passed⟩
    rw [← stop, split]

section opened

variable {next tail : Str} {more : List Str}

theorem parse_quiet (shape : lines content = fence :: next :: more)
    (apart : ∀ line ∈ more, ¬ fence <+: line) :
    Recognizes yaml content ↔
      (yaml.emptyMapping, normalized content) = documented yaml content := by
  have whole := whole_lines shape
  have text : normalized content = fence ++ '\n' :: (next ++ Splice.behind '\n' more) := by
    rw [text_of_lines, shape, joinLines_cons, Splice.behind_cons]
  refine recognizes_of_result ⟨_, parse_unclosed text (whole next (by simp)) ?_, rfl⟩
  exact fun line member => ⟨whole line (by simp [member]), apart line member⟩

theorem parse_opened
    (shape : lines content = fence :: next :: (quiet ++ (fence ++ tail) :: after))
    (apart : ∀ line ∈ quiet, ¬ fence <+: line) :
    Recognizes yaml content ↔
      (if quiet.getLast? = some [] ∨ tail = [] then
        ((readMetadata yaml (next ++ Splice.behind '\n' quiet)).1,
          trimLines (tail ++ Splice.behind '\n' after))
      else (yaml.emptyMapping, normalized content)) = documented yaml content := by
  have whole := whole_lines shape
  have text : normalized content = fence ++ '\n' ::
      (next ++ Splice.behind '\n' (quiet ++ (fence ++ tail) :: after)) := by
    rw [text_of_lines, shape, joinLines_cons, Splice.behind_cons]
  have ended : '\n' ∉ tail := by
    intro inside
    exact whole (fence ++ tail) (by simp) (mem_append_right fence inside)
  refine recognizes_of_result (parse_closed text (whole next (by simp)) ?_ ended)
  exact fun line member => ⟨whole line (by simp [member]), apart line member⟩

theorem behind_opened : Splice.behind '\n' (quiet ++ (fence ++ tail) :: after) =
    (Splice.behind '\n' quiet ++ ['\n']) ++
      '-' :: '-' :: '-' :: (tail ++ Splice.behind '\n' after) := by
  simp [fence]

theorem empty_missed (shape : lines content = fence :: fence :: more) :
    ¬ Recognizes yaml content := by
  have shape' : lines content = fence :: ([] ++ fence :: more) := shape
  have text : normalized content = fence ++ '\n' :: (fence ++ Splice.behind '\n' more) := by
    rw [text_of_lines, shape, joinLines_cons, Splice.behind_cons]
  have shorter : (trimLines (Splice.behind '\n' more)).length < (normalized content).length := by
    have := length_trimLines_le (Splice.behind '\n' more)
    rw [text]
    simp only [length_append, length_cons]
    omega
  have hyphen : '-' ≠ '\n' := by decide
  rcases first_opening more with ⟨_, apart⟩ | ⟨quiet, tail, after, rfl, _, _, apart⟩
  · rw [parse_quiet shape apart, documented_fenced shape' not_mem_nil]
    exact (shorter_ne shorter).symm
  · rw [parse_opened shape apart, documented_fenced shape' not_mem_nil]
    split
    · refine shorter_ne ?_
      have trimmed := length_trimLines_le (tail ++ Splice.behind '\n' after)
      have kept := length_trimLines_lt hyphen (Splice.behind '\n' quiet ++ ['\n'])
        ('-' :: '-' :: (tail ++ Splice.behind '\n' after))
      rw [← behind_opened, length_cons, length_cons] at kept
      omega
    · exact (shorter_ne shorter).symm

theorem not_mem_of_apart {lines : List Str} (apart : ∀ line ∈ lines, ¬ fence <+: line) :
    fence ∉ lines :=
  fun member => apart fence member (prefix_refl fence)

theorem closed_recognized
    (shape : lines content = fence :: next :: (quiet ++ (fence ++ []) :: after))
    (other : next ≠ fence) (apart : ∀ line ∈ quiet, ¬ fence <+: line) :
    Recognizes yaml content := by
  have first : fence ∉ next :: quiet := by
    rw [mem_cons, not_or]
    exact ⟨other.symm, not_mem_of_apart apart⟩
  have split : lines content = fence :: (next :: quiet ++ fence :: after) := shape
  rw [parse_opened shape apart, if_pos (.inr rfl), documented_fenced split first, joinLines_cons]
  rfl

theorem opened_recognized_iff
    (shape : lines content = fence :: next :: (quiet ++ (fence ++ tail) :: after))
    (other : next ≠ fence) (apart : ∀ line ∈ quiet, ¬ fence <+: line) (longer : tail ≠ []) :
    Recognizes yaml content ↔ quiet.getLast? ≠ some [] ∧ fence ∉ after := by
  have text : normalized content = fence ++ '\n' ::
      (next ++ Splice.behind '\n' (quiet ++ (fence ++ tail) :: after)) := by
    rw [text_of_lines, shape, joinLines_cons, Splice.behind_cons]
  have before : fence ∉ next :: quiet ++ [fence ++ tail] := by
    simp only [mem_append, mem_cons, not_mem_nil, or_false, not_or]
    refine ⟨⟨other.symm, not_mem_of_apart apart⟩, fun same => longer ?_⟩
    exact append_cancel_left (same.symm.trans (append_nil fence).symm)
  rw [parse_opened shape apart]
  by_cases closing : fence ∈ after
  · obtain ⟨front, rest, rfl, first⟩ := eq_append_cons_of_mem closing
    have split : lines content =
        fence :: ((next :: quiet ++ [fence ++ tail] ++ front) ++ fence :: rest) := by
      rw [shape]
      simp
    have apart : fence ∉ next :: quiet ++ [fence ++ tail] ++ front := by
      rw [mem_append, not_or]
      exact ⟨before, first⟩
    have trimmed := length_trimLines_le (Splice.behind '\n' rest)
    rw [documented_fenced split apart]
    refine ⟨fun same => absurd same ?_, fun condition => absurd closing condition.2⟩
    split_ifs
    · obtain ⟨c, inner, rfl⟩ := exists_cons_of_ne_nil longer
      have hyphenless : c ≠ '\n' := by
        rintro rfl
        exact whole_lines shape (fence ++ '\n' :: inner) (by simp) (by simp)
      have kept := length_trimLines_lt hyphenless []
        (inner ++ Splice.behind '\n' (front ++ fence :: rest))
      apply Ne.symm
      apply shorter_ne
      simp only [nil_append, length_append, Splice.behind_append, Splice.behind_cons,
        length_cons] at kept ⊢
      rw [cons_append]
      omega
    · apply Ne.symm
      apply shorter_ne
      rw [text]
      simp only [length_append, length_cons, Splice.behind_append, Splice.behind_cons]
      omega
  · have absent : fence ∉ next :: (quiet ++ (fence ++ tail) :: after) := by
      have split : next :: (quiet ++ (fence ++ tail) :: after) =
          next :: quiet ++ [fence ++ tail] ++ after := by simp
      rw [split, mem_append, not_or]
      exact ⟨before, closing⟩
    rw [documented_plain (by rw [shape, fenced_none absent])]
    by_cases blank : quiet.getLast? = some []
    · rw [if_pos (.inl blank)]
      have trimmed := length_trimLines_le (tail ++ Splice.behind '\n' after)
      refine ⟨fun same => absurd same ?_, fun condition => absurd blank condition.1⟩
      apply shorter_ne
      rw [text, behind_opened]
      simp only [length_append, length_cons] at trimmed ⊢
      omega
    · rw [if_neg (by simp [blank, longer])]
      exact ⟨fun _ => ⟨blank, closing⟩, fun _ => rfl⟩

theorem regular_quiet (other : next ≠ fence) (none : more.dropWhile (!opensFence ·) = []) :
    Regular (fence :: next :: more) := by
  intro _
  rw [none]
  exact ⟨other, trivial⟩

theorem regular_opened_iff (other : next ≠ fence)
    (taken : more.takeWhile (!opensFence ·) = quiet)
    (stop : more.dropWhile (!opensFence ·) = (fence ++ tail) :: after) :
    Regular (fence :: next :: more) ↔ tail = [] ∨ (quiet.getLast? ≠ some [] ∧ fence ∉ after) := by
  rw [Regular, stop, taken]
  simp [other]

end opened

theorem regular_plain {first : Str} {later : List Str} (plain : ¬ (first = fence ∧ later ≠ [])) :
    Regular (first :: later) := by
  cases later with
  | nil => exact trivial
  | cons next more => exact fun same => absurd ⟨same, cons_ne_nil next more⟩ plain

theorem fenced_plain {first : Str} {later : List Str} (plain : ¬ (first = fence ∧ later ≠ [])) :
    fenced (first :: later) = none := by
  rw [fenced, if_neg fun both => plain ⟨both.1, ne_nil_of_mem (contains_iff_mem.mp both.2)⟩]

/-- Front matter is recognized as documented exactly in regular documents. -/
theorem parseFrontmatter_recognizes_iff (yaml : Yaml ψ) (content : Str) :
    Recognizes yaml content ↔ Regular (lines content) := by
  cases shape : lines content with
  | nil => exact absurd shape (splitOn_ne_nil '\n' _)
  | cons first later =>
    by_cases opened : first = fence ∧ later ≠ []
    · obtain ⟨rfl, full⟩ := opened
      obtain ⟨next, more, rfl⟩ := exists_cons_of_ne_nil full
      by_cases empty : next = fence
      · subst empty
        exact iff_of_false (empty_missed shape) fun regular => (regular rfl).1 rfl
      rcases first_opening more with ⟨none, apart⟩ | ⟨quiet, tail, after, rfl, taken, stop, apart⟩
      · have absent : fence ∉ next :: more := by
          rw [mem_cons, not_or]
          exact ⟨Ne.symm empty, not_mem_of_apart apart⟩
        rw [parse_quiet shape apart, documented_plain (by rw [shape, fenced_none absent])]
        exact iff_of_true rfl (regular_quiet empty none)
      · rw [regular_opened_iff empty taken stop]
        by_cases ended : tail = []
        · subst ended
          exact iff_of_true (closed_recognized shape empty apart) (.inl rfl)
        · rw [opened_recognized_iff shape empty apart ended]
          simp [ended]
    · have plain : ¬ fence ++ ['\n'] <+: normalized content := by
        intro starts
        rw [text_of_lines, shape] at starts
        exact opened (fence_opens (whole_lines shape first (by simp)) starts)
      rw [recognizes_of_result ⟨_, parse_plain plain, rfl⟩,
        documented_plain (by rw [shape, fenced_plain opened])]
      exact iff_of_true rfl (regular_plain opened)

end

def plainYaml : Yaml Str := ⟨fun text => .ok text, []⟩

/-- Empty front matter is taken for the body, and a line that only starts with hyphens, behind a
blank one, for the closing fence. -/
theorem fences_confused :
    ¬ Recognizes plainYaml "---\n---\nbody".toList ∧
      ¬ Recognizes plainYaml "---\ntitle: a\n\n---more\n---\nbody".toList := by
  have empty : lines "---\n---\nbody".toList = [fence, fence, "body".toList] := by
    decide
  have longer : lines "---\ntitle: a\n\n---more\n---\nbody".toList =
      fence :: "title: a".toList :: ([[]] ++ (fence ++ "more".toList) :: [fence, "body".toList]) := by
    decide
  refine ⟨empty_missed empty, ?_⟩
  rw [opened_recognized_iff longer (by decide) (by decide) (by decide)]
  simp

end PiRust.Frontmatter
