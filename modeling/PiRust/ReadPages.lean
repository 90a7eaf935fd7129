import Mathlib.Algebra.BigOperators.Group.List.Basic
import PiRust.TruncatedText

/- `tools/read.rs`: the pages of a text file, and a reader that follows their notices. -/
namespace PiRust.ReadTool

open EditTool Fitting Truncate List

inductive Notice
  | tooLong (line bytes : Nat)
  | lines (first last total next : Nat)
  | bytes (first last total next : Nat)
  | more (remaining next : Nat)

structure Page where
  content : Str
  notice : Option Notice

/-- The offset that a notice names. -/
def Notice.next : Notice → Option Nat
  | .tooLong _ _ => none
  | .lines _ _ _ next => some next
  | .bytes _ _ _ next => some next
  | .more _ next => some next

def Page.next (page : Page) : Option Nat := page.notice.bind Notice.next

def Notice.text (formatSize : Nat → String) (path : String) : Notice → String
  | .tooLong line size =>
    s!"[Line {line} is {formatSize size}, exceeds {formatSize defaultMaxBytes} limit. Use bash: sed -n '{line}p' {path} | head -c {defaultMaxBytes}]"
  | .lines first last total next =>
    s!"\n\n[Showing lines {first}-{last} of {total}. Use offset={next} to continue.]"
  | .bytes first last total next =>
    s!"\n\n[Showing lines {first}-{last} of {total} ({formatSize defaultMaxBytes} limit). Use offset={next} to continue.]"
  | .more remaining next => s!"\n\n[{remaining} more lines in file. Use offset={next} to continue.]"

/-- The text that the tool returns. `formatSize` is the floating point printer `format_size`. -/
def Page.text (formatSize : Nat → String) (path : String) (page : Page) : String :=
  String.ofList page.content ++ (page.notice.elim "" (Notice.text formatSize path))

/-- The lines from `start`, and how many a limit asked for. The addition panics when it overflows,
and so does the slice where additions wrap. -/
def selectLines (all : List Str) (start : Nat) : Option Nat → Sliced (Str × Option Nat)
  | some l => do
      guard (start + l < 2 ^ 64)
      let «end» := min (start + l) all.length
      let lines ← sliceLines all start «end»
      return (joinLines lines, some («end» - start))
  | none => some (joinLines (all.drop start), none)

/-- The branches of `read_execute_with_operations` behind the selection. No sum here overflows:
none is above the number of lines. -/
def pageOf (all : List Str) (start : Nat) (userLimited : Option Nat) (tr : TruncationResult) :
    Page :=
  let startDisplay := start + 1
  if tr.firstLineExceedsLimit then
    ⟨[], some (.tooLong startDisplay ((all[start]?.map Str.len).getD 0))⟩
  else if tr.truncated then
    let endDisplay := startDisplay + tr.outputLines - 1
    let next := endDisplay + 1
    match tr.truncatedBy with
    | .lines => ⟨tr.content, some (.lines startDisplay endDisplay all.length next)⟩
    | _ => ⟨tr.content, some (.bytes startDisplay endDisplay all.length next)⟩
  else
    match userLimited with
    | some ul =>
      if start + ul < all.length then
        ⟨tr.content, some (.more (all.length - (start + ul)) (start + ul + 1))⟩
      else ⟨tr.content, none⟩
    | none => ⟨tr.content, none⟩

def startOf (offset : Option Nat) : Nat := offset.getD 1 - 1

/-- `read_execute_with_operations` once the file is read and is no image. -/
def readPage (content : Str) (offset limit : Option Nat) : Sliced (Except String Page) :=
  let all := splitChar '\n' content
  let start := startOf offset
  if start ≥ all.length then
    some (.error s!"Offset {offset.getD 1} is beyond end of file ({all.length} lines total)")
  else do
    let (selected, userLimited) ← selectLines all start limit
    return .ok (pageOf all start userLimited (truncateHead selected ⟨none, none⟩))

example : readPage ['a', '\n', 'b'] none (some 1) = some (.ok ⟨['a'], some (.more 1 2)⟩) := rfl

/-- Pages that are read one after the other. -/
inductive Reading (content : Str) (limit : Option Nat) : Option Nat → List Page → Prop
  | last {offset : Option Nat} {page : Page} :
      readPage content offset limit = some (.ok page) → page.next = none →
        Reading content limit offset [page]
  | more {offset : Option Nat} {page : Page} {next : Nat} {pages : List Page} :
      readPage content offset limit = some (.ok page) → page.next = some next →
        Reading content limit (some next) pages → Reading content limit offset (page :: pages)

def headOf (lines : List Str) : TruncationResult := truncateHead (joinLines lines) ⟨none, none⟩

/-- The lines at which a reader without a limit comes to a new page. -/
inductive Opens (all : List Str) (start : Nat) : Nat → Prop
  | first : Opens all start start
  | next {line : Nat} : Opens all start line → (headOf (all.drop line)).truncated = true →
      Opens all start (line + (headOf (all.drop line)).outputLines)

/-- Every line is shown once, and in order. -/
def Shows (lines : List Str) (pages : List Page) : Prop :=
  ∃ segments : List (List Str), segments.flatten = lines ∧ (∀ segment ∈ segments, segment ≠ []) ∧
    pages.map Page.content = segments.map joinLines

/-- The reader gets to the end without an error, and sees every line from the offset on. -/
def Complete (content : Str) (offset limit : Option Nat) : Prop :=
  ∃ pages, Reading content limit offset pages ∧
    Shows ((splitChar '\n' content).drop (startOf offset)) pages

section truncation

variable {content : Str} {opts : TruncationOptions} {lines : List Str}

theorem splitLines_prefix (nonempty : lines ≠ []) (clear : ∀ line ∈ lines, '\n' ∉ line) :
    splitLinesForCounting (joinLines lines) <+: lines := by
  rw [splitLinesForCounting, splitChar_joinLines nonempty clear]
  split
  · exact nil_prefix
  · split
    · exact dropLast_prefix lines
    · exact prefix_rfl

theorem truncated_iff : (truncateHead content opts).truncated = true ↔
    ¬ ((splitLinesForCounting content).length ≤ opts.lines ∧ Str.len content ≤ opts.bytes) := by
  rw [truncateHead]
  dsimp only
  rw [← TruncationOptions.lines, ← TruncationOptions.bytes]
  split
  · next fits => exact iff_of_false Bool.false_ne_true fun beyond => beyond fits
  · next beyond =>
    split
    · exact iff_of_true rfl beyond
    · exact iff_of_true rfl beyond

theorem firstLineExceedsLimit_head (short : ∀ line ∈ splitLinesForCounting content,
    Str.len line ≤ opts.bytes) : (truncateHead content opts).firstLineExceedsLimit = false := by
  rw [truncateHead]
  dsimp only
  rw [← TruncationOptions.bytes]
  split
  · rfl
  · split
    · next long =>
      exfalso
      cases here : (splitLinesForCounting content).head? with
      | none =>
        rw [here] at long
        exact absurd long (Nat.not_lt_zero _)
      | some first =>
        rw [here] at long
        exact absurd (short first (mem_of_head? here)) (Nat.not_le.mpr long)
    · rfl

end truncation

section pages

variable {all lines : List Str} {start : Nat}

/-- How many lines the default limits leave. -/
def shown (lines : List Str) : Nat :=
  if (headOf lines).truncated then (headOf lines).outputLines else lines.length

def asked (lines : List Str) (limit : Option Nat) : List Str := limit.elim lines lines.take

/-- Lines as `split` gives them, none of them longer than a page. -/
structure Printable (lines : List Str) : Prop where
  clear : ∀ line ∈ lines, '\n' ∉ line
  short : ∀ line ∈ lines, Str.len line ≤ defaultMaxBytes

theorem Printable.mono {others : List Str} (printable : Printable lines) (less : others ⊆ lines) :
    Printable others :=
  ⟨fun line inside => printable.clear line (less inside),
    fun line inside => printable.short line (less inside)⟩

/-- A head that ends between lines. -/
structure HeadShows (lines : List Str) (tr : TruncationResult) : Prop where
  short : tr.firstLineExceedsLimit = false
  whole : tr.truncated = false → tr.content = joinLines lines
  cut : tr.truncated = true → tr.content = joinLines (lines.take tr.outputLines)
  some : tr.truncated = true → 0 < tr.outputLines
  less : tr.truncated = true → tr.outputLines < lines.length

section

variable (nonempty : lines ≠ []) (printable : Printable lines)
include nonempty printable

theorem headOf_shows : HeadShows lines (headOf lines) := by
  have front := splitLines_prefix nonempty printable.clear
  have counts := front.length_le
  obtain ⟨rest, counted⟩ := front
  have kept : ∀ k ≤ (splitLinesForCounting (joinLines lines)).length,
      firstLines (joinLines lines) k = lines.take k := by
    intro k inside
    rw [← counted, take_append_of_le_length inside, counted, firstLines]
  have short : ∀ line ∈ splitLinesForCounting (joinLines lines), Str.len line ≤ defaultMaxBytes := by
    intro line inside
    apply printable.short
    rw [← counted]
    exact mem_append_left rest inside
  have ok : HeadOk (joinLines lines) ⟨none, none⟩ (headOf lines) :=
    truncateHead_ok_iff.mpr fun none => absurd none (by decide)
  have cuts : (headOf lines).truncated = true →
      (headOf lines).content = joinLines (lines.take (headOf lines).outputLines) ∧
        0 < (headOf lines).outputLines ∧ (headOf lines).outputLines < lines.length := by
    intro cut
    obtain ⟨k, longest, same, _, described, _⟩ := ok.cut cut
    have beyond := truncated_iff.mp cut
    rw [same, described.lines, kept k longest.inside]
    refine ⟨rfl, ?_, ?_⟩
    · have one : 1 ≤ (splitLinesForCounting (joinLines lines)).length := by
        by_contra none
        rcases splitLines_join (joinLines lines) with ⟨empty, blank⟩ | ⟨more, _⟩
        · apply beyond
          rw [empty, blank]
          exact ⟨Nat.zero_le _, Nat.zero_le _⟩
        · exact none (length_pos_iff.mpr more)
      apply longest.longest 1 one (by decide)
      obtain ⟨first, others, split⟩ := exists_cons_of_length_pos one
      rw [firstLines, split, take_succ_cons, take_zero, joinLines_singleton]
      apply short
      rw [split]
      exact mem_cons_self
    · by_contra all
      have same : k = lines.length :=
        Nat.le_antisymm (longest.inside.trans counts) (Nat.le_of_not_lt all)
      have fits := longest.fits
      rw [kept k longest.inside, same, take_length] at fits
      apply beyond
      exact ⟨(counts.trans_eq same.symm).trans longest.room, fits⟩
  exact ⟨firstLineExceedsLimit_head short, fun whole => (ok.whole whole).same,
    fun cut => (cuts cut).1, fun cut => (cuts cut).2.1, fun cut => (cuts cut).2.2⟩

theorem shown_pos : 0 < shown lines := by
  rw [shown]
  split
  · next cut => exact (headOf_shows nonempty printable).some cut
  · exact length_pos_iff.mpr nonempty

theorem shown_le : shown lines ≤ lines.length := by
  rw [shown]
  split
  · next cut => exact ((headOf_shows nonempty printable).less cut).le
  · exact Nat.le_refl _

theorem pageOf_shows (inside : start + lines.length ≤ all.length) {userLimited : Option Nat}
    (limited : ∀ ul, userLimited = some ul → ul = lines.length)
    (unlimited : userLimited = none → start + lines.length = all.length) :
    (pageOf all start userLimited (headOf lines)).content = joinLines (lines.take (shown lines)) ∧
      (pageOf all start userLimited (headOf lines)).next =
        if start + shown lines < all.length then some (start + shown lines + 1) else none := by
  have shows := headOf_shows nonempty printable
  unfold pageOf
  rw [shows.short, shown]
  cases cut : (headOf lines).truncated with
  | true =>
    have more : start + (headOf lines).outputLines < all.length := by
      have := shows.less cut
      omega
    have next : start + 1 + (headOf lines).outputLines - 1 + 1 =
        start + (headOf lines).outputLines + 1 := by
      omega
    simp only [Bool.false_eq_true, if_false, if_true, if_pos more, next]
    rw [← shows.cut cut]
    cases (headOf lines).truncatedBy with
    | lines => exact ⟨rfl, rfl⟩
    | bytes => exact ⟨rfl, rfl⟩
    | none => exact ⟨rfl, rfl⟩
  | false =>
    simp only [Bool.false_eq_true, if_false, take_length, ← shows.whole cut]
    cases userLimited with
    | some ul =>
      rw [limited ul rfl]
      dsimp only
      split
      · exact ⟨rfl, rfl⟩
      · exact ⟨rfl, rfl⟩
    | none =>
      rw [unlimited rfl, if_neg (Nat.lt_irrefl _)]
      exact ⟨rfl, rfl⟩

end

variable {limit : Option Nat}

theorem selectLines_ok (within : start < all.length)
    (fits : ∀ l, limit = some l → start + l < 2 ^ 64) :
    ∃ userLimited, selectLines all start limit =
        some (joinLines (asked (all.drop start) limit), userLimited) ∧
      (∀ ul, userLimited = some ul → ul = (asked (all.drop start) limit).length) ∧
      (userLimited = none → start + (asked (all.drop start) limit).length = all.length) := by
  cases limit with
  | none =>
    refine ⟨none, rfl, nofun, fun _ => ?_⟩
    show start + (all.drop start).length = all.length
    rw [length_drop, Nat.add_sub_cancel' within.le]
  | some l =>
    have room : start ≤ min (start + l) all.length ∧ min (start + l) all.length ≤ all.length := by
      omega
    have taken : (all.take (min (start + l) all.length)).drop start = (all.drop start).take l := by
      rw [← take_take, take_length, drop_take, Nat.add_sub_cancel_left]
    refine ⟨some (min (start + l) all.length - start), ?_, fun ul same => ?_, fun none => ?_⟩
    · simp only [selectLines, sliceLines, fits l rfl, room, guard, if_true, and_self, taken]
      rfl
    · cases same
      show _ = ((all.drop start).take l).length
      rw [length_take, length_drop]
      omega
    · cases none

theorem selectLines_panics {l : Nat} (beyond : 2 ^ 64 ≤ start + l) :
    selectLines all start (some l) = none := by
  simp only [selectLines, guard, if_neg (Nat.not_lt.mpr beyond)]
  rfl

variable {content : Str} {offset : Option Nat}

theorem asked_prefix : asked lines limit <+: lines := by
  cases limit with
  | none => exact prefix_rfl
  | some l => exact take_prefix l lines

theorem asked_ne_nil (nonempty : lines ≠ []) (asks : ∀ l, limit = some l → 1 ≤ l) :
    asked lines limit ≠ [] := by
  cases limit with
  | none => exact nonempty
  | some l =>
    have := asks l rfl
    intro none
    rcases take_eq_nil_iff.mp none with zero | empty
    · omega
    · exact nonempty empty

/-- How many lines from `start` on a page shows. -/
def step (all : List Str) (limit : Option Nat) (start : Nat) : Nat :=
  shown (asked (all.drop start) limit)

theorem rest_ne_nil (within : start < all.length) : all.drop start ≠ [] := fun none =>
  absurd (drop_eq_nil_iff.mp none) (Nat.not_le.mpr within)

theorem asked_printable (printable : Printable all) (limit : Option Nat) (start : Nat) :
    Printable (asked (all.drop start) limit) :=
  printable.mono (Subset.trans asked_prefix.subset (drop_subset start all))

theorem step_pos (printable : Printable all) (within : start < all.length)
    (asks : ∀ l, limit = some l → 1 ≤ l) : 0 < step all limit start :=
  shown_pos (asked_ne_nil (rest_ne_nil within) asks) (asked_printable printable limit start)

theorem readPage_ok (cut : splitChar '\n' content = all) (from_ : startOf offset = start)
    (printable : Printable all) (within : start < all.length)
    (asks : ∀ l, limit = some l → 1 ≤ l) (fits : ∀ l, limit = some l → start + l < 2 ^ 64) :
    ∃ page, readPage content offset limit = some (.ok page) ∧
      page.content = joinLines ((all.drop start).take (step all limit start)) ∧
      page.next = if start + step all limit start < all.length then
        some (start + step all limit start + 1) else none := by
  obtain ⟨userLimited, selected, limited, unlimited⟩ := selectLines_ok within fits
  have nonempty := asked_ne_nil (rest_ne_nil within) asks
  have print := asked_printable printable limit start
  have front : asked (all.drop start) limit <+: all.drop start := asked_prefix
  have inside : start + (asked (all.drop start) limit).length ≤ all.length := by
    have := front.length_le
    rw [length_drop] at this
    omega
  obtain ⟨shows, next⟩ := pageOf_shows nonempty print inside limited unlimited
  have page : readPage content offset limit =
      some (.ok (pageOf all start userLimited (headOf (asked (all.drop start) limit)))) := by
    unfold readPage
    dsimp only
    rw [cut, from_, if_neg (Nat.not_le.mpr within), selected]
    rfl
  refine ⟨_, page, ?_, next⟩
  obtain ⟨more, split⟩ := front
  have same : (asked (all.drop start) limit ++ more).take (step all limit start) =
      (asked (all.drop start) limit).take (step all limit start) :=
    take_append_of_le_length (shown_le nonempty print)
  rw [split] at same
  rw [same]
  exact shows

theorem readPage_panics (cut : splitChar '\n' content = all) (from_ : startOf offset = start)
    (within : start < all.length) {l : Nat} (beyond : 2 ^ 64 ≤ start + l) :
    readPage content offset (some l) = none := by
  unfold readPage
  dsimp only
  rw [cut, from_, if_neg (Nat.not_le.mpr within), selectLines_panics beyond]
  rfl

theorem reads_all (cut : splitChar '\n' content = all) (printable : Printable all)
    (asks : ∀ l, limit = some l → 1 ≤ l) (Reached : Nat → Prop)
    (fits : ∀ start, Reached start → start < all.length → ∀ l, limit = some l → start + l < 2 ^ 64)
    (steps : ∀ start, Reached start → start + step all limit start < all.length →
      Reached (start + step all limit start))
    (from_ : startOf offset = start) (reached : Reached start) (within : start < all.length) :
    ∃ pages, Reading content limit offset pages ∧ Shows (all.drop start) pages := by
  induction left : all.length - start using Nat.strongRecOn generalizing offset start with
  | ind left ih =>
    obtain ⟨page, read, content', next⟩ :=
      readPage_ok cut from_ printable within asks (fits start reached within)
    have least := step_pos printable within asks
    have parts := take_append_drop (step all limit start) (all.drop start)
    rw [drop_drop] at parts
    have first : (all.drop start).take (step all limit start) ≠ [] := by
      intro none
      rcases take_eq_nil_iff.mp none with zero | empty
      · omega
      · exact rest_ne_nil within empty
    split at next
    · next more =>
      have later : ∃ pages, Reading content limit (some (start + step all limit start + 1)) pages ∧
          Shows (all.drop (start + step all limit start)) pages :=
        ih (all.length - (start + step all limit start)) (by omega) rfl
          (steps start reached more) more rfl
      obtain ⟨pages, reading, segments, flat, filled, shown⟩ := later
      refine ⟨page :: pages, .more read next reading,
        (all.drop start).take (step all limit start) :: segments, ?_, ?_, ?_⟩
      · rw [flatten_cons, flat, parts]
      · exact forall_mem_cons.mpr ⟨first, filled⟩
      · rw [map_cons, map_cons, content', shown]
    · next done =>
      have rest : all.drop (start + step all limit start) = [] :=
        drop_eq_nil_iff.mpr (Nat.le_of_not_lt done)
      rw [rest, append_nil] at parts
      refine ⟨[page], .last read next, [(all.drop start).take (step all limit start)], ?_, ?_, ?_⟩
      · rw [flatten_singleton, parts]
      · exact forall_mem_singleton.mpr first
      · rw [map_singleton, map_singleton, content']

theorem step_unlimited (long : ∀ l, limit = some l → all.length ≤ l) (start : Nat) :
    step all limit start = shown (all.drop start) := by
  cases limit with
  | none => rfl
  | some l =>
    have whole : (all.drop start).length ≤ l := by
      have := long l rfl
      rw [length_drop]
      omega
    rw [step, asked]
    exact congrArg shown (take_of_length_le whole)

variable {line : Nat} {pages : List Page}

theorem opens_lt (printable : Printable all) (within : start < all.length)
    (opens : Opens all start line) : line < all.length := by
  induction opens with
  | first => exact within
  | @next line _ cut ih =>
    have less := (headOf_shows (rest_ne_nil ih) (printable.mono (drop_subset line all))).less cut
    rw [length_drop] at less
    omega

theorem opens_step (opens : Opens all start line)
    (more : line + shown (all.drop line) < all.length) :
    Opens all start (line + shown (all.drop line)) := by
  cases cut : (headOf (all.drop line)).truncated with
  | true =>
    rw [shown, if_pos cut]
    exact opens.next cut
  | false =>
    rw [shown, cut, if_neg Bool.false_ne_true, length_drop] at more
    omega

theorem reading_fits (cut : splitChar '\n' content = all) (from_ : startOf offset = start)
    (within : start < all.length) (reading : Reading content limit offset pages) :
    ∀ l, limit = some l → start + l < 2 ^ 64 := by
  intro l same
  subst same
  by_contra beyond
  have panics := readPage_panics cut from_ within (Nat.le_of_not_lt beyond)
  cases reading with
  | last read _ => rw [panics] at read; cases read
  | more read _ _ => rw [panics] at read; cases read

theorem reading_opens (cut : splitChar '\n' content = all) (printable : Printable all)
    (asks : ∀ l, limit = some l → 1 ≤ l) (long : ∀ l, limit = some l → all.length ≤ l)
    (from_ : startOf offset = start) (within : start < all.length)
    (reading : Reading content limit offset pages) (opens : Opens all start line) :
    ∃ offset pages, startOf offset = line ∧ Reading content limit offset pages := by
  induction opens with
  | first => exact ⟨offset, pages, from_, reading⟩
  | @next line opens truncated ih =>
    obtain ⟨offset, pages, here, reading⟩ := ih
    have inside := opens_lt printable within opens
    obtain ⟨page, read, _, next⟩ :=
      readPage_ok cut here printable inside asks (reading_fits cut here inside reading)
    have less := (headOf_shows (rest_ne_nil inside)
      (printable.mono (drop_subset line all))).less truncated
    have count : step all limit line = (headOf (all.drop line)).outputLines := by
      rw [step_unlimited long, shown, if_pos truncated]
    rw [length_drop] at less
    rw [count, if_pos (by omega)] at next
    cases reading with
    | last again done =>
      rw [read] at again
      cases again
      rw [next] at done
      cases done
    | more again named reading =>
      rw [read] at again
      cases again
      rw [next] at named
      cases named
      exact ⟨_, _, rfl, reading⟩

theorem lines_le (content : Str) : (splitChar '\n' content).length ≤ Str.len content + 1 := by
  have whole := len_joinLines (splitChar '\n' content)
  have nonempty : (splitChar '\n' content).map Str.len ≠ [] := by simp [splitChar]
  rw [joinLines_splitChar] at whole
  rw [whole, cost_succ nonempty]
  have least := length_le_sum_of_one_le
    (((splitChar '\n' content).map Str.len).map (· + 1)) (by simp)
  rw [length_map, length_map] at least
  exact least

/-- Every line is read, unless a limit is too large for a line that the reader comes to. -/
theorem pages_complete_iff (content : Str) (offset limit : Option Nat)
    (inMemory : Str.len content < 2 ^ 63)
    (short : ∀ line ∈ splitChar '\n' content, Str.len line ≤ defaultMaxBytes)
    (within : startOf offset < (splitChar '\n' content).length)
    (asks : ∀ l, limit = some l → 1 ≤ l) :
    Complete content offset limit ↔
      ∀ l, limit = some l → ∀ line, Opens (splitChar '\n' content) (startOf offset) line →
        line + l < 2 ^ 64 := by
  have few := lines_le content
  have printable : Printable (splitChar '\n' content) := ⟨splitChar_clear content, short⟩
  constructor
  · rintro ⟨pages, reading, _⟩ l same line opens
    have inside := opens_lt printable within opens
    subst same
    by_contra beyond
    have long : ∀ l', some l = some l' → (splitChar '\n' content).length ≤ l' := by
      intro l' same
      cases same
      omega
    obtain ⟨offset, pages, here, reading⟩ :=
      reading_opens rfl printable asks long rfl within reading opens
    exact beyond (reading_fits rfl here inside reading l rfl)
  · intro fits
    by_cases long : ∀ l, limit = some l → (splitChar '\n' content).length ≤ l
    · refine reads_all rfl printable asks (Opens (splitChar '\n' content) (startOf offset))
        (fun line opens _ l same => fits l same line opens) (fun line opens more => ?_) rfl .first
        within
      rw [step_unlimited long] at more ⊢
      exact opens_step opens more
    · refine reads_all rfl printable asks (fun _ => True) (fun line _ inside l same => ?_)
        (fun _ _ _ => trivial) rfl trivial within
      have : l < (splitChar '\n' content).length := by
        by_contra whole
        apply long
        intro l' other
        rw [same] at other
        cases other
        exact Nat.le_of_not_lt whole
      omega

/-- Two pages of one line. -/
theorem second_line_complete : Complete ['a', '\n', 'b'] none (some 1) := by
  have printable : Printable (splitChar '\n' ['a', '\n', 'b']) := ⟨by decide, by decide⟩
  have within : startOf none < (splitChar '\n' ['a', '\n', 'b']).length := by decide
  apply (pages_complete_iff ['a', '\n', 'b'] none (some 1) (by decide) printable.short within
    (by rintro l ⟨⟩; decide)).mpr
  rintro l ⟨⟩ line opens
  have few : line < 2 := opens_lt printable within opens
  omega

/-- From the second line on, all lines are asked for. -/
theorem largest_limit_panics :
    ¬ ∀ (content : Str) (offset limit : Option Nat), Str.len content < 2 ^ 63 →
      (∀ line ∈ splitChar '\n' content, Str.len line ≤ defaultMaxBytes) →
      startOf offset < (splitChar '\n' content).length →
      (∀ l, limit = some l → 1 ≤ l ∧ l < 2 ^ 64) → Complete content offset limit := by
  intro always
  obtain ⟨pages, reading, _⟩ := always ['a', '\n', 'b'] (some 2) (some (2 ^ 64 - 1)) (by decide)
    (by decide) (by decide) (by rintro l ⟨⟩; decide)
  have within : startOf (some 2) < (splitChar '\n' ['a', '\n', 'b']).length := by decide
  exact absurd (reading_fits rfl rfl within reading _ rfl) (by decide)

end pages

end PiRust.ReadTool
