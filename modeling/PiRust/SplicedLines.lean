import Mathlib.Data.List.Sort
import PiRust.Splice

/- A text as its lines: where each of them starts, which regions touch it, and what replacing
regions makes of a run of lines. -/
namespace Splice

open List

section regions

variable {α β : Type} {size : α → Nat} {keep : α → List β} {regions : List (Region β)}

/-- Two regions share no byte. -/
def Region.Clear (region other : Region β) : Prop :=
  region.start + region.length ≤ other.start ∨ other.start + other.length ≤ region.start

theorem Region.Clear.symm {region other : Region β} (clear : region.Clear other) :
    other.Clear region :=
  Or.symm clear

/-- The region in the text behind `n` bytes. -/
def Region.behind (n : Nat) (region : Region β) : Region β :=
  { region with start := region.start - n }

def spliceAll (size : α → Nat) (text : List α) (regions : List (Region α)) : Option (List α) :=
  (regions.insertionSort fun region other => other.start ≤ region.start).foldlM
    (replaceRange size) text

def LastFirst (regions : List (Region β)) : Prop :=
  regions.Pairwise fun former latter => latter.start + latter.length ≤ former.start

theorem lastFirst_of_sorted (clear : regions.Pairwise Region.Clear)
    (full : ∀ region ∈ regions, 0 < region.length)
    (sorted : regions.Pairwise fun former latter => latter.start ≤ former.start) :
    LastFirst regions := by
  refine (clear.and sorted).imp_of_mem fun {former latter} member _ both => ?_
  obtain ⟨apart | apart, order⟩ := both
  · have := full former member
    omega
  · exact apart

theorem apart_of_ordered (clear : regions.Pairwise Region.Clear)
    (full : ∀ region ∈ regions, 0 < region.length)
    (sorted : regions.Pairwise fun former latter => former.start ≤ latter.start) :
    Apart regions := by
  refine (clear.and sorted).imp_of_mem fun {former latter} _ member both => ?_
  obtain ⟨apart | apart, order⟩ := both
  · exact apart
  · have := full latter member
    omega

theorem LastFirst.reverse (order : LastFirst regions) : Apart regions.reverse :=
  pairwise_reverse.mpr order

theorem starts_differ (clear : regions.Pairwise Region.Clear)
    (full : ∀ region ∈ regions, 0 < region.length) :
    regions.Pairwise fun former latter => former.start ≠ latter.start := by
  refine clear.imp_of_mem fun {former latter} left right apart => ?_
  have := full former left
  have := full latter right
  rcases apart with apart | apart <;> omega

theorem rewrite_near (letters : ∀ x, 0 < size x) {front back : List (Region β)} (offset : Nat)
    (text : List α)
    (far : ∀ region ∈ front ++ back, region.start + region.length ≤ offset ∧ 0 < region.length ∨
      offset + width size text ≤ region.start) :
    rewrite size keep (front ++ regions ++ back) offset text =
      rewrite size keep regions offset text := by
  induction text generalizing offset with
  | nil => rfl
  | cons x text ih =>
    have wide := letters x
    have apart : ∀ region ∈ front ++ back,
        region.start ≠ offset ∧ region.covers offset = false := by
      intro region member
      have := far region member
      simp only [width_cons] at this
      simp only [Region.covers, Bool.and_eq_false_iff, decide_eq_false_iff_not]
      omega
    have unstarted : ∀ others ⊆ front ++ back,
        (others.filter fun region => region.start = offset) = [] := by
      intro others inside
      rw [filter_eq_nil_iff]
      intro region member
      simpa using (apart region (inside member)).1
    have uncovered : ∀ others ⊆ front ++ back, others.any (Region.covers · offset) = false := by
      intro others inside
      rw [any_eq_false]
      intro region member
      rw [(apart region (inside member)).2]
      exact Bool.false_ne_true
    have rest := ih (offset + size x) fun region member => by
      have := far region member
      simp only [width_cons] at this
      omega
    have left : front ⊆ front ++ back := subset_append_left front back
    have right : back ⊆ front ++ back := subset_append_right front back
    simp only [rewrite, filter_append, any_append, unstarted front left,
      unstarted back right, uncovered front left, uncovered back right, rest, nil_append,
      append_nil, Bool.false_or, Bool.or_false]

theorem Region.covers_behind (region : Region β) {n : Nat} (later : n ≤ region.start)
    (offset : Nat) : (region.behind n).covers offset = region.covers (n + offset) := by
  have starts : region.start - n ≤ offset ↔ region.start ≤ n + offset := by omega
  have ends : offset < region.start - n + region.length ↔
      n + offset < region.start + region.length := by omega
  simp [Region.covers, Region.behind, starts, ends]

theorem rewrite_behind (n offset : Nat) (text : List α)
    (later : ∀ region ∈ regions, n ≤ region.start) :
    rewrite size keep (regions.map (Region.behind n)) offset text =
      rewrite size keep regions (n + offset) text := by
  induction text generalizing offset with
  | nil => rfl
  | cons x text ih =>
    have inserted : ((regions.map (Region.behind n)).filter fun region =>
        region.start = offset).flatMap Region.new =
        (regions.filter fun region => region.start = n + offset).flatMap Region.new := by
      rw [filter_map, flatMap_map]
      congr 1
      refine filter_congr fun region member => ?_
      have := later region member
      have same : region.start - n = offset ↔ region.start = n + offset := by omega
      simp [Region.behind, same]
    have inside : (regions.map (Region.behind n)).any (Region.covers · offset) =
        regions.any (Region.covers · (n + offset)) := by
      rw [any_map, Bool.eq_iff_iff, any_eq_true, any_eq_true]
      refine exists_congr fun region => and_congr_right fun member => ?_
      rw [Function.comp_apply, region.covers_behind (later region member)]
    simp [rewrite, inserted, inside, ih, Nat.add_assoc]

variable {text : List α}

theorem cutAt_sound {n : Nat} {front back : List α}
    (cut : cutAt size text n = some (front, back)) :
    text = front ++ back ∧ width size front = n := by
  induction text generalizing n front with
  | nil =>
    cases n with
    | zero =>
      cases cut
      exact ⟨rfl, rfl⟩
    | succ n => cases cut
  | cons x text ih =>
    cases n with
    | zero =>
      cases cut
      exact ⟨rfl, rfl⟩
    | succ n =>
      rw [cutAt] at cut
      split at cut
      · next fits =>
        obtain ⟨⟨inner, rest⟩, inside, same⟩ := Option.map_eq_some_iff.mp cut
        cases same
        obtain ⟨rfl, wide⟩ := ih inside
        exact ⟨rfl, by rw [width_cons, wide]; omega⟩
      · cases cut

theorem LastFirst.foldlM (letters : ∀ x, 0 < size x) {regions : List (Region α)}
    (order : LastFirst regions) (within : ∀ region ∈ regions, region.Within size text) :
    regions.foldlM (replaceRange size) text =
      some (rewrite size (fun x => [x]) regions 0 text) := by
  have spliced := replaceRange_reverse letters [] text order.reverse
    (fun region member => within region (mem_reverse.mp member))
    (fun region _ => Nat.zero_le _)
  have starts : regions.Pairwise fun former latter => former.start ≠ latter.start := by
    refine order.imp_of_mem fun {former latter} _ member below => ?_
    have := (within latter member).1
    omega
  rw [reverse_reverse] at spliced
  rw [rewrite_perm (reverse_perm regions).symm starts]
  exact spliced

theorem spliceAll_eq (letters : ∀ x, 0 < size x) {regions : List (Region α)}
    (clear : regions.Pairwise Region.Clear)
    (within : ∀ region ∈ regions, region.Within size text) :
    spliceAll size text regions = some (rewrite size (fun x => [x]) regions 0 text) := by
  let descending : Region α → Region α → Prop := fun region other => other.start ≤ region.start
  have same : (regions.insertionSort descending).Perm regions :=
    perm_insertionSort descending regions
  have full : ∀ region ∈ regions, 0 < region.length := fun region member => (within region member).1
  have order : LastFirst (regions.insertionSort descending) := by
    refine lastFirst_of_sorted ((same.pairwise_iff Region.Clear.symm).mpr clear)
      (fun region member => full region (same.mem_iff.mp member)) ?_
    have total : Std.Total descending := ⟨fun region other => Nat.le_total _ _⟩
    have trans : IsTrans (Region α) descending := ⟨fun _ _ _ first second => Nat.le_trans second first⟩
    exact pairwise_insertionSort descending regions
  rw [spliceAll, order.foldlM letters fun region member => within region (same.mem_iff.mp member),
    rewrite_perm same.symm (starts_differ clear full)]

theorem prefix_of_width (letters : ∀ x, 0 < size x) {front back lead rest : List α}
    (split : front ++ back = lead ++ rest) (short : width size front ≤ width size lead) :
    ∃ between, lead = front ++ between := by
  rcases append_eq_append_iff.mp split with ⟨between, same, _⟩ | ⟨between, same, _⟩
  · exact ⟨between, same⟩
  · have empty : width size between = 0 := by
      rw [same, width_append] at short
      omega
    exact ⟨[], by rw [same, eq_nil_of_width letters empty, append_nil, append_nil]⟩

theorem Region.Within.part (letters : ∀ x, 0 < size x) {region : Region β}
    {front inner back : List α} (within : region.Within size (front ++ inner ++ back))
    (starts : width size front ≤ region.start)
    (ends : region.start + region.length ≤ width size (front ++ inner)) :
    (region.behind (width size front)).Within size inner := by
  obtain ⟨nonempty, old, ⟨lead, rest, split, start⟩, fits⟩ := within
  obtain ⟨before, rfl⟩ : ∃ before, lead = front ++ before := by
    rw [append_assoc, append_assoc] at split
    exact prefix_of_width letters split (by omega)
  rw [width_append] at start ends
  simp only [append_assoc, append_cancel_left_eq] at split
  rw [← append_assoc] at split
  obtain ⟨after, rfl⟩ : ∃ after, inner = before ++ old ++ after :=
    prefix_of_width letters split.symm (by rw [width_append]; omega)
  refine ⟨nonempty, old, ⟨before, after, rfl, ?_⟩, fits⟩
  simp only [Region.behind]
  omega

end regions

section lines

variable {α β : Type} {size : α → Nat} {lines : List (List α)}

/-- The lines from `first` on that stand in front of `last`. -/
def between {γ : Type} (first last : Nat) (lines : List γ) : List γ := (lines.take last).drop first

/-- Where a line starts in the text. -/
def startOf (size : α → Nat) (lines : List (List α)) (i : Nat) : Nat :=
  width size (lines.take i).flatten

def Region.Touches (size : α → Nat) (lines : List (List α)) (region : Region β) (i : Nat) : Prop :=
  startOf size lines i < region.start + region.length ∧ region.start < startOf size lines (i + 1)

instance (region : Region β) (i : Nat) : Decidable (region.Touches size lines i) :=
  inferInstanceAs (Decidable (_ ∧ _))

theorem between_self {γ : Type} (i : Nat) (lines : List γ) : between i i lines = [] := by
  rw [between, drop_eq_nil_of_le]
  rw [length_take]
  omega

variable {first last : Nat}

theorem between_succ {γ : Type} {lines : List γ} {line : γ} (here : lines[last]? = some line)
    (ordered : first ≤ last) :
    between first (last + 1) lines = between first last lines ++ [line] := by
  have inside : last < lines.length := (List.getElem?_eq_some_iff.mp here).1
  rw [between, take_add_one, here, Option.toList_some,
    drop_append_of_le_length (by rw [length_take]; omega)]
  rfl

theorem between_append {γ : Type} {middle : Nat} (lines : List γ) (early : first ≤ middle)
    (late : middle ≤ last) (inside : last ≤ lines.length) :
    between first middle lines ++ between middle last lines = between first last lines := by
  induction last, late using Nat.le_induction with
  | base => rw [between_self, append_nil]
  | succ last late ih =>
    have here : lines[last]? = some lines[last] := getElem?_eq_getElem (by omega)
    rw [between_succ here late, between_succ here (early.trans late), ← append_assoc, ih (by omega)]

theorem between_congr {γ : Type} {lines others : List γ}
    (same : ∀ i, first ≤ i → i < last → lines[i]? = others[i]?) :
    between first last lines = between first last others := by
  refine ext_getElem? fun i => ?_
  rw [between, between, getElem?_drop, getElem?_drop, getElem?_take,
    getElem?_take]
  split
  · next inside => exact same (first + i) (Nat.le_add_right first i) inside
  · rfl

theorem startOf_succ {i : Nat} {line : List α} (here : lines[i]? = some line) :
    startOf size lines (i + 1) = startOf size lines i + width size line := by
  rw [startOf, take_add_one, here, Option.toList_some, flatten_append, width_append]
  simp [startOf]

theorem startOf_between (ordered : first ≤ last) (inside : last ≤ lines.length) :
    startOf size lines last =
      startOf size lines first + width size (between first last lines).flatten := by
  have split := between_append lines (Nat.zero_le first) ordered inside
  have whole : ∀ i, lines.take i = between 0 i lines := fun i => by rw [between, drop_zero]
  rw [startOf, startOf, whole, whole, ← split, flatten_append, width_append]

theorem startOf_mono (ordered : first ≤ last) :
    startOf size lines first ≤ startOf size lines last := by
  have split : lines.take last = lines.take first ++ (lines.take last).drop first := by
    have short : (lines.take last).take first = lines.take first := by
      rw [take_take, Nat.min_eq_left ordered]
    rw [← short, take_append_drop]
  rw [startOf, startOf, split, flatten_append, width_append]
  exact Nat.le_add_right _ _

theorem startOf_length : startOf size lines lines.length = width size lines.flatten := by
  rw [startOf, take_length]

theorem exists_line {n : Nat} (inside : n < startOf size lines last) :
    ∃ i < last, startOf size lines i ≤ n ∧ n < startOf size lines (i + 1) := by
  induction last with
  | zero => exact absurd inside (Nat.not_lt_zero n)
  | succ last ih =>
    by_cases earlier : n < startOf size lines last
    · obtain ⟨i, before, here⟩ := ih earlier
      exact ⟨i, Nat.lt_succ_of_lt before, here⟩
    · exact ⟨last, Nat.lt_succ_self last, Nat.le_of_not_lt earlier, inside⟩

variable {regions : List (Region β)}
variable {first last : Nat} {region : Region β}

theorem flatten_rewritten (keep : α → List β) (regions : List (Region β)) {parts : List (List β)}
    (ordered : first ≤ last) (inside : last ≤ lines.length)
    (written : ∀ i line, first ≤ i → i < last → lines[i]? = some line →
      parts[i]? = some (rewrite size keep regions (startOf size lines i) line)) :
    (between first last parts).flatten =
      rewrite size keep regions (startOf size lines first) (between first last lines).flatten := by
  induction last, ordered using Nat.le_induction with
  | base =>
    rw [between_self, between_self]
    rfl
  | succ last ordered ih =>
    have here : lines[last]? = some lines[last] := getElem?_eq_getElem (by omega)
    have rest := ih (by omega) fun i line start stop => written i line start (by omega)
    rw [between_succ here ordered,
      between_succ (written last _ ordered (Nat.lt_succ_self last) here) ordered,
      flatten_append, flatten_append, rewrite_append, rest,
      ← startOf_between ordered (by omega)]
    simp

/-- Lines that are all touched, between untouched ones. -/
structure MaximalRun (size : α → Nat) (lines : List (List α)) (regions : List (Region β))
    (first last : Nat) : Prop where
  ordered : first < last
  inside : last ≤ lines.length
  touched : ∀ i, first ≤ i → i < last → ∃ region ∈ regions, region.Touches size lines i
  before : ∀ i, i + 1 = first → ∀ region ∈ regions, ¬ region.Touches size lines i
  behind : last < lines.length → ∀ region ∈ regions, ¬ region.Touches size lines last

def regionsBetween (size : α → Nat) (lines : List (List α)) (first last : Nat)
    (regions : List (Region β)) : List (Region β) :=
  (regions.filter fun region =>
    startOf size lines first ≤ region.start ∧ region.start < startOf size lines last).map
      (Region.behind (startOf size lines first))

theorem MaximalRun.ends (run : MaximalRun size lines regions first last)
    (member : region ∈ regions) (within : region.start + region.length ≤ width size lines.flatten)
    (starts : region.start < startOf size lines last) :
    region.start + region.length ≤ startOf size lines last := by
  rcases Nat.lt_or_eq_of_le run.inside with more | whole
  · by_contra beyond
    refine run.behind more region member ⟨by omega, ?_⟩
    exact Nat.lt_of_lt_of_le starts (startOf_mono (Nat.le_succ last))
  · rw [whole, startOf_length]
    exact within

theorem MaximalRun.starts (run : MaximalRun size lines regions first last)
    (member : region ∈ regions) (before : region.start < startOf size lines first) :
    region.start + region.length ≤ startOf size lines first := by
  cases first with
  | zero => exact absurd before (Nat.not_lt_zero _)
  | succ i =>
    by_contra reaches
    refine run.before i rfl region member ⟨?_, before⟩
    have : startOf size lines i ≤ startOf size lines (i + 1) := startOf_mono (Nat.le_succ i)
    omega

theorem flatten_split (ordered : first ≤ last) (lines : List (List α)) :
    lines.flatten = (lines.take first).flatten ++ (between first last lines).flatten ++
      (lines.drop last).flatten := by
  have front : lines.take last = lines.take first ++ between first last lines := by
    have short : (lines.take last).take first = lines.take first := by
      rw [take_take, Nat.min_eq_left ordered]
    rw [between, ← short, take_append_drop]
  rw [← flatten_append, ← front, ← flatten_append, take_append_drop]

theorem Region.Clear.behind {other : Region β} {n : Nat} (clear : region.Clear other)
    (first : n ≤ region.start) (second : n ≤ other.start) :
    (region.behind n).Clear (other.behind n) := by
  simp only [Region.Clear, Region.behind] at clear ⊢
  omega

theorem Region.Within.between (letters : ∀ x, 0 < size x) (ordered : first ≤ last)
    (inside : last ≤ lines.length) (within : region.Within size lines.flatten)
    (starts : startOf size lines first ≤ region.start)
    (ends : region.start + region.length ≤ startOf size lines last) :
    (region.behind (startOf size lines first)).Within size (Splice.between first last lines).flatten := by
  rw [flatten_split ordered lines] at within
  refine within.part letters starts ?_
  rw [startOf_between ordered inside] at ends
  rw [width_append]
  exact ends

theorem MaximalRun.spliceAll (letters : ∀ x, 0 < size x) {regions : List (Region α)}
    (run : MaximalRun size lines regions first last) (clear : regions.Pairwise Region.Clear)
    (within : ∀ region ∈ regions, region.Within size lines.flatten) :
    Splice.spliceAll size (between first last lines).flatten
        (regionsBetween size lines first last regions) =
      some (rewrite size (fun x => [x]) regions (startOf size lines first)
        (between first last lines).flatten) := by
  let own : Region α → Bool := fun region =>
    startOf size lines first ≤ region.start ∧ region.start < startOf size lines last
  have bounded : ∀ region ∈ regions, region.start + region.length ≤ width size lines.flatten := by
    intro region member
    obtain ⟨_, old, ⟨front, back, split, start⟩, fits⟩ := within region member
    rw [split, width_append, width_append]
    omega
  have owned : ∀ region ∈ regions.filter own, region ∈ regions ∧
      startOf size lines first ≤ region.start ∧ region.start < startOf size lines last := by
    intro region member
    obtain ⟨listed, here⟩ := mem_filter.mp member
    exact ⟨listed, of_decide_eq_true here⟩
  have apart : (regionsBetween size lines first last regions).Pairwise Region.Clear := by
    rw [regionsBetween, pairwise_map]
    refine (clear.filter own).imp_of_mem fun left right apart => ?_
    exact apart.behind (owned _ left).2.1 (owned _ right).2.1
  have parts : ∀ region ∈ regionsBetween size lines first last regions,
      region.Within size (between first last lines).flatten := by
    intro region member
    obtain ⟨whole, listed, rfl⟩ := mem_map.mp member
    obtain ⟨listed, starts, stops⟩ := owned whole listed
    exact (within whole listed).between letters (Nat.le_of_lt run.ordered) run.inside starts
      (run.ends listed (bounded whole listed) stops)
  have far : ∀ region ∈ [] ++ regions.filter (fun region => ! own region),
      region.start + region.length ≤ startOf size lines first ∧ 0 < region.length ∨
        startOf size lines first + width size (between first last lines).flatten ≤
          region.start := by
    intro region member
    obtain ⟨listed, other⟩ := mem_filter.mp member
    rw [← startOf_between (Nat.le_of_lt run.ordered) run.inside]
    simp only [own, Bool.not_eq_true', decide_eq_false_iff_not, not_and_or] at other
    rcases other with earlier | later
    · exact .inl ⟨run.starts listed (Nat.lt_of_not_le earlier), (within region listed).1⟩
    · exact .inr (Nat.le_of_not_lt later)
  have full : ∀ region ∈ regions, 0 < region.length := fun region member => (within region member).1
  have sorted : regions.Perm (regions.filter own ++ regions.filter fun region => ! own region) :=
    (filter_append_perm own regions).symm
  rw [spliceAll_eq letters apart parts, regionsBetween,
    rewrite_behind _ _ _ fun region member => (owned region member).2.1,
    rewrite_perm sorted (starts_differ clear full), Nat.add_zero]
  exact congrArg some (rewrite_near letters _ _ far).symm

end lines

end Splice
