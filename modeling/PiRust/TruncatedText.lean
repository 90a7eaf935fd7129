import PiRust.Truncate

/- What `truncate_head` and `truncate_tail` keep of a content, and the limit that they name. -/
namespace PiRust.Truncate

open EditTool Fitting List

section spec

variable (content : Str) (opts : TruncationOptions)

def TruncationOptions.lines : Nat := opts.maxLines.getD defaultMaxLines

def TruncationOptions.bytes : Nat := opts.maxBytes.getD defaultMaxBytes

def firstLines (k : Nat) : List Str := (splitLinesForCounting content).take k

def lastLines (k : Nat) : List Str :=
  (splitLinesForCounting content).drop ((splitLinesForCounting content).length - k)

/-- Both limits have room for `k` lines of one side, and for no more. -/
structure Longest (pick : Nat → List Str) (total : Nat) (opts : TruncationOptions) (k : Nat) :
    Prop where
  inside : k ≤ total
  room : k ≤ opts.lines
  fits : Str.len (joinLines (pick k)) ≤ opts.bytes
  longest : ∀ j ≤ total, j ≤ opts.lines → Str.len (joinLines (pick j)) ≤ opts.bytes → j ≤ k

def NextLeftOut (pick : Nat → List Str) (total : Nat) (opts : TruncationOptions) (k : Nat) : Prop :=
  k < total ∧ k < opts.lines ∧ opts.bytes < Str.len (joinLines (pick (k + 1)))

/-- The counts are those of the content. -/
structure Described (r : TruncationResult) (lines : Nat) : Prop where
  lines : r.outputLines = lines
  bytes : r.outputBytes = Str.len r.content

/-- Nothing is cut. -/
structure Whole (r : TruncationResult) : Prop where
  same : r.content = content
  described : Described r (splitLinesForCounting content).length
  unlimited : r.truncatedBy ≠ .bytes

/-- The longest head that fits. -/
structure HeadOk (r : TruncationResult) : Prop where
  whole : r.truncated = false → Whole content r
  cut : r.truncated = true → ∃ k,
    Longest (firstLines content) (splitLinesForCounting content).length opts k ∧
      r.content = joinLines (firstLines content k) ∧ r.content <+: content ∧ Described r k ∧
      (r.truncatedBy = .bytes ↔
        NextLeftOut (firstLines content) (splitLinesForCounting content).length opts k)

def LastTooLong (last : Str) : Prop :=
  (splitLinesForCounting content).getLast? = some last ∧ 0 < opts.lines ∧ opts.bytes < Str.len last

/-- The longest tail that fits. -/
structure TailOk (r : TruncationResult) : Prop where
  whole : r.truncated = false → Whole content r
  tooLong : ∀ last, r.truncated = true → LastTooLong content opts last →
    (r.content <:+ last ∧ Str.len r.content ≤ opts.bytes ∧
      ∀ back, back <:+ last → Str.len back ≤ opts.bytes → back <:+ r.content) ∧
    Described r 1 ∧ r.truncatedBy = .bytes
  cut : r.truncated = true → (∀ last, ¬ LastTooLong content opts last) → ∃ k,
    Longest (lastLines content) (splitLinesForCounting content).length opts k ∧
      r.content = joinLines (lastLines content k) ∧
      (r.content <:+ content ∨ r.content ++ ['\n'] <:+ content) ∧ Described r k ∧
      (r.truncatedBy = .bytes ↔
        NextLeftOut (lastLines content) (splitLinesForCounting content).length opts k)

end spec

section proofs

variable {content : Str} {opts : TruncationOptions}

theorem len_firstLines (content : Str) (k : Nat) :
    Str.len (joinLines (firstLines content k)) =
      cost (((splitLinesForCounting content).map Str.len).take k) := by
  rw [len_joinLines, firstLines, map_take]

theorem lastLines_eq (content : Str) (k : Nat) :
    lastLines content k = ((splitLinesForCounting content).reverse.take k).reverse := by
  rw [take_reverse, reverse_reverse, lastLines]

theorem len_lastLines (content : Str) (k : Nat) :
    Str.len (joinLines (lastLines content k)) =
      cost (((splitLinesForCounting content).reverse.map Str.len).take k) := by
  rw [len_joinLines, lastLines_eq, map_reverse, cost_perm (reverse_perm _), map_take]

variable {pick : Nat → List Str} {widths : List Nat} {k : Nat}

theorem longest_of_filled
    (lens : ∀ j, Str.len (joinLines (pick j)) = cost (widths.take j))
    (filled : Filled opts.lines opts.bytes widths k) : Longest pick widths.length opts k where
  __ := filled
  fits := by
    rw [lens]
    exact filled.fits
  longest := by
    intro j inside room fits
    rw [lens] at fits
    exact filled.longest inside room fits

theorem nextLeftOut_iff (lens : ∀ j, Str.len (joinLines (pick j)) = cost (widths.take j))
    (filled : Filled opts.lines opts.bytes widths k) :
    NextLeftOut pick widths.length opts k ↔ k < widths.length ∧ k < opts.lines := by
  refine ⟨fun left => ⟨left.1, left.2.1⟩, fun more => ⟨more.1, more.2, ?_⟩⟩
  rw [lens]
  exact filled.full more.1 more.2

theorem noTrunc_whole (content : Str) (maxLines maxBytes : Nat) :
    Whole content (noTrunc content (splitLinesForCounting content).length (Str.len content)
      maxLines maxBytes) :=
  ⟨rfl, ⟨rfl, rfl⟩, TruncatedBy.noConfusion⟩

theorem firstLines_prefix (content : Str) (k : Nat) :
    joinLines (firstLines content k) <+: content := by
  have front := joinLines_prefix (firstLines content k) ((splitLinesForCounting content).drop k)
  rw [firstLines, take_append_drop] at front
  rcases splitLines_join content with ⟨none, empty⟩ | ⟨_, whole | whole⟩
  · rw [firstLines, none, take_nil]
    exact nil_prefix
  · conv_rhs => rw [whole]
    exact front
  · conv_rhs => rw [whole]
    exact front.trans (prefix_append _ _)

theorem lastLines_suffix (content : Str) (k : Nat) :
    joinLines (lastLines content k) <:+ content ∨
      joinLines (lastLines content k) ++ ['\n'] <:+ content := by
  have back := joinLines_suffix ((splitLinesForCounting content).take
    ((splitLinesForCounting content).length - k)) (lastLines content k)
  rw [lastLines, take_append_drop] at back
  rcases splitLines_join content with ⟨none, empty⟩ | ⟨_, whole | whole⟩
  · rw [lastLines, none, drop_nil]
    exact .inl nil_suffix
  · left
    conv_rhs => rw [whole]
    exact back
  · right
    conv_rhs => rw [whole]
    obtain ⟨front, same⟩ := back
    exact ⟨front, by rw [← append_assoc, lastLines, same]⟩

theorem namesBytes_iff (lines : List Str) (maxLines k : Nat) {maxBytes bytes : Nat}
    (fits : bytes ≤ maxBytes) :
    (if k ≥ maxLines ∧ bytes ≤ maxBytes then TruncatedBy.lines
      else if (if k < maxLines then lines[k]? else none).isSome then TruncatedBy.bytes
      else TruncatedBy.lines) = .bytes ↔ k < lines.length ∧ k < maxLines := by
  by_cases room : k < maxLines
  · have more : ¬ (k ≥ maxLines ∧ bytes ≤ maxBytes) := fun full => absurd room (Nat.not_lt.mpr full.1)
    rw [if_neg more, if_pos room]
    by_cases inside : k < lines.length
    · simp [inside, room]
    · simp [inside]
  · rw [if_pos ⟨Nat.le_of_not_lt room, fits⟩]
    simp [room]

theorem truncateHead_ok_iff :
    HeadOk content opts (truncateHead content opts) ↔
      (opts.lines = 0 → ∀ line, (splitLinesForCounting content).head? = some line →
        Str.len line ≤ opts.bytes) := by
  have lens := len_firstLines content
  have total : ((splitLinesForCounting content).map Str.len).length =
      (splitLinesForCounting content).length := length_map _
  rw [truncateHead]
  dsimp only
  rw [← TruncationOptions.lines, ← TruncationOptions.bytes]
  split
  · next fits =>
    refine iff_of_true ⟨fun _ => noTrunc_whole content _ _, fun cut => ?_⟩ ?_
    · cases cut
    · intro none line first
      have := length_pos_of_mem (mem_of_head? first)
      omega
  · split
    · next long =>
      obtain ⟨first, here, beyond⟩ : ∃ first, (splitLinesForCounting content).head? = some first ∧
          opts.bytes < Str.len first := by
        cases here : (splitLinesForCounting content).head? with
        | none =>
          rw [here] at long
          exact absurd long (Nat.not_lt_zero _)
        | some first =>
          rw [here] at long
          exact ⟨first, rfl, long⟩
      obtain ⟨rest, split⟩ : ∃ rest, splitLinesForCounting content = first :: rest :=
        ⟨_, (cons_head?_tail here).symm⟩
      have filled : Filled opts.lines opts.bytes ((splitLinesForCounting content).map Str.len) 0 := by
        refine ⟨Nat.zero_le _, Nat.zero_le _, Nat.zero_le _, fun _ _ => ?_⟩
        rw [split]
        exact beyond
      have longest := longest_of_filled lens filled
      have next := nextLeftOut_iff lens filled
      rw [total] at longest next
      constructor
      · intro ok none line first
        obtain ⟨k, _, _, _, _, reason⟩ := ok.cut rfl
        have := (reason.mp rfl).2.1
        omega
      · intro room
        have some : 0 < opts.lines := by
          by_contra none
          have := room (Nat.eq_zero_of_not_pos none) first here
          omega
        have lines : 0 < (splitLinesForCounting content).length := by
          rw [split]
          exact Nat.succ_pos _
        constructor
        · exact nofun
        · exact fun _ => ⟨0, longest, rfl, nil_prefix, ⟨rfl, rfl⟩,
            iff_of_true rfl (next.mpr ⟨lines, some⟩)⟩
    · next short =>
      obtain ⟨k, filled, loop⟩ := fillHead_ok opts.lines opts.bytes (splitLinesForCounting content)
      have longest := longest_of_filled lens filled
      have next := nextLeftOut_iff lens filled
      rw [total] at longest next
      have count : ((splitLinesForCounting content).take k).length = k := by
        rw [length_take, ← total, Nat.min_eq_left filled.inside]
      have fits : cost (((splitLinesForCounting content).take k).map Str.len) ≤ opts.bytes := by
        rw [map_take]
        exact filled.fits
      rw [loop]
      dsimp only
      rw [count]
      refine iff_of_true ?_ ?_
      · constructor
        · exact nofun
        · refine fun _ => ⟨k, longest, rfl, firstLines_prefix content k, ⟨rfl, rfl⟩, ?_⟩
          rw [next]
          exact namesBytes_iff _ _ _ fits
      · intro none line first
        have here : (splitLinesForCounting content).head?.map Str.len = some (Str.len line) := by
          rw [first]
          rfl
        rw [here] at short
        exact Nat.le_of_not_lt short

theorem last_le {last : Str} (here : (splitLinesForCounting content).getLast? = some last) :
    Str.len last ≤ Str.len content := by
  obtain ⟨front, split⟩ := getLast?_eq_some_iff.mp here
  have one : lastLines content 1 = [last] := by
    rw [lastLines, split, length_append, length_singleton, Nat.add_sub_cancel, drop_left]
  have back := lastLines_suffix content 1
  rw [one, joinLines_singleton] at back
  rcases back with whole | ended
  · exact width_suffix whole
  · have both : Str.len (last ++ ['\n']) ≤ Str.len content := width_suffix ended
    rw [Str.len, Splice.width_append] at both
    exact Nat.le_of_add_right_le both

theorem cutLastLine_whole {maxLines maxBytes k : Nat}
    (filled : Filled maxLines maxBytes ((splitLinesForCounting content).reverse.map Str.len) k)
    (short : ∀ last, (splitLinesForCounting content).getLast? = some last → 0 < maxLines →
      Str.len last ≤ maxBytes) (bytes limit : Nat) :
    cutLastLine limit (((splitLinesForCounting content).reverse.take k).reverse, bytes,
        if k < maxLines then (splitLinesForCounting content).reverse[k]? else none) =
      (((splitLinesForCounting content).reverse.take k).reverse, bytes, false) := by
  cases left : (if k < maxLines then (splitLinesForCounting content).reverse[k]? else none) with
  | none => rw [cutLastLine]; simp
  | some line =>
    cases out : ((splitLinesForCounting content).reverse.take k).reverse with
    | cons first rest => rw [cutLastLine]; simp
    | nil =>
      exfalso
      obtain ⟨room, inside, here⟩ : ∃ room : k < maxLines, ∃ inside,
          (splitLinesForCounting content).reverse[k] = line := by
        split at left
        · next room => exact ⟨room, List.getElem?_eq_some_iff.mp left⟩
        · cases left
      have first : k = 0 := by
        have empty := congrArg length out
        rw [length_reverse, length_take, length_nil] at empty
        omega
      subst first
      have last : (splitLinesForCounting content).getLast? = some line := by
        rw [← head?_reverse, head?_eq_getElem?, getElem?_eq_getElem inside, here]
      have beyond := filled.full (by rw [length_map]; exact inside) room
      rw [← map_take, take_one, head?_reverse, last] at beyond
      exact absurd (short line last room) (Nat.not_le.mpr beyond)

theorem truncateTail_ok_iff :
    TailOk content opts (truncateTail content opts) ↔
      (opts.lines = 1 → ∀ line, (splitLinesForCounting content).getLast? = some line →
        Str.len line ≤ opts.bytes) := by
  have lens := len_lastLines content
  have total : ((splitLinesForCounting content).reverse.map Str.len).length =
      (splitLinesForCounting content).length := by
    rw [length_map, length_reverse]
  rw [truncateTail]
  dsimp only
  rw [← TruncationOptions.lines, ← TruncationOptions.bytes]
  split
  · next fits =>
    refine iff_of_true ?_ ?_
    · constructor
      · exact fun _ => noTrunc_whole content _ _
      · exact nofun
      · exact nofun
    · exact fun _ line last => (last_le last).trans fits.2
  · obtain ⟨k, filled, loop⟩ :=
      fillTail_ok opts.lines opts.bytes (splitLinesForCounting content).reverse
    have longest := longest_of_filled lens filled
    have next := nextLeftOut_iff lens filled
    rw [total] at longest next
    by_cases long : ∃ last, LastTooLong content opts last
    · obtain ⟨last, here, room, beyond⟩ := long
      have only : ∀ other, LastTooLong content opts other → other = last := fun other long =>
        Option.some.inj (long.1.symm.trans here)
      have first : (splitLinesForCounting content).reverse.take 1 = [last] := by
        rw [take_one, head?_reverse, here]
        rfl
      have none : k = 0 := by
        by_contra some
        have fits := filled.fits
        have least := cost_take_mono ((splitLinesForCounting content).reverse.map Str.len)
          (Nat.one_le_iff_ne_zero.mpr some)
        rw [← map_take, first] at least
        have : Str.len last ≤ opts.bytes := least.trans fits
        omega
      subst none
      have left : (if 0 < opts.lines then (splitLinesForCounting content).reverse[0]? else none) =
          some last := by
        rw [if_pos room, ← head?_eq_getElem?, head?_reverse, here]
      have fits : Str.len (lastFit Char.utf8Size opts.bytes last) ≤ opts.bytes := lastFit_fits last
      rw [loop, left]
      simp only [take_zero, reverse_nil, cutLastLine, truncateBytesFromEnd_eq,
        Option.isSome_some, if_true, length_singleton, joinLines_singleton]
      constructor
      · intro ok one
        have named := (ok.tooLong last rfl ⟨here, room, beyond⟩).2.2
        dsimp only at named
        rw [if_pos ⟨one.le, fits⟩] at named
        cases named
      · intro several
        have more : ¬ (1 ≥ opts.lines ∧
            Str.len (lastFit Char.utf8Size opts.bytes last) ≤ opts.bytes) := by
          rintro ⟨one, _⟩
          have := several (Nat.le_antisymm one room) last here
          omega
        constructor
        · exact nofun
        · intro other _ long
          rw [only other long]
          exact ⟨⟨lastFit_suffix last, fits, fun back => lastFit_longest⟩, ⟨rfl, rfl⟩, if_neg more⟩
        · exact fun _ short => absurd ⟨here, room, beyond⟩ (short last)
    · have short : ∀ last, (splitLinesForCounting content).getLast? = some last → 0 < opts.lines →
          Str.len last ≤ opts.bytes := fun last here room =>
        Nat.le_of_not_lt fun beyond => long ⟨last, here, room, beyond⟩
      have fits : cost (((splitLinesForCounting content).reverse.take k).map Str.len) ≤
          opts.bytes := by
        rw [map_take]
        exact filled.fits
      have count : ((splitLinesForCounting content).reverse.take k).reverse.length = k := by
        rw [length_reverse, length_take, length_reverse, ← total, Nat.min_eq_left filled.inside]
      rw [loop, cutLastLine_whole filled short]
      dsimp only
      rw [count, ← lastLines_eq]
      refine iff_of_true ?_ fun one line last => short line last (by omega)
      constructor
      · exact nofun
      · exact fun last _ tooLong => absurd ⟨last, tooLong⟩ long
      · refine fun _ _ => ⟨k, longest, rfl, lastLines_suffix content k, ⟨rfl, rfl⟩, ?_⟩
        have named := namesBytes_iff (splitLinesForCounting content).reverse opts.lines k fits
        rw [length_reverse] at named
        rw [next]
        exact named

/-- Both ends are as described. -/
theorem truncated_ok_iff (content : Str) (opts : TruncationOptions) :
    HeadOk content opts (truncateHead content opts) ∧
        TailOk content opts (truncateTail content opts) ↔
      (opts.lines = 0 → ∀ line, (splitLinesForCounting content).head? = some line →
        Str.len line ≤ opts.bytes) ∧
      (opts.lines = 1 → ∀ line, (splitLinesForCounting content).getLast? = some line →
        Str.len line ≤ opts.bytes) :=
  and_congr truncateHead_ok_iff truncateTail_ok_iff

/-- The end of a single line is said to be cut by the line limit. -/
theorem cut_line_names_lines :
    ¬ ∀ content opts, HeadOk content opts (truncateHead content opts) ∧
      TailOk content opts (truncateTail content opts) := by
  intro always
  have short := truncateTail_ok_iff.mp (always ['a', 'b'] ⟨some 1, some 1⟩).2 rfl ['a', 'b'] rfl
  exact absurd short (by decide)

example : (truncateTail ['a', 'b'] ⟨some 1, some 1⟩).truncatedBy = .lines := by decide

end proofs

end PiRust.Truncate
