import PiRust.Utf8Boundaries

/- `tools/truncate.rs`. -/
namespace PiRust.Truncate

open EditTool Fitting List

def defaultMaxLines : Nat := 2000

def defaultMaxBytes : Nat := 50 * 1024

inductive TruncatedBy
  | lines
  | bytes
  | none
  deriving DecidableEq

structure TruncationOptions where
  maxLines : Option Nat
  maxBytes : Option Nat

structure TruncationResult where
  content : Str
  truncated : Bool
  truncatedBy : TruncatedBy
  totalLines : Nat
  totalBytes : Nat
  outputLines : Nat
  outputBytes : Nat
  lastLinePartial : Bool
  firstLineExceedsLimit : Bool
  maxLines : Nat
  maxBytes : Nat

def splitLinesForCounting (content : Str) : List Str :=
  if content.isEmpty then []
  else if content.getLast? = some '\n' then (splitChar '\n' content).dropLast
  else splitChar '\n' content

def noTrunc (content : Str) (lines bytes maxLines maxBytes : Nat) : TruncationResult where
  content := content
  truncated := false
  truncatedBy := .none
  totalLines := lines
  totalBytes := bytes
  outputLines := lines
  outputBytes := bytes
  lastLinePartial := false
  firstLineExceedsLimit := false
  maxLines := maxLines
  maxBytes := maxBytes

/-- The loop over the lines, with what it has put out and its bytes. It ends with the line that
the byte limit leaves out. -/
def fillLines (put : Str → List Str → List Str) (maxLines maxBytes : Nat) :
    List Str → Nat → List Str → List Str × Nat × Option Str
  | out, bytesCount, [] => (out, bytesCount, none)
  | out, bytesCount, line :: rest =>
    if out.length ≥ maxLines then (out, bytesCount, none)
    else
      let lineBytes := Str.len line + if out.isEmpty then 0 else 1
      if bytesCount + lineBytes > maxBytes then (out, bytesCount, some line)
      else fillLines put maxLines maxBytes (put line out) (bytesCount + lineBytes) rest

def truncateHead (content : Str) (opts : TruncationOptions) : TruncationResult :=
  let maxLines := opts.maxLines.getD defaultMaxLines
  let maxBytes := opts.maxBytes.getD defaultMaxBytes
  let totalBytes := Str.len content
  let lines := splitLinesForCounting content
  let totalLines := lines.length
  if totalLines ≤ maxLines ∧ totalBytes ≤ maxBytes then
    noTrunc content totalLines totalBytes maxLines maxBytes
  else if (lines.head?.map Str.len).getD 0 > maxBytes then
    { content := []
      truncated := true
      truncatedBy := .bytes
      totalLines := totalLines
      totalBytes := totalBytes
      outputLines := 0
      outputBytes := 0
      lastLinePartial := false
      firstLineExceedsLimit := true
      maxLines := maxLines
      maxBytes := maxBytes }
  else
    let (out, bytesCount, left) :=
      fillLines (fun line out => out ++ [line]) maxLines maxBytes [] 0 lines
    { content := joinLines out
      truncated := true
      truncatedBy :=
        if out.length ≥ maxLines ∧ bytesCount ≤ maxBytes then .lines
        else if left.isSome then .bytes else .lines
      totalLines := totalLines
      totalBytes := totalBytes
      outputLines := out.length
      outputBytes := Str.len (joinLines out)
      lastLinePartial := false
      firstLineExceedsLimit := false
      maxLines := maxLines
      maxBytes := maxBytes }

def truncateBytesFromEnd (s : Str) (maxBytes : Nat) : Str :=
  if Str.len s ≤ maxBytes then s
  else
    (fromUtf8Lossy ((s.asBytes.drop (Str.len s - maxBytes)).dropWhile isContinuation)).toList

/-- A line that is left out although nothing was put out before it is put out in part. -/
def cutLastLine (maxBytes : Nat) : List Str × Nat × Option Str → List Str × Nat × Bool
  | ([], _, some line) =>
    let t := truncateBytesFromEnd line maxBytes
    ([t], Str.len t, true)
  | (out, bytesCount, _) => (out, bytesCount, false)

def truncateTail (content : Str) (opts : TruncationOptions) : TruncationResult :=
  let maxLines := opts.maxLines.getD defaultMaxLines
  let maxBytes := opts.maxBytes.getD defaultMaxBytes
  let totalBytes := Str.len content
  let lines := splitLinesForCounting content
  let totalLines := lines.length
  if totalLines ≤ maxLines ∧ totalBytes ≤ maxBytes then
    noTrunc content totalLines totalBytes maxLines maxBytes
  else
    let filled := fillLines cons maxLines maxBytes [] 0 lines.reverse
    let (out, bytesCount, lastLinePartial) := cutLastLine maxBytes filled
    { content := joinLines out
      truncated := true
      truncatedBy :=
        if out.length ≥ maxLines ∧ bytesCount ≤ maxBytes then .lines
        else if filled.2.2.isSome then .bytes else .lines
      totalLines := totalLines
      totalBytes := totalBytes
      outputLines := out.length
      outputBytes := Str.len (joinLines out)
      lastLinePartial := lastLinePartial
      firstLineExceedsLimit := false
      maxLines := maxLines
      maxBytes := maxBytes }

theorem truncateBytesFromEnd_eq (s : Str) (maxBytes : Nat) :
    truncateBytesFromEnd s maxBytes = lastFit Char.utf8Size maxBytes s := by
  rw [truncateBytesFromEnd]
  split
  · next fits => exact (lastFit_all fits).symm
  · next cut => rw [asBytes_lastFit (Nat.lt_of_not_le cut), fromUtf8Lossy_asBytes]

section lines

variable {content : Str}

theorem joinLines_singleton (line : Str) : joinLines [line] = line := by
  rw [joinLines, Splice.intercalate_cons]
  exact append_nil line

theorem joinLines_prefix (front back : List Str) :
    joinLines front <+: joinLines (front ++ back) := by
  cases front with
  | nil => exact nil_prefix
  | cons line front =>
    rw [joinLines, joinLines, cons_append, Splice.intercalate_cons, Splice.intercalate_cons,
      Splice.behind_append, ← append_assoc]
    exact prefix_append _ _

theorem joinLines_suffix (front back : List Str) :
    joinLines back <:+ joinLines (front ++ back) := by
  cases back with
  | nil => exact nil_suffix
  | cons line back =>
    cases front with
    | nil => exact suffix_rfl
    | cons first front =>
      rw [joinLines, joinLines, cons_append, Splice.intercalate_cons,
        Splice.intercalate_cons, Splice.behind_append, Splice.behind_cons, append_cons,
        ← append_assoc]
      exact suffix_append _ _

theorem joinLines_concat (front : List Str) (last : Str) :
    joinLines (front ++ [last]) = (front.map (· ++ ['\n'])).flatten ++ last := by
  induction front with
  | nil => simp [joinLines]
  | cons line front ih =>
    rw [joinLines] at ih ⊢
    rw [cons_append, intercalate_cons_of_ne_nil (by simp), ih]
    simp

theorem joinLines_splitChar (content : Str) : joinLines (splitChar '\n' content) = content := by
  rw [splitChar, joinLines_concat, Framing.pieces_flatten]

theorem splitChar_clear (content : Str) : ∀ line ∈ splitChar '\n' content, '\n' ∉ line := by
  intro line inside
  rcases mem_append.mp inside with piece | last
  · exact Framing.pieces_clear '\n' content line piece
  · obtain ⟨_, _, _, whole⟩ := Framing.pieces_split '\n' content
    rw [mem_singleton.mp last]
    exact whole

theorem splitChar_joinLines {lines : List Str} (nonempty : lines ≠ []) (clear : ∀ line ∈ lines, '\n' ∉ line) :
    splitChar '\n' (joinLines lines) = lines := by
  induction lines with
  | nil => exact absurd rfl nonempty
  | cons line rest ih =>
    have here : '\n' ∉ line := clear line mem_cons_self
    cases rest with
    | nil => rw [joinLines_singleton, splitChar, Framing.pieces_whole '\n' here, nil_append]
    | cons next rest =>
      have later := ih (cons_ne_nil next rest)
        fun line inside => clear line (mem_cons_of_mem _ inside)
      have split : joinLines (line :: next :: rest) = line ++ '\n' :: joinLines (next :: rest) := by
        rw [joinLines, joinLines, intercalate_cons_of_ne_nil (cons_ne_nil next rest)]
        simp
      rw [split, splitChar, Framing.pieces_piece '\n' here, cons_append, ← splitChar, later]

theorem len_joinLines (lines : List Str) : Str.len (joinLines lines) = cost (lines.map Str.len) :=
  width_intercalate (by decide) lines

theorem splitLines_join (content : Str) :
    splitLinesForCounting content = [] ∧ content = [] ∨
      splitLinesForCounting content ≠ [] ∧
        (content = joinLines (splitLinesForCounting content) ∨
          content = joinLines (splitLinesForCounting content) ++ ['\n']) := by
  rw [splitLinesForCounting]
  split
  · next empty => exact .inl ⟨rfl, isEmpty_iff.mp empty⟩
  · next some =>
    right
    split
    · next ended =>
      obtain ⟨text, split⟩ := getLast?_eq_some_iff.mp ended
      have whole := Framing.pieces_flatten '\n' content
      have rest : (Framing.pieces '\n' content).2 = [] := by
        rw [split]
        exact Framing.pieces_ended '\n' text
      rw [rest, append_nil] at whole
      have lines : (Framing.pieces '\n' content).1 ≠ [] := by
        intro none
        rw [none] at whole
        exact some (isEmpty_iff.mpr whole.symm)
      rw [splitChar, dropLast_concat]
      refine ⟨lines, .inr ?_⟩
      obtain ⟨front, last, split⟩ := (eq_nil_or_concat' _).resolve_left lines
      rw [split] at whole ⊢
      rw [joinLines_concat, ← whole]
      simp
    · refine ⟨by simp [splitChar], .inl ?_⟩
      rw [joinLines_splitChar]

section filling

variable {put : Str → List Str → List Str}

def gather (put : Str → List Str → List Str) (lines : List Str) : List Str :=
  lines.foldl (fun out line => put line out) []

theorem gather_concat (lines : List Str) (line : Str) :
    gather put (lines ++ [line]) = put line (gather put lines) := by
  rw [gather, foldl_append]
  rfl

theorem gather_append (lines : List Str) : gather (fun line out => out ++ [line]) lines = lines := by
  induction lines using reverseRecOn with
  | nil => rfl
  | append_singleton lines line ih => rw [gather_concat, ih]

theorem gather_cons (lines : List Str) : gather cons lines = lines.reverse := by
  induction lines using reverseRecOn with
  | nil => rfl
  | append_singleton lines line ih => rw [gather_concat, ih, reverse_append]; rfl

theorem fillLines_ok {maxLines maxBytes : Nat}
    (counts : ∀ lines, (gather put lines).length = lines.length) (seen rest : List Str) (room : seen.length ≤ maxLines)
    (fits : cost (seen.map Str.len) ≤ maxBytes) :
    ∃ k, Filled maxLines maxBytes ((seen ++ rest).map Str.len) k ∧
      fillLines put maxLines maxBytes (gather put seen) (cost (seen.map Str.len)) rest =
        (gather put ((seen ++ rest).take k), cost (((seen ++ rest).take k).map Str.len),
          if k < maxLines then (seen ++ rest)[k]? else none) := by
  induction rest generalizing seen with
  | nil =>
    have whole : cost (((seen ++ []).map Str.len).take seen.length) ≤ maxBytes := by
      rw [append_nil, ← map_take, take_length]
      exact fits
    refine ⟨seen.length, ⟨by simp, room, whole, by simp⟩, ?_⟩
    rw [append_nil, take_length, fillLines, getElem?_eq_none (Nat.le_refl _),
      ite_self]
  | cons line rest ih =>
    have whole : (seen ++ line :: rest).take seen.length = seen := take_left
    have emptied : (gather put seen).isEmpty = seen.isEmpty := by
      rw [Bool.eq_iff_iff, isEmpty_iff_length_eq_zero, counts, isEmpty_iff_length_eq_zero]
    have next : cost ((seen ++ [line]).map Str.len) = cost (seen.map Str.len) +
        (Str.len line + if seen.isEmpty then 0 else 1) := by
      rw [map_append, map_singleton, cost_concat]
      simp [List.isEmpty_iff]
    rw [fillLines, counts, emptied]
    split
    · next full =>
      have same : seen.length = maxLines := Nat.le_antisymm room full
      refine ⟨seen.length, ⟨by simp, room, ?_, fun _ more => absurd more (by omega)⟩, ?_⟩
      · rw [← map_take, whole]
        exact fits
      · rw [whole, if_neg (by omega)]
    · next more =>
      have more : seen.length < maxLines := Nat.lt_of_not_le more
      dsimp only
      rw [← next]
      split
      · next beyond =>
        refine ⟨seen.length, ⟨by simp, room, ?_, fun _ _ => ?_⟩, ?_⟩
        · rw [← map_take, whole]
          exact fits
        · have first : (seen ++ line :: rest).take (seen.length + 1) = seen ++ [line] := by
            rw [append_cons]
            exact take_left' (by simp)
          rw [← map_take, first]
          exact beyond
        · rw [whole, if_pos more, getElem?_append_right (Nat.le_refl _), Nat.sub_self]
          rfl
      · next below =>
        have later := ih (seen ++ [line]) (by
          rw [length_append, length_singleton]
          exact more) (Nat.le_of_not_lt below)
        rw [← append_cons, gather_concat] at later
        exact later

theorem fillHead_ok (maxLines maxBytes : Nat) (lines : List Str) :
    ∃ k, Filled maxLines maxBytes (lines.map Str.len) k ∧
      fillLines (fun line out => out ++ [line]) maxLines maxBytes [] 0 lines =
        (lines.take k, cost ((lines.take k).map Str.len),
          if k < maxLines then lines[k]? else none) := by
  have loop := fillLines_ok (fun lines => by rw [gather_append]) [] lines (Nat.zero_le maxLines)
    (Nat.zero_le maxBytes)
  simp only [gather_append] at loop
  exact loop

theorem fillTail_ok (maxLines maxBytes : Nat) (lines : List Str) :
    ∃ k, Filled maxLines maxBytes (lines.map Str.len) k ∧
      fillLines cons maxLines maxBytes [] 0 lines =
        ((lines.take k).reverse, cost ((lines.take k).map Str.len),
          if k < maxLines then lines[k]? else none) := by
  have loop := fillLines_ok (fun lines => by rw [gather_cons, length_reverse]) [] lines
    (Nat.zero_le maxLines) (Nat.zero_le maxBytes)
  simp only [gather_cons] at loop
  exact loop

end filling

end lines

end PiRust.Truncate
