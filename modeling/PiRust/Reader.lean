import Mathlib.Data.List.ReduceOption

/- Values read from the front of a buffer to which chunks are still appended.
Nothing here depends on what the letters mean. -/
namespace Reader

open List

variable {α β ε φ : Type}

/-- What a buffer starts with: an error, no whole value yet, or a value and the
letters after it. -/
abbrev Next (α β ε : Type) := List α → Except ε (Option (β × List α))

inductive Call (α : Type) where
  | push (chunk : List α)
  | next

def pushed : List (Call α) → List α
  | [] => []
  | .push chunk :: calls => chunk ++ pushed calls
  | .next :: calls => pushed calls

/-- What one `next` answers, and the buffer after it. -/
def answer (next : Next α β ε) (buffer : List α) : Except ε (Option β) × List α :=
  match next buffer with
  | .error reason => (.error reason, buffer)
  | .ok none => (.ok none, buffer)
  | .ok (some (value, rest)) => (.ok (some value), rest)

/-- The answers of the calls in order, and the buffer after them. -/
def run (next : Next α β ε) : List α → List (Call α) → List (Except ε (Option β)) × List α
  | buffer, [] => ([], buffer)
  | buffer, .push chunk :: calls => run next (buffer ++ chunk) calls
  | buffer, .next :: calls =>
    let later := run next (answer next buffer).2 calls
    ((answer next buffer).1 :: later.1, later.2)

/-- `next` reads what `encode` writes, and nothing before it is written whole. -/
structure Reads (next : Next α β ε) (encode : φ → List α) (value : φ → β) : Prop where
  nothing : next [] = .ok none
  whole : ∀ frame tail, next (encode frame ++ tail) = .ok (some (value frame, tail))
  part : ∀ frame front, front <+: encode frame → front ≠ encode frame → next front = .ok none

variable {next : Next α β ε} {encode : φ → List α} {value : φ → β}

theorem Reads.answer (reads : Reads next encode value) {buffer later : List α}
    {frames : List φ} (complete : buffer ++ later = frames.flatMap encode) :
    (Reader.answer next buffer = (.ok none, buffer)) ∨
      ∃ frame rest tail, frames = frame :: rest ∧
        Reader.answer next buffer = (.ok (some (value frame)), tail) ∧
        tail ++ later = rest.flatMap encode := by
  cases frames with
  | nil =>
    have empty : buffer = [] := (append_eq_nil_iff.mp complete).1
    left
    simp [Reader.answer, empty, reads.nothing]
  | cons frame rest =>
    rw [flatMap_cons] at complete
    rcases append_eq_append_iff.mp complete with ⟨missing, first, _⟩ | ⟨tail, first, after⟩
    · by_cases same : buffer = encode frame
      · right
        have none_missing : missing = [] := by
          rw [same] at first
          exact self_eq_append_right.mp first
        refine ⟨frame, rest, [], rfl, ?_, ?_⟩
        · have read := reads.whole frame []
          rw [append_nil] at read
          simp [Reader.answer, same, read]
        · rw [same] at complete
          exact append_cancel_left complete
      · left
        have read := reads.part frame buffer ⟨missing, first.symm⟩ same
        simp [Reader.answer, read]
    · right
      refine ⟨frame, rest, tail, rfl, ?_, after.symm⟩
      simp [Reader.answer, first, reads.whole]

theorem Reads.run (reads : Reads next encode value) (calls : List (Call α)) {buffer : List α}
    {frames : List φ} (complete : buffer ++ pushed calls = frames.flatMap encode) :
    ∃ (read left : List φ) (answers : List (Option β)), frames = read ++ left ∧
      (Reader.run next buffer calls).1 = answers.map .ok ∧
      answers.reduceOption = read.map value ∧
      (Reader.run next buffer calls).2 = left.flatMap encode := by
  induction calls generalizing buffer frames with
  | nil =>
    rw [pushed, append_nil] at complete
    exact ⟨[], frames, [], rfl, rfl, rfl, complete⟩
  | cons call calls ih =>
    cases call with
    | push chunk =>
      rw [pushed, ← append_assoc] at complete
      exact ih complete
    | next =>
      rw [pushed] at complete
      rcases reads.answer complete with waits | ⟨frame, rest, tail, first, read, after⟩
      · obtain ⟨read, left, answers, split, said, values, kept⟩ := ih complete
        refine ⟨read, left, none :: answers, split, ?_, values, ?_⟩
        · simp [Reader.run, waits, said]
        · simp [Reader.run, waits, kept]
      · obtain ⟨done, left, answers, split, said, values, kept⟩ := ih after
        refine ⟨frame :: done, left, some (value frame) :: answers, ?_, ?_, ?_, ?_⟩
        · rw [first, split, cons_append]
        · simp [Reader.run, read, said]
        · rw [reduceOption_cons_of_some, values, map_cons]
        · simp [Reader.run, read, kept]

/-- `next` called until it has no value, which is the last answer. -/
def Ends (next : Next α β ε) (buffer : List α) (values : List β) (last : Except ε (Option β))
    (after : List α) : Prop :=
  run next buffer (replicate (values.length + 1) .next) =
      (values.map (.ok ∘ some) ++ [last], after) ∧
    ∀ value, last ≠ .ok (some value)

theorem Reads.ends (reads : Reads next encode value) (frames : List φ) :
    Ends next (frames.flatMap encode) (frames.map value) (.ok none) [] := by
  refine ⟨?_, fun value => nofun⟩
  induction frames with
  | nil =>
    simp [Reader.run, Reader.answer, reads.nothing]
  | cons frame rest ih =>
    rw [flatMap_cons, map_cons, length_cons, replicate_succ]
    simp only [Reader.run, Reader.answer, reads.whole, ih, map_cons, cons_append,
      Function.comp_apply]

theorem exists_ends {size : Nat} (positive : 0 < size)
    (takes : ∀ {buffer value rest}, next buffer = .ok (some (value, rest)) →
      rest.length + size ≤ buffer.length) (buffer : List α) :
    ∃ values last after, values.length ≤ buffer.length / size ∧
      Ends next buffer values last after := by
  cases found : next buffer with
  | error reason =>
    refine ⟨[], .error reason, buffer, Nat.zero_le _, ?_, fun value => nofun⟩
    simp [Reader.run, Reader.answer, found]
  | ok result =>
    cases result with
    | none =>
      refine ⟨[], .ok none, buffer, Nat.zero_le _, ?_, fun value => nofun⟩
      simp [Reader.run, Reader.answer, found]
    | some pair =>
      obtain ⟨value, rest⟩ := pair
      have shorter := takes found
      obtain ⟨values, last, after, few, reached, stops⟩ := exists_ends positive takes rest
      refine ⟨value :: values, last, after, ?_, ?_, stops⟩
      · rw [length_cons]
        calc values.length + 1 ≤ rest.length / size + 1 := Nat.succ_le_succ few
          _ = (rest.length + size) / size := (Nat.add_div_right _ positive).symm
          _ ≤ buffer.length / size := Nat.div_le_div_right shorter
      · rw [length_cons, replicate_succ]
        simp [Reader.run, Reader.answer, found, reached]
termination_by buffer.length

end Reader
