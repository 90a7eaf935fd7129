import Mathlib.Data.List.Basic

/- Cutting a stream at a separator. Nothing here depends on what the pieces
mean; a reader that keeps the unfinished piece between two reads sees the
pieces of the whole stream. -/
namespace Framing

open List

variable {α : Type} [DecidableEq α] (sep : α)

/-- The stream up to and including its first separator, and what follows it. -/
def cut : List α → Option (List α × List α)
  | [] => none
  | x :: xs =>
    if x = sep then some ([x], xs)
    else (cut xs).map fun pair => (x :: pair.1, pair.2)

/-- All finished pieces, separators removed, and the unfinished remainder. -/
def pieces : List α → List (List α) × List α
  | [] => ([], [])
  | x :: xs =>
    if x = sep then ([] :: (pieces xs).1, (pieces xs).2)
    else match (pieces xs).1 with
      | [] => ([], x :: (pieces xs).2)
      | piece :: rest => ((x :: piece) :: rest, (pieces xs).2)

attribute [local simp] cut pieces

@[simp] theorem pieces_nil : pieces sep [] = ([], []) := rfl

theorem pieces_sep (xs : List α) :
    pieces sep (sep :: xs) = ([] :: (pieces sep xs).1, (pieces sep xs).2) := by
  simp [pieces]

variable {xs : List α}
variable {front back piece : List α}

theorem cut_length (found : cut sep xs = some (front, back)) : back.length < xs.length := by
  induction xs generalizing front back with
  | nil => cases found
  | cons x xs ih =>
    unfold cut at found
    split at found
    · cases found
      simp
    · obtain ⟨⟨inner, rest⟩, reached, same⟩ := Option.map_eq_some_iff.mp found
      cases same
      have shorter := ih reached
      simp only [length_cons]
      omega

theorem cut_none (absent : cut sep xs = none) : pieces sep xs = ([], xs) := by
  induction xs with
  | nil => rfl
  | cons x xs ih =>
    unfold cut at absent
    split at absent
    · cases absent
    · rename_i other
      have rest := ih (Option.map_eq_none_iff.mp absent)
      simp [pieces, other, rest]

theorem cut_some (found : cut sep xs = some (front, back)) :
    ∃ piece, front = piece ++ [sep] ∧
      pieces sep xs = (piece :: (pieces sep back).1, (pieces sep back).2) := by
  induction xs generalizing front back with
  | nil => cases found
  | cons x xs ih =>
    unfold cut at found
    split at found
    · rename_i same
      cases found
      exact ⟨[], by rw [same]; rfl, by rw [same]; exact pieces_sep sep xs⟩
    · rename_i other
      obtain ⟨⟨inner, rest⟩, reached, same⟩ := Option.map_eq_some_iff.mp found
      cases same
      obtain ⟨piece, ends, tail⟩ := ih reached
      exact ⟨x :: piece, by simp [ends],
        by simp [pieces, other, tail]⟩

theorem pieces_append (xs ys : List α) :
    pieces sep (xs ++ ys) =
      ((pieces sep xs).1 ++ (pieces sep ((pieces sep xs).2 ++ ys)).1,
        (pieces sep ((pieces sep xs).2 ++ ys)).2) := by
  induction xs with
  | nil => simp
  | cons x xs ih =>
    by_cases same : x = sep
    · subst same
      simp [ih]
    · cases finished : (pieces sep xs).1 with
      | nil =>
        rw [finished, nil_append] at ih
        simp [pieces, same, ih, finished]
      | cons piece rest =>
        rw [finished] at ih
        simp [pieces, same, ih, finished]

theorem pieces_unfinished (unfinished : (pieces sep xs).1 = []) : pieces sep xs = ([], xs) := by
  apply cut_none
  cases found : cut sep xs with
  | none => rfl
  | some pair =>
    obtain ⟨piece, _, same⟩ := cut_some sep found
    rw [same] at unfinished
    cases unfinished

theorem pieces_remainder (xs : List α) :
    pieces sep (pieces sep xs).2 = ([], (pieces sep xs).2) := by
  apply pieces_unfinished
  have again := congrArg (fun pair => pair.1.length) (pieces_append sep xs [])
  simp only [append_nil, length_append] at again
  exact length_eq_zero_iff.mp (by omega)

theorem pieces_split (xs : List α) :
    ∃ front, xs = front ++ (pieces sep xs).2 ∧ (pieces sep front).2 = [] ∧
      sep ∉ (pieces sep xs).2 := by
  induction xs with
  | nil => exact ⟨[], rfl, rfl, not_mem_nil⟩
  | cons x xs ih =>
    obtain ⟨front, split, ended, whole⟩ := ih
    by_cases same : x = sep
    · subst same
      refine ⟨x :: front, ?_, ?_, ?_⟩
      · rw [pieces_sep, cons_append, ← split]
      · rw [pieces_sep]
        exact ended
      · rw [pieces_sep]
        exact whole
    · cases finished : (pieces sep xs).1 with
      | nil =>
        have rest := pieces_unfinished sep finished
        rw [rest] at whole
        have alone : pieces sep (x :: xs) = ([], x :: xs) := by
          simp [pieces, same, rest]
        rw [alone]
        refine ⟨[], rfl, rfl, fun inside => ?_⟩
        rcases mem_cons.mp inside with first | later
        · exact same first.symm
        · exact whole later
      | cons piece rest =>
        have after : (pieces sep (x :: xs)).2 = (pieces sep xs).2 := by
          simp [pieces, same, finished]
        rw [after]
        refine ⟨x :: front, by rw [cons_append, ← split], ?_, whole⟩
        have pieced : (pieces sep front).1 = piece :: rest := by
          have joined := congrArg Prod.fst (pieces_append sep front (pieces sep xs).2)
          rw [← split, finished, ended, nil_append, pieces_remainder, append_nil] at joined
          exact joined.symm
        simp [pieces, same, pieced, ended]

theorem pieces_flatten (xs : List α) :
    ((pieces sep xs).1.map (· ++ [sep])).flatten ++ (pieces sep xs).2 = xs := by
  induction xs with
  | nil => rfl
  | cons x xs ih =>
    by_cases same : x = sep
    · subst same
      rw [pieces_sep, map_cons, flatten_cons, append_assoc, ih]
      rfl
    · rw [pieces, if_neg same]
      cases finished : (pieces sep xs).1 with
      | nil =>
        rw [finished] at ih
        exact congrArg (x :: ·) ih
      | cons piece rest =>
        rw [finished] at ih
        exact congrArg (x :: ·) ih

theorem pieces_clear (xs : List α) : ∀ piece ∈ (pieces sep xs).1, sep ∉ piece := by
  induction xs with
  | nil => exact nofun
  | cons x xs ih =>
    by_cases same : x = sep
    · subst same
      rw [pieces_sep]
      intro piece inside
      rcases mem_cons.mp inside with rfl | later
      · exact not_mem_nil
      · exact ih piece later
    · rw [pieces, if_neg same]
      cases finished : (pieces sep xs).1 with
      | nil => exact nofun
      | cons first rest =>
        rw [finished] at ih
        intro piece inside
        rcases mem_cons.mp inside with rfl | later
        · intro holds
          rcases mem_cons.mp holds with here | behind
          · exact same here.symm
          · exact ih first mem_cons_self behind
        · exact ih piece (mem_cons_of_mem first later)

theorem pieces_piece (whole : sep ∉ piece) (rest : List α) :
    pieces sep (piece ++ sep :: rest) = (piece :: (pieces sep rest).1, (pieces sep rest).2) := by
  induction piece with
  | nil => exact pieces_sep sep rest
  | cons x piece ih =>
    have other : x ≠ sep := fun same => whole (by simp [same])
    have later := ih fun inside => whole (mem_cons_of_mem x inside)
    simp [pieces, other, later]

theorem pieces_whole (whole : sep ∉ piece) : pieces sep piece = ([], piece) := by
  induction piece with
  | nil => rfl
  | cons x piece ih =>
    have other : x ≠ sep := fun same => whole (by simp [same])
    have later := ih fun inside => whole (mem_cons_of_mem x inside)
    simp [pieces, other, later]

theorem pieces_joined (xs ys : List α) :
    pieces sep (xs ++ sep :: ys) =
      ((pieces sep xs).1 ++ (pieces sep xs).2 :: (pieces sep ys).1, (pieces sep ys).2) := by
  obtain ⟨_, _, _, whole⟩ := pieces_split sep xs
  rw [pieces_append, pieces_piece sep whole]

theorem pieces_ended (xs : List α) : (pieces sep (xs ++ [sep])).2 = [] := by
  have ended : (pieces sep (xs ++ [sep])).1 ≠ [] ∧ (pieces sep (xs ++ [sep])).2 = [] := by
    induction xs with
    | nil => simp
    | cons x xs ih =>
      by_cases same : x = sep
      · subst same
        simp [ih.2]
      · obtain ⟨piece, rest, finished⟩ := exists_cons_of_ne_nil ih.1
        simp only [cons_append, pieces, same, ↓reduceIte, finished]
        exact ⟨nofun, ih.2⟩
  exact ended.2

/-- The pieces that each read finishes, with the remainder carried over. -/
def reads : List α → List (List α) → List (List (List α)) × List α
  | carried, [] => ([], carried)
  | carried, chunk :: chunks =>
    let here := pieces sep (carried ++ chunk)
    let later := reads here.2 chunks
    (here.1 :: later.1, later.2)

theorem reads_flatten (chunks : List (List α)) (carried : List α)
    (unfinished : pieces sep carried = ([], carried)) :
    ((reads sep carried chunks).1.flatten, (reads sep carried chunks).2) =
      pieces sep (carried ++ chunks.flatten) := by
  induction chunks generalizing carried with
  | nil => simp [reads, unfinished]
  | cons chunk chunks ih =>
    have later := ih (pieces sep (carried ++ chunk)).2 (pieces_remainder sep _)
    simp only [Prod.ext_iff] at later
    rw [flatten_cons, ← append_assoc, pieces_append sep (carried ++ chunk)]
    simp [reads, later.1, later.2]

end Framing
