import Mathlib.Data.List.Basic
import Mathlib.Data.List.TakeWhile

/- Patterns matched by backtracking: the first of two alternatives is preferred, and the longest
repetition. What groups took is kept, and a text is cut at its leftmost matches. -/
namespace Regex

open List

variable {α : Type}

/-- Only letters of a class are repeated. -/
inductive Pattern (α : Type)
  | empty
  | one (p : α → Bool)
  | many (p : α → Bool)
  | seq (front back : Pattern α)
  | alt (first second : Pattern α)
  | group (n : Nat) (inner : Pattern α)

abbrev Captures (α : Type) := List (Nat × List α)

structure Match (α : Type) where
  taken : List α
  rest : List α
  groups : Captures α
  deriving DecidableEq

def Match.andThen (first second : Match α) : Match α :=
  ⟨first.taken ++ second.taken, second.rest, first.groups ++ second.groups⟩

def Match.named (n : Nat) (inner : Match α) : Match α :=
  ⟨inner.taken, inner.rest, (n, inner.taken) :: inner.groups⟩

def stops (p : α → Bool) : List α → List (Match α)
  | [] => [⟨[], [], []⟩]
  | x :: text =>
    if p x then ((stops p text).map (Match.andThen ⟨[x], text, []⟩)) ++ [⟨[], x :: text, []⟩]
    else [⟨[], x :: text, []⟩]

def candidates : Pattern α → List α → List (Match α)
  | .empty, text => [⟨[], text, []⟩]
  | .one _, [] => []
  | .one p, x :: text => if p x then [⟨[x], text, []⟩] else []
  | .many p, text => stops p text
  | .seq front back, text =>
    (candidates front text).flatMap fun m => (candidates back m.rest).map m.andThen
  | .alt first second, text => candidates first text ++ candidates second text
  | .group n inner, text => (candidates inner text).map (Match.named n)

def matchAt (pattern : Pattern α) (text : List α) : Option (Match α) :=
  (candidates pattern text).head?

/-- The text cut at its leftmost matches, which share no letter. -/
def cut (pattern : Pattern α) : Nat → List α → List (α ⊕ Captures α)
  | _, [] => []
  | inside + 1, _ :: text => cut pattern inside text
  | 0, x :: text =>
    match matchAt pattern (x :: text) with
    | some m => .inr m.groups :: cut pattern (m.taken.length - 1) text
    | none => .inl x :: cut pattern 0 text

/-- What becomes of the letters and of the matches, or none if a match has no replacement. -/
def replaceParts (pattern : Pattern α) (replacement : Captures α → Option (List α))
    (text : List α) : Option (List (List α)) :=
  (cut pattern 0 text).mapM fun part =>
    match part with
    | .inl x => some [x]
    | .inr groups => replacement groups

def literal [DecidableEq α] : List α → Pattern α
  | [] => .empty
  | x :: word => .seq (.one (· = x)) (literal word)

/-- `p+`. -/
def plus (p : α → Bool) : Pattern α := .seq (.one p) (.many p)

/-- `pattern?`. -/
def atMostOne (pattern : Pattern α) : Pattern α := .alt pattern .empty

attribute [local simp] stops candidates literal cut

theorem andThen_assoc (first second third : Match α) :
    (first.andThen second).andThen third = first.andThen (second.andThen third) := by
  simp [Match.andThen]

theorem split_of_mem_stops {p : α → Bool} {text : List α} {m : Match α}
    (member : m ∈ stops p text) :
    text = m.taken ++ m.rest ∧ m.groups = [] ∧ ∀ x ∈ m.taken, p x = true := by
  induction text generalizing m with
  | nil =>
    rw [stops, mem_singleton] at member
    subst member
    simp
  | cons x text ih =>
    rw [stops] at member
    split at member
    · next inside =>
      rcases mem_append.mp member with longer | here
      · obtain ⟨inner, within, rfl⟩ := mem_map.mp longer
        obtain ⟨split, groups, letters⟩ := ih within
        refine ⟨by rw [split]; rfl, groups, ?_⟩
        intro y taken
        rcases mem_cons.mp taken with rfl | later
        · exact inside
        · exact letters y later
      · rw [mem_singleton] at here
        subst here
        simp
    · rw [mem_singleton] at member
      subst member
      simp

theorem split_of_mem {pattern : Pattern α} {text : List α} {m : Match α}
    (member : m ∈ candidates pattern text) : text = m.taken ++ m.rest := by
  induction pattern generalizing text m with
  | empty =>
    rw [candidates, mem_singleton] at member
    rw [member]
    rfl
  | one p =>
    cases text with
    | nil => cases member
    | cons x text =>
      rw [candidates] at member
      split at member
      · rw [mem_singleton] at member
        rw [member]
        rfl
      · cases member
  | many p => exact (split_of_mem_stops member).1
  | seq front back front_ih back_ih =>
    obtain ⟨first, inside, later⟩ := mem_flatMap.mp member
    obtain ⟨second, behind, rfl⟩ := mem_map.mp later
    rw [front_ih inside, back_ih behind]
    exact (append_assoc _ _ _).symm
  | alt first second first_ih second_ih =>
    rcases mem_append.mp member with inside | inside
    · exact first_ih inside
    · exact second_ih inside
  | group n inner ih =>
    obtain ⟨m, inside, rfl⟩ := mem_map.mp member
    have split := ih inside
    exact split

section sequence

variable {front back : Pattern α} {text : List α} {m : Match α} {later : List (Match α)}

theorem mem_seq : m ∈ candidates (.seq front back) text ↔
    ∃ first ∈ candidates front text, ∃ second ∈ candidates back first.rest,
      first.andThen second = m := by
  simp [candidates, mem_flatMap]

theorem candidates_seq_nil (none : candidates front text = []) :
    candidates (.seq front back) text = [] := by
  rw [candidates, none, flatMap_nil]

theorem candidates_seq (first : candidates front text = m :: later)
    (stuck : ∀ other ∈ later, candidates back other.rest = []) :
    candidates (.seq front back) text = (candidates back m.rest).map m.andThen := by
  have none : (later.flatMap fun m => (candidates back m.rest).map m.andThen) = [] := by
    rw [flatMap_eq_nil_iff]
    intro other member
    rw [stuck other member, map_nil]
  rw [candidates, first, flatMap_cons, none, append_nil]

theorem candidates_seq_assoc (front middle back : Pattern α) (text : List α) :
    candidates (.seq (.seq front middle) back) text =
      candidates (.seq front (.seq middle back)) text := by
  simp only [candidates, flatMap_assoc, flatMap_map, map_flatMap, map_map]
  congr 1
  funext m
  congr 1
  funext second
  congr 1
  funext third
  exact andThen_assoc m second third

theorem candidates_atMostOne_seq (front back : Pattern α) (text : List α) :
    candidates (.seq (atMostOne front) back) text =
      candidates (.seq front back) text ++ candidates back text := by
  have none : candidates (.seq .empty back) text = candidates back text := by
    have first : candidates .empty text = [⟨[], text, []⟩] := rfl
    rw [candidates_seq first (by simp)]
    exact map_id (candidates back text)
  rw [← none]
  exact flatMap_append

end sequence

section literals

variable [DecidableEq α] {word text : List α}

theorem candidates_literal (word rest : List α) :
    candidates (literal word) (word ++ rest) = [⟨word, rest, []⟩] := by
  induction word with
  | nil => rfl
  | cons x word ih =>
    have here : candidates (.one (decide <| · = x)) (x :: (word ++ rest)) =
        [⟨[x], word ++ rest, []⟩] := by
      simp [candidates]
    rw [literal, cons_append, candidates_seq here (by simp), ih]
    rfl

theorem candidates_literal_apart (apart : ¬ word <+: text) : candidates (literal word) text = [] := by
  induction word generalizing text with
  | nil => exact absurd nil_prefix apart
  | cons x word ih =>
    cases text with
    | nil => rfl
    | cons y text =>
      by_cases same : y = x
      · subst same
        have here : candidates (.one (decide <| · = y)) (y :: text) = [⟨[y], text, []⟩] := by
          simp [candidates]
        have later : ¬ word <+: text := fun starts =>
          apart (cons_prefix_cons.mpr ⟨rfl, starts⟩)
        rw [literal, candidates_seq here (by simp), ih later]
        rfl
      · exact candidates_seq_nil (by simp [candidates, same])

theorem mem_literal {m : Match α} (member : m ∈ candidates (literal word) text) :
    text = word ++ m.rest ∧ m = ⟨word, m.rest, []⟩ := by
  by_cases starts : word <+: text
  · obtain ⟨rest, rfl⟩ := starts
    rw [candidates_literal, mem_singleton] at member
    rw [member]
    exact ⟨rfl, rfl⟩
  · rw [candidates_literal_apart starts] at member
    cases member

theorem candidates_literal_seq (word rest : List α) (back : Pattern α) :
    candidates (.seq (literal word) back) (word ++ rest) =
      (candidates back rest).map (Match.andThen ⟨word, rest, []⟩) :=
  candidates_seq (candidates_literal word rest) (by simp)

theorem candidates_literal_seq_apart (apart : ¬ word <+: text) (back : Pattern α) :
    candidates (.seq (literal word) back) text = [] :=
  candidates_seq_nil (candidates_literal_apart apart)

end literals

section classes

variable {p : α → Bool} {word rest : List α}

theorem stops_append (letters : ∀ x ∈ word, p x = true)
    (ends : ∀ x after, rest = x :: after → p x = false) :
    ∃ later, stops p (word ++ rest) = ⟨word, rest, []⟩ :: later ∧
      ∀ other ∈ later, ∃ x after, other.rest = x :: after ∧ p x = true := by
  induction word with
  | nil =>
    refine ⟨[], ?_, by simp⟩
    cases rest with
    | nil => rfl
    | cons x after => rw [nil_append, stops, if_neg (by simp [ends x after rfl])]
  | cons x word ih =>
    obtain ⟨here, inner⟩ := forall_mem_cons.mp letters
    obtain ⟨later, first, others⟩ := ih inner
    refine ⟨later.map (Match.andThen ⟨[x], word ++ rest, []⟩) ++ [⟨[], x :: (word ++ rest), []⟩],
      ?_, fun other member => ?_⟩
    · rw [cons_append, stops, if_pos here, first]
      rfl
    · rcases mem_append.mp member with longer | last
      · obtain ⟨m, within, rfl⟩ := mem_map.mp longer
        exact others m within
      · rw [mem_singleton] at last
        subst last
        exact ⟨x, word ++ rest, rfl, here⟩

theorem plus_append (full : word ≠ []) (letters : ∀ x ∈ word, p x = true)
    (ends : ∀ x after, rest = x :: after → p x = false) :
    ∃ later, candidates (plus p) (word ++ rest) = ⟨word, rest, []⟩ :: later ∧
      ∀ other ∈ later, ∃ x after, other.rest = x :: after ∧ p x = true := by
  obtain ⟨x, word, rfl⟩ := exists_cons_of_ne_nil full
  obtain ⟨here, inner⟩ := forall_mem_cons.mp letters
  obtain ⟨later, first, others⟩ := stops_append inner ends
  have one : candidates (.one p) (x :: (word ++ rest)) = [⟨[x], word ++ rest, []⟩] := by
    rw [candidates, if_pos here]
  refine ⟨later.map (Match.andThen ⟨[x], word ++ rest, []⟩), ?_, fun other member => ?_⟩
  · rw [plus, cons_append, candidates_seq one (by simp), candidates, first]
    rfl
  · obtain ⟨m, within, rfl⟩ := mem_map.mp member
    exact others m within

theorem candidates_plus_nil {text : List α} (ends : ∀ x after, text = x :: after → p x = false) :
    candidates (plus p) text = [] := by
  refine candidates_seq_nil ?_
  cases text with
  | nil => rfl
  | cons x after => rw [candidates, if_neg (by simp [ends x after rfl])]

theorem mem_plus {text : List α} {m : Match α} (member : m ∈ candidates (plus p) text) :
    m.taken ≠ [] ∧ m.groups = [] ∧ ∀ x ∈ m.taken, p x = true := by
  obtain ⟨first, one, second, later, rfl⟩ := mem_seq.mp member
  cases text with
  | nil => cases one
  | cons x after =>
    rw [candidates] at one
    split at one
    · next inside =>
      rw [mem_singleton] at one
      subst one
      obtain ⟨_, groups, letters⟩ := split_of_mem_stops later
      exact ⟨cons_ne_nil _ _, groups, forall_mem_cons.mpr ⟨inside, letters⟩⟩
    · cases one

theorem candidates_group_seq {inner back : Pattern α} {later : List (Match α)} (n : Nat)
    (first : candidates inner (word ++ rest) = ⟨word, rest, []⟩ :: later)
    (others : ∀ other ∈ later, ∃ x after, other.rest = x :: after ∧ p x = true)
    (stuck : ∀ x after, p x = true → candidates back (x :: after) = []) :
    candidates (.seq (.group n inner) back) (word ++ rest) =
      (candidates back rest).map (Match.andThen ⟨word, rest, [(n, word)]⟩) := by
  have named : candidates (.group n inner) (word ++ rest) =
      ⟨word, rest, [(n, word)]⟩ :: later.map (Match.named n) := by
    rw [candidates, first]
    rfl
  refine candidates_seq named fun other member => ?_
  obtain ⟨m, within, rfl⟩ := mem_map.mp member
  obtain ⟨x, after, stops, letter⟩ := others m within
  rw [Match.named, stops, stuck x after letter]

end classes

section cutting

variable {pattern : Pattern α}

theorem cut_inside (inside : Nat) (text : List α) :
    cut pattern inside text = cut pattern 0 (text.drop inside) := by
  induction text generalizing inside with
  | nil => cases inside <;> simp [cut]
  | cons x text ih =>
    cases inside with
    | zero => rfl
    | succ inside => exact ih inside

theorem cut_match {taken rest : List α} {groups : Captures α} (full : taken ≠ [])
    (found : matchAt pattern (taken ++ rest) = some ⟨taken, rest, groups⟩) :
    cut pattern 0 (taken ++ rest) = .inr groups :: cut pattern 0 rest := by
  obtain ⟨x, taken, rfl⟩ := exists_cons_of_ne_nil full
  rw [cons_append] at found ⊢
  rw [cut, found]
  simp only
  rw [cut_inside, length_cons, Nat.add_sub_cancel, drop_left]

theorem cut_pass {x : α} {text : List α} (unmatched : matchAt pattern (x :: text) = none) :
    cut pattern 0 (x :: text) = .inl x :: cut pattern 0 text := by
  rw [cut, unmatched]

end cutting

end Regex
