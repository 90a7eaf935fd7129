import Mathlib.Data.List.Basic

/- The elements that a partial function selects from a list, and edits of the
list at a position. -/
namespace Selection

open List

variable {α β : Type} (f : α → Option β)

/-- Which positions are selected. Edits that keep selected elements selected
leave it alone. -/
def shape (xs : List α) : List Bool := xs.map fun x => (f x).isSome

/-- Position `p` holds the selected element number `n`. -/
def IsAt (xs : List α) (n p : Nat) : Prop :=
  (shape f xs)[p]? = some true ∧ ((shape f xs).take p).count true = n

theorem shape_append (xs ys : List α) : shape f (xs ++ ys) = shape f xs ++ shape f ys := by
  simp [shape]

theorem shape_modify (xs : List α) (p : Nat) (g : α → α)
    (kept : ∀ x, (f (g x)).isSome = (f x).isSome) : shape f (xs.modify p g) = shape f xs := by
  induction xs generalizing p with
  | nil => rw [modify_nil]
  | cons x xs ih =>
    cases p with
    | zero => simp [shape, kept]
    | succ p =>
      have rest := ih p
      simp only [shape] at rest
      simp [shape, rest]

theorem count_shape (xs : List α) : (shape f xs).count true = (xs.filterMap f).length := by
  induction xs with
  | nil => rfl
  | cons x xs ih =>
    simp only [shape] at ih
    cases found : f x with
    | none => simp [shape, found, ih]
    | some value => simp [shape, found, ih]

variable {xs : List α} {n p : Nat}

theorem isAt_modify (at_p : IsAt f xs n p) (q : Nat) (g : α → α)
    (kept : ∀ x, (f (g x)).isSome = (f x).isSome) : IsAt f (xs.modify q g) n p := by
  unfold IsAt
  rw [shape_modify f xs q g kept]
  exact at_p

theorem isAt_append (at_p : IsAt f xs n p) (ys : List α) : IsAt f (xs ++ ys) n p := by
  have inside : p < (shape f xs).length := (List.getElem?_eq_some_iff.mp at_p.1).choose
  unfold IsAt
  rw [shape_append, getElem?_append_left inside,
    take_append_of_le_length (Nat.le_of_lt inside)]
  exact at_p

theorem isAt_push (xs : List α) {x : α} (selected : (f x).isSome) :
    IsAt f (xs ++ [x]) (xs.filterMap f).length xs.length := by
  have size : (shape f xs).length = xs.length := by simp [shape]
  constructor
  · rw [shape_append, getElem?_append_right (by omega)]
    simp [shape, selected]
  · rw [shape_append, take_append_of_le_length (by omega), ← size, take_length, count_shape]

theorem filterMap_push (xs : List α) (x : α) :
    (xs ++ [x]).filterMap f = xs.filterMap f ++ (f x).toList := by
  rw [filterMap_append]
  cases found : f x <;> simp [found]

theorem filterMap_modify_same (xs : List α) (p : Nat) (g : α → α) (same : ∀ x, f (g x) = f x) :
    (xs.modify p g).filterMap f = xs.filterMap f := by
  induction xs generalizing p with
  | nil => rw [modify_nil]
  | cons x xs ih =>
    cases p with
    | zero => simp [modify_zero_cons, filterMap_cons, same]
    | succ p => simp [modify_succ_cons, filterMap_cons, ih]

/-- An edit of selected elements only, at a position that is not selected. -/
theorem filterMap_modify_other (unselected : (shape f xs)[p]? ≠ some true) (g : α → α)
    (same : ∀ x, f x = none → f (g x) = none) : (xs.modify p g).filterMap f = xs.filterMap f := by
  induction xs generalizing p with
  | nil => rw [modify_nil]
  | cons x xs ih =>
    cases p with
    | zero =>
      have missing : f x = none := by simpa [shape] using unselected
      simp [missing, same x missing]
    | succ p =>
      have rest := ih (p := p) (by simpa [shape] using unselected)
      simp [modify_succ_cons, filterMap_cons, rest]

theorem filterMap_modify (at_p : IsAt f xs n p) (value : β) (g : α → α)
    (set : ∀ x, f (g x) = (f x).map fun _ => value) :
    (xs.modify p g).filterMap f = (xs.filterMap f).set n value := by
  induction xs generalizing n p with
  | nil => simp [IsAt, shape] at at_p
  | cons x xs ih =>
    cases p with
    | zero =>
      obtain ⟨selected, count⟩ := at_p
      simp only [take_zero, count_nil] at count
      obtain ⟨old, found⟩ := Option.isSome_iff_exists.mp (by simpa [shape] using selected)
      simp [set, found, ← count]
    | succ p =>
      obtain ⟨selected, count⟩ := at_p
      have later : IsAt f xs (((shape f xs).take p).count true) p :=
        ⟨by simpa [shape] using selected, rfl⟩
      cases found : f x with
      | none =>
        have same : ((shape f xs).take p).count true = n := by
          simpa [shape, found] using count
        simp [found, ih later, same]
      | some old =>
        have next : ((shape f xs).take p).count true + 1 = n := by
          simpa [shape, found] using count
        simp [found, ih later, ← next]

end Selection
