import Mathlib.Data.List.Basic

/- Scripts that turn a list into another one by keeping, removing and adding elements, and how few
of them a script can remove and add. -/
namespace EditScripts

open List

variable {α β : Type}

inductive Step (α : Type)
  | keep (x : α)
  | remove (x : α)
  | add (x : α)
  deriving DecidableEq

def Step.old : Step α → Option α
  | .keep x => some x
  | .remove x => some x
  | .add _ => none

def Step.new : Step α → Option α
  | .keep x => some x
  | .remove _ => none
  | .add x => some x

def Step.both : Step α → Option α
  | .keep x => some x
  | .remove _ => none
  | .add _ => none

def Step.isRemoval : Step α → Bool
  | .remove _ => true
  | _ => false

def Step.isAddition : Step α → Bool
  | .add _ => true
  | _ => false

def Step.map (f : α → β) : Step α → Step β
  | .keep x => .keep (f x)
  | .remove x => .remove (f x)
  | .add x => .add (f x)

/-- The list that a script starts from. -/
def before (script : List (Step α)) : List α := script.filterMap Step.old

/-- The list that it ends with. -/
def after (script : List (Step α)) : List α := script.filterMap Step.new

def kept (script : List (Step α)) : List α := script.filterMap Step.both

def removals (script : List (Step α)) : Nat := script.countP Step.isRemoval

def additions (script : List (Step α)) : Nat := script.countP Step.isAddition

section scripts

variable (script : List (Step α))

theorem kept_before : (kept script).Sublist (before script) := by
  induction script with
  | nil => exact Sublist.refl _
  | cons step script ih =>
    cases step with
    | keep x => exact ih.cons_cons x
    | remove x => exact ih.cons x
    | add x => exact ih

theorem kept_after : (kept script).Sublist (after script) := by
  induction script with
  | nil => exact Sublist.refl _
  | cons step script ih =>
    cases step with
    | keep x => exact ih.cons_cons x
    | remove x => exact ih
    | add x => exact ih.cons x

theorem length_before : (before script).length = (kept script).length + removals script := by
  induction script with
  | nil => rfl
  | cons step script ih =>
    cases step with
    | keep x => exact (congrArg (· + 1) ih).trans (Nat.add_right_comm _ _ _)
    | remove x =>
      have counted : removals (.remove x :: script) = removals script + 1 := countP_cons_of_pos rfl
      rw [counted]
      exact congrArg (· + 1) ih
    | add x => exact ih

theorem length_after : (after script).length = (kept script).length + additions script := by
  induction script with
  | nil => rfl
  | cons step script ih =>
    cases step with
    | keep x => exact (congrArg (· + 1) ih).trans (Nat.add_right_comm _ _ _)
    | remove x => exact ih
    | add x =>
      have counted : additions (.add x :: script) = additions script + 1 := countP_cons_of_pos rfl
      rw [counted]
      exact congrArg (· + 1) ih

theorem before_append (front back : List (Step α)) :
    before (front ++ back) = before front ++ before back := filterMap_append

theorem after_append (front back : List (Step α)) :
    after (front ++ back) = after front ++ after back := filterMap_append

theorem before_keep (xs : List α) : before (xs.map .keep) = xs := by
  induction xs with
  | nil => rfl
  | cons x xs ih => exact congrArg (x :: ·) ih

theorem after_keep (xs : List α) : after (xs.map .keep) = xs := by
  induction xs with
  | nil => rfl
  | cons x xs ih => exact congrArg (x :: ·) ih

theorem removals_keep (xs : List α) : removals (script ++ xs.map .keep) = removals script := by
  have none : (xs.map Step.keep).countP Step.isRemoval = 0 := by
    rw [countP_map]
    exact countP_eq_zero.mpr fun x _ => Bool.false_ne_true
  rw [removals, countP_append, none]
  rfl

theorem additions_keep (xs : List α) : additions (script ++ xs.map .keep) = additions script := by
  have none : (xs.map Step.keep).countP Step.isAddition = 0 := by
    rw [countP_map]
    exact countP_eq_zero.mpr fun x _ => Bool.false_ne_true
  rw [additions, countP_append, none]
  rfl

theorem before_map (f : α → β) : before (script.map (Step.map f)) = (before script).map f := by
  induction script with
  | nil => rfl
  | cons step script ih =>
    cases step with
    | keep x => exact congrArg (f x :: ·) ih
    | remove x => exact congrArg (f x :: ·) ih
    | add x => exact ih

theorem after_map (f : α → β) : after (script.map (Step.map f)) = (after script).map f := by
  induction script with
  | nil => rfl
  | cons step script ih =>
    cases step with
    | keep x => exact congrArg (f x :: ·) ih
    | remove x => exact ih
    | add x => exact congrArg (f x :: ·) ih

theorem kept_map (f : α → β) : kept (script.map (Step.map f)) = (kept script).map f := by
  induction script with
  | nil => rfl
  | cons step script ih =>
    cases step with
    | keep x => exact congrArg (f x :: ·) ih
    | remove x => exact ih
    | add x => exact ih

end scripts

section common

variable [DecidableEq α] [DecidableEq β]

def common : List α → List α → Nat
  | [], _ => 0
  | _ :: _, [] => 0
  | x :: xs, y :: ys =>
    if x = y then common xs ys + 1 else max (common xs (y :: ys)) (common (x :: xs) ys)
termination_by xs ys => xs.length + ys.length

theorem common_nil_right (xs : List α) : common xs [] = 0 := by
  cases xs with
  | nil => rw [common]
  | cons x xs => rw [common]

/-- A common subsequence with an element more than one without it, unless the element is in
front of both. -/
theorem common_longest {zs xs ys : List α} (first : zs.Sublist xs) (second : zs.Sublist ys) :
    zs.length ≤ common xs ys := by
  induction xs, ys using common.induct generalizing zs with
  | case1 ys =>
    rw [sublist_nil.mp first]
    exact Nat.zero_le _
  | case2 x xs =>
    rw [sublist_nil.mp second]
    exact Nat.zero_le _
  | case3 xs y ys ih =>
    have rest := ih first.tail second.tail
    rw [common, if_pos rfl]
    rw [length_tail] at rest
    omega
  | case4 x xs y ys apart left right =>
    rw [common, if_neg apart]
    cases first with
    | cons _ within => exact Nat.le_trans (left within second) (Nat.le_max_left _ _)
    | cons_cons _ within =>
      cases second with
      | cons _ inside =>
        exact Nat.le_trans (right (within.cons_cons x) inside) (Nat.le_max_right _ _)
      | cons_cons _ _ => exact absurd rfl apart

theorem common_map {f : α → β} (injective : Function.Injective f) (xs ys : List α) :
    common (xs.map f) (ys.map f) = common xs ys := by
  induction xs, ys using common.induct with
  | case1 ys => rw [map_nil, common, common]
  | case2 x xs => rw [map_nil, common_nil_right, common_nil_right]
  | case3 xs y ys ih => rw [map_cons, map_cons, common, if_pos rfl, common, if_pos rfl, ih]
  | case4 x xs y ys apart left right =>
    rw [map_cons] at left
    rw [map_cons] at right
    rw [map_cons, map_cons, common, if_neg (fun same => apart (injective same)), common,
      if_neg apart, left, right]

theorem fewest {script other : List (Step α)} (starts : before script = before other)
    (ends : after script = after other)
    (longest : (kept script).length = common (before script) (after script)) :
    removals script ≤ removals other ∧ additions script ≤ additions other := by
  have most : (kept other).length ≤ (kept script).length := by
    rw [longest, starts, ends]
    exact common_longest (kept_before other) (kept_after other)
  have old := length_before script
  have new := length_after script
  rw [starts, length_before] at old
  rw [ends, length_after] at new
  omega

end common

end EditScripts
