import Mathlib.Data.List.Basic

/- A list that others have been woven into. The entries of the first list are
marked; `rank` says where a position of the woven list lies in the first one. -/
namespace Weave

open List

variable {α : Type}

def kept (woven : List (Bool × α)) : List α := (woven.filter Prod.fst).map Prod.snd

def rank (woven : List (Bool × α)) (position : Nat) : Nat := (kept (woven.take position)).length

@[simp] theorem kept_nil : kept ([] : List (Bool × α)) = [] := rfl

@[simp] theorem kept_cons_true (x : α) (woven : List (Bool × α)) :
    kept ((true, x) :: woven) = x :: kept woven := rfl

@[simp] theorem kept_cons_false (x : α) (woven : List (Bool × α)) :
    kept ((false, x) :: woven) = kept woven := rfl

theorem kept_append (front back : List (Bool × α)) :
    kept (front ++ back) = kept front ++ kept back := by
  simp [kept]

variable (woven : List (Bool × α))

theorem kept_sublist : Sublist (kept woven) (woven.map Prod.snd) :=
  filter_sublist.map Prod.snd

@[simp] theorem rank_zero : rank woven 0 = 0 := by
  simp [rank, kept_nil]

theorem rank_length : rank woven woven.length = (kept woven).length := by
  simp [rank]

theorem rank_append (front back : List (Bool × α)) (position : Nat)
    (inside : position ≤ front.length) : rank (front ++ back) position = rank front position := by
  simp [rank, take_append_of_le_length inside]

theorem rank_cons_succ (mark : Bool) (x : α) (woven : List (Bool × α)) (position : Nat) :
    rank ((mark, x) :: woven) (position + 1) = rank woven position + mark.toNat := by
  cases mark <;> simp [rank]

variable {woven : List (Bool × α)} {position : Nat} {x : α}

theorem kept_getElem (found : woven[position]? = some (true, x)) :
    (kept woven)[rank woven position]? = some x := by
  induction woven generalizing position with
  | nil => cases found
  | cons entry woven ih =>
    obtain ⟨mark, y⟩ := entry
    cases position with
    | zero =>
      cases found
      rfl
    | succ position =>
      have later := ih found
      cases mark <;> simpa [rank_cons_succ] using later

theorem rank_set {mark : Bool} (found : woven[position]? = some (mark, x)) (y : α) (other : Nat) :
    rank (woven.set position (mark, y)) other = rank woven other := by
  induction woven generalizing position other with
  | nil => cases found
  | cons entry woven ih =>
    obtain ⟨first, z⟩ := entry
    cases other with
    | zero => simp [rank_zero]
    | succ other =>
      cases position with
      | zero =>
        cases found
        simp [rank_cons_succ]
      | succ position => simp [rank_cons_succ, ih found]

theorem kept_set_false (found : woven[position]? = some (false, x)) (y : α) :
    kept (woven.set position (false, y)) = kept woven := by
  induction woven generalizing position with
  | nil => cases found
  | cons entry woven ih =>
    obtain ⟨mark, z⟩ := entry
    cases position with
    | zero =>
      cases found
      rfl
    | succ position =>
      have later := ih found
      cases mark <;> simp [later]

theorem kept_set_true (found : woven[position]? = some (true, x)) (y : α) :
    kept (woven.set position (true, y)) = (kept woven).set (rank woven position) y := by
  induction woven generalizing position with
  | nil => cases found
  | cons entry woven ih =>
    obtain ⟨mark, z⟩ := entry
    cases position with
    | zero =>
      cases found
      rfl
    | succ position =>
      have later := ih found
      cases mark <;> simp [later, rank_cons_succ]

theorem kept_drop (woven : List (Bool × α)) (position : Nat) :
    kept (woven.drop position) = (kept woven).drop (rank woven position) := by
  have whole := kept_append (woven.take position) (woven.drop position)
  rw [take_append_drop] at whole
  rw [whole, rank, drop_left]

theorem kept_findIdx? (woven : List (Bool × α)) (wanted : α → Bool)
    (marked : ∀ entry ∈ woven, wanted entry.2 = true → entry.1 = true) :
    (kept woven).findIdx? wanted = ((woven.map Prod.snd).findIdx? wanted).map (rank woven) := by
  induction woven with
  | nil => rfl
  | cons entry woven ih =>
    obtain ⟨mark, x⟩ := entry
    have later := ih fun other inside => marked other (mem_cons_of_mem _ inside)
    by_cases hit : wanted x = true
    · have kept : mark = true := marked (mark, x) (mem_cons_self ..) hit
      subst kept
      simp [findIdx?_cons, hit]
    · simp only [map_cons, findIdx?_cons, hit]
      cases mark with
      | false => simp [later, rank_cons_succ, Function.comp_def]
      | true => simp [later, hit, findIdx?_cons, rank_cons_succ, Function.comp_def]

end Weave
