import Mathlib.Algebra.BigOperators.Group.List.Basic
import Mathlib.Algebra.GroupWithZero.Nat

/- Sums of costs in a machine word: sums that stop at its greatest number, and additions that
must not pass it. -/
namespace CappedSums

open List

def capped (top n : Nat) : Nat := min n top

theorem capped_le (top n : Nat) : capped top n ≤ top := Nat.min_le_right n top

theorem capped_of_le {top n : Nat} (fits : n ≤ top) : capped top n = n := Nat.min_eq_left fits

theorem capped_capped_add (top a b : Nat) : capped top (capped top a + b) = capped top (a + b) := by
  unfold capped
  omega

theorem capped_add_capped (top a b : Nat) : capped top (a + capped top b) = capped top (a + b) := by
  unfold capped
  omega

theorem capped_eq_iff {top a b : Nat} (below : a ≤ b) :
    capped top a = capped top b ↔ a = b ∨ top ≤ a := by
  unfold capped
  omega

section costs

variable {α : Type}

def total (cost : α → Nat) (items : List α) : Nat := (items.map cost).sum

variable {cost : α → Nat}

@[simp] theorem total_nil : total cost [] = 0 := rfl

@[simp] theorem total_cons (x : α) (items : List α) :
    total cost (x :: items) = cost x + total cost items := by
  rw [total, map_cons, sum_cons]
  rfl

@[simp] theorem total_append (front back : List α) :
    total cost (front ++ back) = total cost front + total cost back := by
  rw [total, map_append, sum_append]
  rfl

theorem total_reverse (items : List α) : total cost items.reverse = total cost items := by
  induction items with
  | nil => rfl
  | cons x items ih =>
    rw [reverse_cons, total_append, ih, total_cons, total_cons, total_nil]
    omega

theorem capped_total (top : Nat) (cost : α → Nat) (items : List α) :
    capped top (total (fun x => capped top (cost x)) items) = capped top (total cost items) := by
  induction items with
  | nil => rfl
  | cons x items ih =>
    rw [total_cons, total_cons, capped_capped_add, ← capped_add_capped, ih, capped_add_capped]

variable {counted exact : α → Nat}

theorem total_le (below : ∀ x, counted x ≤ exact x) (items : List α) :
    total counted items ≤ total exact items := by
  induction items with
  | nil => exact Nat.le_refl 0
  | cons x items ih =>
    rw [total_cons, total_cons]
    exact Nat.add_le_add (below x) ih

theorem total_eq_iff (below : ∀ x, counted x ≤ exact x) (items : List α) :
    total counted items = total exact items ↔ ∀ x ∈ items, counted x = exact x := by
  induction items with
  | nil => simp
  | cons x items ih =>
    have here := below x
    have rest := total_le below items
    rw [total_cons, total_cons, forall_mem_cons, ← ih]
    omega

end costs

section gathering

variable {α : Type} (top : Nat) (cost : α → Nat) (inside : Nat → Bool)

/-- Takes items while their sum stays inside, and the rest; none once a sum passes the top. -/
def gather : Nat → List α → Option (List α × List α)
  | _, [] => some ([], [])
  | sum, x :: items =>
    if top < sum + cost x then none
    else if inside (sum + cost x) then
      (gather (sum + cost x) items).map fun parts => (x :: parts.1, parts.2)
    else some ([], x :: items)

variable {top cost inside} {sum : Nat} {items taken rest : List α}

theorem gather_some (found : gather top cost inside sum items = some (taken, rest)) :
    items = taken ++ rest ∧
      (taken = [] ∨ inside (sum + total cost taken) = true ∧ sum + total cost taken ≤ top) ∧
      ∀ x more, rest = x :: more → sum + total cost taken + cost x ≤ top ∧
        inside (sum + total cost taken + cost x) = false := by
  induction items generalizing sum taken rest with
  | nil =>
    simp only [gather, Option.some.injEq, Prod.mk.injEq] at found
    obtain ⟨rfl, rfl⟩ := found
    exact ⟨rfl, .inl rfl, by rintro x more ⟨⟩⟩
  | cons y items ih =>
    rw [gather] at found
    split at found
    · cases found
    · next fits =>
      split at found
      · next within =>
        obtain ⟨⟨inner, later⟩, gathered, same⟩ := Option.map_eq_some_iff.mp found
        simp only [Prod.mk.injEq] at same
        obtain ⟨rfl, rfl⟩ := same
        obtain ⟨split, kept, stop⟩ := ih gathered
        refine ⟨by rw [split]; rfl, .inr ?_, ?_⟩
        · rw [total_cons, ← Nat.add_assoc]
          rcases kept with rfl | kept
          · exact ⟨within, by simpa using fits⟩
          · exact kept
        · rw [total_cons, ← Nat.add_assoc]
          exact stop
      · next outside =>
        simp only [Option.some.injEq, Prod.mk.injEq] at found
        obtain ⟨rfl, rfl⟩ := found
        refine ⟨rfl, .inl rfl, ?_⟩
        rintro x more ⟨⟩
        rw [total_nil, Nat.add_zero]
        exact ⟨Nat.le_of_not_lt fits, Bool.eq_false_iff.mpr outside⟩

theorem gather_isSome_iff
    (downward : ∀ a b, a ≤ b → inside b = true → inside a = true) :
    (gather top cost inside sum items).isSome ↔
      ∀ front x back, items = front ++ x :: back →
        (front = [] ∨ inside (sum + total cost front) = true) →
          sum + total cost front + cost x ≤ top := by
  induction items generalizing sum with
  | nil =>
    refine iff_of_true rfl fun front x back split => ?_
    cases front <;> cases split
  | cons y items ih =>
    rw [gather]
    split
    · next passes =>
      refine iff_of_false (by simp) fun fits => ?_
      have here := fits [] y items rfl (.inl rfl)
      rw [total_nil] at here
      omega
    · next fits =>
      split
      · next within =>
        rw [Option.isSome_map, ih]
        refine ⟨fun later front x back split reached => ?_, fun each front x back split reached => ?_⟩
        · cases front with
          | nil =>
            cases split
            exact Nat.le_of_not_lt fits
          | cons z front =>
            obtain ⟨rfl, inner⟩ := cons.inj split
            rw [total_cons, ← Nat.add_assoc] at reached ⊢
            refine later front x back inner ?_
            rcases reached with ⟨⟨⟩⟩ | reached
            exact .inr reached
        · have here := each (y :: front) x back (by rw [split]; rfl)
          rw [total_cons, ← Nat.add_assoc] at here
          refine here (.inr ?_)
          rcases reached with rfl | reached
          · simpa using within
          · exact reached
      · next outside =>
        refine iff_of_true rfl fun front x back split reached => ?_
        cases front with
        | nil =>
          cases split
          exact Nat.le_of_not_lt fits
        | cons z front =>
          obtain ⟨rfl, inner⟩ := cons.inj split
          rcases reached with ⟨⟨⟩⟩ | reached
          refine absurd (downward _ _ ?_ reached) outside
          rw [total_cons]
          omega

theorem prefix_of_gather
    (downward : ∀ a b, a ≤ b → inside b = true → inside a = true)
    (found : gather top cost inside sum items = some (taken, rest)) {front back : List α}
    (split : items = front ++ back)
    (reached : front = [] ∨ inside (sum + total cost front) = true) : front <+: taken := by
  obtain ⟨parts, _, stop⟩ := gather_some found
  rw [parts] at split
  rcases append_eq_append_iff.mp split with ⟨more, rfl, same⟩ | ⟨more, rfl, _⟩
  · cases more with
    | nil => exact ⟨[], by simp⟩
    | cons x more =>
      have outside := (stop x (more ++ back) same).2
      rcases reached with empty | within
      · exact absurd empty (by simp)
      · rw [downward _ _ ?_ within] at outside
        · cases outside
        · rw [total_append, total_cons]
          omega
  · exact prefix_append front more

end gathering

end CappedSums
