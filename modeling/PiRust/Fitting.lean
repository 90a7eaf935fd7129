import Mathlib.Algebra.GroupWithZero.Nat
import PiRust.Splice

/- How much of a text fits into a number of lines and of bytes: whole lines from one side, or the
end of a line that is too long. -/
namespace Fitting

open Splice List

section ends

variable {α : Type} (size : α → Nat) (limit : Nat)

def lastFit : List α → List α
  | [] => []
  | x :: text => if width size (x :: text) ≤ limit then x :: text else lastFit text

variable {size} {limit}

attribute [local simp] lastFit

theorem lastFit_suffix (text : List α) : lastFit size limit text <:+ text := by
  induction text with
  | nil => exact suffix_rfl
  | cons x text ih =>
    rw [lastFit]
    split
    · exact suffix_rfl
    · exact ih.trans (suffix_cons x text)

theorem lastFit_fits (text : List α) : width size (lastFit size limit text) ≤ limit := by
  induction text with
  | nil => exact Nat.zero_le _
  | cons x text ih =>
    rw [lastFit]
    split
    · next fits => exact fits
    · exact ih

variable {back text front : List α}

theorem width_suffix (ends : back <:+ text) : width size back ≤ width size text := by
  obtain ⟨front, rfl⟩ := ends
  rw [width_append]
  exact Nat.le_add_left _ _

theorem lastFit_longest (ends : back <:+ text) (fits : width size back ≤ limit) :
    back <:+ lastFit size limit text := by
  induction text with
  | nil => exact ends
  | cons x text ih =>
    rw [lastFit]
    split
    · exact ends
    · next beyond =>
      rcases suffix_cons_iff.mp ends with rfl | later
      · exact absurd fits beyond
      · exact ih later

theorem lastFit_all (fits : width size text ≤ limit) : lastFit size limit text = text := by
  cases text with
  | nil => rfl
  | cons x text => rw [lastFit, if_pos fits]

theorem lastFit_append (beyond : limit < width size text) :
    lastFit size limit (front ++ text) = lastFit size limit text := by
  induction front with
  | nil => rfl
  | cons x front ih =>
    have whole : ¬ width size (x :: (front ++ text)) ≤ limit := by
      rw [width_cons, width_append]
      omega
    rw [cons_append, lastFit, if_neg whole, ih]

theorem lastFit_next {x : α} (fits : width size text ≤ limit)
    (beyond : limit < size x + width size text) :
    lastFit size limit (front ++ x :: text) = text := by
  have whole : ¬ width size (x :: text) ≤ limit := Nat.not_le.mpr beyond
  rw [lastFit_append beyond, lastFit, if_neg whole, lastFit_all fits]

end ends

section lines

/-- How many bytes lines of these widths take with a separator between any two. -/
def cost : List Nat → Nat
  | [] => 0
  | width :: rest => width + (rest.map (· + 1)).sum

theorem cost_cons (width : Nat) (rest : List Nat) :
    cost (width :: rest) = width + (rest.map (· + 1)).sum := rfl

theorem cost_succ {widths : List Nat} (some : widths ≠ []) :
    cost widths + 1 = (widths.map (· + 1)).sum := by
  cases widths with
  | nil => exact absurd rfl some
  | cons width rest =>
    rw [cost_cons, map_cons, sum_cons]
    omega

theorem cost_concat (widths : List Nat) (width : Nat) :
    cost (widths ++ [width]) = cost widths + (width + if widths = [] then 0 else 1) := by
  cases widths with
  | nil => simp [cost]
  | cons first rest =>
    rw [cons_append, cost_cons, cost_cons, map_append, sum_append, if_neg (cons_ne_nil first rest)]
    simp only [map_cons, map_nil, sum_singleton]
    omega

theorem cost_perm {widths others : List Nat} (same : widths.Perm others) :
    cost widths = cost others := by
  by_cases empty : widths = []
  · subst empty
    rw [nil_perm.mp same]
  · have other : others ≠ [] := fun none => empty (perm_nil.mp (none ▸ same))
    have sums := (same.map (· + 1)).sum_nat
    rw [← cost_succ empty, ← cost_succ other] at sums
    exact Nat.succ.inj sums

theorem cost_take_mono (widths : List Nat) {j k : Nat} (ordered : j ≤ k) :
    cost (widths.take j) ≤ cost (widths.take k) := by
  cases widths with
  | nil => rw [take_nil, take_nil]
  | cons width rest =>
    cases j with
    | zero => exact Nat.zero_le _
    | succ j =>
      cases k with
      | zero => exact absurd ordered (Nat.not_succ_le_zero j)
      | succ k =>
        have split : (rest.take k).take j = rest.take j := by
          rw [take_take, Nat.min_eq_left (Nat.le_of_succ_le_succ ordered)]
        have parts := congrArg (fun widths => (widths.map (· + 1)).sum)
          (take_append_drop j (rest.take k))
        simp only [split, map_append, sum_append] at parts
        rw [take_succ_cons, take_succ_cons, cost_cons, cost_cons]
        omega

variable {α : Type} {size : α → Nat} {separator : α}

theorem width_intercalate (single : size separator = 1) (lines : List (List α)) :
    width size ([separator].intercalate lines) = cost (lines.map (width size)) := by
  have joined : ∀ rest : List (List α),
      width size (behind separator rest) = ((rest.map (width size)).map (· + 1)).sum := by
    intro rest
    induction rest with
    | nil => rfl
    | cons line rest ih =>
      rw [behind_cons, width_cons, width_append, ih, single, map_cons, map_cons, sum_cons]
      omega
  cases lines with
  | nil => rfl
  | cons line rest => rw [intercalate_cons, width_append, joined, map_cons, cost_cons]

end lines

section filling

/-- The first `k` lines fit, and no more do. -/
structure Filled (maxLines maxBytes : Nat) (widths : List Nat) (k : Nat) : Prop where
  inside : k ≤ widths.length
  room : k ≤ maxLines
  fits : cost (widths.take k) ≤ maxBytes
  full : k < widths.length → k < maxLines → maxBytes < cost (widths.take (k + 1))

variable {maxLines maxBytes : Nat} {widths : List Nat} {k : Nat}

theorem Filled.longest (filled : Filled maxLines maxBytes widths k) {j : Nat}
    (inside : j ≤ widths.length) (room : j ≤ maxLines)
    (fits : cost (widths.take j) ≤ maxBytes) : j ≤ k := by
  by_contra more
  have beyond := filled.full (by omega) (by omega)
  have : cost (widths.take (k + 1)) ≤ cost (widths.take j) := cost_take_mono widths (by omega)
  omega

theorem Filled.unique (filled : Filled maxLines maxBytes widths k) {j : Nat}
    (other : Filled maxLines maxBytes widths j) : j = k :=
  Nat.le_antisymm (filled.longest other.inside other.room other.fits)
    (other.longest filled.inside filled.room filled.fits)

theorem Filled.all (filled : Filled maxLines maxBytes widths widths.length) :
    widths.length ≤ maxLines ∧ cost widths ≤ maxBytes := by
  have fits := filled.fits
  rw [take_length] at fits
  exact ⟨filled.room, fits⟩

theorem filled_all (room : widths.length ≤ maxLines) (fits : cost widths ≤ maxBytes) :
    Filled maxLines maxBytes widths widths.length :=
  ⟨Nat.le_refl _, room, by rw [take_length]; exact fits, fun more => absurd more (Nat.lt_irrefl _)⟩

theorem Filled.extend {last wider : Nat} (filled : Filled maxLines maxBytes (widths ++ [last]) k)
    (within : k ≤ widths.length) (more : last ≤ wider) (rest : List Nat) :
    Filled maxLines maxBytes (widths ++ wider :: rest) k := by
  have early : ∀ (j : Nat) (others : List Nat), j ≤ widths.length →
      (widths ++ others).take j = widths.take j := fun j others inside =>
    take_append_of_le_length inside
  refine ⟨?_, filled.room, ?_, fun _ room => ?_⟩
  · rw [length_append]
    omega
  · have fits := filled.fits
    rw [early k _ within] at fits ⊢
    exact fits
  · have full := filled.full (by rw [length_append, length_singleton]; omega) room
    rcases Nat.lt_or_eq_of_le within with inner | same
    · rw [early _ _ inner] at full ⊢
      exact full
    · subst same
      have next : ∀ (width : Nat) (others : List Nat),
          (widths ++ width :: others).take (widths.length + 1) = widths ++ [width] := by
        intro width others
        rw [append_cons]
        exact take_left' (by simp)
      rw [next, cost_concat] at full ⊢
      omega

end filling

end Fitting
