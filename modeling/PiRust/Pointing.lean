import Mathlib.Data.List.Basic

/- An index from keys to the positions of the items of a list that have them. -/
namespace PiRust.Pointing

variable {κ ι : Type} {keyOf : ι → Option κ} {items : List ι} {lookup : κ → Option Nat}

def Points (keyOf : ι → Option κ) (items : List ι) (lookup : κ → Option Nat) : Prop :=
  ∀ key index, lookup key = some index → (items[index]?).bind keyOf = some key

section

variable (points : Points keyOf items lookup)
include points

theorem Points.inside (key : κ) {index : Nat} (found : lookup key = some index) :
    index < items.length := by
  obtain ⟨item, there, _⟩ := Option.bind_eq_some_iff.mp (points key index found)
  exact (List.getElem?_eq_some_iff.mp there).1

theorem Points.injective {key other : κ} {index : Nat} (found : lookup key = some index)
    (also : lookup other = some index) : key = other := by
  have first := points key index found
  rw [points other index also] at first
  exact (Option.some.inj first).symm

theorem Points.append (more : List ι) : Points keyOf (items ++ more) lookup := by
  intro key index found
  rw [List.getElem?_append_left (points.inside _ found)]
  exact points key index found

theorem Points.set {index : Nat} {item : ι} (same : (items[index]?).bind keyOf = keyOf item) :
    Points keyOf (items.set index item) lookup := by
  intro key position found
  have before := points key position found
  by_cases hit : index = position
  · subst hit
    rw [same] at before
    rw [List.getElem?_set_self (points.inside _ found)]
    exact before
  · rw [List.getElem?_set_ne hit]
    exact before

end

variable [DecidableEq κ]

theorem Points.insert (points : Points keyOf items lookup) {key : κ} {index : Nat}
    (there : (items[index]?).bind keyOf = some key) :
    Points keyOf items fun other => if other = key then some index else lookup other := by
  intro other position found
  dsimp only at found
  split at found
  · rename_i same
    cases found
    rw [same]
    exact there
  · exact points other position found

theorem Points.rename (points : Points keyOf items lookup) (old : κ) {new : κ} {index : Nat}
    {item : ι} (found : lookup old = some index) (named : keyOf item = some new) :
    Points keyOf (items.set index item) fun other =>
      if other = new then some index else if other = old then none else lookup other := by
  intro other position at_
  dsimp only at at_
  split at at_
  · rename_i same
    cases at_
    rw [List.getElem?_set_self (points.inside _ found), same]
    exact named
  · split at at_
    · cases at_
    · rename_i _ apart
      have moved : index ≠ position := by
        rintro rfl
        exact apart (points.injective at_ found)
      rw [List.getElem?_set_ne moved]
      exact points other position at_

end PiRust.Pointing
