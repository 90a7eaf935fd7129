import Mathlib.Data.List.Nodup

/- Queues that hold the last uses of keys, a key being used again only once it has left. -/
namespace Recent

open List

variable {α : Type*} {limit : Nat} {keys : List α} {key : α}

/-- What a queue with room for `limit` keys holds after these uses. -/
def window (limit : Nat) (keys : List α) : List α := keys.drop (keys.length - limit)

/-- Between two uses of a key lie at least `limit` others. -/
def Spaced (limit : Nat) (keys : List α) : Prop :=
  ∀ i j : Nat, i < j → j < keys.length → keys[i]? = keys[j]? → i + limit < j

theorem length_window : (window limit keys).length = min keys.length limit := by
  rw [window, length_drop]
  omega

theorem window_concat :
    window limit (keys ++ [key]) =
      (window limit keys ++ [key]).drop ((window limit keys ++ [key]).length - limit) := by
  rw [length_append, length_window, window, window, length_append, length_singleton]
  by_cases full : limit ≤ keys.length
  · rcases Nat.eq_zero_or_pos limit with rfl | room
    · simp
    · have one : keys.length + 1 - limit = keys.length - limit + 1 := by omega
      have left : min keys.length limit + 1 - limit = 1 := by omega
      rw [one, left, drop_append_of_le_length (by omega),
        drop_append_of_le_length (by rw [length_drop]; omega), drop_drop]
  · have all : keys.length - limit = 0 := by omega
    have short : keys.length + 1 - limit = 0 := by omega
    have still : min keys.length limit + 1 - limit = 0 := by omega
    rw [all, short, still, drop_zero, drop_zero, drop_zero]

theorem mem_window {i : Nat} (late : keys.length ≤ i + limit) (found : keys[i]? = some key) :
    key ∈ window limit keys := by
  have inside : keys.length - limit ≤ i := by omega
  apply mem_of_getElem? (i := i - (keys.length - limit))
  rw [window, getElem?_drop, Nat.add_sub_cancel' inside]
  exact found

theorem Spaced.nil : Spaced limit ([] : List α) := fun _ _ _ inside => absurd inside (Nat.not_lt_zero _)

theorem Spaced.concat (spaced : Spaced limit keys) (fresh : key ∉ window limit keys) :
    Spaced limit (keys ++ [key]) := by
  intro i j before inside same
  rw [length_append, length_singleton] at inside
  rw [getElem?_append_left (by omega)] at same
  rcases Nat.lt_or_eq_of_le (Nat.le_of_lt_succ inside) with earlier | rfl
  · rw [getElem?_append_left earlier] at same
    exact spaced i j before earlier same
  · rw [getElem?_concat_length] at same
    by_contra near
    exact fresh (mem_window (by omega) same)

theorem Spaced.nodup_window (spaced : Spaced limit keys) : (window limit keys).Nodup := by
  rw [nodup_iff_getElem?_ne_getElem?]
  intro i j before inside same
  rw [length_window] at inside
  rw [window, getElem?_drop, getElem?_drop] at same
  have apart := spaced _ _ (Nat.add_lt_add_left before _) (by omega) same
  omega

theorem filter_not_take [BEq α] [LawfulBEq α] (distinct : keys.Nodup) (n : Nat) :
    keys.filter (fun key => !(keys.take n).contains key) = keys.drop n := by
  have split := take_append_drop n keys
  have apart : (keys.take n).Disjoint (keys.drop n) :=
    disjoint_of_nodup_append (split.symm ▸ distinct)
  conv => lhs; arg 2; rw [← split]
  have none_left : (keys.take n).filter (fun key => !(keys.take n).contains key) = [] := by
    simp
  have all_right : (keys.drop n).filter (fun key => !(keys.take n).contains key) = keys.drop n := by
    rw [filter_eq_self]
    intro key behind
    simpa using fun front => apart front behind
  rw [filter_append, none_left, all_right, nil_append]

end Recent
