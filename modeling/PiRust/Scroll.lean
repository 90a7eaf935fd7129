import Mathlib.Data.List.DropRight

/- A window of rows with a cursor in one of them. Below the last row a new one appears,
and the first one goes. -/
namespace Scroll

open List

variable {α β : Type}

structure Window (α : Type) where
  rows : List α
  row : Nat
  inside : row < rows.length

namespace Window

def update (change : α → α) (window : Window α) : Window α where
  rows := window.rows.modify window.row change
  row := window.row
  inside := by
    rw [length_modify]
    exact window.inside

/-- To the next row; from the last one all rows go up. -/
def next (blank : α) (window : Window α) : Window α :=
  if below : window.row + 1 < window.rows.length then
    { window with row := window.row + 1, inside := below }
  else
    { rows := window.rows.drop 1 ++ [blank]
      row := window.row
      inside := by
        have inside := window.inside
        rw [length_append, length_drop, length_singleton]
        omega }

/-- Up or down, as far as the edges. -/
def moveBy (rows : Int) (window : Window α) : Window α where
  rows := window.rows
  row := min (window.row + rows).toNat (window.rows.length - 1)
  inside := by
    have inside := window.inside
    omega

def writeEach (blank : α) (write : β → α → α) : List β → Window α → Window α
  | [], window => window
  | [item], window => window.update (write item)
  | item :: following :: items, window =>
    writeEach blank write (following :: items) ((window.update (write item)).next blank)

@[simp] theorem update_row (change : α → α) (window : Window α) :
    (window.update change).row = window.row := rfl

variable {window : Window α}

theorem moveBy_row {rows : Int} {target : Nat}
    (reached : (window.row : Int) + rows = target) (inside : target < window.rows.length) :
    (window.moveBy rows).row = target := by
  change min ((window.row : Int) + rows).toNat (window.rows.length - 1) = target
  rw [reached, Int.toNat_natCast]
  omega

theorem update_update (first second : α → α) (window : Window α) :
    (window.update first).update second = window.update (second ∘ first) := by
  have same : (window.rows.modify window.row first).modify window.row second =
      window.rows.modify window.row (second ∘ first) := modify_modify_eq _ _ _ _
  simp [update, same]

theorem update_rows {above below : List α} {old : α}
    (rows : window.rows = above ++ old :: below) (row : window.row = above.length)
    (change : α → α) : (window.update change).rows = above ++ change old :: below := by
  change window.rows.modify window.row change = _
  rw [rows, row]
  clear rows row
  induction above with
  | nil => rfl
  | cons first rest ih => exact congrArg (first :: ·) ih

theorem next_inside {blank : α}
    (below : window.row + 1 < window.rows.length) :
    (window.next blank).rows = window.rows ∧ (window.next blank).row = window.row + 1 := by
  unfold next
  rw [dif_pos below]
  exact ⟨rfl, rfl⟩

theorem next_last {blank : α}
    (last : window.row + 1 = window.rows.length) :
    (window.next blank).rows = window.rows.drop 1 ++ [blank] ∧
      (window.next blank).row = window.row := by
  unfold next
  rw [dif_neg (by omega)]
  exact ⟨rfl, rfl⟩

theorem next_height (blank : α) (window : Window α) :
    (window.next blank).rows.length = window.rows.length := by
  have inside := window.inside
  by_cases below : window.row + 1 < window.rows.length
  · rw [(next_inside below).1]
  · rw [(next_last (by omega)).1, length_append, length_drop, length_singleton]
    omega

theorem update_height (change : α → α) (window : Window α) :
    (window.update change).rows.length = window.rows.length := length_modify _ _ _

theorem writeEach_height (blank : α) (write : β → α → α) (items : List β) (window : Window α) :
    (window.writeEach blank write items).rows.length = window.rows.length := by
  induction items generalizing window with
  | nil => rfl
  | cons item items ih =>
    cases items with
    | nil => exact update_height _ _
    | cons following items => rw [writeEach, ih, next_height, update_height]

end Window

/-- The window is the end of a tape, and the cursor is at a place of the tape. -/
structure Views (window : Window α) (tape : List α) (place : Nat) : Prop where
  rows : tape.rtake window.rows.length = window.rows
  row : window.row + (tape.length - window.rows.length) = place

namespace Views

theorem whole (window : Window α) : Views window window.rows window.row where
  rows := by rw [rtake, Nat.sub_self, drop_zero]
  row := by rw [Nat.sub_self, Nat.add_zero]

theorem cons {window : Window α} {tape : List α} {place : Nat} (views : Views window tape place)
    (long : window.rows.length ≤ tape.length) (gone : α) :
    Views window (gone :: tape) (place + 1) where
  rows := by
    have more : (gone :: tape).length - window.rows.length =
        tape.length - window.rows.length + 1 := by
      rw [length_cons]
      omega
    rw [rtake, more, drop_succ_cons]
    exact views.rows
  row := by
    have row := views.row
    rw [length_cons]
    omega

section Writing

variable {blank : α} {write : β → α → α} {paint : β → α}

def Paints (blank : α) (write : β → α → α) (paint : β → α) (items : List β) (rest : List α) :
    Prop :=
  ∀ item ∈ items, ∀ old, old = blank ∨ old ∈ rest → write item old = paint item

theorem Paints.subset {items others : List β} {rest fewer : List α}
    (paints : Paints blank write paint items rest) (among : others ⊆ items)
    (left : ∀ old ∈ fewer, old = blank ∨ old ∈ rest) :
    Paints blank write paint others fewer :=
  fun item member old old_is => paints item (among member) old (old_is.elim .inl (left old))

theorem writeEach_next {items : List β} (filled : items ≠ [])
    (writes : ∀ {window : Window α} {above rest : List α}, window.rows = above ++ rest →
      window.row = above.length → Paints blank write paint items rest →
      Views (window.writeEach blank write items)
        (above ++ items.map paint ++ rest.drop items.length) (above.length + items.length - 1))
    {window : Window α} {above below : List α} {last : α}
    (rows : window.rows = above ++ last :: below) (row : window.row = above.length)
    (paints : Paints blank write paint items below) :
    Views ((window.next blank).writeEach blank write items)
      (above ++ last :: items.map paint ++ below.drop items.length)
      (above.length + items.length) := by
  have some_item : 0 < items.length := length_pos_iff.mpr filled
  have height : window.rows.length = above.length + 1 + below.length := by
    rw [rows, length_append, length_cons]
    omega
  cases below with
  | nil =>
    obtain ⟨gone, kept, split⟩ : ∃ gone kept, above ++ [last] = gone :: kept := by
      cases above with
      | nil => exact ⟨last, [], rfl⟩
      | cons gone kept => exact ⟨gone, kept ++ [last], rfl⟩
    have size : kept.length = above.length := by
      have sizes := congrArg length split
      rw [length_append, length_singleton, length_cons] at sizes
      omega
    obtain ⟨scrolled, stays⟩ := @Window.next_last _ window blank (by rw [row, height]; rfl)
    rw [rows, split, drop_one, tail_cons] at scrolled
    have views := writes scrolled (by rw [stays, row, size])
      (paints.subset (Subset.refl _) fun old is_blank => .inl (mem_singleton.mp is_blank))
    have long : ((window.next blank).writeEach blank write items).rows.length ≤
        (kept ++ items.map paint ++ [blank].drop items.length).length := by
      rw [Window.writeEach_height, Window.next_height, height, ← size, length_append,
        length_append, length_map]
      change kept.length + 1 + 0 ≤ _
      omega
    have further := views.cons long gone
    have same : gone :: (kept ++ items.map paint ++ [blank].drop items.length) =
        above ++ last :: items.map paint ++ ([] : List α).drop items.length := by
      have dropped : [blank].drop items.length = [] := drop_eq_nil_of_le some_item
      rw [dropped, drop_nil, append_nil, append_nil, ← cons_append, ← split, append_assoc]
      rfl
    have place : kept.length + items.length - 1 + 1 = above.length + items.length := by omega
    rw [same, place] at further
    exact further
  | cons second rest =>
    obtain ⟨same, down⟩ := @Window.next_inside _ window blank
      (by rw [row, height, length_cons]; omega)
    have views := @writes (window.next blank) (above ++ [last]) (second :: rest)
      (by rw [same, rows, append_assoc]; rfl)
      (by rw [down, row, length_append]; rfl) paints
    have place : (above ++ [last]).length + items.length - 1 = above.length + items.length := by
      rw [length_append, length_singleton]
      omega
    rw [place, append_assoc above] at views
    exact views

theorem writeEach {items : List β} (filled : items ≠ []) {window : Window α}
    {above rest : List α} (rows : window.rows = above ++ rest) (row : window.row = above.length)
    (paints : Paints blank write paint items rest) :
    Views (window.writeEach blank write items)
      (above ++ items.map paint ++ rest.drop items.length) (above.length + items.length - 1) := by
  have inside := window.inside
  obtain ⟨old, below, rfl⟩ : ∃ old below, rest = old :: below := by
    cases rest with
    | nil =>
      rw [rows, append_nil, row] at inside
      exact absurd inside (Nat.lt_irrefl _)
    | cons old below => exact ⟨old, below, rfl⟩
  induction items generalizing window above old below with
  | nil => exact absurd rfl filled
  | cons item items ih =>
    have here := paints item mem_cons_self old (.inr mem_cons_self)
    have written := Window.update_rows rows row (write item)
    rw [here] at written
    cases items with
    | nil =>
      have views := whole (window.update (write item))
      rw [written, Window.update_row, row] at views
      change Views (window.update (write item)) _ _
      simpa using views
    | cons following items =>
      have later : ∀ {window : Window α} {above rest : List α}, window.rows = above ++ rest →
          window.row = above.length →
          Paints blank write paint (following :: items) rest →
          Views (window.writeEach blank write (following :: items))
            (above ++ (following :: items).map paint ++ rest.drop (following :: items).length)
            (above.length + (following :: items).length - 1) := by
        intro window above rest rows row paints
        cases rest with
        | nil =>
          have inside := window.inside
          rw [rows, append_nil, row] at inside
          exact absurd inside (Nat.lt_irrefl _)
        | cons old below =>
          exact ih (cons_ne_nil _ _) row window.inside old below rows paints
      exact writeEach_next (cons_ne_nil _ _) later written row
        (paints.subset (subset_cons_self _ _)
          fun other member => .inr (mem_cons_of_mem old member))

end Writing

theorem block {window : Window α} {above shown : List α} {blanks place : Nat} {blank : α}
    (views : Views window (above ++ shown ++ replicate blanks blank) place) {gone : Nat}
    (scrolled : above.length + shown.length + blanks - window.rows.length = gone) :
    window.row + gone = place ∧ window.rows = above.drop gone ++
      (shown.drop (gone - above.length) ++
        replicate (blanks - (gone - (above.length + shown.length))) blank) := by
  have size : (above ++ shown ++ replicate blanks blank).length =
      above.length + shown.length + blanks := by
    rw [length_append, length_append, length_replicate]
  have row := views.row
  have rows := views.rows
  rw [size, scrolled] at row
  rw [rtake, size, scrolled, drop_append, drop_append, drop_replicate,
    length_append, append_assoc] at rows
  exact ⟨row, rows.symm⟩

end Views

end Scroll
