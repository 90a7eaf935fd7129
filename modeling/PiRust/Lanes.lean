import Mathlib.Data.List.Nodup
import Mathlib.Data.List.Perm.Subperm
import Mathlib.Data.List.Range

/- A trace of the making of some rows, which are appended one by one and may be in
the making at the same time: each entry opens a row, adds a piece to it or closes
it. The entries of one row are its lane. -/
namespace Lanes

open List

inductive Mark (κ : Type) where
  | opened (kind : κ)
  | piece (kind : κ) (text : String)
  | closed (kind : κ)
  deriving DecidableEq, Repr

def Mark.isOpened {κ : Type} : Mark κ → Bool
  | .opened _ => true
  | _ => false

structure Row (κ : Type) where
  kind : κ
  written : Option String
  deriving DecidableEq, Repr

variable {κ : Type}

def Row.extend (text : String) (row : Row κ) : Row κ :=
  { row with written := row.written.map (· ++ text) }

def Row.Holds (row : Row κ) (pieces : List String) : Prop :=
  ∀ text, row.written = some text → String.join pieces = text

abbrev Trace (κ : Type) := List (Nat × Mark κ)

def lane (position : Nat) (trace : Trace κ) : List (Mark κ) :=
  (trace.filter fun entry => entry.1 = position).map Prod.snd

def started (kind : κ) (pieces : List String) : List (Mark κ) :=
  .opened kind :: pieces.map (.piece kind)

def bracket (kind : κ) (pieces : List String) : List (Mark κ) :=
  started kind pieces ++ [.closed kind]

/-- Each row is opened once, then gets its pieces and is closed; nothing else is
in the trace. -/
structure Bracketed (trace : Trace κ) (rows : List (Row κ)) : Prop where
  lanes : ∀ {position row}, rows[position]? = some row →
    ∃ pieces, row.Holds pieces ∧ lane position trace = bracket row.kind pieces
  inside : ∀ entry ∈ trace, entry.1 < rows.length

section Basics

theorem lane_append (position : Nat) (earlier later : Trace κ) :
    lane position (earlier ++ later) = lane position earlier ++ lane position later := by
  simp [lane]

theorem lane_singleton_self (position : Nat) (mark : Mark κ) :
    lane position [(position, mark)] = [mark] := by
  simp [lane]

theorem lane_singleton_other {position other : Nat} (apart : position ≠ other) (mark : Mark κ) :
    lane other [(position, mark)] = [] := by
  simp [lane, apart]

theorem lane_outside {position : Nat} {trace : Trace κ}
    (elsewhere : ∀ entry ∈ trace, entry.1 ≠ position) : lane position trace = [] := by
  rw [lane, map_eq_nil_iff, filter_eq_nil_iff]
  intro entry member
  simpa using elsewhere entry member

theorem modify_last {α : Type} (items : List α) (last : α) (change : α → α) :
    (items ++ [last]).modify items.length change = items ++ [change last] := by
  induction items with
  | nil => rfl
  | cons item rest ih =>
    rw [cons_append, length_cons, modify_succ_cons, ih, cons_append]

theorem Row.Holds.extend {row : Row κ} {pieces : List String} (holds : row.Holds pieces)
    (text : String) : (row.extend text).Holds (pieces ++ [text]) := by
  intro whole written
  obtain ⟨before, old, rfl⟩ := Option.map_eq_some_iff.mp written
  rw [String.join_append, String.join_cons, String.join_nil, String.append_empty, holds before old]

theorem started_concat (kind : κ) (pieces : List String) (text : String) :
    started kind (pieces ++ [text]) = started kind pieces ++ [.piece kind text] := by
  simp [started]

theorem closed_not_mem_started (kind other : κ) (pieces : List String) :
    Mark.closed other ∉ started kind pieces := by
  simp [started]

/-- A row in the making does not look like a finished one. -/
theorem started_ne_bracket (kind other : κ) (pieces more : List String) :
    started kind pieces ≠ bracket other more := by
  intro same
  apply closed_not_mem_started kind other pieces
  rw [same, bracket]
  exact mem_append_right _ (mem_singleton_self _)

end Basics

/-- Each row is what its lane of the trace says. -/
structure Traced (pending : List (κ × Nat)) (trace : Trace κ) (rows : List (Row κ)) : Prop where
  apart : (pending.map Prod.snd).Nodup
  kinds : ∀ entry ∈ pending, (rows[entry.2]?).map Row.kind = some entry.1
  lanes : ∀ {position row}, rows[position]? = some row → ∃ pieces, row.Holds pieces ∧
    lane position trace =
      if position ∈ pending.map Prod.snd then started row.kind pieces
      else bracket row.kind pieces
  inside : ∀ entry ∈ trace, entry.1 < rows.length

namespace Traced

variable {pending : List (κ × Nat)} {trace : Trace κ} {rows : List (Row κ)}

theorem initial : Traced ([] : List (κ × Nat)) [] [] where
  apart := nodup_nil
  kinds := forall_mem_nil _
  lanes := nofun
  inside := forall_mem_nil _

theorem perm (traced : Traced pending trace rows) {other : List (κ × Nat)}
    (same : other.Perm pending) : Traced other trace rows where
  apart := (same.map Prod.snd).nodup_iff.mpr traced.apart
  kinds := fun entry member => traced.kinds entry (same.mem_iff.mp member)
  lanes := by
    intro position row found
    simpa only [(same.map Prod.snd).mem_iff] using traced.lanes found
  inside := traced.inside

theorem pending_lt (traced : Traced pending trace rows) {entry : κ × Nat}
    (member : entry ∈ pending) : entry.2 < rows.length := by
  obtain ⟨row, found, _⟩ := Option.map_eq_some_iff.mp (traced.kinds entry member)
  exact (List.getElem?_eq_some_iff.mp found).1

theorem opened (traced : Traced pending trace rows) {row : Row κ} (empty : row.Holds []) :
    Traced ((row.kind, rows.length) :: pending) (trace ++ [(rows.length, .opened row.kind)])
      (rows ++ [row]) where
  apart := by
    rw [map_cons, nodup_cons]
    refine ⟨?_, traced.apart⟩
    intro taken
    obtain ⟨entry, member, same⟩ := mem_map.mp taken
    have := traced.pending_lt member
    omega
  kinds := by
    rintro entry member
    rcases mem_cons.mp member with rfl | old
    · simp
    · rw [getElem?_append_left (traced.pending_lt old)]
      exact traced.kinds entry old
  lanes := by
    intro position found_row found
    rw [lane_append]
    by_cases last : position = rows.length
    · subst last
      rw [getElem?_append_right (Nat.le_refl _), Nat.sub_self] at found
      obtain rfl := Option.some.inj found
      refine ⟨[], empty, ?_⟩
      have untouched : lane rows.length trace = [] :=
        lane_outside fun entry member => Nat.ne_of_lt (traced.inside entry member)
      rw [untouched, lane_singleton_self, if_pos (by simp)]
      rfl
    · have old : rows[position]? = some found_row := by
        have bound := (List.getElem?_eq_some_iff.mp found).1
        rw [length_append, length_singleton] at bound
        rwa [getElem?_append_left (by omega)] at found
      obtain ⟨pieces, holds, same⟩ := traced.lanes old
      refine ⟨pieces, holds, ?_⟩
      rw [lane_singleton_other (Ne.symm last), append_nil, same, map_cons]
      simp only [mem_cons, last, false_or]
  inside := by
    intro entry member
    rw [length_append, length_singleton]
    rcases mem_append.mp member with old | new
    · exact Nat.lt_succ_of_lt (traced.inside entry old)
    · rw [mem_singleton.mp new]
      exact Nat.lt_succ_self _

theorem piece (traced : Traced pending trace rows) {kind : κ} {p : Nat}
    (running : (kind, p) ∈ pending) (text : String) :
    Traced pending (trace ++ [(p, .piece kind text)]) (rows.modify p (Row.extend text)) where
  apart := traced.apart
  kinds := by
    intro entry member
    have known := traced.kinds entry member
    rw [getElem?_modify]
    cases read : rows[entry.2]? with
    | none => rwa [read] at known
    | some row =>
      rw [read] at known
      by_cases here : p = entry.2
      · simpa [here, Row.extend] using known
      · simpa [here] using known
  lanes := by
    intro position row found
    rw [getElem?_modify] at found
    obtain ⟨before, old, rfl⟩ := Option.map_eq_some_iff.mp found
    obtain ⟨pieces, holds, same⟩ := traced.lanes old
    rw [lane_append]
    by_cases here : p = position
    · subst here
      have kept : before.kind = kind := by
        have known := traced.kinds _ running
        rw [old] at known
        exact Option.some.inj known
      have taken : p ∈ pending.map Prod.snd := mem_map.mpr ⟨_, running, rfl⟩
      rw [if_pos taken] at same
      refine ⟨pieces ++ [text], ?_, ?_⟩
      · rw [if_pos rfl]
        exact holds.extend text
      · rw [if_pos taken, if_pos rfl, same, lane_singleton_self, ← kept]
        exact (started_concat _ _ _).symm
    · refine ⟨pieces, ?_, ?_⟩
      · rwa [if_neg here]
      · rw [lane_singleton_other here, append_nil, same, if_neg here]
  inside := by
    intro entry member
    rw [length_modify]
    rcases mem_append.mp member with old | new
    · exact traced.inside entry old
    · rw [mem_singleton.mp new]
      exact traced.pending_lt running

theorem closed {kind : κ} {p : Nat} (traced : Traced ((kind, p) :: pending) trace rows) :
    Traced pending (trace ++ [(p, .closed kind)]) rows where
  apart := (nodup_cons.mp traced.apart).2
  kinds := fun entry member => traced.kinds entry (mem_cons_of_mem _ member)
  lanes := by
    intro position row found
    obtain ⟨pieces, holds, same⟩ := traced.lanes found
    refine ⟨pieces, holds, ?_⟩
    rw [lane_append]
    by_cases here : p = position
    · subst here
      have kept : row.kind = kind := by
        have known := traced.kinds _ mem_cons_self
        rw [found] at known
        exact Option.some.inj known
      rw [if_pos (by simp)] at same
      rw [if_neg (nodup_cons.mp traced.apart).1, same, lane_singleton_self, kept]
      rfl
    · rw [lane_singleton_other here, append_nil, same, map_cons]
      simp only [mem_cons, Ne.symm here, false_or]
  inside := by
    intro entry member
    rcases mem_append.mp member with old | new
    · exact traced.inside entry old
    · rw [mem_singleton.mp new]
      exact traced.pending_lt mem_cons_self

theorem whole (traced : Traced pending trace rows) (kind : κ) (written : Option String)
    {text : String} (given : ∀ all, written = some all → all = text) :
    Traced pending (trace ++ [(rows.length, .opened kind), (rows.length, .piece kind text),
      (rows.length, .closed kind)]) (rows ++ [⟨kind, written⟩]) := by
  have empty : (⟨kind, written.map fun _ => ""⟩ : Row κ).Holds [] := by
    intro all made
    obtain ⟨_, _, rfl⟩ := Option.map_eq_some_iff.mp made
    rfl
  have done := ((traced.opened empty).piece mem_cons_self text).closed
  have same : (rows ++ [(⟨kind, written.map fun _ => ""⟩ : Row κ)]).modify rows.length
      (Row.extend text) = rows ++ [⟨kind, written⟩] := by
    rw [modify_last]
    cases written with
    | none => rfl
    | some all =>
      rw [given all rfl]
      simp [Row.extend]
  rw [same] at done
  simpa only [append_assoc, cons_append, nil_append] using done

theorem bracketed_iff (traced : Traced pending trace rows) :
    Bracketed trace rows ↔ pending = [] := by
  constructor
  · intro bracketed
    cases pending with
    | nil => rfl
    | cons entry others =>
      obtain ⟨row, found, _⟩ := Option.map_eq_some_iff.mp (traced.kinds entry mem_cons_self)
      obtain ⟨pieces, _, unfinished⟩ := traced.lanes found
      obtain ⟨more, _, finished⟩ := bracketed.lanes found
      rw [if_pos (by simp), finished] at unfinished
      exact absurd unfinished.symm (started_ne_bracket _ _ _ _)
  · rintro rfl
    exact ⟨fun found => by simpa using traced.lanes found, traced.inside⟩

end Traced

/-- Rows whose making is not interleaved: what the trace says from the opening of a
row to the next opening is about that row. -/
structure Stretch (κ : Type) where
  position : Nat
  kind : κ
  body : List (Mark κ)

namespace Stretch

def marks (stretch : Stretch κ) : List (Mark κ) := .opened stretch.kind :: stretch.body

def trace (stretch : Stretch κ) : Trace κ :=
  stretch.marks.map fun mark => (stretch.position, mark)

def Whole (stretch : Stretch κ) (row : Row κ) : Prop :=
  row.kind = stretch.kind ∧ ∃ pieces, row.Holds pieces ∧
    stretch.body = pieces.map (.piece stretch.kind) ++ [.closed stretch.kind]

theorem lane_trace (stretch : Stretch κ) (position : Nat) :
    lane position stretch.trace = if stretch.position = position then stretch.marks else [] := by
  split
  · rename_i here
    subst here
    have all : (stretch.marks.map fun mark => (stretch.position, mark)).filter
        (fun entry => entry.1 = stretch.position) =
          stretch.marks.map fun mark => (stretch.position, mark) := by
      rw [filter_eq_self]
      intro entry member
      obtain ⟨_, _, rfl⟩ := mem_map.mp member
      exact decide_eq_true rfl
    rw [lane, trace, all, map_map]
    exact map_id _
  · rename_i apart
    apply lane_outside
    intro entry member
    obtain ⟨_, _, rfl⟩ := mem_map.mp member
    exact apart

theorem lane_flatMap (stretches : List (Stretch κ)) (position : Nat) :
    lane position (stretches.flatMap trace) =
      (stretches.filter fun stretch => stretch.position = position).flatMap marks := by
  induction stretches with
  | nil => rfl
  | cons stretch others ih =>
    rw [flatMap_cons, lane_append, lane_trace, ih, filter_cons]
    by_cases here : stretch.position = position
    · simp [here]
    · simp [here]

variable {rows : List (Row κ)} {stretches : List (Stretch κ)}

theorem count_opened (plain : ∀ stretch ∈ stretches, ∀ mark ∈ stretch.body, mark.isOpened = false) :
    (stretches.flatMap marks).countP Mark.isOpened = stretches.length := by
  induction stretches with
  | nil => rfl
  | cons stretch others ih =>
    have own : stretch.body.countP Mark.isOpened = 0 := by
      rw [countP_eq_zero]
      intro mark member
      rw [plain stretch mem_cons_self mark member]
      exact Bool.false_ne_true
    rw [flatMap_cons, countP_append, marks, countP_cons, own,
      ih fun other member => plain other (mem_cons_of_mem _ member), length_cons]
    simp [Mark.isOpened, Nat.add_comm]

theorem count_bracket (kind : κ) (pieces : List String) :
    (bracket kind pieces).countP Mark.isOpened = 1 := by
  have none_in : (pieces.map (Mark.piece kind)).countP Mark.isOpened = 0 := by
    rw [countP_eq_zero]
    intro mark member
    obtain ⟨text, _, rfl⟩ := mem_map.mp member
    exact Bool.false_ne_true
  rw [bracket, started, cons_append, countP_cons, countP_append, none_in]
  rfl

theorem count_position (stretches : List (Stretch κ)) (p : Nat) :
    (stretches.map position).count p =
      (stretches.filter fun stretch => stretch.position = p).length := by
  rw [count, countP_map, countP_eq_length_filter]
  congr 1

def Plain (stretches : List (Stretch κ)) : Prop :=
  ∀ stretch ∈ stretches, ∀ mark ∈ stretch.body, mark.isOpened = false

theorem whole_of_bracketed (plain : Plain stretches)
    (bracketed : Bracketed (stretches.flatMap trace) rows) {stretch : Stretch κ}
    (member : stretch ∈ stretches) :
    (stretches.filter fun other => other.position = stretch.position) = [stretch] ∧
      ∃ row, rows[stretch.position]? = some row ∧ stretch.Whole row := by
  have inside : stretch.position < rows.length := by
    apply bracketed.inside (stretch.position, .opened stretch.kind)
    exact mem_flatMap.mpr ⟨stretch, member, mem_cons_self⟩
  have found := getElem?_eq_getElem inside
  obtain ⟨pieces, holds, same⟩ := bracketed.lanes found
  rw [lane_flatMap] at same
  have own : stretch ∈ stretches.filter fun other => other.position = stretch.position :=
    mem_filter.mpr ⟨member, decide_eq_true rfl⟩
  have single : (stretches.filter fun other => other.position = stretch.position).length = 1 := by
    rw [← count_opened fun other among => plain other (mem_filter.mp among).1, same]
    exact count_bracket _ _
  obtain ⟨only, alone⟩ := length_eq_one_iff.mp single
  rw [alone] at own same
  obtain rfl := mem_singleton.mp own
  refine ⟨alone, _, found, ?_⟩
  simp only [flatMap_cons, flatMap_nil, append_nil, marks, bracket, started,
    cons_append, cons.injEq, Mark.opened.injEq] at same
  refine ⟨same.1.symm, pieces, holds, ?_⟩
  rw [same.1]
  exact same.2

theorem nothing_before {position : Nat} {marks : List (Mark κ)} {later : Trace κ}
    (bracketed : Bracketed (marks.map (fun mark => (position, mark)) ++ later) rows)
    (plain : ∀ mark ∈ marks, mark.isOpened = false) : marks = [] := by
  cases marks with
  | nil => rfl
  | cons mark rest =>
    have inside := bracketed.inside (position, mark) (by simp)
    obtain ⟨pieces, _, same⟩ := bracketed.lanes (getElem?_eq_getElem inside)
    rw [map_cons, cons_append, ← singleton_append, lane_append, lane_singleton_self] at same
    have first := plain mark mem_cons_self
    rw [(cons.inj same).1] at first
    cases first

theorem covered (apart : (stretches.map position).Nodup) (all : stretches.length = rows.length)
    (inside : ∀ stretch ∈ stretches, stretch.position < rows.length) {p : Nat}
    (row : p < rows.length) : ∃ stretch ∈ stretches, stretch.position = p := by
  have within : (stretches.map position).Subset (range rows.length) := by
    intro place member
    obtain ⟨stretch, among, rfl⟩ := mem_map.mp member
    exact mem_range.mpr (inside stretch among)
  have same := (Nodup.subperm apart within).perm_of_length_le (by simp [all])
  exact mem_map.mp (same.mem_iff.mpr (mem_range.mpr row))

theorem bracketed_iff (plain : Plain stretches) (all : stretches.length = rows.length) :
    Bracketed (stretches.flatMap trace) rows ↔ (stretches.map position).Nodup ∧
      ∀ stretch ∈ stretches, ∃ row, rows[stretch.position]? = some row ∧ stretch.Whole row := by
  constructor
  · intro bracketed
    refine ⟨?_, fun stretch member => (whole_of_bracketed plain bracketed member).2⟩
    rw [nodup_iff_count_le_one]
    intro p
    by_cases taken : p ∈ stretches.map position
    · obtain ⟨stretch, member, rfl⟩ := mem_map.mp taken
      rw [count_position, (whole_of_bracketed plain bracketed member).1]
      exact Nat.le_refl _
    · rw [count_eq_zero.mpr taken]
      exact Nat.zero_le _
  · rintro ⟨apart, wholes⟩
    have inside : ∀ stretch ∈ stretches, stretch.position < rows.length := by
      intro stretch member
      obtain ⟨row, found, _⟩ := wholes stretch member
      exact (List.getElem?_eq_some_iff.mp found).1
    constructor
    · intro p row found
      obtain ⟨stretch, member, rfl⟩ := covered apart all inside
        (List.getElem?_eq_some_iff.mp found).1
      obtain ⟨other, same, kind, pieces, holds, body⟩ := wholes stretch member
      obtain rfl := Option.some.inj (same.symm.trans found)
      refine ⟨pieces, holds, ?_⟩
      have at_most := nodup_iff_count_le_one.mp apart stretch.position
      rw [count_position] at at_most
      have own : stretch ∈ stretches.filter fun other => other.position = stretch.position :=
        mem_filter.mpr ⟨member, decide_eq_true rfl⟩
      have single := Nat.le_antisymm at_most (length_pos_of_mem own)
      obtain ⟨only, alone⟩ := length_eq_one_iff.mp single
      rw [alone] at own
      obtain rfl := mem_singleton.mp own
      rw [lane_flatMap, alone, flatMap_singleton, marks, body, kind]
      rfl
    · intro entry member
      obtain ⟨stretch, among, made⟩ := mem_flatMap.mp member
      obtain ⟨_, _, rfl⟩ := mem_map.mp made
      exact inside stretch among

end Stretch

end Lanes
