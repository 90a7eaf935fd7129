import Mathlib.Data.List.Induction
import Mathlib.Data.List.Nodup
import Mathlib.Data.List.Perm.Basic

/- Building a forest from entries that name their parents: the entries are grouped by parent, and
each group is taken out of the groups once. -/
namespace Forests

open List

variable {κ ε : Type}

inductive Tree (ε : Type) where
  | node (entry : ε) (children : List (Tree ε))

def Tree.entry : Tree ε → ε
  | .node entry _ => entry

def Tree.children : Tree ε → List (Tree ε)
  | .node _ children => children

variable (idOf : ε → κ) (parentOf : ε → Option κ)

mutual

/-- The entries of a tree, each with the id of the entry above it. -/
def Tree.rows : Option κ → Tree ε → List (ε × Option κ)
  | parent, .node entry children => (entry, parent) :: forestRows (some (idOf entry)) children

def forestRows : Option κ → List (Tree ε) → List (ε × Option κ)
  | _, [] => []
  | parent, tree :: forest => Tree.rows parent tree ++ forestRows parent forest

end

section groups

variable [DecidableEq κ]

abbrev Groups (κ ε : Type) := List (Option κ × List ε)

/-- `entry(key).or_default().push(entry)`. -/
def push (key : Option κ) (entry : ε) : Groups κ ε → Groups κ ε
  | [] => [(key, [entry])]
  | group :: groups =>
    if group.1 = key then (key, group.2 ++ [entry]) :: groups
    else group :: push key entry groups

/-- `remove(key).unwrap_or_default()`: the group and the groups without it. -/
def remove (key : Option κ) : Groups κ ε → List ε × Groups κ ε
  | [] => ([], [])
  | group :: groups =>
    if group.1 = key then (group.2, groups)
    else
      let rest := remove key groups
      (rest.1, group :: rest.2)

def growAll (grow : Option κ → Groups κ ε → Option (List (Tree ε) × Groups κ ε)) :
    List ε → Groups κ ε → Option (List (Tree ε) × Groups κ ε)
  | [], groups => some ([], groups)
  | entry :: entries, groups => do
      let (children, groups) ← grow (some (idOf entry)) groups
      let (forest, groups) ← growAll grow entries groups
      return (.node entry children :: forest, groups)

/-- The forest below a parent, built in depth first order. It is `none` where the recursion goes
deeper than there are rounds. -/
def grow : Nat → Option κ → Groups κ ε → Option (List (Tree ε) × Groups κ ε)
  | 0, _, _ => none
  | rounds + 1, parent, groups =>
    let (entries, groups) := remove parent groups
    growAll idOf (grow rounds) entries groups

def gather (entries : List ε) : Groups κ ε :=
  entries.foldl (fun groups entry => push (parentOf entry) entry groups) []

end groups

def keys (groups : Groups κ ε) : List (Option κ) := groups.map Prod.fst

def all (groups : Groups κ ε) : List ε := groups.flatMap Prod.snd

/-- Each parent has one group, of its own entries. -/
structure Grouped (groups : Groups κ ε) : Prop where
  unique : (keys groups).Nodup
  placed : ∀ group ∈ groups, ∀ entry ∈ group.2, parentOf entry = group.1

variable {idOf parentOf} {groups : Groups κ ε}

theorem Grouped.mono (grouped : Grouped parentOf groups) {fewer : Groups κ ε}
    (less : fewer.Sublist groups) : Grouped parentOf fewer where
  unique := (less.map Prod.fst).nodup grouped.unique
  placed := fun group member => grouped.placed group (less.subset member)

section pushing

variable [DecidableEq κ] {key : Option κ} {entry : ε}

theorem keys_push (key : Option κ) (entry : ε) (groups : Groups κ ε) :
    keys (push key entry groups) = if key ∈ keys groups then keys groups else keys groups ++ [key] := by
  induction groups with
  | nil => rfl
  | cons group groups ih =>
    rw [push]
    by_cases here : group.1 = key
    · subst here
      have present : group.1 ∈ keys (group :: groups) := mem_cons_self
      rw [if_pos rfl, if_pos present]
      rfl
    · have other : key ∈ keys (group :: groups) ↔ key ∈ keys groups := by
        rw [keys, map_cons, mem_cons, or_iff_right (Ne.symm here), keys]
      rw [if_neg here]
      show group.1 :: keys (push key entry groups) = _
      simp only [ih, other]
      split
      · rfl
      · rfl

theorem all_push (key : Option κ) (entry : ε) (groups : Groups κ ε) :
    (all (push key entry groups)).Perm (entry :: all groups) := by
  induction groups with
  | nil => exact Perm.refl _
  | cons group groups ih =>
    rw [push]
    split
    · show ((group.2 ++ [entry]) ++ all groups).Perm (entry :: (group.2 ++ all groups))
      rw [append_assoc]
      exact perm_middle
    · show (group.2 ++ all (push key entry groups)).Perm (entry :: (group.2 ++ all groups))
      exact (ih.append_left group.2).trans perm_middle

theorem push_placed (grouped : ∀ group ∈ groups, ∀ entry ∈ group.2, parentOf entry = group.1)
    (parent : parentOf entry = key) :
    ∀ group ∈ push key entry groups, ∀ entry ∈ group.2, parentOf entry = group.1 := by
  induction groups with
  | nil =>
    intro group member other inside
    cases mem_singleton.mp member
    cases mem_singleton.mp inside
    exact parent
  | cons first groups ih =>
    have later := ih fun group member => grouped group (mem_cons_of_mem _ member)
    have here := grouped first mem_cons_self
    rw [push]
    split
    · next same =>
      refine forall_mem_cons.mpr ⟨fun other inside => ?_, fun group member =>
        grouped group (mem_cons_of_mem _ member)⟩
      rcases mem_append.mp inside with old | new
      · exact (here other old).trans same
      · rw [mem_singleton.mp new]
        exact parent
    · exact forall_mem_cons.mpr ⟨here, later⟩

theorem Grouped.push (grouped : Grouped parentOf groups) (parent : parentOf entry = key) :
    Grouped parentOf (push key entry groups) where
  unique := by
    rw [keys_push]
    split
    · exact grouped.unique
    · next new =>
      exact Nodup.append grouped.unique (nodup_singleton key) (disjoint_singleton.mpr new)
  placed := push_placed grouped.placed parent

theorem gather_concat (entries : List ε) (entry : ε) :
    gather parentOf (entries ++ [entry]) =
      Forests.push (parentOf entry) entry (gather parentOf entries) := by
  rw [gather, foldl_append]
  rfl

theorem gather_grouped (entries : List ε) : Grouped parentOf (gather parentOf entries) := by
  induction entries using reverseRecOn with
  | nil => exact ⟨nodup_nil, nofun⟩
  | append_singleton entries entry ih =>
    rw [gather_concat]
    exact ih.push rfl

theorem all_gather (entries : List ε) : (all (gather parentOf entries)).Perm entries := by
  induction entries using reverseRecOn with
  | nil => exact Perm.refl _
  | append_singleton entries entry ih =>
    rw [gather_concat]
    exact (all_push _ _ _).trans ((ih.cons entry).trans (perm_append_singleton entry entries).symm)

theorem length_gather (entries : List ε) : (gather parentOf entries).length ≤ entries.length := by
  induction entries using reverseRecOn with
  | nil => exact Nat.le_refl _
  | append_singleton entries entry ih =>
    have pushed := congrArg length (keys_push (parentOf entry) entry (gather parentOf entries))
    rw [keys, length_map] at pushed
    rw [gather_concat, pushed, length_append, length_singleton]
    split
    · rw [keys, length_map]
      exact Nat.le_succ_of_le ih
    · rw [keys, length_append, length_map, length_singleton]
      exact Nat.succ_le_succ ih

end pushing

section removing

variable [DecidableEq κ] (key : Option κ) (groups : Groups κ ε)

theorem remove_all : ((remove key groups).1 ++ all (remove key groups).2).Perm (all groups) := by
  induction groups with
  | nil => exact Perm.refl _
  | cons group groups ih =>
    rw [remove]
    split
    · exact Perm.refl _
    · show ((remove key groups).1 ++ (group.2 ++ all (remove key groups).2)).Perm
        (group.2 ++ all groups)
      exact (perm_append_comm_assoc _ _ _).trans (ih.append_left group.2)

theorem remove_sublist : (remove key groups).2.Sublist groups := by
  induction groups with
  | nil => exact Sublist.refl _
  | cons group groups ih =>
    rw [remove]
    split
    · exact sublist_cons_self group groups
    · exact ih.cons_cons group

theorem remove_shorter : (remove key groups).1 = [] ∨
    (remove key groups).2.length < groups.length := by
  induction groups with
  | nil => exact .inl rfl
  | cons group groups ih =>
    rw [remove]
    split
    · exact .inr (Nat.lt_succ_self _)
    · rcases ih with none | less
      · exact .inl none
      · exact .inr (Nat.succ_lt_succ less)

variable {groups}

theorem Grouped.removed (grouped : Grouped parentOf groups) :
    key ∉ keys (remove key groups).2 ∧ ∀ entry ∈ (remove key groups).1, parentOf entry = key := by
  induction groups with
  | nil => exact ⟨not_mem_nil, nofun⟩
  | cons group groups ih =>
    have apart := nodup_cons.mp grouped.unique
    obtain ⟨absent, placed⟩ := ih (grouped.mono (sublist_cons_self group groups))
    rw [remove]
    split
    · next same =>
      subst same
      exact ⟨apart.1, grouped.placed group mem_cons_self⟩
    · next other =>
      exact ⟨fun inside => (mem_cons.mp inside).elim (fun same => other same.symm) absent, placed⟩

end removing

/-- What was taken out of the groups, and what is left. -/
structure Grown (idOf : ε → κ) (parentOf : ε → Option κ) (groups : Groups κ ε) (entries : List ε)
    (rows : List (ε × Option κ)) (rest : Groups κ ε) : Prop where
  kept : (rows.map Prod.fst ++ all rest).Perm (entries ++ all groups)
  linked : ∀ row ∈ rows, parentOf row.1 = row.2
  less : rest.Sublist groups
  closed : ∀ row ∈ rows, some (idOf row.1) ∉ keys rest

section growing

variable {rounds : Nat}

theorem growAll_ok {below : Option κ → Groups κ ε → Option (List (Tree ε) × Groups κ ε)}
    (grows : ∀ id groups, Grouped parentOf groups → groups.length < rounds →
      ∃ forest rest, below (some id) groups = some (forest, rest) ∧
        Grown idOf parentOf groups [] (forestRows idOf (some id) forest) rest ∧
        some id ∉ keys rest) (parent : Option κ) (entries : List ε) {groups : Groups κ ε}
    (grouped : Grouped parentOf groups) (few : groups.length < rounds)
    (placed : ∀ entry ∈ entries, parentOf entry = parent) :
    ∃ forest rest, growAll idOf below entries groups = some (forest, rest) ∧
      Grown idOf parentOf groups entries (forestRows idOf parent forest) rest := by
  induction entries generalizing groups with
  | nil =>
    refine ⟨[], groups, rfl, ?_⟩
    exact ⟨Perm.refl _, fun _ member => (nomatch member), Sublist.refl _,
      nofun⟩
  | cons entry entries ih =>
    obtain ⟨here, others⟩ := forall_mem_cons.mp placed
    obtain ⟨children, left, grown, child, gone⟩ := grows (idOf entry) groups grouped few
    obtain ⟨forest, rest, looped, later⟩ := ih (grouped.mono child.less)
      (Nat.lt_of_le_of_lt child.less.length_le few) others
    refine ⟨.node entry children :: forest, rest, ?_, ?_⟩
    · rw [growAll, grown]
      simp only [Option.bind_eq_bind, Option.bind_some, looped]
      rfl
    have rows : forestRows idOf parent (.node entry children :: forest) =
        (entry, parent) :: (forestRows idOf (some (idOf entry)) children ++
          forestRows idOf parent forest) := by
      rw [forestRows, Tree.rows, cons_append]
    have fewer : ∀ {key : Option κ}, key ∉ keys left → key ∉ keys rest :=
      fun absent inside => absent ((later.less.map Prod.fst).subset inside)
    rw [rows]
    constructor
    · rw [map_cons, map_append, cons_append, cons_append, append_assoc]
      refine Perm.cons entry ?_
      exact (later.kept.append_left _).trans
        ((perm_append_comm_assoc _ _ _).trans (child.kept.append_left entries))
    · refine forall_mem_cons.mpr ⟨here, fun row member => ?_⟩
      rcases mem_append.mp member with below | beside
      · exact child.linked row below
      · exact later.linked row beside
    · exact later.less.trans child.less
    · refine forall_mem_cons.mpr ⟨fewer gone, fun row member => ?_⟩
      rcases mem_append.mp member with below | beside
      · exact fewer (child.closed row below)
      · exact later.closed row beside

theorem growAll_mono {below deeper : Option κ → Groups κ ε → Option (List (Tree ε) × Groups κ ε)}
    (more : ∀ key groups result, below key groups = some result → deeper key groups = some result)
    {entries : List ε} {groups : Groups κ ε} {result : List (Tree ε) × Groups κ ε}
    (grown : growAll idOf below entries groups = some result) :
    growAll idOf deeper entries groups = some result := by
  induction entries generalizing groups result with
  | nil => exact grown
  | cons entry entries ih =>
    simp only [growAll, Option.bind_eq_bind, Option.bind_eq_some_iff] at grown ⊢
    obtain ⟨child, first, later, rest, whole⟩ := grown
    exact ⟨child, more _ _ _ first, later, ih rest, whole⟩

variable [DecidableEq κ]

theorem grow_ok (parent : Option κ) (grouped : Grouped parentOf groups)
    (enough : groups.length < rounds) :
    ∃ forest rest, grow idOf rounds parent groups = some (forest, rest) ∧
      Grown idOf parentOf groups [] (forestRows idOf parent forest) rest ∧
      parent ∉ keys rest := by
  induction rounds generalizing parent groups with
  | zero => exact absurd enough (Nat.not_lt_zero _)
  | succ rounds ih =>
    obtain ⟨gone, placed⟩ := grouped.removed parent
    have fewer := remove_sublist parent groups
    have left := grouped.mono fewer
    have looped : ∃ forest rest, growAll idOf (grow idOf rounds) (remove parent groups).1
        (remove parent groups).2 = some (forest, rest) ∧
          Grown idOf parentOf (remove parent groups).2 (remove parent groups).1
            (forestRows idOf parent forest) rest := by
      rcases remove_shorter parent groups with none | shorter
      · rw [none]
        exact ⟨[], _, rfl, Perm.refl _, nofun,
          Sublist.refl _, nofun⟩
      · exact growAll_ok (fun id groups grouped few => ih (some id) grouped few) parent _ left
          (Nat.lt_of_lt_of_le shorter (Nat.le_of_lt_succ enough)) placed
    obtain ⟨forest, rest, same, grown⟩ := looped
    refine ⟨forest, rest, same, ?_, fun inside => gone ((grown.less.map Prod.fst).subset inside)⟩
    exact ⟨grown.kept.trans (remove_all parent groups), grown.linked, grown.less.trans fewer,
      grown.closed⟩

def Descending (idOf : ε → κ) (parentOf : ε → Option κ) (entries : List ε) : Prop :=
  ∀ front entry, front ++ [entry] <+: entries → ∀ parent, parentOf entry = some parent →
    parent ∈ front.map idOf

variable {entries : List ε} {parent : Option κ} {result : List (Tree ε) × Groups κ ε}

theorem grown_whole {rows : List (ε × Option κ)} {rest : Groups κ ε}
    (descending : Descending idOf parentOf entries)
    (grown : Grown idOf parentOf (gather parentOf entries) [] rows rest)
    (roots : none ∉ keys rest) : (rows.map Prod.fst).Perm entries := by
  have kept : (rows.map Prod.fst ++ all rest).Perm entries := grown.kept.trans (all_gather entries)
  have left : Grouped parentOf rest := (gather_grouped entries).mono grown.less
  have taken : ∀ front, front <+: entries → ∀ entry ∈ front, entry ∉ all rest := by
    intro front
    induction front using reverseRecOn with
    | nil => exact nofun
    | append_singleton front entry ih =>
      intro inside other member kept'
      have before := ih ((prefix_append front [entry]).trans inside)
      rcases mem_append.mp member with early | last
      · exact before other early kept'
      · cases mem_singleton.mp last
        obtain ⟨group, there, within⟩ := mem_flatMap.mp kept'
        have key : parentOf entry ∈ keys rest := by
          rw [left.placed group there entry within]
          exact mem_map_of_mem there
        cases named : parentOf entry with
        | none =>
          rw [named] at key
          exact roots key
        | some parent =>
          rw [named] at key
          obtain ⟨above, early, rfl⟩ := mem_map.mp (descending front entry inside parent named)
          have known : above ∈ entries := inside.subset (mem_append_left _ early)
          rcases mem_append.mp (kept.mem_iff.mpr known) with inside' | left'
          · obtain ⟨row, listed, rfl⟩ := mem_map.mp inside'
            exact grown.closed row listed key
          · exact before above early left'
  have none : all rest = [] := by
    refine eq_nil_iff_forall_not_mem.mpr fun entry member => ?_
    exact taken entries prefix_rfl entry (kept.mem_iff.mp (mem_append_right _ member)) member
  rw [none, append_nil] at kept
  exact kept

theorem grow_whole (descending : Descending idOf parentOf entries)
    (enough : entries.length < rounds) :
    ∃ forest rest, grow idOf rounds none (gather parentOf entries) = some (forest, rest) ∧
      ((forestRows idOf none forest).map Prod.fst).Perm entries ∧
      ∀ row ∈ forestRows idOf none forest, parentOf row.1 = row.2 := by
  have grouped : Grouped parentOf (gather parentOf entries) := gather_grouped entries
  obtain ⟨forest, rest, grows, grown, roots⟩ : ∃ forest rest,
      grow idOf rounds none (gather parentOf entries) = some (forest, rest) ∧
        Grown idOf parentOf (gather parentOf entries) [] (forestRows idOf none forest) rest ∧
        none ∉ keys rest :=
    grow_ok none grouped (Nat.lt_of_le_of_lt (length_gather entries) enough)
  exact ⟨forest, rest, grows, grown_whole descending grown roots, grown.linked⟩

theorem grow_succ (grown : grow idOf rounds parent groups = some result) :
    grow idOf (rounds + 1) parent groups = some result := by
  induction rounds generalizing parent groups result with
  | zero => cases grown
  | succ rounds ih => exact growAll_mono (fun _ _ _ => ih) grown

theorem grow_mono {enough : Nat} (fewer : rounds ≤ enough)
    (grown : grow idOf rounds parent groups = some result) :
    grow idOf enough parent groups = some result := by
  induction fewer with
  | refl => exact grown
  | step _ ih => exact grow_succ ih

end growing

end Forests
