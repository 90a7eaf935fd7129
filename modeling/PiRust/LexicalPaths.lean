import Mathlib.Data.List.Infix
import Mathlib.Logic.Nontrivial.Basic

/- Paths as their components, and where they lead when nothing but the components is looked at.
A path that is not from the root is read from a directory that is not known. -/
namespace LexicalPaths

open List

variable {ν : Type}

inductive Component (ν : Type)
  | rootDir
  | curDir
  | parentDir
  | normal (name : ν)
  deriving DecidableEq, Repr

open Component

variable (place : List ν)

def advance : Component ν → List ν
  | .rootDir => []
  | .curDir => place
  | .parentDir => place.dropLast
  | .normal name => place ++ [name]

def walk (path : List (Component ν)) : List ν := path.foldl advance place

def enter (stack : List (Component ν)) : Component ν → List (Component ν)
  | .parentDir =>
    match stack.getLast? with
    | some (.normal _) => stack.dropLast
    | _ => stack ++ [parentDir]
  | .curDir => stack
  | other => stack ++ [other]

def normalize (path : List (Component ν)) : List (Component ν) := path.foldl enter []

/-- A path is inside a directory if it leads below it, wherever both are read from. -/
def Inside (cwd path : List (Component ν)) : Prop :=
  ∀ place, walk place cwd <+: walk place path

/-- Nothing but steps to the parent, or no step at all. -/
def OnlyParents (path : List (Component ν)) : Prop := ∀ component ∈ path, component = parentDir

instance [DecidableEq ν] (path : List (Component ν)) : Decidable (OnlyParents path) :=
  inferInstanceAs (Decidable (∀ component ∈ path, component = parentDir))

def Relative (path : List (Component ν)) : Prop := ∀ component ∈ path, component ≠ rootDir

def Spelled (path : List (Component ν)) : Prop := Relative path.tail

theorem walk_append (front back : List (Component ν)) :
    walk place (front ++ back) = walk (walk place front) back :=
  foldl_append

theorem walk_concat (path : List (Component ν)) (component : Component ν) :
    walk place (path ++ [component]) = advance (walk place path) component := by
  rw [walk_append]
  rfl

theorem walk_normals (names : List ν) : walk place (names.map normal) = place ++ names := by
  induction names generalizing place with
  | nil => exact (append_nil place).symm
  | cons name names ih =>
    have rest := ih (place ++ [name])
    rw [append_assoc, singleton_append] at rest
    exact rest

theorem walk_parents (n : Nat) :
    walk place (replicate n parentDir) = place.take (place.length - n) := by
  induction n generalizing place with
  | zero => exact (take_length (l := place)).symm
  | succ n ih =>
    have rest := ih place.dropLast
    rw [dropLast_eq_take, length_take, take_take] at rest
    rw [replicate_succ, walk, foldl_cons]
    have count : min (min (place.length - 1) place.length - n) (place.length - 1) =
        place.length - (n + 1) := by omega
    rw [count] at rest
    rw [← rest, advance, dropLast_eq_take]
    rfl

section entering

variable {stack : List (Component ν)}

theorem enter_name (front : List (Component ν)) (name : ν) :
    enter (front ++ [normal name]) parentDir = front := by
  rw [enter, getLast?_concat]
  exact dropLast_concat

theorem enter_parent (nameless : ∀ name, stack.getLast? ≠ some (normal name)) :
    enter stack parentDir = stack ++ [parentDir] := by
  rw [enter]
  split
  · next name last => exact absurd last (nameless name)
  · rfl

theorem stack_cases (stack : List (Component ν)) :
    (∃ front name, stack = front ++ [normal name]) ∨
      ∀ name, stack.getLast? ≠ some (normal name) := by
  by_cases named : ∃ name, stack.getLast? = some (normal name)
  · obtain ⟨name, last⟩ := named
    obtain ⟨front, split⟩ := getLast?_eq_some_iff.mp last
    exact .inl ⟨front, name, split⟩
  · exact .inr fun name last => named ⟨name, last⟩

theorem walk_enter (stack : List (Component ν)) (component : Component ν) :
    walk place (enter stack component) = advance (walk place stack) component := by
  cases component with
  | rootDir => exact walk_concat place stack rootDir
  | curDir => rfl
  | normal name => exact walk_concat place stack (normal name)
  | parentDir =>
    rcases stack_cases stack with ⟨front, name, rfl⟩ | nameless
    · rw [enter_name, walk_concat]
      exact dropLast_concat.symm
    · rw [enter_parent nameless]
      exact walk_concat place stack parentDir

theorem walk_foldl_enter (stack path : List (Component ν)) :
    walk place (path.foldl enter stack) = walk (walk place stack) path := by
  induction path generalizing stack with
  | nil => rfl
  | cons component path ih =>
    rw [foldl_cons, ih, walk_enter]
    rfl

theorem walk_normalize (path : List (Component ν)) :
    walk place (normalize path) = walk place path :=
  walk_foldl_enter place [] path

theorem enter_above (n : Nat) (stack : List (Component ν)) (component : Component ν) :
    enter (replicate n parentDir ++ stack) component =
      replicate n parentDir ++ enter stack component := by
  cases component with
  | rootDir | normal name => exact append_assoc ..
  | curDir => rfl
  | parentDir =>
    rcases stack_cases stack with ⟨front, name, rfl⟩ | nameless
    · rw [enter_name, ← append_assoc, enter_name]
    · have bottom : ∀ name, (replicate n (parentDir : Component ν) ++ stack).getLast? ≠
          some (normal name) := by
        intro name last
        rw [getLast?_append, getLast?_replicate] at last
        cases top : stack.getLast? with
        | some component =>
          rw [top] at last
          exact nameless name (top.trans last)
        | none =>
          rw [top] at last
          split at last <;> cases last
      rw [enter_parent nameless, enter_parent bottom, append_assoc]

theorem foldl_enter_above (n : Nat) (path : List (Component ν)) (stack : List (Component ν)) :
    path.foldl enter (replicate n parentDir ++ stack) =
      replicate n parentDir ++ path.foldl enter stack := by
  induction path generalizing stack with
  | nil => rfl
  | cons component path ih => rw [foldl_cons, enter_above, ih, foldl_cons]

end entering

def shaped (rooted : Bool) (parents : Nat) (names : List ν) : List (Component ν) :=
  (if rooted then [rootDir] else []) ++ replicate parents parentDir ++ names.map normal

section shapes

variable {rooted : Bool} {parents : Nat} {names : List ν}

theorem shaped_concat (rooted : Bool) (parents : Nat) (names : List ν) (name : ν) :
    shaped rooted parents (names ++ [name]) = shaped rooted parents names ++ [normal name] := by
  simp [shaped]

theorem shaped_nameless (rooted : Bool) (parents : Nat) (name : ν) :
    (shaped rooted parents ([] : List ν)).getLast? ≠ some (normal name) := by
  rw [shaped, map_nil, append_nil, getLast?_append, getLast?_replicate]
  intro last
  cases rooted <;> by_cases none : parents = 0 <;> simp [none] at last

theorem enter_shaped {component : Component ν} (inner : component ≠ rootDir) :
    ∃ n kept, enter (shaped rooted parents names) component = shaped rooted n kept := by
  cases component with
  | rootDir => exact absurd rfl inner
  | curDir => exact ⟨parents, names, rfl⟩
  | normal name => exact ⟨parents, names ++ [name], (shaped_concat ..).symm⟩
  | parentDir =>
    rcases eq_nil_or_concat' names with rfl | ⟨front, name, rfl⟩
    · refine ⟨parents + 1, [], ?_⟩
      rw [enter_parent (shaped_nameless rooted parents), shaped, shaped, replicate_succ']
      simp
    · refine ⟨parents, front, ?_⟩
      rw [shaped_concat, enter_name]

variable {path : List (Component ν)}

theorem foldl_enter_shaped (relative : Relative path) :
    ∃ n kept, path.foldl enter (shaped rooted parents names) = shaped rooted n kept := by
  induction path generalizing parents names with
  | nil => exact ⟨parents, names, rfl⟩
  | cons component path ih =>
    obtain ⟨inner, rest⟩ := forall_mem_cons.mp relative
    obtain ⟨n, kept, same⟩ := @enter_shaped ν rooted parents names component inner
    rw [foldl_cons, same]
    exact ih rest

theorem normalize_relative (relative : Relative path) :
    ∃ n kept, normalize path = shaped false n kept :=
  @foldl_enter_shaped ν false 0 [] path relative

theorem normalize_shaped (spelled : Spelled path) :
    ∃ rooted n kept, normalize path = shaped rooted n kept := by
  cases path with
  | nil => exact ⟨false, 0, [], rfl⟩
  | cons component path =>
    by_cases root : component = rootDir
    · subst root
      obtain ⟨n, kept, same⟩ := @foldl_enter_shaped ν true 0 [] path spelled
      exact ⟨true, n, kept, same⟩
    · obtain ⟨n, kept, same⟩ := normalize_relative (forall_mem_cons.mpr ⟨root, spelled⟩)
      exact ⟨false, n, kept, same⟩

theorem spelled_shaped (rooted : Bool) (n : Nat) (names : List ν) :
    Spelled (shaped rooted n names) := by
  intro component inside
  cases rooted with
  | true =>
    rcases mem_append.mp inside with parents | named
    · rw [eq_of_mem_replicate parents]
      exact nofun
    · obtain ⟨name, _, rfl⟩ := mem_map.mp named
      exact nofun
  | false =>
    rcases mem_append.mp (mem_of_mem_tail inside) with parents | named
    · rw [eq_of_mem_replicate parents]
      exact nofun
    · obtain ⟨name, _, rfl⟩ := mem_map.mp named
      exact nofun

theorem curDir_not_mem_shaped (rooted : Bool) (n : Nat) (names : List ν) :
    curDir ∉ shaped rooted n names := by
  cases rooted <;> simp [shaped, mem_replicate]

/-- A path that only goes up leads to the front of where it starts. -/
theorem walk_shaped (n : Nat) (names : List ν) :
    walk place (shaped false n names) = place.take (place.length - n) ++ names := by
  rw [shaped, walk_append, walk_append, walk_normals, walk_parents]
  rfl

theorem onlyParents_iff : OnlyParents (shaped rooted parents names) ↔
    rooted = false ∧ names = [] := by
  cases rooted <;> cases names <;> simp [OnlyParents, shaped, or_imp, forall_and]

theorem head_shaped (n : Nat) (names : List ν) :
    (shaped false n names).head? = some parentDir ↔ n ≠ 0 := by
  cases n with
  | zero => cases names <;> simp [shaped]
  | succ n => simp [shaped, replicate_succ]

end shapes

section within

variable {cwd path : List (Component ν)}

theorem normalize_append (cwd path : List (Component ν)) :
    normalize (cwd ++ path) = path.foldl enter (normalize cwd) :=
  foldl_append

theorem normalize_above (up : OnlyParents (normalize cwd)) (path : List (Component ν)) :
    normalize (cwd ++ path) = normalize cwd ++ normalize path := by
  have parents := eq_replicate_of_mem up
  have above := foldl_enter_above (normalize cwd).length path []
  rw [append_nil, ← parents] at above
  rw [normalize_append, above]
  rfl

theorem not_inside_above [Nontrivial ν] (up : OnlyParents (normalize cwd))
    (relative : Relative path) (climbs : (normalize path).head? = some parentDir) :
    ¬ Inside cwd (cwd ++ path) := by
  intro inside
  obtain ⟨n, names, shape⟩ := normalize_relative relative
  rw [shape, head_shaped] at climbs
  obtain ⟨other, apart⟩ : ∃ other, names.head? ≠ some other := by
    cases names with
    | nil =>
      obtain ⟨other, _, _⟩ := exists_pair_ne ν
      exact ⟨other, nofun⟩
    | cons name names =>
      obtain ⟨other, apart⟩ := exists_ne name
      exact ⟨other, fun same => apart (Option.some.inj same).symm⟩
  have below := inside (replicate ((normalize cwd).length + n) other)
  have parents := eq_replicate_of_mem up
  rw [← walk_normalize, ← walk_normalize _ (cwd ++ path), normalize_above up, walk_append, parents,
    walk_parents, shape, walk_shaped, take_replicate, length_replicate] at below
  have count : min ((normalize cwd).length + n - (normalize cwd).length)
      ((normalize cwd).length + n) = n := by omega
  rw [length_replicate, count, length_replicate, Nat.sub_self, take_zero, nil_append] at below
  obtain ⟨m, rfl⟩ := Nat.exists_eq_succ_of_ne_zero climbs
  obtain ⟨rest, rfl⟩ := below
  exact apart rfl

theorem spelled_append (spelled : Spelled cwd) (relative : Relative path) :
    Spelled (cwd ++ path) := by
  cases cwd with
  | nil => exact fun component inside => relative component (mem_of_mem_tail inside)
  | cons first rest =>
    intro component inside
    rcases mem_append.mp inside with before | after
    · exact spelled component before
    · exact relative component after

theorem walk_names {rest : List (Component ν)} (down : ∀ component ∈ rest, ∃ name,
    component = normal name) (place : List ν) : place <+: walk place rest := by
  induction rest generalizing place with
  | nil => exact prefix_refl place
  | cons component rest ih =>
    obtain ⟨⟨name, rfl⟩, later⟩ := forall_mem_cons.mp down
    exact (prefix_append place [name]).trans (ih later (place ++ [name]))

theorem shaped_pairwise (rooted : Bool) (n : Nat) (names : List ν) :
    (shaped rooted n names).Pairwise fun before after =>
      (∃ name, before = normal name) → ∃ name, after = normal name := by
  rw [shaped, pairwise_append, pairwise_append]
  refine ⟨⟨?_, ?_, ?_⟩, ?_, ?_⟩
  · cases rooted <;> simp
  · exact pairwise_replicate.mpr (.inr nofun)
  · intro before inside
    cases rooted <;> simp_all
  · refine pairwise_of_forall_mem_list fun before _ after inside _ => ?_
    obtain ⟨name, _, rfl⟩ := mem_map.mp inside
    exact ⟨name, rfl⟩
  · intro _ _ after inside _
    obtain ⟨name, _, rfl⟩ := mem_map.mp inside
    exact ⟨name, rfl⟩

theorem inside_iff [Nontrivial ν] (spelled : Spelled cwd) (relative : Relative path)
    (within : normalize cwd <+: normalize (cwd ++ path)) :
    Inside cwd (cwd ++ path) ↔
      ¬ (OnlyParents (normalize cwd) ∧ (normalize path).head? = some parentDir) := by
  refine ⟨fun inside ⟨up, climbs⟩ => not_inside_above up relative climbs inside, fun apart => ?_⟩
  intro place
  rw [← walk_normalize place cwd, ← walk_normalize place (cwd ++ path)]
  obtain ⟨rooted, n, names, shape⟩ := normalize_shaped spelled
  obtain ⟨rest, split⟩ := within
  rw [← split, walk_append]
  rcases eq_nil_or_concat' names with rfl | ⟨front, name, rfl⟩
  · cases rooted with
    | true =>
      -- the root is its own parent
      have root : walk place (normalize cwd) = [] := by
        rw [shape, shaped, walk_append, walk_append, walk_parents]
        exact take_nil
      rw [root]
      exact nil_prefix
    | false =>
      have up : OnlyParents (normalize cwd) := by
        rw [shape]
        exact onlyParents_iff.mpr ⟨rfl, rfl⟩
      obtain ⟨m, kept, same⟩ := normalize_relative relative
      have below : rest = shaped false m kept := by
        rw [normalize_above up, same] at split
        exact append_cancel_left split
      have level : m = 0 := by
        by_contra climbs
        exact apart ⟨up, by rw [same]; exact (head_shaped m kept).mpr climbs⟩
      subst level below
      rw [walk_shaped, Nat.sub_zero, take_length]
      exact prefix_append _ _
  · obtain ⟨other, m, kept, same⟩ := normalize_shaped (spelled_append spelled relative)
    have ordered := shaped_pairwise other m kept
    rw [← same, ← split, pairwise_append] at ordered
    refine walk_names (fun component inside => ?_) _
    refine ordered.2.2 (normal name) ?_ component inside ⟨name, rfl⟩
    rw [shape, shaped_concat]
    exact mem_append_right _ mem_cons_self

end within

end LexicalPaths
