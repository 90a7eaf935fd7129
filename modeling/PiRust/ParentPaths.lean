import Mathlib.Data.List.Infix
import Mathlib.Data.List.Nodup
import Mathlib.Data.List.Perm.Subperm

/- Paths to the root in a graph whose nodes are found by keys and name the key of their
parent. A key may find no node, and parents may form cycles. -/
namespace PiRust.ParentPaths

open List

variable {κ ε : Type} {find : κ → Option ε} {parent : ε → Option κ} {keyOf : ε → κ}

/-- The path from a key to its root. -/
inductive Climb (find : κ → Option ε) (parent : ε → Option κ) : Option κ → List ε → Prop
  | root : Climb find parent none []
  | step {key : κ} {entry : ε} {path : List ε} (found : find key = some entry)
      (rest : Climb find parent (parent entry) path) : Climb find parent (some key) (entry :: path)

/-- The keys on the way up from a key, itself included. -/
inductive Meets (find : κ → Option ε) (parent : ε → Option κ) : κ → κ → Prop
  | refl (key : κ) : Meets find parent key key
  | step {key above last : κ} {entry : ε} (found : find key = some entry)
      (up : parent entry = some above) (rest : Meets find parent above last) :
      Meets find parent key last

def Cyclic (find : κ → Option ε) (parent : ε → Option κ) (key : κ) : Prop :=
  ∃ entry above, find key = some entry ∧ parent entry = some above ∧ Meets find parent above key

def Broken (find : κ → Option ε) (parent : ε → Option κ) (start : κ) : Prop :=
  ∃ key, Meets find parent start key ∧ (find key = none ∨ Cyclic find parent key)

theorem Meets.trans {start key last : κ} (first : Meets find parent start key)
    (second : Meets find parent key last) : Meets find parent start last := by
  induction first with
  | refl => exact second
  | step found up _ ih => exact .step found up (ih second)

theorem Meets.up {start key above : κ} {entry : ε} (meets : Meets find parent start key)
    (found : find key = some entry) (up : parent entry = some above) :
    Meets find parent start above :=
  meets.trans (.step found up (.refl above))

theorem Climb.unique {start : Option κ} {path other : List ε} (first : Climb find parent start path)
    (second : Climb find parent start other) : path = other := by
  induction first generalizing other with
  | root => cases second; rfl
  | step found _ ih =>
    cases second with
    | step found' rest' =>
      rw [found] at found'
      cases found'
      rw [ih rest']

variable {path : List ε}

theorem Climb.from_met {start key : κ} (climb : Climb find parent (some start) path)
    (meets : Meets find parent start key) :
    ∃ entry rest, entry :: rest <:+ path ∧ find key = some entry ∧
      Climb find parent (parent entry) rest := by
  induction meets generalizing path with
  | refl key =>
    cases climb with
    | step found rest => exact ⟨_, _, suffix_refl _, found, rest⟩
  | step found up _ ih =>
    cases climb with
    | step found' rest =>
      rw [found] at found'
      cases found'
      rw [up] at rest
      obtain ⟨entry, above, suffix, there, climb⟩ := ih rest
      exact ⟨entry, above, suffix.trans (suffix_cons _ _), there, climb⟩

theorem Climb.not_cyclic {key : κ} (climb : Climb find parent (some key) path) :
    ¬ Cyclic find parent key := by
  rintro ⟨entry, above, found, up, back⟩
  cases climb with
  | step found' rest =>
    rw [found] at found'
    cases found'
    have whole := Climb.step found rest
    rw [up] at rest
    obtain ⟨again, shorter, suffix, there, climb⟩ := rest.from_met back
    have same := whole.unique (Climb.step there climb)
    have length := suffix.length_le
    rw [← same, length_cons] at length
    omega

theorem Climb.not_broken {start : κ} (climb : Climb find parent (some start) path) :
    ¬ Broken find parent start := by
  rintro ⟨key, meets, missing | cyclic⟩
  · obtain ⟨entry, rest, suffix, there, above⟩ := climb.from_met meets
    rw [missing] at there
    cases there
  · obtain ⟨entry, rest, suffix, there, above⟩ := climb.from_met meets
    exact (Climb.step there above).not_cyclic cyclic

theorem Climb.of_mem (named : ∀ key entry, find key = some entry → keyOf entry = key)
    {start : Option κ} {entry : ε} (climb : Climb find parent start path)
    (member : entry ∈ path) :
    find (keyOf entry) = some entry ∧
      ∃ rest, entry :: rest <:+ path ∧ Climb find parent (parent entry) rest := by
  induction climb with
  | root => cases member
  | step found rest ih =>
    rcases mem_cons.mp member with rfl | later
    · rw [named _ _ found]
      exact ⟨found, _, suffix_refl _, rest⟩
    · obtain ⟨there, above, suffix, climb⟩ := ih later
      exact ⟨there, above, suffix.trans (suffix_cons _ _), climb⟩

section

variable (named : ∀ key entry, find key = some entry → keyOf entry = key)
include named

theorem Climb.keys_nodup {start : Option κ} {path : List ε} (climb : Climb find parent start path) :
    (path.map keyOf).Nodup := by
  induction climb with
  | root => exact nodup_nil
  | @step key entry path found rest ih =>
    rw [map_cons, nodup_cons]
    refine ⟨fun again => ?_, ih⟩
    obtain ⟨other, member, same⟩ := mem_map.mp again
    obtain ⟨there, above, suffix, climb⟩ := rest.of_mem named member
    rw [same, named _ _ found] at there
    have equal := (Climb.step found rest).unique (Climb.step there climb)
    have length := suffix.length_le
    rw [← equal, length_cons] at length
    omega

theorem Climb.own {start other : Option κ} {path also : List ε}
    (climb : Climb find parent start path) (second : Climb find parent other also) :
    ∃ own shared, path = own ++ shared ∧ shared <:+ also ∧
      ∀ entry ∈ own, keyOf entry ∉ also.map keyOf := by
  induction climb with
  | root => exact ⟨[], [], rfl, nil_suffix, forall_mem_nil _⟩
  | @step key entry path found rest ih =>
    by_cases joined : keyOf entry ∈ also.map keyOf
    · obtain ⟨same, member, equal⟩ := mem_map.mp joined
      obtain ⟨there, above, suffix, climb⟩ := second.of_mem named member
      rw [equal, named _ _ found] at there
      have whole := (Climb.step found rest).unique (Climb.step there climb)
      exact ⟨[], entry :: path, rfl, whole ▸ suffix, forall_mem_nil _⟩
    · obtain ⟨own, shared, split, suffix, apart⟩ := ih
      refine ⟨entry :: own, shared, by rw [split, cons_append], suffix, ?_⟩
      exact forall_mem_cons.mpr ⟨joined, apart⟩

/-- Two paths are apart up to the first node that is on both, and the same from there on. -/
theorem Climb.split {start other : Option κ} {path also : List ε}
    (climb : Climb find parent start path) (second : Climb find parent other also) :
    ∃ own foreign shared, path = own ++ shared ∧ also = foreign ++ shared ∧
      (∀ entry ∈ own, keyOf entry ∉ also.map keyOf) ∧
      ∀ entry ∈ foreign, keyOf entry ∉ path.map keyOf := by
  obtain ⟨own, shared, split, ⟨foreign, joined⟩, apart⟩ := climb.own named second
  refine ⟨own, foreign, shared, split, joined.symm, apart, fun entry member inside => ?_⟩
  have once := second.keys_nodup named
  rw [← joined, map_append, nodup_append] at once
  have here : keyOf entry ∈ foreign.map keyOf := mem_map_of_mem member
  rw [split, map_append, mem_append] at inside
  rcases inside with below | above
  · obtain ⟨same, owned, equal⟩ := mem_map.mp below
    refine apart same owned ?_
    rw [equal, ← joined, map_append, mem_append]
    exact .inl here
  · exact once.2.2 _ here _ above rfl

end

section walk

variable {δ : Type}

def Seen (find : κ → Option ε) (parent : ε → Option κ) (start : κ) (current : Option κ)
    (visited : List κ) : Prop :=
  (∀ key, current = some key → Meets find parent start key) ∧
  ∀ key ∈ visited, Meets find parent start key ∧
    ∀ above, current = some above → ∃ entry onward, find key = some entry ∧
      parent entry = some onward ∧ Meets find parent onward above

theorem Seen.start (key : κ) : Seen find parent key (some key) [] := by
  refine ⟨fun other same => ?_, forall_mem_nil _⟩
  cases same
  exact .refl key

theorem Seen.step {start key : κ} {visited : List κ} {entry : ε}
    (seen : Seen find parent start (some key) visited) (found : find key = some entry) :
    Seen find parent start (parent entry) (key :: visited) := by
  refine ⟨fun above up => (seen.1 key rfl).up found up, ?_⟩
  refine forall_mem_cons.mpr ⟨⟨seen.1 key rfl, fun above up => ?_⟩, fun earlier member => ?_⟩
  · exact ⟨entry, above, found, up, .refl above⟩
  · obtain ⟨meets, onward⟩ := seen.2 earlier member
    refine ⟨meets, fun above up => ?_⟩
    obtain ⟨first, second, there, parent, rest⟩ := onward key rfl
    exact ⟨first, second, there, parent, rest.up found up⟩

variable [DecidableEq κ]

/-- A loop that climbs from a key, with the keys it has visited and the nodes it has passed. It
gives `none` where it needs more rounds than there are. -/
def walk (find : κ → Option ε) (parent : ε → Option κ) (cycle missing : κ → δ) :
    Nat → Option κ → List κ → List ε → Option (Except δ (List ε))
  | 0, _, _, _ => none
  | rounds + 1, current, visited, path =>
    match current with
    | none => some (.ok path)
    | some key =>
      if key ∈ visited then some (.error (cycle key))
      else
        match find key with
        | none => some (.error (missing key))
        | some entry =>
          walk find parent cycle missing rounds (parent entry) (key :: visited) (path ++ [entry])

variable {cycle missing : κ → δ} {rounds : Nat} {current : Option κ} {visited : List κ}
  {path : List ε}

theorem walk_ok {result : List ε}
    (returned : walk find parent cycle missing rounds current visited path = some (.ok result)) :
    ∃ rest, Climb find parent current rest ∧ result = path ++ rest := by
  induction rounds generalizing current visited path with
  | zero => cases returned
  | succ rounds ih =>
    cases current with
    | none =>
      simp only [walk, Option.some.injEq, Except.ok.injEq] at returned
      exact ⟨[], .root, by rw [append_nil, returned]⟩
    | some key =>
      simp only [walk] at returned
      split at returned
      · cases returned
      · cases found : find key with
        | none =>
          rw [found] at returned
          cases returned
        | some entry =>
          rw [found] at returned
          obtain ⟨rest, climb, same⟩ := ih returned
          refine ⟨entry :: rest, .step found climb, ?_⟩
          rw [same, append_assoc, singleton_append]

theorem walk_error {start : κ} {error : δ} (seen : Seen find parent start current visited)
    (returned : walk find parent cycle missing rounds current visited path = some (.error error)) :
    Broken find parent start := by
  induction rounds generalizing current visited path with
  | zero => cases returned
  | succ rounds ih =>
    cases current with
    | none => cases returned
    | some key =>
      simp only [walk] at returned
      split at returned
      · rename_i again
        obtain ⟨meets, onward⟩ := seen.2 key again
        exact ⟨key, meets, .inr (onward key rfl)⟩
      · cases found : find key with
        | none => exact ⟨key, seen.1 key rfl, .inl found⟩
        | some entry =>
          rw [found] at returned
          exact ih (seen.step found) returned

theorem walk_returns {keys : List κ} (inside : ∀ key entry, find key = some entry → key ∈ keys)
    (distinct : visited.Nodup) (known : visited ⊆ keys)
    (enough : keys.length < visited.length + rounds) :
    ∃ result, walk find parent cycle missing rounds current visited path = some result := by
  induction rounds generalizing current visited path with
  | zero =>
    have fewer := (subperm_of_subset distinct known).length_le
    omega
  | succ rounds ih =>
    cases current with
    | none => exact ⟨_, rfl⟩
    | some key =>
      simp only [walk]
      split
      · exact ⟨_, rfl⟩
      · rename_i new
        cases found : find key with
        | none => exact ⟨_, rfl⟩
        | some entry =>
          refine ih (nodup_cons.mpr ⟨new, distinct⟩)
            (cons_subset.mpr ⟨inside key entry found, known⟩) ?_
          rw [length_cons]
          omega

theorem walk_spec {keys : List κ} (inside : ∀ key entry, find key = some entry → key ∈ keys)
    (enough : keys.length < rounds) (start : κ) :
    (∃ error, walk find parent cycle missing rounds (some start) [] [] = some (.error error) ∧
      Broken find parent start) ∨
    ∃ path, walk find parent cycle missing rounds (some start) [] [] = some (.ok path) ∧
      Climb find parent (some start) path := by
  obtain ⟨result, returned⟩ : ∃ result,
      walk find parent cycle missing rounds (some start) [] [] = some result :=
    walk_returns inside nodup_nil (nil_subset keys) (by rw [length_nil, Nat.zero_add]; exact enough)
  cases result with
  | error error => exact .inl ⟨error, returned, walk_error (Seen.start start) returned⟩
  | ok path =>
    obtain ⟨rest, climb, same⟩ := walk_ok returned
    rw [same, nil_append] at returned
    exact .inr ⟨rest, returned, climb⟩

end walk

end PiRust.ParentPaths
