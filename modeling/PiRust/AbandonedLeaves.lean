import PiRust.ParentPaths
import PiRust.SessionRecord

/- `branch_summary_flow.rs`: the prompts of a branch that is left for another one. -/
namespace PiRust.BranchSummaryFlow

open ParentPaths SessionLog List

/-- The lookup in the `HashMap` that is collected from the leaves: of two with one id the later
one stays. -/
def byId (leaves : List ReplayLeaf) (id : String) : Option ReplayLeaf :=
  leaves.reverse.find? fun leaf => leaf.leafId = id

def leafPathToRoot (rounds : Nat) (leafId : String) (byId : String → Option ReplayLeaf) :
    Option (Except SessionLog.CodingSessionError (List ReplayLeaf)) :=
  walk byId ReplayLeaf.parentLeafId
    (fun leafId => .session ("cycle detected in replay leaf ancestry at id: " ++ leafId))
    (fun leafId => .session ("leaf id not found in replay: " ++ leafId)) rounds (some leafId) [] []

def abandonedLeafPath (rounds : Nat) (leaves : List ReplayLeaf)
    (sourceLeafId targetLeafId : String) :
    Option (Except SessionLog.CodingSessionError (List ReplayLeaf)) :=
  match leafPathToRoot rounds sourceLeafId (byId leaves) with
  | none => none
  | some (.error error) => some (.error error)
  | some (.ok sourcePath) =>
    match leafPathToRoot rounds targetLeafId (byId leaves) with
    | none => none
    | some (.error error) => some (.error error)
    | some (.ok targetPath) =>
      let targetIds := targetPath.map ReplayLeaf.leafId
      some (.ok (sourcePath.takeWhile fun leaf => leaf.leafId ∉ targetIds).reverse)

section paths

variable {leaves : List ReplayLeaf}

theorem byId_leafId (leaves : List ReplayLeaf) (id : String) (leaf : ReplayLeaf)
    (found : byId leaves id = some leaf) : leaf.leafId = id := by
  simpa using find?_some found

theorem byId_inside (id : String) (leaf : ReplayLeaf) (found : byId leaves id = some leaf) :
    id ∈ leaves.map ReplayLeaf.leafId := by
  refine mem_map.mpr ⟨leaf, ?_, byId_leafId leaves id leaf found⟩
  exact mem_reverse.mp (mem_of_find?_eq_some found)

/-- The leaf and its ancestors, from the root on. -/
def Ancestry (leaves : List ReplayLeaf) (leafId : String) (path : List ReplayLeaf) : Prop :=
  Climb (byId leaves) ReplayLeaf.parentLeafId (some leafId) path.reverse

/-- An ancestor is missing, or the ancestry comes back to a leaf. -/
def NoAncestry (leaves : List ReplayLeaf) (leafId : String) : Prop :=
  Broken (byId leaves) ReplayLeaf.parentLeafId leafId

theorem leafPathToRoot_spec {rounds : Nat} (enough : leaves.length < rounds) (leafId : String) :
    (∃ error, leafPathToRoot rounds leafId (byId leaves) = some (.error error) ∧
      NoAncestry leaves leafId) ∨
    ∃ path, leafPathToRoot rounds leafId (byId leaves) = some (.ok path) ∧
      Climb (byId leaves) ReplayLeaf.parentLeafId (some leafId) path := by
  rw [← length_map ReplayLeaf.leafId] at enough
  exact walk_spec byId_inside enough leafId

theorem takeWhile_own {source target : List ReplayLeaf} {start other : Option String}
    (climb : Climb (byId leaves) ReplayLeaf.parentLeafId start source)
    (second : Climb (byId leaves) ReplayLeaf.parentLeafId other target) :
    (source.takeWhile fun leaf => leaf.leafId ∉ target.map ReplayLeaf.leafId) =
      source.filter fun leaf => leaf.leafId ∉ target.map ReplayLeaf.leafId := by
  obtain ⟨own, shared, split, joined, apart⟩ := climb.own (byId_leafId leaves) second
  have above : ∀ leaf ∈ shared, leaf.leafId ∈ target.map ReplayLeaf.leafId := fun leaf member =>
    mem_map_of_mem (joined.subset member)
  rw [split, filter_append, takeWhile_append_of_pos fun leaf member =>
    decide_eq_true (apart leaf member), filter_eq_self.mpr fun leaf member =>
      decide_eq_true (apart leaf member)]
  congr 1
  cases shared with
  | nil => rfl
  | cons leaf rest =>
    rw [takeWhile_cons_of_neg, filter_eq_nil_iff.mpr]
    · intro leaf member absent
      exact of_decide_eq_true absent (above leaf member)
    · intro absent
      exact of_decide_eq_true absent (above leaf mem_cons_self)

/-- With more rounds than leaves the loops end. The call fails exactly if the source or the target
has no ancestry, and else gives the ancestry of the source without what is in that of the
target. -/
theorem abandonedLeafPath_correct (leaves : List ReplayLeaf) (sourceLeafId targetLeafId : String)
    {rounds : Nat} (enough : leaves.length < rounds) :
    ∃ result, abandonedLeafPath rounds leaves sourceLeafId targetLeafId = some result ∧
      ((∃ error, result = .error error) ↔
        NoAncestry leaves sourceLeafId ∨ NoAncestry leaves targetLeafId) ∧
      ∀ abandoned, result = .ok abandoned → ∃ sourcePath targetPath,
        Ancestry leaves sourceLeafId sourcePath ∧ Ancestry leaves targetLeafId targetPath ∧
          abandoned = sourcePath.filter fun leaf =>
            leaf.leafId ∉ targetPath.map ReplayLeaf.leafId := by
  rw [abandonedLeafPath]
  rcases leafPathToRoot_spec enough sourceLeafId with
    ⟨error, failed, broken⟩ | ⟨source, found, climb⟩
  · rw [failed]
    exact ⟨_, rfl, ⟨fun _ => .inl broken, fun _ => ⟨error, rfl⟩⟩, nofun⟩
  rw [found]
  rcases leafPathToRoot_spec enough targetLeafId with
    ⟨error, failed, broken⟩ | ⟨target, there, second⟩
  · rw [failed]
    exact ⟨_, rfl, ⟨fun _ => .inr broken, fun _ => ⟨error, rfl⟩⟩, nofun⟩
  rw [there]
  refine ⟨_, rfl, ⟨(fun ⟨_, wrong⟩ => nomatch wrong), fun broken => ?_⟩, fun abandoned same => ?_⟩
  · exact (broken.elim climb.not_broken second.not_broken).elim
  · cases same
    refine ⟨source.reverse, target.reverse, ?_, ?_, ?_⟩
    · rw [Ancestry, reverse_reverse]
      exact climb
    · rw [Ancestry, reverse_reverse]
      exact second
    · rw [takeWhile_own climb second, filter_reverse, map_reverse]
      simp

def leafAt (leafId : String) (parentLeafId : Option String) : ReplayLeaf :=
  ⟨leafId, parentLeafId, 0, 0⟩

def forkedLeaves : List ReplayLeaf :=
  [leafAt "root" none, leafAt "old" (some "root"), leafAt "new" (some "root")]

theorem forkedLeaves_abandoned :
    ∃ result, abandonedLeafPath 4 forkedLeaves "old" "new" = some result ∧
      ((∃ error, result = .error error) ↔
        NoAncestry forkedLeaves "old" ∨ NoAncestry forkedLeaves "new") ∧
      ∀ abandoned, result = .ok abandoned → ∃ sourcePath targetPath,
        Ancestry forkedLeaves "old" sourcePath ∧ Ancestry forkedLeaves "new" targetPath ∧
          abandoned = sourcePath.filter fun leaf =>
            leaf.leafId ∉ targetPath.map ReplayLeaf.leafId :=
  abandonedLeafPath_correct forkedLeaves "old" "new" (by decide)

end paths

end PiRust.BranchSummaryFlow
