import PiRust.AiTypes
import PiRust.ParentPaths

/- `branch_summary.rs`: the entries of a branch that is left for another one. -/
namespace PiRust.BranchSummary

open ParentPaths List

structure SessionEntry where
  entryType : String
  id : String
  parentId : Option String
  timestamp : String
  fields : List (String × Value)

inductive BranchSummaryErrorCode where
  | aborted
  | summarizationFailed
  | invalidSession
  deriving DecidableEq, Repr

structure BranchSummaryError where
  code : BranchSummaryErrorCode
  message : String
  deriving DecidableEq, Repr

structure CollectEntriesResult where
  entries : List SessionEntry
  commonAncestorId : Option String

/-- The lookup in the `HashMap` that is collected from the entries: of two with one id the
later one stays. -/
def byId (entries : List SessionEntry) (id : String) : Option SessionEntry :=
  entries.reverse.find? fun entry => entry.id = id

def entryNotFound (id : String) : BranchSummaryError :=
  ⟨.invalidSession, "entry " ++ id ++ " not found"⟩

/-- The loop of `path_to_root`, or `none` where it needs more rounds than there are. -/
def pathLoop (entries : List SessionEntry) :
    Nat → Option String → List String → List SessionEntry →
      Option (Except BranchSummaryError (List SessionEntry))
  | 0, _, _, _ => none
  | rounds + 1, current, visited, path =>
    match current with
    | none => some (.ok path.reverse)
    | some id =>
      if id ∈ visited then
        some (.error ⟨.invalidSession, "cycle detected in session entries at id: " ++ id⟩)
      else
        match byId entries id with
        | none => some (.error (entryNotFound id))
        | some entry => pathLoop entries rounds entry.parentId (id :: visited) (path ++ [entry])

def pathToRoot (rounds : Nat) (entries : List SessionEntry) (leafId : String) :
    Option (Except BranchSummaryError (List SessionEntry)) :=
  pathLoop entries rounds (some leafId) [] []

def abandonLoop (entries : List SessionEntry) (commonAncestorId : Option String) :
    Nat → Option String → List SessionEntry → Option (Except BranchSummaryError (List SessionEntry))
  | 0, _, _ => none
  | rounds + 1, current, abandoned =>
    match current with
    | none => some (.ok abandoned)
    | some id =>
      if some id = commonAncestorId then some (.ok abandoned)
      else
        match byId entries id with
        | none => some (.error (entryNotFound id))
        | some entry =>
          abandonLoop entries commonAncestorId rounds entry.parentId (abandoned ++ [entry])

/-- `collect_entries_for_branch_summary`, with a number of rounds for each of its loops. -/
def collectEntriesForBranchSummary (rounds : Nat) (entries : List SessionEntry)
    (oldLeafId : Option String) (targetId : String) :
    Option (Except BranchSummaryError CollectEntriesResult) :=
  match oldLeafId with
  | none => some (.ok ⟨[], none⟩)
  | some oldLeafId =>
    match pathToRoot rounds entries oldLeafId with
    | none => none
    | some (.error error) => some (.error error)
    | some (.ok oldPath) =>
      match pathToRoot rounds entries targetId with
      | none => none
      | some (.error error) => some (.error error)
      | some (.ok targetPath) =>
        let oldIds := oldPath.map SessionEntry.id
        let commonAncestorId :=
          (targetPath.reverse.find? fun entry => entry.id ∈ oldIds).map SessionEntry.id
        match abandonLoop entries commonAncestorId rounds (some oldLeafId) [] with
        | none => none
        | some (.error error) => some (.error error)
        | some (.ok abandoned) => some (.ok ⟨abandoned.reverse, commonAncestorId⟩)

section loops

variable {entries : List SessionEntry}

theorem byId_id (entries : List SessionEntry) (id : String) (entry : SessionEntry)
    (found : byId entries id = some entry) : entry.id = id := by
  simpa using find?_some found

theorem byId_mem {id : String} {entry : SessionEntry} (found : byId entries id = some entry) :
    entry ∈ entries :=
  mem_reverse.mp (mem_of_find?_eq_some found)

theorem byId_inside (id : String) (entry : SessionEntry) (found : byId entries id = some entry) :
    id ∈ entries.map SessionEntry.id :=
  mem_map.mpr ⟨entry, byId_mem found, byId_id entries id entry found⟩

theorem pathLoop_walk (rounds : Nat) (current : Option String) (visited : List String)
    (path : List SessionEntry) :
    pathLoop entries rounds current visited path =
      (walk (byId entries) SessionEntry.parentId
        (fun id => ⟨.invalidSession, "cycle detected in session entries at id: " ++ id⟩)
        entryNotFound rounds current visited path).map fun walked => walked.map reverse := by
  induction rounds generalizing current visited path with
  | zero => rfl
  | succ rounds ih =>
    cases current with
    | none => rfl
    | some id =>
      simp only [pathLoop, walk]
      split
      · rfl
      · cases found : byId entries id with
        | none => rfl
        | some entry => exact ih entry.parentId (id :: visited) (path ++ [entry])

theorem pathToRoot_spec {rounds : Nat} (enough : entries.length < rounds) (leafId : String) :
    (∃ error, pathToRoot rounds entries leafId = some (.error error) ∧
      Broken (byId entries) SessionEntry.parentId leafId) ∨
    ∃ path, pathToRoot rounds entries leafId = some (.ok path.reverse) ∧
      Climb (byId entries) SessionEntry.parentId (some leafId) path := by
  rw [← length_map SessionEntry.id] at enough
  rw [pathToRoot, pathLoop_walk]
  rcases walk_spec byId_inside enough leafId with ⟨error, failed, broken⟩ | ⟨path, returned, climb⟩
  · exact .inl ⟨error, by rw [failed]; rfl, broken⟩
  · exact .inr ⟨path, by rw [returned]; rfl, climb⟩

theorem abandonLoop_own {common : Option String} {own shared : List SessionEntry} {rounds : Nat}
    {current : Option String} {abandoned : List SessionEntry}
    (climb : Climb (byId entries) SessionEntry.parentId current (own ++ shared))
    (apart : ∀ entry ∈ own, some entry.id ≠ common)
    (stops : shared = [] ∨ ∃ entry rest, shared = entry :: rest ∧ common = some entry.id)
    (enough : own.length < rounds) :
    abandonLoop entries common rounds current abandoned = some (.ok (abandoned ++ own)) := by
  induction own generalizing rounds current abandoned with
  | nil =>
    obtain ⟨rounds, rfl⟩ := Nat.exists_eq_succ_of_ne_zero (Nat.ne_of_gt enough)
    rw [nil_append] at climb
    rw [append_nil]
    rcases stops with rfl | ⟨entry, rest, rfl, stop⟩
    · cases climb
      rfl
    · cases climb with
      | step found _ =>
        simp only [abandonLoop]
        rw [if_pos (by rw [stop, byId_id _ _ _ found])]
  | cons entry own ih =>
    obtain ⟨rounds, rfl⟩ := Nat.exists_eq_succ_of_ne_zero (Nat.ne_of_gt (Nat.zero_lt_of_lt enough))
    cases climb with
    | @step key _ _ found rest =>
      have other := apart entry (mem_cons_self ..)
      rw [byId_id _ _ _ found] at other
      have later : abandonLoop entries common rounds entry.parentId (abandoned ++ [entry]) =
          some (.ok (abandoned ++ [entry] ++ own)) :=
        ih rest (fun kept member => apart kept (mem_cons_of_mem _ member))
          (Nat.lt_of_succ_lt_succ enough)
      simp [abandonLoop, if_neg other, found, later]

end loops

def entryOf (entries : List SessionEntry) (id : String) : Option SessionEntry :=
  entries.find? fun entry => entry.id = id

/-- The entries from a root down to a leaf. -/
def IsPath (entries : List SessionEntry) (leafId : String) (path : List SessionEntry) : Prop :=
  Climb (entryOf entries) SessionEntry.parentId (some leafId) path.reverse

/-- The way from a leaf to its root meets an id without an entry, or a cycle. -/
def IsBroken (entries : List SessionEntry) (leafId : String) : Prop :=
  Broken (entryOf entries) SessionEntry.parentId leafId

/-- What is collected from two paths: the entries that only the old one has, and the
last one that both have. -/
structure Collected (oldPath targetPath : List SessionEntry) (result : CollectEntriesResult) :
    Prop where
  entries : result.entries = oldPath.filter fun entry => entry.id ∉ targetPath.map SessionEntry.id
  ancestorOnOld : result.commonAncestorId =
    (oldPath.filter fun entry => entry.id ∈ targetPath.map SessionEntry.id).getLast?.map
      SessionEntry.id
  ancestorOnTarget : result.commonAncestorId =
    (targetPath.filter fun entry => entry.id ∈ oldPath.map SessionEntry.id).getLast?.map
      SessionEntry.id

section paths

variable {entries : List SessionEntry}

theorem byId_eq_entryOf (distinct : (entries.map SessionEntry.id).Nodup) :
    byId entries = entryOf entries := by
  funext id
  have only {list : List SessionEntry} (within : ∀ entry ∈ list, entry ∈ entries)
      {first second : SessionEntry} (one : first ∈ list) (two : second ∈ list)
      (same : first.id = second.id) : first = second :=
    inj_on_of_nodup_map distinct (within _ one) (within _ two) same
  cases found : entryOf entries id with
  | none =>
    have absent := find?_eq_none.mp found
    refine find?_eq_none.mpr fun entry member => ?_
    exact absent entry (mem_reverse.mp member)
  | some entry =>
    have member := mem_of_find?_eq_some found
    have named : entry.id = id := by simpa using find?_some found
    cases other : byId entries id with
    | none =>
      have absent := find?_eq_none.mp other entry (mem_reverse.mpr member)
      exact absurd (decide_eq_true named) absent
    | some later =>
      have same : later.id = entry.id := (byId_id _ _ _ other).trans named.symm
      rw [only (fun _ inside => inside) (byId_mem other) member same]

/-- The part of two paths that only the first has, and the node where they join. -/
theorem filter_split {own foreign shared : List SessionEntry}
    (apart : ∀ entry ∈ own, entry.id ∉ (foreign ++ shared).map SessionEntry.id) :
    ((own ++ shared).filter fun entry =>
        entry.id ∉ (foreign ++ shared).map SessionEntry.id) = own ∧
      ((own ++ shared).filter fun entry =>
        entry.id ∈ (foreign ++ shared).map SessionEntry.id) = shared := by
  have inside (entry : SessionEntry) (member : entry ∈ shared) :
      entry.id ∈ (foreign ++ shared).map SessionEntry.id :=
    mem_map_of_mem (mem_append_right _ member)
  rw [filter_append, filter_append]
  refine ⟨?_, ?_⟩
  · rw [filter_eq_self.mpr fun entry member => decide_eq_true (apart entry member),
      filter_eq_nil_iff.mpr fun entry member => ?_, append_nil]
    exact fun absent => of_decide_eq_true absent (inside entry member)
  · rw [filter_eq_nil_iff.mpr fun entry member => ?_,
      filter_eq_self.mpr fun entry member => decide_eq_true (inside entry member),
      nil_append]
    exact fun present => apart entry member (of_decide_eq_true present)

theorem collect_ok {rounds : Nat} (enough : entries.length < rounds) {oldLeafId targetId : String}
    {old target : List SessionEntry}
    (oldClimb : Climb (byId entries) SessionEntry.parentId (some oldLeafId) old)
    (targetClimb : Climb (byId entries) SessionEntry.parentId (some targetId) target)
    (oldReturned : pathToRoot rounds entries oldLeafId = some (.ok old.reverse))
    (targetReturned : pathToRoot rounds entries targetId = some (.ok target.reverse)) :
    ∃ collected, collectEntriesForBranchSummary rounds entries (some oldLeafId) targetId =
        some (.ok collected) ∧ Collected old.reverse target.reverse collected := by
  obtain ⟨own, foreign, shared, split, targetSplit, apart, foreignApart⟩ :=
    oldClimb.split (byId_id entries) targetClimb
  subst split
  subst targetSplit
  have joined : ((foreign ++ shared).find? fun entry =>
      entry.id ∈ (own ++ shared).reverse.map SessionEntry.id) = shared.head? := by
    rw [find?_append, find?_eq_none.mpr, Option.none_or]
    · cases shared with
      | nil => rfl
      | cons entry rest =>
        rw [find?_cons_of_pos, head?_cons]
        simp
    · intro entry member present
      refine foreignApart entry member ?_
      rw [← mem_reverse, ← map_reverse]
      exact of_decide_eq_true present
  have length : own.length < rounds := by
    have known : (own ++ shared).map SessionEntry.id ⊆ entries.map SessionEntry.id := by
      intro id member
      obtain ⟨entry, within, same⟩ := mem_map.mp member
      have there := (oldClimb.of_mem (byId_id entries) within).1
      exact mem_map.mpr ⟨entry, byId_mem there, same⟩
    have fewer := (subperm_of_subset (oldClimb.keys_nodup (byId_id entries)) known).length_le
    simp only [length_map, length_append] at fewer
    omega
  have walked : abandonLoop entries (shared.head?.map SessionEntry.id) rounds (some oldLeafId) [] =
      some (.ok ([] ++ own)) :=
    abandonLoop_own oldClimb (fun entry member same => ?_) ?_ length
  · refine ⟨⟨own.reverse, shared.head?.map SessionEntry.id⟩, ?_, ?_, ?_, ?_⟩
    · simp only [collectEntriesForBranchSummary, oldReturned, targetReturned,
        reverse_reverse, joined, walked, nil_append]
    · simp only [filter_reverse, map_reverse, mem_reverse]
      rw [(filter_split apart).1]
    · simp only [filter_reverse, map_reverse, mem_reverse]
      rw [(filter_split apart).2, getLast?_reverse]
    · simp only [filter_reverse, map_reverse, mem_reverse]
      rw [(filter_split foreignApart).2, getLast?_reverse]
  · cases shared with
    | nil => cases same
    | cons joint rest =>
      have equal : entry.id = joint.id := Option.some.inj same
      refine apart entry member ?_
      rw [equal]
      exact mem_map_of_mem (mem_append_right _ (mem_cons_self ..))
  · cases shared with
    | nil => exact .inl rfl
    | cons joint rest => exact .inr ⟨joint, rest, rfl, rfl⟩

/-- With distinct ids and more rounds than entries the loops end. The call fails exactly if the
way up from one of the leaves is broken, and else collects what the two paths tell. -/
theorem collectEntries_correct (distinct : (entries.map SessionEntry.id).Nodup) {rounds : Nat}
    (enough : entries.length < rounds) (oldLeafId targetId : String) :
    ∃ result, collectEntriesForBranchSummary rounds entries (some oldLeafId) targetId =
        some result ∧
      ((∃ error, result = .error error) ↔ IsBroken entries oldLeafId ∨ IsBroken entries targetId) ∧
      ∀ collected, result = .ok collected → ∃ oldPath targetPath,
        IsPath entries oldLeafId oldPath ∧ IsPath entries targetId targetPath ∧
          Collected oldPath targetPath collected := by
  unfold IsBroken IsPath
  rw [← byId_eq_entryOf distinct]
  rcases pathToRoot_spec enough oldLeafId with ⟨error, failed, broken⟩ | ⟨old, oldReturned, oldClimb⟩
  · refine ⟨.error error, by simp [collectEntriesForBranchSummary, failed], ?_, ?_⟩
    · exact ⟨fun _ => .inl broken, fun _ => ⟨error, rfl⟩⟩
    · intro collected wrong
      cases wrong
  rcases pathToRoot_spec enough targetId with
    ⟨error, failed, broken⟩ | ⟨target, targetReturned, targetClimb⟩
  · refine ⟨.error error, by simp [collectEntriesForBranchSummary, oldReturned, failed], ?_, ?_⟩
    · exact ⟨fun _ => .inr broken, fun _ => ⟨error, rfl⟩⟩
    · intro collected wrong
      cases wrong
  obtain ⟨collected, returned, told⟩ :=
    collect_ok enough oldClimb targetClimb oldReturned targetReturned
  refine ⟨.ok collected, returned, ?_, ?_⟩
  · refine ⟨?_, fun broken => ?_⟩
    · rintro ⟨error, wrong⟩
      cases wrong
    · exact (broken.elim oldClimb.not_broken targetClimb.not_broken).elim
  · intro other same
    cases same
    refine ⟨old.reverse, target.reverse, ?_, ?_, told⟩
    · rw [reverse_reverse]
      exact oldClimb
    · rw [reverse_reverse]
      exact targetClimb

end paths

section forked

def messageEntry (id : String) (parentId : Option String) : SessionEntry :=
  ⟨"message", id, parentId, "now", []⟩

def forkedEntries : List SessionEntry :=
  [messageEntry "root" none, messageEntry "old-a" (some "root"),
    messageEntry "old-b" (some "old-a"), messageEntry "target" (some "root")]

theorem forkedEntries_collected :
    ∃ result, collectEntriesForBranchSummary 5 forkedEntries (some "old-b") "target" =
        some result ∧
      ((∃ error, result = .error error) ↔
        IsBroken forkedEntries "old-b" ∨ IsBroken forkedEntries "target") ∧
      ∀ collected, result = .ok collected → ∃ oldPath targetPath,
        IsPath forkedEntries "old-b" oldPath ∧ IsPath forkedEntries "target" targetPath ∧
          Collected oldPath targetPath collected :=
  collectEntries_correct (by decide) (by decide) "old-b" "target"

end forked

end PiRust.BranchSummary
