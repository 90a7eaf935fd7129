import PiRust.Forests
import PiRust.GroundedLogs
import PiRust.ReplayLeaves

/- `build_leaf_tree` of `session_service.rs`, and the leaves that `fold_events` finds in the same
log. -/
namespace PiRust.SessionLog

open List

structure LeafTreeEntry where
  leafId : String
  parentLeafId : Option String
  timestamp : String
  text : String

abbrev SessionTreeNode := Forests.Tree LeafTreeEntry

structure CodingAgentSessionTree where
  tree : List SessionTreeNode
  activeLeafId : Option String

def textFromPersistedContent (content : List PersistedContentBlock) : String :=
  let texts := content.filterMap fun
    | .text text => some (trim text)
    | .thinking thinking _ _ => some (trim thinking)
    | .image .. => none
  "\n".intercalate (texts.filter fun text => text ≠ "")

/-- The variables of the loop in `build_leaf_tree`. -/
structure LeafTreeScan where
  operationKinds : StringMap OperationKind := []
  operationInputs : StringMap String := []
  leaves : List LeafTreeEntry := []
  currentParentLeafId : Option String := none

namespace LeafTreeScan

def leafText (scan : LeafTreeScan) (operationId leafId : String) : String :=
  match StringMap.get scan.operationInputs operationId with
  | some text => if trim text = "" then leafId else text
  | none => leafId

def step (scan : LeafTreeScan) (event : SessionEventEnvelope) : LeafTreeScan :=
  match event.data with
  | .activeLeafChanged leafId => { scan with currentParentLeafId := some leafId }
  | data =>
    match event.operationId with
    | none => scan
    | some operationId =>
      match data with
      | .operationStarted operation =>
        { scan with
          operationKinds := StringMap.insert scan.operationKinds operationId operation }
      | .turnInputRecorded content =>
        if (StringMap.get scan.operationInputs operationId).isSome then scan
        else
          { scan with
            operationInputs := StringMap.insert scan.operationInputs operationId
              (textFromPersistedContent content) }
      | .operationCommitted (some leafId) =>
        if StringMap.get scan.operationKinds operationId = some .prompt then
          { scan with
            leaves := scan.leaves ++ [⟨leafId, scan.currentParentLeafId, event.createdAt,
              scan.leafText operationId leafId⟩]
            currentParentLeafId := some leafId }
        else scan
      | _ => scan

end LeafTreeScan

def scanLeaves (events : List SessionEventEnvelope) : LeafTreeScan :=
  events.foldl LeafTreeScan.step {}

/-- The parent of an entry, unless it is none of the known leaves. -/
def LeafTreeEntry.known (knownLeafIds : List String) (leaf : LeafTreeEntry) : LeafTreeEntry :=
  { leaf with parentLeafId := leaf.parentLeafId.filter fun parent => parent ∈ knownLeafIds }

/-- `leaf_tree`, whose groups by the parent are taken out one by one by `build_leaf_children`. It
is `none` where this goes deeper than there are rounds. -/
def leafTree (rounds : Nat) (leaves : List LeafTreeEntry) : Option (List SessionTreeNode) :=
  let knownLeafIds := leaves.map LeafTreeEntry.leafId
  let childrenByParent := Forests.gather LeafTreeEntry.parentLeafId
    (leaves.map (LeafTreeEntry.known knownLeafIds))
  (Forests.grow LeafTreeEntry.leafId rounds none childrenByParent).map Prod.fst

def buildLeafTree (rounds : Nat) (events : List SessionEventEnvelope)
    (activeLeafId : Option String) : Option CodingAgentSessionTree :=
  (leafTree rounds (scanLeaves events).leaves).map fun tree => ⟨tree, activeLeafId⟩

section kinds

def kindsAfter (builder : ReplayBuilder) (event : SessionEventEnvelope) : StringMap OperationKind :=
  match event.data, event.operationId with
  | .operationStarted operation, some operationId =>
    StringMap.insert builder.operationKinds operationId operation
  | _, _ => builder.operationKinds

theorem frame_operationKinds (builder : ReplayBuilder) :
    builder.frame.operationKinds = builder.operationKinds := rfl

theorem recordPromptLeaf_operationKinds (builder : ReplayBuilder) (event : SessionEventEnvelope)
    (leafId : String) :
    (builder.recordPromptLeaf event leafId).operationKinds = builder.operationKinds := by
  unfold ReplayBuilder.recordPromptLeaf
  split
  · rfl
  · split <;> rfl

variable (serde : Serde)

theorem applyEvent_operationKinds (builder : ReplayBuilder) (event : SessionEventEnvelope) :
    (builder.applyEvent serde event).operationKinds = kindsAfter builder event := by
  unfold kindsAfter
  by_cases within : isBoundary event.data = false
  · rw [← frame_operationKinds, ReplayBuilder.applyEvent_frame serde within, frame_operationKinds]
    revert within
    cases event.data <;> intro within <;> first | rfl | cases within
  unfold ReplayBuilder.applyEvent
  cases data : event.data
  case operationStarted => cases event.operationId <;> rfl
  case operationCommitted newLeafId =>
    cases newLeafId with
    | none => rfl
    | some leafId => exact recordPromptLeaf_operationKinds builder event leafId
  case activeLeafChanged => rfl
  all_goals exact absurd (by rw [data]; rfl) within

variable (finalized : List String)

theorem foldEvent_operationKinds (builder : ReplayBuilder) (event : SessionEventEnvelope) :
    (foldEvent serde finalized builder event).operationKinds =
      if isReplayed finalized event then kindsAfter builder event else builder.operationKinds := by
  have same : ((builder.observeSessionId event).observeOperationStatus event).core =
      builder.core := by
    rw [ReplayBuilder.core_observeOperationStatus, ReplayBuilder.core_observeSessionId]
  have observed : ((builder.observeSessionId event).observeOperationStatus event).operationKinds =
      builder.operationKinds := by
    rw [← ReplayBuilder.core_operationKinds, same, ReplayBuilder.core_operationKinds]
  unfold foldEvent
  by_cases replayed : isReplayed finalized event = true
  · rw [if_pos replayed, if_pos replayed, applyEvent_operationKinds]
    unfold kindsAfter
    rw [observed]
  · rw [if_neg replayed, if_neg replayed, observed]

theorem foldEvent_leaves (builder : ReplayBuilder) (event : SessionEventEnvelope) :
    (foldEvent serde finalized builder event).leaves =
      if isReplayed finalized event then
        builder.leaves ++ ((builder.promptLeaf event).map Prod.fst).toList
      else builder.leaves := by
  have extent := congrArg Prod.fst (foldEvent_extent serde finalized builder event)
  rw [apply_ite Prod.fst] at extent
  exact extent

theorem foldEvent_leaves_of_none {builder : ReplayBuilder} {event : SessionEventEnvelope}
    (unrecorded : builder.promptLeaf event = none) :
    (foldEvent serde finalized builder event).leaves = builder.leaves := by
  rw [foldEvent_leaves, unrecorded, Option.map_none, Option.toList_none, append_nil, ite_self]

end kinds

def LeafTreeEntry.edge (leaf : LeafTreeEntry) : String × Option String :=
  (leaf.leafId, leaf.parentLeafId)

def ReplayLeaf.edge (leaf : ReplayLeaf) : String × Option String :=
  (leaf.leafId, leaf.parentLeafId)

/-- Both readers have seen the same events. -/
structure Agree (finalized : List String) (marks : List Mark) (scan : LeafTreeScan)
    (builder : ReplayBuilder) : Prop where
  started : ∀ operationId,
    StringMap.get scan.operationKinds operationId = startedKind marks operationId
  replayed : ∀ operationId ∈ finalized,
    StringMap.get builder.operationKinds operationId = startedKind marks operationId
  leaves : builder.leaves.map ReplayLeaf.edge = scan.leaves.map LeafTreeEntry.edge
  active : builder.activeLeafId = scan.currentParentLeafId
  committed : scan.leaves.map LeafTreeEntry.leafId = committedLeaves marks
  known : ∀ leafId, scan.currentParentLeafId = some leafId → leafId ∈ committedLeaves marks
  descending : Forests.Descending LeafTreeEntry.leafId LeafTreeEntry.parentLeafId scan.leaves

section agree

variable {serde : Serde} {finalized : List String} {marks : List Mark} {scan : LeafTreeScan}
  {builder : ReplayBuilder} {event : SessionEventEnvelope}

theorem agree_empty : Agree finalized [] {} {} where
  started := fun _ => rfl
  replayed := fun _ _ => rfl
  leaves := rfl
  active := rfl
  committed := rfl
  known := nofun
  descending := by
    intro front entry inside
    have short := inside.length_le
    rw [length_append, length_singleton, length_nil] at short
    exact absurd short (Nat.not_succ_le_zero _)

theorem Agree.keep (agree : Agree finalized marks scan builder) {last : Mark}
    {scanned : LeafTreeScan} {folded : ReplayBuilder}
    (unstarted : ∀ operationId, startOf operationId last = none)
    (uncommitted : committedLeaf last = none) (kinds : scanned.operationKinds = scan.operationKinds)
    (leaves : scanned.leaves = scan.leaves)
    (current : scanned.currentParentLeafId = scan.currentParentLeafId)
    (foldedKinds : folded.operationKinds = builder.operationKinds)
    (foldedLeaves : folded.leaves = builder.leaves)
    (foldedActive : folded.activeLeafId = builder.activeLeafId) :
    Agree finalized (marks ++ [last]) scanned folded := by
  have started (operationId : String) :
      startedKind (marks ++ [last]) operationId = startedKind marks operationId := by
    have nothing : startedKind [last] operationId = none := by
      rw [startedKind, filterMap_cons_none (unstarted operationId)]
      rfl
    rw [startedKind_append, nothing, Option.none_or]
  have committed : committedLeaves (marks ++ [last]) = committedLeaves marks := by
    rw [committedLeaves_append, committedLeaves, committedLeaves, filterMap_cons_none uncommitted]
    exact append_nil _
  constructor
  · intro operationId
    rw [kinds, started]
    exact agree.started operationId
  · intro operationId member
    rw [foldedKinds, started]
    exact agree.replayed operationId member
  · rw [foldedLeaves, leaves]
    exact agree.leaves
  · rw [foldedActive, current]
    exact agree.active
  · rw [leaves, committed]
    exact agree.committed
  · rw [current, committed]
    exact agree.known
  · rw [leaves]
    exact agree.descending

theorem Agree.within (agree : Agree finalized marks scan builder)
    (within : isBoundary event.data = false) :
    Agree finalized (marks ++ [mark event]) (scan.step event)
      (foldEvent serde finalized builder event) := by
  obtain ⟨still, kinds, unrecorded, unstarted, uncommitted⟩ : leafMove event = none ∧
      kindsAfter builder event = builder.operationKinds ∧ builder.promptLeaf event = none ∧
      (∀ operationId, startOf operationId (mark event) = none) ∧
      committedLeaf (mark event) = none := by
    unfold leafMove kindsAfter ReplayBuilder.promptLeaf startOf committedLeaf mark
    revert within
    cases event.data <;> intro within <;>
      first | exact ⟨rfl, rfl, rfl, fun _ => rfl, rfl⟩ | cases within
  have scanned : (scan.step event).operationKinds = scan.operationKinds ∧
      (scan.step event).leaves = scan.leaves ∧
      (scan.step event).currentParentLeafId = scan.currentParentLeafId := by
    unfold LeafTreeScan.step
    revert within
    cases event.operationId with
    | none => cases event.data <;> intro within <;> first | exact ⟨rfl, rfl, rfl⟩ | cases within
    | some operationId =>
      cases event.data with
      | turnInputRecorded content =>
        intro _
        dsimp only
        split <;> exact ⟨rfl, rfl, rfl⟩
      | operationStarted | operationCommitted | activeLeafChanged => exact nofun
      | _ => exact fun _ => ⟨rfl, rfl, rfl⟩
  refine agree.keep unstarted uncommitted scanned.1 scanned.2.1 scanned.2.2 ?_ ?_ ?_
  · rw [foldEvent_operationKinds, kinds, ite_self]
  · exact foldEvent_leaves_of_none serde finalized unrecorded
  · rw [foldEvent_activeLeafId, still, Option.none_or, ite_self]

theorem startedKind_concat (marks : List Mark) (owner operationId : String)
    (operation : OperationKind) :
    startedKind (marks ++ [(some owner, .operationStarted operation)]) operationId =
      if operationId = owner then some operation else startedKind marks operationId := by
  rw [startedKind_append]
  by_cases own : operationId = owner
  · rw [if_pos own, own]
    have starts : startOf owner (some owner, .operationStarted operation) = some operation :=
      if_pos rfl
    rw [startedKind, filterMap_cons_some starts]
    rfl
  · rw [if_neg own]
    have other : startOf operationId (some owner, .operationStarted operation) = none :=
      if_neg fun same => own (Option.some.inj same).symm
    rw [startedKind, filterMap_cons_none other]
    rfl

theorem committedLeaves_concat (marks : List Mark) {last : Mark} {leafId : Option String}
    (committed : committedLeaf last = leafId) :
    committedLeaves (marks ++ [last]) = committedLeaves marks ++ leafId.toList := by
  rw [committedLeaves_append, committedLeaves, committedLeaves]
  cases leafId with
  | none => rw [filterMap_cons_none committed]; rfl
  | some leafId => rw [filterMap_cons_some committed]; rfl

theorem Agree.begins (agree : Agree finalized marks scan builder) {operation : OperationKind}
    (data : event.data = .operationStarted operation) :
    Agree finalized (marks ++ [mark event]) (scan.step event)
      (foldEvent serde finalized builder event) := by
  have marked : mark event = (event.operationId, .operationStarted operation) := by
    rw [mark, data]
  have leaves : (foldEvent serde finalized builder event).leaves = builder.leaves :=
    foldEvent_leaves_of_none serde finalized (by rw [ReplayBuilder.promptLeaf, data])
  have active : (foldEvent serde finalized builder event).activeLeafId = builder.activeLeafId := by
    rw [foldEvent_activeLeafId, leafMove, data]
    exact ite_self _
  have kinds := foldEvent_operationKinds serde finalized builder event
  cases named : event.operationId with
  | none =>
    have same : scan.step event = scan := by
      rw [LeafTreeScan.step, data]
      simp [named]
    have kept : kindsAfter builder event = builder.operationKinds := by
      rw [kindsAfter, data, named]
    rw [kept, ite_self] at kinds
    rw [same, marked, named]
    exact agree.keep (fun _ => rfl) rfl rfl rfl rfl kinds leaves active
  | some owner =>
    have scanned : scan.step event =
        { scan with operationKinds := StringMap.insert scan.operationKinds owner operation } := by
      rw [LeafTreeScan.step, data]
      simp [named]
    have inserted : kindsAfter builder event =
        StringMap.insert builder.operationKinds owner operation := by
      rw [kindsAfter, data, named]
    rw [inserted] at kinds
    rw [scanned, marked, named]
    have same : committedLeaves (marks ++ [(some owner, .operationStarted operation)]) =
        committedLeaves marks :=
      (committedLeaves_concat marks rfl).trans (append_nil _)
    constructor
    · intro operationId
      rw [startedKind_concat, StringMap.get_insert, agree.started]
    · intro operationId member
      rw [startedKind_concat, kinds]
      by_cases own : operationId = owner
      · have shown : isReplayed finalized event = true := by
          unfold isReplayed
          simp only [named]
          exact decide_eq_true (.inl (own ▸ member))
        rw [if_pos shown, StringMap.get_insert, if_pos own, if_pos own]
      · rw [if_neg own]
        split
        · rw [StringMap.get_insert, if_neg own]
          exact agree.replayed operationId member
        · exact agree.replayed operationId member
    · rw [leaves]
      exact agree.leaves
    · rw [active]
      exact agree.active
    · rw [same]
      exact agree.committed
    · rw [same]
      exact agree.known
    · exact agree.descending

theorem Agree.switches (agree : Agree finalized marks scan builder) {leafId : String}
    (data : event.data = .activeLeafChanged leafId) (unnamed : event.operationId = none)
    (known : leafId ∈ committedLeaves marks) :
    Agree finalized (marks ++ [mark event]) (scan.step event)
      (foldEvent serde finalized builder event) := by
  have marked : mark event = (none, .activeLeafChanged leafId) := by
    rw [mark, data, unnamed]
  have shown : isReplayed finalized event = true := by
    unfold isReplayed
    simp [unnamed]
  have scanned : scan.step event = { scan with currentParentLeafId := some leafId } := by
    rw [LeafTreeScan.step, data]
  have kinds : (foldEvent serde finalized builder event).operationKinds =
      builder.operationKinds := by
    rw [foldEvent_operationKinds, kindsAfter, data]
    exact ite_self _
  have leaves : (foldEvent serde finalized builder event).leaves = builder.leaves :=
    foldEvent_leaves_of_none serde finalized (by rw [ReplayBuilder.promptLeaf, data])
  have active : (foldEvent serde finalized builder event).activeLeafId = some leafId := by
    rw [foldEvent_activeLeafId, if_pos shown, leafMove, data]
    rfl
  have kept : Agree finalized (marks ++ [(none, .activeLeafChanged leafId)]) scan
      { builder with
        operationKinds := (foldEvent serde finalized builder event).operationKinds
        leaves := (foldEvent serde finalized builder event).leaves } :=
    agree.keep (fun _ => rfl) rfl rfl rfl rfl kinds leaves rfl
  have same : committedLeaves (marks ++ [(none, .activeLeafChanged leafId)]) =
      committedLeaves marks :=
    (committedLeaves_concat marks rfl).trans (append_nil _)
  rw [marked, scanned]
  refine ⟨kept.started, kept.replayed, kept.leaves, active, kept.committed, ?_, kept.descending⟩
  intro other current
  rw [← Option.some.inj current, same]
  exact known

theorem descending_concat {leaves : List LeafTreeEntry} {leaf : LeafTreeEntry}
    (descending : Forests.Descending LeafTreeEntry.leafId LeafTreeEntry.parentLeafId leaves)
    (known : ∀ parent, leaf.parentLeafId = some parent → parent ∈ leaves.map LeafTreeEntry.leafId) :
    Forests.Descending LeafTreeEntry.leafId LeafTreeEntry.parentLeafId (leaves ++ [leaf]) := by
  intro front entry inside
  rcases prefix_concat_iff.mp inside with whole | early
  · obtain ⟨same, final⟩ := append_inj' whole rfl
    rw [same, singleton_inj.mp final]
    exact known
  · exact descending front entry early

theorem Agree.commits (agree : Agree finalized marks scan builder) {leafId owner : String}
    (data : event.data = .operationCommitted (some leafId)) (named : event.operationId = some owner)
    (final : owner ∈ finalized) (prompt : startedKind marks owner = some .prompt) :
    Agree finalized (marks ++ [mark event]) (scan.step event)
      (foldEvent serde finalized builder event) := by
  have marked : mark event = (some owner, .operationCommitted (some leafId)) := by
    rw [mark, data, named]
  have shown : isReplayed finalized event = true := by
    unfold isReplayed
    simp only [named]
    exact decide_eq_true (.inl final)
  have kind : StringMap.get scan.operationKinds owner = some .prompt :=
    (agree.started owner).trans prompt
  have scanned : scan.step event =
      { scan with
        leaves := scan.leaves ++ [⟨leafId, scan.currentParentLeafId, event.createdAt,
          scan.leafText owner leafId⟩]
        currentParentLeafId := some leafId } := by
    rw [LeafTreeScan.step, data]
    simp [named, kind]
  have kinds : (foldEvent serde finalized builder event).operationKinds =
      builder.operationKinds := by
    rw [foldEvent_operationKinds, kindsAfter, data]
    exact ite_self _
  have active : (foldEvent serde finalized builder event).activeLeafId = some leafId := by
    rw [foldEvent_activeLeafId, if_pos shown, leafMove, data]
    rfl
  have leaves : (foldEvent serde finalized builder event).leaves.map ReplayLeaf.edge =
      builder.leaves.map ReplayLeaf.edge ++ [(leafId, builder.activeLeafId)] := by
    rw [foldEvent_leaves, if_pos shown, ReplayBuilder.promptLeaf, data, named]
    simp only [(agree.replayed owner final).trans prompt, if_true, Option.map_some,
      Option.toList_some, map_append]
    rfl
  have same : committedLeaves (marks ++ [(some owner, .operationCommitted (some leafId))]) =
      committedLeaves marks ++ [leafId] := committedLeaves_concat marks rfl
  have started (operationId : String) :
      startedKind (marks ++ [(some owner, .operationCommitted (some leafId))]) operationId =
        startedKind marks operationId := by
    rw [startedKind_append]
    rfl
  rw [marked, scanned]
  constructor
  · intro operationId
    rw [started]
    exact agree.started operationId
  · intro operationId member
    rw [started, kinds]
    exact agree.replayed operationId member
  · rw [leaves, agree.leaves, agree.active, map_append]
    rfl
  · exact active
  · rw [map_append, agree.committed, same]
    rfl
  · intro other current
    rw [← Option.some.inj current, same]
    exact mem_append_right _ (mem_singleton_self leafId)
  · refine descending_concat agree.descending fun parent current => ?_
    rw [agree.committed]
    exact agree.known parent current

theorem Agree.ends (agree : Agree finalized marks scan builder)
    (data : event.data = .operationCommitted none) :
    Agree finalized (marks ++ [mark event]) (scan.step event)
      (foldEvent serde finalized builder event) := by
  have same : scan.step event = scan := by
    rw [LeafTreeScan.step, data]
    cases event.operationId with
    | none => rfl
    | some operationId => rfl
  rw [same, mark, data]
  refine agree.keep (fun _ => rfl) rfl rfl rfl rfl ?_ ?_ ?_
  · rw [foldEvent_operationKinds, kindsAfter, data]
    exact ite_self _
  · exact foldEvent_leaves_of_none serde finalized (by rw [ReplayBuilder.promptLeaf, data])
  · rw [foldEvent_activeLeafId, leafMove, data]
    exact ite_self _

theorem Agree.step (agree : Agree finalized marks scan builder)
    (backed : Backed marks (mark event))
    (final : event.data.isFinalMarker = true → ∀ owner, event.operationId = some owner →
      owner ∈ finalized) :
    Agree finalized (marks ++ [mark event]) (scan.step event)
      (foldEvent serde finalized builder event) := by
  have marked : mark event = (event.operationId, event.data) := rfl
  cases data : event.data with
  | operationStarted operation => exact agree.begins data
  | activeLeafChanged leafId =>
    rw [marked, data] at backed
    exact agree.switches data backed.1 backed.2
  | operationCommitted newLeafId =>
    cases newLeafId with
    | none => exact agree.ends data
    | some leafId =>
      rw [marked, data] at backed
      obtain ⟨owner, named, prompt⟩ := backed
      exact agree.commits data named (final (by rw [data]; rfl) owner named) prompt
  | _ => exact agree.within (by rw [data]; rfl)

end agree

/-- The leaves that prompts commit, in the order of the log. -/
def promptLeaves : List Mark → List Mark → List String
  | _, [] => []
  | before, last :: marks =>
    let later := promptLeaves (before ++ [last]) marks
    match last with
    | (some owner, .operationCommitted (some leafId)) =>
      if startedKind before owner = some .prompt then leafId :: later else later
    | _ => later

theorem promptLeaves_eq {before marks : List Mark} (grounded : Grounded (before ++ marks)) :
    promptLeaves before marks = committedLeaves marks := by
  induction marks generalizing before with
  | nil => rfl
  | cons last marks ih =>
    have front : before ++ [last] <+: before ++ last :: marks :=
      (prefix_append_right_inj before).mpr ⟨marks, rfl⟩
    have backed := grounded before last front
    rw [append_cons] at grounded
    have later := ih grounded
    obtain ⟨operationId, data⟩ := last
    cases data with
    | operationCommitted newLeafId =>
      cases newLeafId with
      | none =>
        cases operationId with
        | none => exact later
        | some owner => exact later
      | some leafId =>
        obtain ⟨owner, rfl, prompt⟩ := backed
        simp only [promptLeaves, prompt, if_true, later]
        rfl
    | _ =>
      cases operationId with
      | none => exact later
      | some owner => exact later

section tree

variable {values : Serde} {events : List SessionEventEnvelope}

theorem agree_prefix (serde : Serde) (grounded : Grounded (events.map mark))
    {front : List SessionEventEnvelope} (inside : front <+: events) :
    Agree (finalizedOperationIds events) (front.map mark) (scanLeaves front)
      (front.foldl (foldEvent serde (finalizedOperationIds events)) {}) := by
  induction front using reverseRecOn with
  | nil => exact agree_empty
  | append_singleton front event ih =>
    have earlier := ih ((prefix_append front [event]).trans inside)
    have backed : Backed (front.map mark) (mark event) := by
      refine grounded (front.map mark) (mark event) ?_
      rw [← map_singleton, ← map_append]
      exact inside.map mark
    rw [map_append, scanLeaves, foldl_append, foldl_append]
    refine earlier.step backed fun marker owner named => ?_
    exact (mem_finalizedOperationIds events owner).mpr
      ⟨event, inside.subset (mem_append_right _ (mem_singleton_self event)), marker, named⟩

theorem known_eq {leaves : List LeafTreeEntry}
    (descending : Forests.Descending LeafTreeEntry.leafId LeafTreeEntry.parentLeafId leaves) :
    leaves.map (LeafTreeEntry.known (leaves.map LeafTreeEntry.leafId)) = leaves := by
  refine (map_congr_left fun leaf member => ?_).trans (map_id leaves)
  obtain ⟨front, later, whole⟩ := append_of_mem member
  have inside : front ++ [leaf] <+: leaves := ⟨later, by rw [whole, append_assoc]; rfl⟩
  have kept : leaf.parentLeafId.filter (fun parent => parent ∈ leaves.map LeafTreeEntry.leafId) =
      leaf.parentLeafId := by
    cases named : leaf.parentLeafId with
    | none => rfl
    | some parent =>
      have early := descending front leaf inside parent named
      have known : parent ∈ leaves.map LeafTreeEntry.leafId := by
        rw [whole, map_append]
        exact mem_append_left _ early
      exact if_pos (decide_eq_true known)
  rw [LeafTreeEntry.known, kept]
  rfl

/-- The parent of a leaf of a replay, unless it is none of the known leaves. -/
def ReplayLeaf.knownEdge (knownLeafIds : List String) (leaf : ReplayLeaf) :
    String × Option String :=
  (leaf.leafId, leaf.parentLeafId.filter fun parent => parent ∈ knownLeafIds)

/-- The tree of a session that runs of the service leave behind: with rounds enough it is
built, it has every leaf that a prompt committed as often as it was committed, and each below the
leaf that is its parent in the replay. -/
theorem buildLeafTree_replayed {values : Serde} {record : SessionRecord}
    (reached : Reached values record) (activeLeafId : Option String) :
    ∃ forest, (∀ rounds, record.events.length < rounds →
        buildLeafTree rounds record.events activeLeafId = some ⟨forest, activeLeafId⟩) ∧
      ((Forests.forestRows LeafTreeEntry.leafId none forest).map fun row => row.1.leafId).Perm
        (promptLeaves [] (record.events.map mark)) ∧
      ((Forests.forestRows LeafTreeEntry.leafId none forest).map fun row =>
        (row.1.leafId, row.2)).Perm
        ((foldEvents values record.events).leaves.map
          (ReplayLeaf.knownEdge ((foldEvents values record.events).leaves.map ReplayLeaf.leafId))) ∧
      ∀ row ∈ Forests.forestRows LeafTreeEntry.leafId none forest, row.1.parentLeafId = row.2 := by
  have grounded : Grounded ([] ++ record.events.map mark) := reached.grounded
  have agree := agree_prefix values grounded (prefix_refl record.events)
  have known := known_eq agree.descending
  obtain ⟨forest, rest, grows, whole, linked⟩ :=
    Forests.grow_whole agree.descending (Nat.lt_succ_self _)
  have few : (scanLeaves record.events).leaves.length ≤ record.events.length := by
    rw [← length_map LeafTreeEntry.leafId, agree.committed]
    exact (length_filterMap_le _ _).trans (length_map mark).le
  have leaves : (foldEvents values record.events).leaves.map ReplayLeaf.edge =
      (scanLeaves record.events).leaves.map LeafTreeEntry.edge := by
    rw [(foldEvents_shown values record.events).2]
    exact agree.leaves
  have ids : (foldEvents values record.events).leaves.map ReplayLeaf.leafId =
      (scanLeaves record.events).leaves.map LeafTreeEntry.leafId := by
    have firsts := congrArg (map Prod.fst) leaves
    rw [map_map, map_map] at firsts
    exact firsts
  have edges : (foldEvents values record.events).leaves.map
      (ReplayLeaf.knownEdge ((foldEvents values record.events).leaves.map ReplayLeaf.leafId)) =
      (scanLeaves record.events).leaves.map LeafTreeEntry.edge := by
    let drop : String × Option String → String × Option String := fun edge =>
      (edge.1, edge.2.filter fun parent =>
        parent ∈ (scanLeaves record.events).leaves.map LeafTreeEntry.leafId)
    have dropped := congrArg (map drop) leaves
    rw [map_map, map_map] at dropped
    rw [ids]
    refine dropped.trans ?_
    have same : drop ∘ LeafTreeEntry.edge = LeafTreeEntry.edge ∘
      LeafTreeEntry.known ((scanLeaves record.events).leaves.map LeafTreeEntry.leafId) := rfl
    rw [same, ← map_map, known]
  have rows : (Forests.forestRows LeafTreeEntry.leafId none forest).map
      (fun row => (row.1.leafId, row.2)) =
      ((Forests.forestRows LeafTreeEntry.leafId none forest).map Prod.fst).map
        LeafTreeEntry.edge := by
    rw [map_map]
    refine map_congr_left fun row member => ?_
    show (row.1.leafId, row.2) = (row.1.leafId, row.1.parentLeafId)
    rw [linked row member]
  refine ⟨forest, fun rounds enough => ?_, ?_, ?_, linked⟩
  · have grown := Forests.grow_mono (Nat.lt_of_le_of_lt few enough) grows
    simp [buildLeafTree, leafTree, known, grown]
  · rw [promptLeaves_eq grounded, ← agree.committed]
    have named := whole.map LeafTreeEntry.leafId
    rw [map_map] at named
    exact named
  · rw [rows, edges]
    exact whole.map LeafTreeEntry.edge

def forkedCalls : List ServiceCall :=
  [samplePrompt "op_2" "turn_2" "leaf_2",
    .switchActiveLeaf "leaf_1" "op_3" "d" "t" none, samplePrompt "op_4" "turn_4" "leaf_3"]

theorem forkedCalls_reached : Reached sampleValues (sampleSource forkedCalls).record := by
  have prompt (operationId turnId leafId : String) :
      (samplePrompt operationId turnId leafId).Sound := .record (.start ..) "i" "t" rfl rfl
  have created : Reached sampleValues sampleState.record := .created "s" "e" "t" "default" none
  have first := created.called (samplePrompt "op_1" "turn_1" "leaf_1") (prompt ..)
  have second := first.called (samplePrompt "op_2" "turn_2" "leaf_2") (prompt ..)
  have switched := second.called (.switchActiveLeaf "leaf_1" "op_3" "d" "t" none) trivial
  exact switched.called (samplePrompt "op_4" "turn_4" "leaf_3") (prompt ..)

/-- Both branches of the session are in its tree. -/
theorem forkedCalls_tree : ∃ forest, buildLeafTree 99 (sampleSource forkedCalls).record.events
      (some "leaf_3") = some ⟨forest, some "leaf_3"⟩ ∧
    ((Forests.forestRows LeafTreeEntry.leafId none forest).map fun row =>
      (row.1.leafId, row.2)).Perm
      [("leaf_1", none), ("leaf_2", some "leaf_1"), ("leaf_3", some "leaf_1")] := by
  obtain ⟨forest, built, -, edges, -⟩ :=
    buildLeafTree_replayed forkedCalls_reached (some "leaf_3")
  refine ⟨forest, built 99 (by decide), ?_⟩
  have recorded : (foldEvents sampleValues (sampleSource forkedCalls).record.events).leaves.map
      (ReplayLeaf.knownEdge ((foldEvents sampleValues
        (sampleSource forkedCalls).record.events).leaves.map ReplayLeaf.leafId)) =
      [("leaf_1", none), ("leaf_2", some "leaf_1"), ("leaf_3", some "leaf_1")] := by
    decide
  rw [← recorded]
  exact edges

/-- In every reachable log, through forks and clones: where the active leaf changes, it changes to a
leaf that an operation of the same log has committed before, and that operation had been started as
a prompt. -/
theorem Reached.switches_back {values : Serde} {record : SessionRecord}
    (reached : Reached values record) {earlier later : List SessionEventEnvelope}
    {event : SessionEventEnvelope} {leafId : String} (split : record.events = earlier ++ event :: later)
    (changes : event.data = .activeLeafChanged leafId) :
    ∃ front commit back start owner, earlier = front ++ commit :: back ∧
      commit.data = .operationCommitted (some leafId) ∧ commit.operationId = some owner ∧
      start ∈ front ∧ start.data = .operationStarted .prompt ∧ start.operationId = some owner := by
  have grounded := reached.grounded
  have backed (front back : List SessionEventEnvelope) (own : SessionEventEnvelope)
      (here : record.events = front ++ own :: back) : Backed (front.map mark) (mark own) :=
    grounded _ _ ⟨back.map mark, by simp [here]⟩
  have switch := backed earlier later event split
  rw [mark, changes] at switch
  obtain ⟨_, inside, commits⟩ := mem_filterMap.mp switch.2
  obtain ⟨commit, member, rfl⟩ := mem_map.mp inside
  obtain ⟨front, back, rfl⟩ := append_of_mem member
  have done : commit.data = .operationCommitted (some leafId) := by
    unfold committedLeaf at commits
    split at commits
    · rename_i same
      exact (Prod.mk.inj same).2.trans (congrArg _ commits)
    · cases commits
  have commitment := backed front (back ++ event :: later) commit (by simp [split])
  rw [mark, done] at commitment
  obtain ⟨owner, named, started⟩ := commitment
  obtain ⟨_, among, starts⟩ := mem_filterMap.mp (mem_of_getLast? started)
  obtain ⟨start, first, rfl⟩ := mem_map.mp among
  unfold startOf at starts
  split at starts
  · rename_i begun
    split at starts
    · rename_i own
      exact ⟨front, commit, back, start, owner, rfl, done, named, first,
        begun.trans (congrArg _ (Option.some.inj starts)), own⟩
    · cases starts
  · cases starts

/-- The switch of the session goes back to its first prompt. -/
theorem switches_back_forked : ∃ event ∈ (sampleSource forkedCalls).record.events,
    ∃ commit ∈ (sampleSource forkedCalls).record.events,
      event.data = .activeLeafChanged "leaf_1" ∧
        commit.data = .operationCommitted (some "leaf_1") := by
  have switched : ((sampleSource forkedCalls).record.events[9]?).map SessionEventEnvelope.data =
      some (.activeLeafChanged "leaf_1") := rfl
  obtain ⟨event, found, changes⟩ := Option.map_eq_some_iff.mp switched
  have member := mem_of_getElem? found
  obtain ⟨earlier, later, split⟩ := append_of_mem member
  obtain ⟨front, commit, back, _, _, rfl, done, _⟩ :=
    Reached.switches_back forkedCalls_reached split changes
  exact ⟨event, member, commit, by simp [split], changes, done⟩

end tree

end PiRust.SessionLog
