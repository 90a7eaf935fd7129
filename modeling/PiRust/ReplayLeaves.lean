import Mathlib.Data.List.Induction
import PiRust.ReplayVisibility
import PiRust.SessionStore

/- Which items of a replayed transcript the leaves of the replay denote. -/
namespace PiRust.SessionLog

open List

namespace ReplayBuilder

variable (builder : ReplayBuilder)

def adds : SessionEventData → Bool
  | .branchSummaryCreated .. | .turnInputRecorded _ | .messageStarted _ | .toolCallStarted ..
  | .diagnosticEmitted .. => true
  | .delegationFoldedUpdated toolCallId .. =>
    (StringMap.get builder.delegationIndices toolCallId).isNone &&
      (StringMap.get builder.toolIndices toolCallId).isNone
  | _ => false

def cutAt : SessionEventData → Option Nat
  | .sessionCompactionCompleted _ firstKeptMessageId _ =>
    builder.transcript.findIdx? fun item => transcriptItemId item = some firstKeptMessageId
  | _ => none

def promptLeaf (event : SessionEventEnvelope) : Option (ReplayLeaf × String) :=
  match event.data, event.operationId with
  | .operationCommitted (some leafId), some operationId =>
    if StringMap.get builder.operationKinds operationId = some .prompt then
      some
        ({ leafId := leafId
           parentLeafId := builder.activeLeafId
           transcriptStart :=
            (StringMap.get builder.operationTranscriptStarts operationId).getD
              builder.transcript.length
           transcriptEnd := builder.transcript.length }, operationId)
    else none
  | _, _ => none

def extent : List ReplayLeaf × Nat := (builder.leaves, builder.transcript.length)

def extentAfter (event : SessionEventEnvelope) : List ReplayLeaf × Nat :=
  (builder.leaves ++ ((builder.promptLeaf event).map Prod.fst).toList,
    match builder.cutAt event.data with
    | some index => builder.transcript.length - index + 1
    | none => builder.transcript.length + (builder.adds event.data).toNat)

theorem extent_core : builder.core.extent = builder.extent := rfl

theorem extentAfter_core (event : SessionEventEnvelope) :
    builder.core.extentAfter event = builder.extentAfter event := rfl

variable {builder}

theorem extent_steady : Steady extent where
  warn := fun _ _ => rfl
  set := fun builder index item => by simp [extent]

theorem rebuildIndices_extent : builder.rebuildIndices.extent = builder.extent := by
  obtain ⟨messages, tools, delegations, rebuilt⟩ := rebuildIndices_eq builder
  rw [rebuilt]
  rfl

theorem recordPromptLeaf_extent {event : SessionEventEnvelope} {leafId : String}
    (data : event.data = .operationCommitted (some leafId)) :
    (builder.recordPromptLeaf event leafId).extent =
      (builder.leaves ++ ((builder.promptLeaf event).map Prod.fst).toList,
        builder.transcript.length) := by
  unfold recordPromptLeaf promptLeaf
  rw [data]
  cases event.operationId with
  | none => simp [extent]
  | some operationId =>
    by_cases prompt : StringMap.get builder.operationKinds operationId = some .prompt
    · simp [prompt, extent]
    · simp [prompt, extent]

theorem applyEvent_extent (serde : Serde) (event : SessionEventEnvelope) :
    (builder.applyEvent serde event).extent = builder.extentAfter event := by
  have unchanged : builder.extent = (builder.leaves ++ [], builder.transcript.length + 0) := by
    rw [append_nil, Nat.add_zero, extent]
  unfold applyEvent extentAfter
  cases data : event.data
  case operationCommitted newLeafId =>
    cases newLeafId with
    | none => simpa [promptLeaf, data, cutAt, adds] using unchanged
    | some leafId => exact recordPromptLeaf_extent data
  case sessionCompactionCompleted summary firstKeptMessageId tokensBefore =>
    simp only [applyCompactionCompleted, cutAt, promptLeaf, data, adds]
    cases found : builder.transcript.findIdx? fun item =>
        transcriptItemId item = some firstKeptMessageId with
    | none => exact unchanged
    | some index =>
      refine rebuildIndices_extent.trans ?_
      simp [extent]
  all_goals simp only [promptLeaf, data, cutAt, adds, Option.map_none, Option.toList_none]
  case operationStarted => cases event.operationId <;> exact unchanged
  case delegationConfirmationRequested =>
    simp only [addPendingDelegationConfirmation]
    split <;> exact unchanged
  case delegationConfirmationApproved | delegationConfirmationRejected =>
    simp only [resolvePendingDelegationConfirmation]
    split <;> exact unchanged
  case delegationFoldedUpdated =>
    simp only [applyDelegationFoldedUpdate]
    split
    · rename_i found
      simp [extent, found]
    · rename_i missing
      split
      · rename_i found
        simp [extent, found]
      · rename_i absent
        simp [extent, missing, absent]
  case messageCompleted messageId content usage =>
    have recorded : (builder.recordAssistantUsage usage).extent = builder.extent := rfl
    refine (extent_steady.getD_warn _ _ fun _ changed => extent_steady.changeItem changed).trans ?_
    exact recorded.trans unchanged
  case messageCancelled | toolCallUpdated =>
    exact (extent_steady.getD_warn _ _ fun _ changed => extent_steady.changeItem changed).trans unchanged
  case toolCallCompleted | toolCallFailed | toolCallCancelled =>
    rw [extent_steady.finishTool]
    exact unchanged
  case branchSummaryCreated | turnInputRecorded | messageStarted | toolCallStarted |
      diagnosticEmitted =>
    simp [extent, pushItem, diagnose]
  all_goals exact unchanged

end ReplayBuilder

theorem foldEvent_extent (serde : Serde) (finalized : List String) (builder : ReplayBuilder)
    (event : SessionEventEnvelope) :
    (foldEvent serde finalized builder event).extent =
      if isReplayed finalized event then builder.extentAfter event else builder.extent := by
  have same : ((builder.observeSessionId event).observeOperationStatus event).core =
      builder.core := by
    rw [ReplayBuilder.core_observeOperationStatus, ReplayBuilder.core_observeSessionId]
  unfold foldEvent
  by_cases replayed : isReplayed finalized event = true
  · rw [if_pos replayed, if_pos replayed, ReplayBuilder.applyEvent_extent,
      ← ReplayBuilder.extentAfter_core, same, ReplayBuilder.extentAfter_core]
  · rw [if_neg replayed, if_neg replayed, ← ReplayBuilder.extent_core, same,
      ReplayBuilder.extent_core]

/-- A replay with a record of where things come from: the operation that recorded
each item of the transcript, and the one that each leaf is of. What changes an item
in place leaves it where it was recorded. -/
structure Ledger where
  builder : ReplayBuilder
  itemOwners : List (Option String)
  leafOwners : List String
  items : itemOwners.length = builder.transcript.length
  paired : leafOwners.length = builder.leaves.length

namespace Ledger

def ownersAfter (ledger : Ledger) (event : SessionEventEnvelope) : List (Option String) :=
  match ledger.builder.cutAt event.data with
  | some index => event.operationId :: ledger.itemOwners.drop index
  | none =>
    if ledger.builder.adds event.data then ledger.itemOwners ++ [event.operationId]
    else ledger.itemOwners

theorem ownersAfter_length (ledger : Ledger) (event : SessionEventEnvelope) :
    (ledger.ownersAfter event).length = (ledger.builder.extentAfter event).2 := by
  unfold ownersAfter ReplayBuilder.extentAfter
  rw [← ledger.items]
  cases ledger.builder.cutAt event.data with
  | some index => simp
  | none => cases ledger.builder.adds event.data <;> simp

def empty : Ledger := ⟨{}, [], [], rfl, rfl⟩

/-- One event of the loop of `fold_events`. -/
def record (serde : Serde) (finalized : List String) (ledger : Ledger)
    (event : SessionEventEnvelope) : Ledger where
  builder := foldEvent serde finalized ledger.builder event
  itemOwners :=
    if isReplayed finalized event then ledger.ownersAfter event else ledger.itemOwners
  leafOwners :=
    if isReplayed finalized event then
      ledger.leafOwners ++ ((ledger.builder.promptLeaf event).map Prod.snd).toList
    else ledger.leafOwners
  items := by
    have kept := congrArg Prod.snd (foldEvent_extent serde finalized ledger.builder event)
    refine Eq.trans ?_ kept.symm
    split
    · exact ledger.ownersAfter_length event
    · exact ledger.items
  paired := by
    have kept := congrArg Prod.fst (foldEvent_extent serde finalized ledger.builder event)
    refine Eq.trans ?_ (congrArg length kept).symm
    split
    · cases recorded : ledger.builder.promptLeaf event <;>
        simp [ReplayBuilder.extentAfter, ledger.paired, recorded]
    · exact ledger.paired

def leaves (ledger : Ledger) : List (ReplayLeaf × String) :=
  ledger.builder.leaves.zip ledger.leafOwners

end Ledger

def Denotes (itemOwners : List (Option String)) (leaf : ReplayLeaf) (owner : String) : Prop :=
  leaf.transcriptStart ≤ leaf.transcriptEnd ∧ leaf.transcriptEnd ≤ itemOwners.length ∧
    ∀ position, itemOwners[position]? = some (some owner) ↔
      leaf.transcriptStart ≤ position ∧ position < leaf.transcriptEnd

def Ledger.Sound (ledger : Ledger) : Prop :=
  ∀ entry ∈ ledger.leaves, Denotes ledger.itemOwners entry.1 entry.2

/-- A compaction that keeps the items from `index` on leaves a recorded leaf where it
was. The summary takes the place of what was cut off, so that only the offsets of an
empty leaf may shift, unless exactly one item is cut. -/
def Unmoved (length index : Nat) (recorder : Option String) (leaf : ReplayLeaf) (owner : String) :
    Prop :=
  if recorder = some owner then
    leaf.transcriptStart = 0 ∧
      (index = 1 ∧ 0 < leaf.transcriptEnd ∨ 1 < index ∧ leaf.transcriptEnd = 1)
  else
    index = 1 ∧ 0 < leaf.transcriptStart ∨
      leaf.transcriptStart = leaf.transcriptEnd ∧ leaf.transcriptEnd + index ≤ length + 1

/-- The items from `start` on are those that an operation recorded: no other operation
recorded one since, and it recorded none before. -/
structure Apart (itemOwners : List (Option String)) (start : Nat) (owner : String) : Prop where
  inside : start ≤ itemOwners.length
  before : some owner ∉ itemOwners.take start
  since : ∀ recorder ∈ itemOwners.drop start, recorder = some owner

/-- What an event may do without spoiling the leaves of a replay: it adds no item to an
operation whose leaf is recorded, it records a leaf only for an operation whose items
stand apart since it started, and it cuts the transcript only where no leaf moves. -/
structure Ledger.Keeps (ledger : Ledger) (event : SessionEventEnvelope) : Prop where
  adding : ledger.builder.adds event.data = true →
    ∀ entry ∈ ledger.leaves, event.operationId ≠ some entry.2
  recording : ∀ leaf owner, ledger.builder.promptLeaf event = some (leaf, owner) →
    Apart ledger.itemOwners leaf.transcriptStart owner
  cutting : ∀ index, ledger.builder.cutAt event.data = some index →
    ∀ entry ∈ ledger.leaves,
      Unmoved ledger.builder.transcript.length index event.operationId entry.1 entry.2

section owners

variable {owners : List (Option String)} {recorder : Option String} {owner : String}
  {leaf : ReplayLeaf}

theorem denotes_iff_apart (last : leaf.transcriptEnd = owners.length) :
    Denotes owners leaf owner ↔ Apart owners leaf.transcriptStart owner := by
  unfold Denotes
  rw [last]
  constructor
  · intro denotes
    obtain ⟨inside, -, owned⟩ := denotes
    refine ⟨inside, fun early => ?_, fun recorder late => ?_⟩
    · obtain ⟨position, found⟩ := getElem?_of_mem early
      rw [getElem?_take] at found
      by_cases earlier : position < leaf.transcriptStart
      · rw [if_pos earlier] at found
        have wrong := ((owned position).mp found).1
        omega
      · rw [if_neg earlier] at found
        cases found
    · obtain ⟨position, found⟩ := getElem?_of_mem late
      rw [getElem?_drop] at found
      have short : leaf.transcriptStart + position < owners.length :=
        (List.getElem?_eq_some_iff.mp found).1
      have own := (owned (leaf.transcriptStart + position)).mpr ⟨by omega, short⟩
      rw [own] at found
      exact (Option.some.inj found).symm
  · intro apart
    refine ⟨apart.inside, Nat.le_refl _, fun position => ⟨fun found => ?_, fun range => ?_⟩⟩
    · have short : position < owners.length := (List.getElem?_eq_some_iff.mp found).1
      refine ⟨?_, short⟩
      by_cases earlier : position < leaf.transcriptStart
      · have early : (owners.take leaf.transcriptStart)[position]? = some (some owner) := by
          rw [getElem?_take, if_pos earlier]
          exact found
        exact absurd (mem_of_getElem? early) apart.before
      · omega
    · obtain ⟨late, short⟩ := range
      have found := getElem?_eq_getElem short
      have since : owners[position] ∈ owners.drop leaf.transcriptStart := by
        apply mem_of_getElem? (i := position - leaf.transcriptStart)
        rw [getElem?_drop, Nat.add_sub_cancel' late]
        exact found
      rw [found, apart.since _ since]

theorem owned_cut_iff {start stop index : Nat}
    (owned : ∀ position, owners[position]? = some (some owner) ↔
      start ≤ position ∧ position < stop) :
    (∀ position, (recorder :: owners.drop index)[position]? = some (some owner) ↔
      start ≤ position ∧ position < stop) ↔
      (recorder = some owner ↔ start = 0 ∧ 0 < stop) ∧
      ∀ position, (start ≤ index + position ∧ index + position < stop) ↔
        start ≤ position + 1 ∧ position + 1 < stop := by
  constructor
  · intro all
    refine ⟨?_, fun position => ?_⟩
    · have head := all 0
      simpa using head
    · have later := all (position + 1)
      rw [getElem?_cons_succ, getElem?_drop, owned] at later
      exact later
  · intro parts position
    cases position with
    | zero => simpa using parts.1
    | succ position =>
      rw [getElem?_cons_succ, getElem?_drop, owned]
      exact parts.2 position

theorem denotes_cut_iff {index : Nat} (denotes : Denotes owners leaf owner)
    (cut : index < owners.length) :
    Denotes (recorder :: owners.drop index) leaf owner ↔
      Unmoved owners.length index recorder leaf owner := by
  obtain ⟨ordered, inside, owned⟩ := denotes
  unfold Denotes Unmoved
  rw [owned_cut_iff owned, length_cons, length_drop]
  by_cases own : recorder = some owner
  · rw [if_pos own]
    simp only [own, true_iff]
    constructor
    · intro kept
      obtain ⟨-, short, filled, shifted⟩ := kept
      -- the last offsets of the leaf decide whether it may move
      have last := shifted (leaf.transcriptEnd - 1)
      have second := shifted (leaf.transcriptEnd - 2)
      have zero := shifted 0
      omega
    · intro unmoved
      exact ⟨ordered, by omega, by omega, fun position => by omega⟩
  · rw [if_neg own]
    simp only [own, false_iff]
    constructor
    · intro kept
      obtain ⟨-, short, foreign, shifted⟩ := kept
      have last := shifted (leaf.transcriptEnd - 1)
      have second := shifted (leaf.transcriptEnd - 2)
      omega
    · intro unmoved
      exact ⟨ordered, by omega, by omega, fun position => by omega⟩

/-- A new item at the end spoils the leaves of the operation it is of. -/
theorem denotes_append_iff (denotes : Denotes owners leaf owner) :
    Denotes (owners ++ [recorder]) leaf owner ↔ recorder ≠ some owner := by
  obtain ⟨ordered, inside, owned⟩ := denotes
  constructor
  · intro kept same
    have last := (kept.2.2 owners.length).mp (by simp [same])
    omega
  · intro foreign
    refine ⟨ordered, by simp only [length_append, length_singleton]; omega,
      fun position => ?_⟩
    by_cases short : position < owners.length
    · rw [getElem?_append_left short]
      exact owned position
    · constructor
      · intro found
        rw [getElem?_append_right (by omega)] at found
        have member := mem_of_getElem? found
        exact absurd (mem_singleton.mp member).symm foreign
      · intro range
        omega

end owners

namespace ReplayBuilder

variable {builder : ReplayBuilder}
variable {index : Nat} {event : SessionEventEnvelope}

theorem cutAt_bound {data : SessionEventData} (cut : builder.cutAt data = some index) :
    index < builder.transcript.length := by
  cases data <;> try cases cut
  exact (findIdx?_eq_some_iff_getElem.mp cut).1

theorem cutAt_alone (cut : builder.cutAt event.data = some index) :
    builder.adds event.data = false ∧ builder.promptLeaf event = none := by
  unfold promptLeaf
  cases data : event.data
  case sessionCompactionCompleted => exact ⟨rfl, rfl⟩
  all_goals
    rw [data] at cut
    cases cut

theorem adds_alone (added : builder.adds event.data = true) :
    builder.cutAt event.data = none ∧ builder.promptLeaf event = none := by
  unfold promptLeaf
  cases data : event.data <;> rw [data] at added <;> first | exact ⟨rfl, rfl⟩ | cases added

end ReplayBuilder

namespace Ledger

variable (serde : Serde) (finalized : List String) (ledger : Ledger) (event : SessionEventEnvelope)

theorem promptLeaf_last {ledger : Ledger} {event : SessionEventEnvelope} {leaf : ReplayLeaf}
    {owner : String} (recorded : ledger.builder.promptLeaf event = some (leaf, owner)) :
    leaf.transcriptEnd = ledger.itemOwners.length := by
  rw [ledger.items]
  unfold ReplayBuilder.promptLeaf at recorded
  split at recorded
  · split at recorded
    · cases recorded
      rfl
    · cases recorded
  · cases recorded

theorem record_leaves :
    (ledger.record serde finalized event).leaves =
      if isReplayed finalized event then
        ledger.leaves ++ (ledger.builder.promptLeaf event).toList
      else ledger.leaves := by
  have kept := congrArg Prod.fst (foldEvent_extent serde finalized ledger.builder event)
  rw [apply_ite Prod.fst] at kept
  have builderLeaves : (foldEvent serde finalized ledger.builder event).leaves =
      (foldEvent serde finalized ledger.builder event).extent.1 := rfl
  unfold leaves record
  rw [builderLeaves, kept]
  split
  · simp only [ReplayBuilder.extentAfter]
    rw [zip_append ledger.paired.symm]
    cases ledger.builder.promptLeaf event <;> rfl
  · rfl

section

variable (sound : ledger.Sound)
include sound

theorem keeps_iff_of_cut {index : Nat} (cut : ledger.builder.cutAt event.data = some index) :
    ledger.Keeps event ↔ ∀ entry ∈ ledger.leaves,
      Denotes (ledger.ownersAfter event) entry.1 entry.2 := by
  obtain ⟨added, recorded⟩ := ReplayBuilder.cutAt_alone cut
  have bound : index < ledger.itemOwners.length := by
    rw [ledger.items]
    exact ReplayBuilder.cutAt_bound cut
  have step : ∀ entry ∈ ledger.leaves, (Denotes (ledger.ownersAfter event) entry.1 entry.2 ↔
      Unmoved ledger.builder.transcript.length index event.operationId entry.1 entry.2) := by
    intro entry member
    rw [ownersAfter, cut, ← ledger.items]
    exact denotes_cut_iff (sound entry member) bound
  constructor
  · intro keeps entry member
    exact (step entry member).mpr (keeps.cutting index cut entry member)
  · intro kept
    refine ⟨fun wrong => ?_, fun leaf owner wrong => ?_, fun other same entry member => ?_⟩
    · rw [added] at wrong
      cases wrong
    · rw [recorded] at wrong
      cases wrong
    · rw [cut] at same
      cases same
      exact (step entry member).mp (kept entry member)

theorem keeps_iff_of_adds (added : ledger.builder.adds event.data = true) :
    ledger.Keeps event ↔ ∀ entry ∈ ledger.leaves,
      Denotes (ledger.ownersAfter event) entry.1 entry.2 := by
  obtain ⟨cut, recorded⟩ := ReplayBuilder.adds_alone added
  have step : ∀ entry ∈ ledger.leaves, (Denotes (ledger.ownersAfter event) entry.1 entry.2 ↔
      event.operationId ≠ some entry.2) := by
    intro entry member
    rw [ownersAfter, cut, added]
    exact denotes_append_iff (sound entry member)
  constructor
  · intro keeps entry member
    exact (step entry member).mpr (keeps.adding added entry member)
  · intro kept
    refine ⟨fun _ entry member => (step entry member).mp (kept entry member),
      fun leaf owner wrong => ?_, fun index wrong => ?_⟩
    · rw [recorded] at wrong
      cases wrong
    · rw [cut] at wrong
      cases wrong

theorem keeps_iff_of_length (cut : ledger.builder.cutAt event.data = none)
    (added : ledger.builder.adds event.data = false) :
    ledger.Keeps event ↔ ∀ entry ∈ ledger.leaves ++ (ledger.builder.promptLeaf event).toList,
      Denotes (ledger.ownersAfter event) entry.1 entry.2 := by
  have owners : ledger.ownersAfter event = ledger.itemOwners := by
    rw [ownersAfter, cut, added]
    rfl
  rw [owners]
  constructor
  · intro keeps entry member
    rcases mem_append.mp member with old | new
    · exact sound entry old
    · have recorded : ledger.builder.promptLeaf event = some entry := by
        simpa using new
      exact (denotes_iff_apart (promptLeaf_last recorded)).mpr
        (keeps.recording entry.1 entry.2 recorded)
  · intro kept
    refine ⟨fun wrong => ?_, fun leaf owner recorded => ?_, fun index wrong => ?_⟩
    · rw [added] at wrong
      cases wrong
    · have denotes := kept (leaf, owner) (by simp [recorded])
      exact (denotes_iff_apart (promptLeaf_last recorded)).mp denotes
    · rw [cut] at wrong
      cases wrong

theorem keeps_iff :
    ledger.Keeps event ↔ ∀ entry ∈ ledger.leaves ++ (ledger.builder.promptLeaf event).toList,
      Denotes (ledger.ownersAfter event) entry.1 entry.2 := by
  cases cut : ledger.builder.cutAt event.data with
  | some index =>
    rw [(ReplayBuilder.cutAt_alone cut).2, Option.toList_none, append_nil]
    exact ledger.keeps_iff_of_cut event sound cut
  | none =>
    by_cases added : ledger.builder.adds event.data = true
    · rw [(ReplayBuilder.adds_alone added).2, Option.toList_none, append_nil]
      exact ledger.keeps_iff_of_adds event sound added
    · exact ledger.keeps_iff_of_length event sound cut (by simpa using added)

theorem record_sound_iff :
    (ledger.record serde finalized event).Sound ↔
      (isReplayed finalized event = true → ledger.Keeps event) := by
  have leaves := ledger.record_leaves serde finalized event
  unfold Sound
  rw [leaves]
  by_cases replayed : isReplayed finalized event = true
  · simp only [record, replayed, if_true, true_imp_iff]
    exact (ledger.keeps_iff event sound).symm
  · simp only [record, replayed, Bool.false_eq_true, if_false, false_imp_iff, iff_true]
    exact sound

end

/-- The ledger after the events of the loop in `fold_events`. -/
def after (events : List SessionEventEnvelope) : Ledger :=
  events.foldl (record serde finalized) empty

theorem after_builder (events : List SessionEventEnvelope) :
    (after serde finalized events).builder = events.foldl (foldEvent serde finalized) {} := by
  induction events using reverseRecOn with
  | nil => rfl
  | append_singleton events event ih =>
    unfold after at ih ⊢
    rw [foldl_append, foldl_append, ← ih]
    rfl

theorem empty_sound : empty.Sound := by
  intro entry member
  cases member

end Ledger

/-- Every event that a log replays keeps the leaves recorded before it. -/
def KeepsLeaves (serde : Serde) (log : List SessionEventEnvelope) : Prop :=
  ∀ reached event, reached ++ [event] <+: log →
    isReplayed (finalizedOperationIds log) event = true →
      (Ledger.after serde (finalizedOperationIds log) reached).Keeps event

/-- The leaves of a replay lie within its transcript and denote what their own
operations recorded. -/
structure SoundLeaves (replay : SessionReplay) (itemOwners : List (Option String))
    (leafOwners : List String) : Prop where
  items : itemOwners.length = replay.transcript.length
  leaves : leafOwners.length = replay.leaves.length
  denote : ∀ entry ∈ replay.leaves.zip leafOwners, Denotes itemOwners entry.1 entry.2

theorem soundLeaves_of_sound {serde : Serde} {log : List SessionEventEnvelope}
    (sound : (Ledger.after serde (finalizedOperationIds log) log).Sound) :
    SoundLeaves (foldEvents serde log)
      (Ledger.after serde (finalizedOperationIds log) log).itemOwners
      (Ledger.after serde (finalizedOperationIds log) log).leafOwners := by
  obtain ⟨transcript, leaves⟩ := foldEvents_shown serde log
  have builder := Ledger.after_builder serde (finalizedOperationIds log) log
  have sameTranscript : (foldEvents serde log).transcript =
      (Ledger.after serde (finalizedOperationIds log) log).builder.transcript := by
    rw [transcript, builder]
    rfl
  have sameLeaves : (foldEvents serde log).leaves =
      (Ledger.after serde (finalizedOperationIds log) log).builder.leaves := by
    rw [leaves, builder]
    rfl
  refine ⟨?_, ?_, ?_⟩
  · rw [sameTranscript]
    exact Ledger.items _
  · rw [sameLeaves]
    exact Ledger.paired _
  · rw [sameLeaves]
    exact sound

/-- The leaves are sound at every point of a replay exactly if every replayed event keeps
them, and then they are sound in its result. -/
theorem foldEvents_leaves_sound (serde : Serde) (log : List SessionEventEnvelope) :
    (KeepsLeaves serde log ↔ ∀ reached, reached <+: log →
        (Ledger.after serde (finalizedOperationIds log) reached).Sound) ∧
      (KeepsLeaves serde log → SoundLeaves (foldEvents serde log)
        (Ledger.after serde (finalizedOperationIds log) log).itemOwners
        (Ledger.after serde (finalizedOperationIds log) log).leafOwners) := by
  have step (reached : List SessionEventEnvelope) (event : SessionEventEnvelope) :
      Ledger.after serde (finalizedOperationIds log) (reached ++ [event]) =
        (Ledger.after serde (finalizedOperationIds log) reached).record serde
          (finalizedOperationIds log) event := by
    unfold Ledger.after
    rw [foldl_append]
    rfl
  have sound (keeps : KeepsLeaves serde log) (reached : List SessionEventEnvelope) :
      reached <+: log → (Ledger.after serde (finalizedOperationIds log) reached).Sound := by
    induction reached using reverseRecOn with
    | nil => exact fun _ => Ledger.empty_sound
    | append_singleton reached event ih =>
      intro within
      have before := ih ((prefix_append reached [event]).trans within)
      rw [step, Ledger.record_sound_iff serde _ _ event before]
      exact keeps reached event within
  refine ⟨⟨sound, fun all reached event within => ?_⟩, fun keeps => ?_⟩
  · have before := all reached ((prefix_append reached [event]).trans within)
    have after := all (reached ++ [event]) within
    rw [step] at after
    exact (Ledger.record_sound_iff serde _ _ event before).mp after
  · exact soundLeaves_of_sound (sound keeps log (prefix_refl log))

section compacted

def plainValues : Serde := .silent

def promptEvent (data : SessionEventData) : SessionEventEnvelope :=
  { (SessionEventEnvelope.new "s" "e" "t" data).withOperationId "op_1" with turnId := some "turn_1" }

def compactionEvent (data : SessionEventData) : SessionEventEnvelope :=
  { (SessionEventEnvelope.new "s" "e" "t" data).withOperationId "op_2" with turnId := some "turn_2" }

def compactedLog : List SessionEventEnvelope :=
  [promptEvent (.operationStarted .prompt), promptEvent .turnStarted,
    promptEvent (.turnInputRecorded [.text "list"]),
    promptEvent (.toolCallStarted "tool_1" "ls" .null),
    promptEvent (.toolCallCompleted "tool_1" (.text "src")),
    promptEvent (.messageStarted "msg_1"), promptEvent (.messageCompleted "msg_1" [.text "src"] {}),
    promptEvent (.operationCommitted (some "leaf_1")),
    compactionEvent (.operationStarted .manualCompaction), compactionEvent .turnStarted,
    compactionEvent .sessionCompactionStarted,
    compactionEvent (.sessionCompactionCompleted "listed" "msg_1" 9),
    compactionEvent (.operationCommitted none)]

/-- After the compaction the leaf reaches beyond the transcript. -/
theorem compaction_strands_leaf :
    ¬ ∀ leaf ∈ (foldEvents plainValues compactedLog).leaves,
      leaf.transcriptStart ≤ leaf.transcriptEnd ∧
        leaf.transcriptEnd ≤ (foldEvents plainValues compactedLog).transcript.length := by
  decide

end compacted

end PiRust.SessionLog
