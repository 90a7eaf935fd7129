import Mathlib.Data.List.Induction
import PiRust.ReplayVisibility

/- The statuses of the operations of a log. -/
namespace PiRust.SessionLog

open List

def isBoundary : SessionEventData → Bool
  | .operationStarted _ | .operationCommitted _ | .activeLeafChanged _ => true
  | _ => false

def leafMove (event : SessionEventEnvelope) : Option String :=
  match event.data with
  | .operationCommitted newLeafId => newLeafId
  | .activeLeafChanged leafId => some leafId
  | _ => none

namespace ReplayBuilder

variable (builder : ReplayBuilder)

/-- The builder without what the events inside an operation change. -/
def frame : ReplayBuilder :=
  { builder with
    cwd := none
    transcript := []
    diagnostics := []
    messageIndices := []
    toolIndices := []
    delegationIndices := []
    pendingDelegationConfirmations := []
    usage := {} }

variable {builder}

theorem frame_steady : Steady frame where
  warn := fun _ _ => rfl
  set := fun _ _ _ => rfl

theorem rebuildIndices_frame : builder.rebuildIndices.frame = builder.frame := by
  obtain ⟨messages, tools, delegations, rebuilt⟩ := rebuildIndices_eq builder
  rw [rebuilt]
  rfl

theorem applyEvent_frame (serde : Serde) {event : SessionEventEnvelope}
    (within : isBoundary event.data = false) :
    (builder.applyEvent serde event).frame = builder.frame := by
  unfold applyEvent
  revert within
  cases event.data <;> intro within
  case sessionCompactionCompleted =>
    simp only [applyCompactionCompleted]
    split
    · rfl
    · exact rebuildIndices_frame
  case delegationConfirmationRequested =>
    simp only [addPendingDelegationConfirmation]
    split <;> rfl
  case delegationConfirmationApproved | delegationConfirmationRejected =>
    simp only [resolvePendingDelegationConfirmation]
    split <;> rfl
  case delegationFoldedUpdated =>
    simp only [applyDelegationFoldedUpdate]
    split
    · rfl
    · split <;> rfl
  case messageCompleted messageId content usage =>
    have recorded : (builder.recordAssistantUsage usage).frame = builder.frame := rfl
    exact (frame_steady.getD_warn _ _ fun _ changed => frame_steady.changeItem changed).trans recorded
  case messageCancelled | toolCallUpdated =>
    exact frame_steady.getD_warn _ _ fun _ changed => frame_steady.changeItem changed
  case toolCallCompleted | toolCallFailed | toolCallCancelled =>
    exact frame_steady.finishTool _ _ _ _
  all_goals first | rfl | cases within

theorem recordPromptLeaf_operationStatuses (event : SessionEventEnvelope) (leafId : String) :
    (builder.recordPromptLeaf event leafId).operationStatuses = builder.operationStatuses := by
  unfold recordPromptLeaf
  split
  · rfl
  · split <;> rfl

theorem frame_operationStatuses : builder.frame.operationStatuses = builder.operationStatuses := rfl

theorem frame_activeLeafId : builder.frame.activeLeafId = builder.activeLeafId := rfl

theorem applyEvent_operationStatuses (serde : Serde) (event : SessionEventEnvelope) :
    (builder.applyEvent serde event).operationStatuses = builder.operationStatuses := by
  by_cases within : isBoundary event.data = false
  · rw [← frame_operationStatuses, applyEvent_frame serde within, frame_operationStatuses]
  unfold applyEvent
  cases data : event.data
  case operationStarted => cases event.operationId <;> rfl
  case operationCommitted newLeafId =>
    cases newLeafId with
    | none => rfl
    | some leafId => exact recordPromptLeaf_operationStatuses event leafId
  case activeLeafChanged => rfl
  all_goals exact absurd (by rw [data]; rfl) within

theorem applyEvent_activeLeafId (serde : Serde) (event : SessionEventEnvelope) :
    (builder.applyEvent serde event).activeLeafId = (leafMove event).or builder.activeLeafId := by
  unfold leafMove
  by_cases within : isBoundary event.data = false
  · rw [← frame_activeLeafId, applyEvent_frame serde within, frame_activeLeafId]
    revert within
    cases event.data <;> intro within <;> first | rfl | cases within
  unfold applyEvent
  cases data : event.data
  case operationStarted => cases event.operationId <;> rfl
  case operationCommitted newLeafId => cases newLeafId <;> rfl
  case activeLeafChanged => rfl
  all_goals exact absurd (by rw [data]; rfl) within

end ReplayBuilder

def isOperationStarted : SessionEventData → Bool
  | .operationStarted _ => true
  | _ => false

def finalStatus : SessionEventData → Option OperationReplayStatus
  | .operationCommitted _ => some .committed
  | .operationFailed _ _ => some .failed
  | .operationAborted _ => some .aborted
  | .operationRecovered _ _ => some .recovered
  | _ => none

theorem finalStatus_isSome (data : SessionEventData) :
    (finalStatus data).isSome = data.isFinalMarker := by
  cases data <;> rfl

theorem finalStatus_not_inDoubt {data : SessionEventData} {status : OperationReplayStatus}
    (final : finalStatus data = some status) : status ≠ .inDoubt := by
  cases data <;> cases final <;> decide

variable (events : List SessionEventEnvelope) (operationId : String)

def finalStatuses : List OperationReplayStatus :=
  events.filterMap fun event =>
    if event.operationId = some operationId then finalStatus event.data else none

def isStarted : Bool :=
  events.any fun event =>
    isOperationStarted event.data && decide (event.operationId = some operationId)

/-- The status of an operation after some events: its last final marker decides, and
without one it is in doubt as soon as it has started. -/
def statusOf : Option OperationReplayStatus :=
  (finalStatuses events operationId).getLast?.or
    (if isStarted events operationId then some .inDoubt else none)

theorem finalStatuses_append (events more : List SessionEventEnvelope) (operationId : String) :
    finalStatuses (events ++ more) operationId =
      finalStatuses events operationId ++ finalStatuses more operationId :=
  filterMap_append

theorem isStarted_append (events more : List SessionEventEnvelope) (operationId : String) :
    isStarted (events ++ more) operationId =
      (isStarted events operationId || isStarted more operationId) :=
  any_append

variable {operationId : String}

theorem statusOf_append_other (events : List SessionEventEnvelope) {event : SessionEventEnvelope}
    (other : event.operationId ≠ some operationId) :
    statusOf (events ++ [event]) operationId = statusOf events operationId := by
  simp [statusOf, finalStatuses, isStarted, other]

theorem statusOf_append_own (events : List SessionEventEnvelope) {event : SessionEventEnvelope}
    (own : event.operationId = some operationId) :
    statusOf (events ++ [event]) operationId =
      (finalStatus event.data).or ((statusOf events operationId).or
        (if isOperationStarted event.data then some .inDoubt else none)) := by
  have last : (finalStatuses [event] operationId).getLast? = finalStatus event.data := by
    simp only [finalStatuses, filterMap_cons, own, if_true, filterMap_nil]
    cases finalStatus event.data <;> rfl
  have started : isStarted [event] operationId = isOperationStarted event.data := by
    simp [isStarted, own]
  unfold statusOf
  rw [finalStatuses_append, isStarted_append, getLast?_append, last, started, Option.or_assoc,
    Option.or_assoc]
  cases isStarted events operationId <;> simp

theorem get_observeOperationStatus (builder : ReplayBuilder) (event : SessionEventEnvelope)
    (events : List SessionEventEnvelope)
    (before : ∀ operationId, StringMap.get builder.operationStatuses operationId =
      statusOf events operationId) (operationId : String) :
    StringMap.get (builder.observeOperationStatus event).operationStatuses operationId =
      statusOf (events ++ [event]) operationId := by
  unfold ReplayBuilder.observeOperationStatus
  cases named : event.operationId with
  | none =>
    rw [statusOf_append_other events (by rw [named]; exact nofun)]
    exact before operationId
  | some eventId =>
    have set (status : OperationReplayStatus) (final : finalStatus event.data = some status) :
        StringMap.get (builder.setStatus eventId status).operationStatuses operationId =
          statusOf (events ++ [event]) operationId := by
      simp only [ReplayBuilder.setStatus, StringMap.get_insert]
      by_cases own : operationId = eventId
      · rw [if_pos own, statusOf_append_own events (by rw [named, own]), final, Option.some_or]
      · rw [if_neg own, before,
          statusOf_append_other events (by rw [named]; exact fun same => own (by cases same; rfl))]
    have skip (unmarked : finalStatus event.data = none)
        (settled : isOperationStarted event.data = true →
          (StringMap.get builder.operationStatuses eventId).isSome = true) :
        StringMap.get builder.operationStatuses operationId =
          statusOf (events ++ [event]) operationId := by
      by_cases own : operationId = eventId
      · subst own
        rw [statusOf_append_own events named, unmarked, Option.none_or, ← before]
        cases held : StringMap.get builder.operationStatuses operationId with
        | some status => rfl
        | none =>
          rw [held] at settled
          cases started : isOperationStarted event.data with
          | false => rfl
          | true => cases settled started
      · rw [before,
          statusOf_append_other events (by rw [named]; exact fun same => own (by cases same; rfl))]
    cases data : event.data
    case operationStarted operation =>
      have unmarked : finalStatus event.data = none := by rw [data]; rfl
      by_cases held : (StringMap.get builder.operationStatuses eventId).isSome = true
      · simp only [held, if_true]
        exact skip unmarked fun _ => held
      · simp only [held]
        have missing : statusOf events eventId = none := by
          rw [← before]
          exact Option.not_isSome_iff_eq_none.mp held
        show StringMap.get (builder.setStatus eventId .inDoubt).operationStatuses operationId = _
        simp only [ReplayBuilder.setStatus, StringMap.get_insert]
        by_cases own : operationId = eventId
        · subst own
          rw [if_pos rfl, statusOf_append_own events named, unmarked, Option.none_or, missing,
            Option.none_or, data]
          rfl
        · rw [if_neg own, before, statusOf_append_other events
            (by rw [named]; exact fun same => own (by cases same; rfl))]
    case operationCommitted => exact set .committed (by rw [data]; rfl)
    case operationFailed => exact set .failed (by rw [data]; rfl)
    case operationAborted => exact set .aborted (by rw [data]; rfl)
    case operationRecovered => exact set .recovered (by rw [data]; rfl)
    all_goals exact skip (by rw [data]; rfl) (by rw [data]; exact nofun)

theorem observeSessionId_operationStatuses (builder : ReplayBuilder)
    (event : SessionEventEnvelope) :
    (builder.observeSessionId event).operationStatuses = builder.operationStatuses := by
  unfold ReplayBuilder.observeSessionId
  split
  · rfl
  · split <;> rfl

variable (serde : Serde)

variable (finalized : List String)

theorem foldEvent_operationStatuses (builder : ReplayBuilder) (event : SessionEventEnvelope) :
    (foldEvent serde finalized builder event).operationStatuses =
      ((builder.observeSessionId event).observeOperationStatus event).operationStatuses := by
  unfold foldEvent
  by_cases replayed : isReplayed finalized event = true
  · rw [if_pos replayed, ReplayBuilder.applyEvent_operationStatuses]
  · rw [if_neg replayed]

theorem observeOperationStatus_unique (builder : ReplayBuilder) (event : SessionEventEnvelope)
    (unique : (builder.operationStatuses.map Prod.fst).Nodup) :
    ((builder.observeOperationStatus event).operationStatuses.map Prod.fst).Nodup := by
  unfold ReplayBuilder.observeOperationStatus
  split
  · exact unique
  · split
    · split
      · exact unique
      · exact StringMap.keys_insert_nodup unique _ _
    all_goals first | exact StringMap.keys_insert_nodup unique _ _ | exact unique

theorem foldl_foldEvent_unique (events : List SessionEventEnvelope) (builder : ReplayBuilder)
    (unique : (builder.operationStatuses.map Prod.fst).Nodup) :
    ((events.foldl (foldEvent serde finalized) builder).operationStatuses.map Prod.fst).Nodup := by
  induction events generalizing builder with
  | nil => exact unique
  | cons event events ih =>
    refine ih _ ?_
    rw [foldEvent_operationStatuses]
    refine observeOperationStatus_unique _ _ ?_
    rw [observeSessionId_operationStatuses]
    exact unique

theorem foldl_foldEvent_status (events : List SessionEventEnvelope) (operationId : String) :
    StringMap.get (events.foldl (foldEvent serde finalized) {}).operationStatuses operationId =
      statusOf events operationId := by
  induction events using reverseRecOn generalizing operationId with
  | nil => rfl
  | append_singleton events event ih =>
    rw [foldl_append, foldl_cons, foldl_nil, foldEvent_operationStatuses]
    refine get_observeOperationStatus _ event events (fun other => ?_) operationId
    rw [observeSessionId_operationStatuses]
    exact ih other

theorem foldl_warn_operationStatuses (messages : String → String) (operationIds : List String)
    (builder : ReplayBuilder) :
    (operationIds.foldl (fun (builder : ReplayBuilder) operationId =>
      builder.warn (messages operationId)) builder).operationStatuses =
        builder.operationStatuses := by
  induction operationIds generalizing builder with
  | nil => rfl
  | cons operationId operationIds ih =>
    rw [foldl_cons, ih]
    rfl

theorem foldEvents_operationStatuses (events : List SessionEventEnvelope) :
    (foldEvents serde events).operationStatuses =
      (events.foldl (foldEvent serde (finalizedOperationIds events)) {}).operationStatuses :=
  foldl_warn_operationStatuses
    (fun operationId => "operation " ++ operationId ++
      " has no final marker and was omitted from replay") _ _

theorem operationStatus_foldEvents (events : List SessionEventEnvelope) (operationId : String) :
    (foldEvents serde events).operationStatus operationId = statusOf events operationId := by
  unfold SessionReplay.operationStatus
  rw [foldEvents_operationStatuses, foldl_foldEvent_status]

theorem mem_recoverySummary (events : List SessionEventEnvelope) (operationId : String) :
    operationId ∈ (foldEvents serde events).recoverySummary ↔
      statusOf events operationId = some .inDoubt := by
  have unique := foldl_foldEvent_unique serde (finalizedOperationIds events) events {} nodup_nil
  rw [← operationStatus_foldEvents serde, SessionReplay.operationStatus,
    foldEvents_operationStatuses, StringMap.get_eq_some_iff unique]
  unfold SessionReplay.recoverySummary
  rw [mem_mergeSort, foldEvents_operationStatuses, mem_map]
  constructor
  · rintro ⟨⟨id, status⟩, member, rfl⟩
    obtain ⟨inside, doubtful⟩ := mem_filter.mp member
    simp only [decide_eq_true_eq] at doubtful
    rw [← doubtful]
    exact inside
  · intro inside
    exact ⟨(operationId, .inDoubt), mem_filter.mpr ⟨inside, by simp⟩, rfl⟩

theorem statusOf_finalized {events : List SessionEventEnvelope}
    (finalized : operationId ∈ finalizedOperationIds events) :
    ∃ status, statusOf events operationId = some status ∧ status ≠ .inDoubt := by
  obtain ⟨marker, inside, final, named⟩ :=
    (mem_finalizedOperationIds events operationId).mp finalized
  rw [← finalStatus_isSome] at final
  obtain ⟨first, given⟩ := Option.isSome_iff_exists.mp final
  have member : first ∈ finalStatuses events operationId :=
    mem_filterMap.mpr ⟨marker, inside, by simp [named, given]⟩
  obtain ⟨status, last⟩ : ∃ status, (finalStatuses events operationId).getLast? = some status :=
    ⟨_, getLast?_eq_some_getLast (ne_nil_of_mem member)⟩
  refine ⟨status, by simp [statusOf, last], ?_⟩
  obtain ⟨event, _, found⟩ := mem_filterMap.mp (mem_of_getLast? last)
  split at found
  · exact finalStatus_not_inDoubt found
  · cases found

end PiRust.SessionLog
