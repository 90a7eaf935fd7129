import Mathlib.Data.List.Nodup
import PiRust.ReplayStatus

/- The pending delegation confirmations of a replay, as the keys that name them. -/
namespace PiRust.SessionLog

open List

abbrev ConfirmationKey := String × String

def ReplayPendingDelegationConfirmation.key (pending : ReplayPendingDelegationConfirmation) :
    ConfirmationKey :=
  (pending.sourceOperationId, pending.toolCallId)

def confirmKeys (keys : List ConfirmationKey) : SessionEventData → List ConfirmationKey
  | .delegationConfirmationRequested sourceOperationId _ toolCallId _ _ _ _ _ =>
    if (sourceOperationId, toolCallId) ∈ keys then keys
    else keys ++ [(sourceOperationId, toolCallId)]
  | .delegationConfirmationApproved sourceOperationId toolCallId
  | .delegationConfirmationRejected sourceOperationId toolCallId =>
    keys.erase (sourceOperationId, toolCallId)
  | _ => keys

theorem confirmKeys_nodup {keys : List ConfirmationKey} (distinct : keys.Nodup)
    (data : SessionEventData) : (confirmKeys keys data).Nodup := by
  unfold confirmKeys
  split
  · split
    · exact distinct
    · rename_i absent
      rw [← concat_eq_append]
      exact Nodup.concat absent distinct
  · exact distinct.erase _
  · exact distinct.erase _
  · exact distinct

namespace ReplayBuilder

variable {builder : ReplayBuilder}

def pendingKeys (builder : ReplayBuilder) : List ConfirmationKey :=
  builder.pendingDelegationConfirmations.map ReplayPendingDelegationConfirmation.key

theorem pendingKeys_steady : Steady pendingKeys where
  warn := fun _ _ => rfl
  set := fun _ _ _ => rfl

theorem any_confirms (sourceOperationId toolCallId : String) (builder : ReplayBuilder) :
    builder.pendingDelegationConfirmations.any (confirms sourceOperationId toolCallId) = true ↔
      (sourceOperationId, toolCallId) ∈ builder.pendingKeys := by
  simp [confirms, pendingKeys, ReplayPendingDelegationConfirmation.key]

theorem addPendingDelegationConfirmation_keys (pending : ReplayPendingDelegationConfirmation) :
    (builder.addPendingDelegationConfirmation pending).pendingKeys =
      if pending.key ∈ builder.pendingKeys then builder.pendingKeys
      else builder.pendingKeys ++ [pending.key] := by
  unfold addPendingDelegationConfirmation
  by_cases known : pending.key ∈ builder.pendingKeys
  · rw [if_pos ((any_confirms _ _ builder).mpr known), if_pos known]
    rfl
  · rw [if_neg (fun found => known ((any_confirms _ _ builder).mp found)), if_neg known]
    simp [pendingKeys]

theorem map_eraseP_confirms (sourceOperationId toolCallId : String)
    (pending : List ReplayPendingDelegationConfirmation) :
    (pending.eraseP (confirms sourceOperationId toolCallId)).map
        ReplayPendingDelegationConfirmation.key =
      (pending.map ReplayPendingDelegationConfirmation.key).erase (sourceOperationId, toolCallId) := by
  rw [erase_eq_eraseP, eraseP_map]
  congr 1
  refine congrArg (fun matching => pending.eraseP matching) (funext fun entry => ?_)
  rw [Bool.eq_iff_iff]
  simp only [confirms, ReplayPendingDelegationConfirmation.key, decide_eq_true_eq,
    Function.comp_apply, beq_iff_eq, Prod.mk.injEq]
  exact and_congr eq_comm eq_comm

theorem resolvePendingDelegationConfirmation_keys (sourceOperationId toolCallId : String) :
    (builder.resolvePendingDelegationConfirmation sourceOperationId toolCallId).pendingKeys =
      builder.pendingKeys.erase (sourceOperationId, toolCallId) := by
  unfold resolvePendingDelegationConfirmation
  by_cases known : (sourceOperationId, toolCallId) ∈ builder.pendingKeys
  · rw [if_pos ((any_confirms _ _ builder).mpr known)]
    exact map_eraseP_confirms sourceOperationId toolCallId _
  · rw [if_neg (fun found => known ((any_confirms _ _ builder).mp found)), erase_of_not_mem known]
    rfl

theorem applyEvent_pendingKeys (serde : Serde) (event : SessionEventEnvelope) :
    (builder.applyEvent serde event).pendingKeys = confirmKeys builder.pendingKeys event.data := by
  unfold applyEvent
  cases event.data
  case sessionCompactionCompleted =>
    simp only [applyCompactionCompleted]
    split
    · rfl
    · obtain ⟨messages, tools, delegations, rebuilt⟩ := rebuildIndices_eq _
      rw [rebuilt]
      rfl
  case operationStarted => cases event.operationId <;> rfl
  case operationCommitted newLeafId =>
    cases newLeafId with
    | none => rfl
    | some leafId =>
      simp only [recordPromptLeaf]
      split
      · rfl
      · split <;> rfl
  case delegationConfirmationRequested => exact addPendingDelegationConfirmation_keys _
  case delegationConfirmationApproved | delegationConfirmationRejected =>
    exact resolvePendingDelegationConfirmation_keys _ _
  case delegationFoldedUpdated =>
    simp only [applyDelegationFoldedUpdate]
    split
    · rfl
    · split <;> rfl
  case messageCompleted messageId content usage =>
    have recorded : (builder.recordAssistantUsage usage).pendingKeys = builder.pendingKeys := rfl
    exact (pendingKeys_steady.getD_warn _ _ fun _ changed =>
      pendingKeys_steady.changeItem changed).trans recorded
  case messageCancelled | toolCallUpdated =>
    exact pendingKeys_steady.getD_warn _ _ fun _ changed => pendingKeys_steady.changeItem changed
  case toolCallCompleted | toolCallFailed | toolCallCancelled =>
    exact pendingKeys_steady.finishTool _ _ _ _
  all_goals rfl

theorem observed_pendingKeys (event : SessionEventEnvelope) (builder : ReplayBuilder) :
    ((builder.observeSessionId event).observeOperationStatus event).pendingKeys =
      builder.pendingKeys := by
  have status (other : ReplayBuilder) :
      (other.observeOperationStatus event).pendingKeys = other.pendingKeys := by
    unfold observeOperationStatus
    split
    · rfl
    · split
      · split <;> rfl
      all_goals rfl
  rw [status]
  unfold observeSessionId
  split
  · rfl
  · split <;> rfl

end ReplayBuilder

theorem confirmKeys_of_skipped {finalized : List String} {event : SessionEventEnvelope}
    (skipped : ¬ isReplayed finalized event = true) (keys : List ConfirmationKey) :
    confirmKeys keys event.data = keys := by
  unfold isReplayed at skipped
  cases named : event.operationId with
  | none => simp [named] at skipped
  | some operationId =>
    rw [named] at skipped
    revert skipped
    cases event.data <;> simp [isDelegationConfirmationEvent, confirmKeys]

variable (serde : Serde)

theorem foldEvent_pendingKeys (finalized : List String) (builder : ReplayBuilder)
    (event : SessionEventEnvelope) :
    (foldEvent serde finalized builder event).pendingKeys =
      confirmKeys builder.pendingKeys event.data := by
  unfold foldEvent
  by_cases replayed : isReplayed finalized event = true
  · rw [if_pos replayed, ReplayBuilder.applyEvent_pendingKeys, ReplayBuilder.observed_pendingKeys]
  · rw [if_neg replayed, ReplayBuilder.observed_pendingKeys, confirmKeys_of_skipped replayed]

def SessionReplay.pendingKeys (replay : SessionReplay) : List ConfirmationKey :=
  replay.pendingDelegationConfirmations.map ReplayPendingDelegationConfirmation.key

theorem foldl_foldEvent_pendingKeys (finalized : List String) (events : List SessionEventEnvelope)
    (builder : ReplayBuilder) :
    (events.foldl (foldEvent serde finalized) builder).pendingKeys =
      events.foldl (fun keys event => confirmKeys keys event.data) builder.pendingKeys := by
  induction events generalizing builder with
  | nil => rfl
  | cons event events ih => rw [foldl_cons, ih, foldEvent_pendingKeys, foldl_cons]

variable (events : List SessionEventEnvelope)

theorem foldEvents_pendingKeys :
    (foldEvents serde events).pendingKeys =
      events.foldl (fun keys event => confirmKeys keys event.data) [] := by
  have warned (messages : String → String) (operationIds : List String) (builder : ReplayBuilder) :
      (operationIds.foldl (fun (builder : ReplayBuilder) operationId =>
        builder.warn (messages operationId)) builder).pendingKeys = builder.pendingKeys := by
    induction operationIds generalizing builder with
    | nil => rfl
    | cons operationId operationIds ih =>
      rw [foldl_cons, ih]
      rfl
  have kept := warned
    (fun operationId => "operation " ++ operationId ++
      " has no final marker and was omitted from replay")
    (incompleteOperationIds events (finalizedOperationIds events))
    (events.foldl (foldEvent serde (finalizedOperationIds events)) {})
  exact kept.trans (foldl_foldEvent_pendingKeys serde _ events {})

theorem pendingKeys_nodup : (foldEvents serde events).pendingKeys.Nodup := by
  rw [foldEvents_pendingKeys]
  have fold (keys : List ConfirmationKey) (distinct : keys.Nodup) :
      (events.foldl (fun keys event => confirmKeys keys event.data) keys).Nodup := by
    induction events generalizing keys with
    | nil => exact distinct
    | cons event events ih => exact ih _ (confirmKeys_nodup distinct event.data)
  exact fold [] nodup_nil

theorem pendingKeys_concat (event : SessionEventEnvelope) :
    (foldEvents serde (events ++ [event])).pendingKeys =
      confirmKeys (foldEvents serde events).pendingKeys event.data := by
  rw [foldEvents_pendingKeys, foldEvents_pendingKeys, foldl_append, foldl_cons,
    foldl_nil]

end PiRust.SessionLog
