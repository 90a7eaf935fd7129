import PiRust.ReplayRetention

/- The transcript of a replay, from the items and their indices alone. -/
namespace PiRust.SessionLog

namespace ReplayBuilder

variable {builder other : ReplayBuilder}

section

variable (same : itemState builder = itemState other)
include same

theorem changeItem_items (index : Option Nat) (change : TranscriptItem → Option TranscriptItem) :
    (builder.changeItem index change).map itemState =
      (other.changeItem index change).map itemState := by
  simp only [itemState, Prod.mk.injEq] at same
  obtain ⟨items, messages, tools, delegations⟩ := same
  cases index with
  | none => rfl
  | some index =>
    simp only [changeItem, Option.bind_some, items]
    cases other.transcript[index]? with
    | none => rfl
    | some item =>
      simp only [Option.bind_some]
      cases change item with
      | none => rfl
      | some changed => simp [itemState, messages, tools, delegations]

theorem getD_warn_items {changed changed' : Option ReplayBuilder}
    (agree : changed.map itemState = changed'.map itemState) (message : String) :
    itemState (changed.getD (builder.warn message)) =
      itemState (changed'.getD (other.warn message)) := by
  cases changed with
  | none =>
    cases changed' with
    | none => exact same
    | some result => cases agree
  | some result =>
    cases changed' with
    | none => cases agree
    | some result' => exact Option.some.inj agree

theorem messageIndices_of_items :
    builder.messageIndices = other.messageIndices := congrArg (·.2.1) same

theorem toolIndices_of_items : builder.toolIndices = other.toolIndices := congrArg (·.2.2.1) same

theorem delegationIndices_of_items :
    builder.delegationIndices = other.delegationIndices := congrArg (·.2.2.2) same

theorem transcript_of_items : builder.transcript = other.transcript := congrArg (·.1) same

theorem changeToolSummary_items (toolCallId : String) (change : String → String) :
    (builder.changeToolSummary toolCallId change).map itemState =
      (other.changeToolSummary toolCallId change).map itemState := by
  unfold changeToolSummary
  rw [toolIndices_of_items same]
  exact changeItem_items same _ _

theorem finishTool_items (toolCallId : String) (status : ToolCallStatus)
    (summary warning : String) :
    itemState (builder.finishTool toolCallId status summary warning) =
      itemState (other.finishTool toolCallId status summary warning) := by
  have first : (builder.setToolStatus toolCallId status).map itemState =
      (other.setToolStatus toolCallId status).map itemState := by
    unfold setToolStatus
    rw [toolIndices_of_items same]
    exact changeItem_items same _ _
  unfold finishTool
  cases left : builder.setToolStatus toolCallId status with
  | none =>
    cases right : other.setToolStatus toolCallId status with
    | none => exact same
    | some set => rw [left, right] at first; cases first
  | some set =>
    cases right : other.setToolStatus toolCallId status with
    | none => rw [left, right] at first; cases first
    | some set' =>
      rw [left, right] at first
      have agree : itemState set = itemState set' := Option.some.inj first
      have second := changeToolSummary_items agree toolCallId fun _ => summary
      simp only
      cases final : set.changeToolSummary toolCallId fun _ => summary with
      | none =>
        cases final' : set'.changeToolSummary toolCallId fun _ => summary with
        | none => exact agree
        | some last => rw [final, final'] at second; cases second
      | some last =>
        cases final' : set'.changeToolSummary toolCallId fun _ => summary with
        | none => rw [final, final'] at second; cases second
        | some last' =>
          rw [final, final'] at second
          exact Option.some.inj second

theorem applyDelegationFoldedUpdate_items (toolCallId : String) (item : TranscriptItem) :
    itemState (builder.applyDelegationFoldedUpdate toolCallId item) =
      itemState (other.applyDelegationFoldedUpdate toolCallId item) := by
  have transcripts := transcript_of_items same
  have messages := messageIndices_of_items same
  have tools := toolIndices_of_items same
  have delegations := delegationIndices_of_items same
  unfold applyDelegationFoldedUpdate
  rw [delegations, tools, transcripts]
  cases StringMap.get other.delegationIndices toolCallId with
  | some index => simp [itemState, messages]
  | none =>
    cases StringMap.get other.toolIndices toolCallId with
    | some index => simp [itemState, messages]
    | none => simp [itemState, messages]

theorem indexItem_items (entry : TranscriptItem × Nat) :
    itemState (builder.indexItem entry) = itemState (other.indexItem entry) := by
  have transcripts := transcript_of_items same
  have messages := messageIndices_of_items same
  have tools := toolIndices_of_items same
  have delegations := delegationIndices_of_items same
  unfold indexItem
  split <;> simp [itemState, transcripts, messages, tools, delegations]

end

theorem rebuildIndices_items (same : builder.transcript = other.transcript) :
    itemState builder.rebuildIndices = itemState other.rebuildIndices := by
  have pass (entries : List (TranscriptItem × Nat)) (first second : ReplayBuilder)
      (agree : itemState first = itemState second) :
      itemState (entries.foldl (fun builder entry => builder.indexItem entry) first) =
        itemState (entries.foldl (fun builder entry => builder.indexItem entry) second) := by
    induction entries generalizing first second with
    | nil => exact agree
    | cons entry entries ih => exact ih _ _ (indexItem_items agree entry)
  unfold rebuildIndices
  rw [same]
  exact pass _ _ _ (by simp [itemState])

theorem applyCompactionCompleted_items (same : itemState builder = itemState other)
    (summary firstKeptMessageId : String) (tokensBefore : UInt32) :
    itemState (builder.applyCompactionCompleted summary firstKeptMessageId tokensBefore) =
      itemState (other.applyCompactionCompleted summary firstKeptMessageId tokensBefore) := by
  have transcripts := transcript_of_items same
  unfold applyCompactionCompleted
  rw [transcripts]
  cases other.transcript.findIdx? fun item =>
      transcriptItemId item = some firstKeptMessageId with
  | none => exact same
  | some index => exact rebuildIndices_items rfl

theorem applyEvent_items (serde : Serde) {event copied : SessionEventEnvelope}
    (data : copied.data = event.data) (turn : copied.turnId = event.turnId)
    (same : itemState builder = itemState other) :
    itemState (builder.applyEvent serde copied) = itemState (other.applyEvent serde event) := by
  by_cases untouched : touchesItems event.data = false
  · rw [itemState_applyEvent serde event untouched,
      itemState_applyEvent serde copied (by rw [data]; exact untouched)]
    exact same
  have transcripts := transcript_of_items same
  have messages := messageIndices_of_items same
  have tools := toolIndices_of_items same
  have delegations := delegationIndices_of_items same
  unfold applyEvent
  rw [data]
  revert untouched
  cases event.data <;> intro touched
  case sessionCompactionCompleted =>
    refine applyCompactionCompleted_items ?_ _ _ _
    exact same
  case branchSummaryCreated | diagnosticEmitted =>
    simp [itemState, pushItem, diagnose, transcripts, messages, tools, delegations]
  case turnInputRecorded =>
    simp [itemState, pushItem, transcripts, messages, tools, delegations, turn]
  case delegationFoldedUpdated => exact applyDelegationFoldedUpdate_items same _ _
  case messageStarted | toolCallStarted =>
    simp [itemState, pushItem, transcripts, messages, tools, delegations]
  case messageCompleted messageId content usage =>
    have recorded : itemState (builder.recordAssistantUsage usage) =
        itemState (other.recordAssistantUsage usage) := same
    refine getD_warn_items recorded ?_ _
    unfold completeMessage
    rw [messageIndices_of_items recorded]
    exact changeItem_items recorded _ _
  case messageCancelled =>
    refine getD_warn_items same ?_ _
    unfold setMessageStatus
    rw [messages]
    exact changeItem_items same _ _
  case toolCallUpdated => exact getD_warn_items same (changeToolSummary_items same _ _) _
  case toolCallCompleted | toolCallFailed | toolCallCancelled =>
    exact finishTool_items same _ _ _ _
  all_goals exact absurd rfl touched

end ReplayBuilder

theorem foldEvent_items (serde : Serde) (finalized : List String) (builder : ReplayBuilder)
    (event : SessionEventEnvelope) :
    itemState (foldEvent serde finalized builder event) =
      if isReplayed finalized event then itemState (builder.applyEvent serde event)
      else itemState builder := by
  have observed := itemState_observed event builder
  unfold foldEvent
  by_cases replayed : isReplayed finalized event = true
  · rw [if_pos replayed, if_pos replayed]
    exact ReplayBuilder.applyEvent_items serde rfl rfl observed
  · rw [if_neg replayed, if_neg replayed]
    exact observed

theorem foldEvent_items_of_quiet {serde : Serde} {finalized : List String}
    {builder : ReplayBuilder} {event : SessionEventEnvelope}
    (quiet : isReplayed finalized event = true → touchesItems event.data = false) :
    itemState (foldEvent serde finalized builder event) = itemState builder := by
  rw [foldEvent_items]
  by_cases replayed : isReplayed finalized event = true
  · rw [if_pos replayed]
    exact itemState_applyEvent serde event (quiet replayed) builder
  · rw [if_neg replayed]

/-- Two logs, each with the operations that it takes as finalized, that tell of the same
items: the events that matter to them are alike and come in the same order. -/
inductive SameStory (finalized others : List String) :
    List SessionEventEnvelope → List SessionEventEnvelope → Prop
  | nil : SameStory finalized others [] []
  | both {event copied : SessionEventEnvelope} {events copies : List SessionEventEnvelope}
      (data : copied.data = event.data) (turn : copied.turnId = event.turnId)
      (shown : isReplayed others copied = isReplayed finalized event ∨
        touchesItems event.data = false)
      (rest : SameStory finalized others events copies) :
      SameStory finalized others (event :: events) (copied :: copies)
  | left {event : SessionEventEnvelope} {events copies : List SessionEventEnvelope}
      (quiet : isReplayed finalized event = true → touchesItems event.data = false)
      (rest : SameStory finalized others events copies) :
      SameStory finalized others (event :: events) copies
  | right {copied : SessionEventEnvelope} {events copies : List SessionEventEnvelope}
      (quiet : isReplayed others copied = true → touchesItems copied.data = false)
      (rest : SameStory finalized others events copies) :
      SameStory finalized others events (copied :: copies)

theorem SameStory.append {finalized others : List String}
    {events copies more moreCopies : List SessionEventEnvelope}
    (story : SameStory finalized others events copies)
    (later : SameStory finalized others more moreCopies) :
    SameStory finalized others (events ++ more) (copies ++ moreCopies) := by
  induction story with
  | nil => exact later
  | both data turn shown rest ih => exact .both data turn shown ih
  | left quiet rest ih => exact .left quiet ih
  | right quiet rest ih => exact .right quiet ih

theorem SameStory.items {serde : Serde} {finalized others : List String}
    {events copies : List SessionEventEnvelope} (story : SameStory finalized others events copies)
    {builder other : ReplayBuilder} (same : itemState builder = itemState other) :
    itemState (events.foldl (foldEvent serde finalized) builder) =
      itemState (copies.foldl (foldEvent serde others) other) := by
  induction story generalizing builder other with
  | nil => exact same
  | both data turn shown rest ih =>
    rename_i event copied _ _
    refine ih ?_
    rcases shown with shown | untouched
    · rw [foldEvent_items, foldEvent_items, shown]
      by_cases replayed : isReplayed finalized event = true
      · rw [if_pos replayed, if_pos replayed]
        exact ReplayBuilder.applyEvent_items serde data.symm turn.symm same
      · rw [if_neg replayed, if_neg replayed]
        exact same
    · rw [foldEvent_items_of_quiet fun _ => untouched,
        foldEvent_items_of_quiet fun _ => by rw [data]; exact untouched]
      exact same
  | left quiet rest ih | right quiet rest ih =>
    refine ih ?_
    rw [foldEvent_items_of_quiet quiet]
    exact same

theorem foldEvents_transcript (serde : Serde) (events : List SessionEventEnvelope) :
    (foldEvents serde events).transcript =
      (events.foldl (foldEvent serde (finalizedOperationIds events)) {}).transcript :=
  (foldEvents_shown serde events).1

theorem SameStory.transcript {events copies : List SessionEventEnvelope}
    (story : SameStory (finalizedOperationIds events) (finalizedOperationIds copies) events copies)
    (serde : Serde) : (foldEvents serde copies).transcript = (foldEvents serde events).transcript := by
  rw [foldEvents_transcript, foldEvents_transcript]
  have same : itemState ({} : ReplayBuilder) = itemState ({} : ReplayBuilder) := rfl
  have items := @SameStory.items serde _ _ _ _ story _ _ same
  exact (ReplayBuilder.transcript_of_items items).symm

end PiRust.SessionLog
