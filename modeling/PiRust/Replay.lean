import PiRust.Compaction
import PiRust.SessionEvent

/- `session_log/replay.rs`: the session that a log of events stands for. -/
namespace PiRust.SessionLog

/-- A `HashMap<String, α>`, one entry for a key. -/
abbrev StringMap (α : Type) := List (String × α)

namespace StringMap

variable {α : Type}

def get (map : StringMap α) (key : String) : Option α :=
  (map.find? fun entry => entry.1 = key).map Prod.snd

def remove (map : StringMap α) (key : String) : StringMap α :=
  map.filter fun entry => entry.1 ≠ key

def insert (map : StringMap α) (key : String) (value : α) : StringMap α :=
  (key, value) :: remove map key

@[simp] theorem get_nil (key : String) : get ([] : StringMap α) key = none := rfl

theorem get_remove (map : StringMap α) (key other : String) :
    get (remove map key) other = if other = key then none else get map other := by
  induction map with
  | nil => simp [remove]
  | cons entry map ih =>
    unfold get remove at ih ⊢
    by_cases gone : entry.1 = key
    · simp only [gone, ne_eq, not_true_eq_false, decide_false, Bool.false_eq_true,
        not_false_eq_true, List.filter_cons_of_neg, ih]
      by_cases same : other = key
      · simp [same]
      · simp [gone, same, Ne.symm same]
    · simp only [ne_eq, gone, not_false_eq_true, decide_true, List.filter_cons_of_pos,
        List.find?_cons]
      by_cases hit : entry.1 = other
      · have apart : other ≠ key := fun same => gone (hit.trans same)
        simp [hit, apart]
      · simpa [hit] using ih

theorem get_insert (map : StringMap α) (key other : String) (value : α) :
    get (insert map key value) other = if other = key then some value else get map other := by
  by_cases same : other = key
  · subst same
    simp [get, insert]
  · have rest := get_remove map key other
    rw [if_neg same] at rest
    rw [if_neg same, ← rest]
    simp [get, insert, Ne.symm same]

variable {map : StringMap α}

variable (unique : (map.map Prod.fst).Nodup)
include unique

theorem keys_remove_nodup (key : String) : ((remove map key).map Prod.fst).Nodup :=
  unique.sublist (List.filter_sublist.map Prod.fst)

theorem keys_insert_nodup (key : String) (value : α) :
    ((insert map key value).map Prod.fst).Nodup := by
  rw [insert, List.map_cons, List.nodup_cons]
  refine ⟨fun inside => ?_, keys_remove_nodup unique key⟩
  obtain ⟨entry, member, same⟩ := List.mem_map.mp inside
  have apart := (List.mem_filter.mp member).2
  simp only [same, ne_eq, not_true_eq_false, decide_false, Bool.false_eq_true] at apart

theorem get_eq_some_iff (key : String) (value : α) :
    get map key = some value ↔ (key, value) ∈ map := by
  induction map with
  | nil => simp
  | cons entry map ih =>
    obtain ⟨first, held⟩ := entry
    rw [List.map_cons, List.nodup_cons] at unique
    have later := ih unique.2
    unfold get at later ⊢
    by_cases same : first = key
    · subst same
      have absent : (first, value) ∉ map := fun inside =>
        unique.1 (List.mem_map.mpr ⟨_, inside, rfl⟩)
      simp [absent, eq_comm]
    · simp [same, later, Ne.symm same]

end StringMap

inductive OperationReplayStatus where
  | committed
  | failed
  | aborted
  | recovered
  | inDoubt
  deriving DecidableEq, Repr

inductive MessageStatus where
  | started
  | completed
  | cancelled
  deriving DecidableEq, Repr

inductive ToolCallStatus where
  | started
  | completed
  | failed
  | cancelled
  deriving DecidableEq, Repr

inductive TranscriptItem where
  | userInput (turnId text : String)
  | assistantMessage (messageId : String) (content : List PersistedContentBlock)
      (status : MessageStatus)
  | toolCall (toolCallId name : String) (arguments : Value) (status : ToolCallStatus)
      (summary : String)
  | delegationBlock (toolCallId requestingProfileId : String) (targetKind : ProfileKind)
      (targetId task : String) (status : PersistedDelegationStatus)
      (childOperationId summary : Option String)
  | compactionSummary (summary firstKeptMessageId : String) (tokensBefore : UInt32)
  | branchSummary (summary sourceLeafId targetLeafId : String)
  | diagnostic (level : DiagnosticLevel) (message : String)

structure ReplayLeaf where
  leafId : String
  parentLeafId : Option String
  transcriptStart : Nat
  transcriptEnd : Nat
  deriving DecidableEq, Repr

structure ReplayDiagnostic where
  level : DiagnosticLevel
  message : String
  deriving DecidableEq, Repr

structure ReplayPendingDelegationConfirmation where
  sourceOperationId : String
  turnId : String
  toolCallId : String
  requestingProfileId : String
  targetKind : ProfileKind
  targetId : String
  task : String
  reason : String
  requestedAt : String
  deriving DecidableEq, Repr

structure ReplayUsageSummary where
  input : UInt32 := 0
  output : UInt32 := 0
  cacheRead : UInt32 := 0
  cacheWrite : UInt32 := 0
  lastContextTokens : Option UInt32 := none
  deriving DecidableEq, Repr

structure ReplayBuilder where
  sessionId : Option String := none
  cwd : Option String := none
  activeLeafId : Option String := none
  transcript : List TranscriptItem := []
  leaves : List ReplayLeaf := []
  diagnostics : List ReplayDiagnostic := []
  messageIndices : StringMap Nat := []
  toolIndices : StringMap Nat := []
  delegationIndices : StringMap Nat := []
  operationKinds : StringMap OperationKind := []
  operationTranscriptStarts : StringMap Nat := []
  pendingDelegationConfirmations : List ReplayPendingDelegationConfirmation := []
  usage : ReplayUsageSummary := {}
  operationStatuses : StringMap OperationReplayStatus := []

structure SessionReplay where
  sessionId : String
  cwd : Option String
  activeLeafId : Option String
  leaves : List ReplayLeaf
  transcript : List TranscriptItem
  diagnostics : List ReplayDiagnostic
  pendingDelegationConfirmations : List ReplayPendingDelegationConfirmation
  usage : ReplayUsageSummary
  operationStatuses : StringMap OperationReplayStatus

def SessionReplay.operationStatus (replay : SessionReplay) (operationId : String) :
    Option OperationReplayStatus :=
  StringMap.get replay.operationStatuses operationId

def SessionReplay.recoverySummary (replay : SessionReplay) : List String :=
  ((replay.operationStatuses.filter fun entry => entry.2 = .inDoubt).map Prod.fst).mergeSort

def transcriptItemId : TranscriptItem → Option String
  | .userInput turnId _ => some turnId
  | .assistantMessage messageId _ _ => some messageId
  | .toolCall toolCallId _ _ _ _ => some toolCallId
  | .delegationBlock toolCallId _ _ _ _ _ _ _ => some toolCallId
  | .compactionSummary .. | .branchSummary .. | .diagnostic .. => none

def contentBlocksText (content : List PersistedContentBlock) : String :=
  "\n".intercalate (content.map fun
    | .text text => text
    | .thinking thinking _ _ => thinking
    | .image mimeType _ => "[image:" ++ mimeType ++ "]")

def toolResultSummary (serde : Serde) : PersistedToolResult → String
  | .text text => text
  | .json value => serde.print value
  | .error message => message

namespace ReplayBuilder

def diagnose (level : DiagnosticLevel) (message : String) (builder : ReplayBuilder) :
    ReplayBuilder :=
  { builder with diagnostics := builder.diagnostics ++ [⟨level, message⟩] }

def warn (message : String) (builder : ReplayBuilder) : ReplayBuilder :=
  builder.diagnose .warn message

def observeSessionId (event : SessionEventEnvelope) (builder : ReplayBuilder) : ReplayBuilder :=
  match builder.sessionId with
  | none => { builder with sessionId := some event.sessionId }
  | some sessionId =>
    if sessionId ≠ event.sessionId then
      builder.warn ("event " ++ event.eventId ++ " belongs to " ++ event.sessionId ++
        ", expected " ++ sessionId)
    else builder

def setStatus (operationId : String) (status : OperationReplayStatus) (builder : ReplayBuilder) :
    ReplayBuilder :=
  { builder with operationStatuses := StringMap.insert builder.operationStatuses operationId status }

def observeOperationStatus (event : SessionEventEnvelope) (builder : ReplayBuilder) :
    ReplayBuilder :=
  match event.operationId with
  | none => builder
  | some operationId =>
    match event.data with
    | .operationStarted _ =>
      if (StringMap.get builder.operationStatuses operationId).isSome then builder
      else builder.setStatus operationId .inDoubt
    | .operationCommitted _ => builder.setStatus operationId .committed
    | .operationFailed _ _ => builder.setStatus operationId .failed
    | .operationAborted _ => builder.setStatus operationId .aborted
    | .operationRecovered _ _ => builder.setStatus operationId .recovered
    | _ => builder

def pushItem (item : TranscriptItem) (builder : ReplayBuilder) : ReplayBuilder :=
  { builder with transcript := builder.transcript ++ [item] }

/-- Changes the item at an index that a map gave, if there is one and it has the
expected kind. -/
def changeItem (index : Option Nat) (change : TranscriptItem → Option TranscriptItem)
    (builder : ReplayBuilder) : Option ReplayBuilder :=
  index.bind fun index =>
    (builder.transcript[index]?).bind fun item =>
      (change item).map fun changed =>
        { builder with transcript := builder.transcript.set index changed }

/-- `tool_mut` and what its caller does to the summary. -/
def changeToolSummary (toolCallId : String) (change : String → String) (builder : ReplayBuilder) :
    Option ReplayBuilder :=
  builder.changeItem (StringMap.get builder.toolIndices toolCallId) fun
    | .toolCall id name arguments status summary =>
      some (.toolCall id name arguments status (change summary))
    | _ => none

def completeMessage (messageId : String) (content : List PersistedContentBlock)
    (builder : ReplayBuilder) : Option ReplayBuilder :=
  builder.changeItem (StringMap.get builder.messageIndices messageId) fun
    | .assistantMessage id _ _ => some (.assistantMessage id content .completed)
    | _ => none

def setMessageStatus (messageId : String) (status : MessageStatus) (builder : ReplayBuilder) :
    Option ReplayBuilder :=
  builder.changeItem (StringMap.get builder.messageIndices messageId) fun
    | .assistantMessage id content _ => some (.assistantMessage id content status)
    | _ => none

def setToolStatus (toolCallId : String) (status : ToolCallStatus) (builder : ReplayBuilder) :
    Option ReplayBuilder :=
  builder.changeItem (StringMap.get builder.toolIndices toolCallId) fun
    | .toolCall id name arguments _ summary => some (.toolCall id name arguments status summary)
    | _ => none

def finishTool (toolCallId : String) (status : ToolCallStatus) (summary warning : String)
    (builder : ReplayBuilder) : ReplayBuilder :=
  match builder.setToolStatus toolCallId status with
  | none => builder.warn (warning ++ toolCallId)
  | some set => (set.changeToolSummary toolCallId fun _ => summary).getD set

def recordPromptLeaf (event : SessionEventEnvelope) (leafId : String) (builder : ReplayBuilder) :
    ReplayBuilder :=
  match event.operationId with
  | none => builder
  | some operationId =>
    if StringMap.get builder.operationKinds operationId ≠ some .prompt then builder
    else
      let transcriptStart :=
        (StringMap.get builder.operationTranscriptStarts operationId).getD builder.transcript.length
      { builder with
        leaves := builder.leaves ++
          [⟨leafId, builder.activeLeafId, transcriptStart, builder.transcript.length⟩] }

def recordAssistantUsage (usage : Usage) (builder : ReplayBuilder) : ReplayBuilder :=
  let contextTokens := Compaction.calculateContextTokens usage
  { builder with
    usage := {
      input := Compaction.saturatingAdd builder.usage.input usage.input
      output := Compaction.saturatingAdd builder.usage.output usage.output
      cacheRead := Compaction.saturatingAdd builder.usage.cacheRead usage.cacheRead
      cacheWrite := Compaction.saturatingAdd builder.usage.cacheWrite usage.cacheWrite
      lastContextTokens :=
        if 0 < contextTokens then some contextTokens else builder.usage.lastContextTokens } }

def confirms (sourceOperationId toolCallId : String)
    (pending : ReplayPendingDelegationConfirmation) : Bool :=
  pending.sourceOperationId = sourceOperationId ∧ pending.toolCallId = toolCallId

def addPendingDelegationConfirmation (pending : ReplayPendingDelegationConfirmation)
    (builder : ReplayBuilder) : ReplayBuilder :=
  if builder.pendingDelegationConfirmations.any
      (confirms pending.sourceOperationId pending.toolCallId) then
    builder.warn ("duplicate pending delegation confirmation: operation_id=" ++
      pending.sourceOperationId ++ ", tool_call_id=" ++ pending.toolCallId)
  else
    { builder with
      pendingDelegationConfirmations := builder.pendingDelegationConfirmations ++ [pending] }

def resolvePendingDelegationConfirmation (sourceOperationId toolCallId : String)
    (builder : ReplayBuilder) : ReplayBuilder :=
  if builder.pendingDelegationConfirmations.any (confirms sourceOperationId toolCallId) then
    { builder with
      pendingDelegationConfirmations :=
        builder.pendingDelegationConfirmations.eraseP (confirms sourceOperationId toolCallId) }
  else
    builder.warn ("delegation confirmation resolution references unknown pending request: " ++
      "operation_id=" ++ sourceOperationId ++ ", tool_call_id=" ++ toolCallId)

def applyDelegationFoldedUpdate (toolCallId : String) (item : TranscriptItem)
    (builder : ReplayBuilder) : ReplayBuilder :=
  match StringMap.get builder.delegationIndices toolCallId with
  | some index => { builder with transcript := builder.transcript.set index item }
  | none =>
    match StringMap.get builder.toolIndices toolCallId with
    | some index =>
      { builder with
        transcript := builder.transcript.set index item
        toolIndices := StringMap.remove builder.toolIndices toolCallId
        delegationIndices := StringMap.insert builder.delegationIndices toolCallId index }
    | none =>
      { builder with
        transcript := builder.transcript ++ [item]
        delegationIndices :=
          StringMap.insert builder.delegationIndices toolCallId builder.transcript.length }

def indexItem (entry : TranscriptItem × Nat) (builder : ReplayBuilder) : ReplayBuilder :=
  match entry.1 with
  | .assistantMessage messageId _ _ =>
    { builder with messageIndices := StringMap.insert builder.messageIndices messageId entry.2 }
  | .toolCall toolCallId _ _ _ _ =>
    { builder with toolIndices := StringMap.insert builder.toolIndices toolCallId entry.2 }
  | .delegationBlock toolCallId _ _ _ _ _ _ _ =>
    { builder with
      delegationIndices := StringMap.insert builder.delegationIndices toolCallId entry.2 }
  | _ => builder

def rebuildIndices (builder : ReplayBuilder) : ReplayBuilder :=
  builder.transcript.zipIdx.foldl (fun builder entry => builder.indexItem entry)
    { builder with messageIndices := [], toolIndices := [], delegationIndices := [] }

theorem rebuildIndices_eq (builder : ReplayBuilder) :
    ∃ messages tools delegations, builder.rebuildIndices =
      { builder with
        messageIndices := messages
        toolIndices := tools
        delegationIndices := delegations } := by
  have pass (entries : List (TranscriptItem × Nat)) (start : ReplayBuilder) :
      ∃ messages tools delegations,
        entries.foldl (fun builder entry => builder.indexItem entry) start =
          { start with
            messageIndices := messages
            toolIndices := tools
            delegationIndices := delegations } := by
    induction entries generalizing start with
    | nil => exact ⟨_, _, _, rfl⟩
    | cons entry entries ih =>
      obtain ⟨messages, tools, delegations, rest⟩ := ih (start.indexItem entry)
      refine ⟨messages, tools, delegations, rest.trans ?_⟩
      unfold indexItem
      split <;> rfl
  exact pass _ _

def applyCompactionCompleted (summary firstKeptMessageId : String) (tokensBefore : UInt32)
    (builder : ReplayBuilder) : ReplayBuilder :=
  match builder.transcript.findIdx? fun item =>
      transcriptItemId item = some firstKeptMessageId with
  | none =>
    builder.warn ("session compaction references unknown first kept message: " ++
      firstKeptMessageId)
  | some firstKeptIndex =>
    rebuildIndices { builder with
      transcript := .compactionSummary summary firstKeptMessageId tokensBefore ::
        builder.transcript.drop firstKeptIndex }

def operationName (event : SessionEventEnvelope) : String :=
  event.operationId.getD "<unknown>"

def applyEvent (serde : Serde) (event : SessionEventEnvelope) (builder : ReplayBuilder) :
    ReplayBuilder :=
  match event.data with
  | .sessionCreated cwd => { builder with cwd := cwd }
  | .operationStarted operation =>
    match event.operationId with
    | none => builder
    | some operationId =>
      { builder with
        operationKinds := StringMap.insert builder.operationKinds operationId operation
        operationTranscriptStarts :=
          StringMap.insert builder.operationTranscriptStarts operationId builder.transcript.length }
  | .sessionCloned | .sessionForked | .sessionCompactionStarted | .turnStarted
  | .selfHealingEditStarted | .selfHealingEditRepairAttempted | .selfHealingEditCompleted
  | .metadataUpdated => builder
  | .sessionCompactionCompleted summary firstKeptMessageId tokensBefore =>
    applyCompactionCompleted summary firstKeptMessageId tokensBefore
      { builder with usage := { builder.usage with lastContextTokens := none } }
  | .branchSummaryCreated summary sourceLeafId targetLeafId =>
    builder.pushItem (.branchSummary summary sourceLeafId targetLeafId)
  | .pluginLoadCompleted diagnostics =>
    { builder with
      diagnostics := builder.diagnostics ++ diagnostics.map fun diagnostic =>
        ⟨.warn, match diagnostic.pluginId with
          | some pluginId => pluginId ++ ": " ++ diagnostic.message
          | none => diagnostic.message⟩ }
  | .delegationConfirmationRequested sourceOperationId turnId toolCallId requestingProfileId
      targetKind targetId task reason =>
      builder.addPendingDelegationConfirmation ⟨sourceOperationId, turnId, toolCallId,
        requestingProfileId, targetKind, targetId, task, reason, event.createdAt⟩
  | .delegationConfirmationApproved sourceOperationId toolCallId
  | .delegationConfirmationRejected sourceOperationId toolCallId =>
    builder.resolvePendingDelegationConfirmation sourceOperationId toolCallId
  | .delegationFoldedUpdated toolCallId requestingProfileId targetKind targetId task status
      childOperationId summary =>
      builder.applyDelegationFoldedUpdate toolCallId (.delegationBlock toolCallId
        requestingProfileId targetKind targetId task status childOperationId summary)
  | .operationCommitted newLeafId =>
    match newLeafId with
    | none => builder
    | some newLeafId =>
      { builder.recordPromptLeaf event newLeafId with activeLeafId := some newLeafId }
  | .operationAborted reason =>
    builder.warn ("operation " ++ operationName event ++ " aborted: " ++ reason)
  | .operationFailed errorCode message =>
    builder.diagnose .error ("operation " ++ operationName event ++ " failed (" ++ errorCode ++
      "): " ++ message)
  | .operationRecovered reason _ =>
    builder.warn ("operation " ++ operationName event ++ " recovered: " ++ reason)
  | .turnInputRecorded content =>
    builder.pushItem (.userInput (event.turnId.getD "") (contentBlocksText content))
  | .messageStarted messageId =>
    { builder.pushItem (.assistantMessage messageId [] .started) with
      messageIndices :=
        StringMap.insert builder.messageIndices messageId builder.transcript.length }
  | .messageCompleted messageId content usage =>
    let recorded := builder.recordAssistantUsage usage
    (recorded.completeMessage messageId content).getD
      (recorded.warn ("message completion references unknown message: " ++ messageId))
  | .messageCancelled messageId =>
    (builder.setMessageStatus messageId .cancelled).getD
      (builder.warn ("message cancellation references unknown message: " ++ messageId))
  | .toolCallStarted toolCallId name arguments =>
    { builder.pushItem (.toolCall toolCallId name arguments .started "") with
      toolIndices := StringMap.insert builder.toolIndices toolCallId builder.transcript.length }
  | .toolCallUpdated toolCallId message =>
    (builder.changeToolSummary toolCallId fun summary =>
        (if summary = "" then "" else summary ++ "\n") ++ message).getD
      (builder.warn ("tool update references unknown tool call: " ++ toolCallId))
  | .toolCallCompleted toolCallId result =>
    builder.finishTool toolCallId .completed (toolResultSummary serde result)
      "tool completion references unknown tool call: "
  | .toolCallFailed toolCallId message =>
    builder.finishTool toolCallId .failed message
      "tool failure references unknown tool call: "
  | .toolCallCancelled toolCallId reason =>
    builder.finishTool toolCallId .cancelled reason
      "tool cancellation references unknown tool call: "
  | .diagnosticEmitted level message =>
    (builder.diagnose level message).pushItem (.diagnostic level message)
  | .activeLeafChanged leafId => { builder with activeLeafId := some leafId }

/-- Something read off a builder that no warning and no change inside an item alters. -/
structure Steady {α : Type} (read : ReplayBuilder → α) : Prop where
  warn : ∀ (builder : ReplayBuilder) message, read (builder.warn message) = read builder
  set : ∀ (builder : ReplayBuilder) index item,
    read { builder with transcript := builder.transcript.set index item } = read builder

namespace Steady

variable {α : Type} {read : ReplayBuilder → α} {builder : ReplayBuilder}

theorem changeItem (steady : Steady read) {changed : ReplayBuilder} {index : Option Nat}
    {change : TranscriptItem → Option TranscriptItem}
    (success : builder.changeItem index change = some changed) : read changed = read builder := by
  simp only [ReplayBuilder.changeItem, Option.bind_eq_some_iff, Option.map_eq_some_iff] at success
  obtain ⟨position, _, item, _, replacement, _, rfl⟩ := success
  exact steady.set builder position replacement

theorem getD_warn (steady : Steady read) (changed : Option ReplayBuilder) (message : String)
    (kept : ∀ result, changed = some result → read result = read builder) :
    read (changed.getD (builder.warn message)) = read builder := by
  cases changed with
  | none => exact steady.warn builder message
  | some result => exact kept result rfl

theorem finishTool (steady : Steady read) (toolCallId : String) (status : ToolCallStatus)
    (summary warning : String) :
    read (builder.finishTool toolCallId status summary warning) = read builder := by
  unfold ReplayBuilder.finishTool
  cases changed : builder.setToolStatus toolCallId status with
  | none => exact steady.warn builder _
  | some set =>
    have first : read set = read builder := steady.changeItem changed
    cases summarised : set.changeToolSummary toolCallId fun _ => summary with
    | none => simpa only [summarised, Option.getD_none] using first
    | some final =>
      have second : read final = read set := steady.changeItem summarised
      simpa only [summarised, Option.getD_some] using second.trans first

end Steady

end ReplayBuilder

def finalizedOperationIds (events : List SessionEventEnvelope) : List String :=
  events.filterMap fun event => if event.data.isFinalMarker then event.operationId else none

def incompleteOperationIds (events : List SessionEventEnvelope) (finalized : List String) :
    List String :=
  (events.foldl (fun (seen : List String) event =>
    if isDelegationConfirmationEvent event.data then seen
    else match event.operationId with
      | none => seen
      | some operationId =>
        if operationId ∈ finalized ∨ operationId ∈ seen then seen
        else operationId :: seen) []).reverse

/-- The events that `fold_events` does not skip. -/
def isReplayed (finalized : List String) (event : SessionEventEnvelope) : Bool :=
  match event.operationId with
  | none => true
  | some operationId => operationId ∈ finalized ∨ isDelegationConfirmationEvent event.data

/-- The body of the loop in `fold_events`. -/
def foldEvent (serde : Serde) (finalized : List String) (builder : ReplayBuilder)
    (event : SessionEventEnvelope) : ReplayBuilder :=
  let observed := (builder.observeSessionId event).observeOperationStatus event
  if isReplayed finalized event then observed.applyEvent serde event else observed

def foldEvents (serde : Serde) (events : List SessionEventEnvelope) : SessionReplay :=
  let finalized := finalizedOperationIds events
  let incomplete := incompleteOperationIds events finalized
  let folded := events.foldl (foldEvent serde finalized) {}
  let builder := incomplete.foldl (fun (builder : ReplayBuilder) operationId =>
    builder.warn ("operation " ++ operationId ++
      " has no final marker and was omitted from replay")) folded
  { sessionId := builder.sessionId.getD ""
    cwd := builder.cwd
    activeLeafId := builder.activeLeafId
    leaves := builder.leaves
    transcript := builder.transcript
    diagnostics := builder.diagnostics
    pendingDelegationConfirmations := builder.pendingDelegationConfirmations
    usage := builder.usage
    operationStatuses := builder.operationStatuses }

end PiRust.SessionLog
