import PiRust.Replay

/- `hydrate_agent_runtime` of `runtime_service.rs`: the messages that an agent starts with
after a replay. -/
namespace PiRust.SessionLog

open List

/-- What a hydration reads of a `RuntimeSnapshot`: its model, and the API of the model. -/
structure RuntimeSnapshot where
  model : Model
  api : String

def replayAssistantMessage (runtime : RuntimeSnapshot) : AssistantMessage :=
  { AssistantMessage.empty runtime.api runtime.model.id with
    provider := some runtime.model.provider
    stopReason := .stop }

def replayContentBlocks (content : List PersistedContentBlock) : List ContentBlock :=
  content.map fun
    | .text text => .text text none
    | .thinking thinking thinkingSignature redacted => .thinking thinking thinkingSignature redacted
    | .image mimeType data => .image data mimeType

structure Hydration where
  messages : List AgentMessage := []
  pendingAssistant : Option (String × AssistantMessage) := none
  pendingToolResults : List AgentMessage := []

namespace Hydration

def addMessage (message : AgentMessage) (hydration : Hydration) : Hydration :=
  { hydration with messages := hydration.messages ++ [message] }

/-- `flush_replay_hydration_group`. -/
def flush (hydration : Hydration) : Hydration where
  messages := hydration.messages ++
    (hydration.pendingAssistant.map fun pending => .assistant pending.1 pending.2).toList ++
      hydration.pendingToolResults

/-- `pending_replay_assistant_message`. -/
def pendingAssistantMessage (runtime : RuntimeSnapshot) (index : Nat) (hydration : Hydration) :
    String × AssistantMessage :=
  hydration.pendingAssistant.getD
    ("replay_assistant_tool_" ++ toString index, replayAssistantMessage runtime)

def addToolCall (runtime : RuntimeSnapshot) (index : Nat) (toolCallId name : String)
    (arguments : Value) (isError : Bool) (summary : String) (hydration : Hydration) : Hydration :=
  let pending := hydration.pendingAssistantMessage runtime index
  let message := { pending.2 with
    content := pending.2.content ++ [.toolCall toolCallId name arguments none] }
  { hydration with
    pendingAssistant := some (pending.1, message)
    pendingToolResults := hydration.pendingToolResults ++
      [.toolResult ("replay_tool_result_" ++ toString index) toolCallId name isError
        [.text summary none]] }

/-- The body of the loop, on an item and its index. -/
def step (runtime : RuntimeSnapshot) (hydration : Hydration) (entry : TranscriptItem × Nat) :
    Hydration :=
  match entry.1 with
  | .userInput _ text =>
    if text = "" then hydration
    else hydration.flush.addMessage (.userText ("replay_user_" ++ toString entry.2) text)
  | .assistantMessage messageId content .completed =>
    { hydration.flush with
      pendingAssistant := some (messageId, { replayAssistantMessage runtime with
        content := replayContentBlocks content }) }
  | .toolCall toolCallId name arguments .completed summary =>
    hydration.addToolCall runtime entry.2 toolCallId name arguments false summary
  | .toolCall toolCallId name arguments .failed summary =>
    hydration.addToolCall runtime entry.2 toolCallId name arguments true summary
  | .toolCall .. => hydration
  | .compactionSummary summary _ tokensBefore =>
    hydration.flush.addMessage
      (.compactionSummary ("replay_compaction_" ++ toString entry.2) summary tokensBefore)
  | .branchSummary summary sourceLeafId _ =>
    hydration.flush.addMessage
      (.branchSummary ("replay_branch_summary_" ++ toString entry.2) summary sourceLeafId)
  | .diagnostic .. | .delegationBlock .. => hydration.flush
  | .assistantMessage .. => hydration

end Hydration

/-- `hydrate_agent_runtime` on an agent without messages. -/
def hydrateAgentRuntime (runtime : RuntimeSnapshot) (transcript : List TranscriptItem) :
    List AgentMessage :=
  (transcript.zipIdx.foldl (Hydration.step runtime) {}).flush.messages

def TranscriptItem.hydrates : TranscriptItem → Bool
  | .userInput _ text => text ≠ ""
  | .assistantMessage _ _ .completed | .toolCall _ _ _ .completed _ | .toolCall _ _ _ .failed _
  | .compactionSummary .. | .branchSummary .. => true
  | _ => false

def lastMessage (runtime : RuntimeSnapshot) (entry : TranscriptItem × Nat) : Option AgentMessage :=
  match entry.1 with
  | .userInput _ text =>
    if text = "" then none else some (.userText ("replay_user_" ++ toString entry.2) text)
  | .assistantMessage messageId content .completed =>
    some (.assistant messageId
      { replayAssistantMessage runtime with content := replayContentBlocks content })
  | .toolCall toolCallId name _ .completed summary =>
    some (.toolResult ("replay_tool_result_" ++ toString entry.2) toolCallId name false
      [.text summary none])
  | .toolCall toolCallId name _ .failed summary =>
    some (.toolResult ("replay_tool_result_" ++ toString entry.2) toolCallId name true
      [.text summary none])
  | .compactionSummary summary _ tokensBefore =>
    some (.compactionSummary ("replay_compaction_" ++ toString entry.2) summary tokensBefore)
  | .branchSummary summary sourceLeafId _ =>
    some (.branchSummary ("replay_branch_summary_" ++ toString entry.2) summary sourceLeafId)
  | _ => none

/-- The message apart from its id: the position of its item is part of most ids. -/
def messageBody : AgentMessage → AgentMessage
  | .userText _ text => .userText "" text
  | .assistant _ message => .assistant "" message
  | .toolResult _ toolCallId toolName isError content =>
    .toolResult "" toolCallId toolName isError content
  | .systemPrompt _ text => .systemPrompt "" text
  | .compactionSummary _ summary tokensBefore => .compactionSummary "" summary tokensBefore
  | .bashExecution _ command output exitCode cancelled truncated fullOutputPath
      excludeFromContext =>
      .bashExecution "" command output exitCode cancelled truncated fullOutputPath
        excludeFromContext
  | .custom _ customType content display => .custom "" customType content display
  | .branchSummary _ summary fromId => .branchSummary "" summary fromId

theorem lastMessage_isSome (runtime : RuntimeSnapshot) (entry : TranscriptItem × Nat) :
    (lastMessage runtime entry).isSome = entry.1.hydrates := by
  unfold lastMessage TranscriptItem.hydrates
  obtain ⟨item, index⟩ := entry
  cases item with
  | userInput turnId text =>
    by_cases empty : text = ""
    · simp [empty]
    · simp [empty]
  | assistantMessage messageId content status => cases status <;> rfl
  | toolCall toolCallId name arguments status summary => cases status <;> rfl
  | _ => rfl

theorem lastMessage_body (runtime : RuntimeSnapshot) (item : TranscriptItem) (index other : Nat) :
    (lastMessage runtime (item, index)).map messageBody =
      (lastMessage runtime (item, other)).map messageBody := by
  unfold lastMessage
  cases item with
  | userInput turnId text =>
    by_cases empty : text = ""
    · simp [empty]
    · simp [empty, messageBody]
  | assistantMessage messageId content status => cases status <;> rfl
  | toolCall toolCallId name arguments status summary => cases status <;> rfl
  | _ => rfl

namespace Hydration

variable {runtime : RuntimeSnapshot} {hydration : Hydration}

/-- The last message so far. -/
def last (hydration : Hydration) : Option AgentMessage := hydration.flush.messages.getLast?

theorem flush_flush : hydration.flush.flush = hydration.flush := by
  simp [flush]

theorem addMessage_last (message : AgentMessage) :
    (hydration.flush.addMessage message).last = some message := by
  simp [last, flush, addMessage]

theorem addToolCall_last (index : Nat) (toolCallId name : String) (arguments : Value)
    (isError : Bool) (summary : String) :
    (hydration.addToolCall runtime index toolCallId name arguments isError summary).last =
      some (.toolResult ("replay_tool_result_" ++ toString index) toolCallId name isError
        [.text summary none]) := by
  unfold last flush addToolCall
  rw [← append_assoc, getLast?_concat]

theorem step_last (entry : TranscriptItem × Nat) :
    (hydration.step runtime entry).last = (lastMessage runtime entry).or hydration.last := by
  have flushed : hydration.flush.last = hydration.last := by
    unfold last
    rw [flush_flush]
  obtain ⟨item, index⟩ := entry
  unfold step lastMessage
  cases item with
  | userInput turnId text =>
    by_cases empty : text = ""
    · simp [empty]
    · simp [if_neg empty, addMessage_last]
  | assistantMessage messageId content status =>
    cases status with
    | completed => simp [last, flush]
    | started | cancelled => rfl
  | toolCall toolCallId name arguments status summary =>
    cases status with
    | completed | failed => exact addToolCall_last ..
    | started | cancelled => rfl
  | compactionSummary | branchSummary => exact addMessage_last _
  | delegationBlock | diagnostic => exact flushed

/-- Messages that were there before stay in front, and change nothing else. -/
def after (front : List AgentMessage) (hydration : Hydration) : Hydration :=
  { hydration with messages := front ++ hydration.messages }

variable (front : List AgentMessage)

theorem flush_after : (hydration.after front).flush = hydration.flush.after front := by
  simp [flush, after, append_assoc]

theorem addMessage_after (message : AgentMessage) :
    (hydration.after front).addMessage message = (hydration.addMessage message).after front := by
  simp [addMessage, after, append_assoc]

theorem step_after (entry : TranscriptItem × Nat) :
    (hydration.after front).step runtime entry = (hydration.step runtime entry).after front := by
  obtain ⟨item, index⟩ := entry
  unfold step
  cases item with
  | userInput turnId text =>
    by_cases empty : text = ""
    · simp [if_pos empty]
    · simp [if_neg empty, flush_after, addMessage_after]
  | assistantMessage messageId content status =>
    cases status with
    | completed => rw [flush_after]; rfl
    | started | cancelled => rfl
  | toolCall toolCallId name arguments status summary =>
    cases status <;> rfl
  | compactionSummary | branchSummary => simp [flush_after, addMessage_after]
  | delegationBlock | diagnostic => exact flush_after front

theorem foldl_step_last (entries : List (TranscriptItem × Nat)) (hydration : Hydration) :
    (entries.foldl (step runtime) hydration).last =
      ((entries.filterMap (lastMessage runtime)).getLast?).or hydration.last := by
  induction entries generalizing hydration with
  | nil => rfl
  | cons entry entries ih =>
    rw [foldl_cons, ih, step_last]
    cases brought : lastMessage runtime entry with
    | none => rw [filterMap_cons_none brought, Option.none_or]
    | some message =>
      rw [filterMap_cons_some brought, getLast?_cons, Option.some_or]
      cases (entries.filterMap (lastMessage runtime)).getLast? <;> rfl

theorem foldl_step_after (entries : List (TranscriptItem × Nat)) (hydration : Hydration) :
    entries.foldl (step runtime) (hydration.after front) =
      (entries.foldl (step runtime) hydration).after front := by
  induction entries generalizing hydration with
  | nil => rfl
  | cons entry entries ih => rw [foldl_cons, foldl_cons, step_after, ih]

end Hydration

def hydrateFrom (runtime : RuntimeSnapshot) (start : Nat) (items : List TranscriptItem) :
    List AgentMessage :=
  ((items.zipIdx start).foldl (Hydration.step runtime) {}).flush.messages

section hydrateFrom

variable {runtime : RuntimeSnapshot}

theorem hydrateAgentRuntime_eq (transcript : List TranscriptItem) :
    hydrateAgentRuntime runtime transcript = hydrateFrom runtime 0 transcript := rfl

def lastBodies (runtime : RuntimeSnapshot) (items : List TranscriptItem) : List AgentMessage :=
  items.filterMap fun item => (lastMessage runtime (item, 0)).map messageBody

theorem lastBodies_eq_nil_iff (items : List TranscriptItem) :
    lastBodies runtime items = [] ↔ ∀ item ∈ items, item.hydrates = false := by
  unfold lastBodies
  rw [filterMap_eq_nil_iff]
  apply forall₂_congr
  intro item _
  rw [← lastMessage_isSome runtime (item, 0)]
  cases lastMessage runtime (item, 0) <;> simp

theorem map_lastMessage (start : Nat) (items : List TranscriptItem) :
    ((items.zipIdx start).filterMap (lastMessage runtime)).map messageBody =
      lastBodies runtime items := by
  unfold lastBodies
  induction items generalizing start with
  | nil => rfl
  | cons item items ih =>
    have later := ih (start + 1)
    have same := lastMessage_body runtime item start 0
    rw [map_filterMap] at later ⊢
    rw [zipIdx_cons, filterMap_cons, filterMap_cons, later, same]

theorem hydrateFrom_last (start : Nat) (items : List TranscriptItem) :
    (hydrateFrom runtime start items).getLast?.map messageBody =
      (lastBodies runtime items).getLast? := by
  have last := @Hydration.foldl_step_last runtime (items.zipIdx start) {}
  have none : Hydration.last {} = none := rfl
  rw [none, Option.or_none] at last
  rw [← map_lastMessage start, getLast?_map, ← last]
  rfl

theorem hydrateFrom_eq_nil_iff (start : Nat) (items : List TranscriptItem) :
    hydrateFrom runtime start items = [] ↔ ∀ item ∈ items, item.hydrates = false := by
  rw [← @lastBodies_eq_nil_iff runtime items, ← getLast?_eq_none_iff,
    ← @getLast?_eq_none_iff _ (lastBodies runtime items), ← hydrateFrom_last start,
    Option.map_eq_none_iff]

theorem hydrate_compacted (summary firstKeptMessageId : String) (tokensBefore : UInt32)
    (kept : List TranscriptItem) :
    hydrateAgentRuntime runtime
        (.compactionSummary summary firstKeptMessageId tokensBefore :: kept) =
      .compactionSummary ("replay_compaction_" ++ toString 0) summary tokensBefore ::
        hydrateFrom runtime 1 kept := by
  have first : Hydration.step runtime {}
      (.compactionSummary summary firstKeptMessageId tokensBefore, 0) =
      ({} : Hydration).after
        [.compactionSummary ("replay_compaction_" ++ toString 0) summary tokensBefore] := rfl
  unfold hydrateAgentRuntime hydrateFrom
  rw [zipIdx_cons, foldl_cons, first, Hydration.foldl_step_after, Hydration.flush_after]
  rfl

end hydrateFrom

end PiRust.SessionLog
