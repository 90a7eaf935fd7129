import PiRust.Dialogue
import PiRust.Hydration

/- How a hydration pairs the tool calls of a transcript with their results. -/
namespace PiRust.SessionLog

open List

/-- An item that turns into a message of its own, which makes no call and answers none. -/
def TranscriptItem.speaks : TranscriptItem → Bool
  | .userInput _ text => text ≠ ""
  | .compactionSummary .. | .branchSummary .. => true
  | _ => false

/-- The entries that turn into messages. -/
def heard (entries : List (TranscriptItem × Nat)) : List (TranscriptItem × Nat) :=
  entries.filter fun entry => entry.1.hydrates

theorem heard_of_hydrates {entry : TranscriptItem × Nat} (hydrates : entry.1.hydrates = true) :
    heard [entry] = [entry] := filter_cons_of_pos hydrates

theorem heard_of_silent {entry : TranscriptItem × Nat} (silent : entry.1.hydrates = false) :
    heard [entry] = [] := filter_cons_of_neg (ne_true_of_eq_false silent)

structure FinishedCall where
  index : Nat
  toolCallId : String
  name : String
  arguments : Value
  isError : Bool
  summary : String

namespace FinishedCall

variable (call : FinishedCall)

def entry : TranscriptItem × Nat :=
  (.toolCall call.toolCallId call.name call.arguments (if call.isError then .failed else .completed)
    call.summary, call.index)

def block : ContentBlock := .toolCall call.toolCallId call.name call.arguments none

def result : AgentMessage :=
  .toolResult ("replay_tool_result_" ++ toString call.index) call.toolCallId call.name call.isError
    [.text call.summary none]

end FinishedCall

inductive ReplayTurn where
  | opened (messageId : String) (content : List PersistedContentBlock) (index : Nat)
      (calls : List FinishedCall)
  | unopened (first : FinishedCall) (calls : List FinishedCall)

namespace ReplayTurn

def calls : ReplayTurn → List FinishedCall
  | .opened _ _ _ calls => calls
  | .unopened first calls => first :: calls

def add (call : FinishedCall) : ReplayTurn → ReplayTurn
  | .opened messageId content index calls => .opened messageId content index (calls ++ [call])
  | .unopened first calls => .unopened first (calls ++ [call])

def messageId : ReplayTurn → String
  | .opened messageId _ _ _ => messageId
  | .unopened first _ => "replay_assistant_tool_" ++ toString first.index

def spoken : ReplayTurn → List ContentBlock
  | .opened _ content _ _ => replayContentBlocks content
  | .unopened _ _ => []

def entries : ReplayTurn → List (TranscriptItem × Nat)
  | .opened messageId content index calls =>
    (.assistantMessage messageId content .completed, index) :: calls.map FinishedCall.entry
  | .unopened first calls => (first :: calls).map FinishedCall.entry

variable (turn : ReplayTurn)

variable (call : FinishedCall)

theorem messageId_add : (turn.add call).messageId = turn.messageId := by
  cases turn with
  | opened => rfl
  | unopened => rfl

theorem calls_add : (turn.add call).calls = turn.calls ++ [call] := by
  cases turn with
  | opened => rfl
  | unopened => rfl

theorem entries_add : (turn.add call).entries = turn.entries ++ [call.entry] := by
  cases turn with
  | opened messageId content index calls =>
    rw [add, entries, entries, map_append, cons_append]
    rfl
  | unopened first calls =>
    rw [add, entries, entries, ← cons_append, map_append]
    rfl

/-- One message with all the calls. -/
def assistant (runtime : RuntimeSnapshot) (turn : ReplayTurn) : AssistantMessage :=
  { replayAssistantMessage runtime with
    content := turn.spoken ++ turn.calls.map FinishedCall.block }

def results : List AgentMessage := turn.calls.map FinishedCall.result

theorem assistant_add (runtime : RuntimeSnapshot) (turn : ReplayTurn) (call : FinishedCall) :
    (turn.add call).assistant runtime =
      { turn.assistant runtime with
        content := (turn.assistant runtime).content ++ [call.block] } := by
  have spoken : (turn.add call).spoken = turn.spoken := by
    cases turn with
    | opened => rfl
    | unopened => rfl
  rw [assistant, assistant, turn.calls_add, map_append, spoken, append_assoc]
  rfl

theorem results_add : (turn.add call).results = turn.results ++ [call.result] := by
  rw [results, turn.calls_add, map_append]
  rfl

end ReplayTurn

inductive Part where
  | alone (entry : TranscriptItem × Nat) (speaks : entry.1.speaks = true)
  | turn (group : ReplayTurn)

namespace Part

def entries : Part → List (TranscriptItem × Nat)
  | .alone entry _ => [entry]
  | .turn group => group.entries

def messages (runtime : RuntimeSnapshot) : Part → List AgentMessage
  | .alone entry _ => (lastMessage runtime entry).toList
  | .turn group => .assistant group.messageId (group.assistant runtime) :: group.results

end Part

structure Grouping where
  parts : List Part
  open? : Option ReplayTurn

namespace Grouping

def close (grouping : Grouping) : List Part :=
  grouping.parts ++ (grouping.open?.map Part.turn).toList

def entries (grouping : Grouping) : List (TranscriptItem × Nat) :=
  grouping.close.flatMap Part.entries

def hydration (runtime : RuntimeSnapshot) (grouping : Grouping) : Hydration where
  messages := grouping.parts.flatMap (Part.messages runtime)
  pendingAssistant := grouping.open?.map fun turn => (turn.messageId, turn.assistant runtime)
  pendingToolResults := (grouping.open?.map ReplayTurn.results).getD []

variable {runtime : RuntimeSnapshot} {grouping : Grouping}

theorem flush_hydration : (grouping.hydration runtime).flush =
    hydration runtime ⟨grouping.close, none⟩ := by
  obtain ⟨parts, open?⟩ := grouping
  cases open? with
  | none => simp [hydration, Hydration.flush, close]
  | some turn => simp [hydration, Hydration.flush, close, Part.messages]

/-- One more entry, in both groupings. -/
structure Steps (runtime : RuntimeSnapshot) (grouping : Grouping) (entry : TranscriptItem × Nat)
    (after : Grouping) : Prop where
  hydration : after.hydration runtime = (grouping.hydration runtime).step runtime entry
  entries : after.entries = grouping.entries ++ heard [entry]

variable {entry : TranscriptItem × Nat}

theorem steps_alone (speaks : entry.1.speaks = true) {message : AgentMessage}
    (own : lastMessage runtime entry = some message)
    (step : (grouping.hydration runtime).step runtime entry =
      (grouping.hydration runtime).flush.addMessage message) :
    grouping.Steps runtime entry ⟨grouping.close ++ [.alone entry speaks], none⟩ where
  hydration := by
    rw [step, flush_hydration]
    simp [hydration, Hydration.addMessage, Part.messages, own]
  entries := by
    have hydrates : entry.1.hydrates = true := by
      rw [← lastMessage_isSome runtime entry, own, Option.isSome_some]
    rw [heard_of_hydrates hydrates]
    simp only [entries, close, Option.map_none, Option.toList_none, append_nil,
      flatMap_append, flatMap_singleton]
    rfl

theorem steps_silent (silent : entry.1.hydrates = false)
    (step : (grouping.hydration runtime).step runtime entry = grouping.hydration runtime) :
    grouping.Steps runtime entry grouping where
  hydration := step.symm
  entries := by
    rw [heard_of_silent silent, append_nil]

theorem steps_flush (silent : entry.1.hydrates = false)
    (step : (grouping.hydration runtime).step runtime entry = (grouping.hydration runtime).flush) :
    grouping.Steps runtime entry ⟨grouping.close, none⟩ where
  hydration := by rw [step, flush_hydration]
  entries := by
    rw [heard_of_silent silent, append_nil]
    simp [entries, close]

theorem assistant_opened (runtime : RuntimeSnapshot) (messageId : String)
    (content : List PersistedContentBlock) (index : Nat) :
    (ReplayTurn.opened messageId content index []).assistant runtime =
      { replayAssistantMessage runtime with content := replayContentBlocks content } := by
  rw [ReplayTurn.assistant, ReplayTurn.calls, map_nil, append_nil, ReplayTurn.spoken]

theorem steps_open (messageId : String) (content : List PersistedContentBlock) (index : Nat) :
    grouping.Steps runtime (.assistantMessage messageId content .completed, index)
      ⟨grouping.close, some (.opened messageId content index [])⟩ where
  hydration := by
    have step : (grouping.hydration runtime).step runtime
        (.assistantMessage messageId content .completed, index) =
        { (grouping.hydration runtime).flush with
          pendingAssistant := some (messageId, { replayAssistantMessage runtime with
            content := replayContentBlocks content }) } := rfl
    rw [step, flush_hydration, hydration, Option.map_some, assistant_opened]
    rfl
  entries := by
    rw [entries, close, Option.map_some, Option.toList_some, flatMap_append]
    rfl

theorem steps_call (call : FinishedCall) : ∃ after, grouping.Steps runtime call.entry after := by
  have step : (grouping.hydration runtime).step runtime call.entry =
      (grouping.hydration runtime).addToolCall runtime call.index call.toolCallId call.name
        call.arguments call.isError call.summary := by
    unfold FinishedCall.entry
    cases isError : call.isError with
    | true => rfl
    | false => rfl
  have hydrates : call.entry.1.hydrates = true := by
    unfold FinishedCall.entry
    cases call.isError with
    | true => rfl
    | false => rfl
  obtain ⟨parts, open?⟩ := grouping
  cases open? with
  | none =>
    refine ⟨⟨parts, some (.unopened call [])⟩, ?_, ?_⟩
    · rw [step]
      rfl
    · rw [heard_of_hydrates hydrates]
      simp only [entries, close, Option.map_some, Option.toList_some, flatMap_append,
        flatMap_singleton, Option.map_none, Option.toList_none, append_nil]
      rfl
  | some turn =>
    refine ⟨⟨parts, some (turn.add call)⟩, ?_, ?_⟩
    · rw [step, hydration, Option.map_some, Option.map_some, turn.assistant_add,
        turn.results_add, turn.messageId_add]
      rfl
    · rw [heard_of_hydrates hydrates]
      simp only [entries, close, Option.map_some, Option.toList_some, flatMap_append,
        flatMap_singleton, append_assoc]
      rw [Part.entries, Part.entries, turn.entries_add]

theorem step_grouping (grouping : Grouping) (entry : TranscriptItem × Nat) :
    ∃ after, grouping.Steps runtime entry after := by
  obtain ⟨item, index⟩ := entry
  cases item with
  | userInput turnId text =>
    by_cases empty : text = ""
    · refine ⟨grouping, steps_silent ?_ (if_pos empty)⟩
      exact decide_eq_false (not_not.mpr empty)
    · have speaks : (TranscriptItem.userInput turnId text).speaks = true := decide_eq_true empty
      exact ⟨_, steps_alone speaks (if_neg empty) (if_neg empty)⟩
  | assistantMessage messageId content status =>
    cases status with
    | completed => exact ⟨_, steps_open messageId content index⟩
    | started | cancelled => exact ⟨grouping, steps_silent rfl rfl⟩
  | toolCall toolCallId name arguments status summary =>
    cases status with
    | completed => exact steps_call ⟨index, toolCallId, name, arguments, false, summary⟩
    | failed => exact steps_call ⟨index, toolCallId, name, arguments, true, summary⟩
    | started | cancelled => exact ⟨grouping, steps_silent rfl rfl⟩
  | compactionSummary | branchSummary => exact ⟨_, steps_alone rfl rfl rfl⟩
  | delegationBlock | diagnostic => exact ⟨_, steps_flush rfl rfl⟩

theorem foldl_grouping (entries : List (TranscriptItem × Nat)) (grouping : Grouping) :
    ∃ after : Grouping,
      after.hydration runtime =
        entries.foldl (Hydration.step runtime) (grouping.hydration runtime) ∧
      after.entries = grouping.entries ++ heard entries := by
  induction entries generalizing grouping with
  | nil => exact ⟨grouping, rfl, (append_nil _).symm⟩
  | cons entry entries ih =>
    obtain ⟨middle, step⟩ : ∃ middle, grouping.Steps runtime entry middle :=
      step_grouping grouping entry
    obtain ⟨after, same, listed⟩ := ih middle
    refine ⟨after, ?_, ?_⟩
    · rw [same, step.hydration, foldl_cons]
    · rw [listed, step.entries, append_assoc, heard, heard, ← filter_append,
        singleton_append, heard]

end Grouping

section paired

variable {runtime : RuntimeSnapshot}

abbrev Lockstep (messages : List AgentMessage) : Prop :=
  Dialogue.Lockstep AgentMessage.callIds AgentMessage.answers? messages

theorem Part.lockstep (part : Part) : Lockstep (part.messages runtime) := by
  cases part with
  | alone entry speaks =>
    have own (message : AgentMessage) (opens : message.answers? = none)
        (mute : message.callIds = []) : Lockstep [message] :=
      Dialogue.lockstep_round opens (by rw [mute]; rfl)
    obtain ⟨item, index⟩ := entry
    cases item with
    | userInput turnId text =>
      have said : lastMessage runtime (.userInput turnId text, index) =
          some (.userText ("replay_user_" ++ toString index) text) :=
        if_neg (of_decide_eq_true speaks)
      rw [Part.messages, said]
      exact own _ rfl rfl
    | compactionSummary | branchSummary => exact own _ rfl rfl
    | assistantMessage | toolCall | delegationBlock | diagnostic => cases speaks
  | turn group =>
    refine Dialogue.lockstep_round rfl ?_
    have spoken : group.spoken.filterMap ContentBlock.callId? = [] := by
      refine filterMap_eq_nil_iff.mpr fun block member => ?_
      cases group with
      | opened messageId content index calls =>
        obtain ⟨persisted, -, rfl⟩ := mem_map.mp member
        cases persisted with
        | text => rfl
        | thinking => rfl
        | image => rfl
      | unopened => cases member
    have ids : (group.assistant runtime).callIds = group.calls.map FinishedCall.toolCallId := by
      have named : ContentBlock.callId? ∘ FinishedCall.block = some ∘ FinishedCall.toolCallId :=
        rfl
      rw [AssistantMessage.callIds, ReplayTurn.assistant, filterMap_append, spoken,
        nil_append, filterMap_map, named, filterMap_eq_map]
    rw [AgentMessage.callIds, ids, ReplayTurn.results, map_map, map_map]
    rfl

/-- The messages of a hydration come from the items of the transcript in their order, and every
message but a result is followed by one result for each of its calls, in their order. -/
theorem hydrateAgentRuntime_paired (runtime : RuntimeSnapshot) (transcript : List TranscriptItem) :
    (∀ front message rest, hydrateAgentRuntime runtime transcript = front ++ message :: rest →
      message.answers? = none → Dialogue.replies AgentMessage.answers? rest = message.callIds) ∧
    (∀ front result rest toolCallId,
      hydrateAgentRuntime runtime transcript = front ++ result :: rest →
        result.answers? = some toolCallId →
          ∃ before call between, front = before ++ call :: between ∧ toolCallId ∈ call.callIds ∧
            ∀ other ∈ between, other.answers? ≠ none) ∧
    ∃ parts : List Part,
      hydrateAgentRuntime runtime transcript = parts.flatMap (Part.messages runtime) ∧
        parts.flatMap Part.entries = heard transcript.zipIdx := by
  obtain ⟨grouping, same, entries⟩ : ∃ grouping : Grouping, grouping.hydration runtime =
        transcript.zipIdx.foldl (Hydration.step runtime) (Grouping.hydration runtime ⟨[], none⟩) ∧
      grouping.entries = heard transcript.zipIdx :=
    Grouping.foldl_grouping transcript.zipIdx ⟨[], none⟩
  have parts : hydrateAgentRuntime runtime transcript =
      grouping.close.flatMap (Part.messages runtime) := by
    have start : Grouping.hydration runtime ⟨[], none⟩ = {} := rfl
    rw [start] at same
    rw [hydrateAgentRuntime, ← same, Grouping.flush_hydration]
    rfl
  have lockstep : Lockstep (hydrateAgentRuntime runtime transcript) := by
    rw [parts]
    exact Dialogue.lockstep_flatMap fun part _ => part.lockstep
  refine ⟨lockstep.replied, ?_, grouping.close, parts, entries⟩
  intro front result rest toolCallId split answered
  exact lockstep.called split answered

end paired

end PiRust.SessionLog
