import Mathlib.Data.List.Perm.Subperm
import PiRust.AgentRecorder
import PiRust.TransactionItems

/- The tool calls that a prompt records, against those of its agent. -/
namespace PiRust.SessionTransaction

open SessionLog List

inductive CallMark (κ : Type) where
  | started (call : κ)
  | ended (call : κ)

def CallMark.map {κ ι : Type} (name : κ → ι) : CallMark κ → CallMark ι
  | .started call => .started (name call)
  | .ended call => .ended (name call)

def callMark : SessionEventData → Option (CallMark String)
  | .toolCallStarted toolCallId _ _ => some (.started toolCallId)
  | .toolCallCompleted toolCallId _ | .toolCallFailed toolCallId _
  | .toolCallCancelled toolCallId _ => some (.ended toolCallId)
  | _ => none

/-- The tool calls of a recorder: their ids in the session, the open ones, how many ids were
handed out, and what is in the log. -/
structure ToolCalls where
  ids : StringMap String
  opened : List String
  drawn : Nat
  marks : List (CallMark String)

namespace ToolCalls

variable (supply : Supply)

def ensure (agentToolCallId : String) (calls : ToolCalls) : ToolCalls × String :=
  match StringMap.get calls.ids agentToolCallId with
  | some toolCallId => (calls, toolCallId)
  | none =>
    let toolCallId := supply.nextToolCallId calls.drawn
    ({ ids := StringMap.insert calls.ids agentToolCallId toolCallId
       opened := calls.opened.insert toolCallId
       drawn := calls.drawn + 1
       marks := calls.marks ++ [.started toolCallId] }, toolCallId)

def finish (toolCallId : String) (calls : ToolCalls) : ToolCalls × Bool :=
  if toolCallId ∈ calls.opened then
    ({ calls with
        opened := calls.opened.erase toolCallId
        marks := calls.marks ++ [.ended toolCallId] }, true)
  else (calls, false)

/-- One event, and whether it is recorded without an error. -/
def record (event : AgentEvent) (calls : ToolCalls) : ToolCalls × Bool :=
  match event with
  | .toolCallStart agentToolCallId _ _ => ((calls.ensure supply agentToolCallId).1, true)
  | .toolCallUpdate agentToolCallId _ _ =>
    let ensured := calls.ensure supply agentToolCallId
    (ensured.1, ensured.2 ∈ ensured.1.opened)
  | .toolCallEnd agentToolCallId _ _ =>
    let ensured := calls.ensure supply agentToolCallId
    ensured.1.finish ensured.2
  | _ => (calls, true)

end ToolCalls

/-- A context in the course of its transaction, with its tool calls. -/
structure Recording (calls : ToolCalls) (context : PromptTurnContext)
    (transaction : TurnTransaction) : Prop where
  held : context.transaction = some transaction
  running : transaction.state = .opened
  message : ∀ messageId, context.assistantSessionMessageId = some messageId →
    messageId ∈ transaction.openMessages
  ids : context.toolSessionCallIds = calls.ids
  opened : transaction.openToolCalls = calls.opened
  drawn : transaction.drawn.toolCallIds = calls.drawn
  marks : transaction.recorded.filterMap callMark = calls.marks

namespace Recording

variable {supply : Supply} {calls : ToolCalls} {context : PromptTurnContext}
  {transaction : TurnTransaction}

theorem onTransaction {α : Type} (recording : Recording calls context transaction)
    (act : TurnTransaction → Attempt TurnTransaction α) :
    context.onTransaction act =
      ({ context with transaction := some (act transaction).1 }, (act transaction).2) := by
  rw [PromptTurnContext.onTransaction, recording.held]

theorem marks_pushEvent (supply : Supply) (data : SessionEventData) (transaction : TurnTransaction) :
    (transaction.pushEvent supply data).recorded.filterMap callMark =
      transaction.recorded.filterMap callMark ++ (callMark data).toList := by
  rw [TurnTransaction.recorded_pushEvent, filterMap_append]
  cases marked : callMark data with
  | none => rw [filterMap_cons_none marked]; rfl
  | some mark => rw [filterMap_cons_some marked]; rfl

section

variable (recording : Recording calls context transaction)
include recording

theorem pushed {data : SessionEventData} (silent : callMark data = none) :
    Recording calls { context with transaction := some (transaction.pushEvent supply data) }
      (transaction.pushEvent supply data) where
  __ := recording
  held := rfl
  marks := by
    rw [marks_pushEvent, silent, Option.toList_none, append_nil]
    exact recording.marks

theorem recordOpen (supply : Supply) (data : SessionEventData) (silent : callMark data = none) :
    ∃ after, context.onTransaction (TurnTransaction.recordOpen supply data) = (after, .ok ()) ∧
      Recording calls after (transaction.pushEvent supply data) := by
  refine ⟨_, ?_, recording.pushed silent⟩
  rw [recording.onTransaction, TurnTransaction.recordOpen,
    TurnTransaction.ensureOpen_ok recording.running]

theorem ensureMessage (supply : Supply) :
    ∃ after messageId later, context.ensureAssistantSessionMessageStarted supply =
        (after, .ok messageId) ∧ Recording calls after later ∧
      messageId ∈ later.openMessages ∧ after.assistantSessionMessageId = some messageId := by
  unfold PromptTurnContext.ensureAssistantSessionMessageStarted
  cases known : context.assistantSessionMessageId with
  | some messageId =>
    exact ⟨context, messageId, transaction, rfl, recording, recording.message messageId known,
      known⟩
  | none =>
    simp only [recording.onTransaction, TurnTransaction.startAssistantMessage,
      TurnTransaction.ensureOpen_ok recording.running]
    let messageId := supply.nextMessageId transaction.drawn.messageIds
    let opened : TurnTransaction :=
      { transaction with
        openMessages := transaction.openMessages.insert messageId
        drawn := { transaction.drawn with messageIds := transaction.drawn.messageIds + 1 } }
    have inside : messageId ∈ opened.openMessages := mem_insert_self
    have start : Recording calls
        { context with
          transaction := some opened
          assistantSessionMessageId := some messageId
          completedAssistantSessionMessageId := none } opened :=
      { recording with
        held := rfl
        message := fun other same => Option.some.inj same ▸ inside }
    exact ⟨_, messageId, opened.pushEvent supply (.messageStarted messageId), rfl,
      start.pushed rfl, inside, rfl⟩

theorem completeMessage (supply : Supply) (message : AssistantMessage) :
    ∃ after later, context.completeCurrentAssistantMessage supply message = (after, .ok ()) ∧
      Recording calls after later := by
  obtain ⟨middle, messageId, later, ensured, started, inside, -⟩ := recording.ensureMessage supply
  unfold PromptTurnContext.completeCurrentAssistantMessage
  simp only [ensured, started.onTransaction, TurnTransaction.completeAssistantMessage,
    TurnTransaction.endAssistantMessage, TurnTransaction.ensureOpen_ok started.running,
    TurnTransaction.ensureMessageOpen, if_pos inside]
  let closed : TurnTransaction :=
    { later with openMessages := later.openMessages.erase messageId }
  have finish : Recording calls
      { middle with
        transaction := some closed
        assistantSessionMessageId := none
        completedAssistantSessionMessageId := some messageId } closed :=
    { started with
      held := rfl
      message := by
        intro _ same
        cases same }
  exact ⟨_, _, rfl, finish.pushed rfl⟩

theorem ensureCall (supply : Supply) (agentToolCallId toolName : String)
    (arguments : Option Value) :
    ∃ after later, context.ensureToolSessionCallStarted supply agentToolCallId toolName arguments =
        (after, .ok (calls.ensure supply agentToolCallId).2) ∧
      Recording (calls.ensure supply agentToolCallId).1 after later := by
  have act {α : Type} (act : TurnTransaction →
      Attempt TurnTransaction α) := recording.onTransaction act
  obtain ⟨ids, opened, drawn, marks⟩ := calls
  obtain ⟨held, running, message, rfl, rfl, rfl, rfl⟩ := recording
  unfold PromptTurnContext.ensureToolSessionCallStarted ToolCalls.ensure
  cases known : StringMap.get context.toolSessionCallIds agentToolCallId with
  | some toolCallId =>
    exact ⟨context, transaction, rfl, held, running, message, rfl, rfl, rfl, rfl⟩
  | none =>
    simp only [act, TurnTransaction.recordToolStarted, TurnTransaction.ensureOpen_ok running]
    let toolCallId := supply.nextToolCallId transaction.drawn.toolCallIds
    let started : TurnTransaction :=
      { transaction with
        openToolCalls := transaction.openToolCalls.insert toolCallId
        drawn := { transaction.drawn with toolCallIds := transaction.drawn.toolCallIds + 1 } }
    have marks := marks_pushEvent supply
      (.toolCallStarted toolCallId toolName (arguments.getD (.object []))) started
    exact ⟨_, started.pushEvent supply _, rfl, rfl, running, message, rfl, rfl, rfl, marks⟩

theorem finishCall {toolCallId : String} {data : SessionEventData}
    (ends : callMark data = some (.ended toolCallId)) :
    ∃ after later result,
      context.onTransaction (TurnTransaction.endToolCall supply toolCallId data) =
          (after, result) ∧
        Recording (calls.finish toolCallId).1 after later ∧
        result.isOk = (calls.finish toolCallId).2 := by
  rw [recording.onTransaction, TurnTransaction.endToolCall,
    TurnTransaction.ensureOpen_ok recording.running]
  obtain ⟨ids, opened, drawn, marks⟩ := calls
  obtain ⟨held, running, message, rfl, rfl, rfl, rfl⟩ := recording
  unfold ToolCalls.finish TurnTransaction.ensureToolCallOpen
  by_cases inside : toolCallId ∈ transaction.openToolCalls
  · simp only [if_pos inside]
    let ended : TurnTransaction :=
      { transaction with openToolCalls := transaction.openToolCalls.erase toolCallId }
    have marks := marks_pushEvent supply data ended
    rw [ends] at marks
    exact ⟨_, ended.pushEvent supply data, _, rfl,
      ⟨rfl, running, message, rfl, rfl, rfl, marks⟩, rfl⟩
  · simp only [if_neg inside]
    exact ⟨_, transaction, _, rfl, ⟨rfl, running, message, rfl, rfl, rfl, rfl⟩, rfl⟩

theorem updateCall (supply : Supply) (toolCallId message : String) :
    ∃ after later result, (context.onTransaction fun transaction =>
        transaction.recordToolUpdated supply toolCallId message) = (after, result) ∧
      Recording calls after later ∧ result.isOk = decide (toolCallId ∈ calls.opened) := by
  rw [recording.onTransaction, TurnTransaction.recordToolUpdated,
    TurnTransaction.ensureOpen_ok recording.running]
  unfold TurnTransaction.ensureToolCallOpen
  rw [recording.opened]
  by_cases inside : toolCallId ∈ calls.opened
  · simp only [if_pos inside]
    exact ⟨_, _, _, rfl, recording.pushed rfl, (decide_eq_true inside).symm⟩
  · simp only [if_neg inside]
    exact ⟨_, transaction, _, rfl, ⟨rfl, recording.running, recording.message, recording.ids,
      recording.opened, recording.drawn, recording.marks⟩, (decide_eq_false inside).symm⟩

theorem llm (supply : Supply) (event : AssistantMessageEvent) :
    ∃ after later result,
      context.recordAssistantEventToTransaction supply event = (after, result) ∧
        Recording calls after later ∧ result.isOk = true := by
  unfold PromptTurnContext.recordAssistantEventToTransaction
  cases event with
  | done reason message =>
    obtain ⟨after, later, completed, follows⟩ := recording.completeMessage supply message
    exact ⟨after, later, _, completed, follows, rfl⟩
  | error reason message =>
    obtain ⟨after, recorded, follows⟩ := recording.recordOpen supply
      (.diagnosticEmitted .error (message.errorMessage.getD "assistant stream failed")) rfl
    exact ⟨after, _, _, recorded, follows, rfl⟩
  | textEnd | thinkingEnd => exact ⟨context, transaction, _, rfl, recording, rfl⟩
  | _ =>
    obtain ⟨after, messageId, later, ensured, follows, -, -⟩ := recording.ensureMessage supply
    simp only [ensured]
    exact ⟨after, later, _, rfl, follows, rfl⟩

end

theorem step (recording : Recording calls context transaction) (supply : Supply)
    (event : AgentEvent) :
    ∃ after later result, context.recordAgentEvent supply event = (after, result) ∧
      Recording (calls.record supply event).1 after later ∧
      result.isOk = (calls.record supply event).2 := by
  suffices written : ∃ after later result,
      context.recordAgentEventToTransaction supply event = (after, result) ∧
        Recording (calls.record supply event).1 after later ∧
        result.isOk = (calls.record supply event).2 by
    obtain ⟨after, later, result, recorded, follows, same⟩ := written
    unfold PromptTurnContext.recordAgentEvent
    rw [recorded]
    cases result with
    | error error => exact ⟨after, later, _, rfl, follows, same⟩
    | ok =>
      exact ⟨_, later, _, rfl, ⟨follows.held, follows.running, follows.message, follows.ids,
        follows.opened, follows.drawn, follows.marks⟩, same⟩
  have active : ¬ context.transaction.isNone = true := by
    rw [recording.held]
    exact Bool.false_ne_true
  unfold PromptTurnContext.recordAgentEventToTransaction
  rw [if_neg active]
  cases event with
  | llmEvent event => exact recording.llm supply event
  | toolCallStart agentToolCallId toolName arguments =>
    obtain ⟨after, later, ensured, follows⟩ :=
      recording.ensureCall supply agentToolCallId toolName (some arguments)
    simp only [ensured]
    exact ⟨after, later, _, rfl, follows, rfl⟩
  | toolCallUpdate agentToolCallId toolName update =>
    obtain ⟨after, later, ensured, follows⟩ :=
      recording.ensureCall supply agentToolCallId toolName none
    simp only [ensured]
    exact follows.updateCall supply _ _
  | toolCallEnd agentToolCallId toolName result =>
    obtain ⟨after, later, ensured, follows⟩ :=
      recording.ensureCall supply agentToolCallId toolName none
    simp only [PromptTurnContext.recordToolResultToTransaction, ensured]
    split
    · exact follows.finishCall rfl
    · exact follows.finishCall rfl
  | agentError error =>
    obtain ⟨after, recorded, follows⟩ := recording.recordOpen supply
      (.diagnosticEmitted .error error) rfl
    exact ⟨after, _, _, recorded, follows, rfl⟩
  | agentDone | turnStart | beforeProviderRequest | sessionCompacted =>
    exact ⟨context, transaction, _, rfl, recording, rfl⟩

end Recording

/-- The tool executions of a stream: the ids that they began with, in order, which of them are
running, and how they began and ended, each by its number. -/
structure Executions where
  messageOpen : Bool := false
  begun : List String := []
  running : StringMap Nat := []
  marks : List (CallMark Nat) := []

namespace Executions

/-- One event of a stream in which nothing goes on or ends that has not begun. A tool call id may
begin another execution once the one before has ended. -/
def follow (executions : Executions) (event : AgentEvent) : Option Executions :=
  match event with
  | .llmEvent (.start ..) =>
    if executions.messageOpen then none else some { executions with messageOpen := true }
  | .llmEvent (.done ..) | .llmEvent (.error ..) =>
    if executions.messageOpen then some { executions with messageOpen := false } else none
  | .llmEvent _ => if executions.messageOpen then some executions else none
  | .toolCallStart agentToolCallId _ _ =>
    if (StringMap.get executions.running agentToolCallId).isSome then none
    else
      let number := executions.begun.length
      some { executions with
        begun := executions.begun ++ [agentToolCallId]
        running := StringMap.insert executions.running agentToolCallId number
        marks := executions.marks ++ [.started number] }
  | .toolCallUpdate agentToolCallId _ _ =>
    if (StringMap.get executions.running agentToolCallId).isSome then some executions else none
  | .toolCallEnd agentToolCallId _ _ =>
    (StringMap.get executions.running agentToolCallId).map fun number =>
      { executions with
        running := StringMap.remove executions.running agentToolCallId
        marks := executions.marks ++ [.ended number] }
  | _ => some executions

/-- The executions of a well-bracketed stream. -/
def ofStream (events : List AgentEvent) : Option Executions := events.foldlM follow {}

end Executions

/-- No call fails, and what the log receives of tool calls is that each execution began and how it
ended, under an id of its own. -/
def RecordsEach (supply : Supply) (transaction : TurnTransaction) (events : List AgentEvent)
    (executions : Executions) : Prop :=
  let recorded := ({ transaction := some transaction } : PromptTurnContext).recordAgentEvents supply
    events
  (∀ result ∈ recorded.2, result.isOk = true) ∧
    ∃ later name, recorded.1.transaction = some later ∧ Function.Injective name ∧
      later.recorded.filterMap callMark = transaction.recorded.filterMap callMark ++
        executions.marks.map (CallMark.map name)

namespace ToolCalls

def records (supply : Supply) : List AgentEvent → ToolCalls → ToolCalls × List Bool
  | [], calls => (calls, [])
  | event :: events, calls =>
    let recorded := calls.record supply event
    let rest := records supply events recorded.1
    (rest.1, recorded.2 :: rest.2)

end ToolCalls

theorem Recording.run (supply : Supply) (events : List AgentEvent) {calls : ToolCalls}
    {context : PromptTurnContext} {transaction : TurnTransaction}
    (recording : Recording calls context transaction) :
    ∃ later, Recording (calls.records supply events).1
        (context.recordAgentEvents supply events).1 later ∧
      (context.recordAgentEvents supply events).2.map Except.isOk =
        (calls.records supply events).2 := by
  induction events generalizing calls context transaction with
  | nil => exact ⟨transaction, recording, rfl⟩
  | cons event events ih =>
    obtain ⟨after, middle, result, recorded, follows, same⟩ := recording.step supply event
    obtain ⟨later, whole, results⟩ := ih follows
    refine ⟨later, ?_, ?_⟩
    · simp only [PromptTurnContext.recordAgentEvents, ToolCalls.records, recorded]
      exact whole
    · simp [PromptTurnContext.recordAgentEvents, ToolCalls.records, recorded, same, results]

section known

variable {supply : Supply} {base calls : ToolCalls} {executions after : Executions}
  {event : AgentEvent}

def CallMark.isStarted {κ : Type} : CallMark κ → Bool
  | .started _ => true
  | .ended _ => false

/-- The calls that are recorded, and those that run. -/
structure Known (base : ToolCalls) (executions : Executions) (calls : ToolCalls) : Prop where
  begun : ∀ id, (StringMap.get calls.ids id).isSome ↔ id ∈ executions.begun
  running : ∀ id, (StringMap.get executions.running id).isSome → id ∈ executions.begun
  unique : (calls.ids.map Prod.fst).Nodup
  started : calls.marks.countP CallMark.isStarted =
    base.marks.countP CallMark.isStarted + calls.ids.length
  counted : executions.marks.countP CallMark.isStarted = executions.begun.length

theorem insert_absent {α : Type} {map : StringMap α} {key : String}
    (absent : StringMap.get map key = none) (value : α) :
    StringMap.insert map key value = (key, value) :: map := by
  have kept : StringMap.remove map key = map := by
    refine filter_eq_self.mpr fun entry member => ?_
    have missed := find?_eq_none.mp (Option.map_eq_none_iff.mp absent) entry member
    simpa using missed
  rw [StringMap.insert, kept]

def isToolEvent : AgentEvent → Bool
  | .toolCallStart .. | .toolCallUpdate .. | .toolCallEnd .. => true
  | _ => false

theorem follow_other (other : isToolEvent event = false)
    (follows : executions.follow event = some after) :
    after.begun = executions.begun ∧ after.running = executions.running ∧
      after.marks = executions.marks := by
  unfold Executions.follow at follows
  cases event with
  | toolCallStart | toolCallUpdate | toolCallEnd => cases other
  | llmEvent event =>
    cases event <;>
      (simp only at follows
       split at follows
       · cases follows <;> exact ⟨rfl, rfl, rfl⟩
       · cases follows <;> exact ⟨rfl, rfl, rfl⟩)
  | _ =>
    cases follows
    exact ⟨rfl, rfl, rfl⟩

theorem record_other (other : isToolEvent event = false) :
    calls.record supply event = (calls, true) := by
  cases event with
  | toolCallStart | toolCallUpdate | toolCallEnd => cases other
  | _ => rfl

theorem ensure_known {id toolCallId : String} (known : StringMap.get calls.ids id = some toolCallId) :
    calls.ensure supply id = (calls, toolCallId) := by
  rw [ToolCalls.ensure, known]

theorem ensure_new {id : String} (absent : StringMap.get calls.ids id = none) :
    calls.ensure supply id =
      ({ ids := StringMap.insert calls.ids id (supply.nextToolCallId calls.drawn)
         opened := calls.opened.insert (supply.nextToolCallId calls.drawn)
         drawn := calls.drawn + 1
         marks := calls.marks ++ [.started (supply.nextToolCallId calls.drawn)] },
        supply.nextToolCallId calls.drawn) := by
  rw [ToolCalls.ensure, absent]

variable (known : Known base executions calls)
include known

theorem Known.begin (id : String) :
    Known base
      { executions with
        begun := executions.begun ++ [id]
        running := StringMap.insert executions.running id executions.begun.length
        marks := executions.marks ++ [.started executions.begun.length] }
      (calls.ensure supply id).1 := by
  have runs : ∀ other, (StringMap.get (StringMap.insert executions.running id
      executions.begun.length) other).isSome → other ∈ executions.begun ++ [id] := by
    intro other running
    rw [StringMap.get_insert] at running
    split at running
    · next same =>
      rw [same]
      exact mem_append_right _ (mem_singleton_self id)
    · exact mem_append_left _ (known.running other running)
  have counted : (executions.marks ++ [CallMark.started executions.begun.length]).countP
      CallMark.isStarted = (executions.begun ++ [id]).length := by
    rw [countP_append, known.counted, length_append]
    rfl
  cases ids : StringMap.get calls.ids id with
  | some toolCallId =>
    rw [ensure_known ids]
    refine ⟨fun other => ?_, runs, known.unique, known.started, counted⟩
    have old : id ∈ executions.begun := (known.begun id).mp (by rw [ids]; rfl)
    rw [known.begun other, mem_append, mem_singleton]
    exact ⟨.inl, fun either => either.elim (fun inside => inside) fun same => same ▸ old⟩
  | none =>
    rw [ensure_new ids]
    refine ⟨fun other => ?_, runs, StringMap.keys_insert_nodup known.unique id _, ?_, counted⟩
    · rw [StringMap.get_insert, mem_append, mem_singleton]
      split
      · next same => exact ⟨fun _ => .inr same, fun _ => rfl⟩
      · next different =>
        rw [known.begun other]
        exact ⟨.inl, fun either => either.resolve_right different⟩
    · rw [insert_absent ids, countP_append, known.started, length_cons, Nat.add_assoc]
      rfl

theorem Known.finish (toolCallId : String) : Known base executions (calls.finish toolCallId).1 := by
  unfold ToolCalls.finish
  split
  · refine ⟨known.begun, known.running, known.unique, ?_, known.counted⟩
    rw [countP_append, known.started]
    rfl
  · exact known

theorem Known.follow (follows : executions.follow event = some after) :
    Known base after (calls.record supply event).1 := by
  cases event with
  | toolCallStart id name arguments =>
    simp only [Executions.follow] at follows
    split at follows
    · cases follows
    · cases follows
      exact known.begin id
  | toolCallUpdate id name update =>
    simp only [Executions.follow] at follows
    split at follows
    · next running =>
      cases follows
      obtain ⟨toolCallId, ids⟩ := Option.isSome_iff_exists.mp
        ((known.begun id).mpr (known.running id running))
      simp only [ToolCalls.record, ensure_known ids]
      exact known
    · cases follows
  | toolCallEnd id name result =>
    simp only [Executions.follow] at follows
    cases running : StringMap.get executions.running id with
    | none =>
      rw [running] at follows
      cases follows
    | some number =>
      rw [running] at follows
      cases follows
      obtain ⟨toolCallId, ids⟩ := Option.isSome_iff_exists.mp
        ((known.begun id).mpr (known.running id (by rw [running]; rfl)))
      have ended := known.finish toolCallId
      simp only [ToolCalls.record, ensure_known ids]
      refine ⟨ended.begun, fun other runs => ?_, ended.unique, ended.started, ?_⟩
      · rw [StringMap.get_remove] at runs
        split at runs
        · cases runs
        · exact known.running other runs
      · rw [countP_append, known.counted]
        rfl
  | _ =>
    obtain ⟨begun, running, marks⟩ := follow_other rfl follows
    rw [record_other rfl]
    refine ⟨?_, ?_, known.unique, known.started, ?_⟩
    · rw [begun]
      exact known.begun
    · rw [running, begun]
      exact known.running
    · rw [marks, begun]
      exact known.counted

end known

section mirrored

variable {supply : Supply} {base calls : ToolCalls} {executions after : Executions}
  {event : AgentEvent}

/-- The id of an execution in the session. -/
def sessionId (supply : Supply) (base : ToolCalls) (number : Nat) : String :=
  supply.nextToolCallId (base.drawn + number)

/-- The recorded calls, under the ids of the session. -/
structure Mirrored (supply : Supply) (base : ToolCalls) (executions : Executions)
    (calls : ToolCalls) : Prop where
  drawn : calls.drawn = base.drawn + executions.begun.length
  begun : ∀ id, (StringMap.get calls.ids id).isSome → id ∈ executions.begun
  running : ∀ id number, StringMap.get executions.running id = some number →
    StringMap.get calls.ids id = some (sessionId supply base number) ∧
      sessionId supply base number ∈ calls.opened ∧ number < executions.begun.length
  apart : ∀ id other number, StringMap.get executions.running id = some number →
    StringMap.get executions.running other = some number → id = other
  marks : calls.marks = base.marks ++ executions.marks.map (CallMark.map (sessionId supply base))

theorem Mirrored.begin (mirrored : Mirrored supply base executions calls) {id : String}
    (unused : id ∉ executions.begun) :
    Mirrored supply base
      { executions with
        begun := executions.begun ++ [id]
        running := StringMap.insert executions.running id executions.begun.length
        marks := executions.marks ++ [.started executions.begun.length] }
      (calls.ensure supply id).1 := by
  have absent : StringMap.get calls.ids id = none :=
    Option.not_isSome_iff_eq_none.mp fun known => unused (mirrored.begun id known)
  have named : supply.nextToolCallId calls.drawn =
      sessionId supply base executions.begun.length := by
    rw [mirrored.drawn, sessionId]
  have length : (executions.begun ++ [id]).length = executions.begun.length + 1 := by
    rw [length_append, length_singleton]
  rw [ensure_new absent, named]
  constructor
  · rw [length, mirrored.drawn, Nat.add_assoc]
  · intro other known
    rw [StringMap.get_insert] at known
    split at known
    · next same =>
      rw [same]
      exact mem_append_right _ (mem_singleton_self id)
    · exact mem_append_left _ (mirrored.begun other known)
  · intro other number runs
    rw [StringMap.get_insert] at runs ⊢
    rw [length]
    split at runs
    · next same =>
      cases runs
      rw [if_pos same]
      exact ⟨rfl, mem_insert_self, Nat.lt_succ_self _⟩
    · next different =>
      obtain ⟨ids, opened, early⟩ := mirrored.running other number runs
      rw [if_neg different]
      exact ⟨ids, mem_insert_of_mem opened, Nat.lt_succ_of_lt early⟩
  · intro first second number one two
    rw [StringMap.get_insert] at one two
    split at one
    · next same =>
      cases one
      split at two
      · next other => rw [same, other]
      · exact absurd (mirrored.running second _ two).2.2 (Nat.lt_irrefl _)
    · split at two
      · cases two
        exact absurd (mirrored.running first _ one).2.2 (Nat.lt_irrefl _)
      · exact mirrored.apart first second number one two
  · rw [mirrored.marks, map_append, append_assoc]
    rfl

theorem Mirrored.finish (fresh : supply.Fresh) (mirrored : Mirrored supply base executions calls)
    {id : String} {number : Nat} (runs : StringMap.get executions.running id = some number) :
    Mirrored supply base
      { executions with
        running := StringMap.remove executions.running id
        marks := executions.marks ++ [.ended number] }
      (calls.finish (sessionId supply base number)).1 ∧
      (calls.finish (sessionId supply base number)).2 = true := by
  obtain ⟨-, opened, -⟩ := mirrored.running id number runs
  rw [ToolCalls.finish, if_pos opened]
  refine ⟨⟨mirrored.drawn, mirrored.begun, ?_, ?_, ?_⟩, rfl⟩
  · intro other later left
    rw [StringMap.get_remove] at left
    split at left
    · cases left
    · next different =>
      obtain ⟨ids, inside, early⟩ := mirrored.running other later left
      have names : sessionId supply base later ≠ sessionId supply base number := by
        intro same
        have equal : later = number := Nat.add_left_cancel (fresh.toolCalls same)
        rw [equal] at left
        exact different (mirrored.apart other id number left runs)
      exact ⟨ids, (mem_erase_of_ne names).mpr inside, early⟩
  · intro first second later one two
    rw [StringMap.get_remove] at one two
    split at one
    · cases one
    · split at two
      · cases two
      · exact mirrored.apart first second later one two
  · rw [mirrored.marks, map_append, append_assoc]
    rfl

def BeginsFresh (executions : Executions) (event : AgentEvent) : Prop :=
  ∀ id name arguments, event = .toolCallStart id name arguments → id ∉ executions.begun

theorem Mirrored.follow (fresh : supply.Fresh) (mirrored : Mirrored supply base executions calls)
    (follows : executions.follow event = some after) (unused : BeginsFresh executions event) :
    Mirrored supply base after (calls.record supply event).1 ∧
      (calls.record supply event).2 = true := by
  cases event with
  | toolCallStart id name arguments =>
    simp only [Executions.follow] at follows
    split at follows
    · cases follows
    · cases follows
      exact ⟨mirrored.begin (unused id name arguments rfl), rfl⟩
  | toolCallUpdate id name update =>
    simp only [Executions.follow] at follows
    split at follows
    · next running =>
      cases follows
      obtain ⟨number, runs⟩ := Option.isSome_iff_exists.mp running
      obtain ⟨ids, opened, -⟩ := mirrored.running id number runs
      simp only [ToolCalls.record, ensure_known ids]
      exact ⟨mirrored, decide_eq_true opened⟩
    · cases follows
  | toolCallEnd id name result =>
    simp only [Executions.follow] at follows
    cases runs : StringMap.get executions.running id with
    | none =>
      rw [runs] at follows
      cases follows
    | some number =>
      rw [runs] at follows
      cases follows
      obtain ⟨ids, -, -⟩ := mirrored.running id number runs
      simp only [ToolCalls.record, ensure_known ids]
      exact mirrored.finish fresh runs
  | _ =>
    obtain ⟨begun, running, marks⟩ := follow_other rfl follows
    rw [record_other rfl]
    refine ⟨⟨?_, ?_, ?_, ?_, ?_⟩, rfl⟩
    · rw [begun]
      exact mirrored.drawn
    · rw [begun]
      exact mirrored.begun
    · rw [running, begun]
      exact mirrored.running
    · rw [running]
      exact mirrored.apart
    · rw [marks]
      exact mirrored.marks

end mirrored

section streams

variable {supply : Supply} {base calls : ToolCalls} {executions final : Executions}
  {events : List AgentEvent}

/-- The ids that the executions of a stream begin with. -/
def begunIds (events : List AgentEvent) : List String :=
  events.filterMap fun
    | .toolCallStart agentToolCallId _ _ => some agentToolCallId
    | _ => none

theorem follow_begun {event : AgentEvent} {after : Executions}
    (follows : executions.follow event = some after) :
    after.begun = executions.begun ++ begunIds [event] := by
  cases event with
  | toolCallStart id name arguments =>
    simp only [Executions.follow] at follows
    split at follows
    · cases follows
    · cases follows
      rfl
  | toolCallUpdate id name update =>
    simp only [Executions.follow] at follows
    split at follows
    · cases follows
      exact (append_nil _).symm
    · cases follows
  | toolCallEnd id name result =>
    obtain ⟨number, -, rfl⟩ := Option.map_eq_some_iff.mp follows
    exact (append_nil _).symm
  | _ => exact (follow_other rfl follows).1.trans (append_nil _).symm

theorem foldlM_begun (follows : events.foldlM Executions.follow executions = some final) :
    final.begun = executions.begun ++ begunIds events := by
  induction events generalizing executions with
  | nil =>
    cases follows
    exact (append_nil _).symm
  | cons event events ih =>
    rw [foldlM_cons, Option.bind_eq_bind, Option.bind_eq_some_iff] at follows
    obtain ⟨after, step, rest⟩ := follows
    rw [ih rest, follow_begun step, append_assoc, begunIds, begunIds, begunIds,
      ← filterMap_append, singleton_append]

theorem Known.run (known : Known base executions calls)
    (follows : events.foldlM Executions.follow executions = some final) :
    Known base final (calls.records supply events).1 := by
  induction events generalizing executions calls with
  | nil =>
    cases follows
    exact known
  | cons event events ih =>
    rw [foldlM_cons, Option.bind_eq_bind, Option.bind_eq_some_iff] at follows
    obtain ⟨after, step, rest⟩ := follows
    exact ih (known.follow step) rest

theorem Mirrored.run (fresh : supply.Fresh) (mirrored : Mirrored supply base executions calls)
    (follows : events.foldlM Executions.follow executions = some final)
    (distinct : (executions.begun ++ begunIds events).Nodup) :
    Mirrored supply base final (calls.records supply events).1 ∧
      ∀ recorded ∈ (calls.records supply events).2, recorded = true := by
  induction events generalizing executions calls with
  | nil =>
    cases follows
    exact ⟨mirrored, nofun⟩
  | cons event events ih =>
    rw [foldlM_cons, Option.bind_eq_bind, Option.bind_eq_some_iff] at follows
    obtain ⟨after, step, rest⟩ := follows
    have split : begunIds (event :: events) = begunIds [event] ++ begunIds events := by
      rw [begunIds, begunIds, begunIds, ← filterMap_append, singleton_append]
    rw [split, ← append_assoc] at distinct
    have unused : BeginsFresh executions event := by
      rintro id name arguments rfl used
      have apart := (nodup_append.mp (distinct.of_append_left)).2.2
      exact apart id used id mem_cons_self rfl
    obtain ⟨followed, recorded⟩ := mirrored.follow fresh step unused
    obtain ⟨whole, others⟩ := ih followed rest (by rw [follow_begun step]; exact distinct)
    exact ⟨whole, forall_mem_cons.mpr ⟨recorded, others⟩⟩

theorem nodup_of_keys {words keys : List String} (unique : keys.Nodup) (inside : keys ⊆ words)
    (enough : words.length ≤ keys.length) : words.Nodup :=
  ((unique.subperm inside).perm_of_length_le enough).nodup unique

/-- A stream is recorded execution by execution exactly if none of them begins under an id that
an earlier one has used. -/
theorem recordsEach_iff (fresh : supply.Fresh) {transaction : TurnTransaction}
    (running : transaction.state = .opened) (bracketed : Executions.ofStream events = some final) :
    RecordsEach supply transaction events final ↔ (begunIds events).Nodup := by
  let calls : ToolCalls := ⟨[], transaction.openToolCalls, transaction.drawn.toolCallIds,
    transaction.recorded.filterMap callMark⟩
  have recording : Recording calls { transaction := some transaction } transaction :=
    ⟨rfl, running, nofun, rfl, rfl, rfl, rfl⟩
  obtain ⟨later, whole, results⟩ := recording.run supply events
  have ids : final.begun = begunIds events := foldlM_begun bracketed
  constructor
  · rintro ⟨-, other, name, held, -, marks⟩
    have same : other = later := Option.some.inj (held.symm.trans whole.held)
    have start : Known calls {} calls := ⟨fun _ => ⟨nofun, nofun⟩, nofun, nodup_nil, rfl, rfl⟩
    have known : Known calls final (calls.records supply events).1 := start.run bracketed
    have started := congrArg (countP CallMark.isStarted) marks
    have named : CallMark.isStarted ∘ CallMark.map name = CallMark.isStarted := by
      funext mark
      cases mark with
      | started => rfl
      | ended => rfl
    rw [same, whole.marks, known.started, countP_append, countP_map, named,
      known.counted] at started
    have enough : (calls.records supply events).1.ids.length = final.begun.length :=
      Nat.add_left_cancel started
    rw [← ids]
    refine nodup_of_keys known.unique (fun id member => ?_) ?_
    · obtain ⟨entry, listed, rfl⟩ := mem_map.mp member
      refine (known.begun entry.1).mp ?_
      rw [(StringMap.get_eq_some_iff known.unique entry.1 entry.2).mpr listed]
      rfl
    · rw [length_map, enough]
  · intro distinct
    have start : Mirrored supply calls {} calls := ⟨rfl, nofun, nofun, nofun, (append_nil _).symm⟩
    obtain ⟨mirrored, recorded⟩ := start.run fresh bracketed distinct
    refine ⟨fun result member => ?_, later, sessionId supply calls, whole.held, ?_, ?_⟩
    · exact recorded _ (by rw [← results]; exact mem_map_of_mem member)
    · intro first second same
      exact Nat.add_left_cancel (fresh.toolCalls same)
    · rw [whole.marks]
      exact mirrored.marks

end streams

section samples

def sampleMessage : AssistantMessage := .empty "openai-completions" "model"

def agentTurn (turn : UInt32) (agentToolCallId : String) : List AgentEvent :=
  [.turnStart turn, .llmEvent (.start none sampleMessage),
    .llmEvent (.done .toolUse sampleMessage), .toolCallStart agentToolCallId "ls" (.object []),
    .toolCallUpdate agentToolCallId "ls" ⟨[.text "src" none]⟩,
    .toolCallEnd agentToolCallId "ls" ⟨[.text "src" none], false, false⟩]

def promptTransaction : TurnTransaction := .beginAdmitted sampleSupply "sess" "op" .prompt

theorem distinct_calls_recorded :
    ∃ executions, Executions.ofStream (agentTurn 1 "call_0" ++ agentTurn 2 "call_1") =
        some executions ∧
      RecordsEach sampleSupply promptTransaction (agentTurn 1 "call_0" ++ agentTurn 2 "call_1")
        executions :=
  ⟨_, rfl, (recordsEach_iff sampleSupply_fresh rfl rfl).mpr (by decide)⟩

/-- A second turn with the tool call id of the first: the end of its execution is refused, and
the log has nothing of it. -/
theorem reused_call_refused :
    ∃ executions, Executions.ofStream (agentTurn 1 "call_0" ++ agentTurn 2 "call_0") =
        some executions ∧
      ¬ RecordsEach sampleSupply promptTransaction (agentTurn 1 "call_0" ++ agentTurn 2 "call_0")
        executions := by
  refine ⟨_, rfl, fun recorded => ?_⟩
  have results : (({ transaction := some promptTransaction } :
      PromptTurnContext).recordAgentEvents sampleSupply
        (agentTurn 1 "call_0" ++ agentTurn 2 "call_0")).2.map Except.isOk =
      [true, true, true, true, true, true, true, true, true, true, false, false] := by
    decide
  have refused : false ∈ (({ transaction := some promptTransaction } :
      PromptTurnContext).recordAgentEvents sampleSupply
        (agentTurn 1 "call_0" ++ agentTurn 2 "call_0")).2.map Except.isOk := by
    rw [results]
    decide
  obtain ⟨result, member, failed⟩ := mem_map.mp refused
  exact Bool.false_ne_true (failed.symm.trans (recorded.1 result member))

end samples

end PiRust.SessionTransaction
