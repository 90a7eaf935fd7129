import PiRust.TransactionRuns

/- The messages and tool calls that the events of a transaction start, and what ends them. -/
namespace PiRust.SessionTransaction

open List SessionLog

/-- The open messages and calls are those recorded as open. -/
structure Tracked (supply : Supply) (transaction : TurnTransaction) : Prop where
  messages : messagePairing.Tracks transaction.recorded transaction.openMessages
    fun messageId => ∃ drawn < transaction.drawn.messageIds, supply.nextMessageId drawn = messageId
  toolCalls : toolCallPairing.Tracks transaction.recorded transaction.openToolCalls
    fun toolCallId => ∃ drawn < transaction.drawn.toolCallIds, supply.nextToolCallId drawn = toolCallId

section tracked

variable {supply : Supply} {before after : TurnTransaction}

theorem next_fresh {next : Nat → String} (injective : Function.Injective next) (count : Nat) :
    ¬ ∃ drawn < count, next drawn = next count := by
  rintro ⟨drawn, earlier, same⟩
  exact absurd (injective same) (Nat.ne_of_lt earlier)

theorem drawn_mono (next : Nat → String) (count : Nat) (item : String)
    (issued : ∃ drawn < count, next drawn = item) : ∃ drawn < count + 1, next drawn = item := by
  obtain ⟨drawn, earlier, same⟩ := issued
  exact ⟨drawn, Nat.lt_succ_of_lt earlier, same⟩

theorem Tracked.pushEvent (tracked : Tracked supply before) {data : SessionEventData}
    (message : Silent messagePairing data) (toolCall : Silent toolCallPairing data) :
    Tracked supply (before.pushEvent supply data) := by
  refine ⟨?_, ?_⟩
  · rw [TurnTransaction.recorded_pushEvent]
    exact tracked.messages.plain message.opens message.closes
  · rw [TurnTransaction.recorded_pushEvent]
    exact tracked.toolCalls.plain toolCall.opens toolCall.closes

theorem TurnTransaction.Records.tracked (fresh : supply.Fresh) (tracked : Tracked supply before)
    (records : before.Records supply after) : Tracked supply after := by
  cases records with
  | refused => exact tracked
  | plain _ message toolCall _ => exact tracked.pushEvent message toolCall
  | startedMessage =>
    have unused := next_fresh fresh.messages before.drawn.messageIds
    have absent := fun member => unused (tracked.messages.issued_of_mem member)
    refine ⟨?_, ?_⟩
    · rw [TurnTransaction.recorded_pushEvent, TurnTransaction.pushEvent_openMessages,
        insert_of_not_mem absent]
      exact tracked.messages.start unused rfl rfl (drawn_mono _ _) ⟨_, Nat.lt_succ_self _, rfl⟩
    · rw [TurnTransaction.recorded_pushEvent]
      exact tracked.toolCalls.plain rfl rfl
  | startedToolCall =>
    have unused := next_fresh fresh.toolCalls before.drawn.toolCallIds
    have absent := fun member => unused (tracked.toolCalls.issued_of_mem member)
    refine ⟨?_, ?_⟩
    · rw [TurnTransaction.recorded_pushEvent]
      exact tracked.messages.plain rfl rfl
    · rw [TurnTransaction.recorded_pushEvent, TurnTransaction.pushEvent_openToolCalls,
        insert_of_not_mem absent]
      exact tracked.toolCalls.start unused rfl rfl (drawn_mono _ _) ⟨_, Nat.lt_succ_self _, rfl⟩
  | endedMessage _ member opens closes toolCall _ =>
    refine ⟨?_, ?_⟩
    · rw [TurnTransaction.recorded_pushEvent]
      exact tracked.messages.finish member opens closes
    · rw [TurnTransaction.recorded_pushEvent]
      exact tracked.toolCalls.plain toolCall.opens toolCall.closes
  | endedToolCall _ member opens closes message _ =>
    refine ⟨?_, ?_⟩
    · rw [TurnTransaction.recorded_pushEvent]
      exact tracked.messages.plain message.opens message.closes
    · rw [TurnTransaction.recorded_pushEvent]
      exact tracked.toolCalls.finish member opens closes

theorem forall₂_map_self {α β : Type} {holds : β → α → Prop} {f : α → β}
    (all : ∀ x, holds (f x) x) (xs : List α) : Forall₂ holds (xs.map f) xs := by
  induction xs with
  | nil => exact .nil
  | cons x xs ih => exact .cons (all x) ih

theorem Tracked.cancelOpenLifecycleEvents (tracked : Tracked supply before) (reason : String) :
    Tracked supply (before.cancelOpenLifecycleEvents supply reason) := by
  obtain ⟨same, recorded⟩ := before.cancelOpenLifecycleEvents_spec supply reason
  refine ⟨?_, ?_⟩
  · rw [recorded, same.openMessages, same.messageIds]
    refine (tracked.messages.finishAll (supply.drain_perm _)
      (forall₂_map_self (fun _ => ⟨rfl, rfl⟩) _)).plains fun event member => ?_
    obtain ⟨toolCallId, -, rfl⟩ := mem_map.mp member
    exact ⟨rfl, rfl⟩
  · rw [recorded, same.openToolCalls, same.toolCallIds]
    refine (tracked.toolCalls.plains fun event member => ?_).finishAll (supply.drain_perm _)
      (forall₂_map_self (fun _ => ⟨rfl, rfl⟩) _)
    obtain ⟨messageId, -, rfl⟩ := mem_map.mp member
    exact ⟨rfl, rfl⟩

theorem Tracked.prepared (tracked : Tracked supply before) (call : Call) :
    Tracked supply (call.prepared supply before) := by
  cases call with
  | commit => exact tracked.pushEvent ⟨rfl, rfl⟩ ⟨rfl, rfl⟩
  | abort reason =>
    exact (tracked.cancelOpenLifecycleEvents reason).pushEvent ⟨rfl, rfl⟩ ⟨rfl, rfl⟩
  | fail =>
    exact ((tracked.cancelOpenLifecycleEvents "failed").pushEvent ⟨rfl, rfl⟩
      ⟨rfl, rfl⟩).pushEvent ⟨rfl, rfl⟩ ⟨rfl, rfl⟩
  | _ => exact tracked

theorem begin_tracked (sessionId operationId : String) (operation : SessionLog.OperationKind) :
    Tracked supply (.beginAdmitted supply sessionId operationId operation) := by
  let empty : TurnTransaction := ⟨sessionId, operationId, supply.nextTurnId, [], [], [], .opened, {},
    forall_mem_nil _⟩
  have nothing : Tracked supply empty := ⟨.nil, .nil⟩
  exact (nothing.pushEvent ⟨rfl, rfl⟩ ⟨rfl, rfl⟩).pushEvent ⟨rfl, rfl⟩ ⟨rfl, rfl⟩

end tracked

/-- Every message and every tool call that the events start ends once after its start. -/
structure Closed (events : List SessionEventEnvelope) : Prop where
  messages : messagePairing.Balanced (events.map SessionEventEnvelope.data)
  toolCalls : toolCallPairing.Balanced (events.map SessionEventEnvelope.data)

def Call.isCommit : Call → Bool
  | .commit .. => true
  | _ => false

section closed

variable {supply : Supply} {turn : Turn} {call : Call} {failure : Option String}

theorem run_tracked (fresh : supply.Fresh) (calls : List Call) (turn : Turn)
    (tracked : turn.transaction.state = .opened → Tracked supply turn.transaction) :
    (turn.run supply calls).transaction.state = .opened →
      Tracked supply (turn.run supply calls).transaction := by
  induction calls generalizing turn with
  | nil => exact tracked
  | cons call calls ih =>
    have stepped : (call.apply supply turn).1.transaction.state = .opened →
        Tracked supply (call.apply supply turn).1.transaction := by
      have applied := call.applied supply turn
      generalize (call.apply supply turn).1 = after at applied
      intro running
      cases applied with
      | recorded _ _ records =>
        have before := records.markers.1.state.symm.trans running
        exact records.tracked fresh (tracked before)
      | failed _ before => exact (tracked before).prepared call
      | written _ _ _ final => exact absurd running final.state
    exact ih _ stepped

theorem Call.apply_succeeds (finalizer : call.finalizer = some failure)
    (success : (call.apply supply turn).2 = .ok ()) :
    turn.transaction.state = .opened ∧
      appendFails failure turn.transaction.sessionId turn.record = false := by
  by_cases running : turn.transaction.state = .opened
  · cases fails : appendFails failure turn.transaction.sessionId turn.record with
    | false => exact ⟨running, rfl⟩
    | true =>
      obtain ⟨error, result⟩ := call.apply_fails supply finalizer running fails
      rw [result] at success
      cases success
  · rw [Call.apply_refused finalizer running] at success
    cases success

theorem Call.prepared_closed (finalizer : call.finalizer = some failure)
    (transaction : TurnTransaction) :
    ((call.prepared supply transaction).openMessages = [] ∧
        (call.prepared supply transaction).openToolCalls = []) ↔
      (call.isCommit = true → transaction.openMessages = [] ∧ transaction.openToolCalls = []) := by
  cases call with
  | commit => exact ⟨fun closed _ => closed, fun closed => closed rfl⟩
  | abort reason =>
    obtain ⟨same, -⟩ := transaction.cancelOpenLifecycleEvents_spec supply reason
    exact iff_of_true ⟨same.openMessages, same.openToolCalls⟩ nofun
  | fail =>
    obtain ⟨same, -⟩ := transaction.cancelOpenLifecycleEvents_spec supply "failed"
    exact iff_of_true ⟨same.openMessages, same.openToolCalls⟩ nofun
  | _ => cases finalizer

/-- The events that a successful finalizer appends close what they start, unless it is a
commit that leaves an item open. -/
theorem appended_closed_iff {sessionId operationId : String} {operation : SessionLog.OperationKind}
    {record : SessionRecord} (fresh : supply.Fresh) (calls : List Call)
    (reached : (Turn.begin supply sessionId operationId operation record).run supply calls = turn)
    (finalizer : call.finalizer = some failure) (success : (call.apply supply turn).2 = .ok ()) :
    Closed ((call.apply supply turn).1.record.events.drop turn.record.events.length) ↔
      (call.isCommit = true →
        turn.transaction.openMessages = [] ∧ turn.transaction.openToolCalls = []) := by
  obtain ⟨running, writes⟩ := call.apply_succeeds finalizer success
  have final := call.apply_writes supply finalizer running writes
  have tracked : Tracked supply turn.transaction := by
    have begun := run_tracked fresh calls (.begin supply sessionId operationId operation record)
      fun _ => begin_tracked sessionId operationId operation
    rw [reached] at begun
    exact begun running
  have closing := tracked.prepared call
  rw [final.events, drop_left, ← call.prepared_closed finalizer,
    ← closing.messages.balanced_iff, ← closing.toolCalls.balanced_iff]
  have data : (stampEvents (nextAfter turn.record.events)
      (call.prepared supply turn.transaction).pendingEvents).map SessionEventEnvelope.data =
      (call.prepared supply turn.transaction).recorded :=
    stampEvents_map (fun _ _ => rfl) _ _
  constructor
  · rintro ⟨messages, toolCalls⟩
    rw [data] at messages toolCalls
    exact ⟨messages, toolCalls⟩
  · rintro ⟨messages, toolCalls⟩
    rw [← data] at messages toolCalls
    exact ⟨messages, toolCalls⟩

end closed

theorem sampleSupply_fresh : sampleSupply.Fresh := by
  have counted : Function.Injective strokes := by
    intro one other same
    have lengths := congrArg (fun text => text.toList.length) same
    simpa [strokes] using lengths
  exact ⟨counted, counted⟩

/-- A message that is open when its operation commits never ends. -/
theorem commit_leaves_message_open :
    ∃ after, Call.apply sampleSupply (.commit none none none)
        (sampleTurn.run sampleSupply [.startAssistantMessage]) = (after, .ok ()) ∧
      ¬ Closed after.record.events := by
  refine ⟨_, rfl, fun closed => ?_⟩
  have once := closed.messages [.operationStarted .prompt, .turnStarted] (.messageStarted "")
    [.operationCommitted none] "" rfl rfl
  exact absurd once (by decide)

/-- An abort closes the same message. -/
theorem abort_closes_message :
    Closed ((Call.apply sampleSupply (.abort "stop" none)
      (sampleTurn.run sampleSupply [.startAssistantMessage])).1.record.events.drop
        (sampleTurn.run sampleSupply [.startAssistantMessage]).record.events.length) := by
  have reached : (Turn.begin sampleSupply "sess" "op" .prompt sampleRecord).run sampleSupply
      [.startAssistantMessage] = sampleTurn.run sampleSupply [.startAssistantMessage] := rfl
  have success : (Call.apply sampleSupply (.abort "stop" none)
      (sampleTurn.run sampleSupply [.startAssistantMessage])).2 = .ok () := rfl
  exact (appended_closed_iff sampleSupply_fresh _ reached rfl success).mpr nofun

end PiRust.SessionTransaction
