import PiRust.AgentRun

namespace PiRust.Conversation

open AgentTurn AgentRun List

/-- Every tool call of the conversation is answered exactly once before the next
message that is no tool result. -/
abbrev Answered (messages : List AgentMessage) : Prop :=
  Dialogue.Answered AgentMessage.callIds AgentMessage.answers? messages

/-- The same of the messages of a provider request. -/
abbrev RequestAnswered (messages : List Message) : Prop :=
  Dialogue.Answered Message.callIds Message.answers? messages

/-- Calls and results pair up, here and in the request. -/
structure WellFormed (messages : List AgentMessage) : Prop where
  answered : Answered messages
  request : RequestAnswered (defaultConvertToLlm messages)

/-- What `steer` and `follow_up` put into a queue. -/
def IsUserText (message : AgentMessage) : Prop :=
  ∃ messageId text, message = .userText messageId text

/-- The calls of a provider message that the tool node will answer: distinct calls
under stop reason `ToolUse`, no calls under any other. -/
def Answerable (message : AssistantMessage) : Prop :=
  if message.stopReason = .toolUse then message.callIds.Nodup else message.callIds = []

theorem Answerable.nodup {message : AssistantMessage} (answerable : Answerable message) :
    message.callIds.Nodup := by
  unfold Answerable at answerable
  split at answerable
  · exact answerable
  · rw [answerable]
    exact nodup_nil

theorem Answerable.silent {message : AssistantMessage} (answerable : Answerable message)
    (other : message.stopReason ≠ .toolUse) : message.callIds = [] := by
  unfold Answerable at answerable
  rwa [if_neg other] at answerable

theorem convert_texts {texts : List AgentMessage} (plain : ∀ message ∈ texts, IsUserText message) :
    ∀ message ∈ defaultConvertToLlm texts, message.callIds = [] ∧ message.answers? = none := by
  intro message inside
  obtain ⟨source, member, converted⟩ := mem_filterMap.mp inside
  obtain ⟨messageId, text, rfl⟩ := plain source member
  cases converted
  exact ⟨rfl, rfl⟩

theorem opens_of_silent {μ ι : Type} {answers : μ → Option ι} {messages : List μ}
    (silent : ∀ message ∈ messages, answers message = none) : Dialogue.Opens answers messages := by
  intro message first
  exact silent message (mem_of_mem_head? first)

variable {state : AgentState} {ctx : AgentTurnContext} {answers : Answers}
  {messages : List AgentMessage} {awaiting : Prop} {after world : World}

theorem WellFormed.append_texts {texts : List AgentMessage} (wellFormed : WellFormed messages)
    (plain : ∀ message ∈ texts, IsUserText message) :
    WellFormed (messages ++ texts) := by
  have quiet : ∀ message ∈ texts, message.callIds = [] ∧ message.answers? = none := by
    intro message inside
    obtain ⟨messageId, text, rfl⟩ := plain message inside
    exact ⟨rfl, rfl⟩
  have converted := convert_texts plain
  constructor
  · apply (Dialogue.answered_append messages texts (opens_of_silent fun m i => (quiet m i).2)).mpr
    exact ⟨wellFormed.answered, Dialogue.answered_silent fun m i => (quiet m i).1⟩
  · rw [defaultConvertToLlm_append]
    apply (Dialogue.answered_append _ _ (opens_of_silent fun m i => (converted m i).2)).mpr
    exact ⟨wellFormed.request, Dialogue.answered_silent fun m i => (converted m i).1⟩

theorem WellFormed.append_round {assistant : AssistantMessage}
    {executions : List ToolCallExecution} (wellFormed : WellFormed messages)
    (distinct : assistant.callIds.Nodup)
    (answers : (executions.map ToolCallExecution.toolCallId).Perm assistant.callIds) :
    WellFormed (messages ++ assistantEntry assistant :: executions.map resultMessage) := by
  have converted : defaultConvertToLlm (assistantEntry assistant :: executions.map resultMessage) =
      .assistant assistant.content :: executions.map fun execution =>
        .toolResult execution.toolCallId (some execution.toolName) (some execution.result.isError)
          execution.result.content := by
    induction executions with
    | nil => rfl
    | cons execution rest _ => simp [defaultConvertToLlm, convertMessage, resultMessage,
        assistantEntry, filterMap_map, Function.comp_def]
  constructor
  · apply (Dialogue.answered_append _ _ (by simp [assistantEntry, AgentMessage.answers?])).mpr
    refine ⟨wellFormed.answered, Dialogue.answered_round distinct answers ?_ ?_⟩
    · simp [map_map, Function.comp_def, resultMessage, AgentMessage.answers?]
    · simp [resultMessage, AgentMessage.callIds]
  · rw [defaultConvertToLlm_append, converted]
    apply (Dialogue.answered_append _ _ (by simp [Message.answers?])).mpr
    refine ⟨wellFormed.request, Dialogue.answered_round distinct answers ?_ ?_⟩
    · simp [map_map, Function.comp_def, Message.answers?]
    · simp [Message.callIds]

theorem WellFormed.append_silent {assistant : AssistantMessage} (wellFormed : WellFormed messages)
    (silent : assistant.callIds = []) :
    WellFormed (messages ++ [assistantEntry assistant]) := by
  have round := @WellFormed.append_round messages assistant [] wellFormed
  simpa [silent] using round

theorem filterMap_zipIdx_ids {pending : ContentBlock × Nat → Option PendingToolCall}
    (reads : ∀ block index,
      (pending (block, index)).map PendingToolCall.id = ContentBlock.callId? block)
    (content : List ContentBlock) (start : Nat) :
    ((content.zipIdx start).filterMap pending).map PendingToolCall.id =
      content.filterMap ContentBlock.callId? := by
  induction content generalizing start with
  | nil => rfl
  | cons block rest ih =>
    have later := ih (start + 1)
    rw [map_filterMap] at later ⊢
    rw [zipIdx_cons, filterMap_cons, filterMap_cons, later, reads]

theorem extractToolCalls_ids (assistant : AssistantMessage) :
    (extractToolCalls assistant).map PendingToolCall.id = assistant.callIds := by
  apply filterMap_zipIdx_ids
  intro block index
  cases block <;> rfl

theorem sortByIndex_perm (executions : List ToolCallExecution) :
    (sortByIndex executions).Perm executions :=
  perm_insertionSort _ executions

theorem executeTools_messages (answers : Answers) (ctx : AgentTurnContext) :
    ∃ executions : List ToolCallExecution,
      (executeTools answers ctx).2.messages = ctx.messages ++ executions.map resultMessage ∧
        (executions.map ToolCallExecution.toolCallId).Perm
          (ctx.pendingToolCalls.map PendingToolCall.id) := by
  unfold executeTools
  cases pending : ctx.pendingToolCalls with
  | nil => exact ⟨[], by simp⟩
  | cons call rest =>
    simp only [isEmpty_cons, Bool.false_eq_true, ↓reduceIte, executeSequential_eq,
      collectParallelToolExecutions_eq]
    refine ⟨_, rfl, ?_⟩
    rw [← pending]
    have ids : ∀ calls : List PendingToolCall, ∀ inner : AgentTurnContext,
        (calls.map (executeCall answers inner)).map ToolCallExecution.toolCallId =
          calls.map PendingToolCall.id := by
      intro calls inner
      rw [map_map]
      rfl
    rw [← ids ctx.pendingToolCalls
      { ctx with toolResultsAllTerminate := false, pendingToolCalls := [] }]
    apply Perm.map
    apply (sortByIndex_perm _).trans
    split
    · exact Perm.refl _
    · exact (sortByIndex_perm _).trans (answers.finishOrder_perm _)

/-- No hook replaces the messages. -/
structure KeepsMessages (answers : Answers) (ctx : AgentTurnContext) : Prop where
  transformContext : ∀ messages, answers.transformContext = some (.ok messages) →
    messages = ctx.messages
  convertToLlm : ∀ messages, answers.convertToLlm = some (.ok messages) →
    messages = defaultConvertToLlm ctx.messages
  beforeProviderRequest : ∀ result context request,
    answers.beforeProviderRequest = some (.ok (some result)) → result.context = some context →
    ctx.providerRequest = some request → context.messages = request.context.messages
  prepareNextTurn : ∀ update messages, answers.prepareNextTurn = some (.ok (some update)) →
    update.messages = some messages → messages = ctx.messages

def AwaitsResults (ctx : AgentTurnContext) : Prop :=
  ∃ messages assistant, WellFormed messages ∧ assistant.callIds.Nodup ∧
    ctx.messages = messages ++ [assistantEntry assistant] ∧
    ctx.pendingToolCalls.map PendingToolCall.id = assistant.callIds

/-- What holds of the private context of a turn; `awaiting` between the decision
for tools and the tool node. -/
structure TurnOk (awaiting : Prop) (ctx : AgentTurnContext) : Prop where
  texts : ∀ message ∈ ctx.steeringQueue ++ ctx.followUpQueue, IsUserText message
  uncompacted : ctx.config.compaction = none
  request : ∀ request, ctx.providerRequest = some request → RequestAnswered request.context.messages
  reply : ∀ message, ctx.assistantMessage = some message → Answerable message
  settled : ¬ awaiting → WellFormed ctx.messages
  pending : awaiting → AwaitsResults ctx

theorem TurnOk.same {other : AgentTurnContext} (ok : TurnOk awaiting ctx)
    (same : (other.toMailbox, other.config.compaction, other.providerRequest,
      other.assistantMessage, other.pendingToolCalls) = (ctx.toMailbox, ctx.config.compaction,
      ctx.providerRequest, ctx.assistantMessage, ctx.pendingToolCalls)) : TurnOk awaiting other := by
  simp only [Prod.mk.injEq] at same
  obtain ⟨mailbox, compaction, request, reply, pending⟩ := same
  exact
    { texts := mailbox ▸ ok.texts
      uncompacted := compaction.trans ok.uncompacted
      request := request ▸ ok.request
      reply := reply ▸ ok.reply
      settled := by
        rw [mailbox]
        exact ok.settled
      pending := by
        unfold AwaitsResults
        rw [mailbox, pending]
        exact ok.pending }

theorem startTurn_ok (ok : TurnOk False ctx) (cancelled : Bool) :
    TurnOk False (startTurn cancelled ctx).2 := by
  simp only [startTurn]
  split
  · exact ok.same rfl
  · split
    · exact ok.same rfl
    · exact ok.same rfl

theorem drainQueuedInput_ok (ok : TurnOk False ctx) : TurnOk False (drainQueuedInput ctx).2 := by
  have parts := drainQueue_append ctx.config.steeringMode ctx.steeringQueue
  have member : ∀ message ∈ (drainQueue ctx.config.steeringMode ctx.steeringQueue).1 ++
      (drainQueue ctx.config.steeringMode ctx.steeringQueue).2, IsUserText message := by
    intro message inside
    rw [parts] at inside
    exact ok.texts message (mem_append_left _ inside)
  refine ⟨?_, ok.uncompacted, ok.request, ok.reply, ?_, False.elim⟩
  · intro message inside
    rcases mem_append.mp inside with steered | later
    · exact member message (mem_append_right _ steered)
    · exact ok.texts message (mem_append_right _ later)
  · intro settled
    apply (ok.settled settled).append_texts
    intro message inside
    exact member message (mem_append_left _ inside)

theorem deliverFollowUps_ok {other : AgentTurnContext} (ok : TurnOk False ctx) (mode : QueueMode)
    (mailbox : other.toMailbox = ctx.toMailbox.deliverFollowUps mode)
    (compaction : other.config.compaction = ctx.config.compaction)
    (request : other.providerRequest = ctx.providerRequest)
    (reply : other.assistantMessage = ctx.assistantMessage) : TurnOk False other := by
  have parts := drainQueue_append mode ctx.followUpQueue
  have member : ∀ message ∈ (drainQueue mode ctx.followUpQueue).1 ++
      (drainQueue mode ctx.followUpQueue).2, IsUserText message := by
    intro message inside
    rw [parts] at inside
    exact ok.texts message (mem_append_right _ inside)
  refine ⟨?_, compaction.trans ok.uncompacted, request ▸ ok.request, reply ▸ ok.reply, ?_,
    False.elim⟩
  · rw [mailbox]
    intro message inside
    rcases mem_append.mp inside with steered | later
    · exact ok.texts message (mem_append_left _ steered)
    · exact member message (mem_append_right _ later)
  · intro settled
    rw [mailbox]
    apply (ok.settled settled).append_texts
    intro message inside
    exact member message (mem_append_left _ inside)

theorem contextFor_messages (keeps : KeepsMessages answers ctx) :
    (contextFor ctx (answers.transformContext.bind Except.toOption)
      (answers.convertToLlm.bind Except.toOption)).messages = defaultConvertToLlm ctx.messages := by
  have transformed : (answers.transformContext.bind Except.toOption).getD ctx.messages =
      ctx.messages := by
    cases hook : answers.transformContext with
    | none => rfl
    | some outcome =>
      cases outcome with
      | error => rfl
      | ok messages => exact keeps.transformContext messages hook
  unfold contextFor
  rw [transformed]
  cases hook : answers.convertToLlm with
  | none =>
    simp only [Option.bind_none]
    split <;> rfl
  | some outcome =>
    cases outcome with
    | error =>
      simp only [Option.bind_some, Except.toOption]
      split <;> rfl
    | ok messages => exact keeps.convertToLlm messages hook

theorem prepareProviderRequest_ok (ok : TurnOk False ctx) (keeps : KeepsMessages answers ctx)
    (override : ∀ context, state.providerRequestOverride = some context →
      RequestAnswered context.messages) :
    TurnOk False (prepareProviderRequest answers ctx state).1.2 := by
  unfold prepareProviderRequest
  split
  · exact ok.same rfl
  · exact ok.same rfl
  · refine ⟨ok.texts, ok.uncompacted, ?_, ok.reply, ok.settled, False.elim⟩
    intro request same
    obtain rfl := Option.some.inj same
    cases taken : state.providerRequestOverride with
    | some context =>
      simp only [AgentTurnContext.takeProviderRequestOverride, taken, Option.getD_some]
      exact override context taken
    | none =>
      simp only [AgentTurnContext.takeProviderRequestOverride, taken, Option.getD_none,
        contextFor_messages keeps]
      exact (ok.settled not_false).request

theorem applyBeforeProviderRequestHook_ok (ok : TurnOk False ctx)
    (keeps : KeepsMessages answers ctx) :
    TurnOk False (applyBeforeProviderRequestHook answers ctx).2 := by
  cases prepared : ctx.providerRequest with
  | none =>
    simp only [applyBeforeProviderRequestHook, prepared]
    exact ok.same rfl
  | some request =>
    have base := ok.request request prepared
    simp only [applyBeforeProviderRequestHook, prepared]
    split
    · exact ok.same rfl
    · refine ⟨ok.texts, ok.uncompacted, ?_, ok.reply, ok.settled, False.elim⟩
      intro sent same
      obtain rfl := Option.some.inj same
      cases hook : answers.beforeProviderRequest with
      | none => exact base
      | some outcome =>
        cases outcome with
        | error => exact base
        | ok result =>
          cases result with
          | none => exact base
          | some update =>
            cases context : update.context with
            | none => simpa [Except.toOption, context] using base
            | some replaced =>
              have same := keeps.beforeProviderRequest update replaced request hook context prepared
              simpa [Except.toOption, context, same] using base

theorem streamProvider_ok (ok : TurnOk False ctx)
    (answerable : ∀ message, (readStream answers.llmEvents).2.1 = some message →
      Answerable message) :
    TurnOk False (streamProvider answers ctx).2 := by
  cases prepared : ctx.providerRequest with
  | none => simpa only [streamProvider, prepared] using ok
  | some request =>
    cases delivered : (readStream answers.llmEvents).2.1 with
    | none =>
      simp only [streamProvider, prepared, delivered]
      exact ok.same rfl
    | some message =>
      simp only [streamProvider, prepared, delivered]
      refine ⟨ok.texts, ok.uncompacted, ok.request, ?_, ok.settled, False.elim⟩
      intro reply same
      obtain rfl := Option.some.inj same
      exact answerable message delivered

theorem decideAfterAssistant_ok (ok : TurnOk False ctx) :
    TurnOk ((decideAfterAssistant ctx).1 = .ok .tools) (decideAfterAssistant ctx).2 := by
  simp only [decideAfterAssistant]
  split
  · exact ⟨ok.texts, ok.uncompacted, ok.request, ok.reply, fun _ => ok.settled not_false, nofun⟩
  · rename_i assistant reply
    have answerable := ok.reply assistant reply
    have settled := ok.settled not_false
    cases stop : assistant.stopReason with
    | toolUse =>
      refine ⟨ok.texts, ok.uncompacted, ok.request, ok.reply, fun other => absurd rfl other, ?_⟩
      intro tools
      exact ⟨ctx.messages, assistant, settled, answerable.nodup, rfl,
        extractToolCalls_ids assistant⟩
    | stop | length | error | aborted =>
      refine ⟨ok.texts, ok.uncompacted, ok.request, ok.reply, fun _ => ?_, nofun⟩
      exact settled.append_silent (answerable.silent (by rw [stop]; nofun))

theorem executeTools_frame (answers : Answers) (ctx : AgentTurnContext) :
    (executeTools answers ctx).2.steeringQueue = ctx.steeringQueue ∧
      (executeTools answers ctx).2.followUpQueue = ctx.followUpQueue ∧
      (executeTools answers ctx).2.config = ctx.config ∧
      (executeTools answers ctx).2.providerRequest = ctx.providerRequest ∧
      (executeTools answers ctx).2.assistantMessage = ctx.assistantMessage := by
  simp only [executeTools]
  split <;> exact ⟨rfl, rfl, rfl, rfl, rfl⟩

theorem executeTools_ok (ok : TurnOk True ctx) : TurnOk False (executeTools answers ctx).2 := by
  obtain ⟨executions, messages, ids⟩ := executeTools_messages answers ctx
  obtain ⟨base, assistant, settled, distinct, current, pending⟩ := ok.pending trivial
  obtain ⟨steering, followUp, config, request, reply⟩ := executeTools_frame answers ctx
  refine ⟨?_, config ▸ ok.uncompacted, request ▸ ok.request, reply ▸ ok.reply, fun _ => ?_,
    False.elim⟩
  · rw [steering, followUp]
    exact ok.texts
  · rw [messages, current, append_assoc, singleton_append]
    exact settled.append_round distinct (pending ▸ ids)

theorem shouldStopAfterTurn_ok (ok : TurnOk False ctx) (answers : Answers) :
    TurnOk False (shouldStopAfterTurn answers ctx).2 := by
  unfold shouldStopAfterTurn
  split
  · exact ok
  · exact ok
  · exact ok.same rfl

theorem shouldStopAfterTurn_messages (answers : Answers) (ctx : AgentTurnContext) :
    (shouldStopAfterTurn answers ctx).2.messages = ctx.messages := by
  unfold shouldStopAfterTurn
  split <;> rfl

theorem prepareNextTurnOrError_ok (ok : TurnOk False ctx)
    (keeps : ∀ update messages, answers.prepareNextTurn = some (.ok (some update)) →
      update.messages = some messages → messages = ctx.messages) :
    TurnOk False (prepareNextTurnOrError answers ctx).2 := by
  unfold prepareNextTurnOrError
  split
  · exact ok
  · exact ok
  · rename_i update hook
    have same : update.messages.getD ctx.messages = ctx.messages := by
      cases messages : update.messages with
      | none => rfl
      | some replaced => exact keeps update replaced hook messages
    rw [same]
    exact ok.same rfl
  · exact ok.same rfl

theorem finishTurn_ok (ok : TurnOk False ctx) (assistant : AssistantMessage) :
    TurnOk False (finishTurn assistant ctx).2 :=
  ok.same rfl

theorem maybePrepareNextTurn_ok (ok : TurnOk False ctx) (keeps : KeepsMessages answers ctx) :
    TurnOk False (maybePrepareNextTurn answers ctx).2 := by
  have stopOk := shouldStopAfterTurn_ok ok answers
  have nextOk : TurnOk False (prepareNextTurnOrError answers (shouldStopAfterTurn answers ctx).2).2 := by
    apply prepareNextTurnOrError_ok stopOk
    rw [shouldStopAfterTurn_messages]
    exact keeps.prepareNextTurn
  unfold maybePrepareNextTurn
  rcases stop : shouldStopAfterTurn answers ctx with ⟨verdict, stopped⟩
  simp only [stop] at stopOk nextOk
  rcases next : prepareNextTurnOrError answers stopped with ⟨early, prepared⟩
  simp only [next] at nextOk
  split
  · exact ok
  · rename_i assistant _
    cases assistant.stopReason with
    | stop | length =>
      rcases verdict with _ | _ | _
      · exact stopOk
      · rcases early with _ | action
        · simp only [next]
          split
          · exact deliverFollowUps_ok nextOk _ rfl rfl rfl rfl
          · exact finishTurn_ok nextOk assistant
        · simpa only [next] using nextOk
      · exact finishTurn_ok stopOk assistant
    | toolUse =>
      rcases verdict with _ | _ | _
      · exact stopOk
      · simp only
        split
        · exact finishTurn_ok stopOk assistant
        · rcases early with _ | action
          · simp only [next]
            exact nextOk.same rfl
          · simpa only [next] using nextOk
      · exact finishTurn_ok stopOk assistant
    | error | aborted => exact ok.same rfl

theorem TurnOk.of_iff {before after : Prop} (same : before ↔ after) (ok : TurnOk before ctx) :
    TurnOk after ctx :=
  propext same ▸ ok

theorem runNode_ok (serde : Serde) {node : NodeId} (ok : TurnOk (node = .executeTools) ctx)
    (keeps : KeepsMessages answers ctx)
    (answerable : node = .providerStream → ∀ message,
      (readStream answers.llmEvents).2.1 = some message → Answerable message)
    (override : node = .prepareProviderRequest → ∀ context,
      state.providerRequestOverride = some context → RequestAnswered context.messages) :
    TurnOk (node = .decideAfterAssistant ∧ (runNode serde node answers ctx state).1.1 = .ok .tools)
      (runNode serde node answers ctx state).1.2 := by
  cases node with
  | executeTools => exact (executeTools_ok (ok.of_iff (by simp))).of_iff (by simp)
  | decideAfterAssistant =>
    exact (decideAfterAssistant_ok (ok.of_iff (by simp))).of_iff (by simp [runNode])
  | startTurn => exact (startTurn_ok (ok.of_iff (by simp)) _).of_iff (by simp)
  | drainQueuedInput => exact (drainQueuedInput_ok (ok.of_iff (by simp))).of_iff (by simp)
  | maybeCompactRuntimeContext =>
    have plain := ok.uncompacted
    simp only [runNode, Compaction.maybeCompactRuntimeContext, plain]
    exact ok.of_iff (by simp)
  | prepareProviderRequest =>
    exact (prepareProviderRequest_ok (ok.of_iff (by simp)) keeps (override rfl)).of_iff (by simp)
  | applyBeforeProviderRequestHook =>
    exact (applyBeforeProviderRequestHook_ok (ok.of_iff (by simp)) keeps).of_iff (by simp)
  | providerStream =>
    exact (streamProvider_ok (ok.of_iff (by simp)) (answerable rfl)).of_iff (by simp)
  | maybePrepareNextTurn =>
    exact (maybePrepareNextTurn_ok (ok.of_iff (by simp)) keeps).of_iff (by simp)

theorem runNode_state (serde : Serde) (node : NodeId) (answers : Answers) (ctx : AgentTurnContext)
    (state : AgentState) :
    (runNode serde node answers ctx state).2.toMailbox = state.toMailbox ∧
      (runNode serde node answers ctx state).2.config = state.config := by
  cases node with
  | prepareProviderRequest =>
    simp only [runNode, prepareProviderRequest]
    split <;> exact ⟨rfl, rfl⟩
  | _ => exact ⟨rfl, rfl⟩

/-- The invariant of a run. -/
structure Inv (world : World) : Prop where
  stored : WellFormed world.state.messages
  queued : ∀ message ∈ world.state.steeringQueue ++ world.state.followUpQueue, IsUserText message
  uncompacted : world.state.config.compaction = none
  turn : match world.phase with
    | .idle | .turnStart _ => True
    | .between ctx cursor | .inside ctx cursor =>
      TurnOk (cursor.current = .executeTools) ctx ∧ cursor.steps ≤ cursor.current.depth
    | .finished ctx _ => TurnOk False ctx

/-- No hook rewrites the messages. -/
def HooksKeepMessages : Label → World → Prop
  | .runNode answers, ⟨_, .inside ctx _⟩ => KeepsMessages answers ctx
  | _, _ => True

/-- The calls of this step will be answered: the provider delivers an answerable
message, a request that replaces the prepared one is answered in itself, and the
run is not cancelled between the decision for tools and the tool node. -/
def CallsAnswerable : Label → World → Prop
  | .runNode answers, ⟨state, .inside _ cursor⟩ =>
    (cursor.current = .providerStream → ∀ message,
      (readStream answers.llmEvents).2.1 = some message → Answerable message) ∧
    (cursor.current = .prepareProviderRequest → ∀ context,
      state.providerRequestOverride = some context → RequestAnswered context.messages)
  | .enter, ⟨state, .between ctx cursor⟩ =>
    cursor.current = .executeTools → ctx.pendingToolCalls ≠ [] → state.cancelled = false
  | _, _ => True

theorem snapshot_inv (inv : Inv world) (taken : snapshot world = some after) : Inv after := by
  obtain ⟨state, phase⟩ := world
  cases phase with
  | turnStart turn =>
    have fresh : TurnOk False (AgentTurnContext.fromState state turn).1 :=
      ⟨inv.queued, inv.uncompacted, nofun,
        nofun, fun _ => inv.stored, False.elim⟩
    simp only [snapshot] at taken
    cases begun : agentTurnFlow.begin (AgentTurnContext.fromState state turn).2.cancelled with
    | error error =>
      simp only [begun, Option.some.injEq] at taken
      subst taken
      exact ⟨inv.stored, forall_mem_nil _, inv.uncompacted, fresh⟩
    | ok cursor =>
      simp only [begun, Option.some.injEq] at taken
      subst taken
      have start : cursor = ⟨.startTurn, 0, []⟩ := by
        unfold Flow.begin at begun
        split at begun
        · cases begun
        · split at begun <;> cases begun
          rfl
      subst start
      exact ⟨inv.stored, forall_mem_nil _, inv.uncompacted,
        fresh.of_iff (by simp), Nat.zero_le _⟩
  | _ => cases taken

theorem TurnOk.settle (ok : TurnOk awaiting ctx) (none : awaiting → ctx.pendingToolCalls = []) :
    TurnOk False ctx := by
  refine ⟨ok.texts, ok.uncompacted, ok.request, ok.reply, fun _ => ?_, False.elim⟩
  by_cases waits : awaiting
  · obtain ⟨messages, assistant, settled, _, current, pending⟩ := ok.pending waits
    rw [none waits, map_nil] at pending
    rw [current]
    exact settled.append_silent pending.symm
  · exact ok.settled waits

theorem syncLiveQueues_ok (ok : TurnOk awaiting ctx)
    (queued : ∀ message ∈ state.steeringQueue ++ state.followUpQueue, IsUserText message) :
    TurnOk awaiting (ctx.syncLiveQueues state).1 := by
  refine ⟨?_, ok.uncompacted, ok.request, ok.reply, ok.settled, ok.pending⟩
  intro message inside
  simp only [AgentTurnContext.syncLiveQueues, Mailbox.syncLiveQueues, mem_append] at inside
  rcases inside with (own | shared) | (own | shared)
  · exact ok.texts message (mem_append_left _ own)
  · exact queued message (mem_append_left _ shared)
  · exact ok.texts message (mem_append_right _ own)
  · exact queued message (mem_append_right _ shared)

theorem enter_inv (inv : Inv world) (answerable : CallsAnswerable .enter world)
    (taken : enter world = some after) : Inv after := by
  obtain ⟨state, phase⟩ := world
  cases phase with
  | between ctx cursor =>
    obtain ⟨ok, bounded⟩ := inv.turn
    have short : ¬ runOptions.maxSteps ≤ cursor.steps := by
      have deepest : cursor.current.depth ≤ 8 := by cases cursor.current <;> decide
      show ¬ 1024 ≤ cursor.steps
      omega
    cases cancelled : state.cancelled with
    | true =>
      simp only [enter, Flow.enter, cancelled, ↓reduceIte, Option.some.injEq] at taken
      subst taken
      refine ⟨inv.stored, inv.queued, inv.uncompacted, ok.settle fun tools => ?_⟩
      by_contra pending
      have running : state.cancelled = false := answerable tools pending
      rw [cancelled] at running
      cases running
    | false =>
      simp only [enter, Flow.enter, cancelled, Bool.false_eq_true, ↓reduceIte, short,
        agentTurnFlow_node?, Option.some.injEq] at taken
      subst taken
      unfold nodeHead
      split
      · exact ⟨inv.stored, forall_mem_nil _, inv.uncompacted,
          syncLiveQueues_ok ok inv.queued, bounded⟩
      · exact ⟨inv.stored, inv.queued, inv.uncompacted, ok, bounded⟩
  | _ => cases taken

theorem finishNode_inv (serde : Serde) (inv : Inv world)
    (keeps : HooksKeepMessages (.runNode answers) world)
    (answerable : CallsAnswerable (.runNode answers) world)
    (taken : finishNode serde answers world = some after) : Inv after := by
  obtain ⟨state, phase⟩ := world
  cases phase with
  | inside ctx cursor =>
    obtain ⟨ok, bounded⟩ := inv.turn
    obtain ⟨sameMailbox, sameConfig⟩ := runNode_state serde cursor.current answers ctx state
    have ran := runNode_ok serde ok keeps answerable.1 answerable.2
    have stored : WellFormed (runNode serde cursor.current answers ctx state).2.messages := by
      rw [sameMailbox]
      exact inv.stored
    have queued : ∀ message ∈ (runNode serde cursor.current answers ctx state).2.steeringQueue ++
        (runNode serde cursor.current answers ctx state).2.followUpQueue, IsUserText message := by
      rw [sameMailbox]
      exact inv.queued
    have uncompacted :
        (runNode serde cursor.current answers ctx state).2.config.compaction = none := by
      rw [sameConfig]
      exact inv.uncompacted
    simp only [finishNode] at taken
    cases left : agentTurnFlow.leave runOptions cursor
        (runNode serde cursor.current answers ctx state).1.1 with
    | inl next =>
      obtain ⟨action, result, target, steps⟩ := Flow.leave_next left
      have deeper := agentTurnFlow_deepens target
      simp only [left, Option.some.injEq] at taken
      subst taken
      refine ⟨stored, queued, uncompacted, ran.of_iff ?_, by omega⟩
      constructor
      · rintro ⟨decided, tools⟩
        rw [result, Except.ok.injEq] at tools
        rw [decided, tools] at target
        exact (Option.some.inj target).symm
      · intro tools
        rw [tools] at target
        obtain ⟨decided, chosen⟩ := agentTurnFlow_tools target
        exact ⟨decided, by rw [result, chosen]⟩
    | inr outcome =>
      simp only [left, Option.some.injEq] at taken
      subst taken
      refine ⟨stored, queued, uncompacted, ran.of_iff ?_⟩
      simp only [iff_false, not_and]
      intro decided tools
      have stuck := Flow.leave_end left tools
      rw [decided] at stuck
      cases stuck
  | _ => cases taken

theorem apply_inv (inv : Inv world) (taken : apply world = some after) : Inv after := by
  obtain ⟨state, phase⟩ := world
  cases phase with
  | finished ctx outcome =>
    have ok : TurnOk False ctx := inv.turn
    have queued : ∀ message ∈ (ctx.applyToState state).steeringQueue ++
        (ctx.applyToState state).followUpQueue, IsUserText message := by
      intro message inside
      simp only [AgentTurnContext.applyToState, Mailbox.applyToState, mem_append] at inside
      rcases inside with (own | shared) | (own | shared)
      · exact ok.texts message (mem_append_left _ own)
      · exact inv.queued message (mem_append_left _ shared)
      · exact ok.texts message (mem_append_right _ own)
      · exact inv.queued message (mem_append_right _ shared)
    simp only [apply] at taken
    have stored := ok.settled not_false
    cases outcome with
    | error error =>
      cases taken
      exact ⟨stored, queued, inv.uncompacted, trivial⟩
    | ok outcome =>
      simp only at taken
      split at taken <;> cases taken <;>
        exact ⟨stored, queued, inv.uncompacted, trivial⟩
  | _ => cases taken

theorem prompt_inv {text : String} (inv : Inv world) (taken : prompt text world = some after) :
    Inv after := by
  obtain ⟨state, phase⟩ := world
  cases phase with
  | idle =>
    cases taken
    refine ⟨inv.stored.append_texts ?_, inv.queued, inv.uncompacted, trivial⟩
    intro message inside
    exact ⟨_, _, mem_singleton.mp inside⟩
  | _ => cases taken

theorem run_inv (inv : Inv world) (taken : run world = some after) : Inv after := by
  obtain ⟨state, phase⟩ := world
  unfold run at taken
  split at taken
  · split at taken
    · cases taken
    · cases taken
      exact ⟨inv.stored, inv.queued, inv.uncompacted, trivial⟩
  · cases taken

theorem withMailbox_inv {mailbox : Mailbox AgentMessage} (inv : Inv world)
    (messages : mailbox.messages = world.state.messages)
    (queued : ∀ message ∈ mailbox.steeringQueue ++ mailbox.followUpQueue, IsUserText message) :
    Inv (withMailbox world mailbox) :=
  ⟨by rw [withMailbox, messages]; exact inv.stored, queued, inv.uncompacted, inv.turn⟩

theorem step_inv (serde : Serde) {label : Label} (inv : Inv world)
    (keeps : HooksKeepMessages label world) (answerable : CallsAnswerable label world)
    (taken : step serde label world = some after) : Inv after := by
  have steering : ∀ message ∈ world.state.steeringQueue, IsUserText message :=
    fun message inside => inv.queued message (mem_append_left _ inside)
  have followUp : ∀ message ∈ world.state.followUpQueue, IsUserText message :=
    fun message inside => inv.queued message (mem_append_right _ inside)
  cases label with
  | prompt text => exact prompt_inv inv taken
  | run => exact run_inv inv taken
  | snapshot => exact snapshot_inv inv taken
  | enter => exact enter_inv inv answerable taken
  | runNode answers => exact finishNode_inv serde inv keeps answerable taken
  | apply => exact apply_inv inv taken
  | abort =>
    cases taken
    exact ⟨inv.stored, inv.queued, inv.uncompacted, inv.turn⟩
  | steer count text =>
    cases taken
    apply withMailbox_inv inv (by rfl)
    intro message inside
    simp only [Mailbox.steer, mem_append, mem_singleton] at inside
    rcases inside with (old | new) | other
    · exact steering message old
    · exact ⟨_, _, new⟩
    · exact followUp message other
  | followUp count text =>
    cases taken
    apply withMailbox_inv inv (by rfl)
    intro message inside
    simp only [Mailbox.followUp, mem_append, mem_singleton] at inside
    rcases inside with other | old | new
    · exact steering message other
    · exact followUp message old
    · exact ⟨_, _, new⟩
  | drainSteeringQueue =>
    cases taken
    exact withMailbox_inv inv rfl followUp
  | drainFollowUpQueue =>
    cases taken
    apply withMailbox_inv inv (by rfl)
    intro message inside
    simp only [Mailbox.drainFollowUpQueue, append_nil] at inside
    exact steering message inside

/-- In a run whose steps leave no call open the conversation and every prepared
request stay answered, whatever the provider, the tools, the callers and the moment
of a cancellation. -/
theorem run_answered (serde : Serde) {start world : World} {labels : List Label}
    (idle : start.phase = .idle) (uncompacted : start.state.config.compaction = none)
    (queued : ∀ message ∈ start.state.steeringQueue ++ start.state.followUpQueue,
      IsUserText message)
    (answered : Answered start.state.messages)
    (converted : RequestAnswered (defaultConvertToLlm start.state.messages))
    (reached : Transition.Run (step serde)
      (fun label state => HooksKeepMessages label state ∧ CallsAnswerable label state)
      start labels world) :
    Answered world.state.messages ∧
      ∀ ctx request, world.phase.context? = some ctx → ctx.providerRequest = some request →
        RequestAnswered request.context.messages := by
  have first : Inv start := ⟨⟨answered, converted⟩, queued, uncompacted, by rw [idle]; trivial⟩
  have inv : Inv world := reached.invariant
    (fun label before after inv admitted taken =>
      step_inv serde inv admitted.1 admitted.2 taken) first
  refine ⟨inv.stored.answered, ?_⟩
  intro ctx request current prepared
  have turn := inv.turn
  cases phase : world.phase with
  | idle | turnStart =>
    rw [phase] at current
    cases current
  | between own | inside own =>
    simp only [phase] at turn
    rw [phase] at current
    cases current
    exact turn.1.request request prepared
  | finished own =>
    simp only [phase] at turn
    rw [phase] at current
    cases current
    exact turn.request request prepared

def newAgent : World where
  state := {
    messages := [], steeringQueue := [], followUpQueue := []
    tools := [], config := { model := ⟨"model", "provider", 200000⟩ }
    cancelled := false, providerRequestOverride := none }
  phase := .idle

def readingAgent : World :=
  { newAgent with state := { newAgent.state with
    tools := [⟨"read", "Read a file", .emptyObject, none⟩] } }

/-- A message with one call, and what the tool gives out for it. -/
def reading : Answers where
  llmEvents := [.done .toolUse { AssistantMessage.empty "api" "model" with
    content := [.toolCall "c" "read" .emptyObject none], stopReason := .toolUse }]
  toolOutput := fun _ => .ok ⟨[.text "contents" none]⟩

def replying : Answers where
  summary := .error "no summary"
  llmEvents := [.done .stop { AssistantMessage.empty "api" "model" with
    content := [.text "hi" none], stopReason := .stop }]

section answering

variable {serde : Serde} {start : World} {labels : List Label}

abbrev AnsweringRun (serde : Serde) (start : World) (labels : List Label) (world : World) : Prop :=
  Transition.Run (step serde)
    (fun label state => HooksKeepMessages label state ∧ CallsAnswerable label state)
    start labels world

theorem AnsweringRun.node {entered : World} (run : AnsweringRun serde start labels world)
    (answers : Answers) (keeps : ∀ ctx, KeepsMessages answers ctx)
    (answerable : ∀ message, (readStream answers.llmEvents).2.1 = some message →
      Answerable message)
    (running : world.state.cancelled = false := by rfl)
    (enters : step serde .enter world = some entered := by rfl)
    (own : entered.state.providerRequestOverride = none := by rfl)
    (ran : step serde (.runNode answers) entered = some after := by rfl) :
    AnsweringRun serde start ((labels ++ [.enter]) ++ [.runNode answers]) after := by
  have entering : CallsAnswerable .enter world := by
    obtain ⟨state, phase⟩ := world
    cases phase with
    | between => exact fun _ _ => running
    | _ => trivial
  have inside : HooksKeepMessages (.runNode answers) entered ∧
      CallsAnswerable (.runNode answers) entered := by
    obtain ⟨state, phase⟩ := entered
    cases phase with
    | inside =>
      refine ⟨keeps _, fun _ => answerable, fun _ context replaced => ?_⟩
      exact absurd (replaced.symm.trans own) (Option.some_ne_none _)
    | _ => exact ⟨trivial, trivial⟩
  exact (run.next (l := Label.enter) ⟨trivial, entering⟩ enters).next inside ran

theorem AnsweringRun.quietNode {entered : World} (run : AnsweringRun serde start labels world)
    (running : world.state.cancelled = false := by rfl)
    (enters : step serde .enter world = some entered := by rfl)
    (own : entered.state.providerRequestOverride = none := by rfl)
    (ran : step serde (.runNode {}) entered = some after := by rfl) :
    AnsweringRun serde start ((labels ++ [.enter]) ++ [.runNode {}]) after :=
  run.node {} (fun _ => ⟨nofun, nofun, nofun, nofun⟩) nofun running enters own ran

end answering

/-- A prompt whose first turn calls a tool and whose second turn replies: the call and its
result, between the prompt and the reply. -/
theorem run_answered_tool : ∃ labels world,
    AnsweringRun ⟨fun _ => none, fun _ => "", rfl⟩ readingAgent labels world ∧
      world.phase = .idle ∧
      world.state.messages.map AgentMessage.callIds = [[], ["c"], [], []] ∧
      world.state.messages.map AgentMessage.answers? = [none, none, some "c", none] ∧
      Answered world.state.messages := by
  have readingKeeps : ∀ ctx, KeepsMessages reading ctx := fun _ => ⟨nofun, nofun, nofun, nofun⟩
  have replyingKeeps : ∀ ctx, KeepsMessages replying ctx :=
    fun _ => ⟨nofun, nofun, nofun, nofun⟩
  have called : ∀ message, (readStream reading.llmEvents).2.1 = some message →
      Answerable message := by
    rintro _ ⟨⟩
    unfold Answerable
    decide
  have replied : ∀ message, (readStream replying.llmEvents).2.1 = some message →
      Answerable message := by
    rintro _ ⟨⟩
    unfold Answerable
    decide
  have begun : AnsweringRun ⟨fun _ => none, fun _ => "", rfl⟩ readingAgent
      [.prompt "hello", .snapshot] _ :=
    ((Transition.Run.done _).next ⟨trivial, trivial⟩ rfl).next ⟨trivial, trivial⟩ rfl
  have prepared := begun.quietNode.quietNode.quietNode.quietNode.quietNode
  have streamed := prepared.node reading readingKeeps called
  have decided := streamed.quietNode
  have executed := decided.node reading readingKeeps called
  have again : AnsweringRun _ readingAgent _ _ :=
    (executed.quietNode.next (l := Label.apply) ⟨trivial, trivial⟩ rfl).next
      (l := Label.snapshot) ⟨trivial, trivial⟩ rfl
  have waiting := again.quietNode.quietNode.quietNode.quietNode.quietNode
  have answered := waiting.node replying replyingKeeps replied
  have ended := answered.quietNode.quietNode.next
    (l := Label.apply) ⟨trivial, trivial⟩ rfl
  exact ⟨_, _, ended, rfl, rfl, rfl, (@run_answered _ readingAgent _ _ rfl rfl nofun trivial trivial
    ended).1⟩

def cutShort : Answers where
  llmEvents := [.done .length { AssistantMessage.empty "api" "model" with
    content := [.toolCall "c" "read" .emptyObject none], stopReason := .length }]

/-- The call of a message that ends with stop reason `Length` stays open. -/
theorem run_leaves_call_open :
    ∃ labels world,
      Transition.Run (step ⟨fun _ => none, fun _ => "", rfl⟩) HooksKeepMessages newAgent labels
          world ∧
        world.phase = .idle ∧ ¬ Answered world.state.messages := by
  have quiet : ∀ ctx, KeepsMessages {} ctx :=
    fun _ => ⟨nofun, nofun, nofun, nofun⟩
  have cut : ∀ ctx, KeepsMessages cutShort ctx :=
    fun _ => ⟨nofun, nofun, nofun, nofun⟩
  refine ⟨[.prompt "hello", .snapshot, .enter, .runNode {}, .enter, .runNode {}, .enter,
    .runNode {}, .enter, .runNode {}, .enter, .runNode {}, .enter, .runNode cutShort, .enter,
    .runNode {}, .enter, .runNode {}, .apply], _, Transition.Run.of_follow ?_ rfl, rfl, by decide⟩
  intro label inside state
  obtain ⟨state, phase⟩ := state
  simp only [mem_cons, not_mem_nil, or_false] at inside
  cases phase <;>
    rcases inside with rfl | rfl | rfl | rfl | rfl | rfl | rfl | rfl | rfl | rfl | rfl | rfl |
      rfl | rfl | rfl | rfl | rfl | rfl | rfl <;>
    first
      | trivial
      | exact quiet _
      | exact cut _

end PiRust.Conversation
