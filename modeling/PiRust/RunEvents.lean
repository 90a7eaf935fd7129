import PiRust.Brackets
import PiRust.ToolExecution

/- The event stream of `run_state` over a whole run: the turn numbers, the verdict that ends
it, and the brackets of the tool calls. -/
namespace PiRust.RunEvents

open AgentTurn AgentRun Brackets.Pairing List

/-- `AGENT_TURN_NODE_IDS` -/
def nodeText : NodeId → String
  | .startTurn => "start_turn"
  | .drainQueuedInput => "drain_queued_input"
  | .maybeCompactRuntimeContext => "maybe_compact_runtime_context"
  | .prepareProviderRequest => "prepare_provider_request"
  | .applyBeforeProviderRequestHook => "apply_before_provider_request_hook"
  | .providerStream => "provider_stream"
  | .decideAfterAssistant => "decide_after_assistant"
  | .maybePrepareNextTurn => "maybe_prepare_next_turn"
  | .executeTools => "execute_tools"

def actionText : Action → String
  | .default => "default"
  | .continueTurn => "continue"
  | .continueProvider => "continue_provider"
  | .tools => "tools"
  | .done => "done"
  | .error => "error"
  | .aborted => "aborted"

/-- `flow_error_message` with the texts of `FlowError`. -/
def flowErrorMessage : FlowError NodeId Action → String
  | .duplicateNode node => "duplicate flow node: " ++ nodeText node
  | .unknownNode node => "unknown flow node: " ++ nodeText node
  | .missingStartNode node => "flow start node does not exist: " ++ nodeText node
  | .missingTransition node action =>
    "missing transition from node '" ++ nodeText node ++ "' on action '" ++ actionText action ++
      "'"
  | .maxStepsExceeded maxSteps => "flow exceeded max steps (" ++ toString maxSteps ++ ")"
  | .cancelled => "aborted"
  | .nodeFailed node message => "flow node '" ++ nodeText node ++ "' failed: " ++ message

/-- The agent with what the stream of its current run has yielded for the earlier turns. -/
structure Recording where
  world : World
  yielded : List AgentEvent

/-- A run that has just begun. -/
def Recording.start (state : AgentState) : Recording := ⟨⟨state, .turnStart 0⟩, []⟩

/-- All that was sent to the stream so far. -/
def Recording.stream (recording : Recording) : List AgentEvent :=
  recording.yielded ++ (recording.world.phase.context?.map AgentTurnContext.events).getD []

/-- A step of the agent, or what other calls do to its state meanwhile. -/
inductive Call where
  | agent (label : Label)
  | others (state : AgentState)

variable (serde : Serde)

def verdictOf : Except (FlowError NodeId Action) (FlowOutcome NodeId Action) → List AgentEvent
  | .error error => [.agentError (flowErrorMessage error)]
  | .ok _ => []

def step : Call → Recording → Option Recording
  | .agent label, recording =>
    (AgentRun.step serde label recording.world).map fun world =>
      match label, recording.world.phase with
      | .prompt _, _ | .run, _ => ⟨world, []⟩
      | .apply, .finished ctx outcome =>
        ⟨world, recording.yielded ++ ctx.events ++ verdictOf outcome⟩
      | _, _ => { recording with world := world }
  | .others state, recording =>
    -- nothing sets `max_turns` of an agent
    if state.config.maxTurns = recording.world.state.config.maxTurns then
      some { recording with world.state := state }
    else none

def isVerdict : AgentEvent → Bool
  | .agentDone _ | .agentError _ => true
  | _ => false

def turnNumber? : AgentEvent → Option UInt32
  | .turnStart turn => some turn
  | _ => none

def turnNumbers (events : List AgentEvent) : List UInt32 := events.filterMap turnNumber?

/-- Tool calls by their ids. -/
def toolPairing : Brackets.Pairing AgentEvent String where
  opens
    | .toolCallStart toolCallId _ _ => some toolCallId
    | _ => none
  closes
    | .toolCallEnd toolCallId _ _ => some toolCallId
    | _ => none

def Undecided (events : List AgentEvent) : Prop := ∀ event ∈ events, isVerdict event = false

/-- The last event is the verdict, and it is the only one. -/
def Decided (events : List AgentEvent) : Prop :=
  ∃ front verdict, events = front ++ [verdict] ∧ isVerdict verdict = true ∧ Undecided front

/-- After `turns` turns under the limit: the turns are numbered from one, within the limit,
and no tool call ends more often than it started. -/
structure Orderly (maxTurns : Option UInt32) (turns : Nat) (events : List AgentEvent) : Prop where
  numbers : turnNumbers events = (range turns).map fun turn => UInt32.ofNat (turn + 1)
  bounded : ∀ most, maxTurns = some most → ∀ turn ∈ turnNumbers events, turn ≤ most
  nested : toolPairing.Nested events

def Closing (action : Action) : Prop := action = .done ∨ action = .error ∨ action = .aborted

instance (action : Action) : Decidable (Closing action) :=
  inferInstanceAs (Decidable (action = .done ∨ action = .error ∨ action = .aborted))

variable {events more : List AgentEvent}

theorem Undecided.append (first : Undecided events) (second : Undecided more) :
    Undecided (events ++ more) := by
  intro event member
  rcases mem_append.mp member with old | new
  · exact first event old
  · exact second event new

theorem undecided_nil : Undecided [] := forall_mem_nil _

theorem Decided.after (first : Undecided events) (second : Decided more) :
    Decided (events ++ more) := by
  obtain ⟨front, verdict, rfl, decides, before⟩ := second
  exact ⟨events ++ front, verdict, (append_assoc ..).symm, decides, first.append before⟩

theorem decided_singleton {verdict : AgentEvent} (decides : isVerdict verdict = true) :
    Decided [verdict] :=
  ⟨[], verdict, rfl, decides, undecided_nil⟩

theorem Undecided.then_verdict {verdict : AgentEvent} (undecided : Undecided events)
    (decides : isVerdict verdict = true) : Decided (events ++ [verdict]) :=
  Decided.after undecided (decided_singleton decides)

theorem nested_singleton {event : AgentEvent} (closes : toolPairing.closes event = none) :
    toolPairing.Nested [event] := by
  apply Brackets.Pairing.Nested.of_silent
  intro other member
  rw [mem_singleton.mp member, closes]

theorem turnNumbers_append (events more : List AgentEvent) :
    turnNumbers (events ++ more) = turnNumbers events ++ turnNumbers more :=
  filterMap_append

theorem Orderly.append {maxTurns : Option UInt32} {turns : Nat}
    (orderly : Orderly maxTurns turns events) (silent : turnNumbers more = [])
    (nested : toolPairing.Nested more) : Orderly maxTurns turns (events ++ more) where
  numbers := by rw [turnNumbers_append, silent, append_nil, orderly.numbers]
  bounded := by
    intro most limit
    rw [turnNumbers_append, silent, append_nil]
    exact orderly.bounded most limit
  nested := orderly.nested.append nested

theorem Orderly.next {maxTurns : Option UInt32} {turns : Nat} {events more : List AgentEvent}
    (orderly : Orderly maxTurns turns events)
    (starts : turnNumbers more = [UInt32.ofNat turns + 1])
    (below : ∀ most, maxTurns = some most → UInt32.ofNat turns + 1 ≤ most)
    (nested : toolPairing.Nested more) : Orderly maxTurns (turns + 1) (events ++ more) where
  numbers := by
    rw [turnNumbers_append, starts, orderly.numbers, range_succ, map_append,
      map_singleton, UInt32.ofNat_add]
    rfl
  bounded := by
    intro most limit turn member
    rw [turnNumbers_append, starts] at member
    rcases mem_append.mp member with old | new
    · exact orderly.bounded most limit turn old
    · rw [mem_singleton.mp new]
      exact below most limit
  nested := orderly.nested.append nested

section Nodes

/-- What a node other than `start_turn` adds to the stream of its turn. -/
structure Sends (ctx after : AgentTurnContext) (sent : List AgentEvent) : Prop where
  events : after.events = ctx.events ++ sent
  limit : after.config.maxTurns = ctx.config.maxTurns
  turn : after.turn = ctx.turn
  numbers : turnNumbers sent = []
  nested : toolPairing.Nested sent

def Judged : Except String Action → List AgentEvent → Prop
  | .ok action, sent => if Closing action then Decided sent else Undecided sent
  | .error _, sent => Undecided sent

def returns : NodeId → Action → Bool
  | .decideAfterAssistant, .continueTurn | .decideAfterAssistant, .tools => true
  | .maybePrepareNextTurn, .continueTurn | .maybePrepareNextTurn, .done => true
  | .executeTools, .continueTurn | .executeTools, .continueProvider => true
  | .decideAfterAssistant, .default | .maybePrepareNextTurn, .default
  | .executeTools, .default => false
  | _, .default | _, .error | _, .aborted => true
  | _, _ => false

/-- What a node of the turn sends and returns. -/
structure Ran (node : NodeId) (ctx : AgentTurnContext) (ran : NodeResult)
    (sent : List AgentEvent) : Prop where
  sends : Sends ctx ran.2 sent
  judged : Judged ran.1 sent
  returned : ∀ action, ran.1 = .ok action → returns node action = true

variable {ctx after : AgentTurnContext}

theorem Sends.nothing (same : (after.events, after.config.maxTurns, after.turn) =
    (ctx.events, ctx.config.maxTurns, ctx.turn)) : Sends ctx after [] := by
  obtain ⟨events, limit, turn⟩ : _ ∧ _ ∧ _ := by simpa only [Prod.mk.injEq] using same
  exact ⟨by rw [events, append_nil], limit, turn, rfl,
    Brackets.Pairing.Nested.of_silent (forall_mem_nil _)⟩

variable {event : AgentEvent}

theorem Sends.one {ctx after : AgentTurnContext} (same : (after.events, after.config.maxTurns,
    after.turn) = (ctx.events ++ [event], ctx.config.maxTurns, ctx.turn))
    (number : turnNumber? event = none) (closes : toolPairing.closes event = none) :
    Sends ctx after [event] := by
  obtain ⟨events, limit, turn⟩ : _ ∧ _ ∧ _ := by simpa only [Prod.mk.injEq] using same
  exact ⟨events, limit, turn, by simp [turnNumbers, number], nested_singleton closes⟩

theorem Sends.trans {middle : AgentTurnContext} {sent more : List AgentEvent}
    (first : Sends ctx middle sent) (second : Sends middle after more) :
    Sends ctx after (sent ++ more) where
  events := by rw [second.events, first.events, append_assoc]
  limit := second.limit.trans first.limit
  turn := second.turn.trans first.turn
  numbers := by rw [turnNumbers_append, first.numbers, second.numbers, append_nil]
  nested := first.nested.append second.nested

theorem undecided_singleton (plain : isVerdict event = false) : Undecided [event] := by
  intro other member
  rw [mem_singleton.mp member, plain]

theorem Ran.failed {node : NodeId} (error : String)
    (same : (after.events, after.config.maxTurns, after.turn) =
      (ctx.events ++ [.agentError error], ctx.config.maxTurns, ctx.turn))
    (can : returns node .error = true) :
    Ran node ctx (.ok .error, after) [.agentError error] where
  sends := .one same rfl rfl
  judged := decided_singleton rfl
  returned := by
    intro action same
    cases same
    exact can

variable (answers : Answers) (ctx : AgentTurnContext)

theorem drainQueuedInput_ran : Ran .drainQueuedInput ctx (drainQueuedInput ctx) [] where
  sends := .nothing rfl
  judged := undecided_nil
  returned := by
    intro action same
    cases same
    rfl

theorem maybeCompactRuntimeContext_ran :
    let compacted := Compaction.maybeCompactRuntimeContext serde answers.summary ctx
    ∃ sent, Ran .maybeCompactRuntimeContext ctx
      (compacted.1.map fun _ => .default, compacted.2) sent := by
  intro compacted
  have returned : ∀ action, (compacted.1.map fun _ => Action.default) = .ok action →
      returns .maybeCompactRuntimeContext action = true := by
    intro action same
    cases result : compacted.1 with
    | error error => simp [result, Except.map] at same
    | ok done =>
      rw [result] at same
      cases same
      rfl
  have sends : ∃ sent, Sends ctx compacted.2 sent ∧ Undecided sent := by
    have unchanged : ∃ sent, Sends ctx ctx sent ∧ Undecided sent :=
      ⟨[], .nothing rfl, undecided_nil⟩
    simp only [compacted]
    unfold Compaction.maybeCompactRuntimeContext
    split
    · exact unchanged
    · dsimp only
      split
      · exact unchanged
      · cases answers.summary with
        | error error =>
          split
          · split <;> exact unchanged
          · exact unchanged
        | ok summary =>
          split
          · split
            · exact unchanged
            · exact ⟨_, .one rfl rfl rfl, undecided_singleton rfl⟩
          · exact ⟨_, .one rfl rfl rfl, undecided_singleton rfl⟩
  obtain ⟨sent, sends, undecided⟩ := sends
  refine ⟨sent, sends, ?_, returned⟩
  cases compacted.1 <;> exact undecided

theorem prepareProviderRequest_ran (state : AgentState) : ∃ sent,
    Ran .prepareProviderRequest ctx (prepareProviderRequest answers ctx state).1 sent := by
  unfold prepareProviderRequest
  split
  · exact ⟨_, .failed _ rfl rfl⟩
  · exact ⟨_, .failed _ rfl rfl⟩
  · refine ⟨[], .nothing rfl, undecided_nil, ?_⟩
    intro action same
    cases same
    rfl

theorem applyBeforeProviderRequestHook_ran : ∃ sent,
    Ran .applyBeforeProviderRequestHook ctx (applyBeforeProviderRequestHook answers ctx) sent := by
  unfold applyBeforeProviderRequestHook
  split
  · exact ⟨_, .failed _ rfl rfl⟩
  · split
    · exact ⟨_, .failed _ rfl rfl⟩
    · refine ⟨_, .one rfl rfl rfl, undecided_singleton rfl, ?_⟩
      intro action same
      cases same
      rfl

/-- Whatever the provider streams, it is no verdict. -/
theorem llmEvents_sends (after : AgentTurnContext) (events : List AssistantMessageEvent)
    (shown : after.events = ctx.events ++ events.map .llmEvent)
    (limit : after.config.maxTurns = ctx.config.maxTurns) (turn : after.turn = ctx.turn) :
    Sends ctx after (events.map .llmEvent) ∧ Undecided (events.map .llmEvent) := by
  refine ⟨⟨shown, limit, turn, ?_, ?_⟩, ?_⟩
  · unfold turnNumbers
    rw [filterMap_map]
    exact filterMap_eq_nil_iff.mpr fun _ _ => rfl
  · apply Brackets.Pairing.Nested.of_silent
    intro event member
    obtain ⟨source, _, rfl⟩ := mem_map.mp member
    rfl
  · intro event member
    obtain ⟨source, _, rfl⟩ := mem_map.mp member
    rfl

theorem streamProvider_ran : ∃ sent, Ran .providerStream ctx (streamProvider answers ctx) sent := by
  unfold streamProvider
  split
  · exact ⟨[], .nothing rfl, undecided_nil, nofun⟩
  · dsimp only
    have streamed := llmEvents_sends ctx
      (ctx.emitAll ((readStream answers.llmEvents).1.map .llmEvent)) _ rfl rfl rfl
    split
    · rename_i message _
      refine ⟨_, (llmEvents_sends ctx { ctx.emitAll _ with assistantMessage := some message } _
        rfl rfl rfl).1, streamed.2, ?_⟩
      intro action same
      cases same
      rfl
    · refine ⟨_, streamed.1.trans (.one rfl rfl rfl), streamed.2.then_verdict rfl, ?_⟩
      intro action same
      cases same
      rfl

theorem decideAfterAssistant_ran : ∃ sent,
    Ran .decideAfterAssistant ctx (decideAfterAssistant ctx) sent := by
  unfold decideAfterAssistant
  cases ctx.assistantMessage with
  | none => exact ⟨[], .nothing rfl, undecided_nil, nofun⟩
  | some assistant =>
    simp only
    have returned : ∀ action sent, returns .decideAfterAssistant sent = true →
        (.ok sent : Except String Action) = .ok action →
        returns .decideAfterAssistant action = true := by
      intro action sent can same
      cases same
      exact can
    cases assistant.stopReason with
    | stop | length =>
      exact ⟨[], .nothing rfl, undecided_nil, fun action => returned action _ rfl⟩
    | error => exact ⟨_, .failed _ rfl rfl⟩
    | aborted =>
      exact ⟨_, .one rfl rfl rfl, decided_singleton rfl,
        fun action => returned action _ rfl⟩
    | toolUse =>
      exact ⟨[], .nothing rfl, undecided_nil, fun action => returned action _ rfl⟩

/-- The assistant message of the turn is neither an error nor aborted. -/
def Sound : Prop :=
  ∀ assistant, ctx.assistantMessage = some assistant →
    assistant.stopReason ≠ .error ∧ assistant.stopReason ≠ .aborted

variable {action : Action} {node : NodeId} {after : AgentTurnContext}

theorem decideAfterAssistant_sound (decided : (decideAfterAssistant ctx).1 = .ok action)
    (onward : action = .continueTurn ∨ action = .tools) : Sound (decideAfterAssistant ctx).2 := by
  unfold decideAfterAssistant at decided ⊢
  cases reply : ctx.assistantMessage with
  | none =>
    simp only [reply] at decided
    cases decided
  | some assistant =>
    simp only [reply] at decided ⊢
    have sound (reason : StopReason) (stop : assistant.stopReason = reason)
        (fine : reason ≠ .error ∧ reason ≠ .aborted) (after : AgentTurnContext)
        (same : after.assistantMessage = some assistant) : Sound after := by
      intro other current
      rw [same] at current
      cases current
      rw [stop]
      exact fine
    cases stop : assistant.stopReason with
    | stop | length | toolUse => exact sound _ stop (by decide) _ rfl
    | error | aborted =>
      simp only [stop] at decided
      cases decided
      rcases onward with other | other <;> cases other

theorem shouldStopAfterTurn_sends :
    (∃ stop, (shouldStopAfterTurn answers ctx).1 = some stop ∧
        Sends ctx (shouldStopAfterTurn answers ctx).2 []) ∨
      (shouldStopAfterTurn answers ctx).1 = none ∧
        ∃ error, Sends ctx (shouldStopAfterTurn answers ctx).2 [.agentError error] := by
  unfold shouldStopAfterTurn
  split
  · exact .inl ⟨false, rfl, .nothing rfl⟩
  · exact .inl ⟨_, rfl, .nothing rfl⟩
  · exact .inr ⟨rfl, _, .one rfl rfl rfl⟩

theorem prepareNextTurnOrError_sends :
    ((prepareNextTurnOrError answers ctx).1 = none ∧
        Sends ctx (prepareNextTurnOrError answers ctx).2 []) ∨
      (prepareNextTurnOrError answers ctx).1 = some .error ∧
        ∃ error, Sends ctx (prepareNextTurnOrError answers ctx).2 [.agentError error] := by
  unfold prepareNextTurnOrError
  split
  · exact .inl ⟨rfl, .nothing rfl⟩
  · exact .inl ⟨rfl, .nothing rfl⟩
  · exact .inl ⟨rfl, .nothing rfl⟩
  · exact .inr ⟨rfl, _, .one rfl rfl rfl⟩

theorem Ran.closing {verdict : AgentEvent} (sends : Sends ctx after [verdict])
    (closing : Closing action) (decides : isVerdict verdict = true)
    (can : returns node action = true) :
    Ran node ctx (.ok action, after) [verdict] where
  sends := sends
  judged := by
    simp only [Judged, closing, ↓reduceIte]
    exact decided_singleton decides
  returned := by
    intro other same
    cases same
    exact can

theorem Ran.onward (sends : Sends ctx after []) (onward : ¬ Closing action)
    (can : returns node action = true) :
    Ran node ctx (.ok action, after) [] where
  sends := sends
  judged := by
    simp only [Judged, onward, ↓reduceIte]
    exact undecided_nil
  returned := by
    intro other same
    cases same
    exact can

theorem finishTurn_ran {before : AgentTurnContext} (assistant : AssistantMessage)
    (sends : Sends before ctx []) :
    Ran .maybePrepareNextTurn before (finishTurn assistant ctx) [.agentDone assistant] :=
  .closing before (sends.trans (.one rfl rfl rfl)) (.inl rfl) rfl rfl

/-- The two stop reasons of an unsound reply would end the turn without a verdict. -/
theorem maybePrepareNextTurn_ran (sound : Sound ctx) : ∃ sent,
    Ran .maybePrepareNextTurn ctx (maybePrepareNextTurn answers ctx) sent := by
  have asked := shouldStopAfterTurn_sends answers ctx
  have prepares := prepareNextTurnOrError_sends answers (shouldStopAfterTurn answers ctx).2
  unfold maybePrepareNextTurn
  rcases stop : shouldStopAfterTurn answers ctx with ⟨verdict, stopped⟩
  simp only [stop] at asked prepares
  rcases next : prepareNextTurnOrError answers stopped with ⟨early, prepared⟩
  simp only [next] at prepares
  cases reply : ctx.assistantMessage with
  | none => exact ⟨[], .nothing rfl, undecided_nil, nofun⟩
  | some assistant =>
    obtain ⟨no_error, not_aborted⟩ := sound assistant reply
    dsimp only
    rcases asked with ⟨stops, rfl, asked⟩ | ⟨rfl, error, asked⟩
    · have finish : ∃ sent, Ran .maybePrepareNextTurn ctx (finishTurn assistant stopped) sent :=
        ⟨_, finishTurn_ran stopped assistant asked⟩
      cases reason : assistant.stopReason with
      | error => exact absurd reason no_error
      | aborted => exact absurd reason not_aborted
      | stop | length =>
        cases stops with
        | true => exact finish
        | false =>
          simp only [next]
          rcases prepares with ⟨rfl, prepares⟩ | ⟨rfl, error, prepares⟩
          · have both : Sends ctx prepared [] := asked.trans prepares
            dsimp only
            split
            · exact ⟨[], .onward ctx ⟨both.events, both.limit, both.turn, rfl, both.nested⟩
                (by decide) rfl⟩
            · exact ⟨_, finishTurn_ran prepared assistant both⟩
          · exact ⟨_, .closing ctx (asked.trans prepares) (by decide) rfl rfl⟩
      | toolUse =>
        cases stops with
        | true => exact finish
        | false =>
          simp only [next]
          split
          · exact finish
          · rcases prepares with ⟨rfl, prepares⟩ | ⟨rfl, error, prepares⟩
            · have both : Sends ctx prepared [] := asked.trans prepares
              exact ⟨[], .onward ctx ⟨both.events, both.limit, both.turn, rfl, both.nested⟩
                (by decide) rfl⟩
            · exact ⟨_, .closing ctx (asked.trans prepares) (by decide) rfl rfl⟩
    · have failed : Ran .maybePrepareNextTurn ctx (.ok .error, stopped) [.agentError error] :=
        .closing ctx asked (by decide) rfl rfl
      cases reason : assistant.stopReason with
      | error => exact absurd reason no_error
      | aborted => exact absurd reason not_aborted
      | stop | length | toolUse => exact ⟨_, failed⟩

def Inner (events : List AgentEvent) : Prop :=
  ∀ event ∈ events, turnNumber? event = none ∧ isVerdict event = false

variable (call : PendingToolCall)

theorem updateEvents_inner (member : event ∈ updateEvents answers ctx call) :
    turnNumber? event = none ∧ isVerdict event = false ∧ toolPairing.closes event = none := by
  unfold updateEvents at member
  split at member
  · obtain ⟨update, _, rfl⟩ := mem_map.mp member
    exact ⟨rfl, rfl, rfl⟩
  · cases member

theorem callEvents_nested :
    toolPairing.Nested (startEvent call :: updateEvents answers ctx call ++
      [endEvent (executeCall answers ctx call)]) := by
  apply Brackets.Pairing.Nested.of_le
  · intro event member
    rcases mem_cons.mp member with rfl | update
    · rfl
    · exact (updateEvents_inner answers ctx call update).2.2
  · intro item
    have opened : toolPairing.opens (startEvent call) = some call.id := rfl
    have closed : toolPairing.closes (endEvent (executeCall answers ctx call)) = some call.id := rfl
    rw [endings_singleton, closed]
    simp only [openings, countP_cons, opened, decide_eq_true_eq]
    split <;> omega

theorem callEvents_inner :
    Inner (startEvent call :: updateEvents answers ctx call ++
      [endEvent (executeCall answers ctx call)]) := by
  intro event member
  rcases mem_append.mp member with front | last
  · rcases mem_cons.mp front with rfl | update
    · exact ⟨rfl, rfl⟩
    · have inner := updateEvents_inner answers ctx call update
      exact ⟨inner.1, inner.2.1⟩
  · rw [mem_singleton.mp last]
    exact ⟨rfl, rfl⟩

theorem parallel_nested (calls : List PendingToolCall) {finished : List ToolCallExecution}
    (perm : finished.Perm (calls.map (executeCall answers ctx))) :
    toolPairing.Nested (calls.map startEvent ++ finished.map endEvent) := by
  apply Brackets.Pairing.Nested.of_le
  · intro event member
    obtain ⟨call, _, rfl⟩ := mem_map.mp member
    rfl
  · intro item
    have same : endings toolPairing item (finished.map endEvent) =
        openings toolPairing item (calls.map startEvent) := by
      unfold endings openings
      rw [(perm.map endEvent).countP_eq, map_map, countP_map, countP_map]
      rfl
    exact Nat.le_of_eq same

theorem parallel_inner (calls : List PendingToolCall) (finished : List ToolCallExecution) :
    Inner (calls.map startEvent ++ finished.map endEvent) := by
  intro event member
  rcases mem_append.mp member with start | last
  · obtain ⟨call, _, rfl⟩ := mem_map.mp start
    exact ⟨rfl, rfl⟩
  · obtain ⟨execution, _, rfl⟩ := mem_map.mp last
    exact ⟨rfl, rfl⟩

theorem Inner.sends {sent : List AgentEvent} (inner : Inner sent)
    (events : after.events = ctx.events ++ sent)
    (limit : after.config.maxTurns = ctx.config.maxTurns) (turn : after.turn = ctx.turn)
    (nested : toolPairing.Nested sent) : Sends ctx after sent where
  events := events
  limit := limit
  turn := turn
  numbers := filterMap_eq_nil_iff.mpr fun event member => (inner event member).1
  nested := nested

theorem executeTools_ran : ∃ sent, Ran .executeTools ctx (executeTools answers ctx) sent := by
  unfold executeTools
  dsimp only
  split
  · exact ⟨[], .onward ctx (.nothing rfl) (by decide) rfl⟩
  · simp only [executeSequential_eq, collectParallelToolExecutions_eq]
    generalize shouldUseSequentialTools _ _ _ = sequential
    let running : AgentTurnContext :=
      { ctx with toolResultsAllTerminate := false, pendingToolCalls := [] }
    let executed := ctx.pendingToolCalls.map (executeCall answers running)
    have returned : ∀ action, (.ok .continueTurn : Except String Action) = .ok action →
        returns .executeTools action = true := by
      intro action same
      cases same
      rfl
    cases sequential with
    | true =>
      have inner : Inner (ctx.pendingToolCalls.flatMap fun call =>
          startEvent call :: updateEvents answers running call ++
            [endEvent (executeCall answers running call)]) := by
        intro event member
        obtain ⟨call, _, inside⟩ := mem_flatMap.mp member
        exact callEvents_inner answers running call event inside
      exact ⟨_, inner.sends ctx rfl rfl rfl
        (.flatMap (callEvents_nested answers running) _),
        fun event member => (inner event member).2, returned⟩
    | false =>
      have inner := parallel_inner ctx.pendingToolCalls (answers.finishOrder executed)
      exact ⟨_, inner.sends ctx rfl rfl rfl
        (parallel_nested answers running _ (answers.finishOrder_perm executed)),
        fun event member => (inner event member).2, returned⟩

theorem startTurn_cases (cancelled : Bool) :
    let ran := startTurn cancelled ctx
    ran.2.config.maxTurns = ctx.config.maxTurns ∧
      ((ran.1 = .ok .default ∧ ran.2.events = ctx.events ++ [.turnStart (ctx.turn + 1)] ∧
          ran.2.turn = ctx.turn + 1 ∧
          ∀ most, ctx.config.maxTurns = some most → ctx.turn + 1 ≤ most) ∨
        ∃ action error, ran.1 = .ok action ∧ Closing action ∧
          ran.2.events = ctx.events ++ [.agentError error]) := by
  unfold startTurn
  split
  · exact ⟨rfl, .inr ⟨_, _, rfl, by decide, rfl⟩⟩
  · dsimp only
    split
    · exact ⟨rfl, .inr ⟨_, _, rfl, by decide, rfl⟩⟩
    · rename_i within
      refine ⟨rfl, .inl ⟨rfl, rfl, rfl, ?_⟩⟩
      intro most limit
      rw [limit, Option.filter_some] at within
      by_contra above
      simp [UInt32.not_le.mp above] at within

theorem runNode_ran (state : AgentState) (later : node ≠ .startTurn)
    (sound : node = .maybePrepareNextTurn → Sound ctx) :
    ∃ sent, Ran node ctx (runNode serde node answers ctx state).1 sent := by
  cases node with
  | startTurn => exact absurd rfl later
  | drainQueuedInput => exact ⟨[], drainQueuedInput_ran ctx⟩
  | maybeCompactRuntimeContext => exact maybeCompactRuntimeContext_ran serde answers ctx
  | prepareProviderRequest => exact prepareProviderRequest_ran answers ctx state
  | applyBeforeProviderRequestHook => exact applyBeforeProviderRequestHook_ran answers ctx
  | providerStream => exact streamProvider_ran answers ctx
  | decideAfterAssistant => exact decideAfterAssistant_ran ctx
  | maybePrepareNextTurn => exact maybePrepareNextTurn_ran answers ctx (sound rfl)
  | executeTools => exact executeTools_ran answers ctx

end Nodes

section Runs

def Going (maxTurns : Option UInt32) (ctx : AgentTurnContext) (events : List AgentEvent) : Prop :=
  ctx.config.maxTurns = maxTurns ∧
    ∃ turns, ctx.turn = UInt32.ofNat turns ∧ Orderly maxTurns turns events ∧ Undecided events

/-- The node that the decision leads to finds a sound reply. -/
def Ready (node : NodeId) (ctx : AgentTurnContext) : Prop :=
  node = .executeTools ∨ node = .maybePrepareNextTurn → Sound ctx

def Ended (maxTurns : Option UInt32) (ctx : AgentTurnContext) (events : List AgentEvent) :
    Except (FlowError NodeId Action) (FlowOutcome NodeId Action) → Prop
  | .error _ => ∃ turns, Orderly maxTurns turns events ∧ Undecided events
  | .ok outcome =>
    if outcome.lastAction = .continueTurn ∨ outcome.lastAction = .continueProvider then
      Going maxTurns ctx events
    else ∃ turns, Orderly maxTurns turns events ∧ Decided events

def Along (maxTurns : Option UInt32) (yielded : List AgentEvent) : Phase → Prop
  | .idle => ∃ turns, Orderly maxTurns turns yielded ∧ Decided yielded
  | .turnStart turn =>
    ∃ turns, turn = UInt32.ofNat turns ∧ Orderly maxTurns turns yielded ∧ Undecided yielded
  | .between ctx cursor | .inside ctx cursor =>
    Going maxTurns ctx (yielded ++ ctx.events) ∧ Ready cursor.current ctx
  | .finished ctx outcome => Ended maxTurns ctx (yielded ++ ctx.events) outcome

/-- The events of a run so far. -/
structure Inv (maxTurns : Option UInt32) (recording : Recording) : Prop where
  limit : recording.world.state.config.maxTurns = maxTurns
  along : Along maxTurns recording.yielded recording.world.phase

variable {maxTurns : Option UInt32} {yielded : List AgentEvent}

theorem orderly_nil (maxTurns : Option UInt32) : Orderly maxTurns 0 [] where
  numbers := rfl
  bounded := fun _ _ _ absent => absurd absent not_mem_nil
  nested := .of_silent (forall_mem_nil _)

theorem begun (state : AgentState) : Inv state.config.maxTurns (.start state) where
  limit := rfl
  along := ⟨0, rfl, orderly_nil _, undecided_nil⟩

variable {action : Action} {after ctx : AgentTurnContext} {cursor : Cursor NodeId}
  {events sent : List AgentEvent} {node : NodeId} {recording : Recording} {world : World}
variable {result : Except String Action}
  {outcome : Except (FlowError NodeId Action) (FlowOutcome NodeId Action)} {next : NodeId}

theorem leave_outcome (left : agentTurnFlow.leave runOptions cursor result = .inr outcome) :
    (∃ message error, result = .error message ∧ outcome = .error error) ∨
      ∃ action ended, result = .ok action ∧ outcome = .ok ended ∧ ended.lastAction = action ∧
        agentTurnFlow.next? cursor.current action = none := by
  cases result with
  | error message =>
    cases left
    exact .inl ⟨message, _, rfl, rfl⟩
  | ok action =>
    have stuck := Flow.leave_end left rfl
    simp only [Flow.leave, stuck, runOptions, Bool.and_false, Bool.false_eq_true, ↓reduceIte,
      Sum.inr.injEq] at left
    subst left
    exact .inr ⟨action, _, rfl, rfl, rfl, stuck⟩

theorem next_onward (found : agentTurnFlow.next? node action = some next) : ¬ Closing action := by
  have edges : ∀ edge ∈ agentTurnFlow.transitions, ¬ Closing edge.1.2 := by decide
  exact edges _ (Flow.next?_mem found)

theorem next_decided (found : agentTurnFlow.next? node action = some next)
    (late : next = .executeTools ∨ next = .maybePrepareNextTurn) :
    node = .executeTools ∨
      node = .decideAfterAssistant ∧ (action = .continueTurn ∨ action = .tools) := by
  have edges : ∀ edge ∈ agentTurnFlow.transitions,
      edge.2 = .executeTools ∨ edge.2 = .maybePrepareNextTurn →
      edge.1.1 = .executeTools ∨
        edge.1.1 = .decideAfterAssistant ∧ (edge.1.2 = .continueTurn ∨ edge.1.2 = .tools) := by
    decide
  exact edges _ (Flow.next?_mem found) late

theorem stuck_action (can : returns node action = true)
    (stuck : agentTurnFlow.next? node action = none) :
    Closing action ∨ action = .continueTurn ∨ action = .continueProvider := by
  -- either the node never returns the action, or an edge leads on, or the action ends the run
  cases node <;> cases action <;>
    first
      | exact absurd can (by decide)
      | exact absurd stuck (by decide)
      | decide

theorem Going.sends (going : Going maxTurns ctx events) (sends : Sends ctx after sent)
    (undecided : Undecided sent) : Going maxTurns after (events ++ sent) := by
  obtain ⟨limit, turns, turn, orderly, before⟩ := going
  exact ⟨sends.limit.trans limit, turns, sends.turn.trans turn,
    orderly.append sends.numbers sends.nested, before.append undecided⟩

theorem Going.ends (going : Going maxTurns ctx events) (sends : Sends ctx after sent)
    (decided : Decided sent) :
    ∃ turns, Orderly maxTurns turns (events ++ sent) ∧ Decided (events ++ sent) := by
  obtain ⟨_, turns, _, orderly, before⟩ := going
  exact ⟨turns, orderly.append sends.numbers sends.nested, decided.after before⟩

theorem nodeHead_frame (node : NodeId) (ctx : AgentTurnContext) (state : AgentState) :
    (nodeHead node ctx state).1.events = ctx.events ∧
      (nodeHead node ctx state).1.turn = ctx.turn ∧
      (nodeHead node ctx state).1.config = ctx.config ∧
      (nodeHead node ctx state).1.assistantMessage = ctx.assistantMessage ∧
      (nodeHead node ctx state).2.config = state.config := by
  unfold nodeHead
  split <;> exact ⟨rfl, rfl, rfl, rfl, rfl⟩

theorem snapshot_along {after : World} (limit : world.state.config.maxTurns = maxTurns)
    (along : Along maxTurns yielded world.phase) (taken : snapshot world = some after) :
    after.state.config.maxTurns = maxTurns ∧ Along maxTurns yielded after.phase := by
  obtain ⟨state, phase⟩ := world
  cases phase with
  | turnStart turn =>
    obtain ⟨turns, turn_eq, orderly, undecided⟩ := along
    simp only [snapshot] at taken
    cases begun : agentTurnFlow.begin (AgentTurnContext.fromState state turn).2.cancelled with
    | error error =>
      simp only [begun, Option.some.injEq] at taken
      subst taken
      refine ⟨limit, turns, ?_⟩
      rw [AgentTurnContext.fromState, append_nil]
      exact ⟨orderly, undecided⟩
    | ok cursor =>
      simp only [begun, Option.some.injEq] at taken
      subst taken
      refine ⟨limit, ⟨limit, turns, turn_eq, ?_⟩, fun _ assistant made => by cases made⟩
      rw [AgentTurnContext.fromState, append_nil]
      exact ⟨orderly, undecided⟩
  | _ => cases taken

theorem enter_along {after : World} (limit : world.state.config.maxTurns = maxTurns)
    (along : Along maxTurns yielded world.phase) (taken : enter world = some after) :
    after.state.config.maxTurns = maxTurns ∧ Along maxTurns yielded after.phase := by
  obtain ⟨state, phase⟩ := world
  cases phase with
  | between ctx cursor =>
    obtain ⟨going, ready⟩ := along
    simp only [enter] at taken
    cases entered : agentTurnFlow.enter runOptions state.cancelled cursor with
    | error error =>
      simp only [entered, Option.some.injEq] at taken
      subst taken
      obtain ⟨_, turns, _, orderly, undecided⟩ := going
      exact ⟨limit, turns, orderly, undecided⟩
    | ok node =>
      simp only [entered, Option.some.injEq] at taken
      subst taken
      obtain ⟨events, turn, config, reply, shared⟩ := nodeHead_frame node ctx state
      refine ⟨by rw [shared]; exact limit, ⟨?_, ?_⟩, ?_⟩
      · rw [config]
        exact going.1
      · rw [events, turn]
        exact going.2
      · intro late assistant current
        rw [reply] at current
        exact ready late assistant current
  | _ => cases taken

theorem leave_along {result : Except String Action} (going : Going maxTurns ctx events)
    (ran : Ran cursor.current ctx (result, after) sent)
    (ready : ∀ action next, result = .ok action →
      agentTurnFlow.next? cursor.current action = some next → Ready next after) :
    match agentTurnFlow.leave runOptions cursor result with
    | .inl next => Going maxTurns after (events ++ sent) ∧ Ready next.current after
    | .inr outcome => Ended maxTurns after (events ++ sent) outcome := by
  cases left : agentTurnFlow.leave runOptions cursor result with
  | inl next =>
    obtain ⟨action, taken, target, _⟩ := Flow.leave_next left
    have judged := ran.judged
    rw [taken] at judged
    simp only [Judged, next_onward target, ↓reduceIte] at judged
    exact ⟨going.sends ran.sends judged, ready action next.current taken target⟩
  | inr outcome =>
    have judged := ran.judged
    rcases leave_outcome left with ⟨message, error, failed, rfl⟩ |
      ⟨action, ended, taken, rfl, last, stuck⟩
    · rw [failed] at judged
      obtain ⟨_, turns, _, orderly, undecided⟩ := going.sends ran.sends judged
      exact ⟨turns, orderly, undecided⟩
    · rw [taken] at judged
      simp only [Ended, last]
      rcases stuck_action (ran.returned action taken) stuck with closing | again
      · simp only [Judged, closing, ↓reduceIte] at judged
        have ends : ¬ (action = .continueTurn ∨ action = .continueProvider) := by
          rcases closing with rfl | rfl | rfl <;> decide
        simp only [ends, ↓reduceIte]
        exact going.ends ran.sends judged
      · have onward : ¬ Closing action := by
          rcases again with rfl | rfl <;> decide
        simp only [Judged, onward, ↓reduceIte] at judged
        simp only [again, ↓reduceIte]
        exact going.sends ran.sends judged

theorem startTurn_along (first : cursor.current = .startTurn)
    (going : Going maxTurns ctx (yielded ++ ctx.events)) (cancelled : Bool) :
    match agentTurnFlow.leave runOptions cursor (startTurn cancelled ctx).1 with
    | .inl next =>
      Going maxTurns (startTurn cancelled ctx).2 (yielded ++ (startTurn cancelled ctx).2.events) ∧
        Ready next.current (startTurn cancelled ctx).2
    | .inr outcome =>
      Ended maxTurns (startTurn cancelled ctx).2 (yielded ++ (startTurn cancelled ctx).2.events)
        outcome := by
  obtain ⟨own, turns, turn, orderly, undecided⟩ := going
  obtain ⟨limit, ⟨result, events, next_turn, below⟩ | ⟨action, error, result, closing, events⟩⟩ :=
    startTurn_cases ctx cancelled
  · have leads : agentTurnFlow.next? cursor.current .default = some .drainQueuedInput := by
      rw [first]
      rfl
    simp only [result, Flow.leave, leads]
    rw [events, ← append_assoc]
    refine ⟨⟨limit.trans own, turns + 1, ?_, ?_, ?_⟩, ?_⟩
    · rw [next_turn, turn, UInt32.ofNat_add]
      rfl
    · apply orderly.next
      · rw [turn]
        rfl
      · rw [← turn, ← own]
        exact below
      · exact nested_singleton rfl
    · exact undecided.append (undecided_singleton rfl)
    · intro late
      rcases late with other | other <;> cases other
  · rw [result]
    cases left : agentTurnFlow.leave runOptions cursor (.ok action) with
    | inl next =>
      obtain ⟨other, same, target, _⟩ := Flow.leave_next left
      cases same
      exact absurd closing (next_onward target)
    | inr outcome =>
      rcases leave_outcome left with ⟨message, _, failed, _⟩ | ⟨other, ended, same, rfl, last, _⟩
      · cases failed
      · cases same
        have ends : ¬ (action = .continueTurn ∨ action = .continueProvider) := by
          rcases closing with rfl | rfl | rfl <;> decide
        simp only [Ended, last, ends, ↓reduceIte]
        refine ⟨turns, ?_⟩
        rw [events, ← append_assoc]
        exact ⟨orderly.append rfl (nested_singleton rfl), undecided.then_verdict rfl⟩

theorem finishNode_along {answers : Answers} {after : World}
    (limit : world.state.config.maxTurns = maxTurns) (along : Along maxTurns yielded world.phase)
    (taken : finishNode serde answers world = some after) :
    after.state.config.maxTurns = maxTurns ∧ Along maxTurns yielded after.phase := by
  obtain ⟨state, phase⟩ := world
  cases phase with
  | inside ctx cursor =>
    obtain ⟨going, ready⟩ := along
    obtain ⟨_, shared⟩ := Conversation.runNode_state serde cursor.current answers ctx state
    simp only [finishNode] at taken
    have left : match agentTurnFlow.leave runOptions cursor
        (runNode serde cursor.current answers ctx state).1.1 with
        | .inl next =>
          Along maxTurns yielded
            (.between (runNode serde cursor.current answers ctx state).1.2 next)
        | .inr outcome =>
          Along maxTurns yielded
            (.finished (runNode serde cursor.current answers ctx state).1.2 outcome) := by
      by_cases first : cursor.current = .startTurn
      · have along := startTurn_along first going state.cancelled
        have same : (runNode serde cursor.current answers ctx state).1 =
            startTurn state.cancelled ctx := by
          rw [first]
          rfl
        rw [same]
        exact along
      · obtain ⟨sent, ran⟩ := runNode_ran serde answers ctx state first
          (fun last => ready (.inr last))
        have left := leave_along going ran (by
          intro action next taken target late
          rcases next_decided target late with tools | ⟨decided, onward⟩
          · have reply := (Conversation.executeTools_frame answers ctx).2.2.2.2
            have sound := ready (.inl tools)
            rw [tools]
            intro assistant current
            exact sound assistant (reply ▸ current)
          · rw [decided] at taken ⊢
            exact decideAfterAssistant_sound ctx taken onward)
        rw [append_assoc, ← ran.sends.events] at left
        exact left
    cases target : agentTurnFlow.leave runOptions cursor
        (runNode serde cursor.current answers ctx state).1.1 with
    | inl next | inr next =>
      simp only [target, Option.some.injEq] at taken left
      subst taken
      exact ⟨by rw [shared]; exact limit, left⟩
  | _ => cases taken

theorem apply_along {after : Recording} (inv : Inv maxTurns recording)
    (ended : recording.world.phase = .finished ctx outcome)
    (taken : step serde (.agent .apply) recording = some after) : Inv maxTurns after := by
  obtain ⟨⟨state, phase⟩, yielded⟩ := recording
  cases ended
  obtain ⟨limit, along⟩ := inv
  cases outcome with
  | error error =>
    obtain ⟨turns, orderly, undecided⟩ := along
    cases taken
    exact ⟨limit, turns, orderly.append rfl (nested_singleton rfl), undecided.then_verdict rfl⟩
  | ok outcome =>
    simp only [Along, Ended] at along
    simp only [step, AgentRun.step, apply, verdictOf, append_nil] at taken
    split at along
    · rename_i again
      simp only [again, ↓reduceIte, Option.map_some, Option.some.injEq] at taken
      subst taken
      exact ⟨limit, along.2⟩
    · rename_i last
      simp only [last, ↓reduceIte, Option.map_some, Option.some.injEq] at taken
      subst taken
      exact ⟨limit, along⟩

theorem startRun_inv (state : AgentState) (messages : List AgentMessage)
    (limit : state.config.maxTurns = maxTurns) : Inv maxTurns ⟨startRun state messages, []⟩ where
  limit := limit
  along := ⟨0, rfl, orderly_nil _, undecided_nil⟩

theorem step_inv {call : Call} {after : Recording} (inv : Inv maxTurns recording)
    (taken : step serde call recording = some after) : Inv maxTurns after := by
  cases call with
  | others state =>
    simp only [step] at taken
    split at taken
    · rename_i same
      cases taken
      exact ⟨same.trans inv.limit, inv.along⟩
    · cases taken
  | agent label =>
    have own := taken
    simp only [step] at taken
    obtain ⟨world, stepped, rfl⟩ := Option.map_eq_some_iff.mp taken
    cases label with
    | steer | followUp | drainSteeringQueue | drainFollowUpQueue | abort =>
      cases stepped
      exact ⟨inv.limit, inv.along⟩
    | prompt text =>
      simp only [AgentRun.step, prompt] at stepped
      split at stepped
      · cases stepped
        exact startRun_inv _ _ inv.limit
      · cases stepped
    | run =>
      simp only [AgentRun.step, run] at stepped
      split at stepped
      · split at stepped
        · cases stepped
        · cases stepped
          exact startRun_inv _ _ inv.limit
      · cases stepped
    | snapshot =>
      obtain ⟨limit, along⟩ := snapshot_along inv.limit inv.along stepped
      exact ⟨limit, along⟩
    | enter =>
      obtain ⟨limit, along⟩ := enter_along inv.limit inv.along stepped
      exact ⟨limit, along⟩
    | runNode answers =>
      obtain ⟨limit, along⟩ := finishNode_along serde inv.limit inv.along stepped
      exact ⟨limit, along⟩
    | apply =>
      cases phase : recording.world.phase with
      | finished ctx outcome =>
        rw [phase] at own
        exact apply_along serde inv phase own
      | idle | turnStart | between | inside =>
        simp only [AgentRun.step, apply, phase] at stepped
        cases stepped

theorem Inv.orderly (inv : Inv maxTurns recording) :
    ∃ turns, Orderly maxTurns turns recording.stream := by
  obtain ⟨⟨state, phase⟩, yielded⟩ := recording
  cases phase with
  | idle =>
    obtain ⟨turns, orderly, _⟩ := inv.along
    refine ⟨turns, ?_⟩
    rw [Recording.stream]
    exact (append_nil yielded).symm ▸ orderly
  | turnStart turn =>
    obtain ⟨turns, _, orderly, _⟩ := inv.along
    refine ⟨turns, ?_⟩
    rw [Recording.stream]
    exact (append_nil yielded).symm ▸ orderly
  | between ctx cursor | inside ctx cursor =>
    obtain ⟨⟨_, turns, _, orderly, _⟩, _⟩ := inv.along
    exact ⟨turns, orderly⟩
  | finished ctx outcome =>
    have ended : Ended maxTurns ctx (yielded ++ ctx.events) outcome := inv.along
    cases outcome with
    | error error =>
      obtain ⟨turns, orderly, _⟩ := ended
      exact ⟨turns, orderly⟩
    | ok outcome =>
      simp only [Ended] at ended
      split at ended
      · obtain ⟨_, turns, _, orderly, _⟩ := ended
        exact ⟨turns, orderly⟩
      · obtain ⟨turns, orderly, _⟩ := ended
        exact ⟨turns, orderly⟩

/-- The stream of a run, whatever the provider, the tools, the hooks and the compaction answer
and whenever it is cancelled: if it ends, its last event is its only verdict; its turns are
numbered from one and within the limit; and tool calls never end more often than they started. -/
theorem run_decided {state : AgentState} {calls : List Call} {final : Recording}
    (run : Transition.follow (step serde) calls (.start state) = some final) :
    (final.world.phase = .idle → Decided final.stream) ∧
      (∃ turns, turnNumbers final.stream =
        (range turns).map fun turn => UInt32.ofNat (turn + 1)) ∧
      (∀ most, state.config.maxTurns = some most → ∀ turn ∈ turnNumbers final.stream, turn ≤ most) ∧
      toolPairing.Nested final.stream ∧
      ∀ before event after toolCallId, final.stream = before ++ event :: after →
        toolPairing.opens event = some toolCallId →
        toolPairing.openings toolCallId final.stream = 1 →
        toolPairing.endings toolCallId after ≤ 1 := by
  have ran : Transition.Run (step serde) (fun _ _ => True) (.start state) calls final :=
    .of_follow (fun _ _ _ => trivial) run
  have inv : Inv state.config.maxTurns final :=
    ran.invariant (fun _ _ _ inv _ taken => step_inv serde inv taken) (begun state)
  obtain ⟨turns, orderly⟩ := inv.orderly
  refine ⟨?_, ⟨turns, orderly.numbers⟩, orderly.bounded, orderly.nested, ?_⟩
  · intro idle
    have along := inv.along
    rw [idle] at along
    obtain ⟨_, _, decided⟩ := along
    rw [Recording.stream, idle]
    exact (append_nil final.yielded).symm ▸ decided
  · intro before event after toolCallId split _ single
    exact orderly.nested.once split single

end Runs

def twice : AssistantMessage :=
  { AssistantMessage.empty "api" "model" with
    content := [.toolCall "read" "read" .emptyObject none, .toolCall "read" "read" .emptyObject none]
    stopReason := .toolUse }

def calling : Answers where
  llmEvents := [.done .toolUse twice]

def cancelledTurn : List Call :=
  [.agent .snapshot, .agent .enter, .agent (.runNode {}), .agent .enter, .agent (.runNode {}),
    .agent .enter, .agent (.runNode {}), .agent .enter, .agent (.runNode {}), .agent .enter,
    .agent (.runNode {}), .agent .enter, .agent (.runNode calling), .agent .enter,
    .agent (.runNode {}), .agent .enter, .agent (.runNode {}), .agent .abort, .agent .enter,
    .agent .apply]

theorem run_decided_cancelled : ∃ final,
    Transition.follow (step .silent) cancelledTurn (.start Conversation.newAgent.state) =
        some final ∧
      Decided final.stream :=
  ⟨_, rfl, (@run_decided .silent Conversation.newAgent.state cancelledTurn _ rfl).1 rfl⟩

/-- The first start of an id that is used twice has both ends after it. -/
theorem run_ends_twice : ¬ ∀ calls final,
    Transition.follow (step .silent) calls (.start Conversation.newAgent.state) = some final →
    final.world.phase = .idle →
    ∀ before event after toolCallId, final.stream = before ++ event :: after →
      toolPairing.opens event = some toolCallId → toolPairing.endings toolCallId after ≤ 1 := by
  intro always
  have most := always cancelledTurn _ rfl rfl [_, _, _] _ _ "read" rfl rfl
  exact absurd most (by decide)

end PiRust.RunEvents
