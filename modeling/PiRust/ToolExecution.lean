import Mathlib.Data.List.Pairwise
import PiRust.Conversation

/- The two ways of `execute_tools`: the calls one after another, or all at once with their
results sorted by index. -/
namespace PiRust.ToolExecution

open AgentTurn List

/-- The same turn under `ToolExecutionMode::Sequential`. -/
def sequentially (ctx : AgentTurnContext) : AgentTurnContext :=
  { ctx with config := { ctx.config with toolExecution := .sequential } }

/-- A turn with the tool calls of an assistant message pending. -/
def calling (assistant : AssistantMessage) (ctx : AgentTurnContext) : AgentTurnContext :=
  { ctx with pendingToolCalls := extractToolCalls assistant }

def isStart : AgentEvent → Bool
  | .toolCallStart .. => true
  | _ => false

def isEnd : AgentEvent → Bool
  | .toolCallEnd .. => true
  | _ => false

theorem zipIdx_pairwise {α β : Type} {f : α × Nat → Option β} {index : β → Nat}
    (at_position : ∀ item found, f item = some found → index found = item.2) (items : List α)
    (start : Nat) :
    ((items.zipIdx start).filterMap f).Pairwise fun first second => index first < index second := by
  induction items generalizing start with
  | nil => exact Pairwise.nil
  | cons item rest ih =>
    have later := ih (start + 1)
    rw [zipIdx_cons, filterMap_cons]
    cases here : f (item, start) with
    | none => exact later
    | some found =>
      refine Pairwise.cons ?_ later
      intro other member
      obtain ⟨⟨source, position⟩, inside, taken⟩ := mem_filterMap.mp member
      have := le_snd_of_mem_zipIdx inside
      rw [at_position _ _ here, at_position _ _ taken]
      show start < position
      omega

theorem extractToolCalls_pairwise (assistant : AssistantMessage) :
    (extractToolCalls assistant).Pairwise fun first second => first.index < second.index := by
  apply zipIdx_pairwise
  rintro ⟨block, position⟩ found taken
  cases block <;> cases taken
  rfl

theorem sortByIndex_finished {executions finished : List ToolCallExecution}
    (ordered : executions.Pairwise fun first second => first.index < second.index)
    (perm : finished.Perm executions) : sortByIndex finished = executions := by
  have sorted : (sortByIndex finished).Pairwise fun first second => first.index ≤ second.index :=
    pairwise_insertionSort _ finished
  have weak : executions.Pairwise fun first second => first.index ≤ second.index :=
    ordered.imp fun less => Nat.le_of_lt less
  have same : (sortByIndex finished).Perm executions :=
    (Conversation.sortByIndex_perm finished).trans perm
  refine Perm.eq_of_pairwise ?_ sorted weak same
  intro first second here there le ge
  have distinct : executions.Pairwise fun first second => first.index ≠ second.index :=
    ordered.imp fun less => Nat.ne_of_lt less
  have _ : Std.Symm fun first second : ToolCallExecution => first.index ≠ second.index :=
    ⟨fun _ _ differ => Ne.symm differ⟩
  by_contra apart
  exact distinct.forall (same.mem_iff.mp here) there apart (Nat.le_antisymm le ge)

section Modes

variable (answers : Answers) (assistant : AssistantMessage) (ctx : AgentTurnContext)

/-- What the calls come to, each on its own. -/
def executions : List ToolCallExecution :=
  (extractToolCalls assistant).map (executeCall answers (calling assistant ctx))

theorem executions_pairwise :
    (executions answers assistant ctx).Pairwise fun first second =>
      first.index < second.index :=
  pairwise_map.mpr (extractToolCalls_pairwise assistant)

theorem executions_sorted :
    sortByIndex (executions answers assistant ctx) = executions answers assistant ctx :=
  sortByIndex_finished (executions_pairwise answers assistant ctx) (Perm.refl _)

def callEvents (call : PendingToolCall) : List AgentEvent :=
  startEvent call :: updateEvents answers (calling assistant ctx) call ++
    [endEvent (executeCall answers (calling assistant ctx) call)]

def toolEvents : List AgentEvent :=
  if shouldUseSequentialTools ctx.config.toolExecution (extractToolCalls assistant) ctx.tools then
    (extractToolCalls assistant).flatMap (callEvents answers assistant ctx)
  else
    (extractToolCalls assistant).map startEvent ++
      (answers.finishOrder (executions answers assistant ctx)).map endEvent

/-- Either way the calls leave their results in their own order. -/
theorem executeTools_spec :
    let done := executeTools answers (calling assistant ctx)
    let ran := executions answers assistant ctx
    done.1 = .ok (if ran.isEmpty then .continueProvider else .continueTurn) ∧
      done.2.messages = ctx.messages ++ ran.map resultMessage ∧
      done.2.toolResults = ctx.toolResults ++ ran.map ToolCallExecution.result ∧
      done.2.toolResultsAllTerminate =
        (!ran.isEmpty && ran.all fun execution => execution.result.terminate) ∧
      done.2.events = ctx.events ++ toolEvents answers assistant ctx := by
  have finished : sortByIndex (answers.finishOrder (executions answers assistant ctx)) =
      executions answers assistant ctx :=
    sortByIndex_finished (executions_pairwise answers assistant ctx) (answers.finishOrder_perm _)
  have sorted := executions_sorted answers assistant ctx
  by_cases pending : extractToolCalls assistant = []
  · have none_finished := answers.finishOrder_perm []
    rw [perm_nil] at none_finished
    simp [executeTools, calling, executions, toolEvents, pending, none_finished]
  · have some_calls : (extractToolCalls assistant).isEmpty = false :=
      isEmpty_eq_false_iff.mpr pending
    have some_ran : (executions answers assistant ctx).isEmpty = false := by
      rw [executions, isEmpty_map, some_calls]
    have ran : (extractToolCalls assistant).map (executeCall answers { calling assistant ctx with
        toolResultsAllTerminate := false, pendingToolCalls := [] }) =
        executions answers assistant ctx := rfl
    have here : (calling assistant ctx).pendingToolCalls = extractToolCalls assistant := rfl
    dsimp only
    refine ⟨?_, ?_, ?_, ?_, ?_⟩
    · simp [executeTools, here, some_calls, some_ran]
    · simp only [executeTools, executeSequential_eq, collectParallelToolExecutions_eq, here,
        some_calls, ran, Bool.false_eq_true, ↓reduceIte, finished, appendToolResultMessages,
        apply_ite Prod.fst, ite_self, sorted]
      rfl
    · simp only [executeTools, executeSequential_eq, collectParallelToolExecutions_eq, here,
        some_calls, ran, Bool.false_eq_true, ↓reduceIte, finished, apply_ite Prod.fst, ite_self]
      rfl
    · simp [executeTools, here, some_calls, ran, finished, apply_ite Prod.fst, ite_self]
    · simp only [executeTools, executeSequential_eq, collectParallelToolExecutions_eq, here,
        some_calls, ran, Bool.false_eq_true, ↓reduceIte, apply_ite Prod.snd]
      rfl

theorem updateEvents_silent (call : PendingToolCall) :
    (updateEvents answers (calling assistant ctx) call).filter isStart = [] ∧
      (updateEvents answers (calling assistant ctx) call).filter isEnd = [] := by
  have updates : ∀ event ∈ updateEvents answers (calling assistant ctx) call,
      ∃ update, event = .toolCallUpdate call.id call.name update := by
    intro event member
    unfold updateEvents at member
    split at member
    · obtain ⟨update, _, rfl⟩ := mem_map.mp member
      exact ⟨update, rfl⟩
    · cases member
  constructor
  · rw [filter_eq_nil_iff]
    intro event member
    obtain ⟨update, rfl⟩ := updates event member
    exact Bool.false_ne_true
  · rw [filter_eq_nil_iff]
    intro event member
    obtain ⟨update, rfl⟩ := updates event member
    exact Bool.false_ne_true

theorem callEvents_brackets (call : PendingToolCall) :
    (callEvents answers assistant ctx call).filter isStart = [startEvent call] ∧
      (callEvents answers assistant ctx call).filter isEnd =
        [endEvent (executeCall answers (calling assistant ctx) call)] := by
  obtain ⟨no_start, no_end⟩ := updateEvents_silent answers assistant ctx call
  have start : isStart (startEvent call) = true ∧ isEnd (startEvent call) = false := ⟨rfl, rfl⟩
  have last : ∀ execution, isStart (endEvent execution) = false ∧
      isEnd (endEvent execution) = true := fun _ => ⟨rfl, rfl⟩
  simp [callEvents, no_start, no_end, start, last]

theorem filter_map_all {α β : Type} {f : α → β} {p : β → Bool} (holds : ∀ item, p (f item) = true)
    (items : List α) : (items.map f).filter p = items.map f := by
  rw [filter_eq_self]
  intro event member
  obtain ⟨item, _, rfl⟩ := mem_map.mp member
  exact holds item

theorem filter_map_none {α β : Type} {f : α → β} {p : β → Bool}
    (fails : ∀ item, p (f item) = false) (items : List α) : (items.map f).filter p = [] := by
  rw [filter_eq_nil_iff]
  intro event member
  obtain ⟨item, _, rfl⟩ := mem_map.mp member
  rw [fails item]
  exact Bool.false_ne_true

theorem toolEvents_brackets :
    (toolEvents answers assistant ctx).filter isStart =
        (extractToolCalls assistant).map startEvent ∧
      ((toolEvents answers assistant ctx).filter isEnd).Perm
        ((executions answers assistant ctx).map endEvent) := by
  unfold toolEvents
  split
  · have brackets := callEvents_brackets answers assistant ctx
    rw [filter_flatMap, filter_flatMap]
    simp only [fun call => (brackets call).1, fun call => (brackets call).2]
    rw [← map_eq_flatMap, ← map_eq_flatMap, executions, map_map]
    exact ⟨rfl, Perm.refl _⟩
  · rw [filter_append, filter_append, filter_map_all (fun _ => rfl),
      filter_map_none (fun _ => rfl), filter_map_none (fun _ => rfl), filter_map_all (fun _ => rfl),
      append_nil, nil_append]
    exact ⟨rfl, (answers.finishOrder_perm _).map endEvent⟩

/-- The turn goes on the same way from both. -/
structure GoesOnAs (done sequential : NodeResult) : Prop where
  action : done.1 = sequential.1
  messages : done.2.messages = sequential.2.messages
  toolResults : done.2.toolResults = sequential.2.toolResults
  allTerminate : done.2.toolResultsAllTerminate = sequential.2.toolResultsAllTerminate

/-- Whatever the mode and the order in which parallel calls finish, the turn goes on as after
sequential calls: with the results in the order of the calls, and one start and one end event
for each call. -/
theorem executeTools_eq_sequential :
    GoesOnAs (executeTools answers (calling assistant ctx))
        (executeTools answers (calling assistant (sequentially ctx))) ∧
      (executeTools answers (calling assistant ctx)).2.messages =
        ctx.messages ++ (executions answers assistant ctx).map resultMessage ∧
      (executeTools answers (calling assistant ctx)).2.toolResults =
        ctx.toolResults ++ (executions answers assistant ctx).map ToolCallExecution.result ∧
      ∃ events, (executeTools answers (calling assistant ctx)).2.events = ctx.events ++ events ∧
        events.filter isStart = (extractToolCalls assistant).map startEvent ∧
        (events.filter isEnd).Perm ((executions answers assistant ctx).map endEvent) := by
  obtain ⟨action, messages, results, terminate, events⟩ := executeTools_spec answers assistant ctx
  obtain ⟨other, otherMessages, otherResults, otherTerminate, _⟩ :=
    executeTools_spec answers assistant (sequentially ctx)
  have same : executions answers assistant (sequentially ctx) = executions answers assistant ctx :=
    rfl
  rw [same] at other otherMessages otherResults otherTerminate
  have goes_on : GoesOnAs (executeTools answers (calling assistant ctx))
      (executeTools answers (calling assistant (sequentially ctx))) :=
    ⟨action.trans other.symm, messages.trans otherMessages.symm,
      results.trans otherResults.symm, terminate.trans otherTerminate.symm⟩
  obtain ⟨starts, ends⟩ := toolEvents_brackets answers assistant ctx
  exact ⟨goes_on, messages, results, _, events, starts, ends⟩

end Modes

end PiRust.ToolExecution
