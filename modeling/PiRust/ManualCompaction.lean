import PiRust.Hydration
import PiRust.SessionRecord

/- `manual_compaction_flow.rs`, and what the compacted session shows to the agent. -/
namespace PiRust.SessionLog

open List

/-- What a flow is given from outside: whether the agent could be built, the summary that
the provider makes of some messages, the ids of its events and the clock. -/
structure CompactionSystem where
  values : Serde
  runtime : RuntimeSnapshot
  buildAgentRuntime : Except CodingSessionError Unit
  summarize : List AgentMessage → Except String String
  nextEventId : Nat → String
  now : String

structure ManualCompactionContext where
  replay : SessionReplay
  transaction : Option TurnTransaction
  firstKeptMessageId : Option String
  tokensBefore : Option UInt32
  summaryMessages : List AgentMessage
  summary : Option String
  finalMessage : Option AssistantMessage

structure ManualCompactionOutcome where
  summary : String
  firstKeptMessageId : String
  tokensBefore : UInt32
  finalMessage : AssistantMessage

def compactionFinalMessage (runtime : RuntimeSnapshot) (summary : String) : AssistantMessage :=
  { AssistantMessage.empty runtime.api runtime.model.id with
    provider := some runtime.model.provider
    content := [.text summary none] }

namespace ManualCompactionContext

def new (replay : SessionReplay) (transaction : TurnTransaction) : ManualCompactionContext where
  replay := replay
  transaction := some transaction
  firstKeptMessageId := none
  tokensBefore := none
  summaryMessages := []
  summary := none
  finalMessage := none

def startCompaction (ctx : ManualCompactionContext) :
    Except CodingSessionError ManualCompactionContext :=
  if ctx.transaction.isNone then
    .error (.session "manual compaction cannot start without a transaction")
  else .ok ctx

def loadSessionReplay (ctx : ManualCompactionContext) :
    Except CodingSessionError ManualCompactionContext :=
  if ctx.replay.sessionId = "" then
    .error (.session "manual compaction cannot load an unnamed session replay")
  else .ok ctx

def selectCompactionRange (ctx : ManualCompactionContext) :
    Except CodingSessionError ManualCompactionContext :=
  if ctx.firstKeptMessageId.isSome then .ok ctx
  else
    match ctx.replay.transcript.reverse.findSome? transcriptItemId with
    | none => .error (.session "Nothing to compact (no messages yet)")
    | some firstKeptMessageId => .ok { ctx with firstKeptMessageId := some firstKeptMessageId }

def recordEvent (eventId now : String) (data : SessionEventData)
    (recordable : isRecordable data) (ctx : ManualCompactionContext) :
    Except CodingSessionError ManualCompactionContext :=
  match ctx.transaction with
  | none => .error (.session "manual compaction has no active transaction")
  | some transaction =>
    .ok { ctx with transaction := some (transaction.record eventId now data recordable) }

variable (system : CompactionSystem) (ctx : ManualCompactionContext)

def prepareSummaryContext : Except CodingSessionError ManualCompactionContext :=
  if ctx.summaryMessages ≠ [] then .ok ctx
  else
    match system.buildAgentRuntime with
    | .error error => .error error
    | .ok () =>
      let messages := hydrateAgentRuntime system.runtime ctx.replay.transcript
      if messages.length < 2 then .error (.session "Nothing to compact (no messages yet)")
      else
        let firstKeptIndex := messages.length - 1
        let toSummarize := messages.take firstKeptIndex
        if toSummarize = [] then
          .error (.session "Nothing to compact (no compactable history)")
        else
          let tokensBefore := Compaction.estimateTokens system.values messages
          if ctx.firstKeptMessageId.isNone then
            .error (.session "manual compaction range was not selected")
          else
            match ctx.recordEvent (system.nextEventId 0) system.now .sessionCompactionStarted
                rfl with
            | .error error => .error error
            | .ok recorded =>
              .ok { recorded with
                tokensBefore := some tokensBefore
                summaryMessages := toSummarize }

def runSummaryModel : Except CodingSessionError ManualCompactionContext :=
  if ctx.summary.isSome then .ok ctx
  else
    match system.summarize ctx.summaryMessages with
    | .error error => .error (.provider error)
    | .ok summary =>
      .ok { ctx with
        summary := some summary
        finalMessage := some (compactionFinalMessage system.runtime summary) }

def recordCompactionEvents : Except CodingSessionError ManualCompactionContext :=
  match ctx.summary, ctx.firstKeptMessageId, ctx.tokensBefore with
  | none, _, _ =>
    .error (.session "manual compaction cannot record events without a summary")
  | some _, none, _ =>
    .error (.session "manual compaction cannot record events without a kept message id")
  | some _, some _, none =>
    .error (.session "manual compaction cannot record events without token accounting")
  | some summary, some firstKeptMessageId, some tokensBefore =>
    ctx.recordEvent (system.nextEventId 1) system.now
      (.sessionCompactionCompleted summary firstKeptMessageId tokensBefore) rfl

def finishSuccess : Except CodingSessionError ManualCompactionOutcome :=
  match ctx.summary, ctx.firstKeptMessageId, ctx.tokensBefore, ctx.finalMessage with
  | none, _, _, _ => .error (.session "manual compaction cannot finish without a summary")
  | some _, none, _, _ =>
    .error (.session "manual compaction cannot finish without a kept message id")
  | some _, some _, none, _ =>
    .error (.session "manual compaction cannot finish without token accounting")
  | some _, some _, some _, none =>
    .error (.session "manual compaction cannot finish without a final message")
  | some summary, some firstKeptMessageId, some tokensBefore, some finalMessage =>
    .ok ⟨summary, firstKeptMessageId, tokensBefore, finalMessage⟩

def prepare :
    Except CodingSessionError ManualCompactionContext := do
  let ctx ← ctx.startCompaction
  let ctx ← ctx.loadSessionReplay
  let ctx ← ctx.selectCompactionRange
  ctx.prepareSummaryContext system

/-- The other nodes. `finalize_compaction` and `emit_completion` both check the outcome. -/
def complete :
    Except CodingSessionError ManualCompactionContext := do
  let ctx ← ctx.runSummaryModel system
  let ctx ← ctx.recordCompactionEvents system
  let _ ← ctx.finishSuccess
  return ctx

def run :
    Except CodingSessionError ManualCompactionContext := do
  let ctx ← ctx.prepare system
  ctx.complete system

end ManualCompactionContext

def lastItemId (transcript : List TranscriptItem) : Option String :=
  (transcript.filterMap transcriptItemId).getLast?

def keptItems (transcript : List TranscriptItem) : List TranscriptItem :=
  transcript.dropWhile fun item => transcriptItemId item ≠ lastItemId transcript

/-- Every message has gone to the summary, or is there again, apart from its id, after the
message with the summary. -/
def LosesNothing (messages summarized rehydrated : List AgentMessage) : Prop :=
  ∀ (index : Nat) message, messages[index]? = some message →
    summarized[index]? = some message ∨
      ∃ (other : Nat) (again : AgentMessage), rehydrated[other + 1]? = some again ∧
        messageBody again = messageBody message

section kept

variable {transcript : List TranscriptItem} {id : String}

theorem selected_id (transcript : List TranscriptItem) :
    transcript.reverse.findSome? transcriptItemId = lastItemId transcript := by
  rw [← head?_filterMap, filterMap_reverse, head?_reverse, lastItemId]

theorem exists_lastItem (last : lastItemId transcript = some id) :
    ∃ item ∈ transcript, transcriptItemId item = some id :=
  mem_filterMap.mp (mem_of_getLast? last)

theorem applyCompactionCompleted_kept {builder : ReplayBuilder}
    (last : lastItemId builder.transcript = some id) (summary : String) (tokensBefore : UInt32) :
    (builder.applyCompactionCompleted summary id tokensBefore).transcript =
      .compactionSummary summary id tokensBefore :: keptItems builder.transcript := by
  obtain ⟨item, member, named⟩ := exists_lastItem last
  have found : builder.transcript.findIdx? (fun item => transcriptItemId item = some id) =
      some (builder.transcript.findIdx fun item => transcriptItemId item = some id) :=
    findIdx?_eq_some_of_exists ⟨item, member, by simpa using named⟩
  have kept : keptItems builder.transcript =
      builder.transcript.drop
        (builder.transcript.findIdx fun item => transcriptItemId item = some id) := by
    rw [keptItems, dropWhile_eq_drop_findIdx_not, last]
    simp
  unfold ReplayBuilder.applyCompactionCompleted
  rw [found, kept]
  obtain ⟨messages, tools, delegations, rebuilt⟩ := ReplayBuilder.rebuildIndices_eq
    { builder with
      transcript := .compactionSummary summary id tokensBefore :: builder.transcript.drop
        (builder.transcript.findIdx fun item => transcriptItemId item = some id) }
  exact congrArg ReplayBuilder.transcript rebuilt

theorem applyEvent_compaction {builder : ReplayBuilder} {event : SessionEventEnvelope}
    {summary : String} {tokensBefore : UInt32}
    (data : event.data = .sessionCompactionCompleted summary id tokensBefore)
    (last : lastItemId builder.transcript = some id) (values : Serde) :
    (builder.applyEvent values event).transcript =
      .compactionSummary summary id tokensBefore :: keptItems builder.transcript := by
  unfold ReplayBuilder.applyEvent
  rw [data]
  apply applyCompactionCompleted_kept
  exact last

theorem lastBodies_append (runtime : RuntimeSnapshot) (items more : List TranscriptItem) :
    lastBodies runtime (items ++ more) = lastBodies runtime items ++ lastBodies runtime more :=
  filterMap_append

theorem hydrate_last_kept {runtime : RuntimeSnapshot} {message : AgentMessage}
    (last : (hydrateAgentRuntime runtime transcript).getLast? = some message)
    {item : TranscriptItem} (member : item ∈ keptItems transcript)
    (hydrates : item.hydrates = true) :
    ∃ again, (hydrateFrom runtime 1 (keptItems transcript)).getLast? = some again ∧
      messageBody again = messageBody message := by
  have whole : lastBodies runtime transcript =
      lastBodies runtime (transcript.takeWhile fun item =>
        transcriptItemId item ≠ lastItemId transcript) ++
        lastBodies runtime (keptItems transcript) := by
    rw [← lastBodies_append, keptItems, takeWhile_append_dropWhile]
  have some_kept : lastBodies runtime (keptItems transcript) ≠ [] := by
    intro none
    have empty := (lastBodies_eq_nil_iff _).mp none item member
    rw [hydrates] at empty
    cases empty
  have bodies : (lastBodies runtime (keptItems transcript)).getLast? =
      some (messageBody message) := by
    have before := @hydrateFrom_last runtime 0 transcript
    rw [← hydrateAgentRuntime_eq, last, whole, getLast?_append_of_ne_nil _ some_kept] at before
    exact before.symm
  have after := @hydrateFrom_last runtime 1 (keptItems transcript)
  rw [bodies] at after
  exact Option.map_eq_some_iff.mp after

theorem losesNothing_iff {runtime : RuntimeSnapshot}
    (several : 2 ≤ (hydrateAgentRuntime runtime transcript).length) (summary : String)
    (tokensBefore : UInt32) :
    LosesNothing (hydrateAgentRuntime runtime transcript)
        ((hydrateAgentRuntime runtime transcript).take
          ((hydrateAgentRuntime runtime transcript).length - 1))
        (hydrateAgentRuntime runtime
          (.compactionSummary summary id tokensBefore :: keptItems transcript)) ↔
      ∃ item ∈ keptItems transcript, item.hydrates = true := by
  rw [hydrate_compacted]
  generalize messages_eq : hydrateAgentRuntime runtime transcript = messages at several ⊢
  have present : messages[messages.length - 1]? = messages.getLast? :=
    getLast?_eq_getElem?.symm
  constructor
  · intro nothing
    by_contra silent
    have none : hydrateFrom runtime 1 (keptItems transcript) = [] :=
      (hydrateFrom_eq_nil_iff 1 _).mpr fun item member => by
        by_contra loud
        exact silent ⟨item, member, by simpa using loud⟩
    have inside : messages.length - 1 < messages.length := by omega
    rcases nothing _ _ (getElem?_eq_getElem inside) with summarized | ⟨other, again, there, -⟩
    · have short : (messages.take (messages.length - 1)).length ≤ messages.length - 1 := by
        rw [length_take]
        omega
      rw [getElem?_eq_none short] at summarized
      cases summarized
    · rw [none] at there
      cases there
  · rintro ⟨item, member, hydrates⟩ index message there
    have inside : index < messages.length := (List.getElem?_eq_some_iff.mp there).1
    by_cases early : index < messages.length - 1
    · left
      rw [getElem?_take_of_lt early]
      exact there
    · right
      have position : index = messages.length - 1 := by omega
      rw [position, present, ← messages_eq] at there
      obtain ⟨again, last, same⟩ := hydrate_last_kept there member hydrates
      refine ⟨(hydrateFrom runtime 1 (keptItems transcript)).length - 1, again, ?_, same⟩
      rw [getElem?_cons_succ, ← getLast?_eq_getElem?]
      exact last

end kept

namespace ManualCompactionContext

variable {system : CompactionSystem} {replay : SessionReplay} {transaction : TurnTransaction}
  {ctx selected prepared : ManualCompactionContext}

theorem selectCompactionRange_new
    (success : (new replay transaction).selectCompactionRange = .ok selected) :
    ∃ id, lastItemId replay.transcript = some id ∧
      selected = { new replay transaction with firstKeptMessageId := some id } := by
  have found : (new replay transaction).replay.transcript.reverse.findSome? transcriptItemId =
      lastItemId replay.transcript := selected_id replay.transcript
  simp only [selectCompactionRange, found] at success
  cases last : lastItemId replay.transcript with
  | none =>
    rw [last] at success
    cases success
  | some id =>
    rw [last] at success
    exact ⟨id, rfl, (Except.ok.inj success).symm⟩

theorem prepareSummaryContext_ok (open_ctx : ctx.summaryMessages = [])
    (success : ctx.prepareSummaryContext system = .ok prepared) :
    let messages := hydrateAgentRuntime system.runtime ctx.replay.transcript
    2 ≤ messages.length ∧ ∃ transaction, prepared = { ctx with
      transaction := some transaction
      tokensBefore := some (Compaction.estimateTokens system.values messages)
      summaryMessages := messages.take (messages.length - 1) } := by
  intro messages
  simp only [prepareSummaryContext, open_ctx, ne_eq, not_true_eq_false, if_false] at success
  split at success
  · cases success
  split at success
  · cases success
  · rename_i several
    split at success
    · cases success
    · split at success
      · cases success
      · split at success
        · cases success
        · rename_i recorded
          unfold recordEvent at recorded
          split at recorded <;> cases recorded
          cases success
          exact ⟨Nat.le_of_not_lt several, _, rfl⟩

/-- A manual compaction loses none of the messages that the agent had, from a first
preparation that succeeds to the replay of the recorded event, exactly if an item turns into
a message from the first on that carries the last id of the transcript. -/
theorem manual_compaction_loses_nothing_iff
    (range : (new replay transaction).selectCompactionRange = .ok selected)
    (success : selected.prepareSummaryContext system = .ok prepared) (summary : String) :
    ∃ recorded transaction event,
      { prepared with summary := some summary }.recordCompactionEvents system = .ok recorded ∧
      recorded.transaction = some transaction ∧ transaction.pendingEvents.getLast? = some event ∧
      ∀ builder : ReplayBuilder, builder.transcript = replay.transcript →
        (LosesNothing (hydrateAgentRuntime system.runtime replay.transcript)
            prepared.summaryMessages
            (hydrateAgentRuntime system.runtime
              (builder.applyEvent system.values event).transcript) ↔
          ∃ item ∈ keptItems replay.transcript, item.hydrates = true) := by
  obtain ⟨id, last, rfl⟩ := selectCompactionRange_new range
  obtain ⟨several, transaction, rfl⟩ := prepareSummaryContext_ok rfl success
  refine ⟨_, _, _, rfl, rfl, getLast?_concat .., fun builder shown => ?_⟩
  have lastShown : lastItemId builder.transcript = some id := by
    rw [shown]
    exact last
  have settled := @losesNothing_iff replay.transcript id system.runtime several summary
    (Compaction.estimateTokens system.values (hydrateAgentRuntime system.runtime replay.transcript))
  rw [applyEvent_compaction rfl lastShown, shown]
  exact settled

section samples

def sampleCompaction : CompactionSystem where
  values := sampleValues
  runtime := ⟨⟨"model", "provider", 0⟩, "api"⟩
  buildAgentRuntime := .ok ()
  summarize := fun _ => .ok "listed"
  nextEventId := fun _ => "e"
  now := "t"

def sampleTransaction : TurnTransaction :=
  .start "s" "op_1" "turn_1" ("a", "b") "t" .manualCompaction

def replayOf (transcript : List TranscriptItem) : SessionReplay where
  sessionId := "s"
  cwd := none
  activeLeafId := none
  leaves := []
  transcript := transcript
  diagnostics := []
  pendingDelegationConfirmations := []
  usage := {}
  operationStatuses := []

def answeredItems : List TranscriptItem :=
  [.userInput "turn_1" "list", .assistantMessage "msg_1" [.text "src"] .completed]

def cancelledItems : List TranscriptItem :=
  answeredItems ++ [.userInput "turn_2" "read", .assistantMessage "msg_2" [] .cancelled]

theorem manual_compaction_loses_nothing_iff_answered :
    ∃ selected prepared recorded transaction event,
      (new (replayOf answeredItems) sampleTransaction).selectCompactionRange = .ok selected ∧
      selected.prepareSummaryContext sampleCompaction = .ok prepared ∧
      { prepared with summary := some "listed" }.recordCompactionEvents sampleCompaction =
        .ok recorded ∧
      recorded.transaction = some transaction ∧ transaction.pendingEvents.getLast? = some event ∧
      LosesNothing (hydrateAgentRuntime sampleCompaction.runtime answeredItems)
        prepared.summaryMessages
        (hydrateAgentRuntime sampleCompaction.runtime
          (ReplayBuilder.applyEvent sampleValues event
            { transcript := answeredItems }).transcript) := by
  obtain ⟨recorded, transaction, event, written, held, last, nothing⟩ :=
    @manual_compaction_loses_nothing_iff sampleCompaction (replayOf answeredItems)
      sampleTransaction _ _ rfl rfl "listed"
  refine ⟨_, _, recorded, transaction, event, rfl, rfl, written, held, last, ?_⟩
  exact (nothing { transcript := answeredItems } rfl).mpr (by decide)

/-- The cancelled answer is kept, and the prompt before it lost. -/
theorem cancelled_answer_loses_prompt :
    ∃ selected prepared,
      (new (replayOf cancelledItems) sampleTransaction).selectCompactionRange = .ok selected ∧
      selected.prepareSummaryContext sampleCompaction = .ok prepared ∧
      prepared.firstKeptMessageId = some "msg_2" ∧
      ∀ summary tokensBefore, ¬ LosesNothing
        (hydrateAgentRuntime sampleCompaction.runtime cancelledItems) prepared.summaryMessages
        (hydrateAgentRuntime sampleCompaction.runtime
          (ReplayBuilder.applyCompactionCompleted summary "msg_2" tokensBefore
            { transcript := cancelledItems }).transcript) := by
  refine ⟨_, _, rfl, rfl, rfl, fun summary tokensBefore nothing => ?_⟩
  have last : lastItemId cancelledItems = some "msg_2" := by decide
  rw [applyCompactionCompleted_kept last] at nothing
  have silent : ¬ ∃ item ∈ keptItems cancelledItems, item.hydrates = true := by decide
  exact silent ((losesNothing_iff (by decide) summary tokensBefore).mp nothing)

end samples

end ManualCompactionContext

end PiRust.SessionLog
