import PiRust.Compaction
import PiRust.ToolCallDeltas

/- `providers/openai/completions`. -/
namespace PiRust.Completions

structure Delta where
  content : Option String
  reasoningContent : Option String
  reasoning : Option String
  reasoningText : Option String
  toolCalls : Option (List ToolCallDelta)

structure ChoiceDelta where
  delta : Delta
  finishReason : Option String

structure ChatUsage where
  promptTokens : UInt32
  completionTokens : UInt32
  totalTokens : UInt32
  /-- `prompt_tokens_details.cached_tokens`. -/
  cachedTokens : Option UInt32

structure ChatCompletionChunk where
  id : String
  model : String
  choices : List ChoiceDelta
  usage : Option ChatUsage

structure CompletionsHandler where
  firstEvent : Bool := false
  textContentIndex : Option UInt32 := none
  thinkingContentIndex : Option UInt32 := none
  tools : ToolIndex := {}
  finishReason : Option String := none

abbrev Work := Progress CompletionsHandler

/-- The fields are tried in this order, empty ones passed over. -/
def firstReasoningDelta (delta : Delta) : Option String :=
  [delta.reasoningContent, delta.reasoning, delta.reasoningText].findSome?
    fun field => field.filter (· ≠ "")

def mapFinishReason : Option String → StopReason
  | some "stop" | none => .stop
  | some "length" => .length
  | some "tool_calls" => .toolUse
  | some "content_filter" => .error
  | _ => .stop

def mapUsage (usage : ChatUsage) : Usage where
  input := Compaction.saturatingSub usage.promptTokens (usage.cachedTokens.getD 0)
  output := usage.completionTokens
  cacheRead := usage.cachedTokens.getD 0
  totalTokens :=
    if usage.totalTokens = 0 then usage.promptTokens + usage.completionTokens
    else usage.totalTokens

def onFinishReason (choice : ChoiceDelta) (work : Work) : Work :=
  if effective choice.finishReason then
    work.withState { work.state with finishReason := choice.finishReason }
  else work

def openText (work : Work) : Work × UInt32 :=
  match work.state.textContentIndex with
  | some ci => (work, ci)
  | none =>
    let ci := work.position
    (((work.withState { work.state with textContentIndex := some ci }).push
      (.text "" none)).emit (.textStart ci), ci)

def onContent (choice : ChoiceDelta) (work : Work) : Work :=
  match choice.delta.content with
  | some textDelta =>
    if textDelta = "" then work
    else
      let opened := openText work
      (opened.1.edit opened.2.toNat (ContentBlock.pushText textDelta)).emit
        (.textDelta opened.2 textDelta)
  | none => work

def openThinking (work : Work) : Work × UInt32 :=
  match work.state.thinkingContentIndex with
  | some ci => (work, ci)
  | none =>
    let ci := work.position
    (((work.withState { work.state with thinkingContentIndex := some ci }).push
      (.thinking "" none none)).emit (.thinkingStart ci), ci)

def onReasoning (choice : ChoiceDelta) (work : Work) : Work :=
  match firstReasoningDelta choice.delta with
  | some reasoningDelta =>
    if reasoningDelta = "" then work
    else
      let opened := openThinking work
      (opened.1.edit opened.2.toNat (ContentBlock.pushThinking reasoningDelta)).emit
        (.thinkingDelta opened.2 reasoningDelta)
  | none => work

def rename (id : Option String) (name : String) (block : ContentBlock) : ContentBlock :=
  match id with
  | some id => (block.setName name).setId id
  | none => block.setName name

variable (serde : Serde)

def onToolCalls (choice : ChoiceDelta) (work : Work) : Work :=
  match choice.delta.toolCalls with
  | some deltas =>
    work.focus CompletionsHandler.tools (fun tools state => { state with tools := tools })
      fun part => deltas.foldl (onToolCall serde rename) part
  | none => work

def onChoice (work : Work) (choice : ChoiceDelta) : Work :=
  onToolCalls serde choice (onReasoning choice (onContent choice (onFinishReason choice work)))

variable (chunk : ChatCompletionChunk)

def onFirst (work : Work) : Work :=
  if work.state.firstEvent then work
  else
    let started : Work := { work with
      partialMessage.responseId := some chunk.id
      partialMessage.responseModel := some chunk.model }
    let emitted := started.emit (.start none)
    emitted.withState { emitted.state with firstEvent := true }

def onUsage (work : Work) : Work :=
  match chunk.usage with
  | some usage => { work with partialMessage.usage := mapUsage usage }
  | none => work

def onChunk (work : Work) : Work :=
  onUsage chunk (chunk.choices.foldl (onChoice serde) (onFirst chunk work))

def endText (work : Work) : Work :=
  match work.state.textContentIndex with
  | some ci => work.emit (.textEnd ci)
  | none => work

def endThinking (work : Work) : Work :=
  match work.state.thinkingContentIndex with
  | some ci => work.emit (.thinkingEnd ci)
  | none => work

def finalize (order : IterationOrder) (state : CompletionsHandler)
    (partialMessage : AssistantMessage) : AssistantMessage × List AssistantMessageEvent :=
  let work := endThinking (endText ⟨state, partialMessage, []⟩)
  let ended := endToolcalls serde order ⟨state.tools, work.partialMessage, work.events⟩
  ({ ended.partialMessage with
      stopReason := mapFinishReason state.finishReason
      usage :=
        if ended.partialMessage.usage.totalTokens = 0 then {} else ended.partialMessage.usage },
    ended.events)

/-- `parse` stands for the derived `serde_json::from_str::<ChatCompletionChunk>`. -/
def handler (parse : String → Except String ChatCompletionChunk) (order : IterationOrder) :
    SseEventHandler CompletionsHandler :=
  chunkHandler parse {} (onChunk serde) (finalize serde order)

/-- What a chunk says about the argument texts. -/
def moves : List (Assembly.Move UInt32) :=
  chunk.choices.flatMap fun choice =>
    (choice.delta.toolCalls.getD []).map ToolCallDelta.move

/-- The tool calls of a sequence of chunks. -/
def calls (chunks : List ChatCompletionChunk) : Assembly UInt32 :=
  Assembly.run (chunks.flatMap moves)

def Finishes : Prop :=
  ∃ choice ∈ chunk.choices, effective choice.finishReason

/-- The tool-call deltas of a chunk. -/
def toolDeltas : List ToolCallDelta :=
  chunk.choices.flatMap fun choice => choice.delta.toolCalls.getD []

section Rules

variable {serde} {seen : List ToolCallDelta} {work : Work}
  {Rel : List ToolCallDelta → ToolIndex → List ContentBlock → Prop}
  (rule : CallRule serde rename Rel)
include rule

section

variable (holds : Rel seen work.state.tools work.partialMessage.content)
include holds

theorem onContent_rule (choice : ChoiceDelta) : Rel seen (onContent choice work).state.tools
      (onContent choice work).partialMessage.content := by
  have opened : Rel seen (openText work).1.state.tools
      (openText work).1.partialMessage.content := by
    unfold openText
    split
    · exact holds
    · exact rule.push rfl holds
  unfold onContent
  split
  · split
    · exact holds
    · exact rule.edit _ (call?_pushText _) opened
  · exact holds

theorem onReasoning_rule (choice : ChoiceDelta) : Rel seen (onReasoning choice work).state.tools
      (onReasoning choice work).partialMessage.content := by
  have opened : Rel seen (openThinking work).1.state.tools
      (openThinking work).1.partialMessage.content := by
    unfold openThinking
    split
    · exact holds
    · exact rule.push rfl holds
  unfold onReasoning
  split
  · split
    · exact holds
    · exact rule.edit _ (call?_pushThinking _) opened
  · exact holds

theorem onChoice_rule (choice : ChoiceDelta) : Rel (seen ++ choice.delta.toolCalls.getD [])
      (onChoice serde work choice).state.tools
      (onChoice serde work choice).partialMessage.content := by
  have reason : Rel seen (onFinishReason choice work).state.tools
      (onFinishReason choice work).partialMessage.content := by
    unfold onFinishReason
    split
    · exact holds
    · exact holds
  have before := onReasoning_rule rule (onContent_rule rule reason choice) choice
  unfold onChoice onToolCalls
  split
  · rename_i deltas given
    rw [given]
    exact rule.steps before deltas
  · rename_i absent
    rw [absent, Option.getD_none, List.append_nil]
    exact before

theorem onChunk_rule (chunk : ChatCompletionChunk) : Rel (seen ++ toolDeltas chunk)
      (onChunk serde chunk work).state.tools (onChunk serde chunk work).partialMessage.content := by
  have started : Rel seen (onFirst chunk work).state.tools
      (onFirst chunk work).partialMessage.content := by
    unfold onFirst
    split
    · exact holds
    · exact holds
  have handled := (onFirst chunk work).foldl_reads (fun choice => choice.delta.toolCalls.getD [])
    (fun seen work => Rel seen work.state.tools work.partialMessage.content)
    (fun choice holds => onChoice_rule rule holds choice) chunk.choices started
  unfold onChunk onUsage
  split
  · exact handled
  · exact handled

end

theorem finalize_rule {state : CompletionsHandler} {partialMessage : AssistantMessage}
    (holds : Rel seen state.tools partialMessage.content) (order : IterationOrder) :
    Rel seen state.tools (finalize serde order state partialMessage).1.content := by
  have texts : (endThinking (endText ⟨state, partialMessage, []⟩)).partialMessage.content =
      partialMessage.content := by
    unfold endThinking endText
    split <;> split <;> rfl
  rw [← texts] at holds
  exact rule.ends ⟨state.tools,
    (endThinking (endText ⟨state, partialMessage, []⟩)).partialMessage,
    (endThinking (endText ⟨state, partialMessage, []⟩)).events⟩ order holds

end Rules

theorem arguments?_rename (id : Option String) (name : String) (block : ContentBlock) :
    (rename id name block).arguments? = block.arguments? := by
  cases id <;> simp [rename]

section Steps

variable {serde} {work : Work}

theorem finalize_length (order : IterationOrder) (state : CompletionsHandler)
    (partialMessage : AssistantMessage) :
    (finalize serde order state partialMessage).1.content.length =
      partialMessage.content.length := by
  have texts : (endThinking (endText ⟨state, partialMessage, []⟩)).blockCount =
      partialMessage.content.length := by
    unfold endThinking endText
    split <;> split <;> rfl
  exact (endToolcalls_blockCount serde order _).trans texts

theorem onChoice_finishReason {choice : ChoiceDelta} (goes_on : effective choice.finishReason = false) :
    (onChoice serde work choice).state.finishReason = work.state.finishReason := by
  have texts : (openText work).1.state.finishReason = work.state.finishReason := by
    unfold openText
    split <;> rfl
  have content : (onContent choice work).state.finishReason = work.state.finishReason := by
    unfold onContent
    split
    · split
      · rfl
      · exact texts
    · rfl
  have reasoning : ∀ work : Work,
      (onReasoning choice work).state.finishReason = work.state.finishReason := by
    intro work
    unfold onReasoning openThinking
    split
    · split
      · rfl
      · split <;> rfl
    · rfl
  have tools : ∀ work : Work,
      (onToolCalls serde choice work).state.finishReason = work.state.finishReason := by
    intro work
    unfold onToolCalls
    split <;> rfl
  unfold onChoice onFinishReason
  rw [goes_on, tools, reasoning]
  exact content

theorem onChunk_finishReason {chunk : ChatCompletionChunk} (goes_on : ¬ Finishes chunk) :
    (onChunk serde chunk work).state.finishReason = work.state.finishReason := by
  have first : (onFirst chunk work).state.finishReason = work.state.finishReason := by
    unfold onFirst
    split <;> rfl
  have choices : (chunk.choices.foldl (onChoice serde) (onFirst chunk work)).state.finishReason =
      (onFirst chunk work).state.finishReason := by
    apply (onFirst chunk work).foldl_keeps fun later => later.state.finishReason
    intro choice member work
    apply onChoice_finishReason
    rw [← Bool.not_eq_true]
    exact fun ends => goes_on ⟨choice, member, ends⟩
  unfold onChunk onUsage
  split
  · exact choices.trans first
  · exact choices.trans first

end Steps

section Runs

variable {serde} {parse : String → Except String ChatCompletionChunk} {order : IterationOrder}
  {body : List (Except String Bytes)} {model : Model} {cancelled : Nat → Bool} {apiName : String}

theorem process_reportsFailure
    (cut : ∀ event chunk, .ok event ∈ Sse.iterateSse body → parse event.data = .ok chunk →
      ¬ Finishes chunk) :
    ReportsFailure ((handler serde parse order).processSse body model cancelled apiName) ↔
      Interrupted (fun _ => Unparsed parse) cancelled 0 [] (Sse.iterateSse body) := by
  apply ChunkHandler.reportsFailure fun state _ => state.finishReason = none
  · rfl
  · intro event chunk member parsed work none_yet
    exact (onChunk_finishReason (cut event chunk member parsed)).trans none_yet
  · intro state partialMessage none_yet
    simp only [finalize, none_yet]
    rfl

variable {reason : StopReason} {message : AssistantMessage}
  (ends : ((handler serde parse order).processSse body model cancelled apiName).getLast? =
    some (.done reason message))
include ends

theorem process_rule {Rel : List ToolCallDelta → ToolIndex → List ContentBlock → Prop}
    (rule : CallRule serde rename Rel) :
    ∃ index, Rel ((wireEvents parse (delivered (Sse.iterateSse body))).flatMap toolDeltas) index
      message.content :=
  ChunkHandler.ruled (fun state => state.tools) toolDeltas rule.initial
    (fun chunk _ _ holds => onChunk_rule rule holds chunk)
    (fun _ _ _ holds => finalize_rule rule holds order) ends

end Runs

end PiRust.Completions
