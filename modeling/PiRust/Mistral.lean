import PiRust.ToolCallDeltas

/- `providers/mistral`. -/
namespace PiRust.Mistral

inductive ThinkingDeltaPart where
  | text (text : String)

inductive ContentDeltaPart where
  | text (text : String)
  | thinking (thinking : List ThinkingDeltaPart)

inductive ContentDelta where
  | text (text : String)
  | parts (parts : List ContentDeltaPart)

structure Delta where
  content : Option ContentDelta
  toolCalls : Option (List ToolCallDelta)

structure ChoiceDelta where
  delta : Delta
  finishReason : Option String

structure ChatUsage where
  promptTokens : UInt32
  completionTokens : UInt32
  totalTokens : UInt32

structure ChatCompletionChunk where
  id : String
  model : String
  choices : List ChoiceDelta
  usage : Option ChatUsage

inductive OpenBlock where
  | text (index : UInt32)
  | thinking (index : UInt32)

structure MistralHandler where
  firstEvent : Bool := false
  currentBlock : Option OpenBlock := none
  tools : ToolIndex := {}
  finishReason : Option String := none

abbrev Work := Progress MistralHandler

def mapFinishReason : Option String → StopReason
  | some "length" | some "model_length" => .length
  | some "tool_calls" => .toolUse
  | some "error" => .error
  | some "stop" | none => .stop
  | _ => .stop

def mapUsage (usage : ChatUsage) : Usage where
  input := usage.promptTokens
  output := usage.completionTokens
  totalTokens :=
    if usage.totalTokens = 0 then usage.promptTokens + usage.completionTokens
    else usage.totalTokens

def finishCurrentBlock (work : Work) : Work :=
  match work.state.currentBlock with
  | some (.text index) =>
    (work.withState { work.state with currentBlock := none }).emit (.textEnd index)
  | some (.thinking index) =>
    (work.withState { work.state with currentBlock := none }).emit (.thinkingEnd index)
  | none => work

def openText (work : Work) : Work × UInt32 :=
  match work.state.currentBlock with
  | some (.text index) => (work, index)
  | _ =>
    let work := finishCurrentBlock work
    let index := work.position
    (((work.push (.text "" none)).withState
      { work.state with currentBlock := some (.text index) }).emit (.textStart index), index)

def emitTextDelta (text : String) (work : Work) : Work :=
  let opened := openText work
  (opened.1.edit opened.2.toNat (ContentBlock.pushText text)).emit (.textDelta opened.2 text)

def openThinking (work : Work) : Work × UInt32 :=
  match work.state.currentBlock with
  | some (.thinking index) => (work, index)
  | _ =>
    let work := finishCurrentBlock work
    let index := work.position
    (((work.push (.thinking "" none none)).withState
      { work.state with currentBlock := some (.thinking index) }).emit
        (.thinkingStart index), index)

def emitThinkingDelta (text : String) (work : Work) : Work :=
  let opened := openThinking work
  (opened.1.edit opened.2.toNat (ContentBlock.pushThinking text)).emit
    (.thinkingDelta opened.2 text)

def ThinkingDeltaPart.read : ThinkingDeltaPart → String
  | .text written => written

def onText (text : String) (work : Work) : Work :=
  if text = "" then work else emitTextDelta text work

def onPart (work : Work) : ContentDeltaPart → Work
  | .text text => onText text work
  | .thinking thinking =>
    let text := String.join (thinking.map ThinkingDeltaPart.read)
    if text = "" then work else emitThinkingDelta text work

def onContent (choice : ChoiceDelta) (work : Work) : Work :=
  match choice.delta.content with
  | some (.text text) => onText text work
  | some (.parts parts) => parts.foldl onPart work
  | none => work

def onFinishReason (choice : ChoiceDelta) (work : Work) : Work :=
  if effective choice.finishReason then
    work.withState { work.state with finishReason := choice.finishReason }
  else work

def rename (_ : Option String) (name : String) (block : ContentBlock) : ContentBlock :=
  block.setName name

variable (serde : Serde)

def onToolCalls (choice : ChoiceDelta) (work : Work) : Work :=
  match choice.delta.toolCalls with
  | some toolCalls =>
    (finishCurrentBlock work).focus MistralHandler.tools
      (fun tools state => { state with tools := tools })
      fun part => toolCalls.foldl (onToolCall serde rename) part
  | none => work

def onChoice (work : Work) (choice : ChoiceDelta) : Work :=
  onToolCalls serde choice (onContent choice (onFinishReason choice work))

variable (chunk : ChatCompletionChunk)

def onFirst (work : Work) : Work :=
  if work.state.firstEvent then work
  else
    let started : Work := { work with
      partialMessage.responseId := some chunk.id
      partialMessage.responseModel := some chunk.model }
    let emitted := started.emit (.start none)
    emitted.withState { emitted.state with firstEvent := true }

def onUsage (work : Work) : Work :=
  match chunk.usage with
  | some usage => { work with partialMessage.usage := mapUsage usage }
  | none => work

def onChunk (work : Work) : Work :=
  onUsage chunk (chunk.choices.foldl (onChoice serde) (onFirst chunk work))

def finalize (order : IterationOrder) (state : MistralHandler)
    (partialMessage : AssistantMessage) : AssistantMessage × List AssistantMessageEvent :=
  let work := finishCurrentBlock ⟨state, partialMessage, []⟩
  let ended := endToolcalls serde order ⟨state.tools, work.partialMessage, work.events⟩
  ({ ended.partialMessage with stopReason := mapFinishReason state.finishReason }, ended.events)

/-- `parse` stands for the derived `serde_json::from_str::<ChatCompletionChunk>`. -/
def handler (parse : String → Except String ChatCompletionChunk) (order : IterationOrder) :
    SseEventHandler MistralHandler :=
  chunkHandler parse {} (onChunk serde) (finalize serde order)

/-- What a chunk says about the argument texts. -/
def moves : List (Assembly.Move UInt32) :=
  chunk.choices.flatMap fun choice =>
    (choice.delta.toolCalls.getD []).map ToolCallDelta.move

/-- The tool calls of a sequence of chunks. -/
def calls (chunks : List ChatCompletionChunk) : Assembly UInt32 :=
  Assembly.run (chunks.flatMap moves)

def Finishes : Prop :=
  ∃ choice ∈ chunk.choices, effective choice.finishReason

/-- The tool-call deltas of a chunk. -/
def toolDeltas : List ToolCallDelta :=
  chunk.choices.flatMap fun choice => choice.delta.toolCalls.getD []

section Rules

variable {serde} {seen : List ToolCallDelta} {work : Work}
  {Rel : List ToolCallDelta → ToolIndex → List ContentBlock → Prop}

theorem finishCurrentBlock_rule (holds : Rel seen work.state.tools work.partialMessage.content) :
    Rel seen (finishCurrentBlock work).state.tools
      (finishCurrentBlock work).partialMessage.content := by
  unfold finishCurrentBlock
  split
  · exact holds
  · exact holds
  · exact holds

variable (rule : CallRule serde rename Rel)
include rule

section

variable (holds : Rel seen work.state.tools work.partialMessage.content)
include holds

theorem emitTextDelta_rule (text : String) : Rel seen (emitTextDelta text work).state.tools
      (emitTextDelta text work).partialMessage.content := by
  have opened : Rel seen (openText work).1.state.tools
      (openText work).1.partialMessage.content := by
    unfold openText
    split
    · exact holds
    · exact rule.push rfl (finishCurrentBlock_rule holds)
  exact rule.edit _ (call?_pushText text) opened

theorem emitThinkingDelta_rule (text : String) : Rel seen (emitThinkingDelta text work).state.tools
      (emitThinkingDelta text work).partialMessage.content := by
  have opened : Rel seen (openThinking work).1.state.tools
      (openThinking work).1.partialMessage.content := by
    unfold openThinking
    split
    · exact holds
    · exact rule.push rfl (finishCurrentBlock_rule holds)
  exact rule.edit _ (call?_pushThinking text) opened

theorem onText_rule (text : String) : Rel seen (onText text work).state.tools
      (onText text work).partialMessage.content := by
  unfold onText
  split
  · exact holds
  · exact emitTextDelta_rule rule holds text

theorem onPart_rule (part : ContentDeltaPart) : Rel seen (onPart work part).state.tools
      (onPart work part).partialMessage.content := by
  cases part with
  | text text => exact onText_rule rule holds text
  | thinking thinking =>
    unfold onPart
    dsimp only
    split
    · exact holds
    · exact emitThinkingDelta_rule rule holds _

theorem onContent_rule (choice : ChoiceDelta) : Rel seen (onContent choice work).state.tools
      (onContent choice work).partialMessage.content := by
  unfold onContent
  split
  · exact onText_rule rule holds _
  · rename_i parts _
    exact @List.foldlRecOn _ _ (fun work : Work =>
      Rel seen work.state.tools work.partialMessage.content) parts onPart work holds
        fun _ holds part _ => onPart_rule rule holds part
  · exact holds

theorem onChoice_rule (choice : ChoiceDelta) : Rel (seen ++ choice.delta.toolCalls.getD [])
      (onChoice serde work choice).state.tools
      (onChoice serde work choice).partialMessage.content := by
  have reason : Rel seen (onFinishReason choice work).state.tools
      (onFinishReason choice work).partialMessage.content := by
    unfold onFinishReason
    split
    · exact holds
    · exact holds
  have before := onContent_rule rule reason choice
  unfold onChoice onToolCalls
  split
  · rename_i deltas given
    rw [given]
    exact @CallRule.steps _ _ _ rule _
      ⟨_, _, (finishCurrentBlock (onContent choice (onFinishReason choice work))).events⟩
      (finishCurrentBlock_rule before) deltas
  · rename_i absent
    rw [absent, Option.getD_none, List.append_nil]
    exact before

theorem onChunk_rule (chunk : ChatCompletionChunk) : Rel (seen ++ toolDeltas chunk)
      (onChunk serde chunk work).state.tools (onChunk serde chunk work).partialMessage.content := by
  have started : Rel seen (onFirst chunk work).state.tools
      (onFirst chunk work).partialMessage.content := by
    unfold onFirst
    split
    · exact holds
    · exact holds
  have handled := (onFirst chunk work).foldl_reads (fun choice => choice.delta.toolCalls.getD [])
    (fun seen work => Rel seen work.state.tools work.partialMessage.content)
    (fun choice holds => onChoice_rule rule holds choice) chunk.choices started
  unfold onChunk onUsage
  split
  · exact handled
  · exact handled

end

theorem finalize_rule {state : MistralHandler} {partialMessage : AssistantMessage}
    (holds : Rel seen state.tools partialMessage.content) (order : IterationOrder) :
    Rel seen state.tools (finalize serde order state partialMessage).1.content := by
  have texts : (finishCurrentBlock ⟨state, partialMessage, []⟩).partialMessage.content =
      partialMessage.content := by
    unfold finishCurrentBlock
    split <;> rfl
  rw [← texts] at holds
  exact rule.ends ⟨state.tools,
    (finishCurrentBlock ⟨state, partialMessage, []⟩).partialMessage,
    (finishCurrentBlock ⟨state, partialMessage, []⟩).events⟩ order holds

end Rules

section Steps

variable {serde} {work : Work}

theorem finishCurrentBlock_finishReason :
    (finishCurrentBlock work).state.finishReason = work.state.finishReason := by
  unfold finishCurrentBlock
  split <;> rfl

variable (text : String)

theorem onText_finishReason : (onText text work).state.finishReason = work.state.finishReason := by
  unfold onText emitTextDelta openText
  split
  · rfl
  · split
    · rfl
    · exact finishCurrentBlock_finishReason

theorem onPart_finishReason (part : ContentDeltaPart) :
    (onPart work part).state.finishReason = work.state.finishReason := by
  cases part with
  | text text => exact onText_finishReason text
  | thinking thinking =>
    unfold onPart emitThinkingDelta openThinking
    dsimp only
    split
    · rfl
    · split
      · rfl
      · exact finishCurrentBlock_finishReason

theorem onContent_finishReason (choice : ChoiceDelta) :
    (onContent choice work).state.finishReason = work.state.finishReason := by
  unfold onContent
  split
  · exact onText_finishReason _
  · exact work.foldl_keeps (fun later => later.state.finishReason)
      fun part _ _ => onPart_finishReason part
  · rfl

theorem finishCurrentBlock_blockCount (work : Work) :
    (finishCurrentBlock work).blockCount = work.blockCount := by
  unfold finishCurrentBlock
  split <;> rfl

theorem finalize_length (order : IterationOrder) (state : MistralHandler)
    (partialMessage : AssistantMessage) :
    (finalize serde order state partialMessage).1.content.length =
      partialMessage.content.length :=
  (endToolcalls_blockCount serde order _).trans
    (finishCurrentBlock_blockCount ⟨state, partialMessage, []⟩)

theorem onChoice_finishReason {choice : ChoiceDelta}
    (goes_on : effective choice.finishReason = false) :
    (onChoice serde work choice).state.finishReason = work.state.finishReason := by
  have tools : ∀ work : Work,
      (onToolCalls serde choice work).state.finishReason = work.state.finishReason := by
    intro work
    unfold onToolCalls
    split
    · exact finishCurrentBlock_finishReason
    · rfl
  unfold onChoice onFinishReason
  rw [goes_on, tools]
  exact onContent_finishReason choice

theorem onChunk_finishReason {chunk : ChatCompletionChunk} (goes_on : ¬ Finishes chunk) :
    (onChunk serde chunk work).state.finishReason = work.state.finishReason := by
  have first : (onFirst chunk work).state.finishReason = work.state.finishReason := by
    unfold onFirst
    split <;> rfl
  have choices : (chunk.choices.foldl (onChoice serde) (onFirst chunk work)).state.finishReason =
      (onFirst chunk work).state.finishReason := by
    apply (onFirst chunk work).foldl_keeps fun later => later.state.finishReason
    intro choice member work
    apply onChoice_finishReason
    rw [← Bool.not_eq_true]
    exact fun ends => goes_on ⟨choice, member, ends⟩
  unfold onChunk onUsage
  split
  · exact choices.trans first
  · exact choices.trans first

end Steps

section Runs

variable {serde} {parse : String → Except String ChatCompletionChunk} {order : IterationOrder}
  {body : List (Except String Bytes)} {model : Model} {cancelled : Nat → Bool} {apiName : String}

theorem process_reportsFailure
    (cut : ∀ event chunk, .ok event ∈ Sse.iterateSse body → parse event.data = .ok chunk →
      ¬ Finishes chunk) :
    ReportsFailure ((handler serde parse order).processSse body model cancelled apiName) ↔
      Interrupted (fun _ => Unparsed parse) cancelled 0 [] (Sse.iterateSse body) := by
  apply ChunkHandler.reportsFailure fun state _ => state.finishReason = none
  · rfl
  · intro event chunk member parsed work none_yet
    exact (onChunk_finishReason (cut event chunk member parsed)).trans none_yet
  · intro state partialMessage none_yet
    simp only [finalize, none_yet]
    rfl

variable {reason : StopReason} {message : AssistantMessage}
  (ends : ((handler serde parse order).processSse body model cancelled apiName).getLast? =
    some (.done reason message))
include ends

theorem process_rule {Rel : List ToolCallDelta → ToolIndex → List ContentBlock → Prop}
    (rule : CallRule serde rename Rel) :
    ∃ index, Rel ((wireEvents parse (delivered (Sse.iterateSse body))).flatMap toolDeltas) index
      message.content :=
  ChunkHandler.ruled (fun state => state.tools) toolDeltas rule.initial
    (fun chunk _ _ holds => onChunk_rule rule holds chunk)
    (fun _ _ _ holds => finalize_rule rule holds order) ends

end Runs

end PiRust.Mistral
