import PiRust.ProcessFramework
import PiRust.ToolCalls

/- `providers/anthropic`. The wire index of the block started last serves as its
position in the content, and the index of a delta is not looked at. -/
namespace PiRust.Anthropic

open List

structure MessageUsage where
  inputTokens : UInt32 := 0
  outputTokens : UInt32 := 0
  cacheReadInputTokens : Option UInt32 := none
  cacheCreationInputTokens : Option UInt32 := none

structure MessageInfo where
  id : String
  model : String
  usage : MessageUsage

inductive ContentBlockStart where
  | text (text : String)
  | thinking (thinking : String)
  | redactedThinking (data : String)
  | toolUse (id name : String)

inductive ContentBlockDelta where
  | textDelta (text : String)
  | thinkingDelta (thinking : String)
  | signatureDelta (signature : String)
  | inputJsonDelta (partialJson : String)

inductive StreamEvent where
  | messageStart (message : MessageInfo)
  | contentBlockStart (index : UInt32) (contentBlock : ContentBlockStart)
  | contentBlockDelta (index : UInt32) (delta : ContentBlockDelta)
  | contentBlockStop (index : UInt32)
  | messageDelta (stopReason : Option String) (usage : MessageUsage)
  | messageStop
  | ping

inductive BlockType where
  | text
  | thinking
  | toolUse

structure AnthropicHandler where
  firstEvent : Bool := false
  blockType : Option BlockType := none
  blockIndex : UInt32 := 0
  accumulatedText : String := ""
  accumulatedThinking : String := ""
  accumulatedToolArgs : String := ""
  pendingTextSignature : Option String := none
  pendingThinkingSignature : Option String := none
  pendingThoughtSignature : Option String := none
  messageUsage : MessageUsage := {}
  stopReason : Option StopReason := none

abbrev Work := Progress AnthropicHandler

def mapStopReason : String → StopReason
  | "end_turn" => .stop
  | "max_tokens" => .length
  | "tool_use" => .toolUse
  | _ => .error

def onMessageStart (message : MessageInfo) (work : Work) : Work :=
  let started : Work := { work with
    partialMessage.responseId := some message.id
    partialMessage.responseModel := some message.model
    state.messageUsage := message.usage }
  if started.state.firstEvent then started
  else
    let emitted := started.emit (.start none)
    emitted.withState { emitted.state with firstEvent := true }

def startState (index : UInt32) (contentBlock : ContentBlockStart) (state : AnthropicHandler) :
    AnthropicHandler :=
  match contentBlock with
  | .text text =>
    { state with blockIndex := index, blockType := some .text, accumulatedText := text }
  | .thinking thinking =>
    { state with
      blockIndex := index, blockType := some .thinking, accumulatedThinking := thinking }
  | .redactedThinking _ => { state with blockIndex := index, blockType := some .thinking }
  | .toolUse _ _ =>
    { state with blockIndex := index, blockType := some .toolUse, accumulatedToolArgs := "" }

def ContentBlockStart.block : ContentBlockStart → ContentBlock
  | .text given => .text given none
  | .thinking given => .thinking given none none
  | .redactedThinking _ => .thinking "" none (some true)
  | .toolUse id name => openedCall id name

def emitStart (index : UInt32) (contentBlock : ContentBlockStart) (work : Work) : Work :=
  match contentBlock with
  | .text text =>
    let started := work.emit (.textStart index)
    if text = "" then started else started.emit (.textDelta index text)
  | .thinking thinking =>
    let started := work.emit (.thinkingStart index)
    if thinking = "" then started else started.emit (.thinkingDelta index thinking)
  | .redactedThinking _ => work.emit (.thinkingStart index)
  | .toolUse _ _ => work.emit (.toolcallStart index)

def onContentBlockStart (index : UInt32) (contentBlock : ContentBlockStart) (work : Work) : Work :=
  emitStart index contentBlock
    ((work.withState (startState index contentBlock work.state)).push contentBlock.block)

def onSignatureDelta (signature : String) (work : Work) : Work :=
  match work.state.blockType with
  | some .thinking =>
    work.withState { work.state with pendingThinkingSignature := some signature }
  | some .toolUse =>
    work.withState { work.state with pendingThoughtSignature := some signature }
  | _ => work.withState { work.state with pendingTextSignature := some signature }

variable (serde : Serde)

def onInputJsonDelta (partialJson : String) (work : Work) : Work :=
  let work := work.withState
    { work.state with accumulatedToolArgs := work.state.accumulatedToolArgs ++ partialJson }
  (work.edit work.state.blockIndex.toNat (ContentBlock.setArguments
    (parseStreamingJson serde work.state.accumulatedToolArgs))).emit
      (.toolcallDelta work.state.blockIndex partialJson)

def onContentBlockDelta (delta : ContentBlockDelta) (work : Work) : Work :=
  match delta with
  | .textDelta text =>
    let edited := work.edit work.state.blockIndex.toNat (ContentBlock.pushText text)
    (edited.withState { edited.state with
      accumulatedText := edited.state.accumulatedText ++ text }).emit
        (.textDelta work.state.blockIndex text)
  | .thinkingDelta thinking =>
    let edited := work.edit work.state.blockIndex.toNat (ContentBlock.pushThinking thinking)
    (edited.withState { edited.state with
      accumulatedThinking := edited.state.accumulatedThinking ++ thinking }).emit
        (.thinkingDelta work.state.blockIndex thinking)
  | .signatureDelta signature => onSignatureDelta signature work
  | .inputJsonDelta partialJson => onInputJsonDelta serde partialJson work

def takesSignature (work : Work) (matching : ContentBlock → Bool) : Bool :=
  (work.partialMessage.content[work.state.blockIndex.toNat]?).any matching

def endBlock (work : Work) : Work :=
  let position := work.state.blockIndex.toNat
  match work.state.blockType with
  | some .text =>
    let signed :=
      if takesSignature work ContentBlock.isText then
        (work.edit position (.setTextSignature work.state.pendingTextSignature)).withState
          { work.state with pendingTextSignature := none }
      else work
    signed.emit (.textEnd work.state.blockIndex)
  | some .thinking =>
    let signed :=
      if takesSignature work ContentBlock.isThinking then
        (work.edit position
          (.setThinkingSignature work.state.pendingThinkingSignature)).withState
            { work.state with pendingThinkingSignature := none }
      else work
    signed.emit (.thinkingEnd work.state.blockIndex)
  | some .toolUse =>
    let signed :=
      if takesSignature work ContentBlock.isToolCall then
        (work.edit position
          (.setThoughtSignature work.state.pendingThoughtSignature)).withState
            { work.state with pendingThoughtSignature := none }
      else work
    signed.emit (.toolcallEnd work.state.blockIndex)
  | none => work

def onContentBlockStop (work : Work) : Work :=
  let ended := endBlock work
  ended.withState { ended.state with blockType := none }

def onMessageDelta (stopReason : Option String) (usage : MessageUsage) (work : Work) : Work :=
  let old := work.state.messageUsage
  work.withState { work.state with
    stopReason := stopReason.map mapStopReason
    messageUsage := { old with
      outputTokens := usage.outputTokens
      cacheReadInputTokens := usage.cacheReadInputTokens.or old.cacheReadInputTokens
      cacheCreationInputTokens := usage.cacheCreationInputTokens.or old.cacheCreationInputTokens } }

def finalUsage (usage : MessageUsage) : Usage where
  input := usage.inputTokens
  output := usage.outputTokens
  cacheRead := usage.cacheReadInputTokens.getD 0
  cacheWrite := usage.cacheCreationInputTokens.getD 0
  totalTokens := usage.inputTokens + usage.outputTokens

def onMessageStop (work : Work) : Work :=
  let stopped : Work := { work with
    partialMessage.usage := finalUsage work.state.messageUsage
    partialMessage.stopReason := work.state.stopReason.getD .stop
    partialMessage.provider := some "anthropic" }
  stopped.emit (.done stopped.partialMessage.stopReason)

def onEvent (event : StreamEvent) (work : Work) : Work :=
  match event with
  | .messageStart message => onMessageStart message work
  | .contentBlockStart index contentBlock => onContentBlockStart index contentBlock work
  | .contentBlockDelta _ delta => onContentBlockDelta serde delta work
  | .contentBlockStop _ => onContentBlockStop work
  | .messageDelta stopReason usage => onMessageDelta stopReason usage work
  | .messageStop => onMessageStop work
  | .ping => work

def StreamEvent.isStop : StreamEvent → Bool
  | .messageStop => true
  | _ => false

def finalize (_ : AnthropicHandler) (partialMessage : AssistantMessage) :
    AssistantMessage × List AssistantMessageEvent :=
  ({ partialMessage with
      stopReason := .error
      errorMessage := some "stream ended without message_stop" }, [])

/-- `parse` stands for the derived `serde_json::from_str::<StreamEvent>`. -/
def handler (parse : String → Except String StreamEvent) : SseEventHandler AnthropicHandler where
  initial := {}
  handleEvent data state partialMessage :=
    match parse data with
    | .error e => .error ("SSE parse error: " ++ e)
    | .ok event =>
      let work := onEvent serde event ⟨state, partialMessage, []⟩
      if event.isStop then .ok (work.state, work.partialMessage, .done work.events)
      else .ok work.continued
  finalize := finalize

/-- What an event says about the argument texts, by the wire indices of the blocks. -/
def moves : StreamEvent → List (Assembly.Move UInt32)
  | .contentBlockStart index (.toolUse _ _) => [.opened index]
  | .contentBlockDelta index (.inputJsonDelta partialJson) => [.piece index partialJson]
  | _ => []

/-- The events before the one that ends the message. -/
def handled (events : List StreamEvent) : List StreamEvent :=
  events.takeWhile fun event => !event.isStop

/-- The tool calls of a sequence of events. -/
def calls (events : List StreamEvent) : Assembly UInt32 :=
  Assembly.run ((handled events).flatMap moves)

def StreamEvent.startsBlock : StreamEvent → Bool
  | .contentBlockStart _ _ => true
  | _ => false

def ContentBlockStart.isToolUse : ContentBlockStart → Bool
  | .toolUse _ _ => true
  | _ => false

abbrev BlockStart := UInt32 × ContentBlockStart

def StreamEvent.start? : StreamEvent → Option BlockStart
  | .contentBlockStart index contentBlock => some (index, contentBlock)
  | _ => none

def starts (events : List StreamEvent) : List BlockStart := events.filterMap StreamEvent.start?

/-- `blockIndex` after these block starts. -/
def lastIndex (started : List BlockStart) : UInt32 := (started.getLast?.map Prod.fst).getD 0

/-- The block started last is a tool use with that index, which is its position. -/
def OnCall (started : List BlockStart) (index : UInt32) : Prop :=
  ∃ front id name, started = front ++ [(index, .toolUse id name)] ∧ index.toNat = front.length

/-- The index is that of no tool use, and the position of the block started last is not one of
a tool use either. -/
def OffCalls (started : List BlockStart) (index : UInt32) : Prop :=
  (∀ start ∈ started, start.2.isToolUse = true → start.1 ≠ index) ∧
    (started.map fun start => start.2.isToolUse)[(lastIndex started).toNat]? ≠ some true

/-- Every argument delta is for the tool use that was started last, at its own position, or
for no tool use at all. -/
def Addressed (events : List StreamEvent) : Prop :=
  ∀ seen index partialJson,
    seen ++ [.contentBlockDelta index (.inputJsonDelta partialJson)] <+: handled events →
      OnCall (starts seen) index ∨ OffCalls (starts seen) index

theorem handled_append {events : List StreamEvent}
    (goes_on : ∀ event ∈ events, event.isStop = false) (more : List StreamEvent) :
    handled (events ++ more) = events ++ handled more := by
  apply takeWhile_append_of_pos
  intro event member
  rw [goes_on event member, Bool.not_false]

theorem handled_all {events : List StreamEvent}
    (goes_on : ∀ event ∈ events, event.isStop = false) : handled events = events := by
  have whole := handled_append goes_on []
  simpa only [handled, takeWhile_nil, append_nil] using whole

/-- The handler after some events, by the blocks started, the text held and the content. The
text is that of the block started last when that is a tool use at its own position. -/
structure Follows (calls : Assembly UInt32) (started : List BlockStart) (held : String)
    (content : List ContentBlock) : Prop where
  shape : Selection.shape ContentBlock.arguments? content =
    started.map fun start => start.2.isToolUse
  owned : ∀ {key}, (∀ start ∈ started, start.2.isToolUse = true → start.1 ≠ key) →
    calls.owner key = none
  written : ∃ place, Written serde content calls place ∧ ∀ {index}, OnCall started index →
    place index = some index.toNat ∧ calls.current index = some held

/-- The work behind the blocks started so far. -/
structure Follows.At (calls : Assembly UInt32) (started : List BlockStart) (work : Work) :
    Prop where
  index : work.state.blockIndex = lastIndex started
  content : Follows serde calls started work.state.accumulatedToolArgs work.partialMessage.content

theorem lastIndex_concat (started : List BlockStart) (start : BlockStart) :
    lastIndex (started ++ [start]) = start.1 := by
  simp [lastIndex]

theorem OnCall.lastIndex {started : List BlockStart} {index : UInt32}
    (on_call : OnCall started index) : lastIndex started = index := by
  obtain ⟨front, id, name, rfl, _⟩ := on_call
  exact lastIndex_concat _ _

theorem OffCalls.not_onCall {started : List BlockStart} {index other : UInt32}
    (off : OffCalls started index) : ¬ OnCall started other := by
  intro on_call
  have last := on_call.lastIndex
  obtain ⟨front, id, name, rfl, place⟩ := on_call
  apply off.2
  rw [last, place]
  simp [ContentBlockStart.isToolUse]

namespace Follows

variable {serde} {calls : Assembly UInt32} {started : List BlockStart} {held : String}
  {content : List ContentBlock}

theorem initial : Follows serde Assembly.empty [] "" [] where
  shape := rfl
  owned := fun _ => rfl
  written := by
    refine ⟨fun _ => none, Written.empty _, ?_⟩
    rintro index ⟨front, id, name, same, _⟩
    exact absurd same.symm (append_ne_nil_of_right_ne_nil _ (cons_ne_nil _ _))

variable (follows : Follows serde calls started held content)
include follows

theorem edit (p : Nat) {change : ContentBlock → ContentBlock}
    (same : ∀ block, (change block).arguments? = block.arguments?) :
    Follows serde calls started held (content.modify p change) where
  shape := by
    rw [Selection.shape_modify _ _ _ _ fun block => by rw [same]]
    exact follows.shape
  owned := follows.owned
  written := by
    obtain ⟨place, written, current⟩ := follows.written
    exact ⟨place, written.edit p same, current⟩

theorem push (index : UInt32) {start : ContentBlockStart} (other : start.isToolUse = false)
    {block : ContentBlock} (plain : block.arguments? = none) :
    Follows serde calls (started ++ [(index, start)]) held (content ++ [block]) where
  shape := by
    rw [Selection.shape_append, follows.shape, map_append, map_singleton, other, Selection.shape,
      map_singleton, plain]
    rfl
  owned := fun fresh => follows.owned fun start member => fresh start (mem_append_left _ member)
  written := by
    obtain ⟨place, written, _⟩ := follows.written
    refine ⟨place, written.push plain, ?_⟩
    rintro key ⟨front, id, name, same, _⟩
    obtain ⟨_, last⟩ := append_inj' same rfl
    cases last
    cases other

theorem opened (index : UInt32) (id name : String) :
    Follows serde (calls.opened index) (started ++ [(index, .toolUse id name)]) ""
      (content ++ [openedCall id name]) where
  shape := by
    rw [Selection.shape_append, follows.shape, map_append]
    rfl
  owned := by
    intro key fresh
    have apart : index ≠ key := fresh (index, .toolUse id name) (by simp) rfl
    rw [Assembly.owner_opened, if_neg apart.symm]
    exact follows.owned fun start member => fresh start (mem_append_left _ member)
  written := by
    obtain ⟨place, written, _⟩ := follows.written
    have size : content.length = started.length := by
      simpa [Selection.shape] using congrArg length follows.shape
    refine ⟨fun key => if key = index then some content.length else place key,
      written.opened index id name (if_pos rfl) fun other apart => if_neg apart, ?_⟩
    intro key on_call
    obtain rfl : index = key := (lastIndex_concat _ _).symm.trans on_call.lastIndex
    obtain ⟨front, _, _, same, own⟩ := on_call
    obtain ⟨rfl, _⟩ := append_inj' same rfl
    refine ⟨?_, ?_⟩
    · rw [own, ← size]
      exact if_pos rfl
    · rw [Assembly.current_opened, if_pos rfl]

theorem piece {index : UInt32} (on_call : OnCall started index) (more : String) :
    Follows serde (calls.piece index more) started (held ++ more)
      (content.modify index.toNat (ContentBlock.setArguments
        (parseStreamingJson serde (held ++ more)))) where
  shape := by
    rw [Selection.shape_modify _ _ _ _ (isSome_setArguments _)]
    exact follows.shape
  owned := follows.owned
  written := by
    obtain ⟨place, written, last⟩ := follows.written
    obtain ⟨found, current⟩ := last on_call
    obtain ⟨n, owner, _⟩ := Option.bind_eq_some_iff.mp current
    refine ⟨place, written.piece owner found current more, ?_⟩
    intro key again
    obtain rfl : index = key := on_call.lastIndex.symm.trans again.lastIndex
    rw [Assembly.current_piece, if_pos rfl, current]
    exact ⟨found, rfl⟩

theorem lost {index : UInt32} (off : OffCalls started index) (more : String) (value : Value) :
    Follows serde (calls.piece index more) started (held ++ more)
      (content.modify (lastIndex started).toNat (ContentBlock.setArguments value)) where
  shape := by
    rw [Selection.shape_modify _ _ _ _ (isSome_setArguments _)]
    exact follows.shape
  owned := follows.owned
  written := by
    obtain ⟨place, written, _⟩ := follows.written
    have plain := off.2
    rw [← follows.shape] at plain
    exact ⟨place, (written.miss plain value).lost (follows.owned off.1) more,
      fun on_call => absurd on_call off.not_onCall⟩

end Follows

section Steps

variable {serde} {calls : Assembly UInt32} {started : List BlockStart} {work : Work}

theorem emitStart_follows (index : UInt32) (contentBlock : ContentBlockStart)
    (follows : Follows.At serde calls started work) :
    Follows.At serde calls started (emitStart index contentBlock work) := by
  cases contentBlock with
  | text text | thinking text =>
    unfold emitStart
    dsimp only
    split
    · exact ⟨follows.index, follows.content⟩
    · exact ⟨follows.index, follows.content⟩
  | redactedThinking => exact ⟨follows.index, follows.content⟩
  | toolUse id name => exact ⟨follows.index, follows.content⟩

variable (follows : Follows.At serde calls started work)
include follows

theorem onContentBlockStart_follows (index : UInt32) (contentBlock : ContentBlockStart) :
    Follows.At serde ((moves (.contentBlockStart index contentBlock)).foldl Assembly.step calls)
      (started ++ [(index, contentBlock)]) (onContentBlockStart index contentBlock work) := by
  apply emitStart_follows
  have last := (lastIndex_concat started (index, contentBlock)).symm
  cases contentBlock with
  | text text => exact ⟨last, follows.content.push index rfl rfl⟩
  | thinking thinking => exact ⟨last, follows.content.push index rfl rfl⟩
  | redactedThinking => exact ⟨last, follows.content.push index rfl rfl⟩
  | toolUse id name => exact ⟨last, follows.content.opened index id name⟩

theorem onInputJsonDelta_follows {index : UInt32}
    (addressed : OnCall started index ∨ OffCalls started index) (partialJson : String) :
    Follows.At serde (calls.piece index partialJson) started
      (onInputJsonDelta serde partialJson work) := by
  refine ⟨follows.index, ?_⟩
  unfold onInputJsonDelta
  simp only [Progress.emit_state, Progress.emit_message, Progress.edit_state,
    Progress.edit_content, Progress.withState_state, Progress.withState_message, follows.index]
  rcases addressed with on_call | off
  · rw [on_call.lastIndex]
    exact follows.content.piece on_call partialJson
  · exact follows.content.lost off partialJson _

theorem onSignatureDelta_follows (signature : String) :
    Follows.At serde calls started (onSignatureDelta signature work) := by
  unfold onSignatureDelta
  split
  · exact ⟨follows.index, follows.content⟩
  · exact ⟨follows.index, follows.content⟩
  · exact ⟨follows.index, follows.content⟩

theorem onContentBlockStop_follows :
    Follows.At serde calls started (onContentBlockStop work) := by
  have ended : Follows.At serde calls started (endBlock work) := by
    unfold endBlock
    dsimp only
    split
    · split
      · exact ⟨follows.index, follows.content.edit _ (ContentBlock.arguments?_setTextSignature · _)⟩
      · exact ⟨follows.index, follows.content⟩
    · split
      · exact ⟨follows.index,
          follows.content.edit _ (ContentBlock.arguments?_setThinkingSignature · _)⟩
      · exact ⟨follows.index, follows.content⟩
    · split
      · exact ⟨follows.index,
          follows.content.edit _ (ContentBlock.arguments?_setThoughtSignature · _)⟩
      · exact ⟨follows.index, follows.content⟩
    · exact follows
  exact ⟨ended.index, ended.content⟩

theorem onEvent_follows {event : StreamEvent}
    (addressed : ∀ index partialJson, event = .contentBlockDelta index (.inputJsonDelta partialJson) →
      OnCall started index ∨ OffCalls started index) :
    Follows.At serde ((moves event).foldl Assembly.step calls) (started ++ event.start?.toList)
      (onEvent serde event work) := by
  have plain (other : event.start? = none)
      (kept : Follows.At serde ((moves event).foldl Assembly.step calls) started
        (onEvent serde event work)) :
      Follows.At serde ((moves event).foldl Assembly.step calls) (started ++ event.start?.toList)
        (onEvent serde event work) := by
    rwa [other, Option.toList_none, append_nil]
  cases event with
  | contentBlockStart index contentBlock =>
    exact onContentBlockStart_follows follows index contentBlock
  | messageStart message =>
    refine plain rfl ?_
    unfold onEvent onMessageStart
    dsimp only
    split
    · exact ⟨follows.index, follows.content⟩
    · exact ⟨follows.index, follows.content⟩
  | contentBlockDelta index delta =>
    refine plain rfl ?_
    cases delta with
    | textDelta text =>
      exact ⟨follows.index, follows.content.edit _ (ContentBlock.arguments?_pushText · text)⟩
    | thinkingDelta thinking =>
      exact ⟨follows.index,
        follows.content.edit _ (ContentBlock.arguments?_pushThinking · thinking)⟩
    | signatureDelta signature => exact onSignatureDelta_follows follows signature
    | inputJsonDelta partialJson =>
      exact onInputJsonDelta_follows follows (addressed _ _ rfl) partialJson
  | contentBlockStop index =>
    refine plain rfl ?_
    exact onContentBlockStop_follows follows
  | messageDelta | messageStop | ping =>
    refine plain rfl ?_
    exact ⟨follows.index, follows.content⟩

end Steps

section Runs

variable {serde} {parse : String → Except String StreamEvent} {data : String}

theorem handleEvent_continued {state later : AnthropicHandler}
    {partialMessage message : AssistantMessage} {events : List AssistantMessageEvent}
    (answered : (handler serde parse).handleEvent data state partialMessage =
      .ok (later, message, .continued events)) :
    ∃ event, parse data = .ok event ∧ event.isStop = false ∧
      onEvent serde event ⟨state, partialMessage, []⟩ = ⟨later, message, events⟩ := by
  simp only [handler] at answered
  split at answered
  · cases answered
  · rename_i event parsed
    split at answered
    · cases answered
    · rename_i goes_on
      cases answered
      exact ⟨event, parsed, Bool.not_eq_true _ ▸ goes_on, rfl⟩

theorem handleEvent_done {state later : AnthropicHandler}
    {partialMessage message : AssistantMessage} {events : List AssistantMessageEvent}
    (answered : (handler serde parse).handleEvent data state partialMessage =
      .ok (later, message, .done events)) :
    parse data = .ok .messageStop ∧
      onMessageStop ⟨state, partialMessage, []⟩ = ⟨later, message, events⟩ := by
  simp only [handler] at answered
  split at answered
  · cases answered
  · rename_i event parsed
    split at answered
    · rename_i stop
      cases event <;> cases stop
      cases answered
      exact ⟨parsed, rfl⟩
    · cases answered

theorem running_append {history : List String} {event : StreamEvent}
    (running : ∀ event ∈ wireEvents parse history, event.isStop = false)
    (parsed : parse data = .ok event) (goes_on : event.isStop = false) :
    ∀ event ∈ wireEvents parse (history ++ [data]), event.isStop = false := by
  rw [wireEvents_append parsed]
  intro other member
  rcases mem_append.mp member with earlier | last
  · exact running other earlier
  · rw [mem_singleton.mp last]
    exact goes_on

/-- Nothing after `message_stop` counts, on the wire as in the handler. -/
theorem handled_stopped {seen : List String}
    (running : ∀ event ∈ wireEvents parse seen, event.isStop = false)
    (stopped : parse data = .ok .messageStop) (unseen : List String) :
    handled (wireEvents parse (seen ++ data :: unseen)) = wireEvents parse seen := by
  rw [wireEvents, filterMap_append, filterMap_cons, stopped]
  exact (handled_append running _).trans (append_nil _)

def Invariant (serde : Serde) (parse : String → Except String StreamEvent)
    (history : List String) (state : AnthropicHandler) (partialMessage : AssistantMessage) : Prop :=
  let events := wireEvents parse history
  (∀ event ∈ events, event.isStop = false) ∧
    (Addressed events → Follows.At serde (calls events) (starts events) ⟨state, partialMessage, []⟩)

theorem invariant_initial (apiName : String) (model : Model) :
    Invariant serde parse [] (handler serde parse).initial (startMessage apiName model) :=
  ⟨forall_mem_nil _, fun _ => ⟨rfl, Follows.initial⟩⟩

theorem invariant_step {history : List String} {event : StreamEvent}
    (work : Work) (holds : Invariant serde parse history work.state work.partialMessage)
    (parsed : parse data = .ok event) (goes_on : event.isStop = false) :
    Invariant serde parse (history ++ [data]) (onEvent serde event work).state
      (onEvent serde event work).partialMessage := by
  obtain ⟨running, follows⟩ := holds
  have still := running_append running parsed goes_on
  rw [wireEvents_append parsed] at still
  simp only [Invariant, wireEvents_append parsed]
  refine ⟨still, fun addressed => ?_⟩
  have before : Addressed (wireEvents parse history) := by
    intro seen index partialJson inside
    apply addressed seen index partialJson
    rw [handled_all still]
    rw [handled_all running] at inside
    exact inside.trans (prefix_append _ _)
  have here : ∀ index partialJson, event = .contentBlockDelta index (.inputJsonDelta partialJson) →
      OnCall (starts (wireEvents parse history)) index ∨
        OffCalls (starts (wireEvents parse history)) index := by
    rintro index partialJson rfl
    apply addressed _ index partialJson
    exact ⟨[], by rw [handled_all still, append_nil]⟩
  have earlier : Follows.At serde (calls (wireEvents parse history))
      (starts (wireEvents parse history)) work := ⟨(follows before).index, (follows before).content⟩
  have kept := onEvent_follows earlier here
  have more : starts (wireEvents parse history ++ [event]) =
      starts (wireEvents parse history) ++ event.start?.toList := by
    simp only [starts, filterMap_append, filterMap_cons, filterMap_nil]
    cases event.start? <;> rfl
  have said : calls (wireEvents parse history ++ [event]) =
      (moves event).foldl Assembly.step (calls (wireEvents parse history)) := by
    rw [calls, calls, handled_all still, handled_all running, flatMap_append, flatMap_singleton,
      Assembly.run_append]
  rw [more, said]
  exact ⟨kept.index, kept.content⟩

theorem handler_closes : (handler serde parse).Closes := by
  intro data state partialMessage later message events answered
  obtain ⟨_, same⟩ := handleEvent_done answered
  cases same
  exact append_ne_nil_of_right_ne_nil _ (cons_ne_nil _ _)

theorem handler_answers
    (cut : ∀ event, parse data = .ok event → event.isStop = false) :
    (handler serde parse).Answers (fun _ _ _ => True) (fun _ => Unparsed parse) data where
  rejected := by
    rintro history state partialMessage _ ⟨reason, failed⟩
    refine ⟨"SSE parse error: " ++ reason, ?_⟩
    simp [handler, failed]
  accepted := by
    intro history state partialMessage _ fine
    cases parsed : parse data with
    | error reason => exact absurd ⟨reason, parsed⟩ fine
    | ok event =>
      let work := onEvent serde event ⟨state, partialMessage, []⟩
      refine ⟨work.state, work.partialMessage, work.events, ?_, trivial⟩
      simp only [handler, parsed, cut event parsed, Bool.false_eq_true, ↓reduceIte]
      rfl

theorem process_reportsFailure {body : List (Except String Bytes)}
    (cut : ∀ event wire, .ok event ∈ Sse.iterateSse body → parse event.data = .ok wire →
      wire.isStop = false) (model : Model) (cancelled : Nat → Bool) (apiName : String) :
    ReportsFailure ((handler serde parse).processSse body model cancelled apiName) := by
  have answers : ∀ event, .ok event ∈ Sse.iterateSse body →
      (handler serde parse).Answers (fun _ _ _ => True) (fun _ => Unparsed parse) event.data :=
    fun event member => handler_answers fun wire parsed => cut event wire member parsed
  have always : ∀ (_ : List String) (state : AnthropicHandler)
      (partialMessage : AssistantMessage), True →
      (((handler serde parse).finalize state partialMessage).1.stopReason.isFailure ↔ True) :=
    fun _ _ _ _ => ⟨fun _ => trivial, fun _ => rfl⟩
  have reports : ReportsFailure ((handler serde parse).processSse body model cancelled apiName) ↔
      True ∨ Interrupted (fun _ => Unparsed parse) cancelled 0 [] (Sse.iterateSse body) :=
    SseEventHandler.processFrom_reportsFailure handler_closes answers always cancelled 0 trivial
  exact reports.mpr (.inl trivial)

theorem process_arguments {body : List (Except String Bytes)} {model : Model}
    {cancelled : Nat → Bool} {apiName : String} {message : AssistantMessage}
    (ends : ((handler serde parse).processSse body model cancelled apiName).getLast? =
      some (.done .toolUse message))
    (addressed : Addressed (wireEvents parse (delivered (Sse.iterateSse body)))) :
    message.toolArguments =
      (calls (wireEvents parse (delivered (Sse.iterateSse body)))).texts.map
        (parseStreamingJson serde) := by
  have step : ∀ {history data state partialMessage later message events},
      Invariant serde parse history state partialMessage →
      (handler serde parse).handleEvent data state partialMessage =
        .ok (later, message, .continued events) →
      Invariant serde parse (history ++ [data]) later message := by
    intro history data state partialMessage later message events holds answered
    obtain ⟨event, parsed, goes_on, same⟩ := handleEvent_continued answered
    have kept := invariant_step ⟨state, partialMessage, []⟩ holds parsed goes_on
    rwa [same] at kept
  rcases SseEventHandler.processFrom_done step handler_closes (invariant_initial apiName model)
    ends with ⟨last, before, _, same, reason⟩ |
      ⟨seen, data, unseen, last, before, later, final, events, whole, holds, answered, output⟩
  · rw [same] at reason
    cases reason
  · obtain ⟨stopped, finished⟩ := handleEvent_done answered
    cases finished
    obtain ⟨_, rfl⟩ := AssistantMessageEvent.done.inj (Option.some.inj output)
    rw [nil_append] at holds
    obtain ⟨running, follows⟩ := holds
    have cut : handled (wireEvents parse (delivered (Sse.iterateSse body))) =
        handled (wireEvents parse seen) := by
      rw [whole, handled_stopped running stopped, handled_all running]
    unfold calls
    rw [cut]
    unfold Addressed at addressed
    rw [cut] at addressed
    obtain ⟨_, written, _⟩ := (follows addressed).content.written
    exact written.arguments

end Runs

end PiRust.Anthropic
