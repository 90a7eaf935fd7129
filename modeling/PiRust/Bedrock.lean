import PiRust.ProcessFramework
import PiRust.ToolCalls

/- `providers/bedrock`: events in length-prefixed frames, which it reads in a loop
of its own. -/
namespace PiRust.Bedrock

open List

structure MessageStartEvent where
  role : String

structure ContentBlockStartEvent where
  contentBlockIndex : UInt32
  start : Value

structure ContentBlockDeltaEvent where
  contentBlockIndex : UInt32
  delta : Value

structure ContentBlockStopEvent where
  contentBlockIndex : UInt32

structure MessageStopEvent where
  stopReason : String

structure BedrockUsage where
  inputTokens : UInt32
  outputTokens : UInt32
  totalTokens : UInt32
  cacheReadInputTokens : UInt32
  cacheWriteInputTokens : UInt32

structure MetadataEvent where
  usage : Option BedrockUsage

structure ConverseStreamEvent where
  messageStart : Option MessageStartEvent := none
  contentBlockStart : Option ContentBlockStartEvent := none
  contentBlockDelta : Option ContentBlockDeltaEvent := none
  contentBlockStop : Option ContentBlockStopEvent := none
  messageStop : Option MessageStopEvent := none
  metadata : Option MetadataEvent := none

/-- `u32::from_be_bytes` of the four bytes at an offset. -/
def bigEndian (buffer : Bytes) (offset : Nat) : Nat :=
  ((buffer.drop offset).take 4).foldl (fun value byte => value * 256 + byte.toNat) 0

/-- The next whole frame of `buffer`: its payload and the bytes after it. -/
def nextPayload (buffer : Bytes) : Except String (Option (Bytes × Bytes)) :=
  if buffer.length < 12 then .ok none
  else
    let totalLen := bigEndian buffer 0
    let headersLen := bigEndian buffer 4
    if totalLen < 16 then
      .error ("invalid Bedrock event-stream frame length: " ++ toString totalLen)
    else if totalLen - 16 < headersLen then
      .error ("invalid Bedrock event-stream headers length: " ++ toString headersLen)
    else if buffer.length < totalLen then .ok none
    else
      .ok (some ((buffer.take (totalLen - 4)).drop (12 + headersLen), buffer.drop totalLen))

theorem nextPayload_length {buffer payload rest : Bytes}
    (found : nextPayload buffer = .ok (some (payload, rest))) : rest.length < buffer.length := by
  unfold nextPayload at found
  split at found
  · cases found
  · dsimp only at found
    split at found
    · cases found
    · split at found
      · cases found
      · split at found
        · cases found
        · cases found
          rw [length_drop]
          omega

/-- What `next_payload` yields until it has no more, and the bytes that are left. -/
def payloads (buffer : Bytes) : List (Except String Bytes) × Bytes :=
  match _ : nextPayload buffer with
  | .error reason => ([.error reason], buffer)
  | .ok none => ([], buffer)
  | .ok (some (payload, rest)) => (.ok payload :: (payloads rest).1, (payloads rest).2)
termination_by buffer.length
decreasing_by exact nextPayload_length ‹_›

structure ProcessState where
  blockMap : Std.TreeMap UInt32 Nat := ∅
  toolArgBuffers : Std.TreeMap UInt32 String := ∅

abbrev Work := Progress ProcessState

def mapStopReason : String → StopReason
  | "end_turn" | "stop_sequence" => .stop
  | "max_tokens" | "model_context_window_exceeded" => .length
  | "tool_use" => .toolUse
  | _ => .error

def exceptionKeys : List String :=
  ["internalServerException", "modelStreamErrorException", "validationException",
    "throttlingException", "serviceUnavailableException"]

def bedrockExceptionMessage (raw : Value) : Option String :=
  exceptionKeys.findSome? fun key =>
    (raw.get key).map fun value =>
      ((value.get "message").bind Value.asStr).getD ("Bedrock stream error: " ++ key)

def Value.strOr (key : String) (value : Value) : String :=
  ((value.get key).bind Value.asStr).getD ""

def onToolUseStart (start : ContentBlockStartEvent) (toolUse : Value) (work : Work) : Work :=
  let index := work.partialMessage.content.length
  ((work.push (openedCall (Value.strOr "toolUseId" toolUse)
      (Value.strOr "name" toolUse))).withState
    { blockMap := work.state.blockMap.insert start.contentBlockIndex index
      toolArgBuffers := work.state.toolArgBuffers.insert start.contentBlockIndex "" }).emit
        (.toolcallStart (UInt32.ofNat index))

/-- `ensure_text_block` and `ensure_thinking_block`: the block of a wire index,
pushed as `block` when the index is new, which is when `started` is emitted. -/
def ensureBlock (block : ContentBlock) (started : UInt32 → AssistantMessage → AssistantMessageEvent)
    (bedrockIndex : UInt32) (work : Work) : Work × Nat :=
  match work.state.blockMap[bedrockIndex]? with
  | some index => (work, index)
  | none =>
    let index := work.partialMessage.content.length
    (((work.push block).withState
      { work.state with blockMap := work.state.blockMap.insert bedrockIndex index }).emit
        (started (UInt32.ofNat index)), index)

def onTextDelta (bedrockIndex : UInt32) (text : String) (work : Work) : Work :=
  let ensured := ensureBlock (.text "" none) .textStart bedrockIndex work
  (ensured.1.edit ensured.2 (ContentBlock.pushText text)).emit
    (.textDelta (UInt32.ofNat ensured.2) text)

def pushReasoning (text signature : Option String) : ContentBlock → ContentBlock
  | .thinking written thinkingSignature redacted =>
    .thinking (written ++ text.getD "")
      (match signature with
        | some more => some (thinkingSignature.getD "" ++ more)
        | none => thinkingSignature) redacted
  | block => block

def onReasoningDelta (bedrockIndex : UInt32) (reasoning : Value) (work : Work) : Work :=
  let ensured := ensureBlock (.thinking "" none none) .thinkingStart bedrockIndex work
  let text := (reasoning.get "text").bind Value.asStr
  let signature := (reasoning.get "signature").bind Value.asStr
  let edited := ensured.1.edit ensured.2 (pushReasoning text signature)
  match text with
  | some delta =>
    if (edited.partialMessage.content[ensured.2]?).any ContentBlock.isThinking then
      edited.emit (.thinkingDelta (UInt32.ofNat ensured.2) delta)
    else edited
  | none => edited

variable (serde : Serde)

def onToolUseDelta (bedrockIndex : UInt32) (toolUse : Value) (work : Work) : Work :=
  match work.state.blockMap[bedrockIndex]? with
  | some index =>
    let input := Value.strOr "input" toolUse
    let args := (work.state.toolArgBuffers[bedrockIndex]?).getD "" ++ input
    ((work.withState { work.state with
        toolArgBuffers := work.state.toolArgBuffers.insert bedrockIndex args }).edit index
      (ContentBlock.setArguments (parseStreamingJson serde args))).emit
        (.toolcallDelta (UInt32.ofNat index) input)
  | none => work

def onMessageStart (event : ConverseStreamEvent) (work : Work) : Except String Work :=
  match event.messageStart with
  | some messageStart =>
    if messageStart.role ≠ "assistant" then
      .error ("Unexpected Bedrock message role: " ++ messageStart.role)
    else .ok (work.emit (.start none))
  | none => .ok work

def onContentBlockStart (event : ConverseStreamEvent) (work : Work) : Work :=
  match event.contentBlockStart with
  | some start =>
    match start.start.get "toolUse" with
    | some toolUse => onToolUseStart start toolUse work
    | none => work
  | none => work

def onContentBlockDelta (event : ConverseStreamEvent) (work : Work) : Work :=
  match event.contentBlockDelta with
  | some delta =>
    match (delta.delta.get "text").bind Value.asStr with
    | some text => onTextDelta delta.contentBlockIndex text work
    | none =>
      match delta.delta.get "reasoningContent" with
      | some reasoning => onReasoningDelta delta.contentBlockIndex reasoning work
      | none =>
        match delta.delta.get "toolUse" with
        | some toolUse => onToolUseDelta serde delta.contentBlockIndex toolUse work
        | none => work
  | none => work

def endBlock (bedrockIndex : UInt32) (index : Nat) (work : Work) : Work :=
  match work.partialMessage.content[index]? with
  | some (.text ..) => work.emit (.textEnd (UInt32.ofNat index))
  | some (.thinking ..) => work.emit (.thinkingEnd (UInt32.ofNat index))
  | some (.toolCall ..) =>
    let written := match work.state.toolArgBuffers[bedrockIndex]? with
      | some args => work.edit index (ContentBlock.setArguments (parseStreamingJson serde args))
      | none => work
    written.emit (.toolcallEnd (UInt32.ofNat index))
  | _ => work

variable (event : ConverseStreamEvent) (work : Work)

def onContentBlockStop : Work :=
  match event.contentBlockStop with
  | some stop =>
    match work.state.blockMap[stop.contentBlockIndex]? with
    | some index => endBlock serde stop.contentBlockIndex index work
    | none => work
  | none => work

def onMessageStop : Work :=
  match event.messageStop with
  | some messageStop =>
    { work with partialMessage.stopReason := mapStopReason messageStop.stopReason }
  | none => work

def onMetadata : Work :=
  match event.metadata.bind MetadataEvent.usage with
  | some usage =>
    { work with
      partialMessage.usage :=
        { input := usage.inputTokens
          output := usage.outputTokens
          cacheRead := usage.cacheReadInputTokens
          cacheWrite := usage.cacheWriteInputTokens
          totalTokens :=
            if usage.totalTokens = 0 then usage.inputTokens + usage.outputTokens
            else usage.totalTokens } }
  | none => work

/-- What follows the role check. -/
def onContent : Work :=
  onMetadata event (onMessageStop event (onContentBlockStop serde event
    (onContentBlockDelta serde event (onContentBlockStart event work))))

def handleEvent : Except String Work :=
  (onMessageStart event work).map (onContent serde event)

/-- The parts of `serde_json` that turn a payload into an event: `from_slice` to a
value, and the derived `from_value`. -/
structure Wire where
  fromSlice : Bytes → Except String Value
  fromValue : Value → Except String ConverseStreamEvent

variable (wire : Wire)

def decode (payload : Bytes) : Except String ConverseStreamEvent :=
  match wire.fromSlice payload with
  | .error error => .error ("Bedrock event parse error: " ++ error)
  | .ok raw =>
    match bedrockExceptionMessage raw with
    | some error => .error error
    | none =>
      match wire.fromValue raw with
      | .error error => .error ("Bedrock event shape error: " ++ error)
      | .ok event => .ok event

def onPayload (payload : Bytes) (work : Work) : Except String Work :=
  if payload = [] then .ok work
  else match decode wire payload with
    | .error error => .error error
    | .ok event => handleEvent serde event work

def consume (work : Work) : List (Except String Bytes) → Work × Option String
  | [] => (work, none)
  | .error error :: _ => (work, some error)
  | .ok payload :: rest =>
    match onPayload serde wire payload work with
    | .error error => (work, some error)
    | .ok work => consume work rest

/-- Everything that has been emitted, and the event that ends the stream. -/
def ended (last : AssistantMessageEvent) : List AssistantMessageEvent :=
  work.events ++ [last]

def processFrom (cancelled : Nat → Bool) (poll : Nat) (buffer : Bytes) (work : Work) :
    List (Except String Bytes) → List AssistantMessageEvent
  | [] =>
    if buffer ≠ [] then
      ended work (failed .error "incomplete Bedrock event-stream frame" work.partialMessage)
    else ended work (.done work.partialMessage.stopReason work.partialMessage)
  | chunk :: rest =>
    if cancelled poll then ended work (failed .aborted "cancelled" work.partialMessage)
    else match chunk with
      | .error error => ended work (failed .error error work.partialMessage)
      | .ok bytes =>
        let read := payloads (buffer ++ bytes)
        match consume serde wire work read.1 with
        | (work, some error) => ended work (failed .error error work.partialMessage)
        | (work, none) => processFrom cancelled (poll + 1) read.2 work rest

def process (body : List (Except String Bytes)) (model : Model) (cancelled : Nat → Bool) :
    List AssistantMessageEvent :=
  processFrom serde wire cancelled 0 []
    ⟨{}, startMessage "bedrock-converse-stream" model, []⟩ body

def argumentDelta (delta : Value) : Option String :=
  match (delta.get "text").bind Value.asStr, delta.get "reasoningContent" with
  | none, none => (delta.get "toolUse").map (Value.strOr "input")
  | _, _ => none

def startMoves : List (Assembly.Move UInt32) :=
  match event.contentBlockStart with
  | some start =>
    if (start.start.get "toolUse").isSome then [.opened start.contentBlockIndex] else []
  | none => []

def deltaMoves : List (Assembly.Move UInt32) :=
  match event.contentBlockDelta with
  | some delta =>
    match argumentDelta delta.delta with
    | some text => [.piece delta.contentBlockIndex text]
    | none => []
  | none => []

/-- What an event says about the argument texts. -/
def moves : List (Assembly.Move UInt32) :=
  startMoves event ++ deltaMoves event

/-- The tool calls of a sequence of events. -/
def calls (events : List ConverseStreamEvent) : Assembly UInt32 :=
  Assembly.run (events.flatMap moves)

/-- The maps and the content after some events. A wire index without an open call
may have a block of another kind. -/
structure Follows (calls : Assembly UInt32) (state : ProcessState)
    (content : List ContentBlock) : Prop where
  inside : ∀ {key : UInt32} {p : Nat}, state.blockMap[key]? = some p → p < content.length
  held : Held calls fun key => state.toolArgBuffers[key]?
  other : ∀ {key : UInt32} {p : Nat}, calls.owner key = none → state.blockMap[key]? = some p →
    (Selection.shape ContentBlock.arguments? content)[p]? ≠ some true
  written : Written serde content calls fun key => state.blockMap[key]?

abbrev Follows.At (calls : Assembly UInt32) (work : Work) : Prop :=
  Follows serde calls work.state work.partialMessage.content

theorem shape_push_inside {content : List ContentBlock} {p : Nat} (inside : p < content.length)
    (block : ContentBlock) :
    (Selection.shape ContentBlock.arguments? (content ++ [block]))[p]? =
      (Selection.shape ContentBlock.arguments? content)[p]? := by
  rw [Selection.shape_append]
  apply getElem?_append_left
  simpa only [Selection.shape, length_map] using inside

namespace Follows

variable {serde} {calls : Assembly UInt32} {state : ProcessState} {content : List ContentBlock}

theorem initial : Follows serde Assembly.empty {} [] where
  inside := nofun
  held := nofun
  other := nofun
  written := Written.empty _

theorem edit (follows : Follows serde calls state content) (p : Nat)
    {change : ContentBlock → ContentBlock}
    (same : ∀ block, (change block).arguments? = block.arguments?) :
    Follows serde calls state (content.modify p change) where
  inside := by
    intro key q found
    rw [length_modify]
    exact follows.inside found
  held := follows.held
  other := by
    intro key q unowned found
    rw [Selection.shape_modify _ _ _ _ fun block => by rw [same]]
    exact follows.other unowned found
  written := follows.written.edit p same

variable {key : UInt32} {p : Nat}

section

variable (follows : Follows serde calls state content)
include follows

theorem push (fresh : state.blockMap[key]? = none) {block : ContentBlock}
    (plain : block.arguments? = none) :
    Follows serde calls
      { state with blockMap := state.blockMap.insert key content.length }
      (content ++ [block]) where
  inside := by
    intro other p found
    rw [getElem?_insert] at found
    rw [length_append, length_singleton]
    by_cases same : other = key
    · rw [if_pos same] at found
      have := Option.some.inj found
      omega
    · rw [if_neg same] at found
      have := follows.inside found
      omega
  held := follows.held
  other := by
    intro other p unowned found
    rw [getElem?_insert] at found
    by_cases same : other = key
    · rw [if_pos same] at found
      rw [← Option.some.inj found, Selection.shape_append, getElem?_append_right
        (by simp [Selection.shape])]
      simp [Selection.shape, plain]
    · rw [if_neg same] at found
      rw [shape_push_inside (follows.inside found)]
      exact follows.other unowned found
  written := by
    have pushed := follows.written.push plain
    refine ⟨pushed.arguments, fun {other n} owned => ?_⟩
    obtain ⟨p, found, at_p⟩ := pushed.placed owned
    have apart : other ≠ key := by
      intro same
      rw [same, fresh] at found
      cases found
    exact ⟨p, by rw [getElem?_insert, if_neg apart, found], at_p⟩

theorem opened (key : UInt32) (id name : String) :
    Follows serde (calls.opened key)
      { blockMap := state.blockMap.insert key content.length
        toolArgBuffers := state.toolArgBuffers.insert key "" }
      (content ++ [openedCall id name]) where
  inside := by
    intro other p found
    rw [getElem?_insert] at found
    rw [length_append, length_singleton]
    by_cases same : other = key
    · rw [if_pos same] at found
      have := Option.some.inj found
      omega
    · rw [if_neg same] at found
      have := follows.inside found
      omega
  held := by
    intro other text current
    rw [Assembly.current_opened] at current
    dsimp only
    rw [getElem?_insert]
    by_cases same : other = key
    · rw [if_pos same] at current ⊢
      exact current
    · rw [if_neg same] at current ⊢
      exact follows.held current
  other := by
    intro other p unowned found
    rw [Assembly.owner_opened] at unowned
    rw [getElem?_insert] at found
    by_cases same : other = key
    · rw [if_pos same] at unowned
      cases unowned
    · rw [if_neg same] at unowned found
      rw [shape_push_inside (follows.inside found)]
      exact follows.other unowned found
  written := by
    apply follows.written.opened key id name
    · rw [getElem?_insert, if_pos rfl]
    · intro other apart
      rw [getElem?_insert, if_neg apart]

theorem buffer {n : Nat} (owner : calls.owner key = some n) :
    ∃ text, calls.current key = some text ∧ state.toolArgBuffers[key]? = some text := by
  obtain ⟨text, current, _⟩ := Assembly.current_of_owner owner
  exact ⟨text, current, follows.held current⟩

theorem write {key : UInt32} (args : String) {later : Assembly UInt32} {p : Nat} (value : Value)
    (owner : later.owner = calls.owner)
    (current : ∀ other, later.current other =
      if other = key then (calls.current key).map fun _ => args else calls.current other)
    (written : Written serde (content.modify p (ContentBlock.setArguments value)) later
      fun key => state.blockMap[key]?) :
    Follows serde later
      { state with toolArgBuffers := state.toolArgBuffers.insert key args }
      (content.modify p (ContentBlock.setArguments value)) where
  inside := by
    intro other q found
    rw [length_modify]
    exact follows.inside found
  held := by
    intro other text held
    rw [current] at held
    dsimp only
    rw [getElem?_insert]
    by_cases same : other = key
    · rw [if_pos same] at held ⊢
      obtain ⟨_, _, rfl⟩ := Option.map_eq_some_iff.mp held
      rfl
    · rw [if_neg same] at held ⊢
      exact follows.held held
  other := by
    intro other q unowned found
    rw [Selection.shape_modify _ _ _ _ (isSome_setArguments _)]
    exact follows.other (owner ▸ unowned) found
  written := written

theorem piece (found : state.blockMap[key]? = some p) (input : String) :
    Follows serde (calls.piece key input)
      { state with
        toolArgBuffers :=
          state.toolArgBuffers.insert key ((state.toolArgBuffers[key]?).getD "" ++ input) }
      (content.modify p (ContentBlock.setArguments
        (parseStreamingJson serde ((state.toolArgBuffers[key]?).getD "" ++ input)))) := by
  cases owner : calls.owner key with
  | some n =>
    obtain ⟨text, current, stored⟩ := follows.buffer owner
    rw [stored, Option.getD_some]
    refine follows.write _ _ rfl (fun other => ?_) (follows.written.piece owner found current input)
    rw [Assembly.current_piece, current]
    rfl
  | none =>
    have none_open : calls.current key = none := by simp [Assembly.current, owner]
    refine follows.write _ _ rfl (fun other => ?_)
      ((follows.written.miss (follows.other owner found) _).lost owner input)
    rw [Assembly.current_piece, none_open]
    rfl

theorem rewrite {args : String} (found : state.blockMap[key]? = some p)
    (stored : state.toolArgBuffers[key]? = some args) :
    Follows serde calls state (content.modify p (ContentBlock.setArguments
      (parseStreamingJson serde args))) where
  inside := by
    intro other q found
    rw [length_modify]
    exact follows.inside found
  held := follows.held
  other := by
    intro other q unowned found
    rw [Selection.shape_modify _ _ _ _ (isSome_setArguments _)]
    exact follows.other unowned found
  written := by
    cases owner : calls.owner key with
    | some n =>
      obtain ⟨text, current, held⟩ := follows.buffer owner
      obtain rfl := Option.some.inj (stored.symm.trans held)
      exact follows.written.rewrite owner found current
    | none => exact follows.written.miss (follows.other owner found) _

end

end Follows

section Steps

variable {serde} {calls : Assembly UInt32} {work : Work}

theorem ensureBlock_follows (follows : Follows.At serde calls work) {block : ContentBlock}
    (plain : block.arguments? = none)
    (started : UInt32 → AssistantMessage → AssistantMessageEvent) (bedrockIndex : UInt32) :
    Follows.At serde calls (ensureBlock block started bedrockIndex work).1 := by
  unfold ensureBlock
  split
  · exact follows
  · rename_i fresh
    exact follows.push fresh plain

theorem arguments?_pushReasoning (text signature : Option String) (block : ContentBlock) :
    (pushReasoning text signature block).arguments? = block.arguments? := by
  cases block <;> rfl

section

variable (follows : Follows.At serde calls work)
include follows

theorem onReasoningDelta_follows (bedrockIndex : UInt32) (reasoning : Value) :
    Follows.At serde calls (onReasoningDelta bedrockIndex reasoning work) := by
  have plain : (ContentBlock.thinking "" none none).arguments? = none := rfl
  have ensured := ensureBlock_follows follows plain .thinkingStart bedrockIndex
  have edited := fun text signature => ensured.edit
    (ensureBlock (.thinking "" none none) .thinkingStart bedrockIndex work).2
    (arguments?_pushReasoning text signature)
  unfold onReasoningDelta
  dsimp only
  split
  · split
    · exact edited _ _
    · exact edited _ _
  · exact edited _ _

variable (event : ConverseStreamEvent)

theorem onContentBlockStart_follows :
    Follows.At serde ((startMoves event).foldl Assembly.step calls)
      (onContentBlockStart event work) := by
  unfold onContentBlockStart startMoves
  split
  · rename_i start _
    cases start.start.get "toolUse" with
    | some toolUse => exact follows.opened _ _ _
    | none => exact follows
  · exact follows

theorem onToolUseDelta_follows (bedrockIndex : UInt32) (toolUse : Value) :
    Follows.At serde (calls.piece bedrockIndex (Value.strOr "input" toolUse))
      (onToolUseDelta serde bedrockIndex toolUse work) := by
  unfold onToolUseDelta
  split
  · rename_i index found
    exact follows.piece found _
  · rename_i absent
    have unowned : calls.owner bedrockIndex = none := by
      cases owner : calls.owner bedrockIndex with
      | none => rfl
      | some n =>
        obtain ⟨p, found, _⟩ := follows.written.placed owner
        rw [absent] at found
        cases found
    refine ⟨follows.inside, ?_, follows.other, follows.written.lost unowned _⟩
    intro key text current
    rw [Assembly.current_piece] at current
    by_cases same : key = bedrockIndex
    · simp [same, Assembly.current, unowned] at current
    · rw [if_neg same] at current
      exact follows.held current

theorem onContentBlockDelta_follows :
    Follows.At serde ((deltaMoves event).foldl Assembly.step calls)
      (onContentBlockDelta serde event work) := by
  unfold onContentBlockDelta deltaMoves argumentDelta
  cases event.contentBlockDelta with
  | none => exact follows
  | some delta =>
    dsimp only
    cases (delta.delta.get "text").bind Value.asStr with
    | some text =>
      exact (ensureBlock_follows follows rfl _ _).edit _ (ContentBlock.arguments?_pushText · text)
    | none =>
      cases delta.delta.get "reasoningContent" with
      | some reasoning => exact onReasoningDelta_follows follows _ _
      | none =>
        cases delta.delta.get "toolUse" with
        | some toolUse => exact onToolUseDelta_follows follows _ toolUse
        | none => exact follows

theorem onContentBlockStop_follows :
    Follows.At serde calls (onContentBlockStop serde event work) := by
  unfold onContentBlockStop
  split
  · split
    · rename_i index found
      unfold endBlock
      split
      · exact follows
      · exact follows
      · dsimp only
        split
        · rename_i stored
          exact follows.rewrite found stored
        · exact follows
      · exact follows
    · exact follows
  · exact follows

theorem onContent_follows :
    Follows.At serde ((moves event).foldl Assembly.step calls) (onContent serde event work) := by
  have stopped := onContentBlockStop_follows
    (onContentBlockDelta_follows (onContentBlockStart_follows follows event) event) event
  rw [moves, foldl_append]
  unfold onContent onMetadata onMessageStop
  split
  · split
    · exact stopped
    · exact stopped
  · split
    · exact stopped
    · exact stopped

end

theorem ensureBlock_stopReason (block : ContentBlock)
    (started : UInt32 → AssistantMessage → AssistantMessageEvent) (bedrockIndex : UInt32) :
    (ensureBlock block started bedrockIndex work).1.partialMessage.stopReason =
      work.partialMessage.stopReason := by
  unfold ensureBlock
  split <;> rfl

theorem onContentBlockStart_stopReason :
    (onContentBlockStart event work).partialMessage.stopReason =
      work.partialMessage.stopReason := by
  unfold onContentBlockStart
  split
  · split <;> rfl
  · rfl

theorem onContentBlockDelta_stopReason :
    (onContentBlockDelta serde event work).partialMessage.stopReason =
      work.partialMessage.stopReason := by
  unfold onContentBlockDelta
  split
  · split
    · exact ensureBlock_stopReason _ _ _
    · split
      · unfold onReasoningDelta
        dsimp only
        split
        · split
          · exact ensureBlock_stopReason _ _ _
          · exact ensureBlock_stopReason _ _ _
        · exact ensureBlock_stopReason _ _ _
      · split
        · unfold onToolUseDelta
          split <;> rfl
        · rfl
  · rfl

theorem onContentBlockStop_stopReason :
    (onContentBlockStop serde event work).partialMessage.stopReason =
      work.partialMessage.stopReason := by
  unfold onContentBlockStop
  split
  · split
    · unfold endBlock
      split
      · rfl
      · rfl
      · dsimp only
        split <;> rfl
      · rfl
    · rfl
  · rfl

theorem onContent_stopReason {event : ConverseStreamEvent} (goes_on : event.messageStop = none) :
    (onContent serde event work).partialMessage.stopReason =
      work.partialMessage.stopReason := by
  have stopped : (onContentBlockStop serde event (onContentBlockDelta serde event
      (onContentBlockStart event work))).partialMessage.stopReason =
        work.partialMessage.stopReason := by
    rw [onContentBlockStop_stopReason, onContentBlockDelta_stopReason,
      onContentBlockStart_stopReason]
  unfold onContent onMessageStop onMetadata
  rw [goes_on]
  split
  · exact stopped
  · exact stopped

end Steps

section Runs

variable {serde} {wire : Wire}

def eventOf (wire : Wire) (item : Except String Bytes) : Option ConverseStreamEvent :=
  match item with
  | .ok payload => if payload = [] then none else (decode wire payload).toOption
  | .error _ => none

def bodyEvents (wire : Wire) (buffer : Bytes) :
    List (Except String Bytes) → List ConverseStreamEvent
  | .ok bytes :: rest =>
    (payloads (buffer ++ bytes)).1.filterMap (eventOf wire) ++
      bodyEvents wire (payloads (buffer ++ bytes)).2 rest
  | _ => []

def Misplaced : Prop :=
  ∃ start, event.messageStart = some start ∧ start.role ≠ "assistant"

def Refuses (wire : Wire) (item : Except String Bytes) : Prop :=
  match item with
  | .error _ => True
  | .ok payload =>
    payload ≠ [] ∧ ∀ event, decode wire payload = .ok event → Misplaced event

/-- Something other than the end of the response stops the loop, or the response
ends within a frame. -/
def Interrupted (wire : Wire) (cancelled : Nat → Bool) :
    Nat → Bytes → List (Except String Bytes) → Prop
  | _, buffer, [] => buffer ≠ []
  | poll, buffer, chunk :: rest =>
    cancelled poll ∨ match chunk with
      | .error _ => True
      | .ok bytes =>
        (∃ item ∈ (payloads (buffer ++ bytes)).1, Refuses wire item) ∨
          Interrupted wire cancelled (poll + 1) (payloads (buffer ++ bytes)).2 rest

theorem handleEvent_spec (serde : Serde) (event : ConverseStreamEvent) (work : Work) :
    (Misplaced event ∧ ∃ reason, handleEvent serde event work = .error reason) ∨
      (¬ Misplaced event ∧ ∃ started : Work,
        handleEvent serde event work = .ok (onContent serde event started) ∧
          started.state = work.state ∧ started.partialMessage = work.partialMessage) := by
  unfold handleEvent onMessageStart Misplaced
  cases event.messageStart with
  | none => exact .inr ⟨by simp, work, rfl, rfl, rfl⟩
  | some start =>
    by_cases other : start.role = "assistant"
    · exact .inr ⟨by simp [other], work.emit (.start none), by simp [other, Except.map], rfl, rfl⟩
    · refine .inl ⟨⟨start, rfl, other⟩, "Unexpected Bedrock message role: " ++ start.role, ?_⟩
      simp [other, Except.map]

theorem onPayload_spec (serde : Serde) (payload : Bytes) (work : Work) :
    (Refuses wire (.ok payload) ∧ ∃ reason, onPayload serde wire payload work = .error reason) ∨
      (¬ Refuses wire (.ok payload) ∧
        ((eventOf wire (.ok payload) = none ∧ onPayload serde wire payload work = .ok work) ∨
          ∃ event started, eventOf wire (.ok payload) = some event ∧
            onPayload serde wire payload work = .ok (onContent serde event started) ∧
            started.state = work.state ∧ started.partialMessage = work.partialMessage)) := by
  unfold onPayload Refuses eventOf
  by_cases empty : payload = []
  · simp [empty]
  · simp only [empty, ↓reduceIte, ne_eq, not_false_eq_true, true_and]
    cases decoded : decode wire payload with
    | error error => exact .inl ⟨fun _ absent => (nomatch absent), error, rfl⟩
    | ok event =>
      rcases handleEvent_spec serde event work with
        ⟨bad, reason, failed⟩ | ⟨fine, started, handled, kept⟩
      · exact .inl ⟨fun _ same => Except.ok.inj same ▸ bad, reason, failed⟩
      · exact .inr ⟨fun bad => fine (bad event rfl), .inr ⟨event, started, rfl, handled, kept⟩⟩

theorem consume_spec (serde : Serde)
    (Inv : List ConverseStreamEvent → ProcessState → AssistantMessage → Prop)
    {items : List (Except String Bytes)}
    (step : ∀ {seen event work}, event ∈ items.filterMap (eventOf wire) →
      Inv seen work.state work.partialMessage →
      Inv (seen ++ [event]) (onContent serde event work).state
        (onContent serde event work).partialMessage)
    (seen : List ConverseStreamEvent) {work : Work}
    (holds : Inv seen work.state work.partialMessage) :
    ((∃ item ∈ items, Refuses wire item) ∧
        ∃ later reason, consume serde wire work items = (later, some reason)) ∨
      ((¬ ∃ item ∈ items, Refuses wire item) ∧
        ∃ later, consume serde wire work items = (later, none) ∧
          Inv (seen ++ items.filterMap (eventOf wire)) later.state later.partialMessage) := by
  induction items generalizing seen work with
  | nil =>
    refine .inr ⟨by simp, work, rfl, ?_⟩
    rwa [filterMap_nil, append_nil]
  | cons item items ih =>
    have later_events : ∀ {seen event work}, event ∈ items.filterMap (eventOf wire) →
        Inv seen work.state work.partialMessage →
        Inv (seen ++ [event]) (onContent serde event work).state
          (onContent serde event work).partialMessage := by
      intro seen event work member
      apply step
      rw [filterMap_cons]
      split
      · exact member
      · exact mem_cons_of_mem _ member
    cases item with
    | error error =>
      exact .inl ⟨⟨.error error, mem_cons_self, trivial⟩, work, error, rfl⟩
    | ok payload =>
      have unrefused : ¬ Refuses wire (.ok payload) →
          ((∃ item ∈ .ok payload :: items, Refuses wire item) ↔
            ∃ item ∈ items, Refuses wire item) := by
        intro fine
        simp [fine]
      rcases onPayload_spec serde payload work with
        ⟨bad, reason, failed⟩ | ⟨fine, ⟨empty, kept⟩ | ⟨event, started, found, handled, same⟩⟩
      · exact .inl ⟨⟨_, mem_cons_self, bad⟩, work, reason,
          by simp [consume, failed]⟩
      · simp only [consume, kept, unrefused fine, filterMap_cons, empty]
        exact ih later_events seen holds
      · have next : Inv (seen ++ [event]) (onContent serde event started).state
            (onContent serde event started).partialMessage := by
          apply step
          · rw [filterMap_cons, found]
            exact mem_cons_self
          · rwa [same.1, same.2]
        simp only [consume, handled, unrefused fine, filterMap_cons, found]
        simpa only [append_assoc, singleton_append] using ih later_events _ next

theorem streamReason_ended (last : AssistantMessageEvent) :
    streamReason (ended work last) = last.reason? := by
  rw [ended, streamReason_append _ (cons_ne_nil _ _)]
  rfl

theorem processFrom_reportsFailure {body : List (Except String Bytes)} {buffer : Bytes}
    (cut : ∀ event ∈ bodyEvents wire buffer body, event.messageStop = none)
    (cancelled : Nat → Bool) (poll : Nat) {work : Work}
    (running : work.partialMessage.stopReason = .stop) :
    ReportsFailure (processFrom serde wire cancelled poll buffer work body) ↔
      Interrupted wire cancelled poll buffer body := by
  induction body generalizing poll buffer work with
  | nil =>
    unfold processFrom Interrupted ReportsFailure
    split
    · rename_i partial_frame
      simp [streamReason_ended, AssistantMessageEvent.reason?, failed, partial_frame,
        StopReason.isFailure]
    · rename_i whole
      simp [streamReason_ended, AssistantMessageEvent.reason?, running, whole, StopReason.isFailure]
  | cons chunk rest ih =>
    unfold processFrom Interrupted
    by_cases stopped : cancelled poll = true
    · simp [stopped, ReportsFailure, streamReason_ended, AssistantMessageEvent.reason?, failed,
        StopReason.isFailure]
    · simp only [stopped, Bool.false_eq_true, ↓reduceIte, false_or]
      cases chunk with
      | error error =>
        simp [ReportsFailure, streamReason_ended, AssistantMessageEvent.reason?, failed,
          StopReason.isFailure]
      | ok bytes =>
        have plain : ∀ event ∈ (payloads (buffer ++ bytes)).1.filterMap (eventOf wire),
            event.messageStop = none :=
          fun event member => cut event (mem_append_left _ member)
        have step : ∀ {event} {work : Work},
            event ∈ (payloads (buffer ++ bytes)).1.filterMap (eventOf wire) →
            work.partialMessage.stopReason = .stop →
            (onContent serde event work).partialMessage.stopReason = .stop :=
          fun member running => (onContent_stopReason (plain _ member)).trans running
        rcases consume_spec serde (fun _ _ message => message.stopReason = .stop)
          (fun {_ _ _} => step) [] running with
          ⟨bad, later, reason, stopped⟩ | ⟨fine, later, consumed, kept⟩
        · simp only [stopped, bad, true_or, iff_true]
          exact ⟨.error, streamReason_ended _ _, rfl⟩
        · simp only [consumed, fine, false_or]
          exact ih (fun event member => cut event (mem_append_right _ member)) _ kept

theorem processFrom_arguments {body : List (Except String Bytes)} {buffer : Bytes}
    {cancelled : Nat → Bool} {poll : Nat} {work : Work} {seen : List ConverseStreamEvent}
    (follows : Follows.At serde (calls seen) work) {reason : StopReason}
    {message : AssistantMessage}
    (ends : (processFrom serde wire cancelled poll buffer work body).getLast? =
      some (.done reason message)) :
    message.toolArguments =
      (calls (seen ++ bodyEvents wire buffer body)).texts.map (parseStreamingJson serde) := by
  induction body generalizing poll buffer work seen with
  | nil =>
    unfold processFrom ended at ends
    split at ends
    · simp [failed] at ends
    · simp only [getLast?_append, getLast?_singleton, Option.some_or,
        Option.some.injEq, AssistantMessageEvent.done.injEq] at ends
      simp only [← ends.2, bodyEvents, append_nil]
      exact follows.written.arguments
  | cons chunk rest ih =>
    unfold processFrom at ends
    split at ends
    · simp [failed, ended] at ends
    · cases chunk with
      | error error => simp [failed, ended] at ends
      | ok bytes =>
        have step : ∀ {seen event} {work : Work},
            event ∈ (payloads (buffer ++ bytes)).1.filterMap (eventOf wire) →
            Follows.At serde (calls seen) work →
            Follows.At serde (calls (seen ++ [event])) (onContent serde event work) := by
          intro seen event work _ follows
          simp only [calls, flatMap_append, flatMap_singleton, Assembly.run_append]
          exact onContent_follows follows event
        rcases consume_spec serde
          (fun events state message => Follows serde (calls events) state message.content)
          step seen follows with ⟨_, later, reason, stopped⟩ | ⟨_, later, consumed, kept⟩
        · simp [stopped, failed, ended] at ends
        · simp only [consumed] at ends
          rw [bodyEvents, ← append_assoc]
          exact ih kept ends

end Runs

end PiRust.Bedrock
