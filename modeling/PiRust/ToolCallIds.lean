import Mathlib.Data.List.Nodup
import Mathlib.Data.List.TakeWhile
import PiRust.BedrockRequest

/- The identifiers of tool calls and of their results, in a conversation and in the
requests that are made of it. -/
namespace PiRust

open List

def Message.blocks : Message → List ContentBlock
  | .user content | .assistant content => content
  | .toolResult .. => []

def toolCallIds (messages : List Message) : List String :=
  messages.flatMap fun message => message.blocks.filterMap ContentBlock.callId?

def resultIds (messages : List Message) : List String := messages.filterMap Message.answers?

/-- A request keeps the references: all identifiers are accepted, no two calls have one
identifier, and each result has that of its own call. -/
structure Intact (messages : List Message) (calls results : List String) : Prop where
  valid : ∀ id ∈ calls ++ results, ValidToolCallId id
  distinct : calls.Nodup
  named : ∀ {k p : Nat} {id : String}, (resultIds messages)[k]? = some id →
    (toolCallIds messages)[p]? = some id → ∃ sent, results[k]? = some sent ∧ calls[p]? = some sent

/-- A request has an accepted identifier for each call and each result, a result that of
its call; whether calls still differ is up to the characters that they keep. -/
structure Renamed (messages : List Message) (replacement : Option Char)
    (calls results : List String) : Prop where
  valid : ∀ id ∈ calls ++ results, ValidToolCallId id
  named : ∀ k < (resultIds messages).length, ∃ (p : Nat) (id sent : String),
    (resultIds messages)[k]? = some id ∧ (toolCallIds messages)[p]? = some id ∧
      results[k]? = some sent ∧ calls[p]? = some sent
  intact : Intact messages calls results ↔
    ((toolCallIds messages).map fun id => keptId id replacement).Nodup
  unchanged : (∀ id ∈ toolCallIds messages, ValidToolCallId id) → calls = toolCallIds messages

section Renaming

variable {replacement : Option Char} {messages : List Message}

theorem renamed_named {k p : Nat} {id : String} (result : (resultIds messages)[k]? = some id)
    (call : (toolCallIds messages)[p]? = some id) :
    ((resultIds messages).map fun id => normalizeToolCallId id replacement)[k]? =
        some (normalizeToolCallId id replacement) ∧
      ((toolCallIds messages).map fun id => normalizeToolCallId id replacement)[p]? =
        some (normalizeToolCallId id replacement) := by
  rw [getElem?_map, getElem?_map, result, call]
  exact ⟨rfl, rfl⟩

variable (allowed : ∀ c ∈ replacement, isIdChar c = true)
include allowed

theorem renamed_valid {calls results : List String} :
    ∀ id ∈ calls.map (fun id => normalizeToolCallId id replacement) ++
      results.map (fun id => normalizeToolCallId id replacement), ValidToolCallId id := by
  intro id member
  rcases mem_append.mp member with call | result
  · obtain ⟨original, _, rfl⟩ := mem_map.mp call
    exact normalizeToolCallId_valid allowed original
  · obtain ⟨original, _, rfl⟩ := mem_map.mp result
    exact normalizeToolCallId_valid allowed original

/-- Identifiers differ exactly when what they keep differs. -/
theorem nodup_normalized_iff (ids : List String) :
    (ids.map fun id => normalizeToolCallId id replacement).Nodup ↔
      (ids.map fun id => keptId id replacement).Nodup := by
  have through : (ids.map fun id => normalizeToolCallId id replacement) =
      (ids.map fun id => keptId id replacement).map String.ofList := by
    rw [map_map]
    exact map_congr_left fun id _ => normalizeToolCallId_eq allowed id
  rw [through]
  exact nodup_map_iff fun first second same => String.ofList_injective same

theorem renamed (existing : ∀ id ∈ resultIds messages, id ∈ toolCallIds messages) :
    Renamed messages replacement
      ((toolCallIds messages).map fun id => normalizeToolCallId id replacement)
      ((resultIds messages).map fun id => normalizeToolCallId id replacement) where
  valid := renamed_valid allowed
  named k inside := by
    have result := getElem?_eq_getElem inside
    obtain ⟨p, call⟩ := mem_iff_getElem?.mp (existing _ (getElem_mem inside))
    obtain ⟨sent_result, sent_call⟩ := renamed_named result call
    exact ⟨p, _, _, result, call, sent_result, sent_call⟩
  intact := by
    rw [← nodup_normalized_iff allowed]
    constructor
    · exact Intact.distinct
    · intro distinct
      refine ⟨renamed_valid allowed, distinct, fun result call => ?_⟩
      exact ⟨_, renamed_named result call⟩
  unchanged valid := by
    refine (map_congr_left fun id member => ?_).trans (map_id _)
    exact if_pos ((validToolCallId_iff id).mp (valid id member))

end Renaming

namespace Anthropic

def items (request : List RequestMessage) : List Value :=
  request.flatMap fun message => message.content.asArray.getD []

def idOf (type key : String) (item : Value) : Option String :=
  if (item.get "type").bind Value.asStr = some type then (item.get key).bind Value.asStr else none

def callIdsOf (request : List RequestMessage) : List String :=
  (items request).filterMap (idOf "tool_use" "id")

def resultIdsOf (request : List RequestMessage) : List String :=
  (items request).filterMap (idOf "tool_result" "tool_use_id")

def itemsFor : Message → List Value
  | .user content | .assistant content => content.map convertBlock
  | .toolResult toolCallId _ _ content => [toolResultContent toolCallId content]

theorem items_addToolResult (result : List RequestMessage) (toolContent : Value) :
    items (addToolResult result toolContent) = items result ++ [toolContent] := by
  have pushed : items (result ++ [⟨"user", .array [toolContent]⟩]) =
      items result ++ [toolContent] := by
    rw [items, flatMap_append]
    rfl
  unfold addToolResult
  dsimp only
  split
  · rename_i last found
    split
    · split
      · rename_i values array
        obtain ⟨front, rfl⟩ := getLast?_eq_some_iff.mp found
        rw [dropLast_concat, items, items, flatMap_append, flatMap_append,
          flatMap_singleton, flatMap_singleton, array, append_assoc]
        rfl
      · exact pushed
    · exact pushed
  · exact pushed

variable (messages : List Message)

theorem items_convertMessages : items (convertMessages messages) = messages.flatMap itemsFor := by
  have added : ∀ result, items (messages.foldl addMessage result) =
      items result ++ messages.flatMap itemsFor := by
    induction messages with
    | nil => exact fun result => (append_nil _).symm
    | cons message rest ih =>
      intro result
      have one : items (addMessage result message) = items result ++ itemsFor message := by
        cases message with
        | user content => rw [addMessage, items, flatMap_append, flatMap_singleton]; rfl
        | assistant content =>
          rw [addMessage, items, flatMap_append, flatMap_singleton]
          rfl
        | toolResult toolCallId toolName isError content => exact items_addToolResult _ _
      rw [foldl_cons, ih, one, append_assoc, flatMap_cons]
  exact added []

theorem idOf_call (block : ContentBlock) : idOf "tool_use" "id" (convertBlock block) =
    block.callId?.map fun id => normalizeToolCallId id none := by
  cases block <;> simp [idOf, convertBlock, Value.get, Value.asStr, ContentBlock.callId?]

theorem idOf_result (block : ContentBlock) :
    idOf "tool_result" "tool_use_id" (convertBlock block) = none := by
  cases block <;> simp [idOf, convertBlock, Value.get, Value.asStr]

theorem callIdsOf_convertMessages :
    callIdsOf (convertMessages messages) =
      (toolCallIds messages).map fun id => normalizeToolCallId id none := by
  rw [callIdsOf, items_convertMessages, filterMap_flatMap, toolCallIds, map_flatMap]
  congr 1
  funext message
  have blocks : ∀ content : List ContentBlock,
      (content.map convertBlock).filterMap (idOf "tool_use" "id") =
        (content.filterMap ContentBlock.callId?).map fun id => normalizeToolCallId id none := by
    intro content
    rw [filterMap_map, map_filterMap]
    exact filterMap_congr fun block _ => idOf_call block
  cases message with
  | user content => exact blocks content
  | assistant content => exact blocks content
  | toolResult toolCallId toolName isError content =>
    simp [itemsFor, idOf, toolResultContent, Value.get, Value.asStr, Message.blocks]

theorem resultIdsOf_convertMessages :
    resultIdsOf (convertMessages messages) =
      (resultIds messages).map fun id => normalizeToolCallId id none := by
  rw [resultIdsOf, items_convertMessages, resultIds]
  induction messages with
  | nil => rfl
  | cons message rest ih =>
    have blocks : ∀ content : List ContentBlock,
        (content.map convertBlock).filterMap (idOf "tool_result" "tool_use_id") = [] := by
      intro content
      rw [filterMap_map]
      exact filterMap_eq_nil_iff.mpr fun block _ => idOf_result block
    rw [flatMap_cons, filterMap_append, ih]
    cases message with
    | user content => rw [itemsFor, blocks]; rfl
    | assistant content => rw [itemsFor, blocks]; rfl
    | toolResult toolCallId toolName isError content =>
      simp [itemsFor, idOf, toolResultContent, Value.get, Value.asStr, Message.answers?]

end Anthropic

namespace Bedrock

def WireContent.callId? : WireContent → Option String
  | .toolUse toolUseId _ _ => some toolUseId
  | _ => none

def WireContent.resultId? : WireContent → Option String
  | .toolResult toolUseId _ _ => some toolUseId
  | _ => none

def callIdsOf (request : List BedrockMessage) : List String :=
  request.flatMap fun message => message.content.filterMap WireContent.callId?

def resultIdsOf (request : List BedrockMessage) : List String :=
  request.flatMap fun message => message.content.filterMap WireContent.resultId?

variable (lowercase : String → String) (model : ModelName)
variable {pick : WireContent → Option String}

theorem filterMap_convertContent {from? : ContentBlock → Option String}
    (placeholder : pick (.text emptyTextPlaceholder) = none)
    (each : ∀ block, (convertBlock lowercase model block).bind pick = from? block)
    (blocks : List ContentBlock) :
    (convertContent lowercase model blocks).filterMap pick = blocks.filterMap from? := by
  have converted : (blocks.filterMap (convertBlock lowercase model)).filterMap pick =
      blocks.filterMap from? := by
    rw [filterMap_filterMap]
    exact filterMap_congr fun block _ => each block
  unfold convertContent
  dsimp only
  split
  · rename_i empty
    rw [← converted, isEmpty_iff.mp empty, filterMap_cons_none placeholder]
  · exact converted

variable (blocks : List ContentBlock)

theorem callIds_convertContent :
    (convertContent lowercase model blocks).filterMap WireContent.callId? =
      (blocks.filterMap ContentBlock.callId?).map fun id => normalizeToolCallId id (some '_') := by
  rw [map_filterMap]
  apply filterMap_convertContent lowercase model rfl
  intro block
  cases block with
  | text text signature =>
    rw [convertBlock]
    split <;> rfl
  | thinking thinking signature redacted =>
    rw [convertBlock]
    split
    · rfl
    · split <;> rfl
  | image data mimeType => rfl
  | toolCall id name arguments signature => rfl

theorem resultIds_convertContent :
    (convertContent lowercase model blocks).filterMap WireContent.resultId? = [] := by
  have none_left : blocks.filterMap (fun _ => (none : Option String)) = [] :=
    filterMap_eq_nil_iff.mpr fun _ _ => rfl
  rw [← none_left]
  apply filterMap_convertContent lowercase model rfl
  intro block
  cases block with
  | text text signature =>
    rw [convertBlock]
    split <;> rfl
  | thinking thinking signature redacted =>
    rw [convertBlock]
    split
    · rfl
    · split <;> rfl
  | image data mimeType => rfl
  | toolCall id name arguments signature => rfl

theorem convertContent_ne_nil : convertContent lowercase model blocks ≠ [] := by
  unfold convertContent
  dsimp only
  split
  · exact cons_ne_nil _ _
  · rename_i filled
    exact fun empty => filled (isEmpty_iff.mpr empty)

def contentFor : Message → List WireContent
  | .user content | .assistant content => convertContent lowercase model content
  | message@(.toolResult ..) => [message].filterMap convertToolResult

theorem flatMap_results {messages : List Message}
    (results : ∀ message ∈ messages, isToolResult message = true) :
    messages.flatMap (contentFor lowercase model) = messages.filterMap convertToolResult := by
  induction messages with
  | nil => rfl
  | cons message rest ih =>
    have later := ih fun other member => results other (mem_cons_of_mem message member)
    have here := results message mem_cons_self
    cases message with
    | user => cases here
    | assistant => cases here
    | toolResult toolCallId toolName isError content =>
      rw [flatMap_cons, later]
      rfl

variable (messages : List Message)

theorem content_convertLoop :
    (convertLoop lowercase model messages).flatMap BedrockMessage.content =
      messages.flatMap (contentFor lowercase model) := by
  fun_induction convertLoop lowercase model messages with
  | case1 => rfl
  | case2 content rest ih => rw [flatMap_cons, flatMap_cons, ih]; rfl
  | case3 content rest converted ih =>
    have filled : ¬ converted.isEmpty = true := fun empty =>
      convertContent_ne_nil lowercase model content (isEmpty_iff.mp empty)
    rw [if_neg filled, flatMap_append, flatMap_singleton, ih, flatMap_cons]
    rfl
  | case4 toolCallId toolName isError content rest ih =>
    have row : ∀ other ∈ Message.toolResult toolCallId toolName isError content ::
        rest.takeWhile isToolResult, isToolResult other = true := by
      intro other member
      rcases mem_cons.mp member with rfl | later
      · rfl
      · exact mem_takeWhile_imp later
    rw [flatMap_cons, ih, ← flatMap_results lowercase model row, ← flatMap_append,
      cons_append, takeWhile_append_dropWhile]

theorem filterMap_convertMessages (point : ∀ point, pick (.cachePoint point) = none)
    (messages : List Message) (retention : CacheRetention) :
    ((convertMessages lowercase messages model retention).flatMap
        fun message => message.content.filterMap pick) =
      messages.flatMap fun message => (contentFor lowercase model message).filterMap pick := by
  have loop : ((convertLoop lowercase model messages).flatMap
      fun message => message.content.filterMap pick) =
      messages.flatMap fun message => (contentFor lowercase model message).filterMap pick := by
    rw [← filterMap_flatMap, ← filterMap_flatMap]
    exact congrArg (filterMap pick) (content_convertLoop lowercase model messages)
  have added : ∀ result : List BedrockMessage,
      ((addCachePoint retention result).flatMap fun message => message.content.filterMap pick) =
        result.flatMap fun message => message.content.filterMap pick := by
    intro result
    unfold addCachePoint
    split
    · rename_i last found
      split
      · obtain ⟨front, rfl⟩ := getLast?_eq_some_iff.mp found
        rw [dropLast_concat, flatMap_append, flatMap_append,
          flatMap_singleton, flatMap_singleton, filterMap_append,
          filterMap_cons_none (point _), filterMap_nil, append_nil]
      · rfl
    · rfl
  unfold convertMessages
  dsimp only
  split
  · rw [added, loop]
  · exact loop

theorem callIdsOf_convertMessages (retention : CacheRetention) :
    callIdsOf (convertMessages lowercase messages model retention) =
      (toolCallIds messages).map fun id => normalizeToolCallId id (some '_') := by
  rw [callIdsOf, filterMap_convertMessages lowercase model (fun _ => rfl), toolCallIds, map_flatMap]
  congr 1
  funext message
  cases message with
  | user content | assistant content => exact callIds_convertContent lowercase model content
  | toolResult toolCallId toolName isError content => rfl

theorem resultIdsOf_convertMessages (retention : CacheRetention) :
    resultIdsOf (convertMessages lowercase messages model retention) =
      (resultIds messages).map fun id => normalizeToolCallId id (some '_') := by
  rw [resultIdsOf, filterMap_convertMessages lowercase model (fun _ => rfl), resultIds]
  induction messages with
  | nil => rfl
  | cons message rest ih =>
    rw [flatMap_cons, ih]
    cases message with
    | user content | assistant content => rw [contentFor, resultIds_convertContent]; rfl
    | toolResult toolCallId toolName isError content => rfl

end Bedrock

/-- Both requests have accepted identifiers and keep each result with its call; calls stay
apart exactly when what is left of their identifiers does. -/
theorem requests_renamed (lowercase : String → String) (messages : List Message)
    (existing : ∀ id ∈ resultIds messages, id ∈ toolCallIds messages)
    (model : Bedrock.ModelName) (retention : Bedrock.CacheRetention) :
    Renamed messages none (Anthropic.callIdsOf (Anthropic.convertMessages messages))
        (Anthropic.resultIdsOf (Anthropic.convertMessages messages)) ∧
      Renamed messages (some '_')
        (Bedrock.callIdsOf (Bedrock.convertMessages lowercase messages model retention))
        (Bedrock.resultIdsOf (Bedrock.convertMessages lowercase messages model retention)) := by
  rw [Anthropic.callIdsOf_convertMessages, Anthropic.resultIdsOf_convertMessages,
    Bedrock.callIdsOf_convertMessages, Bedrock.resultIdsOf_convertMessages]
  have nothing : ∀ c ∈ (none : Option Char), isIdChar c = true :=
    fun c member => absurd member (Option.not_mem_none c)
  have underscore : ∀ c ∈ some '_', isIdChar c = true := by
    intro c member
    rw [← Option.mem_some.mp member]
    decide
  exact ⟨renamed nothing existing, renamed underscore existing⟩

def twoCalls : List Message :=
  [.assistant [.toolCall "call:1" "read" .null none, .toolCall "call1" "read" .null none],
    .toolResult "call:1" none none [], .toolResult "call1" none none []]

theorem requests_renamed_twoCalls :
    Renamed twoCalls none (Anthropic.callIdsOf (Anthropic.convertMessages twoCalls))
        (Anthropic.resultIdsOf (Anthropic.convertMessages twoCalls)) ∧
      Renamed twoCalls (some '_')
        (Bedrock.callIdsOf (Bedrock.convertMessages id twoCalls ⟨"m", "m"⟩ .none))
        (Bedrock.resultIdsOf (Bedrock.convertMessages id twoCalls ⟨"m", "m"⟩ .none)) := by
  apply requests_renamed
  intro id member
  exact member

/-- They become one. -/
theorem twoCalls_collide :
    ¬ ∀ messages : List Message, (toolCallIds messages).Nodup →
      (∀ id ∈ resultIds messages, id ∈ toolCallIds messages) →
      Intact messages (Anthropic.callIdsOf (Anthropic.convertMessages messages))
        (Anthropic.resultIdsOf (Anthropic.convertMessages messages)) := by
  intro always
  have distinct : (toolCallIds twoCalls).Nodup := by
    change ["call:1", "call1"].Nodup
    decide
  have apart := (always twoCalls distinct fun id member => member).distinct
  have nothing : ∀ c ∈ (none : Option Char), isIdChar c = true :=
    fun c member => absurd member (Option.not_mem_none c)
  rw [Anthropic.callIdsOf_convertMessages, nodup_normalized_iff nothing] at apart
  have collide : ¬ [['c', 'a', 'l', 'l', '1'], ['c', 'a', 'l', 'l', '1']].Nodup := by decide
  exact collide apart

end PiRust
