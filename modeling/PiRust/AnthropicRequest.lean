import PiRust.Convert

/- `providers/anthropic/convert.rs` and `util/tool_call_id.rs`: the messages of a
request, whose contents are JSON. -/
namespace PiRust

open List

def Value.asArray : Value → Option (List Value)
  | .array items => some items
  | _ => none

/-- The characters of `^[a-zA-Z0-9_-]{1,64}$`. -/
def isIdChar (c : Char) : Bool := c.isAlphanum || c = '_' || c = '-'

def normalizeToolCallId (id : String) (replacement : Option Char) : String :=
  let isValid := id ≠ "" && id.utf8ByteSize ≤ 64 && id.toList.all isIdChar
  if isValid then id
  else
    let sanitized : List Char := match replacement with
      | some replacement => id.toList.map fun c => if isIdChar c then c else replacement
      | none => id.toList.filter isIdChar
    if (String.ofList sanitized).utf8ByteSize > 64 then String.ofList (sanitized.take 64)
    else if sanitized = [] then "tool_0"
    else String.ofList sanitized

/-- An identifier that the API gives out. -/
def ValidToolCallId (id : String) : Prop :=
  id ≠ "" ∧ id.length ≤ 64 ∧ ∀ c ∈ id.toList, isIdChar c = true

namespace Anthropic

structure RequestMessage where
  role : String
  content : Value

def convertBlock : ContentBlock → Value
  | .text text _ => .object [("type", .string "text"), ("text", .string text)]
  | .thinking thinking _ _ =>
    .object [("type", .string "thinking"), ("thinking", .string thinking)]
  | .image data mimeType =>
    .object [("type", .string "image"),
      ("source", .object [("type", .string "base64"), ("media_type", .string mimeType),
        ("data", .string data)])]
  | .toolCall id name arguments _ =>
    .object [("type", .string "tool_use"), ("id", .string (normalizeToolCallId id none)),
      ("name", .string name), ("input", arguments)]

def convertContent (blocks : List ContentBlock) : Value := .array (blocks.map convertBlock)

def toolResultContent (toolCallId : String) (content : List ContentBlock) : Value :=
  .object [("type", .string "tool_result"),
    ("tool_use_id", .string (normalizeToolCallId toolCallId none)),
    ("content", convertContent content)]

def addToolResult (result : List RequestMessage) (toolContent : Value) : List RequestMessage :=
  let pushed := result ++ [⟨"user", .array [toolContent]⟩]
  match result.getLast? with
  | some last =>
    if last.role = "user" then
      match last.content.asArray with
      | some items => result.dropLast ++ [{ last with content := .array (items ++ [toolContent]) }]
      | none => pushed
    else pushed
  | none => pushed

def addMessage (result : List RequestMessage) : Message → List RequestMessage
  | .user content => result ++ [⟨"user", convertContent content⟩]
  | .assistant content => result ++ [⟨"assistant", convertContent content⟩]
  | .toolResult toolCallId _ _ content =>
    addToolResult result (toolResultContent toolCallId content)

def convertMessages (messages : List Message) : List RequestMessage :=
  messages.foldl addMessage []

end Anthropic

section Ids

theorem isIdChar_size {c : Char} (allowed : isIdChar c = true) : c.utf8Size = 1 := by
  have either : ∀ {a b : Bool}, (a || b) = true → a = true ∨ b = true := Bool.or_eq_true_iff.mp
  have small : c.val ≤ 127 := by
    rcases either allowed with named | hyphen
    · rcases either named with alphanumeric | underscore
      · rcases either alphanumeric with letter | digit
        · rcases either letter with upper | lower
          · exact UInt32.le_trans (of_decide_eq_true upper).2 (by decide)
          · exact UInt32.le_trans (of_decide_eq_true (Bool.and_eq_true_iff.mp lower).2) (by decide)
        · exact UInt32.le_trans (of_decide_eq_true (Bool.and_eq_true_iff.mp digit).2) (by decide)
      · rw [of_decide_eq_true underscore]
        decide
    · rw [of_decide_eq_true hyphen]
      decide
  exact if_pos small

theorem utf8ByteSize_ids {cs : List Char} (allowed : ∀ c ∈ cs, isIdChar c = true) :
    (String.ofList cs).utf8ByteSize = cs.length := by
  induction cs with
  | nil => rfl
  | cons c rest ih =>
    have head : String.ofList (c :: rest) = String.ofList [c] ++ String.ofList rest := by
      rw [← String.ofList_append, singleton_append]
    rw [head, String.utf8ByteSize_append, ih fun other member =>
      allowed other (mem_cons_of_mem c member), ← String.singleton_eq_ofList,
      String.utf8ByteSize_singleton, isIdChar_size (allowed c mem_cons_self),
      length_cons, Nat.add_comm]

theorem validToolCallId_iff (id : String) : ValidToolCallId id ↔
    (id ≠ "" && id.utf8ByteSize ≤ 64 && id.toList.all isIdChar) = true := by
  simp only [ValidToolCallId, Bool.and_eq_true, decide_eq_true_eq, all_eq_true, and_assoc]
  refine and_congr_right fun _ => and_congr_left fun allowed => ?_
  have bytes := utf8ByteSize_ids allowed
  rw [String.ofList_toList, String.length_toList] at bytes
  rw [bytes]

theorem validToolCallId_ofList {cs : List Char} (filled : cs ≠ []) (short : cs.length ≤ 64)
    (allowed : ∀ c ∈ cs, isIdChar c = true) : ValidToolCallId (String.ofList cs) := by
  refine ⟨?_, by rwa [String.length_ofList], by rwa [String.toList_ofList]⟩
  intro empty
  exact filled (String.ofList_eq_empty_iff.mp empty)

def sanitizedId (id : String) : Option Char → List Char
  | some replacement => id.toList.map fun c => if isIdChar c then c else replacement
  | none => id.toList.filter isIdChar

def keptId (id : String) (replacement : Option Char) : List Char :=
  if sanitizedId id replacement = [] then "tool_0".toList
  else (sanitizedId id replacement).take 64

variable {replacement : Option Char}

theorem sanitizedId_allowed (allowed : ∀ c ∈ replacement, isIdChar c = true) (id : String) :
    ∀ c ∈ sanitizedId id replacement, isIdChar c = true := by
  intro c member
  cases replacement with
  | none => exact (mem_filter.mp member).2
  | some replacement =>
    obtain ⟨original, _, rfl⟩ := mem_map.mp member
    split
    · assumption
    · exact allowed replacement rfl

theorem sanitizedId_eq_self {id : String} (allowed : ∀ c ∈ id.toList, isIdChar c = true) :
    sanitizedId id replacement = id.toList := by
  cases replacement with
  | none => exact filter_eq_self.mpr allowed
  | some replacement =>
    refine (map_congr_left fun c member => ?_).trans (map_id _)
    exact if_pos (allowed c member)

section

variable (allowed : ∀ c ∈ replacement, isIdChar c = true) (id : String)
include allowed id

theorem keptId_valid : ValidToolCallId (String.ofList (keptId id replacement)) := by
  unfold keptId
  split
  · rw [String.ofList_toList]
    have fallback : ValidToolCallId (String.ofList ['t', 'o', 'o', 'l', '_', '0']) :=
      validToolCallId_ofList (cons_ne_nil _ _) (Nat.le_of_ble_eq_true rfl) (all_eq_true.mp rfl)
    exact fallback
  · rename_i filled
    apply validToolCallId_ofList
    · intro empty
      rcases take_eq_nil_iff.mp empty with none_taken | nothing
      · cases none_taken
      · exact filled nothing
    · exact length_take_le _ _
    · exact fun c member => sanitizedId_allowed allowed id c (mem_of_mem_take member)

theorem normalizeToolCallId_eq :
    normalizeToolCallId id replacement = String.ofList (keptId id replacement) := by
  by_cases valid : ValidToolCallId id
  · have same : normalizeToolCallId id replacement = id := if_pos ((validToolCallId_iff id).mp valid)
    obtain ⟨filled, short, plain⟩ := valid
    have some_left : id.toList ≠ [] := fun empty => filled (String.toList_eq_nil_iff.mp empty)
    rw [same, keptId, sanitizedId_eq_self plain, if_neg some_left,
      take_of_length_le (by rwa [String.length_toList]), String.ofList_toList]
  · have sanitizes : normalizeToolCallId id replacement =
        if (String.ofList (sanitizedId id replacement)).utf8ByteSize > 64 then
          String.ofList ((sanitizedId id replacement).take 64)
        else if sanitizedId id replacement = [] then "tool_0"
        else String.ofList (sanitizedId id replacement) := by
      cases replacement <;> exact if_neg fun kept => valid ((validToolCallId_iff id).mpr kept)
    rw [sanitizes, utf8ByteSize_ids (sanitizedId_allowed allowed id), keptId]
    by_cases nothing : sanitizedId id replacement = []
    · rw [if_pos nothing, if_pos nothing, nothing]
      exact (String.ofList_toList).symm
    · rw [if_neg nothing, if_neg nothing]
      split
      · rfl
      · rename_i short
        rw [take_of_length_le (Nat.not_lt.mp short)]

theorem normalizeToolCallId_valid : ValidToolCallId (normalizeToolCallId id replacement) := by
  rw [normalizeToolCallId_eq allowed]
  exact keptId_valid allowed id

end

theorem normalizeToolCallId_eq_self_iff (id : String) :
    normalizeToolCallId id none = id ↔ ValidToolCallId id := by
  constructor
  · intro same
    have valid := @normalizeToolCallId_valid none nofun id
    rwa [same] at valid
  · intro valid
    exact if_pos ((validToolCallId_iff id).mp valid)

end Ids

namespace Anthropic

variable {first : RequestMessage} {rest : List RequestMessage}

theorem addToolResult_cons (closed : rest ≠ [] ∨ first.role ≠ "user") (value : Value) :
    addToolResult (first :: rest) value = first :: addToolResult rest value := by
  unfold addToolResult
  cases rest with
  | nil => simp [closed.resolve_left (fun filled => filled rfl)]
  | cons second others =>
    rw [getLast?_cons_cons, dropLast_cons_cons]
    dsimp only
    split
    · split
      · split <;> rfl
      · rfl
    · rfl

theorem addMessage_cons (closed : rest ≠ [] ∨ first.role ≠ "user") (message : Message) :
    addMessage (first :: rest) message = first :: addMessage rest message := by
  cases message with
  | user => rfl
  | assistant => rfl
  | toolResult => exact addToolResult_cons closed _

theorem addMessage_ne_nil (result : List RequestMessage) (message : Message) :
    addMessage result message ≠ [] := by
  cases message with
  | user | assistant => exact append_ne_nil_of_right_ne_nil _ (cons_ne_nil _ _)
  | toolResult =>
    unfold addMessage addToolResult
    dsimp only
    split
    · split
      · split <;> exact append_ne_nil_of_right_ne_nil _ (cons_ne_nil _ _)
      · exact append_ne_nil_of_right_ne_nil _ (cons_ne_nil _ _)
    · exact append_ne_nil_of_right_ne_nil _ (cons_ne_nil _ _)

theorem foldl_addMessage_assistant (content : Value) (result : List RequestMessage)
    (messages : List Message) :
    messages.foldl addMessage (⟨"assistant", content⟩ :: result) =
      ⟨"assistant", content⟩ :: messages.foldl addMessage result := by
  induction messages generalizing result with
  | nil => rfl
  | cons message rest ih =>
    have other : ("assistant" : String) ≠ "user" := by decide
    rw [foldl_cons, addMessage_cons (.inr other), ih, foldl_cons]

theorem foldl_addMessage_append (front : List RequestMessage) {result : List RequestMessage}
    (filled : result ≠ []) (messages : List Message) :
    messages.foldl addMessage (front ++ result) = front ++ messages.foldl addMessage result := by
  have one : ∀ {result : List RequestMessage}, result ≠ [] → ∀ message,
      addMessage (front ++ result) message = front ++ addMessage result message := by
    intro result filled message
    induction front with
    | nil => rfl
    | cons first rest ih =>
      rw [cons_append, addMessage_cons
        (.inl (append_ne_nil_of_right_ne_nil rest filled)), ih, cons_append]
  induction messages generalizing result with
  | nil => rfl
  | cons message rest ih =>
    rw [foldl_cons, one filled, ih (addMessage_ne_nil result message), foldl_cons]

theorem convertMessages_assistant (earlier later : List Message) (content : List ContentBlock) :
    convertMessages (earlier ++ .assistant content :: later) = convertMessages earlier ++
      ⟨"assistant", convertContent content⟩ :: convertMessages later := by
  have pushed : ∀ result, addMessage result (.assistant content) =
      result ++ [⟨"assistant", convertContent content⟩] := fun _ => rfl
  rw [convertMessages, foldl_append, foldl_cons, pushed,
    foldl_addMessage_append _ (cons_ne_nil _ _), foldl_addMessage_assistant]
  rfl

/-- A tool result as it comes back to the model. -/
structure Answer where
  toolCallId : String
  toolName : Option String
  isError : Option Bool
  content : List ContentBlock

def Answer.message (answer : Answer) : Message :=
  .toolResult answer.toolCallId answer.toolName answer.isError answer.content

def Answer.value (answer : Answer) : Value := toolResultContent answer.toolCallId answer.content

theorem foldl_addMessage_user (values : List Value) (result : List RequestMessage)
    (messages : List Message) : ∃ more after,
    messages.foldl addMessage (⟨"user", .array values⟩ :: result) =
      ⟨"user", .array (values ++ more)⟩ :: after := by
  induction messages generalizing values result with
  | nil => exact ⟨[], result, by rw [append_nil]; rfl⟩
  | cons message rest ih =>
    rw [foldl_cons]
    by_cases last : result = []
    · subst last
      cases message with
      | user content => exact ih values _
      | assistant content => exact ih values _
      | toolResult toolCallId toolName isError content =>
        obtain ⟨more, after, same⟩ := ih (values ++ [toolResultContent toolCallId content]) []
        refine ⟨toolResultContent toolCallId content :: more, after, ?_⟩
        rw [append_cons, ← same]
        rfl
    · rw [addMessage_cons (.inl last)]
      exact ih values _

theorem convertMessages_answers (answer : Answer) (answers : List Answer) (later : List Message) :
    ∃ more after, convertMessages ((answer :: answers).map Answer.message ++ later) =
      ⟨"user", .array ((answer :: answers).map Answer.value ++ more)⟩ :: after := by
  have together : ∀ values, (answers.map Answer.message).foldl addMessage
      [⟨"user", .array values⟩] = [⟨"user", .array (values ++ answers.map Answer.value)⟩] := by
    induction answers with
    | nil => intro values; rw [map_nil, map_nil, append_nil]; rfl
    | cons next rest ih =>
      intro values
      rw [map_cons, foldl_cons, map_cons, append_cons, ← ih]
      rfl
  rw [convertMessages, foldl_append, map_cons, foldl_cons]
  have first : addMessage [] answer.message = [⟨"user", .array [answer.value]⟩] := rfl
  rw [first, together]
  exact foldl_addMessage_user _ [] later

end Anthropic

end PiRust
