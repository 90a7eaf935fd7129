import PiRust.AnthropicRequest

/- `providers/bedrock/convert.rs`: the messages of a request, in the wire's own blocks.
`lowercase` stands for `str::to_lowercase`. -/
namespace PiRust.Bedrock

def emptyTextPlaceholder : String := "<empty>"

inductive CacheRetention where
  | none
  | short
  | long
  deriving DecidableEq

structure CachePoint where
  cacheType : String
  ttl : Option String

structure ImageBlock where
  format : String
  bytes : String

inductive ToolResultContentBlock where
  | text (text : String)
  | image (image : ImageBlock)

inductive WireContent where
  | text (text : String)
  | image (image : ImageBlock)
  | toolUse (toolUseId name : String) (input : Value)
  | toolResult (toolUseId : String) (content : List ToolResultContentBlock) (status : String)
  | reasoningContent (text : String) (signature : Option String)
  | cachePoint (point : CachePoint)

structure BedrockMessage where
  role : String
  content : List WireContent

/-- The fields of `Model` that decide what a request may have. -/
structure ModelName where
  id : String
  name : String

def cachePoint (retention : CacheRetention) : CachePoint where
  cacheType := "DEFAULT"
  ttl := if retention = .long then some "ONE_HOUR" else none

def imageFormat (mimeType : String) : String := (stripPrefix "image/" mimeType).getD mimeType

/-- `str::contains`. -/
def containsText (pattern : List Char) : List Char → Bool
  | [] => pattern.isPrefixOf []
  | c :: rest => pattern.isPrefixOf (c :: rest) || containsText pattern rest

variable (lowercase : String → String)

def supportsPromptCaching (model : ModelName) : Bool :=
  containsText "claude".toList (lowercase model.id).toList ||
    containsText "claude".toList (lowercase model.name).toList

def supportsThinkingSignature (model : ModelName) : Bool := supportsPromptCaching lowercase model

def convertBlock (model : ModelName) : ContentBlock → Option WireContent
  | .text text _ => if trim text = "" then none else some (.text text)
  | .image data mimeType => some (.image ⟨imageFormat mimeType, data⟩)
  | .toolCall id name arguments _ =>
    some (.toolUse (normalizeToolCallId id (some '_')) name arguments)
  | .thinking thinking signature _ =>
    if trim thinking = "" then none
    else if supportsThinkingSignature lowercase model then
      some (.reasoningContent thinking signature)
    else some (.text thinking)

def convertContent (model : ModelName) (blocks : List ContentBlock) : List WireContent :=
  let converted := blocks.filterMap (convertBlock lowercase model)
  if converted.isEmpty then [.text emptyTextPlaceholder] else converted

def convertResultBlock : ContentBlock → Option ToolResultContentBlock
  | .text text _ => if trim text = "" then none else some (.text text)
  | .image data mimeType => some (.image ⟨imageFormat mimeType, data⟩)
  | _ => none

def convertToolResultContent (blocks : List ContentBlock) : List ToolResultContentBlock :=
  let converted := blocks.filterMap convertResultBlock
  if converted.isEmpty then [.text emptyTextPlaceholder] else converted

def convertToolResult : Message → Option WireContent
  | .toolResult toolCallId _ isError content =>
    some (.toolResult (normalizeToolCallId toolCallId (some '_'))
      (convertToolResultContent content) (if isError.getD false then "error" else "success"))
  | _ => none

def isToolResult : Message → Bool
  | .toolResult .. => true
  | _ => false

def convertLoop (model : ModelName) : List Message → List BedrockMessage
  | [] => []
  | .user content :: rest =>
    ⟨"user", convertContent lowercase model content⟩ :: convertLoop model rest
  | .assistant content :: rest =>
    let converted := convertContent lowercase model content
    (if converted.isEmpty then [] else [⟨"assistant", converted⟩]) ++ convertLoop model rest
  | message@(.toolResult ..) :: rest =>
    ⟨"user", (message :: rest.takeWhile isToolResult).filterMap convertToolResult⟩ ::
      convertLoop model (rest.dropWhile isToolResult)
termination_by messages => messages.length
decreasing_by
  · exact Nat.lt_succ_self _
  · exact Nat.lt_succ_self _
  · exact Nat.lt_succ_of_le (List.dropWhile_sublist _).length_le

def addCachePoint (retention : CacheRetention) (result : List BedrockMessage) :
    List BedrockMessage :=
  match result.getLast? with
  | some last =>
    if last.role = "user" then
      result.dropLast ++
        [{ last with content := last.content ++ [.cachePoint (cachePoint retention)] }]
    else result
  | none => result

def convertMessages (messages : List Message) (model : ModelName) (retention : CacheRetention) :
    List BedrockMessage :=
  let result := convertLoop lowercase model messages
  if retention ≠ .none ∧ supportsPromptCaching lowercase model then addCachePoint retention result
  else result

end PiRust.Bedrock
