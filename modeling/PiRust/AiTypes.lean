import PiRust.Text

namespace PiRust

/-- `serde_json::Value`; a number is kept as its printed text. -/
inductive Value where
  | null
  | bool (value : Bool)
  | number (printed : String)
  | string (text : String)
  | array (items : List Value)
  | object (fields : List (String × Value))

/-- `Value::get` with a string key; only objects have members. -/
def Value.get (key : String) : Value → Option Value
  | .object fields => (fields.find? fun field => field.1 = key).map Prod.snd
  | _ => none

def Value.asStr : Value → Option String
  | .string text => some text
  | _ => none

def Value.emptyObject : Value := .object []

/-- What the code uses of `serde_json` on text: `from_str::<Value>` and
`Value::to_string`. The empty text is an end-of-input error. -/
structure Serde where
  fromStr : String → Option Value
  print : Value → String
  fromStr_empty : fromStr "" = none

/-- Reads no text, and writes an empty one. -/
def Serde.silent : Serde := ⟨fun _ => none, fun _ => "", rfl⟩

inductive ContentBlock where
  | text (text : String) (textSignature : Option String)
  | thinking (thinking : String) (thinkingSignature : Option String) (redacted : Option Bool)
  | image (data : String) (mimeType : String)
  | toolCall (id name : String) (arguments : Value) (thoughtSignature : Option String)

def ContentBlock.isToolCall : ContentBlock → Bool
  | .toolCall .. => true
  | _ => false

def ContentBlock.callId? : ContentBlock → Option String
  | .toolCall id _ _ _ => some id
  | _ => none

structure Usage where
  input : UInt32 := 0
  output : UInt32 := 0
  cacheRead : UInt32 := 0
  cacheWrite : UInt32 := 0
  totalTokens : UInt32 := 0
  deriving DecidableEq, Repr

inductive StopReason where
  | stop
  | length
  | toolUse
  | error
  | aborted
  deriving DecidableEq, Repr

structure AssistantMessage where
  content : List ContentBlock
  api : String
  provider : Option String
  model : String
  responseModel : Option String
  responseId : Option String
  usage : Usage
  stopReason : StopReason
  errorMessage : Option String

def AssistantMessage.empty (api model : String) : AssistantMessage where
  content := []
  api := api
  provider := none
  model := model
  responseModel := none
  responseId := none
  usage := {}
  stopReason := .stop
  errorMessage := none

/-- The identifiers of the tool calls of a message, in order. -/
def AssistantMessage.callIds (message : AssistantMessage) : List String :=
  message.content.filterMap ContentBlock.callId?

/-- The fields of `Model` that the modelled code reads. -/
structure Model where
  id : String
  provider : String
  contextWindow : UInt32

inductive AssistantMessageEvent where
  | start (contentIndex : Option UInt32) (partialMessage : AssistantMessage)
  | textStart (contentIndex : UInt32) (partialMessage : AssistantMessage)
  | textDelta (contentIndex : UInt32) (delta : String) (partialMessage : AssistantMessage)
  | textEnd (contentIndex : UInt32) (partialMessage : AssistantMessage)
  | thinkingStart (contentIndex : UInt32) (partialMessage : AssistantMessage)
  | thinkingDelta (contentIndex : UInt32) (delta : String) (partialMessage : AssistantMessage)
  | thinkingEnd (contentIndex : UInt32) (partialMessage : AssistantMessage)
  | toolcallStart (contentIndex : UInt32) (partialMessage : AssistantMessage)
  | toolcallDelta (contentIndex : UInt32) (delta : String) (partialMessage : AssistantMessage)
  | toolcallEnd (contentIndex : UInt32) (partialMessage : AssistantMessage)
  | done (reason : StopReason) (message : AssistantMessage)
  | error (reason : StopReason) (message : AssistantMessage)

/-- `Done` and `Error` end a stream; nothing else does. -/
def AssistantMessageEvent.isTerminal : AssistantMessageEvent → Bool
  | .done .. | .error .. => true
  | _ => false

end PiRust
