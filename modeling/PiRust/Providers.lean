import PiRust.Anthropic
import PiRust.Bedrock
import PiRust.Completions
import PiRust.Google
import PiRust.Mistral
import PiRust.Responses

/- The six stream processors under one name. -/
namespace PiRust

inductive Provider where
  | anthropic
  | completions
  | responses
  | google
  | mistral
  | bedrock
  deriving DecidableEq, Repr

/-- The derived `serde_json` parsers of the wire events. -/
structure Wires where
  anthropic : String → Except String Anthropic.StreamEvent
  completions : String → Except String Completions.ChatCompletionChunk
  responses : String → Except String Responses.ResponseStreamEvent
  google : String → Except String Google.GenerateContentResponse
  mistral : String → Except String Mistral.ChatCompletionChunk
  bedrock : Bedrock.Wire

structure Stream where
  serde : Serde
  wires : Wires
  order : IterationOrder
  body : List (Except String Bytes)
  model : Model
  cancelled : Nat → Bool

/-- A response without a body, whose parsers know no event. -/
def Stream.silent : Stream where
  serde := .silent
  wires :=
    { anthropic := fun _ => .error "unknown event"
      completions := fun _ => .error "unknown event"
      responses := fun _ => .error "unknown event"
      google := fun _ => .error "unknown event"
      mistral := fun _ => .error "unknown event"
      bedrock := ⟨fun _ => .error "unknown value", fun _ => .error "unknown event"⟩ }
  order := .ascending
  body := []
  model := { id := "m", provider := "openai", contextWindow := 8192 }
  cancelled := fun _ => false

namespace Provider

variable (stream : Stream)

/-- The events that a provider's `process` yields. -/
def process : Provider → List AssistantMessageEvent
  | .anthropic =>
    (Anthropic.handler stream.serde stream.wires.anthropic).processSse stream.body
      stream.model stream.cancelled "anthropic-messages"
  | .completions =>
    (Completions.handler stream.serde stream.wires.completions stream.order).processSse
      stream.body stream.model stream.cancelled "openai-completions"
  | .responses =>
    (Responses.handler stream.serde stream.wires.responses).processSse stream.body
      stream.model stream.cancelled "openai-responses"
  | .google =>
    (Google.handler stream.serde stream.wires.google).processSse stream.body
      stream.model stream.cancelled "google-generative-ai"
  | .mistral =>
    (Mistral.handler stream.serde stream.wires.mistral stream.order).processSse
      stream.body stream.model stream.cancelled "mistral-conversations"
  | .bedrock =>
    Bedrock.process stream.serde stream.wires.bedrock stream.body stream.model stream.cancelled

end Provider

end PiRust
