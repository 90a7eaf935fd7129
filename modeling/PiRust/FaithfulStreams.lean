import PiRust.AnthropicBlocks
import PiRust.ResponsesBlocks
import PiRust.StreamBlocks
import PiRust.ToolArguments

/- The events of a response against its final message, for the processors over
`process_sse`. -/
namespace PiRust.Provider

variable (stream : Stream)

/-- The wire events make each block of the response on its own: Anthropic's name the
positions of the blocks in turn, Responses' add no text part to an open one, and
the blocks are no more than the `u32` positions. -/
def Separate : Provider → Prop
  | .anthropic =>
    Anthropic.Orderly (Anthropic.handled (received stream stream.wires.anthropic))
  | .completions =>
    Completions.opened (Completions.choices (received stream stream.wires.completions)) ≤
      UInt32.size
  | .responses =>
    Responses.opened (received stream stream.wires.responses) ≤ UInt32.size ∧
      Responses.TextsApart (received stream stream.wires.responses)
  | .google => Google.blocks (received stream stream.wires.google) ≤ UInt32.size
  | .mistral =>
    Mistral.opened (Mistral.choices (received stream stream.wires.mistral)) ≤ UInt32.size
  | .bedrock => True

/-- A stream that ends in `Done` tells its message faithfully exactly when the wire
events keep the blocks separate. -/
theorem faithful_iff_separate {provider : Provider} (streams : provider ≠ .bedrock)
    {reason : StopReason} {message : AssistantMessage}
    (ends : (provider.process stream).getLast? = some (.done reason message)) :
    Faithful (provider.process stream) message ↔ provider.Separate stream := by
  cases provider with
  | anthropic => exact Anthropic.process_faithful_iff ends
  | completions => exact Completions.process_faithful_iff ends
  | responses => exact Responses.process_faithful_iff ends
  | google => exact Google.process_faithful_iff ends
  | mistral => exact Mistral.process_faithful_iff ends
  | bedrock => exact absurd rfl streams

def partAdded : String :=
  "\x7b\"type\":\"response.content_part.added\",\"part\":\x7b\"type\":\"output_text\"\x7d\x7d"

def twoParts : Stream :=
  { Stream.silent with
    wires.responses := fun data =>
      if data = partAdded then .ok .contentPartAdded else .error "unknown event"
    body := [partAdded, partAdded].map fun text =>
      .ok (asciiBytes ("data: " ++ text) ++ [Sse.newline, Sse.newline]) }

theorem iterateSse_twoParts :
    Sse.iterateSse twoParts.body = [.ok ⟨none, partAdded⟩, .ok ⟨none, partAdded⟩] := by
  have printable : Printable partAdded := printable_ofList rfl
  exact Sse.iterateSse_dataLines (List.forall_mem_cons.mpr
    ⟨printable, List.forall_mem_singleton.mpr printable⟩)

theorem partAdded_ne_done : partAdded ≠ "[DONE]" :=
  ofList_ne (by decide) _ _

theorem partAdded_parsed : twoParts.wires.responses partAdded = .ok .contentPartAdded := by
  simp [twoParts]

theorem received_twoParts :
    received twoParts twoParts.wires.responses = [.contentPartAdded, .contentPartAdded] := by
  have data : delivered (Sse.iterateSse twoParts.body) = [partAdded, partAdded] := by
    simp [iterateSse_twoParts, delivered, if_neg partAdded_ne_done]
  simp [received, data, wireEvents, partAdded_parsed, Except.toOption, List.filterMap_nil]

theorem twoParts_ends : ∃ reason message,
    (Provider.responses.process twoParts).getLast? = some (.done reason message) := by
  let handler := Responses.handler twoParts.serde twoParts.wires.responses
  have closes : handler.Closes := Responses.handler_closes
  have handled : ∀ text ∈ [partAdded, partAdded], text ≠ "[DONE]" ∧ ∀ state message,
      handler.handleEvent text state message =
        .ok (Responses.onContentPartAdded ⟨state, message, []⟩).continued := by
    intro text member
    obtain rfl : text = partAdded := by simpa using member
    refine ⟨partAdded_ne_done, fun state message => ?_⟩
    simp only [handler, Responses.handler, partAdded_parsed]
    rfl
  exact ⟨_, _, SseEventHandler.processSse_ends closes (fun _ => rfl) handled iterateSse_twoParts
    twoParts.model "openai-responses"⟩

theorem twoParts_together : ¬ Provider.responses.Separate twoParts := by
  rintro ⟨_, apart⟩
  rw [received_twoParts] at apart
  have closed := apart [.contentPartAdded] (List.prefix_refl _)
  cases closed

/-- The condition at that response. -/
theorem faithful_iff_separate_twoParts : ∃ reason message,
    (Provider.responses.process twoParts).getLast? = some (.done reason message) ∧
      (Faithful (Provider.responses.process twoParts) message ↔
        Provider.responses.Separate twoParts) := by
  obtain ⟨reason, message, ends⟩ := twoParts_ends
  exact ⟨reason, message, ends, faithful_iff_separate twoParts (by decide) ends⟩

/-- The first of two text parts is never ended. -/
theorem first_part_left_open :
    ¬ ∀ (stream : Stream) (provider : Provider) (reason : StopReason) (message : AssistantMessage),
      provider ≠ .bedrock → (provider.process stream).getLast? = some (.done reason message) →
      Faithful (provider.process stream) message := by
  intro always
  obtain ⟨reason, message, ends⟩ := twoParts_ends
  have streams : Provider.responses ≠ .bedrock := by decide
  have faithful := always twoParts .responses reason message streams ends
  exact twoParts_together ((Responses.process_faithful_iff ends).mp faithful)

end PiRust.Provider
