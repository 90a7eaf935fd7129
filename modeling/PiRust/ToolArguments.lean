import PiRust.Providers
import PiRust.SseChunks
import PiRust.StreamBlocks

/- The arguments of the tool calls of a response that asks for tools. -/
namespace PiRust.Provider

variable (stream : Stream)

/-- The wire events that a processor over `process_sse` is handed. -/
def received {ε : Type} (parse : String → Except String ε) : List ε :=
  wireEvents parse (delivered (Sse.iterateSse stream.body))

/-- The argument deltas of every tool call of a response, each call's joined. Google
sends arguments whole. -/
def argumentTexts : Provider → List String
  | .anthropic => (Anthropic.calls (received stream stream.wires.anthropic)).texts
  | .completions => (Completions.calls (received stream stream.wires.completions)).texts
  | .responses => (Responses.calls (received stream stream.wires.responses)).texts
  | .google => []
  | .mistral => (Mistral.calls (received stream stream.wires.mistral)).texts
  | .bedrock => (Bedrock.calls (Bedrock.bodyEvents stream.wires.bedrock [] stream.body)).texts

/-- The handler finds the block of a tool call. Anthropic takes its position from the wire, so
the argument deltas have to be for the block started last; the others keep positions in a `u32`,
which the blocks that are opened must not exceed. -/
def Positioned : Provider → Prop
  | .anthropic => Anthropic.Addressed (received stream stream.wires.anthropic)
  | .completions => Completions.opened (Completions.choices
      (received stream stream.wires.completions)) ≤ UInt32.size
  | .responses => Responses.opened (received stream stream.wires.responses) ≤ UInt32.size
  | .mistral =>
    Mistral.opened (Mistral.choices (received stream stream.wires.mistral)) ≤ UInt32.size
  | .google | .bedrock => True

/-- Each tool call of the message has the value of its argument text, which is
complete. -/
def ArgumentsWhole (provider : Provider) (message : AssistantMessage) : Prop :=
  List.Forall₂ (fun value text => completeValue stream.serde text = some value)
    message.toolArguments (provider.argumentTexts stream)

theorem process_arguments {provider : Provider} (streams : provider ≠ .google)
    (positioned : provider.Positioned stream) {message : AssistantMessage}
    (ends : (provider.process stream).getLast? = some (.done .toolUse message)) :
    message.toolArguments =
      (provider.argumentTexts stream).map (parseStreamingJson stream.serde) := by
  cases provider with
  | anthropic => exact Anthropic.process_arguments ends positioned
  | completions => exact Completions.process_arguments ends positioned
  | responses => exact Responses.process_arguments ends positioned
  | google => exact absurd rfl streams
  | mistral => exact Mistral.process_arguments ends positioned
  | bedrock =>
    have initial : Bedrock.Follows.At stream.serde (Bedrock.calls [])
        ⟨{}, startMessage "bedrock-converse-stream" stream.model, []⟩ :=
      Bedrock.Follows.initial
    exact Bedrock.processFrom_arguments initial ends

/-- A response that asks for tools has whole arguments exactly when every argument
text is complete: nothing else is checked before the call is handed on. -/
theorem argumentsWhole_iff {provider : Provider} (streams : provider ≠ .google)
    {message : AssistantMessage}
    (ends : (provider.process stream).getLast? = some (.done .toolUse message)) :
    (provider.ArgumentsWhole stream message →
      ∀ text ∈ provider.argumentTexts stream, Complete stream.serde text) ∧
    (provider.Positioned stream → (provider.ArgumentsWhole stream message ↔
      ∀ text ∈ provider.argumentTexts stream, Complete stream.serde text)) := by
  constructor
  · intro whole
    have complete : ∀ {values texts}, List.Forall₂ (fun value text =>
        completeValue stream.serde text = some value) values texts →
        ∀ text ∈ texts, Complete stream.serde text := by
      intro values texts whole
      induction whole with
      | nil => simp
      | cons same _ ih =>
        exact List.forall_mem_cons.mpr ⟨Option.isSome_of_eq_some same, ih⟩
    exact complete whole
  · intro positioned
    rw [ArgumentsWhole, process_arguments stream streams positioned ends]
    exact forall₂_completeValue_iff stream.serde _

def cutArguments : String := "\x7b\"a\":1"

def callChunk : String :=
  "\x7b\"id\":\"c\",\"model\":\"m\",\"choices\":[\x7b\"index\":0,\"delta\":\x7b\"tool_calls\":[" ++
  "\x7b\"id\":\"t\",\"function\":\x7b\"name\":\"rm\",\"arguments\":" ++
  "\"\x7b\\\"a\\\":1\"\x7d\x7d]\x7d,\"finish_reason\":\"tool_calls\"\x7d]\x7d"

def callChunkParsed : Completions.ChatCompletionChunk where
  id := "c"
  model := "m"
  choices :=
    [⟨⟨none, none, none, none,
      some [⟨none, some "t", some ⟨some "rm", some cutArguments⟩⟩]⟩, some "tool_calls"⟩]
  usage := none

def cutCall : Stream :=
  { Stream.silent with
    serde :=
      { fromStr := fun text =>
          if text = "\x7b\"a\":1\x7d" then some (.object [("a", .number "1")])
          else none
        print := fun _ => ""
        fromStr_empty := by decide }
    wires.completions := fun data =>
      if data = callChunk then .ok callChunkParsed else .error "unknown event"
    body := [.ok (asciiBytes ("data: " ++ callChunk) ++ [Sse.newline, Sse.newline])] }

theorem callChunk_printable : Printable callChunk := by
  unfold callChunk
  exact printable_append (printable_append (printable_ofList rfl) (printable_ofList rfl))
    (printable_ofList rfl)

theorem iterateSse_cutCall : Sse.iterateSse cutCall.body = [.ok ⟨none, callChunk⟩] :=
  Sse.iterateSse_dataLine callChunk_printable

theorem callChunk_parsed : cutCall.wires.completions callChunk = .ok callChunkParsed := by
  simp [cutCall]

theorem callChunk_ne_done : callChunk ≠ "[DONE]" := by
  have apart : '\x7b' ≠ '[' := by decide
  unfold callChunk
  simp only [String.append_assoc]
  exact ofList_append_ne apart _ _ _

theorem received_cutCall : received cutCall cutCall.wires.completions = [callChunkParsed] := by
  have data : delivered (Sse.iterateSse cutCall.body) = [callChunk] := by
    simp [iterateSse_cutCall, delivered, if_neg callChunk_ne_done]
  simp [received, data, wireEvents, callChunk_parsed, Except.toOption, List.filterMap_nil]

theorem cutCall_texts : Provider.completions.argumentTexts cutCall = [cutArguments] := by
  have moves : Completions.moves callChunkParsed = [.joined 0 cutArguments] := rfl
  rw [argumentTexts, received_cutCall, Completions.calls, List.flatMap_singleton, moves]
  exact Assembly.texts_joined_empty 0 cutArguments

theorem cutCall_ends : ∃ message, (Provider.completions.process cutCall).getLast? =
    some (.done .toolUse message) := by
  let handler := Completions.handler cutCall.serde cutCall.wires.completions cutCall.order
  have closes : handler.Closes := ChunkHandler.closes
  have handled : ∀ text ∈ [callChunk], text ≠ "[DONE]" ∧ ∀ state message,
      handler.handleEvent text state message =
        .ok (Completions.onChunk cutCall.serde callChunkParsed ⟨state, message, []⟩).continued := by
    refine List.forall_mem_singleton.mpr ⟨callChunk_ne_done, fun state message => ?_⟩
    simp [handler, Completions.handler, chunkHandler, callChunk_parsed]
  exact ⟨_, SseEventHandler.processSse_ends closes (fun _ => rfl) handled iterateSse_cutCall
    cutCall.model "openai-completions"⟩

theorem cutArguments_incomplete : ¬ Complete cutCall.serde cutArguments := by
  have repaired : repairJson cutArguments = cutArguments := by
    rw [repairJson, cutArguments, String.toList_ofList]
    rfl
  have given : cutArguments ≠ "" := by decide
  have cut : cutArguments ≠ "\x7b\"a\":1\x7d" := mt String.ofList_inj.mp (by decide)
  have refused : cutCall.serde.fromStr cutArguments = none := by
    simp [cutCall, if_neg cut]
  rw [Complete, completeValue, if_neg given, repaired, refused]
  exact Bool.false_ne_true

/-- The condition at that response. -/
theorem argumentsWhole_iff_cutCall : ∃ message,
    (Provider.completions.process cutCall).getLast? = some (.done .toolUse message) ∧
      (Provider.completions.ArgumentsWhole cutCall message ↔
        ∀ text ∈ Provider.completions.argumentTexts cutCall, Complete cutCall.serde text) := by
  obtain ⟨message, ends⟩ := cutCall_ends
  have positioned : Provider.completions.Positioned cutCall := by
    rw [Positioned, received_cutCall]
    decide
  exact ⟨message, ends, (argumentsWhole_iff cutCall (by decide) ends).2 positioned⟩

/-- Arguments that are cut short are closed and handed on. -/
theorem cut_arguments_handed_on :
    ¬ ∀ (stream : Stream) (provider : Provider) (message : AssistantMessage),
      provider ≠ .google → (provider.process stream).getLast? = some (.done .toolUse message) →
      provider.ArgumentsWhole stream message := by
  intro always
  obtain ⟨message, ends⟩ := cutCall_ends
  have whole := always cutCall .completions message (by decide) ends
  have streams : Provider.completions ≠ .google := by decide
  have complete := (argumentsWhole_iff cutCall streams ends).1 whole
  rw [cutCall_texts] at complete
  exact cutArguments_incomplete (complete cutArguments (List.mem_singleton_self _))

end PiRust.Provider
