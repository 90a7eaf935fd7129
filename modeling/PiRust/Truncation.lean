import PiRust.Providers
import PiRust.SseChunks

/- Responses that end before the provider has marked them complete. -/
namespace PiRust.Provider

variable (stream : Stream)

/-- No event that the body carries satisfies `marks`. -/
def Unmarked {ε : Type} (parse : String → Except String ε) (marks : ε → Prop) : Prop :=
  ∀ event wire, .ok event ∈ Sse.iterateSse stream.body → parse event.data = .ok wire → ¬ marks wire

/-- The body has no `[DONE]`. -/
def Undone : Prop := ∀ event, .ok event ∈ Sse.iterateSse stream.body → event.data ≠ "[DONE]"

/-- The response stops before the marker of its end. -/
def CutOff : Provider → Prop
  | .anthropic => Unmarked stream stream.wires.anthropic fun wire => wire.isStop
  | .completions =>
    Unmarked stream stream.wires.completions Completions.Finishes ∧ Undone stream
  | .responses =>
    Unmarked stream stream.wires.responses fun wire => ∃ response, wire = .responseCompleted response
  | .google => Unmarked stream stream.wires.google Google.Finishes
  | .mistral => Unmarked stream stream.wires.mistral Mistral.Finishes ∧ Undone stream
  | .bedrock =>
    ∀ event ∈ Bedrock.bodyEvents stream.wires.bedrock [] stream.body, event.messageStop = none

/-- The stream is stopped by something other than the end of the body: by the
cancel token, by a read error or by an event that the processor rejects. A Bedrock
body may also end within a frame. -/
def Interrupted : Provider → Prop
  | .anthropic => sse fun _ => Unparsed stream.wires.anthropic
  | .completions => sse fun _ => Unparsed stream.wires.completions
  | .responses => sse (Responses.Rejects stream.serde stream.wires.responses)
  | .google => sse fun _ => Unparsed stream.wires.google
  | .mistral => sse fun _ => Unparsed stream.wires.mistral
  | .bedrock => Bedrock.Interrupted stream.wires.bedrock stream.cancelled 0 [] stream.body
where
  sse (rejects : List String → String → Prop) : Prop :=
    PiRust.Interrupted rejects stream.cancelled 0 [] (Sse.iterateSse stream.body)

/-- Only Anthropic takes the end of the body itself for a failure. -/
theorem cutOff_reportsFailure {provider : Provider} (cut : provider.CutOff stream) :
    ReportsFailure (provider.process stream) ↔
      provider = .anthropic ∨ provider.Interrupted stream := by
  cases provider with
  | anthropic =>
    have unmarked : ∀ event wire, .ok event ∈ Sse.iterateSse stream.body →
        stream.wires.anthropic event.data = .ok wire → wire.isStop = false :=
      fun event wire member parsed => Bool.not_eq_true _ ▸ cut event wire member parsed
    exact iff_of_true
      (Anthropic.process_reportsFailure unmarked stream.model stream.cancelled _) (.inl rfl)
  | completions =>
    rw [or_iff_right (by decide)]
    exact Completions.process_reportsFailure cut.1
  | responses =>
    rw [or_iff_right (by decide)]
    exact Responses.process_reportsFailure stream.body stream.model stream.cancelled _
  | google =>
    rw [or_iff_right (by decide)]
    exact Google.process_reportsFailure cut
  | mistral =>
    rw [or_iff_right (by decide)]
    exact Mistral.process_reportsFailure cut.1
  | bedrock =>
    rw [or_iff_right (by decide)]
    exact Bedrock.processFrom_reportsFailure cut stream.cancelled 0 rfl

def textChunk : String :=
  "\x7b\"id\":\"c\",\"model\":\"m\",\"choices\":[\x7b\"index\":0,\"delta\":\x7b\"content\":\"Hel\"\x7d\x7d]\x7d"

def textChunkParsed : Completions.ChatCompletionChunk where
  id := "c"
  model := "m"
  choices := [⟨⟨some "Hel", none, none, none, none⟩, none⟩]
  usage := none

def dropped : Stream :=
  { Stream.silent with
    wires.completions := fun data =>
      if data = textChunk then .ok textChunkParsed else .error "unknown event"
    body := [.ok (asciiBytes ("data: " ++ textChunk) ++ [Sse.newline, Sse.newline])] }

theorem iterateSse_dropped : Sse.iterateSse dropped.body = [.ok ⟨none, textChunk⟩] :=
  Sse.iterateSse_dataLine (printable_ofList rfl)

theorem dropped_cutOff : Provider.completions.CutOff dropped := by
  have unfinished : ¬ Completions.Finishes textChunkParsed := by
    rintro ⟨choice, member, finishes⟩
    rw [List.mem_singleton.mp member] at finishes
    exact Bool.false_ne_true finishes
  constructor
  · intro event wire member parsed
    rw [iterateSse_dropped, List.mem_singleton] at member
    cases member
    cases parsed
    exact unfinished
  · intro event member
    rw [iterateSse_dropped, List.mem_singleton] at member
    cases member
    decide

theorem dropped_reason : streamReason (Provider.completions.process dropped) = some .stop := by
  simp only [process, SseEventHandler.processSse, iterateSse_dropped]
  rfl

/-- The condition at a response that is cut off within its text. -/
theorem cutOff_reportsFailure_dropped :
    Provider.completions.CutOff dropped ∧
      (ReportsFailure (Provider.completions.process dropped) ↔
        Provider.completions = .anthropic ∨ Provider.completions.Interrupted dropped) :=
  ⟨dropped_cutOff, cutOff_reportsFailure dropped dropped_cutOff⟩

/-- The half of a text that has arrived is reported as a whole answer. -/
theorem dropped_reported_complete :
    ¬ ∀ (stream : Stream) (provider : Provider), provider.CutOff stream →
      ReportsFailure (provider.process stream) := by
  intro always
  obtain ⟨reason, same, failure⟩ := always dropped .completions dropped_cutOff
  rw [dropped_reason] at same
  rw [← Option.some.inj same] at failure
  exact Bool.false_ne_true failure

end PiRust.Provider
