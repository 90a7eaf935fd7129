import PiRust.ProcessFramework

/- The handlers of chat chunks (`openai/completions`, `mistral`, `google`): each
event is parsed, and a parsed one is never refused. -/
namespace PiRust

def effective (finishReason : Option String) : Bool :=
  match finishReason with
  | some reason => reason ≠ "" && reason ≠ "null"
  | none => false

def chunkHandler {σ ε : Type} (parse : String → Except String ε) (initial : σ)
    (onChunk : ε → Progress σ → Progress σ)
    (finalize : σ → AssistantMessage → AssistantMessage × List AssistantMessageEvent) :
    SseEventHandler σ where
  initial := initial
  handleEvent data state partialMessage :=
    match parse data with
    | .error e => .error ("SSE parse error: " ++ e)
    | .ok chunk => .ok (onChunk chunk ⟨state, partialMessage, []⟩).continued
  finalize := finalize

namespace ChunkHandler

variable {σ ε : Type} {parse : String → Except String ε} {initial : σ}
  {onChunk : ε → Progress σ → Progress σ}
  {finalize : σ → AssistantMessage → AssistantMessage × List AssistantMessageEvent}

theorem closes : (chunkHandler parse initial onChunk finalize).Closes := by
  intro data state partialMessage later message events answered
  simp only [chunkHandler, Progress.continued] at answered
  split at answered <;> cases answered

theorem answers {Inv : List String → σ → AssistantMessage → Prop} {data : String}
    (step : ∀ {history state partialMessage chunk}, parse data = .ok chunk →
      Inv history state partialMessage →
      Inv (history ++ [data]) (onChunk chunk ⟨state, partialMessage, []⟩).state
        (onChunk chunk ⟨state, partialMessage, []⟩).partialMessage) :
    (chunkHandler parse initial onChunk finalize).Answers Inv (fun _ => Unparsed parse) data where
  rejected := by
    rintro history state partialMessage _ ⟨reason, failed⟩
    refine ⟨"SSE parse error: " ++ reason, ?_⟩
    simp [chunkHandler, failed]
  accepted := by
    intro history state partialMessage holds fine
    cases parsed : parse data with
    | error reason => exact absurd ⟨reason, parsed⟩ fine
    | ok chunk => exact ⟨_, _, _, by simp only [chunkHandler, parsed]; rfl, step parsed holds⟩

theorem reportsFailure (Inv : σ → AssistantMessage → Prop) {body : List (Except String Bytes)}
    {model : Model} {apiName : String} (start : Inv initial (startMessage apiName model))
    (step : ∀ event chunk, .ok event ∈ Sse.iterateSse body → parse event.data = .ok chunk →
      ∀ work : Progress σ, Inv work.state work.partialMessage →
        Inv (onChunk chunk work).state (onChunk chunk work).partialMessage)
    (ends : ∀ state partialMessage, Inv state partialMessage →
      (finalize state partialMessage).1.stopReason.isFailure = false)
    (cancelled : Nat → Bool) :
    ReportsFailure ((chunkHandler parse initial onChunk finalize).processSse body model
        cancelled apiName) ↔
      Interrupted (fun _ => Unparsed parse) cancelled 0 [] (Sse.iterateSse body) := by
  have answers : ∀ event, .ok event ∈ Sse.iterateSse body →
      (chunkHandler parse initial onChunk finalize).Answers (fun _ => Inv)
        (fun _ => Unparsed parse) event.data :=
    fun event member => answers fun parsed holds => step event _ member parsed _ holds
  exact SseEventHandler.processSse_reportsFailure closes answers
    (fun _ state partialMessage => ends state partialMessage) start cancelled

theorem finalized (Inv : List ε → σ → AssistantMessage → Prop)
    {body : List (Except String Bytes)} {model : Model} {apiName : String}
    (start : Inv [] initial (startMessage apiName model))
    (step : ∀ events chunk (work : Progress σ), Inv events work.state work.partialMessage →
      Inv (events ++ [chunk]) (onChunk chunk work).state (onChunk chunk work).partialMessage)
    {cancelled : Nat → Bool} {reason : StopReason} {message : AssistantMessage}
    (ends : ((chunkHandler parse initial onChunk finalize).processSse body model cancelled
      apiName).getLast? = some (.done reason message)) :
    ∃ last before, Inv (wireEvents parse (delivered (Sse.iterateSse body))) last before ∧
      message = (finalize last before).1 := by
  have answers : ∀ data, (chunkHandler parse initial onChunk finalize).Answers
      (fun history => Inv (wireEvents parse history)) (fun _ => Unparsed parse) data := by
    intro data
    apply answers
    intro history state partialMessage chunk parsed holds
    rw [wireEvents_append parsed]
    exact step _ chunk ⟨state, partialMessage, []⟩ holds
  have first : Inv (wireEvents parse []) initial (startMessage apiName model) := start
  obtain ⟨last, before, holds, same, _⟩ := SseEventHandler.processFrom_finalized closes answers
    first ends
  rw [List.nil_append] at holds
  exact ⟨last, before, holds, same⟩

end ChunkHandler

end PiRust
