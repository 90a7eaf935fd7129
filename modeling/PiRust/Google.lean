import PiRust.ChunkHandler

/- `providers/google`. Every part is a block of its own, and a function call
comes with all of its arguments. -/
namespace PiRust.Google

structure GeminiFunctionCall where
  name : String
  args : Value

structure GeminiResponsePart where
  text : Option String
  thought : Option Bool
  functionCall : Option GeminiFunctionCall

structure GeminiResponseContent where
  parts : List GeminiResponsePart

structure Candidate where
  content : Option GeminiResponseContent
  finishReason : Option String

structure UsageMetadata where
  promptTokenCount : UInt32
  candidatesTokenCount : UInt32
  totalTokenCount : UInt32

structure GenerateContentResponse where
  candidates : List Candidate
  usageMetadata : Option UsageMetadata

structure GoogleHandler where
  firstEvent : Bool := false

abbrev Work := Progress GoogleHandler

def mapFinishReason : String → StopReason
  | "STOP" => .stop
  | "MAX_TOKENS" => .length
  | "SAFETY" | "RECITATION" | "OTHER" => .error
  | _ => .stop

def mapUsage (usage : UsageMetadata) : Usage where
  input := usage.promptTokenCount
  output := usage.candidatesTokenCount
  totalTokens := usage.totalTokenCount

def onFinishReason (candidate : Candidate) (work : Work) : Work :=
  match candidate.finishReason with
  | some reason =>
    if reason = "" then work
    else { work with partialMessage.stopReason := mapFinishReason reason }
  | none => work

variable (serde : Serde)

def onFunctionCall (part : GeminiResponsePart) (work : Work) : Work :=
  match part.functionCall with
  | some call =>
    let index := work.position
    (((work.push (.toolCall call.name call.name call.args none)).emit
      (.toolcallStart index)).emit (.toolcallDelta index (serde.print call.args))).emit
        (.toolcallEnd index)
  | none => work

def onText (part : GeminiResponsePart) (work : Work) : Work :=
  match part.text with
  | some text =>
    let index := work.position
    if part.thought.getD false then
      (((work.push (.thinking text none none)).emit (.thinkingStart index)).emit
        (.thinkingDelta index text)).emit (.thinkingEnd index)
    else
      (((work.push (.text text none)).emit (.textStart index)).emit
        (.textDelta index text)).emit (.textEnd index)
  | none => work

def onPart (work : Work) (part : GeminiResponsePart) : Work :=
  onText part (onFunctionCall serde part work)

def onCandidate (work : Work) (candidate : Candidate) : Work :=
  let work := onFinishReason candidate work
  match candidate.content with
  | some content => content.parts.foldl (onPart serde) work
  | none => work

def onFirst (work : Work) : Work :=
  if work.state.firstEvent then work
  else
    let emitted := work.emit (.start none)
    emitted.withState { emitted.state with firstEvent := true }

def onResponse (response : GenerateContentResponse) (work : Work) : Work :=
  let handled := response.candidates.foldl (onCandidate serde) (onFirst work)
  match response.usageMetadata with
  | some usage => { handled with partialMessage.usage := mapUsage usage }
  | none => handled

def finalize (_ : GoogleHandler) (partialMessage : AssistantMessage) :
    AssistantMessage × List AssistantMessageEvent :=
  (if partialMessage.content.any ContentBlock.isToolCall then
    { partialMessage with stopReason := .toolUse }
  else partialMessage, [])

/-- `parse` stands for the derived `serde_json::from_str::<GenerateContentResponse>`. -/
def handler (parse : String → Except String GenerateContentResponse) :
    SseEventHandler GoogleHandler :=
  chunkHandler parse {} (onResponse serde) finalize

def Finishes (response : GenerateContentResponse) : Prop :=
  ∃ candidate ∈ response.candidates, ∃ reason, candidate.finishReason = some reason ∧ reason ≠ ""

section Steps

variable {serde} {work : Work}

theorem onPart_stopReason (part : GeminiResponsePart) :
    (onPart serde work part).partialMessage.stopReason = work.partialMessage.stopReason := by
  have call : (onFunctionCall serde part work).partialMessage.stopReason =
      work.partialMessage.stopReason := by
    unfold onFunctionCall
    split <;> rfl
  unfold onPart onText
  split
  · dsimp only
    split
    · exact call
    · exact call
  · exact call

theorem onCandidate_stopReason {candidate : Candidate}
    (goes_on : ∀ reason, candidate.finishReason = some reason → reason = "") :
    (onCandidate serde work candidate).partialMessage.stopReason =
      work.partialMessage.stopReason := by
  have same : onFinishReason candidate work = work := by
    unfold onFinishReason
    split
    · rename_i reason given
      rw [if_pos (goes_on reason given)]
    · rfl
  unfold onCandidate
  rw [same]
  split
  · exact work.foldl_keeps (fun later => later.partialMessage.stopReason)
      fun part _ _ => onPart_stopReason part
  · rfl

theorem onResponse_stopReason {response : GenerateContentResponse} (goes_on : ¬ Finishes response) :
    (onResponse serde response work).partialMessage.stopReason =
      work.partialMessage.stopReason := by
  have first : (onFirst work).partialMessage.stopReason = work.partialMessage.stopReason := by
    unfold onFirst
    split <;> rfl
  have candidates : (response.candidates.foldl (onCandidate serde)
      (onFirst work)).partialMessage.stopReason = work.partialMessage.stopReason := by
    rw [← first]
    apply (onFirst work).foldl_keeps fun later => later.partialMessage.stopReason
    intro candidate member work
    apply onCandidate_stopReason
    intro reason given
    exact Decidable.byContradiction fun named => goes_on ⟨candidate, member, reason, given, named⟩
  unfold onResponse
  dsimp only
  split
  · exact candidates
  · exact candidates

end Steps

theorem process_reportsFailure {serde : Serde}
    {parse : String → Except String GenerateContentResponse} {body : List (Except String Bytes)}
    {model : Model} {cancelled : Nat → Bool} {apiName : String}
    (cut : ∀ event response, .ok event ∈ Sse.iterateSse body →
      parse event.data = .ok response → ¬ Finishes response) :
    ReportsFailure ((handler serde parse).processSse body model cancelled apiName) ↔
      Interrupted (fun _ => Unparsed parse) cancelled 0 [] (Sse.iterateSse body) := by
  apply ChunkHandler.reportsFailure fun _ message => message.stopReason = .stop
  · rfl
  · intro event response member parsed work running
    exact (onResponse_stopReason (cut event response member parsed)).trans running
  · intro state partialMessage running
    unfold finalize
    split
    · rfl
    · rw [running]
      rfl

end PiRust.Google
