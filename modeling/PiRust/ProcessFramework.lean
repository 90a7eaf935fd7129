import PiRust.Progress
import PiRust.Sse

/- `providers/process_framework.rs`: the loop that five of the six stream
processors share. -/
namespace PiRust

open List

open Sse (ServerSentEvent)

theorem ok_of_map_ok {ε α β : Type} {result : Except ε α} {f : α → β} {mapped : β}
    (same : result.map f = .ok mapped) : ∃ value, result = .ok value ∧ f value = mapped := by
  cases result with
  | error reason => cases same
  | ok value => exact ⟨value, rfl, Except.ok.inj same⟩

inductive SseEventResult where
  | continued (events : List AssistantMessageEvent)
  | done (events : List AssistantMessageEvent)

/-- A handler of the events of one response. An error of `handleEvent` leaves the
message as the event found it. -/
structure SseEventHandler (σ : Type) where
  initial : σ
  handleEvent : String → σ → AssistantMessage →
    Except String (σ × AssistantMessage × SseEventResult)
  finalize : σ → AssistantMessage → AssistantMessage × List AssistantMessageEvent

def Progress.continued {σ : Type} (progress : Progress σ) : σ × AssistantMessage × SseEventResult :=
  (progress.state, progress.partialMessage, .continued progress.events)

/-- The `Error` event that ends a stream. -/
def failed (reason : StopReason) (text : String) (partialMessage : AssistantMessage) :
    AssistantMessageEvent :=
  .error reason { partialMessage with stopReason := reason, errorMessage := some text }

def startMessage (apiName : String) (model : Model) : AssistantMessage :=
  { AssistantMessage.empty apiName model.id with provider := some model.provider }

namespace SseEventHandler

variable {σ : Type} (handler : SseEventHandler σ)

/-- What follows the loop. -/
def finish (state : σ) (partialMessage : AssistantMessage) : List AssistantMessageEvent :=
  let last := handler.finalize state partialMessage
  last.2 ++ [.done last.1.stopReason last.1]

/-- The loop of `process_sse` over the items of `iterate_sse`. `cancelled` is what
each poll of the token finds; without a token it is never set. -/
def processFrom (cancelled : Nat → Bool) (poll : Nat) (state : σ)
    (partialMessage : AssistantMessage) :
    List (Except String ServerSentEvent) → List AssistantMessageEvent
  | [] =>
    if cancelled poll then [failed .aborted "cancelled" partialMessage]
    else handler.finish state partialMessage
  | item :: rest =>
    if cancelled poll then [failed .aborted "cancelled" partialMessage]
    else match item with
      | .error reason => [failed .error reason partialMessage]
      | .ok event =>
        if event.data = "[DONE]" then handler.finish state partialMessage
        else match handler.handleEvent event.data state partialMessage with
          | .error reason => [failed .error reason partialMessage]
          | .ok (state, partialMessage, .continued events) =>
            events ++ processFrom cancelled (poll + 1) state partialMessage rest
          | .ok (_, _, .done events) => events

def processSse (body : List (Except String Bytes)) (model : Model) (cancelled : Nat → Bool)
    (apiName : String) : List AssistantMessageEvent :=
  handler.processFrom cancelled 0 handler.initial (startMessage apiName model) (Sse.iterateSse body)

end SseEventHandler

def AssistantMessageEvent.reason? : AssistantMessageEvent → Option StopReason
  | .done reason _ | .error reason _ => some reason
  | _ => none

def streamReason (events : List AssistantMessageEvent) : Option StopReason :=
  events.getLast?.bind AssistantMessageEvent.reason?

def StopReason.isFailure : StopReason → Bool
  | .error | .aborted => true
  | _ => false

def ReportsFailure (events : List AssistantMessageEvent) : Prop :=
  ∃ reason, streamReason events = some reason ∧ reason.isFailure

theorem streamReason_append (earlier : List AssistantMessageEvent)
    {later : List AssistantMessageEvent} (more : later ≠ []) :
    streamReason (earlier ++ later) = streamReason later := by
  rw [streamReason, getLast?_append_of_ne_nil earlier more, streamReason]

theorem reportsFailure_failed {reason : StopReason} (failure : reason.isFailure) (text : String)
    (partialMessage : AssistantMessage) :
    ReportsFailure [failed reason text partialMessage] :=
  ⟨reason, rfl, failure⟩

/-- The data that the loop hands to the handler when nothing stops it early. -/
def delivered : List (Except String ServerSentEvent) → List String
  | [] => []
  | .error _ :: _ => []
  | .ok event :: rest => if event.data = "[DONE]" then [] else event.data :: delivered rest

/-- The wire events in some data; `parse` stands for a derived `serde_json::from_str`. -/
def wireEvents {ε : Type} (parse : String → Except String ε) (data : List String) : List ε :=
  data.filterMap fun text => (parse text).toOption

theorem wireEvents_append {ε : Type} {parse : String → Except String ε} {text : String}
    {event : ε} (parsed : parse text = .ok event) (data : List String) :
    wireEvents parse (data ++ [text]) = wireEvents parse data ++ [event] := by
  simp [wireEvents, filterMap_append, parsed, Except.toOption, filterMap_nil]

def Unparsed {ε : Type} (parse : String → Except String ε) (data : String) : Prop :=
  ∃ reason, parse data = .error reason

/-- Something other than the end of the response stops the loop: the cancel token,
a read error, or an event that is rejected after the events before it. -/
def Interrupted (rejects : List String → String → Prop) (cancelled : Nat → Bool) :
    Nat → List String → List (Except String ServerSentEvent) → Prop
  | poll, _, [] => cancelled poll
  | poll, history, item :: rest =>
    cancelled poll ∨ match item with
      | .error _ => True
      | .ok event =>
        event.data ≠ "[DONE]" ∧
          (rejects history event.data ∨
            Interrupted rejects cancelled (poll + 1) (history ++ [event.data]) rest)

namespace SseEventHandler

variable {σ : Type} {handler : SseEventHandler σ}

theorem finish_ne_nil (state : σ) (partialMessage : AssistantMessage) :
    handler.finish state partialMessage ≠ [] := by
  simp [finish]

theorem streamReason_finish (state : σ) (partialMessage : AssistantMessage) :
    streamReason (handler.finish state partialMessage) =
      some (handler.finalize state partialMessage).1.stopReason := by
  simp only [finish, streamReason_append _ (cons_ne_nil _ _)]
  rfl

theorem reportsFailure_finish (state : σ) (partialMessage : AssistantMessage) :
    ReportsFailure (handler.finish state partialMessage) ↔
      (handler.finalize state partialMessage).1.stopReason.isFailure := by
  simp [ReportsFailure, streamReason_finish, exists_eq_left']

/-- What one event does, as far as the end of the stream is concerned: it is
rejected, or the loop goes on under the invariant. -/
structure Answers (handler : SseEventHandler σ) (Inv : List String → σ → AssistantMessage → Prop)
    (rejects : List String → String → Prop) (data : String) : Prop where
  rejected : ∀ {history state partialMessage}, Inv history state partialMessage →
    rejects history data →
    ∃ reason, handler.handleEvent data state partialMessage = .error reason
  accepted : ∀ {history state partialMessage}, Inv history state partialMessage →
    ¬ rejects history data →
    ∃ later message events,
      handler.handleEvent data state partialMessage = .ok (later, message, .continued events) ∧
        Inv (history ++ [data]) later message

variable {message partialMessage : AssistantMessage} {items : List (Except String ServerSentEvent)}
  {history : List String} {rejects : List String → String → Prop}
  {Inv : List String → σ → AssistantMessage → Prop} {state : σ}

theorem Answers.next {data : String} (answers : handler.Answers Inv rejects data) {later : σ}
    {result : SseEventResult} (holds : Inv history state partialMessage)
    (answered : handler.handleEvent data state partialMessage = .ok (later, message, result)) :
    Inv (history ++ [data]) later message ∧ ∃ events, result = .continued events := by
  by_cases bad : rejects history data
  · obtain ⟨reason, failed⟩ := answers.rejected holds bad
    rw [failed] at answered
    cases answered
  · obtain ⟨_, _, events, handled, kept⟩ := answers.accepted holds bad
    rw [handled] at answered
    cases answered
    exact ⟨kept, events, rfl⟩

theorem Answers.and {Extra : List String → σ → AssistantMessage → Prop} {data : String}
    (answers : handler.Answers Inv rejects data)
    (kept : ∀ {history state partialMessage later message result},
      Extra history state partialMessage →
      handler.handleEvent data state partialMessage = .ok (later, message, result) →
      Extra (history ++ [data]) later message) :
    handler.Answers
      (fun history state partialMessage =>
        Inv history state partialMessage ∧ Extra history state partialMessage) rejects data where
  rejected := fun holds bad => answers.rejected holds.1 bad
  accepted := by
    intro history state partialMessage holds fine
    obtain ⟨later, message, events, handled, next⟩ := answers.accepted holds.1 fine
    exact ⟨later, message, events, handled, next, kept holds.2 handled⟩

def Closes (handler : SseEventHandler σ) : Prop :=
  ∀ {data state partialMessage later message events},
    handler.handleEvent data state partialMessage = .ok (later, message, .done events) →
    events ≠ []

theorem processFrom_ne_nil (closes : handler.Closes) (cancelled : Nat → Bool) (poll : Nat)
    (state : σ) (partialMessage : AssistantMessage) (items : List (Except String ServerSentEvent)) :
    handler.processFrom cancelled poll state partialMessage items ≠ [] := by
  induction items generalizing poll state partialMessage with
  | nil =>
    unfold processFrom
    split
    · exact cons_ne_nil _ _
    · exact finish_ne_nil state partialMessage
  | cons item rest ih =>
    unfold processFrom
    split
    · exact cons_ne_nil _ _
    · split
      · exact cons_ne_nil _ _
      · split
        · exact finish_ne_nil state partialMessage
        · split
          · exact cons_ne_nil _ _
          · exact append_ne_nil_of_right_ne_nil _ (ih _ _ _)
          · rename_i answered
            exact closes answered

variable {cancelled : Nat → Bool}

theorem processFrom_handled {step : String → σ → AssistantMessage → Progress σ}
    (closes : handler.Closes) (running : ∀ poll, cancelled poll = false)
    {data : List String} (handled : ∀ text ∈ data, text ≠ "[DONE]" ∧ ∀ state message,
      handler.handleEvent text state message = .ok (step text state message).continued)
    (poll : Nat) (work : Progress σ) (rest : List (Except String ServerSentEvent)) :
    ∃ later, (handler.processFrom cancelled poll work.state work.partialMessage
        (data.map (fun text => .ok ⟨none, text⟩) ++ rest)).getLast? =
      (handler.processFrom cancelled later
        (data.foldl (fun work text => step text work.state work.partialMessage) work).state
        (data.foldl (fun work text => step text work.state work.partialMessage) work).partialMessage
        rest).getLast? := by
  induction data generalizing poll work with
  | nil => exact ⟨poll, rfl⟩
  | cons text others ih =>
    obtain ⟨more, answered⟩ := handled text mem_cons_self
    obtain ⟨later, same⟩ := ih (fun text member => handled text (mem_cons_of_mem _ member))
      (poll + 1) (step text work.state work.partialMessage)
    refine ⟨later, ?_⟩
    rw [foldl_cons, ← same, map_cons, cons_append, processFrom]
    simp only [running, more, answered, Bool.false_eq_true, ↓reduceIte, Progress.continued]
    exact getLast?_append_of_ne_nil _ (processFrom_ne_nil closes _ _ _ _ _)

theorem processSse_ends {step : String → σ → AssistantMessage → Progress σ}
    (closes : handler.Closes) (running : ∀ poll, cancelled poll = false)
    {data : List String} (handled : ∀ text ∈ data, text ≠ "[DONE]" ∧ ∀ state message,
      handler.handleEvent text state message = .ok (step text state message).continued)
    {body : List (Except String Bytes)}
    (read : Sse.iterateSse body = data.map fun text => .ok ⟨none, text⟩) (model : Model)
    (apiName : String) :
    let work := data.foldl (fun work text => step text work.state work.partialMessage)
      ⟨handler.initial, startMessage apiName model, []⟩
    let final := (handler.finalize work.state work.partialMessage).1
    (handler.processSse body model cancelled apiName).getLast? =
      some (.done final.stopReason final) := by
  obtain ⟨later, same⟩ := processFrom_handled closes running handled 0
    ⟨handler.initial, startMessage apiName model, []⟩ []
  rw [append_nil, ← read, processFrom, running, if_neg Bool.false_ne_true, finish,
    getLast?_append] at same
  exact same

theorem processFrom_reportsFailure {fails : Prop} (closes : handler.Closes)
    (answers : ∀ event, .ok event ∈ items → handler.Answers Inv rejects event.data)
    (ends : ∀ history state partialMessage, Inv history state partialMessage →
      ((handler.finalize state partialMessage).1.stopReason.isFailure ↔ fails))
    (cancelled : Nat → Bool) (poll : Nat) (holds : Inv history state partialMessage) :
    ReportsFailure (handler.processFrom cancelled poll state partialMessage items) ↔
      fails ∨ Interrupted rejects cancelled poll history items := by
  induction items generalizing poll history state partialMessage with
  | nil =>
    unfold processFrom Interrupted
    by_cases stopped : cancelled poll = true
    · simp only [stopped, ↓reduceIte, or_true, iff_true]
      exact reportsFailure_failed rfl _ _
    · simp only [stopped, Bool.false_eq_true, ↓reduceIte, or_false, reportsFailure_finish]
      exact ends history state partialMessage holds
  | cons item rest ih =>
    unfold processFrom Interrupted
    by_cases stopped : cancelled poll = true
    · simp only [stopped, ↓reduceIte, true_or, or_true, iff_true]
      exact reportsFailure_failed rfl _ _
    · simp only [stopped, Bool.false_eq_true, ↓reduceIte, false_or]
      cases item with
      | error reason =>
        simp only [or_true, iff_true]
        exact reportsFailure_failed rfl _ _
      | ok event =>
        have answer := answers event mem_cons_self
        have others : ∀ event, .ok event ∈ rest → handler.Answers Inv rejects event.data :=
          fun event member => answers event (mem_cons_of_mem _ member)
        dsimp only
        by_cases last : event.data = "[DONE]"
        · simp only [last, ↓reduceIte, ne_eq, not_true_eq_false, false_and, or_false,
            reportsFailure_finish]
          exact ends history state partialMessage holds
        · simp only [last, ↓reduceIte, ne_eq, not_false_eq_true, true_and]
          by_cases bad : rejects history event.data
          · obtain ⟨reason, same⟩ := answer.rejected holds bad
            simp only [same, bad, true_or, or_true, iff_true]
            exact reportsFailure_failed rfl _ _
          · obtain ⟨later, message, events, same, next⟩ := answer.accepted holds bad
            simp only [same, bad, false_or]
            rw [← ih others (poll + 1) next, ReportsFailure, ReportsFailure,
              streamReason_append _ (processFrom_ne_nil closes cancelled (poll + 1) _ _ _)]

theorem processSse_reportsFailure {body : List (Except String Bytes)} {model : Model}
    {apiName : String} (closes : handler.Closes)
    (answers : ∀ event, .ok event ∈ Sse.iterateSse body → handler.Answers Inv rejects event.data)
    (ends : ∀ history state partialMessage, Inv history state partialMessage →
      (handler.finalize state partialMessage).1.stopReason.isFailure = false)
    (holds : Inv [] handler.initial (startMessage apiName model)) (cancelled : Nat → Bool) :
    ReportsFailure (handler.processSse body model cancelled apiName) ↔
      Interrupted rejects cancelled 0 [] (Sse.iterateSse body) := by
  have never : ∀ history state partialMessage, Inv history state partialMessage →
      ((handler.finalize state partialMessage).1.stopReason.isFailure ↔ False) := by
    intro history state partialMessage holds
    rw [ends history state partialMessage holds, Bool.false_eq_true]
  have reports := processFrom_reportsFailure closes answers never cancelled 0 holds
  rwa [false_or] at reports

theorem processFrom_done
    (step : ∀ {history data state partialMessage later message events},
      Inv history state partialMessage →
      handler.handleEvent data state partialMessage = .ok (later, message, .continued events) →
      Inv (history ++ [data]) later message) (closes : handler.Closes) {poll : Nat}
    (holds : Inv history state partialMessage) {reason : StopReason}
    (ends : (handler.processFrom cancelled poll state partialMessage items).getLast? =
      some (.done reason message)) :
    (∃ last before, Inv (history ++ delivered items) last before ∧
        message = (handler.finalize last before).1 ∧ reason = message.stopReason) ∨
      ∃ seen data unseen last before later final events,
        delivered items = seen ++ data :: unseen ∧ Inv (history ++ seen) last before ∧
        handler.handleEvent data last before = .ok (later, final, .done events) ∧
        events.getLast? = some (.done reason message) := by
  have finished : ∀ {history state partialMessage}, Inv history state partialMessage →
      (handler.finish state partialMessage).getLast? = some (.done reason message) →
      ∃ last before, Inv history last before ∧
        message = (handler.finalize last before).1 ∧ reason = message.stopReason := by
    intro history state partialMessage holds ends
    simp only [finish, getLast?_append, getLast?_singleton, Option.some_or,
      Option.some.injEq, AssistantMessageEvent.done.injEq] at ends
    obtain ⟨rfl, rfl⟩ := ends
    exact ⟨state, partialMessage, holds, rfl, rfl⟩
  induction items generalizing poll history state partialMessage with
  | nil =>
    unfold processFrom at ends
    split at ends
    · simp [failed] at ends
    · left
      simpa only [delivered, append_nil] using finished holds ends
  | cons item rest ih =>
    unfold processFrom at ends
    split at ends
    · simp [failed] at ends
    · split at ends
      · simp [failed] at ends
      · rename_i event
        split at ends
        · rename_i last
          left
          simpa only [delivered, last, ↓reduceIte, append_nil] using finished holds ends
        · rename_i more
          have whole : delivered (.ok event :: rest) = event.data :: delivered rest := by
            simp [delivered, more]
          split at ends
          · simp [failed] at ends
          · rename_i later next events answered
            rw [getLast?_append_of_ne_nil events
              (processFrom_ne_nil closes cancelled (poll + 1) later next rest)] at ends
            have kept := step holds answered
            rcases ih kept ends with ⟨last, before, invariant, same⟩ |
              ⟨seen, data, unseen, last, before, final, ending, output, split, invariant, rest⟩
            · rw [append_assoc] at invariant
              exact .inl ⟨last, before, by rwa [whole], same⟩
            · rw [append_assoc] at invariant
              exact .inr ⟨event.data :: seen, data, unseen, last, before, final, ending, output,
                by rw [whole, split]; rfl, invariant, rest⟩
          · rename_i later next events answered
            exact .inr ⟨[], event.data, delivered rest, state, partialMessage, later, next,
              events, whole, by rwa [append_nil], answered, ends⟩

theorem processFrom_finalized (closes : handler.Closes)
    (answers : ∀ data, handler.Answers Inv rejects data) {poll : Nat}
    (holds : Inv history state partialMessage) {reason : StopReason}
    (ends : (handler.processFrom cancelled poll state partialMessage items).getLast? =
      some (.done reason message)) :
    ∃ last before, Inv (history ++ delivered items) last before ∧
      message = (handler.finalize last before).1 ∧ reason = message.stopReason := by
  have step : ∀ {history data state partialMessage later message events},
      Inv history state partialMessage →
      handler.handleEvent data state partialMessage = .ok (later, message, .continued events) →
      Inv (history ++ [data]) later message :=
    fun holds answered => ((answers _).next holds answered).1
  rcases processFrom_done step closes holds ends with
    finalized | ⟨_, data, _, last, before, _, _, _, _, invariant, answered, _⟩
  · exact finalized
  · obtain ⟨_, events, goes_on⟩ := (answers data).next invariant answered
    cases goes_on

end SseEventHandler

end PiRust
