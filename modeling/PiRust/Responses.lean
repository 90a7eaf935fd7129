import PiRust.ProcessFramework
import PiRust.ToolCalls

/- `providers/openai/responses`. One function call is open at a time, and the
deltas do not say which one they belong to. -/
namespace PiRust.Responses

open List

structure ResponseUsage where
  inputTokens : UInt32
  outputTokens : UInt32
  totalTokens : UInt32

structure ResponseInfo where
  id : String
  usage : Option ResponseUsage

structure OutputItem where
  id : String
  itemType : String
  name : Option String
  callId : Option String

inductive ResponseStreamEvent where
  | responseCreated (response : ResponseInfo)
  | outputItemAdded (item : OutputItem)
  | contentPartAdded
  | outputTextDelta (delta : String)
  | functionCallArgumentsDelta (delta : String)
  | outputItemDone (item : OutputItem)
  | responseCompleted (response : ResponseInfo)

structure ResponsesHandler where
  firstEvent : Bool := false
  textContentIndex : Option UInt32 := none
  toolContentIndex : Option UInt32 := none
  accumulatedToolArgs : String := ""
  responseId : Option String := none
  usage : Option ResponseUsage := none

def mapUsage (u : ResponseUsage) : Usage where
  input := u.inputTokens
  output := u.outputTokens
  totalTokens := if u.totalTokens = 0 then u.inputTokens + u.outputTokens else u.totalTokens

abbrev Work := Progress ResponsesHandler

variable (serde : Serde)

/-- The strict end of the open call, at its `done` and at the start of the next one. -/
def endCall (work : Work) (ci : UInt32) : Except String Work :=
  match tryParseStreamingJson serde work.state.accumulatedToolArgs with
  | .error e => .error ("Malformed final tool arguments: " ++ e)
  | .ok parsed =>
    .ok ((work.edit ci.toNat (ContentBlock.setArguments parsed)).emit (.toolcallEnd ci))

def startCall (item : OutputItem) (work : Work) : Work :=
  let ci := work.position
  ((work.withState
      { work.state with toolContentIndex := some ci, accumulatedToolArgs := "" }).push
    (openedCall (item.callId.getD item.id) (item.name.getD ""))).emit (.toolcallStart ci)

def onResponseCreated (response : ResponseInfo) (work : Work) : Work :=
  let work := work.withState { work.state with responseId := some response.id }
  if work.state.firstEvent then work
  else
    let started : Work := { work with partialMessage.responseId := work.state.responseId }
    let emitted := started.emit (.start none)
    emitted.withState { emitted.state with firstEvent := true }

def onOutputItemAdded (item : OutputItem) (work : Work) : Except String Work :=
  if item.itemType = "function_call" then
    match work.state.toolContentIndex with
    | some ci => (endCall serde work ci).map (startCall item)
    | none => .ok (startCall item work)
  else .ok work

def onContentPartAdded (work : Work) : Work :=
  let ci := work.position
  ((work.withState { work.state with textContentIndex := some ci }).push (.text "" none)).emit
    (.textStart ci)

def onOutputTextDelta (delta : String) (work : Work) : Work :=
  match work.state.textContentIndex with
  | some ci => (work.edit ci.toNat (ContentBlock.pushText delta)).emit (.textDelta ci delta)
  | none => work

def onArgumentsDelta (delta : String) (work : Work) : Work :=
  let work := work.withState
    { work.state with accumulatedToolArgs := work.state.accumulatedToolArgs ++ delta }
  match work.state.toolContentIndex with
  | some ci =>
    (work.edit ci.toNat (ContentBlock.setArguments
      (parseStreamingJson serde work.state.accumulatedToolArgs))).emit (.toolcallDelta ci delta)
  | none => work

def onOutputItemDone (item : OutputItem) (work : Work) : Except String Work :=
  if item.itemType = "message" then
    match work.state.textContentIndex with
    | some ci =>
      let ended := work.emit (.textEnd ci)
      .ok (ended.withState { ended.state with textContentIndex := none })
    | none => .ok work
  else if item.itemType = "function_call" then
    match work.state.toolContentIndex with
    | some ci => (endCall serde work ci).map fun ended =>
      ended.withState { ended.state with toolContentIndex := none }
    | none => .ok work
  else .ok work

def onResponseCompleted (response : ResponseInfo) (work : Work) : Work :=
  { work with
    partialMessage.responseId := work.state.responseId
    state.usage := response.usage }

def onEvent (event : ResponseStreamEvent) (work : Work) : Except String Work :=
  match event with
  | .responseCreated response => .ok (onResponseCreated response work)
  | .outputItemAdded item => onOutputItemAdded serde item work
  | .contentPartAdded => .ok (onContentPartAdded work)
  | .outputTextDelta delta => .ok (onOutputTextDelta delta work)
  | .functionCallArgumentsDelta delta => .ok (onArgumentsDelta serde delta work)
  | .outputItemDone item => onOutputItemDone serde item work
  | .responseCompleted response => .ok (onResponseCompleted response work)

def endText (work : Work) : Work :=
  match work.state.textContentIndex with
  | some ci => work.emit (.textEnd ci)
  | none => work

def endToolcall (work : Work) : Work :=
  match work.state.toolContentIndex with
  | some ci =>
    (work.edit ci.toNat (ContentBlock.setArguments
      (parseStreamingJson serde work.state.accumulatedToolArgs))).emit (.toolcallEnd ci)
  | none => work

def finalStopReason (content : List ContentBlock) : StopReason :=
  if content.any ContentBlock.isToolCall then .toolUse else .stop

def finalize (state : ResponsesHandler) (partialMessage : AssistantMessage) :
    AssistantMessage × List AssistantMessageEvent :=
  let work := endToolcall serde (endText ⟨state, partialMessage, []⟩)
  let usage := match state.usage with
    | some u => mapUsage u
    | none => work.partialMessage.usage
  ({ work.partialMessage with
      usage := usage
      stopReason := finalStopReason work.partialMessage.content },
    work.events)

/-- `parse` stands for the derived `serde_json::from_str::<ResponseStreamEvent>`. -/
def handler (parse : String → Except String ResponseStreamEvent) :
    SseEventHandler ResponsesHandler where
  initial := {}
  handleEvent data state partialMessage :=
    match parse data with
    | .error e => .error ("SSE parse error: " ++ e)
    | .ok event => (onEvent serde event ⟨state, partialMessage, []⟩).map Progress.continued
  finalize := finalize serde

/-- What an event says about the argument texts. -/
def moves : ResponseStreamEvent → List (Assembly.Move Unit)
  | .outputItemAdded item => if item.itemType = "function_call" then [.opened ()] else []
  | .functionCallArgumentsDelta delta => [.piece () delta]
  | .outputItemDone item => if item.itemType = "function_call" then [.closed ()] else []
  | _ => []

variable (events : List ResponseStreamEvent)

/-- The function calls of a sequence of events. -/
def calls : Assembly Unit :=
  Assembly.run (events.flatMap moves)

theorem calls_append (event : ResponseStreamEvent) :
    calls (events ++ [event]) = (moves event).foldl Assembly.step (calls events) := by
  simp [calls, Assembly.run_append]

def ResponseStreamEvent.opens : ResponseStreamEvent → Bool
  | .contentPartAdded => true
  | .outputItemAdded item => item.itemType = "function_call"
  | _ => false

/-- How many blocks some events make. -/
def opened : Nat := events.countP ResponseStreamEvent.opens

theorem opened_append (event : ResponseStreamEvent) :
    opened (events ++ [event]) = opened events + event.opens.toNat := by
  rw [opened, opened, countP_append, countP_singleton]
  cases event.opens <;> rfl

def EndsCall : ResponseStreamEvent → Prop
  | .outputItemAdded item | .outputItemDone item => item.itemType = "function_call"
  | _ => False

def Unparsable (calls : Assembly Unit) : Prop :=
  ∃ text reason, calls.current () = some text ∧ tryParseStreamingJson serde text = .error reason

def Malformed (calls : Assembly Unit) (event : ResponseStreamEvent) : Prop :=
  EndsCall event ∧ Unparsable serde calls

/-- The handler after some events, by its open block, the text held for it and
the content. The position of the block is right as long as it fits its `u32`. -/
structure Follows (calls : Assembly Unit) (index : Option UInt32) (held : String)
    (content : List ContentBlock) : Prop where
  isOpen : index.isSome = (calls.owner ()).isSome
  held : Held calls fun _ => some held
  written : content.length ≤ UInt32.size →
    Written serde content calls fun _ => index.map UInt32.toNat

abbrev Follows.At (calls : Assembly Unit) (work : Work) : Prop :=
  Follows serde calls work.state.toolContentIndex work.state.accumulatedToolArgs
    work.partialMessage.content

namespace Follows

variable {serde} {calls : Assembly Unit} {index : Option UInt32} {held : String}
  {content : List ContentBlock}

theorem initial : Follows serde Assembly.empty none "" [] where
  isOpen := rfl
  held := by
    intro key text absent
    cases absent
  written := fun _ => Written.empty _

theorem current {ci : UInt32} (follows : Follows serde calls (some ci) held content) :
    ∃ n, calls.owner () = some n ∧ calls.current () = some held := by
  obtain ⟨n, owned⟩ := Option.isSome_iff_exists.mp follows.isOpen.symm
  obtain ⟨text, current, _⟩ := Assembly.current_of_owner owned
  exact ⟨n, owned, current.trans (follows.held current).symm⟩

theorem unowned (follows : Follows serde calls none held content) : calls.owner () = none :=
  Option.not_isSome_iff_eq_none.mp fun owned => by
    have isOpen := follows.isOpen
    rw [owned] at isOpen
    cases isOpen

theorem push (follows : Follows serde calls index held content) {block : ContentBlock}
    (other : block.arguments? = none) : Follows serde calls index held (content ++ [block]) where
  __ := follows
  written := by
    intro room
    rw [length_append, length_singleton] at room
    exact (follows.written (by omega)).push other

theorem edit (follows : Follows serde calls index held content) (p : Nat)
    {change : ContentBlock → ContentBlock}
    (same : ∀ block, (change block).arguments? = block.arguments?) :
    Follows serde calls index held (content.modify p change) where
  __ := follows
  written := by
    intro room
    rw [length_modify] at room
    exact (follows.written room).edit p same

theorem rewrite {ci : UInt32} (follows : Follows serde calls (some ci) held content) :
    Follows serde calls (some ci) held (content.modify ci.toNat
      (ContentBlock.setArguments (parseStreamingJson serde held))) where
  __ := follows
  written := by
    intro room
    rw [length_modify] at room
    obtain ⟨n, owned, current⟩ := follows.current
    exact (follows.written room).rewrite owned rfl current

theorem opened (follows : Follows serde calls index held content) (id name : String) :
    Follows serde (calls.opened ()) (some (UInt32.ofNat content.length)) ""
      (content ++ [openedCall id name]) where
  isOpen := by
    rw [Assembly.owner_opened]
    rfl
  held := by
    intro key text current
    rw [Assembly.current_opened, if_pos rfl] at current
    exact current
  written := by
    intro room
    rw [length_append, length_singleton] at room
    refine (follows.written (by omega)).opened () _ _ ?_ fun other apart => absurd rfl apart
    rw [Option.map_some, UInt32.toNat_ofNat_of_lt' (by omega)]

theorem closed (follows : Follows serde calls index held content) :
    Follows serde (calls.closed ()) none held content where
  isOpen := by
    rw [Assembly.owner_closed]
    rfl
  held := by
    intro key text current
    rw [Assembly.current_closed, if_pos rfl] at current
    cases current
  written := fun room => (follows.written room).closed () fun other apart => absurd rfl apart

theorem held_piece (follows : Follows serde calls index held content) (delta : String) :
    Held (calls.piece () delta) fun _ => some (held ++ delta) := by
  intro key text current
  rw [Assembly.current_piece, if_pos rfl] at current
  obtain ⟨own, before, rfl⟩ := Option.map_eq_some_iff.mp current
  exact congrArg (Option.map (· ++ delta)) (follows.held before)

theorem lost (follows : Follows serde calls none held content) (delta : String) :
    Follows serde (calls.piece () delta) none (held ++ delta) content where
  isOpen := follows.isOpen
  held := follows.held_piece delta
  written := fun room => (follows.written room).lost follows.unowned delta

theorem piece {ci : UInt32} (follows : Follows serde calls (some ci) held content)
    (delta : String) :
    Follows serde (calls.piece () delta) (some ci) (held ++ delta) (content.modify ci.toNat
      (ContentBlock.setArguments (parseStreamingJson serde (held ++ delta)))) where
  isOpen := follows.isOpen
  held := follows.held_piece delta
  written := by
    intro room
    rw [length_modify] at room
    obtain ⟨n, owned, current⟩ := follows.current
    exact (follows.written room).piece owned rfl current delta

end Follows

section Steps

variable {serde} {calls : Assembly Unit} {work : Work}

section

variable (follows : Follows.At serde calls work)
include follows

theorem not_unparsable (index : work.state.toolContentIndex = none) : ¬ Unparsable serde calls := by
  unfold Follows.At at follows
  rw [index] at follows
  rintro ⟨text, reason, current, _⟩
  rw [Assembly.current, follows.unowned] at current
  cases current

/-- The strict end fails on arguments that cannot be parsed, and otherwise writes
what is there already. -/
theorem endCall_spec {ci : UInt32} (index : work.state.toolContentIndex = some ci) :
    (Unparsable serde calls ∧ ∃ reason, endCall serde work ci = .error reason) ∨
      (¬ Unparsable serde calls ∧
        ∃ later, endCall serde work ci = .ok later ∧ Follows.At serde calls later) := by
  unfold Follows.At at follows
  rw [index] at follows
  obtain ⟨_, _, current⟩ := follows.current
  unfold endCall
  cases parsed : tryParseStreamingJson serde work.state.accumulatedToolArgs with
  | error e => exact .inl ⟨⟨_, e, current, parsed⟩, _, rfl⟩
  | ok value =>
    have written := follows.rewrite
    rw [parseStreamingJson_ok serde parsed, ← index] at written
    refine .inr ⟨?_, _, rfl, written⟩
    rintro ⟨text, reason, same, failed⟩
    rw [Option.some.inj (same.symm.trans current), parsed] at failed
    cases failed

theorem onArgumentsDelta_follows (delta : String) :
    Follows.At serde (calls.piece () delta) (onArgumentsDelta serde delta work) := by
  unfold Follows.At at follows
  unfold onArgumentsDelta
  cases index : work.state.toolContentIndex with
  | none =>
    rw [index] at follows
    simpa only [Follows.At, Progress.withState_state, Progress.withState_message, index]
      using follows.lost delta
  | some ci =>
    rw [index] at follows
    simpa only [Follows.At, Progress.withState_state, Progress.withState_message,
      Progress.edit_state, Progress.edit_content, Progress.emit_state, Progress.emit_message,
      index] using follows.piece delta

theorem onResponseCreated_follows (response : ResponseInfo) :
    Follows.At serde calls (onResponseCreated response work) := by
  unfold onResponseCreated
  dsimp only
  split
  · exact follows
  · exact follows

theorem onOutputTextDelta_follows (delta : String) :
    Follows.At serde calls (onOutputTextDelta delta work) := by
  unfold onOutputTextDelta
  split
  · exact follows.edit _ (ContentBlock.arguments?_pushText · delta)
  · exact follows

theorem startCall_follows (item : OutputItem) :
    Follows.At serde (calls.opened ()) (startCall item work) :=
  follows.opened _ _

end

variable {item : OutputItem}

section

variable (follows : Follows.At serde calls work)
include follows

theorem onOutputItemAdded_spec (call : item.itemType = "function_call") :
    (Unparsable serde calls ∧ ∃ reason, onOutputItemAdded serde item work = .error reason) ∨
      (¬ Unparsable serde calls ∧ ∃ later, onOutputItemAdded serde item work = .ok later ∧
        Follows.At serde (calls.opened ()) later) := by
  unfold onOutputItemAdded
  rw [if_pos call]
  split
  · rename_i ci index
    rcases endCall_spec follows index with ⟨bad, reason, failed⟩ | ⟨fine, later, ended, kept⟩
    · exact .inl ⟨bad, reason, by rw [failed]; rfl⟩
    · exact .inr ⟨fine, startCall item later, by rw [ended]; rfl, startCall_follows kept item⟩
  · rename_i index
    exact .inr ⟨not_unparsable follows index, _, rfl, startCall_follows follows item⟩

theorem onOutputItemDone_spec (call : item.itemType = "function_call") :
    (Unparsable serde calls ∧ ∃ reason, onOutputItemDone serde item work = .error reason) ∨
      (¬ Unparsable serde calls ∧ ∃ later, onOutputItemDone serde item work = .ok later ∧
        Follows.At serde (calls.closed ()) later) := by
  unfold onOutputItemDone
  rw [if_neg (by rw [call]; decide), if_pos call]
  split
  · rename_i ci index
    rcases endCall_spec follows index with ⟨bad, reason, failed⟩ | ⟨fine, later, ended, kept⟩
    · exact .inl ⟨bad, reason, by rw [failed]; rfl⟩
    · exact .inr ⟨fine, _, by rw [ended]; rfl, kept.closed⟩
  · rename_i index
    refine .inr ⟨not_unparsable follows index, work, rfl, ?_⟩
    have closed := follows.closed
    rwa [← index] at closed

theorem onOutputItemDone_other (other : item.itemType ≠ "function_call") :
    ∃ later, onOutputItemDone serde item work = .ok later ∧ Follows.At serde calls later := by
  unfold onOutputItemDone
  rw [if_neg other]
  split
  · split
    · exact ⟨_, rfl, follows⟩
    · exact ⟨work, rfl, follows⟩
  · exact ⟨work, rfl, follows⟩

end

theorem onEvent_spec (work : Work) (follows : Follows.At serde calls work) (event : ResponseStreamEvent) :
    (Malformed serde calls event ∧ ∃ reason, onEvent serde event work = .error reason) ∨
      (¬ Malformed serde calls event ∧ ∃ later, onEvent serde event work = .ok later ∧
        Follows.At serde ((moves event).foldl Assembly.step calls) later) := by
  cases event with
  | responseCreated response =>
    exact .inr ⟨fun bad => bad.1, _, rfl, onResponseCreated_follows follows response⟩
  | outputItemAdded item =>
    by_cases call : item.itemType = "function_call"
    · simp only [Malformed, EndsCall, call, true_and, moves, ↓reduceIte]
      exact onOutputItemAdded_spec follows call
    · refine .inr ⟨fun bad => call bad.1, work, by simp [onEvent, onOutputItemAdded, if_neg call], ?_⟩
      simpa only [moves, if_neg call, foldl_nil] using follows
  | contentPartAdded => exact .inr ⟨fun bad => bad.1, _, rfl, follows.push rfl⟩
  | outputTextDelta delta =>
    exact .inr ⟨fun bad => bad.1, _, rfl, onOutputTextDelta_follows follows delta⟩
  | functionCallArgumentsDelta delta =>
    exact .inr ⟨fun bad => bad.1, _, rfl, onArgumentsDelta_follows follows delta⟩
  | outputItemDone item =>
    by_cases call : item.itemType = "function_call"
    · simp only [Malformed, EndsCall, call, true_and, moves, ↓reduceIte]
      exact onOutputItemDone_spec follows call
    · obtain ⟨later, handled, kept⟩ := onOutputItemDone_other follows call
      refine .inr ⟨fun bad => call bad.1, later, handled, ?_⟩
      simpa only [moves, if_neg call, foldl_nil] using kept
  | responseCompleted response => exact .inr ⟨fun bad => bad.1, _, rfl, follows⟩

theorem endCall_blockCount {ci : UInt32} {later : Work} (ended : endCall serde work ci = .ok later) :
    later.blockCount = work.blockCount := by
  unfold endCall at ended
  split at ended
  · cases ended
  · cases ended
    exact Progress.edit_blockCount _ _ _

theorem onEvent_blockCount {event : ResponseStreamEvent} {later : Work}
    (handled : onEvent serde event work = .ok later) :
    later.blockCount = work.blockCount + event.opens.toNat := by
  cases event with
  | responseCreated response =>
    cases handled
    simp only [onResponseCreated]
    split <;> rfl
  | outputItemAdded item =>
    simp only [onEvent, onOutputItemAdded] at handled
    split at handled
    · rename_i call
      simp only [ResponseStreamEvent.opens, call, decide_true, Bool.toNat_true]
      split at handled
      · obtain ⟨called, finished, rfl⟩ := ok_of_map_ok handled
        rw [← endCall_blockCount finished]
        exact Progress.push_blockCount _ _
      · cases handled
        exact Progress.push_blockCount _ _
    · rename_i other
      cases handled
      simp [ResponseStreamEvent.opens, other]
  | contentPartAdded =>
    cases handled
    exact Progress.push_blockCount _ _
  | outputTextDelta delta =>
    cases handled
    simp only [onOutputTextDelta]
    split <;> simp [ResponseStreamEvent.opens]
  | functionCallArgumentsDelta delta =>
    cases handled
    simp only [onArgumentsDelta]
    split <;> simp [ResponseStreamEvent.opens]
  | outputItemDone item =>
    simp only [onEvent, onOutputItemDone] at handled
    split at handled
    · split at handled
      · cases handled
        rfl
      · cases handled
        rfl
    · split at handled
      · split at handled
        · obtain ⟨called, finished, rfl⟩ := ok_of_map_ok handled
          have kept := endCall_blockCount finished
          exact kept
        · cases handled
          rfl
      · cases handled
        rfl
  | responseCompleted response =>
    cases handled
    rfl

end Steps

section Runs

variable {serde} {parse : String → Except String ResponseStreamEvent}

def Invariant (serde : Serde) (parse : String → Except String ResponseStreamEvent)
    (history : List String) (state : ResponsesHandler) (partialMessage : AssistantMessage) : Prop :=
  Follows serde (calls (wireEvents parse history)) state.toolContentIndex
    state.accumulatedToolArgs partialMessage.content

def Rejects (serde : Serde) (parse : String → Except String ResponseStreamEvent)
    (history : List String) (data : String) : Prop :=
  match parse data with
  | .error _ => True
  | .ok event => Malformed serde (calls (wireEvents parse history)) event

theorem handler_closes : (handler serde parse).Closes := by
  intro data state partialMessage later message events answered
  simp only [handler] at answered
  split at answered
  · cases answered
  · rename_i event parsed
    cases handled : onEvent serde event ⟨state, partialMessage, []⟩ with
    | error reason => simp [handled, Except.map] at answered
    | ok work => simp [handled, Except.map, Progress.continued] at answered

theorem handler_answers (data : String) :
    (handler serde parse).Answers (Invariant serde parse) (Rejects serde parse) data := by
  have spec : ∀ {history state partialMessage}, Invariant serde parse history state partialMessage →
      (Rejects serde parse history data ∧ ∃ reason,
          (handler serde parse).handleEvent data state partialMessage = .error reason) ∨
        (¬ Rejects serde parse history data ∧ ∃ later message events,
          (handler serde parse).handleEvent data state partialMessage =
            .ok (later, message, .continued events) ∧
          Invariant serde parse (history ++ [data]) later message) := by
    intro history state partialMessage holds
    simp only [handler, Rejects]
    cases parsed : parse data with
    | error e => exact .inl ⟨trivial, _, rfl⟩
    | ok event =>
      rcases onEvent_spec ⟨state, partialMessage, []⟩ holds event with
        ⟨bad, reason, failed⟩ | ⟨fine, later, handled, kept⟩
      · exact .inl ⟨bad, reason, by simp only [failed]; rfl⟩
      · refine .inr ⟨fine, later.state, later.partialMessage, later.events,
          by simp only [handled]; rfl, ?_⟩
        simpa only [Invariant, wireEvents_append parsed, calls_append] using kept
  constructor
  · intro history state partialMessage holds bad
    exact (spec holds).elim And.right fun fine => absurd bad fine.1
  · intro history state partialMessage holds fine
    exact (spec holds).elim (fun bad => absurd bad.1 fine) And.right

theorem finalize_stopReason (state : ResponsesHandler) (partialMessage : AssistantMessage) :
    (finalize serde state partialMessage).1.stopReason.isFailure = false := by
  simp only [finalize, finalStopReason]
  split <;> rfl

theorem finalize_follows {calls : Assembly Unit} {state : ResponsesHandler}
    {partialMessage : AssistantMessage}
    (follows : Follows serde calls state.toolContentIndex state.accumulatedToolArgs
      partialMessage.content) :
    Follows serde calls state.toolContentIndex state.accumulatedToolArgs
      (finalize serde state partialMessage).1.content := by
  have texts : Follows.At serde calls (endText ⟨state, partialMessage, []⟩) ∧
      (endText ⟨state, partialMessage, []⟩).state = state := by
    unfold endText
    split
    · exact ⟨follows, rfl⟩
    · exact ⟨follows, rfl⟩
  simp only [finalize, endToolcall]
  split
  · rename_i ci index
    have open_call := texts.1
    unfold Follows.At at open_call
    rw [index] at open_call
    rw [texts.2] at index open_call ⊢
    rw [index]
    exact open_call.rewrite
  · have kept := texts.1
    unfold Follows.At at kept
    rwa [texts.2] at kept

theorem invariant_initial (apiName : String) (model : Model) :
    Invariant serde parse [] (handler serde parse).initial (startMessage apiName model) :=
  Follows.initial

theorem process_reportsFailure (body : List (Except String Bytes)) (model : Model)
    (cancelled : Nat → Bool) (apiName : String) :
    ReportsFailure ((handler serde parse).processSse body model cancelled apiName) ↔
      Interrupted (Rejects serde parse) cancelled 0 [] (Sse.iterateSse body) :=
  SseEventHandler.processSse_reportsFailure handler_closes
    (fun event _ => handler_answers event.data)
    (fun _ state partialMessage _ => finalize_stopReason state partialMessage)
    (invariant_initial apiName model) cancelled

theorem handler_counts (data : String) : (handler serde parse).Answers
    (fun history state partialMessage => Invariant serde parse history state partialMessage ∧
      partialMessage.content.length = opened (wireEvents parse history))
    (Rejects serde parse) data := by
  apply (handler_answers data).and
  intro history state partialMessage later message result bound answered
  simp only [handler] at answered
  cases parsed : parse data with
  | error e =>
    rw [parsed] at answered
    cases answered
  | ok event =>
    rw [parsed] at answered
    obtain ⟨work, handled, same⟩ := ok_of_map_ok answered
    cases same
    rw [wireEvents_append parsed, opened_append, ← bound]
    exact onEvent_blockCount handled

theorem finalize_length (state : ResponsesHandler) (partialMessage : AssistantMessage) :
    (finalize serde state partialMessage).1.content.length = partialMessage.content.length := by
  have texts : (endText ⟨state, partialMessage, []⟩).blockCount =
      partialMessage.content.length := by
    unfold endText
    split <;> rfl
  simp only [finalize, endToolcall]
  split
  · exact (Progress.edit_blockCount _ _ _).trans texts
  · exact texts

theorem process_arguments {body : List (Except String Bytes)} {model : Model}
    {cancelled : Nat → Bool} {apiName : String} {reason : StopReason}
    {message : AssistantMessage}
    (ends : ((handler serde parse).processSse body model cancelled apiName).getLast? =
      some (.done reason message))
    (room : opened (wireEvents parse (delivered (Sse.iterateSse body))) ≤ UInt32.size) :
    message.toolArguments =
      (calls (wireEvents parse (delivered (Sse.iterateSse body)))).texts.map
        (parseStreamingJson serde) := by
  obtain ⟨last, before, ⟨follows, count⟩, rfl, _⟩ := SseEventHandler.processFrom_finalized
    handler_closes handler_counts ⟨invariant_initial apiName model, rfl⟩ ends
  apply ((finalize_follows follows).written _).arguments
  rwa [finalize_length, count]

end Runs

end PiRust.Responses
