import PiRust.Responses
import PiRust.StreamTrace

/- The blocks of `providers/openai/responses`: a content part that is added while
another one is open takes its place, and that one is never ended. -/
namespace PiRust.Responses

open List

def textOpen (before : Bool) : ResponseStreamEvent → Bool
  | .contentPartAdded => true
  | .outputItemDone item => if item.itemType = "message" then false else before
  | _ => before

/-- A content part is added only while no other one is open: the message item of the
one before is done. -/
def TextsApart (events : List ResponseStreamEvent) : Prop :=
  ∀ seen, seen ++ [.contentPartAdded] <+: events → seen.foldl textOpen false = false

theorem textsApart_append (events : List ResponseStreamEvent) (event : ResponseStreamEvent) :
    TextsApart (events ++ [event]) ↔ TextsApart events ∧
      (event = .contentPartAdded → events.foldl textOpen false = false) := by
  constructor
  · intro apart
    refine ⟨fun seen front => apart seen (front.trans (prefix_append _ _)), ?_⟩
    rintro rfl
    exact apart events (prefix_refl _)
  · rintro ⟨apart, last⟩ seen front
    rcases prefix_concat_iff.mp front with whole | inside
    · obtain ⟨rfl, same⟩ := append_inj' whole rfl
      exact last (cons.inj same).1.symm
    · exact apart seen inside

section Steps

variable {serde : Serde} {earlier : List AssistantMessageEvent} {work : Work}
  {lost : List (BlockKind × Nat)}

def textSlots (state : ResponsesHandler) : List (BlockKind × Nat) :=
  state.textContentIndex.toList.map fun ci => (.text, ci.toNat)

def ResponsesHandler.slots (state : ResponsesHandler) : List (BlockKind × Nat) :=
  state.toolContentIndex.toList.map (fun ci => (.toolCall, ci.toNat)) ++ textSlots state

variable {later : Work}

theorem endCall_tracks {ci : UInt32} (tracks : Tracks ((.toolCall, ci.toNat) :: lost) earlier work)
    (ended : endCall serde work ci = .ok later) :
    Tracks lost earlier later ∧ later.state = work.state := by
  unfold endCall at ended
  split at ended
  · cases ended
  · rename_i parsed _
    cases ended
    have written := tracks.rewrite ci.toNat (ContentBlock.row_setArguments parsed)
    exact ⟨written.closed (.toolcallEnd ci), rfl⟩

theorem startCall_tracks (tracks : Tracks (textSlots work.state ++ lost) earlier work)
    (item : OutputItem) :
    Tracks ((startCall item work).state.slots ++ lost) earlier (startCall item work) := by
  have opened := tracks.opened (openedCall (item.callId.getD item.id) (item.name.getD ""))
    (.toolcallStart work.position) nofun
  exact opened.part _

/-- What an event does that is accepted: it opens blocks and ends some of those that
are open, and loses the open text part when another one is added. -/
structure Handled (event : ResponseStreamEvent) (lost : List (BlockKind × Nat))
    (earlier : List AssistantMessageEvent) (work later : Work) : Prop where
  tracks : ∃ more, Tracks (later.state.slots ++ (more ++ lost)) earlier later ∧
    (more = [] ↔ (event = .contentPartAdded → work.state.textContentIndex.isSome = false))
  text : later.state.textContentIndex.isSome = textOpen work.state.textContentIndex.isSome event

theorem Handled.plain {event : ResponseStreamEvent} (other : event ≠ .contentPartAdded)
    (tracks : Tracks (later.state.slots ++ lost) earlier later)
    (text : later.state.textContentIndex.isSome =
      textOpen work.state.textContentIndex.isSome event) :
    Handled event lost earlier work later where
  tracks := ⟨[], tracks, by simp [other]⟩
  text := text

variable (tracks : Tracks (work.state.slots ++ lost) earlier work)
include tracks

theorem onOutputItemAdded_handled {item : OutputItem}
    (done : onOutputItemAdded serde item work = .ok later) :
    Handled (.outputItemAdded item) lost earlier work later := by
  unfold onOutputItemAdded at done
  split at done
  · unfold ResponsesHandler.slots at tracks
    split at done
    · rename_i ci index
      rw [index] at tracks
      obtain ⟨ended, closed, rfl⟩ := ok_of_map_ok done
      obtain ⟨kept, same⟩ := endCall_tracks tracks closed
      rw [← same] at kept
      refine .plain (by simp) (startCall_tracks kept item) ?_
      rw [← same]
      rfl
    · rename_i index
      rw [index] at tracks
      cases done
      exact .plain (by simp) (startCall_tracks tracks item) rfl
  · cases done
    exact .plain (by simp) tracks rfl

theorem onContentPartAdded_handled :
    Handled .contentPartAdded lost earlier work (onContentPartAdded work) where
  tracks := by
    have opened := tracks.opened (.text "" none) (.textStart work.position) fun _ given =>
      Option.some.inj given
    refine ⟨textSlots work.state, (opened.part _).perm ?_, ?_⟩
    · unfold ResponsesHandler.slots
      simp only [append_assoc]
      exact perm_middle
    · unfold textSlots
      cases work.state.textContentIndex <;> simp
  text := rfl

theorem onOutputItemDone_handled {item : OutputItem}
    (done : onOutputItemDone serde item work = .ok later) :
    Handled (.outputItemDone item) lost earlier work later := by
  unfold onOutputItemDone at done
  unfold ResponsesHandler.slots textSlots at tracks
  split at done
  · rename_i message
    split at done
    · rename_i ci index
      cases done
      rw [index] at tracks
      have first := tracks.perm (perm_append_comm.append_right lost)
      have ended := first.closed (.textEnd ci)
      refine .plain (by simp) ?_ ?_
      · unfold ResponsesHandler.slots textSlots
        simp only [Progress.withState_state, Option.toList_none, map_nil, append_nil]
        exact ended.part _
      · simp [textOpen, message]
    · rename_i index
      cases done
      refine .plain (by simp) tracks ?_
      simp [textOpen, message, index]
  · rename_i other
    split at done
    · split at done
      · rename_i ci index
        rw [index] at tracks
        obtain ⟨ended, closed, rfl⟩ := ok_of_map_ok done
        obtain ⟨kept, same⟩ := endCall_tracks tracks closed
        refine .plain (by simp) ?_ ?_
        · unfold ResponsesHandler.slots textSlots
          simp only [Progress.withState_state, same]
          exact kept.part _
        · simp [textOpen, other, same]
      · cases done
        refine .plain (by simp) tracks ?_
        simp [textOpen, other]
    · cases done
      refine .plain (by simp) tracks ?_
      simp [textOpen, other]

theorem onEvent_handled {event : ResponseStreamEvent}
    (done : onEvent serde event work = .ok later) : Handled event lost earlier work later := by
  unfold onEvent at done
  cases event with
  | responseCreated response =>
    cases done
    refine .plain (by simp) ?_ ?_
    · unfold onResponseCreated
      dsimp only
      split
      · exact tracks.part _
      · have started : Tracks (work.state.slots ++ lost) earlier ({ work with
            partialMessage.responseId := some response.id } : Work) :=
          ⟨tracks.inner, tracks.traced⟩
        exact started.start.part _
    · unfold onResponseCreated
      dsimp only
      split <;> rfl
  | outputItemAdded item => exact onOutputItemAdded_handled tracks done
  | contentPartAdded =>
    cases done
    exact onContentPartAdded_handled tracks
  | outputTextDelta delta =>
    cases done
    unfold onOutputTextDelta
    split
    · rename_i ci index
      refine .plain (by simp) ?_ rfl
      refine tracks.piece ?_ fun block text => ContentBlock.row_pushText delta text
      simp [ResponsesHandler.slots, textSlots, index]
    · exact .plain (by simp) tracks rfl
  | functionCallArgumentsDelta delta =>
    cases done
    unfold onArgumentsDelta
    dsimp only
    split
    · rename_i ci index
      refine .plain (by simp) ?_ rfl
      refine Tracks.piece (tracks.part _) ?_ ?_
      · simp only [Progress.withState_state] at index
        simp [ResponsesHandler.slots, index]
      · intro block call
        rw [ContentBlock.row_setArguments, ContentBlock.extend_toolCall _ call]
    · exact .plain (by simp) (tracks.part _) rfl
  | outputItemDone item => exact onOutputItemDone_handled tracks done
  | responseCompleted response =>
    cases done
    exact .plain (by simp) ⟨tracks.inner, tracks.traced⟩ rfl

end Steps

section Runs

variable {serde : Serde} {parse : String → Except String ResponseStreamEvent}

/-- The blocks that the work has opened, and those it lost. -/
structure Blocks (events : List ResponseStreamEvent) (lost : List (BlockKind × Nat))
    (earlier : List AssistantMessageEvent) (work : Work) : Prop where
  tracks : Tracks (work.state.slots ++ lost) earlier work
  lost : lost = [] ↔ TextsApart events
  text : work.state.textContentIndex.isSome = events.foldl textOpen false
  blocks : work.blockCount = opened events

theorem Blocks.next {events : List ResponseStreamEvent} {lost : List (BlockKind × Nat)}
    {earlier : List AssistantMessageEvent} {work later : Work} {event : ResponseStreamEvent}
    (blocks : Blocks events lost earlier work) (done : onEvent serde event work = .ok later) :
    ∃ lost, Blocks (events ++ [event]) lost (earlier ++ later.events)
      ⟨later.state, later.partialMessage, []⟩ := by
  have handled := onEvent_handled blocks.tracks done
  obtain ⟨more, tracks, none_more⟩ := handled.tracks
  refine ⟨more ++ lost, tracks.next, ?_, ?_, ?_⟩
  · rw [textsApart_append, append_eq_nil_iff, none_more, blocks.lost, blocks.text, and_comm]
  · rw [foldl_append, ← blocks.text]
    exact handled.text
  · rw [opened_append, ← blocks.blocks]
    have grown := onEvent_blockCount done
    exact grown

theorem finalize_tracks {lost : List (BlockKind × Nat)} {earlier : List AssistantMessageEvent}
    {state : ResponsesHandler} {partialMessage : AssistantMessage}
    (tracks : Tracks (state.slots ++ lost) earlier (⟨state, partialMessage, []⟩ : Work)) :
    Tracks lost (earlier ++ (finalize serde state partialMessage).2)
      (⟨state, (finalize serde state partialMessage).1, []⟩ : Work) := by
  have texts : Tracks (state.toolContentIndex.toList.map (fun ci => (.toolCall, ci.toNat)) ++ lost)
        earlier (endText ⟨state, partialMessage, []⟩) ∧
      (endText ⟨state, partialMessage, []⟩).state = state := by
    unfold ResponsesHandler.slots textSlots at tracks
    unfold endText
    dsimp only
    cases index : state.textContentIndex with
    | none =>
      rw [index] at tracks
      simpa using tracks
    | some ci =>
      rw [index] at tracks
      have first := tracks.perm (perm_append_comm.append_right lost)
      exact ⟨first.closed (.textEnd ci), rfl⟩
  have calls : Tracks lost earlier (endToolcall serde (endText ⟨state, partialMessage, []⟩)) := by
    obtain ⟨tracks, same⟩ := texts
    unfold endToolcall
    rw [same]
    cases index : state.toolContentIndex with
    | none => rwa [index] at tracks
    | some ci =>
      rw [index] at tracks
      have written := tracks.rewrite ci.toNat (ContentBlock.row_setArguments
        (parseStreamingJson serde state.accumulatedToolArgs))
      exact written.closed (.toolcallEnd ci)
  exact ⟨calls.next.inner, calls.next.traced⟩

theorem process_faithful_iff {body : List (Except String Bytes)} {model : Model}
    {cancelled : Nat → Bool} {apiName : String} {reason : StopReason} {message : AssistantMessage}
    (ends : ((handler serde parse).processSse body model cancelled apiName).getLast? =
      some (.done reason message)) :
    Faithful ((handler serde parse).processSse body model cancelled apiName) message ↔
      opened (wireEvents parse (delivered (Sse.iterateSse body))) ≤ UInt32.size ∧
        TextsApart (wireEvents parse (delivered (Sse.iterateSse body))) := by
  have step : ∀ {history data state partialMessage yielded later message events},
      (∃ lost, Blocks (wireEvents parse history) lost yielded ⟨state, partialMessage, []⟩) →
      (handler serde parse).handleEvent data state partialMessage =
        .ok (later, message, .continued events) →
      ∃ lost, Blocks (wireEvents parse (history ++ [data])) lost (yielded ++ events)
        ⟨later, message, []⟩ := by
    rintro history data state partialMessage yielded later message events ⟨lost, blocks⟩ answered
    simp only [handler] at answered
    cases parsed : parse data with
    | error e =>
      rw [parsed] at answered
      cases answered
    | ok event =>
      rw [parsed] at answered
      obtain ⟨work, handled, same⟩ := ok_of_map_ok answered
      cases same
      rw [wireEvents_append parsed]
      exact blocks.next handled
  have start : Blocks [] [] [] ⟨{}, startMessage apiName model, []⟩ := by
    refine ⟨Tracks.initial rfl, ?_, rfl, rfl⟩
    refine ⟨fun _ seen front => ?_, fun _ => rfl⟩
    simp at front
  have yields := @SseEventHandler.processSse_yields _ _ cancelled
    (fun history state partialMessage yielded =>
      ∃ lost, Blocks (wireEvents parse history) lost yielded ⟨state, partialMessage, []⟩) (@step)
  rcases yields ⟨[], start⟩ ends with
    ⟨last, before, all, ⟨lost, blocks⟩, whole, rfl⟩ |
    ⟨_, _, _, last, before, _, _, _, _, _, _, answered, _⟩
  · have done := @Tracks.faithful_iff _ _ _ _ (@finalize_tracks serde _ _ _ _ blocks.tracks)
      (finalize serde last before).1.stopReason (finalize serde last before).1 rfl
    have count : (finalize serde last before).1.content.length =
        opened (wireEvents parse (delivered (Sse.iterateSse body))) :=
      (finalize_length last before).trans blocks.blocks
    rw [whole, SseEventHandler.finish, ← append_assoc, ← blocks.lost, ← count]
    simpa only [handler, append_nil] using done
  · simp only [handler] at answered
    split at answered
    · cases answered
    · obtain ⟨_, _, same⟩ := ok_of_map_ok answered
      cases same

end Runs

end PiRust.Responses
