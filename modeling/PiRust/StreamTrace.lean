import PiRust.ChunkHandler
import PiRust.Lanes

/- The events of a stream as the trace of the blocks of its message. -/
namespace PiRust

open List

open Lanes (Bracketed Mark Row Trace Traced)

inductive BlockKind where
  | text
  | thinking
  | image
  | toolCall
  deriving DecidableEq, Repr

namespace ContentBlock

def kind : ContentBlock → BlockKind
  | .text .. => .text
  | .thinking .. => .thinking
  | .image .. => .image
  | .toolCall .. => .toolCall

def written? : ContentBlock → Option String
  | .text given _ => some given
  | .thinking given _ _ => some given
  | _ => none

def row (block : ContentBlock) : Row BlockKind := ⟨block.kind, block.written?⟩

@[simp] theorem row_setId (id : String) (block : ContentBlock) :
    (block.setId id).row = block.row := by
  cases block <;> rfl

@[simp] theorem row_setName (name : String) (block : ContentBlock) :
    (block.setName name).row = block.row := by
  cases block <;> rfl

@[simp] theorem row_setArguments (value : Value) (block : ContentBlock) :
    (block.setArguments value).row = block.row := by
  cases block <;> rfl

variable (signature : Option String)

variable (block : ContentBlock)

@[simp] theorem row_setTextSignature : (block.setTextSignature signature).row = block.row := by
  cases block <;> rfl

@[simp] theorem row_setThinkingSignature :
    (block.setThinkingSignature signature).row = block.row := by
  cases block <;> rfl

@[simp] theorem row_setThoughtSignature :
    (block.setThoughtSignature signature).row = block.row := by
  cases block <;> rfl

variable {block : ContentBlock}

theorem row_pushText (text : String) (same : block.kind = .text) :
    (block.pushText text).row = block.row.extend text := by
  cases block with
  | text => rfl
  | _ => cases same

theorem row_pushThinking (text : String) (same : block.kind = .thinking) :
    (block.pushThinking text).row = block.row.extend text := by
  cases block with
  | thinking => rfl
  | _ => cases same

theorem extend_toolCall (text : String) (same : block.kind = .toolCall) :
    block.row.extend text = block.row := by
  cases block with
  | toolCall => rfl
  | _ => cases same

end ContentBlock

namespace AssistantMessageEvent

def contentIndex? : AssistantMessageEvent → Option UInt32
  | .start contentIndex _ => contentIndex
  | .textStart contentIndex _ | .textDelta contentIndex _ _ | .textEnd contentIndex _
  | .thinkingStart contentIndex _ | .thinkingDelta contentIndex _ _ | .thinkingEnd contentIndex _
  | .toolcallStart contentIndex _ | .toolcallDelta contentIndex _ _
  | .toolcallEnd contentIndex _ => some contentIndex
  | .done .. | .error .. => none

def mark? : AssistantMessageEvent → Option (Mark BlockKind)
  | .textStart .. => some (.opened .text)
  | .textDelta _ delta _ => some (.piece .text delta)
  | .textEnd .. => some (.closed .text)
  | .thinkingStart .. => some (.opened .thinking)
  | .thinkingDelta _ delta _ => some (.piece .thinking delta)
  | .thinkingEnd .. => some (.closed .thinking)
  | .toolcallStart .. => some (.opened .toolCall)
  | .toolcallDelta _ delta _ => some (.piece .toolCall delta)
  | .toolcallEnd .. => some (.closed .toolCall)
  | .start .. | .done .. | .error .. => none

def entry? (event : AssistantMessageEvent) : Option (Nat × Mark BlockKind) :=
  match event.contentIndex?, event.mark? with
  | some index, some mark => some (index.toNat, mark)
  | _, _ => none

def Inner (event : AssistantMessageEvent) : Prop :=
  event.isTerminal = false ∧ (event.contentIndex?.isSome → event.mark?.isSome)

end AssistantMessageEvent

def blockTrace (events : List AssistantMessageEvent) : Trace BlockKind :=
  events.filterMap AssistantMessageEvent.entry?

def blockRows (content : List ContentBlock) : List (Row BlockKind) :=
  content.map ContentBlock.row

/-- The events of a stream that ends with a message: each block of the message has
one start and one end with its deltas between them, the deltas of a text or a
thinking block make up its text, every content index is a position of the message,
and the only terminal event is the last one. -/
structure Faithful (events : List AssistantMessageEvent) (message : AssistantMessage) :
    Prop where
  bracketed : Bracketed (blockTrace events) (blockRows message.content)
  positions : ∀ event ∈ events, ∀ index, event.contentIndex? = some index →
    index.toNat < message.content.length
  terminal : ∃ earlier reason, events = earlier ++ [.done reason message] ∧
    ∀ event ∈ earlier, event.isTerminal = false

section Basics

theorem blockTrace_append (earlier later : List AssistantMessageEvent) :
    blockTrace (earlier ++ later) = blockTrace earlier ++ blockTrace later :=
  filterMap_append

theorem blockTrace_singleton {event : AssistantMessageEvent} {index : UInt32}
    {mark : Mark BlockKind} (place : event.contentIndex? = some index)
    (tells : event.mark? = some mark) : blockTrace [event] = [(index.toNat, mark)] := by
  simp [blockTrace, AssistantMessageEvent.entry?, place, tells]

variable (content : List ContentBlock)

@[simp] theorem length_blockRows : (blockRows content).length = content.length :=
  length_map _

theorem blockRows_append (block : ContentBlock) :
    blockRows (content ++ [block]) = blockRows content ++ [block.row] := by
  simp [blockRows]

theorem blockRows_modify (p : Nat) {change : ContentBlock → ContentBlock}
    {alter : Row BlockKind → Row BlockKind}
    (same : ∀ block, content[p]? = some block → (change block).row = alter block.row) :
    blockRows (content.modify p change) = (blockRows content).modify p alter := by
  apply ext_getElem?
  intro q
  rw [blockRows, blockRows, getElem?_map, getElem?_modify, getElem?_modify,
    getElem?_map]
  cases read : content[q]? with
  | none => rfl
  | some block =>
    by_cases here : p = q
    · subst here
      simp [same block read]
    · simp [here]

theorem blockRows_modify_same (p : Nat) {change : ContentBlock → ContentBlock}
    (same : ∀ block, (change block).row = block.row) :
    blockRows (content.modify p change) = blockRows content := by
  rw [@blockRows_modify content p change id fun block _ => same block, modify_id]

theorem length_le_of_bracketed {events : List AssistantMessageEvent} {content : List ContentBlock}
    (bracketed : Bracketed (blockTrace events) (blockRows content)) :
    content.length ≤ UInt32.size := by
  apply Nat.le_of_not_lt
  intro more
  rw [← length_blockRows] at more
  obtain ⟨pieces, _, same⟩ := bracketed.lanes (getElem?_eq_getElem more)
  have silent : Lanes.lane UInt32.size (blockTrace events) = [] := by
    apply Lanes.lane_outside
    intro entry member
    obtain ⟨event, _, made⟩ := mem_filterMap.mp member
    unfold AssistantMessageEvent.entry? at made
    split at made
    · rename_i index _ _ _
      obtain rfl := Option.some.inj made
      exact Nat.ne_of_lt index.toNat_lt_size
    · cases made
  rw [silent] at same
  cases same

theorem faithful_iff_bracketed {all : List AssistantMessageEvent}
    (inner : ∀ event ∈ all, event.Inner) {reason : StopReason} {message : AssistantMessage} :
    Faithful (all ++ [.done reason message]) message ↔
      Bracketed (blockTrace all) (blockRows message.content) := by
  have whole : blockTrace (all ++ [.done reason message]) = blockTrace all := by
    rw [blockTrace_append]
    exact append_nil _
  constructor
  · intro faithful
    have bracketed := faithful.bracketed
    rwa [whole] at bracketed
  · intro bracketed
    refine ⟨by rwa [whole], ?_, all, reason, rfl, fun event member => (inner event member).1⟩
    intro event member index place
    rcases mem_append.mp member with inside | last
    · obtain ⟨mark, tells⟩ := Option.isSome_iff_exists.mp
        ((inner event inside).2 (by rw [place]; rfl))
      rw [← length_blockRows]
      refine bracketed.inside (index.toNat, mark) (mem_filterMap.mpr ⟨event, inside, ?_⟩)
      simp [AssistantMessageEvent.entry?, place, tells]
    · rw [mem_singleton.mp last] at place
      cases place

end Basics

section Tracks

variable {σ : Type} {pending : List (BlockKind × Nat)} {earlier : List AssistantMessageEvent}
  {work : Progress σ}

/-- A handler at work: the events so far, those of earlier calls included, and the
blocks that they leave open. Positions fit their `u32` up to `2 ^ 32` blocks. -/
structure Tracks (pending : List (BlockKind × Nat)) (earlier : List AssistantMessageEvent)
    (work : Progress σ) : Prop where
  inner : ∀ event ∈ earlier ++ work.events, event.Inner
  traced : work.blockCount ≤ UInt32.size →
    Traced pending (blockTrace (earlier ++ work.events)) (blockRows work.partialMessage.content)

namespace Tracks

theorem initial {state : σ} {partialMessage : AssistantMessage}
    (empty : partialMessage.content = []) :
    Tracks [] [] (⟨state, partialMessage, []⟩ : Progress σ) where
  inner := fun event none_yet => absurd none_yet not_mem_nil
  traced := by
    intro _
    rw [empty]
    exact Traced.initial

theorem perm (tracks : Tracks pending earlier work) {other : List (BlockKind × Nat)}
    (same : other.Perm pending) : Tracks other earlier work where
  inner := tracks.inner
  traced := fun room => (tracks.traced room).perm same

theorem next (tracks : Tracks pending earlier work) :
    Tracks pending (earlier ++ work.events) (⟨work.state, work.partialMessage, []⟩ : Progress σ) where
  inner := by
    rw [append_nil]
    exact tracks.inner
  traced := by
    intro room
    rw [append_nil]
    exact tracks.traced room

theorem inner_emit {work : Progress σ} (before : ∀ event ∈ earlier ++ work.events, event.Inner)
    {event : AssistantMessage → AssistantMessageEvent}
    (inner : (event work.partialMessage).Inner) :
    ∀ other ∈ earlier ++ (work.emit event).events, other.Inner := by
  intro other member
  rw [Progress.emit, ← append_assoc] at member
  rcases mem_append.mp member with old | new
  · exact before other old
  · rw [mem_singleton.mp new]
    exact inner

theorem start (tracks : Tracks pending earlier work) :
    Tracks pending earlier (work.emit (.start none)) where
  inner := inner_emit tracks.inner ⟨rfl, nofun⟩
  traced := by
    intro room
    have same : blockTrace (earlier ++ (work.emit (.start none)).events) =
        blockTrace (earlier ++ work.events) := by
      rw [Progress.emit, ← append_assoc, blockTrace_append]
      exact append_nil _
    rw [same]
    exact tracks.traced room

/-- An event marks a block at a position. -/
structure Tells (event : AssistantMessageEvent) (index : UInt32) (mark : Mark BlockKind) :
    Prop where
  terminal : event.isTerminal = false
  place : event.contentIndex? = some index
  mark : event.mark? = some mark

variable {index : UInt32} {text : String} {change : ContentBlock → ContentBlock}

theorem Tells.inner {event : AssistantMessageEvent} {mark : Mark BlockKind}
    (tells : Tells event index mark) : event.Inner :=
  ⟨tells.terminal, fun _ => by rw [tells.mark]; rfl⟩

theorem trace_emit (work : Progress σ) {event : AssistantMessage → AssistantMessageEvent}
    {index : UInt32} {mark : Mark BlockKind} (tells : ∀ message, Tells (event message) index mark) :
    blockTrace (earlier ++ (work.emit event).events) =
      blockTrace (earlier ++ work.events) ++ [(index.toNat, mark)] := by
  rw [Progress.emit, ← append_assoc, blockTrace_append,
    blockTrace_singleton (tells _).place (tells _).mark]

theorem toNat_position (work : Progress σ) (room : work.blockCount + 1 ≤ UInt32.size) :
    work.position.toNat = work.blockCount := by
  unfold Progress.blockCount at room
  rw [Progress.position, UInt32.toNat_ofNat_of_lt' (by omega), Progress.blockCount]

theorem opened (tracks : Tracks pending earlier work) (block : ContentBlock)
    (event : AssistantMessage → AssistantMessageEvent) (empty : block.row.Holds [])
    (tells : ∀ message, Tells (event message) work.position (.opened block.kind) := by
      exact fun _ => ⟨rfl, rfl, rfl⟩) :
    Tracks ((block.kind, work.position.toNat) :: pending) earlier
      ((work.push block).emit event) where
  inner := @inner_emit σ earlier (work.push block) tracks.inner _ (tells _).inner
  traced := by
    intro room
    rw [Progress.emit_blockCount, Progress.push_blockCount] at room
    have place := toNat_position work room
    have traced := (tracks.traced (by omega)).opened empty
    rw [length_blockRows] at traced
    rw [trace_emit _ tells, Progress.emit_message, Progress.push_content, blockRows_append, place]
    exact traced

theorem piece (tracks : Tracks pending earlier work) {kind : BlockKind}
    {event : AssistantMessage → AssistantMessageEvent}
    (running : (kind, index.toNat) ∈ pending)
    (extended : ∀ block, block.kind = kind → (change block).row = block.row.extend text)
    (tells : ∀ message, Tells (event message) index (.piece kind text) := by
      exact fun _ => ⟨rfl, rfl, rfl⟩) :
    Tracks pending earlier ((work.edit index.toNat change).emit event) where
  inner := @inner_emit σ earlier (work.edit index.toNat change) tracks.inner _ (tells _).inner
  traced := by
    intro room
    rw [Progress.emit_blockCount, Progress.edit_blockCount] at room
    have traced := tracks.traced room
    have known := traced.kinds _ running
    rw [trace_emit _ tells, Progress.emit_message, Progress.edit_content,
      blockRows_modify _ _ fun block read => extended block (by
        rw [blockRows, getElem?_map, read] at known
        exact Option.some.inj known)]
    exact traced.piece running text

theorem rewrite (tracks : Tracks pending earlier work) (p : Nat)
    (same : ∀ block, (change block).row = block.row) :
    Tracks pending earlier (work.edit p change) where
  inner := tracks.inner
  traced := by
    intro room
    rw [Progress.edit_blockCount] at room
    rw [Progress.edit_content, blockRows_modify_same _ p same]
    exact tracks.traced room

theorem closed {kind : BlockKind} {index : UInt32}
    (tracks : Tracks ((kind, index.toNat) :: pending) earlier work)
    (event : AssistantMessage → AssistantMessageEvent)
    (tells : ∀ message, Tells (event message) index (.closed kind) := by
      exact fun _ => ⟨rfl, rfl, rfl⟩) :
    Tracks pending earlier (work.emit event) where
  inner := inner_emit tracks.inner (tells _).inner
  traced := by
    intro room
    rw [trace_emit _ tells]
    exact (tracks.traced room).closed

theorem whole (tracks : Tracks pending earlier work) {block : ContentBlock} {text : String}
    {starts adds ends : AssistantMessage → AssistantMessageEvent}
    (given : ∀ all, block.written? = some all → all = text)
    (first : ∀ message, Tells (starts message) work.position (.opened block.kind) := by
      exact fun _ => ⟨rfl, rfl, rfl⟩)
    (second : ∀ message, Tells (adds message) work.position (.piece block.kind text) := by
      exact fun _ => ⟨rfl, rfl, rfl⟩)
    (third : ∀ message, Tells (ends message) work.position (.closed block.kind) := by
      exact fun _ => ⟨rfl, rfl, rfl⟩) :
    Tracks pending earlier ((((work.push block).emit starts).emit adds).emit ends) where
  inner := by
    have one := @inner_emit σ earlier (work.push block) tracks.inner _ (first _).inner
    have two := inner_emit one (second _).inner
    exact inner_emit two (third _).inner
  traced := by
    intro room
    simp only [Progress.emit_blockCount, Progress.push_blockCount] at room
    have traced := (tracks.traced (by omega)).whole block.kind block.written? given
    rw [length_blockRows] at traced
    have place : work.position.toNat = work.partialMessage.content.length :=
      toNat_position work room
    rw [trace_emit _ third, trace_emit _ second, trace_emit _ first, place]
    simpa only [Progress.emit_message, Progress.push_content, blockRows_append, ContentBlock.row,
      Progress.push, append_assoc, cons_append, nil_append] using traced

theorem part {τ : Type} (tracks : Tracks pending earlier work) (state : τ) :
    Tracks pending earlier (⟨state, work.partialMessage, work.events⟩ : Progress τ) :=
  ⟨tracks.inner, tracks.traced⟩

/-- The whole stream: it is as it should be exactly when no block is left open and
there are no more blocks than positions. -/
theorem faithful_iff (tracks : Tracks pending earlier work) {reason : StopReason}
    {message : AssistantMessage} (same : message.content = work.partialMessage.content) :
    Faithful (earlier ++ work.events ++ [.done reason message]) message ↔
      message.content.length ≤ UInt32.size ∧ pending = [] := by
  rw [faithful_iff_bracketed tracks.inner, same]
  constructor
  · intro bracketed
    have room := length_le_of_bracketed bracketed
    exact ⟨room, (tracks.traced room).bracketed_iff.mp bracketed⟩
  · rintro ⟨room, rfl⟩
    exact (tracks.traced room).bracketed_iff.mpr rfl

end Tracks

end Tracks

namespace SseEventHandler

variable {σ : Type} {handler : SseEventHandler σ}

variable {cancelled : Nat → Bool}
  {Inv : List String → σ → AssistantMessage → List AssistantMessageEvent → Prop}
  (step : ∀ {history data state partialMessage yielded later message events},
    Inv history state partialMessage yielded →
    handler.handleEvent data state partialMessage = .ok (later, message, .continued events) →
    Inv (history ++ [data]) later message (yielded ++ events))
include step

theorem processFrom_yields
    {items : List (Except String Sse.ServerSentEvent)} {poll : Nat} {history : List String}
    {state : σ} {partialMessage : AssistantMessage} {yielded : List AssistantMessageEvent}
    (holds : Inv history state partialMessage yielded) :
    (∃ last before all, Inv (history ++ delivered items) last before all ∧
        yielded ++ handler.processFrom cancelled poll state partialMessage items =
          all ++ handler.finish last before) ∨
      (∃ seen data unseen last before all later final events,
        delivered items = seen ++ data :: unseen ∧ Inv (history ++ seen) last before all ∧
        handler.handleEvent data last before = .ok (later, final, .done events) ∧
        yielded ++ handler.processFrom cancelled poll state partialMessage items = all ++ events) ∨
      ∃ all reason text before,
        yielded ++ handler.processFrom cancelled poll state partialMessage items =
          all ++ [failed reason text before] := by
  induction items generalizing poll history state partialMessage yielded with
  | nil =>
    unfold processFrom
    split
    · exact .inr (.inr ⟨_, _, _, _, rfl⟩)
    · exact .inl ⟨state, partialMessage, yielded, by rwa [delivered, append_nil], rfl⟩
  | cons item rest ih =>
    unfold processFrom
    split
    · exact .inr (.inr ⟨_, _, _, _, rfl⟩)
    · split
      · exact .inr (.inr ⟨_, _, _, _, rfl⟩)
      · rename_i event
        split
        · rename_i last
          refine .inl ⟨state, partialMessage, yielded, ?_, rfl⟩
          simpa only [delivered, last, ↓reduceIte, append_nil] using holds
        · rename_i more
          have whole : delivered (.ok event :: rest) = event.data :: delivered rest := by
            simp [delivered, more]
          split
          · exact .inr (.inr ⟨_, _, _, _, rfl⟩)
          · rename_i later next events answered
            rw [whole, ← append_assoc]
            rcases @ih (poll + 1) _ _ _ _ (step holds answered) with
              ⟨last, before, all, invariant, same⟩ |
              ⟨seen, data, unseen, last, before, all, final, ending, output, split, invariant,
                rest⟩ | failed
            · rw [append_assoc] at invariant
              exact .inl ⟨last, before, all, invariant, same⟩
            · rw [append_assoc] at invariant
              exact .inr (.inl ⟨event.data :: seen, data, unseen, last, before, all, final, ending,
                output, by rw [split]; rfl, invariant, rest⟩)
            · exact .inr (.inr failed)
          · rename_i later next events answered
            exact .inr (.inl ⟨[], event.data, delivered rest, state, partialMessage, yielded,
              later, next, events, whole, by rwa [append_nil], answered, rfl⟩)

theorem processSse_yields
    {body : List (Except String Bytes)} {model : Model} {apiName : String}
    (start : Inv [] handler.initial (startMessage apiName model) [])
    {reason : StopReason} {message : AssistantMessage}
    (ends : (handler.processSse body model cancelled apiName).getLast? =
      some (.done reason message)) :
    (∃ last before all, Inv (delivered (Sse.iterateSse body)) last before all ∧
        handler.processSse body model cancelled apiName = all ++ handler.finish last before ∧
        message = (handler.finalize last before).1) ∨
      ∃ seen data unseen last before all later final events,
        delivered (Sse.iterateSse body) = seen ++ data :: unseen ∧ Inv seen last before all ∧
        handler.handleEvent data last before = .ok (later, final, .done events) ∧
        handler.processSse body model cancelled apiName = all ++ events := by
  unfold processSse at *
  rcases @processFrom_yields _ _ cancelled Inv step _ 0 _ _ _ _ start with
    ⟨last, before, all, holds, same⟩ | ended | ⟨all, why, text, before, same⟩
  · rw [nil_append] at holds same
    refine .inl ⟨last, before, all, holds, same, ?_⟩
    rw [same, getLast?_append_of_ne_nil all (finish_ne_nil last before), finish,
      getLast?_concat] at ends
    cases ends
    rfl
  · exact .inr ended
  · rw [nil_append] at same
    rw [same, getLast?_concat] at ends
    cases ends

end SseEventHandler

namespace ChunkHandler

variable {σ ε : Type} {parse : String → Except String ε} {initial : σ}
  {onChunk : ε → Progress σ → Progress σ}
  {finalize : σ → AssistantMessage → AssistantMessage × List AssistantMessageEvent}

theorem faithful_iff {slots : σ → List (BlockKind × Nat)} (start : slots initial = [])
    (step : ∀ {chunk earlier} {work : Progress σ}, Tracks (slots work.state) earlier work →
      Tracks (slots (onChunk chunk work).state) earlier (onChunk chunk work))
    (finish : ∀ {earlier state partialMessage},
      Tracks (slots state) earlier (⟨state, partialMessage, []⟩ : Progress σ) →
      Tracks [] (earlier ++ (finalize state partialMessage).2)
        (⟨state, (finalize state partialMessage).1, []⟩ : Progress σ))
    {body : List (Except String Bytes)} {model : Model} {cancelled : Nat → Bool} {apiName : String}
    {reason : StopReason} {message : AssistantMessage}
    (ends : ((chunkHandler parse initial onChunk finalize).processSse body model cancelled
      apiName).getLast? = some (.done reason message)) :
    Faithful ((chunkHandler parse initial onChunk finalize).processSse body model cancelled
        apiName) message ↔ message.content.length ≤ UInt32.size := by
  have handled : ∀ {history : List String} {data state partialMessage yielded later message events},
      Tracks (slots state) yielded (⟨state, partialMessage, []⟩ : Progress σ) →
      (chunkHandler parse initial onChunk finalize).handleEvent data state partialMessage =
        .ok (later, message, .continued events) →
      Tracks (slots later) (yielded ++ events) (⟨later, message, []⟩ : Progress σ) := by
    intro history data state partialMessage yielded later message events tracks answered
    simp only [chunkHandler, Progress.continued] at answered
    split at answered
    · cases answered
    · cases answered
      exact (step tracks).next
  have initially : Tracks (slots initial) []
      (⟨initial, startMessage apiName model, []⟩ : Progress σ) := by
    rw [start]
    exact Tracks.initial rfl
  have yields := @SseEventHandler.processSse_yields σ _ cancelled
    (fun _ state partialMessage yielded =>
      Tracks (slots state) yielded (⟨state, partialMessage, []⟩ : Progress σ)) (@handled)
  rcases yields initially ends with
    ⟨last, before, all, tracks, whole, rfl⟩ | ⟨_, _, _, _, _, _, _, _, _, _, _, answered, _⟩
  · have done := @Tracks.faithful_iff _ _ _ _ (finish tracks) (finalize last before).1.stopReason
      (finalize last before).1 rfl
    rw [whole, SseEventHandler.finish, ← append_assoc]
    simpa only [chunkHandler, append_nil, and_true] using done
  · simp only [chunkHandler, Progress.continued] at answered
    split at answered <;> cases answered

end ChunkHandler

end PiRust
