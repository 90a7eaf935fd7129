import PiRust.AnthropicBlocks
import PiRust.AnthropicRequest
import PiRust.SseChunks

/- A conversation that goes on over `providers/anthropic`: what the blocks of a
response say on the wire, and what the next request says of them. -/
namespace PiRust.Anthropic

open List

structure WireBlock where
  start : ContentBlockStart
  deltas : List ContentBlockDelta

def deltasFor (index : UInt32) : List StreamEvent → List ContentBlockDelta
  | [] => []
  | .contentBlockStart other _ :: rest => if other = index then [] else deltasFor index rest
  | .contentBlockDelta other delta :: rest =>
    if other = index then delta :: deltasFor index rest else deltasFor index rest
  | _ :: rest => deltasFor index rest

def wireBlocks : List StreamEvent → List WireBlock
  | [] => []
  | .contentBlockStart index start :: rest => ⟨start, deltasFor index rest⟩ :: wireBlocks rest
  | _ :: rest => wireBlocks rest

/-- The texts of the deltas of a kind. -/
def pieces (kind : BlockKind) (deltas : List ContentBlockDelta) : List String :=
  ofKind kind (deltas.filterMap ContentBlockDelta.piece?)

def WireBlock.written (block : WireBlock) : String :=
  String.join (pieces block.start.kind block.deltas)

def ContentBlockDelta.signature? : ContentBlockDelta → Option String
  | .signatureDelta signature => some signature
  | _ => none

def WireBlock.signature? (block : WireBlock) : Option String :=
  (block.deltas.filterMap ContentBlockDelta.signature?).getLast?

variable (serde : Serde)

def Carries (block : WireBlock) (value : Value) : Prop :=
  match block.start with
  | .text given =>
    value.get "type" = some (.string "text") ∧
      value.get "text" = some (.string (given ++ block.written))
  | .thinking given =>
    value.get "type" = some (.string "thinking") ∧
      value.get "thinking" = some (.string (given ++ block.written)) ∧
      value.get "signature" = block.signature?.map .string
  | .redactedThinking data =>
    value.get "type" = some (.string "redacted_thinking") ∧
      value.get "data" = some (.string data)
  | .toolUse id name =>
    value.get "type" = some (.string "tool_use") ∧ value.get "id" = some (.string id) ∧
      value.get "name" = some (.string name) ∧
      value.get "input" = some (parseStreamingJson serde block.written)

def Answer.Carried (answer : Answer) (value : Value) : Prop :=
  value.get "type" = some (.string "tool_result") ∧
    value.get "tool_use_id" = some (.string answer.toolCallId) ∧
    (value.get "is_error" = some (.bool true) ↔ answer.isError = some true)

/-- A request has the response at a place, and after it what the tools answered. -/
structure Replays (blocks : List WireBlock) (answers : List Answer)
    (request : List RequestMessage) (place : Nat) : Prop where
  response : ∃ values, request[place]? = some ⟨"assistant", .array values⟩ ∧
    Forall₂ (Carries serde) blocks values
  results : answers ≠ [] → ∃ values more,
    request[place + 1]? = some ⟨"user", .array (values ++ more)⟩ ∧
      Forall₂ Answer.Carried answers values

/-- The block has nothing that a request cannot say. -/
def WireBlock.Kept (block : WireBlock) : Prop :=
  match block.start with
  | .text _ => True
  | .thinking _ => block.signature? = none
  | .redactedThinking _ => False
  | .toolUse id _ => ValidToolCallId id

def Answer.Kept (answer : Answer) : Prop :=
  ValidToolCallId answer.toolCallId ∧ answer.isError ≠ some true

def Kept (blocks : List WireBlock) (answers : List Answer) : Prop :=
  (∀ block ∈ blocks, block.Kept) ∧ ∀ answer ∈ answers, answer.Kept

/-- What has been written into a block: the text of its deltas, of a tool call the
argument text as it was held. -/
structure Reached where
  start : ContentBlockStart
  text : String

def Reached.add (held : String) (piece : BlockKind × String) (reached : Reached) : Reached :=
  if reached.start.kind = piece.1 then
    { reached with text := if piece.1 = .toolCall then held else reached.text ++ piece.2 }
  else reached

/-- Where the deltas of a response go: to the block at the position that the block
started last names. -/
structure Route where
  position : Nat := 0
  held : String := ""
  blocks : List Reached := []

def Route.start (route : Route) (index : UInt32) (start : ContentBlockStart) : Route where
  position := index.toNat
  held := if start.kind = .toolCall then "" else route.held
  blocks := route.blocks ++ [⟨start, ""⟩]

def Route.piece (route : Route) (piece : BlockKind × String) : Route :=
  let held := if piece.1 = .toolCall then route.held ++ piece.2 else route.held
  { route with held, blocks := route.blocks.modify route.position (Reached.add held piece) }

def Route.step (route : Route) : StreamEvent → Route
  | .contentBlockStart index start => route.start index start
  | .contentBlockDelta _ delta =>
    match delta.piece? with
    | some piece => route.piece piece
    | none => route
  | _ => route

def route (events : List StreamEvent) : Route := events.foldl Route.step {}

/-- What reaches a block comes to the same as the deltas that name it. -/
def Reached.Agrees (reached : Reached) (block : WireBlock) : Prop :=
  match block.start with
  | .text _ | .thinking _ => reached.text = block.written
  | .redactedThinking _ => True
  | .toolUse _ _ => parseStreamingJson serde reached.text = parseStreamingJson serde block.written

def Routed (events : List StreamEvent) : Prop :=
  Forall₂ (Reached.Agrees serde) (route events).blocks (wireBlocks events)

/-- After that many blocks, a block start carries the next position, and a delta names
the block that was started last. -/
def InPlace : Nat → List StreamEvent → Prop
  | _, [] => True
  | blocks, .contentBlockStart index _ :: rest => index.toNat = blocks ∧ InPlace (blocks + 1) rest
  | blocks, .contentBlockDelta index _ :: rest => index.toNat + 1 = blocks ∧ InPlace blocks rest
  | blocks, _ :: rest => InPlace blocks rest

section InPlace

def WireBlock.reached (block : WireBlock) : Reached := ⟨block.start, block.written⟩

def Reached.extend (reached : Reached) (deltas : List ContentBlockDelta) : Reached :=
  { reached with text := reached.text ++ String.join (pieces reached.start.kind deltas) }

theorem Reached.extend_nil (reached : Reached) : reached.extend [] = reached := by
  cases reached
  simp [extend, pieces]

theorem Reached.extend_cons (reached : Reached) (delta : ContentBlockDelta)
    (deltas : List ContentBlockDelta) :
    reached.extend (delta :: deltas) = (reached.extend [delta]).extend deltas := by
  have split : pieces reached.start.kind (delta :: deltas) =
      pieces reached.start.kind [delta] ++ pieces reached.start.kind deltas := by
    simp [pieces, ← filterMap_append]
  simp [extend, split, String.join_append, String.append_assoc]

theorem Reached.add_eq_extend {reached : Reached} {held : String}
    (holds : reached.start.kind = .toolCall → reached.text = held) {delta : ContentBlockDelta}
    {piece : BlockKind × String} (given : delta.piece? = some piece) :
    reached.add (if piece.1 = .toolCall then held ++ piece.2 else held) piece =
      reached.extend [delta] := by
  unfold add extend pieces ofKind
  rw [filterMap_cons_some given, filterMap_nil, filterMap_cons, filterMap_nil]
  by_cases kind : reached.start.kind = piece.1
  · rw [if_pos kind, if_pos kind.symm]
    by_cases call : piece.1 = .toolCall
    · rw [if_pos call, if_pos call, holds (kind.trans call)]
      simp [String.join]
    · rw [if_neg call]
      simp [String.join]
  · rw [if_neg kind, if_neg fun same => kind same.symm]
    simp [String.join]

variable {events : List StreamEvent}

theorem deltasFor_eq_nil {blocks : Nat} (inPlace : InPlace blocks events) {index : UInt32}
    (passed : index.toNat + 1 < blocks) : deltasFor index events = [] := by
  induction events generalizing blocks with
  | nil => rfl
  | cons event rest ih =>
    cases event with
    | contentBlockStart other start =>
      unfold deltasFor
      split
      · rfl
      · exact ih inPlace.2 (by omega)
    | contentBlockDelta other delta =>
      have apart : other ≠ index := by
        rintro rfl
        have here := inPlace.1
        omega
      unfold deltasFor
      rw [if_neg apart]
      exact ih inPlace.2 passed
    | messageStart => exact ih inPlace passed
    | contentBlockStop => exact ih inPlace passed
    | messageDelta => exact ih inPlace passed
    | messageStop => exact ih inPlace passed
    | ping => exact ih inPlace passed

theorem blocks_foldl_step {events : List StreamEvent} {index : UInt32} {route : Route}
    {front : List Reached} {last : Reached} (blocks : route.blocks = front ++ [last])
    (position : route.position = front.length) (same : index.toNat = front.length)
    (holds : last.start.kind = .toolCall → last.text = route.held)
    (inPlace : InPlace (front.length + 1) events) :
    (events.foldl Route.step route).blocks =
      front ++ last.extend (deltasFor index events) :: (wireBlocks events).map WireBlock.reached := by
  induction events generalizing index route front last with
  | nil => rw [deltasFor, Reached.extend_nil]; exact blocks
  | cons event rest ih =>
    rw [foldl_cons]
    cases event with
    | contentBlockStart other start =>
      have apart : other ≠ index := by
        rintro rfl
        have here := inPlace.1
        omega
      have next : other.toNat = (front ++ [last]).length := by
        rw [length_append, length_singleton, inPlace.1]
      have passed : deltasFor index rest = [] := by
        apply deltasFor_eq_nil inPlace.2
        omega
      have opened := @ih other (route.start other start) (front ++ [last]) ⟨start, ""⟩
        (by rw [Route.start, blocks]) next next
        (fun call => by simp [Route.start, call])
        (by rw [← next, inPlace.1]; exact inPlace.2)
      rw [deltasFor, if_neg apart, passed, Reached.extend_nil]
      refine opened.trans ?_
      rw [append_assoc, singleton_append, wireBlocks, map_cons]
      simp [Reached.extend, WireBlock.reached, WireBlock.written]
    | contentBlockDelta other delta =>
      have here : other = index := by
        apply UInt32.toNat_inj.mp
        have named := inPlace.1
        omega
      have blocks_after : wireBlocks (.contentBlockDelta other delta :: rest) =
          wireBlocks rest := rfl
      rw [deltasFor, if_pos here, Reached.extend_cons, blocks_after]
      cases given : delta.piece? with
      | none =>
        have nothing : last.extend [delta] = last := by
          simp [Reached.extend, pieces, given]
        rw [nothing, Route.step, given]
        exact ih blocks position same holds inPlace.2
      | some piece =>
        rw [Route.step, given]
        apply @ih index (route.piece piece) front (last.extend [delta]) ?_ position same ?_
          inPlace.2
        · rw [Route.piece, blocks, position, Lanes.modify_last, Reached.add_eq_extend holds given]
        · intro call
          rw [← Reached.add_eq_extend holds given, Reached.add, Route.piece]
          by_cases kind : last.start.kind = piece.1
          · have json : piece.1 = .toolCall := kind.symm.trans call
            simp [kind, json]
          · have other : piece.1 ≠ .toolCall := fun json => kind (call.trans json.symm)
            simp only [kind, other, ↓reduceIte]
            exact holds call
    | messageStart | contentBlockStop | messageDelta => exact ih blocks position same holds inPlace
    | messageStop | ping => exact ih blocks position same holds inPlace

theorem route_inPlace (inPlace : InPlace 0 events) :
    (route events).blocks = (wireBlocks events).map WireBlock.reached := by
  have from_empty : ∀ {route : Route}, route.blocks = [] →
      (events.foldl Route.step route).blocks = (wireBlocks events).map WireBlock.reached := by
    induction events with
    | nil => intro route empty; exact empty
    | cons event rest ih =>
      intro route empty
      cases event with
      | contentBlockStart index start =>
        have opened := @blocks_foldl_step rest index (route.start index start) [] ⟨start, ""⟩
          (by rw [Route.start, empty]) inPlace.1 inPlace.1
          (fun call => by simp [Route.start, call]) inPlace.2
        refine opened.trans ?_
        rw [nil_append, wireBlocks, map_cons]
        simp [Reached.extend, WireBlock.reached, WireBlock.written]
      | contentBlockDelta index delta => cases inPlace.1
      | messageStart => exact ih inPlace empty
      | contentBlockStop => exact ih inPlace empty
      | messageDelta => exact ih inPlace empty
      | messageStop => exact ih inPlace empty
      | ping => exact ih inPlace empty
  exact from_empty rfl

theorem routed_inPlace (inPlace : InPlace 0 events) : Routed serde events := by
  rw [Routed, route_inPlace inPlace, forall₂_map_left_iff, forall₂_same]
  intro block _
  unfold Reached.Agrees WireBlock.reached
  split
  · rfl
  · rfl
  · trivial
  · rfl

end InPlace

section Decoding

/-- A block and the texts that reached it. -/
inductive Decoded : ContentBlock → Reached → Prop
  | text (given text : String) (signature : Option String) :
      Decoded (.text (given ++ text) signature) ⟨.text given, text⟩
  | thinking (given text : String) (signature : Option String) :
      Decoded (.thinking (given ++ text) signature none) ⟨.thinking given, text⟩
  | redactedThinking (data text : String) (signature : Option String) :
      Decoded (.thinking text signature (some true)) ⟨.redactedThinking data, text⟩
  | toolUse (id name text : String) (signature : Option String) :
      Decoded (.toolCall id name (parseStreamingJson serde text) signature) ⟨.toolUse id name, text⟩

variable {serde}

theorem decoded_start (start : ContentBlockStart) : Decoded serde start.block ⟨start, ""⟩ := by
  cases start with
  | text given =>
    have opened := @Decoded.text serde given "" none
    rwa [String.append_empty] at opened
  | thinking given =>
    have opened := @Decoded.thinking serde given "" none
    rwa [String.append_empty] at opened
  | redactedThinking data => exact .redactedThinking data "" none
  | toolUse id name =>
    have opened := @Decoded.toolUse serde id name "" none
    rwa [parseStreamingJson_empty] at opened

section Edits

variable {block : ContentBlock} {reached : Reached} (decoded : Decoded serde block reached)
include decoded

theorem Decoded.pushText (held text : String) :
    Decoded serde (block.pushText text) (reached.add held (.text, text)) := by
  cases decoded with
  | text given before signature =>
    rw [ContentBlock.pushText, String.append_assoc]
    exact .text given (before ++ text) signature
  | thinking given before signature => exact .thinking given before signature
  | redactedThinking data before signature => exact .redactedThinking data before signature
  | toolUse id name before signature => exact .toolUse id name before signature

theorem Decoded.pushThinking (held text : String) :
    Decoded serde (block.pushThinking text) (reached.add held (.thinking, text)) := by
  cases decoded with
  | text given before signature => exact .text given before signature
  | thinking given before signature =>
    rw [ContentBlock.pushThinking, String.append_assoc]
    exact .thinking given (before ++ text) signature
  | redactedThinking data before signature =>
    exact .redactedThinking data (before ++ text) signature
  | toolUse id name before signature => exact .toolUse id name before signature

theorem Decoded.setArguments (held text : String) :
    Decoded serde (block.setArguments (parseStreamingJson serde held))
      (reached.add held (.toolCall, text)) := by
  cases decoded with
  | text given before signature => exact .text given before signature
  | thinking given before signature => exact .thinking given before signature
  | redactedThinking data before signature => exact .redactedThinking data before signature
  | toolUse id name before signature => exact .toolUse id name held signature

variable (signature : Option String)

theorem Decoded.setTextSignature : Decoded serde (block.setTextSignature signature) reached := by
  cases decoded with
  | text given before => exact .text given before signature
  | thinking given before old => exact .thinking given before old
  | redactedThinking data before old => exact .redactedThinking data before old
  | toolUse id name before old => exact .toolUse id name before old

theorem Decoded.setThinkingSignature :
    Decoded serde (block.setThinkingSignature signature) reached := by
  cases decoded with
  | text given before old => exact .text given before old
  | thinking given before => exact .thinking given before signature
  | redactedThinking data before => exact .redactedThinking data before signature
  | toolUse id name before old => exact .toolUse id name before old

theorem Decoded.setThoughtSignature :
    Decoded serde (block.setThoughtSignature signature) reached := by
  cases decoded with
  | text given before old => exact .text given before old
  | thinking given before old => exact .thinking given before old
  | redactedThinking data before old => exact .redactedThinking data before old
  | toolUse id name before => exact .toolUse id name before signature

end Edits

theorem forall₂_modify {α β : Type} {related : α → β → Prop} {change : α → α} {other : β → β}
    (kept : ∀ {x y}, related x y → related (change x) (other y)) {xs : List α} {ys : List β}
    (all : Forall₂ related xs ys) (position : Nat) :
    Forall₂ related (xs.modify position change) (ys.modify position other) := by
  induction all generalizing position with
  | nil => rw [modify_nil, modify_nil]; exact .nil
  | cons first rest ih =>
    cases position with
    | zero => exact .cons (kept first) rest
    | succ position => exact .cons first (ih position)

variable (serde) in
/-- The work that follows a route. -/
structure Writes (work : Work) (route : Route) : Prop where
  position : work.state.blockIndex.toNat = route.position
  held : work.state.accumulatedToolArgs = route.held
  blocks : Forall₂ (Decoded serde) work.partialMessage.content route.blocks

namespace Writes

variable {work : Work} {route : Route} (writes : Writes serde work route)
include writes

theorem start (index : UInt32) (start : ContentBlockStart) :
    Writes serde (onContentBlockStart index start work) (route.start index start) := by
  have opened : Writes serde
      ((work.withState (startState index start work.state)).push start.block)
      (route.start index start) := by
    constructor
    · cases start <;> rfl
    · cases start with
      | toolUse id name => rfl
      | _ => exact writes.held
    · exact rel_append writes.blocks (.cons (decoded_start start) .nil)
  unfold onContentBlockStart emitStart
  dsimp only
  split
  · split <;> exact ⟨opened.position, opened.held, opened.blocks⟩
  · split <;> exact ⟨opened.position, opened.held, opened.blocks⟩
  · exact ⟨opened.position, opened.held, opened.blocks⟩
  · exact ⟨opened.position, opened.held, opened.blocks⟩

theorem modify {change : ContentBlock → ContentBlock} {other : Reached → Reached}
    (kept : ∀ {block reached}, Decoded serde block reached →
      Decoded serde (change block) (other reached)) :
    Forall₂ (Decoded serde)
      (work.partialMessage.content.modify work.state.blockIndex.toNat change)
      (route.blocks.modify route.position other) := by
  rw [writes.position]
  exact forall₂_modify kept writes.blocks route.position

theorem delta (delta : ContentBlockDelta) (index : UInt32) :
    Writes serde (onContentBlockDelta serde delta work)
      (route.step (.contentBlockDelta index delta)) := by
  cases delta with
  | textDelta text =>
    exact ⟨writes.position, writes.held, writes.modify fun decoded => decoded.pushText _ text⟩
  | thinkingDelta thinking =>
    exact ⟨writes.position, writes.held,
      writes.modify fun decoded => decoded.pushThinking _ thinking⟩
  | signatureDelta signature =>
    have same : ∀ state : AnthropicHandler, state.blockIndex = work.state.blockIndex →
        state.accumulatedToolArgs = work.state.accumulatedToolArgs →
        Writes serde (work.withState state) route := by
      intro state index held
      exact ⟨by rw [← writes.position, ← index]; rfl, held.trans writes.held, writes.blocks⟩
    unfold onContentBlockDelta onSignatureDelta
    dsimp only
    split
    · exact same _ rfl rfl
    · exact same _ rfl rfl
    · exact same _ rfl rfl
  | inputJsonDelta partialJson =>
    have held : work.state.accumulatedToolArgs ++ partialJson = route.held ++ partialJson :=
      congrArg (· ++ partialJson) writes.held
    refine ⟨writes.position, held, writes.modify fun decoded => ?_⟩
    rw [Progress.withState_state, held]
    exact decoded.setArguments _ partialJson

theorem stop : Writes serde (onContentBlockStop work) route := by
  have signed : ∀ {change : ContentBlock → ContentBlock},
      (∀ {block reached}, Decoded serde block reached → Decoded serde (change block) reached) →
      Forall₂ (Decoded serde)
        (work.partialMessage.content.modify work.state.blockIndex.toNat change) route.blocks := by
    intro change kept
    have same := @forall₂_modify _ _ _ change id kept _ _ writes.blocks work.state.blockIndex.toNat
    rwa [modify_id] at same
  unfold onContentBlockStop endBlock
  dsimp only
  split
  · split
    · exact ⟨writes.position, writes.held, signed fun decoded => decoded.setTextSignature _⟩
    · exact ⟨writes.position, writes.held, writes.blocks⟩
  · split
    · exact ⟨writes.position, writes.held, signed fun decoded => decoded.setThinkingSignature _⟩
    · exact ⟨writes.position, writes.held, writes.blocks⟩
  · split
    · exact ⟨writes.position, writes.held, signed fun decoded => decoded.setThoughtSignature _⟩
    · exact ⟨writes.position, writes.held, writes.blocks⟩
  · exact ⟨writes.position, writes.held, writes.blocks⟩

theorem step (event : StreamEvent) :
    Writes serde (onEvent serde event work) (route.step event) := by
  cases event with
  | messageStart message =>
    unfold onEvent onMessageStart
    dsimp only
    split <;> exact ⟨writes.position, writes.held, writes.blocks⟩
  | contentBlockStart index start => exact writes.start index start
  | contentBlockDelta index delta => exact writes.delta delta index
  | contentBlockStop index => exact writes.stop
  | messageDelta stopReason usage => exact ⟨writes.position, writes.held, writes.blocks⟩
  | messageStop | ping => exact ⟨writes.position, writes.held, writes.blocks⟩

end Writes

end Decoding

section Requests

variable {serde}

theorem carries_convertBlock_iff {block : ContentBlock} {reached : Reached} {wire : WireBlock}
    (decoded : Decoded serde block reached) (same : reached.start = wire.start) :
    Carries serde wire (convertBlock block) ↔ wire.Kept ∧ reached.Agrees serde wire := by
  obtain ⟨start, deltas⟩ := wire
  cases decoded with
  | text given text signature =>
    cases same
    simp [Carries, WireBlock.Kept, Reached.Agrees, convertBlock, Value.get]
  | thinking given text signature =>
    cases same
    simp [Carries, WireBlock.Kept, Reached.Agrees, convertBlock, Value.get, and_comm,
      eq_comm (a := none)]
  | redactedThinking data text signature =>
    cases same
    simp [Carries, WireBlock.Kept, convertBlock, Value.get]
  | toolUse id name text signature =>
    cases same
    simp [Carries, WireBlock.Kept, Reached.Agrees, convertBlock, Value.get,
      normalizeToolCallId_eq_self_iff]

theorem forall₂_carries_iff {content : List ContentBlock} {reached : List Reached}
    {blocks : List WireBlock} (decoded : Forall₂ (Decoded serde) content reached)
    (same : reached.map Reached.start = blocks.map WireBlock.start) :
    Forall₂ (Carries serde) blocks (content.map convertBlock) ↔
      (∀ block ∈ blocks, block.Kept) ∧ Forall₂ (Reached.Agrees serde) reached blocks := by
  induction decoded generalizing blocks with
  | nil =>
    cases blocks with
    | nil => simp
    | cons => cases same
  | cons first _ ih =>
    cases blocks with
    | nil => cases same
    | cons block rest =>
      obtain ⟨here, there⟩ := cons.inj same
      rw [map_cons, forall₂_cons, forall₂_cons, ih there,
        carries_convertBlock_iff first here, forall_mem_cons]
      exact and_and_and_comm

theorem carried_value_iff (answer : Answer) : answer.Carried answer.value ↔ answer.Kept := by
  simp [Answer.Carried, Answer.Kept, Answer.value, toolResultContent, Value.get,
    normalizeToolCallId_eq_self_iff]

theorem replays_iff (blocks : List WireBlock) (answers : List Answer)
    (content : List ContentBlock) (earlier later : List Message) :
    Replays serde blocks answers
        (convertMessages (earlier ++ .assistant content :: (answers.map Answer.message ++ later)))
        (convertMessages earlier).length ↔
      Forall₂ (Carries serde) blocks (content.map convertBlock) ∧
        ∀ answer ∈ answers, answer.Kept := by
  rw [convertMessages_assistant]
  have here : ∀ rest : List RequestMessage, (convertMessages earlier ++
      ⟨"assistant", convertContent content⟩ :: rest)[(convertMessages earlier).length]? =
        some ⟨"assistant", convertContent content⟩ := by
    intro rest
    rw [getElem?_append_right (Nat.le_refl _), Nat.sub_self]
    rfl
  have next : ∀ rest : List RequestMessage, (convertMessages earlier ++
      ⟨"assistant", convertContent content⟩ :: rest)[(convertMessages earlier).length + 1]? =
        rest[0]? := by
    intro rest
    rw [getElem?_append_right (Nat.le_add_right _ 1), Nat.add_sub_cancel_left]
    rfl
  constructor
  · rintro ⟨⟨values, found, carried⟩, results⟩
    rw [here] at found
    cases found
    refine ⟨carried, ?_⟩
    cases answers with
    | nil => exact forall_mem_nil _
    | cons first rest =>
      obtain ⟨values, more, found, carried⟩ := results (cons_ne_nil _ _)
      obtain ⟨others, after, whole⟩ := convertMessages_answers first rest later
      rw [next, whole] at found
      have contents := congrArg RequestMessage.content (Option.some.inj found)
      have long : ((first :: rest).map Answer.value).length = values.length := by
        rw [length_map, carried.length_eq]
      have given := (append_inj (Value.array.inj contents) long).1
      rw [← given, forall₂_map_right_iff, forall₂_same] at carried
      exact fun answer member => (carried_value_iff answer).mp (carried answer member)
  · rintro ⟨carried, kept⟩
    refine ⟨⟨_, here _, carried⟩, fun filled => ?_⟩
    cases answers with
    | nil => exact absurd rfl filled
    | cons first rest =>
      obtain ⟨others, after, whole⟩ := convertMessages_answers first rest later
      refine ⟨(first :: rest).map Answer.value, others, ?_, ?_⟩
      · rw [next, whole]
        rfl
      · rw [forall₂_map_right_iff, forall₂_same]
        exact fun answer member => (carried_value_iff answer).mpr (kept answer member)

end Requests

section Runs

variable {serde} {parse : String → Except String StreamEvent}

theorem route_append (events : List StreamEvent) (event : StreamEvent) :
    route (events ++ [event]) = (route events).step event := by
  rw [route, foldl_append]
  rfl

theorem Reached.add_start (reached : Reached) (held : String) (piece : BlockKind × String) :
    (reached.add held piece).start = reached.start := by
  unfold add
  split <;> rfl

theorem starts_modify (blocks : List Reached) (position : Nat) {change : Reached → Reached}
    (same : ∀ reached, (change reached).start = reached.start) :
    (blocks.modify position change).map Reached.start = blocks.map Reached.start := by
  apply ext_getElem?
  intro place
  rw [getElem?_map, getElem?_map, getElem?_modify]
  cases blocks[place]? with
  | none => rfl
  | some reached =>
    change some (if position = place then change reached else reached).start = _
    split
    · exact congrArg some (same reached)
    · rfl

theorem route_starts (events : List StreamEvent) :
    (route events).blocks.map Reached.start = (wireBlocks events).map WireBlock.start := by
  have added : ∀ route : Route, (events.foldl Route.step route).blocks.map Reached.start =
      route.blocks.map Reached.start ++ (wireBlocks events).map WireBlock.start := by
    induction events with
    | nil => intro route; rw [wireBlocks, map_nil, append_nil]; rfl
    | cons event rest ih =>
      intro route
      rw [foldl_cons, ih]
      cases event with
      | contentBlockStart index start =>
        rw [Route.step, Route.start, map_append, append_assoc]
        rfl
      | contentBlockDelta index delta =>
        rw [Route.step]
        cases delta.piece? with
        | none => rfl
        | some piece =>
          exact congrArg (· ++ _)
            (starts_modify _ route.position fun reached => reached.add_start _ piece)
      | messageStart => rfl
      | contentBlockStop => rfl
      | messageDelta => rfl
      | messageStop => rfl
      | ping => rfl
  exact added {}

def Writing (serde : Serde) (parse : String → Except String StreamEvent) (history : List String)
    (state : AnthropicHandler) (partialMessage : AssistantMessage) : Prop :=
  (∀ event ∈ wireEvents parse history, event.isStop = false) ∧
    Writes serde ⟨state, partialMessage, []⟩ (route (wireEvents parse history))

theorem process_decoded {body : List (Except String Bytes)} {model : Model}
    {cancelled : Nat → Bool} {apiName : String} {reason : StopReason} {message : AssistantMessage}
    (ends : ((handler serde parse).processSse body model cancelled apiName).getLast? =
      some (.done reason message)) :
    Forall₂ (Decoded serde) message.content
      (route (handled (wireEvents parse (delivered (Sse.iterateSse body))))).blocks := by
  have step : ∀ {history data state partialMessage later message events},
      Writing serde parse history state partialMessage →
      (handler serde parse).handleEvent data state partialMessage =
        .ok (later, message, .continued events) →
      Writing serde parse (history ++ [data]) later message := by
    rintro history data state partialMessage later message events ⟨running, writes⟩ answered
    obtain ⟨event, parsed, goes_on, same⟩ := handleEvent_continued answered
    refine ⟨running_append running parsed goes_on, ?_⟩
    have written := writes.step event
    rw [same] at written
    rw [wireEvents_append parsed, route_append]
    exact ⟨written.position, written.held, written.blocks⟩
  have start : Writing serde parse [] (handler serde parse).initial (startMessage apiName model) :=
    ⟨forall_mem_nil _, ⟨rfl, rfl, .nil⟩⟩
  rcases SseEventHandler.processFrom_done step handler_closes start ends with
    ⟨last, before, ⟨running, writes⟩, rfl, _⟩ |
      ⟨seen, data, unseen, last, before, later, final, events, whole, ⟨running, writes⟩, answered,
        output⟩
  · have whole : handled (wireEvents parse (delivered (Sse.iterateSse body))) =
        wireEvents parse (delivered (Sse.iterateSse body)) := handled_all running
    rw [whole]
    exact writes.blocks
  · obtain ⟨stopped, finished⟩ := handleEvent_done answered
    cases finished
    obtain ⟨_, rfl⟩ := AssistantMessageEvent.done.inj (Option.some.inj output)
    rw [whole, @handled_stopped _ _ seen running stopped]
    exact writes.blocks

/-- The events of a response that count. -/
def received (parse : String → Except String StreamEvent) (body : List (Except String Bytes)) :
    List StreamEvent :=
  handled (wireEvents parse (delivered (Sse.iterateSse body)))

/-- All blocks and results come back exactly when a request can say them and the deltas
have reached the blocks that they name, as they do in a response whose indices count
its blocks. -/
theorem process_replays_iff (serde : Serde) (parse : String → Except String StreamEvent)
    (body : List (Except String Bytes)) (model : Model) (cancelled : Nat → Bool)
    (apiName : String) (reason : StopReason) (message : AssistantMessage)
    (ends : ((handler serde parse).processSse body model cancelled apiName).getLast? =
      some (.done reason message))
    (earlier : List Message) (answers : List Answer) (later : List Message) :
    (Replays serde (wireBlocks (received parse body)) answers
        (convertMessages
          (earlier ++ .assistant message.content :: (answers.map Answer.message ++ later)))
        (convertMessages earlier).length ↔
      Kept (wireBlocks (received parse body)) answers ∧ Routed serde (received parse body)) ∧
    (InPlace 0 (received parse body) → Routed serde (received parse body)) := by
  refine ⟨?_, routed_inPlace serde⟩
  have decoded : Forall₂ (Decoded serde) message.content
      (route (received parse body)).blocks := process_decoded ends
  rw [replays_iff, forall₂_carries_iff decoded (route_starts _)]
  constructor
  · rintro ⟨⟨blocks, routed⟩, results⟩
    exact ⟨⟨blocks, results⟩, routed⟩
  · rintro ⟨⟨blocks, results⟩, routed⟩
    exact ⟨⟨blocks, routed⟩, results⟩

end Runs

section Signed

theorem delivered_data {texts : List String} (data : ∀ text ∈ texts, text ≠ "[DONE]") :
    delivered (texts.map fun text => .ok ⟨none, text⟩) = texts := by
  induction texts with
  | nil => rfl
  | cons text rest ih =>
    rw [map_cons, delivered, if_neg (data text mem_cons_self),
      ih fun other member => data other (mem_cons_of_mem text member)]

def signedLines : List (String × StreamEvent) :=
  [("\x7b\"type\":\"content_block_start\",\"index\":0,\"content_block\":" ++
      "\x7b\"type\":\"thinking\",\"thinking\":\"\"\x7d\x7d",
    .contentBlockStart 0 (.thinking "")),
   ("\x7b\"type\":\"content_block_delta\",\"index\":0,\"delta\":" ++
      "\x7b\"type\":\"signature_delta\",\"signature\":\"c2ln\"\x7d\x7d",
    .contentBlockDelta 0 (.signatureDelta "c2ln")),
   ("\x7b\"type\":\"content_block_stop\",\"index\":0\x7d", .contentBlockStop 0)]

def stopText : String := "\x7b\"type\":\"message_stop\"\x7d"

def parseSigned (data : String) : Except String StreamEvent :=
  match (signedLines ++ [(stopText, StreamEvent.messageStop)]).find? fun line => line.1 = data with
  | some line => .ok line.2
  | none => .error "unknown event"

def signedTexts : List String := signedLines.map Prod.fst ++ [stopText]

def signedBody : List (Except String Bytes) :=
  signedTexts.map fun text => .ok (asciiBytes ("data: " ++ text) ++ [Sse.newline, Sse.newline])

def signedModel : Model := { id := "m", provider := "anthropic", contextWindow := 8192 }

theorem iterateSse_signed :
    Sse.iterateSse signedBody = signedTexts.map fun text => .ok ⟨none, text⟩ := by
  have printable : ∀ text ∈ signedTexts, Printable text := by
    simp only [signedTexts, signedLines, stopText, map_cons, map_nil, cons_append,
      nil_append, forall_mem_cons]
    exact ⟨printable_append (printable_ofList rfl) (printable_ofList rfl),
      printable_append (printable_ofList rfl) (printable_ofList rfl), printable_ofList rfl,
      printable_ofList rfl, nofun⟩
  exact Sse.iterateSse_dataLines printable

theorem signed_data : ∀ text ∈ signedTexts, text ≠ "[DONE]" := by
  simp only [signedTexts, signedLines, stopText, map_cons, map_nil, cons_append,
    nil_append, forall_mem_cons]
  have apart : '\x7b' ≠ '[' := by decide
  exact ⟨ofList_append_ne apart _ _ _, ofList_append_ne apart _ _ _, ofList_ne apart _ _,
    ofList_ne apart _ _, nofun⟩

theorem received_signed : received parseSigned signedBody =
    [.contentBlockStart 0 (.thinking ""), .contentBlockDelta 0 (.signatureDelta "c2ln"),
      .contentBlockStop 0] := by
  have data : delivered (Sse.iterateSse signedBody) = signedTexts := by
    rw [iterateSse_signed, delivered_data signed_data]
  rw [received, data]
  rfl

theorem wireBlocks_signed : wireBlocks (received parseSigned signedBody) =
    [⟨.thinking "", [.signatureDelta "c2ln"]⟩] := by
  rw [received_signed]
  rfl

theorem signed_ends : ∃ reason message,
    ((handler Serde.silent parseSigned).processSse signedBody signedModel (fun _ => false)
      "anthropic-messages").getLast? = some (.done reason message) := by
  have stop : stopText ≠ "[DONE]" :=
    signed_data stopText (mem_append_right _ mem_cons_self)
  have handled : ∀ text ∈ signedLines.map Prod.fst, text ≠ "[DONE]" ∧ ∀ state message,
      (handler Serde.silent parseSigned).handleEvent text state message =
        .ok (onEvent Serde.silent ((parseSigned text).toOption.getD .messageStop)
          ⟨state, message, []⟩).continued := by
    refine fun text member => ⟨signed_data text (mem_append_left _ member), ?_⟩
    rcases mem_cons.mp member with rfl | member
    · exact fun _ _ => rfl
    rcases mem_cons.mp member with rfl | member
    · exact fun _ _ => rfl
    · cases mem_singleton.mp member
      exact fun _ _ => rfl
  obtain ⟨later, same⟩ := SseEventHandler.processFrom_handled handler_closes (fun _ => rfl)
    handled 0 ⟨{}, startMessage "anthropic-messages" signedModel, []⟩ [.ok ⟨none, stopText⟩]
  rw [SseEventHandler.processFrom, if_neg Bool.false_ne_true, if_neg stop] at same
  rw [SseEventHandler.processSse, iterateSse_signed, signedTexts, map_append]
  exact ⟨_, _, same⟩

theorem signed_not_kept (answers : List Answer) :
    ¬ Kept (wireBlocks (received parseSigned signedBody)) answers := by
  rw [wireBlocks_signed]
  rintro ⟨blocks, _⟩
  have unsigned := blocks _ mem_cons_self
  cases unsigned

/-- The condition at that response, when nothing has been answered. -/
theorem process_replays_iff_signed : ∃ reason message,
    ((handler Serde.silent parseSigned).processSse signedBody signedModel (fun _ => false)
      "anthropic-messages").getLast? = some (.done reason message) ∧
    ((Replays Serde.silent (wireBlocks (received parseSigned signedBody)) ([] : List Answer)
        (convertMessages (([] : List Message) ++ Message.assistant message.content ::
          (([] : List Answer).map Answer.message ++ ([] : List Message))))
        (convertMessages []).length ↔
      Kept (wireBlocks (received parseSigned signedBody)) [] ∧
        Routed Serde.silent (received parseSigned signedBody)) ∧
    (InPlace 0 (received parseSigned signedBody) →
      Routed Serde.silent (received parseSigned signedBody))) := by
  obtain ⟨reason, message, ends⟩ := signed_ends
  exact ⟨reason, message, ends, process_replays_iff _ _ _ _ _ _ _ _ ends [] [] []⟩

/-- The signature does not come back. -/
theorem signature_not_replayed :
    ¬ ∀ (serde : Serde) (parse : String → Except String StreamEvent)
      (body : List (Except String Bytes)) (model : Model) (cancelled : Nat → Bool)
      (apiName : String) (reason : StopReason) (message : AssistantMessage),
      ((handler serde parse).processSse body model cancelled apiName).getLast? =
        some (.done reason message) →
      ∀ (earlier : List Message) (answers : List Answer) (later : List Message),
      Replays serde (wireBlocks (received parse body)) answers
        (convertMessages
          (earlier ++ .assistant message.content :: (answers.map Answer.message ++ later)))
        (convertMessages earlier).length := by
  intro always
  obtain ⟨reason, message, ends⟩ := signed_ends
  have decoded : Forall₂ (Decoded Serde.silent) message.content
      (route (received parseSigned signedBody)).blocks := process_decoded ends
  obtain ⟨carried, results⟩ := (replays_iff _ _ _ _ _).mp (always _ _ _ _ _ _ _ _ ends [] [] [])
  have blocks := ((forall₂_carries_iff decoded (route_starts _)).mp carried).1
  exact signed_not_kept [] ⟨blocks, results⟩

end Signed

end PiRust.Anthropic
