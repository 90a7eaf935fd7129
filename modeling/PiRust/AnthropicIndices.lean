import PiRust.AnthropicReplay

/- The deltas and stops of `providers/anthropic` against the indices that they carry:
where the handler puts them, and where their indices would. -/
namespace PiRust.Anthropic

open List

deriving instance DecidableEq for BlockType

def WellNamed : (started unstopped : List UInt32) → List StreamEvent → Prop
  | _, _, [] => True
  | started, unstopped, .contentBlockStart index _ :: rest =>
    index ∉ started ∧ WellNamed (index :: started) (index :: unstopped) rest
  | started, unstopped, .contentBlockDelta index _ :: rest =>
    index ∈ unstopped ∧ WellNamed started unstopped rest
  | started, unstopped, .contentBlockStop index :: rest =>
    index ∈ unstopped ∧ WellNamed started (unstopped.erase index) rest
  | started, unstopped, _ :: rest => WellNamed started unstopped rest

def stopsFor (index : UInt32) : List StreamEvent → Bool
  | [] => false
  | .contentBlockStart other _ :: rest => if other = index then false else stopsFor index rest
  | .contentBlockStop other :: rest => if other = index then true else stopsFor index rest
  | _ :: rest => stopsFor index rest

def signatureFor (index : UInt32) (events : List StreamEvent) : Option String :=
  if stopsFor index events then
    ((deltasFor index events).filterMap ContentBlockDelta.signature?).getLast?
  else none

def signatures : List StreamEvent → List (Option String)
  | [] => []
  | .contentBlockStart index _ :: rest => signatureFor index rest :: signatures rest
  | _ :: rest => signatures rest

variable (serde : Serde)

def ContentBlockStart.filled (text : String) (signature : Option String) :
    ContentBlockStart → ContentBlock
  | .text given => .text (given ++ text) signature
  | .thinking given => .thinking (given ++ text) signature none
  | .redactedThinking _ => .thinking text signature (some true)
  | .toolUse id name => .toolCall id name (parseStreamingJson serde text) signature

/-- The blocks with what the deltas and the stop under their own indices say. -/
def namedBlocks (events : List StreamEvent) : List ContentBlock :=
  zipWith (fun block signature => block.start.filled serde block.written signature)
    (wireBlocks events) (signatures events)

def ContentBlockStart.type : ContentBlockStart → BlockType
  | .text _ => .text
  | .thinking _ | .redactedThinking _ => .thinking
  | .toolUse _ _ => .toolUse

/-- Where the signatures of a response go: they wait under the type of the block that is
running, and a stop gives them to the position that the block started last names, if
the block there has that type. -/
structure Signing where
  position : Nat := 0
  running : Option BlockType := none
  pending : BlockType → Option String := fun _ => none
  blocks : List (BlockKind × Option String) := []

def Signing.start (signing : Signing) (index : UInt32) (start : ContentBlockStart) : Signing :=
  { signing with
    position := index.toNat
    running := some start.type
    blocks := signing.blocks ++ [(start.kind, none)] }

def Signing.signature (signing : Signing) (signature : String) : Signing :=
  { signing with
    pending := Function.update signing.pending (signing.running.getD .text) (some signature) }

def Signing.stop (signing : Signing) : Signing :=
  match signing.running with
  | none => signing
  | some type =>
    if (signing.blocks[signing.position]?).any fun block => block.1 = type.kind then
      { signing with
        running := none
        pending := Function.update signing.pending type none
        blocks := signing.blocks.modify signing.position fun block =>
          (block.1, signing.pending type) }
    else { signing with running := none }

def Signing.step (signing : Signing) : StreamEvent → Signing
  | .contentBlockStart index start => signing.start index start
  | .contentBlockDelta _ (.signatureDelta signature) => signing.signature signature
  | .contentBlockStop _ => signing.stop
  | _ => signing

def signing (events : List StreamEvent) : Signing := events.foldl Signing.step {}

/-- Two texts make the same of a block. -/
def ContentBlockStart.Alike (start : ContentBlockStart) (first second : String) : Prop :=
  match start with
  | .text _ | .thinking _ | .redactedThinking _ => first = second
  | .toolUse _ _ => parseStreamingJson serde first = parseStreamingJson serde second

/-- What arrives while the block started last names a position comes to the same as what
names the block at that position. -/
structure Aimed (events : List StreamEvent) : Prop where
  written : Forall₂ (fun reached block =>
    block.start.Alike serde reached.text block.written) (route events).blocks (wireBlocks events)
  signed : (signing events).blocks.map Prod.snd = signatures events

/-- The blocks come one after another under the indices 0, 1, 2 and so on, each stopped
before the next one starts. -/
def Sequential : Nat → Option UInt32 → List StreamEvent → Prop
  | _, _, [] => True
  | blocks, unstopped, .contentBlockStart index _ :: rest =>
    unstopped = none ∧ index.toNat = blocks ∧ Sequential (blocks + 1) (some index) rest
  | blocks, unstopped, .contentBlockDelta index _ :: rest =>
    unstopped = some index ∧ Sequential blocks unstopped rest
  | blocks, unstopped, .contentBlockStop index :: rest =>
    unstopped = some index ∧ Sequential blocks none rest
  | blocks, unstopped, _ :: rest => Sequential blocks unstopped rest

section Handling

variable {serde}

def BlockType.setSignature (signature : Option String) : BlockType → ContentBlock → ContentBlock
  | .text => .setTextSignature signature
  | .thinking => .setThinkingSignature signature
  | .toolUse => .setThoughtSignature signature

def BlockType.isFor : BlockType → ContentBlock → Bool
  | .text => ContentBlock.isText
  | .thinking => ContentBlock.isThinking
  | .toolUse => ContentBlock.isToolCall

def AnthropicHandler.pending (state : AnthropicHandler) : BlockType → Option String
  | .text => state.pendingTextSignature
  | .thinking => state.pendingThinkingSignature
  | .toolUse => state.pendingThoughtSignature

def AnthropicHandler.setPending (signature : Option String) (state : AnthropicHandler) :
    BlockType → AnthropicHandler
  | .text => { state with pendingTextSignature := signature }
  | .thinking => { state with pendingThinkingSignature := signature }
  | .toolUse => { state with pendingThoughtSignature := signature }

theorem AnthropicHandler.pending_setPending (signature : Option String)
    (state : AnthropicHandler) (type : BlockType) :
    (state.setPending signature type).pending = Function.update state.pending type signature := by
  funext other
  cases type <;> cases other <;> rfl

def signed : ContentBlock → BlockKind × Option String
  | .text _ signature => (.text, signature)
  | .thinking _ signature _ => (.thinking, signature)
  | .image .. => (.image, none)
  | .toolCall _ _ _ signature => (.toolCall, signature)

theorem signed_pushText (text : String) (block : ContentBlock) :
    signed (block.pushText text) = signed block := by
  cases block <;> rfl

theorem signed_pushThinking (text : String) (block : ContentBlock) :
    signed (block.pushThinking text) = signed block := by
  cases block <;> rfl

theorem signed_setArguments (arguments : Value) (block : ContentBlock) :
    signed (block.setArguments arguments) = signed block := by
  cases block <;> rfl

theorem signed_setSignature {type : BlockType} {block : ContentBlock}
    (same : (signed block).1 = type.kind) (signature : Option String) :
    signed (type.setSignature signature block) = ((signed block).1, signature) := by
  cases type <;> cases block <;> first | rfl | cases same

theorem signed_block (start : ContentBlockStart) : signed start.block = (start.kind, none) := by
  cases start <;> rfl

theorem ContentBlockStart.kind_eq (start : ContentBlockStart) : start.kind = start.type.kind := by
  cases start <;> rfl

theorem map_modify_at {α β : Type} (f : α → β) {change : α → α} {other : β → β} {xs : List α}
    {position : Nat} (same : ∀ x, xs[position]? = some x → f (change x) = other (f x)) :
    (xs.modify position change).map f = (xs.map f).modify position other := by
  induction xs generalizing position with
  | nil => rw [modify_nil, map_nil, modify_nil]
  | cons x rest ih =>
    cases position with
    | zero => exact congrArg (· :: rest.map f) (same x rfl)
    | succ position => exact congrArg (f x :: ·) (ih same)

theorem map_signed_modify {change : ContentBlock → ContentBlock}
    (same : ∀ block, signed (change block) = signed block) (content : List ContentBlock)
    (position : Nat) : (content.modify position change).map signed = content.map signed := by
  have kept := @map_modify_at _ _ signed change id content position fun block _ => same block
  rwa [modify_id] at kept

theorem onContentBlockStop_running {work : Work} {type : BlockType}
    (running : work.state.blockType = some type) :
    let takes := (work.partialMessage.content[work.state.blockIndex.toNat]?).any fun block =>
      (signed block).1 = type.kind
    (onContentBlockStop work).partialMessage.content =
      (if takes then work.partialMessage.content.modify work.state.blockIndex.toNat
        (type.setSignature (work.state.pending type))
      else work.partialMessage.content) ∧
    (onContentBlockStop work).state =
      { (if takes then work.state.setPending none type else work.state) with
        blockType := none } := by
  have matching : (work.partialMessage.content[work.state.blockIndex.toNat]?).any
      (fun block => (signed block).1 = type.kind) = takesSignature work type.isFor := by
    unfold takesSignature
    congr 1
    funext block
    cases type <;> cases block <;> rfl
  dsimp only
  rw [matching]
  unfold onContentBlockStop endBlock
  rw [running]
  by_cases takes : takesSignature work type.isFor = true
  · cases type with
    | text =>
      have here : takesSignature work ContentBlock.isText = true := takes
      simp only [takes, here, ↓reduceIte]
      exact ⟨rfl, rfl⟩
    | thinking =>
      have here : takesSignature work ContentBlock.isThinking = true := takes
      simp only [takes, here, ↓reduceIte]
      exact ⟨rfl, rfl⟩
    | toolUse =>
      have here : takesSignature work ContentBlock.isToolCall = true := takes
      simp only [takes, here, ↓reduceIte]
      exact ⟨rfl, rfl⟩
  · cases type with
    | text =>
      have here : ¬ takesSignature work ContentBlock.isText = true := takes
      simp only [takes, here]
      exact ⟨rfl, rfl⟩
    | thinking =>
      have here : ¬ takesSignature work ContentBlock.isThinking = true := takes
      simp only [takes, here]
      exact ⟨rfl, rfl⟩
    | toolUse =>
      have here : ¬ takesSignature work ContentBlock.isToolCall = true := takes
      simp only [takes, here]
      exact ⟨rfl, rfl⟩

/-- The signatures of the work. -/
structure Signs (work : Work) (signing : Signing) : Prop where
  position : work.state.blockIndex.toNat = signing.position
  running : work.state.blockType = signing.running
  pending : work.state.pending = signing.pending
  blocks : work.partialMessage.content.map signed = signing.blocks

namespace Signs

variable {work : Work} {signing : Signing} (signs : Signs work signing)
include signs

theorem start (index : UInt32) (start : ContentBlockStart) :
    Signs (onContentBlockStart index start work) (signing.start index start) := by
  have opened : Signs ((work.withState (startState index start work.state)).push start.block)
      (signing.start index start) := by
    constructor
    · cases start <;> rfl
    · cases start <;> rfl
    · refine Eq.trans ?_ signs.pending
      cases start <;> rfl
    · rw [Progress.push_content, map_append, map_singleton, signed_block]
      exact congrArg (· ++ _) signs.blocks
  unfold onContentBlockStart emitStart
  dsimp only
  split
  · split <;> exact ⟨opened.position, opened.running, opened.pending, opened.blocks⟩
  · split <;> exact ⟨opened.position, opened.running, opened.pending, opened.blocks⟩
  · exact ⟨opened.position, opened.running, opened.pending, opened.blocks⟩
  · exact ⟨opened.position, opened.running, opened.pending, opened.blocks⟩

theorem signature (signature : String) :
    Signs (onSignatureDelta signature work) (signing.signature signature) := by
  have held : onSignatureDelta signature work = work.withState
      (work.state.setPending (some signature) (work.state.blockType.getD .text)) := by
    unfold onSignatureDelta
    cases running : work.state.blockType with
    | none => rfl
    | some type => cases type <;> rfl
  rw [held]
  have apart : ∀ type, (work.state.setPending (some signature) type).blockIndex =
      work.state.blockIndex ∧
      (work.state.setPending (some signature) type).blockType = work.state.blockType := by
    intro type
    cases type <;> exact ⟨rfl, rfl⟩
  refine ⟨?_, ?_, ?_, signs.blocks⟩
  · exact (congrArg UInt32.toNat (apart _).1).trans signs.position
  · exact (apart _).2.trans signs.running
  · rw [Progress.withState_state, AnthropicHandler.pending_setPending, signs.running, signs.pending]
    rfl

theorem stop : Signs (onContentBlockStop work) signing.stop := by
  cases running : work.state.blockType with
  | none =>
    have same : onContentBlockStop work = work.withState { work.state with blockType := none } := by
      unfold onContentBlockStop endBlock
      rw [running]
    have idle : signing.stop = signing := by
      rw [Signing.stop, ← signs.running, running]
    rw [same, idle]
    exact ⟨signs.position, running.symm.trans signs.running, signs.pending, signs.blocks⟩
  | some type =>
    obtain ⟨content, state⟩ := onContentBlockStop_running running
    have takes : (work.partialMessage.content[work.state.blockIndex.toNat]?).any
        (fun block => (signed block).1 = type.kind) =
        (signing.blocks[signing.position]?).any fun block => block.1 = type.kind := by
      rw [← signs.blocks, ← signs.position, getElem?_map, Option.any_map]
    rw [takes] at content state
    rw [Signing.stop, ← signs.running, running]
    dsimp only
    split
    · rename_i match_here
      rw [if_pos match_here] at content state
      have kept : (work.state.setPending none type).blockIndex = work.state.blockIndex := by
        cases type <;> rfl
      refine ⟨?_, ?_, ?_, ?_⟩
      · rw [state]
        exact (congrArg UInt32.toNat kept).trans signs.position
      · rw [state]
      · rw [state, ← signs.pending, ← AnthropicHandler.pending_setPending]
        rfl
      · rw [content, ← signs.blocks, ← signs.position, ← signs.pending]
        apply map_modify_at
        intro block found
        apply signed_setSignature
        rw [← takes, found] at match_here
        exact of_decide_eq_true match_here
    · rename_i other
      rw [if_neg other] at content state
      refine ⟨?_, ?_, ?_, ?_⟩
      · rw [state]
        exact signs.position
      · rw [state]
      · rw [state]
        exact signs.pending
      · rw [content]
        exact signs.blocks

theorem step (event : StreamEvent) : Signs (onEvent serde event work) (signing.step event) := by
  have edited : ∀ {change : ContentBlock → ContentBlock},
      (∀ block, signed (change block) = signed block) →
      (work.partialMessage.content.modify work.state.blockIndex.toNat change).map signed =
        signing.blocks :=
    fun same => (map_signed_modify same _ _).trans signs.blocks
  cases event with
  | messageStart message =>
    unfold onEvent onMessageStart
    dsimp only
    split <;> exact ⟨signs.position, signs.running, signs.pending, signs.blocks⟩
  | contentBlockStart index start => exact signs.start index start
  | contentBlockDelta index delta =>
    cases delta with
    | textDelta text =>
      exact ⟨signs.position, signs.running, signs.pending, edited (signed_pushText text)⟩
    | thinkingDelta thinking =>
      exact ⟨signs.position, signs.running, signs.pending, edited (signed_pushThinking thinking)⟩
    | signatureDelta signature => exact signs.signature signature
    | inputJsonDelta partialJson =>
      exact ⟨signs.position, signs.running, signs.pending, edited (signed_setArguments _)⟩
  | contentBlockStop index => exact signs.stop
  | messageDelta stopReason usage =>
    exact ⟨signs.position, signs.running, signs.pending, signs.blocks⟩
  | messageStop | ping => exact ⟨signs.position, signs.running, signs.pending, signs.blocks⟩

end Signs

/-- The handler after some events, from the start of a message. -/
def heardFrom (serde : Serde) (message : AssistantMessage) (events : List StreamEvent) : Work :=
  events.foldl (hear serde) ⟨{}, message, []⟩

section Content

variable {message : AssistantMessage} (empty : message.content = [])
include empty

theorem heardFrom_writes (events : List StreamEvent) :
    Writes serde (heardFrom serde message events) (route events) := by
  have kept : ∀ {work : Work} {route : Route}, Writes serde work route →
      Writes serde (events.foldl (hear serde) work) (events.foldl Route.step route) := by
    induction events with
    | nil => exact fun writes => writes
    | cons event rest ih =>
      intro work route writes
      have here : Writes serde ⟨work.state, work.partialMessage, []⟩ route :=
        ⟨writes.position, writes.held, writes.blocks⟩
      have later := here.step event
      exact ih ⟨later.position, later.held, later.blocks⟩
  exact kept ⟨rfl, rfl, by rw [empty]; exact .nil⟩

theorem heardFrom_signs (events : List StreamEvent) :
    Signs (heardFrom serde message events) (signing events) := by
  have kept : ∀ {work : Work} {signing : Signing}, Signs work signing →
      Signs (events.foldl (hear serde) work) (events.foldl Signing.step signing) := by
    induction events with
    | nil => exact fun signs => signs
    | cons event rest ih =>
      intro work signing signs
      have here : Signs ⟨work.state, work.partialMessage, []⟩ signing :=
        ⟨signs.position, signs.running, signs.pending, signs.blocks⟩
      have later := @Signs.step serde _ _ here event
      exact ih ⟨later.position, later.running, later.pending, later.blocks⟩
  refine kept ⟨rfl, rfl, ?_, by rw [empty]; rfl⟩
  funext type
  cases type <;> rfl

end Content

theorem decoded_eq_filled_iff {block : ContentBlock} {reached : Reached} {wire : WireBlock}
    (decoded : Decoded serde block reached) (same : reached.start = wire.start)
    (signature : Option String) :
    block = wire.start.filled serde wire.written signature ↔
      wire.start.Alike serde reached.text wire.written ∧ (signed block).2 = signature := by
  cases decoded with
  | text given text sign | thinking given text sign | redactedThinking given text sign =>
    rw [← same]
    simp [ContentBlockStart.filled, ContentBlockStart.Alike, signed]
  | toolUse id name text sign =>
    rw [← same]
    simp [ContentBlockStart.filled, ContentBlockStart.Alike, signed]

theorem length_signatures (events : List StreamEvent) :
    (signatures events).length = (wireBlocks events).length := by
  induction events with
  | nil => rfl
  | cons event rest ih =>
    cases event with
    | contentBlockStart index start => exact congrArg (· + 1) ih
    | _ => exact ih

theorem content_eq_zipWith_iff {content : List ContentBlock} {reached : List Reached}
    {wires : List WireBlock} {named : List (Option String)}
    (decoded : Forall₂ (Decoded serde) content reached)
    (same : reached.map Reached.start = wires.map WireBlock.start)
    (lengths : named.length = wires.length) :
    content = zipWith (fun wire signature => wire.start.filled serde wire.written signature)
        wires named ↔
      Forall₂ (fun reached wire => wire.start.Alike serde reached.text wire.written)
        reached wires ∧ content.map (fun block => (signed block).2) = named := by
  induction decoded generalizing wires named with
  | nil =>
    cases wires with
    | nil =>
      cases length_eq_zero_iff.mp lengths
      simp
    | cons => cases same
  | cons first _ ih =>
    cases wires with
    | nil => cases same
    | cons wire wires =>
      cases named with
      | nil => cases lengths
      | cons signature named =>
        obtain ⟨here, there⟩ := cons.inj same
        rw [zipWith_cons_cons, cons_eq_cons, decoded_eq_filled_iff first here,
          ih there (Nat.succ.inj lengths), forall₂_cons, map_cons,
          cons_eq_cons]
        exact and_and_and_comm

end Handling

section Sequential

variable {events : List StreamEvent}
variable {blocks : Nat} {unstopped : Option UInt32}

theorem unnamed (sequential : Sequential blocks unstopped events) {index : UInt32}
    (passed : index.toNat < blocks) (apart : unstopped ≠ some index) :
    deltasFor index events = [] := by
  induction events generalizing blocks unstopped with
  | nil => rfl
  | cons event rest ih =>
    cases event with
    | contentBlockStart other start =>
      obtain ⟨_, next, later⟩ := sequential
      have different : other ≠ index := by
        rintro rfl
        omega
      rw [deltasFor, if_neg different]
      apply ih later (Nat.lt_succ_of_lt passed)
      exact fun same => different (Option.some.inj same)
    | contentBlockDelta other delta =>
      obtain ⟨running, later⟩ := sequential
      have different : other ≠ index := fun same => apart (running.trans (congrArg some same))
      rw [deltasFor, if_neg different]
      exact ih later passed apart
    | contentBlockStop other => exact ih sequential.2 passed (Option.some_ne_none index).symm
    | messageStart | messageDelta | messageStop | ping => exact ih sequential passed apart

theorem inPlace_of_sequential (sequential : Sequential blocks unstopped events)
    (last : ∀ index, unstopped = some index → index.toNat + 1 = blocks) :
    InPlace blocks events := by
  induction events generalizing blocks unstopped with
  | nil => trivial
  | cons event rest ih =>
    cases event with
    | contentBlockStart other start =>
      obtain ⟨_, next, later⟩ := sequential
      refine ⟨next, ih later fun index same => ?_⟩
      rw [← Option.some.inj same, next]
    | contentBlockDelta other delta =>
      exact ⟨last other sequential.1, ih sequential.2 last⟩
    | contentBlockStop other => exact ih sequential.2 nofun
    | messageStart => exact ih sequential last
    | messageDelta => exact ih sequential last
    | messageStop => exact ih sequential last
    | ping => exact ih sequential last

theorem signing_sequential {events : List StreamEvent} :
    (∀ {signing : Signing}, Sequential signing.blocks.length none events →
      (signing.pending = fun _ => none) →
      (events.foldl Signing.step signing).blocks.map Prod.snd =
        signing.blocks.map Prod.snd ++ signatures events) ∧
    ∀ {front : List (BlockKind × Option String)} {type : BlockType} {index : UInt32}
      {waiting : Option String},
      index.toNat = front.length → Sequential (front.length + 1) (some index) events →
      (events.foldl Signing.step ⟨front.length, some type,
          Function.update (fun _ => none) type waiting, front ++ [(type.kind, none)]⟩).blocks.map
          Prod.snd =
        front.map Prod.snd ++
          (if stopsFor index events then
            ((deltasFor index events).filterMap ContentBlockDelta.signature?).getLast?.or waiting
          else none) :: signatures events := by
  induction events with
  | nil =>
    refine ⟨fun _ _ => (append_nil _).symm, fun _ _ => ?_⟩
    exact map_append
  | cons event rest ih =>
    obtain ⟨closed, running⟩ := ih
    constructor
    · intro signing sequential quiet
      cases event with
      | contentBlockStart index start =>
        obtain ⟨_, next, later⟩ := sequential
        have opened : signing.start index start = ⟨signing.blocks.length, some start.type,
            Function.update (fun _ => none) start.type none,
            signing.blocks ++ [(start.type.kind, none)]⟩ := by
          rw [Signing.start, quiet, next, start.kind_eq, Function.update_eq_self]
        rw [foldl_cons, Signing.step, opened, running next later, Option.or_none]
        rfl
      | contentBlockDelta index delta => cases sequential.1
      | contentBlockStop index => cases sequential.1
      | messageStart => exact closed sequential quiet
      | messageDelta => exact closed sequential quiet
      | messageStop => exact closed sequential quiet
      | ping => exact closed sequential quiet
    · intro front type index waiting same sequential
      cases event with
      | contentBlockStart other start => cases sequential.1
      | contentBlockDelta other delta =>
        obtain ⟨here, later⟩ := sequential
        cases here
        cases delta with
        | signatureDelta signature =>
          have held : Signing.signature ⟨front.length, some type,
              Function.update (fun _ => none) type waiting,
              front ++ [(type.kind, none)]⟩ signature = ⟨front.length, some type,
              Function.update (fun _ => none) type (some signature),
              front ++ [(type.kind, none)]⟩ := by
            rw [Signing.signature, Option.getD_some, Function.update_idem]
          rw [foldl_cons, Signing.step, held, running same later]
          simp only [stopsFor, deltasFor, ↓reduceIte, ContentBlockDelta.signature?,
            filterMap_cons, getLast?_cons, signatures]
          cases (deltasFor index rest |>.filterMap ContentBlockDelta.signature?).getLast? <;>
            rfl
        | textDelta text | thinkingDelta text | inputJsonDelta text =>
          refine (running same later).trans ?_
          simp [stopsFor, deltasFor, ContentBlockDelta.signature?, signatures]
      | contentBlockStop other =>
        obtain ⟨here, later⟩ := sequential
        cases here
        have ended : Signing.stop ⟨front.length, some type,
            Function.update (fun _ => none) type waiting,
            front ++ [(type.kind, none)]⟩ = ⟨front.length, none, fun _ => none,
            front ++ [(type.kind, waiting)]⟩ := by
          simp only [Signing.stop, getElem?_concat_length, Option.any_some, decide_true,
            ↓reduceIte, Function.update_idem, Function.update_self, Lanes.modify_last]
          rw [Function.update_eq_self]
        have after := @closed ⟨front.length, none, fun _ => none,
          front ++ [(type.kind, waiting)]⟩ (by simpa using later) rfl
        have passed : index.toNat < front.length + 1 := by rw [same]; exact Nat.lt_succ_self _
        have nothing := unnamed later passed (Option.some_ne_none index).symm
        rw [foldl_cons, Signing.step, ended, after]
        simp [stopsFor, deltasFor, nothing, signatures]
      | messageStart => exact running same sequential
      | messageDelta => exact running same sequential
      | messageStop => exact running same sequential
      | ping => exact running same sequential

theorem aimed_of_sequential (sequential : Sequential 0 none events) : Aimed serde events where
  written := by
    rw [route_inPlace (inPlace_of_sequential sequential nofun), forall₂_map_left_iff, forall₂_same]
    intro block _
    unfold ContentBlockStart.Alike
    split <;> rfl
  signed := (@signing_sequential events).1 sequential rfl

end Sequential

/-- The content is what the indices say exactly when the deltas and stops that arrive for a
position come to the same as those that name its block; they do where the blocks come one
after another. -/
theorem heardFrom_named_iff (serde : Serde) (message : AssistantMessage)
    (empty : message.content = []) (events : List StreamEvent) :
    ((heardFrom serde message events).partialMessage.content = namedBlocks serde events ↔
      Aimed serde events) ∧
    (Sequential 0 none events → Aimed serde events) := by
  refine ⟨?_, aimed_of_sequential serde⟩
  have decoded := (@heardFrom_writes serde _ empty events).blocks
  have signs := (@heardFrom_signs serde _ empty events).blocks
  have taken : (heardFrom serde message events).partialMessage.content.map
      (fun block => (signed block).2) = (signing events).blocks.map Prod.snd := by
    rw [← signs, map_map]
    rfl
  rw [namedBlocks, content_eq_zipWith_iff decoded (route_starts events) (length_signatures events),
    taken]
  exact ⟨fun both => ⟨both.1, both.2⟩, fun aimed => ⟨aimed.written, aimed.signed⟩⟩

def overlapping : List StreamEvent :=
  [.contentBlockStart 0 (.text ""), .contentBlockStart 1 (.text ""),
    .contentBlockDelta 0 (.textDelta "a"), .contentBlockStop 0, .contentBlockStop 1]

theorem heardFrom_named_iff_overlapping :
    ((heardFrom Serde.silent (AssistantMessage.empty "anthropic-messages" "m")
        overlapping).partialMessage.content = namedBlocks Serde.silent overlapping ↔
      Aimed Serde.silent overlapping) ∧
    (Sequential 0 none overlapping → Aimed Serde.silent overlapping) :=
  heardFrom_named_iff Serde.silent (AssistantMessage.empty "anthropic-messages" "m") rfl overlapping

/-- The first block's text goes to the second one. -/
theorem overlapping_misplaced :
    ¬ ∀ (serde : Serde) (message : AssistantMessage), message.content = [] →
      ∀ events, WellNamed [] [] events →
        (heardFrom serde message events).partialMessage.content = namedBlocks serde events := by
  intro always
  have named : WellNamed [] [] overlapping := by
    simp only [overlapping, WellNamed]
    decide
  have same := always Serde.silent (AssistantMessage.empty "anthropic-messages" "m") rfl
    overlapping named
  have first : ContentBlock.text "" none = .text "a" none :=
    congrArg (fun content : List ContentBlock => content.headD (.text "" none)) same
  simp at first

end PiRust.Anthropic
