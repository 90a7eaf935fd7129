import PiRust.Anthropic
import PiRust.StreamTrace

/- The blocks of `providers/anthropic`: the wire index of the block started last is
the content index of all events until the next start, and the position written to. -/
namespace PiRust.Anthropic

open List

open Lanes (Bracketed Mark Row Stretch Trace lane)

def BlockType.kind : BlockType → BlockKind
  | .text => .text
  | .thinking => .thinking
  | .toolUse => .toolCall

def ContentBlockStart.given : ContentBlockStart → Option String
  | .text given | .thinking given => some given
  | .redactedThinking _ => some ""
  | .toolUse _ _ => none

def ContentBlockStart.kind : ContentBlockStart → BlockKind
  | .text _ => .text
  | .thinking _ | .redactedThinking _ => .thinking
  | .toolUse _ _ => .toolCall

def ContentBlockStart.row (start : ContentBlockStart) : Row BlockKind := ⟨start.kind, start.given⟩

def ContentBlockDelta.piece? : ContentBlockDelta → Option (BlockKind × String)
  | .textDelta text => some (.text, text)
  | .thinkingDelta thinking => some (.thinking, thinking)
  | .inputJsonDelta partialJson => some (.toolCall, partialJson)
  | .signatureDelta _ => none

def StreamEvent.piece? : StreamEvent → Option (BlockKind × String)
  | .contentBlockDelta _ delta => delta.piece?
  | _ => none

structure Announced where
  index : UInt32
  start : ContentBlockStart
  body : List StreamEvent

def untilStart (events : List StreamEvent) : List StreamEvent :=
  events.takeWhile fun event => !event.startsBlock

def announced : List StreamEvent → List Announced
  | [] => []
  | .contentBlockStart index start :: rest => ⟨index, start, untilStart rest⟩ :: announced rest
  | _ :: rest => announced rest

/-- The block stops, its deltas before that are of its kind, and none comes after. -/
def closes (kind : BlockKind) : Bool → List StreamEvent → Bool
  | running, [] => !running
  | _, .contentBlockStop _ :: rest => closes kind false rest
  | running, event :: rest =>
    (event.piece?.all fun piece => running && piece.1 = kind) && closes kind running rest

@[simp] def ofKind (kind : BlockKind) (pieces : List (BlockKind × String)) : List String :=
  pieces.filterMap fun piece => if piece.1 = kind then some piece.2 else none

/-- The texts of the deltas of a kind. -/
def texts (kind : BlockKind) (body : List StreamEvent) : List String :=
  ofKind kind (body.filterMap StreamEvent.piece?)

def Announced.written (block : Announced) : String :=
  String.join (texts block.start.kind block.body)

/-- The blocks come one after another, each from its start to its stop, and name
their own positions. Where two blocks name each other's, it is as if they did not
when they are alike: of one kind, and with the same text at their start, or with
all of its text when a block names one that has yet to come. -/
structure Orderly (events : List StreamEvent) : Prop where
  before : ∀ event ∈ untilStart events, event.piece? = none
  apart : ((announced events).map Announced.index).Nodup
  closed : ∀ block ∈ announced events, closes block.start.kind true block.body
  named : ∀ (place : Nat) (block : Announced), (announced events)[place]? = some block →
    ∃ other : Announced, (announced events)[block.index.toNat]? = some other ∧
      other.start.kind = block.start.kind ∧
      other.start.given =
        if place < block.index.toNat then block.start.given.map (· ++ block.written)
        else block.start.given

def eventMarks (running : Option BlockKind) : StreamEvent → List (Mark BlockKind)
  | .contentBlockStop _ => running.toList.map .closed
  | event => event.piece?.toList.map fun piece => .piece piece.1 piece.2

def stillRunning (running : Option BlockKind) : StreamEvent → Option BlockKind
  | .contentBlockStop _ => none
  | _ => running

def bodyMarks : Option BlockKind → List StreamEvent → List (Mark BlockKind)
  | _, [] => []
  | running, event :: rest =>
    eventMarks running event ++ bodyMarks (stillRunning running event) rest

def addPiece (piece : BlockKind × String) (row : Row BlockKind) : Row BlockKind :=
  if row.kind = piece.1 then row.extend piece.2 else row

def bodyRows (position : Nat) (body : List StreamEvent) (rows : List (Row BlockKind)) :
    List (Row BlockKind) :=
  (body.filterMap StreamEvent.piece?).foldl
    (fun rows piece => rows.modify position (addPiece piece)) rows

def startMarks (start : ContentBlockStart) : List (Mark BlockKind) :=
  (start.given.filter (· ≠ "")).toList.map (.piece start.kind)

def Announced.stretch (block : Announced) : Stretch BlockKind where
  position := block.index.toNat
  kind := block.start.kind
  body := startMarks block.start ++ bodyMarks (some block.start.kind) block.body

/-- What a block adds to the content, and where it writes. -/
def place (rows : List (Row BlockKind)) (block : Announced) : List (Row BlockKind) :=
  bodyRows block.index.toNat block.body (rows ++ [block.start.row])

section Steps

variable {serde : Serde} {work : Work}

def running (work : Work) : Option BlockKind := work.state.blockType.map BlockType.kind

/-- What an event inside a block does. -/
structure Passed (event : StreamEvent) (work later : Work) : Prop where
  inner : (∀ event ∈ work.events, event.Inner) → ∀ event ∈ later.events, event.Inner
  trace : blockTrace later.events = blockTrace work.events ++
    (eventMarks (running work) event).map fun mark => (work.state.blockIndex.toNat, mark)
  rows : blockRows later.partialMessage.content =
    bodyRows work.state.blockIndex.toNat [event] (blockRows work.partialMessage.content)
  index : later.state.blockIndex = work.state.blockIndex
  running : running later = stillRunning (running work) event

theorem row_pushText (text : String) (block : ContentBlock) :
    (block.pushText text).row = addPiece (.text, text) block.row := by
  cases block <;> rfl

theorem row_pushThinking (text : String) (block : ContentBlock) :
    (block.pushThinking text).row = addPiece (.thinking, text) block.row := by
  cases block <;> rfl

theorem row_setArguments (text : String) (value : Value) (block : ContentBlock) :
    (block.setArguments value).row = addPiece (.toolCall, text) block.row := by
  cases block <;> rfl

theorem blockTrace_emit (work : Work) {event : AssistantMessage → AssistantMessageEvent}
    {index : UInt32} {mark : Mark BlockKind}
    (tells : ∀ message, Tracks.Tells (event message) index mark) :
    blockTrace (work.emit event).events = blockTrace work.events ++ [(index.toNat, mark)] := by
  simpa using @Tracks.trace_emit _ [] work _ _ _ tells

theorem inner_emit {event : AssistantMessage → AssistantMessageEvent} {index : UInt32}
    {mark : Mark BlockKind} (tells : ∀ message, Tracks.Tells (event message) index mark)
    {before : Work} (same : before.events = work.events)
    (inner : ∀ other ∈ work.events, other.Inner) :
    ∀ other ∈ (before.emit event).events, other.Inner := by
  rw [← same] at inner
  simpa using @Tracks.inner_emit _ [] before (by simpa using inner) event (tells _).inner

variable {event : StreamEvent}

theorem passed_delta {piece : BlockKind × String}
    (given : event.piece? = some piece) {change : ContentBlock → ContentBlock}
    (writes : ∀ block, (change block).row = addPiece piece block.row)
    {emitted : AssistantMessage → AssistantMessageEvent}
    (tells : ∀ message,
      Tracks.Tells (emitted message) work.state.blockIndex (.piece piece.1 piece.2))
    {state : AnthropicHandler} (index : state.blockIndex = work.state.blockIndex)
    (type : state.blockType = work.state.blockType) :
    Passed event work
      (((work.edit work.state.blockIndex.toNat change).withState state).emit emitted) where
  inner := inner_emit tells rfl
  trace := by
    rw [blockTrace_emit _ tells]
    cases event with
    | contentBlockDelta =>
      simp only [eventMarks, given]
      rfl
    | _ => cases given
  rows := by
    simp only [bodyRows, filterMap_cons, given, filterMap_nil, foldl_cons,
      foldl_nil, Progress.emit_message, Progress.withState_message, Progress.edit_content]
    exact blockRows_modify _ _ fun block _ => writes block
  index := index
  running := by
    cases event with
    | contentBlockDelta => exact congrArg (Option.map BlockType.kind) type
    | _ => cases given

theorem passed_silent {later : Work}
    (inner : (∀ event ∈ work.events, event.Inner) → ∀ event ∈ later.events, event.Inner)
    (trace : blockTrace later.events = blockTrace work.events) (silent : event.piece? = none)
    (goes_on : ∀ index, event ≠ .contentBlockStop index)
    (same : (later.partialMessage.content, later.state.blockIndex, later.state.blockType) =
      (work.partialMessage.content, work.state.blockIndex, work.state.blockType)) :
    Passed event work later := by
  obtain ⟨content, index, type⟩ : _ ∧ _ ∧ _ := by simpa only [Prod.mk.injEq] using same
  constructor
  · exact inner
  · rw [trace]
    cases event with
    | contentBlockStop index => exact absurd rfl (goes_on index)
    | _ =>
      simp only [eventMarks, silent]
      exact (append_nil _).symm
  · simp [content, bodyRows, silent]
  · exact index
  · cases event with
    | contentBlockStop index => exact absurd rfl (goes_on index)
    | _ => exact congrArg (Option.map BlockType.kind) type

theorem onContentBlockStop_passed (index : UInt32) :
    Passed (.contentBlockStop index) work (onContentBlockStop work) := by
  have quiet : ∀ {ended : Work} {type : BlockType}
      {event : AssistantMessage → AssistantMessageEvent}, work.state.blockType = some type →
      blockRows ended.partialMessage.content = blockRows work.partialMessage.content →
      (∀ message, Tracks.Tells (event message) work.state.blockIndex (.closed type.kind)) →
      ended.events = work.events → ended.state.blockIndex = work.state.blockIndex →
      Passed (.contentBlockStop index) work
        ((ended.emit event).withState { (ended.emit event).state with blockType := none }) := by
    intro ended type event stops rows tells events same
    constructor
    · exact inner_emit tells events
    · refine (blockTrace_emit ended tells).trans ?_
      rw [events, eventMarks, running, stops]
      rfl
    · exact rows
    · exact same
    · rfl
  unfold onContentBlockStop endBlock
  dsimp only
  split
  · rename_i type
    split
    · exact quiet type (blockRows_modify_same _ _ (ContentBlock.row_setTextSignature _))
        (fun _ => ⟨rfl, rfl, rfl⟩) rfl rfl
    · exact quiet type rfl (fun _ => ⟨rfl, rfl, rfl⟩) rfl rfl
  · rename_i type
    split
    · exact quiet type (blockRows_modify_same _ _ (ContentBlock.row_setThinkingSignature _))
        (fun _ => ⟨rfl, rfl, rfl⟩) rfl rfl
    · exact quiet type rfl (fun _ => ⟨rfl, rfl, rfl⟩) rfl rfl
  · rename_i type
    split
    · exact quiet type (blockRows_modify_same _ _ (ContentBlock.row_setThoughtSignature _))
        (fun _ => ⟨rfl, rfl, rfl⟩) rfl rfl
    · exact quiet type rfl (fun _ => ⟨rfl, rfl, rfl⟩) rfl rfl
  · rename_i type
    refine ⟨fun before => before, ?_, rfl, rfl, rfl⟩
    rw [eventMarks, running, type]
    exact (append_nil _).symm

theorem onSignatureDelta_passed (index : UInt32) (signature : String) :
    Passed (.contentBlockDelta index (.signatureDelta signature)) work
      (onSignatureDelta signature work) := by
  unfold onSignatureDelta
  split
  · exact passed_silent (fun before => before) rfl rfl nofun rfl
  · exact passed_silent (fun before => before) rfl rfl nofun rfl
  · exact passed_silent (fun before => before) rfl rfl nofun rfl

theorem onMessageStart_passed (message : MessageInfo) :
    Passed (.messageStart message) work (onMessageStart message work) := by
  unfold onMessageStart
  dsimp only
  split
  · exact passed_silent (fun before => before) rfl rfl nofun rfl
  · refine passed_silent ?_ ?_ rfl nofun rfl
    · intro before other member
      rcases mem_append.mp member with old | new
      · exact before other old
      · rw [mem_singleton.mp new]
        exact ⟨rfl, nofun⟩
    · refine (blockTrace_append work.events _).trans ?_
      exact append_nil _

theorem onEvent_passed (other : event.startsBlock = false)
    (goes_on : event.isStop = false) : Passed event work (onEvent serde event work) := by
  cases event with
  | messageStart message => exact onMessageStart_passed message
  | contentBlockStart => cases other
  | contentBlockDelta index delta =>
    cases delta with
    | textDelta text =>
      exact passed_delta rfl (row_pushText text) (fun _ => ⟨rfl, rfl, rfl⟩) rfl rfl
    | thinkingDelta thinking =>
      exact passed_delta rfl (row_pushThinking thinking) (fun _ => ⟨rfl, rfl, rfl⟩) rfl rfl
    | signatureDelta signature => exact onSignatureDelta_passed index signature
    | inputJsonDelta partialJson =>
      exact passed_delta rfl (row_setArguments partialJson _) (fun _ => ⟨rfl, rfl, rfl⟩) rfl rfl
  | contentBlockStop index => exact onContentBlockStop_passed index
  | messageDelta stopReason usage =>
    exact passed_silent (fun before => before) rfl rfl nofun rfl
  | messageStop => cases goes_on
  | ping => exact passed_silent (fun before => before) rfl rfl nofun rfl

/-- What the start of a block does. -/
structure Started (index : UInt32) (start : ContentBlockStart) (work later : Work) : Prop where
  inner : (∀ event ∈ work.events, event.Inner) → ∀ event ∈ later.events, event.Inner
  trace : blockTrace later.events = blockTrace work.events ++
    (.opened start.kind :: startMarks start).map fun mark => (index.toNat, mark)
  rows : blockRows later.partialMessage.content =
    blockRows work.partialMessage.content ++ [start.row]
  index : later.state.blockIndex = index
  running : running later = some start.kind

theorem onContentBlockStart_started (index : UInt32) (start : ContentBlockStart) :
    Started index start work (onContentBlockStart index start work) := by
  have pushed : blockRows (work.partialMessage.content ++ [start.block]) =
      blockRows work.partialMessage.content ++ [start.row] := by
    rw [blockRows_append]
    cases start <;> rfl
  have one : ∀ {before : Work} {event : AssistantMessage → AssistantMessageEvent},
      before.events = work.events → start.given.filter (· ≠ "") = none →
      (∀ message, Tracks.Tells (event message) index (.opened start.kind)) →
      blockTrace (before.emit event).events = blockTrace work.events ++
        (.opened start.kind :: startMarks start).map fun mark => (index.toNat, mark) := by
    intro before event same empty tells
    rw [blockTrace_emit _ tells, startMarks, empty, same]
    rfl
  have two : ∀ {before : Work} {text : String}
      {starts adds : AssistantMessage → AssistantMessageEvent},
      before.events = work.events → start.given.filter (· ≠ "") = some text →
      (∀ message, Tracks.Tells (starts message) index (.opened start.kind)) →
      (∀ message, Tracks.Tells (adds message) index (.piece start.kind text)) →
      blockTrace ((before.emit starts).emit adds).events = blockTrace work.events ++
        (.opened start.kind :: startMarks start).map fun mark => (index.toNat, mark) := by
    intro before text starts adds same given first second
    rw [blockTrace_emit _ second, blockTrace_emit _ first, startMarks, given, same, append_assoc]
    rfl
  unfold onContentBlockStart emitStart
  cases start with
  | text text | thinking text =>
    dsimp only
    split
    · rename_i empty
      exact ⟨inner_emit (fun _ => ⟨rfl, rfl, rfl⟩) rfl,
        one rfl (by simp [ContentBlockStart.given, empty]) fun _ => ⟨rfl, rfl, rfl⟩, pushed, rfl, rfl⟩
    · rename_i given
      exact ⟨fun before => inner_emit (fun _ => ⟨rfl, rfl, rfl⟩) rfl
          (inner_emit (fun _ => ⟨rfl, rfl, rfl⟩) rfl before),
        two rfl (by simp [ContentBlockStart.given, given]) (fun _ => ⟨rfl, rfl, rfl⟩)
          fun _ => ⟨rfl, rfl, rfl⟩, pushed, rfl, rfl⟩
  | redactedThinking data =>
    exact ⟨inner_emit (fun _ => ⟨rfl, rfl, rfl⟩) rfl,
      one rfl rfl fun _ => ⟨rfl, rfl, rfl⟩, pushed, rfl, rfl⟩
  | toolUse id name =>
    exact ⟨inner_emit (fun _ => ⟨rfl, rfl, rfl⟩) rfl,
      one rfl rfl fun _ => ⟨rfl, rfl, rfl⟩, pushed, rfl, rfl⟩

end Steps

section Hearing

variable (serde : Serde)

def hear (work : Work) (event : StreamEvent) : Work :=
  let later := onEvent serde event ⟨work.state, work.partialMessage, []⟩
  ⟨later.state, later.partialMessage, work.events ++ later.events⟩

variable {serde} {work : Work} {event : StreamEvent}

theorem hear_passed (other : event.startsBlock = false)
    (goes_on : event.isStop = false) : Passed event work (hear serde work event) := by
  have passed := @onEvent_passed serde ⟨work.state, work.partialMessage, []⟩ event other goes_on
  refine ⟨?_, ?_, passed.rows, passed.index, passed.running⟩
  · intro before other member
    rcases mem_append.mp member with old | new
    · exact before other old
    · exact passed.inner (forall_mem_nil _) other new
  · refine (blockTrace_append work.events _).trans ?_
    rw [passed.trace]
    rfl

theorem hear_started (index : UInt32) (start : ContentBlockStart) :
    Started index start work (hear serde work (.contentBlockStart index start)) := by
  have started := @onContentBlockStart_started ⟨work.state, work.partialMessage, []⟩ index start
  refine ⟨?_, ?_, started.rows, started.index, started.running⟩
  · intro before other member
    rcases mem_append.mp member with old | new
    · exact before other old
    · exact started.inner (forall_mem_nil _) other new
  · refine (blockTrace_append work.events _).trans ?_
    exact congrArg (blockTrace work.events ++ ·) started.trace

theorem bodyRows_cons (position : Nat) (event : StreamEvent) (body : List StreamEvent)
    (rows : List (Row BlockKind)) :
    bodyRows position (event :: body) rows =
      bodyRows position body (bodyRows position [event] rows) := by
  rw [← singleton_append, bodyRows, filterMap_append, foldl_append]
  rfl

/-- What a whole stream does. -/
structure Heard (events : List StreamEvent) (work later : Work) : Prop where
  inner : (∀ event ∈ work.events, event.Inner) → ∀ event ∈ later.events, event.Inner
  trace : blockTrace later.events = blockTrace work.events ++
    ((bodyMarks (running work) (untilStart events)).map
      (fun mark => (work.state.blockIndex.toNat, mark)) ++
      ((announced events).map Announced.stretch).flatMap Stretch.trace)
  rows : blockRows later.partialMessage.content = (announced events).foldl place
    (bodyRows work.state.blockIndex.toNat (untilStart events)
      (blockRows work.partialMessage.content))

theorem announced_pass (other : event.startsBlock = false)
    (rest : List StreamEvent) : announced (event :: rest) = announced rest := by
  cases event with
  | contentBlockStart => cases other
  | _ => rfl

theorem untilStart_pass (other : event.startsBlock = false)
    (rest : List StreamEvent) : untilStart (event :: rest) = event :: untilStart rest := by
  rw [untilStart, takeWhile_cons, other]
  rfl

theorem heard {events : List StreamEvent} (goes_on : ∀ event ∈ events, event.isStop = false)
    (work : Work) : Heard events work (events.foldl (hear serde) work) := by
  induction events generalizing work with
  | nil => exact ⟨fun before => before, (append_nil _).symm, rfl⟩
  | cons event rest ih =>
    have later := ih (fun other member => goes_on other (mem_cons_of_mem _ member))
      (hear serde work event)
    rw [foldl_cons]
    by_cases starts : event.startsBlock = true
    · cases event with
      | contentBlockStart index start =>
        have started := @hear_started serde work index start
        refine ⟨fun before => later.inner (started.inner before), ?_, ?_⟩
        · rw [later.trace, started.trace, started.running, started.index]
          simp [announced, untilStart, StreamEvent.startsBlock, Announced.stretch,
            Stretch.trace, Stretch.marks, bodyMarks]
        · rw [later.rows, started.rows, started.index]
          rfl
      | _ => cases starts
    · have other := Bool.not_eq_true _ ▸ starts
      have passed := @hear_passed serde work event other (goes_on event mem_cons_self)
      refine ⟨fun before => later.inner (passed.inner before), ?_, ?_⟩
      · rw [later.trace, passed.trace, passed.running, passed.index, announced_pass other,
          untilStart_pass other, bodyMarks, map_append]
        simp
      · rw [later.rows, passed.rows, passed.index, announced_pass other, untilStart_pass other,
          ← bodyRows_cons]

end Hearing

section Pieces

theorem StreamEvent.trichotomy (event : StreamEvent) :
    (∃ index, event = .contentBlockStop index) ∨
      (∀ index, event ≠ .contentBlockStop index) ∧
        (event.piece? = none ∨ ∃ kind text, event.piece? = some (kind, text)) := by
  cases event with
  | contentBlockStop index => exact .inl ⟨index, rfl⟩
  | contentBlockDelta index delta =>
    refine .inr ⟨by simp, ?_⟩
    cases given : delta.piece? with
    | none => exact .inl given
    | some piece => exact .inr ⟨piece.1, piece.2, given⟩
  | _ => exact .inr ⟨by simp, .inl rfl⟩

variable {event : StreamEvent} {kind other : BlockKind} {text : String}

theorem eventMarks_other (goes_on : ∀ index, event ≠ .contentBlockStop index)
    (running : Option BlockKind) :
    eventMarks running event = event.piece?.toList.map (fun piece => .piece piece.1 piece.2) ∧
      stillRunning running event = running := by
  cases event with
  | contentBlockStop index => exact absurd rfl (goes_on index)
  | _ => exact ⟨rfl, rfl⟩

theorem closes_other (goes_on : ∀ index, event ≠ .contentBlockStop index) (running : Bool)
    (rest : List StreamEvent) :
    closes kind running (event :: rest) =
      ((event.piece?.all fun piece => running && piece.1 = kind) && closes kind running rest) := by
  cases event with
  | contentBlockStop index => exact absurd rfl (goes_on index)
  | _ => rfl

theorem texts_silent (silent : event.piece? = none) (rest : List StreamEvent) :
    texts kind (event :: rest) = texts kind rest := by
  rw [texts, filterMap_cons_none silent, texts]

theorem texts_piece (given : event.piece? = some (kind, text)) (rest : List StreamEvent) :
    texts kind (event :: rest) = text :: texts kind rest := by
  simp [texts, filterMap_cons_some given]

theorem bodyMarks_none (kind : BlockKind) (body : List StreamEvent) :
    bodyMarks none body = [] ↔ closes kind false body = true := by
  induction body with
  | nil => simp [bodyMarks, closes]
  | cons event rest ih =>
    rcases event.trichotomy with ⟨index, rfl⟩ | ⟨goes_on, silent | ⟨other, text, given⟩⟩
    · exact ih
    · rw [bodyMarks, (eventMarks_other goes_on none).1, (eventMarks_other goes_on none).2,
        closes_other goes_on, silent]
      exact ih
    · rw [bodyMarks, (eventMarks_other goes_on none).1, closes_other goes_on, given]
      simp

theorem texts_of_closed {body : List StreamEvent} (closed : closes kind false body = true) :
    texts kind body = [] := by
  induction body with
  | nil => rfl
  | cons event rest ih =>
    rcases event.trichotomy with ⟨index, rfl⟩ | ⟨goes_on, silent | ⟨other, text, given⟩⟩
    · exact ih closed
    · rw [closes_other goes_on, silent] at closed
      rw [texts_silent silent]
      exact ih closed
    · rw [closes_other goes_on, given] at closed
      cases closed

theorem bodyMarks_some (kind : BlockKind) (body : List StreamEvent) (pieces : List String) :
    bodyMarks (some kind) body = pieces.map (.piece kind) ++ [.closed kind] ↔
      closes kind true body = true ∧ pieces = texts kind body := by
  induction body generalizing pieces with
  | nil => simp [bodyMarks, closes]
  | cons event rest ih =>
    rcases event.trichotomy with ⟨index, rfl⟩ | ⟨goes_on, silent | ⟨other, text, given⟩⟩
    · have same : bodyMarks (some kind) (.contentBlockStop index :: rest) =
          .closed kind :: bodyMarks none rest := rfl
      have after : closes kind true (.contentBlockStop index :: rest) = closes kind false rest :=
        rfl
      rw [same, after, texts_silent rfl, ← bodyMarks_none kind rest]
      constructor
      · intro whole
        cases pieces with
        | nil =>
          have nothing := (cons.inj whole).2
          exact ⟨nothing, (texts_of_closed ((bodyMarks_none kind rest).mp nothing)).symm⟩
        | cons text others => cases (cons.inj whole).1
      · rintro ⟨nothing, rfl⟩
        rw [texts_of_closed ((bodyMarks_none kind rest).mp nothing), nothing]
        rfl
    · rw [bodyMarks, (eventMarks_other goes_on _).1, (eventMarks_other goes_on _).2,
        closes_other goes_on, silent, texts_silent silent]
      exact ih pieces
    · have same : bodyMarks (some kind) (event :: rest) =
          .piece other text :: bodyMarks (some kind) rest := by
        rw [bodyMarks, (eventMarks_other goes_on _).1, (eventMarks_other goes_on _).2, given]
        rfl
      rw [same, closes_other goes_on, given]
      by_cases own : other = kind
      · subst own
        rw [texts_piece given]
        cases pieces with
        | nil => simp
        | cons first others =>
          constructor
          · intro whole
            obtain ⟨same, tail⟩ := cons.inj whole
            obtain ⟨closed, rfl⟩ := (ih others).mp tail
            exact ⟨by simpa using closed, by rw [(Mark.piece.inj same).2]⟩
          · rintro ⟨closed, same⟩
            obtain ⟨rfl, rfl⟩ := cons.inj same
            rw [map_cons, cons_append, (ih _).mpr ⟨by simpa using closed, rfl⟩]
      · have refused : ¬ .piece other text :: bodyMarks (some kind) rest =
            pieces.map (Mark.piece kind) ++ [.closed kind] := by
          intro whole
          cases pieces with
          | nil => cases (cons.inj whole).1
          | cons first others =>
              exact own (Mark.piece.inj (cons.inj whole).1).1
        simp [refused, own]

end Pieces

section Rows

theorem extend_extend (row : Row BlockKind) (first second : String) :
    (row.extend first).extend second = row.extend (first ++ second) := by
  simp [Row.extend, Option.map_map, Function.comp_def, String.append_assoc]

theorem extend_empty (row : Row BlockKind) : row.extend "" = row := by
  simp [Row.extend]

theorem getElem?_bodyRows (q p : Nat) (body : List StreamEvent) (rows : List (Row BlockKind)) :
    (bodyRows q body rows)[p]? = (rows[p]?).map fun row =>
      if q = p then row.extend (String.join (texts row.kind body)) else row := by
  unfold bodyRows texts
  induction body.filterMap StreamEvent.piece? using reverseRecOn with
  | nil => simp [String.join, extend_empty]
  | append_singleton pieces piece ih =>
    rw [foldl_append, foldl_cons, foldl_nil, getElem?_modify, ih]
    cases rows[p]? with
    | none => rfl
    | some row =>
      by_cases here : q = p
      · have kept : ∀ text, (row.extend text).kind = row.kind := fun _ => rfl
        by_cases own : piece.1 = row.kind
        · simp [here, addPiece, own, kept, extend_extend, filterMap_append]
        · simp [here, addPiece, own, Ne.symm own, kept, filterMap_append]
      · simp [here]

def writers (blocks : List Announced) (p : Nat) : List Announced :=
  (blocks.drop p).filter fun block => block.index.toNat = p

theorem length_bodyRows (q : Nat) (body : List StreamEvent) (rows : List (Row BlockKind)) :
    (bodyRows q body rows).length = rows.length := by
  unfold bodyRows
  induction body.filterMap StreamEvent.piece? using reverseRecOn with
  | nil => rfl
  | append_singleton pieces piece ih =>
    rw [foldl_append, foldl_cons, foldl_nil, length_modify, ih]

theorem length_placed (blocks : List Announced) :
    (blocks.foldl place []).length = blocks.length := by
  induction blocks using reverseRecOn with
  | nil => rfl
  | append_singleton blocks block ih =>
    rw [foldl_append, foldl_cons, foldl_nil, place, length_bodyRows,
      length_append, ih, length_append, length_singleton, length_singleton]

theorem getElem?_placed (blocks : List Announced) (p : Nat) :
    (blocks.foldl place [])[p]? = (blocks[p]?).map fun named =>
      named.start.row.extend (String.join ((writers blocks p).map fun block =>
        String.join (texts named.start.kind block.body))) := by
  induction blocks using reverseRecOn with
  | nil => rfl
  | append_singleton blocks block ih =>
    have size := length_placed blocks
    rw [foldl_append, foldl_cons, foldl_nil, place, getElem?_bodyRows]
    rcases Nat.lt_trichotomy p blocks.length with inside | rfl | outside
    · have own : writers (blocks ++ [block]) p = writers blocks p ++
          if block.index.toNat = p then [block] else [] := by
        rw [writers, drop_append_of_le_length (by omega), filter_append, writers]
        by_cases here : block.index.toNat = p <;> simp [here]
      rw [getElem?_append_left (by omega), getElem?_append_left inside, ih, own]
      cases blocks[p]? with
      | none => rfl
      | some named =>
        have kept : ∀ text, (named.start.row.extend text).kind = named.start.kind := fun _ => rfl
        by_cases here : block.index.toNat = p
        · simp [here, kept, extend_extend]
        · simp [here]
    · have own : writers (blocks ++ [block]) blocks.length =
          if block.index.toNat = blocks.length then [block] else [] := by
        rw [writers, drop_append_of_le_length (Nat.le_refl _), drop_length]
        by_cases here : block.index.toNat = blocks.length <;> simp [here]
      rw [← size, getElem?_append_right (Nat.le_refl _), size,
        getElem?_append_right (Nat.le_refl _), Nat.sub_self, own]
      by_cases here : block.index.toNat = blocks.length
      · have kept : block.start.row.kind = block.start.kind := rfl
        simp [here, kept, String.join]
      · simp [here, extend_empty, String.join]
    · rw [getElem?_eq_none (by simp; omega), getElem?_eq_none (by simp; omega)]
      rfl

variable {blocks : List Announced} {at_place : Nat} {block : Announced}

theorem writers_eq (apart : (blocks.map Announced.index).Nodup)
    (found : blocks[at_place]? = some block) :
    writers blocks block.index.toNat =
      if at_place < block.index.toNat then [] else [block] := by
  have named : ∀ {first second : List Announced}, blocks = first ++ block :: second →
      ∀ other ∈ first ++ second, other.index.toNat ≠ block.index.toNat := by
    rintro first second rfl other member same
    rw [map_append, map_cons, nodup_middle, nodup_cons, ← map_append]
      at apart
    exact apart.1 (mem_map.mpr ⟨other, member, UInt32.toNat_inj.mp same⟩)
  obtain ⟨inside, read⟩ := List.getElem?_eq_some_iff.mp found
  have split : blocks = blocks.take at_place ++ block :: blocks.drop (at_place + 1) := by
    rw [← read, getElem_cons_drop, take_append_drop]
  have others := named split
  have silent : ∀ {part : List Announced},
      (∀ other ∈ part, other ∈ blocks.take at_place ++ blocks.drop (at_place + 1)) →
      part.filter (fun other => other.index.toNat = block.index.toNat) = [] := by
    intro part within
    rw [filter_eq_nil_iff]
    intro other member
    simpa using others other (within other member)
  rw [writers]
  split
  · rename_i early
    apply silent
    intro other member
    apply mem_append_right
    exact (drop_subset_drop_left blocks (Nat.succ_le_of_lt early)) member
  · rename_i late
    rw [Nat.not_lt] at late
    rw [split, drop_append_of_le_length (by rw [length_take]; omega), filter_append,
      filter_cons, if_pos (decide_eq_true rfl), silent fun other member =>
        mem_append_left _ (mem_of_mem_drop member), silent fun other member =>
        mem_append_right _ member]
    rfl

theorem given_eq_none_iff (start : ContentBlockStart) :
    start.given = none ↔ start.kind = .toolCall := by
  cases start <;> simp [ContentBlockStart.given, ContentBlockStart.kind]

theorem stretch_body (block : Announced) (pieces : List String) :
    block.stretch.body = pieces.map (.piece block.start.kind) ++ [.closed block.start.kind] ↔
      closes block.start.kind true block.body = true ∧
        pieces = (block.start.given.filter (· ≠ "")).toList ++ texts block.start.kind block.body := by
  have body : block.stretch.body =
      startMarks block.start ++ bodyMarks (some block.start.kind) block.body := rfl
  rw [body, startMarks]
  cases block.start.given.filter (· ≠ "") with
  | none => exact bodyMarks_some _ _ _
  | some text =>
    cases pieces with
    | nil => simp
    | cons first others =>
      have tail := bodyMarks_some block.start.kind block.body others
      constructor
      · intro whole
        obtain ⟨same, more⟩ := cons.inj whole
        obtain ⟨closed, rfl⟩ := tail.mp more
        exact ⟨closed, by rw [(Mark.piece.inj same).2]; rfl⟩
      · rintro ⟨closed, same⟩
        obtain ⟨rfl, rfl⟩ := cons.inj same
        exact congrArg (_ :: ·) (tail.mpr ⟨closed, rfl⟩)

theorem join_given (start : ContentBlockStart) (rest : List String) :
    String.join ((start.given.filter (· ≠ "")).toList ++ rest) =
      start.given.getD "" ++ String.join rest := by
  cases start.given with
  | none => simp
  | some text =>
    by_cases empty : text = ""
    · simp [Option.filter, empty]
    · simp [Option.filter, empty]

theorem whole_iff (apart : (blocks.map Announced.index).Nodup)
    (found : blocks[at_place]? = some block) :
    (∃ row, (blocks.foldl place [])[block.index.toNat]? = some row ∧ block.stretch.Whole row) ↔
      closes block.start.kind true block.body = true ∧
        ∃ other : Announced, blocks[block.index.toNat]? = some other ∧
          other.start.kind = block.start.kind ∧
          other.start.given =
            if at_place < block.index.toNat then block.start.given.map (· ++ block.written)
            else block.start.given := by
  rw [getElem?_placed, writers_eq apart found]
  cases blocks[block.index.toNat]? with
  | none => simp
  | some named =>
    simp only [Option.map_some, Option.some.injEq, exists_eq_left']
    have whole : ∀ row, block.stretch.Whole row ↔ closes block.start.kind true block.body = true ∧
        row.kind = block.start.kind ∧
          ∀ text, row.written = some text → block.start.given.getD "" ++ block.written = text := by
      intro row
      unfold Stretch.Whole
      constructor
      · rintro ⟨kind, pieces, holds, body⟩
        obtain ⟨closed, rfl⟩ := (stretch_body block pieces).mp body
        refine ⟨closed, kind, fun text written => ?_⟩
        rw [← holds text written, join_given]
        rfl
      · rintro ⟨closed, kind, holds⟩
        refine ⟨kind, _, fun text written => ?_, (stretch_body block _).mpr ⟨closed, rfl⟩⟩
        rw [← holds text written, join_given]
        rfl
    rw [whole]
    have kept : ∀ text, (named.start.row.extend text).kind = named.start.kind := fun _ => rfl
    rw [kept]
    refine and_congr_right fun _ => and_congr_right fun same => ?_
    have adds : (named.start.row.extend (String.join
        ((if at_place < block.index.toNat then [] else [block]).map fun block : Announced =>
          String.join (texts named.start.kind block.body)))).written =
        named.start.given.map
          (· ++ if at_place < block.index.toNat then "" else block.written) := by
      rw [same]
      split
      · rfl
      · rw [map_singleton, String.join_cons, String.join_nil, String.append_empty]
        rfl
    rw [adds]
    cases given : named.start.given with
    | none =>
      have none_given : block.start.given = none := by
        rw [given_eq_none_iff, ← same, ← given_eq_none_iff, given]
      simp [none_given]
    | some text =>
      cases own : block.start.given with
      | none =>
        rw [given_eq_none_iff, ← same, ← given_eq_none_iff, given] at own
        cases own
      | some mine =>
        simp only [Option.map_some, Option.some.injEq, Option.getD_some, forall_eq']
        split
        · rw [String.append_empty, Option.some.injEq]
          exact eq_comm
        · rw [String.append_left_inj, Option.some.injEq]
          exact eq_comm

theorem bodyMarks_plain (running : Option BlockKind) (body : List StreamEvent) :
    ∀ mark ∈ bodyMarks running body, mark.isOpened = false := by
  induction body generalizing running with
  | nil => exact fun mark none_there => absurd none_there not_mem_nil
  | cons event rest ih =>
    intro mark member
    rcases mem_append.mp member with first | later
    · rcases event.trichotomy with ⟨index, rfl⟩ | ⟨goes_on, _⟩
      · obtain ⟨_, _, rfl⟩ := mem_map.mp first
        rfl
      · rw [(eventMarks_other goes_on running).1] at first
        obtain ⟨_, _, rfl⟩ := mem_map.mp first
        rfl
    · exact ih _ mark later

theorem bodyMarks_silent (body : List StreamEvent) :
    bodyMarks none body = [] ↔ ∀ event ∈ body, event.piece? = none := by
  induction body with
  | nil => simp [bodyMarks]
  | cons event rest ih =>
    rw [forall_mem_cons]
    rcases event.trichotomy with ⟨index, rfl⟩ | ⟨goes_on, silent | ⟨other, text, given⟩⟩
    · exact ih.trans (and_iff_right rfl).symm
    · rw [bodyMarks, (eventMarks_other goes_on none).1, (eventMarks_other goes_on none).2, silent]
      exact ih.trans (and_iff_right rfl).symm
    · rw [bodyMarks, (eventMarks_other goes_on none).1, given]
      simp

theorem bracketed_iff_orderly (events : List StreamEvent) :
    Bracketed ((bodyMarks none (untilStart events)).map (fun mark => (0, mark)) ++
        ((announced events).map Announced.stretch).flatMap Stretch.trace)
      ((announced events).foldl place []) ↔ Orderly events := by
  have plain : Stretch.Plain ((announced events).map Announced.stretch) := by
    intro stretch member mark inside
    obtain ⟨block, _, rfl⟩ := mem_map.mp member
    rcases mem_append.mp inside with first | later
    · obtain ⟨_, _, rfl⟩ := mem_map.mp first
      rfl
    · exact bodyMarks_plain _ _ mark later
  have all : ((announced events).map Announced.stretch).length =
      ((announced events).foldl place []).length := by
    rw [length_placed, length_map]
  have nodup : (((announced events).map Announced.stretch).map Stretch.position).Nodup ↔
      ((announced events).map Announced.index).Nodup := by
    have same : ((announced events).map Announced.stretch).map Stretch.position =
        ((announced events).map Announced.index).map UInt32.toNat := by
      simp only [map_map]
      rfl
    rw [same]
    exact nodup_map_iff fun _ _ => UInt32.toNat_inj.mp
  have wholes : ((announced events).map Announced.index).Nodup →
      ((∀ stretch ∈ (announced events).map Announced.stretch,
          ∃ row, ((announced events).foldl place [])[stretch.position]? = some row ∧
            stretch.Whole row) ↔
        ∀ (at_place : Nat) (block : Announced), (announced events)[at_place]? = some block →
          ∃ row, ((announced events).foldl place [])[block.index.toNat]? = some row ∧
            block.stretch.Whole row) := by
    intro apart
    constructor
    · intro each at_place block found
      exact each _ (mem_map.mpr ⟨block, mem_of_getElem? found, rfl⟩)
    · intro each stretch member
      obtain ⟨block, inside, rfl⟩ := mem_map.mp member
      obtain ⟨at_place, found⟩ := mem_iff_getElem?.mp inside
      exact each at_place block found
  constructor
  · intro bracketed
    have nothing := Stretch.nothing_before bracketed (bodyMarks_plain none _)
    rw [nothing, map_nil, nil_append, Stretch.bracketed_iff plain all, nodup] at bracketed
    obtain ⟨apart, each⟩ := bracketed
    have each := (wholes apart).mp each
    refine ⟨(bodyMarks_silent _).mp nothing, apart, ?_, ?_⟩
    · intro block inside
      obtain ⟨at_place, found⟩ := mem_iff_getElem?.mp inside
      exact ((whole_iff apart found).mp (each at_place block found)).1
    · intro at_place block found
      exact ((whole_iff apart found).mp (each at_place block found)).2
  · intro orderly
    rw [(bodyMarks_silent _).mpr orderly.before, map_nil, nil_append,
      Stretch.bracketed_iff plain all, nodup]
    refine ⟨orderly.apart, (wholes orderly.apart).mpr ?_⟩
    intro at_place block found
    exact (whole_iff orderly.apart found).mpr
      ⟨orderly.closed block (mem_of_getElem? found), orderly.named at_place block found⟩

end Rows

section Runs

variable {serde : Serde} {parse : String → Except String StreamEvent}

def Working (serde : Serde) (parse : String → Except String StreamEvent) (start : Work)
    (history : List String) (state : AnthropicHandler) (partialMessage : AssistantMessage)
    (yielded : List AssistantMessageEvent) : Prop :=
  (∀ event ∈ wireEvents parse history, event.isStop = false) ∧
    (wireEvents parse history).foldl (hear serde) start = ⟨state, partialMessage, yielded⟩

theorem working_step {start : Work} {history : List String} {data : String}
    {state later : AnthropicHandler} {partialMessage message : AssistantMessage}
    {yielded events : List AssistantMessageEvent}
    (working : Working serde parse start history state partialMessage yielded)
    (answered : (handler serde parse).handleEvent data state partialMessage =
      .ok (later, message, .continued events)) :
    Working serde parse start (history ++ [data]) later message (yielded ++ events) := by
  obtain ⟨event, parsed, goes_on, same⟩ := handleEvent_continued answered
  refine ⟨running_append working.1 parsed goes_on, ?_⟩
  rw [wireEvents_append parsed, foldl_append, working.2]
  simp only [foldl_cons, foldl_nil, hear, same]

theorem faithful_of_working {apiName : String} {model : Model} {history : List String}
    {state : AnthropicHandler} {before : AssistantMessage} {all : List AssistantMessageEvent}
    (working : Working serde parse ⟨{}, startMessage apiName model, []⟩ history state before all)
    (reason : StopReason) {message : AssistantMessage} (same : message.content = before.content) :
    Faithful (all ++ [.done reason message]) message ↔ Orderly (wireEvents parse history) := by
  have whole := @heard serde _ working.1 ⟨{}, startMessage apiName model, []⟩
  rw [working.2] at whole
  have inner := whole.inner (forall_mem_nil _)
  have empty : bodyRows 0 (untilStart (wireEvents parse history)) [] = [] :=
    eq_nil_of_length_eq_zero (length_bodyRows _ _ _)
  have trace := whole.trace
  have rows : blockRows before.content =
      (announced (wireEvents parse history)).foldl place
        (bodyRows 0 (untilStart (wireEvents parse history)) []) := whole.rows
  rw [faithful_iff_bracketed inner, same, rows, empty, trace]
  exact bracketed_iff_orderly _

theorem process_faithful_iff {body : List (Except String Bytes)} {model : Model}
    {cancelled : Nat → Bool} {apiName : String} {reason : StopReason} {message : AssistantMessage}
    (ends : ((handler serde parse).processSse body model cancelled apiName).getLast? =
      some (.done reason message)) :
    Faithful ((handler serde parse).processSse body model cancelled apiName) message ↔
      Orderly (handled (wireEvents parse (delivered (Sse.iterateSse body)))) := by
  have start : Working serde parse ⟨{}, startMessage apiName model, []⟩ [] {}
      (startMessage apiName model) [] :=
    ⟨forall_mem_nil _, rfl⟩
  have yields := @SseEventHandler.processSse_yields _ (handler serde parse) cancelled
    (Working serde parse ⟨{}, startMessage apiName model, []⟩) working_step
  rcases yields start ends with ⟨last, before, all, working, whole, rfl⟩ |
    ⟨seen, data, unseen, last, before, all, later, final, events, split, working, answered, whole⟩
  · rw [whole, handled_all working.1]
    exact faithful_of_working working _ rfl
  · obtain ⟨stopped, finished⟩ := handleEvent_done answered
    obtain ⟨ended, ending, same⟩ : ∃ ended : AssistantMessage,
        (onMessageStop ⟨last, before, []⟩).events = [.done ended.stopReason ended] ∧
          ended.content = before.content :=
      ⟨(onMessageStop ⟨last, before, []⟩).partialMessage, rfl, rfl⟩
    rw [finished] at ending
    dsimp only at ending
    rw [whole, ending, getLast?_concat] at ends
    cases ends
    rw [whole, ending, split, handled_stopped working.1 stopped]
    exact faithful_of_working working _ same

end Runs

end PiRust.Anthropic
