import Mathlib.Data.List.Perm.Basic
import PiRust.ChunkHandler
import PiRust.ToolCalls

/- The tool-call deltas of a chat completion chunk, which name the call they
belong to by an index. `openai/completions` and `mistral` handle them alike. -/
namespace PiRust

open List

structure ToolCallFunctionDelta where
  name : Option String
  arguments : Option String

structure ToolCallDelta where
  index : Option UInt32
  id : Option String
  function : Option ToolCallFunctionDelta

structure ToolIndex where
  toolIndexMap : Std.TreeMap UInt32 UInt32 := ∅
  toolArgsAcc : Std.TreeMap UInt32 String := ∅

structure IterationOrder where
  visit : List (UInt32 × UInt32) → List (UInt32 × UInt32)
  perm : ∀ entries, (visit entries).Perm entries

def IterationOrder.ascending : IterationOrder := ⟨id, fun entries => Perm.refl entries⟩

def ToolIndex.acc (index : ToolIndex) (key : UInt32) : String :=
  (index.toolArgsAcc[key]?).getD ""

variable (delta : ToolCallDelta)

def ToolCallDelta.key : UInt32 := delta.index.getD 0

def ToolCallDelta.openBlock (work : Progress ToolIndex) : Progress ToolIndex × UInt32 :=
  match work.state.toolIndexMap[delta.key]? with
  | some pos => (work, pos)
  | none =>
    let pos := work.position
    (((work.withState
        { work.state with toolIndexMap := work.state.toolIndexMap.insert delta.key pos }).push
      (openedCall (delta.id.getD "") "")).emit (.toolcallStart pos), pos)

def writeId (pos : UInt32) (work : Progress ToolIndex) : Progress ToolIndex :=
  match delta.id with
  | some id => work.edit pos.toNat (ContentBlock.setId id)
  | none => work

def writeName (rename : Option String → String → ContentBlock → ContentBlock)
    (delta : ToolCallDelta) (pos : UInt32) (work : Progress ToolIndex) : Progress ToolIndex :=
  match delta.function.bind ToolCallFunctionDelta.name with
  | some name => work.edit pos.toNat (rename delta.id name)
  | none => work

variable (serde : Serde)

def writeArguments (delta : ToolCallDelta) (pos : UInt32) (work : Progress ToolIndex) :
    Progress ToolIndex :=
  match delta.function.bind ToolCallFunctionDelta.arguments with
  | some args =>
    let acc := work.state.acc delta.key ++ args
    ((work.withState
        { work.state with toolArgsAcc := work.state.toolArgsAcc.insert delta.key acc }).edit
      pos.toNat (ContentBlock.setArguments (parseStreamingJson serde acc))).emit
        (.toolcallDelta pos args)
  | none => work

/-- One delta. `rename` is what a handler writes when the delta has a name. -/
def onToolCall (rename : Option String → String → ContentBlock → ContentBlock)
    (work : Progress ToolIndex) (delta : ToolCallDelta) : Progress ToolIndex :=
  let opened := delta.openBlock work
  writeArguments serde delta opened.2
    (writeName rename delta opened.2 (writeId delta opened.2 opened.1))

def endToolcalls (order : IterationOrder) (work : Progress ToolIndex) : Progress ToolIndex :=
  (order.visit work.state.toolIndexMap.toList).foldl (fun work entry =>
    (work.edit entry.2.toNat (ContentBlock.setArguments
      (parseStreamingJson serde (work.state.acc entry.1)))).emit (.toolcallEnd entry.2)) work

theorem endToolcalls_blockCount (order : IterationOrder) (work : Progress ToolIndex) :
    (endToolcalls serde order work).blockCount = work.blockCount := by
  unfold endToolcalls
  apply work.foldl_keeps
  intro entry _ work
  rw [Progress.emit_blockCount, Progress.edit_blockCount]

/-- What a delta says about the argument texts. -/
def ToolCallDelta.move : Assembly.Move UInt32 :=
  .joined delta.key ((delta.function.bind ToolCallFunctionDelta.arguments).getD "")

/-- The maps and the content after some deltas. The positions are right as long
as they fit the `u32` they are kept in. -/
structure Indexed (calls : Assembly UInt32) (index : ToolIndex) (content : List ContentBlock) :
    Prop where
  known : ∀ key, (index.toolIndexMap[key]?).isSome = (calls.owner key).isSome
  fresh : ∀ key, calls.owner key = none → index.toolArgsAcc[key]? = none
  held : Held calls fun key => some (index.acc key)
  written : content.length ≤ UInt32.size →
    Written serde content calls fun key => (index.toolIndexMap[key]?).map UInt32.toNat

abbrev Indexed.At (calls : Assembly UInt32) (work : Progress ToolIndex) : Prop :=
  Indexed serde calls work.state work.partialMessage.content

namespace Indexed

variable {serde} {calls : Assembly UInt32} {index : ToolIndex} {content : List ContentBlock}

theorem initial : Indexed serde Assembly.empty {} [] where
  known := fun _ => rfl
  fresh := fun _ _ => rfl
  held := by
    intro key text absent
    cases absent
  written := fun _ => Written.empty _

section

variable (indexed : Indexed serde calls index content)
include indexed

theorem push {block : ContentBlock} (other : block.arguments? = none) :
    Indexed serde calls index (content ++ [block]) where
  __ := indexed
  written := by
    intro room
    rw [length_append, length_singleton] at room
    exact (indexed.written (by omega)).push other

theorem edit (p : Nat) {change : ContentBlock → ContentBlock}
    (same : ∀ block, (change block).arguments? = block.arguments?) :
    Indexed serde calls index (content.modify p change) where
  __ := indexed
  written := by
    intro room
    rw [length_modify] at room
    exact (indexed.written room).edit p same

theorem owned {key pos : UInt32} (found : index.toolIndexMap[key]? = some pos) :
    ∃ n, calls.owner key = some n ∧ calls.current key = some (index.acc key) := by
  have known := indexed.known key
  rw [found, Option.isSome_some] at known
  obtain ⟨n, owned⟩ := Option.isSome_iff_exists.mp known.symm
  obtain ⟨text, current, _⟩ := Assembly.current_of_owner owned
  exact ⟨n, owned, current.trans (indexed.held current).symm⟩

theorem rewrite {key pos : UInt32} (found : index.toolIndexMap[key]? = some pos) :
    Indexed serde calls index (content.modify pos.toNat
      (ContentBlock.setArguments (parseStreamingJson serde (index.acc key)))) where
  __ := indexed
  written := by
    intro room
    rw [length_modify] at room
    obtain ⟨n, owned, current⟩ := indexed.owned found
    exact (indexed.written room).rewrite owned (by rw [found]; rfl) current

end

theorem opened (indexed : Indexed serde calls index content) {key : UInt32}
    (unowned : calls.owner key = none) (id name : String) :
    Indexed serde (calls.opened key)
      { index with toolIndexMap := index.toolIndexMap.insert key (UInt32.ofNat content.length) }
      (content ++ [openedCall id name]) where
  known := by
    intro other
    rw [getElem?_insert, Assembly.owner_opened]
    by_cases same : other = key
    · rw [if_pos same, if_pos same, Option.isSome_some, Option.isSome_some]
    · rw [if_neg same, if_neg same, indexed.known other]
  fresh := by
    intro other free
    rw [Assembly.owner_opened] at free
    by_cases same : other = key
    · rw [if_pos same] at free
      cases free
    · rw [if_neg same] at free
      exact indexed.fresh other free
  held := by
    intro other text current
    rw [Assembly.current_opened] at current
    by_cases same : other = key
    · rw [if_pos same] at current
      simp only [ToolIndex.acc, same, indexed.fresh key unowned, Option.getD_none]
      exact current
    · rw [if_neg same] at current
      exact indexed.held current
  written := by
    intro room
    rw [length_append, length_singleton] at room
    refine (indexed.written (by omega)).opened key _ _ ?_ ?_
    · rw [Std.TreeMap.getElem?_insert_self, Option.map_some, UInt32.toNat_ofNat_of_lt' (by omega)]
    · intro other apart
      rw [getElem?_insert, if_neg apart]

theorem piece (indexed : Indexed serde calls index content) {key pos : UInt32}
    (found : index.toolIndexMap[key]? = some pos) (args : String) :
    Indexed serde (calls.piece key args)
      { index with toolArgsAcc := index.toolArgsAcc.insert key (index.acc key ++ args) }
      (content.modify pos.toNat (ContentBlock.setArguments
        (parseStreamingJson serde (index.acc key ++ args)))) where
  known := indexed.known
  fresh := by
    intro other free
    obtain ⟨n, owned, _⟩ := indexed.owned found
    have apart : other ≠ key := by
      intro same
      rw [Assembly.owner_piece, same, owned] at free
      cases free
    rw [getElem?_insert, if_neg apart, indexed.fresh other free]
  held := by
    intro other text current
    rw [Assembly.current_piece] at current
    simp only [ToolIndex.acc, getElem?_insert]
    by_cases same : other = key
    · rw [if_pos same] at current
      obtain ⟨own, before, rfl⟩ := Option.map_eq_some_iff.mp current
      rw [if_pos same, Option.getD_some]
      exact congrArg (Option.map (· ++ args)) (indexed.held before)
    · rw [if_neg same] at current
      rw [if_neg same]
      exact indexed.held current
  written := by
    intro room
    rw [length_modify] at room
    obtain ⟨n, owned, current⟩ := indexed.owned found
    exact (indexed.written room).piece owned (by rw [found]; rfl) current args

end Indexed

section Steps

variable {serde} {calls : Assembly UInt32} {work : Progress ToolIndex}

section

variable (indexed : Indexed.At serde calls work)
include indexed

theorem openBlock_spec (delta : ToolCallDelta) :
    Indexed.At serde (calls.ensured delta.key) (delta.openBlock work).1 ∧
      (delta.openBlock work).1.state.toolIndexMap[delta.key]? = some (delta.openBlock work).2 := by
  have known := indexed.known delta.key
  unfold ToolCallDelta.openBlock Assembly.ensured
  cases found : work.state.toolIndexMap[delta.key]? with
  | some pos =>
    rw [found] at known
    obtain ⟨n, owned⟩ := Option.isSome_iff_exists.mp known.symm
    rw [owned]
    exact ⟨indexed, found⟩
  | none =>
    rw [found, Option.isSome_none] at known
    have unowned : calls.owner delta.key = none := by
      cases owner : calls.owner delta.key with
      | none => rfl
      | some n =>
        rw [owner] at known
        cases known
    rw [unowned]
    refine ⟨indexed.opened unowned _ _, ?_⟩
    exact Std.TreeMap.getElem?_insert_self

theorem writeId_indexed (delta : ToolCallDelta) (pos : UInt32) :
    Indexed.At serde calls (writeId delta pos work) ∧
      (writeId delta pos work).state = work.state := by
  unfold writeId
  split
  · exact ⟨indexed.edit _ (ContentBlock.arguments?_setId · _), rfl⟩
  · exact ⟨indexed, rfl⟩

variable {rename : Option String → String → ContentBlock → ContentBlock}

theorem writeName_indexed
    (kept : ∀ id name block, (rename id name block).arguments? = block.arguments?)
    (delta : ToolCallDelta) (pos : UInt32) :
    Indexed.At serde calls (writeName rename delta pos work) ∧
      (writeName rename delta pos work).state = work.state := by
  unfold writeName
  split
  · exact ⟨indexed.edit _ (kept _ _), rfl⟩
  · exact ⟨indexed, rfl⟩

theorem writeArguments_indexed {delta : ToolCallDelta} {pos : UInt32}
    (found : work.state.toolIndexMap[delta.key]? = some pos) :
    Indexed.At serde
      (calls.piece delta.key ((delta.function.bind ToolCallFunctionDelta.arguments).getD ""))
      (writeArguments serde delta pos work) := by
  unfold writeArguments
  split
  · rename_i args given
    rw [given]
    exact indexed.piece found args
  · rename_i absent
    rw [absent, Option.getD_none, Assembly.piece_empty]
    exact indexed

theorem onToolCall_indexed
    (kept : ∀ id name block, (rename id name block).arguments? = block.arguments?)
    (delta : ToolCallDelta) :
    Indexed.At serde (calls.step delta.move) (onToolCall serde rename work delta) := by
  obtain ⟨opened, found⟩ := openBlock_spec indexed delta
  obtain ⟨identified, sameId⟩ := writeId_indexed opened delta (delta.openBlock work).2
  obtain ⟨named, sameName⟩ := writeName_indexed identified kept delta (delta.openBlock work).2
  apply writeArguments_indexed named
  rw [sameName, sameId, found]

end

theorem endToolcalls_indexed (work : Progress ToolIndex) (indexed : Indexed.At serde calls work)
    (order : IterationOrder) :
    Indexed serde calls work.state (endToolcalls serde order work).partialMessage.content := by
  have known : ∀ entry ∈ order.visit work.state.toolIndexMap.toList,
      work.state.toolIndexMap[entry.1]? = some entry.2 := by
    intro entry member
    apply Std.TreeMap.mem_toList_iff_getElem?_eq_some.mp
    exact (order.perm _).mem_iff.mp member
  unfold endToolcalls
  generalize order.visit work.state.toolIndexMap.toList = entries at known
  induction entries generalizing work with
  | nil => exact indexed
  | cons entry entries ih =>
    have written : Indexed.At serde calls ((work.edit entry.2.toNat (ContentBlock.setArguments
        (parseStreamingJson serde (work.state.acc entry.1)))).emit (.toolcallEnd entry.2)) :=
      indexed.rewrite (known entry mem_cons_self)
    exact ih _ written fun other member => known other (mem_cons_of_mem entry member)

end Steps

def ContentBlock.call? : ContentBlock → Option (String × String × Value)
  | .toolCall id name arguments _ => some (id, name, arguments)
  | _ => none

section Calls

variable {block other : ContentBlock}

theorem arguments?_of_call? (same : block.call? = other.call?) :
    block.arguments? = other.arguments? := by
  have read : ∀ block : ContentBlock, block.arguments? = block.call?.map fun call => call.2.2 :=
    fun block => by cases block <;> rfl
  rw [read, read, same]

theorem callId?_of_call? (same : block.call? = other.call?) : block.callId? = other.callId? := by
  have read : ∀ block : ContentBlock, block.callId? = block.call?.map Prod.fst :=
    fun block => by cases block <;> rfl
  rw [read, read, same]

theorem call?_pushText (text : String) (block : ContentBlock) :
    (block.pushText text).call? = block.call? := by
  cases block <;> rfl

theorem call?_pushThinking (text : String) (block : ContentBlock) :
    (block.pushThinking text).call? = block.call? := by
  cases block <;> rfl

end Calls

/-- What some deltas have made of the maps and the content, whatever other blocks are
pushed and written in between. -/
structure CallRule (rename : Option String → String → ContentBlock → ContentBlock)
    (Rel : List ToolCallDelta → ToolIndex → List ContentBlock → Prop) : Prop where
  initial : Rel [] {} []
  push : ∀ {deltas index content block}, block.call? = none → Rel deltas index content →
    Rel deltas index (content ++ [block])
  edit : ∀ {deltas index content} (p : Nat) {change : ContentBlock → ContentBlock},
    (∀ block, (change block).call? = block.call?) → Rel deltas index content →
    Rel deltas index (content.modify p change)
  step : ∀ {deltas} {work : Progress ToolIndex} (delta : ToolCallDelta),
    Rel deltas work.state work.partialMessage.content →
    Rel (deltas ++ [delta]) (onToolCall serde rename work delta).state
      (onToolCall serde rename work delta).partialMessage.content
  ends : ∀ {deltas} (work : Progress ToolIndex) (order : IterationOrder),
    Rel deltas work.state work.partialMessage.content →
    Rel deltas work.state (endToolcalls serde order work).partialMessage.content

theorem CallRule.steps {serde : Serde}
    {rename : Option String → String → ContentBlock → ContentBlock}
    {Rel : List ToolCallDelta → ToolIndex → List ContentBlock → Prop}
    (rule : CallRule serde rename Rel) {seen : List ToolCallDelta} {work : Progress ToolIndex}
    (holds : Rel seen work.state work.partialMessage.content) (deltas : List ToolCallDelta) :
    Rel (seen ++ deltas) (deltas.foldl (onToolCall serde rename) work).state
      (deltas.foldl (onToolCall serde rename) work).partialMessage.content := by
  induction deltas generalizing seen work with
  | nil => rwa [append_nil]
  | cons delta rest ih =>
    rw [append_cons]
    exact ih (rule.step delta holds)

theorem Indexed.callRule {serde : Serde}
    {rename : Option String → String → ContentBlock → ContentBlock}
    (kept : ∀ id name block, (rename id name block).arguments? = block.arguments?) :
    CallRule serde rename fun deltas =>
      Indexed serde (Assembly.run (deltas.map ToolCallDelta.move)) where
  initial := Indexed.initial
  push other indexed := indexed.push (@arguments?_of_call? _ (.image "" "") other)
  edit p _ same indexed := indexed.edit p fun block => arguments?_of_call? (same block)
  step := by
    intro deltas work delta indexed
    rw [map_append, map_singleton, Assembly.run_append]
    exact onToolCall_indexed indexed kept delta
  ends work order indexed := endToolcalls_indexed work indexed order

namespace ChunkHandler

variable {σ ε : Type} {parse : String → Except String ε} {initial : σ}
  {onChunk : ε → Progress σ → Progress σ}
  {finalize : σ → AssistantMessage → AssistantMessage × List AssistantMessageEvent}
  {body : List (Except String Bytes)} {model : Model} {cancelled : Nat → Bool}
  {apiName : String} {reason : StopReason} {message : AssistantMessage}

theorem ruled (tools : σ → ToolIndex) (deltas : ε → List ToolCallDelta)
    {Rel : List ToolCallDelta → ToolIndex → List ContentBlock → Prop}
    (start : Rel [] (tools initial) [])
    (step : ∀ chunk seen (work : Progress σ),
      Rel seen (tools work.state) work.partialMessage.content →
      Rel (seen ++ deltas chunk) (tools (onChunk chunk work).state)
        (onChunk chunk work).partialMessage.content)
    (ended : ∀ seen state partialMessage, Rel seen (tools state) partialMessage.content →
      Rel seen (tools state) (finalize state partialMessage).1.content)
    (ends : ((chunkHandler parse initial onChunk finalize).processSse body model cancelled
      apiName).getLast? = some (.done reason message)) :
    ∃ index, Rel ((wireEvents parse (delivered (Sse.iterateSse body))).flatMap deltas) index
      message.content := by
  obtain ⟨last, before, holds, rfl⟩ := ChunkHandler.finalized
    (fun chunks state partialMessage =>
      Rel (chunks.flatMap deltas) (tools state) partialMessage.content)
    start (by
      intro chunks chunk work holds
      rw [flatMap_append, flatMap_singleton]
      exact step chunk _ work holds) ends
  exact ⟨tools last, ended _ _ _ holds⟩

end ChunkHandler

end PiRust
