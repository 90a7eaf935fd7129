import Mathlib.Data.Finset.Card
import PiRust.Completions
import PiRust.Google
import PiRust.Mistral
import PiRust.StreamTrace

/- The handlers that take the position of a block for its content index, and end
every block that they open: their streams are well bracketed. -/
namespace PiRust

open List

section ToolCalls

variable {serde : Serde} {rename : Option String → String → ContentBlock → ContentBlock}
  {others : List (BlockKind × Nat)} {earlier : List AssistantMessageEvent}
  {work : Progress ToolIndex}

def ToolIndex.slots (index : ToolIndex) : List (BlockKind × Nat) :=
  index.toolIndexMap.toList.map fun entry => (.toolCall, entry.2.toNat)

theorem ToolIndex.mem_slots {index : ToolIndex} {key pos : UInt32}
    (found : index.toolIndexMap[key]? = some pos) : (.toolCall, pos.toNat) ∈ index.slots :=
  mem_map.mpr ⟨(key, pos), Std.TreeMap.mem_toList_iff_getElem?_eq_some.mpr found, rfl⟩

theorem slots_insert {index : ToolIndex} {key : UInt32} (fresh : index.toolIndexMap[key]? = none)
    (pos : UInt32) :
    ({ index with toolIndexMap := index.toolIndexMap.insert key pos } : ToolIndex).slots.Perm
      ((.toolCall, pos.toNat) :: index.slots) := by
  have all : (index.toolIndexMap.toList.filter fun entry => ¬ key == entry.1) =
      index.toolIndexMap.toList := by
    rw [filter_eq_self]
    intro entry member
    have held := Std.TreeMap.mem_toList_iff_getElem?_eq_some.mp member
    have apart : key ≠ entry.1 := by
      rintro rfl
      rw [fresh] at held
      cases held
    simpa using apart
  have inserted := @Std.TreeMap.toList_insert_perm _ _ _ index.toolIndexMap _ _ _ key pos
  rw [all] at inserted
  exact inserted.map _

theorem openBlock_tracks (tracks : Tracks (others ++ work.state.slots) earlier work)
    (delta : ToolCallDelta) :
    Tracks (others ++ (delta.openBlock work).1.state.slots) earlier (delta.openBlock work).1 ∧
      (.toolCall, (delta.openBlock work).2.toNat) ∈ (delta.openBlock work).1.state.slots := by
  unfold ToolCallDelta.openBlock
  split
  · rename_i pos found
    exact ⟨tracks, ToolIndex.mem_slots found⟩
  · rename_i fresh
    have inserted := slots_insert fresh work.position
    constructor
    · have opened := tracks.opened (openedCall (delta.id.getD "") "")
        (.toolcallStart work.position) fun _ none => by
          cases none
      exact (opened.perm ((inserted.append_left others).trans perm_middle)).part _
    · exact inserted.mem_iff.mpr mem_cons_self

theorem onToolCall_tracks (kept : ∀ id name block, (rename id name block).row = block.row)
    (tracks : Tracks (others ++ work.state.slots) earlier work) (delta : ToolCallDelta) :
    Tracks (others ++ (onToolCall serde rename work delta).state.slots) earlier
      (onToolCall serde rename work delta) := by
  obtain ⟨opened, running⟩ := openBlock_tracks tracks delta
  unfold onToolCall
  dsimp only
  generalize delta.openBlock work = result at opened running
  obtain ⟨work, pos⟩ := result
  have ided : ∀ {work : Progress ToolIndex}, Tracks (others ++ work.state.slots) earlier work →
      Tracks (others ++ (writeId delta pos work).state.slots) earlier (writeId delta pos work) ∧
        (writeId delta pos work).state.slots = work.state.slots := by
    intro work tracks
    unfold writeId
    split
    · exact ⟨tracks.rewrite _ (ContentBlock.row_setId _), rfl⟩
    · exact ⟨tracks, rfl⟩
  have named : ∀ {work : Progress ToolIndex}, Tracks (others ++ work.state.slots) earlier work →
      Tracks (others ++ (writeName rename delta pos work).state.slots) earlier
          (writeName rename delta pos work) ∧
        (writeName rename delta pos work).state.slots = work.state.slots := by
    intro work tracks
    unfold writeName
    split
    · exact ⟨tracks.rewrite _ (kept _ _), rfl⟩
    · exact ⟨tracks, rfl⟩
  obtain ⟨first, same⟩ := ided opened
  obtain ⟨second, still⟩ := named first
  rw [← same, ← still] at running
  unfold writeArguments
  split
  · refine Tracks.piece (second.part _) (mem_append_right _ running) ?_
    intro block call
    rw [ContentBlock.row_setArguments, ContentBlock.extend_toolCall _ call]
  · exact second

theorem onToolCalls_tracks (kept : ∀ id name block, (rename id name block).row = block.row)
    (tracks : Tracks (others ++ work.state.slots) earlier work) (deltas : List ToolCallDelta) :
    Tracks (others ++ (deltas.foldl (onToolCall serde rename) work).state.slots) earlier
      (deltas.foldl (onToolCall serde rename) work) := by
  induction deltas generalizing work with
  | nil => exact tracks
  | cons delta rest ih => exact ih (onToolCall_tracks kept tracks delta)

theorem endToolcalls_tracks (tracks : Tracks (others ++ work.state.slots) earlier work)
    (order : IterationOrder) : Tracks others earlier (endToolcalls serde order work) := by
  have visited : (others ++ work.state.slots).Perm ((order.visit work.state.toolIndexMap.toList).map
      (fun entry => (BlockKind.toolCall, entry.2.toNat)) ++ others) :=
    perm_append_comm.trans (((order.perm _).map _).symm.append_right others)
  replace tracks := tracks.perm visited.symm
  clear visited
  unfold endToolcalls
  generalize order.visit work.state.toolIndexMap.toList = entries at tracks
  induction entries generalizing work with
  | nil => exact tracks
  | cons entry rest ih =>
    rw [foldl_cons]
    apply ih
    rw [map_cons, cons_append] at tracks
    have written := tracks.rewrite entry.2.toNat (ContentBlock.row_setArguments
      (parseStreamingJson serde (work.state.acc entry.1)))
    exact written.closed (.toolcallEnd entry.2)

/-- The calls that are known are those of these keys, and there are so many other
blocks. -/
structure Knows (keys : Finset UInt32) (count : Nat) (work : Progress ToolIndex) : Prop where
  known : ∀ key, key ∈ keys ↔ (work.state.toolIndexMap[key]?).isSome
  blocks : work.blockCount = count + keys.card

theorem Knows.onToolCall {keys : Finset UInt32} {count : Nat} (knows : Knows keys count work)
    (delta : ToolCallDelta) : Knows (insert delta.key keys) count
      (onToolCall serde rename work delta) := by
  have opened : Knows (insert delta.key keys) count (delta.openBlock work).1 := by
    unfold ToolCallDelta.openBlock
    split
    · rename_i found
      have member : delta.key ∈ keys := (knows.known _).mpr (by rw [found]; rfl)
      rwa [Finset.insert_eq_of_mem member]
    · rename_i fresh
      have absent : delta.key ∉ keys := by
        intro member
        rw [knows.known, fresh] at member
        cases member
      constructor
      · intro key
        simp only [Progress.emit_state, Progress.push_state, Progress.withState_state,
          getElem?_insert, Finset.mem_insert, knows.known key]
        split <;> simp_all
      · rw [Finset.card_insert_of_notMem absent, Progress.emit_blockCount,
          Progress.push_blockCount, Progress.withState_blockCount, knows.blocks, Nat.add_assoc]
  have ided : ∀ {work : Progress ToolIndex} {pos}, Knows (insert delta.key keys) count work →
      Knows (insert delta.key keys) count (writeId delta pos work) := by
    intro work pos knows
    unfold writeId
    split
    · exact ⟨knows.known, (Progress.edit_blockCount _ _ _).trans knows.blocks⟩
    · exact knows
  have named : ∀ {work : Progress ToolIndex} {pos}, Knows (insert delta.key keys) count work →
      Knows (insert delta.key keys) count (writeName rename delta pos work) := by
    intro work pos knows
    unfold writeName
    split
    · exact ⟨knows.known, (Progress.edit_blockCount _ _ _).trans knows.blocks⟩
    · exact knows
  have written := @named _ (delta.openBlock work).2 (@ided _ (delta.openBlock work).2 opened)
  unfold PiRust.onToolCall writeArguments
  dsimp only
  split
  · exact ⟨written.known, (Progress.edit_blockCount _ _ _).trans written.blocks⟩
  · exact written

theorem Knows.onToolCalls {keys : Finset UInt32} {count : Nat} (knows : Knows keys count work)
    (deltas : List ToolCallDelta) : Knows (keys ∪ (deltas.map ToolCallDelta.key).toFinset) count
      (deltas.foldl (PiRust.onToolCall serde rename) work) := by
  induction deltas generalizing work keys with
  | nil => simpa using knows
  | cons delta rest ih =>
    have step := ih (@Knows.onToolCall serde rename _ _ _ knows delta)
    rwa [map_cons, toFinset_cons, Finset.union_insert, ← Finset.insert_union]

end ToolCalls

namespace Google

variable {serde : Serde} {earlier : List AssistantMessageEvent} {work : Work}

theorem onPart_tracks (tracks : Tracks [] earlier work) (part : GeminiResponsePart) :
    Tracks [] earlier (onPart serde work part) := by
  have called : Tracks [] earlier (onFunctionCall serde part work) := by
    unfold onFunctionCall
    split
    · exact tracks.whole nofun
    · exact tracks
  unfold onPart onText
  split
  · dsimp only
    split
    · exact called.whole fun _ given => (Option.some.inj given).symm
    · exact called.whole fun _ given => (Option.some.inj given).symm
  · exact called

theorem onCandidate_tracks (tracks : Tracks [] earlier work) (candidate : Candidate) :
    Tracks [] earlier (onCandidate serde work candidate) := by
  have reasoned : Tracks [] earlier (onFinishReason candidate work) := by
    unfold onFinishReason
    split
    · split
      · exact tracks
      · exact ⟨tracks.inner, tracks.traced⟩
    · exact tracks
  unfold onCandidate
  dsimp only
  split
  · rename_i content _
    exact foldlRecOn content.parts (onPart serde) reasoned
      fun _ tracks part _ => onPart_tracks tracks part
  · exact reasoned

theorem onResponse_tracks (tracks : Tracks [] earlier work) (response : GenerateContentResponse) :
    Tracks [] earlier (onResponse serde response work) := by
  have first : Tracks [] earlier (onFirst work) := by
    unfold onFirst
    split
    · exact tracks
    · exact tracks.start.part _
  have candidates := foldlRecOn response.candidates (onCandidate serde) first
    fun _ tracks candidate _ => onCandidate_tracks tracks candidate
  unfold onResponse
  dsimp only
  split
  · exact ⟨candidates.inner, candidates.traced⟩
  · exact candidates

def GeminiResponsePart.blocks (part : GeminiResponsePart) : Nat :=
  part.functionCall.isSome.toNat + part.text.isSome.toNat

def Candidate.blocks (candidate : Candidate) : Nat :=
  (candidate.content.map fun content => (content.parts.map GeminiResponsePart.blocks).sum).getD 0

def blocks (responses : List GenerateContentResponse) : Nat :=
  (responses.map fun response => (response.candidates.map Candidate.blocks).sum).sum

theorem onCandidate_blockCount (work : Work) (candidate : Candidate) :
    (onCandidate serde work candidate).blockCount = work.blockCount + candidate.blocks := by
  have part : ∀ (work : Work) (part : GeminiResponsePart),
      (onPart serde work part).blockCount = work.blockCount + part.blocks := by
    intro work part
    have called : (onFunctionCall serde part work).blockCount =
        work.blockCount + part.functionCall.isSome.toNat := by
      unfold onFunctionCall
      cases part.functionCall <;> simp
    unfold onPart onText GeminiResponsePart.blocks
    cases part.text with
    | none => simpa using called
    | some text =>
      dsimp only
      split <;> simp [called, Nat.add_assoc]
  have reasoned : (onFinishReason candidate work).blockCount = work.blockCount := by
    unfold onFinishReason
    split
    · split <;> rfl
    · rfl
  unfold onCandidate Candidate.blocks
  dsimp only
  rw [← reasoned]
  cases candidate.content with
  | none => rfl
  | some content => exact Progress.foldl_blockCount _ part content.parts

theorem onResponse_blockCount (work : Work) (response : GenerateContentResponse) :
    (onResponse serde response work).blockCount =
      work.blockCount + (response.candidates.map Candidate.blocks).sum := by
  have first : (onFirst work).blockCount = work.blockCount := by
    unfold onFirst
    split <;> rfl
  rw [← first]
  have counted := (onFirst work).foldl_blockCount (@onCandidate_blockCount serde)
    response.candidates
  unfold onResponse
  dsimp only
  split <;> exact counted

theorem process_faithful_iff {parse : String → Except String GenerateContentResponse}
    {body : List (Except String Bytes)} {model : Model} {cancelled : Nat → Bool}
    {apiName : String} {reason : StopReason} {message : AssistantMessage}
    (ends : ((handler serde parse).processSse body model cancelled apiName).getLast? =
      some (.done reason message)) :
    Faithful ((handler serde parse).processSse body model cancelled apiName) message ↔
      blocks (wireEvents parse (delivered (Sse.iterateSse body))) ≤ UInt32.size := by
  have finish : ∀ {earlier : List AssistantMessageEvent} {state : GoogleHandler} {partialMessage},
      Tracks [] earlier (⟨state, partialMessage, []⟩ : Work) →
      Tracks [] (earlier ++ (finalize state partialMessage).2)
        (⟨state, (finalize state partialMessage).1, []⟩ : Work) := by
    intro earlier state partialMessage tracks
    unfold finalize
    rw [append_nil]
    split
    · exact ⟨tracks.inner, tracks.traced⟩
    · exact tracks
  have faithful := @ChunkHandler.faithful_iff _ _ parse ({} : GoogleHandler)
    (onResponse serde) finalize (fun _ => []) rfl (fun tracks => onResponse_tracks tracks _) finish
      _ _ _ _ _ _ ends
  obtain ⟨last, before, counted, same⟩ := ChunkHandler.finalized
    (fun responses _ partialMessage => partialMessage.content.length = blocks responses) rfl (by
      intro responses response work counted
      have step := @onResponse_blockCount serde work response
      simp only [Progress.blockCount, counted] at step
      simp only [blocks, map_append, sum_append, map_cons, map_nil, sum_cons, sum_nil, Nat.add_zero]
      exact step) ends
  have kept : message.content = before.content := by
    rw [same, finalize]
    dsimp only
    split <;> rfl
  rw [← counted, ← kept]
  exact faithful

end Google

namespace Completions

variable {serde : Serde} {earlier : List AssistantMessageEvent} {work : Work}

/-- The blocks that are open; none is ended before the end of the response. -/
def CompletionsHandler.slots (state : CompletionsHandler) : List (BlockKind × Nat) :=
  state.textContentIndex.toList.map (fun ci => (.text, ci.toNat)) ++
    (state.thinkingContentIndex.toList.map (fun ci => (.thinking, ci.toNat)) ++ state.tools.slots)

section

variable (tracks : Tracks work.state.slots earlier work)
include tracks

theorem openText_tracks :
    Tracks (openText work).1.state.slots earlier (openText work).1 ∧
      (.text, (openText work).2.toNat) ∈ (openText work).1.state.slots := by
  unfold openText
  split
  · rename_i ci index
    exact ⟨tracks, mem_append_left _ (by simp [index])⟩
  · rename_i none_yet
    unfold CompletionsHandler.slots at tracks
    rw [none_yet] at tracks
    have opened := tracks.opened (.text "" none) (.textStart work.position) fun _ given =>
      Option.some.inj given
    exact ⟨opened.part _, mem_cons_self⟩

theorem openThinking_tracks :
    Tracks (openThinking work).1.state.slots earlier (openThinking work).1 ∧
      (.thinking, (openThinking work).2.toNat) ∈ (openThinking work).1.state.slots := by
  unfold openThinking
  split
  · rename_i ci index
    exact ⟨tracks, mem_append_right _ (mem_append_left _ (by simp [index]))⟩
  · rename_i none_yet
    unfold CompletionsHandler.slots at tracks
    rw [none_yet] at tracks
    have opened := tracks.opened (.thinking "" none none) (.thinkingStart work.position)
      fun _ given => Option.some.inj given
    exact ⟨(opened.perm perm_middle).part _, mem_append_right _ mem_cons_self⟩

theorem onChoice_tracks (choice : ChoiceDelta) :
    Tracks (onChoice serde work choice).state.slots earlier (onChoice serde work choice) := by
  have reasoned : Tracks (onFinishReason choice work).state.slots earlier
      (onFinishReason choice work) := by
    unfold onFinishReason
    split
    · exact tracks.part _
    · exact tracks
  have written : ∀ {work : Work}, Tracks work.state.slots earlier work →
      Tracks (onContent choice work).state.slots earlier (onContent choice work) := by
    intro work tracks
    unfold onContent
    split
    · split
      · exact tracks
      · obtain ⟨opened, running⟩ := openText_tracks tracks
        exact opened.piece running fun block text => ContentBlock.row_pushText _ text
    · exact tracks
  have thought : ∀ {work : Work}, Tracks work.state.slots earlier work →
      Tracks (onReasoning choice work).state.slots earlier (onReasoning choice work) := by
    intro work tracks
    unfold onReasoning
    split
    · split
      · exact tracks
      · obtain ⟨opened, running⟩ := openThinking_tracks tracks
        exact opened.piece running fun block thinking => ContentBlock.row_pushThinking _ thinking
    · exact tracks
  have before := thought (written reasoned)
  unfold onChoice onToolCalls
  split
  · rename_i deltas _
    unfold CompletionsHandler.slots at before ⊢
    rw [← append_assoc] at before ⊢
    refine (@onToolCalls_tracks serde rename _ _ ⟨_, _, _⟩ ?_ (before.part _) deltas).part _
    intro id name block
    cases id <;> simp [rename]
  · exact before

theorem onChunk_tracks (chunk : ChatCompletionChunk) :
    Tracks (onChunk serde chunk work).state.slots earlier (onChunk serde chunk work) := by
  have first : Tracks (onFirst chunk work).state.slots earlier (onFirst chunk work) := by
    unfold onFirst
    split
    · exact tracks
    · have started : Tracks work.state.slots earlier ({ work with
          partialMessage.responseId := some chunk.id
          partialMessage.responseModel := some chunk.model } : Work) :=
        ⟨tracks.inner, tracks.traced⟩
      exact started.start.part _
  have choices := foldlRecOn (motive := fun work : Work => Tracks work.state.slots earlier work)
    chunk.choices (onChoice serde) first fun _ tracks choice _ => onChoice_tracks tracks choice
  unfold onChunk onUsage
  split
  · exact ⟨choices.inner, choices.traced⟩
  · exact choices

end

def ChoiceDelta.writes (choice : ChoiceDelta) : Bool :=
  choice.delta.content.any (· ≠ "")

def ChoiceDelta.thinks (choice : ChoiceDelta) : Bool :=
  (firstReasoningDelta choice.delta).any (· ≠ "")

def keys (choices : List ChoiceDelta) : Finset UInt32 :=
  (choices.flatMap fun choice =>
    (choice.delta.toolCalls.getD []).map ToolCallDelta.key).toFinset

/-- How many blocks some choices make: one for all their text, one for all their
reasoning, and one for each tool call. -/
def opened (choices : List ChoiceDelta) : Nat :=
  (choices.any ChoiceDelta.writes).toNat + (choices.any ChoiceDelta.thinks).toNat +
    (keys choices).card

def choices (chunks : List ChatCompletionChunk) : List ChoiceDelta :=
  chunks.flatMap ChatCompletionChunk.choices

structure Counts (wrote thought : Bool) (keys : Finset UInt32) (work : Work) : Prop where
  text : work.state.textContentIndex.isSome = wrote
  thinking : work.state.thinkingContentIndex.isSome = thought
  calls : Knows keys (wrote.toNat + thought.toNat)
    ⟨work.state.tools, work.partialMessage, work.events⟩

variable {wrote thought : Bool} {known : Finset UInt32}

section

variable (counts : Counts wrote thought known work)
include counts

theorem onContent_counts (choice : ChoiceDelta) :
    Counts (wrote || choice.writes) thought known (onContent choice work) := by
  unfold onContent ChoiceDelta.writes
  cases choice.delta.content with
  | none => simpa using counts
  | some text =>
    by_cases empty : text = ""
    · simpa [empty] using counts
    · have all : (wrote || (some text).any (· ≠ "")) = true := by simp [empty]
      rw [all]
      dsimp only
      rw [if_neg empty]
      have blocks := counts.calls.blocks
      unfold openText
      split
      · rename_i ci index
        obtain rfl : wrote = true := by rw [← counts.text, index]; rfl
        refine ⟨by simp [index], counts.thinking, counts.calls.known, ?_⟩
        exact (Progress.edit_blockCount _ _ _).trans blocks
      · rename_i none_yet
        obtain rfl : wrote = false := by rw [← counts.text, none_yet]; rfl
        refine ⟨rfl, counts.thinking, counts.calls.known, ?_⟩
        refine (Progress.edit_blockCount _ _ _).trans ?_
        refine (Progress.push_blockCount work _).trans ?_
        rw [Bool.toNat_false, Nat.zero_add] at blocks
        rw [Bool.toNat_true, Nat.add_assoc, Nat.add_comm 1, ← blocks]
        rfl

theorem onReasoning_counts (choice : ChoiceDelta) :
    Counts wrote (thought || choice.thinks) known (onReasoning choice work) := by
  unfold onReasoning ChoiceDelta.thinks
  cases firstReasoningDelta choice.delta with
  | none => simpa using counts
  | some text =>
    by_cases empty : text = ""
    · simpa [empty] using counts
    · have all : (thought || (some text).any (· ≠ "")) = true := by simp [empty]
      rw [all]
      dsimp only
      rw [if_neg empty]
      have blocks := counts.calls.blocks
      unfold openThinking
      split
      · rename_i ci index
        obtain rfl : thought = true := by rw [← counts.thinking, index]; rfl
        refine ⟨counts.text, by simp [index], counts.calls.known, ?_⟩
        exact (Progress.edit_blockCount _ _ _).trans blocks
      · rename_i none_yet
        obtain rfl : thought = false := by rw [← counts.thinking, none_yet]; rfl
        refine ⟨counts.text, rfl, counts.calls.known, ?_⟩
        refine (Progress.edit_blockCount _ _ _).trans ?_
        refine (Progress.push_blockCount work _).trans ?_
        rw [Bool.toNat_false, Nat.add_zero] at blocks
        rw [Bool.toNat_true, Nat.add_right_comm, ← blocks]
        rfl

theorem onToolCalls_counts (choice : ChoiceDelta) :
    Counts wrote thought
      (known ∪ ((choice.delta.toolCalls.getD []).map ToolCallDelta.key).toFinset)
      (onToolCalls serde choice work) := by
  unfold onToolCalls
  cases choice.delta.toolCalls with
  | none => simpa using counts
  | some deltas =>
    have calls := @Knows.onToolCalls serde rename _ _ _ counts.calls deltas
    exact ⟨counts.text, counts.thinking, calls.known, calls.blocks⟩

theorem onChoices_counts (choices : List ChoiceDelta) :
    Counts (wrote || choices.any ChoiceDelta.writes) (thought || choices.any ChoiceDelta.thinks)
      (known ∪ keys choices) (choices.foldl (onChoice serde) work) := by
  induction choices generalizing wrote thought known work with
  | nil => simpa [keys] using counts
  | cons choice rest ih =>
    have reasoned : Counts wrote thought known (onFinishReason choice work) := by
      unfold onFinishReason
      split
      · exact ⟨counts.text, counts.thinking, counts.calls.known, counts.calls.blocks⟩
      · exact counts
    have step := ih (@onToolCalls_counts serde _ _ _ _
      (onReasoning_counts (onContent_counts reasoned choice) choice) choice)
    rw [Bool.or_assoc, Bool.or_assoc, Finset.union_assoc] at step
    rwa [any_cons, any_cons, keys, flatMap_cons, toFinset_append, foldl_cons]

theorem onChunk_counts (chunk : ChatCompletionChunk) :
    Counts (wrote || chunk.choices.any ChoiceDelta.writes)
      (thought || chunk.choices.any ChoiceDelta.thinks) (known ∪ keys chunk.choices)
      (onChunk serde chunk work) := by
  have first : Counts wrote thought known (onFirst chunk work) := by
    unfold onFirst
    split
    · exact counts
    · exact ⟨counts.text, counts.thinking, counts.calls.known, counts.calls.blocks⟩
  have done := @onChoices_counts serde _ _ _ _ first chunk.choices
  unfold onChunk onUsage
  split
  · exact ⟨done.text, done.thinking, done.calls.known, done.calls.blocks⟩
  · exact done

end

variable {parse : String → Except String ChatCompletionChunk} {order : IterationOrder}
  {body : List (Except String Bytes)} {model : Model} {cancelled : Nat → Bool} {apiName : String}
  {reason : StopReason} {message : AssistantMessage}
  (ends : ((handler serde parse order).processSse body model cancelled apiName).getLast? =
    some (.done reason message))
include ends

theorem process_length : message.content.length =
    opened (choices (wireEvents parse (delivered (Sse.iterateSse body)))) := by
  obtain ⟨last, before, counted, same⟩ := ChunkHandler.finalized
    (fun chunks state partialMessage => Counts ((choices chunks).any ChoiceDelta.writes)
      ((choices chunks).any ChoiceDelta.thinks) (keys (choices chunks)) ⟨state, partialMessage, []⟩)
    ⟨rfl, rfl, by simp [keys, choices], rfl⟩ (by
      intro chunks chunk work counted
      have step := @onChunk_counts serde _ _ _ _
        (⟨counted.text, counted.thinking, counted.calls.known, counted.calls.blocks⟩ :
          Counts _ _ _ work) chunk
      have all : choices (chunks ++ [chunk]) = choices chunks ++ chunk.choices := by
        simp [choices]
      rw [all, any_append, any_append, keys, flatMap_append, toFinset_append]
      exact ⟨step.text, step.thinking, step.calls.known, step.calls.blocks⟩) ends
  rw [same, finalize_length]
  exact counted.calls.blocks

theorem process_arguments
    (room : opened (choices (wireEvents parse (delivered (Sse.iterateSse body)))) ≤ UInt32.size) :
    message.toolArguments =
      (calls (wireEvents parse (delivered (Sse.iterateSse body)))).texts.map
        (parseStreamingJson serde) := by
  obtain ⟨index, indexed⟩ := process_rule ends (Indexed.callRule arguments?_rename)
  rw [← process_length ends] at room
  have texts := (indexed.written room).arguments
  simp only [toolDeltas, map_flatMap] at texts
  exact texts

theorem process_faithful_iff :
    Faithful ((handler serde parse order).processSse body model cancelled apiName) message ↔
      opened (choices (wireEvents parse (delivered (Sse.iterateSse body)))) ≤ UInt32.size := by
  have finish : ∀ {earlier : List AssistantMessageEvent} {state : CompletionsHandler}
      {partialMessage}, Tracks state.slots earlier (⟨state, partialMessage, []⟩ : Work) →
      Tracks [] (earlier ++ (finalize serde order state partialMessage).2)
        (⟨state, (finalize serde order state partialMessage).1, []⟩ : Work) := by
    intro earlier state partialMessage tracks
    have texts : Tracks (state.thinkingContentIndex.toList.map (fun ci => (.thinking, ci.toNat)) ++
        state.tools.slots) earlier (endText ⟨state, partialMessage, []⟩) := by
      unfold CompletionsHandler.slots at tracks
      unfold endText
      dsimp only
      cases index : state.textContentIndex with
      | none => rwa [index] at tracks
      | some ci =>
        rw [index] at tracks
        exact tracks.closed (.textEnd ci)
    have thoughts : Tracks state.tools.slots earlier
        (endThinking (endText ⟨state, partialMessage, []⟩)) := by
      have same : (endText ⟨state, partialMessage, []⟩).state = state := by
        unfold endText
        split <;> rfl
      unfold endThinking
      rw [same]
      cases index : state.thinkingContentIndex with
      | none => rwa [index] at texts
      | some ci =>
        rw [index] at texts
        exact texts.closed (.thinkingEnd ci)
    have ended := @endToolcalls_tracks serde [] _ ⟨state.tools, _, _⟩ (thoughts.part _) order
    exact ⟨ended.next.inner, ended.next.traced⟩
  have faithful := @ChunkHandler.faithful_iff _ _ parse ({} : CompletionsHandler)
    (onChunk serde) (finalize serde order) CompletionsHandler.slots rfl
    (fun tracks => onChunk_tracks tracks _) finish _ _ _ _ _ _ ends
  rw [← process_length ends]
  exact faithful

end Completions

namespace Mistral

variable {serde : Serde} {earlier : List AssistantMessageEvent} {work : Work}

def OpenBlock.slot : OpenBlock → BlockKind × Nat
  | .text index => (.text, index.toNat)
  | .thinking index => (.thinking, index.toNat)

def MistralHandler.slots (state : MistralHandler) : List (BlockKind × Nat) :=
  state.currentBlock.toList.map OpenBlock.slot ++ state.tools.slots

theorem finishCurrentBlock_tools (work : Work) :
    (finishCurrentBlock work).state.tools = work.state.tools := by
  unfold finishCurrentBlock
  split <;> rfl

theorem finishCurrentBlock_currentBlock (work : Work) :
    (finishCurrentBlock work).state.currentBlock = none := by
  unfold finishCurrentBlock
  split
  · rfl
  · rfl
  · assumption

section

variable (tracks : Tracks work.state.slots earlier work)
include tracks

theorem finishCurrentBlock_tracks :
    Tracks work.state.tools.slots earlier (finishCurrentBlock work) := by
  unfold MistralHandler.slots at tracks
  unfold finishCurrentBlock
  split
  · rename_i index current
    rw [current] at tracks
    have ended := tracks.closed (.textEnd index)
    exact ended.part _
  · rename_i index current
    rw [current] at tracks
    have ended := tracks.closed (.thinkingEnd index)
    exact ended.part _
  · rename_i current
    rwa [current] at tracks

theorem emitTextDelta_tracks (text : String) :
    Tracks (emitTextDelta text work).state.slots earlier (emitTextDelta text work) := by
  unfold emitTextDelta openText
  dsimp only
  split
  · rename_i index current
    refine tracks.piece ?_ fun block same => ContentBlock.row_pushText text same
    simp [MistralHandler.slots, current, OpenBlock.slot]
  · have opened := (finishCurrentBlock_tracks tracks).opened (.text "" none)
      (.textStart (finishCurrentBlock work).position) fun _ given => Option.some.inj given
    rw [← finishCurrentBlock_tools] at opened
    refine Tracks.piece (opened.part _) mem_cons_self fun block same =>
      ContentBlock.row_pushText text same

theorem emitThinkingDelta_tracks (text : String) :
    Tracks (emitThinkingDelta text work).state.slots earlier (emitThinkingDelta text work) := by
  unfold emitThinkingDelta openThinking
  dsimp only
  split
  · rename_i index current
    refine tracks.piece ?_ fun block same => ContentBlock.row_pushThinking text same
    simp [MistralHandler.slots, current, OpenBlock.slot]
  · have opened := (finishCurrentBlock_tracks tracks).opened (.thinking "" none none)
      (.thinkingStart (finishCurrentBlock work).position) fun _ given => Option.some.inj given
    rw [← finishCurrentBlock_tools] at opened
    refine Tracks.piece (opened.part _) mem_cons_self fun block same =>
      ContentBlock.row_pushThinking text same

theorem onText_tracks (text : String) :
    Tracks (onText text work).state.slots earlier (onText text work) := by
  unfold onText
  split
  · exact tracks
  · exact emitTextDelta_tracks tracks text

theorem onPart_tracks (part : ContentDeltaPart) :
    Tracks (onPart work part).state.slots earlier (onPart work part) := by
  cases part with
  | text text => exact onText_tracks tracks text
  | thinking thinking =>
    unfold onPart
    dsimp only
    split
    · exact tracks
    · exact emitThinkingDelta_tracks tracks _

theorem onChoice_tracks (choice : ChoiceDelta) :
    Tracks (onChoice serde work choice).state.slots earlier (onChoice serde work choice) := by
  have reasoned : Tracks (onFinishReason choice work).state.slots earlier
      (onFinishReason choice work) := by
    unfold onFinishReason
    split
    · exact tracks.part _
    · exact tracks
  have before : Tracks (onContent choice (onFinishReason choice work)).state.slots earlier
      (onContent choice (onFinishReason choice work)) := by
    unfold onContent
    split
    · exact onText_tracks reasoned _
    · rename_i parts _
      exact foldlRecOn (motive := fun work : Work => Tracks work.state.slots earlier work)
        parts onPart reasoned fun _ tracks part _ => onPart_tracks tracks part
    · exact reasoned
  unfold onChoice onToolCalls
  split
  · rename_i deltas _
    generalize onContent choice (onFinishReason choice work) = written at before
    have ended := finishCurrentBlock_tracks before
    rw [← finishCurrentBlock_tools] at ended
    have called := @onToolCalls_tracks serde rename [] _
      ⟨(finishCurrentBlock written).state.tools, _, _⟩
      (fun _ name block => ContentBlock.row_setName name block) (ended.part _) deltas
    unfold MistralHandler.slots Progress.focus
    dsimp only
    rw [finishCurrentBlock_currentBlock]
    exact called.part _
  · exact before

theorem onChunk_tracks (chunk : ChatCompletionChunk) :
    Tracks (onChunk serde chunk work).state.slots earlier (onChunk serde chunk work) := by
  have first : Tracks (onFirst chunk work).state.slots earlier (onFirst chunk work) := by
    unfold onFirst
    split
    · exact tracks
    · have started : Tracks work.state.slots earlier ({ work with
          partialMessage.responseId := some chunk.id
          partialMessage.responseModel := some chunk.model } : Work) :=
        ⟨tracks.inner, tracks.traced⟩
      exact started.start.part _
  have choices := foldlRecOn (motive := fun work : Work => Tracks work.state.slots earlier work)
    chunk.choices (onChoice serde) first fun _ tracks choice _ => onChoice_tracks tracks choice
  unfold onChunk onUsage
  split
  · exact ⟨choices.inner, choices.traced⟩
  · exact choices

end

/-- The text and thinking blocks that some content makes: a piece goes into the
current block when that is of its kind. -/
structure Opened where
  current : Option BlockKind := none
  blocks : Nat := 0

def Opened.write (opened : Opened) (kind : BlockKind) : Opened :=
  if opened.current = some kind then opened else ⟨some kind, opened.blocks + 1⟩

def ContentDeltaPart.kind? : ContentDeltaPart → Option BlockKind
  | .text given => if given = "" then none else some .text
  | .thinking given =>
    if String.join (given.map ThinkingDeltaPart.read) = "" then none else some .thinking

def ContentDelta.kinds : ContentDelta → List BlockKind
  | .text given => (ContentDeltaPart.text given).kind?.toList
  | .parts given => given.filterMap ContentDeltaPart.kind?

/-- Tool calls end the current block, also when there are none of them. -/
def Opened.choice (opened : Opened) (choice : ChoiceDelta) : Opened :=
  let written := ((choice.delta.content.map ContentDelta.kinds).getD []).foldl Opened.write opened
  if choice.delta.toolCalls.isSome then { written with current := none } else written

def choices (chunks : List ChatCompletionChunk) : List ChoiceDelta :=
  chunks.flatMap ChatCompletionChunk.choices

def keys (choices : List ChoiceDelta) : Finset UInt32 :=
  (choices.flatMap fun choice =>
    (choice.delta.toolCalls.getD []).map ToolCallDelta.key).toFinset

/-- How many blocks some choices make. -/
def opened (choices : List ChoiceDelta) : Nat :=
  (choices.foldl Opened.choice {}).blocks + (keys choices).card

structure Counts (opened : Opened) (keys : Finset UInt32) (work : Work) : Prop where
  current : (work.state.currentBlock.map fun block => block.slot.1) = opened.current
  calls : Knows keys opened.blocks ⟨work.state.tools, work.partialMessage, work.events⟩

variable {before : Opened} {known : Finset UInt32}

section

variable (counts : Counts before known work)
include counts

theorem Counts.started {kind : BlockKind} (other : before.current ≠ some kind) {later : Work}
    (current : (later.state.currentBlock.map fun block => block.slot.1) = some kind)
    (tools : later.state.tools = work.state.tools) (more : later.blockCount = work.blockCount + 1) :
    Counts (before.write kind) known later := by
  rw [Opened.write, if_neg other]
  refine ⟨current, ?_, ?_⟩
  · rw [tools]
    exact counts.calls.known
  · have blocks := counts.calls.blocks
    unfold Progress.blockCount at more blocks ⊢
    dsimp only at blocks ⊢
    omega

theorem emitTextDelta_counts (text : String) :
    Counts (before.write .text) known (emitTextDelta text work) := by
  have same := counts.current
  unfold emitTextDelta openText
  dsimp only
  split
  · rename_i index current
    rw [current] at same
    rw [Opened.write, if_pos (by rw [← same]; rfl)]
    exact ⟨counts.current, counts.calls.known,
      (Progress.edit_blockCount _ _ _).trans counts.calls.blocks⟩
  · rename_i other
    refine counts.started ?_ rfl (finishCurrentBlock_tools work) ?_
    · rw [← same]
      intro text
      obtain ⟨block, current, slot⟩ := Option.map_eq_some_iff.mp text
      cases block with
      | text index => exact other index current
      | thinking => cases slot
    · simp [finishCurrentBlock_blockCount]

theorem emitThinkingDelta_counts (text : String) :
    Counts (before.write .thinking) known (emitThinkingDelta text work) := by
  have same := counts.current
  unfold emitThinkingDelta openThinking
  dsimp only
  split
  · rename_i index current
    rw [current] at same
    rw [Opened.write, if_pos (by rw [← same]; rfl)]
    exact ⟨counts.current, counts.calls.known,
      (Progress.edit_blockCount _ _ _).trans counts.calls.blocks⟩
  · rename_i other
    refine counts.started ?_ rfl (finishCurrentBlock_tools work) ?_
    · rw [← same]
      intro thinking
      obtain ⟨block, current, slot⟩ := Option.map_eq_some_iff.mp thinking
      cases block with
      | text => cases slot
      | thinking index => exact other index current
    · simp [finishCurrentBlock_blockCount]

theorem onPart_counts (part : ContentDeltaPart) :
    Counts (part.kind?.toList.foldl Opened.write before) known (onPart work part) := by
  cases part with
  | text text =>
    unfold onPart onText ContentDeltaPart.kind?
    dsimp only
    split
    · exact counts
    · exact emitTextDelta_counts counts text
  | thinking thinking =>
    unfold onPart ContentDeltaPart.kind?
    dsimp only
    split
    · exact counts
    · exact emitThinkingDelta_counts counts _

theorem onParts_counts (parts : List ContentDeltaPart) :
    Counts ((parts.filterMap ContentDeltaPart.kind?).foldl Opened.write before) known
      (parts.foldl onPart work) := by
  induction parts generalizing before work with
  | nil => exact counts
  | cons part rest ih =>
    have step := ih (onPart_counts counts part)
    rw [foldl_cons]
    cases kind : part.kind? with
    | none =>
      rw [kind] at step
      rwa [filterMap_cons_none kind]
    | some _ =>
      rw [kind] at step
      rwa [filterMap_cons_some kind]

theorem onContent_counts (choice : ChoiceDelta) :
    Counts (((choice.delta.content.map ContentDelta.kinds).getD []).foldl Opened.write before) known
      (onContent choice work) := by
  unfold onContent
  split
  · rename_i text given
    rw [given]
    exact onPart_counts counts (.text text)
  · rename_i parts given
    rw [given]
    exact onParts_counts counts parts
  · rename_i absent
    rw [absent]
    exact counts

end

theorem onChoice_counts (counts : Counts before known work) (choice : ChoiceDelta) :
    Counts (before.choice choice)
      (known ∪ ((choice.delta.toolCalls.getD []).map ToolCallDelta.key).toFinset)
      (onChoice serde work choice) := by
  have reasoned : Counts before known (onFinishReason choice work) := by
    unfold onFinishReason
    split
    · exact ⟨counts.current, counts.calls.known, counts.calls.blocks⟩
    · exact counts
  have written := onContent_counts reasoned choice
  unfold onChoice onToolCalls Opened.choice
  generalize onContent choice (onFinishReason choice work) = middle at written
  cases choice.delta.toolCalls with
  | none => simpa using written
  | some deltas =>
    have ended : Knows known _ ⟨(finishCurrentBlock middle).state.tools,
        (finishCurrentBlock middle).partialMessage, (finishCurrentBlock middle).events⟩ :=
      ⟨by rw [finishCurrentBlock_tools]; exact written.calls.known,
        (finishCurrentBlock_blockCount middle).trans written.calls.blocks⟩
    have calls := @Knows.onToolCalls serde rename _ _ _ ended deltas
    refine ⟨?_, calls.known, calls.blocks⟩
    simp only [Progress.focus, finishCurrentBlock_currentBlock]
    rfl

theorem onChoices_counts (counts : Counts before known work) (choices : List ChoiceDelta) :
    Counts (choices.foldl Opened.choice before) (known ∪ keys choices)
      (choices.foldl (onChoice serde) work) := by
  induction choices generalizing before known work with
  | nil => simpa [keys] using counts
  | cons choice rest ih =>
    have step := ih (@onChoice_counts serde _ _ _ counts choice)
    rw [Finset.union_assoc] at step
    rwa [keys, flatMap_cons, toFinset_append, foldl_cons, foldl_cons]

theorem onChunk_counts (counts : Counts before known work) (chunk : ChatCompletionChunk) :
    Counts (chunk.choices.foldl Opened.choice before) (known ∪ keys chunk.choices)
      (onChunk serde chunk work) := by
  have first : Counts before known (onFirst chunk work) := by
    unfold onFirst
    split
    · exact counts
    · exact ⟨counts.current, counts.calls.known, counts.calls.blocks⟩
  have done := @onChoices_counts serde _ _ _ first chunk.choices
  unfold onChunk onUsage
  split
  · exact ⟨done.current, done.calls.known, done.calls.blocks⟩
  · exact done

variable {parse : String → Except String ChatCompletionChunk} {order : IterationOrder}
  {body : List (Except String Bytes)} {model : Model} {cancelled : Nat → Bool} {apiName : String}
  {reason : StopReason} {message : AssistantMessage}
  (ends : ((handler serde parse order).processSse body model cancelled apiName).getLast? =
    some (.done reason message))
include ends

theorem process_length : message.content.length =
    opened (choices (wireEvents parse (delivered (Sse.iterateSse body)))) := by
  obtain ⟨last, before, counted, same⟩ := ChunkHandler.finalized
    (fun chunks state partialMessage => Counts ((choices chunks).foldl Opened.choice {})
      (keys (choices chunks)) ⟨state, partialMessage, []⟩)
    ⟨rfl, by simp [keys, choices], rfl⟩ (by
      intro chunks chunk work counted
      have step := @onChunk_counts serde work _ _
        ⟨counted.current, counted.calls.known, counted.calls.blocks⟩ chunk
      have all : choices (chunks ++ [chunk]) = choices chunks ++ chunk.choices := by
        simp [choices]
      rw [all, foldl_append, keys, flatMap_append, toFinset_append]
      exact ⟨step.current, step.calls.known, step.calls.blocks⟩) ends
  rw [same, finalize_length]
  exact counted.calls.blocks

theorem process_arguments
    (room : opened (choices (wireEvents parse (delivered (Sse.iterateSse body)))) ≤ UInt32.size) :
    message.toolArguments =
      (calls (wireEvents parse (delivered (Sse.iterateSse body)))).texts.map
        (parseStreamingJson serde) := by
  obtain ⟨index, indexed⟩ := process_rule ends (Indexed.callRule fun _ name block =>
    block.arguments?_setName name)
  rw [← process_length ends] at room
  have texts := (indexed.written room).arguments
  simp only [toolDeltas, map_flatMap] at texts
  exact texts

theorem process_faithful_iff :
    Faithful ((handler serde parse order).processSse body model cancelled apiName) message ↔
      opened (choices (wireEvents parse (delivered (Sse.iterateSse body)))) ≤ UInt32.size := by
  have finish : ∀ {earlier : List AssistantMessageEvent} {state : MistralHandler}
      {partialMessage}, Tracks state.slots earlier (⟨state, partialMessage, []⟩ : Work) →
      Tracks [] (earlier ++ (finalize serde order state partialMessage).2)
        (⟨state, (finalize serde order state partialMessage).1, []⟩ : Work) := by
    intro earlier state partialMessage tracks
    have current := @finishCurrentBlock_tracks _ ⟨state, partialMessage, []⟩ tracks
    have ended := @endToolcalls_tracks serde [] _ ⟨state.tools, _, _⟩ (current.part _) order
    exact ⟨ended.next.inner, ended.next.traced⟩
  have faithful := @ChunkHandler.faithful_iff _ _ parse ({} : MistralHandler)
    (onChunk serde) (finalize serde order) MistralHandler.slots rfl
    (fun tracks => onChunk_tracks tracks _) finish _ _ _ _ _ _ ends
  rw [← process_length ends]
  exact faithful

end Mistral

end PiRust
