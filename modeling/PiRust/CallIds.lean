import PiRust.FaithfulStreams

/- The identifiers of the tool calls of a response, for the processors that make them up
or that find their calls by an index. -/
namespace PiRust

open List

open ContentBlock (callId?)

def keysOf (deltas : List ToolCallDelta) : List UInt32 :=
  deltas.foldl (fun keys delta => if delta.key ∈ keys then keys else keys ++ [delta.key]) []

def lastId (deltas : List ToolCallDelta) (key : UInt32) : Option String :=
  ((deltas.filter fun delta => delta.key = key).filterMap ToolCallDelta.id).getLast?

def finalId (deltas : List ToolCallDelta) (key : UInt32) : String := (lastId deltas key).getD ""

/-- The calls in the content, in the order of their keys. -/
structure Listed (keys : List UInt32) (ids : UInt32 → String) (index : ToolIndex)
    (content : List ContentBlock) : Prop where
  nodup : keys.Nodup
  known : ∀ key, (index.toolIndexMap[key]?).isSome = true ↔ key ∈ keys
  unnamed : ∀ key, key ∉ keys → ids key = ""
  ids : content.length ≤ UInt32.size → content.filterMap callId? = keys.map ids
  placed : content.length ≤ UInt32.size → ∀ {n key}, keys[n]? = some key →
    ∃ pos, index.toolIndexMap[key]? = some pos ∧ Selection.IsAt callId? content n pos.toNat

theorem set_map_update {keys : List UInt32} (nodup : keys.Nodup) {n : Nat} {key : UInt32}
    (here : keys[n]? = some key) (ids : UInt32 → String) (id : String) :
    (keys.map ids).set n id = keys.map (Function.update ids key id) := by
  obtain ⟨inside, read⟩ := List.getElem?_eq_some_iff.mp here
  apply ext_getElem
  · rw [length_set, length_map, length_map]
  · intro m _ bound
    rw [length_map] at bound
    rw [getElem_set, getElem_map, getElem_map]
    split
    · rename_i same
      subst same
      rw [read, Function.update_self]
    · rename_i apart
      have other : keys[m] ≠ key := by
        intro same
        exact apart ((nodup.getElem_inj_iff).mp (read.trans same.symm))
      rw [Function.update_of_ne other]

namespace Listed

variable {keys : List UInt32} {ids : UInt32 → String} {index : ToolIndex}
  {content : List ContentBlock}

theorem initial : Listed [] (fun _ => "") {} [] where
  nodup := nodup_nil
  known key := by
    have empty : (({} : ToolIndex).toolIndexMap[key]?) = none := Std.TreeMap.getElem?_emptyc
    rw [empty]
    simp
  unnamed _ _ := rfl
  ids _ := rfl
  placed _ := nofun

section

variable (listed : Listed keys ids index content)
include listed

theorem push {block : ContentBlock} (other : block.callId? = none) :
    Listed keys ids index (content ++ [block]) where
  __ := listed
  ids room := by
    rw [length_append, length_singleton] at room
    rw [Selection.filterMap_push, other, Option.toList_none, append_nil]
    exact listed.ids (Nat.le_of_succ_le room)
  placed room := by
    intro n key here
    rw [length_append, length_singleton] at room
    obtain ⟨pos, found, at_pos⟩ := listed.placed (Nat.le_of_succ_le room) here
    exact ⟨pos, found, Selection.isAt_append _ at_pos _⟩

variable {change : ContentBlock → ContentBlock}

theorem edit (p : Nat) (same : ∀ block, (change block).callId? = block.callId?) :
    Listed keys ids index (content.modify p change) where
  __ := listed
  ids room := by
    rw [length_modify] at room
    rw [Selection.filterMap_modify_same _ _ _ _ same]
    exact listed.ids room
  placed room := by
    intro n key here
    rw [length_modify] at room
    obtain ⟨pos, found, at_pos⟩ := listed.placed room here
    exact ⟨pos, found, Selection.isAt_modify _ at_pos _ _ fun block => by rw [same]⟩

theorem withArguments (toolArgsAcc : Std.TreeMap UInt32 String) :
    Listed keys ids { index with toolArgsAcc := toolArgsAcc } content :=
  ⟨listed.nodup, listed.known, listed.unnamed, listed.ids, listed.placed⟩

theorem write {key pos : UInt32} (found : index.toolIndexMap[key]? = some pos) {id : String}
    (set : ∀ block, (change block).callId? = (block.callId?).map fun _ => id) :
    Listed keys (Function.update ids key id) index (content.modify pos.toNat change) := by
  have member : key ∈ keys := (listed.known key).mp (by rw [found]; rfl)
  obtain ⟨n, here⟩ := mem_iff_getElem?.mp member
  refine ⟨listed.nodup, listed.known, ?_, ?_, ?_⟩
  · intro other absent
    have apart : other ≠ key := fun same => absent (same ▸ member)
    rw [Function.update_of_ne apart]
    exact listed.unnamed other absent
  · intro room
    rw [length_modify] at room
    obtain ⟨position, same, at_pos⟩ := listed.placed room here
    obtain rfl := Option.some.inj (same.symm.trans found)
    rw [Selection.filterMap_modify _ at_pos id _ set, listed.ids room]
    exact set_map_update listed.nodup here ids id
  · intro room n key here
    rw [length_modify] at room
    obtain ⟨position, same, at_pos⟩ := listed.placed room here
    exact ⟨position, same, Selection.isAt_modify _ at_pos _ _ fun block => by
      rw [set, Option.isSome_map]⟩

end

theorem opened (listed : Listed keys ids index content) {key : UInt32} (fresh : key ∉ keys)
    (id name : String) :
    Listed (keys ++ [key]) (Function.update ids key id)
      { index with toolIndexMap := index.toolIndexMap.insert key (UInt32.ofNat content.length) }
      (content ++ [openedCall id name]) := by
  have others : ∀ other ∈ keys, other ≠ key := fun other member same => fresh (same ▸ member)
  refine ⟨?_, ?_, ?_, ?_, ?_⟩
  · rw [nodup_append]
    exact ⟨listed.nodup, nodup_singleton key, fun other member same singleton =>
      by rw [mem_singleton.mp singleton]; exact others other member⟩
  · intro other
    rw [getElem?_insert, mem_append, mem_singleton]
    by_cases same : other = key
    · rw [if_pos same]
      exact ⟨fun _ => .inr same, fun _ => rfl⟩
    · rw [if_neg same, listed.known other]
      exact ⟨.inl, fun either => either.resolve_right same⟩
  · intro other absent
    rw [mem_append, mem_singleton, not_or] at absent
    rw [Function.update_of_ne absent.2]
    exact listed.unnamed other absent.1
  · intro room
    rw [length_append, length_singleton] at room
    have kept : keys.map (Function.update ids key id) = keys.map ids :=
      map_congr_left fun other member => Function.update_of_ne (others other member) _ _
    rw [Selection.filterMap_push, listed.ids (Nat.le_of_succ_le room), map_append, kept,
      map_singleton, Function.update_self]
    rfl
  · intro room n other here
    rw [length_append, length_singleton] at room
    have before := listed.ids (Nat.le_of_succ_le room)
    have count : (content.filterMap callId?).length = keys.length := by
      rw [before, length_map]
    by_cases last : n < keys.length
    · rw [getElem?_append_left last] at here
      obtain ⟨pos, found, at_pos⟩ := listed.placed (Nat.le_of_succ_le room) here
      have apart := others other (mem_of_getElem? here)
      exact ⟨pos, by rw [getElem?_insert, if_neg apart, found], Selection.isAt_append _ at_pos _⟩
    · rw [getElem?_append_right (Nat.not_lt.mp last)] at here
      have first : n - keys.length = 0 := by
        have bound := (List.getElem?_eq_some_iff.mp here).choose
        rw [length_singleton] at bound
        omega
      rw [first] at here
      obtain rfl := Option.some.inj here
      have position : n = (content.filterMap callId?).length := by omega
      refine ⟨UInt32.ofNat content.length, by rw [getElem?_insert, if_pos rfl], ?_⟩
      rw [UInt32.toNat_ofNat_of_lt' (by omega), position]
      exact Selection.isAt_push _ _ rfl

end Listed

section Deltas

variable (deltas : List ToolCallDelta)

variable (delta : ToolCallDelta)

theorem keysOf_append :
    keysOf (deltas ++ [delta]) =
      if delta.key ∈ keysOf deltas then keysOf deltas else keysOf deltas ++ [delta.key] := by
  rw [keysOf, foldl_append]
  rfl

theorem mem_keysOf (key : UInt32) : key ∈ keysOf deltas ↔ ∃ delta ∈ deltas, delta.key = key := by
  induction deltas using reverseRecOn with
  | nil => simp [keysOf]
  | append_singleton deltas delta ih =>
    have either : key ∈ keysOf (deltas ++ [delta]) ↔ key ∈ keysOf deltas ∨ delta.key = key := by
      rw [keysOf_append]
      split
      · rename_i known
        exact ⟨.inl, fun named => named.elim id fun same => same ▸ known⟩
      · rw [mem_append, mem_singleton, eq_comm]
    rw [either, ih]
    simp only [mem_append, mem_singleton, or_and_right, exists_or, exists_eq_left]

theorem lastId_append (key : UInt32) :
    lastId (deltas ++ [delta]) key =
      if delta.key = key then delta.id.or (lastId deltas key) else lastId deltas key := by
  unfold lastId
  rw [filter_append, filterMap_append, getLast?_append]
  by_cases same : delta.key = key
  · have taken : [delta].filter (fun delta => delta.key = key) = [delta] := by
      rw [filter_singleton, decide_eq_true same]
      rfl
    rw [if_pos same, taken]
    cases given : delta.id with
    | none => rw [filterMap_cons_none given]; rfl
    | some id => rw [filterMap_cons_some given]; rfl
  · have left : [delta].filter (fun delta => delta.key = key) = [] := by
      rw [filter_singleton, decide_eq_false same]
      rfl
    rw [if_neg same, left]
    rfl

/-- The identifiers after a delta that gives one or none. -/
def noteId (ids : UInt32 → String) (delta : ToolCallDelta) : UInt32 → String :=
  match delta.id with
  | some id => Function.update ids delta.key id
  | none => ids

theorem finalId_append : finalId (deltas ++ [delta]) = noteId (finalId deltas) delta := by
  funext key
  rw [finalId, lastId_append, noteId]
  cases delta.id with
  | none => rw [Option.none_or, ite_self]; rfl
  | some id =>
    dsimp only
    by_cases same : delta.key = key
    · rw [if_pos same, ← same, Function.update_self]
      rfl
    · rw [if_neg same, Function.update_of_ne fun other => same other.symm]
      rfl

theorem exists_of_lastId {deltas : List ToolCallDelta} {key : UInt32} {id : String}
    (last : lastId deltas key = some id) : ∃ delta ∈ deltas, delta.key = key ∧ delta.id = some id := by
  have member := mem_of_getLast? last
  obtain ⟨delta, filtered, given⟩ := mem_filterMap.mp member
  obtain ⟨inside, same⟩ := mem_filter.mp filtered
  exact ⟨delta, inside, of_decide_eq_true same, given⟩

end Deltas

section Rule

variable {serde : Serde} {rename : Option String → String → ContentBlock → ContentBlock}
  {keys : List UInt32} {ids : UInt32 → String}

abbrev Listed.At (keys : List UInt32) (ids : UInt32 → String) (work : Progress ToolIndex) : Prop :=
  Listed keys ids work.state work.partialMessage.content

theorem Listed.openBlock {work : Progress ToolIndex} (listed : Listed.At keys ids work)
    (delta : ToolCallDelta) :
    (∃ noted, Listed.At (if delta.key ∈ keys then keys else keys ++ [delta.key]) noted
        (delta.openBlock work).1 ∧ noteId noted delta = noteId ids delta) ∧
      (delta.openBlock work).1.state.toolIndexMap[delta.key]? = some (delta.openBlock work).2 := by
  have known := listed.known delta.key
  unfold ToolCallDelta.openBlock
  cases found : work.state.toolIndexMap[delta.key]? with
  | some pos =>
    rw [found] at known
    rw [if_pos (known.mp rfl)]
    exact ⟨⟨ids, listed, rfl⟩, found⟩
  | none =>
    rw [found] at known
    have fresh : delta.key ∉ keys := fun member => by cases known.mpr member
    rw [if_neg fresh]
    refine ⟨⟨_, listed.opened fresh (delta.id.getD "") "", ?_⟩,
      Std.TreeMap.getElem?_insert_self⟩
    unfold noteId
    cases delta.id with
    | none =>
      rw [Option.getD_none, ← listed.unnamed delta.key fresh]
      exact Function.update_eq_self delta.key ids
    | some id => exact Function.update_idem _ _ _

def NamesCall (rename : Option String → String → ContentBlock → ContentBlock) : Prop :=
  ∀ id name, (∀ block, (rename id name block).callId? = block.callId?) ∨
    ∃ given, id = some given ∧
      ∀ block, (rename id name block).callId? = (block.callId?).map fun _ => given

theorem Listed.onToolCall {work : Progress ToolIndex} (listed : Listed.At keys ids work)
    (named : NamesCall rename) (delta : ToolCallDelta) :
    Listed.At (if delta.key ∈ keys then keys else keys ++ [delta.key]) (noteId ids delta)
      (onToolCall serde rename work delta) := by
  obtain ⟨⟨noted, opened, same⟩, found⟩ := listed.openBlock delta
  rw [← same]
  unfold PiRust.onToolCall
  dsimp only
  generalize (delta.openBlock work).1 = openedWork at opened found
  generalize (delta.openBlock work).2 = pos at found
  generalize (if delta.key ∈ keys then keys else keys ++ [delta.key]) = later at opened
  -- The identifier is written first, and by Completions once more with the name.
  have identified : Listed.At later (noteId noted delta) (writeId delta pos openedWork) ∧
      (writeId delta pos openedWork).state = openedWork.state := by
    unfold writeId noteId
    cases delta.id with
    | none => exact ⟨opened, rfl⟩
    | some id => exact ⟨opened.write found (fun block => by cases block <;> rfl), rfl⟩
  have renamed : Listed.At later (noteId noted delta)
        (writeName rename delta pos (writeId delta pos openedWork)) ∧
      (writeName rename delta pos (writeId delta pos openedWork)).state = openedWork.state := by
    unfold writeName
    split
    · rename_i name _
      refine ⟨?_, identified.2⟩
      rcases named delta.id name with kept | ⟨id, given, set⟩
      · exact identified.1.edit pos.toNat kept
      · have again := identified.1.write (identified.2 ▸ found) set
        have idem : Function.update (noteId noted delta) delta.key id = noteId noted delta := by
          rw [noteId, given]
          exact Function.update_idem _ _ _
        rwa [idem] at again
    · exact identified
  have kept : ∀ value block, (ContentBlock.setArguments value block).callId? = block.callId? :=
    fun value block => by cases block <;> rfl
  unfold writeArguments
  split
  · exact (renamed.1.withArguments _).edit pos.toNat (kept _)
  · exact renamed.1

theorem Listed.endToolcalls (work : Progress ToolIndex) (listed : Listed.At keys ids work)
    (order : IterationOrder) :
    Listed keys ids work.state (endToolcalls serde order work).partialMessage.content := by
  unfold PiRust.endToolcalls
  generalize order.visit work.state.toolIndexMap.toList = entries
  induction entries generalizing work with
  | nil => exact listed
  | cons entry entries ih =>
    have written : Listed.At keys ids ((work.edit entry.2.toNat (ContentBlock.setArguments
        (parseStreamingJson serde (work.state.acc entry.1)))).emit (.toolcallEnd entry.2)) :=
      listed.edit _ fun block => by cases block <;> rfl
    exact ih _ written

theorem Listed.callRule (named : NamesCall rename) :
    CallRule serde rename fun deltas => Listed (keysOf deltas) (finalId deltas) where
  initial := Listed.initial
  push other listed := listed.push (@callId?_of_call? _ (.image "" "") other)
  edit p _ same listed := listed.edit p fun block => callId?_of_call? (same block)
  step := by
    intro deltas work delta listed
    have later := @Listed.onToolCall serde rename _ _ work listed named delta
    rw [keysOf_append, finalId_append]
    exact later
  ends work order listed := Listed.endToolcalls work listed order

end Rule

section Distinct

/-- Some delta gives a call this identifier; an empty one is none. -/
def Supplied (deltas : List ToolCallDelta) (id : String) : Prop :=
  id ≠ "" ∧ ∃ delta ∈ deltas, delta.id = some id

/-- No two indices are given one identifier. -/
def SuppliedApart (deltas : List ToolCallDelta) : Prop :=
  ∀ first ∈ deltas, ∀ second ∈ deltas, ∀ id, id ≠ "" →
    first.id = some id → second.id = some id → first.key = second.key

def OnePerCall (ids : List String) (deltas : List ToolCallDelta) : Prop :=
  ids.Nodup ∧ ∀ id, id ∈ ids ↔ Supplied deltas id

/-- Each index is given an identifier in the end, and no two of them. -/
structure Indicated (deltas : List ToolCallDelta) : Prop where
  named : ∀ delta ∈ deltas, ∃ id, id ≠ "" ∧ lastId deltas delta.key = some id
  alone : ∀ first ∈ deltas, ∀ second ∈ deltas, first.key = second.key → ∀ id other,
    id ≠ "" → other ≠ "" → first.id = some id → second.id = some other → id = other

variable {deltas : List ToolCallDelta}

theorem supplied_of_finalId {key : UInt32} {id : String} (filled : id ≠ "")
    (final : finalId deltas key = id) :
    ∃ delta ∈ deltas, delta.key = key ∧ delta.id = some id := by
  unfold finalId at final
  cases last : lastId deltas key with
  | none =>
    rw [last] at final
    exact absurd final.symm filled
  | some given =>
    rw [last, Option.getD_some] at final
    subst final
    exact exists_of_lastId last

theorem onePerCall_iff (apart : SuppliedApart deltas) (nodup : (keysOf deltas).Nodup) :
    OnePerCall ((keysOf deltas).map (finalId deltas)) deltas ↔ Indicated deltas := by
  constructor
  · rintro ⟨distinct, each⟩
    constructor
    · intro delta member
      have here : finalId deltas delta.key ∈ (keysOf deltas).map (finalId deltas) :=
        mem_map_of_mem ((mem_keysOf deltas delta.key).mpr ⟨delta, member, rfl⟩)
      obtain ⟨filled, _⟩ := (each _).mp here
      unfold finalId at filled
      cases last : lastId deltas delta.key with
      | none =>
        rw [last] at filled
        exact absurd rfl filled
      | some id =>
        rw [last] at filled
        exact ⟨id, filled, rfl⟩
    · -- Every identifier is the final one of the index under which it comes.
      have final : ∀ delta ∈ deltas, ∀ id, id ≠ "" → delta.id = some id →
          finalId deltas delta.key = id := by
        intro delta member id filled given
        obtain ⟨key, _, same⟩ := mem_map.mp ((each id).mpr ⟨filled, delta, member, given⟩)
        obtain ⟨other, inside, at_key, again⟩ := supplied_of_finalId filled same
        rw [apart delta member other inside id filled given again, at_key, same]
      intro first member second inside same id other filled full given told
      rw [← final first member id filled given, same, final second inside other full told]
  · intro indicated
    constructor
    · apply nodup.map_on
      intro first member second inside same
      obtain ⟨delta, there, rfl⟩ := (mem_keysOf deltas first).mp member
      obtain ⟨id, filled, last⟩ := indicated.named delta there
      have final : finalId deltas delta.key = id := by rw [finalId, last, Option.getD_some]
      obtain ⟨one, one_there, one_key, one_id⟩ := supplied_of_finalId filled final
      obtain ⟨two, two_there, two_key, two_id⟩ := supplied_of_finalId filled (same ▸ final)
      rw [← one_key, ← two_key]
      exact apart one one_there two two_there id filled one_id two_id
    · intro id
      constructor
      · intro member
        obtain ⟨key, named, rfl⟩ := mem_map.mp member
        obtain ⟨delta, there, rfl⟩ := (mem_keysOf deltas key).mp named
        obtain ⟨id, filled, last⟩ := indicated.named delta there
        have final : finalId deltas delta.key = id := by rw [finalId, last, Option.getD_some]
        obtain ⟨other, inside, _, given⟩ := supplied_of_finalId filled final
        rw [final]
        exact ⟨filled, other, inside, given⟩
      · rintro ⟨filled, delta, there, given⟩
        obtain ⟨last, full, is_last⟩ := indicated.named delta there
        obtain ⟨other, inside, same, told⟩ := exists_of_lastId is_last
        have equal := indicated.alone delta there other inside same.symm id last filled full given told
        apply mem_map.mpr
        refine ⟨delta.key, (mem_keysOf deltas delta.key).mpr ⟨delta, there, rfl⟩, ?_⟩
        rw [finalId, is_last, Option.getD_some, equal]

end Distinct

namespace Google

def functionCalls (response : GenerateContentResponse) : List GeminiFunctionCall :=
  response.candidates.flatMap fun candidate =>
    (candidate.content.elim [] GeminiResponseContent.parts).filterMap
      GeminiResponsePart.functionCall

variable {serde : Serde}

theorem onPart_callIds (work : Work) (part : GeminiResponsePart) :
    (onPart serde work part).partialMessage.content.filterMap callId? =
      work.partialMessage.content.filterMap callId? ++
        (part.functionCall.map GeminiFunctionCall.name).toList := by
  have called : (onFunctionCall serde part work).partialMessage.content.filterMap callId? =
      work.partialMessage.content.filterMap callId? ++
        (part.functionCall.map GeminiFunctionCall.name).toList := by
    unfold onFunctionCall
    cases part.functionCall with
    | none => exact (append_nil _).symm
    | some call => exact Selection.filterMap_push _ _ _
  rw [← called]
  unfold onPart onText
  split
  · dsimp only
    split
    · exact (Selection.filterMap_push _ _ _).trans (append_nil _)
    · exact (Selection.filterMap_push _ _ _).trans (append_nil _)
  · rfl

theorem foldl_callIds {α : Type} {handle : Work → α → Work} {names : α → List String}
    (each : ∀ work item, (handle work item).partialMessage.content.filterMap callId? =
      work.partialMessage.content.filterMap callId? ++ names item) (items : List α) (work : Work) :
    (items.foldl handle work).partialMessage.content.filterMap callId? =
      work.partialMessage.content.filterMap callId? ++ items.flatMap names := by
  induction items generalizing work with
  | nil => exact (append_nil _).symm
  | cons item rest ih =>
    rw [foldl_cons, ih, each, append_assoc, flatMap_cons]

theorem onCandidate_callIds (work : Work) (candidate : Candidate) :
    (onCandidate serde work candidate).partialMessage.content.filterMap callId? =
      work.partialMessage.content.filterMap callId? ++
        ((candidate.content.elim [] GeminiResponseContent.parts).filterMap
          GeminiResponsePart.functionCall).map GeminiFunctionCall.name := by
  have reasoned : (onFinishReason candidate work).partialMessage.content =
      work.partialMessage.content := by
    unfold onFinishReason
    split
    · split <;> rfl
    · rfl
  unfold onCandidate
  dsimp only
  rw [← reasoned]
  cases candidate.content with
  | none => exact (append_nil _).symm
  | some content =>
    dsimp only [Option.elim]
    rw [foldl_callIds onPart_callIds, map_filterMap]
    exact congrArg _ (filterMap_eq_flatMap_toList _ _).symm

theorem onResponse_callIds (work : Work) (response : GenerateContentResponse) :
    (onResponse serde response work).partialMessage.content.filterMap callId? =
      work.partialMessage.content.filterMap callId? ++
        (functionCalls response).map GeminiFunctionCall.name := by
  have first : (onFirst work).partialMessage.content = work.partialMessage.content := by
    unfold onFirst
    split <;> rfl
  have handled := foldl_callIds (@onCandidate_callIds serde) response.candidates (onFirst work)
  rw [first, ← map_flatMap] at handled
  unfold onResponse
  dsimp only
  split <;> exact handled

theorem process_callIds {parse : String → Except String GenerateContentResponse}
    {body : List (Except String Bytes)} {model : Model} {cancelled : Nat → Bool}
    {apiName : String} {reason : StopReason} {message : AssistantMessage}
    (ends : ((handler serde parse).processSse body model cancelled apiName).getLast? =
      some (.done reason message)) :
    message.callIds = ((wireEvents parse (delivered (Sse.iterateSse body))).flatMap
      functionCalls).map GeminiFunctionCall.name := by
  obtain ⟨last, before, named, same⟩ := ChunkHandler.finalized
    (fun responses _ partialMessage => partialMessage.content.filterMap callId? =
      (responses.flatMap functionCalls).map GeminiFunctionCall.name) rfl (by
      intro responses response work named
      rw [onResponse_callIds, named, flatMap_append, map_append, flatMap_singleton]) ends
  have kept : message.content = before.content := by
    rw [same, finalize]
    dsimp only
    split <;> rfl
  rw [AssistantMessage.callIds, kept]
  exact named

end Google

namespace Provider

variable (stream : Stream)

/-- The tool-call deltas of a response; Google sends whole calls. -/
def toolDeltas : Provider → List ToolCallDelta
  | .completions => (received stream stream.wires.completions).flatMap Completions.toolDeltas
  | .mistral => (received stream stream.wires.mistral).flatMap Mistral.toolDeltas
  | _ => []

def functionNames : List String :=
  ((received stream stream.wires.google).flatMap Google.functionCalls).map
    Google.GeminiFunctionCall.name

/-- The calls of the message are those of the provider, one to one, and have different
identifiers. -/
def CallsApart (message : AssistantMessage) : Provider → Prop
  | .google =>
    message.callIds.Nodup ∧ message.callIds.length = (functionNames stream).length
  | provider => OnePerCall message.callIds (provider.toolDeltas stream)

/-- A condition on what the provider sends: Google does not call one function twice, and
the others tell by the index which call a delta is for. -/
def CallsTold : Provider → Prop
  | .google => (functionNames stream).Nodup
  | provider => Indicated (provider.toolDeltas stream)

/-- The blocks are no more than the `u32` positions; Google's are not kept. -/
def CallsFit : Provider → Prop
  | .completions =>
    Completions.opened (Completions.choices (received stream stream.wires.completions)) ≤
      UInt32.size
  | .mistral =>
    Mistral.opened (Mistral.choices (received stream stream.wires.mistral)) ≤ UInt32.size
  | _ => True

theorem Completions.namesCall : NamesCall Completions.rename := by
  intro id name
  cases id with
  | none => exact .inl fun block => by cases block <;> rfl
  | some given => exact .inr ⟨given, rfl, fun block => by cases block <;> rfl⟩

theorem Mistral.namesCall : NamesCall Mistral.rename :=
  fun _ _ => .inl fun block => by cases block <;> rfl

variable {stream}

/-- The calls are apart exactly when the wire events tell them apart. -/
theorem callsApart_iff {provider : Provider}
    (handled : provider ∈ [Provider.google, .completions, .mistral])
    (supplied : SuppliedApart (provider.toolDeltas stream)) (fit : provider.CallsFit stream)
    {reason : StopReason} {message : AssistantMessage}
    (ends : (provider.process stream).getLast? = some (.done reason message)) :
    provider.CallsApart stream message ↔ provider.CallsTold stream := by
  cases provider with
  | google =>
    have names : message.callIds = functionNames stream := Google.process_callIds ends
    rw [CallsApart, CallsTold, names]
    exact and_iff_left rfl
  | completions =>
    obtain ⟨index, listed⟩ := Completions.process_rule ends (Listed.callRule Completions.namesCall)
    have room : message.content.length ≤ UInt32.size := by
      rw [Completions.process_length ends]
      exact fit
    have ids : message.callIds = _ := listed.ids room
    change OnePerCall message.callIds _ ↔ Indicated _
    rw [ids]
    exact onePerCall_iff supplied listed.nodup
  | mistral =>
    obtain ⟨index, listed⟩ := Mistral.process_rule ends (Listed.callRule Mistral.namesCall)
    have room : message.content.length ≤ UInt32.size := by
      rw [Mistral.process_length ends]
      exact fit
    have ids : message.callIds = _ := listed.ids room
    change OnePerCall message.callIds _ ↔ Indicated _
    rw [ids]
    exact onePerCall_iff supplied listed.nodup
  | anthropic => simp at handled
  | responses => simp at handled
  | bedrock => simp at handled

def callsText : String :=
  "\x7b\"candidates\":[\x7b\"content\":\x7b\"parts\":[" ++
    "\x7b\"functionCall\":\x7b\"name\":\"read\",\"args\":\x7b\x7d\x7d\x7d," ++
    "\x7b\"functionCall\":\x7b\"name\":\"read\",\"args\":\x7b\x7d\x7d\x7d]\x7d\x7d]\x7d"

def callsParsed : Google.GenerateContentResponse where
  candidates :=
    [⟨some ⟨[⟨none, none, some ⟨"read", .emptyObject⟩⟩,
      ⟨none, none, some ⟨"read", .emptyObject⟩⟩]⟩, none⟩]
  usageMetadata := none

def calledTwice : Stream :=
  { Stream.silent with
    wires.google := fun data =>
      if data = callsText then .ok callsParsed else .error "unknown event"
    body := [.ok (asciiBytes ("data: " ++ callsText) ++ [Sse.newline, Sse.newline])]
    model.provider := "google" }

theorem callsText_printable : Printable callsText := by
  exact printable_append (printable_append (printable_ofList rfl) (printable_ofList rfl))
    (printable_ofList rfl)

theorem iterateSse_calledTwice : Sse.iterateSse calledTwice.body = [.ok ⟨none, callsText⟩] :=
  Sse.iterateSse_dataLine callsText_printable

theorem callsText_parsed : calledTwice.wires.google callsText = .ok callsParsed := by
  simp [calledTwice]

theorem callsText_ne_done : callsText ≠ "[DONE]" := by
  have apart : '\x7b' ≠ '[' := by decide
  unfold callsText
  simp only [String.append_assoc]
  exact ofList_append_ne apart _ _ _

theorem functionNames_calledTwice : functionNames calledTwice = ["read", "read"] := by
  have data : delivered (Sse.iterateSse calledTwice.body) = [callsText] := by
    simp [iterateSse_calledTwice, delivered, if_neg callsText_ne_done]
  simp only [functionNames, received, data, wireEvents, filterMap_cons, callsText_parsed,
    Except.toOption, filterMap_nil]
  rfl

theorem calledTwice_ends : ∃ reason message, (Provider.google.process calledTwice).getLast? =
    some (.done reason message) := by
  let handler := Google.handler calledTwice.serde calledTwice.wires.google
  have closes : handler.Closes := ChunkHandler.closes
  have handled : ∀ text ∈ [callsText], text ≠ "[DONE]" ∧ ∀ state message,
      handler.handleEvent text state message =
        .ok (Google.onResponse calledTwice.serde callsParsed ⟨state, message, []⟩).continued := by
    refine forall_mem_singleton.mpr ⟨callsText_ne_done, fun state message => ?_⟩
    simp [handler, Google.handler, chunkHandler, callsText_parsed]
  exact ⟨_, _, SseEventHandler.processSse_ends closes (fun _ => rfl) handled
    iterateSse_calledTwice calledTwice.model "google-generative-ai"⟩

/-- The condition at that response. -/
theorem callsApart_iff_calledTwice : ∃ reason message,
    (Provider.google.process calledTwice).getLast? = some (.done reason message) ∧
      (Provider.google.CallsApart calledTwice message ↔ Provider.google.CallsTold calledTwice) := by
  obtain ⟨reason, message, ends⟩ := calledTwice_ends
  have unsupplied : SuppliedApart (Provider.google.toolDeltas calledTwice) :=
    forall_mem_nil _
  exact ⟨reason, message, ends,
    @callsApart_iff calledTwice .google (by decide) unsupplied trivial _ _ ends⟩

/-- Both calls have the same identifier. -/
theorem calledTwice_together :
    ¬ ∀ (stream : Stream) (provider : Provider) (reason : StopReason) (message : AssistantMessage),
      provider ∈ [Provider.google, .completions, .mistral] →
      SuppliedApart (provider.toolDeltas stream) →
      (provider.process stream).getLast? = some (.done reason message) →
      provider.CallsApart stream message := by
  intro always
  obtain ⟨reason, message, ends⟩ := calledTwice_ends
  have apart := always calledTwice .google reason message (by decide)
    (forall_mem_nil _) ends
  have names : message.callIds = functionNames calledTwice := Google.process_callIds ends
  have distinct := apart.1
  rw [names, functionNames_calledTwice] at distinct
  exact absurd distinct (by decide)

end Provider

end PiRust
