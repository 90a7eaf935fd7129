import PiRust.Proxy

/- The two decoders of `proxy.rs`: one state for all events, and one for each event. -/
namespace PiRust.Proxy

open List

variable {serde : Serde}

section content

variable {message : AssistantMessage} {index other : UInt32}

def callAt (message : AssistantMessage) (index : UInt32) : Bool :=
  (message.content[index.toNat]?).any ContentBlock.isToolCall

theorem callAt_of_some {block : ContentBlock}
    (there : message.content[index.toNat]? = some block) :
    callAt message index = block.isToolCall := by
  rw [callAt, there, Option.any_some]

theorem any_ensureContentLen (content : List ContentBlock) (index position : Nat) :
    ((ensureContentLen content index)[position]?).any ContentBlock.isToolCall =
      (content[position]?).any ContentBlock.isToolCall := by
  unfold ensureContentLen
  rcases Nat.lt_or_ge position content.length with inside | outside
  · rw [getElem?_append_left inside]
  · rw [getElem?_append_right outside, getElem?_eq_none outside, getElem?_replicate]
    split <;> rfl

theorem callAt_putBlock (message : AssistantMessage) (index other : UInt32)
    (block : ContentBlock) :
    callAt (putBlock message index block) other =
      if index = other then block.isToolCall else callAt message other := by
  unfold callAt putBlock
  have room : index.toNat < (ensureContentLen message.content index.toNat).length := by
    rw [ensureContentLen, length_append, length_replicate]
    omega
  by_cases same : index = other
  · subst same
    rw [if_pos rfl, getElem?_set_self room, Option.any_some]
  · have apart : index.toNat ≠ other.toNat := fun equal => same (UInt32.toNat_inj.mp equal)
    rw [if_neg same, getElem?_set_ne apart]
    exact any_ensureContentLen ..

theorem callAt_setBlock {old block : ContentBlock}
    (there : message.content[index.toNat]? = some old)
    (same : block.isToolCall = old.isToolCall) (other : UInt32) :
    callAt (setBlock message index block) other = callAt message other := by
  have inside : index.toNat < message.content.length := (List.getElem?_eq_some_iff.mp there).1
  unfold callAt setBlock
  by_cases hit : index.toNat = other.toNat
  · rw [← hit, getElem?_set_self inside, there, Option.any_some, Option.any_some, same]
  · rw [getElem?_set_ne hit]

end content

section tracks

attribute [local simp] processWithToolState feedState feedMessage rejoin

variable {initial : AssistantMessage} {before : List ProxyAssistantMessageEvent}
  {state : ProxyMessageState}

theorem isCall_snoc (initial : AssistantMessage) (before : List ProxyAssistantMessageEvent)
    (event : ProxyAssistantMessageEvent) (index : UInt32) :
    isCall initial (before ++ [event]) index =
      (opens index event).getD (isCall initial before index) := by
  rw [isCall, foldl_append]
  rfl

theorem heldText_snoc (before : List ProxyAssistantMessageEvent)
    (event : ProxyAssistantMessageEvent) (index : UInt32) :
    heldText (before ++ [event]) index = rejoin index (heldText before index) event := by
  rw [heldText, foldl_append]
  rfl

/-- A state that was fed some events: its tool calls are those that the events opened, and
for each of them it holds the argument text since then. -/
structure Tracks (initial : AssistantMessage) (before : List ProxyAssistantMessageEvent)
    (state : ProxyMessageState) : Prop where
  calls : ∀ index, callAt state.partialMessage index = isCall initial before index
  texts : ∀ index, isCall initial before index = true →
    state.toolJson.getD index "" = heldText before index

theorem Tracks.start (initial : AssistantMessage) :
    Tracks initial [] (ProxyMessageState.fromPartial initial) where
  calls := fun _ => rfl
  texts := fun _ _ => Std.TreeMap.getD_emptyc

variable {message : AssistantMessage} {signature : Option String}
  {event : ProxyAssistantMessageEvent} {id name : String} {index : UInt32} {arguments : Value}

section

variable (tracks : Tracks initial before state)
include tracks

theorem Tracks.quiet {after : ProxyMessageState}
    (calls : ∀ index, callAt after.partialMessage index = callAt state.partialMessage index)
    (held : after.toolJson = state.toolJson) (shut : ∀ index, opens index event = none)
    (same : ∀ index, isCall initial before index = true →
      rejoin index (heldText before index) event = heldText before index) :
    Tracks initial (before ++ [event]) after where
  calls := by
    intro index
    rw [isCall_snoc, shut, Option.getD_none, calls, tracks.calls]
  texts := by
    intro index call
    rw [isCall_snoc, shut, Option.getD_none] at call
    rw [heldText_snoc, same index call, held, tracks.texts index call]

theorem Tracks.put {after : ProxyMessageState} (index : UInt32) (block : ContentBlock)
    (message : after.partialMessage = putBlock state.partialMessage index block)
    (opened : ∀ other, opens other event = if index = other then some block.isToolCall else none)
    (texts : ∀ other,
      (if index = other then block.isToolCall = true else isCall initial before other = true) →
        after.toolJson.getD other "" = rejoin other (heldText before other) event) :
    Tracks initial (before ++ [event]) after where
  calls := by
    intro other
    rw [isCall_snoc, opened, message, callAt_putBlock, tracks.calls]
    split <;> rfl
  texts := by
    intro other call
    rw [heldText_snoc]
    refine texts other ?_
    rw [isCall_snoc, opened] at call
    split
    · rename_i same
      simpa only [if_pos same, Option.getD_some] using call
    · rename_i apart
      simpa only [if_neg apart, Option.getD_none] using call

theorem Tracks.call_iff (index : UInt32) :
    isCall initial before index = true ↔ ∃ id name arguments signature,
      state.partialMessage.content[index.toNat]? =
        some (.toolCall id name arguments signature) := by
  rw [← tracks.calls, callAt, Option.any_eq_true]
  refine ⟨?_, ?_⟩
  · rintro ⟨block, there, kind⟩
    cases block <;> cases kind
    exact ⟨_, _, _, _, there⟩
  · rintro ⟨id, name, arguments, signature, there⟩
    exact ⟨_, there, rfl⟩

theorem Tracks.put_other (index : UInt32) {block : ContentBlock}
    (plain : block.isToolCall = false)
    (opened : ∀ other, opens other event = if index = other then some false else none)
    (same : ∀ other text, rejoin other text event = text) :
    Tracks initial (before ++ [event])
      { state with partialMessage := putBlock state.partialMessage index block } := by
  refine tracks.put index block rfl (fun other => by rw [opened, plain]) fun other call => ?_
  rw [same]
  refine tracks.texts other ?_
  split at call
  · rw [plain] at call
    cases call
  · exact call

theorem Tracks.set_other (index : UInt32) {old block : ContentBlock}
    (there : state.partialMessage.content[index.toNat]? = some old)
    (kind : block.isToolCall = old.isToolCall) (shut : ∀ other, opens other event = none)
    (same : ∀ other text, rejoin other text event = text) :
    Tracks initial (before ++ [event])
      { state with partialMessage := setBlock state.partialMessage index block } :=
  tracks.quiet (callAt_setBlock there kind) rfl shut fun other _ => same other _

theorem Tracks.failed (shut : ∀ other, opens other event = none)
    (same : ∀ other, isCall initial before other = true →
      rejoin other (heldText before other) event = heldText before other) :
    Tracks initial (before ++ [event]) state :=
  tracks.quiet (fun _ => rfl) rfl shut same

end

def deltaMessage (serde : Serde) (message : AssistantMessage) (index : UInt32)
    (id name accumulated : String) (signature : Option String) : AssistantMessage :=
  setBlock message index (.toolCall id name (parseStreamingJson serde accumulated) signature)

theorem callAt_deltaMessage
    (there : message.content[index.toNat]? = some (.toolCall id name arguments signature))
    (accumulated : String) (other : UInt32) :
    callAt (deltaMessage serde message index id name accumulated signature) other =
      callAt message other := by
  unfold deltaMessage
  exact callAt_setBlock there (by rfl) other

theorem process_delta
    (there : state.partialMessage.content[index.toNat]? =
      some (.toolCall id name arguments signature)) (delta : String) :
    state.process serde (.toolcallDelta index delta) =
      (⟨deltaMessage serde state.partialMessage index id name
          (state.toolJson.getD index "" ++ delta) signature,
        state.toolJson.insert index (state.toolJson.getD index "" ++ delta)⟩,
      .ok (.toolcallDelta index delta (deltaMessage serde state.partialMessage index id name
        (state.toolJson.getD index "" ++ delta) signature))) := by
  simp [ProxyMessageState.process, processWithToolState, there, deltaMessage]

theorem process_end
    (there : state.partialMessage.content[index.toNat]? =
      some (.toolCall id name arguments signature)) :
    state.process serde (.toolcallEnd index) =
      ({ state with toolJson := state.toolJson.erase index },
        .ok (.toolcallEnd index state.partialMessage)) := by
  simp [ProxyMessageState.process, processWithToolState, there]

theorem process_delta_foreign
    (foreign : ∀ id name arguments signature, state.partialMessage.content[index.toNat]? ≠
      some (.toolCall id name arguments signature)) (delta : String) :
    state.process serde (.toolcallDelta index delta) =
      (state, .error "Received toolcall_delta for non-toolCall content") := by
  simp [ProxyMessageState.process, processWithToolState]

theorem process_end_foreign
    (foreign : ∀ id name arguments signature, state.partialMessage.content[index.toNat]? ≠
      some (.toolCall id name arguments signature)) :
    state.process serde (.toolcallEnd index) =
      (state, .error "Received toolcall_end for non-toolCall content") := by
  simp [ProxyMessageState.process, processWithToolState]

section

variable (tracks : Tracks initial before state)
include tracks

theorem Tracks.foreign (other : isCall initial before index ≠ true) (id name : String)
    (arguments : Value) (signature : Option String) : state.partialMessage.content[index.toNat]? ≠
      some (.toolCall id name arguments signature) :=
  fun there => other ((tracks.call_iff index).mpr ⟨id, name, arguments, signature, there⟩)

theorem Tracks.toolcallDelta (index : UInt32) (delta : String) :
    Tracks initial (before ++ [.toolcallDelta index delta])
      (state.process serde (.toolcallDelta index delta)).1 := by
  by_cases call : isCall initial before index = true
  · obtain ⟨id, name, arguments, signature, there⟩ := (tracks.call_iff index).mp call
    rw [process_delta there]
    refine ⟨fun other => ?_, fun other called => ?_⟩
    · rw [isCall_snoc, ← tracks.calls]
      exact callAt_deltaMessage there _ other
    · rw [isCall_snoc] at called
      rw [heldText_snoc, rejoin, Std.TreeMap.getD_insert, tracks.texts index call]
      by_cases same : index = other
      · subst same
        simp
      · simpa [same] using tracks.texts other called
  · rw [process_delta_foreign (tracks.foreign call)]
    refine tracks.failed (fun _ => rfl) fun other called => if_neg fun same => ?_
    rw [← same] at called
    exact call called

theorem Tracks.toolcallEnd (index : UInt32) :
    Tracks initial (before ++ [.toolcallEnd index])
      (state.process serde (.toolcallEnd index)).1 := by
  by_cases call : isCall initial before index = true
  · obtain ⟨id, name, arguments, signature, there⟩ := (tracks.call_iff index).mp call
    rw [process_end there]
    refine ⟨fun other => ?_, fun other called => ?_⟩
    · rw [isCall_snoc, ← tracks.calls]
      rfl
    · rw [isCall_snoc] at called
      rw [heldText_snoc, rejoin, Std.TreeMap.getD_erase]
      by_cases same : index = other
      · simp [same]
      · simpa [same] using tracks.texts other called
  · rw [process_end_foreign (tracks.foreign call)]
    refine tracks.failed (fun _ => rfl) fun other called => if_neg fun same => ?_
    rw [← same] at called
    exact call called

end

theorem Tracks.step (tracks : Tracks initial before state) (event : ProxyAssistantMessageEvent) :
    Tracks initial (before ++ [event]) (state.process serde event).1 := by
  cases event with
  | start => exact tracks.failed (fun _ => rfl) fun _ _ => rfl
  | textStart index | thinkingStart index =>
    exact tracks.put_other index rfl (fun _ => rfl) fun _ _ => rfl
  | textDelta index delta | textEnd index signature | thinkingDelta index delta
      | thinkingEnd index signature =>
      unfold ProxyMessageState.process processWithToolState
      dsimp only
      split
      · rename_i there
        exact tracks.set_other index there rfl (fun _ => rfl) fun _ _ => rfl
      · exact tracks.failed (fun _ => rfl) fun _ _ => rfl
  | toolcallStart index id toolName =>
    refine tracks.put index _ rfl (fun _ => rfl) fun other call => ?_
    simp only [ProxyMessageState.process, processWithToolState, rejoin, Std.TreeMap.getD_insert]
    by_cases same : index = other
    · simp [same]
    · simpa [same] using tracks.texts other (by simpa [same] using call)
  | toolcallDelta index delta => exact tracks.toolcallDelta index delta
  | toolcallEnd index => exact tracks.toolcallEnd index
  | done reason usage => exact tracks.quiet (fun _ => rfl) rfl (fun _ => rfl) fun _ _ => rfl
  | error reason message usage =>
    exact tracks.quiet (fun _ => rfl) rfl (fun _ => rfl) fun _ _ => rfl

theorem processProxyEvent_eq (event : ProxyAssistantMessageEvent) (state : ProxyMessageState)
    (plain : ∀ index delta, event = .toolcallDelta index delta →
      callAt state.partialMessage index = false) :
    processProxyEvent serde event state.partialMessage =
      ((state.process serde event).1.partialMessage, (state.process serde event).2) := by
  cases event with
  | toolcallDelta index delta =>
    have foreign : ∀ id name arguments signature, state.partialMessage.content[index.toNat]? ≠
        some (.toolCall id name arguments signature) := by
      intro id name arguments signature there
      have call := plain index delta rfl
      rw [callAt_of_some there] at call
      cases call
    have fresh : ∀ id name arguments signature,
        (ProxyMessageState.fromPartial state.partialMessage).partialMessage.content[index.toNat]? ≠
          some (.toolCall id name arguments signature) := foreign
    rw [process_delta_foreign foreign, processProxyEvent, process_delta_foreign fresh]
  | textDelta index | textEnd index | thinkingDelta index | thinkingEnd index
      | toolcallEnd index =>
      unfold processProxyEvent ProxyMessageState.process ProxyMessageState.fromPartial
        processWithToolState
      dsimp only
      cases state.partialMessage.content[index.toNat]? with
      | none => rfl
      | some block => cases block <;> rfl
  | _ => rfl

theorem processProxyEvent_delta
    (there : message.content[index.toNat]? = some (.toolCall id name arguments signature))
    (delta : String) :
    processProxyEvent serde (.toolcallDelta index delta) message =
      (deltaMessage serde message index id name delta signature,
        .ok (.toolcallDelta index delta
          (deltaMessage serde message index id name delta signature))) := by
  have fresh : (ProxyMessageState.fromPartial message).partialMessage.content[index.toNat]? =
      some (.toolCall id name arguments signature) := there
  have empty : (ProxyMessageState.fromPartial message).toolJson.getD index "" ++ delta = delta := by
    rw [ProxyMessageState.fromPartial, Std.TreeMap.getD_emptyc, String.empty_append]
  rw [processProxyEvent, process_delta fresh, empty]
  rfl

theorem deltaMessage_inj {text other : String}
    (there : message.content[index.toNat]? = some (.toolCall id name arguments signature))
    (same : deltaMessage serde message index id name text signature =
      deltaMessage serde message index id name other signature) :
    parseStreamingJson serde text = parseStreamingJson serde other := by
  have inside : index.toNat < message.content.length := (List.getElem?_eq_some_iff.mp there).1
  have contents := congrArg (fun message => message.content[index.toNat]?) same
  simp only [deltaMessage, setBlock, getElem?_set_self inside, Option.some.injEq,
    ContentBlock.toolCall.injEq] at contents
  exact contents.2.2.1

theorem Tracks.agrees_iff (tracks : Tracks initial before state)
    (event : ProxyAssistantMessageEvent) :
    (processProxyEvent serde event state.partialMessage).2 = (state.process serde event).2 ↔
      ∀ index delta, event = .toolcallDelta index delta → isCall initial before index = true →
        parseStreamingJson serde (heldText before index ++ delta) =
          parseStreamingJson serde delta := by
  by_cases call : ∃ index delta, event = .toolcallDelta index delta ∧
      isCall initial before index = true
  · obtain ⟨index, delta, rfl, call⟩ := call
    obtain ⟨id, name, arguments, signature, there⟩ := (tracks.call_iff index).mp call
    rw [processProxyEvent_delta there, process_delta there, tracks.texts index call]
    refine ⟨fun same => ?_, fun alone => ?_⟩
    · rintro other more ⟨⟩ _
      simp only [Except.ok.injEq, AssistantMessageEvent.toolcallDelta.injEq, true_and] at same
      exact (deltaMessage_inj there same).symm
    · simp [deltaMessage, alone index delta rfl call]
  · refine ⟨fun _ index delta same inside => ?_, fun _ => ?_⟩
    · exact absurd ⟨index, delta, same, inside⟩ call
    · rw [processProxyEvent_eq event state fun index delta same => ?_]
      rw [tracks.calls]
      exact Bool.eq_false_iff.mpr fun inside => call ⟨index, delta, same, inside⟩

theorem Tracks.message_eq (tracks : Tracks initial before state)
    (same : (processProxyEvent serde event state.partialMessage).2 =
      (state.process serde event).2) :
    (processProxyEvent serde event state.partialMessage).1 =
      (state.process serde event).1.partialMessage := by
  by_cases call : ∃ index delta, event = .toolcallDelta index delta ∧
      isCall initial before index = true
  · obtain ⟨index, delta, rfl, call⟩ := call
    obtain ⟨id, name, arguments, signature, there⟩ := (tracks.call_iff index).mp call
    rw [processProxyEvent_delta there, process_delta there] at same ⊢
    simp only [Except.ok.injEq, AssistantMessageEvent.toolcallDelta.injEq, true_and] at same
    exact same
  · rw [processProxyEvent_eq event state fun index delta shape => ?_]
    rw [tracks.calls]
    exact Bool.eq_false_iff.mpr fun inside => call ⟨index, delta, shape, inside⟩

theorem Tracks.feed_iff (tracks : Tracks initial before state)
    (events : List ProxyAssistantMessageEvent) :
    feedMessage serde events state.partialMessage = feedState serde events state ↔
      ∀ middle index delta after, events = middle ++ .toolcallDelta index delta :: after →
        isCall initial (before ++ middle) index = true →
          parseStreamingJson serde (heldText (before ++ middle) index ++ delta) =
            parseStreamingJson serde delta := by
  induction events generalizing before state with
  | nil =>
    refine ⟨fun _ middle index delta after split => ?_, fun _ => rfl⟩
    cases middle <;> cases split
  | cons event rest ih =>
    have next : Tracks initial (before ++ [event]) (state.process serde event).1 :=
      tracks.step event
    have later := ih next
    refine ⟨fun same middle index delta after split => ?_, fun alone => ?_⟩
    · simp only [feedMessage, feedState, Prod.mk.injEq, cons.injEq] at same
      obtain ⟨⟨first, results⟩, message⟩ := same
      rw [tracks.message_eq first] at results message
      cases middle with
      | nil =>
        cases split
        rw [append_nil]
        exact (tracks.agrees_iff _).mp first index delta rfl
      | cons other middle =>
        cases split
        have whole := later.mp (Prod.ext results message) middle index delta after rfl
        rwa [append_assoc, singleton_append] at whole
    · have first := (tracks.agrees_iff event).mpr fun index delta shape => by
        subst shape
        have here := alone [] index delta rest rfl
        rwa [append_nil] at here
      have others := later.mpr fun middle index delta after split => by
        have there := alone (event :: middle) index delta after (by rw [split]; rfl)
        rwa [append_assoc, singleton_append]
      simp [feedMessage, feedState, first, tracks.message_eq first, others]

end tracks

/-- Both decoders return the same and end with the same message exactly if no argument delta of
a tool call needs the deltas before it. -/
theorem feedMessage_eq_feedState_iff (serde : Serde) (initial : AssistantMessage)
    (events : List ProxyAssistantMessageEvent) :
    feedMessage serde events initial =
        feedState serde events (ProxyMessageState.fromPartial initial) ↔
      DeltasAlone serde initial events :=
  (Tracks.start initial).feed_iff events

section split

/-- Reads the whole argument text, and its first delta once the quote and the brace are
closed. -/
def pathSerde : Serde where
  fromStr := fun text =>
    if text = "\x7b\"path\":\"README.md\"\x7d" then
      some (.object [("path", .string "README.md")])
    else if text = "\x7b\"path\":\"\"\x7d" then some (.object [("path", .string "")])
    else none
  print := fun _ => ""
  fromStr_empty := by decide

def splitCall : List ProxyAssistantMessageEvent :=
  [.toolcallStart 0 "call-1" "read", .toolcallDelta 0 "\x7b\"path\":\"",
    .toolcallDelta 0 "README.md\"\x7d"]

def proxyMessage : AssistantMessage :=
  (ProxyMessageState.new ⟨"m9-faux-model", "faux", 128000⟩ "proxy-api").partialMessage

/-- The arguments of the call are lost when every delta is parsed alone. -/
theorem splitCall_loses_arguments :
    ¬ feedMessage pathSerde splitCall proxyMessage =
      feedState pathSerde splitCall (ProxyMessageState.fromPartial proxyMessage) := by
  intro same
  have arguments := congrArg (fun fed => fed.2.toolArguments.map fun value =>
    (value.get "path").bind Value.asStr) same
  have lost : ((feedMessage pathSerde splitCall proxyMessage).2.toolArguments.map fun value =>
      (value.get "path").bind Value.asStr) = [none] := by decide
  have kept : ((feedState pathSerde splitCall
      (ProxyMessageState.fromPartial proxyMessage)).2.toolArguments.map fun value =>
        (value.get "path").bind Value.asStr) = [some "README.md"] := by decide
  rw [lost, kept] at arguments
  cases arguments

end split

end PiRust.Proxy
