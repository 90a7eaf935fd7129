import PiRust.ToolCalls

/- `proxy.rs`: the messages that a proxy sends in events of its own. -/
namespace PiRust.Proxy

inductive ProxyAssistantMessageEvent where
  | start
  | textStart (contentIndex : UInt32)
  | textDelta (contentIndex : UInt32) (delta : String)
  | textEnd (contentIndex : UInt32) (contentSignature : Option String)
  | thinkingStart (contentIndex : UInt32)
  | thinkingDelta (contentIndex : UInt32) (delta : String)
  | thinkingEnd (contentIndex : UInt32) (contentSignature : Option String)
  | toolcallStart (contentIndex : UInt32) (id toolName : String)
  | toolcallDelta (contentIndex : UInt32) (delta : String)
  | toolcallEnd (contentIndex : UInt32)
  | done (reason : StopReason) (usage : Usage)
  | error (reason : StopReason) (errorMessage : Option String) (usage : Usage)

structure ProxyMessageState where
  partialMessage : AssistantMessage
  toolJson : Std.TreeMap UInt32 String

namespace ProxyMessageState

def new (model : Model) (api : String) : ProxyMessageState where
  partialMessage :=
    { AssistantMessage.empty "proxy" model.id with
      provider := some model.provider
      model := model.id
      api := api }
  toolJson := ∅

def fromPartial (partialMessage : AssistantMessage) : ProxyMessageState := ⟨partialMessage, ∅⟩

end ProxyMessageState

def ensureContentLen (content : List ContentBlock) (index : Nat) : List ContentBlock :=
  content ++ List.replicate (index + 1 - content.length) (.text "" none)

def putBlock (message : AssistantMessage) (index : UInt32) (block : ContentBlock) :
    AssistantMessage :=
  { message with content := (ensureContentLen message.content index.toNat).set index.toNat block }

def setBlock (message : AssistantMessage) (index : UInt32) (block : ContentBlock) :
    AssistantMessage :=
  { message with content := message.content.set index.toNat block }

variable (serde : Serde)

/-- `process_proxy_event_with_tool_state`. -/
def processWithToolState (event : ProxyAssistantMessageEvent) (state : ProxyMessageState) :
    ProxyMessageState × Except String AssistantMessageEvent :=
  let message := state.partialMessage
  match event with
  | .start => (state, .ok (.start none message))
  | .textStart index =>
    let message := putBlock message index (.text "" none)
    ({ state with partialMessage := message }, .ok (.textStart index message))
  | .textDelta index delta =>
    match message.content[index.toNat]? with
    | some (.text text textSignature) =>
      let message := setBlock message index (.text (text ++ delta) textSignature)
      ({ state with partialMessage := message }, .ok (.textDelta index delta message))
    | _ => (state, .error "Received text_delta for non-text content")
  | .textEnd index contentSignature =>
    match message.content[index.toNat]? with
    | some (.text text _) =>
      let message := setBlock message index (.text text contentSignature)
      ({ state with partialMessage := message }, .ok (.textEnd index message))
    | _ => (state, .error "Received text_end for non-text content")
  | .thinkingStart index =>
    let message := putBlock message index (.thinking "" none none)
    ({ state with partialMessage := message }, .ok (.thinkingStart index message))
  | .thinkingDelta index delta =>
    match message.content[index.toNat]? with
    | some (.thinking thinking thinkingSignature redacted) =>
      let message :=
        setBlock message index (.thinking (thinking ++ delta) thinkingSignature redacted)
      ({ state with partialMessage := message }, .ok (.thinkingDelta index delta message))
    | _ => (state, .error "Received thinking_delta for non-thinking content")
  | .thinkingEnd index contentSignature =>
    match message.content[index.toNat]? with
    | some (.thinking thinking _ redacted) =>
      let message := setBlock message index (.thinking thinking contentSignature redacted)
      ({ state with partialMessage := message }, .ok (.thinkingEnd index message))
    | _ => (state, .error "Received thinking_end for non-thinking content")
  | .toolcallStart index id toolName =>
    let message := putBlock message index (.toolCall id toolName Value.emptyObject none)
    (⟨message, state.toolJson.insert index ""⟩, .ok (.toolcallStart index message))
  | .toolcallDelta index delta =>
    match message.content[index.toNat]? with
    | some (.toolCall id name _ thoughtSignature) =>
      let accumulated := state.toolJson.getD index "" ++ delta
      let message := setBlock message index
        (.toolCall id name (parseStreamingJson serde accumulated) thoughtSignature)
      (⟨message, state.toolJson.insert index accumulated⟩, .ok (.toolcallDelta index delta message))
    | _ => (state, .error "Received toolcall_delta for non-toolCall content")
  | .toolcallEnd index =>
    match message.content[index.toNat]? with
    | some (.toolCall ..) =>
      ({ state with toolJson := state.toolJson.erase index }, .ok (.toolcallEnd index message))
    | _ => (state, .error "Received toolcall_end for non-toolCall content")
  | .done reason usage =>
    let message := { message with stopReason := reason, usage := usage }
    ({ state with partialMessage := message }, .ok (.done reason message))
  | .error reason errorMessage usage =>
    let message :=
      { message with stopReason := reason, errorMessage := errorMessage, usage := usage }
    ({ state with partialMessage := message }, .ok (.error reason message))

def ProxyMessageState.process (event : ProxyAssistantMessageEvent) (state : ProxyMessageState) :
    ProxyMessageState × Except String AssistantMessageEvent :=
  processWithToolState serde event state

def processProxyEvent (event : ProxyAssistantMessageEvent) (partialMessage : AssistantMessage) :
    AssistantMessage × Except String AssistantMessageEvent :=
  let processed := (ProxyMessageState.fromPartial partialMessage).process serde event
  match processed.2 with
  | .ok made => (processed.1.partialMessage, .ok made)
  | .error error => (partialMessage, .error error)

/-- One state for all events: what they return, and the message at the end. -/
def feedState : List ProxyAssistantMessageEvent → ProxyMessageState →
    List (Except String AssistantMessageEvent) × AssistantMessage
  | [], state => ([], state.partialMessage)
  | event :: rest, state =>
    let processed := state.process serde event
    let later := feedState rest processed.1
    (processed.2 :: later.1, later.2)

/-- `process_proxy_event` on one message for all events. -/
def feedMessage : List ProxyAssistantMessageEvent → AssistantMessage →
    List (Except String AssistantMessageEvent) × AssistantMessage
  | [], partialMessage => ([], partialMessage)
  | event :: rest, partialMessage =>
    let processed := processProxyEvent serde event partialMessage
    let later := feedMessage rest processed.1
    (processed.2 :: later.1, later.2)

/-- The block that an event puts at an index is a tool call, or another one. -/
def opens (index : UInt32) : ProxyAssistantMessageEvent → Option Bool
  | .textStart other | .thinkingStart other => if other = index then some false else none
  | .toolcallStart other _ _ => if other = index then some true else none
  | _ => none

def isCall (initial : AssistantMessage) (events : List ProxyAssistantMessageEvent)
    (index : UInt32) : Bool :=
  events.foldl (fun call event => (opens index event).getD call)
    ((initial.content[index.toNat]?).any ContentBlock.isToolCall)

def rejoin (index : UInt32) (text : String) : ProxyAssistantMessageEvent → String
  | .toolcallStart other _ _ | .toolcallEnd other => if other = index then "" else text
  | .toolcallDelta other delta => if other = index then text ++ delta else text
  | _ => text

/-- The deltas for an index since its tool call started or ended last, joined. -/
def heldText (events : List ProxyAssistantMessageEvent) (index : UInt32) : String :=
  events.foldl (rejoin index) ""

/-- Every argument delta of a tool call parses alone to what it parses to behind the deltas
before it. -/
def DeltasAlone (initial : AssistantMessage) (events : List ProxyAssistantMessageEvent) : Prop :=
  ∀ before index delta after, events = before ++ .toolcallDelta index delta :: after →
    isCall initial before index = true →
      parseStreamingJson serde (heldText before index ++ delta) = parseStreamingJson serde delta

end PiRust.Proxy
