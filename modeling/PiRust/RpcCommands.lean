import PiRust.AiTypes
import PiRust.Mailbox

/- The commands of the RPC mode, and how a line of input becomes one. -/
namespace PiRust.RpcServer

structure RequestedProtocolVersion where
  family : String
  major : Nat
  minor : Nat

inductive StreamingBehavior where
  | steer
  | followUp
  deriving DecidableEq

inductive ThinkingLevel where
  | off
  | minimal
  | low
  | medium
  | high
  | xhigh
  deriving DecidableEq

structure RpcSelfHealingEditReplacement where
  oldText : String
  newText : String

structure RpcSelfHealingEditModelRepair where
  maxAttempts : Option Nat

inductive RpcCommand where
  | hello (id : Option String) (protocol : RequestedProtocolVersion)
  | detach (id : Option String)
  | shutdown (id : Option String)
  | prompt (id : Option String) (message : String) (images : Option (List ContentBlock))
      (streamingBehavior : Option StreamingBehavior) (afterSnapshotSequence : Option Nat)
      (idempotencyKey : Option String)
  | steer (id : Option String) (message : String) (images : Option (List ContentBlock))
  | followUp (id : Option String) (message : String) (images : Option (List ContentBlock))
  | abort (id : Option String)
  | newSession (id : Option String) (parentSession : Option String)
  | getState (id : Option String)
  | reload (id : Option String)
  | pluginCommand (id : Option String) (commandId : String) (args : Option Value)
  | selfHealingEdit (id : Option String) (path : String)
      (edits : List RpcSelfHealingEditReplacement) (checkCommand : Option String)
      (repairAttempts : Option (List (List RpcSelfHealingEditReplacement)))
      (modelRepair : Option RpcSelfHealingEditModelRepair) (idempotencyKey : Option String)
  | listAgentProfiles (id : Option String)
  | listTeamProfiles (id : Option String)
  | setDefaultAgentProfile (id : Option String) (profileId : String)
      (idempotencyKey : Option String)
  | invokeAgent (id : Option String) (profileId task : String) (idempotencyKey : Option String)
  | invokeTeam (id : Option String) (teamId task : String) (idempotencyKey : Option String)
  | listDelegationConfirmations (id : Option String)
  | approveDelegation (id : Option String) (operationId toolCallId : String)
      (idempotencyKey : Option String)
  | rejectDelegation (id : Option String) (operationId toolCallId : String)
      (reason idempotencyKey : Option String)
  | setThinkingLevel (id : Option String) (level : ThinkingLevel)
  | setSteeringMode (id : Option String) (mode : QueueMode)
  | setFollowUpMode (id : Option String) (mode : QueueMode)
  | compact (id : Option String) (customInstructions : Option String)
  | setAutoCompaction (id : Option String) (enabled : Bool)
  | getSessionStats (id : Option String)
  | getLastAssistantText (id : Option String)
  | setSessionName (id : Option String) (name : String)
  | getMessages (id : Option String)

/-- `serde_json` on text; the derived `Deserialize` of pi-ai's content blocks; and the texts
of the two kinds of error. -/
structure Wire where
  serde : Serde
  contentBlock : Value → Option ContentBlock
  parseError : String → String
  decodeError : Value → String

def commandType (value : Value) : String :=
  ((value.get "type").bind Value.asStr).getD "unknown"

def commandId (value : Value) : Option String := (value.get "id").bind Value.asStr

def supportedM5Commands : List String :=
  ["hello", "detach", "shutdown", "prompt", "steer", "follow_up", "abort", "new_session",
    "get_state", "reload", "plugin_command", "self_healing_edit", "list_agent_profiles",
    "list_team_profiles", "set_default_agent_profile", "invoke_agent", "invoke_team",
    "list_delegation_confirmations", "approve_delegation", "reject_delegation",
    "set_thinking_level", "set_steering_mode", "set_follow_up_mode", "compact",
    "set_auto_compaction", "get_session_stats", "get_last_assistant_text", "set_session_name",
    "get_messages"]

def isSupportedM5Command (command : String) : Bool := supportedM5Commands.contains command

section Fields

variable {α : Type}

/-- A field as a derived `Deserialize` reads it: an `Option` may be absent or null. -/
def required (read : Value → Option α) (key : String) (value : Value) : Option α :=
  (value.get key).bind read

def optional (read : Value → Option α) (key : String) (value : Value) : Option (Option α) :=
  match value.get key with
  | none => some none
  | some .null => some none
  | some field => (read field).map some

def asVec (read : Value → Option α) : Value → Option (List α)
  | .array items => items.mapM read
  | _ => none

end Fields

def asBool : Value → Option Bool
  | .bool value => some value
  | _ => none

def asUnsigned (bound : Nat) : Value → Option Nat
  | .number printed => printed.toNat?.filter (· < bound)
  | _ => none

/-- A derived `Deserialize` of a struct also takes its fields as an array. -/
def RequestedProtocolVersion.read : Value → Option RequestedProtocolVersion
  | .array [family, major, minor] =>
    return ⟨← family.asStr, ← asUnsigned (2 ^ 32) major, ← asUnsigned (2 ^ 32) minor⟩
  | value =>
    return ⟨← required Value.asStr "family" value, ← required (asUnsigned (2 ^ 32)) "major" value,
      ← required (asUnsigned (2 ^ 32)) "minor" value⟩

def RpcSelfHealingEditReplacement.read : Value → Option RpcSelfHealingEditReplacement
  | .array [oldText, newText] => return ⟨← oldText.asStr, ← newText.asStr⟩
  | value =>
    return ⟨← required Value.asStr "oldText" value, ← required Value.asStr "newText" value⟩

def RpcSelfHealingEditModelRepair.read : Value → Option RpcSelfHealingEditModelRepair
  | .array [.null] => some ⟨none⟩
  | .array [maxAttempts] => return ⟨some (← asUnsigned (2 ^ 64) maxAttempts)⟩
  | .object fields => return ⟨← optional (asUnsigned (2 ^ 64)) "maxAttempts" (.object fields)⟩
  | _ => none

def StreamingBehavior.ofName : String → Option StreamingBehavior
  | "steer" => some .steer
  | "followUp" => some .followUp
  | _ => none

/-- A unit variant is its name, or an object from its name to nothing. -/
def StreamingBehavior.read : Value → Option StreamingBehavior
  | .string name => ofName name
  | .object [(name, .null)] => ofName name
  | .object [(name, .object [])] => ofName name
  | _ => none

def ThinkingLevel.fromStr : String → Option ThinkingLevel
  | "off" => some .off
  | "minimal" => some .minimal
  | "low" => some .low
  | "medium" => some .medium
  | "high" => some .high
  | "xhigh" => some .xhigh
  | _ => none

def QueueMode.fromStr : String → Option QueueMode
  | "all" => some .all
  | "one-at-a-time" => some .oneAtATime
  | _ => none

inductive CommandTag where
  | hello | detach | shutdown | prompt | steer | followUp | abort | newSession | getState
  | reload | pluginCommand | selfHealingEdit | listAgentProfiles | listTeamProfiles
  | setDefaultAgentProfile | invokeAgent | invokeTeam | listDelegationConfirmations
  | approveDelegation | rejectDelegation | setThinkingLevel | setSteeringMode
  | setFollowUpMode | compact | setAutoCompaction | getSessionStats | getLastAssistantText
  | setSessionName | getMessages
  deriving DecidableEq

namespace CommandTag

/-- The tag's `#[serde(rename)]`, which is also the command of its responses. -/
def name : CommandTag → String
  | hello => "hello"
  | detach => "detach"
  | shutdown => "shutdown"
  | prompt => "prompt"
  | steer => "steer"
  | followUp => "follow_up"
  | abort => "abort"
  | newSession => "new_session"
  | getState => "get_state"
  | reload => "reload"
  | pluginCommand => "plugin_command"
  | selfHealingEdit => "self_healing_edit"
  | listAgentProfiles => "list_agent_profiles"
  | listTeamProfiles => "list_team_profiles"
  | setDefaultAgentProfile => "set_default_agent_profile"
  | invokeAgent => "invoke_agent"
  | invokeTeam => "invoke_team"
  | listDelegationConfirmations => "list_delegation_confirmations"
  | approveDelegation => "approve_delegation"
  | rejectDelegation => "reject_delegation"
  | setThinkingLevel => "set_thinking_level"
  | setSteeringMode => "set_steering_mode"
  | setFollowUpMode => "set_follow_up_mode"
  | compact => "compact"
  | setAutoCompaction => "set_auto_compaction"
  | getSessionStats => "get_session_stats"
  | getLastAssistantText => "get_last_assistant_text"
  | setSessionName => "set_session_name"
  | getMessages => "get_messages"

def all : List CommandTag :=
  [hello, detach, shutdown, prompt, steer, followUp, abort, newSession, getState, reload,
    pluginCommand, selfHealingEdit, listAgentProfiles, listTeamProfiles, setDefaultAgentProfile,
    invokeAgent, invokeTeam, listDelegationConfirmations, approveDelegation, rejectDelegation,
    setThinkingLevel, setSteeringMode, setFollowUpMode, compact, setAutoCompaction,
    getSessionStats, getLastAssistantText, setSessionName, getMessages]

def ofName (name : String) : Option CommandTag := all.find? fun tag => tag.name = name

end CommandTag

namespace RpcCommand

def id : RpcCommand → Option String
  | hello id .. | detach id | shutdown id | prompt id .. | steer id .. | followUp id ..
  | abort id | newSession id .. | getState id | reload id | pluginCommand id ..
  | selfHealingEdit id .. | listAgentProfiles id | listTeamProfiles id
  | setDefaultAgentProfile id .. | invokeAgent id .. | invokeTeam id ..
  | listDelegationConfirmations id | approveDelegation id .. | rejectDelegation id ..
  | setThinkingLevel id .. | setSteeringMode id .. | setFollowUpMode id .. | compact id ..
  | setAutoCompaction id .. | getSessionStats id | getLastAssistantText id
  | setSessionName id .. | getMessages id => id

def tag : RpcCommand → CommandTag
  | hello .. => .hello
  | detach .. => .detach
  | shutdown .. => .shutdown
  | prompt .. => .prompt
  | steer .. => .steer
  | followUp .. => .followUp
  | abort .. => .abort
  | newSession .. => .newSession
  | getState .. => .getState
  | reload .. => .reload
  | pluginCommand .. => .pluginCommand
  | selfHealingEdit .. => .selfHealingEdit
  | listAgentProfiles .. => .listAgentProfiles
  | listTeamProfiles .. => .listTeamProfiles
  | setDefaultAgentProfile .. => .setDefaultAgentProfile
  | invokeAgent .. => .invokeAgent
  | invokeTeam .. => .invokeTeam
  | listDelegationConfirmations .. => .listDelegationConfirmations
  | approveDelegation .. => .approveDelegation
  | rejectDelegation .. => .rejectDelegation
  | setThinkingLevel .. => .setThinkingLevel
  | setSteeringMode .. => .setSteeringMode
  | setFollowUpMode .. => .setFollowUpMode
  | compact .. => .compact
  | setAutoCompaction .. => .setAutoCompaction
  | getSessionStats .. => .getSessionStats
  | getLastAssistantText .. => .getLastAssistantText
  | setSessionName .. => .setSessionName
  | getMessages .. => .getMessages

/-- The fields of a variant; those that it does not have are passed over. -/
def fields (wire : Wire) (id : Option String) (value : Value) : CommandTag → Option RpcCommand
  | .hello => return .hello id (← required RequestedProtocolVersion.read "protocol" value)
  | .detach => some (.detach id)
  | .shutdown => some (.shutdown id)
  | .prompt =>
    return .prompt id (← required Value.asStr "message" value)
      (← optional (asVec wire.contentBlock) "images" value)
      (← optional StreamingBehavior.read "streamingBehavior" value)
      (← optional (asUnsigned (2 ^ 64)) "afterSnapshotSequence" value)
      (← optional Value.asStr "idempotencyKey" value)
  | .steer =>
    return .steer id (← required Value.asStr "message" value)
      (← optional (asVec wire.contentBlock) "images" value)
  | .followUp =>
    return .followUp id (← required Value.asStr "message" value)
      (← optional (asVec wire.contentBlock) "images" value)
  | .abort => some (.abort id)
  | .newSession => return .newSession id (← optional Value.asStr "parentSession" value)
  | .getState => some (.getState id)
  | .reload => some (.reload id)
  | .pluginCommand =>
    return .pluginCommand id (← required Value.asStr "commandId" value)
      (← optional some "args" value)
  | .selfHealingEdit =>
    return .selfHealingEdit id (← required Value.asStr "path" value)
      (← required (asVec RpcSelfHealingEditReplacement.read) "edits" value)
      (← optional Value.asStr "checkCommand" value)
      (← optional (asVec (asVec RpcSelfHealingEditReplacement.read)) "repairAttempts" value)
      (← optional RpcSelfHealingEditModelRepair.read "modelRepair" value)
      (← optional Value.asStr "idempotencyKey" value)
  | .listAgentProfiles => some (.listAgentProfiles id)
  | .listTeamProfiles => some (.listTeamProfiles id)
  | .setDefaultAgentProfile =>
    return .setDefaultAgentProfile id (← required Value.asStr "profileId" value)
      (← optional Value.asStr "idempotencyKey" value)
  | .invokeAgent =>
    return .invokeAgent id (← required Value.asStr "profileId" value)
      (← required Value.asStr "task" value) (← optional Value.asStr "idempotencyKey" value)
  | .invokeTeam =>
    return .invokeTeam id (← required Value.asStr "teamId" value)
      (← required Value.asStr "task" value) (← optional Value.asStr "idempotencyKey" value)
  | .listDelegationConfirmations => some (.listDelegationConfirmations id)
  | .approveDelegation =>
    return .approveDelegation id (← required Value.asStr "operationId" value)
      (← required Value.asStr "toolCallId" value)
      (← optional Value.asStr "idempotencyKey" value)
  | .rejectDelegation =>
    return .rejectDelegation id (← required Value.asStr "operationId" value)
      (← required Value.asStr "toolCallId" value) (← optional Value.asStr "reason" value)
      (← optional Value.asStr "idempotencyKey" value)
  | .setThinkingLevel =>
    return .setThinkingLevel id
      (← (← required Value.asStr "level" value) |> ThinkingLevel.fromStr)
  | .setSteeringMode =>
    return .setSteeringMode id (← (← required Value.asStr "mode" value) |> QueueMode.fromStr)
  | .setFollowUpMode =>
    return .setFollowUpMode id (← (← required Value.asStr "mode" value) |> QueueMode.fromStr)
  | .compact => return .compact id (← optional Value.asStr "customInstructions" value)
  | .setAutoCompaction => return .setAutoCompaction id (← required asBool "enabled" value)
  | .getSessionStats => some (.getSessionStats id)
  | .getLastAssistantText => some (.getLastAssistantText id)
  | .setSessionName => return .setSessionName id (← required Value.asStr "name" value)
  | .getMessages => some (.getMessages id)

/-- `serde_json::from_value::<RpcCommand>`. -/
def fromValue (wire : Wire) (value : Value) : Option RpcCommand := do
  let tag ← CommandTag.ofName (commandType value)
  let id ← optional Value.asStr "id" value
  fields wire id value tag

end RpcCommand

variable {value : Value} {id : Option String} {tag : CommandTag} {wire : Wire}
  {command : RpcCommand}

theorem optional_id (read : optional Value.asStr "id" value = some id) : commandId value = id := by
  unfold optional at read
  unfold commandId
  split at read
  · rename_i absent
    rw [absent]
    exact Option.some.inj read
  · rename_i null
    rw [null]
    exact Option.some.inj read
  · rename_i field _ found
    rw [found]
    obtain ⟨text, own, rfl⟩ := Option.map_eq_some_iff.mp read
    exact own

theorem CommandTag.name_of_ofName {name : String} (found : CommandTag.ofName name = some tag) :
    tag.name = name := by
  unfold CommandTag.ofName at found
  simpa using List.find?_some found

theorem RpcCommand.of_fields (read : RpcCommand.fields wire id value tag = some command) :
    command.id = id ∧ command.tag = tag := by
  cases tag
  all_goals
    simp only [RpcCommand.fields, Option.pure_def, Option.bind_eq_bind, Option.bind_eq_some_iff,
      Option.some.injEq] at read
    grind [RpcCommand.id, RpcCommand.tag]

theorem RpcCommand.of_fromValue (read : RpcCommand.fromValue wire value = some command) :
    command.id = commandId value ∧ command.tag.name = commandType value := by
  unfold RpcCommand.fromValue at read
  simp only [Option.bind_eq_bind, Option.bind_eq_some_iff] at read
  obtain ⟨tag, named, id, own, read⟩ := read
  obtain ⟨sameId, sameTag⟩ := RpcCommand.of_fields read
  exact ⟨sameId.trans (optional_id own).symm, sameTag ▸ CommandTag.name_of_ofName named⟩

end PiRust.RpcServer
