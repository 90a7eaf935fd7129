import PiRust.RpcCommands
import PiRust.RpcStream
import PiRust.OperationState
import PiRust.SnapshotCoordinator
import PiRust.SessionEvent

/- The RPC mode: `run_rpc_loop`, the state that it keeps, and its commands. What a session
and a connection answer is given with each event, as `Replies`. -/
namespace PiRust.RpcServer

open SnapshotCoordinator (ClientHandle ClientDetachOutcome CodingAgentLifecycleRejection)
open SessionLog (ProfileKind)
open Protocol (ProtocolEvent CodingProtocolEventAdapter)
open Rpc (RpcQueuedProductEvent)

/-- The text of a `CliError`. -/
abbrev CliError := String

def lifecycleText : CodingAgentLifecycleRejection → String
  | .detached => "client connection is detached"
  | .staleGeneration => "client connection generation is stale"
  | .runtimeShutDown => "runtime is shut down"

def lifecycleCode : CodingAgentLifecycleRejection → String
  | .detached => "detached"
  | .staleGeneration => "stale_generation"
  | .runtimeShutDown => "runtime_shut_down"

/-- The variants that the loop tells apart; `other` has its own text and that of the
`CliError` that it becomes. -/
inductive CodingSessionError where
  | lifecycle (reason : CodingAgentLifecycleRejection)
  | eventStreamGap (requestedAfter oldestAvailable : Nat)
  | selfHealingEditFailed (message : String) (data : Value)
  | other (display message : String)

namespace CodingSessionError

def display : CodingSessionError → String
  | lifecycle reason => "lifecycle rejection: " ++ lifecycleText reason
  | eventStreamGap requestedAfter oldestAvailable =>
    "event stream gap after sequence " ++ toString requestedAfter ++
      "; oldest available product event is " ++ toString oldestAvailable ++
      "; client must request a fresh UI snapshot"
  | selfHealingEditFailed message _ => "self-healing edit failed: " ++ message
  | other display _ => display

def toCliError : CodingSessionError → CliError
  | selfHealingEditFailed message _ => message
  | other _ message => message
  | error => error.display

end CodingSessionError

structure ProtocolFamilyVersion where
  family : String
  major : Nat
  minor : Nat

def rpcProtocolVersion : ProtocolFamilyVersion := ⟨"rpc", 1, 0⟩
def productEventProtocolVersion : ProtocolFamilyVersion := ⟨"product_event", 1, 0⟩
def uiSnapshotProtocolVersion : ProtocolFamilyVersion := ⟨"ui_snapshot", 1, 0⟩

def versionText (family : String) (major minor : Nat) : String :=
  family ++ " " ++ toString major ++ "." ++ toString minor

def versionValue (family : String) (major minor : Nat) : Value :=
  .object [("family", .string family), ("major", .number (toString major)),
    ("minor", .number (toString minor))]

def ProtocolFamilyVersion.toValue (version : ProtocolFamilyVersion) : Value :=
  versionValue version.family version.major version.minor

def ProtocolFamilyVersion.isCompatibleWith (own : ProtocolFamilyVersion)
    (requested : RequestedProtocolVersion) : Bool :=
  own.family = requested.family && own.major = requested.major &&
    decide (requested.minor ≤ own.minor)

structure RpcResponse where
  id : Option String
  command : String
  success : Bool
  data : Option Value := none
  error : Option String := none

namespace RpcResponse

def ok (id : Option String) (command : String) (data : Option Value := none) : RpcResponse :=
  { id, command, success := true, data }

def failed (id : Option String) (command error : String) (data : Option Value := none) :
    RpcResponse :=
  { id, command, success := false, data, error := some error }

def eventStreamLag (skipped : Nat) : RpcResponse :=
  failed none "event_stream"
    ("event stream lagged by " ++ toString skipped ++
      " events; client must request a fresh UI snapshot")
    (some (.object [("code", .string "event_stream_lag"),
      ("skipped", .number (toString skipped)), ("recovery", .string "fresh_snapshot")]))

end RpcResponse

inductive CodingAgentShutdownOutcome where
  | shutDown
  | alreadyShutDown
  deriving DecidableEq

/-- `RpcDetachStatus`, as it is printed. -/
def detachStatus : ClientDetachOutcome → String
  | .detached => "detached"
  | .alreadyDetached => "already_detached"
  | .staleGeneration => "stale_generation"

def shutdownStatus : CodingAgentShutdownOutcome → String
  | .shutDown => "shut_down"
  | .alreadyShutDown => "already_shut_down"

inductive RpcLine where
  | response (response : RpcResponse)
  | agentStart
  | queueUpdate (steering followUp : List String)
  | event (event : ProtocolEvent)
  | clientDetached (status : String)
  | runtimeShutDown (status : String)

structure SessionRunOptions where
  enabled : Bool
  sessionDir : Option String

structure RpcIdempotencyRecord where
  command : String
  operationKind : OperationKind
  completed : Bool

def rpcIdempotencyRecordLimit : Nat := 64

structure CodingRunningPrompt (σ : Type) where
  stream : Rpc.CodingRunningPrompt
  operationKind : OperationKind
  idempotencyKey : Option String
  pendingShutdownResponse : Option (Option String) := none
  session : σ
  sessionRoot : Option String

/-- `σ` is the type of sessions. -/
structure RpcState (σ : Type) where
  options : SessionRunOptions
  adapter : CodingProtocolEventAdapter
  thinkingLevel : ThinkingLevel := .off
  steeringMode : QueueMode := .oneAtATime
  followUpMode : QueueMode := .oneAtATime
  autoCompactionEnabled : Bool := true
  sessionName : Option String := none
  activeSessionPath : Option String := none
  activeLeafId : Option String := none
  codingSession : Option σ := none
  clientConnection : Option ClientHandle := none
  running : Option (CodingRunningPrompt σ) := none
  steering : List String := []
  followUp : List String := []
  negotiatedRpc : Option ProtocolFamilyVersion := none
  idempotencyRecords : List (String × RpcIdempotencyRecord) := []
  idempotencyOrder : List String := []

/-- An operation that runs within the loop; a panic of it unwinds through the loop. -/
inductive Ran where
  | ok (data : Value)
  | error (error : CodingSessionError)
  | panicked

inductive Reconnect where
  | replayed (events : List Rpc.Event)
  | freshSnapshotRequired (requestedAfter oldestAvailable : Nat)

structure PendingDelegation where
  targetKind : ProfileKind
  data : Value

structure Drained where
  protocolEvents : List ProtocolEvent := []
  skipped : Option Nat := none

/-- What the calls give back that the handling of a line may make. The coordinator refuses a
request of a connection for the connection's or the runtime's lifecycle only. -/
structure Replies (σ : Type) where
  resolvedSessionDir : Except CliError String
  created : Except CliError σ
  listing : Except CliError Value
  profileKnown : Bool
  confirmations : List Value
  pending : Option PendingDelegation
  connected : Except CliError ClientHandle
  promptDraft : Except CodingAgentLifecycleRejection Unit
  submission : Except CodingSessionError Unit
  /-- `connection.state()`, of which only the submitted operation is read. -/
  connectionState : Except CodingAgentLifecycleRejection (Option String)
  control : Except String Unit
  reconnected : Except CodingAgentLifecycleRejection Reconnect
  acknowledged : Except CodingAgentLifecycleRejection Unit
  detached : Except CodingAgentLifecycleRejection ClientDetachOutcome
  shutdown : CodingAgentShutdownOutcome
  pluginLoad : Ran
  ran : Ran
  drained : Drained

/-- What the queries print. -/
structure Views (σ : Type) where
  sessionState : RpcState σ → Value
  sessionStats : RpcState σ → Value
  lastAssistantText : RpcState σ → Value
  messages : RpcState σ → Value
  agentProfilesData : σ → Value
  teamProfilesData : σ → Value

/-- Why a handler returns early: an error that `?` passes on, or a panic. -/
inductive Stop where
  | error (error : CliError)
  | panicked

structure Handled (σ : Type) where
  state : RpcState σ
  lines : List RpcLine := []
  stop : Option Stop := none

section Handlers

variable {σ : Type}

def answer (state : RpcState σ) (response : RpcResponse) : Handled σ :=
  { state, lines := [.response response] }

/-- `?` on an error. -/
def passOn (state : RpcState σ) (error : CliError) : Handled σ :=
  { state, stop := some (.error error) }

namespace RpcState

def isStreaming (state : RpcState σ) : Bool := state.running.isSome

def detachClient (state : RpcState σ) (replies : Replies σ) :
    Except CodingSessionError ClientDetachOutcome × RpcState σ :=
  match state.clientConnection with
  | none => (.ok .alreadyDetached, state)
  | some _ =>
    match replies.detached with
    | .ok outcome => (.ok outcome, { state with clientConnection := none })
    | .error reason => (.error (.lifecycle reason), state)

/-- `connected` stands for the connection and the drafts that are enqueued on it. -/
def ensureClientConnection (state : RpcState σ) (replies : Replies σ) :
    Except CliError (RpcState σ) :=
  match state.clientConnection with
  | some _ => .ok state
  | none =>
    match replies.connected with
    | .error error => .error error
    | .ok connection => .ok { state with clientConnection := some connection }

def activePromptControl (state : RpcState σ) (replies : Replies σ) :
    Except CodingSessionError (Option String) :=
  match state.running with
  | none => .ok none
  | some running =>
    if running.operationKind ≠ .prompt then .ok none
    else
      match state.clientConnection with
      | none => .ok none
      | some _ => replies.connectionState.mapError .lifecycle

def isKeyChar (c : Char) : Bool := c.isAlphanum || c = '-' || c = '_' || c = '.' || c = ':'

/-- With `OperationIdempotencyKey::parse`. -/
def parseIdempotencyKey : Option String → Except CliError (Option String)
  | none => .ok none
  | some key =>
    if key ≠ "" ∧ key.utf8ByteSize ≤ 128 ∧ key.toList.all isKeyChar then .ok (some key)
    else .error
      "idempotency key must be 1-128 ASCII letters, digits, '-', '_', '.', or ':'"

variable (state : RpcState σ)

def idempotencyRecord (key : String) : Option RpcIdempotencyRecord :=
  (state.idempotencyRecords.find? fun entry => entry.1 = key).map Prod.snd

def idempotentRetryResponse (key : Option String) (command : String) :
    Except CliError (Option Value) :=
  match key.bind state.idempotencyRecord with
  | none => .ok none
  | some record =>
    if record.command = command then
      .ok (some (.object [("deduplicated", .bool true),
        ("operation", .string (OperationControl.OperationKind.asStr record.operationKind)),
        ("completed", .bool record.completed)]))
    else .error ("idempotency key was already used for " ++ record.command ++ ", not " ++ command)

/-- The insertion, and the loop that drops the oldest keys over the limit: it drops at most
one, since every call leaves at most the limit. -/
def rememberIdempotencyKey (key : Option String) (command : String)
    (operationKind : OperationKind) : RpcState σ :=
  match key with
  | none => state
  | some key =>
    let order :=
      if (state.idempotencyRecord key).isSome then state.idempotencyOrder
      else state.idempotencyOrder ++ [key]
    let records :=
      (state.idempotencyRecords.filter fun entry => entry.1 ≠ key) ++
        [(key, { command, operationKind, completed := false })]
    let expired := order.take (order.length - rpcIdempotencyRecordLimit)
    { state with
      idempotencyOrder := order.drop (order.length - rpcIdempotencyRecordLimit)
      idempotencyRecords := records.filter fun entry => !expired.contains entry.1 }

def markIdempotencyComplete (key : Option String) : RpcState σ :=
  { state with
    idempotencyRecords := state.idempotencyRecords.map fun entry =>
      if key = some entry.1 then (entry.1, { entry.2 with completed := true }) else entry }

/-- `rpc_coding_session_root` where the session mode asks for a root. -/
def sessionRoot (replies : Replies σ) : Except CliError (Option String) :=
  if state.options.enabled then
    match state.options.sessionDir with
    | some root => .ok (some root)
    | none => replies.resolvedSessionDir.map some
  else .ok none

def openReloadSession (replies : Replies σ) : Except CliError σ :=
  match state.sessionRoot replies with
  | .error error => .error error
  | .ok _ => replies.created

def takeSession (replies : Replies σ) : Except CliError σ :=
  match state.codingSession with
  | some session => .ok session
  | none => state.openReloadSession replies

def openOperationSession (replies : Replies σ) : Except CliError (Option String × σ) :=
  match state.sessionRoot replies with
  | .error error => .error error
  | .ok root =>
    match state.codingSession with
    | some session => .ok (root, session)
    | none => replies.created.map fun session => (root, session)

/-- An operation starts: its task takes the session along. -/
def start (command : String) (kind : OperationKind) (key : Option String) (root : Option String)
    (session : σ) : RpcState σ :=
  let state := state.rememberIdempotencyKey key command kind
  { state with
    codingSession := none
    running := some
      { stream := { adapter := state.adapter }, operationKind := kind, idempotencyKey := key
        session, sessionRoot := root } }

end RpcState

/-- The opening of the handlers whose command has an idempotency key: the answer that ends
them early, or the key. -/
def admitKey (state : RpcState σ) (id : Option String) (command : String)
    (key : Option String) : Except RpcResponse (Option String) :=
  match RpcState.parseIdempotencyKey key with
  | .error error => .error (.failed id command error)
  | .ok key =>
    match state.idempotentRetryResponse key command with
    | .ok (some data) => .error (.ok id command (some data))
    | .ok none => .ok key
    | .error error => .error (.failed id command error)

/-- As `admitKey`, with the refusal while an operation runs. -/
def admitIdle (state : RpcState σ) (id : Option String) (command : String)
    (key : Option String) (refusal : String) : Except RpcResponse (Option String) :=
  match admitKey state id command key with
  | .error response => .error response
  | .ok key => if state.isStreaming then .error (.failed id command refusal) else .ok key

def hasImages : Option (List ContentBlock) → Bool
  | some (_ :: _) => true
  | _ => false

def imagesUnsupported : String :=
  "image prompt payloads are not supported in Rust M5 RPC mode"

def writeDrained (drained : Drained) : List RpcLine :=
  drained.protocolEvents.map .event ++
    (drained.skipped.map fun skipped => .response (.eventStreamLag skipped)).toList

/-- An operation that the loop waits for, on a session that is put back before the answer.
The answer is made from the outcome. -/
def runHere (state : RpcState σ) (session : σ) (ran : Ran)
    (outcome : Except CodingSessionError Value → RpcResponse) (drained : Drained) : Handled σ :=
  match ran with
  | .panicked => { state := { state with codingSession := none }, stop := some .panicked }
  | .ok data =>
    { state := { state with codingSession := some session }
      lines := .response (outcome (.ok data)) :: writeDrained drained }
  | .error error =>
    { state := { state with codingSession := some session }
      lines := .response (outcome (.error error)) :: writeDrained drained }

/-- As `runHere`, under a key that is complete at the end. -/
def runKeyed (state : RpcState σ) (session : σ) (command : String) (kind : OperationKind)
    (key : Option String) (ran : Ran) (outcome : Except CodingSessionError Value → RpcResponse)
    (drained : Drained) : Handled σ :=
  let handled := runHere (state.rememberIdempotencyKey key command kind) session ran outcome drained
  match handled.stop with
  | some _ => handled
  | none => { handled with state := handled.state.markIdempotencyComplete key }

def handleHello (state : RpcState σ) (id : Option String) (protocol : RequestedProtocolVersion) :
    Handled σ :=
  let own := rpcProtocolVersion
  if own.isCompatibleWith protocol then
    answer { state with negotiatedRpc := some own }
      (.ok id "hello" (some (.object [("protocol", own.toValue),
        ("productEvents", productEventProtocolVersion.toValue),
        ("uiSnapshot", uiSnapshotProtocolVersion.toValue)])))
  else
    answer state (.failed id "hello"
      ("unsupported protocol version for rpc: requested " ++
        versionText protocol.family protocol.major protocol.minor ++ ", supported " ++
        versionText own.family own.major own.minor)
      (some (.object [("code", .string "unsupported_protocol_version"),
        ("requested", versionValue protocol.family protocol.major protocol.minor),
        ("supported", own.toValue)])))

def handleDetach (state : RpcState σ) (replies : Replies σ) (id : Option String) : Handled σ :=
  match state.detachClient replies with
  | (.ok status, state) =>
    { state
      lines := (if status = .detached then [.clientDetached (detachStatus status)] else []) ++
        [.response (.ok id "detach"
          (some (.object [("status", .string (detachStatus status))])))] }
  | (.error (.lifecycle reason), state) =>
    answer state (.failed id "detach" (lifecycleText reason)
      (some (.object [("code", .string (lifecycleCode reason))])))
  | (.error error, state) => passOn state error.toCliError

def shutdownLines (id : Option String) (outcome : CodingAgentShutdownOutcome) : List RpcLine :=
  (if outcome = .shutDown then [.runtimeShutDown (shutdownStatus outcome)] else []) ++
    [.response (.ok id "shutdown"
      (some (.object [("status", .string (shutdownStatus outcome))])))]

variable (state : RpcState σ) (replies : Replies σ) (id : Option String)

def handleShutdown : Handled σ :=
  match state.running with
  | some running =>
    if running.pendingShutdownResponse.isSome then
      answer state (.failed id "shutdown" "runtime shutdown is already pending"
        (some (.object [("code", .string "shutdown_in_progress")])))
    else
      { state := { state with
          running := some { running with pendingShutdownResponse := some id } } }
  | none =>
    match state.takeSession replies with
    | .error error => passOn state error
    | .ok session =>
      { state := { state with codingSession := some session }
        lines := shutdownLines id replies.shutdown }

/-- `steer` and `follow_up`. While an operation runs the message goes to it; else it is
queued with `enqueue`. -/
def handleQueued (command verb : String) (images : Option (List ContentBlock))
    (enqueued : RpcState σ) : Handled σ :=
  if hasImages images then answer state (.failed id command imagesUnsupported)
  else
    match state.running with
    | some running =>
      if running.operationKind ≠ .prompt then
        answer state (.failed id command ("cannot " ++ verb ++ " while " ++
          OperationControl.OperationKind.asStr running.operationKind ++ " is running"))
      else
        match state.activePromptControl replies with
        | .error error => passOn state error.toCliError
        | .ok none => answer state (.failed id command "agent is not streaming")
        | .ok (some _) =>
          match replies.control with
          | .ok () => answer state (.ok id command)
          | .error reason => answer state (.failed id command reason)
    | none =>
      { state := enqueued
        lines := [.response (.ok id command), .queueUpdate enqueued.steering enqueued.followUp] }

def handleSteer (message : String) (images : Option (List ContentBlock)) : Handled σ :=
  handleQueued state replies id "steer" "steer" images
    { state with steering := state.steering ++ [message] }

def handleFollowUp (message : String) (images : Option (List ContentBlock)) : Handled σ :=
  handleQueued state replies id "follow_up" "follow up" images
    { state with followUp := state.followUp ++ [message] }

def handleAbort : Handled σ :=
  match state.running with
  | some running =>
    if running.operationKind ≠ .prompt then
      answer state (.failed id "abort" ("cannot abort while " ++
        OperationControl.OperationKind.asStr running.operationKind ++ " is running"))
    else
      match state.activePromptControl replies with
      | .error error => passOn state error.toCliError
      | .ok none => answer state (.failed id "abort" "agent is not streaming")
      | .ok (some _) =>
        match replies.control with
        | .error reason => answer state (.failed id "abort" reason)
        | .ok () =>
          answer state (.ok id "abort" (some (.object [("cancelled", .bool true)])))
  | none => answer state (.ok id "abort" (some (.object [("cancelled", .bool false)])))

def handleNewSession : Handled σ :=
  if state.isStreaming then
    answer state (.failed id "new_session" "cannot start new session while agent is streaming")
  else
    answer { (state.detachClient replies).2 with
        steering := [], followUp := [], sessionName := none, activeSessionPath := none
        activeLeafId := none, codingSession := none }
      (.ok id "new_session" (some (.object [("cancelled", .bool false)])))

def handleReload : Handled σ :=
  if state.isStreaming then
    answer state (.failed id "reload" "cannot reload plugins while agent is streaming")
  else
    match state.takeSession replies with
    | .error error => answer state (.failed id "reload" error)
    | .ok session =>
      runHere state session replies.pluginLoad
        (fun
          | .ok data => .ok id "reload" (some data)
          | .error error => .failed id "reload" error.display) {}

def handlePluginCommand (commandId : String) : Handled σ :=
  if state.isStreaming then
    answer state
      (.failed id "plugin_command" "cannot run plugin command while agent is streaming")
  else
    match state.takeSession replies with
    | .error error => answer state (.failed id "plugin_command" error)
    | .ok session =>
      let outcome : Except CodingSessionError Value → RpcResponse := fun
        | .ok output => .ok id "plugin_command"
            (some (.object [("commandId", .string commandId), ("output", output)]))
        | .error error => .failed id "plugin_command" error.display
      match state.codingSession, replies.pluginLoad with
      | none, .panicked => runHere state session .panicked outcome {}
      | none, .error error => runHere state session (.error error) outcome {}
      | _, _ => runHere state session replies.ran outcome {}

def selfHealingEditErrorData : CodingSessionError → Option Value
  | .selfHealingEditFailed _ data => some data
  | _ => none

def handleSelfHealingEdit (idempotencyKey : Option String) : Handled σ :=
  match admitIdle state id "self_healing_edit" idempotencyKey
      "cannot run self-healing edit while agent is streaming" with
  | .error response => answer state response
  | .ok key =>
    match state.takeSession replies with
    | .error error => answer state (.failed id "self_healing_edit" error)
    | .ok session =>
      runKeyed state session "self_healing_edit" .selfHealingEdit key replies.ran
        (fun
          | .ok data => .ok id "self_healing_edit" (some data)
          | .error error => .failed id "self_healing_edit" error.display
              (selfHealingEditErrorData error)) replies.drained

/-- `list_agent_profiles` and `list_team_profiles`. -/
def handleListProfiles (command refusal : String) (data : σ → Value) : Handled σ :=
  if state.isStreaming then answer state (.failed id command refusal)
  else
    match state.codingSession with
    | some session => answer state (.ok id command (some (data session)))
    | none =>
      match replies.listing with
      | .ok listed => answer state (.ok id command (some listed))
      | .error error => answer state (.failed id command error)

def handleListAgentProfiles (views : Views σ) (state : RpcState σ) (replies : Replies σ)
    (id : Option String) : Handled σ :=
  handleListProfiles state replies id "list_agent_profiles"
    "cannot list agent profiles while agent is streaming" views.agentProfilesData

def handleListTeamProfiles (views : Views σ) (state : RpcState σ) (replies : Replies σ)
    (id : Option String) : Handled σ :=
  handleListProfiles state replies id "list_team_profiles"
    "cannot list team profiles while agent is streaming" views.teamProfilesData

/-- `ProfileId::new`. -/
def profileId (id : String) : Except String String :=
  if trim id = "" then .error "profile id must not be empty"
  else if trim id ≠ id then
    .error ("profile id must not have surrounding whitespace: " ++ reprStr id)
  else .ok id

def handleSetDefaultAgentProfile (profile : String) (idempotencyKey : Option String) : Handled σ :=
  match admitIdle state id "set_default_agent_profile" idempotencyKey
      "cannot set default agent profile while agent is streaming" with
  | .error response => answer state response
  | .ok key =>
    match profileId profile with
    | .error message => answer state (.failed id "set_default_agent_profile" message)
    | .ok profile =>
      match state.takeSession replies with
      | .error error => answer state (.failed id "set_default_agent_profile" error)
      | .ok session =>
        if replies.profileKnown then
          runKeyed state session "set_default_agent_profile" .setDefaultAgentProfile key
            replies.ran
            (fun
              | .ok _ => .ok id "set_default_agent_profile"
                  (some (.object [("defaultAgentProfileId", .string profile)]))
              | .error error => .failed id "set_default_agent_profile" error.display)
            replies.drained
        else
          answer { state with codingSession := some session }
            (.failed id "set_default_agent_profile"
              ("Unknown agent profile: " ++ profile))

/-- `invoke_agent` and `invoke_team`. -/
def handleInvoke (command kindName idField refusal emptyTask : String) (kind : OperationKind)
    (target task : String) (idempotencyKey : Option String) : Handled σ :=
  match admitIdle state id command idempotencyKey refusal with
  | .error response => answer state response
  | .ok key =>
    if trim task = "" then answer state (.failed id command emptyTask)
    else
      match profileId target with
      | .error message => answer state (.failed id command message)
      | .ok target =>
        match state.openOperationSession replies with
        | .error error => passOn state error
        | .ok (root, session) =>
          if replies.profileKnown then
            { state := state.start command kind key root session
              lines := [.response (.ok id command (some (.object
                [(idField, .string target), ("task", .string task)]))), .agentStart] }
          else
            answer { state with codingSession := some session }
              (.failed id command ("Unknown " ++ kindName ++ " profile: " ++ target))

def handleInvokeAgent (profile task : String) (idempotencyKey : Option String) : Handled σ :=
  handleInvoke state replies id "invoke_agent" "agent" "profileId"
    "cannot invoke agent while agent is streaming" "agent invocation requires a non-empty task"
    .agentInvocation profile task idempotencyKey

def handleInvokeTeam (team task : String) (idempotencyKey : Option String) : Handled σ :=
  handleInvoke state replies id "invoke_team" "team" "teamId"
    "cannot invoke team while agent is streaming"
    "agent team invocation requires a non-empty task" .agentTeam team task idempotencyKey

def handleListDelegationConfirmations : Handled σ :=
  if state.isStreaming then
    answer state (.failed id "list_delegation_confirmations"
      "cannot list delegation confirmations while agent is streaming")
  else
    let confirmations := if state.codingSession.isSome then replies.confirmations else []
    answer state (.ok id "list_delegation_confirmations"
      (some (.object [("confirmations", .array confirmations)])))

def confirmationNotFound (operationId toolCallId : String) : String :=
  "pending delegation confirmation not found: operation_id=" ++ operationId ++
    ", tool_call_id=" ++ toolCallId

def handleApproveDelegation (operationId toolCallId : String) (idempotencyKey : Option String) :
    Handled σ :=
  match admitIdle state id "approve_delegation" idempotencyKey
      "cannot approve delegation while agent is streaming" with
  | .error response => answer state response
  | .ok key =>
    match state.codingSession with
    | none => answer state (.failed id "approve_delegation" "no active coding session")
    | some session =>
      match replies.pending with
      | none => answer state (.failed id "approve_delegation"
          (confirmationNotFound operationId toolCallId))
      | some pending =>
        let kind : OperationKind :=
          match pending.targetKind with
          | .agent => .agentInvocation
          | .team => .agentTeam
        match state.sessionRoot replies with
        | .error error => passOn { state with codingSession := none } error
        | .ok root =>
          { state := state.start "approve_delegation" kind key root session
            lines := [.response (.ok id "approve_delegation"
              (some (.object [("delegation", pending.data)]))), .agentStart] }

def handleRejectDelegation (operationId toolCallId : String)
    (reason idempotencyKey : Option String) : Handled σ :=
  match admitIdle state id "reject_delegation" idempotencyKey
      "cannot reject delegation while agent is streaming" with
  | .error response => answer state response
  | .ok key =>
    match state.codingSession with
    | none => answer state (.failed id "reject_delegation" "no active coding session")
    | some session =>
      match replies.pending with
      | none => answer state (.failed id "reject_delegation"
          (confirmationNotFound operationId toolCallId))
      | some pending =>
        let reason :=
          if trim (reason.getD "") = "" then "delegation rejected by user"
          else reason.getD ""
        runKeyed state session "reject_delegation" .delegationConfirmation key replies.ran
          (fun
            | .ok _ => .ok id "reject_delegation"
                (some (.object [("delegation", pending.data), ("reason", .string reason)]))
            | .error error => .failed id "reject_delegation" error.display)
          replies.drained

def reconnectRunningPromptAfter (wire : Wire) (state : RpcState σ) (replies : Replies σ) :
    Except CodingSessionError (List ProtocolEvent) × RpcState σ :=
  match state.running, state.clientConnection with
  | some running, some _ =>
    match replies.reconnected with
    | .error reason => (.error (.lifecycle reason), state)
    | .ok (.freshSnapshotRequired requestedAfter oldestAvailable) =>
      (.error (.eventStreamGap requestedAfter oldestAvailable), state)
    | .ok (.replayed events) =>
      let replayed := Rpc.pushRetained wire.serde events running.stream
      match replies.acknowledged with
      | .error reason => (.error (.lifecycle reason), { state with running := none })
      | .ok () =>
        (.ok replayed.2, { state with running := some { running with stream := replayed.1 } })
  | _, _ => (.ok [], state)

def handleStreamingPromptControl (streamingBehavior : Option StreamingBehavior) : Handled σ :=
  match state.running with
  | none => answer state (.failed id "prompt" "agent is not streaming")
  | some running =>
    if running.operationKind ≠ .prompt then
      answer state (.failed id "prompt" ("cannot send prompt control while " ++
        OperationControl.OperationKind.asStr running.operationKind ++ " is running"))
    else
      match state.activePromptControl replies with
      | .error error => passOn state error.toCliError
      | .ok none => answer state (.failed id "prompt" "agent is not streaming")
      | .ok (some _) =>
        match streamingBehavior with
        | none => answer state (.failed id "prompt"
            "agent is streaming; prompt requires streamingBehavior steer or followUp")
        | some _ =>
          match replies.control with
          | .ok () => answer state (.ok id "prompt")
          | .error reason => answer state (.failed id "prompt" reason)

def errorCodeData (code : String) : Value := .object [("code", .string code)]

def handleStreamingPrompt (wire : Wire) (state : RpcState σ) (replies : Replies σ)
    (id : Option String) (streamingBehavior : Option StreamingBehavior)
    (afterSnapshotSequence : Option Nat) : Handled σ :=
  match afterSnapshotSequence with
  | none => handleStreamingPromptControl state replies id streamingBehavior
  | some _ =>
    match reconnectRunningPromptAfter wire state replies with
    | (.error (.eventStreamGap requestedAfter oldestAvailable), state) =>
      answer state (.failed id "prompt"
        (CodingSessionError.eventStreamGap requestedAfter oldestAvailable).display
        (some (errorCodeData "event_stream_gap")))
    | (.error error, state) => passOn state error.toCliError
    | (.ok replayed, state) =>
      match streamingBehavior with
      | none =>
        { state, lines := .response (.ok id "prompt") :: replayed.map .event }
      | some behavior =>
        let handled := handleStreamingPromptControl state replies id (some behavior)
        match handled.stop with
        | some _ => handled
        | none => { handled with lines := handled.lines ++ replayed.map .event }

def startCodingSessionPrompt (key : Option String) : Handled σ :=
  match state.openOperationSession replies with
  | .error error => passOn state error
  | .ok (root, session) =>
    let taken := { state with codingSession := none }
    match taken.ensureClientConnection replies with
    | .error error => passOn taken error
    | .ok connected =>
      match replies.promptDraft with
      | .error reason => passOn connected (CodingSessionError.lifecycle reason).toCliError
      | .ok () =>
        match replies.submission with
        | .error error => passOn connected error.toCliError
        | .ok () =>
          { state := connected.start "prompt" .prompt key root session
            lines := [.response (.ok id "prompt"), .agentStart] }

def handlePrompt (wire : Wire) (state : RpcState σ) (replies : Replies σ) (id : Option String)
    (images : Option (List ContentBlock)) (streamingBehavior : Option StreamingBehavior)
    (afterSnapshotSequence : Option Nat) (idempotencyKey : Option String) : Handled σ :=
  match RpcState.parseIdempotencyKey idempotencyKey with
  | .error error => answer state (.failed id "prompt" error)
  | .ok key =>
    if state.isStreaming && afterSnapshotSequence.isSome then
      handleStreamingPrompt wire state replies id streamingBehavior afterSnapshotSequence
    else
      match state.idempotentRetryResponse key "prompt" with
      | .ok (some data) => answer state (.ok id "prompt" (some data))
      | .error error => answer state (.failed id "prompt" error)
      | .ok none =>
        if hasImages images then answer state (.failed id "prompt" imagesUnsupported)
        else if state.isStreaming then
          handleStreamingPrompt wire state replies id streamingBehavior afterSnapshotSequence
        else startCodingSessionPrompt state replies id key

def handleCommand (wire : Wire) (views : Views σ) (state : RpcState σ) (replies : Replies σ) :
    RpcCommand → Handled σ
  | .hello id protocol => handleHello state id protocol
  | .detach id => handleDetach state replies id
  | .shutdown id => handleShutdown state replies id
  | .prompt id _ images streamingBehavior afterSnapshotSequence idempotencyKey =>
    handlePrompt wire state replies id images streamingBehavior afterSnapshotSequence idempotencyKey
  | .steer id message images => handleSteer state replies id message images
  | .followUp id message images => handleFollowUp state replies id message images
  | .abort id => handleAbort state replies id
  | .newSession id _ => handleNewSession state replies id
  | .getState id => answer state (.ok id "get_state" (some (views.sessionState state)))
  | .reload id => handleReload state replies id
  | .pluginCommand id commandId _ => handlePluginCommand state replies id commandId
  | .selfHealingEdit id _ _ _ _ _ idempotencyKey =>
    handleSelfHealingEdit state replies id idempotencyKey
  | .listAgentProfiles id => handleListAgentProfiles views state replies id
  | .listTeamProfiles id => handleListTeamProfiles views state replies id
  | .setDefaultAgentProfile id profileId idempotencyKey =>
    handleSetDefaultAgentProfile state replies id profileId idempotencyKey
  | .invokeAgent id profileId task idempotencyKey =>
    handleInvokeAgent state replies id profileId task idempotencyKey
  | .invokeTeam id teamId task idempotencyKey =>
    handleInvokeTeam state replies id teamId task idempotencyKey
  | .listDelegationConfirmations id => handleListDelegationConfirmations state replies id
  | .approveDelegation id operationId toolCallId idempotencyKey =>
    handleApproveDelegation state replies id operationId toolCallId idempotencyKey
  | .rejectDelegation id operationId toolCallId reason idempotencyKey =>
    handleRejectDelegation state replies id operationId toolCallId reason idempotencyKey
  | .setThinkingLevel id level =>
    answer { state with thinkingLevel := level } (.ok id "set_thinking_level")
  | .setSteeringMode id mode =>
    answer { state with steeringMode := mode } (.ok id "set_steering_mode")
  | .setFollowUpMode id mode =>
    answer { state with followUpMode := mode } (.ok id "set_follow_up_mode")
  | .compact id _ =>
    answer state (.failed id "compact" "manual compaction is not available in Rust M5")
  | .setAutoCompaction id enabled =>
    answer { state with autoCompactionEnabled := enabled } (.ok id "set_auto_compaction")
  | .getSessionStats id =>
    answer state (.ok id "get_session_stats" (some (views.sessionStats state)))
  | .getLastAssistantText id =>
    answer state (.ok id "get_last_assistant_text"
      (some (.object [("text", views.lastAssistantText state)])))
  | .setSessionName id name =>
    if trim name = "" then
      answer state (.failed id "set_session_name" "Session name cannot be empty")
    else answer { state with sessionName := some (trim name) } (.ok id "set_session_name")
  | .getMessages id =>
    answer state (.ok id "get_messages" (some (.object [("messages", views.messages state)])))

def handleInputLine (wire : Wire) (views : Views σ) (state : RpcState σ) (replies : Replies σ)
    (line : String) : Handled σ :=
  match wire.serde.fromStr line with
  | none =>
    answer state (.failed none "parse" ("Failed to parse command: " ++ wire.parseError line))
  | some value =>
    let name := commandType value
    if isSupportedM5Command name then
      match RpcCommand.fromValue wire value with
      | none => answer state (.failed none name ("Invalid command: " ++ wire.decodeError value))
      | some command => handleCommand wire views state replies command
    else
      answer state
        (.failed (commandId value) name ("unsupported command in Rust M5: " ++ name))

/-- `Failed` names no session. -/
inductive PromptTurnOutcome where
  | success (sessionId leafId : Option String)
  | aborted (sessionId : Option String)
  | failed

def promptOutcomeSessionId : PromptTurnOutcome → Option String
  | .success sessionId _ => sessionId
  | .aborted sessionId => sessionId
  | .failed => none

def promptOutcomeLeafId : PromptTurnOutcome → Option String
  | .success _ leafId => leafId
  | _ => none

inductive CodingOperationOutcome where
  | prompt (outcome : Except CliError PromptTurnOutcome)
  | agentInvocation (outcome : Except CliError Unit)
  | agentTeam (outcome : Except CliError Unit)
  | delegationApproval (outcome : Except CliError Unit)

def CodingOperationOutcome.error? : CodingOperationOutcome → Option CliError
  | .prompt (.error error) | .agentInvocation (.error error) | .agentTeam (.error error)
  | .delegationApproval (.error error) => some error
  | _ => none

def recordPrompt (root : Option String) :
    CodingOperationOutcome → RpcState σ
  | .prompt (.ok outcome) =>
    match root, promptOutcomeSessionId outcome with
    | some root, some sessionId =>
      { state with
        activeLeafId := promptOutcomeLeafId outcome
        activeSessionPath := some (root ++ "/" ++ sessionId) }
    | _, _ => { state with activeLeafId := none, activeSessionPath := none }
  | _ => state

/-- What a drain writes; answers to `prompt` are not among its outputs. -/
def drainedLine : Rpc.RpcOutput → List RpcLine
  | .protocol event => [.event event]
  | .lag skipped => [.response (.eventStreamLag skipped)]
  | .success | .gap .. => []

/-- `finish_coding_running_prompt`. No outcome is the channel that the task closed without
reporting, which a panic of the operation leaves behind. -/
def finishCodingRunningPrompt (wire : Wire) (state : RpcState σ)
    (queue : List RpcQueuedProductEvent) (outcome : Option CodingOperationOutcome)
    (shutdown : CodingAgentShutdownOutcome) : Handled σ :=
  match state.running with
  | none => { state }
  | some running =>
    let finished := { state with running := none }.markIdempotencyComplete running.idempotencyKey
    let drained := (Rpc.drainQueue wire.serde queue running.stream).2.flatMap drainedLine
    match outcome with
    | none =>
      { state := finished, lines := drained
        stop := some (.error ("agent failure: coding agent task ended before reporting " ++
          "completion: channel closed")) }
    | some outcome =>
      { state := { recordPrompt finished running.sessionRoot outcome with
          codingSession := some running.session, steering := [], followUp := [] }
        lines := drained ++
          (running.pendingShutdownResponse.map fun id => shutdownLines id shutdown).getD []
        stop := outcome.error?.map .error }

def receiveCodingEvent (wire : Wire) (state : RpcState σ) (running : CodingRunningPrompt σ) :
    Option RpcQueuedProductEvent → Handled σ
  | none =>
    { state := { state with
        running := some { running with
          stream := { running.stream with eventsClosed := true } } } }
  | some (.overflow skipped) =>
    { state := { state with
        running := some { running with
          stream := { running.stream with eventsClosed := true } } }
      lines := [.response (.eventStreamLag skipped)] }
  | some (.event event) =>
    let pushed := Rpc.pushProductEvent wire.serde running.stream event
    { state := { state with running := some { running with stream := pushed.1 } }
      lines := pushed.2.map .event }

end Handlers

/-- An input that is `none` is its end. The outcome of an operation comes with what its queue
of events still holds. -/
inductive RpcLoopEvent (σ : Type) where
  | input (line : Option String) (replies : Replies σ)
  | codingEvent (item : Option RpcQueuedProductEvent)
  | codingPromptDone (queue : List RpcQueuedProductEvent)
      (outcome : Option CodingOperationOutcome) (shutdown : CodingAgentShutdownOutcome)

/-- `run_rpc_loop`: `returned` once it has, with what ended it early. -/
structure Loop (σ : Type) where
  state : RpcState σ
  inputClosed : Bool := false
  written : List RpcLine := []
  returned : Option (Option Stop) := none

section Loop

variable {σ : Type}

def Loop.after (loop : Loop σ) (handled : Handled σ) : Loop σ :=
  { loop with
    state := handled.state
    written := loop.written ++ handled.lines
    returned := handled.stop.map some }

/-- The head of the loop. -/
def Loop.turn (loop : Loop σ) : Loop σ :=
  if loop.returned.isNone && loop.inputClosed && !loop.state.isStreaming then
    { loop with returned := some none }
  else loop

/-- One pass of the loop, for an event that its `select!` can take then. -/
def step (wire : Wire) (views : Views σ) (event : RpcLoopEvent σ) (loop : Loop σ) :
    Option (Loop σ) :=
  if loop.returned.isSome then none
  else
    match event, loop.state.running with
    | .input line replies, _ =>
      if loop.inputClosed then none
      else
        match line with
        | none => some { loop with inputClosed := true }.turn
        | some line => some (loop.after (handleInputLine wire views loop.state replies line)).turn
    | .codingEvent item, some running =>
      if running.stream.eventsClosed then none
      else some (loop.after (receiveCodingEvent wire loop.state running item)).turn
    | .codingPromptDone queue outcome shutdown, some _ =>
      some (loop.after (finishCodingRunningPrompt wire loop.state queue outcome shutdown)).turn
    | _, none => none

def run (wire : Wire) (views : Views σ) (events : List (RpcLoopEvent σ)) (loop : Loop σ) :
    Option (Loop σ) :=
  events.foldlM (fun loop event => step wire views event loop) loop

/-- The loop at the start of the server. -/
def Loop.start (options : SessionRunOptions) (adapter : CodingProtocolEventAdapter) : Loop σ :=
  { state := { options, adapter } }

end Loop

end PiRust.RpcServer
