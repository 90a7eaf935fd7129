import PiRust.Delegations

/- `agent_team_flow.rs` and `agent_invocation_flow.rs`: a child prompt, the delegations that it
asks for, and the flows that run children. What the prompts do is given by a tree. -/
namespace PiRust.AgentTeam

open Delegation DelegationConfirmation SessionLog

/-- What the identifier generator draws is numbered, in the order it is drawn. -/
abbrev OperationId := Nat

inductive CodingSessionError where
  | config (message : String)
  | input (message : String)
  | session (message : String)
  | provider (message : String)
  | flow (message : String)
  deriving DecidableEq

/-- `Display` of an error. -/
def CodingSessionError.text : CodingSessionError → String
  | .config message => "configuration error: " ++ message
  | .input message => "invalid input: " ++ message
  | .session message => "session error: " ++ message
  | .provider message => "provider error: " ++ message
  | .flow message => "flow error: " ++ message

/-- `flow_error` of the error of a node. -/
def nodeFailed (node message : String) : CodingSessionError :=
  .flow ("flow node '" ++ node ++ "' failed: " ++ message)

inductive CodingAgentEvent where
  | agentTeamStarted (operationId : OperationId) (teamId task : String)
  | agentTeamMemberStarted (operationId childOperationId : OperationId)
      (teamId profileId task : String)
  | agentTeamMemberCompleted (operationId childOperationId : OperationId)
      (teamId profileId finalText : String)
  | agentTeamCompleted (operationId : OperationId) (teamId finalText : String)
  | agentTeamFailed (operationId : OperationId) (teamId : String) (error : CodingSessionError)
  | agentInvocationStarted (operationId childOperationId : OperationId) (profileId task : String)
  | agentInvocationCompleted (operationId childOperationId : OperationId)
      (profileId finalText : String)
  | agentInvocationAborted (operationId childOperationId : OperationId) (profileId reason : String)
  | agentInvocationFailed (operationId childOperationId : OperationId) (profileId : String)
      (error : CodingSessionError)
  | promptCompleted (operationId turnId : OperationId)
  | promptFailed (operationId : OperationId) (error : CodingSessionError)
  | promptAborted (operationId : OperationId) (reason : String)
  | delegationRequested (request : DelegationRequest)
  | delegationApproved (request : DelegationRequest)
  | delegationConfirmationRequired (request : DelegationRequest) (reason : String)
  | delegationRejected (request : DelegationRequest) (reason : String)
  | delegationStarted (request : DelegationRequest) (childOperationId : OperationId)
  | delegationCompleted (request : DelegationRequest) (childOperationId : OperationId)
      (finalText : String)
  | delegationFailed (request : DelegationRequest) (childOperationId : OperationId)
      (error : CodingSessionError)
  | diagnostic (operationId : Option OperationId) (message : String)
  /-- Any other event of a turn: a message, a tool call, a compaction. -/
  | turn (operationId : OperationId)
  deriving DecidableEq

/-- What all the contexts of a run share: the identifiers drawn, the events emitted, and the
decisions that the prompts hold as their `delegation_authorization_decisions`. -/
structure World where
  drawn : Nat
  log : List CodingAgentEvent := []
  decided : List DelegationAuthorizationDecision := []

namespace World

def draw (count : Nat) (world : World) : World :=
  { world with drawn := world.drawn + count }

def emit (event : CodingAgentEvent) (world : World) : World :=
  { world with log := world.log ++ [event] }

def emitAll (events : List CodingAgentEvent) (world : World) : World :=
  { world with log := world.log ++ events }

def record (decisions : List DelegationAuthorizationDecision) (world : World) : World :=
  { world with decided := world.decided ++ decisions }

end World

structure AgentProfile where
  id : String
  tools : List String := []
  skills : List String := []
  delegation : DelegationPolicy := {}

inductive TeamSupervisor where
  | deterministic
  | agent (profileId : String)

structure TeamProfile where
  id : String
  members : List String
  supervisor : TeamSupervisor := .deterministic

structure ProfileRegistry where
  agent : String → Option AgentProfile
  team : String → Option TeamProfile

/-- What surrounds a run: the profiles, and the clock once so many events are out. -/
structure Host where
  registry : ProfileRegistry
  nowRfc3339 : Nat → String

structure RuntimeSnapshot where
  profileId : Option String := none
  profileToolAllowlist : Option (List String) := none
  profileSkillAllowlist : Option (List String) := none
  profileDelegationPolicy : Option DelegationPolicy := none

/-- `PromptTurnOptions`, of an invocation with a text. -/
structure PromptTurnOptions where
  invocation : String
  runtime : Option RuntimeSnapshot

namespace RuntimeSnapshot

def applyAgentProfileCore (profile : AgentProfile) (runtime : RuntimeSnapshot) :
    RuntimeSnapshot :=
  { runtime with
    profileId := some profile.id
    profileDelegationPolicy := some profile.delegation }

def applyAgentProfile (profile : AgentProfile) (runtime : RuntimeSnapshot) : RuntimeSnapshot :=
  { runtime.applyAgentProfileCore profile with
    profileToolAllowlist := if profile.tools = [] then none else some profile.tools
    profileSkillAllowlist := if profile.skills = [] then none else some profile.skills }

def applyDelegatedAgentProfile (profile : AgentProfile) (runtime : RuntimeSnapshot) :
    RuntimeSnapshot :=
  { runtime.applyAgentProfileCore profile with
    profileToolAllowlist := some profile.tools
    profileSkillAllowlist := some profile.skills }

end RuntimeSnapshot

namespace PromptTurnOptions

def withRuntime (change : RuntimeSnapshot → RuntimeSnapshot) (options : PromptTurnOptions) :
    Except CodingSessionError PromptTurnOptions :=
  match options.runtime with
  | none => .error (.config "prompt turn options do not include a runtime snapshot")
  | some runtime => .ok { options with runtime := some (change runtime) }

def applyAgentProfile (profile : AgentProfile) (options : PromptTurnOptions) :
    Except CodingSessionError PromptTurnOptions :=
  options.withRuntime (RuntimeSnapshot.applyAgentProfile profile)

def applyDelegatedAgentProfile (profile : AgentProfile) (options : PromptTurnOptions) :
    Except CodingSessionError PromptTurnOptions :=
  options.withRuntime (RuntimeSnapshot.applyDelegatedAgentProfile profile)

/-- How `run_profile_child` and `prepare_child_prompt` make the options of a child; `owner` is
whose options lack a runtime. -/
def forChild (owner : String) (delegationDepth : Nat) (profile : AgentProfile) (text : String)
    (options : PromptTurnOptions) : Except CodingSessionError PromptTurnOptions :=
  let invoked := { options with invocation := text }
  match (if 0 < delegationDepth then invoked.applyDelegatedAgentProfile profile
    else invoked.applyAgentProfile profile) with
  | .error error => .error error
  | .ok applied =>
    if applied.runtime.isNone then
      .error (.config (owner ++ " options do not include a runtime snapshot"))
    else .ok applied

end PromptTurnOptions

inductive TurnEvent where
  | done (message : String)
  | error (message : String)
  /-- The end of a call of a delegation tool. -/
  | requested (request : DelegationRequest)
  /-- Any other event that the session is told of. -/
  | other

/-- What the surroundings of a prompt do in its turn: the node that fails before the agent runs,
with its message, the events of the agent, and the node that fails after them. -/
structure PromptTurn where
  failsBefore : Option (String × String) := none
  stream : List TurnEvent
  failsAfter : Option (String × String) := none
  diagnostics : List String := []
  abortReason : Option String := none

/-- A prompt with all that runs below it: the k-th child of its i-th delegation is
`delegated i k`. An idle prompt says nothing and asks for nothing. -/
inductive PromptRun where
  | idle
  | mk (turn : PromptTurn) (delegated : Nat → Nat → PromptRun)

def PromptRun.turn : PromptRun → PromptTurn
  | .idle => { stream := [] }
  | .mk turn _ => turn

structure PromptTurnContext where
  operationId : OperationId
  turnId : OperationId
  options : PromptTurnOptions
  runtime : Option RuntimeSnapshot := none
  finalMessage : Option String := none
  delegationRequests : List DelegationRequest := []
  diagnostics : List String := []

inductive PromptTurnOutcome where
  | success (turnId : OperationId) (finalText : String) (diagnostics : List String)
  | aborted (reason : String)
  | failed (error : CodingSessionError)

namespace PromptTurnContext

def resolveRequest (context : PromptTurnContext) : Except CodingSessionError Unit :=
  if context.options.invocation = "" then
    .error (.input "prompt turn requires non-empty text input")
  else if context.options.runtime.isNone then
    .error (.config "prompt turn options do not include a runtime snapshot")
  else .ok ()

/-- The loop of `run_agent_turn`. An error of the agent is a prompt outcome, so it is not
emitted live. -/
def runAgentTurn : List TurnEvent → PromptTurnContext → World →
    (PromptTurnContext × World) × Except String Unit
  | [], context, world =>
    ((context, world),
      if context.finalMessage.isNone then
        .error (CodingSessionError.provider
          "agent turn ended without a final assistant message").text
      else .ok ())
  | .done message :: rest, context, world =>
    runAgentTurn rest { context with finalMessage := some message } world
  | .error message :: _, context, world =>
    (({ context with diagnostics := context.diagnostics ++ [message] }, world),
      .error (CodingSessionError.provider message).text)
  | .requested request :: rest, context, world =>
    runAgentTurn rest
      { context with delegationRequests := context.delegationRequests ++ [request] }
      (world.emit (.delegationRequested request))
  | .other :: rest, context, world =>
    runAgentTurn rest context (world.emit (.turn context.operationId))

/-- `finalize_turn` and `emit_completion`. -/
def finalizeTurn (turn : PromptTurn) (context : PromptTurnContext) :
    Except CodingSessionError Unit :=
  if context.finalMessage.isNone then
    .error (nodeFailed "finalize_turn" (CodingSessionError.session
      "prompt turn cannot finalize without a final assistant message").text)
  else
    match turn.failsAfter with
    | some failure => .error (nodeFailed failure.1 failure.2)
    | none => .ok ()

def runPromptTurnGraph (turn : PromptTurn) (context : PromptTurnContext) (world : World) :
    (PromptTurnContext × World) × Except CodingSessionError Unit :=
  match context.resolveRequest with
  | .error error => ((context, world), .error (nodeFailed "resolve_request" error.text))
  | .ok () =>
    match turn.failsBefore with
    | some failure => ((context, world), .error (nodeFailed failure.1 failure.2))
    | none =>
      let ran := runAgentTurn turn.stream
        { context with
          runtime := context.options.runtime
          diagnostics := turn.diagnostics } world
      match ran.2 with
      | .error message => (ran.1, .error (nodeFailed "run_agent_turn" message))
      | .ok () => (ran.1, finalizeTurn turn ran.1.1)

def authorizeDelegationRequestsWithLineage (currentDepth : Nat)
    (lineage : List DelegationLineageEntry) (context : PromptTurnContext) :
    Except CodingSessionError (List DelegationAuthorizationDecision) :=
  if context.delegationRequests.isEmpty then .ok []
  else
    match context.runtime.bind RuntimeSnapshot.profileDelegationPolicy with
    | none =>
      .error (.config "prompt turn cannot authorize delegation without active profile policy")
    | some policy =>
      .ok (Delegation.authorizeDelegationRequestsWithLineage context.delegationRequests policy
        currentDepth lineage)

def finishSuccess (context : PromptTurnContext) : Except CodingSessionError PromptTurnOutcome :=
  match context.finalMessage with
  | none => .error (.session "prompt turn cannot finish successfully without a final message")
  | some message => .ok (.success context.turnId message context.diagnostics)

end PromptTurnContext

/-- `PendingDelegationConfirmationState`, with where in the tree of delegations it stands. -/
structure PendingDelegation extends PendingDelegationConfirmationState where
  childDelegationDepth : Nat
  delegationLineage : List DelegationLineageEntry

/-- How a step that may delegate leaves things, and what it puts among the pending
confirmations. -/
structure Executed (α : Type) where
  world : World
  pending : List PendingDelegation
  result : Except CodingSessionError α

/-- A child as its parent sees it: its turn, and how the decisions on its requests are carried
out. -/
structure Child where
  turn : PromptTurn
  executeAuthorizedDelegations : List DelegationLineageEntry → PromptTurnOptions →
    List DelegationAuthorizationDecision → World → Executed Unit

/-- What `run_profile_child` and `run_child_agent` do alike once there are options. -/
def runChildPrompt (child : Child) (delegationDepth : Nat)
    (delegationLineage : List DelegationLineageEntry) (context : PromptTurnContext)
    (world : World) : Executed PromptTurnOutcome :=
  let ran := context.runPromptTurnGraph child.turn world
  match ran.2 with
  | .error error =>
    { world := ran.1.2
      pending := []
      result := .ok (match child.turn.abortReason with
        | some reason => .aborted reason
        | none => .failed error) }
  | .ok () =>
    match ran.1.1.authorizeDelegationRequestsWithLineage delegationDepth delegationLineage with
    | .error error => { world := ran.1.2, pending := [], result := .error error }
    | .ok decisions =>
      let done := child.executeAuthorizedDelegations delegationLineage ran.1.1.options
        decisions (ran.1.2.record decisions)
      { world := match done.result with
          | .ok () => done.world
          | .error error => done.world.emit (.diagnostic (some context.operationId)
              ("delegation execution failed: " ++ error.text))
        pending := done.pending
        result := ran.1.1.finishSuccess }

structure AgentInvocationOptions where
  profileId : String
  task : String
  promptOptions : PromptTurnOptions
  delegationDepth : Nat := 0
  delegationLineage : List DelegationLineageEntry := []

structure AgentInvocationContext where
  options : AgentInvocationOptions
  operationId : OperationId
  childOperationId : OperationId
  turnId : OperationId

namespace AgentInvocationContext

/-- `AgentInvocationContext::new`, which draws two operation identifiers and one of a turn. -/
def new (options : AgentInvocationOptions) (world : World) : AgentInvocationContext where
  options := options
  operationId := world.drawn
  childOperationId := world.drawn + 1
  turnId := world.drawn + 2

/-- `fail`, and the error that `run_agent_invocation` then takes. -/
def fail (pending : List PendingDelegation) (error : CodingSessionError)
    (context : AgentInvocationContext) (world : World) : Executed String where
  world := world.emit (.agentInvocationFailed context.operationId context.childOperationId
    context.options.profileId error)
  pending := pending
  result := .error error

def finalizeAgentInvocation (pending : List PendingDelegation) (outcome : PromptTurnOutcome)
    (context : AgentInvocationContext) (world : World) : Executed String :=
  match outcome with
  | .success turnId finalText diagnostics =>
    { world := ((world.emitAll (diagnostics.map (.diagnostic (some context.operationId)))).emit
        (.promptCompleted context.childOperationId turnId)).emit
        (.agentInvocationCompleted context.operationId context.childOperationId
          context.options.profileId finalText)
      pending := pending
      result := .ok finalText }
  | .aborted reason =>
    { world := (world.emit (.promptAborted context.childOperationId reason)).emit
        (.agentInvocationAborted context.operationId context.childOperationId
          context.options.profileId reason)
      pending := pending
      result := .error (.session ("agent invocation aborted: " ++ reason)) }
  | .failed error =>
    { world := (world.emit (.promptFailed context.childOperationId error)).emit
        (.agentInvocationFailed context.operationId context.childOperationId
          context.options.profileId error)
      pending := pending
      result := .error error }

/-- `run_agent_invocation`: the nodes of the flow, one after another. -/
def run (registry : ProfileRegistry) (child : Child) (context : AgentInvocationContext)
    (world : World) : Executed String :=
  if trim context.options.task = "" then
    context.fail [] (.input "agent invocation requires a non-empty task") world
  else
    let started := world.emit (.agentInvocationStarted context.operationId
      context.childOperationId context.options.profileId context.options.task)
    match registry.agent context.options.profileId with
    | none =>
      context.fail [] (.input ("Unknown agent profile: " ++ context.options.profileId)) started
    | some profile =>
      match context.options.promptOptions.forChild "agent invocation"
          context.options.delegationDepth profile context.options.task with
      | .error error => context.fail [] error started
      | .ok options =>
        let ran := runChildPrompt child context.options.delegationDepth
          context.options.delegationLineage
          { operationId := context.childOperationId, turnId := context.turnId,
            options := options } started
        match ran.result with
        | .error error => context.fail ran.pending error ran.world
        | .ok outcome => context.finalizeAgentInvocation ran.pending outcome ran.world

end AgentInvocationContext

structure AgentTeamOptions where
  teamId : String
  task : String
  promptOptions : PromptTurnOptions
  delegationDepth : Nat := 0
  delegationLineage : List DelegationLineageEntry := []

structure AgentTeamMemberOutcome where
  profileId : String
  operationId : OperationId
  turnId : OperationId
  finalText : String
  diagnostics : List String

structure AgentTeamContext where
  options : AgentTeamOptions
  operationId : OperationId
  memberProfiles : List AgentProfile := []
  supervisorProfile : Option AgentProfile := none
  memberResults : List AgentTeamMemberOutcome := []
  supervisorResult : Option AgentTeamMemberOutcome := none
  finalText : Option String := none
  pendingDelegationConfirmations : List PendingDelegation := []

structure TeamStep (α : Type) where
  context : AgentTeamContext
  world : World
  result : Except CodingSessionError α

def TeamStep.andThen {α β : Type} (step : TeamStep β)
    (next : β → AgentTeamContext → World → TeamStep α) : TeamStep α :=
  match step.result with
  | .error error => ⟨step.context, step.world, .error error⟩
  | .ok value => next value step.context step.world

namespace AgentTeamContext

def new (options : AgentTeamOptions) (world : World) : AgentTeamContext where
  options := options
  operationId := world.drawn

def startTeam (context : AgentTeamContext) (world : World) : TeamStep Unit :=
  if trim context.options.task = "" then
    ⟨context, world, .error (.input "agent team invocation requires a non-empty task")⟩
  else
    ⟨context, world.emit (.agentTeamStarted context.operationId context.options.teamId
      context.options.task), .ok ()⟩

/-- The loop of `plan_subtasks` over the members. -/
def memberProfilesOf (registry : ProfileRegistry) :
    List String → Except CodingSessionError (List AgentProfile)
  | [] => .ok []
  | memberId :: rest =>
    match registry.agent memberId with
    | none => .error (.input ("Unknown team member agent profile: " ++ memberId))
    | some profile =>
      match memberProfilesOf registry rest with
      | .error error => .error error
      | .ok profiles => .ok (profile :: profiles)

def supervisorProfileOf (registry : ProfileRegistry) :
    TeamSupervisor → Except CodingSessionError (Option AgentProfile)
  | .deterministic => .ok none
  | .agent profileId =>
    match registry.agent profileId with
    | none => .error (.input ("Unknown team supervisor agent profile: " ++ profileId))
    | some profile => .ok (some profile)

def plan (registry : ProfileRegistry) (teamId : String) :
    Except CodingSessionError (List AgentProfile × Option AgentProfile) :=
  match registry.team teamId with
  | none => .error (.input ("Unknown team profile: " ++ teamId))
  | some team =>
    if team.members.isEmpty then
      .error (.input ("Team profile " ++ team.id ++ " has no members"))
    else
      match memberProfilesOf registry team.members with
      | .error error => .error error
      | .ok members =>
        match supervisorProfileOf registry team.supervisor with
        | .error error => .error error
        | .ok supervisor => .ok (members, supervisor)

def planSubtasks (registry : ProfileRegistry) (context : AgentTeamContext) (world : World) :
    TeamStep Unit :=
  match plan registry context.options.teamId with
  | .error error => ⟨context, world, .error error⟩
  | .ok planned =>
    ⟨{ context with memberProfiles := planned.1, supervisorProfile := planned.2 }, world, .ok ()⟩

def runProfileChild (child : Child) (profile : AgentProfile) (promptText : String)
    (context : AgentTeamContext) (world : World) : TeamStep AgentTeamMemberOutcome :=
  let childOperationId := world.drawn
  let turnId := world.drawn + 1
  let started := (world.draw 2).emit (.agentTeamMemberStarted context.operationId
    childOperationId context.options.teamId profile.id promptText)
  match context.options.promptOptions.forChild "agent team" context.options.delegationDepth
      profile promptText with
  | .error error => ⟨context, started, .error error⟩
  | .ok options =>
    let ran := runChildPrompt child context.options.delegationDepth
      context.options.delegationLineage
      { operationId := childOperationId, turnId := turnId, options := options } started
    let queued := { context with
      pendingDelegationConfirmations := context.pendingDelegationConfirmations ++ ran.pending }
    match ran.result with
    | .error error => ⟨queued, ran.world, .error error⟩
    | .ok (.success turnId finalText diagnostics) =>
      ⟨queued, (ran.world.emit (.promptCompleted childOperationId turnId)).emit
        (.agentTeamMemberCompleted context.operationId childOperationId
          context.options.teamId profile.id finalText),
        .ok ⟨profile.id, childOperationId, turnId, finalText, diagnostics⟩⟩
    | .ok (.aborted reason) =>
      ⟨queued, ran.world.emit (.promptAborted childOperationId reason),
        .error (.session ("agent team child aborted: " ++ reason))⟩
    | .ok (.failed error) =>
      ⟨queued, ran.world.emit (.promptFailed childOperationId error), .error error⟩

/-- The loop of `run_member_agents`; `children` are those of the members still to run. -/
def runMembers : List AgentProfile → (Nat → Child) → AgentTeamContext → World → TeamStep Unit
  | [], _, context, world => ⟨context, world, .ok ()⟩
  | profile :: rest, children, context, world =>
    (context.runProfileChild (children 0) profile context.options.task world).andThen
      fun result context world =>
        runMembers rest (fun later => children (later + 1))
          { context with memberResults := context.memberResults ++ [result] } world

def runMemberAgents (children : Nat → Child) (context : AgentTeamContext) (world : World) :
    TeamStep Unit :=
  runMembers context.memberProfiles children context world

def collectMemberResult (context : AgentTeamContext) (world : World) : TeamStep Unit :=
  if context.memberResults.length ≠ context.memberProfiles.length then
    ⟨context, world, .error (.session "agent team member result collection is incomplete")⟩
  else ⟨context, world, .ok ()⟩

def deterministicFinalText (context : AgentTeamContext) : String :=
  "\n".intercalate (("Team " ++ context.options.teamId ++ " completed.") ::
    context.memberResults.flatMap fun result =>
      ["", "[" ++ result.profileId ++ "]", result.finalText])

def supervisorPrompt (context : AgentTeamContext) : String :=
  "\n".intercalate (["You are supervising an agent team.", "",
      "Task: " ++ context.options.task, "", "Member results:"] ++
    context.memberResults.map (fun result =>
      "- " ++ result.profileId ++ ": " ++ result.finalText) ++
    ["", "Produce the final team response."])

def mergeOrRejectResult (child : Child) (context : AgentTeamContext) (world : World) :
    TeamStep Unit :=
  match context.supervisorProfile with
  | some supervisor =>
    (context.runProfileChild child supervisor context.supervisorPrompt world).andThen
      fun result context world =>
        ⟨{ context with finalText := some result.finalText, supervisorResult := some result },
          world, .ok ()⟩
  | none => ⟨{ context with finalText := some context.deterministicFinalText }, world, .ok ()⟩

def allDiagnostics (context : AgentTeamContext) : List String :=
  context.memberResults.flatMap AgentTeamMemberOutcome.diagnostics ++
    (context.supervisorResult.toList.flatMap AgentTeamMemberOutcome.diagnostics)

def finalizeTeam (context : AgentTeamContext) (world : World) : TeamStep String :=
  match context.finalText with
  | none => ⟨context, world, .error (.session "agent team cannot finalize without final text")⟩
  | some finalText =>
    ⟨context, (world.emitAll (context.allDiagnostics.map
      (.diagnostic (some context.operationId)))).emit
      (.agentTeamCompleted context.operationId context.options.teamId finalText), .ok finalText⟩

/-- The nodes of the flow, one after another. Child `index` is that of member `index`; after the
members comes the supervisor. -/
def runFlow (registry : ProfileRegistry) (children : Nat → Child) (context : AgentTeamContext)
    (world : World) : TeamStep String :=
  (context.startTeam world).andThen fun _ context world =>
  (context.planSubtasks registry world).andThen fun _ context world =>
  (context.runMemberAgents children world).andThen fun _ context world =>
  (context.collectMemberResult world).andThen fun _ context world =>
  (context.mergeOrRejectResult (children context.memberProfiles.length) world).andThen
    fun _ context world => context.finalizeTeam world

/-- `fail` at the node that failed, and what `run_agent_team` then returns. -/
def settle (context : AgentTeamContext) (ended : TeamStep String) : Executed String where
  world := match ended.result with
    | .ok _ => ended.world
    | .error error =>
      ended.world.emit (.agentTeamFailed context.operationId context.options.teamId error)
  pending := ended.context.pendingDelegationConfirmations
  result := ended.result

/-- `run_agent_team`. -/
def run (registry : ProfileRegistry) (children : Nat → Child) (context : AgentTeamContext)
    (world : World) : Executed String :=
  context.settle (context.runFlow registry children world)

end AgentTeamContext

def settleDelegation (request : DelegationRequest) (childOperationId : OperationId)
    (ran : Executed String) : Executed Unit :=
  match ran.result with
  | .ok finalText =>
    { world := ran.world.emit (.delegationCompleted request childOperationId finalText)
      pending := ran.pending
      result := .ok () }
  | .error error =>
    { world := ran.world.emit (.delegationFailed request childOperationId error)
      pending := ran.pending
      result := .error error }

def executeApprovedAgentDelegation (host : Host) (child : Child) (request : DelegationRequest)
    (lineage : List DelegationLineageEntry) (options : PromptTurnOptions)
    (childDelegationDepth : Nat) (world : World) : Executed Unit :=
  let context := AgentInvocationContext.new
    { profileId := request.targetId
      task := request.task
      promptOptions := options
      delegationDepth := childDelegationDepth
      delegationLineage := delegationLineageForRequest lineage request } world
  settleDelegation request context.operationId (context.run host.registry child
    ((world.draw 3).emit (.delegationStarted request context.operationId)))

def executeApprovedTeamDelegation (host : Host) (children : Nat → Child)
    (request : DelegationRequest) (lineage : List DelegationLineageEntry)
    (options : PromptTurnOptions) (childDelegationDepth : Nat) (world : World) : Executed Unit :=
  let context := AgentTeamContext.new
    { teamId := request.targetId
      task := request.task
      promptOptions := options
      delegationDepth := childDelegationDepth
      delegationLineage := delegationLineageForRequest lineage request } world
  settleDelegation request context.operationId (context.run host.registry children
    ((world.draw 1).emit (.delegationStarted request context.operationId)))

def executeApprovedDelegation (host : Host) (children : Nat → Child) (request : DelegationRequest)
    (lineage : List DelegationLineageEntry) (options : PromptTurnOptions)
    (childDelegationDepth : Nat) (world : World) : Executed Unit :=
  match request.targetKind with
  | .agent => executeApprovedAgentDelegation host (children 0) request lineage options
      childDelegationDepth world
  | .team => executeApprovedTeamDelegation host children request lineage options
      childDelegationDepth world

/-- The loop of `execute_authorized_delegations`; `children` are those of the decisions still to
be carried out. -/
def executeAuthorizedDelegations (host : Host) (lineage : List DelegationLineageEntry)
    (options : PromptTurnOptions) :
    List DelegationAuthorizationDecision → (Nat → Nat → Child) → World → Executed Unit
  | [], _, world => ⟨world, [], .ok ()⟩
  | .approved request childDelegationDepth :: rest, children, world =>
    let ran := executeApprovedDelegation host (children 0) request lineage options
      childDelegationDepth (world.emit (.delegationApproved request))
    match ran.result with
    | .error error => ⟨ran.world, ran.pending, .error error⟩
    | .ok () =>
      let done := executeAuthorizedDelegations host lineage options rest
        (fun later => children (later + 1)) ran.world
      { done with pending := ran.pending ++ done.pending }
  | .requiresConfirmation request reason childDelegationDepth :: rest, children, world =>
    let waiting : PendingDelegation :=
      { request := request
        hasRuntime := options.runtime.isSome
        reason := reason
        requestedAt := host.nowRfc3339 world.log.length
        childDelegationDepth := childDelegationDepth
        delegationLineage := delegationLineageForRequest lineage request }
    let done := executeAuthorizedDelegations host lineage options rest
      (fun later => children (later + 1))
      (world.emit (.delegationConfirmationRequired request reason))
    { done with pending := waiting :: done.pending }
  | .rejected request reason :: rest, children, world =>
    executeAuthorizedDelegations host lineage options rest (fun later => children (later + 1))
      (world.emit (.delegationRejected request reason))

/-- How the decisions on the requests of a prompt are carried out. -/
def PromptRun.execute (host : Host) : PromptRun → List DelegationLineageEntry →
    PromptTurnOptions → List DelegationAuthorizationDecision → World → Executed Unit
  | .idle => fun _ _ _ world => ⟨world, [], .ok ()⟩
  | .mk _ delegated => fun lineage options decisions world =>
    executeAuthorizedDelegations host lineage options decisions
      (fun index child => ⟨(delegated index child).turn, (delegated index child).execute host⟩)
      world

def PromptRun.child (host : Host) (prompt : PromptRun) : Child :=
  ⟨prompt.turn, prompt.execute host⟩

/-- A team that the session invokes; `prompts` are what its members and its supervisor do. -/
def invokeTeam (host : Host) (options : AgentTeamOptions) (prompts : Nat → PromptRun)
    (drawn : Nat) : Executed String :=
  (AgentTeamContext.new options ⟨drawn, [], []⟩).run host.registry
    (fun index => (prompts index).child host) ⟨drawn + 1, [], []⟩

end PiRust.AgentTeam
