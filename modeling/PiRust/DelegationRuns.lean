import PiRust.TeamRuns

/- The events of a whole run of a team, with everything that its members delegate: they are
complete exactly if a runtime is there and no decision follows a failing delegation. -/
namespace PiRust.AgentTeam

open List Brackets Delegation DelegationConfirmation SessionLog

namespace AgentInvocationContext

section
variable {children : Nat → Child}
  {orderly : Nat → Demand}
  {low : OperationId} {world middle : World} {due missed : List DelegationAuthorizationDecision}
  {pending : List PendingDelegation}

variable (context : AgentInvocationContext)

theorem fail_runs (error : CodingSessionError) (runs : Runs low due world middle pending missed) :
    Runs low due world (context.fail pending error middle).world
      (context.fail pending error middle).pending missed := by
  exact runs.concatSilent _ ⟨⟨rfl, rfl, rfl, rfl⟩, rfl, rfl, rfl, rfl⟩

theorem finalize_runs (outcome : PromptTurnOutcome) (lowest : low ≤ context.childOperationId)
    (drawn : context.childOperationId < world.drawn)
    (runs : Runs world.drawn [] world middle pending missed) :
    Runs low [] world (context.finalizeAgentInvocation pending outcome middle).world
      (context.finalizeAgentInvocation pending outcome middle).pending missed := by
  have below : low ≤ world.drawn := Nat.le_of_lt (Nat.lt_of_le_of_lt lowest drawn)
  cases outcome with
  | success turnId finalText diagnostics =>
    have told := (runs.trans (Runs.silents
      (diagnostics_silent context.operationId diagnostics))).lower below
    rw [append_nil, append_nil, append_nil] at told
    have completed := told.concatSilent (.promptCompleted context.childOperationId turnId)
      ⟨⟨rfl, rfl, rfl, rfl⟩, rfl, rfl, rfl, rfl⟩
    exact completed.concatSilent _ ⟨⟨rfl, rfl, rfl, rfl⟩, rfl, rfl, rfl, rfl⟩
  | aborted reason =>
    have ended := runs.concat (.promptAborted context.childOperationId reason) below
      ⟨rfl, rfl, rfl, rfl⟩ rfl
      (fun child same => Option.some.inj same ▸ ⟨lowest, drawn⟩) rfl rfl
    exact ended.concatSilent _ ⟨⟨rfl, rfl, rfl, rfl⟩, rfl, rfl, rfl, rfl⟩
  | failed error =>
    have ended := runs.concat (.promptFailed context.childOperationId error) below
      ⟨rfl, rfl, rfl, rfl⟩ rfl
      (fun child same => Option.some.inj same ▸ ⟨lowest, drawn⟩) rfl rfl
    exact ended.concatSilent _ ⟨⟨rfl, rfl, rfl, rfl⟩, rfl, rfl, rfl, rfl⟩

theorem finalize_ok (outcome : PromptTurnOutcome) (world : World)
    (pending : List PendingDelegation) :
    (∃ text, (context.finalizeAgentInvocation pending outcome world).result = .ok text) ↔
      outcome.isSuccess = true := by
  cases outcome with
  | success turnId finalText diagnostics => exact iff_of_true ⟨_, rfl⟩ rfl
  | aborted reason | failed reason => exact iff_of_false (not_ok_of_error _) Bool.false_ne_true

theorem run_spec (registry : ProfileRegistry)
    (carries : ∀ child, (children child).Carries (orderly child))
    (context : AgentInvocationContext) (world : World)
    (lowest : low ≤ context.childOperationId) (drawn : context.childOperationId < world.drawn)
    (ready : context.options.promptOptions.runtime.isSome = true) :
    ∃ missed,
      Runs low [] world (context.run registry (children 0) world).world
        (context.run registry (children 0) world).pending missed ∧
      (missed = [] ↔ OrderlyChildren children orderly context.options.delegationDepth
        context.options.delegationLineage
        (childrenOf registry .agent context.options.profileId context.options.task)) ∧
      ((∃ text, (context.run registry (children 0) world).result = .ok text) ↔
        childrenOf registry .agent context.options.profileId context.options.task ≠ [] ∧
        ∀ child < (childrenOf registry .agent context.options.profileId
            context.options.task).length, (children child).turn.succeeds = true) := by
  have below : low ≤ world.drawn := Nat.le_of_lt (Nat.lt_of_le_of_lt lowest drawn)
  unfold childrenOf run
  by_cases blank : trim context.options.task = ""
  · rw [if_pos blank, if_pos blank]
    exact ⟨[], context.fail_runs _ ((Runs.refl world).lower below),
      iff_of_true rfl EachSuccess.nil,
      iff_of_false (not_ok_of_error _) fun both => both.1 rfl⟩
  · have named : context.options.task ≠ "" := fun empty => blank (by rw [empty]; rfl)
    have began : Runs world.drawn [] world (world.emit (.agentInvocationStarted
        context.operationId context.childOperationId context.options.profileId
        context.options.task)) [] [] := Runs.silent ⟨⟨rfl, rfl, rfl, rfl⟩, rfl, rfl, rfl, rfl⟩
    rw [if_neg blank, if_neg blank]
    dsimp only
    cases found : registry.agent context.options.profileId with
    | none =>
      exact ⟨[], context.fail_runs _ (began.lower below), iff_of_true rfl EachSuccess.nil,
        iff_of_false (not_ok_of_error _) fun both => both.1 rfl⟩
    | some profile =>
      obtain ⟨runtime, prepared, permits⟩ := forChild_spec "agent invocation"
        context.options.delegationDepth profile context.options.task ready
      obtain ⟨missed, outcome, runs, whether, result, success⟩ := runChildPrompt_spec
        (carries 0)
        { operationId := context.childOperationId, turnId := context.turnId, options :=
          { invocation := context.options.task, runtime := some runtime } }
        (world.emit (.agentInvocationStarted context.operationId context.childOperationId
          context.options.profileId context.options.task))
        named rfl permits rfl rfl context.options.delegationDepth
        context.options.delegationLineage
      simp only [prepared, result, Option.toList_some]
      refine ⟨missed, context.finalize_runs outcome lowest drawn (began.trans runs), ?_, ?_⟩
      · rw [whether]
        exact (orderly_cons_iff.trans (and_iff_left fun _ => EachSuccess.nil)).symm
      · rw [finalize_ok, success]
        constructor
        · intro succeeds
          refine ⟨cons_ne_nil _ _, fun child inside => ?_⟩
          rwa [Nat.lt_one_iff.mp inside]
        · exact fun both => both.2 0 Nat.zero_lt_one

end

end AgentInvocationContext

section
variable {world : World} {children : Nat → Child} {orderly : Nat → Demand}

theorem settleDelegation_spec (request : DelegationRequest) (childDepth count : Nat)
    (world : World) {ran : Executed String} {missed : List DelegationAuthorizationDecision}
    (runs : Runs (world.drawn + 1) [] (((world.emit (.delegationApproved request)).draw count).emit
      (.delegationStarted request world.drawn)) ran.world ran.pending missed) :
    Runs world.drawn [.approved request childDepth] world
        (settleDelegation request world.drawn ran).world
        (settleDelegation request world.drawn ran).pending missed ∧
      ((settleDelegation request world.drawn ran).result = .ok () ↔
        ∃ text, ran.result = .ok text) := by
  unfold settleDelegation
  split
  · rename_i text ended
    exact ⟨runs.delegation request childDepth ⟨rfl, rfl, rfl, rfl⟩ rfl rfl rfl rfl,
      iff_of_true rfl ⟨text, ended⟩⟩
  · rename_i error failed
    refine ⟨runs.delegation request childDepth ⟨rfl, rfl, rfl, rfl⟩ rfl rfl rfl rfl, ?_⟩
    rw [failed]
    exact iff_of_false nofun (not_ok_of_error error)

theorem not_fails_iff {registry : ProfileRegistry} {request : DelegationRequest}
    {turns : Nat → PromptTurn} :
    ¬ Fails registry request turns ↔
      childrenOf registry request.targetKind request.targetId request.task ≠ [] ∧
        ∀ child < (childrenOf registry request.targetKind request.targetId request.task).length,
          (turns child).succeeds = true := by
  unfold Fails
  rw [not_or]
  refine and_congr_right fun _ => ?_
  constructor
  · intro none_fails child below
    by_contra fails
    exact none_fails ⟨child, below, Bool.eq_false_iff.mpr fails⟩
  · rintro all ⟨child, below, fails⟩
    exact Bool.noConfusion (fails.symm.trans (all child below))

theorem executeApprovedDelegation_spec (host : Host)
    (carries : ∀ child, (children child).Carries (orderly child)) (request : DelegationRequest)
    (lineage : List DelegationLineageEntry) {options : PromptTurnOptions}
    (ready : options.runtime.isSome = true) (childDepth : Nat) (world : World) :
    ∃ missed,
      Runs world.drawn [.approved request childDepth] world
        (executeApprovedDelegation host children request lineage options childDepth
          (world.emit (.delegationApproved request))).world
        (executeApprovedDelegation host children request lineage options childDepth
          (world.emit (.delegationApproved request))).pending missed ∧
      (missed = [] ↔ OrderlyChildren children orderly childDepth
        (delegationLineageForRequest lineage request)
        (childrenOf host.registry request.targetKind request.targetId request.task)) ∧
      ((executeApprovedDelegation host children request lineage options childDepth
          (world.emit (.delegationApproved request))).result = .ok () ↔
        ¬ Fails host.registry request fun child => (children child).turn) := by
  rw [not_fails_iff]
  unfold executeApprovedDelegation
  cases request.targetKind with
  | agent =>
    obtain ⟨missed, runs, whether, ends⟩ := AgentInvocationContext.run_spec host.registry carries
      (AgentInvocationContext.new
        { profileId := request.targetId
          task := request.task
          promptOptions := options
          delegationDepth := childDepth
          delegationLineage := delegationLineageForRequest lineage request }
        (world.emit (.delegationApproved request)))
      (((world.emit (.delegationApproved request)).draw 3).emit
        (.delegationStarted request world.drawn))
      (Nat.le_refl _) (Nat.lt_succ_of_lt (Nat.lt_succ_self _)) ready
    have settled := settleDelegation_spec request childDepth 3 world runs
    exact ⟨missed, settled.1, whether, settled.2.trans ends⟩
  | team =>
    obtain ⟨missed, runs, whether, ends⟩ := AgentTeamContext.run_spec host.registry carries
      (AgentTeamContext.new
        { teamId := request.targetId
          task := request.task
          promptOptions := options
          delegationDepth := childDepth
          delegationLineage := delegationLineageForRequest lineage request }
        (world.emit (.delegationApproved request)))
      (((world.emit (.delegationApproved request)).draw 1).emit
        (.delegationStarted request world.drawn)) rfl rfl fun _ => ready
    have settled := settleDelegation_spec request childDepth 1 world runs
    exact ⟨missed, settled.1, whether, settled.2.trans ends⟩

variable {property : Nat → DelegationRequest → Nat → Prop} {fails : Nat → DelegationRequest → Prop}
variable {rest : List DelegationAuthorizationDecision}

theorem EachApproved.cons_approved {request : DelegationRequest} {childDepth : Nat} :
    EachApproved fails property (.approved request childDepth :: rest) ↔
      ((fails 0 request → rest = []) ∧ property 0 request childDepth) ∧
        EachApproved (fun index => fails (index + 1)) (fun index => property (index + 1)) rest := by
  constructor
  · intro each
    refine ⟨⟨fun failing => ?_, (each 0 request childDepth rfl).2⟩,
      fun index other depth found => ?_⟩
    · have last := (each 0 request childDepth rfl).1 failing
      exact length_eq_zero_iff.mp (Nat.succ.inj last).symm
    · have later := each (index + 1) other depth found
      exact ⟨fun failing => Nat.succ.inj (later.1 failing), later.2⟩
  · rintro ⟨⟨last, here⟩, others⟩ index other depth found
    cases index with
    | zero =>
      cases found
      exact ⟨fun failing => by rw [last failing]; rfl, here⟩
    | succ index =>
      have later := others index other depth found
      exact ⟨fun failing => congrArg (· + 1) (later.1 failing), later.2⟩

theorem EachApproved.cons_other {decision : DelegationAuthorizationDecision}
    (other : ∀ request childDepth, decision ≠ .approved request childDepth) :
    EachApproved fails property (decision :: rest) ↔
      EachApproved (fun index => fails (index + 1)) (fun index => property (index + 1)) rest := by
  constructor
  · intro each index request depth found
    have later := each (index + 1) request depth found
    exact ⟨fun failing => Nat.succ.inj (later.1 failing), later.2⟩
  · intro others index request depth found
    cases index with
    | zero => exact absurd (Option.some.inj found) (other request depth)
    | succ index =>
      have later := others index request depth found
      exact ⟨fun failing => congrArg (· + 1) (later.1 failing), later.2⟩

theorem EachApproved.nil : EachApproved fails property [] := by
  intro index request childDepth found
  cases found

theorem executeAuthorizedDelegations_spec (host : Host) (lineage : List DelegationLineageEntry)
    {options : PromptTurnOptions} (ready : options.runtime.isSome = true)
    (decisions : List DelegationAuthorizationDecision) {children : Nat → Nat → Child}
    {orderly : Nat → Nat → Demand}
    (carries : ∀ index child, (children index child).Carries (orderly index child))
    (world : World) :
    ∃ missed,
      Runs world.drawn decisions world
        (executeAuthorizedDelegations host lineage options decisions children world).world
        (executeAuthorizedDelegations host lineage options decisions children world).pending
        missed ∧
      (missed = [] ↔ EachApproved
        (fun index request => Fails host.registry request fun child => (children index child).turn)
        (fun index request childDepth => OrderlyChildren (children index) (orderly index) childDepth
          (delegationLineageForRequest lineage request)
          (childrenOf host.registry request.targetKind request.targetId request.task))
        decisions) := by
  induction decisions generalizing children orderly world with
  | nil => exact ⟨[], Runs.refl world, iff_of_true rfl EachApproved.nil⟩
  | cons decision rest ih =>
    cases decision with
    | approved request childDepth =>
      obtain ⟨missed, runs, whether, ends⟩ := executeApprovedDelegation_spec host (carries 0)
        request lineage ready childDepth world
      rw [EachApproved.cons_approved]
      unfold executeAuthorizedDelegations
      dsimp only
      split
      · rename_i error failed
        have failing : Fails host.registry request fun child => (children 0 child).turn := by
          by_contra going
          have ended := ends.mpr going
          rw [failed] at ended
          cases ended
        refine ⟨missed ++ rest, runs.stop rest, ?_⟩
        rw [append_eq_nil_iff, whether]
        constructor
        · rintro ⟨here, empty⟩
          subst empty
          exact ⟨⟨fun _ => rfl, here⟩, EachApproved.nil⟩
        · exact fun all => ⟨all.1.2, all.1.1 failing⟩
      · rename_i ended
        have going := ends.mp ended
        obtain ⟨missedLater, later, whetherLater⟩ := ih (fun index => carries (index + 1)) _
        refine ⟨missed ++ missedLater, runs.trans later, ?_⟩
        rw [append_eq_nil_iff, whether, whetherLater]
        exact and_congr_left fun _ => ⟨fun here => ⟨fun failing => absurd failing going, here⟩,
          And.right⟩
    | requiresConfirmation request reason childDepth =>
      obtain ⟨missed, later, whether⟩ := ih (fun index => carries (index + 1))
        (world.emit (.delegationConfirmationRequired request reason))
      rw [EachApproved.cons_other fun _ _ same => by cases same]
      refine ⟨missed, ?_, whether⟩
      exact (Runs.queued request reason childDepth rfl rfl).trans later
    | rejected request reason =>
      obtain ⟨missed, later, whether⟩ := ih (fun index => carries (index + 1))
        (world.emit (.delegationRejected request reason))
      rw [EachApproved.cons_other fun _ _ same => by cases same]
      exact ⟨missed, (Runs.rejected request reason).trans later, whether⟩

theorem PromptRun.carries (host : Host) (prompt : PromptRun) :
    (prompt.child host).Carries (NothingAfterFailure host.registry prompt) := by
  induction prompt with
  | idle => exact fun _ _ decisions world _ => ⟨decisions, Runs.refl world, Iff.rfl⟩
  | mk turn delegated ih =>
    intro lineage options decisions world ready
    exact executeAuthorizedDelegations_spec host lineage ready decisions ih world

end

/-- The children of a team can be prepared, and nothing is decided behind a failing delegation
on their requests. -/
def TeamOrderly (registry : ProfileRegistry) (options : AgentTeamOptions)
    (prompts : Nat → PromptRun) : Prop :=
  childrenOf registry .team options.teamId options.task ≠ [] →
    options.promptOptions.runtime.isSome = true ∧
    EachSuccess (fun child => (prompts child).turn)
      (fun child profile => NothingAfterFailure registry (prompts child) options.delegationLineage
        (authorizeDelegationRequestsWithLineage (prompts child).turn.requests profile.delegation
          options.delegationDepth options.delegationLineage))
      (childrenOf registry .team options.teamId options.task)

theorem complete_iff_of_runs {low drawn : OperationId} {ran : Executed String}
    {missed : List DelegationAuthorizationDecision}
    (runs : Runs low [] ⟨drawn, [], []⟩ ran.world ran.pending missed) :
    EventsComplete ran ↔ missed = [] := by
  obtain ⟨events, decided, log, ledger, segment⟩ := runs.segment
  rw [nil_append] at log ledger segment
  constructor
  · intro complete
    have told := complete.decisions
    rw [ledger, log] at told
    exact segment.decisions_iff.mp told
  · intro none_missed
    have told := segment.decisions_iff.mpr none_missed
    exact {
      members := by rw [log]; exact segment.members.balanced
      delegations := by rw [log]; exact segment.delegations.balanced
      decisions := by rw [ledger, log]; exact told
      started := by rw [log]; exact segment.started
      queued := by rw [log]; exact segment.queued }

namespace AgentTeamContext

theorem run_unready {registry : ProfileRegistry} (children : Nat → Child)
    (context : AgentTeamContext) (world : World)
    (inhabited : childrenOf registry .team context.options.teamId context.options.task ≠ [])
    (unready : context.options.promptOptions.runtime = none) :
    ∃ (profile : AgentProfile) (error : CodingSessionError),
      (context.run registry children world).world.log = world.log ++
      [.agentTeamStarted context.operationId context.options.teamId context.options.task,
        .agentTeamMemberStarted context.operationId world.drawn context.options.teamId profile.id
          context.options.task,
        .agentTeamFailed context.operationId context.options.teamId error] := by
  unfold childrenOf teamChildren at inhabited
  have visible : trim context.options.task ≠ "" := fun blank => by
    rw [if_pos blank] at inhabited
    exact inhabited rfl
  rw [if_neg visible] at inhabited
  cases planned : plan registry context.options.teamId with
  | error error =>
    rw [planned] at inhabited
    exact absurd rfl inhabited
  | ok profiles =>
    cases members : profiles.1 with
    | nil => exact absurd members (plan_members planned)
    | cons profile rest =>
      refine ⟨profile, .config "prompt turn options do not include a runtime snapshot", ?_⟩
      have refused := forChild_error "agent team" context.options.delegationDepth profile
        context.options.task unready
      simp [run, settle, runFlow, startTeam, if_neg visible, planSubtasks, planned,
        runMemberAgents, members, runMembers, runProfileChild, refused, TeamStep.andThen,
        World.emit, World.draw]

end AgentTeamContext

/-- The events of a team's run are complete exactly if a runtime is there for its children and,
on the requests of every prompt in the tree below it, an approved delegation that fails is the
last decision. -/
theorem events_complete_iff (host : Host) (options : AgentTeamOptions) (prompts : Nat → PromptRun)
    (drawn : Nat) :
    EventsComplete (invokeTeam host options prompts drawn) ↔
      TeamOrderly host.registry options prompts := by
  have either : (childrenOf host.registry .team options.teamId options.task ≠ [] →
      options.promptOptions.runtime.isSome = true) ∨
      (childrenOf host.registry .team options.teamId options.task ≠ [] ∧
        options.promptOptions.runtime = none) := by
    by_cases inhabited : childrenOf host.registry .team options.teamId options.task = []
    · exact .inl fun other => absurd inhabited other
    · cases runtime : options.promptOptions.runtime with
      | none => exact .inr ⟨inhabited, rfl⟩
      | some snapshot => exact .inl fun _ => rfl
  rcases either with ready | ⟨inhabited, unready⟩
  · obtain ⟨missed, runs, whether, _⟩ := AgentTeamContext.run_spec host.registry
      (fun child => (prompts child).carries host) (AgentTeamContext.new options ⟨drawn, [], []⟩)
      ⟨drawn + 1, [], []⟩ rfl rfl ready
    rw [invokeTeam, complete_iff_of_runs runs, whether]
    constructor
    · exact fun each inhabited => ⟨ready inhabited, each⟩
    · intro orderly
      by_cases empty : childrenOf host.registry .team options.teamId options.task = []
      · have none_run : OrderlyChildren (fun child => (prompts child).child host)
            (fun child => NothingAfterFailure host.registry (prompts child))
            options.delegationDepth options.delegationLineage
            (childrenOf host.registry .team options.teamId options.task) := by
          rw [empty]
          exact EachSuccess.nil
        exact none_run
      · exact (orderly empty).2
  · refine iff_of_false (fun complete => ?_) (fun orderly => ?_)
    · obtain ⟨profile, error, log⟩ := AgentTeamContext.run_unready
        (fun child => (prompts child).child host) (AgentTeamContext.new options ⟨drawn, [], []⟩)
        ⟨drawn + 1, [], []⟩ inhabited unready
      have balanced := complete.members
      rw [invokeTeam, log] at balanced
      have ended := balanced [.agentTeamStarted drawn options.teamId options.task] _
        [.agentTeamFailed drawn options.teamId error] (drawn + 1) rfl rfl
      cases ended
    · have runtime := (orderly inhabited).1
      rw [unready] at runtime
      cases runtime

def lead : AgentProfile where
  id := "lead"
  delegation :=
    { allowDelegateAgent := true
      maxDepth := 1
      maxParallelChildren := 2
      requireConfirmation := .never }

def pairHost : Host where
  registry :=
    { agent := fun id => if id = "lead" then some lead else none
      team := fun id => if id = "pair" then some { id := "pair", members := ["lead"] } else none }
  nowRfc3339 := fun _ => "2026-07-01T00:00:00Z"

def askTwice : PromptRun :=
  .mk { stream := [
    .requested ⟨"op", "turn", "call_1", "lead", .agent, "ghost", "look around"⟩,
    .requested ⟨"op", "turn", "call_2", "lead", .agent, "shade", "look again"⟩,
    .done "done"] } fun _ _ => .idle

/-- The second delegation leaves no trace once the first has failed; and a member that was
started without a runtime never ends. -/
theorem events_incomplete :
    ¬ EventsComplete (invokeTeam pairHost ⟨"pair", "build", ⟨"", some {}⟩, 0, []⟩
        (fun _ => askTwice) 0) ∧
      ¬ EventsComplete (invokeTeam pairHost ⟨"pair", "build", ⟨"", none⟩, 0, []⟩
        (fun _ => askTwice) 0) := by
  constructor
  · intro complete
    have lengths := complete.decisions.length_eq
    revert lengths
    decide
  · intro complete
    have log : (invokeTeam pairHost ⟨"pair", "build", ⟨"", none⟩, 0, []⟩
        (fun _ => askTwice) 0).world.log =
        [.agentTeamStarted 0 "pair" "build", .agentTeamMemberStarted 0 1 "pair" "lead" "build",
          .agentTeamFailed 0 "pair"
            (.config "prompt turn options do not include a runtime snapshot")] := by
      decide
    have balanced := complete.members
    rw [log] at balanced
    have ended := balanced [.agentTeamStarted 0 "pair" "build"] _ [.agentTeamFailed 0 "pair"
      (.config "prompt turn options do not include a runtime snapshot")] 1 rfl rfl
    cases ended

end PiRust.AgentTeam
