import PiRust.TeamEvents

/- What the prompt of a child and the flow of a team do to the events of a run, given what is
done with the delegations of the children. -/
namespace PiRust.AgentTeam

open Brackets Delegation DelegationConfirmation SessionLog List

section

open PromptTurnContext

variable (events : List TurnEvent)

variable (context : PromptTurnContext)

theorem runAgentTurn_runs (world : World) :
    Runs world.drawn [] world (runAgentTurn events context world).1.2 [] [] := by
  induction events generalizing context world with
  | nil => exact Runs.refl world
  | cons event rest ih =>
    cases event with
    | done message => exact ih _ world
    | error message => exact Runs.refl world
    | requested request =>
      have first : Runs world.drawn [] world (world.emit (.delegationRequested request)) [] [] :=
        Runs.silent ⟨⟨rfl, rfl, rfl, rfl⟩, rfl, rfl, rfl, rfl⟩
      exact first.trans (ih _ _)
    | other =>
      have first : Runs world.drawn [] world (world.emit (.turn context.operationId)) [] [] :=
        Runs.silent ⟨⟨rfl, rfl, rfl, rfl⟩, rfl, rfl, rfl, rfl⟩
      exact first.trans (ih _ _)

theorem runAgentTurn_ok (world : World) :
    (runAgentTurn events context world).2 = .ok () ↔
      (events.all (fun event => !event.isError) = true ∧
        (context.finalMessage.isSome || events.any TurnEvent.isDone) = true) := by
  induction events generalizing context world with
  | nil =>
    unfold runAgentTurn
    cases context.finalMessage with
    | none => simp
    | some message => simp
  | cons event rest ih =>
    cases event with
    | done message =>
      refine (ih { context with finalMessage := some message } world).trans ?_
      simp [TurnEvent.isError, TurnEvent.isDone]
    | error message => simp [runAgentTurn, TurnEvent.isError]
    | requested request => simpa [runAgentTurn, TurnEvent.isError, TurnEvent.isDone] using ih _ _
    | other => simpa [runAgentTurn, TurnEvent.isError, TurnEvent.isDone] using ih _ _

theorem runAgentTurn_context (world : World)
    (ended : (runAgentTurn events context world).2 = .ok ()) :
    ∃ message, (runAgentTurn events context world).1.1 =
      { context with
        finalMessage := some message
        delegationRequests := context.delegationRequests ++
          events.filterMap TurnEvent.request? } := by
  induction events generalizing context world with
  | nil =>
    unfold runAgentTurn at ended ⊢
    cases final : context.finalMessage with
    | none =>
      rw [final] at ended
      cases ended
    | some message =>
      refine ⟨message, ?_⟩
      rw [filterMap_nil, append_nil, ← final]
  | cons event rest ih =>
    cases event with
    | done message => exact ih _ world ended
    | error message => cases ended
    | requested request =>
      obtain ⟨message, same⟩ := ih _ _ ended
      refine ⟨message, same.trans ?_⟩
      rw [append_assoc]
      rfl
    | other => exact ih _ _ ended

theorem runPromptTurnGraph_spec (turn : PromptTurn) (context : PromptTurnContext) (world : World)
    (named : context.options.invocation ≠ "") (ready : context.options.runtime.isSome = true)
    (fresh : context.finalMessage = none) :
    Runs world.drawn [] world (context.runPromptTurnGraph turn world).1.2 [] [] ∧
      ((turn.succeeds = false ∧ ∃ error,
          (context.runPromptTurnGraph turn world).2 = .error error) ∨
        (turn.succeeds = true ∧ (context.runPromptTurnGraph turn world).2 = .ok () ∧
          ∃ message, (context.runPromptTurnGraph turn world).1.1 =
            { context with
              runtime := context.options.runtime
              finalMessage := some message
              delegationRequests := context.delegationRequests ++ turn.requests
              diagnostics := turn.diagnostics })) := by
  have resolved : context.resolveRequest = .ok () := by
    unfold resolveRequest
    have present : ¬ context.options.runtime.isNone = true := by
      rw [Option.isNone_iff_eq_none]
      exact Option.isSome_iff_ne_none.mp ready
    rw [if_neg named, if_neg present]
  unfold runPromptTurnGraph
  rw [resolved]
  cases early : turn.failsBefore with
  | some failure =>
    exact ⟨Runs.refl world, .inl ⟨by simp [PromptTurn.succeeds, early], _, rfl⟩⟩
  | none =>
    let start := { context with
      runtime := context.options.runtime
      diagnostics := turn.diagnostics }
    have runs := runAgentTurn_runs turn.stream start world
    have whether := runAgentTurn_ok turn.stream start world
    have left := runAgentTurn_context turn.stream start world
    have empty : start.finalMessage = none := fresh
    rw [empty, Option.isSome_none, Bool.false_or] at whether
    refine ⟨?_, ?_⟩
    · dsimp only
      split <;> exact runs
    · dsimp only
      split
      · rename_i message failed
        refine .inl ⟨?_, _, rfl⟩
        have never := mt whether.mpr (by rw [failed]; intro same; cases same)
        by_contra success
        rw [Bool.not_eq_false, PromptTurn.succeeds] at success
        simp only [Bool.and_eq_true] at success
        exact never ⟨success.1.1.2, success.1.2⟩
      · rename_i ended
        obtain ⟨message, same⟩ := left ended
        have clean := whether.mp ended
        rw [finalizeTurn, same]
        cases late : turn.failsAfter with
        | some failure =>
          exact .inl ⟨by simp [PromptTurn.succeeds, late], _, rfl⟩
        | none =>
          refine .inr ⟨?_, rfl, message, rfl⟩
          simp [PromptTurn.succeeds, early, late, clean.1, clean.2]

abbrev Demand := List DelegationLineageEntry → List DelegationAuthorizationDecision → Prop

/-- How the decisions on a child's requests are carried out: whatever happens below them, all of
them are reported exactly if `orderly` holds of them. -/
def Child.Carries (child : Child) (orderly : Demand) : Prop :=
  ∀ lineage options decisions world, options.runtime.isSome = true →
    ∃ missed, Runs world.drawn decisions world
        (child.executeAuthorizedDelegations lineage options decisions world).world
        (child.executeAuthorizedDelegations lineage options decisions world).pending missed ∧
      (missed = [] ↔ orderly lineage decisions)

def PromptTurnOutcome.isSuccess : PromptTurnOutcome → Bool
  | .success .. => true
  | _ => false

def OrderlyChild (child : Child)
    (orderly : Demand)
    (depth : Nat) (lineage : List DelegationLineageEntry) (policy : DelegationPolicy) : Prop :=
  orderly lineage
    (Delegation.authorizeDelegationRequestsWithLineage child.turn.requests policy depth lineage)

theorem runChildPrompt_spec {child : Child}
    {orderly : Demand}
    (carries : child.Carries orderly) (context : PromptTurnContext) (world : World)
    (named : context.options.invocation ≠ "") {runtime : RuntimeSnapshot}
    (ready : context.options.runtime = some runtime)
    {policy : DelegationPolicy} (permits : runtime.profileDelegationPolicy = some policy)
    (fresh : context.finalMessage = none) (unasked : context.delegationRequests = [])
    (depth : Nat) (lineage : List DelegationLineageEntry) :
    ∃ missed outcome,
      Runs world.drawn [] world (runChildPrompt child depth lineage context world).world
        (runChildPrompt child depth lineage context world).pending missed ∧
      (missed = [] ↔
        (child.turn.succeeds = true → OrderlyChild child orderly depth lineage policy)) ∧
      (runChildPrompt child depth lineage context world).result = .ok outcome ∧
      outcome.isSuccess = child.turn.succeeds := by
  obtain ⟨runs, ended⟩ := runPromptTurnGraph_spec child.turn context world named
    (Option.isSome_iff_exists.mpr ⟨runtime, ready⟩) fresh
  rcases ended with ⟨failed, error, result⟩ | ⟨succeeded, result, message, left⟩
  · simp only [runChildPrompt, result, failed]
    refine ⟨[], _, runs, by simp, rfl, ?_⟩
    cases child.turn.abortReason <;> rfl
  · have authorized : ((context.runPromptTurnGraph child.turn world).1.1
          ).authorizeDelegationRequestsWithLineage depth lineage =
        .ok (Delegation.authorizeDelegationRequestsWithLineage child.turn.requests policy depth
          lineage) := by
      rw [left, PromptTurnContext.authorizeDelegationRequestsWithLineage]
      dsimp only
      rw [unasked, nil_append, ready, Option.bind_some, permits]
      cases child.turn.requests <;> rfl
    have finished : ((context.runPromptTurnGraph child.turn world).1.1).finishSuccess =
        .ok (.success context.turnId message child.turn.diagnostics) := by
      rw [left]
      rfl
    have still : ((context.runPromptTurnGraph child.turn world).1.1).options.runtime.isSome =
        true := by
      rw [left]
      exact Option.isSome_iff_exists.mpr ⟨runtime, ready⟩
    simp only [runChildPrompt, result, succeeded, authorized, finished]
    obtain ⟨missed, executed, whether⟩ := carries lineage _
      (Delegation.authorizeDelegationRequestsWithLineage child.turn.requests policy depth lineage)
      ((context.runPromptTurnGraph child.turn world).1.2.record
        (Delegation.authorizeDelegationRequestsWithLineage child.turn.requests policy depth
          lineage)) still
    refine ⟨missed, _, ?_, ?_, rfl, rfl⟩
    · have both := runs.trans executed.record
      split
      · exact both
      · exact both.concatSilent _ ⟨⟨rfl, rfl, rfl, rfl⟩, rfl, rfl, rfl, rfl⟩
    · rw [whether]
      exact ⟨fun orderly _ => orderly, fun orderly => orderly trivial⟩

theorem forChild_spec (owner : String) (depth : Nat) (profile : AgentProfile) (text : String)
    {options : PromptTurnOptions} (ready : options.runtime.isSome = true) :
    ∃ runtime, options.forChild owner depth profile text =
        .ok { invocation := text, runtime := some runtime } ∧
      runtime.profileDelegationPolicy = some profile.delegation := by
  obtain ⟨runtime, present⟩ := Option.isSome_iff_exists.mp ready
  unfold PromptTurnOptions.forChild
  by_cases deep : 0 < depth
  · refine ⟨runtime.applyDelegatedAgentProfile profile, ?_, rfl⟩
    simp [deep, PromptTurnOptions.applyDelegatedAgentProfile, PromptTurnOptions.withRuntime,
      present]
  · refine ⟨runtime.applyAgentProfile profile, ?_, rfl⟩
    simp [deep, PromptTurnOptions.applyAgentProfile, PromptTurnOptions.withRuntime, present]

theorem forChild_error (owner : String) (depth : Nat) (profile : AgentProfile) (text : String)
    {options : PromptTurnOptions} (missing : options.runtime = none) :
    options.forChild owner depth profile text =
      .error (.config "prompt turn options do not include a runtime snapshot") := by
  unfold PromptTurnOptions.forChild
  by_cases deep : 0 < depth
  · simp [deep, PromptTurnOptions.applyDelegatedAgentProfile, PromptTurnOptions.withRuntime,
      missing]
  · simp [deep, PromptTurnOptions.applyAgentProfile, PromptTurnOptions.withRuntime, missing]

end

theorem diagnostics_silent (operationId : OperationId) (messages : List String) :
    ∀ event ∈ messages.map (CodingAgentEvent.diagnostic (some operationId)), Silent event := by
  intro event member
  obtain ⟨message, _, rfl⟩ := mem_map.mp member
  exact ⟨⟨rfl, rfl, rfl, rfl⟩, rfl, rfl, rfl, rfl⟩

theorem not_ok_of_error {α : Type} (error : CodingSessionError) :
    ¬ ∃ value, (Except.error error : Except CodingSessionError α) = .ok value := by
  rintro ⟨_, same⟩
  cases same

theorem TeamStep.andThen_ok {α β : Type} {step : TeamStep β}
    {next : β → AgentTeamContext → World → TeamStep α} {value : β}
    (ended : step.result = .ok value) :
    step.andThen next = next value step.context step.world := by
  unfold TeamStep.andThen
  rw [ended]

theorem TeamStep.andThen_error {α β : Type} {step : TeamStep β}
    {next : β → AgentTeamContext → World → TeamStep α} {error : CodingSessionError}
    (failed : step.result = .error error) :
    step.andThen next = ⟨step.context, step.world, .error error⟩ := by
  unfold TeamStep.andThen
  rw [failed]

section
variable {context : AgentTeamContext} {world : World} {children : Nat → Child}
  {orderly : Nat → Demand}

/-- What a step of the flow of a team does: it reports all decisions exactly if `complete`, and
ends well exactly if `well`. -/
structure TeamStep.Does {α : Type} (step : TeamStep α) (context : AgentTeamContext) (world : World)
    (complete well : Prop) : Prop where
  runs : ∃ pending missed,
    step.context.pendingDelegationConfirmations =
      context.pendingDelegationConfirmations ++ pending ∧
    Runs world.drawn [] world step.world pending missed ∧ (missed = [] ↔ complete)
  ends : (∃ value, step.result = .ok value) ↔ well

namespace TeamStep.Does

variable {α : Type} {complete well : Prop}
variable {context' : AgentTeamContext} {step : TeamStep α}

theorem still {result : Except CodingSessionError α}
    (same : context'.pendingDelegationConfirmations = context.pendingDelegationConfirmations)
    (ends : (∃ value, result = .ok value) ↔ well) :
    (TeamStep.mk context' world result).Does context world True well where
  runs := ⟨[], [], same.trans (append_nil _).symm, Runs.refl world, by simp⟩
  ends := ends

theorem andThen {β : Type} {step : TeamStep β} {next : β → AgentTeamContext → World → TeamStep α}
    {completeNext wellNext : Prop} (first : step.Does context world complete well)
    (second : ∀ value, step.result = .ok value →
      (next value step.context step.world).Does step.context step.world completeNext wellNext) :
    (step.andThen next).Does context world (complete ∧ (well → completeNext))
      (well ∧ wellNext) := by
  obtain ⟨pending, missed, queued, runs, whether⟩ := first.runs
  cases ended : step.result with
  | error error =>
    have unwell : ¬ well := fun holds => by
      obtain ⟨value, ok⟩ := first.ends.mpr holds
      rw [ended] at ok
      cases ok
    rw [TeamStep.andThen_error ended]
    refine ⟨⟨pending, missed, queued, runs, ?_⟩, ?_⟩
    · rw [whether]
      exact ⟨fun holds => ⟨holds, fun holds => absurd holds unwell⟩, And.left⟩
    · exact iff_of_false (not_ok_of_error error) fun both => unwell both.1
  | ok value =>
    have holds : well := first.ends.mp ⟨value, ended⟩
    rw [TeamStep.andThen_ok ended]
    obtain ⟨⟨pendingNext, missedNext, queuedNext, runsNext, whetherNext⟩, endsNext⟩ :=
      second value ended
    refine ⟨⟨pending ++ pendingNext, missed ++ missedNext, ?_, runs.trans runsNext, ?_⟩, ?_⟩
    · rw [queuedNext, queued, append_assoc]
    · rw [append_eq_nil_iff, whether, whetherNext]
      exact and_congr_right fun _ => ⟨fun next _ => next, fun next => next holds⟩
    · rw [endsNext]
      exact ⟨fun next => ⟨holds, next⟩, And.right⟩

theorem after (context : AgentTeamContext) {earlier : World}
    (does : step.Does context' world complete well)
    (same : context'.pendingDelegationConfirmations = context.pendingDelegationConfirmations)
    (runs : Runs earlier.drawn [] earlier world [] []) :
    step.Does context earlier complete well where
  runs := by
    obtain ⟨pending, missed, queued, ran, whether⟩ := does.runs
    exact ⟨pending, missed, by rw [queued, same], runs.trans ran, whether⟩
  ends := does.ends

theorem congr {complete' well' : Prop} (does : step.Does context world complete well)
    (same : complete ↔ complete') (ends : well ↔ well') :
    step.Does context world complete' well' := by
  rwa [← propext same, ← propext ends]

end TeamStep.Does

namespace AgentTeamContext

theorem runProfileChild_does {child : Child}
    {orderly : Demand}
    (carries : child.Carries orderly) (profile : AgentProfile) (promptText : String)
    (context : AgentTeamContext) (world : World) (named : promptText ≠ "")
    (ready : context.options.promptOptions.runtime.isSome = true) :
    (context.runProfileChild child profile promptText world).Does context world
      (child.turn.succeeds = true → OrderlyChild child orderly context.options.delegationDepth
        context.options.delegationLineage profile.delegation)
      (child.turn.succeeds = true) := by
  obtain ⟨runtime, prepared, permits⟩ := forChild_spec "agent team"
    context.options.delegationDepth profile promptText ready
  obtain ⟨missed, outcome, runs, whether, result, success⟩ := runChildPrompt_spec carries
    { operationId := world.drawn, turnId := world.drawn + 1, options :=
      { invocation := promptText, runtime := some runtime } }
    ((world.draw 2).emit (.agentTeamMemberStarted context.operationId world.drawn
      context.options.teamId profile.id promptText))
    named rfl permits rfl rfl context.options.delegationDepth context.options.delegationLineage
  have lowered := runs.lower (Nat.le_succ (world.drawn + 1))
  simp only [runProfileChild, prepared, result]
  cases outcome with
  | success turnId finalText diagnostics =>
    have told := lowered.concatSilent (.promptCompleted world.drawn turnId)
      ⟨⟨rfl, rfl, rfl, rfl⟩, rfl, rfl, rfl, rfl⟩
    exact ⟨⟨_, missed, rfl, told.member ⟨rfl, rfl, rfl, rfl⟩ rfl rfl rfl rfl, whether⟩,
      ⟨fun _ => success.symm, fun _ => ⟨_, rfl⟩⟩⟩
  | aborted reason | failed reason =>
    refine ⟨⟨_, missed, rfl, lowered.member ⟨rfl, rfl, rfl, rfl⟩ rfl rfl rfl rfl, whether⟩, ?_⟩
    exact iff_of_false (not_ok_of_error _) fun same => Bool.noConfusion (success.trans same)

theorem runProfileChild_context (child : Child) (profile : AgentProfile) (promptText : String)
    (context : AgentTeamContext) (world : World) :
    ∃ pending, (context.runProfileChild child profile promptText world).context =
      { context with pendingDelegationConfirmations := pending } := by
  unfold runProfileChild
  dsimp only
  split
  · exact ⟨_, rfl⟩
  · split <;> exact ⟨_, rfl⟩

theorem runMembers_context (profiles : List AgentProfile) (children : Nat → Child)
    (context : AgentTeamContext) (world : World)
    (ended : (runMembers profiles children context world).result = .ok ()) :
    ∃ results pending, results.length = profiles.length ∧
      (runMembers profiles children context world).context = { context with
        memberResults := context.memberResults ++ results
        pendingDelegationConfirmations := pending } := by
  induction profiles generalizing children context world with
  | nil =>
    refine ⟨[], context.pendingDelegationConfirmations, rfl, ?_⟩
    rw [append_nil]
    rfl
  | cons profile rest ih =>
    obtain ⟨pending, left⟩ := runProfileChild_context (children 0) profile context.options.task
      context world
    unfold runMembers at ended ⊢
    cases ran : (context.runProfileChild (children 0) profile context.options.task
        world).result with
    | error error =>
      rw [TeamStep.andThen_error ran] at ended
      cases ended
    | ok result =>
      rw [TeamStep.andThen_ok ran, left] at ended ⊢
      obtain ⟨results, pendingLater, lengths, same⟩ := ih _ _ _ ended
      refine ⟨result :: results, pendingLater, congrArg (· + 1) lengths, same.trans ?_⟩
      rw [append_assoc]
      rfl

end AgentTeamContext

def OrderlyChildren (children : Nat → Child)
    (orderly : Nat → Demand)
    (depth : Nat) (lineage : List DelegationLineageEntry) : List AgentProfile → Prop :=
  EachSuccess (fun child => (children child).turn) fun child profile =>
    OrderlyChild (children child) (orderly child) depth lineage profile.delegation

variable {profile : AgentProfile} {property : Nat → AgentProfile → Prop} {turns : Nat → PromptTurn}

theorem EachSuccess.cons_iff {rest : List AgentProfile} :
    EachSuccess turns property (profile :: rest) ↔
      ((turns 0).succeeds = true → property 0 profile) ∧ ((turns 0).succeeds = true →
        EachSuccess (fun child => turns (child + 1)) (fun child => property (child + 1)) rest) := by
  constructor
  · intro each
    refine ⟨fun success => each 0 profile rfl fun earlier below => ?_, fun success => ?_⟩
    · rwa [Nat.le_zero.mp below]
    · intro child other found before
      refine each (child + 1) other found fun earlier below => ?_
      cases earlier with
      | zero => exact success
      | succ earlier => exact before earlier (Nat.le_of_succ_le_succ below)
  · rintro ⟨first, others⟩ child other found before
    have success := before 0 (Nat.zero_le child)
    cases child with
    | zero =>
      cases found
      exact first success
    | succ child =>
      exact others success child other found fun earlier below =>
        before (earlier + 1) (Nat.succ_le_succ below)

theorem orderly_cons_iff {depth : Nat} {lineage : List DelegationLineageEntry}
    {rest : List AgentProfile} :
    OrderlyChildren children orderly depth lineage (profile :: rest) ↔
      ((children 0).turn.succeeds = true →
        OrderlyChild (children 0) (orderly 0) depth lineage profile.delegation) ∧
      ((children 0).turn.succeeds = true →
        OrderlyChildren (fun child => children (child + 1)) (fun child => orderly (child + 1))
          depth lineage rest) :=
  EachSuccess.cons_iff

theorem EachSuccess.nil : EachSuccess turns property [] := by
  intro child profile found
  cases found

theorem EachSuccess.concat_iff {front : List AgentProfile} :
    EachSuccess turns property (front ++ [profile]) ↔
      EachSuccess turns property front ∧
        ((∀ child < front.length, (turns child).succeeds = true) →
          (turns front.length).succeeds = true → property front.length profile) := by
  constructor
  · intro each
    refine ⟨fun child other found => ?_, fun before success => ?_⟩
    · have inside : child < front.length := (List.getElem?_eq_some_iff.mp found).1
      exact each child other (by rwa [getElem?_append_left inside])
    · refine each front.length profile ?_ fun earlier below => ?_
      · rw [getElem?_append_right (Nat.le_refl _), Nat.sub_self]
        rfl
      · rcases Nat.lt_or_eq_of_le below with less | rfl
        · exact before earlier less
        · exact success
  · rintro ⟨each, last⟩ child other found before
    rcases Nat.lt_or_ge child front.length with inside | beyond
    · rw [getElem?_append_left inside] at found
      exact each child other found before
    · rw [getElem?_append_right beyond] at found
      have final : child - front.length = 0 := by
        have := (List.getElem?_eq_some_iff.mp found).1
        simpa using this
      rw [final] at found
      cases found
      have same : child = front.length := Nat.le_antisymm (Nat.sub_eq_zero_iff_le.mp final) beyond
      subst same
      exact last (fun earlier less => before earlier (Nat.le_of_lt less)) (before _ (Nat.le_refl _))

namespace AgentTeamContext

theorem runMembers_does (profiles : List AgentProfile)
    (carries : ∀ child, (children child).Carries (orderly child))
    (context : AgentTeamContext) (world : World) (named : context.options.task ≠ "")
    (ready : context.options.promptOptions.runtime.isSome = true) :
    (runMembers profiles children context world).Does context world
      (OrderlyChildren children orderly context.options.delegationDepth
        context.options.delegationLineage profiles)
      (∀ child < profiles.length, (children child).turn.succeeds = true) := by
  induction profiles generalizing children orderly context world with
  | nil =>
    exact (TeamStep.Does.still rfl (iff_of_true ⟨(), rfl⟩ trivial)).congr
      (iff_of_true trivial EachSuccess.nil)
      (iff_of_true trivial fun _ below => absurd below (Nat.not_lt_zero _))
  | cons profile rest ih =>
    have first := runProfileChild_does (carries 0) profile context.options.task context world
      named ready
    obtain ⟨pending, left⟩ := runProfileChild_context (children 0) profile context.options.task
      context world
    let ran := context.runProfileChild (children 0) profile context.options.task world
    have second (result : AgentTeamMemberOutcome) (_ : ran.result = .ok result) :
        (runMembers rest (fun later => children (later + 1)) { ran.context with
          memberResults := ran.context.memberResults ++ [result] } ran.world).Does
        ran.context ran.world
        (OrderlyChildren (fun child => children (child + 1)) (fun child => orderly (child + 1))
          context.options.delegationDepth context.options.delegationLineage rest)
        (∀ child < rest.length, (children (child + 1)).turn.succeeds = true) := by
      have later := ih (fun child => carries (child + 1)) { context with
        memberResults := context.memberResults ++ [result]
        pendingDelegationConfirmations := pending } ran.world named ready
      rw [left]
      exact ⟨later.runs, later.ends⟩
    refine (first.andThen second).congr orderly_cons_iff.symm ?_
    constructor
    · rintro ⟨here, others⟩ child below
      cases child with
      | zero => exact here
      | succ child => exact others child (Nat.lt_of_succ_lt_succ below)
    · intro all
      exact ⟨all 0 (Nat.zero_lt_succ _), fun child below =>
        all (child + 1) (Nat.succ_lt_succ below)⟩

theorem supervisorPrompt_ne_empty : context.supervisorPrompt ≠ "" := by
  unfold supervisorPrompt
  simp only [cons_append, nil_append, String.intercalate_cons_cons]
  intro empty
  have lengths := congrArg String.length empty
  simp at lengths

variable {child : Child}

theorem mergeOrRejectResult_does {orderly : Demand} (carries : child.Carries orderly)
    (context : AgentTeamContext) (world : World)
    (ready : context.options.promptOptions.runtime.isSome = true) :
    (context.mergeOrRejectResult child world).Does context world
      (∀ supervisor, context.supervisorProfile = some supervisor → child.turn.succeeds = true →
        OrderlyChild child orderly context.options.delegationDepth
          context.options.delegationLineage supervisor.delegation)
      (context.supervisorProfile.isSome = true → child.turn.succeeds = true) := by
  unfold mergeOrRejectResult
  split
  · rename_i supervisor profile
    have first := runProfileChild_does carries supervisor context.supervisorPrompt context world
      supervisorPrompt_ne_empty ready
    have told (result : AgentTeamMemberOutcome) (context : AgentTeamContext) (world : World) :
        (TeamStep.mk { context with
          finalText := some result.finalText
          supervisorResult := some result } world (.ok ())).Does context world True True :=
      TeamStep.Does.still rfl (iff_of_true ⟨(), rfl⟩ trivial)
    rw [profile]
    refine (first.andThen fun result _ => told result _ _).congr
      ⟨fun both other same => ?_, fun each => ⟨each supervisor rfl, fun _ => trivial⟩⟩
      ⟨fun both _ => both.1, fun success => ⟨success rfl, trivial⟩⟩
    cases same
    exact both.1
  · rename_i profile
    have told : (TeamStep.mk { context with finalText := some context.deterministicFinalText }
        world (.ok ())).Does context world True True :=
      TeamStep.Does.still rfl (iff_of_true ⟨(), rfl⟩ trivial)
    refine told.congr (iff_of_true trivial fun _ same => ?_) (iff_of_true trivial fun present => ?_)
    · rw [profile] at same
      cases same
    · rw [profile] at present
      cases present

theorem mergeOrRejectResult_final
    (ended : (context.mergeOrRejectResult child world).result = .ok ()) :
    (context.mergeOrRejectResult child world).context.finalText.isSome = true := by
  unfold mergeOrRejectResult at ended ⊢
  cases profile : context.supervisorProfile with
  | none => rfl
  | some supervisor =>
    rw [profile] at ended
    dsimp only at ended ⊢
    cases ran : (context.runProfileChild child supervisor context.supervisorPrompt
        world).result with
    | error error =>
      rw [TeamStep.andThen_error ran] at ended
      cases ended
    | ok result =>
      rw [TeamStep.andThen_ok ran]
      rfl

theorem finalizeTeam_does (final : context.finalText.isSome = true) :
    (context.finalizeTeam world).Does context world True True := by
  obtain ⟨finalText, told⟩ := Option.isSome_iff_exists.mp final
  unfold finalizeTeam
  rw [told]
  have reports := diagnostics_silent context.operationId context.allDiagnostics
  refine ⟨⟨[], [], (append_nil _).symm, ?_, by simp⟩, iff_of_true ⟨_, rfl⟩ trivial⟩
  exact (Runs.silents reports).concatSilent _ ⟨⟨rfl, rfl, rfl, rfl⟩, rfl, rfl, rfl, rfl⟩

theorem finish_does {orderly : Demand} (carries : child.Carries orderly)
    (context : AgentTeamContext) (world : World)
    (ready : context.options.promptOptions.runtime.isSome = true) :
    ((context.mergeOrRejectResult child world).andThen fun _ context world =>
        context.finalizeTeam world).Does context world
      (∀ supervisor, context.supervisorProfile = some supervisor → child.turn.succeeds = true →
        OrderlyChild child orderly context.options.delegationDepth
          context.options.delegationLineage supervisor.delegation)
      (context.supervisorProfile.isSome = true → child.turn.succeeds = true) := by
  have merged := mergeOrRejectResult_does carries context world ready
  have told (value : Unit) (ended : (context.mergeOrRejectResult child world).result = .ok value) :
      ((context.mergeOrRejectResult child world).context.finalizeTeam
        (context.mergeOrRejectResult child world).world).Does
      (context.mergeOrRejectResult child world).context
      (context.mergeOrRejectResult child world).world True True :=
    finalizeTeam_does (mergeOrRejectResult_final ended)
  exact (merged.andThen told).congr
    ⟨And.left, fun all => ⟨all, fun _ => trivial⟩⟩ ⟨And.left, fun well => ⟨well, trivial⟩⟩

theorem collectMemberResult_eq
    (same : context.memberResults.length = context.memberProfiles.length) :
    context.collectMemberResult world = ⟨context, world, .ok ()⟩ := by
  unfold collectMemberResult
  rw [if_neg (fun different => different same)]

variable {members : List AgentProfile} {supervisor : Option AgentProfile}

theorem orderly_team_iff {depth : Nat} {lineage : List DelegationLineageEntry} :
    OrderlyChildren children orderly depth lineage (members ++ supervisor.toList) ↔
      OrderlyChildren children orderly depth lineage members ∧
        ((∀ child < members.length, (children child).turn.succeeds = true) →
          ∀ profile, supervisor = some profile → (children members.length).turn.succeeds = true →
            OrderlyChild (children members.length) (orderly members.length) depth lineage
              profile.delegation) := by
  cases supervisor with
  | none =>
    rw [Option.toList_none, append_nil]
    exact ⟨fun each => ⟨each, nofun⟩, And.left⟩
  | some profile =>
    refine EachSuccess.concat_iff.trans (and_congr_right fun _ => ?_)
    constructor
    · rintro last before other same success
      cases same
      exact last before success
    · exact fun last before success => last before profile rfl success

theorem succeed_team_iff :
    (∀ child < (members ++ supervisor.toList).length, (children child).turn.succeeds = true) ↔
      (∀ child < members.length, (children child).turn.succeeds = true) ∧
        (supervisor.isSome = true → (children members.length).turn.succeeds = true) := by
  cases supervisor with
  | none =>
    rw [Option.toList_none, append_nil]
    exact ⟨fun all => ⟨all, nofun⟩, And.left⟩
  | some profile =>
    rw [Option.toList_some, length_append, length_singleton]
    constructor
    · intro all
      exact ⟨fun child below => all child (Nat.lt_succ_of_lt below),
        fun _ => all members.length (Nat.lt_succ_self _)⟩
    · rintro ⟨each, last⟩ child below
      rcases Nat.lt_or_eq_of_le (Nat.le_of_lt_succ below) with less | rfl
      · exact each child less
      · exact last rfl

theorem plan_members {registry : ProfileRegistry} {teamId : String}
    {profiles : List AgentProfile × Option AgentProfile}
    (planned : plan registry teamId = .ok profiles) : profiles.1 ≠ [] := by
  unfold plan at planned
  split at planned
  · cases planned
  · rename_i team _
    split at planned
    · cases planned
    · rename_i inhabited
      split at planned
      · cases planned
      · rename_i members listed
        split at planned
        · cases planned
        · cases planned
          intro empty
          cases ids : team.members with
          | nil =>
            rw [ids] at inhabited
            exact inhabited rfl
          | cons id rest =>
            rw [ids, memberProfilesOf] at listed
            split at listed
            · cases listed
            · split at listed
              · cases listed
              · cases listed
                cases empty

theorem runChildren_does (carries : ∀ child, (children child).Carries (orderly child))
    (context : AgentTeamContext) (world : World) (new : context.memberResults = [])
    (named : context.options.task ≠ "")
    (ready : context.options.promptOptions.runtime.isSome = true) :
    ((context.runMemberAgents children world).andThen fun _ context world =>
      (context.collectMemberResult world).andThen fun _ context world =>
      (context.mergeOrRejectResult (children context.memberProfiles.length) world).andThen
        fun _ context world => context.finalizeTeam world).Does context world
      (OrderlyChildren children orderly context.options.delegationDepth
        context.options.delegationLineage
        (context.memberProfiles ++ context.supervisorProfile.toList))
      (∀ child < (context.memberProfiles ++ context.supervisorProfile.toList).length,
        (children child).turn.succeeds = true) := by
  have ran : (context.runMemberAgents children world).Does context world _ _ :=
    runMembers_does context.memberProfiles carries context world named ready
  have rest (value : Unit) (ended : (context.runMemberAgents children world).result = .ok value) :
      (((context.runMemberAgents children world).context.collectMemberResult
        (context.runMemberAgents children world).world).andThen fun _ context world =>
          (context.mergeOrRejectResult (children context.memberProfiles.length) world).andThen
            fun _ context world => context.finalizeTeam world).Does
      (context.runMemberAgents children world).context
      (context.runMemberAgents children world).world
      (∀ supervisor, context.supervisorProfile = some supervisor →
        (children context.memberProfiles.length).turn.succeeds = true →
          OrderlyChild (children context.memberProfiles.length)
            (orderly context.memberProfiles.length) context.options.delegationDepth
            context.options.delegationLineage supervisor.delegation)
      (context.supervisorProfile.isSome = true →
        (children context.memberProfiles.length).turn.succeeds = true) := by
    obtain ⟨results, pending, lengths, left⟩ :=
      runMembers_context context.memberProfiles children context world ended
    have left : (context.runMemberAgents children world).context = _ := left
    rw [left, new, nil_append, collectMemberResult_eq lengths, TeamStep.andThen_ok rfl]
    exact finish_does (carries context.memberProfiles.length) { context with
      memberResults := results
      pendingDelegationConfirmations := pending } _ ready
  exact (ran.andThen rest).congr orderly_team_iff.symm succeed_team_iff.symm

theorem runFlow_does (registry : ProfileRegistry)
    (carries : ∀ child, (children child).Carries (orderly child))
    (context : AgentTeamContext) (world : World) (new : context.memberResults = [])
    (ready : childrenOf registry .team context.options.teamId context.options.task ≠ [] →
      context.options.promptOptions.runtime.isSome = true) :
    (context.runFlow registry children world).Does context world
      (OrderlyChildren children orderly context.options.delegationDepth
        context.options.delegationLineage
        (childrenOf registry .team context.options.teamId context.options.task))
      (childrenOf registry .team context.options.teamId context.options.task ≠ [] ∧
        ∀ child < (childrenOf registry .team context.options.teamId context.options.task).length,
          (children child).turn.succeeds = true) := by
  unfold childrenOf at ready ⊢
  by_cases blank : trim context.options.task = ""
  · rw [if_pos blank, runFlow, startTeam, if_pos blank, TeamStep.andThen_error rfl]
    exact (TeamStep.Does.still rfl Iff.rfl).congr (iff_of_true trivial EachSuccess.nil)
      (iff_of_false (not_ok_of_error _) fun both => both.1 rfl)
  · have named : context.options.task ≠ "" := fun empty => blank (by rw [empty]; rfl)
    have began : Runs world.drawn [] world (world.emit (.agentTeamStarted context.operationId
        context.options.teamId context.options.task)) [] [] :=
      Runs.silent ⟨⟨rfl, rfl, rfl, rfl⟩, rfl, rfl, rfl, rfl⟩
    rw [if_neg blank] at ready
    rw [if_neg blank, runFlow, startTeam, if_neg blank, TeamStep.andThen_ok rfl]
    dsimp only at ready ⊢
    rw [teamChildren] at ready
    rw [planSubtasks, teamChildren]
    cases planned : plan registry context.options.teamId with
    | error error =>
      rw [TeamStep.andThen_error rfl]
      exact ((TeamStep.Does.still rfl Iff.rfl).after context rfl began).congr
        (iff_of_true trivial EachSuccess.nil)
        (iff_of_false (not_ok_of_error _) fun both => both.1 rfl)
    | ok profiles =>
      rw [TeamStep.andThen_ok rfl]
      have inhabited : profiles.1 ++ profiles.2.toList ≠ [] := fun empty =>
        plan_members planned (append_eq_nil_iff.mp empty).1
      rw [planned] at ready
      have does := runChildren_does carries { context with
        memberProfiles := profiles.1
        supervisorProfile := profiles.2 } (world.emit (.agentTeamStarted context.operationId
          context.options.teamId context.options.task)) new named (ready inhabited)
      exact (does.after context rfl began).congr Iff.rfl ⟨fun all => ⟨inhabited, all⟩, And.right⟩

theorem run_spec (registry : ProfileRegistry)
    (carries : ∀ child, (children child).Carries (orderly child))
    (context : AgentTeamContext) (world : World) (new : context.memberResults = [])
    (unasked : context.pendingDelegationConfirmations = [])
    (ready : childrenOf registry .team context.options.teamId context.options.task ≠ [] →
      context.options.promptOptions.runtime.isSome = true) :
    ∃ missed,
      Runs world.drawn [] world (context.run registry children world).world
        (context.run registry children world).pending missed ∧
      (missed = [] ↔ OrderlyChildren children orderly context.options.delegationDepth
        context.options.delegationLineage
        (childrenOf registry .team context.options.teamId context.options.task)) ∧
      ((∃ text, (context.run registry children world).result = .ok text) ↔
        childrenOf registry .team context.options.teamId context.options.task ≠ [] ∧
        ∀ child < (childrenOf registry .team context.options.teamId context.options.task).length,
          (children child).turn.succeeds = true) := by
  have does := runFlow_does registry carries context world new ready
  obtain ⟨pending, missed, queued, runs, whether⟩ := does.runs
  rw [unasked, nil_append] at queued
  refine ⟨missed, ?_, whether, does.ends⟩
  unfold run settle
  dsimp only
  rw [queued]
  split
  · exact runs
  · exact runs.concatSilent _ ⟨⟨rfl, rfl, rfl, rfl⟩, rfl, rfl, rfl, rfl⟩

end AgentTeamContext

end

end PiRust.AgentTeam
