import PiRust.AgentTeam
import PiRust.Brackets

/- What the events of a run of a team tell: which children ended and how every delegation was
dealt with. -/
namespace PiRust.AgentTeam

open Brackets Delegation DelegationConfirmation SessionLog List

namespace CodingAgentEvent

def startsMember : CodingAgentEvent → Option OperationId
  | .agentTeamMemberStarted _ child _ _ _ => some child
  | _ => none

def endsMember : CodingAgentEvent → Option OperationId
  | .agentTeamMemberCompleted _ child _ _ _ => some child
  | .promptFailed child _ => some child
  | .promptAborted child _ => some child
  | _ => none

def startsDelegation : CodingAgentEvent → Option OperationId
  | .delegationStarted _ child => some child
  | _ => none

def endsDelegation : CodingAgentEvent → Option OperationId
  | .delegationCompleted _ child _ => some child
  | .delegationFailed _ child _ => some child
  | _ => none

end CodingAgentEvent

def members : Pairing CodingAgentEvent OperationId where
  opens := CodingAgentEvent.startsMember
  closes := CodingAgentEvent.endsMember

def delegations : Pairing CodingAgentEvent OperationId where
  opens := CodingAgentEvent.startsDelegation
  closes := CodingAgentEvent.endsDelegation

inductive Verdict where
  | approved (request : DelegationRequest)
  | confirmationRequired (request : DelegationRequest) (reason : String)
  | rejected (request : DelegationRequest) (reason : String)
  deriving DecidableEq

def verdictOf : DelegationAuthorizationDecision → Verdict
  | .approved request _ => .approved request
  | .requiresConfirmation request reason _ => .confirmationRequired request reason
  | .rejected request reason => .rejected request reason

namespace CodingAgentEvent

def verdict : CodingAgentEvent → Option Verdict
  | .delegationApproved request => some (.approved request)
  | .delegationConfirmationRequired request reason => some (.confirmationRequired request reason)
  | .delegationRejected request reason => some (.rejected request reason)
  | _ => none

def approved : CodingAgentEvent → Option DelegationRequest
  | .delegationApproved request => some request
  | _ => none

def begun : CodingAgentEvent → Option DelegationRequest
  | .delegationStarted request _ => some request
  | _ => none

def confirmationRequired : CodingAgentEvent → Option (DelegationRequest × String)
  | .delegationConfirmationRequired request reason => some (request, reason)
  | _ => none

end CodingAgentEvent

/-- The events of a run are complete: a child that was started ends once, a delegation that was
started ends once, every decision of a prompt is reported once, what is approved is run, and
what needs a confirmation is queued for it. -/
structure EventsComplete (ran : Executed String) : Prop where
  members : members.Balanced ran.world.log
  delegations : delegations.Balanced ran.world.log
  decisions : (ran.world.decided.map verdictOf).Perm
    (ran.world.log.filterMap CodingAgentEvent.verdict)
  started : ran.world.log.filterMap CodingAgentEvent.begun =
    ran.world.log.filterMap CodingAgentEvent.approved
  queued : ran.pending.map (fun pending => (pending.request, pending.reason)) =
    ran.world.log.filterMap CodingAgentEvent.confirmationRequired

def TurnEvent.isError : TurnEvent → Bool
  | .error _ => true
  | _ => false

def TurnEvent.isDone : TurnEvent → Bool
  | .done _ => true
  | _ => false

def TurnEvent.request? : TurnEvent → Option DelegationRequest
  | .requested request => some request
  | _ => none

def PromptTurn.succeeds (turn : PromptTurn) : Bool :=
  turn.failsBefore.isNone && turn.stream.all (fun event => !event.isError) &&
    turn.stream.any TurnEvent.isDone && turn.failsAfter.isNone

def PromptTurn.requests (turn : PromptTurn) : List DelegationRequest :=
  turn.stream.filterMap TurnEvent.request?

def teamChildren (registry : ProfileRegistry) (teamId : String) : List AgentProfile :=
  match AgentTeamContext.plan registry teamId with
  | .ok planned => planned.1 ++ planned.2.toList
  | .error _ => []

/-- The children that a task for an agent or a team would run; none is run for a blank task. -/
def childrenOf (registry : ProfileRegistry) (kind : ProfileKind) (targetId task : String) :
    List AgentProfile :=
  if trim task = "" then []
  else
    match kind with
    | .agent => (registry.agent targetId).toList
    | .team => teamChildren registry targetId

def Fails (registry : ProfileRegistry) (request : DelegationRequest)
    (turns : Nat → PromptTurn) : Prop :=
  childrenOf registry request.targetKind request.targetId request.task = [] ∨
    ∃ child < (childrenOf registry request.targetKind request.targetId request.task).length,
      (turns child).succeeds = false

/-- A property of every child that is run, and succeeds: of the children whose predecessors
succeed, too. -/
def EachSuccess (turns : Nat → PromptTurn) (property : Nat → AgentProfile → Prop)
    (children : List AgentProfile) : Prop :=
  ∀ child profile, children[child]? = some profile →
    (∀ earlier ≤ child, (turns earlier).succeeds = true) → property child profile

/-- Of the approved decisions only the last decision of all may fail, and each fulfils a
property. -/
def EachApproved (fails : Nat → DelegationRequest → Prop)
    (property : Nat → DelegationRequest → Nat → Prop)
    (decisions : List DelegationAuthorizationDecision) : Prop :=
  ∀ index request childDepth, decisions[index]? = some (.approved request childDepth) →
    (fails index request → index + 1 = decisions.length) ∧ property index request childDepth

def NothingAfterFailure (registry : ProfileRegistry) : PromptRun → List DelegationLineageEntry →
    List DelegationAuthorizationDecision → Prop
  | .idle => fun _ decisions => decisions = []
  | .mk _ delegated => fun lineage => EachApproved
      (fun index request => Fails registry request fun child => (delegated index child).turn)
      (fun index request childDepth =>
        EachSuccess (fun child => (delegated index child).turn)
          (fun child profile =>
            NothingAfterFailure registry (delegated index child)
              (delegationLineageForRequest lineage request)
              (authorizeDelegationRequestsWithLineage (delegated index child).turn.requests
                profile.delegation childDepth (delegationLineageForRequest lineage request)))
          (childrenOf registry request.targetKind request.targetId request.task))

theorem perm_append_middle {α : Type} (first second third fourth : List α) :
    ((first ++ second) ++ (third ++ fourth)).Perm ((first ++ third) ++ (second ++ fourth)) := by
  rw [append_assoc, append_assoc]
  refine Perm.append_left first ?_
  rw [← append_assoc, ← append_assoc]
  exact Perm.append_right fourth perm_append_comm

def DrawnIn (low high item : OperationId) : Prop :=
  low ≤ item ∧ item < high

/-- The events of a part of a run that draws its identifiers from `low` to `high`: `due` are the
decisions that it has to report and `missed` those of them that it does not. -/
structure Segment (low high : OperationId) (events : List CodingAgentEvent)
    (due : List DelegationAuthorizationDecision) (pending : List PendingDelegation)
    (missed : List DelegationAuthorizationDecision) : Prop where
  grows : low ≤ high
  members : members.Settled events (DrawnIn low high)
  delegations : delegations.Settled events (DrawnIn low high)
  decisions : (due.map verdictOf).Perm
    (events.filterMap CodingAgentEvent.verdict ++ missed.map verdictOf)
  started : events.filterMap CodingAgentEvent.begun = events.filterMap CodingAgentEvent.approved
  queued : pending.map (fun pending => (pending.request, pending.reason)) =
    events.filterMap CodingAgentEvent.confirmationRequired

/-- An event that reports no decision on a delegation. -/
structure Reportless (event : CodingAgentEvent) : Prop where
  verdict : event.verdict = none
  approved : event.approved = none
  begun : event.begun = none
  confirmationRequired : event.confirmationRequired = none

/-- An event that no list of a run counts. -/
structure Silent (event : CodingAgentEvent) : Prop extends Reportless event where
  startsMember : event.startsMember = none
  endsMember : event.endsMember = none
  startsDelegation : event.startsDelegation = none
  endsDelegation : event.endsDelegation = none

namespace Segment

variable {low middle high : OperationId} {event : CodingAgentEvent}
  {events first second : List CodingAgentEvent}
  {due later missed missedLater : List DelegationAuthorizationDecision}
  {pending pendingLater : List PendingDelegation}

theorem nothing (grows : low ≤ high) : Segment low high [] due [] due where
  grows := grows
  members := Pairing.Settled.nil
  delegations := Pairing.Settled.nil
  decisions := Perm.refl _
  started := rfl
  queued := rfl

theorem silent (quiet : Silent event) : Segment low low [event] [] [] [] where
  grows := Nat.le_refl low
  members := Pairing.Settled.single quiet.startsMember fun _ closes =>
    absurd (quiet.endsMember.symm.trans closes) (Option.some_ne_none _).symm
  delegations := Pairing.Settled.single quiet.startsDelegation fun _ closes =>
    absurd (quiet.endsDelegation.symm.trans closes) (Option.some_ne_none _).symm
  decisions := by
    rw [filterMap_cons_none quiet.verdict]
    exact Perm.refl _
  started := by
    rw [filterMap_cons_none quiet.begun, filterMap_cons_none quiet.approved]
    rfl
  queued := by
    rw [filterMap_cons_none quiet.confirmationRequired]
    rfl

theorem lower (segment : Segment middle high events due pending missed) (below : low ≤ middle) :
    Segment low high events due pending missed where
  __ := segment
  grows := Nat.le_trans below segment.grows
  members := segment.members.mono fun _ inside => ⟨Nat.le_trans below inside.1, inside.2⟩
  delegations := segment.delegations.mono fun _ inside => ⟨Nat.le_trans below inside.1, inside.2⟩

theorem append (front : Segment low middle first due pending missed)
    (back : Segment middle high second later pendingLater missedLater) :
    Segment low high (first ++ second) (due ++ later) (pending ++ pendingLater)
      (missed ++ missedLater) where
  grows := Nat.le_trans front.grows back.grows
  members := (front.members.append back.members fun _ before after =>
    Nat.not_lt_of_le after.1 before.2).mono fun _ inside => inside.elim
      (fun before => ⟨before.1, Nat.lt_of_lt_of_le before.2 back.grows⟩)
      (fun after => ⟨Nat.le_trans front.grows after.1, after.2⟩)
  delegations := (front.delegations.append back.delegations fun _ before after =>
    Nat.not_lt_of_le after.1 before.2).mono fun _ inside => inside.elim
      (fun before => ⟨before.1, Nat.lt_of_lt_of_le before.2 back.grows⟩)
      (fun after => ⟨Nat.le_trans front.grows after.1, after.2⟩)
  decisions := by
    have both := front.decisions.append back.decisions
    rw [filterMap_append, map_append, map_append]
    exact both.trans (perm_append_middle ..)
  started := by rw [filterMap_append, filterMap_append, front.started, back.started]
  queued := by rw [map_append, filterMap_append, front.queued, back.queued]

theorem filterMap_concat_none {α β : Type} {f : α → Option β} {last : α} (none_last : f last = none)
    (list : List α) : (list ++ [last]).filterMap f = list.filterMap f := by
  rw [filterMap_append, filterMap_cons_none none_last, filterMap_nil, append_nil]

theorem concat (segment : Segment middle high events due pending missed) (below : low ≤ middle)
    (quiet : Reportless event) (starts : event.startsMember = none)
    (ends : ∀ child, event.endsMember = some child → low ≤ child ∧ child < middle)
    (begins : event.startsDelegation = none) (finishes : event.endsDelegation = none) :
    Segment low high (events ++ [event]) due pending missed where
  grows := Nat.le_trans below segment.grows
  members := segment.members.concat starts
    (fun child closes => ⟨fun inside => Nat.not_lt_of_le inside.1 (ends child closes).2,
      (ends child closes).1, Nat.lt_of_lt_of_le (ends child closes).2 segment.grows⟩)
    (fun _ inside => ⟨Nat.le_trans below inside.1, inside.2⟩)
  delegations := segment.delegations.concat begins
    (fun _ closes => absurd (finishes.symm.trans closes) (Option.some_ne_none _).symm)
    (fun _ inside => ⟨Nat.le_trans below inside.1, inside.2⟩)
  decisions := by
    rw [filterMap_concat_none quiet.verdict]
    exact segment.decisions
  started := by
    rw [filterMap_concat_none quiet.begun, filterMap_concat_none quiet.approved]
    exact segment.started
  queued := by
    rw [filterMap_concat_none quiet.confirmationRequired]
    exact segment.queued

variable {child : OperationId} {closing : CodingAgentEvent}

theorem member {opening : CodingAgentEvent}
    (segment : Segment (child + 1) high events due pending missed) (quiet : Reportless opening)
    (starts : opening.startsMember = some child) (unending : opening.endsMember = none)
    (begins : opening.startsDelegation = none) (finishes : opening.endsDelegation = none)
    (quietLast : Reportless closing) (startless : closing.startsMember = none)
    (ends : closing.endsMember = some child) (beginsLast : closing.startsDelegation = none)
    (finishesLast : closing.endsDelegation = none) :
    Segment child high (opening :: (events ++ [closing])) due pending missed where
  grows := Nat.le_trans (Nat.le_succ child) segment.grows
  members := (segment.members.bracket (fun inside => Nat.not_succ_le_self child inside.1) starts
    unending startless ends).mono fun _ uses => uses.elim
      (fun same => ⟨Nat.le_of_eq same.symm, Nat.lt_of_le_of_lt (Nat.le_of_eq same) segment.grows⟩)
      (fun inside => ⟨Nat.le_trans (Nat.le_succ child) inside.1, inside.2⟩)
  delegations := (segment.delegations.concat beginsLast
    (fun _ closes => absurd (finishesLast.symm.trans closes) (Option.some_ne_none _).symm)
    (fun _ inside => ⟨Nat.le_trans (Nat.le_succ child) inside.1, inside.2⟩)).cons begins finishes
  decisions := by
    rw [filterMap_cons_none quiet.verdict, filterMap_concat_none quietLast.verdict]
    exact segment.decisions
  started := by
    rw [filterMap_cons_none quiet.begun, filterMap_cons_none quiet.approved,
      filterMap_concat_none quietLast.begun, filterMap_concat_none quietLast.approved]
    exact segment.started
  queued := by
    rw [filterMap_cons_none quiet.confirmationRequired,
      filterMap_concat_none quietLast.confirmationRequired]
    exact segment.queued

theorem delegation (request : DelegationRequest) (childDepth : Nat)
    (segment : Segment (child + 1) high events due pending missed) (quiet : Reportless closing)
    (starts : closing.startsMember = none) (ends : closing.endsMember = none)
    (begins : closing.startsDelegation = none) (finishes : closing.endsDelegation = some child) :
    Segment child high
      (.delegationApproved request :: .delegationStarted request child :: (events ++ [closing]))
      (.approved request childDepth :: due) pending missed where
  grows := Nat.le_trans (Nat.le_succ child) segment.grows
  members := ((segment.members.concat starts
    (fun _ closes => absurd (ends.symm.trans closes) (Option.some_ne_none _).symm)
    (fun _ inside => ⟨Nat.le_trans (Nat.le_succ child) inside.1, inside.2⟩)).cons rfl rfl).cons
      rfl rfl
  delegations := ((segment.delegations.bracket
    (fun inside => Nat.not_succ_le_self child inside.1) rfl rfl begins finishes).mono
      fun _ uses => uses.elim
        (fun same => ⟨Nat.le_of_eq same.symm, Nat.lt_of_le_of_lt (Nat.le_of_eq same) segment.grows⟩)
        (fun inside => ⟨Nat.le_trans (Nat.le_succ child) inside.1, inside.2⟩)).cons rfl rfl
  decisions := by
    have rest := filterMap_concat_none quiet.verdict events
    have all : (CodingAgentEvent.delegationApproved request ::
        .delegationStarted request child :: (events ++ [closing])).filterMap
          CodingAgentEvent.verdict =
        .approved request :: events.filterMap CodingAgentEvent.verdict :=
      congrArg (Verdict.approved request :: ·) rest
    rw [all]
    exact segment.decisions.cons _
  started := by
    have begun := filterMap_concat_none quiet.begun events
    have approved := filterMap_concat_none quiet.approved events
    exact congrArg (request :: ·) (begun.trans (segment.started.trans approved.symm))
  queued := segment.queued.trans (filterMap_concat_none quiet.confirmationRequired events).symm

theorem decisions_iff (segment : Segment low high events due pending missed) :
    (due.map verdictOf).Perm (events.filterMap CodingAgentEvent.verdict) ↔ missed = [] := by
  constructor
  · intro same
    have lengths := (segment.decisions.symm.trans same).length_eq
    rw [length_append, length_map] at lengths
    exact length_eq_zero_iff.mp (by omega)
  · rintro rfl
    simpa only [map_nil, append_nil] using segment.decisions

end Segment

/-- A step from one world to another: it draws its identifiers from `low` on, leaves `pending`
to be confirmed, and reports the decisions in `due` and those that prompts make on the way, but
for those in `missed`. -/
structure Runs (low : OperationId) (due : List DelegationAuthorizationDecision)
    (world after : World) (pending : List PendingDelegation)
    (missed : List DelegationAuthorizationDecision) : Prop where
  segment : ∃ events decided, after.log = world.log ++ events ∧
    after.decided = world.decided ++ decided ∧
    Segment low after.drawn events (due ++ decided) pending missed
  above : low ≤ world.drawn
  grows : world.drawn ≤ after.drawn

namespace Runs

variable {low : OperationId} {world middle after : World} {event : CodingAgentEvent}
  {due later missed missedLater : List DelegationAuthorizationDecision}
  {pending pendingLater : List PendingDelegation}

theorem refl (world : World) : Runs world.drawn due world world [] due where
  segment := ⟨[], [], (append_nil _).symm, (append_nil _).symm, by
    rw [append_nil]
    exact Segment.nothing (Nat.le_refl _)⟩
  above := Nat.le_refl _
  grows := Nat.le_refl _

theorem lower {wider : OperationId} (runs : Runs low due world after pending missed)
    (below : wider ≤ low) : Runs wider due world after pending missed where
  segment := by
    obtain ⟨events, decided, log, ledger, segment⟩ := runs.segment
    exact ⟨events, decided, log, ledger, segment.lower below⟩
  above := Nat.le_trans below runs.above
  grows := runs.grows

theorem trans (first : Runs low due world middle pending missed)
    (second : Runs middle.drawn later middle after pendingLater missedLater) :
    Runs low (due ++ later) world after (pending ++ pendingLater) (missed ++ missedLater) where
  segment := by
    obtain ⟨events, decided, log, ledger, front⟩ := first.segment
    obtain ⟨more, decidedLater, logLater, ledgerLater, back⟩ := second.segment
    refine ⟨events ++ more, decided ++ decidedLater, ?_, ?_, ?_⟩
    · rw [logLater, log, append_assoc]
    · rw [ledgerLater, ledger, append_assoc]
    · have both := front.append back
      exact { both with
        decisions := ((perm_append_middle due later decided decidedLater).map _).trans
          both.decisions }
  above := first.above
  grows := Nat.le_trans first.grows second.grows

theorem stop (runs : Runs low due world after pending missed)
    (rest : List DelegationAuthorizationDecision) :
    Runs low (due ++ rest) world after pending (missed ++ rest) := by
  have still : Runs after.drawn rest after after [] rest := refl after
  have both := runs.trans still
  rwa [append_nil] at both

theorem emit (segment : Segment world.drawn world.drawn [event] due pending missed) :
    Runs world.drawn due world (world.emit event) pending missed where
  segment := ⟨[event], [], rfl, (append_nil _).symm, by
    rw [append_nil]
    exact segment⟩
  above := Nat.le_refl _
  grows := Nat.le_refl _

theorem silent (quiet : Silent event) : Runs world.drawn [] world (world.emit event) [] [] :=
  emit (Segment.silent quiet)

theorem silents {events : List CodingAgentEvent} (quiet : ∀ event ∈ events, Silent event) :
    Runs world.drawn [] world (world.emitAll events) [] [] := by
  induction events generalizing world with
  | nil =>
    unfold World.emitAll
    rw [append_nil]
    exact refl world
  | cons event rest ih =>
    have first : Runs world.drawn [] world (world.emit event) [] [] :=
      silent (quiet event (mem_cons_self ..))
    have both := first.trans (ih fun other member => quiet other (mem_cons_of_mem event member))
    have same : (world.emit event).emitAll rest = world.emitAll (event :: rest) :=
      congrArg (fun log => { world with log := log }) (append_cons ..).symm
    rwa [same] at both

theorem rejected (request : DelegationRequest) (reason : String) :
    Runs world.drawn [.rejected request reason] world
      (world.emit (.delegationRejected request reason)) [] [] :=
  emit {
    grows := Nat.le_refl _
    members := Pairing.Settled.nil.cons rfl rfl
    delegations := Pairing.Settled.nil.cons rfl rfl
    decisions := Perm.refl _
    started := rfl
    queued := rfl }

theorem queued (request : DelegationRequest) (reason : String) (childDepth : Nat)
    {waiting : PendingDelegation} (asks : waiting.request = request)
    (explains : waiting.reason = reason) :
    Runs world.drawn [.requiresConfirmation request reason childDepth] world
      (world.emit (.delegationConfirmationRequired request reason)) [waiting] [] :=
  emit {
    grows := Nat.le_refl _
    members := Pairing.Settled.nil.cons rfl rfl
    delegations := Pairing.Settled.nil.cons rfl rfl
    decisions := Perm.refl _
    started := rfl
    queued := by
      rw [map_singleton, asks, explains]
      rfl }

theorem record {decisions : List DelegationAuthorizationDecision}
    (runs : Runs low decisions (world.record decisions) after pending missed) :
    Runs low [] world after pending missed where
  __ := runs
  segment := by
    obtain ⟨events, decided, log, ledger, segment⟩ := runs.segment
    exact ⟨events, decisions ++ decided, log, by rw [ledger]; exact append_assoc .., segment⟩

theorem concat {lowest : OperationId} (runs : Runs low due world after pending missed)
    (event : CodingAgentEvent) (below : lowest ≤ low) (quiet : Reportless event)
    (starts : event.startsMember = none)
    (ends : ∀ child, event.endsMember = some child → lowest ≤ child ∧ child < low)
    (begins : event.startsDelegation = none) (finishes : event.endsDelegation = none) :
    Runs lowest due world (after.emit event) pending missed where
  segment := by
    obtain ⟨events, decided, log, ledger, segment⟩ := runs.segment
    refine ⟨events ++ [event], decided, ?_, ledger,
      segment.concat below quiet starts ends begins finishes⟩
    exact (congrArg (· ++ [event]) log).trans (append_assoc ..)
  above := Nat.le_trans below runs.above
  grows := runs.grows

theorem concatSilent (runs : Runs low due world after pending missed)
    (event : CodingAgentEvent) (quiet : Silent event) :
    Runs low due world (after.emit event) pending missed :=
  runs.concat event (Nat.le_refl low) quiet.toReportless quiet.startsMember
    (fun _ ends => absurd (quiet.endsMember.symm.trans ends) (Option.some_ne_none _).symm)
    quiet.startsDelegation quiet.endsDelegation

theorem member {operationId : OperationId} {teamId profileId task : String}
    {closing : CodingAgentEvent}
    (runs : Runs (world.drawn + 1) [] ((world.draw 2).emit
      (.agentTeamMemberStarted operationId world.drawn teamId profileId task)) after pending missed)
    (quiet : Reportless closing) (starts : closing.startsMember = none)
    (ends : closing.endsMember = some world.drawn) (begins : closing.startsDelegation = none)
    (finishes : closing.endsDelegation = none) :
    Runs world.drawn [] world (after.emit closing) pending missed where
  segment := by
    obtain ⟨events, decided, log, ledger, segment⟩ := runs.segment
    refine ⟨.agentTeamMemberStarted operationId world.drawn teamId profileId task ::
      (events ++ [closing]), decided, ?_, ledger,
      segment.member ⟨rfl, rfl, rfl, rfl⟩ rfl rfl rfl rfl quiet starts ends begins finishes⟩
    have inner : (after.emit closing).log = after.log ++ [closing] := rfl
    rw [inner, log]
    exact append_assoc .. |>.trans (append_assoc ..)
  above := Nat.le_refl _
  grows := Nat.le_trans (Nat.le_add_right _ 2) runs.grows

theorem delegation {count : Nat} {closing : CodingAgentEvent} (request : DelegationRequest)
    (childDepth : Nat)
    (runs : Runs (world.drawn + 1) [] (((world.emit (.delegationApproved request)).draw count).emit
      (.delegationStarted request world.drawn)) after pending missed)
    (quiet : Reportless closing) (starts : closing.startsMember = none)
    (ends : closing.endsMember = none) (begins : closing.startsDelegation = none)
    (finishes : closing.endsDelegation = some world.drawn) :
    Runs world.drawn [.approved request childDepth] world (after.emit closing) pending missed where
  segment := by
    obtain ⟨events, decided, log, ledger, segment⟩ := runs.segment
    refine ⟨.delegationApproved request :: .delegationStarted request world.drawn ::
      (events ++ [closing]), decided, ?_, ledger,
      segment.delegation request childDepth quiet starts ends begins finishes⟩
    have inner : (after.emit closing).log = after.log ++ [closing] := rfl
    rw [inner, log]
    exact (append_assoc ..).trans ((append_assoc ..).trans (append_assoc ..))
  above := Nat.le_refl _
  grows := Nat.le_trans (Nat.le_add_right _ count) runs.grows

end Runs

end PiRust.AgentTeam
