import Mathlib.Data.List.Basic

/- `public_operation.rs` and the root terminal events of `event.rs`: which events may
end a submitted operation. -/
namespace PiRust

/-- `u64::saturating_add(1)`. -/
def saturatingSucc (value : UInt64) : UInt64 :=
  if value.toNat + 1 = UInt64.size then value else value + 1

inductive OperationKind where
  | prompt
  | compact
  | pluginCommand
  | pluginLoad
  | delegationConfirmation
  | branchSummary
  | agentInvocation
  | agentTeam
  | export
  | forkSession
  | switchActiveLeaf
  | setDefaultAgentProfile
  | selfHealingEdit
deriving DecidableEq

inductive OperationAssociationClass where
  | terminalAssociated
  | outcomeOnly
  | notApplicable
deriving DecidableEq

inductive OperationOutcomeFamily where
  | prompt
  | compact
  | branchSummary
  | selfHealingEdit
  | agentInvocation
  | agentTeam
  | pluginLoad
  | pluginCommand
  | defaultAgentProfileChanged
  | delegationApproved
  | delegationRejected
  | sessionForked
  | activeLeafSwitched
  | export
  | exportHtml
deriving DecidableEq

inductive OperationRootTerminalEvidence where
  | promptCompleted
  | promptFailed
  | promptAborted
  | compactionCompleted
  | compactPromptFailed
  | selfHealingEditCompleted
  | selfHealingEditFailed
  | agentInvocationCompleted
  | agentInvocationFailed
  | agentInvocationAborted
  | agentTeamCompleted
  | agentTeamFailed
  | agentTeamAborted
deriving DecidableEq

structure OperationDescriptor where
  submittedKind : OperationKind
  outcomeFamily : OperationOutcomeFamily
  association : OperationAssociationClass
  permittedRootEvidence : List OperationRootTerminalEvidence
deriving DecidableEq

/-- `CodingAgentOperation` without the arguments of its variants. -/
inductive CodingAgentOperation where
  | prompt
  | compact
  | branchSummary
  | selfHealingEdit
  | invokeAgent
  | invokeTeam
  | pluginLoad
  | pluginCommand
  | setDefaultAgentProfile
  | approveDelegation
  | rejectDelegation
  | forkSession
  | switchActiveLeaf
  | exportCurrent
  | exportCurrentHtml

open OperationRootTerminalEvidence in
def CodingAgentOperation.row :
    CodingAgentOperation →
      OperationKind × OperationOutcomeFamily × List OperationRootTerminalEvidence
  | .prompt => (.prompt, .prompt, [promptCompleted, promptFailed, promptAborted])
  | .compact => (.compact, .compact, [compactionCompleted, compactPromptFailed])
  | .branchSummary => (.branchSummary, .branchSummary, [])
  | .selfHealingEdit =>
    (.selfHealingEdit, .selfHealingEdit, [selfHealingEditCompleted, selfHealingEditFailed])
  | .invokeAgent =>
    (.agentInvocation, .agentInvocation,
      [agentInvocationCompleted, agentInvocationFailed, agentInvocationAborted])
  | .invokeTeam =>
    (.agentTeam, .agentTeam, [agentTeamCompleted, agentTeamFailed, agentTeamAborted])
  | .pluginLoad => (.pluginLoad, .pluginLoad, [])
  | .pluginCommand => (.pluginCommand, .pluginCommand, [])
  | .setDefaultAgentProfile => (.setDefaultAgentProfile, .defaultAgentProfileChanged, [])
  | .approveDelegation => (.delegationConfirmation, .delegationApproved, [])
  | .rejectDelegation => (.delegationConfirmation, .delegationRejected, [])
  | .forkSession => (.forkSession, .sessionForked, [])
  | .switchActiveLeaf => (.switchActiveLeaf, .activeLeafSwitched, [])
  | .exportCurrent => (.export, .export, [])
  | .exportCurrentHtml => (.export, .exportHtml, [])

def CodingAgentOperation.descriptor (operation : CodingAgentOperation) : OperationDescriptor where
  submittedKind := operation.row.1
  outcomeFamily := operation.row.2.1
  association := if operation.row.2.2.isEmpty then .outcomeOnly else .terminalAssociated
  permittedRootEvidence := operation.row.2.2

inductive ProductEventTerminalStatus where
  | completed
  | failed
  | aborted
  | recovered
deriving DecidableEq

/-- Whether the error of a failed prompt is `CodingSessionError::PartialCommit`. -/
inductive CodingSessionError where
  | partialCommit
  | other
deriving DecidableEq

/-- The variants that `root_evidence` matches on; `other` stands for the rest, with
what they give for their operation and their terminal status. -/
inductive CodingAgentEvent where
  | promptCompleted (operationId : String)
  | promptFailed (operationId : String) (error : CodingSessionError)
  | promptAborted (operationId : String)
  | sessionCompactionCompleted (operationId : String)
  | selfHealingEditCompleted (operationId : String)
  | selfHealingEditFailed (operationId : String)
  | agentInvocationCompleted (operationId : String)
  | agentInvocationFailed (operationId : String)
  | agentInvocationAborted (operationId : String)
  | agentTeamCompleted (operationId : String)
  | agentTeamFailed (operationId : String)
  | agentTeamAborted (operationId : String)
  | other (operationId : Option String) (terminalStatus : Option ProductEventTerminalStatus)
deriving DecidableEq

namespace CodingAgentEvent

def operationId : CodingAgentEvent → Option String
  | .promptCompleted id | .promptFailed id _ | .promptAborted id
  | .sessionCompactionCompleted id
  | .selfHealingEditCompleted id | .selfHealingEditFailed id
  | .agentInvocationCompleted id | .agentInvocationFailed id | .agentInvocationAborted id
  | .agentTeamCompleted id | .agentTeamFailed id | .agentTeamAborted id => some id
  | .other id _ => id

def terminalStatus : CodingAgentEvent → Option ProductEventTerminalStatus
  | .promptCompleted _ | .sessionCompactionCompleted _ | .selfHealingEditCompleted _
  | .agentInvocationCompleted _ | .agentTeamCompleted _ => some .completed
  | .promptFailed _ _ | .selfHealingEditFailed _ | .agentInvocationFailed _
  | .agentTeamFailed _ => some .failed
  | .promptAborted _ | .agentInvocationAborted _ | .agentTeamAborted _ => some .aborted
  | .other _ status => status

def rootEvidence (source : CodingAgentEvent) (admittedKind : OperationKind) :
    Option OperationRootTerminalEvidence :=
  match source with
  | .promptCompleted _ => some .promptCompleted
  | .promptFailed _ _ =>
    if admittedKind = .compact then some .compactPromptFailed else some .promptFailed
  | .promptAborted _ => some .promptAborted
  | .sessionCompactionCompleted _ => some .compactionCompleted
  | .selfHealingEditCompleted _ => some .selfHealingEditCompleted
  | .selfHealingEditFailed _ => some .selfHealingEditFailed
  | .agentInvocationCompleted _ => some .agentInvocationCompleted
  | .agentInvocationFailed _ => some .agentInvocationFailed
  | .agentInvocationAborted _ => some .agentInvocationAborted
  | .agentTeamCompleted _ => some .agentTeamCompleted
  | .agentTeamFailed _ => some .agentTeamFailed
  | .agentTeamAborted _ => some .agentTeamAborted
  | .other _ _ => none

/-- A root terminal event of a permitted kind for the operation. -/
def RootTerminal (source : CodingAgentEvent) (operationId : String)
    (descriptor : OperationDescriptor) : Prop :=
  source.operationId = some operationId ∧
    ∃ evidence, source.rootEvidence descriptor.submittedKind = some evidence ∧
      evidence ∈ descriptor.permittedRootEvidence

theorem terminalStatus_of_rootEvidence {source : CodingAgentEvent} {kind : OperationKind}
    {evidence : OperationRootTerminalEvidence}
    (accepted : source.rootEvidence kind = some evidence) :
    ∃ status, source.terminalStatus = some status := by
  cases source with
  | other id status => simp only [rootEvidence, reduceCtorEq] at accepted
  | _ => exact ⟨_, rfl⟩

end CodingAgentEvent

end PiRust
