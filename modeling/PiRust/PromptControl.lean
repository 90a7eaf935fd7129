import PiRust.SnapshotCoordinator
import PiRust.Text

/- The prompt control path of `snapshot_coordinator.rs` and `operation_control.rs`: from a
client's call to the channel of the running prompt. -/
namespace PiRust.SnapshotCoordinator

inductive CodingAgentControlKind where
  | abort
  | steer
  | followUp
deriving DecidableEq

/-- The `Debug` form. -/
def CodingAgentControlKind.debug : CodingAgentControlKind → String
  | .abort => "Abort"
  | .steer => "Steer"
  | .followUp => "FollowUp"

inductive PromptControlCommand where
  | abort (reason : String)
  | steer (text : String)
  | followUp (text : String)
deriving DecidableEq

def CodingAgentControlKind.command (kind : CodingAgentControlKind) (text : String) :
    PromptControlCommand :=
  match kind with
  | .abort => .abort text
  | .steer => .steer text
  | .followUp => .followUp text

/-- Without `StaleConnection`, which no modelled path gives. -/
inductive CodingAgentControlRejectionReason where
  | detached
  | staleGeneration
  | runtimeShutDown
  | notOwner
  | targetMismatch
  | targetNotRunning
  | controlChannelClosed
  | invalidInput
  | queueCapacityExceeded
  | payloadConflict
deriving DecidableEq

structure CodingAgentControlReceipt where
  controlId : String
  operationId : String
  kind : CodingAgentControlKind
deriving DecidableEq

structure CodingAgentControlRejection where
  controlId : String
  operationId : String
  kind : CodingAgentControlKind
  reason : CodingAgentControlRejectionReason
deriving DecidableEq

def controlRejectionReason : ClientRegistryError → CodingAgentControlRejectionReason
  | .lifecycle .detached => .detached
  | .lifecycle .staleGeneration => .staleGeneration
  | .lifecycle .runtimeShutDown => .runtimeShutDown
  | _ => .invalidInput

/-- A `tokio` channel of commands: all that were accepted, how many of them were
received, and whether the receiver is gone. -/
structure ControlChannel where
  sent : List PromptControlCommand := []
  received : Nat := 0
  closed : Bool := false

def controlCapacity : Nat := 64

inductive TrySendError where
  | closed
  | full

/-- `PromptControlHandle::send`; a sender is the index of its channel. -/
def trySend (channels : List ControlChannel) (sender : Nat) (command : PromptControlCommand) :
    Except TrySendError (List ControlChannel) :=
  match channels[sender]? with
  | none => .error .closed
  | some channel =>
    if channel.closed then .error .closed
    else if controlCapacity ≤ channel.sent.length - channel.received then .error .full
    else .ok (channels.set sender { channel with sent := channel.sent ++ [command] })

structure PromptControlBinding where
  owner : ClientHandle
  operationId : String
  sender : Nat

structure Coordinator where
  state : SnapshotState := {}
  promptControl : Option PromptControlBinding := none
  channels : List ControlChannel := []

/-- The arguments of `enqueue_prompt_control`. -/
structure ControlCall where
  handle : ClientHandle
  operationId : String
  controlId : String
  kind : CodingAgentControlKind
  text : String
deriving DecidableEq

namespace ControlCall

def key (call : ControlCall) : String := call.operationId ++ ":" ++ call.controlId

def signature (call : ControlCall) : String := call.kind.debug ++ ":" ++ call.text

def receipt (call : ControlCall) : CodingAgentControlReceipt :=
  ⟨call.controlId, call.operationId, call.kind⟩

def command (call : ControlCall) : PromptControlCommand := call.kind.command call.text

end ControlCall

/-- The record once the command of a call is in the channel: the receipt is stored and
the first draft of the same id leaves its queue. -/
def ClientRecord.accepted (client : ClientRecord) (call : ControlCall) : ClientRecord :=
  { client with
    controlReceipts := client.controlReceipts.insert call.key call.signature
    controlReceiptOrder := client.controlReceiptOrder ++ [call.key]
    steerDrafts :=
      if call.kind = .steer then client.steerDrafts.eraseP fun draft => draft.id = call.controlId
      else client.steerDrafts
    followUpDrafts :=
      if call.kind = .followUp then
        client.followUpDrafts.eraseP fun draft => draft.id = call.controlId
      else client.followUpDrafts }

/-- Both locks are held from the first read of what they guard to the end. -/
def enqueuePromptControl (call : ControlCall) (coordinator : Coordinator) :
    Except CodingAgentControlRejection CodingAgentControlReceipt × Coordinator :=
  let rejected (reason : CodingAgentControlRejectionReason) :
      Except CodingAgentControlRejection CodingAgentControlReceipt × Coordinator :=
    (.error ⟨call.controlId, call.operationId, call.kind, reason⟩, coordinator)
  if trim call.controlId = "" ∨ trim call.text = "" then rejected .invalidInput
  else
    match record coordinator.state call.handle with
    | .error error => rejected (controlRejectionReason error)
    | .ok client =>
      match client.controlReceipts[call.key]? with
      | some stored =>
        if stored ≠ call.signature then rejected .payloadConflict
        else (.ok call.receipt, coordinator)
      | none =>
        if client.controlReceipts.size ≥ maxReceipts then rejected .queueCapacityExceeded
        else
          match coordinator.promptControl with
          | none => rejected .targetNotRunning
          | some active =>
            if active.owner.id ≠ call.handle.id then rejected .notOwner
            else if active.operationId ≠ call.operationId then rejected .targetMismatch
            else
              match trySend coordinator.channels active.sender call.command with
              | .error .full => rejected .queueCapacityExceeded
              | .error .closed => rejected .controlChannelClosed
              | .ok channels =>
                (.ok call.receipt, { coordinator with
                  state := coordinator.state.put call.handle.id (client.accepted call)
                  channels })

/-- The first section of `enqueue_prompt_control_draft`, up to the call that it then
makes with the text of the draft. -/
def enqueuePromptControlDraft (handle : ClientHandle) (operationId draftId : String)
    (kind : CodingAgentControlKind) (state : SnapshotState) :
    Except CodingAgentControlRejection ControlCall :=
  let rejection (reason : CodingAgentControlRejectionReason) : CodingAgentControlRejection :=
    ⟨draftId, operationId, kind, reason⟩
  match record state handle with
  | .error error => .error (rejection (controlRejectionReason error))
  | .ok client =>
    let queue :=
      match kind with
      | .steer => some client.steerDrafts
      | .followUp => some client.followUpDrafts
      | .abort => none
    match queue.bind fun drafts => drafts.find? fun draft => draft.id = draftId with
    | none => .error (rejection .invalidInput)
    | some draft => .ok ⟨handle, operationId, draftId, kind, draft.text⟩

def bindPromptControl (owner : ClientHandle) (operationId : String) (sender : Nat)
    (coordinator : Coordinator) : Coordinator :=
  { coordinator with promptControl := some ⟨owner, operationId, sender⟩ }

def clearPromptControl (operationId : String) (coordinator : Coordinator) : Coordinator :=
  match coordinator.promptControl with
  | some active =>
    if active.operationId = operationId then { coordinator with promptControl := none }
    else coordinator
  | none => coordinator

def rebindPromptControl (handle : ClientHandle) (coordinator : Coordinator) : Coordinator :=
  match coordinator.promptControl with
  | some active =>
    if active.owner.id = handle.id then
      { coordinator with promptControl := some { active with owner :=
        { active.owner with generation := handle.generation } } }
    else coordinator
  | none => coordinator

/-- A call that put its command into a channel. -/
structure Delivered (call : ControlCall) (before after : Coordinator) (client : ClientRecord)
    (active : PromptControlBinding) : Prop where
  current : record before.state call.handle = .ok client
  unknown : client.controlReceipts[call.key]? = none
  bound : before.promptControl = some active
  owned : active.owner.id = call.handle.id
  target : active.operationId = call.operationId
  state : after.state = before.state.put call.handle.id (client.accepted call)
  promptControl : after.promptControl = before.promptControl
  sent : trySend before.channels active.sender call.command = .ok after.channels

theorem enqueuePromptControl_cases (call : ControlCall) (coordinator : Coordinator) :
    (∃ rejection, enqueuePromptControl call coordinator = (.error rejection, coordinator)) ∨
      (∃ client, record coordinator.state call.handle = .ok client ∧
        client.controlReceipts[call.key]? = some call.signature ∧
        enqueuePromptControl call coordinator = (.ok call.receipt, coordinator)) ∨
      ∃ client active after, enqueuePromptControl call coordinator = (.ok call.receipt, after) ∧
        Delivered call coordinator after client active := by
  unfold enqueuePromptControl
  split
  · exact .inl ⟨_, rfl⟩
  split
  · exact .inl ⟨_, rfl⟩
  rename_i client current
  split
  · rename_i stored known
    split
    · exact .inl ⟨_, rfl⟩
    · rename_i same
      rw [not_not] at same
      rw [same] at known
      exact .inr (.inl ⟨client, current, known, rfl⟩)
  rename_i unknown
  split
  · exact .inl ⟨_, rfl⟩
  split
  · exact .inl ⟨_, rfl⟩
  rename_i active bound
  split
  · exact .inl ⟨_, rfl⟩
  rename_i owned
  split
  · exact .inl ⟨_, rfl⟩
  rename_i target
  split
  · exact .inl ⟨_, rfl⟩
  · exact .inl ⟨_, rfl⟩
  · rename_i channels sent
    exact .inr (.inr ⟨client, active, _, rfl, current, unknown, bound, not_not.mp owned,
      not_not.mp target, rfl, rfl, sent⟩)

theorem enqueuePromptControl_rejected {call : ControlCall} {coordinator after : Coordinator}
    {rejection : CodingAgentControlRejection}
    (rejected : enqueuePromptControl call coordinator = (.error rejection, after)) :
    after = coordinator := by
  rcases enqueuePromptControl_cases call coordinator with
    ⟨_, same⟩ | ⟨_, _, _, same⟩ | ⟨_, _, _, same, _⟩
  · rw [same, Prod.mk.injEq] at rejected
    exact rejected.2.symm
  · rw [same, Prod.mk.injEq] at rejected
    exact absurd rejected.1 (by simp)
  · rw [same, Prod.mk.injEq] at rejected
    exact absurd rejected.1 (by simp)

theorem trySend_ok {channels after : List ControlChannel} {sender : Nat}
    {command : PromptControlCommand} (sent : trySend channels sender command = .ok after) :
    ∃ channel, channels[sender]? = some channel ∧
      after = channels.set sender { channel with sent := channel.sent ++ [command] } := by
  unfold trySend at sent
  split at sent
  · cases sent
  · rename_i channel found
    split at sent
    · cases sent
    · split at sent
      · cases sent
      · cases sent
        exact ⟨channel, found, rfl⟩

end PiRust.SnapshotCoordinator
