import PiRust.PromptControl

/- Runs of the `SnapshotCoordinator`: each step is what one call does under one
acquisition of its locks, in any order over any number of threads. -/
namespace PiRust.SnapshotCoordinator

inductive Request where
  | detach (handle : ClientHandle)
  | requestShutdown
  | finishShutdown
  | acknowledge (handle : ClientHandle) (sequence : Nat)
  | acknowledgeOutcome (handle : ClientHandle) (acknowledgement : String)
  | setPromptDraft (handle : ClientHandle) (draft : Option DraftRecord)
  | enqueueDraft (handle : ClientHandle) (draft : DraftRecord)
  | markSubmitted (handle : ClientHandle) (operationId : String) (descriptor : OperationDescriptor)
  | markRunning (handle : ClientHandle) (operationId : String) (kind : OperationKind)
  | markTerminal (handle : ClientHandle) (operationId : String) (kind : OperationKind)
      (descriptor : OperationDescriptor) (anchor : SubmittedTerminalAnchor)
      (status : ProductEventTerminalStatus)
  | finalizeTerminalAssociation (handle : ClientHandle) (operationId : String)
      (descriptor : OperationDescriptor) (fallbackStatus : ProductEventTerminalStatus)
  | emit (event : CodingAgentEvent)

/-- The result without its value. -/
def settled {α : Type} (done : Except ClientRegistryError α × SnapshotState) :
    Except ClientRegistryError Unit × SnapshotState :=
  (done.1.map fun _ => (), done.2)

/-- None when the call panics. -/
def Request.run (retainedCapacity : Nat) (state : SnapshotState) :
    Request → Option (Except ClientRegistryError Unit × SnapshotState)
  | .detach handle => (SnapshotCoordinator.detach handle state).map settled
  | .requestShutdown => some (.ok (), (SnapshotCoordinator.requestShutdown state).2)
  | .finishShutdown => some (.ok (), SnapshotCoordinator.finishShutdown state)
  | .acknowledge handle sequence =>
    some (settled (SnapshotCoordinator.acknowledge handle sequence state))
  | .acknowledgeOutcome handle acknowledgement =>
    some (SnapshotCoordinator.acknowledgeOutcome handle acknowledgement state)
  | .setPromptDraft handle draft => some (SnapshotCoordinator.setPromptDraft handle draft state)
  | .enqueueDraft handle draft => some (SnapshotCoordinator.enqueueDraft handle draft state)
  | .markSubmitted handle operationId descriptor =>
    some (SnapshotCoordinator.markSubmitted handle operationId descriptor state)
  | .markRunning handle operationId kind =>
    some (SnapshotCoordinator.markRunning handle operationId kind state)
  | .markTerminal handle operationId kind descriptor anchor status =>
    some (SnapshotCoordinator.markTerminal handle operationId kind descriptor anchor status state)
  | .finalizeTerminalAssociation handle operationId descriptor fallbackStatus =>
    some (SnapshotCoordinator.finalizeTerminalAssociation handle operationId descriptor
      fallbackStatus state)
  | .emit event => some (.ok (), (SnapshotCoordinator.emit retainedCapacity event state).2)

/-- The first three lists hold calls between two of their sections. `bound` has the
channels bound so far, each with its operation, `issued` the handles that were given out,
`receipts` the prompt control calls that returned a receipt and `deliveries` those that put
their command into a channel, with the channel; each the oldest first. -/
structure World where
  coordinator : Coordinator := {}
  pendingDrafts : List ControlCall := []
  pendingRebinds : List ClientHandle := []
  pendingClears : Nat := 0
  bound : List (String × Nat) := []
  issued : List ClientHandle := []
  receipts : List ControlCall := []
  deliveries : List (ControlCall × Nat) := []

inductive Label where
  | request (request : Request)
  | connectOrTakeover (id : ClientConnectionId)
  | rebindPromptControl (index : Nat)
  | clearAfterShutdown
  | enqueuePromptControl (call : ControlCall)
  | enqueuePromptControlDraft (handle : ClientHandle) (operationId draftId : String)
      (kind : CodingAgentControlKind)
  | sendDraft (index : Nat)
  | openChannel
  | bindPromptControl (owner : ClientHandle) (operationId : String) (sender : Nat)
  | clearPromptControl (operationId : String)
  | receive (sender : Nat)
  | close (sender : Nat)

/-- The channel that took a command between two states, if there is one: only the
bound channel can. -/
def sentTo (before after : Coordinator) : Option Nat :=
  before.promptControl.bind fun active =>
    let count (coordinator : Coordinator) : Option Nat :=
      (coordinator.channels[active.sender]?).map fun channel => channel.sent.length
    if count after = count before then none else some active.sender

def World.enqueue (world : World) (call : ControlCall) : World :=
  match enqueuePromptControl call world.coordinator with
  | (.error _, coordinator) => { world with coordinator }
  | (.ok _, coordinator) =>
    { world with
      coordinator
      receipts := world.receipts ++ [call]
      deliveries :=
        world.deliveries ++ ((sentTo world.coordinator coordinator).map fun sender =>
          (call, sender)).toList }

def World.withState (world : World) (state : SnapshotState) : World :=
  { world with coordinator := { world.coordinator with state } }

def step (retainedCapacity : Nat) : Label → World → Option World
  | .request request, world =>
    (request.run retainedCapacity world.coordinator.state).map fun done =>
      match request with
      | .requestShutdown =>
        let running := world.coordinator.state.runtimeLifecycle = .running
        { world.withState done.2 with
          pendingClears := if running then world.pendingClears + 1 else world.pendingClears }
      | _ => world.withState done.2
  | .connectOrTakeover id, world =>
    match connectOrTakeover id world.coordinator.state with
    | (.error _, state) => some (world.withState state)
    | (.ok handle, state) =>
      some { world.withState state with
        issued := world.issued ++ [handle]
        pendingRebinds :=
          if world.coordinator.state.clients.contains id then world.pendingRebinds ++ [handle]
          else world.pendingRebinds }
  | .rebindPromptControl index, world =>
    (world.pendingRebinds[index]?).map fun handle =>
      { world with
        coordinator := rebindPromptControl handle world.coordinator
        pendingRebinds := world.pendingRebinds.eraseIdx index }
  | .clearAfterShutdown, world =>
    if world.pendingClears = 0 then none
    else
      some { world with
        coordinator := { world.coordinator with promptControl := none }
        pendingClears := world.pendingClears - 1 }
  | .enqueuePromptControl call, world => some (world.enqueue call)
  | .enqueuePromptControlDraft handle operationId draftId kind, world =>
    match enqueuePromptControlDraft handle operationId draftId kind world.coordinator.state with
    | .error _ => some world
    | .ok call => some { world with pendingDrafts := world.pendingDrafts ++ [call] }
  | .sendDraft index, world =>
    (world.pendingDrafts[index]?).map fun call =>
      { world with pendingDrafts := world.pendingDrafts.eraseIdx index }.enqueue call
  | .openChannel, world =>
    some { world with coordinator := { world.coordinator with
      channels := world.coordinator.channels ++ [{}] } }
  | .bindPromptControl owner operationId sender, world =>
    some { world with
      coordinator := bindPromptControl owner operationId sender world.coordinator
      bound := world.bound ++ [(operationId, sender)] }
  | .clearPromptControl operationId, world =>
    some { world with coordinator := clearPromptControl operationId world.coordinator }
  | .receive sender, world =>
    (world.coordinator.channels[sender]?).bind fun channel =>
      if channel.received < channel.sent.length ∧ channel.closed = false then
        some { world with coordinator := { world.coordinator with
          channels :=
            world.coordinator.channels.set sender { channel with received := channel.received + 1 } } }
      else none
  | .close sender, world =>
    (world.coordinator.channels[sender]?).map fun channel =>
      { world with coordinator := { world.coordinator with
        channels := world.coordinator.channels.set sender { channel with closed := true } } }

def ClientRecord.link (client : ClientRecord) :
    UInt64 × ConnectionLifecycle × Std.TreeMap String String :=
  (client.generation, client.connection, client.controlReceipts)

namespace Request

def mutation? : Request → Option ClientHandle
  | .acknowledge handle _ | .acknowledgeOutcome handle _ | .setPromptDraft handle _
  | .enqueueDraft handle _ | .markSubmitted handle _ _ | .markRunning handle _ _ => some handle
  | _ => none

def terminal? : Request → Option ClientHandle
  | .markTerminal handle _ _ _ _ _ | .finalizeTerminalAssociation handle _ _ _ => some handle
  | _ => none

end Request

variable {handle : ClientHandle} {retainedCapacity : Nat} {request : Request}
  {state : SnapshotState} {α : Type}

theorem settled_onRecord (handle : ClientHandle)
    (body : ClientRecord → Except ClientRegistryError α × ClientRecord) (state : SnapshotState) :
    settled (onRecord handle body state) =
      onRecord handle (fun client => ((body client).1.map fun _ => (), (body client).2)) state := by
  cases found : record state handle with
  | error reason =>
    rw [onRecord_error found, onRecord_error found]
    rfl
  | ok client =>
    rw [onRecord_ok found, onRecord_ok found]
    rfl

theorem acknowledged_link (client : ClientRecord) (sequence : Nat) :
    (client.acknowledged sequence).link = client.link := by
  unfold ClientRecord.acknowledged
  split
  · rfl
  · dsimp only
    split
    · split <;> rfl
    · rfl

theorem Request.run_mutation (retainedCapacity : Nat) (own : request.mutation? = some handle) :
    ∃ body, (∀ state, request.run retainedCapacity state = some (onRecord handle body state)) ∧
      ∀ client, (body client).2.link = client.link := by
  cases request with
  | acknowledge other sequence =>
    cases own
    exact ⟨_, fun state => congrArg some (settled_onRecord handle _ state),
      fun client => acknowledged_link client sequence⟩
  | acknowledgeOutcome other acknowledgement =>
    cases own
    refine ⟨_, fun state => rfl, fun client => ?_⟩
    split
    · split <;> rfl
    · rfl
  | setPromptDraft other draft =>
    cases own
    exact ⟨_, fun state => rfl, fun client => rfl⟩
  | enqueueDraft other draft =>
    cases own
    refine ⟨_, fun state => rfl, fun client => ?_⟩
    split
    · split <;> rfl
    · split <;> rfl
    · rfl
  | markSubmitted other operationId descriptor =>
    cases own
    refine ⟨_, fun state => rfl, fun client => ?_⟩
    split <;> rfl
  | markRunning other operationId kind =>
    cases own
    refine ⟨_, fun state => rfl, fun client => ?_⟩
    split
    · split <;> rfl
    · rfl
  | _ => cases own

theorem Request.run_terminal (retainedCapacity : Nat) (own : request.terminal? = some handle) :
    ∃ unknown body,
      (∀ state, request.run retainedCapacity state =
        some (onTerminalRecord handle unknown body state)) ∧
      ∀ client, (body client).2.link = client.link := by
  cases request with
  | markTerminal other operationId kind descriptor anchor status =>
    cases own
    refine ⟨_, _, fun state => rfl, fun client => ?_⟩
    split
    · split <;> rfl
    · split <;> rfl
    · rfl
  | finalizeTerminalAssociation other operationId descriptor fallbackStatus =>
    cases own
    refine ⟨_, _, fun state => rfl, fun client => ?_⟩
    split
    · split
      · split <;> rfl
      · rfl
    · split <;> rfl
    · split <;> rfl
    · rfl
  | _ => cases own

theorem observeRecord_link (source : CodingAgentEvent) (operationId : String)
    (status : ProductEventTerminalStatus) (sequence : Nat) (client : ClientRecord) :
    (observeRecord source operationId status sequence client).link = client.link := by
  unfold observeRecord
  split
  · rfl
  split
  · rfl
  split
  · rfl
  split
  · rfl
  split <;> rfl

theorem emit_clients (retainedCapacity : Nat) (event : CodingAgentEvent) (state : SnapshotState) :
    (emit retainedCapacity event state).2.clients = state.clients ∨
      ∃ operationId status sequence, (emit retainedCapacity event state).2.clients =
        (state.mapClients (observeRecord event operationId status sequence)).clients := by
  simp only [emit, observeRootTerminalInState]
  split
  · exact .inr ⟨_, _, _, rfl⟩
  · exact .inl rfl

theorem emit_lifecycle (retainedCapacity : Nat) (event : CodingAgentEvent)
    (state : SnapshotState) :
    (emit retainedCapacity event state).2.runtimeLifecycle = state.runtimeLifecycle := by
  simp only [emit, observeRootTerminalInState]
  split <;> rfl

variable {field : ClientRecord → α} {absent : α} {after world : World}
  {done : Except ClientRegistryError Unit × SnapshotState} {label : Label}

theorem fieldOf_congr {after : SnapshotState} (same : after.clients = state.clients) :
    fieldOf field absent after = fieldOf field absent state := by
  funext id
  unfold fieldOf
  rw [same]

theorem fieldOf_emit {field : ClientRecord → α} {absent : α}
    (same : ∀ event operationId status sequence client,
      field (observeRecord event operationId status sequence client) = field client)
    (retainedCapacity : Nat) (event : CodingAgentEvent) :
    fieldOf field absent (emit retainedCapacity event state).2 = fieldOf field absent state := by
  rcases emit_clients retainedCapacity event state with unchanged | ⟨_, _, _, mapped⟩
  · exact fieldOf_congr unchanged
  · rw [fieldOf_congr mapped]
    exact fieldOf_mapClients fun client => same _ _ _ _ client

def ClientRecord.kept (client : ClientRecord) : UInt64 × Std.TreeMap String String :=
  (client.generation, client.controlReceipts)

theorem kept_of_link {before after : ClientRecord} (same : after.link = before.link) :
    after.kept = before.kept := by
  simp only [ClientRecord.link, Prod.mk.injEq] at same
  simp [ClientRecord.kept, same]

theorem moved_kept (client : ClientRecord) (source target : ConnectionLifecycle) :
    (client.moved source target).kept = client.kept := by
  unfold ClientRecord.moved
  split <;> rfl

theorem detach_cases {done : Except ClientRegistryError ClientDetachOutcome × SnapshotState}
    (ran : detach handle state = some done) :
    done.2 = state ∨ ∃ client, state.runtimeLifecycle = .running ∧
      state.clients[handle.id]? = some client ∧
      done.2 = (state.put handle.id { client with connection := .detached }).nextEpoch := by
  unfold detach validateRuntime at ran
  cases lifecycle : state.runtimeLifecycle with
  | running =>
    simp only [lifecycle] at ran
    split at ran
    · cases ran
      exact .inl rfl
    · rename_i client found
      split at ran
      · cases ran
        exact .inl rfl
      · split at ran
        · cases ran
          exact .inr ⟨client, rfl, found, rfl⟩
        · cases ran
          exact .inl rfl
        · cases ran
  | shuttingDown | shutDown =>
    simp only [lifecycle] at ran
    cases ran
    exact .inl rfl

theorem Request.run_cases (ran : request.run retainedCapacity state = some done) :
    (∃ handle body, request.mutation? = some handle ∧ done = onRecord handle body state ∧
        ∀ client, (body client).2.link = client.link) ∨
      (∃ handle unknown body, request.terminal? = some handle ∧
        done = onTerminalRecord handle unknown body state ∧
        ∀ client, (body client).2.link = client.link) ∨
      (∃ handle outcome, request = .detach handle ∧
        SnapshotCoordinator.detach handle state = some outcome ∧ done.2 = outcome.2) ∨
      (request = .requestShutdown ∧ done.2 = (SnapshotCoordinator.requestShutdown state).2) ∨
      (request = .finishShutdown ∧ done.2 = SnapshotCoordinator.finishShutdown state) ∨
      ∃ event, request = .emit event ∧
        done.2 = (SnapshotCoordinator.emit retainedCapacity event state).2 := by
  cases mutation : request.mutation? with
  | some handle =>
    obtain ⟨body, runs, keeps⟩ := Request.run_mutation retainedCapacity mutation
    rw [runs state, Option.some.injEq] at ran
    exact .inl ⟨handle, body, rfl, ran.symm, keeps⟩
  | none =>
    cases terminal : request.terminal? with
    | some handle =>
      obtain ⟨unknown, body, runs, keeps⟩ := Request.run_terminal retainedCapacity terminal
      rw [runs state, Option.some.injEq] at ran
      exact .inr (.inl ⟨handle, unknown, body, rfl, ran.symm, keeps⟩)
    | none =>
      refine .inr (.inr ?_)
      cases request with
      | detach handle =>
        obtain ⟨outcome, detached, rfl⟩ := Option.map_eq_some_iff.mp ran
        exact .inl ⟨handle, outcome, rfl, detached, rfl⟩
      | requestShutdown =>
        cases ran
        exact .inr (.inl ⟨rfl, rfl⟩)
      | finishShutdown =>
        cases ran
        exact .inr (.inr (.inl ⟨rfl, rfl⟩))
      | emit event =>
        cases ran
        exact .inr (.inr (.inr ⟨event, rfl, rfl⟩))
      | _ => simp only [Request.mutation?, Request.terminal?, reduceCtorEq] at mutation terminal

theorem Request.run_kept {absent : UInt64 × Std.TreeMap String String}
    (ran : request.run retainedCapacity state = some done) :
    fieldOf ClientRecord.kept absent done.2 = fieldOf ClientRecord.kept absent state := by
  rcases Request.run_cases ran with ⟨handle, body, -, rfl, keeps⟩ |
    ⟨handle, unknown, body, -, rfl, keeps⟩ | ⟨handle, outcome, -, detached, same⟩ |
    ⟨-, same⟩ | ⟨-, same⟩ | ⟨event, -, same⟩
  · exact fieldOf_onRecord fun client => kept_of_link (keeps client)
  · exact fieldOf_onTerminalRecord fun client => kept_of_link (keeps client)
  · rw [same]
    rcases detach_cases detached with unchanged | ⟨client, -, found, changed⟩
    · rw [unchanged]
    · rw [changed, fieldOf_congr (clients_nextEpoch _)]
      exact fieldOf_put_same found rfl
  · rw [same]
    unfold SnapshotCoordinator.requestShutdown
    dsimp only
    split
    · rfl
    · exact fieldOf_mapClients fun client => moved_kept client _ _
  · rw [same]
    unfold SnapshotCoordinator.finishShutdown
    dsimp only
    split
    · rfl
    · exact fieldOf_mapClients fun client => moved_kept client _ _
  · rw [same]
    exact fieldOf_emit (fun _ _ _ _ client => kept_of_link (observeRecord_link _ _ _ _ client))
      retainedCapacity event

theorem enqueue_state (world : World) (call : ControlCall) :
    (world.enqueue call).issued = world.issued ∧
      ((world.enqueue call).coordinator.state = world.coordinator.state ∨
        ∃ client, record world.coordinator.state call.handle = .ok client ∧
          (world.enqueue call).coordinator.state =
            world.coordinator.state.put call.handle.id (client.accepted call)) := by
  unfold World.enqueue
  rcases enqueuePromptControl_cases call world.coordinator with
    ⟨_, same⟩ | ⟨_, _, _, same⟩ | ⟨client, active, after, same, delivered⟩
  · rw [same]
    exact ⟨rfl, .inl rfl⟩
  · rw [same]
    exact ⟨rfl, .inl rfl⟩
  · rw [same]
    exact ⟨rfl, .inr ⟨client, delivered.current, delivered.state⟩⟩

theorem clearPromptControl_frame (operationId : String) (coordinator : Coordinator) :
    (clearPromptControl operationId coordinator).state = coordinator.state ∧
      (clearPromptControl operationId coordinator).channels = coordinator.channels := by
  unfold clearPromptControl
  split
  · split <;> exact ⟨rfl, rfl⟩
  · exact ⟨rfl, rfl⟩

theorem rebindPromptControl_frame (handle : ClientHandle) (coordinator : Coordinator) :
    (rebindPromptControl handle coordinator).state = coordinator.state ∧
      (rebindPromptControl handle coordinator).channels = coordinator.channels := by
  unfold rebindPromptControl
  split
  · split <;> exact ⟨rfl, rfl⟩
  · exact ⟨rfl, rfl⟩

theorem step_other (taken : step retainedCapacity label world = some after)
    (noRequest : ∀ request, label ≠ .request request)
    (noConnection : ∀ id, label ≠ .connectOrTakeover id) :
    after.issued = world.issued ∧
      (after.coordinator.state = world.coordinator.state ∨
        ∃ call client, record world.coordinator.state call.handle = .ok client ∧
          after.coordinator.state =
            world.coordinator.state.put call.handle.id (client.accepted call)) := by
  have enqueued : ∀ (world : World) (call : ControlCall),
      (world.enqueue call).issued = world.issued ∧
        ((world.enqueue call).coordinator.state = world.coordinator.state ∨
          ∃ own client, record world.coordinator.state own.handle = .ok client ∧
            (world.enqueue call).coordinator.state =
              world.coordinator.state.put own.handle.id (client.accepted own)) := by
    intro world call
    obtain ⟨issued, same | ⟨client, current, changed⟩⟩ := enqueue_state world call
    · exact ⟨issued, .inl same⟩
    · exact ⟨issued, .inr ⟨call, client, current, changed⟩⟩
  cases label with
  | request request => exact absurd rfl (noRequest request)
  | connectOrTakeover id => exact absurd rfl (noConnection id)
  | rebindPromptControl index =>
    obtain ⟨handle, -, rfl⟩ := Option.map_eq_some_iff.mp taken
    exact ⟨rfl, .inl ((rebindPromptControl_frame handle world.coordinator).1)⟩
  | clearAfterShutdown =>
    simp only [step] at taken
    split at taken
    · cases taken
    · cases taken
      exact ⟨rfl, .inl rfl⟩
  | enqueuePromptControl call =>
    have same : world.enqueue call = after := Option.some.inj taken
    rw [← same]
    exact enqueued world call
  | enqueuePromptControlDraft handle operationId draftId kind =>
    simp only [step] at taken
    split at taken <;> cases taken <;> exact ⟨rfl, .inl rfl⟩
  | sendDraft index =>
    obtain ⟨call, -, same⟩ := Option.map_eq_some_iff.mp taken
    rw [← same]
    exact enqueued { world with pendingDrafts := world.pendingDrafts.eraseIdx index } call
  | openChannel =>
    cases taken
    exact ⟨rfl, .inl rfl⟩
  | bindPromptControl owner operationId sender =>
    cases taken
    exact ⟨rfl, .inl rfl⟩
  | clearPromptControl operationId =>
    cases taken
    exact ⟨rfl, .inl ((clearPromptControl_frame operationId world.coordinator).1)⟩
  | receive sender =>
    obtain ⟨channel, -, taken⟩ := Option.bind_eq_some_iff.mp taken
    split at taken
    · cases taken
      exact ⟨rfl, .inl rfl⟩
    · cases taken
  | close sender =>
    obtain ⟨channel, -, rfl⟩ := Option.map_eq_some_iff.mp taken
    exact ⟨rfl, .inl rfl⟩

theorem step_cases (taken : step retainedCapacity label world = some after) :
    (∃ request done, label = .request request ∧
        request.run retainedCapacity world.coordinator.state = some done ∧
        after.coordinator.state = done.2 ∧ after.issued = world.issued) ∨
      (∃ id, label = .connectOrTakeover id ∧
        after.coordinator.state = (connectOrTakeover id world.coordinator.state).2 ∧
        after.issued =
          world.issued ++ (connectOrTakeover id world.coordinator.state).1.toOption.toList) ∨
      (∀ request, label ≠ .request request) ∧ after.issued = world.issued ∧
        (after.coordinator.state = world.coordinator.state ∨
          ∃ call client, record world.coordinator.state call.handle = .ok client ∧
            after.coordinator.state =
              world.coordinator.state.put call.handle.id (client.accepted call)) := by
  cases label with
  | request request =>
    obtain ⟨done, ran, same⟩ := Option.map_eq_some_iff.mp taken
    refine .inl ⟨request, done, rfl, ran, ?_⟩
    rw [← same]
    split <;> exact ⟨rfl, rfl⟩
  | connectOrTakeover id =>
    refine .inr (.inl ⟨id, rfl, ?_⟩)
    simp only [step] at taken
    split at taken
    · rename_i reason state result
      cases taken
      rw [result]
      exact ⟨rfl, (List.append_nil _).symm⟩
    · rename_i handle state result
      cases taken
      rw [result]
      exact ⟨rfl, rfl⟩
  | _ =>
    exact .inr (.inr ⟨fun _ => Label.noConfusion,
      step_other taken (fun _ => Label.noConfusion) (fun _ => Label.noConfusion)⟩)

end PiRust.SnapshotCoordinator
