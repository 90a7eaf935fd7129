import PiRust.EventService
import PiRust.PublicOperation
import Std.Data.TreeMap.Lemmas

/- `snapshot_coordinator.rs`: the client registry under the state lock, each operation
with its result and the state it leaves. -/
namespace PiRust.SnapshotCoordinator

def maxClients : Nat := 64
def maxDrafts : Nat := 64
def maxReceipts : Nat := 64

abbrev ClientConnectionId := String

structure ClientHandle where
  id : ClientConnectionId
  generation : UInt64
deriving DecidableEq

inductive SubmittedEventDurability where
  | durable
  | uncertain
deriving DecidableEq

inductive SubmittedTerminalAnchor where
  | productEvent (sequence : Nat) (durability : SubmittedEventDurability)
  | outcomeOnly (acknowledgement : String)
  | terminalUncertain (operationId : String)
deriving DecidableEq

inductive SubmittedOperationStatus where
  | accepted (operationId : String) (kind : OperationKind) (descriptor : OperationDescriptor)
  | running (operationId : String) (kind : OperationKind) (descriptor : OperationDescriptor)
  | terminal (operationId : String) (kind : OperationKind) (descriptor : OperationDescriptor)
      (anchor : SubmittedTerminalAnchor) (status : ProductEventTerminalStatus) (rootCount : Nat)
deriving DecidableEq

inductive ClientDraftKind where
  | prompt
  | steer
  | followUp
deriving DecidableEq

structure DraftRecord where
  id : String
  kind : ClientDraftKind
  text : String
deriving DecidableEq

inductive ConnectionLifecycle where
  | attached
  | shuttingDown
  | detached
deriving DecidableEq

inductive RuntimeLifecycle where
  | running
  | shuttingDown
  | shutDown
deriving DecidableEq

inductive ClientDetachOutcome where
  | detached
  | alreadyDetached
  | staleGeneration
deriving DecidableEq

inductive CodingAgentLifecycleRejection where
  | detached
  | staleGeneration
  | runtimeShutDown
deriving DecidableEq

inductive ClientRegistryError where
  | lifecycle (reason : CodingAgentLifecycleRejection)
  | clientCapacityExceeded (limit : Nat)
  | queueCapacityExceeded (limit : Nat)
  | invalidInput
  | submittedRegression
  | terminalCardinality (count : Nat)
deriving DecidableEq

/-- `control_receipts` is keyed by operation and control id, with the signature of the
control; `control_receipt_order` has its keys, oldest first. -/
structure ClientRecord where
  generation : UInt64
  connection : ConnectionLifecycle := .attached
  acknowledgedSequence : Nat := 0
  promptDraft : Option DraftRecord := none
  steerDrafts : List DraftRecord := []
  followUpDrafts : List DraftRecord := []
  submittedOperation : Option SubmittedOperationStatus := none
  controlReceipts : Std.TreeMap String String := ∅
  controlReceiptOrder : List String := []

def ClientRecord.moved (client : ClientRecord) (source target : ConnectionLifecycle) :
    ClientRecord :=
  if client.connection = source then { client with connection := target } else client

def ClientRecord.submitted (client : ClientRecord) (status : SubmittedOperationStatus) :
    ClientRecord :=
  { client with submittedOperation := some status }

/-- The fields of `SnapshotState` around the client registry; `events` are those that
the event service works on. -/
structure SnapshotState where
  runtimeLifecycle : RuntimeLifecycle := .running
  lifecycleEpoch : UInt64 := 0
  clients : Std.TreeMap ClientConnectionId ClientRecord := ∅
  events : EventService.SnapshotState CodingAgentEvent := {}

variable (state : SnapshotState)

def SnapshotState.nextEpoch : SnapshotState :=
  { state with lifecycleEpoch := saturatingSucc state.lifecycleEpoch }

def SnapshotState.put (id : ClientConnectionId) (client : ClientRecord) : SnapshotState :=
  { state with clients := state.clients.insert id client }

def SnapshotState.mapClients (change : ClientRecord → ClientRecord) : SnapshotState :=
  { state with clients := state.clients.map fun _ client => change client }

def validateRuntime : Except ClientRegistryError Unit :=
  match state.runtimeLifecycle with
  | .running => .ok ()
  | .shuttingDown | .shutDown => .error (.lifecycle .runtimeShutDown)

def validateTerminalRuntime : Except ClientRegistryError Unit :=
  match state.runtimeLifecycle with
  | .running | .shuttingDown => .ok ()
  | .shutDown => .error (.lifecycle .runtimeShutDown)

/-- The record of a handle that may change it. -/
def record (handle : ClientHandle) :
    Except ClientRegistryError ClientRecord := do
  validateRuntime state
  match state.clients[handle.id]? with
  | none => .error (.lifecycle .staleGeneration)
  | some client =>
    if client.generation ≠ handle.generation then .error (.lifecycle .staleGeneration)
    else
      match client.connection with
      | .attached => .ok client
      | .shuttingDown => .error (.lifecycle .runtimeShutDown)
      | .detached => .error (.lifecycle .detached)

/-- A change through `Self::record(&mut state, handle)?`: the body gets the record and
gives its result and the record it leaves. -/
def onRecord {α : Type} (handle : ClientHandle)
    (body : ClientRecord → Except ClientRegistryError α × ClientRecord) (state : SnapshotState) :
    Except ClientRegistryError α × SnapshotState :=
  match record state handle with
  | .error reason => (.error reason, state)
  | .ok client => ((body client).1, state.put handle.id (body client).2)

def connectOrTakeover (id : ClientConnectionId) (state : SnapshotState) :
    Except ClientRegistryError ClientHandle × SnapshotState :=
  match validateRuntime state with
  | .error reason => (.error reason, state)
  | .ok () =>
    match state.clients[id]? with
    | some client =>
      let generation := client.generation + 1
      (.ok ⟨id, generation⟩,
        (state.put id { client with generation, connection := .attached }).nextEpoch)
    | none =>
      if state.clients.size ≥ maxClients then
        (.error (.clientCapacityExceeded maxClients), state)
      else (.ok ⟨id, 1⟩, state.put id { generation := 1 })

/-- None is the branch that the source marks as unreachable. -/
def detach (handle : ClientHandle) (state : SnapshotState) :
    Option (Except ClientRegistryError ClientDetachOutcome × SnapshotState) :=
  match validateRuntime state with
  | .error reason => some (.error reason, state)
  | .ok () =>
    match state.clients[handle.id]? with
    | none => some (.ok .staleGeneration, state)
    | some client =>
      if client.generation ≠ handle.generation then some (.ok .staleGeneration, state)
      else
        match client.connection with
        | .attached =>
          some (.ok .detached,
            (state.put handle.id { client with connection := .detached }).nextEpoch)
        | .detached => some (.ok .alreadyDetached, state)
        | .shuttingDown => none

/-- The part of `request_shutdown` under the state lock. -/
def requestShutdown : RuntimeLifecycle × SnapshotState :=
  let previous := state.runtimeLifecycle
  if previous ≠ .running then (previous, state)
  else
    let state := { state with runtimeLifecycle := .shuttingDown }
    (previous, (state.mapClients fun client => client.moved .attached .shuttingDown).nextEpoch)

/-- In a build without debug assertions; the lifecycle before is to be `ShuttingDown`. -/
def finishShutdown : SnapshotState :=
  if state.runtimeLifecycle = .shutDown then state
  else
    let state := { state with runtimeLifecycle := .shutDown }
    (state.mapClients fun client => client.moved .shuttingDown .detached).nextEpoch

def ClientRecord.acknowledged (client : ClientRecord) (sequence : Nat) : ClientRecord :=
  if sequence < client.acknowledgedSequence then client
  else
    let client := { client with acknowledgedSequence := sequence }
    match client.submittedOperation with
    | some (.terminal _ _ _ (.productEvent terminalSequence _) _ _) =>
      if terminalSequence ≤ sequence then { client with submittedOperation := none } else client
    | _ => client

def acknowledge (handle : ClientHandle) (sequence : Nat) :
    SnapshotState → Except ClientRegistryError Nat × SnapshotState :=
  onRecord handle fun client =>
    let client := client.acknowledged sequence
    (.ok client.acknowledgedSequence, client)

def acknowledgeOutcome (handle : ClientHandle) (acknowledgement : String) :
    SnapshotState → Except ClientRegistryError Unit × SnapshotState :=
  onRecord handle fun client =>
    match client.submittedOperation with
    | some (.terminal _ _ _ (.outcomeOnly stored) _ _) =>
      if stored = acknowledgement then (.ok (), { client with submittedOperation := none })
      else (.error .invalidInput, client)
    | _ => (.error .invalidInput, client)

def setPromptDraft (handle : ClientHandle) (draft : Option DraftRecord) :
    SnapshotState → Except ClientRegistryError Unit × SnapshotState :=
  onRecord handle fun client => (.ok (), { client with promptDraft := draft })

/-- The queue after a draft: replaced in place, or last; none when it is full. -/
def draftQueue (queue : List DraftRecord) (draft : DraftRecord) : Option (List DraftRecord) :=
  if queue.any fun item => item.id = draft.id then
    some (queue.modify (queue.findIdx fun item => item.id = draft.id) fun _ => draft)
  else if queue.length ≥ maxDrafts then none
  else some (queue ++ [draft])

variable (handle : ClientHandle)

def enqueueDraft (draft : DraftRecord) :
    SnapshotState → Except ClientRegistryError Unit × SnapshotState :=
  onRecord handle fun client =>
    match draft.kind with
    | .steer =>
      match draftQueue client.steerDrafts draft with
      | some queue => (.ok (), { client with steerDrafts := queue })
      | none => (.error (.queueCapacityExceeded maxDrafts), client)
    | .followUp =>
      match draftQueue client.followUpDrafts draft with
      | some queue => (.ok (), { client with followUpDrafts := queue })
      | none => (.error (.queueCapacityExceeded maxDrafts), client)
    | .prompt => (.error .invalidInput, client)

def markSubmitted (operationId : String) (descriptor : OperationDescriptor) :
    SnapshotState → Except ClientRegistryError Unit × SnapshotState :=
  onRecord handle fun client =>
    if client.submittedOperation.isSome then (.error .submittedRegression, client)
    else
      (.ok (), { client with
        submittedOperation := some (.accepted operationId descriptor.submittedKind descriptor)
        promptDraft := if descriptor.submittedKind = .prompt then none else client.promptDraft })

def markRunning (operationId : String) (kind : OperationKind) :
    SnapshotState → Except ClientRegistryError Unit × SnapshotState :=
  onRecord handle fun client =>
    match client.submittedOperation with
    | some (.accepted storedId storedKind descriptor) =>
      if storedId = operationId ∧ storedKind = kind then
        (.ok (), client.submitted (.running operationId kind descriptor))
      else (.error .submittedRegression, client)
    | _ => (.error .submittedRegression, client)

/-- The record of the handle's client whatever the generation and the connection, as
long as the runtime is not shut down. -/
def onTerminalRecord (unknown : ClientRegistryError)
    (body : ClientRecord → Except ClientRegistryError Unit × ClientRecord) (state : SnapshotState) :
    Except ClientRegistryError Unit × SnapshotState :=
  match validateTerminalRuntime state with
  | .error reason => (.error reason, state)
  | .ok () =>
    match state.clients[handle.id]? with
    | none => (.error unknown, state)
    | some client => ((body client).1, state.put handle.id (body client).2)

def markTerminal (operationId : String) (kind : OperationKind) (descriptor : OperationDescriptor)
    (anchor : SubmittedTerminalAnchor) (status : ProductEventTerminalStatus) :
    SnapshotState → Except ClientRegistryError Unit × SnapshotState :=
  onTerminalRecord handle (.lifecycle .staleGeneration) fun client =>
    match client.submittedOperation with
    | some (.accepted storedId storedKind _) | some (.running storedId storedKind _) =>
      if storedId = operationId ∧ storedKind = kind then
        (.ok (), client.submitted (.terminal operationId kind descriptor anchor status 0))
      else (.error .submittedRegression, client)
    | _ => (.error .submittedRegression, client)

def finalizeTerminalAssociation (operationId : String) (descriptor : OperationDescriptor)
    (fallbackStatus : ProductEventTerminalStatus) :
    SnapshotState → Except ClientRegistryError Unit × SnapshotState :=
  onTerminalRecord handle .submittedRegression fun client =>
    match client.submittedOperation with
    | some (.terminal storedId _ storedDescriptor _ _ rootCount) =>
      if storedId = operationId ∧ storedDescriptor = descriptor then
        if rootCount = 1 then (.ok (), client)
        else (.error (.terminalCardinality rootCount), client)
      else (.error .submittedRegression, client)
    | some (.accepted storedId _ storedDescriptor) | some (.running storedId _ storedDescriptor) =>
      if storedId = operationId ∧ storedDescriptor = descriptor then
        (.ok (), client.submitted (.terminal operationId descriptor.submittedKind descriptor
          (.terminalUncertain operationId) fallbackStatus 0))
      else (.error .submittedRegression, client)
    | none => (.error .submittedRegression, client)

def SubmittedOperationStatus.operationId : SubmittedOperationStatus → String
  | .accepted id _ _ | .running id _ _ | .terminal id _ _ _ _ _ => id

def SubmittedOperationStatus.descriptor : SubmittedOperationStatus → OperationDescriptor
  | .accepted _ _ descriptor | .running _ _ descriptor | .terminal _ _ descriptor _ _ _ =>
    descriptor

/-- The body of the loop of `observe_root_terminal_in_state` for one record. -/
def observeRecord (source : CodingAgentEvent) (operationId : String)
    (status : ProductEventTerminalStatus) (sequence : Nat) (client : ClientRecord) : ClientRecord :=
  match client.submittedOperation with
  | none => client
  | some stored =>
    if stored.operationId ≠ operationId then client
    else
      match source.rootEvidence stored.descriptor.submittedKind with
      | none => client
      | some evidence =>
        if evidence ∉ stored.descriptor.permittedRootEvidence then client
        else
          match stored with
          | .terminal id kind descriptor anchor terminalStatus rootCount =>
            client.submitted
              (.terminal id kind descriptor anchor terminalStatus (min (rootCount + 1) 255))
          | .accepted _ _ descriptor | .running _ _ descriptor =>
            let durability :=
              match source with
              | .promptFailed _ .partialCommit => SubmittedEventDurability.uncertain
              | _ => .durable
            client.submitted (.terminal operationId descriptor.submittedKind descriptor
              (.productEvent sequence durability) status 1)

def observeRootTerminalInState (source : CodingAgentEvent) (sequence : Nat) : SnapshotState :=
  match source.operationId, source.terminalStatus with
  | some operationId, some status =>
    state.mapClients (observeRecord source operationId status sequence)
  | _, _ => state

/-- `EventService::emit` under the state lock. -/
def emit (retainedCapacity : Nat) (event : CodingAgentEvent) (state : SnapshotState) :
    EventService.ProductEvent CodingAgentEvent × SnapshotState :=
  let locked := EventService.emitLocked retainedCapacity event state.events
  (locked.1, { observeRootTerminalInState state event locked.1.sequence with events := locked.2 })

@[simp] theorem clients_nextEpoch : state.nextEpoch.clients = state.clients := rfl

@[simp] theorem runtimeLifecycle_nextEpoch :
    state.nextEpoch.runtimeLifecycle = state.runtimeLifecycle := rfl

@[simp] theorem events_nextEpoch : state.nextEpoch.events = state.events := rfl

@[simp] theorem runtimeLifecycle_put (id : ClientConnectionId) (client : ClientRecord) :
    (state.put id client).runtimeLifecycle = state.runtimeLifecycle := rfl

@[simp] theorem events_put (id : ClientConnectionId) (client : ClientRecord) :
    (state.put id client).events = state.events := rfl

variable (change : ClientRecord → ClientRecord)

@[simp] theorem runtimeLifecycle_mapClients :
    (state.mapClients change).runtimeLifecycle = state.runtimeLifecycle := rfl

@[simp] theorem events_mapClients : (state.mapClients change).events = state.events := rfl

variable {α : Type}

theorem getElem?_insert (map : Std.TreeMap String α) (key other : String) (value : α) :
    (map.insert key value)[other]? = if key = other then some value else map[other]? := by
  rw [Std.TreeMap.getElem?_insert]
  by_cases same : key = other
  · rw [if_pos same, if_pos (Std.LawfulEqCmp.compare_eq_iff_eq.mpr same)]
  · rw [if_neg same, if_neg fun equal => same (Std.LawfulEqCmp.compare_eq_iff_eq.mp equal)]

theorem clients_put (id other : ClientConnectionId) (client : ClientRecord) :
    (state.put id client).clients[other]? =
      if id = other then some client else state.clients[other]? :=
  getElem?_insert state.clients id other client

theorem clients_mapClients (id : ClientConnectionId) :
    (state.mapClients change).clients[id]? = (state.clients[id]?).map change :=
  Std.TreeMap.getElem?_map

variable {state : SnapshotState} {handle : ClientHandle}

theorem record_eq_ok_iff {client : ClientRecord} :
    record state handle = .ok client ↔
      state.runtimeLifecycle = .running ∧ state.clients[handle.id]? = some client ∧
        client.generation = handle.generation ∧ client.connection = .attached := by
  unfold record validateRuntime
  cases lifecycle : state.runtimeLifecycle with
  | running =>
    cases found : state.clients[handle.id]? with
    | none => simp [bind, Except.bind]
    | some stored =>
      by_cases current : stored.generation = handle.generation
      · cases connection : stored.connection <;> simp [bind, Except.bind, current, connection]
        · intro same
          rw [← same]
          exact ⟨current, connection⟩
        · rintro rfl
          simp [connection]
        · rintro rfl
          simp [connection]
      · simp only [bind, Except.bind, ne_eq, current, not_false_eq_true, if_true, reduceCtorEq,
          Option.some.injEq, true_and, false_iff, not_and]
        rintro rfl same
        exact absurd same current
  | shuttingDown => simp [bind, Except.bind]
  | shutDown => simp [bind, Except.bind]

theorem onRecord_ok {body : ClientRecord → Except ClientRegistryError α × ClientRecord}
    {client : ClientRecord} (found : record state handle = .ok client) :
    onRecord handle body state = ((body client).1, state.put handle.id (body client).2) := by
  simp [onRecord, found]

theorem onRecord_error
    {body : ClientRecord → Except ClientRegistryError α × ClientRecord}
    {reason : ClientRegistryError} (rejected : record state handle = .error reason) :
    onRecord handle body state = (.error reason, state) := by
  simp [onRecord, rejected]

def AllRecords (P : ClientConnectionId → ClientRecord → Prop) (state : SnapshotState) : Prop :=
  ∀ id client, state.clients[id]? = some client → P id client

section AllRecords

variable {P : ClientConnectionId → ClientRecord → Prop} {state : SnapshotState}

variable (all : AllRecords P state)
include all

theorem AllRecords.put {id : ClientConnectionId} {client : ClientRecord} (new : P id client) :
    AllRecords P (state.put id client) := by
  intro other stored found
  rw [clients_put] at found
  by_cases same : id = other
  · rw [if_pos same, Option.some.injEq] at found
    rw [← same, ← found]
    exact new
  · rw [if_neg same] at found
    exact all other stored found

theorem AllRecords.mapClients {change : ClientRecord → ClientRecord}
    (keeps : ∀ id client, P id client → P id (change client)) :
    AllRecords P (state.mapClients change) := by
  intro id stored found
  rw [clients_mapClients] at found
  obtain ⟨client, before, rfl⟩ := Option.map_eq_some_iff.mp found
  exact keeps id client (all id client before)

theorem AllRecords.onRecord {α : Type}
    {body : ClientRecord → Except ClientRegistryError α × ClientRecord}
    (keeps : ∀ client, P handle.id client → P handle.id (body client).2) :
    AllRecords P (onRecord handle body state).2 := by
  cases found : record state handle with
  | error reason =>
    rw [onRecord_error found]
    exact all
  | ok client =>
    rw [onRecord_ok found]
    obtain ⟨-, stored, -, -⟩ := record_eq_ok_iff.mp found
    exact all.put (keeps client (all handle.id client stored))

theorem AllRecords.onTerminalRecord {unknown : ClientRegistryError}
    {body : ClientRecord → Except ClientRegistryError Unit × ClientRecord}
    (keeps : ∀ client, P handle.id client → P handle.id (body client).2) :
    AllRecords P (onTerminalRecord handle unknown body state).2 := by
  simp only [SnapshotCoordinator.onTerminalRecord]
  split
  · exact all
  · split
    · exact all
    · rename_i client stored
      exact all.put (keeps client (all handle.id client stored))

end AllRecords

/-- A field of a client's record, `absent` for a client that never connected. -/
def fieldOf {α : Type} (field : ClientRecord → α) (absent : α) (state : SnapshotState)
    (id : ClientConnectionId) : α :=
  ((state.clients[id]?).map field).getD absent

section fieldOf

variable {α : Type} {field : ClientRecord → α} {absent : α} {state : SnapshotState}
variable {id : ClientConnectionId} {client : ClientRecord}

theorem fieldOf_of_found (found : state.clients[id]? = some client) :
    fieldOf field absent state id = field client := by
  rw [fieldOf, found, Option.map_some, Option.getD_some]

theorem fieldOf_put (id other : ClientConnectionId) (client : ClientRecord) :
    fieldOf field absent (state.put id client) other =
      if id = other then field client else fieldOf field absent state other := by
  unfold fieldOf
  rw [clients_put]
  by_cases same : id = other
  · rw [if_pos same, if_pos same, Option.map_some, Option.getD_some]
  · rw [if_neg same, if_neg same]

theorem fieldOf_put_same {before : ClientRecord} (found : state.clients[id]? = some before)
    (same : field client = field before) :
    fieldOf field absent (state.put id client) = fieldOf field absent state := by
  funext other
  rw [fieldOf_put]
  by_cases here : id = other
  · rw [if_pos here, ← here, fieldOf_of_found found, same]
  · rw [if_neg here]

theorem fieldOf_mapClients {change : ClientRecord → ClientRecord}
    (same : ∀ client, field (change client) = field client) :
    fieldOf field absent (state.mapClients change) = fieldOf field absent state := by
  funext id
  unfold fieldOf
  rw [clients_mapClients, Option.map_map]
  have composed : field ∘ change = field := funext same
  rw [composed]

theorem fieldOf_onRecord {β : Type}
    {body : ClientRecord → Except ClientRegistryError β × ClientRecord}
    (same : ∀ client, field (body client).2 = field client) :
    fieldOf field absent (onRecord handle body state).2 = fieldOf field absent state := by
  cases found : record state handle with
  | error reason => rw [onRecord_error found]
  | ok client =>
    rw [onRecord_ok found]
    obtain ⟨-, stored, -, -⟩ := record_eq_ok_iff.mp found
    exact fieldOf_put_same stored (same client)

theorem fieldOf_onTerminalRecord {unknown : ClientRegistryError}
    {body : ClientRecord → Except ClientRegistryError Unit × ClientRecord}
    (same : ∀ client, field (body client).2 = field client) :
    fieldOf field absent (onTerminalRecord handle unknown body state).2 =
      fieldOf field absent state := by
  simp only [onTerminalRecord]
  split
  · rfl
  · split
    · rfl
    · rename_i client stored
      exact fieldOf_put_same stored (same client)

end fieldOf

@[simp] theorem runtimeLifecycle_onRecord (handle : ClientHandle)
    (body : ClientRecord → Except ClientRegistryError α × ClientRecord) (state : SnapshotState) :
    (onRecord handle body state).2.runtimeLifecycle = state.runtimeLifecycle := by
  cases found : record state handle with
  | error reason => rw [onRecord_error found]
  | ok client => rw [onRecord_ok found, runtimeLifecycle_put]

@[simp] theorem events_onRecord (handle : ClientHandle)
    (body : ClientRecord → Except ClientRegistryError α × ClientRecord) (state : SnapshotState) :
    (onRecord handle body state).2.events = state.events := by
  cases found : record state handle with
  | error reason => rw [onRecord_error found]
  | ok client => rw [onRecord_ok found, events_put]

theorem onTerminalRecord_frame (handle : ClientHandle) (unknown : ClientRegistryError)
    (body : ClientRecord → Except ClientRegistryError Unit × ClientRecord)
    (state : SnapshotState) :
    (onTerminalRecord handle unknown body state).2.runtimeLifecycle = state.runtimeLifecycle ∧
      (onTerminalRecord handle unknown body state).2.events = state.events := by
  simp only [onTerminalRecord]
  split
  · exact ⟨rfl, rfl⟩
  · split
    · exact ⟨rfl, rfl⟩
    · exact ⟨rfl, rfl⟩

end PiRust.SnapshotCoordinator
