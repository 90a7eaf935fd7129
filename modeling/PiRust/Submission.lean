import PiRust.ClientLifecycle
import PiRust.ReconnectCursor
import Mathlib.Order.Lattice

/- A client's submitted operation: the runtime's own steps on the slot, and the
acknowledgements that clear it. -/
namespace PiRust.SnapshotCoordinator

open List

variable {handle : ClientHandle} {after before client : ClientRecord} {event : CodingAgentEvent}
  {last retainedCapacity rootCount : Nat} {descriptor : OperationDescriptor} {kind : OperationKind}
  {status : ProductEventTerminalStatus} {state : SnapshotState} {operationId : String}
  {anchor : SubmittedTerminalAnchor}

theorem record_put (found : record state handle = .ok before) (link : after.link = before.link) :
    record (state.put handle.id after) handle = .ok after := by
  obtain ⟨running, -, generation, connection⟩ := record_eq_ok_iff.mp found
  simp only [ClientRecord.link, Prod.mk.injEq] at link
  refine record_eq_ok_iff.mpr ⟨running, ?_, ?_, ?_⟩
  · rw [clients_put, if_pos rfl]
  · rw [link.1, generation]
  · rw [link.2.1, connection]

theorem acknowledge_ok (found : record state handle = .ok client) (sequence : Nat) :
    acknowledge handle sequence state =
      (.ok (client.acknowledged sequence).acknowledgedSequence,
        state.put handle.id (client.acknowledged sequence)) := by
  unfold acknowledge
  rw [onRecord_ok found]

def acknowledgeAll (handle : ClientHandle) (sequences : List Nat) (state : SnapshotState) :
    SnapshotState :=
  sequences.foldl (fun state sequence => (acknowledge handle sequence state).2) state

theorem acknowledgeAll_record (found : record state handle = .ok client) (sequences : List Nat) :
    record (acknowledgeAll handle sequences state) handle =
        .ok (sequences.foldl ClientRecord.acknowledged client) ∧
      (acknowledgeAll handle sequences state).events = state.events := by
  unfold acknowledgeAll
  induction sequences generalizing state client with
  | nil => exact ⟨found, rfl⟩
  | cons sequence rest ih =>
    have next : record (state.put handle.id (client.acknowledged sequence)) handle =
        .ok (client.acknowledged sequence) := record_put found (acknowledged_link client sequence)
    have same : (acknowledge handle sequence state).2 =
        state.put handle.id (client.acknowledged sequence) := by rw [acknowledge_ok found]
    rw [foldl_cons, foldl_cons, same]
    exact ih next

theorem acknowledged_open (sequence : Nat)
    (open_ : ∀ id kind descriptor anchor status rootCount,
      client.submittedOperation ≠ some (.terminal id kind descriptor anchor status rootCount)) :
    (client.acknowledged sequence).submittedOperation = client.submittedOperation := by
  unfold ClientRecord.acknowledged
  split
  · rfl
  · dsimp only
    split
    · rename_i slot
      exact absurd slot (open_ _ _ _ _ _ _)
    · rfl

theorem acknowledged_cursor (client : ClientRecord) (sequence : Nat) :
    (client.acknowledged sequence).acknowledgedSequence =
      max client.acknowledgedSequence sequence := by
  unfold ClientRecord.acknowledged
  by_cases early : sequence < client.acknowledgedSequence
  · rw [if_pos early]
    omega
  · have raised : max client.acknowledgedSequence sequence = sequence := by omega
    rw [if_neg early, raised]
    dsimp only
    split
    · split <;> rfl
    · rfl

theorem foldl_acknowledged_cursor (sequences : List Nat) (client : ClientRecord) :
    (sequences.foldl ClientRecord.acknowledged client).acknowledgedSequence =
      sequences.foldl max client.acknowledgedSequence := by
  induction sequences generalizing client with
  | nil => rfl
  | cons sequence rest ih => rw [foldl_cons, foldl_cons, ih, acknowledged_cursor]

theorem foldl_acknowledged_open (sequences : List Nat)
    (open_ : ∀ id kind descriptor anchor status rootCount,
      client.submittedOperation ≠ some (.terminal id kind descriptor anchor status rootCount)) :
    (sequences.foldl ClientRecord.acknowledged client).submittedOperation =
      client.submittedOperation := by
  induction sequences generalizing client with
  | nil => rfl
  | cons sequence rest ih =>
    have same := acknowledged_open sequence open_
    rw [foldl_cons, ih (by rw [same]; exact open_), same]

theorem foldl_acknowledged_terminal (sequences : List Nat) {id : String} {terminal : Nat}
    {durability : SubmittedEventDurability}
    (slot : client.submittedOperation =
      some (.terminal id kind descriptor (.productEvent terminal durability) status rootCount)) :
    (sequences.foldl ClientRecord.acknowledged client).submittedOperation =
      if ∃ sequence ∈ sequences, terminal ≤ sequence ∧ client.acknowledgedSequence ≤ sequence then
        none
      else client.submittedOperation := by
  induction sequences generalizing client with
  | nil => simp
  | cons sequence rest ih =>
    rw [foldl_cons]
    by_cases clears : terminal ≤ sequence ∧ client.acknowledgedSequence ≤ sequence
    · have gone : (client.acknowledged sequence).submittedOperation = none := by
        have late : ¬ sequence < client.acknowledgedSequence := by omega
        simp [ClientRecord.acknowledged, if_neg late, slot, if_pos clears.1]
      have found : ∃ other ∈ sequence :: rest,
          terminal ≤ other ∧ client.acknowledgedSequence ≤ other :=
        ⟨sequence, .head _, clears⟩
      rw [foldl_acknowledged_open rest (by rw [gone]; intros; simp), gone, if_pos found]
    · have kept : (client.acknowledged sequence).submittedOperation =
          client.submittedOperation := by
        unfold ClientRecord.acknowledged
        by_cases early : sequence < client.acknowledgedSequence
        · rw [if_pos early]
        · have short : ¬ terminal ≤ sequence := by omega
          simp [if_neg early, slot, if_neg short]
      rw [ih (kept.trans slot), kept, acknowledged_cursor]
      have same : (∃ other ∈ rest,
          terminal ≤ other ∧ max client.acknowledgedSequence sequence ≤ other) ↔
          ∃ other ∈ sequence :: rest, terminal ≤ other ∧ client.acknowledgedSequence ≤ other := by
        constructor
        · rintro ⟨other, inside, reaches, late⟩
          exact ⟨other, .tail _ inside, reaches, by omega⟩
        · rintro ⟨other, inside, reaches, late⟩
          rcases mem_cons.mp inside with rfl | later
          · exact absurd ⟨reaches, late⟩ clears
          · exact ⟨other, later, reaches, by omega⟩
      simp only [same]

theorem emit_ok (retainedCapacity : Nat) (found : record state handle = .ok client)
    (operation : event.operationId = some operationId)
    (terminal : event.terminalStatus = some status) :
    record (emit retainedCapacity event state).2 handle =
      .ok (observeRecord event operationId status state.events.nextEventSequence client) := by
  obtain ⟨running, stored, generation, connection⟩ := record_eq_ok_iff.mp found
  have link := observeRecord_link event operationId status state.events.nextEventSequence client
  simp only [ClientRecord.link, Prod.mk.injEq] at link
  refine record_eq_ok_iff.mpr ⟨?_, ?_, ?_, ?_⟩
  · rw [emit_lifecycle, running]
  · simp only [emit, observeRootTerminalInState, operation, terminal]
    show (state.mapClients _).clients[handle.id]? = _
    rw [clients_mapClients, stored]
    rfl
  · rw [link.1, generation]
  · rw [link.2.1, connection]

theorem observeRecord_running (root : event.RootTerminal operationId descriptor)
    (slot : client.submittedOperation = some (.running operationId kind descriptor))
    (status : ProductEventTerminalStatus) (sequence : Nat) :
    ∃ durability, observeRecord event operationId status sequence client =
      client.submitted (.terminal operationId descriptor.submittedKind descriptor
        (.productEvent sequence durability) status 1) := by
  obtain ⟨-, evidence, accepted, permitted⟩ := root
  simp only [observeRecord, slot, SubmittedOperationStatus.operationId,
    SubmittedOperationStatus.descriptor, ne_eq, not_true_eq_false, if_false, accepted,
    permitted]
  exact ⟨_, rfl⟩

/-- The steps of one submission up to its root terminal event, with the client's
acknowledgements before the second and the third. -/
def reported (retainedCapacity : Nat) (handle : ClientHandle) (operationId : String)
    (descriptor : OperationDescriptor) (event : CodingAgentEvent) (accepted running : List Nat)
    (state : SnapshotState) : SnapshotState :=
  let state := (markSubmitted handle operationId descriptor state).2
  let state := acknowledgeAll handle accepted state
  let state := (markRunning handle operationId descriptor.submittedKind state).2
  let state := acknowledgeAll handle running state
  (emit retainedCapacity event state).2

/-- What the last step returns, after the acknowledgements before it. -/
def submission (retainedCapacity : Nat) (handle : ClientHandle) (operationId : String)
    (descriptor : OperationDescriptor) (event : CodingAgentEvent)
    (status : ProductEventTerminalStatus) (accepted running terminal : List Nat)
    (state : SnapshotState) : Except ClientRegistryError Unit :=
  let state := reported retainedCapacity handle operationId descriptor event accepted running state
  (finalizeTerminalAssociation handle operationId descriptor status
    (acknowledgeAll handle terminal state)).1

theorem markSubmitted_ok
    (admitted : (markSubmitted handle operationId descriptor state).1 = .ok ()) :
    ∃ client, record state handle = .ok client ∧ client.submittedOperation = none := by
  unfold markSubmitted at admitted
  cases found : record state handle with
  | error reason =>
    rw [onRecord_error found] at admitted
    cases admitted
  | ok client =>
    rw [onRecord_ok found] at admitted
    cases slot : client.submittedOperation with
    | none => exact ⟨client, rfl, slot⟩
    | some stored => simp [slot] at admitted

theorem markSubmitted_record (found : record state handle = .ok client)
    (free : client.submittedOperation = none) (operationId : String)
    (descriptor : OperationDescriptor) :
    ∃ submitted, record (markSubmitted handle operationId descriptor state).2 handle =
        .ok submitted ∧
      submitted.submittedOperation =
        some (.accepted operationId descriptor.submittedKind descriptor) ∧
      submitted.acknowledgedSequence = client.acknowledgedSequence ∧
      (markSubmitted handle operationId descriptor state).1 = .ok () ∧
      (markSubmitted handle operationId descriptor state).2.events = state.events := by
  unfold markSubmitted
  rw [onRecord_ok found]
  simp only [free, Option.isSome_none, Bool.false_eq_true, if_false]
  exact ⟨_, record_put found rfl, rfl, rfl, trivial, rfl⟩

theorem markRunning_record (found : record state handle = .ok client)
    (slot : client.submittedOperation = some (.accepted operationId kind descriptor)) :
    record (markRunning handle operationId kind state).2 handle =
        .ok (client.submitted (.running operationId kind descriptor)) ∧
      (markRunning handle operationId kind state).2.events = state.events := by
  unfold markRunning
  rw [onRecord_ok found]
  simp only [slot, and_self, if_true]
  exact ⟨record_put found rfl, rfl⟩

theorem finalize_cleared (found : record state handle = .ok client)
    (cleared : client.submittedOperation = none) (operationId : String)
    (descriptor : OperationDescriptor) (status : ProductEventTerminalStatus) :
    (finalizeTerminalAssociation handle operationId descriptor status state).1 =
      .error .submittedRegression := by
  obtain ⟨running, stored, -, -⟩ := record_eq_ok_iff.mp found
  simp [finalizeTerminalAssociation, onTerminalRecord, validateTerminalRuntime, running, stored,
    cleared]

theorem finalize_reported {reported : ProductEventTerminalStatus}
    (found : record state handle = .ok client)
    (slot : client.submittedOperation =
      some (.terminal operationId kind descriptor anchor reported 1))
    (status : ProductEventTerminalStatus) :
    (finalizeTerminalAssociation handle operationId descriptor status state).1 = .ok () := by
  obtain ⟨running, stored, -, -⟩ := record_eq_ok_iff.mp found
  simp [finalizeTerminalAssociation, onTerminalRecord, validateTerminalRuntime, running, stored,
    slot]

theorem reported_record (retainedCapacity : Nat) (accepted running : List Nat)
    (root : event.RootTerminal operationId descriptor) (found : record state handle = .ok client)
    (free : client.submittedOperation = none) :
    ∃ ended durability outcome,
      record (reported retainedCapacity handle operationId descriptor event accepted running
        state) handle = .ok ended ∧
      ended.submittedOperation = some (.terminal operationId descriptor.submittedKind descriptor
        (.productEvent state.events.nextEventSequence durability) outcome 1) ∧
      ended.acknowledgedSequence = (accepted ++ running).foldl max client.acknowledgedSequence := by
  obtain ⟨submitted, submittedFound, submittedSlot, cursor, -, submittedEvents⟩ :=
    markSubmitted_record found free operationId descriptor
  obtain ⟨acceptedFound, acceptedEvents⟩ := acknowledgeAll_record submittedFound accepted
  have acceptedSlot : (accepted.foldl ClientRecord.acknowledged submitted).submittedOperation =
      some (.accepted operationId descriptor.submittedKind descriptor) := by
    rw [foldl_acknowledged_open accepted (by rw [submittedSlot]; intros; simp), submittedSlot]
  obtain ⟨startedFound, startedEvents⟩ := markRunning_record acceptedFound acceptedSlot
  obtain ⟨runningFound, runningEvents⟩ := acknowledgeAll_record startedFound running
  have runningSlot : (running.foldl ClientRecord.acknowledged
      ((accepted.foldl ClientRecord.acknowledged submitted).submitted
        (.running operationId descriptor.submittedKind descriptor))).submittedOperation =
      some (.running operationId descriptor.submittedKind descriptor) :=
    foldl_acknowledged_open running (by intros; simp [ClientRecord.submitted])
  have events := runningEvents.trans (startedEvents.trans (acceptedEvents.trans submittedEvents))
  obtain ⟨outcome, terminalStatus⟩ : ∃ outcome, event.terminalStatus = some outcome := by
    obtain ⟨-, evidence, rootEvidence, -⟩ := root
    exact CodingAgentEvent.terminalStatus_of_rootEvidence rootEvidence
  have emitted := emit_ok retainedCapacity runningFound root.1 terminalStatus
  obtain ⟨durability, observed⟩ := observeRecord_running root runningSlot outcome
    state.events.nextEventSequence
  rw [events, observed] at emitted
  refine ⟨_, durability, outcome, emitted, rfl, ?_⟩
  show (running.foldl ClientRecord.acknowledged _).acknowledgedSequence = _
  rw [foldl_acknowledged_cursor, foldl_append, ← cursor]
  exact congrArg (running.foldl max) (foldl_acknowledged_cursor accepted submitted)

/-- Finalization succeeds exactly when no acknowledgement between the terminal event and
it reaches both the event and the client's cursor. -/
theorem submission_ok_iff (retainedCapacity : Nat) {handle : ClientHandle} {operationId : String}
    {descriptor : OperationDescriptor} {event : CodingAgentEvent}
    (status : ProductEventTerminalStatus) (accepted running terminal : List Nat)
    {state : SnapshotState} (root : event.RootTerminal operationId descriptor)
    (admitted : (markSubmitted handle operationId descriptor state).1 = .ok ()) :
    submission retainedCapacity handle operationId descriptor event status accepted running
        terminal state = .ok () ↔
      ∀ sequence ∈ terminal, sequence < state.events.nextEventSequence ∨
        sequence < (accepted ++ running).foldl max
          (fieldOf ClientRecord.acknowledgedSequence 0 state handle.id) := by
  obtain ⟨client, found, free⟩ := markSubmitted_ok admitted
  obtain ⟨-, stored, -, -⟩ := record_eq_ok_iff.mp found
  obtain ⟨ended, durability, outcome, endedFound, slot, cursor⟩ :=
    reported_record retainedCapacity accepted running root found free
  obtain ⟨lastFound, -⟩ := acknowledgeAll_record endedFound terminal
  have left := foldl_acknowledged_terminal terminal slot
  rw [fieldOf_of_found stored, ← cursor]
  by_cases clears : ∃ sequence ∈ terminal,
      state.events.nextEventSequence ≤ sequence ∧ ended.acknowledgedSequence ≤ sequence
  · rw [if_pos clears] at left
    have failed := finalize_cleared lastFound left operationId descriptor status
    obtain ⟨sequence, inside, reaches, late⟩ := clears
    constructor
    · intro finished
      rw [submission, failed] at finished
      cases finished
    · intro before
      rcases before sequence inside with early | early
      · omega
      · omega
  · rw [if_neg clears, slot] at left
    refine ⟨fun _ sequence inside => ?_, fun _ => finalize_reported lastFound left status⟩
    by_cases reaches : state.events.nextEventSequence ≤ sequence
    · have early : ¬ ended.acknowledgedSequence ≤ sequence := fun late =>
        clears ⟨sequence, inside, reaches, late⟩
      omega
    · omega

def connectedState : SnapshotState := (connectOrTakeover "tui" {}).2

/-- A prompt that is acknowledged while it runs, but not after its terminal event. -/
theorem submission_ok_early :
    submission 128 ⟨"tui", 1⟩ "op_1" CodingAgentOperation.prompt.descriptor
      (.promptCompleted "op_1") .completed [] [0] [0] connectedState = .ok () := by
  have root : (CodingAgentEvent.promptCompleted "op_1").RootTerminal "op_1"
      CodingAgentOperation.prompt.descriptor := ⟨rfl, .promptCompleted, rfl, by decide⟩
  exact (submission_ok_iff 128 .completed [] [0] [0] root rfl).mpr (by decide)

/-- The client acknowledges the terminal event of its completed prompt before the
finalization, which then fails. -/
theorem acknowledged_submission_fails :
    submission 128 ⟨"tui", 1⟩ "op_1" CodingAgentOperation.prompt.descriptor
      (.promptCompleted "op_1") .completed [] [] [1] connectedState =
        .error .submittedRegression := by
  decide

def published (state : SnapshotState) : Nat :=
  EventService.currentProductSequence state.events

def Free (handle : ClientHandle) (state : SnapshotState) : Prop :=
  ∀ operationId descriptor, (markSubmitted handle operationId descriptor state).1 = .ok ()

/-- One acknowledgement that is open to the client frees it: of a published sequence, or
of the outcome of its operation. -/
def Available (handle : ClientHandle) (operationId : String) (state : SnapshotState) : Prop :=
  (∃ sequence cursor after, sequence ≤ published state ∧
      acknowledge handle sequence state = (.ok cursor, after) ∧ Free handle after) ∨
    ∃ after, acknowledgeOutcome handle ("outcome:" ++ operationId) state = (.ok (), after) ∧
      Free handle after

def Clearable (operationId : String) (cursor last : Nat) : SubmittedTerminalAnchor → Prop
  | .productEvent sequence _ => sequence ≤ last ∧ cursor ≤ last
  | .outcomeOnly acknowledgement => acknowledgement = "outcome:" ++ operationId
  | .terminalUncertain _ => False

theorem free_iff (found : record state handle = .ok client) :
    Free handle state ↔ client.submittedOperation = none := by
  constructor
  · intro free
    obtain ⟨other, same, none_⟩ :=
      markSubmitted_ok (free "" CodingAgentOperation.prompt.descriptor)
    rw [found] at same
    cases same
    exact none_
  · intro none_ operationId descriptor
    obtain ⟨-, -, -, -, accepted, -⟩ := markSubmitted_record found none_ operationId descriptor
    exact accepted

theorem acknowledgeOutcome_frees (found : record state handle = .ok client)
    (slot : client.submittedOperation =
      some (.terminal operationId kind descriptor anchor status rootCount))
    (acknowledgement : String) :
    (∃ after, acknowledgeOutcome handle acknowledgement state = (.ok (), after) ∧
        Free handle after) ↔ anchor = .outcomeOnly acknowledgement := by
  unfold acknowledgeOutcome
  rw [onRecord_ok found]
  constructor
  · rintro ⟨after, accepted, -⟩
    cases anchor with
    | outcomeOnly stored =>
      by_cases same : stored = acknowledgement
      · rw [same]
      · simp [slot, same] at accepted
    | productEvent sequence durability => simp [slot] at accepted
    | terminalUncertain id => simp [slot] at accepted
  · rintro rfl
    have next : record (state.put handle.id { client with submittedOperation := none }) handle =
        .ok { client with submittedOperation := none } := record_put found rfl
    simp only [slot, if_true]
    exact ⟨_, rfl, (free_iff next).mpr rfl⟩

theorem acknowledged_none_iff
    (slot : client.submittedOperation =
      some (.terminal operationId kind descriptor anchor status rootCount)) (sequence : Nat) :
    (client.acknowledged sequence).submittedOperation = none ↔
      ∃ terminal durability, anchor = .productEvent terminal durability ∧ terminal ≤ sequence ∧
        client.acknowledgedSequence ≤ sequence := by
  have kept : client.submittedOperation ≠ none := by simp [slot]
  unfold ClientRecord.acknowledged
  by_cases early : sequence < client.acknowledgedSequence
  · rw [if_pos early]
    constructor
    · exact fun none_ => absurd none_ kept
    · rintro ⟨-, -, -, -, late⟩
      omega
  · rw [if_neg early]
    cases anchor with
    | productEvent terminal durability =>
      by_cases reaches : terminal ≤ sequence
      · simp [slot, reaches]
        omega
      · simp [slot, reaches]
    | outcomeOnly acknowledgement => simp [slot]
    | terminalUncertain id => simp [slot]

theorem available_iff (found : record state handle = .ok client)
    (slot : client.submittedOperation =
      some (.terminal operationId kind descriptor anchor status rootCount)) :
    Available handle operationId state ↔
      Clearable operationId client.acknowledgedSequence (published state) anchor := by
  unfold Available
  rw [acknowledgeOutcome_frees found slot]
  have frees : ∀ sequence, (∃ cursor after,
      acknowledge handle sequence state = (.ok cursor, after) ∧ Free handle after) ↔
        (client.acknowledged sequence).submittedOperation = none := by
    intro sequence
    rw [acknowledge_ok found]
    have next := record_put found (acknowledged_link client sequence)
    constructor
    · rintro ⟨cursor, after, same, free⟩
      rw [Prod.mk.injEq] at same
      rw [← same.2] at free
      exact (free_iff next).mp free
    · exact fun none_ => ⟨_, _, rfl, (free_iff next).mpr none_⟩
  constructor
  · rintro (⟨sequence, cursor, after, bounded, accepted, free⟩ | same)
    · have none_ := (frees sequence).mp ⟨cursor, after, accepted, free⟩
      obtain ⟨terminal, durability, rfl, reaches, late⟩ :=
        (acknowledged_none_iff slot sequence).mp none_
      show terminal ≤ published state ∧ client.acknowledgedSequence ≤ published state
      omega
    · rw [same]
      rfl
  · intro clearable
    cases anchor with
    | productEvent terminal durability =>
      have none_ := (acknowledged_none_iff slot (published state)).mpr
        ⟨terminal, durability, rfl, clearable.1, clearable.2⟩
      obtain ⟨cursor, after, accepted, free⟩ := (frees _).mpr none_
      exact .inl ⟨_, cursor, after, Nat.le_refl _, accepted, free⟩
    | outcomeOnly acknowledgement => exact .inr (congrArg _ clearable)
    | terminalUncertain id => exact clearable.elim

/-- The calls as the program makes them: `shutdown` asks before it finishes, and
`SubmissionCommitGuard::finish` marks the outcomes that have no event. -/
def AsCalled : Label → World → Prop
  | .request .finishShutdown, world => world.coordinator.state.runtimeLifecycle ≠ .running
  | .request (.markTerminal _ operationId _ _ anchor _), _ =>
    anchor = .outcomeOnly ("outcome:" ++ operationId)
  | _, _ => True

/-- No client acknowledges what is not published, and no operation is finalized before
its terminal event was seen. -/
def Answerable : Label → World → Prop
  | .request (.acknowledge handle sequence), world =>
    ∀ client, record world.coordinator.state handle = .ok client →
      sequence ≤ published world.coordinator.state
  | .request (.finalizeTerminalAssociation handle operationId descriptor _), world =>
    world.coordinator.state.runtimeLifecycle ≠ .shutDown →
      ∀ client kind, world.coordinator.state.clients[handle.id]? = some client →
        client.submittedOperation ≠ some (.accepted operationId kind descriptor) ∧
          client.submittedOperation ≠ some (.running operationId kind descriptor)
  | _, _ => True

/-- The cursor is not ahead of what was published, and a terminal slot can be cleared. -/
def ClientRecord.Clear (last : Nat) (client : ClientRecord) : Prop :=
  client.acknowledgedSequence ≤ last ∧
    ∀ operationId kind descriptor anchor status rootCount,
      client.submittedOperation =
          some (.terminal operationId kind descriptor anchor status rootCount) →
        Clearable operationId client.acknowledgedSequence last anchor

theorem clear_congr (clear : before.Clear last)
    (cursor : after.acknowledgedSequence = before.acknowledgedSequence)
    (slot : after.submittedOperation = before.submittedOperation) : after.Clear last := by
  unfold ClientRecord.Clear
  rw [cursor, slot]
  exact clear

theorem clear_open (clear : before.Clear last)
    (cursor : after.acknowledgedSequence = before.acknowledgedSequence)
    (open_ : ∀ id kind descriptor anchor status rootCount,
      after.submittedOperation ≠ some (.terminal id kind descriptor anchor status rootCount)) :
    after.Clear last := by
  refine ⟨cursor.trans_le clear.1, ?_⟩
  intro operationId kind descriptor anchor status rootCount slot
  exact absurd slot (open_ _ _ _ _ _ _)

theorem clearable_mono {cursor more : Nat} (clearable : Clearable operationId cursor last anchor)
    (grows : last ≤ more) : Clearable operationId cursor more anchor := by
  cases anchor with
  | productEvent sequence durability =>
    exact ⟨Nat.le_trans clearable.1 grows, Nat.le_trans clearable.2 grows⟩
  | outcomeOnly acknowledgement => exact clearable
  | terminalUncertain id => exact clearable

theorem clear_mono {more : Nat} (clear : client.Clear last) (grows : last ≤ more) :
    client.Clear more :=
  ⟨Nat.le_trans clear.1 grows, fun _ _ _ _ _ _ slot =>
    clearable_mono (clear.2 _ _ _ _ _ _ slot) grows⟩

theorem acknowledged_clear {sequence : Nat} (clear : client.Clear last)
    (bounded : sequence ≤ last) :
    (client.acknowledged sequence).Clear last := by
  refine ⟨?_, ?_⟩
  · have cursor := clear.1
    rw [acknowledged_cursor]
    omega
  · intro operationId kind descriptor anchor status rootCount slot
    have before : client.submittedOperation =
        some (.terminal operationId kind descriptor anchor status rootCount) := by
      unfold ClientRecord.acknowledged at slot
      split at slot
      · exact slot
      · dsimp only at slot
        split at slot
        · split at slot
          · cases slot
          · exact slot
        · exact slot
    have own := clear.2 _ _ _ _ _ _ before
    have cursor := clear.1
    cases anchor with
    | productEvent terminal durability =>
      refine ⟨own.1, ?_⟩
      rw [acknowledged_cursor]
      omega
    | outcomeOnly acknowledgement => exact own
    | terminalUncertain id => exact own

theorem observeRecord_clear (clear : client.Clear last) (source : CodingAgentEvent)
    (operationId : String) (status : ProductEventTerminalStatus) :
    (observeRecord source operationId status (last + 1) client).Clear (last + 1) := by
  have later := clear_mono clear (Nat.le_succ last)
  unfold observeRecord
  split
  · exact later
  rename_i stored slot
  split
  · exact later
  split
  · exact later
  split
  · exact later
  split
  · refine ⟨later.1, ?_⟩
    rintro _ _ _ _ _ _ same
    cases same
    exact later.2 _ _ _ _ _ _ slot
  · refine ⟨later.1, ?_⟩
    rintro _ _ _ _ _ _ same
    cases same
    exact ⟨Nat.le_refl _, later.1⟩
  · refine ⟨later.1, ?_⟩
    rintro _ _ _ _ _ _ same
    cases same
    exact ⟨Nat.le_refl _, later.1⟩

theorem Request.run_events {request : Request}
    {done : Except ClientRegistryError Unit × SnapshotState}
    (ran : request.run retainedCapacity state = some done)
    (silent : ∀ event, request ≠ .emit event) : done.2.events = state.events := by
  rcases Request.run_cases ran with ⟨handle, body, -, rfl, -⟩ |
    ⟨handle, unknown, body, -, rfl, -⟩ | ⟨handle, outcome, -, detached, same⟩ |
    ⟨-, same⟩ | ⟨-, same⟩ | ⟨event, emitted, -⟩
  · exact events_onRecord handle body state
  · exact (onTerminalRecord_frame handle unknown body state).2
  · rw [same]
    rcases detach_cases detached with unchanged | ⟨client, -, -, changed⟩
    · rw [unchanged]
    · rw [changed]
      rfl
  · rw [same, SnapshotCoordinator.requestShutdown]
    dsimp only
    split <;> rfl
  · rw [same, SnapshotCoordinator.finishShutdown]
    dsimp only
    split <;> rfl
  · exact absurd emitted (silent event)

theorem moved_clear (clear : client.Clear last) (source target : ConnectionLifecycle) :
    (client.moved source target).Clear last := by
  unfold ClientRecord.moved
  split
  · exact clear_congr clear rfl rfl
  · exact clear

def AllClear (state : SnapshotState) : Prop :=
  AllRecords (fun _ client => client.Clear (published state)) state

theorem Request.run_clear {request : Request}
    {done : Except ClientRegistryError Unit × SnapshotState}
    (clear : AllRecords (fun _ client => client.Clear last) state)
    (ran : request.run retainedCapacity state = some done)
    (silent : ∀ event, request ≠ .emit event)
    (acknowledged : ∀ handle sequence client, request = .acknowledge handle sequence →
      record state handle = .ok client → sequence ≤ last)
    (marked : ∀ handle operationId kind descriptor anchor status,
      request = .markTerminal handle operationId kind descriptor anchor status →
        anchor = .outcomeOnly ("outcome:" ++ operationId))
    (finalized : ∀ handle operationId descriptor status,
      request = .finalizeTerminalAssociation handle operationId descriptor status →
        state.runtimeLifecycle ≠ .shutDown →
        ∀ client kind, state.clients[handle.id]? = some client →
          client.submittedOperation ≠ some (.accepted operationId kind descriptor) ∧
            client.submittedOperation ≠ some (.running operationId kind descriptor)) :
    AllRecords (fun _ client => client.Clear last) done.2 := by
  cases request with
  | detach handle =>
    obtain ⟨outcome, detached, rfl⟩ := Option.map_eq_some_iff.mp ran
    show AllRecords _ outcome.2
    rcases detach_cases detached with unchanged | ⟨client, -, found, changed⟩
    · rw [unchanged]
      exact clear
    · rw [changed]
      exact AllRecords.put clear (clear_congr (clear handle.id client found) rfl rfl)
  | requestShutdown | finishShutdown =>
    cases ran
    simp only [SnapshotCoordinator.requestShutdown, SnapshotCoordinator.finishShutdown]
    split
    · exact clear
    · exact AllRecords.mapClients clear fun _ _ own => moved_clear own _ _
  | acknowledge handle sequence =>
    cases ran
    show AllRecords _ (SnapshotCoordinator.acknowledge handle sequence state).2
    unfold SnapshotCoordinator.acknowledge
    cases found : record state handle with
    | error reason =>
      rw [onRecord_error found]
      exact clear
    | ok client =>
      rw [onRecord_ok found]
      obtain ⟨-, stored, -, -⟩ := record_eq_ok_iff.mp found
      exact AllRecords.put clear (acknowledged_clear (clear handle.id client stored)
        (acknowledged handle sequence client rfl found))
  | acknowledgeOutcome handle acknowledgement =>
    cases ran
    refine AllRecords.onRecord clear fun client own => ?_
    split
    · split
      · exact clear_open own rfl (by intros; simp)
      · exact own
    · exact own
  | setPromptDraft handle draft =>
    cases ran
    exact AllRecords.onRecord clear fun client own => clear_congr own rfl rfl
  | enqueueDraft handle draft =>
    cases ran
    refine AllRecords.onRecord clear fun client own => ?_
    split
    · split <;> exact clear_congr own rfl rfl
    · split <;> exact clear_congr own rfl rfl
    · exact own
  | markSubmitted handle operationId descriptor =>
    cases ran
    refine AllRecords.onRecord clear fun client own => ?_
    split
    · exact own
    · exact clear_open own rfl (by intros; simp)
  | markRunning handle operationId kind =>
    cases ran
    refine AllRecords.onRecord clear fun client own => ?_
    split
    · split
      · exact clear_open own rfl (by intros; simp [ClientRecord.submitted])
      · exact own
    · exact own
  | markTerminal handle operationId kind descriptor anchor status =>
    cases ran
    have outcome := marked _ _ _ _ _ _ rfl
    have ended : ∀ client : ClientRecord, client.Clear last → (client.submitted
        (.terminal operationId kind descriptor anchor status 0)).Clear last := by
      intro client own
      refine ⟨own.1, ?_⟩
      rintro _ _ _ _ _ _ same
      cases same
      rw [outcome]
      rfl
    refine AllRecords.onTerminalRecord clear fun client own => ?_
    repeat' split
    all_goals first | exact own | exact ended client own
  | finalizeTerminalAssociation handle operationId descriptor status =>
    cases ran
    have unseen := finalized handle operationId descriptor status rfl
    show AllRecords _ (SnapshotCoordinator.finalizeTerminalAssociation handle operationId
      descriptor status state).2
    unfold SnapshotCoordinator.finalizeTerminalAssociation onTerminalRecord
    cases open_ : validateTerminalRuntime state with
    | error reason => exact clear
    | ok _ =>
      have running : state.runtimeLifecycle ≠ .shutDown := by
        intro shut
        rw [validateTerminalRuntime, shut] at open_
        cases open_
      dsimp only
      split
      · exact clear
      · rename_i client found
        have own := clear handle.id client found
        refine AllRecords.put clear ?_
        have settled := fun kind => unseen running client kind found
        repeat' split
        all_goals first
          | exact own
          | rename_i slot same
            rw [same.1, same.2] at slot
            first | exact absurd slot (settled _).1 | exact absurd slot (settled _).2
  | emit event => exact absurd rfl (silent event)

theorem emit_clear (retainedCapacity : Nat) (event : CodingAgentEvent)
    (positive : 1 ≤ state.events.nextEventSequence) (clear : AllClear state) :
    AllClear (emit retainedCapacity event state).2 := by
  have next : state.events.nextEventSequence = published state + 1 := by
    unfold published EventService.currentProductSequence
    omega
  have after : published (emit retainedCapacity event state).2 = published state + 1 := by
    show (EventService.emitLocked retainedCapacity event state.events).2.nextEventSequence - 1 = _
    simp only [EventService.emitLocked, EventService.retainProductEvent_next]
    omega
  have later : AllRecords (fun _ client => client.Clear (published state + 1)) state :=
    fun id client found => clear_mono (clear id client found) (Nat.le_succ _)
  unfold AllClear
  rw [after]
  simp only [emit, observeRootTerminalInState]
  split
  · rename_i operationId status _ _
    intro id client found
    have found : (state.mapClients (observeRecord event operationId status
        state.events.nextEventSequence)).clients[id]? = some client := found
    rw [clients_mapClients] at found
    obtain ⟨before, stored, rfl⟩ := Option.map_eq_some_iff.mp found
    rw [next]
    exact observeRecord_clear (clear id before stored) event operationId status
  · exact later

theorem connectOrTakeover_clear (id : ClientConnectionId)
    (clear : AllRecords (fun _ client => client.Clear last) state) :
    AllRecords (fun _ client => client.Clear last) (connectOrTakeover id state).2 ∧
      (connectOrTakeover id state).2.events = state.events := by
  unfold connectOrTakeover
  cases validateRuntime state with
  | error reason => exact ⟨clear, rfl⟩
  | ok _ =>
    dsimp only
    split
    · rename_i client found
      exact ⟨AllRecords.put clear (clear_congr (clear id client found) rfl rfl), rfl⟩
    · split
      · exact ⟨clear, rfl⟩
      · refine ⟨AllRecords.put clear ⟨Nat.zero_le _, ?_⟩, rfl⟩
        intro _ _ _ _ _ _ slot
        cases slot

/-- No client keeps an operation that is over. -/
structure ClearInv (world : World) : Prop where
  clear : AllClear world.coordinator.state
  attuned : Attuned world.coordinator.state
  positive : 1 ≤ world.coordinator.state.events.nextEventSequence

theorem step_clearInv {label : Label} {world after : World} (inv : ClearInv world)
    (called : AsCalled label world) (answerable : Answerable label world)
    (taken : step retainedCapacity label world = some after) : ClearInv after := by
  rcases step_cases taken with ⟨request, done, rfl, ran, state, -⟩ |
    ⟨id, rfl, state, -⟩ | ⟨-, -, same | ⟨call, client, current, changed⟩⟩
  · have attuned : Attuned after.coordinator.state := by
      rw [state]
      refine Request.run_attuned inv.attuned ?_ ran
      rintro rfl
      exact called
    by_cases emission : ∃ event, request = .emit event
    · obtain ⟨event, rfl⟩ := emission
      cases ran
      refine ⟨?_, attuned, ?_⟩
      · rw [state]
        exact emit_clear retainedCapacity event inv.positive inv.clear
      · rw [state]
        show 1 ≤ (EventService.emitLocked retainedCapacity event _).2.nextEventSequence
        simp only [EventService.emitLocked, EventService.retainProductEvent_next]
        omega
    · have silent : ∀ event, request ≠ .emit event := fun event same => emission ⟨event, same⟩
      have events := Request.run_events ran silent
      refine ⟨?_, attuned, ?_⟩
      · rw [state, AllClear, published, events]
        refine Request.run_clear inv.clear ran silent ?_ ?_ ?_
        · rintro handle sequence client rfl found
          exact answerable client found
        · rintro handle operationId kind descriptor anchor status rfl
          exact called
        · rintro handle operationId descriptor status rfl
          exact answerable
      · rw [state, events]
        exact inv.positive
  · obtain ⟨clear, events⟩ := connectOrTakeover_clear id inv.clear
    refine ⟨?_, ?_, ?_⟩
    · rw [state, AllClear, published, events]
      exact clear
    · rw [state]
      exact connectOrTakeover_attuned id inv.attuned
    · rw [state, events]
      exact inv.positive
  · exact ⟨by rw [same]; exact inv.clear, by rw [same]; exact inv.attuned,
      by rw [same]; exact inv.positive⟩
  · obtain ⟨-, found, -, -⟩ := record_eq_ok_iff.mp current
    refine ⟨?_, ?_, ?_⟩
    · rw [changed]
      exact AllRecords.put inv.clear (clear_congr (inv.clear _ client found) rfl rfl)
    · rw [changed]
      exact accepted_attuned current inv.attuned
    · rw [changed]
      exact inv.positive

theorem start_clearInv : ClearInv {} where
  clear := by
    intro id client found
    have absent : ((∅ : Std.TreeMap ClientConnectionId ClientRecord)[id]?) = none :=
      Std.TreeMap.getElem?_emptyc
    rw [show ({} : World).coordinator.state.clients = ∅ from rfl, absent] at found
    cases found
  attuned := start_lifecycleInv.attuned
  positive := Nat.le_refl 1

/-- Over every run in which no client acknowledges ahead of the events and no operation is
finalized without its terminal event: an attached client can always clear its terminal
submission. -/
theorem never_stuck {retainedCapacity : Nat} {labels : List Label} {world : World}
    (reached : Transition.Run (step retainedCapacity)
      (fun label world => AsCalled label world ∧ Answerable label world) {} labels world)
    {handle : ClientHandle} {client : ClientRecord} {operationId : String} {kind : OperationKind}
    {descriptor : OperationDescriptor} {anchor : SubmittedTerminalAnchor}
    {status : ProductEventTerminalStatus} {rootCount : Nat}
    (found : world.coordinator.state.clients[handle.id]? = some client)
    (current : client.generation = handle.generation) (attached : client.connection = .attached)
    (terminal : client.submittedOperation =
      some (.terminal operationId kind descriptor anchor status rootCount)) :
    Available handle operationId world.coordinator.state := by
  have inv : ClearInv world := reached.invariant
    (fun _ _ _ inv admitted taken => step_clearInv inv admitted.1 admitted.2 taken) start_clearInv
  have running : world.coordinator.state.runtimeLifecycle = .running := by
    have own : Fits world.coordinator.state.runtimeLifecycle client.connection :=
      inv.attuned handle.id client found
    rw [attached] at own
    cases lifecycle : world.coordinator.state.runtimeLifecycle with
    | running => rfl
    | shuttingDown =>
      rw [lifecycle] at own
      exact absurd rfl own
    | shutDown =>
      rw [lifecycle] at own
      cases own
  have own := record_eq_ok_iff.mpr ⟨running, found, current, attached⟩
  exact (available_iff own terminal).mpr ((inv.clear handle.id client found).2 _ _ _ _ _ _ terminal)

def completedPrompt : List Label :=
  [.connectOrTakeover "tui",
    .request (.markSubmitted ⟨"tui", 1⟩ "op_1" CodingAgentOperation.prompt.descriptor),
    .request (.markRunning ⟨"tui", 1⟩ "op_1" .prompt), .request (.emit (.promptCompleted "op_1"))]

theorem never_stuck_completed :
    ∃ world, Transition.Run (step 128)
        (fun label world => AsCalled label world ∧ Answerable label world) {} completedPrompt
        world ∧
      Available ⟨"tui", 1⟩ "op_1" world.coordinator.state := by
  have reached : Transition.Run (step 128)
      (fun label world => AsCalled label world ∧ Answerable label world) {} completedPrompt _ :=
    (((Transition.Run.done ({} : World)).next
      (l := Label.connectOrTakeover "tui") ⟨trivial, trivial⟩ rfl).next
      (l := .request (.markSubmitted ⟨"tui", 1⟩ "op_1" CodingAgentOperation.prompt.descriptor))
      ⟨trivial, trivial⟩ rfl).next
      (l := .request (.markRunning ⟨"tui", 1⟩ "op_1" .prompt)) ⟨trivial, trivial⟩ rfl |>.next
      (l := .request (.emit (.promptCompleted "op_1"))) ⟨trivial, trivial⟩ rfl
  exact ⟨_, reached, never_stuck reached rfl rfl rfl rfl⟩

/-- A prompt that is finalized without its terminal event leaves its client with nothing to
acknowledge, and so does a client's cursor that is ahead of the terminal event. -/
theorem stuck_client :
    (∃ world, Transition.Run (step 128) AsCalled {} [.connectOrTakeover "tui",
        .request (.markSubmitted ⟨"tui", 1⟩ "op_1" CodingAgentOperation.prompt.descriptor),
        .request (.markRunning ⟨"tui", 1⟩ "op_1" .prompt),
        .request (.finalizeTerminalAssociation ⟨"tui", 1⟩ "op_1"
          CodingAgentOperation.prompt.descriptor .aborted)] world ∧
      ∃ client, record world.coordinator.state ⟨"tui", 1⟩ = .ok client ∧
        client.submittedOperation = some (.terminal "op_1" .prompt
          CodingAgentOperation.prompt.descriptor (.terminalUncertain "op_1") .aborted 0) ∧
        ¬ Available ⟨"tui", 1⟩ "op_1" world.coordinator.state) ∧
      ∃ world, Transition.Run (step 128) AsCalled {} [.connectOrTakeover "tui",
        .request (.markSubmitted ⟨"tui", 1⟩ "op_1" CodingAgentOperation.prompt.descriptor),
        .request (.markRunning ⟨"tui", 1⟩ "op_1" .prompt),
        .request (.acknowledge ⟨"tui", 1⟩ 5), .request (.emit (.promptCompleted "op_1"))] world ∧
      ∃ client, record world.coordinator.state ⟨"tui", 1⟩ = .ok client ∧
        client.submittedOperation = some (.terminal "op_1" .prompt
          CodingAgentOperation.prompt.descriptor (.productEvent 1 .durable) .completed 1) ∧
        ¬ Available ⟨"tui", 1⟩ "op_1" world.coordinator.state := by
  constructor
  · refine ⟨_, Transition.Run.of_follow (by simp [AsCalled]) rfl, _, rfl, rfl, ?_⟩
    intro available
    exact (available_iff rfl rfl).mp available
  · refine ⟨_, Transition.Run.of_follow (by simp [AsCalled]) rfl, _, rfl, rfl, ?_⟩
    rw [available_iff rfl rfl]
    show ¬ (1 ≤ 1 ∧ 5 ≤ 1)
    omega

end PiRust.SnapshotCoordinator
