import PiRust.CoordinatorRuns

/- The runtime's lifecycle and that of each client record, over every run of the
coordinator. -/
namespace PiRust.SnapshotCoordinator

open List

def generationOf (state : SnapshotState) (id : ClientConnectionId) : UInt64 :=
  (fieldOf ClientRecord.kept (0, ∅) state id).1

def Fits : RuntimeLifecycle → ConnectionLifecycle → Prop
  | .running, connection => connection ≠ .shuttingDown
  | .shuttingDown, connection => connection ≠ .attached
  | .shutDown, connection => connection = .detached

def Attuned (state : SnapshotState) : Prop :=
  AllRecords (fun _ client => Fits state.runtimeLifecycle client.connection) state

theorem connection_of_link {before after : ClientRecord} (same : after.link = before.link) :
    after.connection = before.connection := by
  simp only [ClientRecord.link, Prod.mk.injEq] at same
  exact same.2.1

variable {id : ClientConnectionId} {handle : ClientHandle} {client : ClientRecord}
  {call : ControlCall} {labels : List Label} {retainedCapacity : Nat} {request : Request}
  {state : SnapshotState} {after world : World}

theorem requestShutdown_attuned (fits : Attuned state) : Attuned (requestShutdown state).2 := by
  unfold requestShutdown
  dsimp only
  split
  · exact fits
  · rename_i running
    rw [not_not] at running
    intro id client found
    rw [clients_nextEpoch, clients_mapClients] at found
    obtain ⟨before, stored, rfl⟩ := Option.map_eq_some_iff.mp found
    have own := fits id before stored
    rw [running] at own
    show (before.moved .attached .shuttingDown).connection ≠ .attached
    unfold ClientRecord.moved
    split
    · exact ConnectionLifecycle.noConfusion
    · assumption

theorem finishShutdown_attuned (fits : Attuned state)
    (requested : state.runtimeLifecycle ≠ .running) : Attuned (finishShutdown state) := by
  unfold finishShutdown
  dsimp only
  split
  · exact fits
  · rename_i open_
    have closing : state.runtimeLifecycle = .shuttingDown := by
      cases lifecycle : state.runtimeLifecycle with
      | running => exact absurd lifecycle requested
      | shuttingDown => rfl
      | shutDown => exact absurd lifecycle open_
    intro id client found
    rw [clients_nextEpoch, clients_mapClients] at found
    obtain ⟨before, stored, rfl⟩ := Option.map_eq_some_iff.mp found
    have own := fits id before stored
    rw [closing] at own
    show (before.moved .shuttingDown .detached).connection = .detached
    unfold ClientRecord.moved
    split
    · rfl
    · rename_i other
      cases connection : before.connection with
      | attached => exact absurd connection own
      | shuttingDown => exact absurd connection other
      | detached => rfl

theorem connectOrTakeover_attuned (id : ClientConnectionId) (fits : Attuned state) :
    Attuned (connectOrTakeover id state).2 := by
  unfold connectOrTakeover validateRuntime
  cases lifecycle : state.runtimeLifecycle with
  | running =>
    have whole : AllRecords (fun _ client => Fits .running client.connection) state := by
      have own := fits
      unfold Attuned at own
      rwa [lifecycle] at own
    have attached : Fits .running .attached := ConnectionLifecycle.noConfusion
    dsimp only
    split
    · unfold Attuned
      rw [runtimeLifecycle_nextEpoch, runtimeLifecycle_put, lifecycle]
      exact whole.put attached
    · split
      · exact fits
      · unfold Attuned
        rw [runtimeLifecycle_put, lifecycle]
        exact whole.put attached
  | shuttingDown => exact fits
  | shutDown => exact fits

variable {done : Except ClientRegistryError Unit × SnapshotState} {label : Label}

theorem Request.run_attuned (fits : Attuned state)
    (ordered : request = .finishShutdown → state.runtimeLifecycle ≠ .running)
    (ran : request.run retainedCapacity state = some done) : Attuned done.2 := by
  rcases Request.run_cases ran with ⟨handle, body, -, rfl, keeps⟩ |
    ⟨handle, unknown, body, -, rfl, keeps⟩ | ⟨handle, outcome, -, detached, same⟩ |
    ⟨-, same⟩ | ⟨finish, same⟩ | ⟨event, -, same⟩
  · rw [Attuned, runtimeLifecycle_onRecord]
    exact AllRecords.onRecord fits fun client own => connection_of_link (keeps client) ▸ own
  · rw [Attuned, (onTerminalRecord_frame handle unknown body state).1]
    exact AllRecords.onTerminalRecord fits fun client own =>
      connection_of_link (keeps client) ▸ own
  · rw [same]
    rcases detach_cases detached with unchanged | ⟨client, running, -, changed⟩
    · rw [unchanged]
      exact fits
    · rw [changed, Attuned, runtimeLifecycle_nextEpoch, runtimeLifecycle_put, running]
      have whole := fits
      rw [Attuned, running] at whole
      exact whole.put (show Fits .running .detached from ConnectionLifecycle.noConfusion)
  · rw [same]
    exact requestShutdown_attuned fits
  · rw [same]
    exact finishShutdown_attuned fits (ordered finish)
  · rw [same, Attuned, emit_lifecycle]
    intro id client found
    rcases emit_clients retainedCapacity event state with unchanged | ⟨_, _, _, mapped⟩
    · rw [unchanged] at found
      exact fits id client found
    · rw [mapped] at found
      exact AllRecords.mapClients fits
        (fun _ client own => connection_of_link (observeRecord_link _ _ _ _ client) ▸ own)
        id client found

theorem requestShutdown_lifecycle (state : SnapshotState) :
    (requestShutdown state).2.runtimeLifecycle ≠ .running ∧
      (state.runtimeLifecycle = .shutDown →
        (requestShutdown state).2.runtimeLifecycle = .shutDown) := by
  unfold requestShutdown
  dsimp only
  split
  · rename_i closed
    exact ⟨closed, id⟩
  · rename_i running
    rw [not_not] at running
    exact ⟨RuntimeLifecycle.noConfusion, fun shut => by rw [running] at shut; cases shut⟩

theorem finishShutdown_lifecycle (state : SnapshotState) :
    (finishShutdown state).runtimeLifecycle = .shutDown := by
  unfold finishShutdown
  dsimp only
  split
  · assumption
  · rfl

theorem Request.run_lifecycle (ran : request.run retainedCapacity state = some done) :
    (state.runtimeLifecycle ≠ .running ∨ request = .requestShutdown →
        done.2.runtimeLifecycle ≠ .running) ∧
      (state.runtimeLifecycle = .shutDown ∨ request = .finishShutdown →
        done.2.runtimeLifecycle = .shutDown) := by
  have same_ : ∀ {after : SnapshotState}, after.runtimeLifecycle = state.runtimeLifecycle →
      request ≠ .requestShutdown → request ≠ .finishShutdown →
      (state.runtimeLifecycle ≠ .running ∨ request = .requestShutdown →
          after.runtimeLifecycle ≠ .running) ∧
        (state.runtimeLifecycle = .shutDown ∨ request = .finishShutdown →
          after.runtimeLifecycle = .shutDown) := by
    intro after same first second
    rw [same]
    exact ⟨fun reason => reason.resolve_right first, fun reason => reason.resolve_right second⟩
  rcases Request.run_cases ran with ⟨handle, body, own, rfl, -⟩ |
    ⟨handle, unknown, body, own, rfl, -⟩ | ⟨handle, outcome, rfl, detached, same⟩ |
    ⟨rfl, same⟩ | ⟨rfl, same⟩ | ⟨event, rfl, same⟩
  · apply same_ (runtimeLifecycle_onRecord handle body state)
    · rintro rfl
      cases own
    · rintro rfl
      cases own
  · apply same_ (onTerminalRecord_frame handle unknown body state).1
    · rintro rfl
      cases own
    · rintro rfl
      cases own
  · rw [same]
    rcases detach_cases detached with unchanged | ⟨client, -, -, changed⟩
    · rw [unchanged]
      exact same_ rfl Request.noConfusion Request.noConfusion
    · rw [changed]
      exact same_ rfl Request.noConfusion Request.noConfusion
  · rw [same]
    obtain ⟨closed, shut⟩ := requestShutdown_lifecycle state
    exact ⟨fun _ => closed, fun reason => shut (reason.resolve_right Request.noConfusion)⟩
  · rw [same, finishShutdown_lifecycle]
    exact ⟨fun _ => RuntimeLifecycle.noConfusion, fun _ => rfl⟩
  · rw [same]
    exact same_ (emit_lifecycle retainedCapacity event state) Request.noConfusion
      Request.noConfusion

theorem connectOrTakeover_cases (id : ClientConnectionId) (state : SnapshotState) :
    (∃ reason, connectOrTakeover id state = (.error reason, state)) ∨
      ∃ after, connectOrTakeover id state = (.ok ⟨id, generationOf state id + 1⟩, after) ∧
        after.runtimeLifecycle = state.runtimeLifecycle ∧
        ∀ other, fieldOf ClientRecord.kept (0, ∅) after other =
          if id = other then
            (generationOf state id + 1, (fieldOf ClientRecord.kept (0, ∅) state id).2)
          else fieldOf ClientRecord.kept (0, ∅) state other := by
  unfold connectOrTakeover
  cases validateRuntime state with
  | error reason => exact .inl ⟨reason, rfl⟩
  | ok _ =>
    dsimp only
    split
    · rename_i client found
      have own : fieldOf ClientRecord.kept (0, ∅) state id = client.kept := fieldOf_of_found found
      have last : generationOf state id = client.generation := congrArg Prod.fst own
      rw [last, own]
      refine .inr ⟨_, rfl, rfl, fun other => ?_⟩
      rw [fieldOf_congr (clients_nextEpoch _), fieldOf_put]
      rfl
    · rename_i absent
      split
      · exact .inl ⟨_, rfl⟩
      · have own : fieldOf ClientRecord.kept (0, ∅) state id = (0, ∅) := by
          rw [fieldOf, absent]
          rfl
        have last : generationOf state id = 0 := congrArg Prod.fst own
        rw [last, own]
        refine .inr ⟨_, rfl, rfl, fun other => ?_⟩
        rw [fieldOf_put]
        rfl

theorem generationOf_put_accepted (current : record state call.handle = .ok client) :
    generationOf (state.put call.handle.id (client.accepted call)) = generationOf state := by
  obtain ⟨-, found, -, -⟩ := record_eq_ok_iff.mp current
  funext id
  unfold generationOf
  rw [fieldOf_put]
  by_cases own : call.handle.id = id
  · rw [if_pos own, ← own, fieldOf_of_found found]
    rfl
  · rw [if_neg own]

/-- The debug assertion of `finish_shutdown` holds, and no generation overflows. -/
def Orderly : Label → World → Prop
  | .request .finishShutdown, world => world.coordinator.state.runtimeLifecycle ≠ .running
  | .connectOrTakeover id, world =>
    generationOf world.coordinator.state id ≠ 18446744073709551615
  | _, _ => True

instance (label : Label) (world : World) : Decidable (Orderly label world) :=
  match label with
  | .request .finishShutdown =>
    inferInstanceAs (Decidable (world.coordinator.state.runtimeLifecycle ≠ .running))
  | .connectOrTakeover id =>
    inferInstanceAs (Decidable (generationOf world.coordinator.state id ≠ 18446744073709551615))
  | .request (.detach _) | .request .requestShutdown | .request (.acknowledge _ _)
  | .request (.acknowledgeOutcome _ _) | .request (.setPromptDraft _ _)
  | .request (.enqueueDraft _ _) | .request (.markSubmitted _ _ _) | .request (.markRunning _ _ _)
  | .request (.markTerminal _ _ _ _ _ _) | .request (.finalizeTerminalAssociation _ _ _ _)
  | .request (.emit _) | .rebindPromptControl _ | .clearAfterShutdown | .enqueuePromptControl _
  | .enqueuePromptControlDraft _ _ _ _ | .sendDraft _ | .openChannel | .bindPromptControl _ _ _
  | .clearPromptControl _ | .receive _ | .close _ => .isTrue trivial

def Current (state : SnapshotState) (handle : ClientHandle) : Prop :=
  ∃ client, state.clients[handle.id]? = some client ∧ client.generation = handle.generation ∧
    client.connection = .attached

/-- What holds of the clients in every run. -/
structure LifecycleInv (labels : List Label) (world : World) : Prop where
  attuned : Attuned world.coordinator.state
  requested : .request .requestShutdown ∈ labels →
    world.coordinator.state.runtimeLifecycle ≠ .running
  finished : .request .finishShutdown ∈ labels →
    world.coordinator.state.runtimeLifecycle = .shutDown
  latest : ∀ handle ∈ world.issued,
    handle.generation ≤ generationOf world.coordinator.state handle.id
  increasing : world.issued.Pairwise fun earlier later =>
    earlier.id = later.id → earlier.generation < later.generation

theorem start_lifecycleInv : LifecycleInv [] {} where
  attuned := by
    intro id client found
    have absent : ((∅ : Std.TreeMap ClientConnectionId ClientRecord)[id]?) = none :=
      Std.TreeMap.getElem?_emptyc
    rw [show ({} : World).coordinator.state.clients = ∅ from rfl, absent] at found
    cases found
  requested := fun inside => absurd inside not_mem_nil
  finished := fun inside => absurd inside not_mem_nil
  latest := forall_mem_nil _
  increasing := Pairwise.nil

theorem LifecycleInv.frame {label : Label} (inv : LifecycleInv labels world)
    (attuned : Attuned after.coordinator.state)
    (lifecycle : after.coordinator.state.runtimeLifecycle =
      world.coordinator.state.runtimeLifecycle)
    (generations : generationOf after.coordinator.state = generationOf world.coordinator.state)
    (issued : after.issued = world.issued)
    (shutdown : label ≠ .request .requestShutdown ∧ label ≠ .request .finishShutdown) :
    LifecycleInv (labels ++ [label]) after where
  attuned := attuned
  requested := by
    intro inside
    rw [lifecycle]
    rcases mem_append.mp inside with earlier | last
    · exact inv.requested earlier
    · exact absurd (mem_singleton.mp last).symm shutdown.1
  finished := by
    intro inside
    rw [lifecycle]
    rcases mem_append.mp inside with earlier | last
    · exact inv.finished earlier
    · exact absurd (mem_singleton.mp last).symm shutdown.2
  latest := by
    rw [issued, generations]
    exact inv.latest
  increasing := by
    rw [issued]
    exact inv.increasing

theorem accepted_attuned (current : record state call.handle = .ok client) (fits : Attuned state) :
    Attuned (state.put call.handle.id (client.accepted call)) := by
  obtain ⟨-, found, -, -⟩ := record_eq_ok_iff.mp current
  exact AllRecords.put fits (fits call.handle.id client found)

theorem lt_next {last generation : UInt64} (room : last ≠ 18446744073709551615)
    (below : generation ≤ last) : generation < last + 1 := by
  have bound := last.toNat_lt
  have apart : last.toNat ≠ 18446744073709551615 := fun same => room (UInt64.toNat_inj.mp same)
  rw [UInt64.lt_iff_toNat_lt, UInt64.toNat_add]
  rw [UInt64.le_iff_toNat_le] at below
  have one : (1 : UInt64).toNat = 1 := rfl
  omega

theorem connect_lifecycleInv (inv : LifecycleInv labels world)
    (room : generationOf world.coordinator.state id ≠ 18446744073709551615)
    (state : after.coordinator.state = (connectOrTakeover id world.coordinator.state).2)
    (issued : after.issued =
      world.issued ++ (connectOrTakeover id world.coordinator.state).1.toOption.toList) :
    LifecycleInv (labels ++ [.connectOrTakeover id]) after := by
  have attuned : Attuned after.coordinator.state := by
    rw [state]
    exact connectOrTakeover_attuned id inv.attuned
  rcases connectOrTakeover_cases id world.coordinator.state with
    ⟨reason, refused⟩ | ⟨connected, result, lifecycle, kept⟩
  · rw [refused] at state issued
    exact inv.frame attuned (by rw [state]) (by rw [state])
      (issued.trans (append_nil _)) ⟨Label.noConfusion, Label.noConfusion⟩
  · rw [result] at state issued
    have generations : ∀ other, generationOf after.coordinator.state other =
        if id = other then generationOf world.coordinator.state id + 1
        else generationOf world.coordinator.state other := by
      intro other
      rw [state]
      unfold generationOf
      rw [kept other]
      split <;> rfl
    have last : after.issued =
        world.issued ++ [⟨id, generationOf world.coordinator.state id + 1⟩] := issued
    refine ⟨attuned, ?_, ?_, ?_, ?_⟩
    · intro inside
      rw [state, lifecycle]
      exact inv.requested ((mem_append.mp inside).resolve_right (by simp))
    · intro inside
      rw [state, lifecycle]
      exact inv.finished ((mem_append.mp inside).resolve_right (by simp))
    · intro handle inside
      rw [last] at inside
      rw [generations]
      rcases mem_append.mp inside with earlier | new
      · have below := inv.latest handle earlier
        by_cases own : id = handle.id
        · rw [if_pos own]
          rw [← own] at below
          exact UInt64.le_of_lt (lt_next room below)
        · rw [if_neg own]
          exact below
      · rw [mem_singleton.mp new, if_pos rfl]
        exact UInt64.le_refl _
    · rw [last, pairwise_append]
      refine ⟨inv.increasing, pairwise_singleton _ _, ?_⟩
      intro earlier old later new own
      rw [mem_singleton.mp new] at own ⊢
      have below := inv.latest earlier old
      rw [own] at below
      exact lt_next room below

theorem step_lifecycleInv (inv : LifecycleInv labels world) (orderly : Orderly label world)
    (taken : step retainedCapacity label world = some after) :
    LifecycleInv (labels ++ [label]) after := by
  rcases step_cases taken with ⟨request, done, rfl, ran, state, issued⟩ |
    ⟨id, rfl, state, issued⟩ | ⟨noRequest, issued, change⟩
  · obtain ⟨requested, finished⟩ := Request.run_lifecycle ran
    have generations : generationOf after.coordinator.state =
        generationOf world.coordinator.state := by
      unfold generationOf
      rw [state, Request.run_kept ran]
    refine ⟨?_, ?_, ?_, ?_, ?_⟩
    · rw [state]
      refine Request.run_attuned inv.attuned ?_ ran
      rintro rfl
      exact orderly
    · intro inside
      rw [state]
      apply requested
      rcases mem_append.mp inside with earlier | last
      · exact .inl (inv.requested earlier)
      · exact .inr (Label.request.inj (mem_singleton.mp last)).symm
    · intro inside
      rw [state]
      apply finished
      rcases mem_append.mp inside with earlier | last
      · exact .inl (inv.finished earlier)
      · exact .inr (Label.request.inj (mem_singleton.mp last)).symm
    · rw [issued, generations]
      exact inv.latest
    · rw [issued]
      exact inv.increasing
  · exact connect_lifecycleInv inv orderly state issued
  · have apart : label ≠ .request .requestShutdown ∧ label ≠ .request .finishShutdown :=
      ⟨noRequest _, noRequest _⟩
    rcases change with same | ⟨call, client, current, changed⟩
    · exact inv.frame (by rw [same]; exact inv.attuned) (by rw [same]) (by rw [same]) issued apart
    · refine inv.frame ?_ ?_ ?_ issued apart
      · rw [changed]
        exact accepted_attuned current inv.attuned
      · rw [changed, runtimeLifecycle_put]
      · rw [changed, generationOf_put_accepted current]

theorem run_lifecycleInv
    (reached : Transition.Run (step retainedCapacity) Orderly {} labels world) :
    LifecycleInv labels world :=
  reached.history (fun _ _ _ _ inv orderly taken => step_lifecycleInv inv orderly taken)
    start_lifecycleInv

theorem detach_isSome (fits : Attuned state) (handle : ClientHandle) :
    (detach handle state).isSome := by
  unfold detach validateRuntime
  cases lifecycle : state.runtimeLifecycle with
  | running =>
    dsimp only
    split
    · rfl
    · rename_i client found
      split
      · rfl
      · have own := fits handle.id client found
        rw [lifecycle] at own
        split
        · rfl
        · rfl
        · rename_i connection
          exact absurd connection own
  | shuttingDown => rfl
  | shutDown => rfl

theorem record_error_of_stale (stale : state.runtimeLifecycle ≠ .running ∨ ¬ Current state handle) :
    ∃ reason, record state handle = .error reason := by
  cases found : record state handle with
  | error reason => exact ⟨reason, rfl⟩
  | ok client =>
    obtain ⟨running, stored, generation, connection⟩ := record_eq_ok_iff.mp found
    rcases stale with closed | other
    · exact absurd running closed
    · exact absurd ⟨client, stored, generation, connection⟩ other

theorem mutation_rejected (stale : state.runtimeLifecycle ≠ .running ∨ ¬ Current state handle)
    (own : request.mutation? = some handle) :
    ∃ reason, request.run retainedCapacity state = some (.error reason, state) := by
  obtain ⟨reason, rejected⟩ := record_error_of_stale stale
  obtain ⟨body, runs, -⟩ := Request.run_mutation retainedCapacity own
  refine ⟨reason, ?_⟩
  rw [runs state, onRecord_error rejected]

theorem control_rejected {coordinator : Coordinator}
    (stale : coordinator.state.runtimeLifecycle ≠ .running ∨
      ¬ Current coordinator.state call.handle) :
    ∃ rejection, enqueuePromptControl call coordinator = (.error rejection, coordinator) := by
  obtain ⟨reason, rejected⟩ := record_error_of_stale stale
  rcases enqueuePromptControl_cases call coordinator with
    refused | ⟨client, current, -, -⟩ | ⟨client, active, after, -, delivered⟩
  · exact refused
  · rw [rejected] at current
    cases current
  · have current := delivered.current
    rw [rejected] at current
    cases current

theorem draft_rejected (operationId draftId : String) (kind : CodingAgentControlKind)
    (stale : state.runtimeLifecycle ≠ .running ∨ ¬ Current state handle) :
    ∃ rejection, enqueuePromptControlDraft handle operationId draftId kind state =
      .error rejection := by
  obtain ⟨reason, rejected⟩ := record_error_of_stale stale
  simp [enqueuePromptControlDraft, rejected, exists_eq']

theorem terminal_rejected (shut : state.runtimeLifecycle = .shutDown)
    (own : request.terminal? = some handle) :
    request.run retainedCapacity state = some (.error (.lifecycle .runtimeShutDown), state) := by
  obtain ⟨unknown, body, runs, -⟩ := Request.run_terminal retainedCapacity own
  rw [runs state]
  simp [onTerminalRecord, validateTerminalRuntime, shut]

theorem terminal_allowed (closing : state.runtimeLifecycle = .shuttingDown)
    (own : request.terminal? = some handle) :
    (request.run retainedCapacity state).map (fun done => (done.1, done.2.clients)) =
      (request.run retainedCapacity { state with runtimeLifecycle := .running }).map
        fun done => (done.1, done.2.clients) := by
  obtain ⟨unknown, body, runs, -⟩ := Request.run_terminal retainedCapacity own
  rw [runs state, runs]
  simp only [onTerminalRecord, validateTerminalRuntime, closing, Option.map_some, Option.some.injEq]
  split <;> rfl

/-- The lifecycles over every run in which the debug assertion of `finish_shutdown` holds
and no generation overflows. -/
theorem client_lifecycle {retainedCapacity : Nat} {labels : List Label} {world : World}
    (reached : Transition.Run (step retainedCapacity) Orderly {} labels world) :
    let state := world.coordinator.state
    (state.runtimeLifecycle = .running →
        AllRecords (fun _ client => client.connection ≠ .shuttingDown) state) ∧
      (∀ handle, (detach handle state).isSome) ∧
      (.request .requestShutdown ∈ labels →
        AllRecords (fun _ client => client.connection ≠ .attached) state) ∧
      (.request .finishShutdown ∈ labels →
        AllRecords (fun _ client => client.connection = .detached) state) ∧
      (world.issued.Pairwise fun earlier later =>
        earlier.id = later.id → earlier.generation < later.generation) ∧
      (∀ handle, state.runtimeLifecycle ≠ .running ∨ ¬ Current state handle →
        (∀ request : Request, request.mutation? = some handle →
          ∃ reason, request.run retainedCapacity state = some (.error reason, state)) ∧
        (∀ operationId draftId kind, ∃ rejection,
          enqueuePromptControlDraft handle operationId draftId kind state = .error rejection) ∧
        ∀ call : ControlCall, call.handle = handle → ∃ rejection,
          enqueuePromptControl call world.coordinator = (.error rejection, world.coordinator)) ∧
      ∀ (handle : ClientHandle) (request : Request), request.terminal? = some handle →
        (state.runtimeLifecycle = .shutDown → request.run retainedCapacity state =
          some (.error (.lifecycle .runtimeShutDown), state)) ∧
        (state.runtimeLifecycle = .shuttingDown →
          (request.run retainedCapacity state).map (fun done => (done.1, done.2.clients)) =
            (request.run retainedCapacity { state with runtimeLifecycle := .running }).map
              fun done => (done.1, done.2.clients)) := by
  intro state
  have inv := run_lifecycleInv reached
  refine ⟨?_, detach_isSome inv.attuned, ?_, ?_, inv.increasing, ?_, ?_⟩
  · intro running id client found
    have own := inv.attuned id client found
    rw [running] at own
    exact own
  · intro requested id client found
    have own := inv.attuned id client found
    have closed := inv.requested requested
    cases lifecycle : world.coordinator.state.runtimeLifecycle with
    | running => exact absurd lifecycle closed
    | shuttingDown =>
      rw [lifecycle] at own
      exact own
    | shutDown =>
      rw [lifecycle] at own
      rw [show client.connection = .detached from own]
      exact ConnectionLifecycle.noConfusion
  · intro finished id client found
    have own := inv.attuned id client found
    rw [inv.finished finished] at own
    exact own
  · intro handle stale
    refine ⟨fun request own => mutation_rejected stale own, ?_, ?_⟩
    · intro operationId draftId kind
      exact draft_rejected operationId draftId kind stale
    · rintro call rfl
      exact control_rejected stale
  · intro handle request own
    exact ⟨fun shut => terminal_rejected shut own, fun closing => terminal_allowed closing own⟩

/-- A client that connects, is taken over and sees the runtime shut down. -/
theorem client_lifecycle_shutdown :
    ∃ world, Transition.Run (step 128) Orderly {} [.connectOrTakeover "tui",
        .connectOrTakeover "tui", .request .requestShutdown, .request .finishShutdown] world ∧
      AllRecords (fun _ client => client.connection = .detached) world.coordinator.state := by
  have possible : (Transition.follow (Transition.guarded (step 128) Orderly)
      [.connectOrTakeover "tui", .connectOrTakeover "tui", .request .requestShutdown,
        .request .finishShutdown] {}).isSome := by decide
  obtain ⟨world, followed⟩ := Option.isSome_iff_exists.mp possible
  have reached := Transition.Run.of_guarded followed
  exact ⟨world, reached, (client_lifecycle reached).2.2.2.1 (.tail _ (.tail _ (.tail _ (.head _))))⟩

theorem takeover_running (running : state.runtimeLifecycle = .running)
    (found : state.clients[id]? = some client) :
    connectOrTakeover id state =
      (.ok ⟨id, client.generation + 1⟩,
        (state.put id { client with
          generation := client.generation + 1, connection := .attached }).nextEpoch) := by
  simp [connectOrTakeover, validateRuntime, running, found]

theorem connect_first (id : ClientConnectionId) :
    connectOrTakeover id {} = (.ok ⟨id, 1⟩, SnapshotState.put {} id { generation := 1 }) := by
  have absent : ((∅ : Std.TreeMap ClientConnectionId ClientRecord)[id]?) = none :=
    Std.TreeMap.getElem?_emptyc
  have room : ¬ (∅ : Std.TreeMap ClientConnectionId ClientRecord).size ≥ maxClients := by decide
  simp only [connectOrTakeover, validateRuntime, absent, if_neg room]

theorem takeover_step (retainedCapacity : Nat)
    (running : world.coordinator.state.runtimeLifecycle = .running)
    (found : world.coordinator.state.clients[id]? = some client) :
    ∃ after, step retainedCapacity (.connectOrTakeover id) world = some after ∧
      after.coordinator.state.runtimeLifecycle = .running ∧
      after.coordinator.state.clients[id]? =
        some { client with generation := client.generation + 1, connection := .attached } ∧
      after.issued = world.issued ++ [⟨id, client.generation + 1⟩] := by
  simp only [step, takeover_running running found]
  refine ⟨_, rfl, running, ?_, rfl⟩
  show (SnapshotState.put _ _ _).clients[id]? = _
  rw [clients_put, if_pos rfl]

theorem takeovers (retainedCapacity : Nat) (id : ClientConnectionId) (n : Nat) :
    ∃ world client rest,
      Transition.Run (step retainedCapacity) (fun _ _ => True) {}
        (replicate (n + 1) (.connectOrTakeover id)) world ∧
      world.coordinator.state.runtimeLifecycle = .running ∧
      world.coordinator.state.clients[id]? = some client ∧
      client.generation = UInt64.ofNat (n + 1) ∧
      world.issued = ⟨id, 1⟩ :: rest ∧ ⟨id, UInt64.ofNat (n + 1)⟩ ∈ world.issued := by
  induction n with
  | zero =>
    let state := SnapshotState.put {} id { generation := 1 }
    have connected : step retainedCapacity (.connectOrTakeover id) {} =
        some { ({} : World).withState state with issued := [⟨id, 1⟩] } := by
      have absent : (∅ : Std.TreeMap ClientConnectionId ClientRecord).contains id = false :=
        Std.TreeMap.contains_emptyc
      simp only [step, connect_first, absent]
      rfl
    have found : state.clients[id]? = some { generation := 1 } := by
      rw [clients_put, if_pos rfl]
    exact ⟨_, _, [], .next (.done _) trivial connected, rfl, found, rfl, rfl, .head _⟩
  | succ n ih =>
    obtain ⟨world, client, rest, reached, running, found, generation, issued, -⟩ := ih
    obtain ⟨after, moved, still, present, longer⟩ := takeover_step retainedCapacity running found
    have next : client.generation + 1 = UInt64.ofNat (n + 1 + 1) := by
      rw [generation]
      exact (UInt64.ofNat_add (n + 1) 1).symm
    rw [next] at longer
    refine ⟨after, _, rest ++ [⟨id, UInt64.ofNat (n + 1 + 1)⟩], ?_, still, present, next, ?_, ?_⟩
    · rw [replicate_succ']
      exact reached.next trivial moved
    · rw [longer, issued]
      rfl
    · rw [longer]
      exact mem_append_right _ (.head _)

def detachedPrompt : List Label :=
  [.connectOrTakeover "tui",
    .request (.markSubmitted ⟨"tui", 1⟩ "op_1" CodingAgentOperation.prompt.descriptor),
    .request (.markRunning ⟨"tui", 1⟩ "op_1" .prompt), .request (.detach ⟨"tui", 1⟩)]

/-- Terminal marking through a detached handle is accepted, the last step of a shutdown
without the first leaves a client attached, and the generations of a client that connects
`2 ^ 64` times come back to zero. -/
theorem lifecycle_breaks :
    (∃ world after, Transition.Run (step 128) (fun _ _ => True) {} detachedPrompt world ∧
      ¬ Current world.coordinator.state ⟨"tui", 1⟩ ∧
      (Request.markTerminal ⟨"tui", 1⟩ "op_1" .prompt CodingAgentOperation.prompt.descriptor
        (.productEvent 9 .durable) .completed).run 128 world.coordinator.state =
          some (.ok (), after)) ∧
      (∃ world, Transition.Run (step 128) (fun _ _ => True) {}
          [.connectOrTakeover "tui", .request .finishShutdown] world ∧
        ¬ AllRecords (fun _ client => client.connection = .detached) world.coordinator.state) ∧
      ∃ labels world, Transition.Run (step 128) (fun _ _ => True) {} labels world ∧
        ¬ world.issued.Pairwise fun earlier later =>
          earlier.id = later.id → earlier.generation < later.generation := by
  refine ⟨?_, ?_, ?_⟩
  · refine ⟨_, _, Transition.Run.of_follow (fun _ _ _ => trivial) rfl, ?_, rfl⟩
    rintro ⟨client, found, -, attached⟩
    cases found
    cases attached
  · refine ⟨_, Transition.Run.of_follow (fun _ _ _ => trivial) rfl, fun all => ?_⟩
    have own := all "tui" _ rfl
    cases own
  · obtain ⟨world, client, rest, reached, -, -, -, issued, last⟩ :=
      takeovers 128 "tui" 18446744073709551615
    refine ⟨_, world, reached, fun increasing => ?_⟩
    have wrapped : UInt64.ofNat (18446744073709551615 + 1) = 0 := by decide
    rw [issued, wrapped] at last
    rw [issued, pairwise_cons] at increasing
    rcases mem_cons.mp last with same | later
    · cases same
    · exact absurd (increasing.1 _ later rfl) (by decide)

end PiRust.SnapshotCoordinator
