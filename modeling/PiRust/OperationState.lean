import PiRust.PublicOperation
import PiRust.Transition

/- `OperationState` of `operation_control.rs` and the projection of its active operation in
`snapshot_coordinator.rs`, which lie under two locks. -/
namespace PiRust.OperationControl

open List

def OperationKind.asStr : OperationKind → String
  | .prompt => "prompt"
  | .compact => "compact"
  | .pluginCommand => "plugin_command"
  | .pluginLoad => "plugin_load"
  | .delegationConfirmation => "delegation_confirmation"
  | .branchSummary => "branch_summary"
  | .agentInvocation => "agent_invocation"
  | .agentTeam => "agent_team"
  | .export => "export"
  | .forkSession => "fork_session"
  | .switchActiveLeaf => "switch_active_leaf"
  | .setDefaultAgentProfile => "set_default_agent_profile"
  | .selfHealingEdit => "self_healing_edit"

structure ActiveOperationIdentity where
  kind : OperationKind
  operationId : String
  generation : UInt64
  deriving DecidableEq

structure OperationStateInner where
  active : Option ActiveOperationIdentity := none
  nextGeneration : UInt64 := 1
  deriving DecidableEq

structure OperationGuard where
  kind : OperationKind
  generation : UInt64
  deriving DecidableEq

structure Busy where
  operation : String
  deriving DecidableEq

/-- `begin` under the lock of the operation state. -/
def admitKind (kind : OperationKind) (operationId : String) (shared : OperationStateInner) :
    Except Busy OperationGuard × OperationStateInner :=
  match shared.active with
  | some active => (.error ⟨OperationKind.asStr active.kind⟩, shared)
  | none =>
    let generation := shared.nextGeneration
    (.ok ⟨kind, generation⟩,
      { active := some ⟨kind, operationId, generation⟩
        nextGeneration := saturatingSucc generation })

def OperationGuard.holds (held : OperationGuard) (shared : OperationStateInner) : Bool :=
  shared.active.any fun active => active.kind = held.kind && active.generation = held.generation

/-- `SnapshotProjection`, as far as `set_active_operation` is concerned with it. -/
structure SnapshotProjection where
  revision : UInt64
  activeOperation : Option OperationKind
  deriving DecidableEq

/-- The fields of `SnapshotState` that `set_active_operation` writes. -/
structure ProjectedState where
  projection : Option SnapshotProjection
  lifecycleEpoch : UInt64
  deriving DecidableEq

def setActiveOperation (activeOperation : Option OperationKind) (state : ProjectedState) :
    ProjectedState where
  projection := state.projection.map fun projection =>
    { revision := projection.revision + 1, activeOperation := activeOperation }
  lifecycleEpoch :=
    if activeOperation.isNone then saturatingSucc state.lifecycleEpoch else state.lifecycleEpoch

/-- `beginning` has the guards of the `begin` calls that have yet to publish their kind,
`guards` those that were returned, and `ending` counts the drops that have yet to publish
that nothing is active. -/
structure World where
  shared : OperationStateInner := {}
  projected : ProjectedState
  beginning : List OperationGuard := []
  guards : List OperationGuard := []
  ending : Nat := 0
  deriving DecidableEq

/-- A session that was just constructed. -/
def World.start (revision lifecycleEpoch : UInt64) : World where
  projected := ⟨some ⟨revision, none⟩, lifecycleEpoch⟩

/-- What one thread does under one lock. -/
inductive Label where
  | beginAdmit (kind : OperationKind) (operationId : String)
  | beginPublish (index : Nat)
  | dropClear (index : Nat)
  | dropPublish

def World.dropPublished (world : World) : World :=
  { world with
    projected := setActiveOperation none world.projected
    ending := world.ending - 1 }

def step : Label → World → Option World
  | .beginAdmit kind operationId, world =>
    match admitKind kind operationId world.shared with
    | (.error _, shared) => some { world with shared }
    | (.ok held, shared) => some { world with shared, beginning := world.beginning ++ [held] }
  | .beginPublish index, world =>
    (world.beginning[index]?).map fun held =>
      { world with
        projected := setActiveOperation (some held.kind) world.projected
        beginning := world.beginning.eraseIdx index
        guards := world.guards ++ [held] }
  | .dropClear index, world =>
    (world.guards[index]?).map fun held =>
      if held.holds world.shared then
        { world with
          shared := { world.shared with active := none }
          guards := world.guards.eraseIdx index
          ending := world.ending + 1 }
      else { world with guards := world.guards.eraseIdx index }
  | .dropPublish, world =>
    if world.ending = 0 then none else some world.dropPublished

/-- The kind that `active` of the operation state reports. -/
def World.active (world : World) : Option OperationKind :=
  world.shared.active.map ActiveOperationIdentity.kind

/-- The kind that the projection reports. -/
def World.shown (world : World) : Option OperationKind :=
  world.projected.projection.bind SnapshotProjection.activeOperation

/-- Every call has returned. -/
def World.Settled (world : World) : Prop := world.beginning = [] ∧ world.ending = 0

instance (world : World) : Decidable world.Settled := by unfold World.Settled; infer_instance

/-- A drop does not publish after the next operation has published its kind. -/
def InTurn : Label → World → Prop
  | .dropPublish, world => world.shared.active = none ∨ world.beginning ≠ []
  | _, _ => True

instance (label : Label) (world : World) : Decidable (InTurn label world) := by
  unfold InTurn
  cases label <;> infer_instance

def ActiveOperationIdentity.guard (active : ActiveOperationIdentity) : OperationGuard :=
  ⟨active.kind, active.generation⟩

/-- The active operation has the only guard. -/
def World.Guarded (world : World) : Prop :=
  world.beginning ++ world.guards = world.shared.active.toList.map ActiveOperationIdentity.guard

theorem World.Guarded.few {world : World} (guarded : world.Guarded) :
    world.beginning.length + world.guards.length ≤ 1 := by
  have one := congrArg length guarded
  rw [length_append, length_map] at one
  have optional := Option.length_toList_le (o := world.shared.active)
  omega

/-- The projection is behind only while a call is
between its two sections. -/
structure ProjectionInv (world : World) : Prop where
  installed : world.projected.projection.isSome = true
  guarded : world.beginning ++ world.guards =
    world.shared.active.toList.map ActiveOperationIdentity.guard
  shown : world.beginning = [] → world.shared.active.isSome = true ∨ world.ending = 0 →
    world.shown = world.active

section steps

variable {before after : World}

theorem shown_setActiveOperation {world : World} (installed : world.projected.projection.isSome = true)
    {activeOperation : Option OperationKind} :
    (setActiveOperation activeOperation world.projected).projection.bind
      SnapshotProjection.activeOperation = activeOperation := by
  obtain ⟨projection, found⟩ := Option.isSome_iff_exists.mp installed
  simp [setActiveOperation, found]

theorem setActiveOperation_installed {state : ProjectedState}
    (installed : state.projection.isSome = true) (activeOperation : Option OperationKind) :
    (setActiveOperation activeOperation state).projection.isSome = true := by
  rw [setActiveOperation, Option.isSome_map]
  exact installed

theorem beginAdmit_inv (inv : ProjectionInv before) {kind : OperationKind} {operationId : String}
    (taken : step (.beginAdmit kind operationId) before = some after) : ProjectionInv after := by
  simp only [step, admitKind] at taken
  cases active : before.shared.active with
  | some identity =>
    simp only [active, Option.some.injEq] at taken
    rw [← taken]
    exact inv
  | none =>
    simp only [active, Option.some.injEq] at taken
    have free := inv.guarded
    rw [active] at free
    obtain ⟨none_beginning, none_guards⟩ := append_eq_nil_iff.mp free
    subst taken
    refine ⟨inv.installed, ?_, ?_⟩
    · simp only [none_beginning, none_guards]
      rfl
    · intro idle
      rw [none_beginning] at idle
      cases idle

theorem eraseIdx_of_optional {α : Type} {xs : List α} {x : α} {index : Nat} (short : xs.length ≤ 1)
    (found : xs[index]? = some x) : xs = [x] ∧ xs.eraseIdx index = [] := by
  obtain ⟨inside, rfl⟩ := List.getElem?_eq_some_iff.mp found
  have first : index = 0 := by omega
  subst first
  obtain ⟨only, rfl⟩ := length_eq_one_iff.mp (by omega : xs.length = 1)
  exact ⟨rfl, rfl⟩

section

variable (inv : ProjectionInv before)
include inv

theorem ProjectionInv.few : before.beginning.length + before.guards.length ≤ 1 :=
  World.Guarded.few inv.guarded

theorem beginPublish_inv {index : Nat} (taken : step (.beginPublish index) before = some after) :
    ProjectionInv after := by
  obtain ⟨held, found, rfl⟩ := Option.map_eq_some_iff.mp taken
  have few := inv.few
  obtain ⟨only, none_left⟩ := eraseIdx_of_optional (by omega) found
  have guarded := inv.guarded
  rw [only] at guarded
  cases active : before.shared.active with
  | none =>
    rw [active] at guarded
    cases guarded
  | some identity =>
    rw [active] at guarded
    obtain ⟨same, none_guards⟩ := cons_eq_cons.mp guarded
    refine ⟨setActiveOperation_installed inv.installed _, ?_, fun _ _ => ?_⟩
    · simp only [none_left, active]
      rw [nil_append, same, show before.guards = [] from none_guards]
      rfl
    · simp only [World.shown, World.active, active]
      rw [shown_setActiveOperation inv.installed, same]
      rfl

theorem dropClear_inv {index : Nat} (taken : step (.dropClear index) before = some after) :
    ProjectionInv after := by
  obtain ⟨held, found, rfl⟩ := Option.map_eq_some_iff.mp taken
  have few := inv.few
  obtain ⟨only, none_left⟩ := eraseIdx_of_optional (by omega) found
  have guarded := inv.guarded
  rw [only] at guarded few
  have idle : before.beginning = [] := length_eq_zero_iff.mp (by
    rw [length_singleton] at few
    omega)
  rw [idle, nil_append] at guarded
  cases active : before.shared.active with
  | none =>
    rw [active] at guarded
    cases guarded
  | some identity =>
    rw [active] at guarded
    obtain ⟨same, -⟩ := cons_eq_cons.mp guarded
    have own : held.holds before.shared = true := by
      simp [OperationGuard.holds, active, same, ActiveOperationIdentity.guard]
    rw [if_pos own]
    refine ⟨inv.installed, ?_, fun _ behind => ?_⟩
    · simp only [idle, none_left]
      rfl
    · rcases behind with still | none_ending
      · cases still
      · simp only [Nat.add_eq_zero_iff] at none_ending
        exact absurd none_ending.2 Nat.one_ne_zero

theorem dropPublish_inv (inTurn : InTurn .dropPublish before)
    (taken : step .dropPublish before = some after) : ProjectionInv after := by
  simp only [step] at taken
  split at taken
  · cases taken
  · cases taken
    refine ⟨setActiveOperation_installed inv.installed _, inv.guarded, fun idle _ => ?_⟩
    rcases inTurn with cleared | pending
    · have hidden : before.dropPublished.active = none := by
        simp [World.active, World.dropPublished, cleared]
      rw [hidden]
      exact shown_setActiveOperation inv.installed
    · exact absurd idle pending

theorem step_inv {label : Label} (inTurn : InTurn label before)
    (taken : step label before = some after) : ProjectionInv after := by
  cases label with
  | beginAdmit kind operationId => exact beginAdmit_inv inv taken
  | beginPublish index => exact beginPublish_inv inv taken
  | dropClear index => exact dropClear_inv inv taken
  | dropPublish => exact dropPublish_inv inv inTurn taken

end

theorem start_inv (revision lifecycleEpoch : UInt64) :
    ProjectionInv (World.start revision lifecycleEpoch) :=
  ⟨rfl, rfl, fun _ _ => rfl⟩

end steps

/-- Where no drop publishes out of turn, the projection shows the active operation whenever
no call is under way. -/
theorem shown_eq_active {revision lifecycleEpoch : UInt64} {labels : List Label} {world : World}
    (reached : Transition.Run step InTurn (World.start revision lifecycleEpoch) labels world)
    (settled : world.Settled) : world.shown = world.active := by
  have inv : ProjectionInv world := reached.invariant
    (fun _ _ _ inv inTurn taken => step_inv inv inTurn taken) (start_inv revision lifecycleEpoch)
  exact inv.shown settled.1 (.inr settled.2)

def overtakenDrop : List Label :=
  [.beginAdmit .prompt "op_1", .beginPublish 0, .dropClear 0, .beginAdmit .compact "op_2",
    .beginPublish 0, .dropPublish]

/-- The drop of the first operation publishes last: nothing is shown as active. -/
theorem overtaken_drop_hides_operation :
    ∃ world, Transition.follow step overtakenDrop (World.start 1 0) = some world ∧
      world.Settled ∧ world.shown = none ∧ world.active = some .compact := by
  refine ⟨_, rfl, ?_, rfl, rfl⟩
  decide

/-- The same calls, with the drop of the first operation in turn. -/
theorem shown_eq_active_handover :
    ∃ world, Transition.Run step InTurn (World.start 1 0)
        [.beginAdmit .prompt "op_1", .beginPublish 0, .dropClear 0, .beginAdmit .compact "op_2",
          .dropPublish, .beginPublish 0] world ∧
      world.Settled ∧ world.shown = world.active := by
  have reached : Transition.Run step InTurn (World.start 1 0)
      [.beginAdmit .prompt "op_1", .beginPublish 0, .dropClear 0, .beginAdmit .compact "op_2",
        .dropPublish, .beginPublish 0] _ := .of_guarded rfl
  exact ⟨_, reached, by decide, shown_eq_active reached (by decide)⟩

section exclusion

variable {before after world : World} (guarded : world.Guarded)
include guarded

theorem World.Guarded.holds {held : OperationGuard} (own : held ∈ world.beginning ++ world.guards) :
    held.holds world.shared = true := by
  rw [guarded] at own
  cases active : world.shared.active with
  | none =>
    rw [active] at own
    cases own
  | some identity =>
    rw [active] at own
    cases mem_singleton.mp own
    simp [OperationGuard.holds, active, ActiveOperationIdentity.guard]

theorem World.Guarded.step {label : Label} (taken : step label world = some after) :
    after.Guarded := by
  have few := guarded.few
  cases label with
  | beginAdmit kind operationId =>
    simp only [OperationControl.step, admitKind] at taken
    cases active : world.shared.active with
    | some identity =>
      simp only [active, Option.some.injEq] at taken
      rw [← taken]
      exact guarded
    | none =>
      rw [Guarded, active] at guarded
      obtain ⟨none_beginning, none_guards⟩ := append_eq_nil_iff.mp guarded
      simp only [active, Option.some.injEq] at taken
      rw [← taken, Guarded, none_beginning, none_guards]
      rfl
  | beginPublish index =>
    obtain ⟨held, found, rfl⟩ := Option.map_eq_some_iff.mp taken
    obtain ⟨only, none_left⟩ := eraseIdx_of_optional (by omega) found
    rw [only, length_singleton] at few
    have none_guards : world.guards = [] := length_eq_zero_iff.mp (by omega)
    rw [Guarded, only, none_guards] at guarded
    rw [Guarded, none_left, none_guards]
    exact guarded
  | dropClear index =>
    obtain ⟨held, found, rfl⟩ := Option.map_eq_some_iff.mp taken
    have own := guarded.holds (mem_append_right _ (mem_of_getElem? found))
    obtain ⟨only, none_left⟩ := eraseIdx_of_optional (by omega) found
    rw [only, length_singleton] at few
    have idle : world.beginning = [] := length_eq_zero_iff.mp (by omega)
    rw [if_pos own, Guarded, none_left, idle]
    rfl
  | dropPublish =>
    simp only [OperationControl.step] at taken
    split at taken
    · cases taken
    · cases taken
      exact guarded

end exclusion

/-- In every interleaving there is at most one operation. While it has its guard every other is
refused with its kind, and dropping the guard ends it, whoever published last. -/
theorem operations_exclusive {revision lifecycleEpoch : UInt64} {labels : List Label} {world : World}
    (reached : Transition.follow step labels (.start revision lifecycleEpoch) = some world) :
    world.beginning.length + world.guards.length ≤ 1 ∧
      (∀ held ∈ world.beginning ++ world.guards, held.holds world.shared = true ∧
        ∀ kind operationId,
          admitKind kind operationId world.shared =
            (.error ⟨OperationKind.asStr held.kind⟩, world.shared)) ∧
      (world.beginning ++ world.guards = [] → world.shared.active = none) := by
  have run : Transition.Run step (fun _ _ => True) (.start revision lifecycleEpoch) labels world :=
    .of_follow (fun _ _ _ => trivial) reached
  have first : (World.start revision lifecycleEpoch).Guarded := rfl
  have guarded : world.Guarded :=
    run.invariant (fun _ _ _ (guarded : World.Guarded _) _ taken => guarded.step taken) first
  refine ⟨guarded.few, fun held own => ⟨guarded.holds own, fun kind operationId => ?_⟩, ?_⟩
  · have holds := guarded.holds own
    unfold OperationGuard.holds at holds
    cases active : world.shared.active with
    | none =>
      rw [active] at holds
      cases holds
    | some identity =>
      rw [active, Option.any_some, Bool.and_eq_true, decide_eq_true_eq] at holds
      rw [admitKind, active, ← holds.1]
  · intro none_held
    rw [World.Guarded, none_held] at guarded
    cases active : world.shared.active with
    | none => rfl
    | some identity =>
      rw [active] at guarded
      cases guarded

theorem operations_exclusive_overtaken : ∃ world,
    Transition.follow step overtakenDrop (World.start 1 0) = some world ∧
      world.beginning.length + world.guards.length ≤ 1 ∧ world.active = some .compact :=
  ⟨_, rfl, (@operations_exclusive 1 0 overtakenDrop _ rfl).1, rfl⟩

end PiRust.OperationControl
