import Mathlib.Data.Finset.Basic
import Mathlib.Data.List.Chain
import Mathlib.Data.Set.Basic
import Mathlib.Order.Basic
import PiRust.PublicOperation

/- `capability_snapshot.rs` and `capability_snapshot_for_delegated_profile` of
`delegation.rs`: what an operation may use, and what it hands on. -/
namespace PiRust.Capability

open List

structure CapabilityGeneration where
  value : UInt64
  positive : 1 ≤ value
  deriving DecidableEq

inductive ActorId where
  | client
  | plugin (pluginId : String)
  | childOperation (operationId : String)
  deriving DecidableEq

structure ModelCapability where
  profileId : Option String
  deriving DecidableEq

structure ToolCapabilitySet where
  allowAll : Bool
  allowed : Finset String
  deriving DecidableEq

def ToolCapabilitySet.fromNames (names : List String) : ToolCapabilitySet where
  allowAll := false
  allowed := names.toFinset

def ToolCapabilitySet.allows (tools : ToolCapabilitySet) (name : String) : Bool :=
  tools.allowAll || name ∈ tools.allowed

structure CommandCapabilitySet where
  allowed : Finset String := ∅
  deriving DecidableEq

structure FilesystemCapability where
  cwd : String
  deriving DecidableEq

structure ShellCapability where
  cwd : String
  deriving DecidableEq

def toolUsesFilesystem (name : String) : Bool :=
  name ∈ ["read", "write", "edit", "grep", "find", "ls"]

structure SessionReadCapability where
  persistent : Bool
  deriving DecidableEq

structure SessionWriteCapability where
  persistent : Bool
  deriving DecidableEq

structure UiCapability where
  deriving DecidableEq

structure PluginCapabilitySet where
  toolProviders : Nat
  commandProviders : Nat
  hookProviders : Nat
  uiProviders : Nat
  keybindProviders : Nat
  flowExtensions : Nat
  deriving DecidableEq

structure PluginCapabilities extends PluginCapabilitySet where
  diagnostics : Nat

structure OperationCapabilitySnapshot where
  generation : CapabilityGeneration
  operationId : String
  actor : ActorId
  model : Option ModelCapability
  tools : ToolCapabilitySet
  commands : CommandCapabilitySet
  filesystem : Option FilesystemCapability
  shell : Option ShellCapability
  sessionRead : Option SessionReadCapability
  sessionWrite : Option SessionWriteCapability
  ui : Option UiCapability
  plugin : PluginCapabilitySet

structure CapabilitySnapshotInput where
  operationId : String
  operationKind : OperationKind
  actor : ActorId
  defaultProfileId : String
  pluginCapabilities : PluginCapabilities
  persistentSession : Bool
  cwd : Option String
  runtimeTools : List String
  profileTools : List String

/-- The service, with the generation that its coordinator has installed. -/
structure CapabilitySnapshotService where
  currentGeneration : CapabilityGeneration

def CapabilitySnapshotService.snapshot (service : CapabilitySnapshotService)
    (input : CapabilitySnapshotInput) : OperationCapabilitySnapshot :=
  let writesSession := match input.operationKind with
    | .prompt | .compact | .branchSummary | .forkSession | .selfHealingEdit => true
    | _ => false
  let readsSession := writesSession || input.operationKind = .export
  let model := match input.operationKind with
    | .prompt | .compact | .branchSummary | .agentInvocation | .agentTeam | .selfHealingEdit =>
      some ⟨some input.defaultProfileId⟩
    | _ => none
  let allowedTools :=
    if input.profileTools.isEmpty then []
    else input.runtimeTools.filter fun name => input.profileTools.any fun allowed => allowed = name
  { generation := service.currentGeneration
    operationId := input.operationId
    actor := input.actor
    model := model
    tools := .fromNames allowedTools
    commands := {}
    filesystem :=
      (input.cwd.filter fun _ => allowedTools.any toolUsesFilesystem).map fun cwd => ⟨cwd⟩
    shell :=
      (input.cwd.filter fun _ => allowedTools.any fun name => name = "bash").map fun cwd => ⟨cwd⟩
    sessionRead := bif readsSession then some ⟨input.persistentSession⟩ else none
    sessionWrite := bif writesSession then some ⟨input.persistentSession⟩ else none
    ui := none
    plugin := input.pluginCapabilities.toPluginCapabilitySet }

/-- The fields of a `DelegationPolicy` that decide which tools it offers. -/
structure DelegationPolicy where
  allowDelegateAgent : Bool
  allowDelegateTeam : Bool

structure AgentProfile where
  id : String
  tools : List String
  delegation : DelegationPolicy

/-- The names of the tools that `delegation_tools` makes. -/
def delegationTools (policy : Option DelegationPolicy) : List String :=
  match policy with
  | none => []
  | some policy =>
    (if policy.allowDelegateAgent then ["delegate_agent"] else []) ++
      (if policy.allowDelegateTeam then ["delegate_team"] else [])

def releasedTools (parent : OperationCapabilitySnapshot) (profile : AgentProfile) : List String :=
  (delegationTools (some profile.delegation)).foldl
    (fun released tool =>
      if parent.tools.allows tool && !released.any (fun name => name = tool) then released ++ [tool]
      else released)
    (profile.tools.filter parent.tools.allows)

def capabilitySnapshotForDelegatedProfile (parent : OperationCapabilitySnapshot)
    (operationId : String) (profile : AgentProfile) (actor : ActorId) :
    OperationCapabilitySnapshot :=
  let released := releasedTools parent profile
  let releasesFilesystem := released.any toolUsesFilesystem
  { generation := parent.generation
    operationId := operationId
    actor := actor
    model := some ⟨some profile.id⟩
    tools := .fromNames released
    commands := {}
    filesystem := parent.filesystem.filter fun _ => releasesFilesystem
    shell := parent.shell.filter fun _ => profile.tools.any fun name => name = "bash"
    sessionRead := none
    sessionWrite := none
    ui := none
    plugin := parent.plugin }

/-- One delegation: the child operation, its profile and its actor. -/
structure Delegation where
  operationId : String
  profile : AgentProfile
  actor : ActorId

def Delegation.apply (delegation : Delegation) (parent : OperationCapabilitySnapshot) :
    OperationCapabilitySnapshot :=
  capabilitySnapshotForDelegatedProfile parent delegation.operationId delegation.profile
    delegation.actor

/-- The snapshots of a chain of delegations, the first one included. -/
def chain (parent : OperationCapabilitySnapshot) :
    List Delegation → List OperationCapabilitySnapshot
  | [] => [parent]
  | delegation :: rest => parent :: chain (delegation.apply parent) rest

/-- Shell and files are there for a tool that uses them. -/
structure Confined (snapshot : OperationCapabilitySnapshot) : Prop where
  shell : snapshot.shell.isSome → snapshot.tools.allows "bash" = true
  filesystem : snapshot.filesystem.isSome →
    ∃ name, toolUsesFilesystem name = true ∧ snapshot.tools.allows name = true

/-- What a child may do its parent may do, and the session and the user stay with the parent. -/
structure Attenuates (parent child : OperationCapabilitySnapshot) : Prop extends
    Confined child where
  tools : ∀ name, child.tools.allows name = true → parent.tools.allows name = true
  sameFilesystem : ∀ held, child.filesystem = some held → parent.filesystem = some held
  sameShell : ∀ held, child.shell = some held → parent.shell = some held
  sessionRead : child.sessionRead = none
  sessionWrite : child.sessionWrite = none
  ui : child.ui = none

@[simp] theorem ToolCapabilitySet.allows_fromNames (names : List String) (name : String) :
    (ToolCapabilitySet.fromNames names).allows name = true ↔ name ∈ names := by
  simp [ToolCapabilitySet.allows, ToolCapabilitySet.fromNames]

section delegation

variable {parent : OperationCapabilitySnapshot}

theorem mem_foldl_released (tools released : List String) (name : String) :
    name ∈ tools.foldl (fun released tool =>
        if parent.tools.allows tool && !released.any (fun name => name = tool) then
          released ++ [tool]
        else released) released ↔
      name ∈ released ∨ name ∈ tools ∧ parent.tools.allows name = true := by
  induction tools generalizing released with
  | nil => simp
  | cons tool tools ih =>
    rw [foldl_cons, ih, mem_cons]
    by_cases known : tool ∈ released
    · have skipped : released.any (fun name => name = tool) = true :=
        any_eq_true.mpr ⟨tool, known, decide_eq_true rfl⟩
      simp only [skipped, Bool.not_true, Bool.and_false, Bool.false_eq_true, if_false]
      constructor
      · tauto
      · rintro (old | ⟨rfl | later, allowed⟩)
        · exact .inl old
        · exact .inl known
        · exact .inr ⟨later, allowed⟩
    · have fresh : released.any (fun name => name = tool) = false := by
        rw [Bool.eq_false_iff]
        intro found
        obtain ⟨other, member, same⟩ := any_eq_true.mp found
        exact known (of_decide_eq_true same ▸ member)
      by_cases allowed : parent.tools.allows tool = true
      · simp only [allowed, fresh, Bool.not_false, Bool.and_self, if_true, mem_append,
          mem_singleton]
        constructor
        · rintro ((old | rfl) | later)
          · exact .inl old
          · exact .inr ⟨.inl rfl, allowed⟩
          · exact .inr ⟨.inr later.1, later.2⟩
        · tauto
      · simp only [allowed, Bool.false_and, Bool.false_eq_true, if_false]
        constructor
        · tauto
        · rintro (old | ⟨rfl | later, granted⟩)
          · exact .inl old
          · exact absurd granted allowed
          · exact .inr ⟨later, granted⟩

theorem mem_releasedTools (profile : AgentProfile) (name : String) :
    name ∈ releasedTools parent profile ↔ parent.tools.allows name = true ∧
      (name ∈ profile.tools ∨ name ∈ delegationTools (some profile.delegation)) := by
  rw [releasedTools, mem_foldl_released, mem_filter]
  tauto

theorem releasedTools_allowed (profile : AgentProfile) {name : String}
    (released : name ∈ releasedTools parent profile) : parent.tools.allows name = true :=
  ((mem_releasedTools profile name).mp released).1

theorem Delegation.attenuates (delegation : Delegation) (confined : Confined parent) :
    Attenuates parent (delegation.apply parent) where
  shell := by
    intro held
    obtain ⟨shell, given⟩ := Option.isSome_iff_exists.mp held
    obtain ⟨owned, named⟩ := Option.filter_eq_some_iff.mp given
    -- The filter looks at the profile alone: that the parent has `bash` is its own invariant.
    have allowed := confined.shell (Option.isSome_of_mem owned)
    obtain ⟨name, listed, same⟩ := any_eq_true.mp named
    rw [of_decide_eq_true same] at listed
    exact (ToolCapabilitySet.allows_fromNames _ _).mpr
      ((mem_releasedTools delegation.profile "bash").mpr ⟨allowed, .inl listed⟩)
  filesystem := by
    intro held
    obtain ⟨filesystem, given⟩ := Option.isSome_iff_exists.mp held
    obtain ⟨owned, used⟩ := Option.filter_eq_some_iff.mp given
    obtain ⟨name, released, uses⟩ := any_eq_true.mp used
    exact ⟨name, uses, (ToolCapabilitySet.allows_fromNames _ _).mpr released⟩
  tools := by
    intro name allowed
    exact releasedTools_allowed delegation.profile
      ((ToolCapabilitySet.allows_fromNames _ _).mp allowed)
  sameFilesystem _ given := (Option.filter_eq_some_iff.mp given).1
  sameShell _ given := (Option.filter_eq_some_iff.mp given).1
  sessionRead := rfl
  sessionWrite := rfl
  ui := rfl

end delegation

theorem any_of_filtered {α : Type} {cwd : Option String} {tools : List String}
    {uses : String → Bool} {grant : String → α}
    (held : ((cwd.filter fun _ => tools.any uses).map grant).isSome) :
    ∃ name ∈ tools, uses name = true := by
  rw [Option.isSome_map] at held
  obtain ⟨directory, given⟩ := Option.isSome_iff_exists.mp held
  exact any_eq_true.mp (Option.filter_eq_some_iff.mp given).2

theorem CapabilitySnapshotService.snapshot_confined (service : CapabilitySnapshotService)
    (input : CapabilitySnapshotInput) : Confined (service.snapshot input) where
  shell := by
    intro held
    obtain ⟨name, allowed, same⟩ := any_of_filtered held
    rw [of_decide_eq_true same] at allowed
    exact (ToolCapabilitySet.allows_fromNames _ _).mpr allowed
  filesystem := by
    intro held
    obtain ⟨name, allowed, uses⟩ := any_of_filtered held
    exact ⟨name, uses, (ToolCapabilitySet.allows_fromNames _ _).mpr allowed⟩

theorem chain_head (parent : OperationCapabilitySnapshot) (delegations : List Delegation) :
    ∃ rest, chain parent delegations = parent :: rest := by
  cases delegations <;> exact ⟨_, rfl⟩

theorem chain_attenuates (parent : OperationCapabilitySnapshot) (delegations : List Delegation)
    (confined : Confined parent) : (chain parent delegations).IsChain Attenuates := by
  induction delegations generalizing parent with
  | nil => exact List.IsChain.singleton _
  | cons delegation rest ih =>
    have first := delegation.attenuates confined
    have later := ih (delegation.apply parent) first.toConfined
    obtain ⟨others, same⟩ := chain_head (delegation.apply parent) rest
    rw [chain, same]
    rw [same] at later
    exact isChain_cons_cons.mpr ⟨first, later⟩

/-- Every delegation of a chain attenuates what its parent hands on. -/
theorem delegations_attenuate (service : CapabilitySnapshotService)
    (input : CapabilitySnapshotInput) (delegations : List Delegation) :
    (chain (service.snapshot input) delegations).IsChain Attenuates :=
  chain_attenuates _ delegations (service.snapshot_confined input)

end PiRust.Capability
