import PiRust.Flow

/- `flow.rs`: how a flow is built, and `run_with_options` with the events that it emits. -/
namespace PiRust.FlowRuns

open List

structure NodeId where
  value : String
  nonempty : value ≠ ""
  deriving DecidableEq

structure Action where
  value : String
  nonempty : value ≠ ""
  deriving DecidableEq

/-- The constructors of `FlowError` that only building a flow gives, and the others. -/
inductive BuildError where
  | emptyAction
  | emptyNodeId
  | flow (error : FlowError NodeId Action)
  deriving DecidableEq

def NodeId.new (value : String) : Except BuildError NodeId :=
  if empty : value = "" then .error .emptyNodeId else .ok ⟨value, empty⟩

def Action.new (value : String) : Except BuildError Action :=
  if empty : value = "" then .error .emptyAction else .ok ⟨value, empty⟩

def Action.default : Action := ⟨"default", by decide⟩

structure FlowNode (σ : Type) where
  name : String
  run : σ → Except String Action × σ

section building

variable {σ : Type}

abbrev NodeFlow (σ : Type) := Flow (FlowNode σ) NodeId Action

def addNode (flow : NodeFlow σ) (id : String) (node : FlowNode σ) :
    Except BuildError (NodeFlow σ) := do
  let id ← NodeId.new id
  (flow.addNode id node).mapError .flow

def edgeOn (flow : NodeFlow σ) (source : String) (action : Action) (target : String) :
    Except BuildError (NodeFlow σ) := do
  let source ← NodeId.new source
  let target ← NodeId.new target
  (flow.edgeOn source action target).mapError .flow

def edge (flow : NodeFlow σ) (source target : String) : Except BuildError (NodeFlow σ) :=
  edgeOn flow source .default target

inductive BuildCall (σ : Type) where
  | addNode (id : String) (node : FlowNode σ)
  | edgeOn (source : String) (action : Action) (target : String)

def BuildCall.apply (flow : NodeFlow σ) : BuildCall σ → Except BuildError (NodeFlow σ)
  | .addNode id node => FlowRuns.addNode flow id node
  | .edgeOn source action target => FlowRuns.edgeOn flow source action target

/-- A call that fails leaves the flow as it is. -/
def call (flow : NodeFlow σ) (made : BuildCall σ) : NodeFlow σ :=
  match made.apply flow with
  | .ok flow => flow
  | .error _ => flow

abbrev Edge := (NodeId × Action) × NodeId

def insertedBy (flow : NodeFlow σ) : BuildCall σ → Option Edge
  | .addNode _ _ => none
  | .edgeOn source action target =>
    match NodeId.new source, NodeId.new target, edgeOn flow source action target with
    | .ok source, .ok target, .ok _ => some ((source, action), target)
    | _, _, _ => none

/-- The edges that calls insert, one after the other. -/
def inserted (flow : NodeFlow σ) : List (BuildCall σ) → List Edge
  | [] => []
  | made :: calls => (insertedBy flow made).toList ++ inserted (call flow made) calls

end building

section running

variable {σ : Type} (flow : NodeFlow σ) (options : FlowRunOptions)

inductive FlowEvent where
  | started (start : NodeId)
  | nodeStart (node : NodeId) (name : String) (step : Nat)
  | nodeEnd (node : NodeId) (name : String) (action : Action) (step : Nat)
  | missingTransition (node : NodeId) (action : Action)
  | completed (outcome : FlowOutcome NodeId Action)
  | error (error : FlowError NodeId Action)
  deriving DecidableEq

structure Visit where
  id : NodeId
  result : Except String Action

structure FlowRun (σ : Type) where
  events : List FlowEvent
  visits : List Visit
  result : Except (FlowError NodeId Action) (FlowOutcome NodeId Action)
  ctx : σ

/-- `fail`; an unknown node is returned without an event. -/
def failed (error : FlowError NodeId Action) (ctx : σ) : FlowRun σ :=
  match error with
  | .unknownNode _ => ⟨[], [], .error error, ctx⟩
  | _ => ⟨[.error error], [], .error error, ctx⟩

def endEvents (cursor : Cursor NodeId) (name : String) : Except String Action → List FlowEvent
  | .ok action => [.nodeEnd cursor.current name action (cursor.steps + 1)]
  | .error _ => []

def lastEvents : Except (FlowError NodeId Action) (FlowOutcome NodeId Action) → List FlowEvent
  | .error error => [.error error]
  | .ok outcome =>
    (if flow.hasOutgoingTransition outcome.lastNode then
      [.missingTransition outcome.lastNode outcome.lastAction] else []) ++ [.completed outcome]

/-- The loop of `run_with_options`; `cancelled` tells what each look at the token finds. There is no
run where the loop goes on longer than there are rounds. -/
def loop (cancelled : Nat → Bool) : Nat → Cursor NodeId → σ → Option (FlowRun σ)
  | 0, _, _ => none
  | rounds + 1, cursor, ctx =>
    match flow.enter options (cancelled (cursor.steps + 1)) cursor with
    | .error error => some (failed error ctx)
    | .ok node =>
      let ran := node.run ctx
      let events := .nodeStart cursor.current node.name (cursor.steps + 1) ::
        endEvents cursor node.name ran.1
      let visit := ⟨cursor.current, ran.1⟩
      match flow.leave options cursor ran.1 with
      | .inl next =>
        (loop cancelled rounds next ran.2).map fun later =>
          { later with events := events ++ later.events, visits := visit :: later.visits }
      | .inr result => some ⟨events ++ lastEvents flow result, [visit], result, ran.2⟩

end running

section built

variable {σ : Type} {flow : NodeFlow σ}

/-- Every edge leads to a node of the flow. -/
def Closed (flow : NodeFlow σ) : Prop := ∀ edge ∈ flow.transitions, (flow.node? edge.2).isSome

variable (start : NodeId) (calls : List (BuildCall σ))

end built

section walking

variable {σ : Type} {flow : NodeFlow σ} {options : FlowRunOptions} {cancelled : Nat → Bool}

def Follows (target : NodeId → Action → Option NodeId) (visit next : Visit) : Prop :=
  ∃ action, visit.result = .ok action ∧ target visit.id action = some next.id

def Ended (run : FlowRun σ) : Prop :=
  ∀ before node name step after, run.events = before ++ .nodeStart node name step :: after →
    (∃ action rest, after = .nodeEnd node name action step :: rest) ∨
      ∃ message, after = [.error (.nodeFailed node message)] ∧
        run.visits.getLast? = some ⟨node, .error message⟩

def startedNode : FlowEvent → Option (NodeId × Nat)
  | .nodeStart node _ step => some (node, step)
  | _ => none

/-- A run is a walk along the edges, within the limit of steps. -/
structure Walks (target : NodeId → Action → Option NodeId) (options : FlowRunOptions)
    (cursor : Cursor NodeId) (run : FlowRun σ) : Prop where
  bounded : cursor.steps + run.visits.length ≤ options.maxSteps
  first : ∀ visit ∈ run.visits.head?, visit.id = cursor.current
  linked : run.visits.IsChain (Follows target)
  known : ∀ node, run.result ≠ .error (.unknownNode node)
  counted : ∀ outcome, run.result = .ok outcome →
    outcome.steps = cursor.steps + run.visits.length ∧
      outcome.path = cursor.path ++ run.visits.map Visit.id
  stopped : ∀ outcome, run.result = .ok outcome →
    run.visits.getLast? = some ⟨outcome.lastNode, .ok outcome.lastAction⟩ ∧
      target outcome.lastNode outcome.lastAction = none
  ended : Ended run
  started : run.events.filterMap startedNode = (run.visits.map Visit.id).zipIdx (cursor.steps + 1)

/-- An end without a missing transition: no edge leaves the last node. -/
def Strict (flow : NodeFlow σ) (options : FlowRunOptions) (run : FlowRun σ) : Prop :=
  ∀ outcome, run.result = .ok outcome → options.strictMissingTransition →
    flow.hasOutgoingTransition outcome.lastNode = false

variable {cursor : Cursor NodeId} {error : FlowError NodeId Action}

variable {stop : Bool}

variable {given : Except String Action}

end walking

end PiRust.FlowRuns
