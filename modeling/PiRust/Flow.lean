import Mathlib.Data.List.Basic

/- `flow.rs`: nodes joined by edges on actions. Identifiers, actions and what a
node is stay parameters. -/
namespace PiRust

inductive FlowError (ι α : Type) where
  | duplicateNode (node : ι)
  | unknownNode (node : ι)
  | missingStartNode (node : ι)
  | missingTransition (node : ι) (action : α)
  | maxStepsExceeded (maxSteps : Nat)
  | cancelled
  | nodeFailed (node : ι) (message : String)
  deriving DecidableEq, Repr

structure FlowOutcome (ι α : Type) where
  lastNode : ι
  lastAction : α
  steps : Nat
  path : List ι
  deriving DecidableEq, Repr

structure FlowRunOptions where
  maxSteps : Nat := 1024
  strictMissingTransition : Bool := true

/-- The maps are kept newest first, so a later insertion hides an earlier one. -/
structure Flow (ν ι α : Type) where
  start : ι
  nodes : List (ι × ν) := []
  transitions : List ((ι × α) × ι) := []

section
variable {ν ι α : Type} [DecidableEq ι] [DecidableEq α]

def Flow.node? (flow : Flow ν ι α) (id : ι) : Option ν :=
  (flow.nodes.find? fun entry => entry.1 = id).map Prod.snd

def Flow.next? (flow : Flow ν ι α) (id : ι) (action : α) : Option ι :=
  (flow.transitions.find? fun edge => edge.1 = (id, action)).map Prod.snd

def Flow.hasOutgoingTransition (flow : Flow ν ι α) (id : ι) : Bool :=
  flow.transitions.any fun edge => edge.1.1 = id

def Flow.addNode (flow : Flow ν ι α) (id : ι) (node : ν) : Except (FlowError ι α) (Flow ν ι α) :=
  if (flow.node? id).isSome then .error (.duplicateNode id)
  else .ok { flow with nodes := (id, node) :: flow.nodes }

def Flow.edgeOn (flow : Flow ν ι α) (source : ι) (action : α) (target : ι) :
    Except (FlowError ι α) (Flow ν ι α) :=
  if (flow.node? source).isNone then .error (.unknownNode source)
  else if (flow.node? target).isNone then .error (.unknownNode target)
  else .ok { flow with transitions := ((source, action), target) :: flow.transitions }

variable {flow : Flow ν ι α}

theorem Flow.next?_mem {id next : ι} {action : α} (found : flow.next? id action = some next) :
    ((id, action), next) ∈ flow.transitions := by
  obtain ⟨edge, first, rfl⟩ := Option.map_eq_some_iff.mp found
  have key := List.find?_some first
  rw [← of_decide_eq_true key]
  exact List.mem_of_find?_eq_some first

/-- Where `run_with_options` stands between two nodes. -/
structure Cursor (ι : Type) where
  current : ι
  steps : Nat
  path : List ι
  deriving DecidableEq, Repr

/-- The checks before the loop: the start node exists and nothing cancelled the run. -/
def Flow.begin (flow : Flow ν ι α) (cancelled : Bool) : Except (FlowError ι α) (Cursor ι) :=
  if (flow.node? flow.start).isNone then .error (.missingStartNode flow.start)
  else if cancelled then .error .cancelled
  else .ok ⟨flow.start, 0, []⟩

def Flow.enter (flow : Flow ν ι α) (options : FlowRunOptions) (cancelled : Bool)
    (cursor : Cursor ι) : Except (FlowError ι α) ν :=
  if cancelled then .error .cancelled
  else if options.maxSteps ≤ cursor.steps then .error (.maxStepsExceeded options.maxSteps)
  else match flow.node? cursor.current with
    | none => .error (.unknownNode cursor.current)
    | some node => .ok node

/-- The rest of the loop body, after the node has run: the next cursor, or the
end of the run. -/
def Flow.leave (flow : Flow ν ι α) (options : FlowRunOptions) (cursor : Cursor ι)
    (result : Except String α) : Cursor ι ⊕ Except (FlowError ι α) (FlowOutcome ι α) :=
  let steps := cursor.steps + 1
  let path := cursor.path ++ [cursor.current]
  match result with
  | .error message => .inr (.error (.nodeFailed cursor.current message))
  | .ok action =>
    match flow.next? cursor.current action with
    | some next => .inl ⟨next, steps, path⟩
    | none =>
      if flow.hasOutgoingTransition cursor.current && options.strictMissingTransition then
        .inr (.error (.missingTransition cursor.current action))
      else .inr (.ok ⟨cursor.current, action, steps, path⟩)

theorem Flow.leave_next {options : FlowRunOptions} {cursor after : Cursor ι}
    {result : Except String α} (left : flow.leave options cursor result = .inl after) :
    ∃ action, result = .ok action ∧ flow.next? cursor.current action = some after.current ∧
      after.steps = cursor.steps + 1 := by
  unfold Flow.leave at left
  cases result with
  | error message => cases left
  | ok action =>
    cases next : flow.next? cursor.current action with
    | some id =>
      simp only [next, Sum.inl.injEq] at left
      subst left
      exact ⟨action, rfl, next, rfl⟩
    | none =>
      simp only [next] at left
      split at left <;> cases left

theorem Flow.leave_end {options : FlowRunOptions} {cursor : Cursor ι} {result : Except String α}
    {outcome : Except (FlowError ι α) (FlowOutcome ι α)} {action : α}
    (left : flow.leave options cursor result = .inr outcome) (taken : result = .ok action) :
    flow.next? cursor.current action = none := by
  subst taken
  cases next : flow.next? cursor.current action with
  | none => rfl
  | some id => simp [Flow.leave, next] at left

end

end PiRust
