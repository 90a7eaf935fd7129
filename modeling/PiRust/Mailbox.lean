import Mathlib.Data.List.Basic

/- `queues.rs` and the queue handling of `agent.rs` and `agent_turn_flow/context.rs`.
What a message is stays a parameter. -/
namespace PiRust

inductive QueueMode where
  | all
  | oneAtATime
  deriving DecidableEq, Repr

def drainQueue {μ : Type} (mode : QueueMode) (queue : List μ) : List μ × List μ :=
  match mode with
  | .all => (queue, [])
  | .oneAtATime => (queue.take 1, queue.drop 1)

theorem drainQueue_append {μ : Type} (mode : QueueMode) (queue : List μ) :
    (drainQueue mode queue).1 ++ (drainQueue mode queue).2 = queue := by
  cases mode with
  | all => simp [drainQueue]
  | oneAtATime => exact List.take_append_drop 1 queue

/-- The three lists that the shared agent state and the private context of a turn
both hold. -/
structure Mailbox (μ : Type) where
  messages : List μ
  steeringQueue : List μ
  followUpQueue : List μ
  deriving DecidableEq, Repr

namespace Mailbox

variable {μ : Type}

/-- `from_state` and the two clears after it, under one lock: the copy of the turn
and what stays shared. -/
def snapshot (state : Mailbox μ) : Mailbox μ × Mailbox μ :=
  (state, { state with steeringQueue := [], followUpQueue := [] })

/-- `sync_live_queues`: the copy of the turn takes over the shared queues. -/
def syncLiveQueues (own state : Mailbox μ) : Mailbox μ × Mailbox μ :=
  ({ own with
      steeringQueue := own.steeringQueue ++ state.steeringQueue
      followUpQueue := own.followUpQueue ++ state.followUpQueue },
    { state with steeringQueue := [], followUpQueue := [] })

/-- `messages.extend(drain_queue(steering_queue))` -/
def deliverSteering (mode : QueueMode) (own : Mailbox μ) : Mailbox μ :=
  let drained := drainQueue mode own.steeringQueue
  { own with messages := own.messages ++ drained.1, steeringQueue := drained.2 }

/-- `messages.extend(drain_queue(follow_up_queue))` -/
def deliverFollowUps (mode : QueueMode) (own : Mailbox μ) : Mailbox μ :=
  let drained := drainQueue mode own.followUpQueue
  { own with messages := own.messages ++ drained.1, followUpQueue := drained.2 }

/-- `apply_to_state`: the copy goes back in front of what arrived meanwhile. -/
def applyToState (own state : Mailbox μ) : Mailbox μ where
  messages := own.messages
  steeringQueue := own.steeringQueue ++ state.steeringQueue
  followUpQueue := own.followUpQueue ++ state.followUpQueue

def steer (message : μ) (state : Mailbox μ) : Mailbox μ :=
  { state with steeringQueue := state.steeringQueue ++ [message] }

def followUp (message : μ) (state : Mailbox μ) : Mailbox μ :=
  { state with followUpQueue := state.followUpQueue ++ [message] }

def drainSteeringQueue (state : Mailbox μ) : List μ × Mailbox μ :=
  (state.steeringQueue, { state with steeringQueue := [] })

def drainFollowUpQueue (state : Mailbox μ) : List μ × Mailbox μ :=
  (state.followUpQueue, { state with followUpQueue := [] })

end Mailbox

end PiRust
