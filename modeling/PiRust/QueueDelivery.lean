import Mathlib.Data.List.Range
import PiRust.AgentTypes
import PiRust.Mailbox
import PiRust.Transition

/- The queues of an agent under `steer`, `follow_up` and `AgentHarness::abort`,
while `run_state` moves them between the shared state and the context of a turn.
A step is one lock acquisition or one move inside the context. -/
namespace PiRust.QueueDelivery

open List

/-- A message with the ticket drawn when it was queued. Tickets only tell queued
messages apart: `steer_{len}` and `followup_{len}` can repeat. -/
inductive Entry where
  | other (message : AgentMessage)
  | steered (ticket : Nat) (message : AgentMessage)
  | followed (ticket : Nat) (message : AgentMessage)

def Entry.ticket? : Entry → Option Nat
  | .other _ => none
  | .steered ticket _ | .followed ticket _ => some ticket

inductive Queue where
  | steering
  | followUp
  deriving DecidableEq, Repr

def Entry.ticketOf : Queue → Entry → Option Nat
  | .steering, .steered ticket _ => some ticket
  | .followUp, .followed ticket _ => some ticket
  | _, _ => none

variable {entry : Entry} {ticket : Nat}

theorem Entry.ticketOf_of_ticket (drawn : entry.ticket? = some ticket) :
    ∃ which, entry.ticketOf which = some ticket := by
  cases entry with
  | other => cases drawn
  | steered => exact ⟨.steering, drawn⟩
  | followed => exact ⟨.followUp, drawn⟩

theorem Entry.ticket_of_ticketOf {which : Queue} (drawn : entry.ticketOf which = some ticket) :
    entry.ticket? = some ticket := by
  cases which <;> cases entry <;> first | exact drawn | cases drawn

theorem Entry.ticketOf_other {which other : Queue} (drawn : entry.ticketOf which = some ticket)
    (apart : other ≠ which) : entry.ticketOf other = none := by
  cases which <;> cases other <;> cases entry <;>
    first | exact absurd rfl apart | rfl | cases drawn

/-- How far a call of `AgentHarness::abort` is. -/
inductive Stage where
  | begun
  | steeringDrained
  | drained
  | returned
  deriving DecidableEq, Repr

/-- `began` is the number of tickets drawn before the call. -/
structure AbortCall where
  began : Nat
  stage : Stage
  deriving DecidableEq, Repr

/-- `own` is the context of the running turn. `cleared` lists what abort calls have
drained, `cleared_steer` and then `cleared_follow_up` of each, with the number of
the call. -/
structure World where
  shared : Mailbox Entry
  own : Option (Mailbox Entry)
  running : Bool
  issued : Nat
  calls : List AbortCall
  cleared : List (Nat × List Entry)

/-- Queued messages carry a queue length read under an earlier lock; `say` stands
for the messages that nodes push, `apply again` for the end of a turn. -/
inductive Label where
  | prompt (text : String)
  | steer (count : Nat) (text : String)
  | followUp (count : Nat) (text : String)
  | snapshot
  | sync
  | say (message : AgentMessage)
  | deliverSteering (mode : QueueMode)
  | deliverFollowUps (mode : QueueMode)
  | apply (again : Bool)
  | abortBegin
  | abortDrainSteering (call : Nat)
  | abortDrainFollowUp (call : Nat)
  | abortCancel (call : Nat)

namespace World

/-- What the agent has said and been told, the running turn included. -/
def conversation (world : World) : List Entry :=
  match world.own with
  | some own => own.messages
  | none => world.shared.messages

/-- The private copy of a queue; there is none between two turns. -/
def ownQueue (world : World) (which : Queue) : List Entry :=
  match world.own, which with
  | some own, .steering => own.steeringQueue
  | some own, .followUp => own.followUpQueue
  | none, _ => []

def sharedQueue (world : World) : Queue → List Entry
  | .steering => world.shared.steeringQueue
  | .followUp => world.shared.followUpQueue

def queue (world : World) (which : Queue) : List Entry :=
  world.ownQueue which ++ world.sharedQueue which

/-- An idle agent with these messages and empty queues. -/
def start (messages : List AgentMessage) : World where
  shared := ⟨messages.map .other, [], []⟩
  own := none
  running := false
  issued := 0
  calls := []
  cleared := []

/-- A call of `abort` moves on from one stage to the next. -/
def advance (world : World) (call : Nat) (before after : Stage) : Option World :=
  match world.calls[call]? with
  | some current =>
    if current.stage = before then
      some { world with calls := world.calls.set call { current with stage := after } }
    else none
  | none => none

def onOwn (world : World) (change : Mailbox Entry → Mailbox Entry) : Option World :=
  world.own.map fun own => { world with own := some (change own) }

end World

open World

def step : Label → World → Option World
  | .prompt text, world =>
    if world.running then none
    else
      let messageId := "user_" ++ toString world.shared.messages.length
      some { world with
        running := true
        shared := { world.shared with
          messages := world.shared.messages ++ [.other (.userText messageId text)] } }
  | .steer count text, world =>
    some { world with
      shared := world.shared.steer
        (.steered world.issued (.userText ("steer_" ++ toString count) text))
      issued := world.issued + 1 }
  | .followUp count text, world =>
    some { world with
      shared := world.shared.followUp
        (.followed world.issued (.userText ("followup_" ++ toString count) text))
      issued := world.issued + 1 }
  | .snapshot, world =>
    if world.running ∧ world.own.isNone then
      let taken := world.shared.snapshot
      some { world with own := some taken.1, shared := taken.2 }
    else none
  | .sync, world =>
    world.own.map fun own =>
      let synced := own.syncLiveQueues world.shared
      { world with own := some synced.1, shared := synced.2 }
  | .say message, world =>
    world.onOwn fun own => { own with messages := own.messages ++ [.other message] }
  | .deliverSteering mode, world => world.onOwn (Mailbox.deliverSteering mode)
  | .deliverFollowUps mode, world => world.onOwn (Mailbox.deliverFollowUps mode)
  | .apply again, world =>
    world.own.map fun own =>
      { world with own := none, shared := own.applyToState world.shared, running := again }
  | .abortBegin, world => some { world with calls := world.calls ++ [⟨world.issued, .begun⟩] }
  | .abortDrainSteering call, world =>
    (world.advance call .begun .steeringDrained).map fun advanced =>
      let drained := world.shared.drainSteeringQueue
      { advanced with
        shared := drained.2
        cleared := world.cleared ++ [(call, drained.1)] }
  | .abortDrainFollowUp call, world =>
    (world.advance call .steeringDrained .drained).map fun advanced =>
      let drained := world.shared.drainFollowUpQueue
      { advanced with
        shared := drained.2
        cleared := world.cleared ++ [(call, drained.1)] }
  | .abortCancel call, world => world.advance call .drained .returned

/-- Every place a queued message can be in. -/
def World.places (world : World) : List Entry :=
  world.conversation ++ (world.queue .steering ++ world.queue .followUp) ++
    world.cleared.flatMap Prod.snd

/-- How often a ticket is in a list. -/
def held (ticket : Nat) (entries : List Entry) : Nat :=
  entries.countP fun entry => entry.ticket? = some ticket

@[simp] theorem held_nil (ticket : Nat) : held ticket [] = 0 := rfl

@[simp] theorem held_append (ticket : Nat) (first second : List Entry) :
    held ticket (first ++ second) = held ticket first + held ticket second :=
  countP_append

@[simp] theorem held_cons (ticket : Nat) (entry : Entry) (rest : List Entry) :
    held ticket (entry :: rest) =
      held ticket rest + if entry.ticket? = some ticket then 1 else 0 := by
  simp [held, countP_cons]

theorem held_drain (mode : QueueMode) (queue : List Entry) (ticket : Nat) :
    held ticket (drainQueue mode queue).1 + held ticket (drainQueue mode queue).2 =
      held ticket queue := by
  rw [← held_append, drainQueue_append]

variable {label : Label} {ticket : Nat} {which : Queue} {after world : World}

theorem advance_frame {call : Nat} {before next : Stage}
    (taken : world.advance call before next = some after) :
    ∃ current, world.calls[call]? = some current ∧ current.stage = before ∧
      after = { world with calls := world.calls.set call { current with stage := next } } := by
  unfold World.advance at taken
  cases found : world.calls[call]? with
  | none => simp [found] at taken
  | some current =>
    simp only [found] at taken
    split at taken
    · rename_i stage
      exact ⟨current, rfl, stage, (Option.some.inj taken).symm⟩
    · cases taken

/-- What a step does to queues and conversation. -/
inductive Moved (world after : World) : Prop
  | said (others : List AgentMessage)
      (conversation : after.conversation = world.conversation ++ others.map .other)
      (queues : ∀ other, after.queue other = world.queue other)
      (issued : after.issued = world.issued) (cleared : after.cleared = world.cleared)
  | queued (which : Queue) (entry : Entry) (drawn : entry.ticketOf which = some world.issued)
      (conversation : after.conversation = world.conversation)
      (queues : ∀ other, after.queue other =
        if other = which then world.queue which ++ [entry] else world.queue other)
      (issued : after.issued = world.issued + 1) (cleared : after.cleared = world.cleared)
  | delivered (which : Queue) (mode : QueueMode)
      (conversation : after.conversation =
        world.conversation ++ (drainQueue mode (world.ownQueue which)).1)
      (queues : ∀ other, after.queue other = if other = which then
        (drainQueue mode (world.ownQueue which)).2 ++ world.sharedQueue which
        else world.queue other)
      (issued : after.issued = world.issued) (cleared : after.cleared = world.cleared)
  | drained (which : Queue) (call : Nat) (conversation : after.conversation = world.conversation)
      (queues : ∀ other, after.queue other =
        if other = which then world.ownQueue which else world.queue other)
      (issued : after.issued = world.issued)
      (cleared : after.cleared = world.cleared ++ [(call, world.sharedQueue which)])

theorem step_moved (taken : step label world = some after) : Moved world after := by
  obtain ⟨shared, own, running, issued, calls, cleared⟩ := world
  have nothing (front : List Entry) : front = front ++ ([] : List AgentMessage).map .other :=
    (append_nil front).symm
  cases label with
  | prompt text =>
    cases running with
    | true => cases taken
    | false =>
      cases taken
      cases own with
      | none => exact .said [_] rfl (fun which => by cases which <;> rfl) rfl rfl
      | some own => exact .said [] (nothing _) (fun which => by cases which <;> rfl) rfl rfl
  | steer count text =>
    cases taken
    refine .queued .steering (.steered issued (.userText ("steer_" ++ toString count) text)) rfl
      (by cases own <;> rfl) (fun which => ?_) rfl rfl
    cases which with
    | steering => exact (append_assoc _ _ _).symm
    | followUp => rfl
  | followUp count text =>
    cases taken
    refine .queued .followUp (.followed issued (.userText ("followup_" ++ toString count) text)) rfl
      (by cases own <;> rfl) (fun which => ?_) rfl rfl
    cases which with
    | steering => rfl
    | followUp => exact (append_assoc _ _ _).symm
  | snapshot =>
    simp only [step] at taken
    split at taken
    · rename_i ready
      cases own with
      | some own => cases ready.2
      | none =>
        cases taken
        exact .said [] (nothing _) (fun which => by cases which <;> exact append_nil _) rfl rfl
    · cases taken
  | say message =>
    obtain ⟨mine, found, rfl⟩ := Option.map_eq_some_iff.mp taken
    cases found
    exact .said [message] rfl (fun which => by cases which <;> rfl) rfl rfl
  | deliverSteering mode =>
    obtain ⟨mine, found, rfl⟩ := Option.map_eq_some_iff.mp taken
    cases found
    exact .delivered .steering mode rfl (fun which => by cases which <;> rfl) rfl rfl
  | deliverFollowUps mode =>
    obtain ⟨mine, found, rfl⟩ := Option.map_eq_some_iff.mp taken
    cases found
    exact .delivered .followUp mode rfl (fun which => by cases which <;> rfl) rfl rfl
  | sync | apply again =>
    obtain ⟨mine, found, rfl⟩ := Option.map_eq_some_iff.mp taken
    cases found
    exact .said [] (nothing _)
      (fun which => by cases which <;> first | rfl | exact append_nil _) rfl rfl
  | abortBegin =>
    cases taken
    exact .said [] (nothing _) (fun _ => rfl) rfl rfl
  | abortDrainSteering call =>
    obtain ⟨advanced, moved, rfl⟩ := Option.map_eq_some_iff.mp taken
    obtain ⟨current, _, _, rfl⟩ := advance_frame moved
    refine .drained .steering call (by cases own <;> rfl) (fun which => ?_) rfl rfl
    cases which with
    | steering => exact append_nil _
    | followUp => rfl
  | abortDrainFollowUp call =>
    obtain ⟨advanced, moved, rfl⟩ := Option.map_eq_some_iff.mp taken
    obtain ⟨current, _, _, rfl⟩ := advance_frame moved
    refine .drained .followUp call (by cases own <;> rfl) (fun which => ?_) rfl rfl
    cases which with
    | steering => rfl
    | followUp => exact append_nil _
  | abortCancel call =>
    obtain ⟨current, _, _, rfl⟩ := advance_frame taken
    exact .said [] (nothing _) (fun _ => rfl) rfl rfl

theorem step_places (taken : step label world = some after) (ticket : Nat)
    (drawn : held ticket world.places = if ticket < world.issued then 1 else 0) :
    held ticket after.places = if ticket < after.issued then 1 else 0 := by
  unfold World.places at drawn ⊢
  cases step_moved taken with
  | said others conversation queues issued cleared =>
    have none : held ticket (others.map .other) = 0 := by simp [held, Entry.ticket?]
    rw [conversation, queues, queues, issued, cleared]
    simp only [held_append, none] at drawn ⊢
    exact drawn
  | queued which entry own conversation queues issued cleared =>
    have mine : entry.ticket? = some world.issued := Entry.ticket_of_ticketOf own
    rw [conversation, queues, queues, issued, cleared]
    cases which <;> simp only [reduceCtorEq, ↓reduceIte, held_append, held_cons, held_nil, mine,
      Option.some.injEq] at drawn ⊢ <;> split_ifs at drawn ⊢ <;> omega
  | delivered which mode conversation queues issued cleared =>
    have parts := held_drain mode (world.ownQueue which) ticket
    rw [conversation, queues, queues, issued, cleared]
    cases which <;> simp only [reduceCtorEq, ↓reduceIte, queue, held_append] at drawn ⊢ <;> omega
  | drained which call conversation queues issued cleared =>
    rw [conversation, queues, queues, issued, cleared]
    cases which <;> simp only [reduceCtorEq, ↓reduceIte, queue, held_append, held_nil,
      flatMap_append, flatMap_cons, flatMap_nil] at drawn ⊢ <;> omega

def ticketsOf (which : Queue) (entries : List Entry) : List Nat :=
  entries.filterMap (Entry.ticketOf which)

@[simp] theorem ticketsOf_nil (which : Queue) : ticketsOf which [] = [] := rfl

@[simp] theorem ticketsOf_append (which : Queue) (first second : List Entry) :
    ticketsOf which (first ++ second) = ticketsOf which first ++ ticketsOf which second :=
  filterMap_append

@[simp] theorem ticketsOf_other (which : Queue) (message : AgentMessage) :
    ticketsOf which [.other message] = [] := by
  cases which <;> rfl

theorem drainQueue_mem {mode : QueueMode} {queue : List Entry} {entry : Entry}
    (inside : entry ∈ (drainQueue mode queue).1 ∨ entry ∈ (drainQueue mode queue).2) :
    entry ∈ queue := by
  rw [← drainQueue_append mode queue]
  exact mem_append.mpr inside

theorem ticketsOf_foreign {entries : List Entry}
    (foreign : ∀ entry ∈ entries, entry.ticketOf which = none) : ticketsOf which entries = [] :=
  filterMap_eq_nil_iff.mpr foreign

theorem held_of_ticketsOf {entries : List Entry} (inside : ticket ∈ ticketsOf which entries) :
    0 < held ticket entries := by
  obtain ⟨entry, member, kind⟩ := mem_filterMap.mp inside
  apply countP_pos_iff.mpr
  refine ⟨entry, member, ?_⟩
  cases which <;> cases entry <;> simp_all [Entry.ticketOf, Entry.ticket?]

/-- The messages of one queue in the order in which the conversation got them and
will get them. -/
def World.line (world : World) (which : Queue) : List Nat :=
  ticketsOf which (world.conversation ++ world.queue which)

/-- The messages of every queue are in the order in which they were queued, in the
conversation and the queue as well as in what an abort call drained. -/
structure InOrder (world : World) : Prop where
  line : ∀ which, (world.line which).Pairwise (· < ·)
  cleared : ∀ which, ∀ drained ∈ world.cleared, (ticketsOf which drained.2).Pairwise (· < ·)

/-- What a run keeps whenever its abort calls are made. -/
structure Inv (world : World) : Prop where
  places : ∀ ticket, held ticket world.places = if ticket < world.issued then 1 else 0
  order : InOrder world
  kinds : ∀ which, ∀ entry ∈ world.queue which, ∀ other, other ≠ which → entry.ticketOf other = none

theorem Inv.drawn (inv : Inv world) (inside : ticket ∈ world.line which) :
    ticket < world.issued := by
  have present := held_of_ticketsOf inside
  have once := inv.places ticket
  simp only [World.places, held_append] at once
  by_contra late
  rw [if_neg late] at once
  cases which <;> simp only [held_append] at present <;> omega

theorem step_queue_mem (taken : step label world = some after) {entry : Entry}
    (inside : entry ∈ after.queue which) :
    entry ∈ world.queue which ∨
      entry.ticketOf which = some world.issued ∧
        ∀ other, other ≠ which → entry.ticketOf other = none := by
  cases step_moved taken with
  | said others _ queues _ _ => exact .inl (queues which ▸ inside)
  | queued source new drawn _ queues _ _ =>
    rw [queues] at inside
    split at inside
    · rename_i same
      subst same
      rcases mem_append.mp inside with old | fresh
      · exact .inl old
      · rw [mem_singleton.mp fresh]
        exact .inr ⟨drawn, fun other apart => Entry.ticketOf_other drawn apart⟩
    · exact .inl inside
  | delivered source mode _ queues _ _ =>
    rw [queues] at inside
    split at inside
    · rename_i same
      subst same
      exact .inl (mem_append.mpr
        ((mem_append.mp inside).imp_left fun mine => drainQueue_mem (.inr mine)))
    · exact .inl inside
  | drained source _ _ queues _ _ =>
    rw [queues] at inside
    split at inside
    · rename_i same
      subst same
      exact .inl (mem_append_left _ inside)
    · exact .inl inside

theorem step_line (inv : Inv world) (taken : step label world = some after) (which : Queue) :
    (after.line which).Sublist (world.line which) ∨
      after.line which = world.line which ++ [world.issued] := by
  unfold World.line
  cases step_moved taken with
  | said others conversation queues _ _ =>
    have none : ticketsOf which (others.map .other) = [] := by
      refine ticketsOf_foreign fun entry inside => ?_
      obtain ⟨message, _, rfl⟩ := mem_map.mp inside
      cases which <;> rfl
    rw [conversation, queues, ticketsOf_append, ticketsOf_append, none, append_nil,
      ← ticketsOf_append]
    exact .inl (Sublist.refl _)
  | queued source entry drawn conversation queues _ _ =>
    rw [conversation, queues]
    split
    · rename_i same
      subst same
      have new : ticketsOf which [entry] = [world.issued] := by simp [ticketsOf, drawn]
      rw [← append_assoc, ticketsOf_append, new]
      exact .inr rfl
    · exact .inl (Sublist.refl _)
  | delivered source mode conversation queues _ _ =>
    refine .inl ?_
    rw [conversation, queues]
    split
    · rename_i same
      subst same
      rw [append_assoc, ← append_assoc _ _ (world.sharedQueue which), drainQueue_append]
      exact Sublist.refl _
    · rename_i apart
      have none : ticketsOf which (drainQueue mode (world.ownQueue source)).1 = [] :=
        ticketsOf_foreign fun entry inside => inv.kinds source entry
          (mem_append_left _ (drainQueue_mem (.inl inside))) which apart
      rw [ticketsOf_append, ticketsOf_append, none, append_nil, ← ticketsOf_append]
  | drained source call conversation queues _ _ =>
    refine .inl ?_
    rw [conversation, queues]
    split
    · rename_i same
      subst same
      exact ((sublist_append_left _ _).append_left _).filterMap _
    · exact Sublist.refl _

theorem step_cleared (taken : step label world = some after) :
    after.cleared = world.cleared ∨
      ∃ call which, after.cleared = world.cleared ++ [(call, world.sharedQueue which)] := by
  cases step_moved taken with
  | said _ _ _ _ cleared => exact .inl cleared
  | queued _ _ _ _ _ _ cleared => exact .inl cleared
  | delivered _ _ _ _ _ cleared => exact .inl cleared
  | drained which call _ _ _ cleared => exact .inr ⟨call, which, cleared⟩

theorem step_inv (inv : Inv world) (taken : step label world = some after) : Inv after := by
  refine ⟨fun ticket => step_places taken ticket (inv.places ticket), ⟨?_, ?_⟩, ?_⟩
  · intro which
    rcases step_line inv taken which with shorter | longer
    · exact (inv.order.line which).sublist shorter
    · rw [longer, pairwise_append]
      refine ⟨inv.order.line which, pairwise_singleton _ _, ?_⟩
      intro earlier inside latest new
      rw [mem_singleton.mp new]
      exact inv.drawn inside
  · intro which drained inside
    rcases step_cleared taken with same | ⟨call, source, more⟩
    · rw [same] at inside
      exact inv.order.cleared which drained inside
    · rw [more, mem_append, mem_singleton] at inside
      rcases inside with old | rfl
      · exact inv.order.cleared which drained old
      · have line := inv.order.line source
        simp only [World.line, queue, ticketsOf_append, pairwise_append] at line
        by_cases same : which = source
        · exact same ▸ line.2.1.2.1
        · rw [ticketsOf_foreign fun entry member => inv.kinds source entry
            (mem_append_right _ member) which same]
          exact Pairwise.nil
  · intro which entry inside other apart
    rcases step_queue_mem taken inside with old | ⟨_, foreign⟩
    · exact inv.kinds which entry old other apart
    · exact foreign other apart

theorem start_inv (messages : List AgentMessage) : Inv (World.start messages) := by
  have none : ∀ which, ticketsOf which (messages.map Entry.other) = [] := by
    intro which
    apply ticketsOf_foreign
    intro entry inside
    obtain ⟨message, _, rfl⟩ := mem_map.mp inside
    cases which <;> rfl
  have empty : ∀ which, (World.start messages).queue which = [] := by
    intro which
    cases which <;> rfl
  refine ⟨?_, ⟨?_, nofun⟩, ?_⟩
  · intro ticket
    have absent : held ticket (messages.map Entry.other) = 0 := by
      apply countP_eq_zero.mpr
      intro entry inside
      obtain ⟨message, _, rfl⟩ := mem_map.mp inside
      simp [Entry.ticket?]
    simp only [World.places, empty, append_nil]
    simpa [conversation, World.start] using absent
  · intro which
    simp only [World.line, empty, append_nil]
    simp [conversation, World.start, none]
  · intro which entry inside
    rw [empty] at inside
    cases inside

def Stage.past : Stage → Queue → Bool
  | .begun, _ => false
  | .steeringDrained, which => which = .steering
  | .drained, _ | .returned, _ => true

/-- No private queue hides a message from the abort call that drains the shared
one: what it holds was queued after the call began. -/
def NothingPrivate : Label → World → Prop
  | .abortDrainSteering call, world =>
    ∀ current, world.calls[call]? = some current → ∀ entry ∈ world.ownQueue .steering,
      ∀ ticket, entry.ticketOf .steering = some ticket → current.began ≤ ticket
  | .abortDrainFollowUp call, world =>
    ∀ current, world.calls[call]? = some current → ∀ entry ∈ world.ownQueue .followUp,
      ∀ ticket, entry.ticketOf .followUp = some ticket → current.began ≤ ticket
  | _, _ => True

/-- A finished drain has left nothing older in the queue. -/
structure CallsDone (world : World) : Prop where
  began : ∀ call ∈ world.calls, call.began ≤ world.issued
  done : ∀ call ∈ world.calls, ∀ which, call.stage.past which = true →
    ∀ entry ∈ world.queue which, ∀ ticket, entry.ticketOf which = some ticket → call.began ≤ ticket

theorem CallsDone.advance {call : Nat} {before next : Stage} (done : CallsDone world)
    (moved : world.advance call before next = some after) (result : World)
    (calls : result.calls = after.calls) (issued : result.issued = world.issued)
    (queues : ∀ which, ∀ entry ∈ result.queue which, entry ∈ world.queue which)
    (drained : ∀ current, world.calls[call]? = some current → ∀ which,
      next.past which = true → before.past which = false → ∀ entry ∈ result.queue which,
        ∀ ticket, entry.ticketOf which = some ticket → current.began ≤ ticket) :
    CallsDone result := by
  obtain ⟨current, found, stage, rfl⟩ := advance_frame moved
  have present := mem_of_getElem? found
  constructor
  · intro other inside
    rw [issued]
    rw [calls] at inside
    rcases mem_or_eq_of_mem_set inside with old | rfl
    · exact done.began other old
    · exact done.began current present
  · intro other inside which past entry member ticket drawn
    rw [calls] at inside
    rcases mem_or_eq_of_mem_set inside with old | rfl
    · exact done.done other old which past entry (queues which entry member) ticket drawn
    · cases already : before.past which with
      | true =>
        rw [← stage] at already
        exact done.done current present which already entry (queues which entry member) ticket drawn
      | false => exact drained current found which past already entry member ticket drawn

theorem CallsDone.same (done : CallsDone world) (taken : step label world = some after)
    (calls : after.calls = world.calls) (issued : world.issued ≤ after.issued) :
    CallsDone after := by
  constructor
  · intro call inside
    rw [calls] at inside
    exact (done.began call inside).trans issued
  · intro call inside which past entry member ticket drawn
    rw [calls] at inside
    rcases step_queue_mem taken member with old | ⟨fresh, _⟩
    · exact done.done call inside which past entry old ticket drawn
    · rw [drawn, Option.some.injEq] at fresh
      rw [fresh]
      exact done.began call inside

theorem step_done (done : CallsDone world) (seen : NothingPrivate label world)
    (taken : step label world = some after) :
    CallsDone after := by
  have whole := taken
  cases label with
  | prompt text =>
    simp only [step] at taken
    split at taken
    · cases taken
    · cases taken
      exact done.same whole rfl le_rfl
  | steer count text | followUp count text =>
    cases taken
    exact done.same whole rfl (Nat.le_succ _)
  | snapshot =>
    simp only [step] at taken
    split at taken
    · cases taken
      exact done.same whole rfl le_rfl
    · cases taken
  | sync | say message | deliverSteering mode | deliverFollowUps mode | apply again =>
    obtain ⟨mine, found, rfl⟩ := Option.map_eq_some_iff.mp taken
    exact done.same whole rfl le_rfl
  | abortBegin =>
    cases taken
    constructor
    · intro call inside
      rcases mem_append.mp inside with old | new
      · exact done.began call old
      · rw [mem_singleton.mp new]
    · intro call inside which past
      rcases mem_append.mp inside with old | new
      · exact done.done call old which past
      · rw [mem_singleton.mp new] at past
        cases past
  | abortDrainSteering call | abortDrainFollowUp call =>
    obtain ⟨advanced, moved, rfl⟩ := Option.map_eq_some_iff.mp taken
    obtain ⟨current, found, _, same⟩ := advance_frame moved
    subst same
    apply done.advance moved _ (by rfl) (by rfl)
    · intro which entry member
      rcases step_queue_mem whole member with old | ⟨fresh, _⟩
      · exact old
      · cases which <;>
          simp only [queue, ownQueue, sharedQueue, Mailbox.drainSteeringQueue,
            Mailbox.drainFollowUpQueue, mem_append, not_mem_nil, or_false] at member ⊢ <;>
          first
            | exact .inl member
            | exact member
    · intro current found which past before entry member ticket drawn
      cases which <;> first | cases past; done | cases before; done | skip
      simp only [queue, sharedQueue, Mailbox.drainSteeringQueue, Mailbox.drainFollowUpQueue,
        append_nil] at member
      exact seen current found entry member ticket drawn
  | abortCancel call =>
    apply done.advance taken after (by rfl)
    · obtain ⟨current, _, _, rfl⟩ := advance_frame taken
      rfl
    · intro which entry member
      obtain ⟨current, _, _, rfl⟩ := advance_frame taken
      exact member
    · intro current found which _ before
      cases before

theorem gone_for_good {allowed : Label → World → Prop} {later : World} {labels : List Label}
    (run : Transition.Run step allowed world labels later) (inv : Inv world)
    (cleared : 0 < held ticket (world.cleared.flatMap Prod.snd)) :
    held ticket later.conversation = 0 := by
  have kept : Inv later ∧ 0 < held ticket (later.cleared.flatMap Prod.snd) := by
    apply run.invariant (P := fun world =>
      Inv world ∧ 0 < held ticket (world.cleared.flatMap Prod.snd)) _ ⟨inv, cleared⟩
    rintro label before after ⟨inv, cleared⟩ _ taken
    refine ⟨step_inv inv taken, ?_⟩
    rcases step_cleared taken with same | ⟨call, source, more⟩
    · rwa [same]
    · rw [more, flatMap_append, held_append]
      omega
  have once := kept.1.places ticket
  have still := kept.2
  simp only [World.places, held_append] at once
  split at once <;> omega

/-- Every queued message is in one place, in the order of its queue. After an abort
call no message queued before it comes up, if at each drain of an abort call the
private queue held no such message. -/
theorem queued_messages_delivered {messages : List AgentMessage} {labels later : List Label}
    {world afterwards : World}
    (reached : Transition.Run step NothingPrivate (World.start messages) labels world)
    (onward : Transition.Run step NothingPrivate world later afterwards) :
    (∀ ticket < world.issued, held ticket world.places = 1) ∧ InOrder world ∧
      ∀ call ∈ world.calls, call.stage = .returned → ∀ ticket < call.began,
        held ticket world.conversation = 0 → held ticket afterwards.conversation = 0 := by
  obtain ⟨inv, done⟩ : Inv world ∧ CallsDone world := by
    apply reached.invariant (P := fun world => Inv world ∧ CallsDone world) _
      ⟨start_inv messages, nofun, nofun⟩
    rintro label before after ⟨inv, done⟩ seen taken
    exact ⟨step_inv inv taken, step_done done seen taken⟩
  refine ⟨?_, inv.order, ?_⟩
  · intro ticket drawn
    rw [inv.places, if_pos drawn]
  · intro call inside returned ticket early unsaid
    apply gone_for_good onward inv
    have empty : ∀ which, held ticket (world.queue which) = 0 := by
      intro which
      apply countP_eq_zero.mpr
      intro entry member
      have past : call.stage.past which = true := by rw [returned]; rfl
      have bound := done.done call inside which past entry member
      have kinds := inv.kinds which entry member
      intro same
      obtain ⟨kind, mine⟩ := Entry.ticketOf_of_ticket (of_decide_eq_true same)
      by_cases own : kind = which
      · have late := bound ticket (own ▸ mine)
        omega
      · rw [kinds kind own] at mine
        cases mine
    have once := inv.places ticket
    have began := done.began call inside
    simp only [World.places, held_append, empty, unsaid] at once
    rw [if_pos (by omega)] at once
    omega

/-- An idle agent after `steer` and a whole call of `abort`. -/
def abortedIdle : World where
  shared := ⟨[], [], []⟩
  own := none
  running := false
  issued := 1
  calls := [⟨1, .returned⟩]
  cleared := [(0, [.steered 0 (.userText "steer_0" "wait")]), (0, [])]

theorem abortedIdle_reached : Transition.Run step NothingPrivate (World.start [])
    [.steer 0 "wait", .abortBegin, .abortDrainSteering 0, .abortDrainFollowUp 0, .abortCancel 0]
    abortedIdle := by
  have steered : Transition.Run step NothingPrivate (World.start []) [.steer 0 "wait"] _ :=
    .next (.done _) trivial rfl
  have begun := steered.next (l := Label.abortBegin) trivial rfl
  have drained := begun.next (l := Label.abortDrainSteering 0)
    (fun _ _ _ inside => absurd inside not_mem_nil) rfl
  have both := drained.next (l := Label.abortDrainFollowUp 0)
    (fun _ _ _ inside => absurd inside not_mem_nil) rfl
  exact both.next (l := Label.abortCancel 0) trivial rfl

/-- The abort of an idle agent has cleared the queue; the next turn finds it empty. -/
theorem queued_messages_cleared :
    ∃ afterwards,
      Transition.follow step [.prompt "next", .snapshot, .sync, .deliverSteering .all]
          abortedIdle = some afterwards ∧
        held 0 afterwards.conversation = 0 := by
  let later : List Label := [.prompt "next", .snapshot, .sync, .deliverSteering .all]
  have free : ∀ label ∈ later, ∀ state, NothingPrivate label state := by
    intro label inside state
    simp only [later, mem_cons, not_mem_nil, or_false] at inside
    rcases inside with rfl | rfl | rfl | rfl <;> trivial
  obtain ⟨afterwards, onward⟩ : ∃ world, Transition.follow step later abortedIdle = some world :=
    ⟨_, rfl⟩
  have delivered := queued_messages_delivered abortedIdle_reached (.of_follow free onward)
  exact ⟨afterwards, onward, delivered.2.2 ⟨1, .returned⟩ (by decide) rfl 0 (by decide) (by decide)⟩

/-- The turn that has already taken the queue over keeps it from the abort call and
hands it back to the next turn. -/
theorem aborted_message_delivered :
    ∃ labels later world afterwards,
      Transition.Run step (fun _ _ => True) (World.start []) labels world ∧
        Transition.Run step (fun _ _ => True) world later afterwards ∧
        (∃ call ∈ world.calls, call.stage = .returned ∧ 0 < call.began) ∧
        held 0 world.conversation = 0 ∧ held 0 afterwards.conversation = 1 := by
  let labels : List Label := [.prompt "hello", .steer 0 "wait", .snapshot, .abortBegin,
    .abortDrainSteering 0, .abortDrainFollowUp 0, .abortCancel 0]
  let later : List Label := [.apply false, .prompt "next", .snapshot, .sync, .deliverSteering .all]
  have seen : (Transition.follow step labels (World.start [])).map (fun world =>
      (world.calls, held 0 world.conversation, (Transition.follow step later world).map
        fun afterwards => held 0 afterwards.conversation)) =
      some ([⟨1, .returned⟩], 0, some 1) := by decide
  obtain ⟨world, reached, facts⟩ := Option.map_eq_some_iff.mp seen
  simp only [Prod.mk.injEq, Option.map_eq_some_iff] at facts
  obtain ⟨calls, unsaid, afterwards, onward, said⟩ := facts
  refine ⟨labels, later, world, afterwards, .of_follow (fun _ _ _ => trivial) reached,
    .of_follow (fun _ _ _ => trivial) onward, ?_, unsaid, said⟩
  exact ⟨⟨1, .returned⟩, by rw [calls]; decide, rfl, by decide⟩

end PiRust.QueueDelivery
