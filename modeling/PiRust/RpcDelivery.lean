import PiRust.RpcStream

/- Live delivery and replay together: which events reach the adapter of the running operation,
over every run. -/
namespace PiRust.Rpc

open EventService Protocol List

/-- The events that the adapter was given: in increasing order; without a hole, unless a lag
response was written; with all that were emitted after the client had reconnected from an
overflow, once the loop has finished the operation. And the loop has the running prompt until
it has finished it. -/
structure Delivered (world : World) : Prop where
  ordered : (world.pushed.map ProductEvent.sequence).Pairwise (· < ·)
  gapless : world.lagged = false → ∀ first ∈ world.pushed, ∀ last ∈ world.pushed,
    ∀ event ∈ world.emitted, first.sequence < event.sequence →
      event.sequence < last.sequence → event ∈ world.pushed
  recovered : world.finished.isSome → ∀ event ∈ world.later, event ∈ world.pushed
  kept : world.running.isSome ∨ world.finished.isSome

/-- The steps that deliver. `acknowledge` succeeds after a replay. A replay goes on where the
adapter is, unless a lag response was written, nothing was applied yet, or there is nothing to
replay. The operation is done when each event since the client has reconnected from an overflow
was brought by another reconnect. -/
def Allowed (retainedCapacity : Nat) : Label → World → Prop
  | .reconnect cursor connection, world =>
    world.stopped = false → ∀ running, world.running = some running →
      ∀ boundary, recoveryBoundaryFromState world.service cursor = .ready boundary →
        connection ≠ .unacknowledged ∧
          (connection = .acknowledged →
            world.lagged = true ∨ running.adapterAppliedSequence = 0 ∨
              max cursor (world.evicted retainedCapacity) ≤ running.adapterAppliedSequence ∨
              world.emitted.length ≤ max cursor (world.evicted retainedCapacity))
  | .done, world =>
    world.stopped = false → world.running.isSome → world.reported = true → world.uncovered = []
  | _, _ => True

/-- The events pushed are those issued, up to the last one applied. -/
structure Pushes (emitted : List Event) (lagged : Bool) (pushed : List Event) (applied : Nat) :
    Prop where
  given : ∀ event ∈ pushed, event ∈ emitted
  ordered : (pushed.map ProductEvent.sequence).Pairwise (· < ·)
  most : ∀ event ∈ pushed, event.sequence ≤ applied
  last : applied ≠ 0 → ∃ event ∈ pushed, event.sequence = applied
  within : applied ≤ emitted.length
  filled : lagged = false → ∀ first ∈ pushed, ∀ event ∈ emitted,
    first.sequence ≤ event.sequence → event.sequence ≤ applied → event ∈ pushed

/-- The sequence numbers of the events go on after `taken`. -/
def Consecutive (taken : Nat) (events : List Event) : Prop :=
  events.map ProductEvent.sequence = range' (taken + 1) events.length

/-- The events that the queue holds before an overflow. -/
def front : List RpcQueuedProductEvent → List Event
  | .event event :: rest => event :: front rest
  | _ => []

def RpcQueuedProductEvent.isOverflow : RpcQueuedProductEvent → Bool
  | .overflow _ => true
  | .event _ => false

variable {taken : Nat} {events : List Event} {event : Event}

theorem Consecutive.cons_iff :
    Consecutive taken (event :: events) ↔
      event.sequence = taken + 1 ∧ Consecutive (taken + 1) events := by
  unfold Consecutive
  rw [map_cons, length_cons, range'_succ, cons.injEq]

theorem Consecutive.filter_eq_drop (cursor : Nat) (consecutive : Consecutive taken events) :
    events.filter (fun event => cursor < event.sequence) = events.drop (cursor - taken) := by
  induction events generalizing taken with
  | nil => exact drop_nil.symm
  | cons event events ih =>
    obtain ⟨next, rest⟩ := Consecutive.cons_iff.mp consecutive
    by_cases after : cursor < event.sequence
    · have whole : cursor - taken = 0 := by omega
      have more : cursor - (taken + 1) = 0 := by omega
      simp [after, ih rest, whole, more]
    · have one : cursor - taken = cursor - (taken + 1) + 1 := by omega
      simp [after, ih rest, one]

/-- The numbers of the emitted events run from one. -/
def Numbered (emitted : List Event) : Prop := Consecutive 0 emitted

namespace Numbered

variable {emitted : List Event}

variable (numbered : Numbered emitted)
include numbered

theorem getElem {index : Nat} (inside : index < emitted.length) :
    emitted[index].sequence = index + 1 := by
  have long : index < (emitted.map ProductEvent.sequence).length := by
    rw [length_map]
    exact inside
  have listed : (emitted.map ProductEvent.sequence)[index] = 1 + index := by
    simp [show emitted.map ProductEvent.sequence = range' 1 emitted.length from
      numbered]
  rw [getElem_map] at listed
  omega

theorem positive {event : Event} (inside : event ∈ emitted) :
    1 ≤ event.sequence ∧ event.sequence ≤ emitted.length := by
  obtain ⟨index, bound, rfl⟩ := getElem_of_mem inside
  rw [numbered.getElem bound]
  omega

theorem same {event other : Event} (inside : event ∈ emitted) (also : other ∈ emitted)
    (equal : event.sequence = other.sequence) : event = other := by
  obtain ⟨index, bound, rfl⟩ := getElem_of_mem inside
  obtain ⟨place, range, rfl⟩ := getElem_of_mem also
  rw [numbered.getElem bound, numbered.getElem range] at equal
  have places : index = place := by omega
  subst places
  rfl

theorem exists_event {sequence : Nat} (low : 1 ≤ sequence) (high : sequence ≤ emitted.length) :
    ∃ event ∈ emitted, event.sequence = sequence := by
  have bound : sequence - 1 < emitted.length := by omega
  refine ⟨emitted[sequence - 1], getElem_mem bound, ?_⟩
  rw [numbered.getElem bound]
  omega

theorem drop (taken : Nat) : Consecutive taken (emitted.drop taken) := by
  unfold Consecutive
  rw [map_drop, show emitted.map ProductEvent.sequence = range' 1 emitted.length from
    numbered, drop_range', length_drop, Nat.mul_one, Nat.add_comm 1 taken]

theorem mem_drop_iff (taken : Nat) {event : Event} (inside : event ∈ emitted) :
    event ∈ emitted.drop taken ↔ taken < event.sequence := by
  obtain ⟨index, bound, rfl⟩ := getElem_of_mem inside
  rw [numbered.getElem bound]
  constructor
  · intro after
    obtain ⟨place, range, equal⟩ := getElem_of_mem after
    rw [getElem_drop] at equal
    have places := congrArg ProductEvent.sequence equal
    rw [numbered.getElem, numbered.getElem bound] at places
    omega
  · intro after
    have place : index - taken < (emitted.drop taken).length := by
      rw [length_drop]
      omega
    have found : (emitted.drop taken)[index - taken] = emitted[index] := by
      rw [getElem_drop]
      congr 1
      omega
    rw [← found]
    exact getElem_mem place

end Numbered

variable {emitted : List Event} {retainedCapacity : Nat}
  {service : SnapshotState CodingAgentProductEventKind}

theorem numbered_of_retained (held : Retained retainedCapacity emitted service) :
    Numbered emitted := by
  unfold Numbered Consecutive
  exact held.numbered

theorem replay_eq {cursor : Nat} (held : Retained retainedCapacity emitted service)
    {boundary : ProductEventRecoveryBoundary CodingAgentProductEventKind}
    (ready : recoveryBoundaryFromState service cursor = .ready boundary) :
    boundary.replay = emitted.drop (max cursor (emitted.length - retainedCapacity)) := by
  have numbered := numbered_of_retained held
  have replayed : boundary.replay =
      service.retainedProductEvents.filter fun event => cursor < event.sequence := by
    unfold recoveryBoundaryFromState at ready
    split at ready
    · cases ready
    · cases ready
      rfl
  have counted : emitted.length - retainedCapacity + (cursor - (emitted.length - retainedCapacity))
      = max cursor (emitted.length - retainedCapacity) := by omega
  rw [replayed, held.window, (numbered.drop _).filter_eq_drop cursor, drop_drop, counted]

section pushes

variable {serde : Serde} {emitted : List Event} {lagged : Bool} {running : CodingRunningPrompt}

abbrev Known (emitted : List Event) (lagged : Bool) (running : CodingRunningPrompt) : Prop :=
  Pushes emitted lagged running.pushed running.adapterAppliedSequence

theorem pushProductEvent_old (old : event.sequence ≤ running.adapterAppliedSequence) :
    pushProductEvent serde running event = (running, []) :=
  if_pos old

theorem pushProductEvent_new (serde : Serde)
    (new : running.adapterAppliedSequence < event.sequence) :
    (pushProductEvent serde running event).1.pushed = running.pushed ++ [event] ∧
      (pushProductEvent serde running event).1.adapterAppliedSequence = event.sequence ∧
      (pushProductEvent serde running event).1.eventsClosed = running.eventsClosed := by
  have apart : ¬ event.sequence ≤ running.adapterAppliedSequence := Nat.not_le.mpr new
  rw [pushProductEvent, if_neg apart]
  exact ⟨rfl, Nat.max_eq_right (Nat.le_of_lt new), rfl⟩

theorem Pushes.push (numbered : Numbered emitted) (known : Known emitted lagged running)
    {event : Event} (inside : event ∈ emitted)
    (next : lagged = false → running.adapterAppliedSequence = 0 ∨
      event.sequence ≤ running.adapterAppliedSequence + 1) :
    Known emitted lagged (pushProductEvent serde running event).1 := by
  by_cases old : event.sequence ≤ running.adapterAppliedSequence
  · rw [pushProductEvent_old old]
    exact known
  · have new := Nat.lt_of_not_le old
    obtain ⟨pushed, applied, -⟩ := pushProductEvent_new serde new
    have positive := numbered.positive inside
    unfold Known
    rw [pushed, applied]
    refine ⟨?_, ?_, ?_, ?_, positive.2, ?_⟩
    · intro other member
      rcases mem_append.mp member with before | last
      · exact known.given other before
      · rw [mem_singleton.mp last]
        exact inside
    · rw [map_append, map_singleton, pairwise_append]
      refine ⟨known.ordered, pairwise_singleton _ _, fun earlier member later last => ?_⟩
      obtain ⟨other, among, rfl⟩ := mem_map.mp member
      rw [mem_singleton.mp last]
      exact Nat.lt_of_le_of_lt (known.most other among) new
    · intro other member
      rcases mem_append.mp member with before | last
      · exact Nat.le_of_lt (Nat.lt_of_le_of_lt (known.most other before) new)
      · rw [mem_singleton.mp last]
    · exact fun _ => ⟨event, mem_append_right _ (mem_singleton_self event), rfl⟩
    · intro quiet first begun other among low high
      rw [mem_append, mem_singleton]
      by_cases earlier : other.sequence ≤ running.adapterAppliedSequence
      · rcases mem_append.mp begun with before | last
        · exact .inl (known.filled quiet first before other among low earlier)
        · rw [mem_singleton.mp last] at low
          omega
      · rcases next quiet with none | near
        · -- Nothing was pushed before: the event is the first one itself.
          rcases mem_append.mp begun with before | last
          · have least := numbered.positive (known.given first before)
            have most := known.most first before
            omega
          · rw [mem_singleton.mp last] at low
            exact .inr (numbered.same among inside (Nat.le_antisymm high low))
        · exact .inr (numbered.same among inside (by omega))

theorem Pushes.retained (serde : Serde) (numbered : Numbered emitted)
    (known : Known emitted lagged running)
    {events : List Event} (inside : ∀ event ∈ events, event ∈ emitted) {taken : Nat}
    (next : lagged = false → Consecutive taken events ∧
      (running.adapterAppliedSequence ≠ 0 → taken ≤ running.adapterAppliedSequence)) :
    Known emitted lagged (pushRetained serde events running).1 ∧
      (lagged = false → (pushRetained serde events running).1.adapterAppliedSequence ≠ 0 →
        taken + events.length ≤ (pushRetained serde events running).1.adapterAppliedSequence) := by
  induction events generalizing running taken with
  | nil => exact ⟨known, fun quiet => (next quiet).2⟩
  | cons event events ih =>
    have first := inside event mem_cons_self
    have pushed : Known emitted lagged (pushProductEvent serde running event).1 := by
      refine known.push numbered first fun quiet => ?_
      obtain ⟨consecutive, reached⟩ := next quiet
      have here := (Consecutive.cons_iff.mp consecutive).1
      by_cases none : running.adapterAppliedSequence = 0
      · exact .inl none
      · have near := reached none
        exact .inr (by omega)
    have further : lagged = false → Consecutive (taken + 1) events ∧
        ((pushProductEvent serde running event).1.adapterAppliedSequence ≠ 0 →
          taken + 1 ≤ (pushProductEvent serde running event).1.adapterAppliedSequence) := by
      intro quiet
      obtain ⟨here, after⟩ := Consecutive.cons_iff.mp (next quiet).1
      refine ⟨after, fun _ => ?_⟩
      by_cases old : event.sequence ≤ running.adapterAppliedSequence
      · rw [pushProductEvent_old old]
        exact Nat.le_trans (Nat.le_of_eq here.symm) old
      · rw [(pushProductEvent_new serde (Nat.lt_of_not_le old)).2.1, here]
    obtain ⟨rest, reached⟩ := ih pushed
      (fun other member => inside other (mem_cons_of_mem event member)) further
    refine ⟨rest, fun quiet some => ?_⟩
    have most := reached quiet some
    rw [length_cons]
    change taken + (events.length + 1) ≤ (pushRetained serde events
      (pushProductEvent serde running event).1).1.adapterAppliedSequence
    omega

theorem pushRetained_pushed (consecutive : Consecutive taken events) :
    (pushRetained serde events running).1.pushed = running.pushed ++
      events.filter fun event => running.adapterAppliedSequence < event.sequence := by
  induction events generalizing running taken with
  | nil => exact (append_nil running.pushed).symm
  | cons event events ih =>
    obtain ⟨here, after⟩ := Consecutive.cons_iff.mp consecutive
    change (pushRetained serde events (pushProductEvent serde running event).1).1.pushed = _
    rw [ih after, after.filter_eq_drop]
    by_cases old : event.sequence ≤ running.adapterAppliedSequence
    · have stale : ¬ running.adapterAppliedSequence < event.sequence := Nat.not_lt.mpr old
      rw [pushProductEvent_old old]
      simp [stale, after.filter_eq_drop]
    · have new := Nat.lt_of_not_le old
      obtain ⟨pushed, applied, -⟩ := pushProductEvent_new serde new
      have now : event.sequence - (taken + 1) = 0 := by omega
      have before : running.adapterAppliedSequence - (taken + 1) = 0 := by omega
      simp [pushed, applied, new, after.filter_eq_drop, now, before]

theorem pushProductEvent_grows (serde : Serde) (running : CodingRunningPrompt) (event : Event) :
    running.pushed ⊆ (pushProductEvent serde running event).1.pushed ∧
      running.adapterAppliedSequence ≤
        (pushProductEvent serde running event).1.adapterAppliedSequence := by
  by_cases old : event.sequence ≤ running.adapterAppliedSequence
  · rw [pushProductEvent_old old]
    exact ⟨Subset.refl _, Nat.le_refl _⟩
  · have new := Nat.lt_of_not_le old
    obtain ⟨pushed, applied, -⟩ := pushProductEvent_new serde new
    rw [pushed, applied]
    exact ⟨subset_append_left _ _, Nat.le_of_lt new⟩

theorem pushRetained_grows (serde : Serde) (events : List Event)
    (running : CodingRunningPrompt) :
    running.pushed ⊆ (pushRetained serde events running).1.pushed ∧
      running.adapterAppliedSequence ≤
        (pushRetained serde events running).1.adapterAppliedSequence := by
  induction events generalizing running with
  | nil => exact ⟨Subset.refl _, Nat.le_refl _⟩
  | cons event events ih =>
    obtain ⟨first, least⟩ := pushProductEvent_grows serde running event
    obtain ⟨rest, most⟩ := ih (pushProductEvent serde running event).1
    exact ⟨Subset.trans first rest, Nat.le_trans least most⟩

theorem drainQueue_eq (serde : Serde) (queue : List RpcQueuedProductEvent)
    (running : CodingRunningPrompt) :
    (drainQueue serde queue running).1.pushed =
        (pushRetained serde (front queue) running).1.pushed ∧
      (drainQueue serde queue running).1.adapterAppliedSequence =
        (pushRetained serde (front queue) running).1.adapterAppliedSequence := by
  induction queue generalizing running with
  | nil => exact ⟨rfl, rfl⟩
  | cons item queue ih =>
    cases item with
    | overflow skipped => exact ⟨rfl, rfl⟩
    | event event => exact ih (pushProductEvent serde running event).1


end pushes

variable {world : World} {running : CodingRunningPrompt}

theorem World.current_of_running (given : world.running = some running) :
    world.current = some running := by
  rw [current, given, Option.some_or]

theorem World.pushed_of_current (given : world.current = some running) :
    world.pushed = running.pushed := by
  rw [pushed, given]
  rfl

theorem protocol_quiet (protocolEvents : List ProtocolEvent) :
    (protocolEvents.map RpcOutput.protocol).any RpcOutput.isLag = false := by
  rw [any_map, any_eq_false]
  exact fun _ _ => Bool.false_ne_true

theorem recv_cases (capacity : Nat) (world : World) :
    (world.received + capacity < world.emitted.length ∧
      ∃ skipped, recv capacity world = (.lagged skipped, world.emitted.length - capacity)) ∨
    (world.emitted.length ≤ world.received + capacity ∧
      (∃ inside : world.received < world.emitted.length,
        recv capacity world = (.event world.emitted[world.received], world.received + 1)) ∨
      (world.emitted.length ≤ world.received ∧
        recv capacity world = (.empty, world.received))) := by
  unfold recv
  by_cases behind : world.received + capacity < world.emitted.length
  · rw [if_pos behind]
    exact .inl ⟨behind, _, rfl⟩
  · rw [if_neg behind]
    refine .inr ?_
    by_cases inside : world.received < world.emitted.length
    · rw [getElem?_eq_getElem inside]
      exact .inl ⟨Nat.le_of_not_lt behind, inside, rfl⟩
    · have none := Nat.le_of_not_lt inside
      rw [getElem?_eq_none none]
      exact .inr ⟨none, rfl⟩


variable {queue : List RpcQueuedProductEvent}

theorem front_append_of_overflow (lost : queue.any RpcQueuedProductEvent.isOverflow = true)
    (more : List RpcQueuedProductEvent) : front (queue ++ more) = front queue := by
  induction queue with
  | nil => cases lost
  | cons item queue ih =>
    cases item with
    | overflow skipped => rfl
    | event event => exact congrArg (event :: ·) (ih lost)

theorem front_append_of_whole (whole : queue.any RpcQueuedProductEvent.isOverflow = false)
    (more : List RpcQueuedProductEvent) : front (queue ++ more) = front queue ++ front more := by
  induction queue with
  | nil => rfl
  | cons item queue ih =>
    cases item with
    | overflow skipped => cases whole
    | event event => exact congrArg (event :: ·) (ih whole)

theorem front_concat_overflow (queue : List RpcQueuedProductEvent) (skipped : Nat) :
    front (queue ++ [.overflow skipped]) = front queue := by
  cases whole : queue.any RpcQueuedProductEvent.isOverflow with
  | false => exact (front_append_of_whole whole _).trans (append_nil _)
  | true => exact front_append_of_overflow whole _

theorem front_of_overflows (overflows : ∀ item ∈ queue, item.isOverflow = true) :
    front queue = [] := by
  cases queue with
  | nil => rfl
  | cons item queue =>
    cases item with
    | overflow skipped => rfl
    | event event => cases overflows (.event event) mem_cons_self

theorem mem_of_mem_front (inside : event ∈ front queue) : .event event ∈ queue := by
  induction queue with
  | nil => cases inside
  | cons item queue ih =>
    cases item with
    | overflow skipped => cases inside
    | event first =>
      rcases mem_cons.mp inside with rfl | rest
      · exact mem_cons_self
      · exact mem_cons_of_mem _ (ih rest)

theorem Consecutive.concat (consecutive : Consecutive taken events)
    (next : event.sequence = taken + events.length + 1) :
    Consecutive taken (events ++ [event]) := by
  have place : taken + 1 + events.length = event.sequence := by omega
  unfold Consecutive at consecutive ⊢
  rw [map_append, map_singleton, consecutive, length_append,
    length_singleton, range'_1_concat, place]

theorem World.lagged_replayed (world : World) (protocolEvents : List ProtocolEvent) :
    (world.written ++ RpcOutput.success :: protocolEvents.map RpcOutput.protocol).any
      RpcOutput.isLag = world.lagged := by
  rw [any_append, any_cons, protocol_quiet]
  exact Bool.or_false _

/-- What all allowed steps keep. `live` says where the queue goes on, `stalled` what an overflow
leaves of the task and its queue while the operation runs, and `late` that no event emitted
after a recovery comes through the queue. -/
structure Inv (capacity retainedCapacity : Nat) (world : World) : Prop where
  retained : Retained retainedCapacity world.emitted world.service
  received : world.received ≤ world.emitted.length
  queued : ∀ event, .event event ∈ world.queue → event ∈ world.emitted
  alone : ∀ running, world.running = some running → world.finished = none
  known : ∀ running, world.current = some running → Known world.emitted world.lagged running
  live : world.lagged = false → ∃ taken,
    taken + (front world.queue).length ≤ world.received ∧ Consecutive taken (front world.queue) ∧
    (world.queue.any RpcQueuedProductEvent.isOverflow = false →
      taken + (front world.queue).length = world.received) ∧
    ∀ running, world.running = some running → running.adapterAppliedSequence ≠ 0 →
      taken ≤ running.adapterAppliedSequence
  reported : world.reported = true → world.ended = true
  ended : world.ended = true → world.forwarding = false
  emptied : world.ended = false → world.lagged = true → world.queue = []
  stalled : world.ended = false →
    world.lagged = true ∨ world.queue.any RpcQueuedProductEvent.isOverflow = true →
      world.forwarding = false ∧ world.received + capacity ≤ world.emitted.length
  final : world.ended = false → ∀ item ∈ world.queue.dropLast, item.isOverflow = false
  late : world.later ≠ [] → world.forwarding = false ∧
    (∀ item ∈ world.queue, item.isOverflow = true) ∧
    (world.reported = true ∨ world.received + capacity < world.emitted.length)
  recovered : world.recovered = true → world.lagged = true
  covered : ∀ event ∈ world.later, event ∈ world.pushed ∨ event ∈ world.uncovered
  apart : ∀ event ∈ world.uncovered, event ∈ world.later ∧ event ∉ world.pushed
  issued : ∀ event ∈ world.later, event ∈ world.emitted
  settled : world.finished.isSome → world.ended = true ∧ world.uncovered = []
  kept : world.running.isSome ∨ world.finished.isSome

namespace Inv

variable {serde : Serde} {capacity retainedCapacity : Nat} {world : World}

variable (inv : Inv capacity retainedCapacity world)
include inv

theorem numbered : Numbered world.emitted :=
  numbered_of_retained inv.retained

/-- There is always a prompt to speak of. -/
theorem exists_current : ∃ running, world.current = some running := by
  rcases inv.kept with going | through
  · obtain ⟨running, given⟩ := Option.isSome_iff_exists.mp going
    exact ⟨running, World.current_of_running given⟩
  · cases going : world.running with
    | some running => exact ⟨running, World.current_of_running going⟩
    | none =>
      obtain ⟨running, given⟩ := Option.isSome_iff_exists.mp through
      exact ⟨running, by rw [World.current, going, Option.none_or, given]⟩

theorem delivered : Delivered world := by
  obtain ⟨running, given⟩ := inv.exists_current
  have known := inv.known running given
  have pushed := World.pushed_of_current given
  refine ⟨?_, ?_, ?_, inv.kept⟩
  · rw [pushed]
    exact known.ordered
  · rw [pushed]
    intro quiet first begun last through event inside low high
    exact known.filled quiet first begun event inside (Nat.le_of_lt low)
      (Nat.le_trans (Nat.le_of_lt high) (known.most last through))
  · intro through event inside
    rcases inv.covered event inside with done | missing
    · exact done
    · rw [(inv.settled through).2] at missing
      cases missing

end Inv

variable {lagged : Bool} {pushed : List Event} {applied : Nat}

theorem Pushes.emit (known : Pushes emitted lagged pushed applied)
    (new : event.sequence = emitted.length + 1) :
    Pushes (emitted ++ [event]) lagged pushed applied := by
  refine ⟨fun other member => mem_append_left _ (known.given other member), known.ordered,
    known.most, known.last, ?_, ?_⟩
  · rw [length_append]
    exact Nat.le_trans known.within (Nat.le_add_right _ _)
  · intro quiet first begun other inside low high
    rcases mem_append.mp inside with before | last
    · exact known.filled quiet first begun other before low high
    · have within := known.within
      rw [mem_singleton.mp last, new] at high
      omega

theorem Pushes.lag {also : Bool} (known : Pushes emitted lagged pushed applied)
    (still : also = false → lagged = false) : Pushes emitted also pushed applied :=
  ⟨known.given, known.ordered, known.most, known.last, known.within,
    fun quiet => known.filled (still quiet)⟩

namespace Inv

variable {serde : Serde} {capacity retainedCapacity : Nat} {world : World}

section

variable (inv : Inv capacity retainedCapacity world)
include inv

theorem emit (event : CodingAgentProductEventKind) :
    Inv capacity retainedCapacity (Rpc.emit retainedCapacity event world) := by
  unfold Rpc.emit
  split
  · exact inv
  rename_i running
  have open_ : world.ended = false := Bool.eq_false_iff.mpr running
  have new : (emitLocked retainedCapacity event world.service).1.sequence =
      world.emitted.length + 1 := inv.retained.next
  have grown : (world.emitted ++ [(emitLocked retainedCapacity event world.service).1]).length =
      world.emitted.length + 1 := by rw [length_append, length_singleton]
  have unpushed : (emitLocked retainedCapacity event world.service).1 ∉ world.pushed := by
    intro member
    obtain ⟨current, given⟩ := inv.exists_current
    rw [World.pushed_of_current given] at member
    have range := inv.numbered.positive ((inv.known current given).given _ member)
    omega
  refine
    { inv with
      retained := emitLocked_retained event inv.retained
      received := ?_
      queued := fun other member => mem_append_left _ (inv.queued other member)
      known := fun current given => (inv.known current given).emit new
      stalled := ?_
      late := ?_
      covered := ?_
      apart := ?_
      issued := ?_
      settled := ?_ }
  · have before := inv.received
    simp only [grown]
    omega
  · intro going lost
    obtain ⟨closed, behind⟩ := inv.stalled going lost
    refine ⟨closed, ?_⟩
    simp only [grown]
    omega
  · intro some
    simp only [grown]
    by_cases recovered : world.recovered = true
    · have lagged := inv.recovered recovered
      obtain ⟨closed, behind⟩ := inv.stalled open_ (.inl lagged)
      refine ⟨closed, ?_, .inr (by omega)⟩
      rw [inv.emptied open_ lagged]
      exact forall_mem_nil _
    · simp only [recovered, Bool.false_eq_true, ↓reduceIte] at some
      obtain ⟨closed, quiet, behind⟩ := inv.late some
      exact ⟨closed, quiet, behind.imp_right (by omega)⟩
  · intro other member
    by_cases recovered : world.recovered = true
    · simp only [recovered, ↓reduceIte, mem_append, mem_singleton] at member ⊢
      rcases member with before | last
      · exact (inv.covered other before).imp_right .inl
      · exact .inr (.inr last)
    · simp only [recovered, Bool.false_eq_true, ↓reduceIte] at member ⊢
      exact inv.covered other member
  · intro other member
    by_cases recovered : world.recovered = true
    · simp only [recovered, ↓reduceIte, mem_append, mem_singleton] at member ⊢
      rcases member with before | last
      · exact (inv.apart other before).imp_left .inl
      · rw [last]
        exact ⟨.inr rfl, unpushed⟩
    · simp only [recovered, Bool.false_eq_true, ↓reduceIte] at member ⊢
      exact inv.apart other member
  · intro other member
    by_cases recovered : world.recovered = true
    · simp only [recovered, ↓reduceIte, mem_append, mem_singleton] at member ⊢
      exact member.imp_left (inv.issued other)
    · simp only [recovered, Bool.false_eq_true, ↓reduceIte] at member
      exact mem_append_left _ (inv.issued other member)
  · intro through
    rw [(inv.settled through).1] at open_
    cases open_

theorem enqueued (inside : world.received < world.emitted.length)
    (whole : world.ended = false →
      world.lagged = false ∧ world.queue.any RpcQueuedProductEvent.isOverflow = false)
    (early : world.later = []) :
    Inv capacity retainedCapacity
      { world with
        received := world.received + 1
        queue := world.queue ++ [.event world.emitted[world.received]] } := by
  have placed := inv.numbered.getElem inside
  refine
    { inv with
      received := inside
      queued := ?_
      live := ?_
      emptied := ?_
      stalled := ?_
      final := ?_
      late := fun some => absurd early some }
  · intro event member
    rcases mem_append.mp member with before | last
    · exact inv.queued event before
    · cases mem_singleton.mp last
      exact getElem_mem inside
  · intro quiet
    obtain ⟨taken, within, consecutive, reach, applied⟩ := inv.live quiet
    refine ⟨taken, ?_, ?_, ?_, applied⟩
    · cases lost : world.queue.any RpcQueuedProductEvent.isOverflow with
      | true =>
        rw [front_append_of_overflow lost]
        exact Nat.le_succ_of_le within
      | false =>
        rw [front_append_of_whole lost, length_append]
        exact Nat.succ_le_succ within
    · cases lost : world.queue.any RpcQueuedProductEvent.isOverflow with
      | true =>
        rw [front_append_of_overflow lost]
        exact consecutive
      | false =>
        rw [front_append_of_whole lost]
        refine consecutive.concat ?_
        rw [placed, reach lost]
    · intro still
      rw [any_append, Bool.or_eq_false_iff] at still
      rw [front_append_of_whole still.1, length_append]
      change taken + ((front world.queue).length + 1) = world.received + 1
      have counted := reach still.1
      omega
  · intro going lagged
    exact absurd ((whole going).1.symm.trans lagged) Bool.false_ne_true
  · intro going lost
    obtain ⟨quiet, clean⟩ := whole going
    rw [any_append, clean] at lost
    rcases lost with lagged | overflow
    · exact absurd (quiet.symm.trans lagged) Bool.false_ne_true
    · exact absurd overflow Bool.false_ne_true
  · intro going item member
    rw [dropLast_concat] at member
    have clean := any_eq_false.mp (whole going).2 item member
    exact Bool.eq_false_iff.mpr clean

theorem overflowed (behind : world.received + capacity < world.emitted.length) (skipped : Nat)
    {forwarding reported : Bool} (closed : forwarding = false)
    (through : reported = true → world.ended = true)
    (whole : world.ended = false →
      world.lagged = false ∧ world.queue.any RpcQueuedProductEvent.isOverflow = false)
    (early : world.later ≠ [] → reported = true) :
    Inv capacity retainedCapacity
      { world with
        received := world.emitted.length - capacity
        queue := world.queue ++ [.overflow skipped]
        forwarding := forwarding
        reported := reported } := by
  refine
    { inv with
      received := Nat.sub_le _ _
      queued := ?_
      live := ?_
      reported := through
      ended := fun _ => closed
      emptied := ?_
      stalled := ?_
      final := ?_
      late := ?_ }
  · intro event member
    rcases mem_append.mp member with before | last
    · exact inv.queued event before
    · cases mem_singleton.mp last
  · intro quiet
    obtain ⟨taken, within, consecutive, -, applied⟩ := inv.live quiet
    refine ⟨taken, ?_, ?_, ?_, applied⟩
    · rw [front_concat_overflow]
      change taken + (front world.queue).length ≤ world.emitted.length - capacity
      omega
    · rw [front_concat_overflow]
      exact consecutive
    · intro still
      rw [any_append, Bool.or_eq_false_iff] at still
      cases still.2
  · intro going lagged
    exact absurd ((whole going).1.symm.trans lagged) Bool.false_ne_true
  · intro going lost
    refine ⟨closed, ?_⟩
    change world.emitted.length - capacity + capacity ≤ world.emitted.length
    omega
  · intro going item member
    rw [dropLast_concat] at member
    have clean := any_eq_false.mp (whole going).2 item member
    exact Bool.eq_false_iff.mpr clean
  · intro some
    refine ⟨closed, fun item member => ?_, .inl (early some)⟩
    rcases mem_append.mp member with before | last
    · exact (inv.late some).2.1 item before
    · rw [mem_singleton.mp last]
      rfl


theorem whole_of_forwarding (forwarding : world.forwarding = true) :
    (world.ended = false →
      world.lagged = false ∧ world.queue.any RpcQueuedProductEvent.isOverflow = false) ∧
      world.later = [] := by
  have open_ {closed : Prop} (still : world.forwarding = false) : closed :=
    absurd (forwarding.symm.trans still) (by decide)
  refine ⟨fun going => ⟨?_, ?_⟩, ?_⟩
  · exact Bool.eq_false_iff.mpr fun lagged => open_ (inv.stalled going (.inl lagged)).1
  · exact Bool.eq_false_iff.mpr fun lost => open_ (inv.stalled going (.inr lost)).1
  · exact Classical.byContradiction fun some => open_ (inv.late some).1

theorem forward : Inv capacity retainedCapacity (Rpc.forward capacity world) := by
  unfold Rpc.forward
  split
  · rename_i ready
    have forwarding := (Bool.and_eq_true_iff.mp ready).1
    obtain ⟨whole, early⟩ := inv.whole_of_forwarding forwarding
    rcases recv_cases capacity world with ⟨behind, skipped, got⟩ | ⟨-, inside, got⟩ | ⟨-, got⟩
    · rw [got]
      exact inv.overflowed behind skipped rfl inv.reported whole fun some => absurd early some
    · rw [got]
      exact inv.enqueued inside whole early
    · rw [got]
      exact inv
  · exact inv

theorem drain : Inv capacity retainedCapacity (Rpc.drain capacity world) := by
  unfold Rpc.drain
  split
  · rename_i ready
    obtain ⟨phase, -⟩ := Bool.and_eq_true_iff.mp ready
    obtain ⟨ended, fresh⟩ := Bool.and_eq_true_iff.mp phase
    have unreported : world.reported = false := by simpa using fresh
    have whole : world.ended = false →
        world.lagged = false ∧ world.queue.any RpcQueuedProductEvent.isOverflow = false :=
      fun going => absurd (ended.symm.trans going) (by decide)
    have closed := inv.ended ended
    rcases recv_cases capacity world with ⟨behind, skipped, got⟩ | ⟨near, inside, got⟩ | ⟨-, got⟩
    · rw [got]
      exact inv.overflowed behind skipped closed (fun _ => ended) whole fun _ => rfl
    · rw [got]
      refine inv.enqueued inside whole ?_
      refine Classical.byContradiction fun some => ?_
      rcases (inv.late some).2.2 with reported | behind
      · exact Bool.false_ne_true (unreported.symm.trans reported)
      · omega
    · rw [got]
      exact
        { inv with
          reported := fun _ => ended
          known := inv.known
          live := inv.live
          late := fun some => ⟨closed, (inv.late some).2.1, .inl rfl⟩ }
  · exact inv

theorem close : Inv capacity retainedCapacity { world with forwarding := false } :=
  { inv with
    known := inv.known
    live := inv.live
    ended := fun _ => rfl
    stalled := fun going lost => ⟨rfl, (inv.stalled going lost).2⟩
    late := fun some => ⟨rfl, (inv.late some).2⟩ }

theorem outcome : Inv capacity retainedCapacity { world with forwarding := false, ended := true } :=
  { inv with
    known := inv.known
    live := inv.live
    reported := fun _ => rfl
    ended := fun _ => rfl
    emptied := nofun
    stalled := nofun
    final := nofun
    late := fun some => ⟨rfl, (inv.late some).2⟩
    settled := fun through => ⟨rfl, (inv.settled through).2⟩ }

end

section

variable (inv : Inv capacity retainedCapacity world)
include inv

theorem received_event (serde : Serde) (given : world.running = some running) {event : Event}
    {rest : List RpcQueuedProductEvent} (queue : world.queue = .event event :: rest) :
    Inv capacity retainedCapacity
      { world with
        queue := rest
        running := some (pushProductEvent serde running event).1
        written := world.written ++ (pushProductEvent serde running event).2.map .protocol } := by
  have inside : event ∈ world.emitted := inv.queued event (by rw [queue]; exact mem_cons_self)
  have early : world.later = [] := by
    refine Classical.byContradiction fun some => ?_
    have overflow := (inv.late some).2.1 (.event event) (by rw [queue]; exact mem_cons_self)
    cases overflow
  have nothing : world.uncovered = [] := by
    refine eq_nil_iff_forall_not_mem.mpr fun other member => ?_
    have issued := (inv.apart other member).1
    rw [early] at issued
    cases issued
  have quiet : (world.written ++ (pushProductEvent serde running event).2.map
      RpcOutput.protocol).any RpcOutput.isLag = world.lagged := by
    rw [any_append, protocol_quiet, Bool.or_false]
    rfl
  have known := inv.known running (World.current_of_running given)
  refine
    { inv with
      queued := fun other member =>
        inv.queued other (by rw [queue]; exact mem_cons_of_mem _ member)
      alone := fun _ _ => inv.alone running given
      known := ?_
      live := ?_
      emptied := ?_
      stalled := ?_
      final := ?_
      late := fun some => absurd early some
      recovered := fun recovered => quiet.trans (inv.recovered recovered)
      covered := fun other member => ?_
      apart := fun other member => ?_
      kept := .inl rfl }
  · intro current same
    cases same
    refine (known.push inv.numbered inside fun still => ?_).lag fun still => quiet.symm.trans still
    obtain ⟨taken, -, consecutive, -, applied⟩ := inv.live still
    rw [queue] at consecutive
    have here := (Consecutive.cons_iff.mp consecutive).1
    by_cases none : running.adapterAppliedSequence = 0
    · exact .inl none
    · have reached := applied running given none
      exact .inr (by omega)
  · intro still
    obtain ⟨taken, within, consecutive, reach, applied⟩ := inv.live (quiet.symm.trans still)
    rw [queue] at within consecutive reach
    obtain ⟨here, after⟩ := Consecutive.cons_iff.mp consecutive
    change taken + ((front rest).length + 1) ≤ world.received at within
    refine ⟨taken + 1, ?_, after, fun clean => ?_, ?_⟩
    · change taken + 1 + (front rest).length ≤ world.received
      omega
    · have counted : taken + ((front rest).length + 1) = world.received := reach clean
      change taken + 1 + (front rest).length = world.received
      omega
    · intro current same _
      cases same
      by_cases old : event.sequence ≤ running.adapterAppliedSequence
      · rw [pushProductEvent_old old]
        exact Nat.le_trans (Nat.le_of_eq here.symm) old
      · rw [(pushProductEvent_new serde (Nat.lt_of_not_le old)).2.1, here]
  · intro going lagged
    have empty := inv.emptied going (quiet.symm.trans lagged)
    rw [queue] at empty
    cases empty
  · intro going lost
    refine inv.stalled going (lost.imp (fun lagged => quiet.symm.trans lagged) fun overflow => ?_)
    rw [queue]
    exact overflow
  · intro going item member
    refine inv.final going item ?_
    rw [queue]
    cases rest with
    | nil => cases member
    | cons next rest => exact mem_cons_of_mem _ member
  · change other ∈ world.later at member
    rw [early] at member
    cases member
  · change other ∈ world.uncovered at member
    rw [nothing] at member
    cases member

theorem received_overflow (given : world.running = some running) {skipped : Nat}
    {rest : List RpcQueuedProductEvent} (queue : world.queue = .overflow skipped :: rest) :
    Inv capacity retainedCapacity
      { world with
        queue := rest
        running := some { running with eventsClosed := true }
        written := world.written ++ [.lag skipped] } := by
  have lag : (world.written ++ [RpcOutput.lag skipped]).any RpcOutput.isLag = true := by
    rw [any_append]
    exact Bool.or_true _
  have lost : world.queue.any RpcQueuedProductEvent.isOverflow = true := by
    rw [queue]
    rfl
  have pushed := World.pushed_of_current (World.current_of_running given)
  refine
    { inv with
      queued := fun other member =>
        inv.queued other (by rw [queue]; exact mem_cons_of_mem _ member)
      alone := fun _ _ => inv.alone running given
      known := ?_
      live := fun quiet => absurd (lag.symm.trans quiet) (by decide)
      emptied := ?_
      stalled := fun going _ => inv.stalled going (.inr lost)
      final := ?_
      late := fun some => ?_
      recovered := fun _ => lag
      covered := fun event member => pushed ▸ inv.covered event member
      apart := fun event member => pushed ▸ inv.apart event member
      kept := .inl rfl }
  · intro current same
    cases same
    exact (inv.known running (World.current_of_running given)).lag fun quiet =>
      absurd (lag.symm.trans quiet) (by decide)
  · intro going _
    cases rest with
    | nil => rfl
    | cons next rest =>
      have first := inv.final going (.overflow skipped) (by
        rw [queue]
        exact mem_cons_self)
      cases first
  · intro going item member
    refine inv.final going item ?_
    rw [queue]
    cases rest with
    | nil => cases member
    | cons next rest => exact mem_cons_of_mem _ member
  · obtain ⟨closed, overflows, behind⟩ := inv.late some
    refine ⟨closed, fun item member => overflows item ?_, behind⟩
    rw [queue]
    exact mem_cons_of_mem _ member

theorem receive (serde : Serde) : Inv capacity retainedCapacity (Rpc.receive serde world) := by
  unfold Rpc.receive
  split
  · exact inv
  rename_i running given
  split
  · exact inv
  split
  · rename_i event rest queue
    exact inv.received_event serde given queue
  · rename_i skipped rest queue
    exact inv.received_overflow given queue
  · split
    · have pushed := World.pushed_of_current (World.current_of_running given)
      have known := inv.known running (World.current_of_running given)
      refine
        { inv with
          alone := fun _ _ => inv.alone running given
          known := fun current same => ?_
          live := fun quiet => ?_
          covered := fun event member => pushed ▸ inv.covered event member
          apart := fun event member => pushed ▸ inv.apart event member
          kept := .inl rfl }
      · cases same
        exact known
      · obtain ⟨taken, within, consecutive, reach, applied⟩ := inv.live quiet
        refine ⟨taken, within, consecutive, reach, fun current same => ?_⟩
        cases same
        exact applied running given
    · exact inv


theorem answered {output : RpcOutput} (quiet : output.isLag = false) :
    Inv capacity retainedCapacity { world with written := world.written ++ [output] } := by
  have same : (world.written ++ [output]).any RpcOutput.isLag = world.lagged := by
    rw [any_append, any_cons, quiet, any_nil, Bool.or_false, Bool.or_false]
    rfl
  exact
    { inv with
      known := fun current given =>
        (inv.known current given).lag fun still => same.symm.trans still
      live := fun still => inv.live (same.symm.trans still)
      emptied := fun going lagged => inv.emptied going (same.symm.trans lagged)
      stalled := fun going lost =>
        inv.stalled going (lost.imp_left fun lagged => same.symm.trans lagged)
      recovered := fun recovered => same.trans (inv.recovered recovered)
      covered := inv.covered
      apart := inv.apart }

theorem replayed (serde : Serde) {running : CodingRunningPrompt}
    (given : world.running = some running) (cursor : Nat)
    (fits : world.lagged = true ∨ running.adapterAppliedSequence = 0 ∨
      cursor ≤ running.adapterAppliedSequence ∨ world.emitted.length ≤ cursor) :
    Inv capacity retainedCapacity
      { world with
        running := some (pushRetained serde (world.emitted.drop cursor) running).1
        written := world.written ++ .success ::
          (pushRetained serde (world.emitted.drop cursor) running).2.map .protocol
        recovered := world.recovered || world.lagged
        uncovered := world.uncovered.filter fun event =>
          event.sequence ≤ max cursor running.adapterAppliedSequence } := by
  have known := inv.known running (World.current_of_running given)
  have consecutive := inv.numbered.drop cursor
  have pushed := World.pushed_of_current (World.current_of_running given)
  have grown := pushRetained_grows serde (world.emitted.drop cursor) running
  have more : (pushRetained serde (world.emitted.drop cursor) running).1.pushed = _ :=
    pushRetained_pushed consecutive
  have quiet : (world.written ++ RpcOutput.success ::
      (pushRetained serde (world.emitted.drop cursor) running).2.map RpcOutput.protocol).any
        RpcOutput.isLag = world.lagged := world.lagged_replayed _
  have replay : Known world.emitted world.lagged
        (pushRetained serde (world.emitted.drop cursor) running).1 ∧
      (world.lagged = false → running.adapterAppliedSequence = 0 →
        (pushRetained serde (world.emitted.drop cursor) running).1.adapterAppliedSequence ≠ 0 →
          world.emitted.length ≤
            (pushRetained serde (world.emitted.drop cursor) running).1.adapterAppliedSequence) := by
    by_cases beyond : world.emitted.length ≤ cursor
    · rw [drop_eq_nil_of_le beyond]
      exact ⟨known, fun _ none some => absurd none some⟩
    · obtain ⟨after, reached⟩ := known.retained serde inv.numbered
        (fun event member => mem_of_mem_drop member) fun still => by
          refine ⟨consecutive, fun applied => ?_⟩
          rcases fits with lagged | none | near | far
          · exact absurd (still.symm.trans lagged) Bool.false_ne_true
          · exact absurd none applied
          · exact near
          · exact absurd far beyond
      refine ⟨after, fun still _ some => ?_⟩
      have most := reached still some
      rw [length_drop] at most
      omega
  refine
    { inv with
      alone := fun _ _ => inv.alone running given
      known := ?_
      live := ?_
      emptied := fun going lagged => inv.emptied going (quiet.symm.trans lagged)
      stalled := fun going lost =>
        inv.stalled going (lost.imp_left fun lagged => quiet.symm.trans lagged)
      recovered := ?_
      covered := ?_
      apart := ?_
      settled := fun through => ?_
      kept := .inl rfl }
  · intro current same
    cases same
    exact replay.1.lag fun still => quiet.symm.trans still
  · intro still
    have silent := quiet.symm.trans still
    obtain ⟨taken, within, after, reach, applied⟩ := inv.live silent
    refine ⟨taken, within, after, reach, fun current same some => ?_⟩
    cases same
    by_cases none : running.adapterAppliedSequence = 0
    · have most := replay.2 silent none some
      have bound := inv.received
      omega
    · exact Nat.le_trans (applied running given none) grown.2
  · intro recovered
    rcases Bool.or_eq_true_iff.mp recovered with before | lagged
    · exact quiet.trans (inv.recovered before)
    · exact quiet.trans lagged
  · intro event member
    change event ∈ (pushRetained serde (world.emitted.drop cursor) running).1.pushed ∨ _
    rcases inv.covered event member with before | missing
    · exact .inl (grown.1 (pushed ▸ before))
    · by_cases old : event.sequence ≤ max cursor running.adapterAppliedSequence
      · exact .inr (mem_filter.mpr ⟨missing, decide_eq_true old⟩)
      · refine .inl ?_
        have issued := inv.issued event member
        rw [more]
        refine mem_append_right _ (mem_filter.mpr ⟨?_, decide_eq_true (by omega)⟩)
        exact (inv.numbered.mem_drop_iff cursor issued).mpr (by omega)
  · intro event member
    obtain ⟨missing, old⟩ := mem_filter.mp member
    obtain ⟨issued, absent⟩ := inv.apart event missing
    have inside := inv.issued event issued
    have bound := of_decide_eq_true old
    refine ⟨issued, ?_⟩
    change event ∉ (pushRetained serde (world.emitted.drop cursor) running).1.pushed
    rw [more, mem_append, not_or]
    refine ⟨pushed ▸ absent, fun new => ?_⟩
    obtain ⟨later, above⟩ := mem_filter.mp new
    have after := (inv.numbered.mem_drop_iff cursor inside).mp later
    have beyond := of_decide_eq_true above
    omega
  · rw [inv.alone running given] at through
    cases through

theorem reconnect (serde : Serde) (cursor : Nat) (connection : Connection)
    (allowed : Allowed retainedCapacity (.reconnect cursor connection) world) :
    Inv capacity retainedCapacity
      (Rpc.reconnect serde retainedCapacity cursor connection world) := by
  unfold Rpc.reconnect
  split
  · exact inv
  rename_i running given
  split
  · exact inv
  rename_i going
  split
  · exact inv.answered rfl
  · exact { inv with known := inv.known, live := inv.live }
  · split
    · exact inv.answered rfl
    · rename_i boundary ready
      have open_ := Bool.eq_false_iff.mpr going
      obtain ⟨acknowledged, fits⟩ := allowed open_ running given boundary ready
      split
      · rename_i unacknowledged
        exact absurd unacknowledged acknowledged
      · rename_i acked
        have answer : connection = .acknowledged := by
          cases connection with
          | acknowledged => rfl
          | unacknowledged => exact absurd rfl acked
          | absent => contradiction
          | rejected => contradiction
        have replay := replay_eq inv.retained ready
        have next := inv.replayed serde given _ (fits answer)
        simp only [replay]
        exact next

theorem done (serde : Serde) (allowed : Allowed retainedCapacity .done world) :
    Inv capacity retainedCapacity (Rpc.done serde world) := by
  unfold Rpc.done
  split
  · exact inv
  rename_i running given
  split
  · exact inv
  rename_i ready
  obtain ⟨going, reported⟩ : world.stopped = false ∧ world.reported = true := by simpa using ready
  have nothing := allowed going (Option.isSome_iff_exists.mpr ⟨running, given⟩) reported
  have ended := inv.reported reported
  have pushed := World.pushed_of_current (World.current_of_running given)
  obtain ⟨same, applied⟩ := drainQueue_eq serde world.queue running
  have known : Known world.emitted world.lagged (drainQueue serde world.queue running).1 := by
    unfold Known
    rw [same, applied]
    have goes : ∃ taken, world.lagged = false → Consecutive taken (front world.queue) ∧
        (running.adapterAppliedSequence ≠ 0 → taken ≤ running.adapterAppliedSequence) := by
      cases lagged : world.lagged with
      | true => exact ⟨0, nofun⟩
      | false =>
        obtain ⟨taken, -, consecutive, -, reached⟩ := inv.live lagged
        exact ⟨taken, fun _ => ⟨consecutive, reached running given⟩⟩
    obtain ⟨taken, next⟩ := goes
    exact ((inv.known running (World.current_of_running given)).retained serde inv.numbered
      (fun event member => inv.queued event (mem_of_mem_front member)) next).1
  have still : (world.written ++ (drainQueue serde world.queue running).2).any RpcOutput.isLag =
      false → world.lagged = false := by
    intro quiet
    rw [any_append, Bool.or_eq_false_iff] at quiet
    exact quiet.1
  exact
    { inv with
      queued := fun _ absent => absurd absent not_mem_nil
      alone := fun _ none => by cases none
      known := fun current last => by
        cases last
        exact known.lag still
      live := fun _ => ⟨world.received, Nat.le_refl _, rfl, fun _ => rfl, fun _ none => by cases none⟩
      emptied := fun _ _ => rfl
      stalled := fun open_ => absurd (ended.symm.trans open_) (by decide)
      final := fun _ _ absent => absurd absent not_mem_nil
      late := fun some => ⟨inv.ended ended, forall_mem_nil _, .inl reported⟩
      recovered := fun recovered => by
        change (world.written ++ (drainQueue serde world.queue running).2).any
          RpcOutput.isLag = true
        rw [any_append, Bool.or_eq_true]
        exact .inl (inv.recovered recovered)
      covered := fun event member => by
        rcases inv.covered event member with before | missing
        · refine .inl ?_
          change event ∈ (drainQueue serde world.queue running).1.pushed
          rw [same]
          exact (pushRetained_grows serde (front world.queue) running).1 (pushed ▸ before)
        · rw [nothing] at missing
          cases missing
      apart := fun event member => by
        change event ∈ world.uncovered at member
        rw [nothing] at member
        cases member
      settled := fun _ => ⟨ended, nothing⟩
      kept := .inr rfl }

theorem step (serde : Serde) (label : Label) (allowed : Allowed retainedCapacity label world) :
    Inv capacity retainedCapacity (Rpc.step serde capacity retainedCapacity label world) := by
  cases label with
  | emit event => exact inv.emit event
  | forward => exact inv.forward
  | close => exact inv.close
  | outcome => exact inv.outcome
  | drain => exact inv.drain
  | receive => exact inv.receive serde
  | reconnect cursor connection => exact inv.reconnect serde cursor connection allowed
  | done => exact inv.done serde allowed

theorem replay_breaks (serde : Serde) (given : world.running = some running) {cursor : Nat}
    (some_ : running.adapterAppliedSequence ≠ 0) (ahead : running.adapterAppliedSequence < cursor)
    (inside : cursor < world.emitted.length) {after : World}
    (emitted : after.emitted = world.emitted)
    (pushed : after.pushed = (pushRetained serde (world.emitted.drop cursor) running).1.pushed)
    (still : after.lagged = false) : ¬ Delivered after := by
  intro delivered
  have known := inv.known running (World.current_of_running given)
  have more : (pushRetained serde (world.emitted.drop cursor) running).1.pushed = _ :=
    pushRetained_pushed (inv.numbered.drop cursor)
  obtain ⟨last, reached, top⟩ := known.last some_
  obtain ⟨next, later, beyond⟩ := inv.numbered.exists_event (Nat.le_add_left 1 cursor) inside
  obtain ⟨missing, among, place⟩ := inv.numbered.exists_event
    (Nat.le_add_left 1 running.adapterAppliedSequence) (by omega)
  have first : last ∈ after.pushed := by
    rw [pushed, more]
    exact mem_append_left _ reached
  have final : next ∈ after.pushed := by
    rw [pushed, more]
    refine mem_append_right _ (mem_filter.mpr ⟨?_, decide_eq_true (by omega)⟩)
    exact (inv.numbered.mem_drop_iff cursor later).mpr (by omega)
  have found := delivered.gapless still last first next final missing (by rw [emitted]; exact among)
    (by omega) (by omega)
  rw [pushed, more, mem_append] at found
  rcases found with before | new
  · have most := known.most missing before
    omega
  · have dropped := (inv.numbered.mem_drop_iff cursor among).mp (mem_filter.mp new).1
    omega

theorem breaks (serde : Serde) (label : Label)
    (forbidden : ¬ Allowed retainedCapacity label world) :
    ¬ Delivered (Rpc.step serde capacity retainedCapacity label world) := by
  cases label with
  | reconnect cursor connection =>
    simp only [Allowed] at forbidden
    push Not at forbidden
    obtain ⟨going, running, given, boundary, ready, fails⟩ := forbidden
    have alone := inv.alone running given
    by_cases lost : connection = .unacknowledged
    · intro delivered
      have gone := delivered.kept
      simp [Rpc.step, Rpc.reconnect, given, going, lost, ready, alone] at gone
    · obtain ⟨rfl, quiet, some_, ahead, inside⟩ := fails lost
      have replay := replay_eq inv.retained ready
      refine inv.replay_breaks serde given some_ ahead inside ?_ ?_ ?_
      · simp [Rpc.step, Rpc.reconnect, given, going, ready]
      · simp [Rpc.step, Rpc.reconnect, given, going, ready, World.pushed, World.current, replay,
          World.evicted]
      · have still := world.lagged_replayed (pushRetained serde boundary.replay running).2
        simp only [Rpc.step, Rpc.reconnect, given, going, ready, World.lagged, ↓reduceIte,
          Bool.false_eq_true, reduceCtorEq]
        exact still.trans (Bool.eq_false_iff.mpr quiet)
  | done =>
    simp only [Allowed] at forbidden
    push Not at forbidden
    obtain ⟨going, some_, reported, missing⟩ := forbidden
    obtain ⟨running, given⟩ := Option.isSome_iff_exists.mp some_
    obtain ⟨event, absent⟩ := exists_mem_of_ne_nil _ missing
    obtain ⟨later, unpushed⟩ := inv.apart event absent
    have nothing := front_of_overflows (inv.late (ne_nil_of_mem later)).2.1
    have same := (drainQueue_eq serde world.queue running).1
    rw [nothing] at same
    intro delivered
    have found := delivered.recovered
      (by simp [Rpc.step, Rpc.done, given, going, reported]) event
      (by simpa [Rpc.step, Rpc.done, given, going, reported] using later)
    simp only [Rpc.step, Rpc.done, given, going, reported, World.pushed, World.current,
      Bool.not_true, Bool.or_self, Bool.false_eq_true, ↓reduceIte, Option.none_or,
      Option.map_some, Option.getD_some, same] at found
    rw [World.pushed_of_current (World.current_of_running given)] at unpushed
    exact unpushed found
  | _ => exact absurd trivial forbidden

end


end Inv

theorem start_inv (capacity retainedCapacity : Nat)
    (earlier : List CodingAgentProductEventKind) (adapter : CodingProtocolEventAdapter) :
    Inv capacity retainedCapacity (start retainedCapacity earlier adapter) where
  retained := emitAll_retained retainedCapacity earlier
  received := Nat.le_refl _
  queued _ absent := absurd absent not_mem_nil
  alone _ _ := rfl
  known running given := by
    cases given
    exact
      { given := forall_mem_nil _
        ordered := Pairwise.nil
        most := forall_mem_nil _
        last := fun some => absurd rfl some
        within := Nat.zero_le _
        filled := fun _ _ absent => absurd absent not_mem_nil }
  live _ := ⟨_, Nat.le_refl _, rfl, fun _ => rfl, fun running given some => by
    cases given
    exact absurd rfl some⟩
  reported done := Bool.noConfusion done
  ended through := Bool.noConfusion through
  emptied _ _ := rfl
  stalled _ lost := by
    rcases lost with lagged | overflow
    · cases lagged
    · cases overflow
  final _ _ absent := absurd absent not_mem_nil
  late some := absurd rfl some
  recovered given := Bool.noConfusion given
  covered := forall_mem_nil _
  apart := forall_mem_nil _
  issued := forall_mem_nil _
  settled given := Bool.noConfusion given
  kept := .inl rfl

/-- Whatever happens in whatever order: all along a run the product events are delivered as
they should be exactly if every step of it is allowed. -/
theorem delivered_iff (serde : Serde) (capacity retainedCapacity : Nat)
    (earlier : List CodingAgentProductEventKind) (adapter : CodingProtocolEventAdapter)
    (labels : List Label) :
    (∀ before after, labels = before ++ after →
      Delivered (Transition.execute (step serde capacity retainedCapacity) before
        (start retainedCapacity earlier adapter))) ↔
      ∀ before label after, labels = before ++ label :: after →
        Allowed retainedCapacity label
          (Transition.execute (step serde capacity retainedCapacity) before
            (start retainedCapacity earlier adapter)) := by
  have initial := start_inv capacity retainedCapacity earlier adapter
  have keeps : ∀ label world, (Delivered world → Inv capacity retainedCapacity world) →
      Delivered world →
        (Delivered (step serde capacity retainedCapacity label world) →
          Inv capacity retainedCapacity (step serde capacity retainedCapacity label world)) ∧
        (Delivered (step serde capacity retainedCapacity label world) ↔
          Allowed retainedCapacity label world) := by
    intro label world steady delivered
    have inv := steady delivered
    by_cases allowed : Allowed retainedCapacity label world
    · have next := inv.step serde label allowed
      exact ⟨fun _ => next, iff_of_true next.delivered allowed⟩
    · have broken := inv.breaks serde label allowed
      exact ⟨fun after => absurd after broken, iff_of_false broken allowed⟩
  exact Transition.always_iff keeps labels (fun _ => initial) initial.delivered

/-- The first of three events has been delivered when the client reconnects with a cursor
after the second. -/
def cursorAhead : List Label :=
  [.emit .diagnostic, .emit .diagnostic, .emit .diagnostic, .forward, .forward, .forward,
    .receive, .reconnect 2 .acknowledged]

/-- The third event is replayed, and the second, still in the queue, is never delivered. -/
theorem cursorAhead_breaks :
    ¬ Delivered (Transition.execute (step Serde.silent 256 256) cursorAhead
      (start 256 [] (CodingProtocolEventAdapter.newWithProvider "faux" "faux" "m"))) := by
  intro delivered
  have found := delivered.gapless rfl ⟨1, .diagnostic⟩ mem_cons_self ⟨3, .diagnostic⟩
    (mem_cons_of_mem _ mem_cons_self) ⟨2, .diagnostic⟩
    (mem_cons_of_mem _ mem_cons_self) (by decide) (by decide)
  have sequences := mem_map_of_mem (f := EventService.ProductEvent.sequence) found
  exact absurd sequences (by decide)

end PiRust.Rpc
