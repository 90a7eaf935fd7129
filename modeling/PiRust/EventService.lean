import Mathlib.Data.List.Nodup
import Mathlib.Data.List.Range
import PiRust.Transition

/- `event_service.rs`: numbering, retention and broadcast of product events, and the
cut between replayed and live events. What an event says stays a parameter. -/
namespace PiRust.EventService

open List

variable {ε : Type}

structure ProductEvent (ε : Type) where
  sequence : Nat
  event : ε

/-- The fields of `SnapshotState` that the event service reads and writes. -/
structure SnapshotState (ε : Type) where
  nextEventSequence : Nat := 1
  retainedProductEvents : List (ProductEvent ε) := []
  droppedBefore : Option Nat := none

/-- Without its receiver, which `World` keeps. -/
structure ProductEventRecoveryBoundary (ε : Type) where
  requestedAfter : Nat
  replayedThrough : Nat
  oldestAvailable : Option Nat
  replay : List (ProductEvent ε)

inductive ProductEventRecovery (ε : Type) where
  | ready (boundary : ProductEventRecoveryBoundary ε)
  | retainedGap (requestedAfter oldestAvailable : Nat)

def oldestRetained (state : SnapshotState ε) : Option Nat :=
  state.retainedProductEvents.head?.map ProductEvent.sequence

def recoveryBoundaryFromState (state : SnapshotState ε) (cursor : Nat) : ProductEventRecovery ε :=
  match (oldestRetained state).filter fun oldest => cursor < oldest ∧ cursor ≠ 0 with
  | some oldest => .retainedGap cursor oldest
  | none => .ready {
      requestedAfter := cursor
      replayedThrough := state.nextEventSequence - 1
      oldestAvailable := oldestRetained state
      replay := state.retainedProductEvents.filter fun event => cursor < event.sequence }

def retainProductEvent (retainedCapacity : Nat) (state : SnapshotState ε)
    (event : ProductEvent ε) : SnapshotState ε :=
  if retainedCapacity = 0 then { state with droppedBefore := some (event.sequence + 1) }
  else
    let dropped := state.retainedProductEvents.length = retainedCapacity
    let retained :=
      (if dropped then state.retainedProductEvents.drop 1 else state.retainedProductEvents) ++
        [event]
    { state with
      retainedProductEvents := retained
      droppedBefore :=
        if dropped then retained.head?.map ProductEvent.sequence else state.droppedBefore }

/-- The part of `emit` under the state lock. -/
def emitLocked (retainedCapacity : Nat) (event : ε) (state : SnapshotState ε) :
    ProductEvent ε × SnapshotState ε :=
  let productEvent : ProductEvent ε := ⟨state.nextEventSequence, event⟩
  (productEvent, retainProductEvent retainedCapacity
    { state with nextEventSequence := state.nextEventSequence + 1 } productEvent)

/-- `pending` holds the events between the lock and the broadcast of their `emit`,
each with its thread. `sent` is all that went into the broadcast channel, and a
`Ready` boundary comes with the number of events sent before its receiver
subscribed. `emitted` records all numbered events. -/
structure World (ε : Type) where
  state : SnapshotState ε := {}
  pending : List (Nat × ProductEvent ε) := []
  sent : List (ProductEvent ε) := []
  boundaries : List (ProductEventRecoveryBoundary ε × Nat) := []
  emitted : List (ProductEvent ε) := []

/-- What the receiver of a boundary gets: the channel delivers to it, in send order,
every event sent after it subscribed. -/
def World.delivered (world : World ε) (subscribed : Nat) : List (ProductEvent ε) :=
  world.sent.drop subscribed

inductive Label (ε : Type) where
  | emit (thread : Nat) (event : ε)
  | broadcast (thread : Nat)
  | capture (cursor : Nat)

def World.pending? (world : World ε) (thread : Nat) : Option (ProductEvent ε) :=
  (world.pending.find? fun entry => entry.1 = thread).map Prod.snd

def step (retainedCapacity : Nat) : Label ε → World ε → Option (World ε)
  | .emit thread event, world =>
    if (world.pending? thread).isSome then none
    else
      let locked := emitLocked retainedCapacity event world.state
      some { world with
        state := locked.2
        pending := world.pending ++ [(thread, locked.1)]
        emitted := world.emitted ++ [locked.1] }
  | .broadcast thread, world =>
    (world.pending? thread).map fun event =>
      { world with
        pending := world.pending.filter fun entry => entry.1 ≠ thread
        sent := world.sent ++ [event] }
  | .capture cursor, world =>
    match recoveryBoundaryFromState world.state cursor with
    | .ready boundary =>
      some { world with
        boundaries := world.boundaries ++ [(boundary, world.sent.length)] }
    | .retainedGap _ _ => some world

/-- Numbering and broadcast act as one step: a boundary is captured while no emitted
event waits for its broadcast, and the waiting event with the lowest sequence is
broadcast first once there is a receiver. -/
def OneStep : Label ε → World ε → Prop
  | .emit _ _, _ => True
  | .broadcast thread, world =>
    world.boundaries = [] ∨ world.pending.head?.map Prod.fst = some thread
  | .capture cursor, world =>
    world.pending = [] ∨
      ∃ requested oldest, recoveryBoundaryFromState world.state cursor =
        .retainedGap requested oldest

@[simp] theorem retainProductEvent_next (retainedCapacity : Nat) (state : SnapshotState ε)
    (event : ProductEvent ε) :
    (retainProductEvent retainedCapacity state event).nextEventSequence =
      state.nextEventSequence := by
  unfold retainProductEvent
  split <;> rfl

/-- What a run keeps. -/
structure Inv (world : World ε) : Prop where
  next : world.state.nextEventSequence = world.emitted.length + 1
  numbered : world.emitted.map ProductEvent.sequence = range' 1 world.emitted.length
  threads : (world.pending.map Prod.fst).Nodup
  boundary : ∀ entry ∈ world.boundaries,
    world.delivered entry.2 ++ world.pending.map Prod.snd =
        world.emitted.filter (fun event => entry.1.replayedThrough < event.sequence) ∧
      entry.2 ≤ world.sent.length ∧ entry.1.replayedThrough ≤ world.emitted.length

variable {retainedCapacity thread : Nat} {after world : World ε}

theorem Inv.sequence_le (inv : Inv world) {event : ProductEvent ε}
    (inside : event ∈ world.emitted) : event.sequence ≤ world.emitted.length := by
  have member : event.sequence ∈ range' 1 world.emitted.length := by
    rw [← inv.numbered]
    exact mem_map_of_mem inside
  rw [mem_range'_1] at member
  omega

theorem not_mem_of_pending? (idle : ¬ (world.pending? thread).isSome = true) :
    thread ∉ world.pending.map Prod.fst := by
  intro inside
  obtain ⟨entry, member, same⟩ := mem_map.mp inside
  apply idle
  unfold World.pending?
  rw [Option.isSome_map, find?_isSome]
  exact ⟨entry, member, decide_eq_true same⟩

theorem emit_inv {event : ε} (inv : Inv world)
    (taken : step retainedCapacity (.emit thread event) world = some after) :
    Inv after := by
  simp only [step] at taken
  split at taken
  · cases taken
  · rename_i idle
    cases taken
    have fresh := not_mem_of_pending? idle
    constructor
    · simp [emitLocked, inv.next]
    · rw [map_append, inv.numbered, length_append, length_singleton, range'_1_concat, map_singleton]
      simp only [emitLocked, inv.next]
      rw [Nat.add_comm]
    · rw [map_append, nodup_append]
      refine ⟨inv.threads, nodup_singleton _, ?_⟩
      intro other inside latest new same
      rw [map_singleton, mem_singleton] at new
      rw [same, new] at inside
      exact fresh inside
    · intro entry captured
      obtain ⟨exact_, subscribed, through⟩ := inv.boundary entry captured
      have later : entry.1.replayedThrough < world.state.nextEventSequence := by
        rw [inv.next]
        omega
      refine ⟨?_, subscribed, ?_⟩
      · rw [map_append, ← append_assoc, filter_append]
        show (world.delivered entry.2 ++ world.pending.map Prod.snd) ++ _ = _
        rw [exact_]
        simp [emitLocked, later]
      · rw [length_append]
        omega

/-- With the lowest waiting event sent first, what a receiver gets and what waits
stay the events after its boundary. -/
theorem broadcast_inv (inv : Inv world) (first : OneStep (.broadcast thread) world)
    (taken : step retainedCapacity (.broadcast thread) world = some after) : Inv after := by
  obtain ⟨event, found, rfl⟩ := Option.map_eq_some_iff.mp taken
  have threads : ((world.pending.filter fun entry => entry.1 ≠ thread).map Prod.fst).Nodup :=
    inv.threads.sublist (Sublist.map _ filter_sublist)
  refine ⟨inv.next, inv.numbered, threads, ?_⟩
  intro entry captured
  obtain ⟨exact_, subscribed, through⟩ := inv.boundary entry captured
  rcases first with none | head
  · simp only [none, not_mem_nil] at captured
  · cases waiting : world.pending with
    | nil => simp [waiting] at head
    | cons next rest =>
      have own : next.1 = thread := by simpa [waiting] using head
      have same : next.2 = event := by
        simpa [World.pending?, waiting, own] using found
      have distinct := inv.threads
      rw [waiting, map_cons, nodup_cons, own] at distinct
      have left : (next :: rest).filter (fun entry => entry.1 ≠ thread) = rest := by
        rw [filter_cons_of_neg (by simp [own]), filter_eq_self]
        intro other inside
        have apart : other.1 ≠ thread := fun equal =>
          distinct.1 (equal ▸ mem_map_of_mem inside)
        simpa using apart
      rw [waiting, map_cons, same] at exact_
      refine ⟨?_, ?_, through⟩
      · simp only [World.delivered] at exact_ ⊢
        rw [left, drop_append_of_le_length subscribed, append_assoc, singleton_append, exact_]
      · show entry.2 ≤ (world.sent ++ [event]).length
        rw [length_append]
        omega

theorem capture_inv {cursor : Nat} (inv : Inv world) (quiet : OneStep (.capture cursor) world)
    (taken : step retainedCapacity (.capture cursor) world = some after) : Inv after := by
  simp only [step] at taken
  cases result : recoveryBoundaryFromState world.state cursor with
  | retainedGap requested oldest =>
    simp only [result, Option.some.injEq] at taken
    exact taken ▸ inv
  | ready boundary =>
    simp only [result, Option.some.injEq] at taken
    subst taken
    refine ⟨inv.next, inv.numbered, inv.threads, ?_⟩
    intro entry captured
    rcases mem_append.mp captured with old | new
    · exact inv.boundary entry old
    · rcases quiet with empty | ⟨requested, oldest, gap⟩
      · have through : boundary.replayedThrough = world.emitted.length := by
          have same := result
          unfold recoveryBoundaryFromState at same
          split at same
          · cases same
          · cases same
            show world.state.nextEventSequence - 1 = world.emitted.length
            rw [inv.next]
            omega
        rw [mem_singleton.mp new]
        refine ⟨?_, le_rfl, through.le⟩
        simp only [World.delivered, drop_length, empty, map_nil, append_nil]
        symm
        rw [filter_eq_nil_iff]
        intro event inside
        have bounded := inv.sequence_le inside
        simp only [decide_eq_true_eq, through]
        omega
      · rw [result] at gap
        cases gap

theorem start_inv : Inv ({} : World ε) where
  next := rfl
  numbered := rfl
  threads := nodup_nil
  boundary := forall_mem_nil _

theorem step_inv {label : Label ε} (inv : Inv world) (admitted : OneStep label world)
    (taken : step retainedCapacity label world = some after) : Inv after := by
  cases label with
  | emit thread event => exact emit_inv inv taken
  | broadcast thread => exact broadcast_inv inv admitted taken
  | capture cursor => exact capture_inv inv admitted taken

/-- The receiver of a boundary gets exactly the events after `replayed_through`, in
order and once each, but for those that still wait for their broadcast. -/
theorem receiver_delivers {retainedCapacity : Nat} {labels : List (Label ε)} {world : World ε}
    {boundary : ProductEventRecoveryBoundary ε} {subscribed : Nat}
    (reached : Transition.Run (step retainedCapacity) OneStep {} labels world)
    (captured : (boundary, subscribed) ∈ world.boundaries) :
    world.delivered subscribed ++ world.pending.map Prod.snd =
        world.emitted.filter (fun event => boundary.replayedThrough < event.sequence) ∧
      ((world.delivered subscribed).map ProductEvent.sequence).Pairwise (· < ·) ∧
      ∀ event ∈ world.delivered subscribed, boundary.replayedThrough < event.sequence := by
  have inv : Inv world := reached.invariant
    (fun label before after inv admitted taken => step_inv inv admitted taken)
    start_inv
  obtain ⟨exact_, -, -⟩ := inv.boundary _ captured
  have front : (world.delivered subscribed).Sublist (world.emitted.filter
      fun event => boundary.replayedThrough < event.sequence) := by
    rw [← exact_]
    exact sublist_append_left _ _
  refine ⟨exact_, ?_, ?_⟩
  · have increasing : (world.emitted.map ProductEvent.sequence).Pairwise (· < ·) := by
      rw [inv.numbered]
      exact pairwise_lt_range'
    exact increasing.sublist ((front.trans filter_sublist).map _)
  · intro event inside
    exact of_decide_eq_true (mem_filter.mp (front.subset inside)).2

/-- An event numbered before the capture and broadcast after it is both replayed and
delivered. -/
theorem receiver_repeats_event :
    ∃ labels world boundary subscribed,
      Transition.Run (step 128) (fun _ _ => True) ({} : World String) labels world ∧
        (boundary, subscribed) ∈ world.boundaries ∧ world.pending = [] ∧
        ∃ event ∈ world.delivered subscribed, event.sequence ≤ boundary.replayedThrough :=
  ⟨[.emit 0 "opened", .capture 0, .broadcast 0], _, _, _,
    Transition.Run.of_follow (fun _ _ _ => trivial) rfl, mem_singleton_self _, rfl,
    ⟨1, "opened"⟩, mem_singleton_self _, le_rfl⟩

/-- One event before the capture and one after it, both broadcast at once. -/
theorem receiver_delivers_second :
    ∃ world : World String,
      Transition.follow (step 128) [.emit 0 "opened", .broadcast 0, .capture 0, .emit 0 "ready",
        .broadcast 0] {} = some world ∧
      ∀ event ∈ world.delivered 1, 1 < event.sequence := by
  have opened : Transition.Run (step 128) OneStep ({} : World String) [.emit 0 "opened"] _ :=
    .next (.done _) trivial rfl
  have sent := opened.next (l := Label.broadcast 0) (.inl rfl) rfl
  have captured := sent.next (l := Label.capture 0) (.inl rfl) rfl
  have ready := captured.next (l := Label.emit 0 "ready") trivial rfl
  have both := ready.next (l := Label.broadcast 0) (.inr rfl) rfl
  exact ⟨_, rfl, (receiver_delivers both (mem_singleton_self _)).2.2⟩

end PiRust.EventService
