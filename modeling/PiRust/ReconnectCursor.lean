import PiRust.EventService

/- Reconnecting with a cursor: what `product_events_after` and the recovery boundary
give for it after any run of `emit`. -/
namespace PiRust.EventService

open List

variable {ε : Type}

structure EventStreamGap where
  requestedAfter : Nat
  oldestAvailable : Nat
deriving DecidableEq

def productEventsAfter (state : SnapshotState ε) (cursor : Nat) :
    Except EventStreamGap (List (ProductEvent ε)) :=
  match oldestRetained state with
  | none => .ok []
  | some oldest =>
    if cursor < oldest ∧ cursor ≠ 0 then .error ⟨cursor, oldest⟩
    else .ok (state.retainedProductEvents.filter fun event => cursor < event.sequence)

def currentProductSequence (state : SnapshotState ε) : Nat := state.nextEventSequence - 1

/-- A run of `emit` calls: the numbered events and the state after them. -/
def emitAll (retainedCapacity : Nat) (events : List ε) : List (ProductEvent ε) × SnapshotState ε :=
  events.foldl (fun run event =>
    let locked := emitLocked retainedCapacity event run.2
    (run.1 ++ [locked.1], locked.2)) ([], {})

/-- The last events are retained, numbered from one. -/
structure Retained (retainedCapacity : Nat) (emitted : List (ProductEvent ε))
    (state : SnapshotState ε) : Prop where
  next : state.nextEventSequence = emitted.length + 1
  numbered : emitted.map ProductEvent.sequence = range' 1 emitted.length
  window : state.retainedProductEvents = emitted.drop (emitted.length - retainedCapacity)

variable {retainedCapacity : Nat}
variable {emitted : List (ProductEvent ε)} {state : SnapshotState ε}

theorem retainProductEvent_window (room : 0 < retainedCapacity) (event : ProductEvent ε)
    (window : state.retainedProductEvents = emitted.drop (emitted.length - retainedCapacity)) :
    (retainProductEvent retainedCapacity state event).retainedProductEvents =
      (emitted ++ [event]).drop ((emitted ++ [event]).length - retainedCapacity) := by
  have nonzero : retainedCapacity ≠ 0 := by omega
  have held : state.retainedProductEvents.length =
      emitted.length - (emitted.length - retainedCapacity) := by
    rw [window, length_drop]
  simp only [retainProductEvent, if_neg nonzero, length_append, length_singleton]
  by_cases full : state.retainedProductEvents.length = retainedCapacity
  · have shifted : emitted.length + 1 - retainedCapacity =
        (emitted.length - retainedCapacity) + 1 := by omega
    rw [if_pos full, window, drop_drop, shifted, drop_append_of_le_length (by omega)]
  · have whole : emitted.length - retainedCapacity = 0 := by omega
    have still : emitted.length + 1 - retainedCapacity = 0 := by omega
    rw [if_neg full, window, whole, still, drop_zero, drop_zero]

theorem emitLocked_retained (event : ε)
    (held : Retained retainedCapacity emitted state) :
    Retained retainedCapacity (emitted ++ [(emitLocked retainedCapacity event state).1])
      (emitLocked retainedCapacity event state).2 where
  next := by simp [emitLocked, held.next]
  numbered := by
    rw [map_append, held.numbered, length_append, length_singleton, range'_1_concat, map_singleton]
    simp only [emitLocked, held.next]
    rw [Nat.add_comm]
  window := by
    rcases Nat.eq_zero_or_pos retainedCapacity with rfl | room
    · have window := held.window
      rw [Nat.sub_zero, drop_length] at window ⊢
      exact window
    · exact retainProductEvent_window room _ held.window

theorem emitAll_retained (retainedCapacity : Nat) (events : List ε) :
    Retained retainedCapacity (emitAll retainedCapacity events).1
      (emitAll retainedCapacity events).2 := by
  induction events using reverseRecOn with
  | nil => exact ⟨rfl, rfl, drop_nil.symm⟩
  | append_singleton earlier event ih =>
    unfold emitAll at ih ⊢
    rw [foldl_append]
    exact emitLocked_retained event ih

namespace Retained

variable (held : Retained retainedCapacity emitted state)
include held

theorem sequences :
    state.retainedProductEvents.map ProductEvent.sequence =
      range' (emitted.length - retainedCapacity + 1)
        (emitted.length - (emitted.length - retainedCapacity)) := by
  rw [held.window, map_drop, held.numbered, drop_range', Nat.mul_one, Nat.add_comm]

theorem oldest (room : 0 < retainedCapacity) (some_ : 0 < emitted.length) :
    oldestRetained state = some (emitted.length - retainedCapacity + 1) := by
  have counted : emitted.length - (emitted.length - retainedCapacity) ≠ 0 := by omega
  rw [oldestRetained, ← head?_map, held.sequences, head?_range', if_neg counted]

theorem retained_iff {cursor : Nat} (reached : cursor ≤ emitted.length) :
    cursor ∈ state.retainedProductEvents.map ProductEvent.sequence ↔
      emitted.length - retainedCapacity + 1 ≤ cursor := by
  rw [held.sequences, mem_range'_1]
  omega

theorem evicted_le {event : ProductEvent ε}
    (evicted : event ∈ emitted.take (emitted.length - retainedCapacity)) :
    event.sequence ≤ emitted.length - retainedCapacity := by
  obtain ⟨index, inside, rfl⟩ := mem_take_iff_getElem.mp evicted
  have bounded : index < emitted.length - retainedCapacity := by omega
  have long : index < (emitted.map ProductEvent.sequence).length := by
    rw [length_map]
    omega
  have listed : (emitted.map ProductEvent.sequence)[index] = index + 1 := by
    simp only [held.numbered, getElem_range']
    omega
  rw [getElem_map] at listed
  omega

theorem after (cursor : Nat) (kept : emitted.length - retainedCapacity ≤ cursor) :
    state.retainedProductEvents.filter (fun event => cursor < event.sequence) =
      emitted.filter (fun event => cursor < event.sequence) := by
  have none_ : (emitted.take (emitted.length - retainedCapacity)).filter
      (fun event => cursor < event.sequence) = [] := by
    rw [filter_eq_nil_iff]
    intro event evicted
    have bounded := held.evicted_le evicted
    simp only [decide_eq_true_eq]
    omega
  conv => rhs; rw [← take_append_drop (emitted.length - retainedCapacity) emitted,
    filter_append, none_, nil_append]
  rw [held.window]

end Retained

variable {state : SnapshotState ε} {cursor oldest : Nat}

theorem productEventsAfter_eq (first : oldestRetained state = some oldest) (positive : 1 ≤ cursor) :
    productEventsAfter state cursor =
      if cursor < oldest then .error ⟨cursor, oldest⟩
      else .ok (state.retainedProductEvents.filter fun event => cursor < event.sequence) := by
  have nonzero : cursor ≠ 0 := by omega
  simp [productEventsAfter, first, nonzero]

theorem recoveryBoundary_eq (first : oldestRetained state = some oldest) (positive : 1 ≤ cursor) :
    recoveryBoundaryFromState state cursor =
      if cursor < oldest then .retainedGap cursor oldest
      else .ready {
        requestedAfter := cursor
        replayedThrough := currentProductSequence state
        oldestAvailable := some oldest
        replay := state.retainedProductEvents.filter fun event => cursor < event.sequence } := by
  have nonzero : cursor ≠ 0 := by omega
  by_cases before : cursor < oldest
  · simp [recoveryBoundaryFromState, first, nonzero, before, Option.filter_some]
  · simp [recoveryBoundaryFromState, first, before, currentProductSequence, Option.filter_some]

/-- The event at the cursor itself decides: while it is retained, both calls give the
events after it; once it is evicted, both report a gap. -/
theorem cursor_exact {retainedCapacity cursor : Nat} (events : List ε)
    (room : 1 ≤ retainedCapacity) (positive : 1 ≤ cursor)
    (reached : cursor ≤ currentProductSequence (emitAll retainedCapacity events).2) :
    let emitted := (emitAll retainedCapacity events).1
    let state := (emitAll retainedCapacity events).2
    (cursor ∈ state.retainedProductEvents.map ProductEvent.sequence →
      productEventsAfter state cursor = .ok (emitted.filter fun event => cursor < event.sequence) ∧
      ∃ boundary, recoveryBoundaryFromState state cursor = .ready boundary ∧
        boundary.replay = emitted.filter (fun event => cursor < event.sequence) ∧
        boundary.requestedAfter = cursor ∧
        boundary.replayedThrough = currentProductSequence state) ∧
    (cursor ∉ state.retainedProductEvents.map ProductEvent.sequence →
      ∃ oldest, oldestRetained state = some oldest ∧ cursor < oldest ∧
        productEventsAfter state cursor = .error ⟨cursor, oldest⟩ ∧
        recoveryBoundaryFromState state cursor = .retainedGap cursor oldest) := by
  intro emitted state
  have held : Retained retainedCapacity emitted state := emitAll_retained retainedCapacity events
  have within : cursor ≤ emitted.length := by
    have next : state.nextEventSequence - 1 = emitted.length := by
      rw [held.next]
      omega
    rw [← next]
    exact reached
  have first := held.oldest room (by omega)
  rw [held.retained_iff within, productEventsAfter_eq first positive,
    recoveryBoundary_eq first positive]
  refine ⟨?_, ?_⟩
  · intro retained
    have reachable : ¬ cursor < emitted.length - retainedCapacity + 1 := by omega
    have exact_ := held.after cursor (by omega)
    rw [if_neg reachable, if_neg reachable]
    exact ⟨congrArg Except.ok exact_, _, rfl, exact_, rfl, rfl⟩
  · intro evicted
    have early : cursor < emitted.length - retainedCapacity + 1 := by omega
    rw [if_pos early, if_pos early]
    exact ⟨_, first, early, rfl, rfl⟩

/-- Three events with room for two: the second and third are after the cursor. -/
theorem cursor_exact_second :
    productEventsAfter (emitAll 2 ["one", "two", "three"]).2 2 =
      .ok ((emitAll 2 ["one", "two", "three"]).1.filter fun event => 2 < event.sequence) :=
  ((cursor_exact ["one", "two", "three"] (by decide) (by decide) (by decide)).1 (by decide)).1

/-- At the cursor just before the oldest retained event nothing after it is lost, and
both calls report a gap. -/
theorem gap_without_loss :
    let emitted := (emitAll 2 ["one", "two", "three"]).1
    let state := (emitAll 2 ["one", "two", "three"]).2
    (∀ event ∈ emitted, 1 < event.sequence → event ∈ state.retainedProductEvents) ∧
      productEventsAfter state 1 = .error ⟨1, 2⟩ ∧
      recoveryBoundaryFromState state 1 = .retainedGap 1 2 := by
  refine ⟨?_, rfl, rfl⟩
  intro event inside later
  have listed : event ∈ [(⟨1, "one"⟩ : ProductEvent String), ⟨2, "two"⟩, ⟨3, "three"⟩] := inside
  show event ∈ [(⟨2, "two"⟩ : ProductEvent String), ⟨3, "three"⟩]
  rcases mem_cons.mp listed with first | rest
  · rw [first] at later
    exact absurd later (by decide)
  · exact rest

end PiRust.EventService
