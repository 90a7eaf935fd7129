import PiRust.ClientLifecycle

/- Prompt controls from the client's side: what a receipt says about the channel of the
operation, over every run of the coordinator. -/
namespace PiRust.SnapshotCoordinator

open List

variable {client : ClientRecord} {call : ControlCall} {after coordinator : Coordinator}
  {active : PromptControlBinding} {world : World}
variable {other : ControlCall} {handle : ClientHandle} {retainedCapacity : Nat}

theorem signature_inj (same : call.signature = other.signature) :
    call.kind = other.kind ∧ call.text = other.text := by
  have kinds : call.kind = other.kind := by
    have letters := congrArg (fun text => text.toList.head?) same
    simp only [ControlCall.signature, String.toList_append] at letters
    cases first : call.kind with
    | abort =>
      cases second : other.kind with
      | abort => rfl
      | steer | followUp => simp [first, second, CodingAgentControlKind.debug] at letters
    | steer =>
      cases second : other.kind with
      | abort => simp [first, second, CodingAgentControlKind.debug] at letters
      | steer => rfl
      | followUp => simp [first, second, CodingAgentControlKind.debug] at letters
    | followUp =>
      cases second : other.kind with
      | abort | steer => simp [first, second, CodingAgentControlKind.debug] at letters
      | followUp => rfl
  refine ⟨kinds, ?_⟩
  rw [ControlCall.signature, ControlCall.signature, kinds] at same
  exact (String.append_right_inj _).mp same

def receiptsOf (state : SnapshotState) (id : ClientConnectionId) : Std.TreeMap String String :=
  (fieldOf ClientRecord.kept (0, ∅) state id).2

theorem receiptsOf_record {state : SnapshotState} (current : record state handle = .ok client) :
    receiptsOf state handle.id = client.controlReceipts := by
  obtain ⟨-, found, -, -⟩ := record_eq_ok_iff.mp current
  rw [receiptsOf, fieldOf_of_found found]
  rfl

theorem receiptsOf_accepted (state : SnapshotState) (call : ControlCall) (client : ClientRecord)
    (id : ClientConnectionId) :
    receiptsOf (state.put call.handle.id (client.accepted call)) id =
      if call.handle.id = id then client.controlReceipts.insert call.key call.signature
      else receiptsOf state id := by
  unfold receiptsOf
  rw [fieldOf_put]
  by_cases own : call.handle.id = id
  · rw [if_pos own, if_pos own]
    rfl
  · rw [if_neg own, if_neg own]

theorem receiptsOf_connectOrTakeover (state : SnapshotState) (id : ClientConnectionId) :
    receiptsOf (connectOrTakeover id state).2 = receiptsOf state := by
  rcases connectOrTakeover_cases id state with ⟨_, refused⟩ | ⟨after, result, -, kept⟩
  · rw [refused]
  · rw [result]
    funext other
    unfold receiptsOf
    rw [kept other]
    by_cases own : id = other
    · rw [if_pos own, own]
    · rw [if_neg own]

/-- The call would be answered by the receipt of an earlier call of the same client that
was for another operation or had another control id. -/
def Collides (call : ControlCall) (world : World) : Prop :=
  trim call.controlId ≠ "" ∧ world.coordinator.state.runtimeLifecycle = .running ∧
    Current world.coordinator.state call.handle ∧
    ∃ entry ∈ world.deliveries, entry.1.handle.id = call.handle.id ∧ entry.1.key = call.key ∧
      entry.1.signature = call.signature ∧
      ¬ (entry.1.operationId = call.operationId ∧ entry.1.controlId = call.controlId)

/-- No prompt control meets the receipt of another. -/
def NoCollision : Label → World → Prop
  | .enqueuePromptControl call, world => ¬ Collides call world
  | .sendDraft index, world => ∀ call, world.pendingDrafts[index]? = some call → ¬ Collides call world
  | _, _ => True

/-- Two calls for one control: same client, same operation and same control id. -/
def SameControl (call other : ControlCall) : Prop :=
  call.handle.id = other.handle.id ∧ call.operationId = other.operationId ∧
    call.controlId = other.controlId

instance (call other : ControlCall) : Decidable (SameControl call other) :=
  inferInstanceAs (Decidable (_ ∧ _ ∧ _))

theorem SameControl.key (same : SameControl call other) : call.key = other.key := by
  rw [ControlCall.key, ControlCall.key, same.2.1, same.2.2]

/-- The commands that the log has for a channel. -/
def loggedFor (deliveries : List (ControlCall × Nat)) (sender : Nat) : List PromptControlCommand :=
  (deliveries.filter fun entry => entry.2 = sender).map fun entry => entry.1.command

/-- The receipts of each client are those of its deliveries, the channels hold what was
delivered, and what returned a receipt was delivered. -/
structure DeliveryInv (world : World) : Prop where
  stored : ∀ id key signature,
    (receiptsOf world.coordinator.state id)[key]? = some signature ↔
      ∃ entry ∈ world.deliveries, entry.1.handle.id = id ∧ entry.1.key = key ∧
        entry.1.signature = signature
  once : world.deliveries.Pairwise fun earlier later =>
    ¬ (earlier.1.handle.id = later.1.handle.id ∧ earlier.1.key = later.1.key)
  answered : ∀ call ∈ world.receipts, ∃ entry ∈ world.deliveries,
    SameControl entry.1 call ∧ entry.1.command = call.command
  returned : ∀ entry ∈ world.deliveries, entry.1 ∈ world.receipts
  target : ∀ entry ∈ world.deliveries, (entry.1.operationId, entry.2) ∈ world.bound
  binding : ∀ active, world.coordinator.promptControl = some active →
    (active.operationId, active.sender) ∈ world.bound
  sent : ∀ sender channel, world.coordinator.channels[sender]? = some channel →
    channel.sent = loggedFor world.deliveries sender
  inRange : ∀ entry ∈ world.deliveries, entry.2 < world.coordinator.channels.length

theorem start_deliveryInv : DeliveryInv {} where
  stored := by
    intro id key signature
    have absent : ((∅ : Std.TreeMap ClientConnectionId ClientRecord)[id]?) = none :=
      Std.TreeMap.getElem?_emptyc
    have empty : receiptsOf ({} : World).coordinator.state id = ∅ := by
      show (fieldOf ClientRecord.kept (0, ∅) {} id).2 = ∅
      rw [fieldOf, show ({} : SnapshotState).clients = ∅ from rfl, absent]
      rfl
    rw [empty, Std.TreeMap.getElem?_emptyc]
    simp
  once := Pairwise.nil
  answered := forall_mem_nil _
  returned := forall_mem_nil _
  target := forall_mem_nil _
  binding := nofun
  sent := nofun
  inRange := forall_mem_nil _

theorem DeliveryInv.frame {after : World} (inv : DeliveryInv world)
    (binding : ∀ active, after.coordinator.promptControl = some active →
      (active.operationId, active.sender) ∈ after.bound)
    (sent : ∀ sender channel, after.coordinator.channels[sender]? = some channel →
      channel.sent = loggedFor world.deliveries sender)
    (stored : receiptsOf after.coordinator.state = receiptsOf world.coordinator.state := by rfl)
    (inRange : world.coordinator.channels.length ≤ after.coordinator.channels.length := by
      exact Nat.le_refl _)
    (bound : ∀ pair ∈ world.bound, pair ∈ after.bound := by exact fun _ inside => inside)
    (deliveries : after.deliveries = world.deliveries := by rfl)
    (receipts : after.receipts = world.receipts := by rfl) : DeliveryInv after where
  stored := by
    rw [stored, deliveries]
    exact inv.stored
  once := by
    rw [deliveries]
    exact inv.once
  answered := by
    rw [receipts, deliveries]
    exact inv.answered
  returned := by
    rw [receipts, deliveries]
    exact inv.returned
  target := by
    rw [deliveries]
    exact fun entry inside => bound _ (inv.target entry inside)
  binding := binding
  sent := by
    rw [deliveries]
    exact sent
  inRange := by
    rw [deliveries]
    intro entry inside
    have own := inv.inRange entry inside
    omega

theorem loggedFor_append (deliveries : List (ControlCall × Nat)) (call : ControlCall)
    (used sender : Nat) :
    loggedFor (deliveries ++ [(call, used)]) sender =
      if used = sender then loggedFor deliveries sender ++ [call.command]
      else loggedFor deliveries sender := by
  unfold loggedFor
  rw [filter_append, map_append]
  by_cases own : used = sender
  · simp [own]
  · simp [own]

theorem enqueue_delivered
    (result : enqueuePromptControl call world.coordinator = (.ok call.receipt, after))
    (delivered : Delivered call world.coordinator after client active) :
    world.enqueue call = { world with
      coordinator := after
      receipts := world.receipts ++ [call]
      deliveries := world.deliveries ++ [(call, active.sender)] } := by
  obtain ⟨channel, found, channels⟩ := trySend_ok delivered.sent
  have inside : active.sender < world.coordinator.channels.length :=
    (List.getElem?_eq_some_iff.mp found).1
  have longer : sentTo world.coordinator after = some active.sender := by
    unfold sentTo
    rw [delivered.bound, Option.bind_some]
    have grown : ((world.coordinator.channels.set active.sender
        { channel with sent := channel.sent ++ [call.command] })[active.sender]?).map
          (fun channel => channel.sent.length) ≠
        (world.coordinator.channels[active.sender]?).map fun channel => channel.sent.length := by
      rw [getElem?_set_self inside, found]
      simp
    rw [← channels] at grown
    exact if_neg grown
  unfold World.enqueue
  rw [result]
  dsimp only
  rw [longer]
  rfl

theorem enqueue_repeated
    (result : enqueuePromptControl call world.coordinator = (.ok call.receipt, world.coordinator)) :
    world.enqueue call = { world with receipts := world.receipts ++ [call] } := by
  have idle : sentTo world.coordinator world.coordinator = none := by
    unfold sentTo
    cases world.coordinator.promptControl with
    | none => rfl
    | some active => rw [Option.bind_some, if_pos rfl]
  unfold World.enqueue
  rw [result]
  dsimp only
  rw [idle, Option.map_none, Option.toList_none, append_nil]

theorem not_blank_of_ok {receipt : CodingAgentControlReceipt}
    (result : enqueuePromptControl call coordinator = (.ok receipt, after)) :
    trim call.controlId ≠ "" := by
  intro blank
  unfold enqueuePromptControl at result
  rw [if_pos (.inl blank)] at result
  simp at result

theorem repeated_deliveryInv (inv : DeliveryInv world) (fresh : ¬ Collides call world)
    (current : record world.coordinator.state call.handle = .ok client)
    (known : client.controlReceipts[call.key]? = some call.signature)
    (result : enqueuePromptControl call world.coordinator = (.ok call.receipt, world.coordinator)) :
    DeliveryInv (world.enqueue call) := by
  rw [enqueue_repeated result]
  rw [← receiptsOf_record current] at known
  obtain ⟨entry, inside, own, key, signature⟩ := (inv.stored _ _ _).mp known
  have sameControl : SameControl entry.1 call := by
    by_cases pair : entry.1.operationId = call.operationId ∧ entry.1.controlId = call.controlId
    · exact ⟨own, pair.1, pair.2⟩
    · obtain ⟨running, found, generation, attached⟩ := record_eq_ok_iff.mp current
      exact absurd ⟨not_blank_of_ok result, running, ⟨client, found, generation, attached⟩,
        entry, inside, own, key, signature, pair⟩ fresh
  have sameCommand : entry.1.command = call.command := by
    obtain ⟨kind, text⟩ := signature_inj signature
    rw [ControlCall.command, ControlCall.command, kind, text]
  refine ⟨inv.stored, inv.once, ?_, ?_, inv.target, inv.binding, inv.sent, inv.inRange⟩
  · intro other returned
    rcases mem_append.mp returned with earlier | last
    · exact inv.answered other earlier
    · rw [mem_singleton.mp last]
      exact ⟨entry, inside, sameControl, sameCommand⟩
  · intro other delivered
    exact mem_append_left _ (inv.returned other delivered)

theorem delivered_deliveryInv (inv : DeliveryInv world)
    (result : enqueuePromptControl call world.coordinator = (.ok call.receipt, after))
    (delivered : Delivered call world.coordinator after client active) :
    DeliveryInv (world.enqueue call) := by
  rw [enqueue_delivered result delivered]
  obtain ⟨channel, found, channels⟩ := trySend_ok delivered.sent
  have inside : active.sender < world.coordinator.channels.length :=
    (List.getElem?_eq_some_iff.mp found).1
  have own := receiptsOf_record delivered.current
  have unknown := delivered.unknown
  rw [← own] at unknown
  have new : ∀ entry ∈ world.deliveries,
      ¬ (entry.1.handle.id = call.handle.id ∧ entry.1.key = call.key) := by
    rintro entry logged ⟨sameClient, sameKey⟩
    have known := (inv.stored call.handle.id call.key entry.1.signature).mpr
      ⟨entry, logged, sameClient, sameKey, rfl⟩
    rw [unknown] at known
    cases known
  refine ⟨?_, ?_, ?_, ?_, ?_, ?_, ?_, ?_⟩
  · intro id key signature
    show (receiptsOf after.state id)[key]? = some signature ↔ _
    rw [delivered.state, receiptsOf_accepted]
    simp only [mem_append, mem_singleton, or_and_right, exists_or, exists_eq_left]
    rw [← inv.stored id key signature]
    by_cases client_ : call.handle.id = id
    · rw [if_pos client_, getElem?_insert, ← own, ← client_]
      by_cases key_ : call.key = key
      · rw [if_pos key_, ← key_, unknown]
        simp
      · rw [if_neg key_]
        simp [key_]
    · rw [if_neg client_]
      simp [client_]
  · rw [pairwise_append]
    refine ⟨inv.once, pairwise_singleton _ _, ?_⟩
    intro earlier logged later last
    rw [mem_singleton.mp last]
    exact new earlier logged
  · intro other returned
    rcases mem_append.mp returned with earlier | last
    · obtain ⟨entry, logged, same⟩ := inv.answered other earlier
      exact ⟨entry, mem_append_left _ logged, same⟩
    · rw [mem_singleton.mp last]
      exact ⟨(call, active.sender), mem_append_right _ (.head _), ⟨rfl, rfl, rfl⟩, rfl⟩
  · intro entry logged
    rcases mem_append.mp logged with earlier | last
    · exact mem_append_left _ (inv.returned entry earlier)
    · rw [mem_singleton.mp last]
      exact mem_append_right _ (.head _)
  · intro entry logged
    rcases mem_append.mp logged with earlier | last
    · exact inv.target entry earlier
    · rw [mem_singleton.mp last, ← delivered.target]
      exact inv.binding active delivered.bound
  · intro other bound
    exact inv.binding other (delivered.promptControl ▸ bound)
  · intro sender other at_
    dsimp only at at_ ⊢
    rw [loggedFor_append]
    rw [channels] at at_
    by_cases used : active.sender = sender
    · rw [← used, getElem?_set_self inside, Option.some.injEq] at at_
      rw [if_pos used, ← at_, ← used, ← inv.sent active.sender channel found]
    · rw [getElem?_set_ne used] at at_
      rw [if_neg used]
      exact inv.sent sender other at_
  · intro entry logged
    show entry.2 < after.channels.length
    rw [channels, length_set]
    rcases mem_append.mp logged with earlier | last
    · exact inv.inRange entry earlier
    · rw [mem_singleton.mp last]
      exact inside

theorem enqueue_deliveryInv (inv : DeliveryInv world) (fresh : ¬ Collides call world) :
    DeliveryInv (world.enqueue call) := by
  rcases enqueuePromptControl_cases call world.coordinator with
    ⟨rejection, result⟩ | ⟨client, current, known, result⟩ |
    ⟨client, active, after, result, delivered⟩
  · unfold World.enqueue
    rw [result]
    exact inv
  · exact repeated_deliveryInv inv fresh current known result
  · exact delivered_deliveryInv inv result delivered

theorem clearPromptControl_binding {operationId : String}
    (bound : (clearPromptControl operationId coordinator).promptControl = some active) :
    coordinator.promptControl = some active := by
  unfold clearPromptControl at bound
  split at bound
  · rename_i stored found
    split at bound
    · cases bound
    · exact bound
  · exact bound

theorem rebindPromptControl_binding
    (bound : (rebindPromptControl handle coordinator).promptControl = some active) :
    ∃ stored, coordinator.promptControl = some stored ∧
      active.operationId = stored.operationId ∧ active.sender = stored.sender := by
  unfold rebindPromptControl at bound
  split at bound
  · rename_i stored found
    split at bound
    · cases bound
      exact ⟨stored, found, rfl, rfl⟩
    · exact ⟨active, bound, rfl, rfl⟩
  · exact ⟨active, bound, rfl, rfl⟩

theorem DeliveryInv.sent_set (inv : DeliveryInv world) {used : Nat}
    {before after : ControlChannel} (found : world.coordinator.channels[used]? = some before)
    (same : after.sent = before.sent) (sender : Nat) (channel : ControlChannel)
    (at_ : (world.coordinator.channels.set used after)[sender]? = some channel) :
    channel.sent = loggedFor world.deliveries sender := by
  have inside : used < world.coordinator.channels.length := (List.getElem?_eq_some_iff.mp found).1
  by_cases own : used = sender
  · rw [← own, getElem?_set_self inside, Option.some.injEq] at at_
    rw [← at_, same, ← own]
    exact inv.sent used before found
  · rw [getElem?_set_ne own] at at_
    exact inv.sent sender channel at_

theorem step_deliveryInv {label : Label} {after : World} (inv : DeliveryInv world)
    (fresh : NoCollision label world) (taken : step retainedCapacity label world = some after) :
    DeliveryInv after := by
  cases label with
  | request request =>
    obtain ⟨done, ran, same⟩ := Option.map_eq_some_iff.mp taken
    have stored : receiptsOf done.2 = receiptsOf world.coordinator.state := by
      funext id
      unfold receiptsOf
      rw [Request.run_kept ran]
    rw [← same]
    split
    · exact inv.frame inv.binding inv.sent stored
    · exact inv.frame inv.binding inv.sent stored
  | connectOrTakeover id =>
    have stored := receiptsOf_connectOrTakeover world.coordinator.state id
    simp only [step] at taken
    split at taken
    · rename_i reason state result
      rw [result] at stored
      cases taken
      exact inv.frame inv.binding inv.sent stored
    · rename_i handle state result
      rw [result] at stored
      cases taken
      exact inv.frame inv.binding inv.sent stored
  | rebindPromptControl index =>
    obtain ⟨handle, -, rfl⟩ := Option.map_eq_some_iff.mp taken
    have channels := (rebindPromptControl_frame handle world.coordinator).2
    refine inv.frame ?_ ?_ ?_ ?_
    · intro active bound
      obtain ⟨stored, found, operation, sender⟩ := rebindPromptControl_binding bound
      rw [operation, sender]
      exact inv.binding stored found
    · dsimp only
      rw [channels]
      exact inv.sent
    · exact congrArg receiptsOf ((rebindPromptControl_frame handle world.coordinator).1)
    · dsimp only
      rw [channels]
  | clearAfterShutdown =>
    simp only [step] at taken
    split at taken
    · cases taken
    · cases taken
      exact inv.frame (fun _ bound => by cases bound) inv.sent
  | enqueuePromptControl call =>
    have same : world.enqueue call = after := Option.some.inj taken
    rw [← same]
    exact enqueue_deliveryInv inv fresh
  | enqueuePromptControlDraft handle operationId draftId kind =>
    simp only [step] at taken
    split at taken
    · cases taken
      exact inv
    · cases taken
      exact inv.frame inv.binding inv.sent
  | sendDraft index =>
    obtain ⟨call, pending, same⟩ := Option.map_eq_some_iff.mp taken
    rw [← same]
    have shorter : DeliveryInv { world with
        pendingDrafts := world.pendingDrafts.eraseIdx index } :=
      inv.frame inv.binding inv.sent
    exact enqueue_deliveryInv shorter (fresh call pending)
  | openChannel =>
    cases taken
    refine inv.frame inv.binding ?_ rfl ?_
    · intro sender channel found
      dsimp only at found
      by_cases old : sender < world.coordinator.channels.length
      · rw [getElem?_append_left old] at found
        exact inv.sent sender channel found
      · obtain ⟨inside, same⟩ := List.getElem?_eq_some_iff.mp found
        rw [length_append, length_singleton] at inside
        have none_ : loggedFor world.deliveries sender = [] := by
          unfold loggedFor
          rw [map_eq_nil_iff, filter_eq_nil_iff]
          intro entry logged
          have own := inv.inRange entry logged
          simp only [decide_eq_true_eq]
          omega
        rw [getElem_append_right (by omega), getElem_singleton] at same
        rw [none_, ← same]
    · dsimp only
      rw [length_append]
      omega
  | bindPromptControl owner operationId sender =>
    cases taken
    refine inv.frame ?_ inv.sent rfl (Nat.le_refl _) fun _ inside => mem_append_left _ inside
    intro active bound
    cases bound
    exact mem_append_right _ (.head _)
  | clearPromptControl operationId =>
    cases taken
    have channels := (clearPromptControl_frame operationId world.coordinator).2
    refine inv.frame ?_ ?_ ?_ ?_
    · intro active bound
      exact inv.binding active (clearPromptControl_binding bound)
    · dsimp only
      rw [channels]
      exact inv.sent
    · exact congrArg receiptsOf ((clearPromptControl_frame operationId world.coordinator).1)
    · dsimp only
      rw [channels]
  | receive sender =>
    obtain ⟨channel, found, taken⟩ := Option.bind_eq_some_iff.mp taken
    split at taken
    · cases taken
      exact inv.frame inv.binding (inv.sent_set found rfl) rfl (length_set ..).ge
    · cases taken
  | close sender =>
    obtain ⟨channel, found, rfl⟩ := Option.map_eq_some_iff.mp taken
    exact inv.frame inv.binding (inv.sent_set found rfl) rfl (length_set ..).ge

theorem run_deliveryInv {labels : List Label}
    (reached : Transition.Run (step retainedCapacity) NoCollision {} labels world) :
    DeliveryInv world :=
  reached.invariant (fun _ _ _ inv fresh taken => step_deliveryInv inv fresh taken)
    start_deliveryInv

theorem DeliveryInv.control_once (inv : DeliveryInv world) (call : ControlCall) :
    (world.deliveries.filter fun entry => SameControl entry.1 call).length ≤ 1 := by
  have apart := inv.once.filter fun entry => decide (SameControl entry.1 call)
  cases found : world.deliveries.filter fun entry => SameControl entry.1 call with
  | nil => exact Nat.zero_le 1
  | cons first rest =>
    cases rest with
    | nil => exact Nat.le_refl 1
    | cons second rest =>
      rw [found, pairwise_cons] at apart
      have all : ∀ entry ∈ first :: second :: rest, SameControl entry.1 call := by
        intro entry inside
        rw [← found] at inside
        exact of_decide_eq_true (mem_filter.mp inside).2
      have one := all first (.head _)
      have two := all second (.tail _ (.head _))
      exact absurd ⟨one.1.trans two.1.symm, one.key.trans two.key.symm⟩ (apart.1 second (.head _))

/-- Over every run in which no control meets the receipt of another: each receipt stands
for exactly one command, of its kind and text, on a channel bound to its operation; no
control is delivered twice; the channels hold just what was delivered; and a rejected call
changes nothing. -/
theorem delivered_exactly_once {retainedCapacity : Nat} {labels : List Label} {world : World}
    (reached : Transition.Run (step retainedCapacity) NoCollision {} labels world) :
    (∀ call ∈ world.receipts, ∃ entry,
        (world.deliveries.filter fun other => SameControl other.1 call) = [entry] ∧
        entry.1.command = call.command ∧ (call.operationId, entry.2) ∈ world.bound) ∧
      (∀ call, (world.deliveries.filter fun entry => SameControl entry.1 call).length ≤ 1) ∧
      (∀ sender channel, world.coordinator.channels[sender]? = some channel →
        channel.sent = loggedFor world.deliveries sender) ∧
      (∀ entry ∈ world.deliveries,
        entry.1 ∈ world.receipts ∧ entry.2 < world.coordinator.channels.length) ∧
      ∀ call rejection after,
        enqueuePromptControl call world.coordinator = (.error rejection, after) →
          after = world.coordinator := by
  have inv := run_deliveryInv reached
  refine ⟨?_, inv.control_once, inv.sent, ?_, ?_⟩
  · intro call returned
    obtain ⟨entry, inside, same, command⟩ := inv.answered call returned
    have member : entry ∈ world.deliveries.filter fun other => SameControl other.1 call :=
      mem_filter.mpr ⟨inside, decide_eq_true same⟩
    have one := inv.control_once call
    cases found : world.deliveries.filter fun other => SameControl other.1 call with
    | nil =>
      rw [found] at member
      cases member
    | cons first rest =>
      rw [found, length_cons] at one
      have none_ : rest = [] := length_eq_zero_iff.mp (by omega)
      rw [found, none_, mem_singleton] at member
      refine ⟨entry, by rw [none_, member], command, ?_⟩
      rw [← same.2.1]
      exact inv.target entry inside
  · intro entry inside
    exact ⟨inv.returned entry inside, inv.inRange entry inside⟩
  · intro call rejection after rejected
    exact enqueuePromptControl_rejected rejected

theorem not_collides_of_same
    (same : ∀ entry ∈ world.deliveries,
      entry.1.operationId = call.operationId ∧ entry.1.controlId = call.controlId) :
    ¬ Collides call world := by
  rintro ⟨-, -, -, entry, inside, -, -, -, apart⟩
  exact apart (same entry inside)

def steeredPrompt : List Label :=
  [.connectOrTakeover "tui", .openChannel, .bindPromptControl ⟨"tui", 1⟩ "op_1" 0,
    .enqueuePromptControl ⟨⟨"tui", 1⟩, "op_1", "x:y", .steer, "stop"⟩]

/-- The control is delivered once, however often it is repeated. -/
theorem delivered_exactly_once_repeated :
    ∃ world, Transition.Run (step 128) NoCollision {} (steeredPrompt ++
        [.enqueuePromptControl ⟨⟨"tui", 1⟩, "op_1", "x:y", .steer, "stop"⟩]) world ∧
      (world.deliveries.filter fun entry =>
        SameControl entry.1 ⟨⟨"tui", 1⟩, "op_1", "x:y", .steer, "stop"⟩).length ≤ 1 := by
  have connected : Transition.Run (step 128) NoCollision {} [.connectOrTakeover "tui"] _ :=
    .next (.done _) trivial rfl
  have opened := connected.next (l := Label.openChannel) trivial rfl
  have bound := opened.next (l := Label.bindPromptControl ⟨"tui", 1⟩ "op_1" 0) trivial rfl
  have sent := bound.next
    (l := Label.enqueuePromptControl ⟨⟨"tui", 1⟩, "op_1", "x:y", .steer, "stop"⟩)
    (not_collides_of_same (by decide)) rfl
  have repeated := sent.next
    (l := Label.enqueuePromptControl ⟨⟨"tui", 1⟩, "op_1", "x:y", .steer, "stop"⟩)
    (not_collides_of_same (by decide)) rfl
  exact ⟨_, repeated, (delivered_exactly_once repeated).2.1 _⟩

/-- Operation `op_1:x` and control `y` have the key of operation `op_1` and control `x:y`:
the second call gets a receipt, and nothing is delivered for it. -/
theorem receipt_without_delivery :
    ∃ world, Transition.Run (step 128) (fun _ _ => True) {} (steeredPrompt ++
        [.enqueuePromptControl ⟨⟨"tui", 1⟩, "op_1:x", "y", .steer, "stop"⟩]) world ∧
      ∃ call ∈ world.receipts,
        (world.deliveries.filter fun entry => SameControl entry.1 call) = [] := by
  refine ⟨_, Transition.Run.of_follow (fun _ _ _ => trivial) rfl,
    ⟨⟨"tui", 1⟩, "op_1:x", "y", .steer, "stop"⟩, ?_, ?_⟩
  · decide
  · decide

end PiRust.SnapshotCoordinator
