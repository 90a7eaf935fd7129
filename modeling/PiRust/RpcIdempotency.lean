import PiRust.Recent
import PiRust.RpcSurvival

/- The idempotency keys of the RPC mode over every run of its loop: what is recorded, and how often
an operation starts under one key. -/
namespace PiRust.RpcServer

open List

/-- What an `RpcState` knows of the keys; `holder` is the key of the running operation. -/
structure Ledger where
  records : List (String × RpcIdempotencyRecord)
  order : List String
  holder : Option (String × OperationKind)

namespace Ledger

def keys (ledger : Ledger) : List String := ledger.records.map Prod.fst

/-- A new key is added, and the oldest one leaves a full queue. -/
def remember (ledger : Ledger) (key : String) (record : RpcIdempotencyRecord) : Ledger :=
  let order := ledger.order ++ [key]
  { ledger with
    records := (ledger.records ++ [(key, record)]).filter fun entry =>
      !(order.take (order.length - rpcIdempotencyRecordLimit)).contains entry.1
    order := order.drop (order.length - rpcIdempotencyRecordLimit) }

end Ledger

/-- What one event does to the keys. A key is recorded where it is not recorded yet and no other
one is held, for an operation that is started or done within the event. -/
inductive Moves (before : Ledger) : Ledger → Prop
  | refl : Moves before before
  | ends {records : List (String × RpcIdempotencyRecord)}
      (keys : records.map Prod.fst = before.keys) : Moves before ⟨records, before.order, none⟩
  | adds {key : String} (record : RpcIdempotencyRecord)
      {records : List (String × RpcIdempotencyRecord)} {holder : Option (String × OperationKind)}
      (pending : record.completed = false) (idle : before.holder = none)
      (unused : key ∉ before.keys)
      (valid : RpcState.parseIdempotencyKey (some key) = .ok (some key))
      (keys : records.map Prod.fst = (before.remember key record).keys)
      (held : holder = none ∨
        holder = some (key, record.operationKind) ∧ records = (before.remember key record).records) :
      Moves before ⟨records, (before.remember key record).order, holder⟩

variable {σ : Type} {admitted id key : Option String} {command refusal : String} {kind : OperationKind}
  {ran : Ran} {outcome : Except CodingSessionError Value → RpcResponse} {drained : Drained}
  {session : σ} {replies : Replies σ} {views : Views σ} {wire : Wire} {after state : RpcState σ}
  {behavior : Option StreamingBehavior} {cursor : Option Nat} {images : Option (List ContentBlock)}

def RpcState.ledger (state : RpcState σ) : Ledger where
  records := state.idempotencyRecords
  order := state.idempotencyOrder
  holder := state.running.bind fun running =>
    running.idempotencyKey.map fun key => (key, running.operationKind)

/-- A key that is one, and has no record. -/
def RpcState.Unused (state : RpcState σ) (key : Option String) : Prop :=
  ∀ own, key = some own → own ∉ state.ledger.keys ∧ parseIdempotencyKey key = .ok key

theorem remember_unused {key : String} (unused : key ∉ state.ledger.keys) :
    (state.rememberIdempotencyKey (some key) command kind).ledger =
      state.ledger.remember key ⟨command, kind, false⟩ := by
  have absent : ∀ entry ∈ state.idempotencyRecords, entry.1 ≠ key := by
    rintro entry inside rfl
    exact unused (mem_map_of_mem inside)
  have unfound : state.idempotencyRecord key = none := by
    rw [RpcState.idempotencyRecord, Option.map_eq_none_iff, find?_eq_none]
    simpa using absent
  have all : (state.idempotencyRecords.filter fun entry => entry.1 ≠ key) =
      state.idempotencyRecords := by
    rw [filter_eq_self]
    simpa using absent
  simp only [RpcState.rememberIdempotencyKey, unfound, all]
  rfl

theorem unused_of_retry {given : Option String}
    (parsed : RpcState.parseIdempotencyKey given = .ok key)
    (fresh : state.idempotentRetryResponse key command = .ok none) : state.Unused key := by
  rintro own rfl
  have same : given = some own := by
    unfold RpcState.parseIdempotencyKey at parsed
    repeat' split at parsed
    all_goals cases parsed
    rfl
  refine ⟨fun recorded => ?_, same ▸ parsed⟩
  obtain ⟨entry, inside, rfl⟩ := mem_map.mp recorded
  cases found : state.idempotencyRecord entry.1 with
  | none =>
    rw [RpcState.idempotencyRecord, Option.map_eq_none_iff, find?_eq_none] at found
    exact found entry inside (decide_eq_true rfl)
  | some record =>
    simp only [RpcState.idempotentRetryResponse, Option.bind_some, found] at fresh
    split at fresh
    · cases fresh
    · cases fresh

theorem ledger_idle (idle : state.running = none) : state.ledger.holder = none :=
  congrArg (Option.bind · _) idle

theorem admitIdle_unused (passed : admitIdle state id command key refusal = .ok admitted) :
    state.Unused admitted := by
  unfold admitIdle at passed
  split at passed
  · cases passed
  · rename_i early
    unfold admitKey at early
    repeat' split at early
    all_goals cases early
    rename_i parsed fresh
    split at passed
    · cases passed
    · cases passed
      exact unused_of_retry parsed fresh

theorem keys_mark (state : RpcState σ) (key : Option String) :
    (state.markIdempotencyComplete key).idempotencyRecords.map Prod.fst = state.ledger.keys := by
  rw [Ledger.keys, RpcState.markIdempotencyComplete, map_map]
  apply map_congr_left
  intro entry _
  simp only [Function.comp]
  split <;> rfl

theorem ledger_marked (idle : state.running = none) :
    (state.markIdempotencyComplete key).ledger =
      ⟨(state.markIdempotencyComplete key).idempotencyRecords, state.idempotencyOrder, none⟩ := by
  simp only [RpcState.ledger, RpcState.markIdempotencyComplete, idle]
  rfl

theorem start_moves {root : Option String} (idle : state.running = none)
    (unused : state.Unused key) (same : after.ledger = state.ledger) :
    Moves state.ledger (after.start command kind key root session).ledger := by
  have started : (after.start command kind key root session).ledger =
      { (after.rememberIdempotencyKey key command kind).ledger with
        holder := key.map fun key => (key, kind) } := rfl
  rw [started]
  cases key with
  | none =>
    rw [RpcState.rememberIdempotencyKey, same]
    exact .ends rfl
  | some key =>
    obtain ⟨fresh, valid⟩ := unused key rfl
    rw [remember_unused (same ▸ fresh), same]
    exact .adds ⟨command, kind, false⟩ rfl (ledger_idle idle) fresh valid rfl (.inr ⟨rfl, rfl⟩)

theorem runKeyed_moves (idle : state.running = none) (unused : state.Unused key) :
    Moves state.ledger (runKeyed state session command kind key ran outcome drained).state.ledger := by
  have marks : Moves state.ledger (state.rememberIdempotencyKey key command kind).ledger ∧
      Moves state.ledger
        ((state.rememberIdempotencyKey key command kind).markIdempotencyComplete key).ledger := by
    cases key with
    | none => exact ⟨.refl, ledger_marked idle ▸ .ends (keys_mark state none)⟩
    | some key =>
      obtain ⟨fresh, valid⟩ := unused key rfl
      have remembered := @remember_unused σ command kind state key fresh
      have order : (state.rememberIdempotencyKey (some key) command kind).idempotencyOrder = _ :=
        congrArg Ledger.order remembered
      have keys := (keys_mark _ (some key)).trans (congrArg Ledger.keys remembered)
      rw [ledger_marked ((remember_running ..).trans idle), remembered, order]
      refine ⟨.adds _ rfl (ledger_idle idle) fresh valid rfl (.inl (ledger_idle idle)), ?_⟩
      exact .adds _ rfl (ledger_idle idle) fresh valid keys (.inl rfl)
  cases ran with
  | panicked => exact marks.1
  | ok data | error data => exact marks.2

theorem detachClient_ledger (state : RpcState σ) (replies : Replies σ) :
    (state.detachClient replies).2.ledger = state.ledger := by
  unfold RpcState.detachClient
  repeat' split
  all_goals rfl

theorem handleDetach_moves : Moves state.ledger (handleDetach state replies id).state.ledger := by
  have same := detachClient_ledger state replies
  unfold handleDetach
  split <;> rename_i detached <;> rw [detached] at same
  all_goals exact same ▸ .refl

theorem handleShutdown_moves : Moves state.ledger (handleShutdown state replies id).state.ledger := by
  unfold handleShutdown
  split
  · rename_i running busy
    split
    · exact .refl
    · have same : ({ state with running := some { running with pendingShutdownResponse := some id } } :
          RpcState σ).ledger = state.ledger := by
        simp [RpcState.ledger, busy]
      exact same ▸ .refl
  · split
    · exact .refl
    · exact .refl

theorem handleQueued_moves {verb : String} {enqueued : RpcState σ}
    (same : enqueued.ledger = state.ledger) :
    Moves state.ledger
      (handleQueued state replies id command verb images enqueued).state.ledger := by
  unfold handleQueued
  repeat' split
  all_goals first | exact .refl | exact same ▸ .refl

theorem handleNewSession_moves :
    Moves state.ledger (handleNewSession state replies id).state.ledger := by
  unfold handleNewSession
  split
  · exact .refl
  · have same := detachClient_ledger state replies
    exact same ▸ .refl

theorem runHere_moves :
    Moves state.ledger (runHere state session ran outcome drained).state.ledger := by
  cases ran <;> exact .refl

/-- The commands that are refused while an operation runs, after their key was looked up. -/
theorem admitted_moves {go : Option String → Handled σ}
    (admits : ∀ own, state.running = none → state.Unused own →
      Moves state.ledger (go own).state.ledger) :
    Moves state.ledger (match admitIdle state id command key refusal with
      | .error response => answer state response
      | .ok own => go own).state.ledger := by
  split
  · exact .refl
  · rename_i passed
    exact admits _ (idle_of_admitIdle passed) (admitIdle_unused passed)

theorem reconnect_moves :
    Moves state.ledger (reconnectRunningPromptAfter wire state replies).2.ledger := by
  unfold reconnectRunningPromptAfter
  split
  · rename_i running _ busy _
    split
    · exact .refl
    · exact .refl
    · rename_i events _
      dsimp only
      split
      · exact .ends rfl
      · have same : ({ state with running := some { running with
            stream := (Rpc.pushRetained wire.serde events running.stream).1 } } :
            RpcState σ).ledger = state.ledger := by
          simp [RpcState.ledger, busy]
        exact same ▸ .refl
  · exact .refl

theorem streamingPromptControl_state :
    (handleStreamingPromptControl state replies id behavior).state = state := by
  unfold handleStreamingPromptControl
  repeat' split
  all_goals rfl

theorem handleStreamingPrompt_moves :
    Moves state.ledger
      (handleStreamingPrompt wire state replies id behavior cursor).state.ledger := by
  have moved := @reconnect_moves σ replies wire state
  unfold handleStreamingPrompt
  split
  · rw [streamingPromptControl_state]
    exact .refl
  · split <;> rename_i answered <;> rw [answered] at moved
    · exact moved
    · exact moved
    · split
      · exact moved
      · dsimp only
        split
        all_goals
          simp only [streamingPromptControl_state]
          exact moved

theorem ensureClientConnection_ledger
    (connected : state.ensureClientConnection replies = .ok after) : after.ledger = state.ledger := by
  unfold RpcState.ensureClientConnection at connected
  repeat' split at connected
  all_goals cases connected
  all_goals rfl

theorem startCodingSessionPrompt_moves (idle : state.running = none) (unused : state.Unused key) :
    Moves state.ledger (startCodingSessionPrompt state replies id key).state.ledger := by
  unfold startCodingSessionPrompt
  split
  · exact .refl
  · dsimp only
    split
    · exact .refl
    · rename_i connected
      have same := (ensureClientConnection_ledger connected).trans (show _ = state.ledger from rfl)
      split
      · exact same ▸ .refl
      · split
        · exact same ▸ .refl
        · exact start_moves idle unused same

theorem handlePrompt_moves :
    Moves state.ledger
      (handlePrompt wire state replies id images behavior cursor key).state.ledger := by
  unfold handlePrompt
  split
  · exact .refl
  · rename_i parsed
    split
    · exact handleStreamingPrompt_moves
    · split
      · exact .refl
      · exact .refl
      · rename_i unused
        split
        · exact .refl
        · split
          · exact handleStreamingPrompt_moves
          · rename_i idle
            exact startCodingSessionPrompt_moves (idle_of_not_streaming idle)
              (unused_of_retry parsed unused)

theorem handleCommand_moves (own : RpcCommand) :
    Moves state.ledger (handleCommand wire views state replies own).state.ledger := by
  cases own with
  | detach id => exact handleDetach_moves
  | shutdown id => exact handleShutdown_moves
  | prompt => exact handlePrompt_moves
  | steer | followUp => exact handleQueued_moves rfl
  | newSession id => exact handleNewSession_moves
  | selfHealingEdit | setDefaultAgentProfile | invokeAgent | invokeTeam | approveDelegation
  | rejectDelegation =>
    refine admitted_moves fun own idle unused => ?_
    repeat' (first | split | dsimp only)
    all_goals first
      | exact .refl
      | exact runKeyed_moves idle unused
      | exact start_moves idle unused rfl
  | _ =>
    -- The others neither start an operation nor look at a key.
    dsimp only [handleCommand, handleHello, handleAbort, handleReload, handlePluginCommand,
      handleListAgentProfiles, handleListTeamProfiles, handleListProfiles,
      handleListDelegationConfirmations]
    repeat' split
    all_goals first | exact .refl | exact runHere_moves

theorem handleInputLine_moves {line : String} :
    Moves state.ledger (handleInputLine wire views state replies line).state.ledger := by
  unfold handleInputLine
  repeat' (first | split | dsimp only)
  all_goals first | exact .refl | exact handleCommand_moves _

theorem finish_moves {queue : List Rpc.RpcQueuedProductEvent}
    {result : Option CodingOperationOutcome} {shutdown : CodingAgentShutdownOutcome} :
    Moves state.ledger
      (finishCodingRunningPrompt wire state queue result shutdown).state.ledger := by
  unfold finishCodingRunningPrompt recordPrompt
  split
  · exact .refl
  · repeat' (first | split | dsimp only)
    all_goals exact .ends (keys_mark _ _)

theorem receive_moves {running : CodingRunningPrompt σ} {item : Option Rpc.RpcQueuedProductEvent}
    (busy : state.running = some running) :
    Moves state.ledger (receiveCodingEvent wire state running item).state.ledger := by
  have same (stream : Rpc.CodingRunningPrompt) :
      ({ state with running := some { running with stream } } : RpcState σ).ledger = state.ledger := by
    simp [RpcState.ledger, busy]
  unfold receiveCodingEvent
  split <;> exact (same _).symm ▸ .refl

theorem step_moves {event : RpcLoopEvent σ} {loop next : Loop σ}
    (taken : step wire views event loop = some next) :
    Moves loop.state.ledger next.state.ledger := by
  have turned (loop : Loop σ) : loop.turn.state = loop.state := by
    unfold Loop.turn
    split <;> rfl
  unfold step at taken
  split at taken
  · cases taken
  · split at taken
    · repeat' split at taken
      all_goals cases taken
      all_goals rw [turned]
      · exact .refl
      · exact handleInputLine_moves
    · rename_i busy
      split at taken
      · cases taken
      · cases taken
        rw [turned]
        exact receive_moves busy
    · cases taken
      rw [turned]
      exact finish_moves
    · cases taken

/-- The keys that are new in the queue. -/
def newKeys (before after : List String) : List String :=
  after.filter fun key => !before.contains key

/-- The keys that a run records, in their order. -/
def recordedKeys (wire : Wire) (views : Views σ) : List (RpcLoopEvent σ) → Loop σ → List String
  | [], _ => []
  | event :: events, loop =>
    match step wire views event loop with
    | none => []
    | some next =>
      newKeys loop.state.idempotencyOrder next.state.idempotencyOrder ++
        recordedKeys wire views events next

/-- Records and queue hold the last keys of those that were recorded, no key comes back while it is
held, and the operation that runs under a key has its record there. -/
structure Recorded (keys : List String) (ledger : Ledger) : Prop where
  order : ledger.order = Recent.window rpcIdempotencyRecordLimit keys
  spaced : Recent.Spaced rpcIdempotencyRecordLimit keys
  valid : ∀ key ∈ keys, RpcState.parseIdempotencyKey (some key) = .ok (some key)
  records : ledger.keys = ledger.order
  held : ∀ key kind, ledger.holder = some (key, kind) →
    ∃ record, (key, record) ∈ ledger.records ∧ record.operationKind = kind ∧
      record.completed = false

theorem newKeys_self (order : List String) : newKeys order order = [] := by
  simp [newKeys]

theorem order_remember (ledger : Ledger) (key : String) (record : RpcIdempotencyRecord) :
    ∃ n ≤ ledger.order.length, (ledger.remember key record).order = ledger.order.drop n ++ [key] ∧
      n = (ledger.order ++ [key]).length - rpcIdempotencyRecordLimit := by
  have bound : (ledger.order ++ [key]).length - rpcIdempotencyRecordLimit ≤ ledger.order.length := by
    rw [length_append, length_singleton, rpcIdempotencyRecordLimit]
    omega
  exact ⟨_, bound, drop_append_of_le_length bound, rfl⟩

theorem newKeys_remember {ledger : Ledger} {key : String} (unused : key ∉ ledger.order)
    (record : RpcIdempotencyRecord) :
    newKeys ledger.order (ledger.remember key record).order = [key] := by
  obtain ⟨n, -, order, -⟩ := order_remember ledger key record
  have kept : newKeys ledger.order (ledger.order.drop n) = [] := by
    simpa [newKeys] using fun own => mem_of_mem_drop
  have new : newKeys ledger.order [key] = [key] := by
    simp [newKeys, unused]
  rw [newKeys] at kept new ⊢
  rw [order, filter_append, kept, new, nil_append]

theorem Moves.started {before after : Ledger} {key : String} (moves : Moves before after)
    (idle : before.holder = none) (records : before.keys = before.order)
    (holds : after.holder = some (key, kind)) : newKeys before.order after.order = [key] := by
  cases moves with
  | refl => cases idle.symm.trans holds
  | ends => cases holds
  | adds record pending idle unused valid keys held =>
    rcases held with absent | ⟨held, -⟩
    · cases absent.symm.trans holds
    · cases held.symm.trans holds
      exact newKeys_remember (records ▸ unused) record

theorem Recorded.moves {keys : List String} {before after : Ledger} (recorded : Recorded keys before)
    (moves : Moves before after) : Recorded (keys ++ newKeys before.order after.order) after := by
  cases moves with
  | refl =>
    rw [newKeys_self, append_nil]
    exact recorded
  | ends same =>
    rw [newKeys_self, append_nil]
    exact ⟨recorded.order, recorded.spaced, recorded.valid, same.trans recorded.records, nofun⟩
  | @adds key record records holder pending idle unused valid same held =>
    rw [recorded.records] at unused
    rw [newKeys_remember unused]
    have fresh := unused
    rw [recorded.order] at fresh
    have distinct : (before.order ++ [key]).Nodup :=
      nodup_append'.mpr ⟨recorded.order ▸ recorded.spaced.nodup_window, nodup_singleton key,
        disjoint_singleton.mpr unused⟩
    have order : (before.remember key record).order =
        Recent.window rpcIdempotencyRecordLimit (keys ++ [key]) := by
      rw [Recent.window_concat, ← recorded.order]
      rfl
    refine ⟨order, recorded.spaced.concat fresh,
      forall_mem_append.mpr ⟨recorded.valid, forall_mem_singleton.mpr valid⟩, ?_, ?_⟩
    · have listed : (before.records ++ [(key, record)]).map Prod.fst = before.order ++ [key] := by
        rw [map_append, ← recorded.records]
        rfl
      have left : (map Prod.fst (before.records ++ [(key, record)])).filter (fun own =>
          !((before.order ++ [key]).take ((before.order ++ [key]).length -
            rpcIdempotencyRecordLimit)).contains own) = (before.remember key record).keys :=
        filter_map
      rw [listed] at left
      exact same.trans (left.symm.trans (Recent.filter_not_take distinct _))
    · rintro own kind rfl
      rcases held with absent | ⟨holds, kept⟩
      · cases absent
      · cases holds
        refine ⟨record, ?_, rfl, pending⟩
        obtain ⟨n, bound, -, rfl⟩ := order_remember before key record
        have stays : key ∉ (before.order ++ [key]).take
            ((before.order ++ [key]).length - rpcIdempotencyRecordLimit) := by
          rw [take_append_of_le_length bound]
          exact fun early => unused (mem_of_mem_take early)
        rw [kept]
        refine mem_filter.mpr ⟨mem_append_right _ (mem_singleton.mpr rfl), ?_⟩
        simpa using stays

theorem run_recorded {keys : List String} {events : List (RpcLoopEvent σ)} {loop final : Loop σ}
    (recorded : Recorded keys loop.state.ledger) (reached : run wire views events loop = some final) :
    Recorded (keys ++ recordedKeys wire views events loop) final.state.ledger := by
  induction events generalizing loop keys with
  | nil =>
    cases reached
    rw [recordedKeys, append_nil]
    exact recorded
  | cons event events ih =>
    obtain ⟨next, taken, rest⟩ := Option.bind_eq_some_iff.mp reached
    have taken : step wire views event loop = some next := taken
    have later := ih (recorded.moves (step_moves taken)) rest
    rw [recordedKeys, taken]
    rw [append_assoc] at later
    exact later

/-- A command that takes a key, by id, name and key; a prompt that asks the running operation for
its events looks at no key. -/
def keyedCommand (state : RpcState σ) : RpcCommand → Option (Option String × String × Option String)
  | .prompt id _ _ _ cursor key =>
    if state.isStreaming && cursor.isSome then none else some (id, "prompt", key)
  | .selfHealingEdit id _ _ _ _ _ key => some (id, "self_healing_edit", key)
  | .setDefaultAgentProfile id _ key => some (id, "set_default_agent_profile", key)
  | .invokeAgent id _ _ key => some (id, "invoke_agent", key)
  | .invokeTeam id _ _ key => some (id, "invoke_team", key)
  | .approveDelegation id _ _ key => some (id, "approve_delegation", key)
  | .rejectDelegation id _ _ _ key => some (id, "reject_delegation", key)
  | _ => none

/-- The answer to a command whose key has a record. -/
def repeatAnswer (record : RpcIdempotencyRecord) (id : Option String) (command : String) :
    RpcResponse :=
  if record.command = command then
    .ok id command (some (.object [("deduplicated", .bool true),
      ("operation", .string (OperationControl.OperationKind.asStr record.operationKind)),
      ("completed", .bool record.completed)]))
  else .failed id command
    ("idempotency key was already used for " ++ record.command ++ ", not " ++ command)

section repeats

variable {own : String} {record : RpcIdempotencyRecord}
  (valid : RpcState.parseIdempotencyKey (some own) = .ok (some own))
  (recorded : state.idempotencyRecord own = some record)
include valid recorded

theorem admitIdle_repeated :
    admitIdle state id command (some own) refusal = .error (repeatAnswer record id command) := by
  simp only [admitIdle, admitKey, valid, RpcState.idempotentRetryResponse, Option.bind_some,
    recorded, repeatAnswer]
  by_cases same : record.command = command
  · simp [same]
  · simp [same]

theorem handleCommand_repeated {sent : RpcCommand}
    (keyed : keyedCommand state sent = some (id, command, some own)) :
    handleCommand wire views state replies sent = answer state (repeatAnswer record id command) := by
  cases sent with
  | prompt =>
    rw [keyedCommand] at keyed
    split at keyed
    · cases keyed
    · rename_i plain
      cases keyed
      simp only [handleCommand, handlePrompt, valid, if_neg plain,
        RpcState.idempotentRetryResponse, Option.bind_some, recorded, repeatAnswer]
      by_cases same : record.command = "prompt"
      · simp [same]
      · simp [same]
  | selfHealingEdit | setDefaultAgentProfile | invokeAgent | invokeTeam | approveDelegation
  | rejectDelegation =>
    cases keyed
    simp only [handleCommand, handleSelfHealingEdit, handleSetDefaultAgentProfile,
      handleInvokeAgent, handleInvokeTeam, handleInvoke, handleApproveDelegation,
      handleRejectDelegation, admitIdle_repeated valid recorded]
  | _ => cases keyed

end repeats

section runs

variable {options : SessionRunOptions} {adapter : Protocol.CodingProtocolEventAdapter}
  {events : List (RpcLoopEvent σ)} {loop : Loop σ}
  (reached : run wire views events (Loop.start options adapter) = some loop)
include reached

theorem start_recorded :
    Recorded (recordedKeys wire views events (Loop.start options adapter)) loop.state.ledger := by
  have begun : Recorded [] (Loop.start options adapter : Loop σ).state.ledger :=
    ⟨rfl, .nil, nofun, rfl, nofun⟩
  exact run_recorded begun reached

/-- In every run: a command with one of the last 64 recorded keys changes nothing and is answered
from the record of its key. -/
theorem run_repeats_answered {own : String} {sent : RpcCommand}
    (held : own ∈ Recent.window rpcIdempotencyRecordLimit
      (recordedKeys wire views events (Loop.start options adapter)))
    (keyed : keyedCommand loop.state sent = some (id, command, some own)) :
    ∃ record, (own, record) ∈ loop.state.idempotencyRecords ∧
      handleCommand wire views loop.state replies sent =
        answer loop.state (repeatAnswer record id command) := by
  have recorded := start_recorded reached
  have valid := recorded.valid own (mem_of_mem_drop held)
  rw [← recorded.order, ← recorded.records] at held
  obtain ⟨entry, inside, named⟩ := mem_map.mp held
  obtain ⟨first, found⟩ := Option.isSome_iff_exists.mp
    (find?_isSome (p := fun entry => entry.1 = own).mpr ⟨entry, inside, decide_eq_true named⟩)
  have same : first.1 = own := by simpa using find?_some found
  refine ⟨first.2, same ▸ mem_of_find?_eq_some found, handleCommand_repeated valid ?_ keyed⟩
  exact congrArg (Option.map Prod.snd) found

end runs

/-- A prompt with a key. -/
def keyedWire : Wire where
  serde :=
    { fromStr := fun line =>
        if line = "" then none
        else some (.object [("id", .string "1"), ("type", .string "prompt"),
          ("message", .string "hi"), ("idempotencyKey", .string "k")])
      print := fun _ => ""
      fromStr_empty := rfl }
  contentBlock := fun _ => none
  parseError := fun _ => ""
  decodeError := fun _ => ""

theorem keyed_reached : ∃ loop, run keyedWire exampleViews failedPrompt exampleStart = some loop := by
  apply Option.isSome_iff_exists.mp
  decide

theorem keyed_recorded :
    recordedKeys keyedWire exampleViews failedPrompt exampleStart = ["k"] := by decide

/-- The key of the prompt does not serve for another command. -/
theorem run_repeats_answered_prompt : ∃ loop record,
    run keyedWire exampleViews failedPrompt exampleStart = some loop ∧
      handleCommand keyedWire exampleViews loop.state exampleReplies
          (.invokeAgent (some "2") "p" "t" (some "k")) =
        answer loop.state (repeatAnswer record (some "2") "invoke_agent") := by
  obtain ⟨loop, reached⟩ := keyed_reached
  have held : "k" ∈ Recent.window rpcIdempotencyRecordLimit
      (recordedKeys keyedWire exampleViews failedPrompt exampleStart) := by
    rw [keyed_recorded]
    decide
  have keyed : keyedCommand loop.state (.invokeAgent (some "2") "p" "t" (some "k")) =
      some (some "2", "invoke_agent", some "k") := rfl
  obtain ⟨record, -, answered⟩ := run_repeats_answered reached held keyed
  exact ⟨loop, record, reached, answered⟩

end PiRust.RpcServer
