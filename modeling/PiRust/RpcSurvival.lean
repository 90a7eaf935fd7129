import PiRust.RpcServer

/- What `run_rpc_loop` answers, when it ends and what becomes of its session, over every
sequence of lines, events and outcomes. -/
namespace PiRust.RpcServer

open List

variable {σ : Type}

def keyed (id : Option String) (command : String) : List (String × String) :=
  id.toList.map fun id => (id, command)

def RpcLine.key : RpcLine → List (String × String)
  | .response own => keyed own.id own.command
  | _ => []

def responded (lines : List RpcLine) : List (String × String) := lines.flatMap RpcLine.key

def CodingRunningPrompt.deferred (running : CodingRunningPrompt σ) : List (String × String) :=
  (running.pendingShutdownResponse.map fun id => keyed id "shutdown").getD []

namespace RpcState

def deferred (state : RpcState σ) : List (String × String) :=
  (state.running.map CodingRunningPrompt.deferred).getD []

/-- The session, which the task of an operation may hold. -/
def session (state : RpcState σ) : Option σ :=
  (state.running.map CodingRunningPrompt.session).or state.codingSession

end RpcState

/-- Handling answers with this id and command, now or with the running operation, and keeps
the session. -/
structure Answers (state : RpcState σ) (id : Option String) (command : String)
    (handled : Handled σ) : Prop where
  responses : (responded handled.lines ++ handled.state.deferred).Perm
    (keyed id command ++ state.deferred)
  session : ∀ held, state.session = some held → handled.state.session = some held

@[simp] theorem responded_nil : responded [] = [] := rfl

@[simp] theorem responded_cons (line : RpcLine) (lines : List RpcLine) :
    responded (line :: lines) = line.key ++ responded lines := rfl

@[simp] theorem responded_append (lines more : List RpcLine) :
    responded (lines ++ more) = responded lines ++ responded more :=
  flatMap_append

@[simp] theorem key_response (response : RpcResponse) :
    (RpcLine.response response).key = keyed response.id response.command := rfl

@[simp] theorem key_agentStart : RpcLine.agentStart.key = [] := rfl

@[simp] theorem keyed_none (command : String) : keyed none command = [] := rfl

@[simp] theorem responded_events (events : List Protocol.ProtocolEvent) :
    responded (events.map .event) = [] := by
  induction events with
  | nil => rfl
  | cons event rest ih => exact ih

@[simp] theorem responded_writeDrained (drained : Drained) :
    responded (writeDrained drained) = [] := by
  unfold writeDrained
  rw [responded_append, responded_events]
  cases drained.skipped with
  | none => rfl
  | some skipped => rfl

theorem responded_drainQueue (serde : Serde) (queue : List Rpc.RpcQueuedProductEvent)
    (stream : Rpc.CodingRunningPrompt) :
    responded ((Rpc.drainQueue serde queue stream).2.flatMap drainedLine) = [] := by
  have silent : ∀ output : Rpc.RpcOutput, responded (drainedLine output) = [] := by
    intro output
    cases output <;> rfl
  induction (Rpc.drainQueue serde queue stream).2 with
  | nil => rfl
  | cons output rest ih => rw [flatMap_cons, responded_append, silent, ih, nil_append]

theorem responded_shutdownLines (id : Option String) (outcome : CodingAgentShutdownOutcome) :
    responded (shutdownLines id outcome) = keyed id "shutdown" := by
  cases outcome <;> simp [shutdownLines, RpcLine.key, RpcResponse.ok]

variable {drained : Drained} {outcome : Except CodingSessionError Value → RpcResponse}
  {loop : Loop σ} {kind : OperationKind} {images : Option (List ContentBlock)} {cursor : Option Nat}
  {behavior : Option StreamingBehavior} {id key : Option String} {ran : Ran} {replies : Replies σ}
  {response : RpcResponse} {after state : RpcState σ}
  {command operationId refusal toolCallId : String} {views : Views σ} {wire : Wire} {session : σ}

theorem deferred_congr (running : after.running = state.running) :
    after.deferred = state.deferred := by
  simp [RpcState.deferred, running]

theorem session_congr (running : after.running = state.running)
    (held : after.codingSession = state.codingSession) : after.session = state.session := by
  simp only [RpcState.session, running, held]

/-- A command is answered, and the loop goes on. -/
structure Settles (state : RpcState σ) (id : Option String) (command : String)
    (handled : Handled σ) : Prop extends Answers state id command handled where
  continues : handled.stop = none

theorem Settles.answer (own : response.id = id) (named : response.command = command)
    (running : after.running = state.running) (held : after.codingSession = state.codingSession) :
    Settles state id command (answer after response) where
  responses := by simp [RpcServer.answer, own, named, deferred_congr running]
  session := fun _ kept => (session_congr running held).trans kept
  continues := rfl

theorem Settles.ok {data : Option Value} :
    Settles state id command (RpcServer.answer state (.ok id command data)) :=
  .answer rfl rfl rfl rfl

theorem Settles.failed {error : String} {data : Option Value} :
    Settles state id command (RpcServer.answer state (.failed id command error data)) :=
  .answer rfl rfl rfl rfl

variable {held : σ} {admitted : Option String} {running : CodingRunningPrompt σ}
  {event : RpcLoopEvent σ} {next : Loop σ}

theorem takeSession_held (taken : state.takeSession replies = .ok session)
    (kept : state.codingSession = some held) : session = held := by
  unfold RpcState.takeSession at taken
  rw [kept] at taken
  exact (Except.ok.inj taken).symm

theorem openOperationSession_held {root : Option String}
    (opened : state.openOperationSession replies = .ok (root, session))
    (kept : state.codingSession = some held) : session = held := by
  unfold RpcState.openOperationSession at opened
  rw [kept] at opened
  cases rooted : state.sessionRoot replies with
  | error error =>
    rw [rooted] at opened
    cases opened
  | ok own =>
    rw [rooted] at opened
    exact (Prod.mk.inj (Except.ok.inj opened)).2.symm

theorem session_idle (idle : state.running = none) : state.session = state.codingSession := by
  simp [RpcState.session, idle]

theorem deferred_idle (idle : state.running = none) : state.deferred = [] := by
  simp [RpcState.deferred, idle]

theorem idle_of_not_streaming (idle : ¬state.isStreaming = true) : state.running = none := by
  simpa [RpcState.isStreaming] using idle

@[simp] theorem remember_running (state : RpcState σ) (key : Option String) (command : String)
    (kind : OperationKind) :
    (state.rememberIdempotencyKey key command kind).running = state.running := by
  unfold RpcState.rememberIdempotencyKey
  split <;> rfl

theorem Settles.runHere {before : RpcState σ} (kept : before.running = state.running)
    (idle : state.running = none)
    (taken : ∀ held, state.codingSession = some held → session = held) (calm : ran ≠ .panicked)
    (named : ∀ result, ((outcome result).id, (outcome result).command) = (id, command)) :
    Settles state id command (runHere before session ran outcome drained) := by
  have back : ∀ held, state.session = some held →
      ({ before with codingSession := some session } : RpcState σ).session = some held := by
    intro held found
    rw [session_idle idle] at found
    simpa [RpcState.session, kept, idle] using taken held found
  cases ran with
  | panicked => exact absurd rfl calm
  | ok data | error data =>
    refine ⟨⟨?_, back⟩, rfl⟩
    simp [RpcServer.runHere, Prod.mk.inj (named _), RpcState.deferred, kept]

theorem Settles.runKeyed (idle : state.running = none)
    (taken : ∀ held, state.codingSession = some held → session = held) (calm : ran ≠ .panicked)
    (named : ∀ result, ((outcome result).id, (outcome result).command) = (id, command)) :
    Settles state id command (runKeyed state session command kind key ran outcome drained) := by
  have settles : Settles state id command
      (RpcServer.runHere (state.rememberIdempotencyKey key command kind) session ran outcome drained) :=
    .runHere (remember_running ..) idle taken calm named
  unfold RpcServer.runKeyed
  simp only [settles.continues]
  exact ⟨⟨settles.responses, settles.session⟩, rfl⟩

theorem Settles.start {before : RpcState σ} {root : Option String} {data : Option Value}
    (idle : state.running = none)
    (taken : ∀ held, state.codingSession = some held → session = held) :
    Settles state id command
      { state := before.start command kind key root session
        lines := [.response (.ok id command data), .agentStart] } where
  continues := rfl
  responses := by
    simp [RpcState.deferred, idle, RpcState.start, CodingRunningPrompt.deferred, RpcResponse.ok]
  session := by
    intro held found
    rw [session_idle idle] at found
    exact congrArg some (taken held found)

theorem idle_of_admitIdle (passed : admitIdle state id command key refusal = .ok admitted) :
    state.running = none := by
  unfold admitIdle at passed
  split at passed
  · cases passed
  · split at passed
    · cases passed
    · exact idle_of_not_streaming ‹_›

theorem admitKey_response (answered : admitKey state id command key = .error response) :
    response.id = id ∧ response.command = command := by
  unfold admitKey at answered
  split at answered
  · exact Except.error.inj answered ▸ ⟨rfl, rfl⟩
  · split at answered
    · exact Except.error.inj answered ▸ ⟨rfl, rfl⟩
    · cases answered
    · exact Except.error.inj answered ▸ ⟨rfl, rfl⟩

theorem admitIdle_response (answered : admitIdle state id command key refusal = .error response) :
    response.id = id ∧ response.command = command := by
  unfold admitIdle at answered
  split at answered
  · rename_i early
    exact Except.error.inj answered ▸ admitKey_response early
  · split at answered
    · exact Except.error.inj answered ▸ ⟨rfl, rfl⟩
    · cases answered

theorem Settles.early (answered : admitIdle state id command key refusal = .error response) :
    Settles state id command (RpcServer.answer state response) :=
  .answer (admitIdle_response answered).1 (admitIdle_response answered).2 rfl rfl

def Succeeds {ε α : Type} (reply : Except ε α) : Prop := ∃ value, reply = .ok value

def RpcState.Admits (state : RpcState σ) (command : String) (key : Option String) : Prop :=
  ∃ parsed, RpcState.parseIdempotencyKey key = .ok parsed ∧
    state.idempotentRetryResponse parsed command = .ok none ∧ state.running = none

/-- The recovery of a running prompt with a cursor goes through, up to a gap. -/
def RpcState.Recovers (state : RpcState σ) (replies : Replies σ) : Prop :=
  state.running ≠ none → state.clientConnection ≠ none →
    Succeeds replies.reconnected ∧
      ∀ events, replies.reconnected = .ok (.replayed events) → Succeeds replies.acknowledged

def RpcState.Starts (state : RpcState σ) (replies : Replies σ) : Prop :=
  Succeeds (state.openOperationSession replies) ∧
    (state.clientConnection = none → Succeeds replies.connected) ∧
    Succeeds replies.promptDraft ∧ Succeeds replies.submission

/-- None of the calls that the command makes fails where the failure is passed on, nor
panics. -/
def RpcCommand.Sound (state : RpcState σ) (replies : Replies σ) : RpcCommand → Prop
  | .shutdown _ => state.running = none → Succeeds (state.takeSession replies)
  | .steer _ _ images | .followUp _ _ images =>
    hasImages images = false → Succeeds (state.activePromptControl replies)
  | .abort _ => Succeeds (state.activePromptControl replies)
  | .prompt _ _ images behavior cursor key =>
    ∀ parsed, RpcState.parseIdempotencyKey key = .ok parsed →
      if state.isStreaming && cursor.isSome then
        state.Recovers replies ∧ (behavior ≠ none →
          (∀ after oldest, replies.reconnected ≠ .ok (.freshSnapshotRequired after oldest)) →
            Succeeds (state.activePromptControl replies))
      else
        state.idempotentRetryResponse parsed "prompt" = .ok none → hasImages images = false →
          if state.isStreaming then Succeeds (state.activePromptControl replies)
          else state.Starts replies
  | .reload _ =>
    state.running = none → Succeeds (state.takeSession replies) → replies.pluginLoad ≠ .panicked
  | .pluginCommand .. =>
    state.running = none → Succeeds (state.takeSession replies) →
      (state.codingSession = none → replies.pluginLoad ≠ .panicked) ∧
      ((state.codingSession ≠ none ∨ ∃ data, replies.pluginLoad = .ok data) →
        replies.ran ≠ .panicked)
  | .selfHealingEdit _ _ _ _ _ _ key =>
    state.Admits "self_healing_edit" key → Succeeds (state.takeSession replies) →
      replies.ran ≠ .panicked
  | .setDefaultAgentProfile _ profile key =>
    state.Admits "set_default_agent_profile" key → Succeeds (profileId profile) →
      Succeeds (state.takeSession replies) → replies.profileKnown = true → replies.ran ≠ .panicked
  | .invokeAgent _ target task key =>
    state.Admits "invoke_agent" key → trim task ≠ "" → Succeeds (profileId target) →
      Succeeds (state.openOperationSession replies)
  | .invokeTeam _ target task key =>
    state.Admits "invoke_team" key → trim task ≠ "" → Succeeds (profileId target) →
      Succeeds (state.openOperationSession replies)
  | .approveDelegation _ _ _ key =>
    state.Admits "approve_delegation" key → state.codingSession ≠ none →
      replies.pending ≠ none → Succeeds (state.sessionRoot replies)
  | .rejectDelegation _ _ _ _ key =>
    state.Admits "reject_delegation" key → state.codingSession ≠ none →
      replies.pending ≠ none → replies.ran ≠ .panicked
  | _ => True

theorem admits_of_admitIdle (passed : admitIdle state id command key refusal = .ok admitted) :
    state.Admits command key := by
  have idle := idle_of_admitIdle passed
  unfold admitIdle admitKey at passed
  split at passed
  · cases passed
  · rename_i early
    split at early
    · cases early
    · rename_i parsed valid
      split at early
      · cases early
      · rename_i unused
        exact ⟨parsed, valid, unused, idle⟩
      · cases early

theorem handleHello_settles (state : RpcState σ) (id : Option String)
    (protocol : RequestedProtocolVersion) :
    Settles state id "hello" (handleHello state id protocol) := by
  unfold handleHello
  dsimp only
  split
  · exact .answer rfl rfl rfl rfl
  · exact .failed

theorem detachClient_frame (state : RpcState σ) (replies : Replies σ) :
    (state.detachClient replies).2.running = state.running ∧
      (state.detachClient replies).2.codingSession = state.codingSession := by
  unfold RpcState.detachClient
  split
  · exact ⟨rfl, rfl⟩
  · split
    · exact ⟨rfl, rfl⟩
    · exact ⟨rfl, rfl⟩

theorem handleDetach_settles (state : RpcState σ) (replies : Replies σ) (id : Option String) :
    Settles state id "detach" (handleDetach state replies id) := by
  have frame := detachClient_frame state replies
  have continues : (handleDetach state replies id).stop = none := by
    unfold handleDetach RpcState.detachClient
    cases state.clientConnection with
    | none => rfl
    | some connection =>
      cases replies.detached with
      | ok status => rfl
      | error reason => rfl
  unfold handleDetach at continues ⊢
  split at continues <;> rename_i after detached <;> rw [detached] at frame
  · refine ⟨⟨?_, fun _ kept => (session_congr frame.1 frame.2).trans kept⟩, rfl⟩
    rw [deferred_congr frame.1]
    split
    · simp [RpcLine.key, RpcResponse.ok]
    · simp [RpcLine.key, RpcResponse.ok]
  · exact .answer rfl rfl frame.1 frame.2
  · cases continues

theorem handleShutdown_settles
    (opens : state.running = none → Succeeds (state.takeSession replies)) :
    Settles state id "shutdown" (handleShutdown state replies id) := by
  unfold handleShutdown
  cases busy : state.running with
  | some running =>
    dsimp only
    split
    · exact .failed
    · rename_i first
      have empty : running.pendingShutdownResponse = none := by simpa using first
      refine ⟨⟨?_, ?_⟩, rfl⟩
      · simp [RpcState.deferred, busy, CodingRunningPrompt.deferred, empty]
      · simp [RpcState.session, busy]
  | none =>
    obtain ⟨session, taken⟩ := opens busy
    rw [taken]
    refine ⟨⟨?_, fun held found => ?_⟩, rfl⟩
    · simp [responded_shutdownLines, RpcState.deferred, busy]
    · rw [session_idle busy] at found
      simpa [RpcState.session, busy] using takeSession_held taken found

theorem handleQueued_settles {enqueued : RpcState σ} {verb : String}
    (running : enqueued.running = state.running)
    (held : enqueued.codingSession = state.codingSession)
    (reads : hasImages images = false → Succeeds (state.activePromptControl replies)) :
    Settles state id command (handleQueued state replies id command verb images enqueued) := by
  unfold handleQueued
  split
  · exact .failed
  · rename_i plain
    obtain ⟨target, control⟩ := reads (Bool.eq_false_iff.mpr plain)
    split
    · split
      · exact .failed
      · rw [control]
        cases target with
        | none => exact .failed
        | some operation =>
          dsimp only
          split
          · exact .ok
          · exact .failed
    · refine ⟨⟨?_, fun _ kept => (session_congr running held).trans kept⟩, rfl⟩
      rw [deferred_congr running]
      simp [RpcLine.key, RpcResponse.ok]

theorem handleAbort_settles (reads : Succeeds (state.activePromptControl replies)) :
    Settles state id "abort" (handleAbort state replies id) := by
  obtain ⟨target, control⟩ := reads
  unfold handleAbort
  split
  · split
    · exact .failed
    · rw [control]
      cases target with
      | none => exact .failed
      | some operation =>
        dsimp only
        split
        · exact .failed
        · exact .ok
  · exact .ok

theorem handleReload_settles
    (calm : state.running = none → Succeeds (state.takeSession replies) →
      replies.pluginLoad ≠ .panicked) :
    Settles state id "reload" (handleReload state replies id) := by
  unfold handleReload
  split
  · exact .failed
  · rename_i idle
    have idle := idle_of_not_streaming idle
    split
    · exact .failed
    · rename_i session taken
      exact .runHere rfl idle (fun held => takeSession_held taken) (calm idle ⟨session, taken⟩)
        (by rintro (_ | _) <;> rfl)

theorem handlePluginCommand_settles {commandId : String}
    (calm : state.running = none → Succeeds (state.takeSession replies) →
      (state.codingSession = none → replies.pluginLoad ≠ .panicked) ∧
      ((state.codingSession ≠ none ∨ ∃ data, replies.pluginLoad = .ok data) →
        replies.ran ≠ .panicked)) :
    Settles state id "plugin_command" (handlePluginCommand state replies id commandId) := by
  unfold handlePluginCommand
  split
  · exact .failed
  · rename_i idle
    have idle := idle_of_not_streaming idle
    split
    · exact .failed
    · rename_i session taken
      obtain ⟨loads, runs⟩ := calm idle ⟨session, taken⟩
      dsimp only
      split
      · rename_i none_ panics
        exact absurd panics (loads none_)
      · exact .runHere rfl idle (fun held => takeSession_held taken) Ran.noConfusion
          (by rintro (_ | _) <;> rfl)
      · rename_i noPanic noError
        refine .runHere rfl idle (fun held => takeSession_held taken) (runs ?_)
          (by rintro (_ | _) <;> rfl)
        cases own : state.codingSession with
        | some held => exact .inl (Option.some_ne_none held)
        | none =>
          cases loaded : replies.pluginLoad with
          | ok data => exact .inr ⟨data, rfl⟩
          | error error => exact absurd loaded (noError error own)
          | panicked => exact absurd loaded (noPanic own)

theorem handleSelfHealingEdit_settles
    (calm : state.Admits "self_healing_edit" key → Succeeds (state.takeSession replies) →
      replies.ran ≠ .panicked) :
    Settles state id "self_healing_edit" (handleSelfHealingEdit state replies id key) := by
  unfold handleSelfHealingEdit
  split
  · exact .early ‹_›
  · rename_i admitted passed
    split
    · exact .failed
    · rename_i session taken
      exact .runKeyed (idle_of_admitIdle passed) (fun held => takeSession_held taken)
        (calm (admits_of_admitIdle passed) ⟨session, taken⟩) (by rintro (_ | _) <;> rfl)

theorem handleListProfiles_settles (state : RpcState σ) (replies : Replies σ)
    (id : Option String) (command refusal : String) (data : σ → Value) :
    Settles state id command (handleListProfiles state replies id command refusal data) := by
  unfold handleListProfiles
  split
  · exact .failed
  · split
    · exact .ok
    · split
      · exact .ok
      · exact .failed

theorem Settles.putBack {error : String} (idle : state.running = none)
    (taken : ∀ held, state.codingSession = some held → session = held) :
    Settles state id command
      (RpcServer.answer { state with codingSession := some session }
        (.failed id command error)) where
  responses := by simp [RpcServer.answer, RpcResponse.failed, RpcState.deferred]
  session := by
    intro held found
    rw [session_idle idle] at found
    simpa [RpcServer.answer, RpcState.session, idle] using taken held found
  continues := rfl

theorem handleSetDefaultAgentProfile_settles {profile : String}
    (calm : state.Admits "set_default_agent_profile" key → Succeeds (profileId profile) →
      Succeeds (state.takeSession replies) → replies.profileKnown = true →
        replies.ran ≠ .panicked) :
    Settles state id "set_default_agent_profile"
      (handleSetDefaultAgentProfile state replies id profile key) := by
  unfold handleSetDefaultAgentProfile
  split
  · exact .early ‹_›
  · rename_i admitted passed
    split
    · exact .failed
    · rename_i named valid
      split
      · exact .failed
      · rename_i session taken
        split
        · rename_i known
          exact .runKeyed (idle_of_admitIdle passed) (fun held => takeSession_held taken)
            (calm (admits_of_admitIdle passed) ⟨named, valid⟩ ⟨session, taken⟩ known)
            (by rintro (_ | _) <;> rfl)
        · exact .putBack (idle_of_admitIdle passed) fun held => takeSession_held taken

theorem handleInvoke_settles {kindName idField emptyTask target task : String}
    (opens : state.Admits command key → trim task ≠ "" → Succeeds (profileId target) →
      Succeeds (state.openOperationSession replies)) :
    Settles state id command (handleInvoke state replies id command kindName idField refusal
      emptyTask kind target task key) := by
  unfold handleInvoke
  split
  · exact .early ‹_›
  · rename_i admitted passed
    have idle := idle_of_admitIdle passed
    split
    · exact .failed
    · rename_i given
      split
      · exact .failed
      · rename_i named valid
        obtain ⟨⟨root, session⟩, opened⟩ := opens (admits_of_admitIdle passed) given ⟨named, valid⟩
        rw [opened]
        dsimp only
        split
        · exact .start idle fun held => openOperationSession_held opened
        · exact .putBack idle fun held => openOperationSession_held opened

theorem handleApproveDelegation_settles
    (roots : state.Admits "approve_delegation" key → state.codingSession ≠ none →
      replies.pending ≠ none → Succeeds (state.sessionRoot replies)) :
    Settles state id "approve_delegation"
      (handleApproveDelegation state replies id operationId toolCallId key) := by
  unfold handleApproveDelegation
  split
  · exact .early ‹_›
  · rename_i admitted passed
    split
    · exact .failed
    · rename_i session held
      split
      · exact .failed
      · rename_i pending asked
        obtain ⟨root, rooted⟩ := roots (admits_of_admitIdle passed)
          (held ▸ Option.some_ne_none session) (asked ▸ Option.some_ne_none pending)
        dsimp only
        rw [rooted]
        exact .start (idle_of_admitIdle passed)
          fun own found => Option.some.inj (held.symm.trans found)

theorem handleRejectDelegation_settles {reason : Option String}
    (calm : state.Admits "reject_delegation" key → state.codingSession ≠ none →
      replies.pending ≠ none → replies.ran ≠ .panicked) :
    Settles state id "reject_delegation"
      (handleRejectDelegation state replies id operationId toolCallId reason key) := by
  unfold handleRejectDelegation
  split
  · exact .early ‹_›
  · rename_i admitted passed
    split
    · exact .failed
    · rename_i session held
      split
      · exact .failed
      · rename_i pending asked
        exact .runKeyed (idle_of_admitIdle passed)
          (fun own found => Option.some.inj (held.symm.trans found))
          (calm (admits_of_admitIdle passed) (held ▸ Option.some_ne_none session)
            (asked ▸ Option.some_ne_none pending)) (by rintro (_ | _) <;> rfl)

theorem handleStreamingPromptControl_settles
    (reads : Succeeds (state.activePromptControl replies)) :
    Settles state id "prompt" (handleStreamingPromptControl state replies id behavior) := by
  obtain ⟨target, control⟩ := reads
  unfold handleStreamingPromptControl
  split
  · exact .failed
  · split
    · exact .failed
    · rw [control]
      cases target with
      | none => exact .failed
      | some operation =>
        dsimp only
        split
        · exact .failed
        · split
          · exact .ok
          · exact .failed

theorem reconnect_frame {replayed : List Protocol.ProtocolEvent}
    (done : reconnectRunningPromptAfter wire state replies = (.ok replayed, after)) :
    after.deferred = state.deferred ∧ after.session = state.session ∧
      after.activePromptControl replies = state.activePromptControl replies := by
  unfold reconnectRunningPromptAfter at done
  split at done
  · rename_i running connection busy connected
    split at done
    · cases done
    · cases done
    · dsimp only at done
      split at done
      · cases done
      · obtain ⟨-, rfl⟩ := Prod.mk.inj done
        refine ⟨?_, ?_, ?_⟩
        · simp [RpcState.deferred, busy, CodingRunningPrompt.deferred]
        · simp [RpcState.session, busy]
        · simp [RpcState.activePromptControl, busy]
  · obtain ⟨-, rfl⟩ := Prod.mk.inj done
    exact ⟨rfl, rfl, rfl⟩

theorem handleStreamingPrompt_settles (recovers : cursor ≠ none → state.Recovers replies)
    (reads : (cursor = none ∨ behavior ≠ none ∧
        ∀ after oldest, replies.reconnected ≠ .ok (.freshSnapshotRequired after oldest)) →
      Succeeds (state.activePromptControl replies)) :
    Settles state id "prompt" (handleStreamingPrompt wire state replies id behavior cursor) := by
  unfold handleStreamingPrompt
  split
  · exact handleStreamingPromptControl_settles (reads (.inl rfl))
  · rename_i sequence
    have recovered := recovers (Option.some_ne_none sequence)
    cases done : reconnectRunningPromptAfter wire state replies with
    | mk result after =>
    cases result with
    | error error =>
      unfold reconnectRunningPromptAfter at done
      split at done
      · rename_i running connection busy connected
        obtain ⟨⟨reply, reconnected⟩, acknowledges⟩ := recovered
          (busy ▸ Option.some_ne_none running) (connected ▸ Option.some_ne_none connection)
        rw [reconnected] at done
        cases reply with
        | freshSnapshotRequired requestedAfter oldestAvailable =>
          -- A gap is answered from the state as it was.
          obtain ⟨gap, rfl⟩ := Prod.mk.inj done
          cases gap
          exact .failed
        | replayed events =>
          obtain ⟨_, acknowledged⟩ := acknowledges events reconnected
          rw [acknowledged] at done
          cases done
      · cases done
    | ok replayed =>
      obtain ⟨deferred, session, same⟩ := reconnect_frame done
      dsimp only
      split
      · refine ⟨⟨?_, fun held found => session.trans found⟩, rfl⟩
        rw [deferred]
        simp [RpcResponse.ok]
      · rename_i own
        have control : Succeeds (after.activePromptControl replies) := by
          rw [same]
          by_cases gap : ∃ requestedAfter oldest,
              replies.reconnected = .ok (.freshSnapshotRequired requestedAfter oldest)
          · -- With a gap the recovery has succeeded only without a connection.
            obtain ⟨requestedAfter, oldest, gap⟩ := gap
            unfold reconnectRunningPromptAfter at done
            rw [gap] at done
            split at done
            · cases done
            · rename_i apart
              unfold RpcState.activePromptControl
              split
              · exact ⟨none, rfl⟩
              · rename_i running busy
                split
                · exact ⟨none, rfl⟩
                · split
                  · exact ⟨none, rfl⟩
                  · rename_i connection connected
                    exact absurd connected (apart running connection busy)
          · push Not at gap
            exact reads (.inr ⟨Option.some_ne_none own, gap⟩)
        have settles : Settles after id "prompt"
            (handleStreamingPromptControl after replies id (some own)) :=
          handleStreamingPromptControl_settles control
        rw [settles.continues]
        refine ⟨⟨?_, fun held found => settles.session held (session.trans found)⟩, rfl⟩
        rw [← deferred]
        simpa using settles.responses

theorem startCodingSessionPrompt_settles (idle : state.running = none)
    (starts : state.Starts replies) :
    Settles state id "prompt" (startCodingSessionPrompt state replies id key) := by
  obtain ⟨⟨⟨root, session⟩, opened⟩, connects, ⟨_, drafted⟩, ⟨_, submitted⟩⟩ := starts
  have settles {before : RpcState σ} : Settles state id "prompt" _ :=
    @Settles.start _ .prompt id key state "prompt" session before root none idle
      fun held => openOperationSession_held opened
  unfold startCodingSessionPrompt
  rw [opened, drafted, submitted]
  dsimp only [RpcState.ensureClientConnection]
  cases connected : state.clientConnection with
  | some connection => exact settles
  | none =>
    obtain ⟨connection, answered⟩ := connects connected
    rw [answered]
    exact settles

theorem handlePrompt_settles {message : String}
    (sound : (RpcCommand.prompt id message images behavior cursor key).Sound state replies) :
    Settles state id "prompt" (handlePrompt wire state replies id images behavior cursor key) := by
  unfold handlePrompt
  split
  · exact .failed
  · rename_i parsed valid
    have own := sound parsed valid
    split
    · rename_i recovering
      rw [if_pos recovering] at own
      obtain ⟨busy, given⟩ := Bool.and_eq_true_iff.mp recovering
      apply handleStreamingPrompt_settles fun _ => own.1
      rintro (absent | ⟨asked, plain⟩)
      · rw [absent] at given
        cases given
      · exact own.2 asked plain
    · rename_i fresh
      rw [if_neg fresh] at own
      split
      · exact .ok
      · exact .failed
      · rename_i unused
        split
        · exact .failed
        · rename_i noImages
          have own := own unused (Bool.eq_false_iff.mpr noImages)
          split
          · rename_i busy
            rw [if_pos busy] at own
            -- With an operation running and no recovery, there is no cursor.
            have absent : cursor = none := by simpa [busy] using fresh
            apply handleStreamingPrompt_settles
            · exact fun given => absurd absent given
            · exact fun _ => own
          · rename_i idle
            rw [if_neg idle] at own
            exact startCodingSessionPrompt_settles (idle_of_not_streaming idle) own

/-- A `new_session` that is not refused lets the session go. -/
def RpcCommand.discards (state : RpcState σ) : RpcCommand → Prop
  | .newSession .. => state.running = none
  | _ => False

attribute [local irreducible] profileId in
theorem handleCommand_settles {command : RpcCommand} (sound : command.Sound state replies) :
    let handled := handleCommand wire views state replies command
    handled.stop = none ∧
      (responded handled.lines ++ handled.state.deferred).Perm
        (keyed command.id command.tag.name ++ state.deferred) ∧
      ∀ held, state.session = some held →
        handled.state.session = some held ∨ command.discards state := by
  dsimp only
  have settled (settles : Settles state command.id command.tag.name
      (handleCommand wire views state replies command)) :
      _ ∧ _ ∧ ∀ held, state.session = some held →
        (handleCommand wire views state replies command).state.session = some held ∨
          command.discards state :=
    ⟨settles.continues, settles.responses, fun held kept => .inl (settles.session held kept)⟩
  cases command with
  | newSession id parent =>
    by_cases streaming : state.isStreaming = true
    · refine settled ?_
      simp only [handleCommand, handleNewSession, streaming, if_true]
      exact .failed
    · have idle := idle_of_not_streaming streaming
      simp only [handleCommand, handleNewSession, if_neg streaming]
      refine ⟨rfl, ?_, fun _ _ => .inr idle⟩
      have frame := (detachClient_frame state replies).1
      change Perm _ (keyed id "new_session" ++ state.deferred)
      rw [← deferred_congr frame]
      simp [RpcServer.answer, RpcResponse.ok, RpcState.deferred]
  | hello id protocol => exact settled (handleHello_settles state id protocol)
  | detach id => exact settled (handleDetach_settles state replies id)
  | shutdown id => exact settled (handleShutdown_settles sound)
  | prompt id message images behavior cursor key => exact settled (handlePrompt_settles sound)
  | steer id message images => exact settled (handleQueued_settles rfl rfl sound)
  | followUp id message images => exact settled (handleQueued_settles rfl rfl sound)
  | abort id => exact settled (handleAbort_settles sound)
  | reload id => exact settled (handleReload_settles sound)
  | pluginCommand id commandId args => exact settled (handlePluginCommand_settles sound)
  | selfHealingEdit id path edits check repairs model key =>
    exact settled (handleSelfHealingEdit_settles sound)
  | listAgentProfiles id => exact settled (handleListProfiles_settles state replies id _ _ _)
  | listTeamProfiles id => exact settled (handleListProfiles_settles state replies id _ _ _)
  | setDefaultAgentProfile id profile key =>
    exact settled (handleSetDefaultAgentProfile_settles sound)
  | invokeAgent id profile task key => exact settled (handleInvoke_settles sound)
  | invokeTeam id team task key => exact settled (handleInvoke_settles sound)
  | listDelegationConfirmations id =>
    refine settled ?_
    simp only [handleCommand, handleListDelegationConfirmations]
    split
    · exact .failed
    · exact .ok
  | approveDelegation id operationId toolCallId key =>
    exact settled (handleApproveDelegation_settles sound)
  | rejectDelegation id operationId toolCallId reason key =>
    exact settled (handleRejectDelegation_settles sound)
  | setSessionName id name =>
    refine settled ?_
    simp only [handleCommand]
    split
    · exact .failed
    · exact .answer rfl rfl rfl rfl
  | _ => exact settled (.answer rfl rfl rfl rfl)

/-- The id and the type that a line asks an answer for; a type that is no string is read as
`unknown`. -/
def asked (wire : Wire) : RpcLoopEvent σ → List (String × String)
  | .input (some line) _ =>
    match wire.serde.fromStr line with
    | some value => keyed (commandId value) (commandType value)
    | none => []
  | _ => []

/-- A pass of the loop that the server comes through: a command that decodes, or whose line has
no id, and makes no call that fails; an operation that reports, and without an error while
the input is open. -/
def Sound (wire : Wire) (loop : Loop σ) : RpcLoopEvent σ → Prop
  | .input (some line) replies =>
    ∀ value, wire.serde.fromStr line = some value →
      isSupportedM5Command (commandType value) = true →
        match RpcCommand.fromValue wire value with
        | none => commandId value = none
        | some command => command.Sound loop.state replies
  | .codingPromptDone _ outcome _ =>
    match outcome with
    | none => False
    | some outcome => loop.inputClosed = true ∨ outcome.error? = none
  | _ => True

/-- The event is a `new_session` that the server does not refuse. -/
def Discards (wire : Wire) (loop : Loop σ) : RpcLoopEvent σ → Prop
  | .input (some line) _ =>
    ∃ value command, wire.serde.fromStr line = some value ∧
      RpcCommand.fromValue wire value = some command ∧ command.discards loop.state
  | _ => False

/-- What one pass does: it answers what it is asked, keeps the session and the loop goes on,
or ends with nothing left to do. -/
structure Passes (wire : Wire) (loop : Loop σ) (event : RpcLoopEvent σ) (next : Loop σ) :
    Prop where
  responses : (responded next.written ++ next.state.deferred).Perm
    (responded loop.written ++ loop.state.deferred ++ asked wire event)
  session : ∀ held, loop.state.session = some held →
    next.state.session = some held ∨ Discards wire loop event
  ends : next.returned.isSome → next.inputClosed = true ∧ next.state.running = none

theorem turn_state (loop : Loop σ) :
    loop.turn.state = loop.state ∧ loop.turn.written = loop.written ∧
      loop.turn.inputClosed = loop.inputClosed := by
  unfold Loop.turn
  split
  · exact ⟨rfl, rfl, rfl⟩
  · exact ⟨rfl, rfl, rfl⟩

theorem turn_ends (open_ : loop.returned = none) (ended : loop.turn.returned.isSome) :
    loop.turn.inputClosed = true ∧ loop.turn.state.running = none := by
  unfold Loop.turn at ended ⊢
  split at ended
  · rename_i head
    rw [if_pos head]
    simp only [Bool.and_eq_true, Bool.not_eq_true'] at head
    exact ⟨head.1.2, idle_of_not_streaming (Bool.eq_false_iff.mp head.2)⟩
  · rw [open_] at ended
    cases ended

theorem handleInputLine_passes (views : Views σ) {line : String}
    (sound : Sound wire loop (.input (some line) replies)) :
    let handled := handleInputLine wire views loop.state replies line
    handled.stop = none ∧
      (responded handled.lines ++ handled.state.deferred).Perm
        (asked wire (.input (some line) replies : RpcLoopEvent σ) ++ loop.state.deferred) ∧
      ∀ held, loop.state.session = some held → handled.state.session = some held ∨
        Discards wire loop (.input (some line) replies) := by
  dsimp only
  unfold handleInputLine
  cases parsed : wire.serde.fromStr line with
  | none =>
    refine ⟨rfl, ?_, fun held kept => .inl kept⟩
    simp [asked, parsed, answer, RpcResponse.failed]
  | some value =>
    have own := sound value parsed
    dsimp only
    split
    · rename_i supported
      have own := own supported
      cases read : RpcCommand.fromValue wire value with
      | none =>
        rw [read] at own
        refine ⟨rfl, ?_, fun held kept => .inl kept⟩
        simp [asked, parsed, answer, RpcResponse.failed, own]
      | some command =>
        rw [read] at own
        obtain ⟨continues, responses, session⟩ := handleCommand_settles own
        obtain ⟨sameId, sameTag⟩ := RpcCommand.of_fromValue read
        refine ⟨continues, ?_, fun held kept => ?_⟩
        · simpa only [asked, parsed, ← sameId, ← sameTag] using responses
        · exact (session held kept).imp_right
            fun discards => ⟨value, command, parsed, read, discards⟩
    · refine ⟨rfl, ?_, fun held kept => .inl kept⟩
      simp [asked, parsed, answer, RpcResponse.failed]

theorem receiveCodingEvent_passes (wire : Wire) (busy : state.running = some running)
    (item : Option Rpc.RpcQueuedProductEvent) :
    let handled := receiveCodingEvent wire state running item
    handled.stop = none ∧ responded handled.lines = [] ∧
      handled.state.deferred = state.deferred ∧ handled.state.session = state.session := by
  have deferred : ∀ stream, ({ state with running := some { running with stream } } :
      RpcState σ).deferred = state.deferred := fun stream => by
    simp [RpcState.deferred, busy, CodingRunningPrompt.deferred]
  have session : ∀ stream, ({ state with running := some { running with stream } } :
      RpcState σ).session = state.session := fun stream => by
    simp [RpcState.session, busy]
  cases item with
  | none => exact ⟨rfl, rfl, deferred _, session _⟩
  | some item =>
    cases item with
    | overflow skipped => exact ⟨rfl, rfl, deferred _, session _⟩
    | event event => exact ⟨rfl, responded_events _, deferred _, session _⟩

theorem recordPrompt_running (state : RpcState σ) (root : Option String)
    (outcome : CodingOperationOutcome) :
    (recordPrompt state root outcome).running = state.running := by
  unfold recordPrompt
  split
  · split
    · rfl
    · rfl
  · rfl

theorem finish_passes (wire : Wire) (busy : state.running = some running)
    (queue : List Rpc.RpcQueuedProductEvent) (outcome : CodingOperationOutcome)
    (shutdown : CodingAgentShutdownOutcome) :
    let handled := finishCodingRunningPrompt wire state queue (some outcome) shutdown
    handled.stop = outcome.error?.map .error ∧ responded handled.lines = state.deferred ∧
      handled.state.running = none ∧ handled.state.session = state.session := by
  have idle : (finishCodingRunningPrompt wire state queue (some outcome) shutdown).state.running =
      none := by
    unfold finishCodingRunningPrompt
    rw [busy]
    exact recordPrompt_running _ _ _
  refine ⟨?_, ?_, idle, ?_⟩
  · unfold finishCodingRunningPrompt
    rw [busy]
  · unfold finishCodingRunningPrompt
    rw [busy]
    simp only [responded_append, responded_drainQueue, nil_append, RpcState.deferred, busy,
      Option.map_some, Option.getD_some, CodingRunningPrompt.deferred]
    cases running.pendingShutdownResponse with
    | none => rfl
    | some id => exact responded_shutdownLines id shutdown
  · rw [session_idle idle]
    unfold finishCodingRunningPrompt
    rw [busy]
    simp [RpcState.session, busy]

theorem step_open (taken : step wire views event loop = some next) : loop.returned = none := by
  unfold step at taken
  split at taken
  · cases taken
  · simpa using ‹¬loop.returned.isSome = true›

theorem step_passes (sound : Sound wire loop event)
    (taken : step wire views event loop = some next) : Passes wire loop event next := by
  have open_ := step_open taken
  unfold step at taken
  rw [if_neg (by simp [open_])] at taken
  split at taken
  · rename_i line replies
    split at taken
    · cases taken
    · rename_i reading
      split at taken
      · -- The input ends.
        obtain rfl := Option.some.inj taken
        obtain ⟨state, written, -⟩ := turn_state { loop with inputClosed := true }
        refine ⟨?_, ?_, turn_ends open_⟩
        · rw [state, written]
          simp [asked]
        · rw [state]
          exact fun held kept => .inl kept
      · rename_i line
        obtain rfl := Option.some.inj taken
        obtain ⟨continues, responses, session⟩ := handleInputLine_passes views sound
        obtain ⟨state, written, -⟩ :=
          turn_state (loop.after (handleInputLine wire views loop.state replies line))
        refine ⟨?_, ?_, turn_ends ?_⟩
        · rw [state, written]
          simp only [Loop.after, responded_append, append_assoc]
          exact (responses.trans perm_append_comm).append_left _
        · rw [state]
          exact session
        · simp [Loop.after, continues]
  · rename_i item running busy
    split at taken
    · cases taken
    · obtain rfl := Option.some.inj taken
      obtain ⟨continues, silent, deferred, session⟩ := receiveCodingEvent_passes wire busy item
      obtain ⟨state, written, -⟩ :=
        turn_state (loop.after (receiveCodingEvent wire loop.state running item))
      refine ⟨?_, ?_, turn_ends ?_⟩
      · rw [state, written]
        simp [Loop.after, silent, deferred, asked]
      · rw [state]
        exact fun held kept => .inl (session.trans kept)
      · simp [Loop.after, continues]
  · rename_i queue outcome shutdown running busy
    obtain rfl := Option.some.inj taken
    cases outcome with
    | none => exact absurd sound id
    | some outcome =>
      obtain ⟨stop, responses, idle, session⟩ := finish_passes wire busy queue outcome shutdown
      obtain ⟨state, written, closed⟩ := turn_state
        (loop.after (finishCodingRunningPrompt wire loop.state queue (some outcome) shutdown))
      refine ⟨?_, ?_, ?_⟩
      · rw [state, written]
        simp [Loop.after, responses, deferred_idle idle, asked]
      · rw [state]
        exact fun held kept => .inl (session.trans kept)
      · intro ended
        rcases sound with inputClosed | succeeded
        · exact ⟨closed.trans inputClosed, state.symm ▸ idle⟩
        · exact turn_ends (by simp [Loop.after, stop, succeeded]) ended
  · cases taken

/-- What the server owes in a run: at every point each line that asks with an id has its one
response, or is the shutdown that waits for the running operation; the loop has returned only
with its input closed and nothing running; and no step loses the session, but a `new_session`. -/
structure Served (wire : Wire) (views : Views σ) (start : Loop σ)
    (events : List (RpcLoopEvent σ)) : Prop where
  answered : ∀ earlier later loop, events = earlier ++ later →
    run wire views earlier start = some loop →
      (responded loop.written ++ loop.state.deferred).Perm (earlier.flatMap (asked wire))
  ends : ∀ earlier later loop, events = earlier ++ later →
    run wire views earlier start = some loop → loop.returned.isSome →
      loop.inputClosed = true ∧ loop.state.running = none
  keeps : ∀ earlier event later loop next, events = earlier ++ event :: later →
    run wire views earlier start = some loop → step wire views event loop = some next →
      ∀ held, loop.state.session = some held →
        next.state.session = some held ∨ Discards wire loop event

theorem run_append_singleton (wire : Wire) (views : Views σ) (events : List (RpcLoopEvent σ))
    (event : RpcLoopEvent σ) (start : Loop σ) :
    run wire views (events ++ [event]) start =
      (run wire views events start).bind (step wire views event) := by
  simp [run, foldlM_append]

/-- The server serves every run whose passes are all sound. -/
theorem served_of_sound (wire : Wire) (views : Views σ) (options : SessionRunOptions)
    (adapter : Protocol.CodingProtocolEventAdapter) (events : List (RpcLoopEvent σ))
    (sound : ∀ earlier event later loop, events = earlier ++ event :: later →
      run wire views earlier (Loop.start options adapter) = some loop →
        (step wire views event loop).isSome → Sound wire loop event) :
    Served wire views (Loop.start options adapter) events := by
  have keeps : ∀ earlier event later loop next, events = earlier ++ event :: later →
      run wire views earlier (Loop.start options adapter) = some loop →
        step wire views event loop = some next → Passes wire loop event next :=
    fun earlier event later loop next split ran taken =>
      step_passes (sound earlier event later loop split ran (taken ▸ rfl)) taken
  have reached : ∀ earlier later loop, events = earlier ++ later →
      run wire views earlier (Loop.start options adapter) = some loop →
        (responded loop.written ++ loop.state.deferred).Perm (earlier.flatMap (asked wire)) ∧
          (loop.returned.isSome → loop.inputClosed = true ∧ loop.state.running = none) := by
    intro earlier
    induction earlier using reverseRecOn with
    | nil =>
      intro later loop _ ran
      obtain rfl : Loop.start options adapter = loop := Option.some.inj ran
      exact ⟨Perm.refl _, nofun⟩
    | append_singleton earlier event ih =>
      intro later loop split ran
      rw [run_append_singleton] at ran
      obtain ⟨before, ranBefore, taken⟩ := Option.bind_eq_some_iff.mp ran
      rw [append_assoc] at split
      have passes := keeps earlier event later before loop split ranBefore taken
      refine ⟨?_, passes.ends⟩
      rw [flatMap_append, flatMap_singleton]
      exact passes.responses.trans ((ih ([event] ++ later) before split ranBefore).1.append_right _)
  exact ⟨fun earlier later loop split ran => (reached earlier later loop split ran).1,
    fun earlier later loop split ran => (reached earlier later loop split ran).2,
    fun earlier event later loop next split ran taken =>
      (keeps earlier event later loop next split ran taken).session⟩

section Examples

/-- `{"id":"1","type":"steer"}`, which has no message. -/
def steerLine : String := "\x7b\"id\":\"1\",\"type\":\"steer\"\x7d"

def promptLine : String := "\x7b\"id\":\"2\",\"type\":\"prompt\",\"message\":\"hi\"\x7d"

def exampleWire : Wire where
  serde :=
    { fromStr := fun line =>
        if line = steerLine then some (.object [("id", .string "1"), ("type", .string "steer")])
        else if line = promptLine then
          some (.object [("id", .string "2"), ("type", .string "prompt"),
            ("message", .string "hi")])
        else none
      print := fun _ => ""
      fromStr_empty := by decide }
  contentBlock := fun _ => none
  parseError := fun _ => ""
  decodeError := fun _ => "missing field message"

def exampleViews : Views Unit where
  sessionState := fun _ => .null
  sessionStats := fun _ => .null
  lastAssistantText := fun _ => .null
  messages := fun _ => .null
  agentProfilesData := fun _ => .null
  teamProfilesData := fun _ => .null

/-- Nothing that the server asks for is refused. -/
def exampleReplies : Replies Unit where
  resolvedSessionDir := .ok "sessions"
  created := .ok ()
  listing := .ok .null
  profileKnown := true
  confirmations := []
  pending := none
  connected := .ok ⟨"rpc-primary", 1⟩
  promptDraft := .ok ()
  submission := .ok ()
  connectionState := .ok (some "op_1")
  control := .ok ()
  reconnected := .ok (.replayed [])
  acknowledged := .ok ()
  detached := .ok .detached
  shutdown := .shutDown
  pluginLoad := .ok .null
  ran := .ok .null
  drained := {}

def exampleStart : Loop Unit :=
  .start ⟨false, none⟩ ⟨"api", "provider", "model", [], none, [], false⟩

def malformed : List (RpcLoopEvent Unit) := [.input (some steerLine) exampleReplies]

/-- A prompt whose task panics while the input is open. -/
def panickedPrompt : List (RpcLoopEvent Unit) :=
  [.input (some promptLine) exampleReplies, .codingPromptDone [] none .shutDown]

end Examples

def failedPrompt : List (RpcLoopEvent Unit) :=
  [.input (some promptLine) exampleReplies,
    .codingPromptDone [] (some (.prompt (.ok .failed))) .shutDown]

theorem exampleSound : Sound exampleWire exampleStart
    (.input (some promptLine) exampleReplies) := by
  intro value parsed supported
  have same : exampleWire.serde.fromStr promptLine = some (.object [("id", .string "2"),
      ("type", .string "prompt"), ("message", .string "hi")]) := by
    simp [exampleWire, promptLine, steerLine]
  rw [same] at parsed
  obtain rfl := Option.some.inj parsed
  have read : RpcCommand.fromValue exampleWire (.object [("id", .string "2"),
      ("type", .string "prompt"), ("message", .string "hi")]) =
        some (.prompt (some "2") "hi" none none none none) := by
    rfl
  rw [read]
  intro key parsed
  exact fun _ _ => ⟨⟨(none, ()), rfl⟩, fun _ => ⟨_, rfl⟩, ⟨(), rfl⟩, ⟨(), rfl⟩⟩

/-- The malformed command is answered without its id; the panic ends the loop. -/
theorem served_fails : ¬Served exampleWire exampleViews exampleStart malformed ∧
    ¬Served exampleWire exampleViews exampleStart panickedPrompt := by
  constructor
  · intro served
    have unanswered : (run exampleWire exampleViews malformed exampleStart).map
        (fun loop => responded loop.written ++ loop.state.deferred) = some [] := by decide
    obtain ⟨loop, ran, nothing⟩ := Option.map_eq_some_iff.mp unanswered
    have owed := served.answered malformed [] loop (append_nil _).symm ran
    rw [nothing, nil_perm] at owed
    have one : malformed.flatMap (asked exampleWire) = [("1", "steer")] := by decide
    rw [one] at owed
    cases owed
  · intro served
    have ended : (run exampleWire exampleViews panickedPrompt exampleStart).map
        (fun loop => (loop.returned.isSome, loop.inputClosed)) = some (true, false) := by
      decide
    obtain ⟨loop, ran, facts⟩ := Option.map_eq_some_iff.mp ended
    obtain ⟨returned, still⟩ := Prod.mk.inj facts
    obtain ⟨closed, -⟩ := served.ends panickedPrompt [] loop (append_nil _).symm ran returned
    rw [still] at closed
    cases closed

theorem served_failedPrompt : Served exampleWire exampleViews exampleStart failedPrompt := by
  apply served_of_sound
  intro earlier event later loop split ran _
  match earlier with
  | [] =>
    obtain ⟨rfl, -⟩ := cons.inj split
    obtain rfl : exampleStart = loop := Option.some.inj ran
    exact exampleSound
  | [first] =>
    obtain ⟨-, split⟩ := cons.inj split
    obtain ⟨rfl, -⟩ := cons.inj split
    exact .inr rfl
  | first :: second :: rest =>
    have short := congrArg length split
    simp [failedPrompt] at short

end PiRust.RpcServer
