import PiRust.AgentRun

/- `harness.rs`: registered handlers, prompt streams and the hook that a prompt installs in
the agent. What a handler makes of its input is told by the steps. -/
namespace PiRust.Harness

open List

/-- `HarnessHookKind` -/
inductive HookKind where
  | context
  | beforeAgentStart
  | beforeProviderRequest
  | beforeProviderPayload
  | afterProviderResponse
  | getApiKeyAndHeaders
  deriving DecidableEq, Repr

structure HarnessContext where
  messages : List AgentMessage
  systemPrompt : Option String

structure AgentHarnessHooks where
  beforeAgentStart : Bool := false
  context : Bool := false
  beforeProviderRequest : Bool := false
  beforeProviderPayload : Bool := false
  afterProviderResponse : Bool := false
  getApiKeyAndHeaders : Bool := false

def AgentHarnessHooks.has (hooks : AgentHarnessHooks) : HookKind → Bool
  | .context => hooks.context
  | .beforeAgentStart => hooks.beforeAgentStart
  | .beforeProviderRequest => hooks.beforeProviderRequest
  | .beforeProviderPayload => hooks.beforeProviderPayload
  | .afterProviderResponse => hooks.afterProviderResponse
  | .getApiKeyAndHeaders => hooks.getApiKeyAndHeaders

/-- The harness as it is built: its hooks, and whether the agent's own configuration has a
hook for provider requests (`base_before_provider_request_hook`). -/
structure Setup where
  hooks : AgentHarnessHooks := {}
  base : Bool := false

structure OnHandlerRegistry where
  nextId : Nat := 0
  entries : HookKind → List Nat := fun _ => []

/-- The identifier and the registration of `on`, under one lock. -/
def OnHandlerRegistry.register (registry : OnHandlerRegistry) (kind : HookKind) :
    OnHandlerRegistry where
  nextId := registry.nextId + 1
  entries := fun other =>
    if other = kind then registry.entries kind ++ [registry.nextId + 1] else registry.entries other

def OnHandlerRegistry.unregister (registry : OnHandlerRegistry) (kind : HookKind) (id : Nat) :
    OnHandlerRegistry :=
  { registry with
    entries := fun other =>
      if other = kind then (registry.entries kind).filter (· ≠ id) else registry.entries other }

/-- A hook that is called: of the agent's configuration, of the harness, registered by `on`, or
in the stream options of the request already. -/
inductive Handler where
  | base
  | configured (kind : HookKind)
  | registered (kind : HookKind) (id : Nat)
  | prior
  deriving DecidableEq, Repr

def consult {γ : Type} (answer : Handler → γ → Except String (Option γ)) :
    List Handler → γ → List Handler × Except String γ
  | [], input => ([], .ok input)
  | handler :: rest, input =>
    match answer handler input with
    | .error error => ([handler], .error error)
    | .ok updated =>
      let consulted := consult answer rest (updated.getD input)
      (handler :: consulted.1, consulted.2)

def handlersOf (hooks : AgentHarnessHooks) (entries : HookKind → List Nat) (kind : HookKind) :
    List Handler :=
  (if hooks.has kind then [.configured kind] else []) ++
    (entries kind).map (Handler.registered kind)

def requestHandlers (setup : Setup) (entries : HookKind → List Nat) : List Handler :=
  (if setup.base then [.base] else []) ++
    (handlersOf setup.hooks entries .getApiKeyAndHeaders ++
      handlersOf setup.hooks entries .beforeProviderRequest)

/-- What the agent's configuration holds in `hooks.before_provider_request`: the hook that it
was built with, or one of `make_provider_request_hook`. -/
inductive ProviderHook where
  | base
  | made (setup : Setup) (onSnapshot : OnHandlerRegistry)

/-- A call of the hook on the context of a request. -/
def ProviderHook.call (answer : Handler → Context → Except String (Option Context))
    (context : Context) :
    ProviderHook → List Handler × Except String (Option BeforeProviderRequestResult)
  | .base => ([.base], (answer .base context).map (Option.map fun updated => ⟨some updated⟩))
  | .made setup onSnapshot =>
    let consulted := consult answer (requestHandlers setup onSnapshot.entries) context
    (consulted.1, consulted.2.map fun context => some ⟨some context⟩)

def makesStreamHooks (hooks : AgentHarnessHooks) (onSnapshot : OnHandlerRegistry) : Bool :=
  hooks.beforeProviderPayload || hooks.afterProviderResponse ||
    !(onSnapshot.entries .beforeProviderPayload).isEmpty ||
    !(onSnapshot.entries .afterProviderResponse).isEmpty

/-- The handlers for the payload or the response of a request that the hook has seen;
`make_stream_hooks` puts those that the stream options had first. -/
def streamHandlers (kind : HookKind) (prior : Bool) : Option ProviderHook → List Handler
  | some (.made setup onSnapshot) =>
    (if prior then [.prior] else []) ++
      if makesStreamHooks setup.hooks onSnapshot then
        handlersOf setup.hooks onSnapshot.entries kind
      else []
  | _ => if prior then [.prior] else []

def needsProviderHook (setup : Setup) (onSnapshot : OnHandlerRegistry) : Bool :=
  setup.base || setup.hooks.beforeProviderRequest || setup.hooks.beforeProviderPayload ||
    setup.hooks.afterProviderResponse || setup.hooks.getApiKeyAndHeaders ||
    !(onSnapshot.entries .beforeProviderRequest).isEmpty ||
    !(onSnapshot.entries .beforeProviderPayload).isEmpty ||
    !(onSnapshot.entries .afterProviderResponse).isEmpty ||
    !(onSnapshot.entries .getApiKeyAndHeaders).isEmpty

inductive AgentHarnessPhase where
  | idle
  | turn
  | compaction
  | branchSummary
  deriving DecidableEq, Repr

/-- Where a prompt stream stands: not polled yet, past the busy check, with the agent
running, or ended. -/
inductive Stage where
  | created
  | polled
  | running
  | over
  deriving DecidableEq, Repr

/-- What a prompt stream has captured. -/
structure Prompt where
  messages : List AgentMessage
  onSnapshot : OnHandlerRegistry
  stage : Stage

structure World where
  agent : PiRust.World
  providerHook : Option ProviderHook
  registry : OnHandlerRegistry
  phase : AgentHarnessPhase
  prompts : List Prompt

/-- When handlers are called. -/
inductive Occasion where
  | beforeAgentStart
  | context
  | providerRequest
  | stream (kind : HookKind) (prior : Bool)
  deriving DecidableEq, Repr

/-- What a step lets be seen: the agent's messages when a prompt is first polled, the messages
that it starts from, the handlers called for it and whether the last of them failed. -/
inductive Note where
  | polled (prompt : Nat) (held : List AgentMessage)
  | started (prompt : Nat) (messages : List AgentMessage)
  | invoked (prompt : Nat) (occasion : Occasion) (handlers : List Handler) (failed : Bool)

/-- Calls on the harness, and the steps of its prompt streams. -/
inductive Label where
  | on (kind : HookKind)
  | subscribe
  | dropGuard (kind : HookKind) (id : Nat)
  | addMessage (message : AgentMessage)
  | steer (count : Nat) (text : String)
  | followUp (count : Nat) (text : String)
  | abort
  | prompt (text : String)
  | poll (prompt : Nat)
  | launch (prompt : Nat)
      (answer : Handler → HarnessContext → Except String (Option HarnessContext))
  | snapshot (prompt : Nat)
  | enter (prompt : Nat)
  | runNode (prompt : Nat) (answers : Answers)
      (answer : Handler → Context → Except String (Option Context))
  | payload (prompt : Nat) (prior : Bool) (payload : Value)
      (answer : Handler → Value → Except String (Option Value))
  | response (prompt : Nat) (prior : Bool) (answer : Handler → Except String Unit)
  | apply (prompt : Nat)
  | finish (prompt : Nat)
  | cancel (prompt : Nat)

section Steps

variable (serde : Serde) (setup : Setup)

/-- `AgentHarness::new` and `with_hooks`. -/
def World.start (state : AgentState) : World where
  agent := ⟨state, .idle⟩
  providerHook := if setup.base then some .base else none
  registry := {}
  phase := .idle
  prompts := []

def World.stage? (world : World) (i : Nat) : Option Stage := (world.prompts[i]?).map Prompt.stage

def World.setStage (world : World) (i : Nat) (stage : Stage) : World :=
  { world with prompts := world.prompts.modify i fun prompt => { prompt with stage := stage } }

/-- The part of `prompt` that runs when it is called. -/
def prompt (text : String) (world : World) : World :=
  let held := world.agent.state.messages
  let messages := held ++ [.userText ("user_" ++ toString held.length) text]
  { world with prompts := world.prompts ++ [⟨messages, world.registry, .created⟩] }

def poll (i : Nat) (world : World) : World × List Note :=
  if world.phase = .idle then
    ({ world.setStage i .polled with phase := .turn }, [.polled i world.agent.state.messages])
  else (world.setStage i .over, [])

/-- The end of a stream: its guards are dropped. -/
def settle (i : Nat) (world : World) : World := { world.setStage i .over with phase := .idle }

def failed {γ : Type} : Except String γ → Bool
  | .error _ => true
  | .ok _ => false

def startRun (i : Nat) (onSnapshot : OnHandlerRegistry) (messages : List AgentMessage)
    (world : World) : World :=
  let state := { world.agent.state with messages := messages }
  let hook :=
    if needsProviderHook setup onSnapshot then some (.made setup onSnapshot)
    else world.providerHook
  match AgentRun.run ⟨state, world.agent.phase⟩ with
  | some agent => { world.setStage i .running with agent := agent, providerHook := hook }
  | none =>
    settle i { world with agent := ⟨state, world.agent.phase⟩, providerHook := hook }

def launch (i : Nat) (launched : Prompt)
    (answer : Handler → HarnessContext → Except String (Option HarnessContext)) (world : World) :
    World × List Note :=
  let entries := launched.onSnapshot.entries
  let begun := consult answer (handlersOf setup.hooks entries .beforeAgentStart)
    ⟨launched.messages, none⟩
  let first := Note.invoked i .beforeAgentStart begun.1 (failed begun.2)
  match begun.2 with
  | .error _ => (settle i world, [first])
  | .ok context =>
    let prepared := consult answer (handlersOf setup.hooks entries .context) context
    let second := Note.invoked i .context prepared.1 (failed prepared.2)
    match prepared.2 with
    | .error _ => (settle i world, [first, second])
    | .ok context =>
      (startRun setup i launched.onSnapshot context.messages world,
        [first, second, .started i context.messages])

def pendingRequest (agent : PiRust.World) : Option ProviderRequestSnapshot :=
  match agent.phase with
  | .inside ctx cursor =>
    if cursor.current = .applyBeforeProviderRequestHook then ctx.providerRequest else none
  | _ => none

def streaming (agent : PiRust.World) : Bool :=
  match agent.phase with
  | .inside _ cursor => cursor.current = .providerStream
  | _ => false

def runNode (i : Nat) (answers : Answers)
    (answer : Handler → Context → Except String (Option Context)) (world : World) :
    Option (World × List Note) :=
  let ran := fun answers notes =>
    (AgentRun.step serde (.runNode answers) world.agent).map fun agent =>
      ({ world with agent := agent }, notes)
  match pendingRequest world.agent with
  | none => ran answers []
  | some request =>
    match world.providerHook with
    | none =>
      ran { answers with beforeProviderRequest := none } [.invoked i .providerRequest [] false]
    | some hook =>
      let called := hook.call answer request.context
      ran { answers with beforeProviderRequest := some called.2 }
        [.invoked i .providerRequest called.1 (failed called.2)]

def callStream {γ : Type} (i : Nat) (kind : HookKind) (prior : Bool) (input : γ)
    (answer : Handler → γ → Except String (Option γ)) (world : World) : World × List Note :=
  let consulted := consult answer (streamHandlers kind prior world.providerHook) input
  (world, [.invoked i (.stream kind prior) consulted.1 (failed consulted.2)])

def onAgent (label : PiRust.Label) (world : World) : Option (World × List Note) :=
  (AgentRun.step serde label world.agent).map fun agent => ({ world with agent := agent }, [])

/-- Only a stream that stands there takes the step. -/
def whenAt (i : Nat) (stage : Stage) (world : World) (taken : Option (World × List Note)) :
    Option (World × List Note) :=
  if world.stage? i = some stage then taken else none

def step : Label → World → Option (World × List Note)
  | .on kind, world => some ({ world with registry := world.registry.register kind }, [])
  | .subscribe, world =>
    -- observers draw their identifiers from the same counter
    some ({ world with registry := { world.registry with nextId := world.registry.nextId + 1 } },
      [])
  | .dropGuard kind id, world =>
    some ({ world with registry := world.registry.unregister kind id }, [])
  | .addMessage message, world =>
    some ({ world with
      agent.state.messages := world.agent.state.messages ++ [message] }, [])
  | .steer count text, world => onAgent serde (.steer count text) world
  | .followUp count text, world => onAgent serde (.followUp count text) world
  | .abort, world =>
    -- both queues are drained before the token is cancelled
    let agent := world.agent
    let steering := AgentRun.withMailbox agent agent.state.toMailbox.drainSteeringQueue.2
    let drained := AgentRun.withMailbox steering steering.state.toMailbox.drainFollowUpQueue.2
    some ({ world with agent := { drained with state.cancelled := true } }, [])
  | .prompt text, world => some (prompt text world, [])
  | .poll i, world => whenAt i .created world (some (poll i world))
  | .launch i answer, world =>
    match world.prompts[i]? with
    | some launched => whenAt i .polled world (some (launch setup i launched answer world))
    | none => none
  | .snapshot i, world => whenAt i .running world (onAgent serde .snapshot world)
  | .enter i, world => whenAt i .running world (onAgent serde .enter world)
  | .runNode i answers answer, world =>
    whenAt i .running world (runNode serde i answers answer world)
  | .payload i prior payload answer, world =>
    if streaming world.agent then
      whenAt i .running world (some (callStream i .beforeProviderPayload prior payload answer world))
    else none
  | .response i prior answer, world =>
    if streaming world.agent then
      -- what a handler returns for a response is dropped, an error is not
      whenAt i .running world (some (callStream i .afterProviderResponse prior ()
        (fun handler _ => (answer handler).map fun _ => none) world))
    else none
  | .apply i, world => whenAt i .running world (onAgent serde .apply world)
  | .finish i, world =>
    match world.agent.phase with
    | .idle => whenAt i .running world (some (settle i world, []))
    | _ => none
  | .cancel i, world =>
    match world.stage? i with
    | some .created => some (world.setStage i .over, [])
    | some .polled => some (settle i world, [])
    | some .running => some (settle i { world with agent.phase := .idle }, [])
    | _ => none

end Steps

def Called (handlers : List Handler) (failed : Bool) (expected : List Handler) : Prop :=
  if failed then handlers ≠ [] ∧ handlers <+: expected else handlers = expected

theorem consult_called {γ : Type} (answer : Handler → γ → Except String (Option γ))
    (handlers : List Handler) (input : γ) :
    Called (consult answer handlers input).1 (failed (consult answer handlers input).2)
      handlers := by
  induction handlers generalizing input with
  | nil => rfl
  | cons handler rest ih =>
    unfold consult
    cases answered : answer handler input with
    | error error =>
      exact ⟨cons_ne_nil _ _, cons_prefix_cons.mpr ⟨rfl, nil_prefix⟩⟩
    | ok updated =>
      have later := ih (updated.getD input)
      simp only [Called] at later ⊢
      split at later
      · rename_i fails
        rw [if_pos fails]
        exact ⟨cons_ne_nil _ _, cons_prefix_cons.mpr ⟨rfl, later.2⟩⟩
      · rename_i fine
        rw [if_neg fine, later]

theorem Called.subset {handlers all : List Handler} {failed : Bool}
    (called : Called handlers failed all) : handlers ⊆ all := by
  unfold Called at called
  split at called
  · exact called.2.subset
  · exact called ▸ List.Subset.refl handlers

theorem failed_map {γ δ : Type} (change : γ → δ) (result : Except String γ) :
    failed (result.map change) = failed result := by
  cases result <;> rfl

def handlersAt (hook : Option ProviderHook) : Occasion → List Handler
  | .providerRequest =>
    match hook with
    | none => []
    | some .base => [.base]
    | some (.made setup onSnapshot) => requestHandlers setup onSnapshot.entries
  | .stream kind prior => streamHandlers kind prior hook
  | _ => []

theorem call_called (hook : ProviderHook)
    (answer : Handler → Context → Except String (Option Context)) (context : Context) :
    Called (hook.call answer context).1 (failed (hook.call answer context).2)
      (handlersAt (some hook) .providerRequest) := by
  cases hook with
  | base =>
    simp only [ProviderHook.call, handlersAt, failed_map]
    cases answer .base context with
    | error error => exact ⟨cons_ne_nil _ _, prefix_refl _⟩
    | ok updated => rfl
  | made setup onSnapshot =>
    simp only [ProviderHook.call, handlersAt, failed_map]
    exact consult_called answer _ context

/-- The streams, the phase and the installed hook stay as they are. -/
structure Kept (world after : World) : Prop where
  prompts : after.prompts = world.prompts
  phase : after.phase = world.phase
  hook : after.providerHook = world.providerHook

/-- What a step does, and whom it calls. -/
inductive Effect (setup : Setup) (world : World) : Label → World → List Note → Prop
  | quiet {label : Label} {after : World} (kept : Kept world after) :
      Effect setup world label after []
  | called {label : Label} {after : World} (i : Nat) (occasion : Occasion)
      (handlers : List Handler) (fails : Bool) (running : world.stage? i = some .running)
      (kept : Kept world after)
      (during : occasion = .providerRequest ∨
        ∃ prior, occasion = .stream .beforeProviderPayload prior ∨
          occasion = .stream .afterProviderResponse prior)
      (called : Called handlers fails (handlersAt world.providerHook occasion)) :
      Effect setup world label after [.invoked i occasion handlers fails]
  | created (text : String) : Effect setup world (.prompt text) (prompt text world) []
  | polled (i : Nat) (fresh : world.stage? i = some .created) :
      Effect setup world (.poll i) (poll i world).1 (poll i world).2
  | launched (i : Nat) (launched : Prompt) (found : world.prompts[i]? = some launched)
      (polled : launched.stage = .polled)
      (answer : Handler → HarnessContext → Except String (Option HarnessContext)) :
      Effect setup world (.launch i answer) (launch setup i launched answer world).1
        (launch setup i launched answer world).2
  | withdrawn (i : Nat) (fresh : world.stage? i = some .created) :
      Effect setup world (.cancel i) (world.setStage i .over) []
  | ended {label : Label} (i : Nat) (agent : PiRust.World)
      (stood : world.stage? i = some .polled ∨ world.stage? i = some .running) :
      Effect setup world label (settle i { world with agent := agent }) []

section Effects

variable {serde : Serde} {setup : Setup} {world after : World} {notes : List Note}
variable {i : Nat} {stage : Stage} {label : Label}
variable {result : World × List Note} {j : Nat}

theorem whenAt_eq {taken : Option (World × List Note)}
    (stood : whenAt i stage world taken = some result) :
    world.stage? i = some stage ∧ taken = some result := by
  unfold whenAt at stood
  split at stood
  · exact ⟨‹_›, stood⟩
  · cases stood

theorem result_eq (same : some result = some (after, notes)) :
    result.1 = after ∧ result.2 = notes := by
  rw [Option.some.inj same]
  exact ⟨rfl, rfl⟩

theorem onAgent_kept {label : PiRust.Label}
    (taken : onAgent serde label world = some (after, notes)) :
    Kept world after ∧ notes = [] := by
  obtain ⟨agent, _, same⟩ := Option.map_eq_some_iff.mp taken
  cases same
  exact ⟨⟨rfl, rfl, rfl⟩, rfl⟩

theorem runNode_effect {answers : Answers}
    {answer : Handler → Context → Except String (Option Context)}
    (running : world.stage? i = some .running)
    (taken : runNode serde i answers answer world = some (after, notes)) :
    Effect setup world (.runNode i answers answer) after notes := by
  unfold runNode at taken
  simp only at taken
  split at taken
  · obtain ⟨agent, _, same⟩ := Option.map_eq_some_iff.mp taken
    cases same
    exact .quiet ⟨rfl, rfl, rfl⟩
  · split at taken
    · rename_i none
      obtain ⟨agent, _, same⟩ := Option.map_eq_some_iff.mp taken
      cases same
      refine .called i .providerRequest [] false running ⟨rfl, rfl, rfl⟩ (.inl rfl) ?_
      rw [none]
      rfl
    · rename_i request _ _ hook installed
      obtain ⟨agent, _, same⟩ := Option.map_eq_some_iff.mp taken
      cases same
      refine .called i .providerRequest _ _ running ⟨rfl, rfl, rfl⟩ (.inl rfl) ?_
      rw [installed]
      exact call_called hook answer request.context

theorem callStream_effect {γ : Type} {kind : HookKind} {prior : Bool} {input : γ}
    {answer : Handler → γ → Except String (Option γ)} (running : world.stage? i = some .running)
    (streams : kind = .beforeProviderPayload ∨ kind = .afterProviderResponse) :
    Effect setup world label (callStream i kind prior input answer world).1
      (callStream i kind prior input answer world).2 := by
  refine .called i (.stream kind prior) _ _ running ⟨rfl, rfl, rfl⟩ (.inr ⟨prior, ?_⟩)
    (consult_called answer _ input)
  rcases streams with rfl | rfl
  · exact .inl rfl
  · exact .inr rfl

theorem step_effect (taken : step serde setup label world = some (after, notes)) :
    Effect setup world label after notes := by
  cases label with
  | on | subscribe | dropGuard | addMessage | abort =>
    cases taken
    exact .quiet ⟨rfl, rfl, rfl⟩
  | steer | followUp =>
    obtain ⟨kept, rfl⟩ := onAgent_kept taken
    exact .quiet kept
  | prompt text =>
    cases taken
    exact .created text
  | poll i =>
    obtain ⟨fresh, same⟩ := whenAt_eq taken
    obtain ⟨rfl, rfl⟩ := result_eq same
    exact .polled i fresh
  | launch i answer =>
    simp only [step] at taken
    split at taken
    · rename_i launched found
      obtain ⟨polled, same⟩ := whenAt_eq taken
      obtain ⟨rfl, rfl⟩ := result_eq same
      rw [World.stage?, found] at polled
      exact .launched i launched found (Option.some.inj polled) answer
    · cases taken
  | snapshot | enter | apply =>
    obtain ⟨kept, rfl⟩ := onAgent_kept (whenAt_eq taken).2
    exact .quiet kept
  | runNode i answers answer =>
    obtain ⟨running, same⟩ := whenAt_eq taken
    exact runNode_effect running same
  | payload i prior payload answer =>
    simp only [step] at taken
    split at taken
    · obtain ⟨running, same⟩ := whenAt_eq taken
      cases same
      exact callStream_effect running (.inl rfl)
    · cases taken
  | response i prior answer =>
    simp only [step] at taken
    split at taken
    · obtain ⟨running, same⟩ := whenAt_eq taken
      cases same
      exact callStream_effect running (.inr rfl)
    · cases taken
  | finish i =>
    simp only [step] at taken
    split at taken
    · obtain ⟨running, same⟩ := whenAt_eq taken
      cases same
      exact .ended i world.agent (.inr running)
    · cases taken
  | cancel i =>
    simp only [step] at taken
    split at taken
    · rename_i fresh
      cases taken
      exact .withdrawn i fresh
    · rename_i polled
      cases taken
      exact .ended i world.agent (.inl polled)
    · rename_i running
      cases taken
      exact .ended i _ (.inr running)
    · cases taken

theorem getElem?_append_cases {α : Type} {first second : List α} {item : α}
    (found : (first ++ second)[i]? = some item) :
    first[i]? = some item ∨ first.length ≤ i ∧ second[i - first.length]? = some item := by
  by_cases inside : i < first.length
  · rw [getElem?_append_left inside] at found
    exact .inl found
  · rw [getElem?_append_right (Nat.le_of_not_lt inside)] at found
    exact .inr ⟨Nat.le_of_not_lt inside, found⟩

theorem setStage_prompt {prompt : Prompt}
    (found : (world.setStage i stage).prompts[j]? = some prompt) :
    ∃ before, world.prompts[j]? = some before ∧ prompt.onSnapshot = before.onSnapshot ∧
      prompt.messages = before.messages ∧
      prompt.stage = if i = j then stage else before.stage := by
  simp only [World.setStage, getElem?_modify] at found
  obtain ⟨before, there, rfl⟩ := Option.map_eq_some_iff.mp found
  refine ⟨before, there, ?_⟩
  split <;> exact ⟨rfl, rfl, rfl⟩

theorem stage?_eq_some :
    world.stage? i = some stage ↔
      ∃ prompt, world.prompts[i]? = some prompt ∧ prompt.stage = stage :=
  Option.map_eq_some_iff

theorem stage?_setStage {other : Stage} (there : (world.setStage i stage).stage? j = some other) :
    (i = j ∧ other = stage) ∨ (i ≠ j ∧ world.stage? j = some other) := by
  obtain ⟨prompt, found, rfl⟩ := stage?_eq_some.mp there
  obtain ⟨before, old, _, _, same⟩ := setStage_prompt found
  by_cases here : i = j
  · rw [if_pos here] at same
    exact .inl ⟨here, same⟩
  · rw [if_neg here] at same
    exact .inr ⟨here, stage?_eq_some.mpr ⟨before, old, same.symm⟩⟩

def registryAfter (label : Label) (registry : OnHandlerRegistry) : OnHandlerRegistry :=
  match label with
  | .on kind => registry.register kind
  | .subscribe => { registry with nextId := registry.nextId + 1 }
  | .dropGuard kind id => registry.unregister kind id
  | _ => registry

theorem onAgent_registry {label : PiRust.Label}
    (taken : onAgent serde label world = some (after, notes)) :
    after.registry = world.registry := by
  obtain ⟨agent, _, same⟩ := Option.map_eq_some_iff.mp taken
  cases same
  rfl

theorem startRun_registry (i : Nat) (onSnapshot : OnHandlerRegistry)
    (messages : List AgentMessage) :
    (startRun setup i onSnapshot messages world).registry = world.registry := by
  unfold startRun
  dsimp only
  split <;> rfl

theorem launch_registry (i : Nat) (launched : Prompt)
    (answer : Handler → HarnessContext → Except String (Option HarnessContext)) :
    (launch setup i launched answer world).1.registry = world.registry := by
  unfold launch
  dsimp only
  split
  · rfl
  · split
    · rfl
    · exact startRun_registry i launched.onSnapshot _

theorem step_registry (taken : step serde setup label world = some (after, notes)) :
    after.registry = registryAfter label world.registry := by
  cases label with
  | on | subscribe | dropGuard | addMessage | abort | prompt =>
    cases taken
    rfl
  | steer | followUp => exact onAgent_registry taken
  | poll i =>
    obtain ⟨rfl, rfl⟩ := result_eq (whenAt_eq taken).2
    unfold poll
    split <;> rfl
  | launch i answer =>
    simp only [step] at taken
    split at taken
    · obtain ⟨rfl, rfl⟩ := result_eq (whenAt_eq taken).2
      exact launch_registry i _ answer
    · cases taken
  | snapshot | enter | apply => exact onAgent_registry (whenAt_eq taken).2
  | runNode i answers answer =>
    have ran := (whenAt_eq taken).2
    simp only [runNode] at ran
    split at ran
    · exact onAgent_registry ran
    · split at ran
      · obtain ⟨agent, _, same⟩ := Option.map_eq_some_iff.mp ran
        cases same
        rfl
      · obtain ⟨agent, _, same⟩ := Option.map_eq_some_iff.mp ran
        cases same
        rfl
  | payload | response =>
    simp only [step] at taken
    split at taken
    · obtain ⟨rfl, rfl⟩ := result_eq (whenAt_eq taken).2
      rfl
    · cases taken
  | finish i =>
    simp only [step] at taken
    split at taken
    · obtain ⟨rfl, rfl⟩ := result_eq (whenAt_eq taken).2
      rfl
    · cases taken
  | cancel i =>
    simp only [step] at taken
    split at taken <;> cases taken <;> rfl

end Effects

end PiRust.Harness
