import PiRust.Conversation
import PiRust.Harness

/- The messages that a prompt starts from, against those that the agent held when its stream was
first polled. -/
namespace PiRust.PromptSnapshots

open Harness List

/-- A harness with how often the messages of its agent were changed, that count at the creation
of each prompt, and all that its steps let be seen. -/
structure Timeline where
  world : Harness.World
  changes : Nat
  createdAt : List Nat
  notes : List Note

variable (serde : Serde) (setup : Setup)

def Timeline.start (state : AgentState) : Timeline where
  world := .start setup state
  changes := 0
  createdAt := []
  notes := []

def isStart : Note → Bool
  | .started .. => true
  | _ => false

/-- The steps that change the messages of the agent: a message is added, a prompt starts its run,
a turn is written back. -/
def changesMessages (label : Harness.Label) (notes : List Note) : Bool :=
  match label with
  | .addMessage _ | .apply _ => true
  | .launch _ _ => notes.any isStart
  | _ => false

def step (label : Harness.Label) (timeline : Timeline) : Option Timeline :=
  (Harness.step serde setup label timeline.world).map fun taken =>
    { world := taken.1
      changes := if changesMessages label taken.2 then timeline.changes + 1 else timeline.changes
      createdAt := match label with
        | .prompt _ => timeline.createdAt ++ [timeline.changes]
        | _ => timeline.createdAt
      notes := timeline.notes ++ taken.2 }

/-- Every prompt starts from all messages that the agent held when its stream was first polled. -/
def StartsFromHeld (timeline : Timeline) : Prop :=
  ∀ i held messages, .polled i held ∈ timeline.notes → .started i messages ∈ timeline.notes →
    held <+: messages

/-- No hook rewrites the context. -/
def KeepsContext : Harness.Label → Prop
  | .launch _ answer => ∀ handler context updated,
      answer handler context = .ok (some updated) → updated.messages = context.messages
  | _ => True

/-- A stream that is polled for the first time finds the messages unchanged since its creation. -/
def PolledInTime (label : Harness.Label) (timeline : Timeline) : Prop :=
  ∀ i, label = .poll i → timeline.world.phase = .idle →
    timeline.createdAt[i]? = some timeline.changes

variable {serde setup} {world after : Harness.World} {notes : List Note} {label : Harness.Label}

section Messages

variable {agent later : PiRust.World}

theorem enter_messages (taken : AgentRun.step serde .enter agent = some later) :
    later.state.messages = agent.state.messages := by
  simp only [AgentRun.step, AgentRun.enter] at taken
  split at taken
  · split at taken
    · cases taken
      unfold AgentRun.nodeHead
      split <;> rfl
    · cases taken
      rfl
  · cases taken

theorem snapshot_messages (taken : AgentRun.step serde .snapshot agent = some later) :
    later.state.messages = agent.state.messages := by
  simp only [AgentRun.step, AgentRun.snapshot] at taken
  split at taken
  · split at taken <;> cases taken <;> rfl
  · cases taken

theorem runNode_messages {answers : Answers}
    (taken : AgentRun.step serde (.runNode answers) agent = some later) :
    later.state.messages = agent.state.messages := by
  simp only [AgentRun.step, AgentRun.finishNode] at taken
  split at taken
  · rename_i ctx cursor _
    have same := (Conversation.runNode_state serde cursor.current answers ctx agent.state).1
    split at taken <;> cases taken <;> exact congrArg Mailbox.messages same
  · cases taken

theorem onAgent_messages {step : PiRust.Label}
    (keeps : ∀ later, AgentRun.step serde step world.agent = some later →
      later.state.messages = world.agent.state.messages)
    (taken : onAgent serde step world = some (after, notes)) :
    after.agent.state.messages = world.agent.state.messages := by
  obtain ⟨later, ran, same⟩ := Option.map_eq_some_iff.mp taken
  cases same
  exact keeps later ran

theorem step_messages (taken : Harness.step serde setup label world = some (after, notes))
    (quiet : changesMessages label notes = false) :
    after.agent.state.messages = world.agent.state.messages := by
  cases label with
  | addMessage | apply => cases quiet
  | on | subscribe | dropGuard | abort | prompt =>
    cases taken
    rfl
  | steer | followUp =>
    refine onAgent_messages ?_ taken
    intro later ran
    cases ran
    rfl
  | poll i =>
    obtain ⟨rfl, rfl⟩ := result_eq (whenAt_eq taken).2
    unfold Harness.poll
    split <;> rfl
  | launch i answer =>
    simp only [Harness.step] at taken
    split at taken
    · obtain ⟨rfl, rfl⟩ := result_eq (whenAt_eq taken).2
      simp only [changesMessages] at quiet
      unfold Harness.launch at quiet ⊢
      dsimp only at quiet ⊢
      split
      · rfl
      · rename_i context begun
        split
        · rfl
        · rename_i prepared
          rw [begun] at quiet
          simp only [prepared, any_cons, any_nil, isStart] at quiet
          cases quiet
    · cases taken
  | snapshot => exact onAgent_messages (fun _ ran => snapshot_messages ran) (whenAt_eq taken).2
  | enter => exact onAgent_messages (fun _ ran => enter_messages ran) (whenAt_eq taken).2
  | runNode i answers answer =>
    have ran := (whenAt_eq taken).2
    simp only [Harness.runNode] at ran
    split at ran
    · obtain ⟨agent, moved, same⟩ := Option.map_eq_some_iff.mp ran
      cases same
      exact runNode_messages moved
    · split at ran
      · obtain ⟨agent, moved, same⟩ := Option.map_eq_some_iff.mp ran
        cases same
        exact runNode_messages moved
      · obtain ⟨agent, moved, same⟩ := Option.map_eq_some_iff.mp ran
        cases same
        exact runNode_messages moved
  | payload | response =>
    simp only [Harness.step] at taken
    split at taken
    · obtain ⟨rfl, rfl⟩ := result_eq (whenAt_eq taken).2
      rfl
    · cases taken
  | finish i =>
    simp only [Harness.step] at taken
    split at taken
    · obtain ⟨rfl, rfl⟩ := result_eq (whenAt_eq taken).2
      rfl
    · cases taken
  | cancel i =>
    simp only [Harness.step] at taken
    split at taken <;> cases taken <;> rfl

end Messages

section Streams

theorem setStage_later (world : Harness.World) (i : Nat) (stage : Stage) {j : Nat} {prompt : Prompt}
    (found : world.prompts[j]? = some prompt) :
    ∃ later, (world.setStage i stage).prompts[j]? = some later ∧
      later.messages = prompt.messages := by
  refine ⟨if i = j then { prompt with stage := stage } else prompt, ?_, ?_⟩
  · rw [World.setStage, getElem?_modify, found]
    rfl
  · split <;> rfl

theorem launch_cases (i : Nat) (launched : Prompt)
    (answer : Handler → HarnessContext → Except String (Option HarnessContext)) :
    ∃ stage, (launch setup i launched answer world).1.prompts = (world.setStage i stage).prompts ∧
      stage ≠ .created := by
  unfold launch startRun
  dsimp only
  split
  · exact ⟨.over, rfl, nofun⟩
  · split
    · exact ⟨.over, rfl, nofun⟩
    · split
      · exact ⟨.running, rfl, nofun⟩
      · exact ⟨.over, rfl, nofun⟩

variable (effect : Effect setup world label after notes)
include effect

/-- Besides a new stream, a step moves at most one stream on. -/
theorem effect_prompts (old : ∀ text, label ≠ .prompt text) :
    after.prompts = world.prompts ∨
      ∃ i stage, after.prompts = (world.setStage i stage).prompts ∧ stage ≠ .created := by
  cases effect with
  | quiet kept | called _ _ _ _ _ kept => exact .inl kept.prompts
  | created text => exact absurd rfl (old text)
  | polled i fresh =>
    unfold poll
    split
    · exact .inr ⟨i, .polled, rfl, nofun⟩
    · exact .inr ⟨i, .over, rfl, nofun⟩
  | launched i launched found polled answer =>
    obtain ⟨stage, same, moved⟩ := launch_cases i launched answer
    exact .inr ⟨i, stage, same, moved⟩
  | withdrawn i fresh => exact .inr ⟨i, .over, rfl, nofun⟩
  | ended i agent stood => exact .inr ⟨i, .over, rfl, nofun⟩

theorem effect_later {i : Nat} {prompt : Prompt} (found : world.prompts[i]? = some prompt) :
    ∃ later, after.prompts[i]? = some later ∧ later.messages = prompt.messages := by
  by_cases new : ∃ text, label = .prompt text
  · obtain ⟨text, rfl⟩ := new
    cases effect with
    | quiet kept | called _ _ _ _ _ kept => exact ⟨prompt, by rw [kept.prompts, found], rfl⟩
    | created text =>
      refine ⟨prompt, ?_, rfl⟩
      rw [Harness.prompt, List.getElem?_append_left (List.getElem?_eq_some_iff.mp found).1, found]
    | ended j agent stood => exact setStage_later world j .over found
  · rcases effect_prompts effect (fun text same => new ⟨text, same⟩) with same | ⟨j, stage, same, _⟩
    · exact ⟨prompt, by rw [same, found], rfl⟩
    · rw [same]
      exact setStage_later world j stage found

/-- A stream that was not polled yet was there before, or it is the new one. -/
theorem effect_created (old : ∀ text, label ≠ .prompt text) {i : Nat} {later : Prompt}
    (found : after.prompts[i]? = some later) (created : later.stage = .created) :
    ∃ prompt, world.prompts[i]? = some prompt ∧ prompt.stage = .created ∧
      prompt.messages = later.messages := by
  rcases effect_prompts effect old with same | ⟨j, stage, same, moved⟩
  · rw [same] at found
    exact ⟨later, found, created, rfl⟩
  · rw [same] at found
    obtain ⟨before, there, _, messages, stage_eq⟩ := setStage_prompt found
    split at stage_eq
    · rw [stage_eq] at created
      exact absurd created moved
    · exact ⟨before, there, stage_eq ▸ created, messages.symm⟩

end Streams

section Runs

/-- A prompt starts from the messages of its creation. -/
structure Inv (timeline : Timeline) : Prop where
  counted : timeline.createdAt.length = timeline.world.prompts.length
  earlier : ∀ count ∈ timeline.createdAt, count ≤ timeline.changes
  fresh : ∀ (i : Nat) (prompt : Prompt), timeline.world.prompts[i]? = some prompt →
    prompt.stage = .created → timeline.createdAt[i]? = some timeline.changes →
    timeline.world.agent.state.messages <+: prompt.messages
  held : ∀ i held, .polled i held ∈ timeline.notes →
    ∃ prompt, timeline.world.prompts[i]? = some prompt ∧ held <+: prompt.messages
  started : ∀ i messages, .started i messages ∈ timeline.notes →
    ∃ prompt, timeline.world.prompts[i]? = some prompt ∧ messages = prompt.messages

theorem Inv.startsFromHeld {timeline : Timeline} (inv : Inv timeline) :
    StartsFromHeld timeline := by
  intro i held messages polled started
  obtain ⟨prompt, found, inside⟩ := inv.held i held polled
  obtain ⟨same, again, rfl⟩ := inv.started i messages started
  rw [found] at again
  cases again
  exact inside

theorem begun (setup : Setup) (state : AgentState) : Inv (.start setup state) where
  counted := rfl
  earlier := forall_mem_nil _
  fresh := nofun
  held := fun _ _ absent => absurd absent not_mem_nil
  started := fun _ _ absent => absurd absent not_mem_nil

theorem consult_messages {answer : Handler → HarnessContext → Except String (Option HarnessContext)}
    (keeps : ∀ handler context updated, answer handler context = .ok (some updated) →
      updated.messages = context.messages)
    (handlers : List Handler) (context : HarnessContext) {left : HarnessContext}
    (done : (consult answer handlers context).2 = .ok left) :
    left.messages = context.messages := by
  induction handlers generalizing context with
  | nil =>
    cases done
    rfl
  | cons handler rest ih =>
    simp only [consult] at done
    cases answered : answer handler context with
    | error error =>
      simp only [answered] at done
      cases done
    | ok updated =>
      simp only [answered] at done
      rw [ih _ done]
      cases updated with
      | none => rfl
      | some updated => exact keeps handler context updated answered

variable {answer : Handler → HarnessContext → Except String (Option HarnessContext)} {i : Nat}
variable {launched : Prompt} {j : Nat} {messages held : List AgentMessage}

theorem launch_started (keeps : KeepsContext (.launch i answer))
    (started : .started j messages ∈ (launch setup i launched answer world).2) :
    j = i ∧ messages = launched.messages := by
  unfold launch at started
  dsimp only at started
  split at started
  · cases mem_singleton.mp started
  · rename_i context begun
    split at started
    · simp only [mem_cons, not_mem_nil, or_false] at started
      rcases started with same | same <;> cases same
    · rename_i prepared ready
      simp only [mem_cons, not_mem_nil, or_false] at started
      rcases started with same | same | same
      · cases same
      · cases same
      · cases same
        exact ⟨rfl, (consult_messages keeps _ _ ready).trans (consult_messages keeps _ _ begun)⟩

theorem launch_polled : .polled j held ∉ (launch setup i launched answer world).2 := by
  intro polled
  unfold launch at polled
  dsimp only at polled
  split at polled
  · cases mem_singleton.mp polled
  · split at polled
    · simp only [mem_cons, not_mem_nil, or_false] at polled
      rcases polled with same | same <;> cases same
    · simp only [mem_cons, not_mem_nil, or_false] at polled
      rcases polled with same | same | same <;> cases same

theorem effect_polled (effect : Effect setup world label after notes)
    (polled : .polled i held ∈ notes) :
    label = .poll i ∧ world.phase = .idle ∧ world.stage? i = some .created ∧
      held = world.agent.state.messages := by
  cases effect with
  | quiet | created | withdrawn | ended => cases polled
  | called => cases mem_singleton.mp polled
  | polled j fresh =>
    unfold poll at polled
    split at polled
    · rename_i idle
      cases mem_singleton.mp polled
      exact ⟨rfl, idle, fresh, rfl⟩
    · cases polled
  | launched => exact absurd polled launch_polled

theorem effect_started (effect : Effect setup world label after notes) (keeps : KeepsContext label)
    (started : .started i messages ∈ notes) :
    ∃ prompt, world.prompts[i]? = some prompt ∧ messages = prompt.messages := by
  cases effect with
  | quiet | created | withdrawn | ended => cases started
  | called => cases mem_singleton.mp started
  | polled j fresh =>
    unfold poll at started
    split at started
    · cases mem_singleton.mp started
    · cases started
  | launched j launched found stage answer =>
    obtain ⟨rfl, same⟩ := launch_started keeps started
    exact ⟨launched, found, same⟩

theorem Inv.fresh_step {timeline later : Timeline} (inv : Inv timeline)
    (taken : step serde setup label timeline = some later) {i : Nat} {prompt : Prompt}
    (found : later.world.prompts[i]? = some prompt) (created : prompt.stage = .created)
    (unchanged : later.createdAt[i]? = some later.changes) :
    later.world.agent.state.messages <+: prompt.messages := by
  obtain ⟨⟨world, notes⟩, stepped, rfl⟩ := Option.map_eq_some_iff.mp taken
  have effect := step_effect stepped
  by_cases new : ∃ text, label = .prompt text
  · obtain ⟨text, rfl⟩ := new
    cases stepped
    simp only [changesMessages, Bool.false_eq_true, ↓reduceIte] at unchanged
    rcases getElem?_append_cases found with before | ⟨beyond, last⟩
    · have inside : i < timeline.createdAt.length := by
        rw [inv.counted]
        exact (List.getElem?_eq_some_iff.mp before).1
      rw [getElem?_append_left inside] at unchanged
      exact inv.fresh i prompt before created unchanged
    · rw [mem_singleton.mp (mem_of_getElem? last)]
      exact prefix_append _ _
  · have old : ∀ text, label ≠ .prompt text := fun text same => new ⟨text, same⟩
    obtain ⟨before, there, stage, same⟩ := effect_created effect old found created
    have kept : timeline.createdAt[i]? =
        some (if changesMessages label notes then timeline.changes + 1 else timeline.changes) := by
      cases label with
      | prompt text => exact absurd rfl (old text)
      | _ => exact unchanged
    cases changed : changesMessages label notes with
    | true =>
      rw [changed, if_pos rfl] at kept
      have bound := inv.earlier _ (mem_of_getElem? kept)
      omega
    | false =>
      rw [changed, if_neg Bool.false_ne_true] at kept
      rw [← same]
      simp only [step_messages stepped changed]
      exact inv.fresh i before there stage kept

theorem step_inv {timeline later : Timeline} (inv : Inv timeline)
    (keeps : KeepsContext label) (inTime : PolledInTime label timeline)
    (taken : step serde setup label timeline = some later) : Inv later := by
  have fresh := fun i prompt => @Inv.fresh_step serde setup label timeline later inv taken i prompt
  obtain ⟨⟨world, notes⟩, stepped, rfl⟩ := Option.map_eq_some_iff.mp taken
  have effect := step_effect stepped
  have grows : timeline.changes ≤
      (if changesMessages label notes then timeline.changes + 1 else timeline.changes) := by
    split <;> omega
  refine ⟨?_, ?_, fresh, ?_, ?_⟩
  · by_cases new : ∃ text, label = .prompt text
    · obtain ⟨text, rfl⟩ := new
      cases stepped
      simp [Harness.prompt, inv.counted]
    · have old : ∀ text, label ≠ .prompt text := fun text same => new ⟨text, same⟩
      have length : world.prompts.length = timeline.world.prompts.length := by
        rcases effect_prompts effect old with same | ⟨j, stage, same, _⟩
        · rw [same]
        · rw [same, World.setStage, length_modify]
      cases label with
      | prompt text => exact absurd rfl (old text)
      | _ => exact inv.counted.trans length.symm
  · intro count member
    cases label with
    | prompt text =>
      rcases mem_append.mp member with old | new
      · exact Nat.le_trans (inv.earlier count old) grows
      · rw [mem_singleton.mp new]
        exact grows
    | _ => exact Nat.le_trans (inv.earlier count member) grows
  · intro i held polled
    have before : ∃ prompt, timeline.world.prompts[i]? = some prompt ∧ held <+: prompt.messages := by
      rcases mem_append.mp polled with old | new
      · exact inv.held i held old
      · obtain ⟨rfl, idle, stage, rfl⟩ := effect_polled effect new
        obtain ⟨prompt, found, created⟩ := stage?_eq_some.mp stage
        exact ⟨prompt, found, inv.fresh i prompt found created (inTime i rfl idle)⟩
    obtain ⟨prompt, found, inside⟩ := before
    obtain ⟨same, there, messages⟩ := effect_later effect found
    exact ⟨same, there, messages ▸ inside⟩
  · intro i messages started
    have before : ∃ prompt, timeline.world.prompts[i]? = some prompt ∧
        messages = prompt.messages := by
      rcases mem_append.mp started with old | new
      · exact inv.started i messages old
      · exact effect_started effect keeps new
    obtain ⟨prompt, found, rfl⟩ := before
    obtain ⟨same, there, kept⟩ := effect_later effect found
    exact ⟨same, there, kept.symm⟩

/-- Where no hook rewrites the context and every stream is first polled before the messages of
the agent change, every prompt starts from all messages that the agent held at that poll. -/
theorem run_startsFromHeld {state : AgentState} {labels : List Harness.Label} {final : Timeline}
    (run : Transition.Run (step serde setup)
      (fun label timeline => KeepsContext label ∧ PolledInTime label timeline)
      (.start setup state) labels final) : StartsFromHeld final := by
  have inv : Inv final :=
    run.invariant (fun _ _ _ inv allowed taken => step_inv inv allowed.1 allowed.2 taken)
      (begun setup state)
  exact inv.startsFromHeld

end Runs

/-- Hooks that have nothing to say. -/
def quietly : Handler → HarnessContext → Except String (Option HarnessContext) :=
  fun _ _ => .ok none

def node (i : Nat) (answers : Answers) : List Harness.Label :=
  [.enter i, .runNode i answers fun _ _ => .ok none]

/-- The run of a prompt that is answered at once, up to its end. -/
def answered (i : Nat) : List Harness.Label :=
  [.snapshot i] ++ node i {} ++ node i {} ++ node i {} ++ node i {} ++ node i {} ++
    node i Conversation.replying ++ node i {} ++ node i {} ++ [.apply i, .finish i]

def isPlain : Harness.Label → Bool
  | .poll _ | .launch _ _ => false
  | _ => true

theorem plain_allowed (plain : isPlain label = true) (timeline : Timeline) :
    KeepsContext label ∧ PolledInTime label timeline := by
  cases label with
  | poll | launch => cases plain
  | _ => exact ⟨trivial, nofun⟩

theorem run_of_plain {start final : Timeline} {labels : List Harness.Label}
    (plain : labels.all isPlain = true)
    (reached : Transition.follow (step serde setup) labels start = some final) :
    Transition.Run (step serde setup)
      (fun label timeline => KeepsContext label ∧ PolledInTime label timeline) start labels
      final :=
  .of_follow (fun label inside timeline =>
    plain_allowed (all_eq_true.mp plain label inside) timeline) reached

theorem poll_allowed (i : Nat) {timeline : Timeline}
    (unchanged : timeline.createdAt[i]? = some timeline.changes) :
    KeepsContext (.poll i) ∧ PolledInTime (.poll i) timeline := by
  refine ⟨trivial, ?_⟩
  intro j same _
  cases same
  exact unchanged

theorem quietly_allowed (i : Nat) (timeline : Timeline) :
    KeepsContext (.launch i quietly) ∧ PolledInTime (.launch i quietly) timeline := by
  refine ⟨?_, nofun⟩
  intro handler context updated told
  cases told

/-- One prompt after the other, each polled before the next is created. -/
theorem run_startsFromHeld_inTurn : ∃ labels final,
    Transition.Run (step .silent {})
        (fun label timeline => KeepsContext label ∧ PolledInTime label timeline)
        (.start {} Conversation.newAgent.state) labels final ∧
      (∃ messages, Note.started 1 messages ∈ final.notes) ∧ StartsFromHeld final := by
  have first := @run_of_plain .silent {} (.start {} Conversation.newAgent.state) _
    [.prompt "first"] rfl rfl
  have polled := first.next (poll_allowed 0 rfl) rfl
  have launched := polled.next (quietly_allowed 0 _) rfl
  have ended := launched.trans (@run_of_plain _ _ _ _ (answered 0 ++ [.prompt "second"]) rfl rfl)
  have again := ended.next (poll_allowed 1 rfl) rfl
  have last := again.next (quietly_allowed 1 _) rfl
  exact ⟨_, _, last, ⟨_, mem_of_getElem? (i := 8) rfl⟩, run_startsFromHeld last⟩

/-- Two streams are created, and the second one starts without the messages of the first. -/
theorem run_starts_without : ¬ ∀ labels final,
    Transition.Run (step .silent {}) (fun label _ => KeepsContext label)
      (.start {} Conversation.newAgent.state) labels final → StartsFromHeld final := by
  intro always
  have keeps : ∀ label, isPlain label = true → KeepsContext label := fun label plain =>
    (plain_allowed plain (.start {} Conversation.newAgent.state)).1
  have quiet : ∀ i, KeepsContext (.launch i quietly) := fun i =>
    (quietly_allowed i (.start {} Conversation.newAgent.state)).1
  have plain : ∀ start final labels, labels.all isPlain = true →
      Transition.follow (step .silent {}) labels start = some final →
      Transition.Run (step .silent {}) (fun label _ => KeepsContext label) start labels final :=
    fun start final labels all reached => .of_follow
      (fun label inside _ => keeps label (all_eq_true.mp all label inside)) reached
  have created := plain (.start {} Conversation.newAgent.state) _
    [.prompt "first", .prompt "second"] rfl rfl
  have poll : ∀ i, KeepsContext (.poll i) := fun _ => trivial
  have polled := created.next (poll 0) rfl
  have launched := polled.next (quiet 0) rfl
  have ended := launched.trans (plain _ _ (answered 0) rfl rfl)
  have again := ended.next (poll 1) rfl
  have last := again.next (quiet 1) rfl
  have starts := always _ _ last 1 _ _ (mem_of_getElem? (i := 5) rfl) (mem_of_getElem? (i := 8) rfl)
  exact absurd starts.length_le (by decide)

end PiRust.PromptSnapshots
