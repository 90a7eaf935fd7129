import PiRust.Conversation

/- `Agent::add_message` beside a running turn. Every added message draws a ticket, and
what the turns do to the message list is followed entry by entry. -/
namespace PiRust.AddedMessages

open AgentTurn AgentRun List
open Conversation (replying)

structure Entry where
  ticket? : Option Nat
  message : AgentMessage

/-- A message that no caller of `add_message` added. -/
def Entry.other (message : AgentMessage) : Entry := ⟨none, message⟩

def Entry.cleared (entry : Entry) : Entry :=
  { entry with message := Compaction.clearAssistantUsage entry.message }

/-- The agent, the messages added so far by ticket, the entries of the shared list and of
the running turn's copy, and the tickets of summarized messages. -/
structure Ledger where
  world : World
  added : List AgentMessage
  entries : List Entry
  own : List Entry
  summarized : List Nat

/-- An idle agent before any message is added. -/
def Ledger.start (state : AgentState) : Ledger where
  world := ⟨state, .idle⟩
  added := []
  entries := state.messages.map .other
  own := []
  summarized := []

inductive Call where
  | addMessage (message : AgentMessage)
  | agent (label : Label)

variable (serde : Serde)

variable (node : NodeId) (answers : Answers) (ctx : AgentTurnContext)

/-- The messages that a `prepare_next_turn` hook puts in place of the conversation. -/
def replaced? : Option (List AgentMessage) :=
  match node, ctx.assistantMessage, (shouldStopAfterTurn answers ctx).1 with
  | .maybePrepareNextTurn, some assistant, some false =>
    let update := ((answers.prepareNextTurn.bind Except.toOption).join).bind
      AgentLoopTurnUpdate.messages
    match assistant.stopReason with
    | .stop | .length => update
    | .toolUse => if ctx.toolResultsAllTerminate then none else update
    | .error | .aborted => none
  | _, _, _ => none

def cut? : Option Compaction.Cut :=
  match node, answers.summary with
  | .maybeCompactRuntimeContext, .ok _ => Compaction.contextCut serde ctx
  | _, _ => none

/-- The entries after a node that leaves these messages. -/
def follow (after : List AgentMessage) (entries : List Entry) : List Entry :=
  match cut? serde node answers ctx, replaced? node answers ctx with
  | some cut, _ =>
    (after.take 1).map .other ++
      ((entries.drop cut.before.length).take cut.window.length).map Entry.cleared
  | none, some _ => after.map .other
  | none, none => entries ++ (after.drop entries.length).map .other

def summarizes (entries : List Entry) : List Nat :=
  match cut? serde node answers ctx with
  | some cut => (entries.take cut.before.length).filterMap Entry.ticket?
  | none => []

def step : Call → Ledger → Option Ledger
  | .addMessage message, ledger =>
    let state := ledger.world.state
    some { ledger with
      world.state := { state with messages := state.messages ++ [message] }
      added := ledger.added ++ [message]
      entries := ledger.entries ++ [⟨some ledger.added.length, message⟩] }
  | .agent label, ledger =>
    (AgentRun.step serde label ledger.world).map fun world =>
      match label, ledger.world.phase with
      | .prompt _, _ =>
        { ledger with
          world := world
          entries := ledger.entries ++
            (world.state.messages.drop ledger.entries.length).map .other }
      | .snapshot, _ => { ledger with world := world, own := ledger.entries }
      | .runNode answers, .inside ctx cursor =>
        let after := (runNode serde cursor.current answers ctx ledger.world.state).1.2.messages
        { ledger with
          world := world
          own := follow serde cursor.current answers ctx after ledger.own
          summarized := ledger.summarized ++
            summarizes serde cursor.current answers ctx ledger.own }
      | .apply, _ => { ledger with world := world, entries := ledger.own }
      | _, _ => { ledger with world := world }

/-- No message is added while a turn has its copy, no hook replaces the conversation, and no
compaction drops an added tool result from its end. -/
def Undisturbed : Call → Ledger → Prop
  | .addMessage _, ledger => ledger.world.phase.context? = none
  | .agent (.runNode answers), ledger =>
    ∀ ctx cursor, ledger.world.phase = .inside ctx cursor →
      replaced? cursor.current answers ctx = none ∧
        ∀ cut, cut? serde cursor.current answers ctx = some cut →
          ∀ entry ∈ ledger.own.drop (cut.before.length + cut.window.length), entry.ticket? = none
  | _, _ => True

/-- Every message added is there once, unless it was summarized. -/
structure Holds (entries : List Entry) (added : List AgentMessage) (summarized : List Nat) :
    Prop where
  genuine : ∀ entry ∈ entries, ∀ ticket, entry.ticket? = some ticket →
    ∃ message, added[ticket]? = some message ∧
      (entry.message = message ∨ entry.message = Compaction.clearAssistantUsage message)
  once : ∀ ticket < added.length, ticket ∉ summarized →
    (entries.countP fun entry => entry.ticket? = some ticket) = 1

/-- Every message added so far is in the messages of the agent exactly once, unless a
compaction summarized it. -/
def NothingLost (ledger : Ledger) : Prop :=
  ledger.entries.map Entry.message = ledger.world.state.messages ∧
    Holds ledger.entries ledger.added ledger.summarized

/-- The list that the next write-back will leave behind. -/
def Ledger.current (ledger : Ledger) : List Entry :=
  match ledger.world.phase.context? with
  | some _ => ledger.own
  | none => ledger.entries

/-- The entries are the messages, and hold what was added. -/
structure Inv (ledger : Ledger) : Prop where
  shared : ledger.world.phase.context? = none →
    ledger.entries.map Entry.message = ledger.world.state.messages
  own : ∀ ctx, ledger.world.phase.context? = some ctx → ledger.own.map Entry.message = ctx.messages
  holds : Holds ledger.current ledger.added ledger.summarized

section Nodes

variable {serde} {answers : Answers} {ctx : AgentTurnContext}

/-- Nodes only add to the end of the conversation. -/
def Grows (ctx after : AgentTurnContext) : Prop :=
  ∃ more, after.messages = ctx.messages ++ more

theorem Grows.same {after : AgentTurnContext} (same : after.messages = ctx.messages) :
    Grows ctx after :=
  ⟨[], same.trans (append_nil _).symm⟩

theorem prepareNextTurnOrError_messages
    (kept : ((answers.prepareNextTurn.bind Except.toOption).join).bind
      AgentLoopTurnUpdate.messages = none) :
    (prepareNextTurnOrError answers ctx).2.messages = ctx.messages := by
  unfold prepareNextTurnOrError
  split
  · rfl
  · rfl
  · rename_i update hook
    have unchanged : update.messages = none := by
      rw [hook] at kept
      exact kept
    simp [unchanged]
  · rfl

theorem maybePrepareNextTurn_grows
    (kept : replaced? .maybePrepareNextTurn answers ctx = none) :
    Grows ctx (maybePrepareNextTurn answers ctx).2 := by
  cases reply : ctx.assistantMessage with
  | none =>
    simp only [maybePrepareNextTurn, reply]
    exact Grows.same rfl
  | some assistant =>
    have asked := Conversation.shouldStopAfterTurn_messages answers ctx
    rcases hook : shouldStopAfterTurn answers ctx with ⟨stop, inner⟩
    rw [hook] at asked
    have same : inner.messages = ctx.messages := asked
    simp only [replaced?, reply, hook] at kept
    cases reason : assistant.stopReason with
    | error | aborted =>
      simp only [maybePrepareNextTurn, reply, reason]
      exact Grows.same rfl
    | toolUse =>
      simp only [maybePrepareNextTurn, reply, reason, hook]
      rcases stop with _ | _ | _
      · exact Grows.same same
      · have terminates : inner.toolResultsAllTerminate = ctx.toolResultsAllTerminate := by
          have inner_eq : inner = (shouldStopAfterTurn answers ctx).2 := by rw [hook]
          rw [inner_eq]
          unfold shouldStopAfterTurn
          split <;> rfl
        dsimp only
        split
        · exact Grows.same same
        · rename_i goes_on
          rw [terminates] at goes_on
          simp only [reason, goes_on] at kept
          have prepared : (prepareNextTurnOrError answers inner).2.messages = inner.messages :=
            prepareNextTurnOrError_messages kept
          split
          · rename_i prepare
            rw [prepare] at prepared
            exact Grows.same (prepared.trans same)
          · rename_i prepare
            rw [prepare] at prepared
            exact Grows.same (prepared.trans same)
      · exact Grows.same same
    | stop | length =>
      simp only [maybePrepareNextTurn, reply, reason, hook]
      rcases stop with _ | _ | _
      · exact Grows.same same
      · simp only [reason] at kept
        have prepared : (prepareNextTurnOrError answers inner).2.messages = inner.messages :=
          prepareNextTurnOrError_messages kept
        dsimp only
        split
        · rename_i prepare
          rw [prepare] at prepared
          exact Grows.same (prepared.trans same)
        · rename_i later prepare
          rw [prepare] at prepared
          split
          · refine ⟨(drainQueue later.config.followUpMode later.followUpQueue).1, ?_⟩
            rw [← same, ← prepared]
            rfl
          · exact Grows.same (prepared.trans same)
      · exact Grows.same same

theorem compaction_grows (uncut : cut? serde .maybeCompactRuntimeContext answers ctx = none) :
    Grows ctx (Compaction.maybeCompactRuntimeContext serde answers.summary ctx).2 := by
  cases summary : answers.summary with
  | error reason =>
    apply Grows.same
    unfold Compaction.maybeCompactRuntimeContext
    split
    · rfl
    · dsimp only
      split
      · rfl
      · split
        · split <;> rfl
        · rfl
  | ok text =>
    have result := Compaction.maybeCompactRuntimeContext_messages serde text ctx
    simp only [cut?, summary] at uncut
    rw [uncut] at result
    exact Grows.same result

theorem runNode_grows {node : NodeId} (state : AgentState)
    (uncut : cut? serde node answers ctx = none) (kept : replaced? node answers ctx = none) :
    Grows ctx (runNode serde node answers ctx state).1.2 := by
  cases node with
  | startTurn =>
    simp only [runNode, startTurn]
    split
    · exact Grows.same rfl
    · split <;> exact Grows.same rfl
  | drainQueuedInput => exact ⟨_, rfl⟩
  | maybeCompactRuntimeContext => exact compaction_grows uncut
  | prepareProviderRequest =>
    simp only [runNode, prepareProviderRequest]
    split <;> exact Grows.same rfl
  | applyBeforeProviderRequestHook =>
    simp only [runNode, applyBeforeProviderRequestHook]
    split
    · exact Grows.same rfl
    · split <;> exact Grows.same rfl
  | providerStream =>
    simp only [runNode, streamProvider]
    split
    · exact Grows.same rfl
    · split <;> exact Grows.same rfl
  | decideAfterAssistant =>
    simp only [runNode, decideAfterAssistant]
    split
    · exact Grows.same rfl
    · split <;> exact ⟨_, rfl⟩
  | maybePrepareNextTurn => exact maybePrepareNextTurn_grows kept
  | executeTools =>
    obtain ⟨executions, messages, _⟩ := Conversation.executeTools_messages answers ctx
    exact ⟨_, messages⟩

end Nodes

section Tickets

variable {entries more : List Entry} {added : List AgentMessage} {summarized : List Nat}

theorem others_silent (messages : List AgentMessage) (ticket : Nat) :
    ((messages.map Entry.other).countP fun entry => entry.ticket? = some ticket) = 0 := by
  rw [countP_map, countP_eq_zero]
  intro message _ drawn
  simp [Entry.other] at drawn

theorem map_other (messages : List AgentMessage) :
    (messages.map Entry.other).map Entry.message = messages := by
  rw [map_map]
  exact map_id messages

namespace Holds

theorem append_others (holds : Holds entries added summarized) (messages : List AgentMessage) :
    Holds (entries ++ messages.map .other) added summarized where
  genuine := by
    intro entry member ticket drawn
    rcases mem_append.mp member with before | other
    · exact holds.genuine entry before ticket drawn
    · obtain ⟨message, _, rfl⟩ := mem_map.mp other
      cases drawn
  once := by
    intro ticket issued kept
    rw [countP_append, others_silent, Nat.add_zero]
    exact holds.once ticket issued kept

theorem add (holds : Holds entries added summarized) (message : AgentMessage) :
    Holds (entries ++ [⟨some added.length, message⟩]) (added ++ [message]) summarized where
  genuine := by
    intro entry member ticket drawn
    rcases mem_append.mp member with before | last
    · obtain ⟨own, here, same⟩ := holds.genuine entry before ticket drawn
      have inside : ticket < added.length := (List.getElem?_eq_some_iff.mp here).1
      exact ⟨own, by rw [getElem?_append_left inside, here], same⟩
    · rw [mem_singleton] at last
      subst last
      cases drawn
      exact ⟨message, getElem?_concat_length, .inl rfl⟩
  once := by
    intro ticket issued kept
    rw [length_append, length_singleton] at issued
    rw [countP_append, countP_singleton]
    rcases Nat.lt_or_ge ticket added.length with before | last
    · have apart : added.length ≠ ticket := by omega
      rw [holds.once ticket before kept, if_neg (by simpa using apart)]
    · have same : added.length = ticket := by omega
      have unused : (entries.countP fun entry => entry.ticket? = some ticket) = 0 := by
        rw [countP_eq_zero]
        intro entry member drawn
        obtain ⟨_, here, _⟩ := holds.genuine entry member ticket (of_decide_eq_true drawn)
        have := (List.getElem?_eq_some_iff.mp here).1
        omega
      rw [unused, if_pos (by simpa using same)]

theorem compact {before window after : List Entry}
    (holds : Holds (before ++ window ++ after) added summarized)
    (silent : ∀ entry ∈ after, entry.ticket? = none) (summary : AgentMessage) :
    Holds (.other summary :: window.map Entry.cleared) added
      (summarized ++ before.filterMap Entry.ticket?) where
  genuine := by
    intro entry member ticket drawn
    rcases mem_cons.mp member with rfl | kept
    · cases drawn
    · obtain ⟨own, inside, rfl⟩ := mem_map.mp kept
      have old : own ∈ before ++ window ++ after := mem_append_left _ (mem_append_right _ inside)
      obtain ⟨message, here, same⟩ := holds.genuine own old ticket drawn
      refine ⟨message, here, .inr ?_⟩
      rcases same with same | same
      · exact congrArg Compaction.clearAssistantUsage same
      · calc Compaction.clearAssistantUsage own.message
            = Compaction.clearAssistantUsage (Compaction.clearAssistantUsage message) := by rw [same]
          _ = Compaction.clearAssistantUsage message := by cases message <;> rfl
  once := by
    intro ticket issued kept
    simp only [mem_append, mem_filterMap, not_or, not_exists, not_and] at kept
    have whole := holds.once ticket issued kept.1
    have none_before : (before.countP fun entry => entry.ticket? = some ticket) = 0 := by
      rw [countP_eq_zero]
      intro entry member drawn
      exact kept.2 entry member (of_decide_eq_true drawn)
    have none_after : (after.countP fun entry => entry.ticket? = some ticket) = 0 := by
      rw [countP_eq_zero]
      intro entry member drawn
      rw [silent entry member] at drawn
      cases of_decide_eq_true drawn
    rw [countP_append, countP_append, none_before, none_after] at whole
    have same : ((window.map Entry.cleared).countP fun entry => entry.ticket? = some ticket) =
        window.countP fun entry => entry.ticket? = some ticket := by
      rw [countP_map]
      rfl
    rw [countP_cons, same]
    simp only [Entry.other, reduceCtorEq, decide_false, Bool.false_eq_true, ↓reduceIte]
    omega

end Holds

end Tickets

section Runs

variable {serde} {answers : Answers} {ctx : AgentTurnContext} {entries : List Entry}
  {added : List AgentMessage} {summarized : List Nat}

theorem follow_holds {node : NodeId} (state : AgentState)
    (texts : entries.map Entry.message = ctx.messages) (holds : Holds entries added summarized)
    (kept : replaced? node answers ctx = none)
    (drops : ∀ cut, cut? serde node answers ctx = some cut →
      ∀ entry ∈ entries.drop (cut.before.length + cut.window.length), entry.ticket? = none) :
    let after := (runNode serde node answers ctx state).1.2.messages
    (follow serde node answers ctx after entries).map Entry.message = after ∧
      Holds (follow serde node answers ctx after entries) added
        (summarized ++ summarizes serde node answers ctx entries) := by
  intro after
  cases found : cut? serde node answers ctx with
  | none =>
    obtain ⟨more, grown⟩ := runNode_grows state found kept
    have grows : after = ctx.messages ++ more := grown
    have length : entries.length = ctx.messages.length := by rw [← texts, length_map]
    have rest : after.drop entries.length = more := by
      rw [grows, length, drop_left]
    simp only [follow, summarizes, found, kept, rest, append_nil]
    refine ⟨?_, holds.append_others more⟩
    rw [map_append, map_other, texts, grows]
  | some cut =>
    obtain ⟨text, summary, here, inner⟩ : ∃ text, answers.summary = .ok text ∧
        node = .maybeCompactRuntimeContext ∧ Compaction.contextCut serde ctx = some cut := by
      unfold cut? at found
      split at found
      · rename_i text summary
        exact ⟨text, summary, rfl, found⟩
      · cases found
    have result := Compaction.maybeCompactRuntimeContext_messages serde text ctx
    rw [inner] at result
    obtain ⟨messageId, tokens, compacted⟩ := result
    have messages : after = .compactionSummary messageId text tokens ::
        cut.window.map Compaction.clearAssistantUsage := by
      subst here
      simp only [after, runNode, summary]
      exact compacted
    obtain ⟨config, _, joined⟩ := Option.bind_eq_some_iff.mp inner
    have join := Compaction.compactionCut_join serde _ _ joined
    have parts : entries = entries.take cut.before.length ++
        (entries.drop cut.before.length).take cut.window.length ++
        entries.drop (cut.before.length + cut.window.length) := by
      rw [append_assoc, ← drop_drop, take_append_drop, take_append_drop]
    have window : ((entries.drop cut.before.length).take cut.window.length).map Entry.message =
        cut.window := by
      rw [map_take, map_drop, texts, ← join, append_assoc, drop_left, take_left]
    simp only [follow, summarizes, found, messages, take_succ_cons, take_zero,
      map_cons, map_nil, singleton_append]
    constructor
    · rw [map_map]
      have cleared : Entry.message ∘ Entry.cleared =
          Compaction.clearAssistantUsage ∘ Entry.message := rfl
      rw [cleared, ← map_map, window]
      rfl
    · rw [parts] at holds
      exact holds.compact (drops cut found) _

namespace Inv

variable {ledger : Ledger}

def copied (world : World) : Option (List AgentMessage) :=
  world.phase.context?.map fun ctx => ctx.messages

theorem same (inv : Inv ledger) {world : World} (copy : copied world = copied ledger.world)
    (messages : world.state.messages = ledger.world.state.messages) :
    Inv { ledger with world := world } := by
  unfold copied at copy
  cases now : world.phase.context? with
  | none =>
    rw [now] at copy
    have before := Option.map_eq_none_iff.mp copy.symm
    refine ⟨fun _ => (inv.shared before).trans messages.symm, ?_, ?_⟩
    · intro ctx running
      rw [now] at running
      cases running
    · have holds := inv.holds
      simp only [Ledger.current, before] at holds
      simp only [Ledger.current, now]
      exact holds
  | some ctx =>
    rw [now] at copy
    obtain ⟨old, before, same⟩ := Option.map_eq_some_iff.mp copy.symm
    refine ⟨?_, ?_, ?_⟩
    · intro idle
      rw [now] at idle
      cases idle
    · intro other running
      rw [now] at running
      cases running
      exact (inv.own old before).trans same
    · have holds := inv.holds
      simp only [Ledger.current, before] at holds
      simp only [Ledger.current, now]
      exact holds

theorem shared_holds (inv : Inv ledger) (idle : ledger.world.phase.context? = none) :
    Holds ledger.entries ledger.added ledger.summarized := by
  have holds := inv.holds
  simp only [Ledger.current, idle] at holds
  exact holds

theorem own_holds (inv : Inv ledger) {ctx : AgentTurnContext}
    (running : ledger.world.phase.context? = some ctx) :
    Holds ledger.own ledger.added ledger.summarized := by
  have holds := inv.holds
  simp only [Ledger.current, running] at holds
  exact holds

end Inv

theorem nodeHead_messages (ctx : AgentTurnContext) (state : AgentState) :
    (nodeHead node ctx state).1.messages = ctx.messages ∧
      (nodeHead node ctx state).2.messages = state.messages := by
  unfold nodeHead
  split <;> exact ⟨rfl, rfl⟩

variable {after ledger : Ledger}

section

variable (inv : Inv ledger)
include inv

theorem addMessage_inv (idle : ledger.world.phase.context? = none) (message : AgentMessage)
    (taken : step serde (.addMessage message) ledger = some after) : Inv after := by
  cases taken
  have holds := (inv.shared_holds idle).add message
  refine ⟨fun _ => ?_, ?_, ?_⟩
  · rw [map_append, inv.shared idle]
    rfl
  · intro ctx running
    rw [show ledger.world.phase.context? = some ctx from running] at idle
    cases idle
  · simp only [Ledger.current, idle]
    exact holds

theorem prompt_inv {text : String}
    (taken : step serde (.agent (.prompt text)) ledger = some after) : Inv after := by
  obtain ⟨world, moved, rfl⟩ := Option.map_eq_some_iff.mp taken
  simp only [AgentRun.step, prompt] at moved
  split at moved
  · rename_i stands
    cases moved
    have idle : ledger.world.phase.context? = none := by rw [stands]; rfl
    have length : ledger.entries.length = ledger.world.state.messages.length := by
      rw [← inv.shared idle, length_map]
    refine ⟨fun _ => ?_, ?_, ?_⟩
    · rw [map_append, map_other, inv.shared idle, length]
      simp [startRun]
    · intro ctx running
      cases running
    · exact (inv.shared_holds idle).append_others _
  · cases moved

theorem snapshot_inv (taken : step serde (.agent .snapshot) ledger = some after) : Inv after := by
  obtain ⟨world, moved, rfl⟩ := Option.map_eq_some_iff.mp taken
  simp only [AgentRun.step, snapshot] at moved
  split at moved
  · rename_i turn stands
    have idle : ledger.world.phase.context? = none := by rw [stands]; rfl
    have holds := inv.shared_holds idle
    have texts := inv.shared idle
    have taken_over : world.phase.context? =
        some (AgentTurnContext.fromState ledger.world.state turn).1 := by
      split at moved <;> cases moved <;> rfl
    refine ⟨?_, ?_, ?_⟩
    · intro running
      rw [show world.phase.context? = none from running] at taken_over
      cases taken_over
    · intro ctx running
      rw [show world.phase.context? = some ctx from running] at taken_over
      cases taken_over
      exact texts
    · simp only [Ledger.current, taken_over]
      exact holds
  · cases moved

theorem enter_inv (taken : step serde (.agent .enter) ledger = some after) : Inv after := by
  obtain ⟨world, moved, rfl⟩ := Option.map_eq_some_iff.mp taken
  simp only [AgentRun.step, enter] at moved
  split at moved
  · rename_i ctx cursor stands
    split at moved
    · rename_i node _
      cases moved
      obtain ⟨own, shared⟩ := nodeHead_messages node ctx ledger.world.state
      apply inv.same
      · simp [Inv.copied, stands, Phase.context?, own]
      · exact shared
    · cases moved
      apply inv.same
      · simp [Inv.copied, stands, Phase.context?]
      · rfl
  · cases moved

theorem runNode_inv {answers : Answers}
    (undisturbed : Undisturbed serde (.agent (.runNode answers)) ledger)
    (taken : step serde (.agent (.runNode answers)) ledger = some after) : Inv after := by
  obtain ⟨world, moved, rfl⟩ := Option.map_eq_some_iff.mp taken
  simp only [AgentRun.step, finishNode] at moved
  split at moved
  · rename_i ctx cursor stands
    have running : ledger.world.phase.context? = some ctx := by rw [stands]; rfl
    obtain ⟨kept, drops⟩ := undisturbed ctx cursor stands
    obtain ⟨texts, holds⟩ := follow_holds ledger.world.state (inv.own ctx running)
      (inv.own_holds running) kept drops
    have later : ∃ phase state, world = ⟨state, phase⟩ ∧ phase.context? =
        some (runNode serde cursor.current answers ctx ledger.world.state).1.2 := by
      split at moved <;> cases moved <;> exact ⟨_, _, rfl, rfl⟩
    obtain ⟨phase, state, rfl, context⟩ := later
    simp only [stands]
    refine ⟨?_, ?_, ?_⟩
    · intro idle
      rw [context] at idle
      cases idle
    · intro other now
      rw [context] at now
      cases now
      exact texts
    · simp only [Ledger.current, context]
      exact holds
  · cases moved

theorem apply_inv (taken : step serde (.agent .apply) ledger = some after) : Inv after := by
  obtain ⟨world, moved, rfl⟩ := Option.map_eq_some_iff.mp taken
  simp only [AgentRun.step, apply] at moved
  split at moved
  · rename_i ctx outcome stands
    have running : ledger.world.phase.context? = some ctx := by rw [stands]; rfl
    have holds := inv.own_holds running
    have texts := inv.own ctx running
    have written : world.state.messages = ctx.messages ∧ world.phase.context? = none := by
      split at moved
      · cases moved
        exact ⟨rfl, rfl⟩
      · split at moved <;> cases moved <;> exact ⟨rfl, rfl⟩
    obtain ⟨messages, idle⟩ := written
    refine ⟨fun _ => texts.trans messages.symm, ?_, ?_⟩
    · intro other now
      rw [show world.phase.context? = some other from now] at idle
      cases idle
    · simp only [Ledger.current, idle]
      exact holds
  · cases moved

end

theorem step_inv {call : Call} {before : Ledger} (inv : Inv before)
    (undisturbed : Undisturbed serde call before) (taken : step serde call before = some after) :
    Inv after := by
  cases call with
  | addMessage message => exact addMessage_inv inv undisturbed message taken
  | agent label =>
    cases label with
    | prompt text => exact prompt_inv inv taken
    | run =>
      obtain ⟨world, moved, rfl⟩ := Option.map_eq_some_iff.mp taken
      simp only [AgentRun.step, run] at moved
      split at moved
      · rename_i stands _
        split at moved
        · cases moved
        · cases moved
          apply inv.same
          · simp [Inv.copied, stands, startRun, Phase.context?]
          · rfl
      · cases moved
    | steer count text | followUp count text =>
      cases taken
      exact inv.same rfl rfl
    | drainSteeringQueue | drainFollowUpQueue | abort =>
      cases taken
      exact inv.same rfl rfl
    | snapshot => exact snapshot_inv inv taken
    | enter => exact enter_inv inv taken
    | runNode answers => exact runNode_inv inv undisturbed taken
    | apply => exact apply_inv inv taken

theorem inv_start (state : AgentState) : Inv (.start state) where
  shared := fun _ => map_other state.messages
  own := fun _ running => by cases running
  holds := by
    have nothing : Holds [] [] [] :=
      ⟨forall_mem_nil _, nofun⟩
    exact nothing.append_others state.messages

/-- Once a run has ended, and whenever no turn has its copy, no message is lost that was added
in steps that left the turns undisturbed. -/
theorem run_nothingLost {state : AgentState} {calls : List Call} {final : Ledger}
    (run : Transition.Run (step serde) (Undisturbed serde) (.start state) calls final)
    (ended : final.world.phase.context? = none) : NothingLost final := by
  have inv : Inv final :=
    run.invariant (fun _ _ _ inv undisturbed taken => step_inv inv undisturbed taken)
      (inv_start state)
  exact ⟨inv.shared ended, inv.shared_holds ended⟩

end Runs

theorem replying_undisturbed (ledger : Ledger) :
    Undisturbed .silent (.agent (.runNode replying)) ledger := by
  intro ctx cursor _
  refine ⟨?_, fun cut found => ?_⟩
  · unfold replaced?
    split
    · split
      · rfl
      · rfl
      · exact ite_self none
      · rfl
      · rfl
    · rfl
  · unfold cut? at found
    split at found
    · rename_i absent
      cases absent
    · cases found

/-- A turn in which no tool is called. -/
def turn : List Call :=
  .agent .snapshot :: (replicate 8 [.agent .enter, .agent (.runNode replying)]).flatten ++
    [.agent .apply]

theorem turn_undisturbed {start final : Ledger}
    (reached : Transition.follow (step .silent) turn start = some final) :
    Transition.Run (step .silent) (Undisturbed .silent) start turn final := by
  apply Transition.Run.of_follow _ reached
  intro call inside ledger
  simp only [turn, cons_append, mem_cons, mem_append, mem_flatten, mem_replicate, not_mem_nil,
    or_false] at inside
  rcases inside with rfl | ⟨_, ⟨_, rfl⟩, node⟩ | rfl
  · trivial
  · simp only [mem_cons, not_mem_nil, or_false] at node
    rcases node with rfl | rfl
    · trivial
    · exact replying_undisturbed ledger
  · trivial

/-- Messages added before a run of two turns, before each of them, and after the run. -/
theorem run_nothingLost_between : ∃ calls final,
    Transition.Run (step .silent) (Undisturbed .silent) (.start Conversation.newAgent.state) calls
        final ∧
      final.added.length = 4 ∧ final.entries.length = 8 ∧ NothingLost final := by
  have first : Transition.Run (step .silent) (Undisturbed .silent)
      (.start Conversation.newAgent.state) [.addMessage (.userText "m1" "a")] _ :=
    (Transition.Run.done _).next rfl rfl
  have prompted := (first.next (l := Call.agent (.prompt "hello")) trivial rfl).next
    (l := Call.agent (.followUp 0 "more")) trivial rfl
  have begun := prompted.next (l := Call.addMessage (.userText "m2" "b")) rfl rfl
  have once := begun.trans (turn_undisturbed rfl)
  have between := once.next (l := Call.addMessage (.userText "m3" "c")) rfl rfl
  have twice := between.trans (turn_undisturbed rfl)
  have whole := twice.next (l := Call.addMessage (.userText "m4" "d")) rfl rfl
  exact ⟨_, _, whole, rfl, rfl, run_nothingLost whole rfl⟩

/-- A message that is added while the provider streams is gone once the run has ended. -/
theorem run_loses_message : ¬ ∀ calls final,
    Transition.follow (step .silent) calls (.start Conversation.newAgent.state) = some final →
    final.world.phase = .idle → NothingLost final := by
  intro always
  have kept := always
    [.agent (.prompt "hello"), .agent .snapshot, .agent .enter, .agent (.runNode replying),
      .agent .enter, .agent (.runNode replying), .agent .enter, .agent (.runNode replying),
      .agent .enter, .agent (.runNode replying), .agent .enter, .agent (.runNode replying),
      .agent .enter, .addMessage (.userText "note" "remember"), .agent (.runNode replying),
      .agent .enter, .agent (.runNode replying), .agent .enter, .agent (.runNode replying),
      .agent .apply] _ rfl rfl
  have once := kept.2.once 0 (by decide) (by decide)
  exact absurd once (by decide)

end PiRust.AddedMessages
