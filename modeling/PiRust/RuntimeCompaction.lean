import PiRust.Dialogue
import PiRust.PrepareCompaction
import PiRust.TurnContext

/- The compaction node of the turn flow. -/
namespace PiRust.Compaction

open List

def clearAssistantUsage : AgentMessage → AgentMessage
  | .assistant messageId message => .assistant messageId { message with usage := {} }
  | message => message

def splitForCompactionAfterUsageAnchor (messages : List AgentMessage)
    (anchorIndex : Option Nat) : List AgentMessage × List AgentMessage :=
  match anchorIndex with
  | none => ([], messages)
  | some anchor =>
    if messages = [] then ([], [])
    else
      -- the loop steps over the tool results that follow the anchor
      let start := min (anchor + 1) messages.length
      let split :=
        start + ((messages.drop start).takeWhile AgentMessage.isToolResult).length
      (messages.take split, messages.drop split)

/-- `maybe_compact_runtime_context`; `summary` is the outcome of the provider call
that summarizes the older messages. -/
def maybeCompactRuntimeContext (serde : Serde) (summary : Except String String)
    (ctx : AgentTurnContext) : Except String Unit × AgentTurnContext :=
  match ctx.config.compaction with
  | none => (.ok (), ctx)
  | some config =>
    let usageEstimate := estimateContextTokens serde ctx.messages
    let tokensBefore := usageEstimate.tokens
    if !shouldCompact tokensBefore ctx.config.model.contextWindow config.settings then
      (.ok (), ctx)
    else
      let prepared := prepareCompaction serde config.settings ctx.messages
      let parts :=
        if prepared.1 = [] then
          splitForCompactionAfterUsageAnchor ctx.messages usageEstimate.lastUsageIndex
        else prepared
      if parts.1 = [] then (.ok (), ctx)
      else
        match summary with
        | .error error => (.error error, ctx)
        | .ok summary =>
          let firstKeptMessageId := (parts.2.head?.map AgentMessage.messageId).getD "none"
          let compacted : AgentMessage :=
            .compactionSummary ("compaction_" ++ toString tokensBefore) summary tokensBefore
          let ctx := { ctx with
            messages := compacted :: parts.2.map clearAssistantUsage
            runtimeCompaction := ⟨summary, firstKeptMessageId, tokensBefore⟩ }
          (.ok (), ctx.emit (.sessionCompacted summary firstKeptMessageId tokensBefore))

@[simp] theorem clearAssistantUsage_callIds (message : AgentMessage) :
    (clearAssistantUsage message).callIds = message.callIds := by
  cases message <;> rfl

@[simp] theorem clearAssistantUsage_answers (message : AgentMessage) :
    (clearAssistantUsage message).answers? = message.answers? := by
  cases message <;> rfl

/-- A message list in three parts: what a compaction summarizes, what it keeps,
and what it drops after that. -/
structure Cut where
  before : List AgentMessage
  window : List AgentMessage
  after : List AgentMessage

/-- Where the kept messages start and end. Over the budget the recent tail of the
messages before the trailing tool results is kept, if something precedes it; else
what follows the newest valid usage and its tool results. -/
def compactionCut (serde : Serde) (settings : CompactionSettings) (contextWindow : UInt32)
    (messages : List AgentMessage) : Option Cut :=
  let usageEstimate := estimateContextTokens serde messages
  let core := messages.rdropWhile AgentMessage.isToolResult
  let window := recentTail serde settings core
  if shouldCompact usageEstimate.tokens contextWindow settings = false then none
  else if settings.reserveTokens + settings.keepRecentTokens < estimateTokens serde messages ∧
      window.length < core.length then
    some ⟨core.take (core.length - window.length), window,
      messages.rtakeWhile AgentMessage.isToolResult⟩
  else
    usageEstimate.lastUsageIndex.map fun anchor =>
      let rest := messages.drop (anchor + 1)
      ⟨messages.take (anchor + 1) ++ rest.takeWhile AgentMessage.isToolResult,
        rest.dropWhile AgentMessage.isToolResult, []⟩

/-- Tool calls and tool results belong together. -/
def Paired (messages : List AgentMessage) : Prop :=
  Dialogue.Paired AgentMessage.callIds AgentMessage.answers? messages

abbrev NearestCall (messages : List AgentMessage) (call reply : Nat) (id : String) : Prop :=
  Dialogue.NearestCall AgentMessage.callIds AgentMessage.answers? messages call reply id

abbrev FirstReply (messages : List AgentMessage) (call reply : Nat) (id : String) : Prop :=
  Dialogue.FirstReply AgentMessage.callIds AgentMessage.answers? messages call reply id

/-- With a result the budget also pays for its call, and it pays for no call whose result stands
at the end of the messages. -/
structure TailKeepsPairs (serde : Serde) (settings : CompactionSettings)
    (messages : List AgentMessage) : Prop where
  called : let core := messages.rdropWhile AgentMessage.isToolResult
    ∀ call reply id, NearestCall messages call reply id → reply < core.length →
      Reaches serde settings core reply → Reaches serde settings core call
  replied : let core := messages.rdropWhile AgentMessage.isToolResult
    ∀ call reply id, FirstReply messages call reply id → call < core.length →
      core.length ≤ reply → ¬ Reaches serde settings core call

/-- From the newest message with usage up to the result of a call that is not newer there are
only results. -/
def AnchorKeepsPairs (messages : List AgentMessage) (anchor : Nat) : Prop :=
  ∀ call reply id, NearestCall messages call reply id → call ≤ anchor →
    ∀ between message, anchor < between → between ≤ reply → messages[between]? = some message →
      message.isToolResult = true

/-- Over the budget, where something is left to summarize before the tail, the tail keeps its
pairs; else the messages after the newest usage keep theirs. -/
def KeepsPairs (serde : Serde) (settings : CompactionSettings) (messages : List AgentMessage) :
    Prop :=
  let summarizes := settings.reserveTokens + settings.keepRecentTokens <
      estimateTokens serde messages ∧
    ¬ Reaches serde settings (messages.rdropWhile AgentMessage.isToolResult) 0
  (summarizes → TailKeepsPairs serde settings messages) ∧
    (¬ summarizes → ∀ anchor,
      (estimateContextTokens serde messages).lastUsageIndex = some anchor →
        AnchorKeepsPairs messages anchor)

theorem lastValidFrom_lt {newest : List AgentMessage} {usage : Usage} {index : Nat}
    (found : lastValidFrom newest = some (usage, index)) : index < newest.length := by
  induction newest with
  | nil => cases found
  | cons message before ih =>
    unfold lastValidFrom at found
    cases valid : validAssistantUsage message with
    | some anchor =>
      simp only [valid, Option.some.injEq, Prod.mk.injEq] at found
      rw [length_cons]
      omega
    | none =>
      simp only [valid] at found
      have inside := ih found
      rw [length_cons]
      omega

variable {messages : List AgentMessage}

theorem lastUsageIndex_lt (serde : Serde) {anchor : Nat}
    (found : (estimateContextTokens serde messages).lastUsageIndex = some anchor) :
    anchor < messages.length := by
  unfold estimateContextTokens at found
  cases last : lastValidAssistantUsage messages with
  | none => simp [last] at found
  | some entry =>
    obtain ⟨usage, index⟩ := entry
    simp only [last, Option.some.injEq] at found
    have inside := lastValidFrom_lt last
    rw [length_reverse] at inside
    omega

theorem take_takeWhile_length {α : Type} (test : α → Bool) (list : List α) :
    list.take (list.takeWhile test).length = list.takeWhile test :=
  (prefix_iff_eq_take.mp ( takeWhile_prefix test)).symm

theorem drop_takeWhile_length {α : Type} (test : α → Bool) (list : List α) :
    list.drop (list.takeWhile test).length = list.dropWhile test := by
  calc list.drop (list.takeWhile test).length
      = (list.takeWhile test ++ list.dropWhile test).drop (list.takeWhile test).length := by
        rw [takeWhile_append_dropWhile]
    _ = list.dropWhile test := drop_left

theorem splitForCompactionAfterUsageAnchor_some {anchor : Nat} (inside : anchor < messages.length) :
    splitForCompactionAfterUsageAnchor messages (some anchor) =
      (messages.take (anchor + 1) ++
          (messages.drop (anchor + 1)).takeWhile AgentMessage.isToolResult,
        (messages.drop (anchor + 1)).dropWhile AgentMessage.isToolResult) := by
  have present : messages ≠ [] := by
    rintro rfl
    cases inside
  have start : min (anchor + 1) messages.length = anchor + 1 := by omega
  simp only [splitForCompactionAfterUsageAnchor, present, ↓reduceIte, start, Prod.mk.injEq]
  constructor
  · rw [take_add, take_takeWhile_length]
  · rw [← drop_drop, drop_takeWhile_length]

/-- The cut that the compaction of a turn context makes, if any. -/
def contextCut (serde : Serde) (ctx : AgentTurnContext) : Option Cut :=
  ctx.config.compaction.bind fun config =>
    compactionCut serde config.settings ctx.config.model.contextWindow ctx.messages

theorem compactionCut_join (serde : Serde) (settings : CompactionSettings) (contextWindow : UInt32)
    {cut : Cut} (found : compactionCut serde settings contextWindow messages = some cut) :
    cut.before ++ cut.window ++ cut.after = messages := by
  simp only [compactionCut] at found
  split at found
  · cases found
  · split at found
    · cases found
      rw [take_append_recentTail]
      exact rdropWhile_append_rtakeWhile
    · obtain ⟨anchor, _, rfl⟩ := Option.map_eq_some_iff.mp found
      simp

theorem parts_eq_cut (serde : Serde) (settings : CompactionSettings) (contextWindow : UInt32)
    (messages : List AgentMessage)
    (due : shouldCompact (estimateContextTokens serde messages).tokens contextWindow settings =
      true) :
    let prepared := prepareCompaction serde settings messages
    let parts :=
      if prepared.1 = [] then
        splitForCompactionAfterUsageAnchor messages
          (estimateContextTokens serde messages).lastUsageIndex
      else prepared
    (parts.1 = [] ∧ compactionCut serde settings contextWindow messages = none) ∨
      (parts.1 ≠ [] ∧ ∃ cut, compactionCut serde settings contextWindow messages = some cut ∧
        cut.window = parts.2) := by
  intro prepared parts
  by_cases split : settings.reserveTokens + settings.keepRecentTokens <
        estimateTokens serde messages ∧
      (recentTail serde settings (messages.rdropWhile AgentMessage.isToolResult)).length <
        (messages.rdropWhile AgentMessage.isToolResult).length
  · have exceeds := prepareCompaction_over serde settings messages (UInt32.not_le.mpr split.1)
    have summarized : prepared.1 ≠ [] := by
      intro none
      have size := congrArg length none
      simp only [prepared, exceeds, length_take, length_nil] at size
      omega
    apply Or.inr
    simp only [parts, summarized, ↓reduceIte, compactionCut, due, Bool.true_eq_false]
    rw [if_pos split]
    exact ⟨summarized, _, rfl, by simp [prepared, exceeds]⟩
  · have nothing : prepared.1 = [] := by
      by_cases under : estimateTokens serde messages ≤
          settings.reserveTokens + settings.keepRecentTokens
      · simp [prepared, prepareCompaction_under serde settings messages under]
      · have whole := not_and.mp split (UInt32.not_le.mp under)
        have zero : (messages.rdropWhile AgentMessage.isToolResult).length -
            (recentTail serde settings
              (messages.rdropWhile AgentMessage.isToolResult)).length = 0 := by omega
        simp [prepared, prepareCompaction_over serde settings messages under, zero]
    simp only [parts, nothing, ↓reduceIte, compactionCut, due, Bool.true_eq_false]
    rw [if_neg split]
    cases anchored : (estimateContextTokens serde messages).lastUsageIndex with
    | none => exact .inl ⟨rfl, rfl⟩
    | some anchor =>
      have inside := lastUsageIndex_lt serde anchored
      rw [splitForCompactionAfterUsageAnchor_some inside]
      refine .inr ⟨?_, _, rfl, rfl⟩
      intro none
      have size := congrArg length (append_eq_nil_iff.mp none).1
      rw [length_take, length_nil] at size
      omega

theorem maybeCompactRuntimeContext_messages (serde : Serde) (summary : String)
    (ctx : AgentTurnContext) :
    match contextCut serde ctx with
    | none => (maybeCompactRuntimeContext serde (.ok summary) ctx).2.messages = ctx.messages
    | some cut => ∃ messageId tokensBefore,
        (maybeCompactRuntimeContext serde (.ok summary) ctx).2.messages =
          .compactionSummary messageId summary tokensBefore ::
            cut.window.map clearAssistantUsage := by
  cases configured : ctx.config.compaction with
  | none => simp [contextCut, maybeCompactRuntimeContext, configured]
  | some config =>
    simp only [contextCut, configured, Option.bind_some, maybeCompactRuntimeContext]
    cases due : shouldCompact (estimateContextTokens serde ctx.messages).tokens
        ctx.config.model.contextWindow config.settings with
    | false => simp [compactionCut, due]
    | true =>
      simp only [Bool.not_true, Bool.false_eq_true, ↓reduceIte]
      rcases parts_eq_cut serde config.settings ctx.config.model.contextWindow ctx.messages due
        with ⟨nothing, no_cut⟩ | ⟨something, cut, found, window⟩
      · rw [no_cut, if_pos nothing]
      · rw [found, if_neg something]
        exact ⟨_, _, by rw [window]; rfl⟩

section pairs

variable {serde : Serde} {settings : CompactionSettings} {cut : Cut}

theorem tail_paired_iff (paired : Paired messages) :
    Paired (recentTail serde settings (messages.rdropWhile AgentMessage.isToolResult)) ↔
      TailKeepsPairs serde settings messages := by
  let core := messages.rdropWhile AgentMessage.isToolResult
  let window := recentTail serde settings core
  have split : core.take (core.length - window.length) ++ window = core :=
    take_append_recentTail serde settings core
  have whole : messages = core.take (core.length - window.length) ++ window ++
      messages.rtakeWhile AgentMessage.isToolResult := by
    rw [split]
    exact rdropWhile_append_rtakeWhile.symm
  have start : (core.take (core.length - window.length)).length = core.length - window.length := by
    rw [length_take]
    omega
  have pays (position : Nat) (inside : position < core.length) :
      Reaches serde settings core position ↔ core.length - window.length ≤ position :=
    reaches_iff serde settings core position inside
  unfold Paired
  rw [Dialogue.paired_window_iff whole paired, split, start]
  constructor
  · rintro ⟨called, replied⟩
    constructor
    · intro core call reply id near inside reached
      rw [pays reply inside] at reached
      rw [pays call (Nat.lt_trans near.order inside)]
      exact called call reply id near reached inside
    · intro core call reply id first inside trailing reached
      rw [pays call inside] at reached
      exact absurd (replied call reply id first reached inside) (Nat.not_lt_of_le trailing)
  · intro keeps
    constructor
    · intro call reply id near low inside
      rw [← pays call (Nat.lt_trans near.order inside)]
      exact keeps.called call reply id near inside ((pays reply inside).mpr low)
    · intro call reply id first low inside
      by_contra trailing
      exact keeps.replied call reply id first inside (Nat.le_of_not_lt trailing)
        ((pays call inside).mpr low)

theorem anchor_paired_iff (paired : Paired messages) {anchor : Nat}
    (inside : anchor < messages.length) :
    Paired ((messages.drop (anchor + 1)).dropWhile AgentMessage.isToolResult) ↔
      AnchorKeepsPairs messages anchor := by
  let results := (messages.drop (anchor + 1)).takeWhile AgentMessage.isToolResult
  let window := (messages.drop (anchor + 1)).dropWhile AgentMessage.isToolResult
  have whole : messages = (messages.take (anchor + 1) ++ results) ++ window ++ [] := by
    simp [results, window]
  have start : (messages.take (anchor + 1) ++ results).length = anchor + 1 + results.length := by
    rw [length_append, length_take]
    omega
  have size := congrArg length whole
  rw [append_nil, length_append, start] at size
  have result (position : Nat) (message : AgentMessage) (later : anchor < position)
      (early : position < anchor + 1 + results.length)
      (there : messages[position]? = some message) : message.isToolResult = true := by
    obtain ⟨place, rfl⟩ := Nat.exists_eq_add_of_lt later
    rw [whole, append_nil, getElem?_append_left (by omega),
      getElem?_append_right (by rw [length_take]; omega)] at there
    exact mem_takeWhile_imp (mem_of_getElem? there)
  unfold Paired
  rw [Dialogue.paired_window_iff whole paired, start, length_append, start, ← size]
  constructor
  · rintro ⟨called, -⟩ call reply id near older between message later early there
    refine result between message later ?_ there
    by_contra beyond
    have newer := called call reply id near (by omega) (Dialogue.lt_of_answers near.replied)
    omega
  · intro keeps
    refine ⟨fun call reply id near low _ => ?_,
      fun call reply id first _ _ => Dialogue.lt_of_answers first.replied⟩
    by_contra early
    by_cases older : call ≤ anchor
    · have high := Dialogue.lt_of_answers near.replied
      have filled : window ≠ [] := length_pos_iff.mp (by omega)
      have there : messages[anchor + 1 + results.length]? = some (window.head filled) := by
        rw [whole, append_nil, getElem?_append_right start.le, start, Nat.sub_self,
          ← head?_eq_getElem?, head?_eq_some_head]
      have plain := head_dropWhile_not AgentMessage.isToolResult filled
      rw [keeps call reply id near older _ _ (by omega) low there] at plain
      cases plain
    · obtain ⟨message, there, called⟩ := near.called
      have mute : message.callIds = [] := by
        have tool := result call message (by omega) (by omega) there
        cases message <;> first | rfl | cases tool
      rw [mute] at called
      cases called

theorem reaches_zero_iff (core : List AgentMessage) :
    ¬ Reaches serde settings core 0 ↔ (recentTail serde settings core).length < core.length := by
  cases core with
  | nil =>
    refine iff_of_false (not_not_intro ?_) (Nat.lt_irrefl 0)
    exact fun _ _ more => absurd more (Nat.not_lt_zero _)
  | cons message rest =>
    rw [reaches_iff serde settings (message :: rest) 0 (Nat.succ_pos _), length_cons]
    omega

theorem compactionCut_paired_iff (paired : Paired messages) (contextWindow : UInt32) :
    (∀ cut, compactionCut serde settings contextWindow messages = some cut → Paired cut.window) ↔
      (shouldCompact (estimateContextTokens serde messages).tokens contextWindow settings = true →
        KeepsPairs serde settings messages) := by
  simp only [compactionCut, KeepsPairs, reaches_zero_iff]
  cases shouldCompact (estimateContextTokens serde messages).tokens contextWindow settings with
  | false => simp
  | true =>
    simp only [Bool.true_eq_false, ↓reduceIte, forall_const]
    split
    · next summarizes =>
      simp [summarizes, tail_paired_iff paired]
    · next within =>
      simp only [within, IsEmpty.forall_iff, not_false_eq_true, forall_const, true_and]
      refine ⟨fun kept anchor anchored => ?_, fun keeps cut found => ?_⟩
      · rw [anchored] at kept
        exact (anchor_paired_iff paired (lastUsageIndex_lt serde anchored)).mp (kept _ rfl)
      · obtain ⟨anchor, anchored, rfl⟩ := Option.map_eq_some_iff.mp found
        exact (anchor_paired_iff paired (lastUsageIndex_lt serde anchored)).mpr
          (keeps anchor anchored)

end pairs

/-- Compaction leaves every kept result with its call and every kept call with its result exactly
when the messages and the settings are such that what is kept starts and ends at no pair. -/
theorem maybeCompactRuntimeContext_paired_iff (serde : Serde) (summary : String)
    (ctx : AgentTurnContext) (paired : Paired ctx.messages) :
    Paired (maybeCompactRuntimeContext serde (.ok summary) ctx).2.messages ↔
      ∀ config, ctx.config.compaction = some config →
        shouldCompact (estimateContextTokens serde ctx.messages).tokens
            ctx.config.model.contextWindow config.settings = true →
          KeepsPairs serde config.settings ctx.messages := by
  have result := maybeCompactRuntimeContext_messages serde summary ctx
  have cuts : (∀ cut, contextCut serde ctx = some cut → Paired cut.window) ↔
      ∀ config, ctx.config.compaction = some config →
        shouldCompact (estimateContextTokens serde ctx.messages).tokens
            ctx.config.model.contextWindow config.settings = true →
          KeepsPairs serde config.settings ctx.messages := by
    cases configured : ctx.config.compaction with
    | none => simp [contextCut, configured]
    | some config => simp [contextCut, configured, compactionCut_paired_iff paired]
  rw [← cuts]
  cases found : contextCut serde ctx with
  | none =>
    simp only [found] at result
    simp [result, paired]
  | some cut =>
    simp only [found] at result
    obtain ⟨messageId, tokensBefore, messages⟩ := result
    unfold Paired
    rw [messages, Dialogue.paired_cons rfl rfl, Dialogue.paired_map clearAssistantUsage
      clearAssistantUsage_callIds clearAssistantUsage_answers]
    simp

def shortOfTokens (messages : List AgentMessage) : AgentTurnContext where
  messages := messages
  steeringQueue := []
  followUpQueue := []
  config := {
    model := ⟨"model", "provider", 1⟩
    compaction := some { settings := ⟨true, 0, 0⟩ } }
  tools := []

def askAndCall : List AgentMessage :=
  [.userText "user_0" "read the file",
    .assistant "m" { AssistantMessage.empty "api" "model" with
      content := [.toolCall "c" "read" .emptyObject none], stopReason := .toolUse },
    .toolResult "c" "c" "read" false [.text "text" none]]

theorem askAndCall_paired (later : List AgentMessage)
    (texts : ∀ message ∈ later, ∃ messageId text, message = .userText messageId text) :
    Paired (askAndCall ++ later) := by
  have quiet : ∀ message ∈ later, message.callIds = [] ∧ message.answers? = none := by
    intro message inside
    obtain ⟨messageId, text, rfl⟩ := texts message inside
    exact ⟨rfl, rfl⟩
  constructor
  · intro reply id answer
    rcases reply with _ | _ | _ | reply
    · cases answer
    · cases answer
    · cases answer
      exact ⟨1, by decide, _, rfl, mem_cons_self⟩
    · obtain ⟨message, there, answer⟩ := Option.bind_eq_some_iff.mp answer
      rw [(quiet message (mem_of_getElem? there)).2] at answer
      cases answer
  · rintro call id ⟨message, there, called⟩
    rcases call with _ | _ | _ | call
    · cases there
      cases called
    · cases there
      rcases mem_singleton.mp called with rfl
      exact ⟨2, by decide, rfl⟩
    · cases there
      cases called
    · rw [(quiet message (mem_of_getElem? (i := call) there)).1] at called
      cases called

/-- With a user message after the tool result the kept part is that message alone. -/
theorem maybeCompactRuntimeContext_paired_text :
    Paired (maybeCompactRuntimeContext ⟨fun _ => none, fun _ => "{}", rfl⟩ (.ok "summary")
      (shortOfTokens (askAndCall ++ [.userText "user_3" "go on"]))).2.messages := by
  apply (maybeCompactRuntimeContext_paired_iff _ "summary"
    (shortOfTokens (askAndCall ++ [.userText "user_3" "go on"]))
    (askAndCall_paired _ (by simp))).mpr
  rintro config ⟨⟩ _
  refine ⟨fun _ => ⟨?_, ?_⟩, fun within => absurd ⟨by decide, ?_⟩ within⟩
  · intro core call reply id near inside reached
    have last := (reaches_iff _ _ core reply inside).mp reached
    change 3 ≤ reply at last
    have within : reply < 4 := inside
    obtain rfl : reply = 3 := by omega
    cases near.replied
  · intro core call reply id first _ trailing
    exact absurd (Dialogue.lt_of_answers first.replied) (Nat.not_lt_of_le trailing)
  · rw [reaches_zero_iff]
    decide

/-- The call is kept, its result is dropped. -/
theorem maybeCompactRuntimeContext_drops_result :
    Paired askAndCall ∧
      ¬ Paired (maybeCompactRuntimeContext ⟨fun _ => none, fun _ => "{}", rfl⟩ (.ok "summary")
        (shortOfTokens askAndCall)).2.messages := by
  have paired : Paired askAndCall := by
    have whole := askAndCall_paired [] (by simp)
    rwa [append_nil] at whole
  refine ⟨paired, ?_⟩
  rw [maybeCompactRuntimeContext_paired_iff _ "summary" (shortOfTokens askAndCall) paired]
  intro keeps
  refine ((keeps _ rfl (by decide)).1 ⟨by decide, ?_⟩).replied 1 2 "c" ?_ (by decide) (by decide) ?_
  · rw [reaches_zero_iff]
    decide
  · exact ⟨by decide, ⟨_, rfl, mem_singleton_self _⟩, rfl, fun _ _ _ => by omega⟩
  · exact (reaches_iff _ _ _ 1 (by decide)).mpr (by decide)

end PiRust.Compaction
