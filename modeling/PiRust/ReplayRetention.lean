import PiRust.ReplayVisibility
import PiRust.Weave

/- What becomes of the items that a replay shows when later events, and the
recovered operations among the earlier ones, are folded in. -/
namespace PiRust.SessionLog

open Weave List

def itemIds (event : SessionEventEnvelope) : List String :=
  match event.data with
  | .turnInputRecorded _ => [event.turnId.getD ""]
  | .messageStarted messageId | .messageCompleted messageId _ _ | .messageCancelled messageId =>
    [messageId]
  | .toolCallStarted toolCallId _ _ | .toolCallUpdated toolCallId _
  | .toolCallCompleted toolCallId _ | .toolCallFailed toolCallId _
  | .toolCallCancelled toolCallId _ | .delegationFoldedUpdated toolCallId _ _ _ _ _ _ _ =>
    [toolCallId]
  | .sessionCompactionCompleted _ firstKeptMessageId _ => [firstKeptMessageId]
  | _ => []

def isCompaction : SessionEventData → Bool
  | .sessionCompactionCompleted .. => true
  | _ => false

/-- An index map of a builder and of the builder of a woven transcript. The ids that
`own` accepts have marked items. -/
structure Follows (own : String → Bool) (woven : List (Bool × TranscriptItem))
    (base full : StringMap Nat) : Prop where
  position : ∀ key index, StringMap.get full key = some index →
    ∃ item, woven[index]? = some (own key, item)
  lookup : ∀ key, StringMap.get base key =
    if own key = true then (StringMap.get full key).map (rank woven) else none

/-- The transcript of `full` is that of `base` with other items woven in. -/
structure Woven (own : String → Bool) (woven : List (Bool × TranscriptItem))
    (base full : ReplayBuilder) : Prop where
  fullItems : full.transcript = woven.map Prod.snd
  baseItems : base.transcript = kept woven
  owned : ∀ entry ∈ woven, ∀ id, transcriptItemId entry.2 = some id → own id = entry.1
  messages : Follows own woven base.messageIndices full.messageIndices
  tools : Follows own woven base.toolIndices full.toolIndices
  delegations : Follows own woven base.delegationIndices full.delegationIndices

section follows

variable {own : String → Bool} {woven : List (Bool × TranscriptItem)} {base full : StringMap Nat}

theorem Follows.nil (own : String → Bool) (woven : List (Bool × TranscriptItem)) :
    Follows own woven [] [] where
  position := nofun
  lookup := fun key => by simp

variable {mark : Bool} {index : Nat} {key : String}

section

variable (follows : Follows own woven base full)
include follows

theorem Follows.inside (found : StringMap.get full key = some index) : index < woven.length := by
  obtain ⟨item, placed⟩ := follows.position key index found
  exact (List.getElem?_eq_some_iff.mp placed).1

theorem Follows.base_some (found : StringMap.get full key = some index) (mine : own key = true) :
    StringMap.get base key = some (rank woven index) := by
  rw [follows.lookup, if_pos mine, found, Option.map_some]

theorem Follows.base_none (missing : StringMap.get full key = none) :
    StringMap.get base key = none := by
  rw [follows.lookup, missing]
  split <;> rfl

theorem Follows.append (entry : Bool × TranscriptItem) :
    Follows own (woven ++ [entry]) base full where
  position := by
    intro key index found
    obtain ⟨item, placed⟩ := follows.position key index found
    exact ⟨item, by rw [getElem?_append_left (follows.inside found), placed]⟩
  lookup := by
    intro key
    rw [follows.lookup]
    cases found : StringMap.get full key with
    | none => rfl
    | some index =>
      simp only [Option.map_some, rank_append woven [entry] index (Nat.le_of_lt (follows.inside found))]

theorem Follows.set {item : TranscriptItem} (placed : woven[index]? = some (mark, item))
    (changed : TranscriptItem) : Follows own (woven.set index (mark, changed)) base full where
  position := by
    intro key other found
    obtain ⟨there, here⟩ := follows.position key other found
    by_cases same : index = other
    · subst same
      rw [here] at placed
      cases placed
      have inside := follows.inside found
      exact ⟨changed, by rw [getElem?_set_self inside]⟩
    · exact ⟨there, by rw [getElem?_set_ne same, here]⟩
  lookup := by
    intro key
    have same : rank (woven.set index (mark, changed)) = rank woven :=
      funext fun other => rank_set placed changed other
    rw [same]
    exact follows.lookup key

theorem Follows.insert {item : TranscriptItem} (mine : own key = mark)
    (placed : woven[index]? = some (mark, item)) :
    Follows own woven (if mark then StringMap.insert base key (rank woven index) else base)
      (StringMap.insert full key index) where
  position := by
    intro other position found
    rw [StringMap.get_insert] at found
    by_cases same : other = key
    · subst same
      rw [if_pos rfl] at found
      cases found
      exact ⟨item, by rw [mine, placed]⟩
    · rw [if_neg same] at found
      exact follows.position other position found
  lookup := by
    intro other
    by_cases same : other = key
    · subst same
      cases mark with
      | false => simp [follows.lookup, mine]
      | true => simp [StringMap.get_insert, mine]
    · cases mark with
      | false | true => simp [follows.lookup, StringMap.get_insert, same]

theorem Follows.remove (mine : own key = mark) :
    Follows own woven (if mark then StringMap.remove base key else base)
      (StringMap.remove full key) where
  position := by
    intro other position found
    rw [StringMap.get_remove] at found
    by_cases same : other = key
    · rw [if_pos same] at found
      cases found
    · rw [if_neg same] at found
      exact follows.position other position found
  lookup := by
    intro other
    by_cases same : other = key
    · subst same
      cases mark with
      | false => simp [follows.lookup, mine]
      | true => simp [StringMap.get_remove, mine]
    · cases mark with
      | false | true => simp [follows.lookup, StringMap.get_remove, same]

end

end follows

section woven

variable {own : String → Bool} {woven : List (Bool × TranscriptItem)} {base full : ReplayBuilder}

def itemState (builder : ReplayBuilder) :
    List TranscriptItem × StringMap Nat × StringMap Nat × StringMap Nat :=
  (builder.transcript, builder.messageIndices, builder.toolIndices, builder.delegationIndices)

theorem Woven.congr (before : Woven own woven base full) {base' full' : ReplayBuilder}
    (sameBase : itemState base' = itemState base) (sameFull : itemState full' = itemState full) :
    Woven own woven base' full' := by
  simp only [itemState, Prod.mk.injEq] at sameBase sameFull
  obtain ⟨baseItems, baseMessages, baseTools, baseDelegations⟩ := sameBase
  obtain ⟨fullItems, fullMessages, fullTools, fullDelegations⟩ := sameFull
  refine ⟨?_, ?_, before.owned, ?_, ?_, ?_⟩
  · rw [fullItems, before.fullItems]
  · rw [baseItems, before.baseItems]
  · rw [baseMessages, fullMessages]; exact before.messages
  · rw [baseTools, fullTools]; exact before.tools
  · rw [baseDelegations, fullDelegations]; exact before.delegations

theorem Woven.neutral (before : Woven own woven base full) (mark : Bool)
    (step : ReplayBuilder → ReplayBuilder)
    (same : ∀ builder, itemState (step builder) = itemState builder) :
    Woven own woven (if mark then step base else base) (step full) := by
  cases mark with
  | false => exact before.congr rfl (same full)
  | true => exact before.congr (same base) (same full)

variable {mark : Bool} {key toolCallId : String} {baseMap fullMap : StringMap Nat}
  {item : TranscriptItem}

section

variable (before : Woven own woven base full)
include before

theorem Woven.pushItem (mine : ∀ id, transcriptItemId item = some id → own id = mark) :
    Woven own (woven ++ [(mark, item)]) (if mark then base.pushItem item else base)
      (full.pushItem item) := by
  have owned : ∀ entry ∈ woven ++ [(mark, item)], ∀ id, transcriptItemId entry.2 = some id →
      own id = entry.1 := by
    intro entry member
    rcases mem_append.mp member with old | new
    · exact before.owned entry old
    · rw [mem_singleton.mp new]
      exact mine
  have fullItems : (full.pushItem item).transcript = (woven ++ [(mark, item)]).map Prod.snd := by
    simp [ReplayBuilder.pushItem, before.fullItems]
  cases mark with
  | false =>
    refine ⟨fullItems, ?_, owned, before.messages.append _, before.tools.append _,
      before.delegations.append _⟩
    rw [kept_append, ← before.baseItems]
    exact (append_nil _).symm
  | true =>
    refine ⟨fullItems, ?_, owned, before.messages.append _, before.tools.append _,
      before.delegations.append _⟩
    rw [kept_append, ← before.baseItems]
    rfl

theorem Woven.pushed (mark : Bool) (item : TranscriptItem) :
    (woven ++ [(mark, item)])[full.transcript.length]? = some (mark, item) ∧
      rank (woven ++ [(mark, item)]) full.transcript.length = base.transcript.length := by
  have length : full.transcript.length = woven.length := by
    rw [before.fullItems, length_map]
  rw [length, before.baseItems, rank_append _ _ _ (Nat.le_refl _), rank_length]
  exact ⟨getElem?_concat_length .., rfl⟩

theorem Woven.setItem {index : Nat} (placed : woven[index]? = some (mark, item))
    (changed : TranscriptItem) (mine : ∀ id, transcriptItemId changed = some id → own id = mark) :
    Woven own (woven.set index (mark, changed))
      (if mark then { base with transcript := base.transcript.set (rank woven index) changed }
        else base)
      { full with transcript := full.transcript.set index changed } := by
  have owned : ∀ entry ∈ woven.set index (mark, changed), ∀ id,
      transcriptItemId entry.2 = some id → own id = entry.1 := by
    intro entry member
    rcases mem_or_eq_of_mem_set member with old | rfl
    · exact before.owned entry old
    · exact mine
  have fullItems : full.transcript.set index changed =
      (woven.set index (mark, changed)).map Prod.snd := by
    rw [before.fullItems, map_set]
  cases mark with
  | false =>
    refine ⟨fullItems, ?_, owned, before.messages.set placed _, before.tools.set placed _,
      before.delegations.set placed _⟩
    rw [kept_set_false placed, ← before.baseItems]
    rfl
  | true =>
    refine ⟨fullItems, ?_, owned, before.messages.set placed _, before.tools.set placed _,
      before.delegations.set placed _⟩
    rw [kept_set_true placed, ← before.baseItems]
    rfl

theorem Woven.changeItem (follows : Follows own woven baseMap fullMap) (mine : own key = mark)
    (change : TranscriptItem → Option TranscriptItem)
    (sameId : ∀ item changed, change item = some changed → transcriptItemId changed = transcriptItemId item) :
    (full.changeItem (StringMap.get fullMap key) change = none ∧
      (mark = true → base.changeItem (StringMap.get baseMap key) change = none)) ∨
    ∃ base' full' woven', full.changeItem (StringMap.get fullMap key) change = some full' ∧
      (mark = true → base.changeItem (StringMap.get baseMap key) change = some base') ∧
      (mark = false → base' = base) ∧ Woven own woven' base' full' := by
  cases found : StringMap.get fullMap key with
  | none =>
    refine .inl ⟨rfl, fun _ => ?_⟩
    rw [follows.base_none found]
    rfl
  | some index =>
    obtain ⟨item, placed⟩ := follows.position key index found
    rw [mine] at placed
    have there : full.transcript[index]? = some item := by
      rw [before.fullItems, getElem?_map, placed, Option.map_some]
    have here : mark = true → base.transcript[rank woven index]? = some item := by
      intro marked
      rw [marked] at placed
      rw [before.baseItems, kept_getElem placed]
    have looked : mark = true → StringMap.get baseMap key = some (rank woven index) :=
      fun marked => follows.base_some found (by rw [mine, marked])
    cases result : change item with
    | none =>
      refine .inl ⟨?_, fun marked => ?_⟩
      · simp [ReplayBuilder.changeItem, there, result]
      · simp [ReplayBuilder.changeItem, looked marked, here marked, result]
    | some changed =>
      have id : ∀ id, transcriptItemId changed = some id → own id = mark := by
        intro id named
        rw [sameId item changed result] at named
        exact before.owned (mark, item) (mem_of_getElem? placed) id named
      refine .inr ⟨_, _, _, ?_, fun marked => ?_, fun unmarked => ?_,
        before.setItem placed changed id⟩
      · simp [ReplayBuilder.changeItem, there, result]
      · simp [ReplayBuilder.changeItem, looked marked, here marked, result, marked]
      · rw [unmarked]
        rfl

theorem Woven.changeOrWarn (follows : Follows own woven baseMap fullMap) (mine : own key = mark)
    (change : TranscriptItem → Option TranscriptItem)
    (sameId : ∀ item changed, change item = some changed → transcriptItemId changed = transcriptItemId item)
    (message : String) :
    ∃ woven', Woven own woven'
      (if mark then (base.changeItem (StringMap.get baseMap key) change).getD (base.warn message)
        else base)
      ((full.changeItem (StringMap.get fullMap key) change).getD (full.warn message)) := by
  rcases before.changeItem follows mine change sameId with
    ⟨failed, baseFailed⟩ | ⟨base', full', woven', success, baseSuccess, unchanged, after⟩
  · rw [failed]
    refine ⟨woven, ?_⟩
    cases mark with
    | false => exact before.congr rfl rfl
    | true =>
      rw [baseFailed rfl]
      exact before.congr rfl rfl
  · rw [success]
    refine ⟨woven', ?_⟩
    cases mark with
    | false =>
      rw [unchanged rfl] at after
      exact after
    | true =>
      rw [baseSuccess rfl]
      exact after

theorem Woven.setToolStatus (mine : own toolCallId = mark) (status : ToolCallStatus) :
    (full.setToolStatus toolCallId status = none ∧
      (mark = true → base.setToolStatus toolCallId status = none)) ∨
    ∃ base' full' woven', full.setToolStatus toolCallId status = some full' ∧
      (mark = true → base.setToolStatus toolCallId status = some base') ∧
      (mark = false → base' = base) ∧ Woven own woven' base' full' :=
  before.changeItem before.tools mine _ fun item changed done => by
    cases item <;> cases done
    rfl

theorem Woven.changeToolSummary (mine : own toolCallId = mark) (change : String → String) :
    (full.changeToolSummary toolCallId change = none ∧
      (mark = true → base.changeToolSummary toolCallId change = none)) ∨
    ∃ base' full' woven', full.changeToolSummary toolCallId change = some full' ∧
      (mark = true → base.changeToolSummary toolCallId change = some base') ∧
      (mark = false → base' = base) ∧ Woven own woven' base' full' :=
  before.changeItem before.tools mine _ fun item changed done => by
    cases item <;> cases done
    rfl

theorem Woven.finishTool (mine : own toolCallId = mark) (status : ToolCallStatus)
    (summary warning : String) :
    ∃ woven', Woven own woven'
      (if mark then base.finishTool toolCallId status summary warning else base)
      (full.finishTool toolCallId status summary warning) := by
  unfold ReplayBuilder.finishTool
  rcases before.setToolStatus mine status with
    ⟨failed, baseFailed⟩ | ⟨base', full', woven', success, baseSuccess, unchanged, after⟩
  · refine ⟨woven, ?_⟩
    rw [failed]
    cases mark with
    | false => exact before.congr rfl rfl
    | true =>
      rw [baseFailed rfl]
      exact before.congr rfl rfl
  · rw [success]
    -- The status is set on both sides; the summary may still fail, and then on both.
    rcases after.changeToolSummary mine (fun _ => summary) with
      ⟨failed, baseFailed⟩ | ⟨last, fullLast, wovenLast, done, baseDone, same, final⟩
    · refine ⟨woven', ?_⟩
      simp only [failed, Option.getD_none]
      cases mark with
      | false =>
        rw [unchanged rfl] at after
        exact after
      | true =>
        simp only [baseSuccess, baseFailed, Option.getD_none, if_true]
        exact after
    · refine ⟨wovenLast, ?_⟩
      simp only [done, Option.getD_some]
      cases mark with
      | false =>
        rw [same rfl, unchanged rfl] at final
        exact final
      | true =>
        simp only [baseSuccess, baseDone, Option.getD_some, if_true]
        exact final

theorem Woven.applyDelegationFoldedUpdate (mine : own toolCallId = mark)
    (named : transcriptItemId item = some toolCallId) :
    ∃ woven', Woven own woven'
      (if mark then base.applyDelegationFoldedUpdate toolCallId item else base)
      (full.applyDelegationFoldedUpdate toolCallId item) := by
  have owned : ∀ id, transcriptItemId item = some id → own id = mark := by
    intro id same
    rw [named] at same
    cases same
    exact mine
  unfold ReplayBuilder.applyDelegationFoldedUpdate
  cases folded : StringMap.get full.delegationIndices toolCallId with
  | some index =>
    obtain ⟨old, placed⟩ := before.delegations.position toolCallId index folded
    rw [mine] at placed
    have after := before.setItem placed item owned
    refine ⟨woven.set index (mark, item), ?_⟩
    cases mark with
    | false => exact after
    | true =>
      simp only [before.delegations.base_some folded mine, if_true]
      exact after
  | none =>
    cases called : StringMap.get full.toolIndices toolCallId with
    | some index =>
      obtain ⟨old, placed⟩ := before.tools.position toolCallId index called
      rw [mine] at placed
      have after := before.setItem placed item owned
      have inside := before.tools.inside called
      have there : (woven.set index (mark, item))[index]? = some (mark, item) :=
        getElem?_set_self inside
      have tools := after.tools.remove mine
      have delegations := after.delegations.insert mine there
      rw [rank_set placed] at delegations
      refine ⟨woven.set index (mark, item), ?_⟩
      cases mark with
      | false =>
        exact ⟨after.fullItems, after.baseItems, after.owned, after.messages, tools, delegations⟩
      | true =>
        simp only [before.delegations.base_none folded, before.tools.base_some called mine, if_true]
        exact ⟨after.fullItems, after.baseItems, after.owned, after.messages, tools, delegations⟩
    | none =>
      have after := before.pushItem owned
      obtain ⟨there, last⟩ := before.pushed mark item
      have delegations := after.delegations.insert mine there
      rw [last] at delegations
      refine ⟨woven ++ [(mark, item)], ?_⟩
      cases mark with
      | false =>
        exact ⟨after.fullItems, after.baseItems, after.owned, after.messages, after.tools,
          delegations⟩
      | true =>
        simp only [before.delegations.base_none folded, before.tools.base_none called, if_true]
        exact ⟨after.fullItems, after.baseItems, after.owned, after.messages, after.tools,
          delegations⟩

theorem Woven.indexItem {index : Nat} (placed : woven[index]? = some (mark, item)) :
    Woven own woven (if mark then base.indexItem (item, rank woven index) else base)
      (full.indexItem (item, index)) := by
  have owned := before.owned (mark, item) (mem_of_getElem? placed)
  cases item
  case assistantMessage messageId content status =>
    have messages := before.messages.insert (owned messageId rfl) placed
    cases mark <;> exact ⟨before.fullItems, before.baseItems, before.owned, messages, before.tools,
      before.delegations⟩
  case toolCall toolCallId name arguments status summary =>
    have tools := before.tools.insert (owned toolCallId rfl) placed
    cases mark <;> exact ⟨before.fullItems, before.baseItems, before.owned, before.messages, tools,
      before.delegations⟩
  case delegationBlock toolCallId profile kind target task status child summary =>
    have delegations := before.delegations.insert (owned toolCallId rfl) placed
    cases mark <;> exact ⟨before.fullItems, before.baseItems, before.owned, before.messages,
      before.tools, delegations⟩
  all_goals cases mark <;> exact before

end

theorem Woven.indexItems (front back : List (Bool × TranscriptItem)) :
    ∀ {base full : ReplayBuilder}, Woven own (front ++ back) base full →
      Woven own (front ++ back)
        (((kept back).zipIdx (kept front).length).foldl
          (fun builder entry => builder.indexItem entry) base)
        (((back.map Prod.snd).zipIdx front.length).foldl
          (fun builder entry => builder.indexItem entry) full) := by
  induction back generalizing front with
  | nil => exact fun before => before
  | cons entry back ih =>
    intro base full before
    obtain ⟨mark, item⟩ := entry
    have placed : (front ++ (mark, item) :: back)[front.length]? = some (mark, item) := by
      simp
    have ranked : rank (front ++ (mark, item) :: back) front.length = (kept front).length := by
      rw [rank_append _ _ _ (Nat.le_refl _), rank_length]
    have step := before.indexItem placed
    rw [ranked] at step
    have whole : front ++ (mark, item) :: back = (front ++ [(mark, item)]) ++ back := by simp
    rw [whole] at step ⊢
    have later := ih (front ++ [(mark, item)]) step
    rw [length_append, kept_append, length_append] at later
    cases mark with
    | false => exact later
    | true => exact later

theorem Woven.rebuildIndices (fullItems : full.transcript = woven.map Prod.snd)
    (baseItems : base.transcript = kept woven)
    (owned : ∀ entry ∈ woven, ∀ id, transcriptItemId entry.2 = some id → own id = entry.1) :
    Woven own woven base.rebuildIndices full.rebuildIndices := by
  have cleared : Woven own ([] ++ woven)
      { base with messageIndices := [], toolIndices := [], delegationIndices := [] }
      { full with messageIndices := [], toolIndices := [], delegationIndices := [] } :=
    ⟨fullItems, baseItems, owned, Follows.nil own _, Follows.nil own _, Follows.nil own _⟩
  have indexed := Woven.indexItems [] woven cleared
  rw [← fullItems, ← baseItems] at indexed
  exact indexed

theorem Woven.applyCompactionCompleted (before : Woven own woven base full)
    {firstKeptMessageId : String} (mine : own firstKeptMessageId = true) (summary : String)
    (tokensBefore : UInt32) :
    ∃ woven', Woven own woven'
      (base.applyCompactionCompleted summary firstKeptMessageId tokensBefore)
      (full.applyCompactionCompleted summary firstKeptMessageId tokensBefore) := by
  have marked : ∀ entry ∈ woven,
      decide (transcriptItemId entry.2 = some firstKeptMessageId) = true → entry.1 = true := by
    intro entry member found
    rw [← before.owned entry member firstKeptMessageId (of_decide_eq_true found), mine]
  have positions := kept_findIdx? woven
    (fun item => decide (transcriptItemId item = some firstKeptMessageId)) marked
  rw [← before.baseItems, ← before.fullItems] at positions
  unfold ReplayBuilder.applyCompactionCompleted
  rw [positions]
  cases found : full.transcript.findIdx?
      fun item => decide (transcriptItemId item = some firstKeptMessageId) with
  | none => exact ⟨woven, before.congr rfl rfl⟩
  | some index =>
    refine ⟨(true, .compactionSummary summary firstKeptMessageId tokensBefore) ::
      woven.drop index, Woven.rebuildIndices ?_ ?_ ?_⟩
    · simp [before.fullItems]
    · simp only [before.baseItems, kept_cons_true, kept_drop]
    · intro entry member id named
      rcases mem_cons.mp member with rfl | old
      · cases named
      · exact before.owned entry (mem_of_mem_drop old) id named

def touchesItems : SessionEventData → Bool
  | .sessionCompactionCompleted .. | .branchSummaryCreated .. | .delegationFoldedUpdated ..
  | .turnInputRecorded _ | .messageStarted _ | .messageCompleted .. | .messageCancelled _
  | .toolCallStarted .. | .toolCallUpdated .. | .toolCallCompleted .. | .toolCallFailed ..
  | .toolCallCancelled .. | .diagnosticEmitted .. => true
  | _ => false

theorem itemState_applyEvent (serde : Serde) (event : SessionEventEnvelope)
    (untouched : touchesItems event.data = false) (builder : ReplayBuilder) :
    itemState (builder.applyEvent serde event) = itemState builder := by
  unfold ReplayBuilder.applyEvent
  revert untouched
  cases event.data <;> intro untouched
  case operationStarted => cases event.operationId <;> rfl
  case operationCommitted newLeafId =>
    cases newLeafId with
    | none => rfl
    | some newLeafId =>
      simp only [ReplayBuilder.recordPromptLeaf]
      split
      · rfl
      · split <;> rfl
  case delegationConfirmationRequested =>
    simp only [ReplayBuilder.addPendingDelegationConfirmation]
    split <;> rfl
  case delegationConfirmationApproved | delegationConfirmationRejected =>
    simp only [ReplayBuilder.resolvePendingDelegationConfirmation]
    split <;> rfl
  all_goals first | rfl | cases untouched

theorem Woven.pushIndexed (before : Woven own woven base full)
    (named : transcriptItemId item = some key) (mine : own key = mark)
    (follows : Follows own woven baseMap fullMap) :
    Woven own (woven ++ [(mark, item)]) (if mark then base.pushItem item else base)
        (full.pushItem item) ∧
      Follows own (woven ++ [(mark, item)])
        (if mark then StringMap.insert baseMap key base.transcript.length else baseMap)
        (StringMap.insert fullMap key full.transcript.length) := by
  have owned : ∀ id, transcriptItemId item = some id → own id = mark := by
    intro id same
    rw [named] at same
    cases same
    exact mine
  obtain ⟨there, last⟩ := before.pushed mark item
  have entered := (follows.append (mark, item)).insert mine there
  rw [last] at entered
  exact ⟨before.pushItem owned, entered⟩

theorem Woven.applyEvent (serde : Serde) (before : Woven own woven base full)
    (event : SessionEventEnvelope) (mine : ∀ id ∈ itemIds event, own id = mark)
    (plain : mark = false → isCompaction event.data = false) :
    ∃ woven', Woven own woven' (if mark then base.applyEvent serde event else base)
      (full.applyEvent serde event) := by
  by_cases untouched : touchesItems event.data = false
  · exact ⟨woven, before.neutral mark (ReplayBuilder.applyEvent serde event)
      (itemState_applyEvent serde event untouched)⟩
  have only (id : String) (ids : itemIds event = [id]) : own id = mark :=
    mine id (by rw [ids]; exact mem_singleton.mpr rfl)
  unfold ReplayBuilder.applyEvent
  revert untouched
  cases data : event.data <;> intro touched
  case sessionCompactionCompleted summary firstKeptMessageId tokensBefore =>
    have owned := only firstKeptMessageId (by simp [itemIds, data])
    cases mark with
    | false =>
      rw [data] at plain
      cases plain rfl
    | true =>
      have cleared : Woven own woven
          { base with usage := { base.usage with lastContextTokens := none } }
          { full with usage := { full.usage with lastContextTokens := none } } :=
        before.congr rfl rfl
      exact cleared.applyCompactionCompleted owned summary tokensBefore
  case branchSummaryCreated => exact ⟨_, before.pushItem fun id named => nomatch named⟩
  case delegationFoldedUpdated toolCallId _ _ _ _ _ _ _ =>
    exact before.applyDelegationFoldedUpdate (only toolCallId (by simp [itemIds, data])) rfl
  case turnInputRecorded content =>
    refine ⟨_, before.pushItem fun id named => ?_⟩
    cases named
    exact only _ (by simp [itemIds, data])
  case messageStarted messageId =>
    have owned := only messageId (by simp [itemIds, data])
    have named : transcriptItemId (.assistantMessage messageId [] .started) = some messageId := rfl
    obtain ⟨after, messages⟩ := before.pushIndexed named owned before.messages
    refine ⟨woven ++ [(mark, .assistantMessage messageId [] .started)], ?_⟩
    cases mark <;> exact ⟨after.fullItems, after.baseItems, after.owned, messages, after.tools,
      after.delegations⟩
  case toolCallStarted toolCallId name arguments =>
    have owned := only toolCallId (by simp [itemIds, data])
    have named : transcriptItemId (.toolCall toolCallId name arguments .started "") =
      some toolCallId := rfl
    obtain ⟨after, tools⟩ := before.pushIndexed named owned before.tools
    refine ⟨woven ++ [(mark, .toolCall toolCallId name arguments .started "")], ?_⟩
    cases mark <;> exact ⟨after.fullItems, after.baseItems, after.owned, after.messages, tools,
      after.delegations⟩
  case messageCompleted messageId content usage =>
    have owned := only messageId (by simp [itemIds, data])
    have recorded := before.neutral mark (ReplayBuilder.recordAssistantUsage usage) fun _ => rfl
    cases mark <;> exact recorded.changeOrWarn recorded.messages owned _ (fun item changed done => by
      cases item <;> cases done
      rfl) _
  case messageCancelled messageId =>
    exact before.changeOrWarn before.messages (only messageId (by simp [itemIds, data])) _
      (fun item changed done => by
        cases item <;> cases done
        rfl) _
  case toolCallUpdated toolCallId message =>
    exact before.changeOrWarn before.tools (only toolCallId (by simp [itemIds, data])) _
      (fun item changed done => by
        cases item <;> cases done
        rfl) _
  case toolCallCompleted toolCallId _ | toolCallFailed toolCallId _
      | toolCallCancelled toolCallId _ =>
    exact before.finishTool (only toolCallId (by simp [itemIds, data])) _ _ _
  case diagnosticEmitted level message =>
    have diagnosed := before.neutral mark (ReplayBuilder.diagnose level message) fun _ => rfl
    have unnamed : ∀ id, transcriptItemId (.diagnostic level message) = some id → own id = mark :=
      fun id named => nomatch named
    refine ⟨woven ++ [(mark, .diagnostic level message)], (diagnosed.pushItem unnamed).congr ?_ rfl⟩
    cases mark <;> rfl
  all_goals exact absurd rfl touched

theorem itemState_observed (event : SessionEventEnvelope) (builder : ReplayBuilder) :
    itemState ((builder.observeSessionId event).observeOperationStatus event) =
      itemState builder := by
  have kept := congrArg itemState (ReplayBuilder.core_observeOperationStatus event
    (builder.observeSessionId event))
  rw [ReplayBuilder.core_observeSessionId] at kept
  exact kept

theorem Woven.foldEvent (serde : Serde) (before : Woven own woven base full)
    {finalized others : List String} (event : SessionEventEnvelope)
    (more : isReplayed finalized event = true → isReplayed others event = true)
    (early : isReplayed finalized event = true → ∀ id ∈ itemIds event, own id = true)
    (late : isReplayed finalized event = false → isReplayed others event = true →
      isCompaction event.data = false ∧ ∀ id ∈ itemIds event, own id = false) :
    ∃ woven', Woven own woven' (SessionLog.foldEvent serde finalized base event)
      (SessionLog.foldEvent serde others full event) := by
  have observed := before.congr (itemState_observed event base) (itemState_observed event full)
  unfold SessionLog.foldEvent
  cases shown : isReplayed finalized event with
  | true =>
    have mine : true = false → isCompaction event.data = false := nofun
    have applied := observed.applyEvent serde event (early shown) mine
    simpa only [more shown, if_true] using applied
  | false =>
    cases shownLater : isReplayed others event with
    | true =>
      obtain ⟨plain, foreign⟩ := late shown shownLater
      exact observed.applyEvent serde event foreign fun _ => plain
    | false => exact ⟨woven, observed⟩

theorem Woven.foldEvent_late (serde : Serde) (before : Woven own woven base full)
    {others : List String} (event : SessionEventEnvelope)
    (late : isReplayed others event = true →
      isCompaction event.data = false ∧ ∀ id ∈ itemIds event, own id = false) :
    ∃ woven', Woven own woven' base (SessionLog.foldEvent serde others full event) := by
  have observed := before.congr rfl (itemState_observed event full)
  unfold SessionLog.foldEvent
  cases shown : isReplayed others event with
  | true =>
    obtain ⟨plain, foreign⟩ := late shown
    exact observed.applyEvent serde event foreign fun _ => plain
  | false => exact ⟨woven, observed⟩

end woven

def newlyShown (log more : List SessionEventEnvelope) : List SessionEventEnvelope :=
  log.filter (fun event => isReplayed (finalizedOperationIds (log ++ more)) event &&
    !isReplayed (finalizedOperationIds log) event) ++
  more.filter (isReplayed (finalizedOperationIds (log ++ more)))

/-- The newly shown events compact nothing and name no item of an event shown before. -/
def Undisturbed (log more : List SessionEventEnvelope) : Prop :=
  ∀ late ∈ newlyShown log more, isCompaction late.data = false ∧
    ∀ early ∈ log.filter (isReplayed (finalizedOperationIds log)),
      ∀ id ∈ itemIds late, id ∉ itemIds early

theorem isReplayed_mono {finalized others : List String}
    (larger : ∀ operationId ∈ finalized, operationId ∈ others) {event : SessionEventEnvelope}
    (shown : isReplayed finalized event = true) : isReplayed others event = true := by
  unfold isReplayed at shown ⊢
  cases named : event.operationId with
  | none => rfl
  | some operationId =>
    simp only [named, decide_eq_true_eq] at shown ⊢
    rcases shown with inside | confirmation
    · exact .inl (larger operationId inside)
    · exact .inr confirmation

theorem foldEvents_retains (serde : Serde) (log more : List SessionEventEnvelope)
    (undisturbed : Undisturbed log more) :
    Sublist (foldEvents serde log).transcript (foldEvents serde (log ++ more)).transcript := by
  let finalized := finalizedOperationIds log
  let others := finalizedOperationIds (log ++ more)
  let early := (log.filter (isReplayed finalized)).flatMap itemIds
  let own : String → Bool := fun id => decide (id ∈ early)
  have larger : ∀ operationId ∈ finalized, operationId ∈ others := by
    intro operationId inside
    show operationId ∈ finalizedOperationIds (log ++ more)
    unfold finalizedOperationIds
    rw [filterMap_append]
    exact mem_append_left _ inside
  have foreign : ∀ event ∈ newlyShown log more,
      isCompaction event.data = false ∧ ∀ id ∈ itemIds event, own id = false := by
    intro event inside
    obtain ⟨plain, apart⟩ := undisturbed event inside
    refine ⟨plain, fun id mentioned => decide_eq_false fun known => ?_⟩
    obtain ⟨other, shown, named⟩ := mem_flatMap.mp known
    exact apart other shown id mentioned named
  -- Over the log itself both folds advance; the marks are the items shown before.
  have inLog (events : List SessionEventEnvelope) (part : ∀ event ∈ events, event ∈ log) :
      ∀ {base full : ReplayBuilder} {woven : List (Bool × TranscriptItem)},
        Woven own woven base full → ∃ woven', Woven own woven'
          (events.foldl (foldEvent serde finalized) base)
          (events.foldl (foldEvent serde others) full) := by
    induction events with
    | nil => exact fun before => ⟨_, before⟩
    | cons event events ih =>
      intro base full woven before
      have inside := part event (mem_cons_self ..)
      obtain ⟨next, after⟩ := before.foldEvent serde event (isReplayed_mono larger)
        (fun shown id mentioned => decide_eq_true (mem_flatMap.mpr
          ⟨event, mem_filter.mpr ⟨inside, shown⟩, mentioned⟩))
        (fun hidden shown => foreign event (mem_append_left _
          (mem_filter.mpr ⟨inside, (Bool.and_eq_true _ _).mpr ⟨shown, by simpa using hidden⟩⟩)))
      exact ih (fun other member => part other (mem_cons_of_mem _ member)) after
  -- After it only the longer fold does.
  have afterLog (events : List SessionEventEnvelope) (part : ∀ event ∈ events, event ∈ more) :
      ∀ {base full : ReplayBuilder} {woven : List (Bool × TranscriptItem)},
        Woven own woven base full → ∃ woven', Woven own woven' base
          (events.foldl (foldEvent serde others) full) := by
    induction events with
    | nil => exact fun before => ⟨_, before⟩
    | cons event events ih =>
      intro base full woven before
      have inside := part event (mem_cons_self ..)
      obtain ⟨next, after⟩ := before.foldEvent_late serde event fun shown =>
        foreign event (mem_append_right _ (mem_filter.mpr ⟨inside, shown⟩))
      exact ih (fun other member => part other (mem_cons_of_mem _ member)) after
  have start : Woven own [] {} {} :=
    ⟨rfl, rfl, forall_mem_nil _, Follows.nil own [],
      Follows.nil own [], Follows.nil own []⟩
  obtain ⟨_, folded⟩ := inLog log (fun _ inside => inside) start
  obtain ⟨woven, final⟩ := afterLog more (fun _ inside => inside) folded
  rw [(foldEvents_shown serde log).1, (foldEvents_shown serde (log ++ more)).1]
  unfold foldedCore
  rw [foldl_append]
  show Sublist (log.foldl (foldEvent serde finalized) {}).transcript
    (more.foldl (foldEvent serde others) (log.foldl (foldEvent serde others) {})).transcript
  rw [final.baseItems, final.fullItems]
  exact kept_sublist woven

end PiRust.SessionLog
