import PiRust.ReplayIndices
import PiRust.ReplayLeaves

/- The transcript of a replay through its compactions. -/
namespace PiRust.SessionLog

open List

def isCompactionSummary : TranscriptItem → Bool
  | .compactionSummary .. => true
  | _ => false

theorem itemId_of_summary {item : TranscriptItem} (summary : isCompactionSummary item = true) :
    transcriptItemId item = none := by
  cases item with
  | compactionSummary => rfl
  | _ => cases summary

def SummaryFirst (transcript : List TranscriptItem) : Prop :=
  ∀ index item, transcript[index]? = some item → isCompactionSummary item = true → index = 0

/-- A compaction keeps the items from the known one on. -/
structure Compacts (summary firstKeptMessageId : String) (tokensBefore : UInt32)
    (before after : List TranscriptItem) : Prop where
  known : ∀ dropped first rest, before = dropped ++ first :: rest →
    transcriptItemId first = some firstKeptMessageId →
    (∀ item ∈ dropped, transcriptItemId item ≠ some firstKeptMessageId) →
      after = .compactionSummary summary firstKeptMessageId tokensBefore :: first :: rest
  unknown : (∀ item ∈ before, transcriptItemId item ≠ some firstKeptMessageId) → after = before

def copies (wanted : ItemIdentity) (transcript : List TranscriptItem) : Nat :=
  (transcript.map identity).count wanted

def timesBrought (finalized : List String) (wanted : ItemIdentity)
    (events : List SessionEventEnvelope) : Nat :=
  events.countP fun event => isReplayed finalized event && decide (brings event = some wanted)

/-- The items after an event that brings `brought`: updated in place, with the new item
last, or cut off behind it. -/
inductive Evolves (brought : Option ItemIdentity) (before : List ItemIdentity) :
    List ItemIdentity → Prop
  | same : Evolves brought before before
  | added (item : ItemIdentity) (named : brought = some item) :
      Evolves brought before (before ++ [item])
  | compacted (item : ItemIdentity) (index : Nat) (named : brought = some item) :
      Evolves brought before (item :: before.drop index)

variable {before after : List ItemIdentity}
variable {brought : Option ItemIdentity}

theorem Evolves.of_eq (kept : after = before) : Evolves brought before after := by
  subst kept
  exact .same

theorem Evolves.of_append {item : ItemIdentity} (grown : after = before ++ [item]) :
    Evolves (some item) before after := by
  subst grown
  exact .added item rfl

theorem Evolves.count_le (evolves : Evolves brought before after) (wanted : ItemIdentity) :
    after.count wanted ≤ before.count wanted + if brought = some wanted then 1 else 0 := by
  cases evolves with
  | same => exact Nat.le_add_right ..
  | added item named =>
    subst named
    rw [count_append, count_singleton]
    simp
  | compacted item index named =>
    subst named
    have fewer : (before.drop index).count wanted ≤ before.count wanted :=
      (drop_sublist index before).count_le wanted
    rw [count_cons]
    by_cases same : item = wanted
    · simpa [same] using fewer
    · simpa [same] using fewer

namespace ReplayBuilder

variable {builder : ReplayBuilder}

def identities (builder : ReplayBuilder) : List ItemIdentity := builder.transcript.map identity

theorem identities_retained (items : List ItemIdentity) :
    Retained fun builder => builder.identities = items where
  items := by
    intro builder other same before
    unfold identities at before ⊢
    rw [transcript_of_items same, before]
  update := by
    intro builder index item updated there updates before
    have held : (builder.transcript.map identity)[index]? = some (identity item) := by
      rw [getElem?_map, there, Option.map_some]
    obtain ⟨inside, value⟩ := List.getElem?_eq_some_iff.mp held
    unfold identities at before ⊢
    rw [map_set, updates.identity_eq, ← value, set_getElem_self, before]

theorem rebuildIndices_transcript (builder : ReplayBuilder) :
    builder.rebuildIndices.transcript = builder.transcript := by
  obtain ⟨messages, tools, delegations, same⟩ := rebuildIndices_eq builder
  rw [same]

theorem applyDelegationFoldedUpdate_evolves (pointing : builder.Pointing) {toolCallId : String}
    {item : TranscriptItem} (named : identity item = .call toolCallId) :
    Evolves (some (.call toolCallId)) builder.identities
      (builder.applyDelegationFoldedUpdate toolCallId item).identities := by
  have replaced (key : ItemKey) (index : Nat) (found : builder.lookup key = some index)
      (call : key = .tool toolCallId ∨ key = .delegation toolCallId) :
      (builder.transcript.set index item).map identity = builder.identities := by
    obtain ⟨old, there, keyed⟩ := Option.bind_eq_some_iff.mp (pointing key index found)
    have same : identity old = .call toolCallId := by
      rcases call with rfl | rfl <;> cases old <;> cases keyed <;> rfl
    have held : (builder.transcript.map identity)[index]? = some (identity item) := by
      rw [getElem?_map, there, Option.map_some, same, named]
    obtain ⟨inside, value⟩ := List.getElem?_eq_some_iff.mp held
    rw [map_set, ← value, set_getElem_self]
    rfl
  unfold ReplayBuilder.applyDelegationFoldedUpdate
  cases found : StringMap.get builder.delegationIndices toolCallId with
  | some index =>
    exact .of_eq (replaced (.delegation toolCallId) index found (.inr rfl))
  | none =>
    cases tool : StringMap.get builder.toolIndices toolCallId with
    | some index =>
      exact .of_eq (replaced (.tool toolCallId) index tool (.inl rfl))
    | none =>
      refine .of_append ?_
      simp [identities, named]

theorem applyEvent_evolves (pointing : builder.Pointing) (serde : Serde)
    (event : SessionEventEnvelope) :
    Evolves (brings event) builder.identities (builder.applyEvent serde event).identities := by
  have pushed (item : TranscriptItem) :
      (builder.pushItem item).identities = builder.identities ++ [identity item] := by
    simp [identities, ReplayBuilder.pushItem]
  by_cases quiet : brings event = none
  · exact .of_eq ((identities_retained builder.identities).applyEvent rfl serde quiet)
  unfold ReplayBuilder.applyEvent
  unfold brings at quiet ⊢
  revert quiet
  cases event.data <;> intro bringing
  case sessionCompactionCompleted summary firstKeptMessageId tokensBefore =>
    dsimp only
    unfold applyCompactionCompleted
    split
    · exact .same
    · rename_i firstKeptIndex found
      simp only [identities, rebuildIndices_transcript, map_cons, map_drop]
      exact .compacted _ firstKeptIndex rfl
  case delegationFoldedUpdated => exact applyDelegationFoldedUpdate_evolves pointing rfl
  case branchSummaryCreated | turnInputRecorded | diagnosticEmitted | messageStarted
      | toolCallStarted => exact .of_append (pushed _)
  all_goals exact absurd rfl bringing

theorem applyCompactionCompleted_compacts (summary firstKeptMessageId : String)
    (tokensBefore : UInt32) (builder : ReplayBuilder) :
    Compacts summary firstKeptMessageId tokensBefore builder.transcript
      (builder.applyCompactionCompleted summary firstKeptMessageId tokensBefore).transcript := by
  unfold applyCompactionCompleted
  cases found : builder.transcript.findIdx? fun item =>
      transcriptItemId item = some firstKeptMessageId with
  | none =>
    have absent := findIdx?_eq_none_iff.mp found
    refine ⟨fun dropped first rest split hit _ => ?_, fun _ => rfl⟩
    have wrong := absent first (by rw [split]; simp)
    simp only [hit, decide_true, Bool.true_eq_false] at wrong
  | some firstKeptIndex =>
    obtain ⟨inside, hit, before⟩ := findIdx?_eq_some_iff_getElem.mp found
    dsimp only
    rw [rebuildIndices_transcript]
    refine ⟨fun dropped first rest split named early => ?_, fun absent => ?_⟩
    · have position : firstKeptIndex = dropped.length := by
        rcases Nat.lt_trichotomy firstKeptIndex dropped.length with less | same | more
        · have there : builder.transcript[firstKeptIndex] = dropped[firstKeptIndex] := by
            simp [split, getElem_append_left less]
          have wrong := early _ (getElem_mem less)
          rw [← there] at wrong
          exact absurd (of_decide_eq_true hit) wrong
        · exact same
        · have wrong := before dropped.length more
          simp [split, named] at wrong
      simp [split, position]
    · exact absurd (of_decide_eq_true hit) (absent _ (getElem_mem inside))

theorem applyEvent_compacts {summary firstKeptMessageId : String} {tokensBefore : UInt32}
    {event : SessionEventEnvelope} (builder : ReplayBuilder) (serde : Serde)
    (compaction : event.data =
      .sessionCompactionCompleted summary firstKeptMessageId tokensBefore) :
    Compacts summary firstKeptMessageId tokensBefore builder.transcript
      (builder.applyEvent serde event).transcript := by
  unfold ReplayBuilder.applyEvent
  rw [compaction]
  exact applyCompactionCompleted_compacts summary firstKeptMessageId tokensBefore
    { builder with usage := { builder.usage with lastContextTokens := none } }

end ReplayBuilder

section first

variable {transcript : List TranscriptItem}

variable (first : SummaryFirst transcript)
include first

theorem SummaryFirst.push {item : TranscriptItem} (plain : isCompactionSummary item = false) :
    SummaryFirst (transcript ++ [item]) := by
  intro index found there summary
  rcases Nat.lt_or_ge index transcript.length with inside | last
  · rw [getElem?_append_left inside] at there
    exact first index found there summary
  · rw [getElem?_append_right last] at there
    have held := mem_singleton.mp (mem_of_getElem? there)
    rw [held, plain] at summary
    cases summary

theorem SummaryFirst.set {item : TranscriptItem} (plain : isCompactionSummary item = false)
    (position : Nat) : SummaryFirst (transcript.set position item) := by
  intro index found there summary
  by_cases hit : position = index
  · subst hit
    obtain ⟨inside, held⟩ := List.getElem?_eq_some_iff.mp there
    rw [getElem_set_self] at held
    rw [← held, plain] at summary
    cases summary
  · rw [getElem?_set_ne hit] at there
    exact first index found there summary

theorem SummaryFirst.compact {after : List TranscriptItem} {summary firstKeptMessageId : String}
    {tokensBefore : UInt32}
    (compacts : Compacts summary firstKeptMessageId tokensBefore transcript after) :
    SummaryFirst after := by
  cases found : transcript.find? fun item => transcriptItemId item = some firstKeptMessageId with
  | none =>
    have absent := find?_eq_none.mp found
    rw [compacts.unknown fun item member hit => absent item member (decide_eq_true hit)]
    exact first
  | some kept =>
    obtain ⟨hit, dropped, rest, split, early⟩ := find?_eq_some_iff_append.mp found
    have named := of_decide_eq_true hit
    have new := compacts.known dropped kept rest split named fun item member same => by
      simpa [same] using early item member
    subst new
    intro index item there summarised
    match index with
    | 0 => rfl
    | 1 =>
      cases there
      rw [itemId_of_summary summarised] at named
      cases named
    | index + 2 =>
      have old : transcript[dropped.length + (index + 1)]? = some item := by
        rw [split, getElem?_append_right (Nat.le_add_right ..), Nat.add_sub_cancel_left]
        exact there
      exact absurd (first _ item old summarised) (by omega)

end first

theorem summaryFirst_retained : ReplayBuilder.Retained fun builder =>
    SummaryFirst builder.transcript where
  items := by
    intro builder other same first
    rw [ReplayBuilder.transcript_of_items same]
    exact first
  update := by
    intro builder index item updated _ updates first
    refine first.set ?_ index
    cases updates <;> rfl

theorem SummaryFirst.applyEvent {builder : ReplayBuilder} (first : SummaryFirst builder.transcript)
    (serde : Serde) (event : SessionEventEnvelope) :
    SummaryFirst (builder.applyEvent serde event).transcript := by
  by_cases quiet : brings event = none
  · exact summaryFirst_retained.applyEvent first serde quiet
  by_cases compaction : ∃ summary firstKeptMessageId tokensBefore, event.data =
      .sessionCompactionCompleted summary firstKeptMessageId tokensBefore
  · obtain ⟨_, _, _, data⟩ := compaction
    exact first.compact (builder.applyEvent_compacts serde data)
  unfold ReplayBuilder.applyEvent
  unfold brings at quiet
  revert quiet compaction
  cases event.data <;> intro bringing plain
  case sessionCompactionCompleted => exact absurd ⟨_, _, _, rfl⟩ plain
  case delegationFoldedUpdated toolCallId _ _ _ _ _ _ _ =>
    dsimp only
    unfold ReplayBuilder.applyDelegationFoldedUpdate
    cases StringMap.get builder.delegationIndices toolCallId with
    | some index => exact first.set rfl index
    | none =>
      cases StringMap.get builder.toolIndices toolCallId with
      | some index => exact first.set rfl index
      | none => exact first.push rfl
  case branchSummaryCreated | turnInputRecorded | diagnosticEmitted | messageStarted
      | toolCallStarted => exact first.push rfl
  all_goals exact absurd rfl bringing

section fold

variable (serde : Serde) (finalized : List String)
variable {builder : ReplayBuilder}

theorem foldEvent_transcript {event : SessionEventEnvelope} :
    (foldEvent serde finalized builder event).transcript =
      if isReplayed finalized event then (builder.applyEvent serde event).transcript
      else builder.transcript := by
  have items := congrArg Prod.fst (foldEvent_items serde finalized builder event)
  by_cases replayed : isReplayed finalized event = true
  · rw [if_pos replayed] at items ⊢
    exact items
  · rw [if_neg replayed] at items ⊢
    exact items

theorem foldl_foldEvent_summaryFirst (events : List SessionEventEnvelope) (builder : ReplayBuilder)
    (first : SummaryFirst builder.transcript) :
    SummaryFirst (events.foldl (foldEvent serde finalized) builder).transcript := by
  induction events generalizing builder with
  | nil => exact first
  | cons event events ih =>
    refine ih _ ?_
    rw [foldEvent_transcript]
    by_cases replayed : isReplayed finalized event = true
    · rw [if_pos replayed]
      exact first.applyEvent serde event
    · rw [if_neg replayed]
      exact first

theorem copies_foldEvent_le (pointing : builder.Pointing) (event : SessionEventEnvelope)
    (wanted : ItemIdentity) :
    copies wanted (foldEvent serde finalized builder event).transcript ≤
      copies wanted builder.transcript + timesBrought finalized wanted [event] := by
  rw [foldEvent_transcript, timesBrought, countP_singleton]
  by_cases replayed : isReplayed finalized event = true
  · have step := (ReplayBuilder.applyEvent_evolves pointing serde event).count_le wanted
    simpa only [replayed, if_true, Bool.true_and, decide_eq_true_eq, copies,
      ReplayBuilder.identities] using step
  · rw [if_neg replayed]
    exact Nat.le_add_right ..

theorem copies_foldl_foldEvent_le (events : List SessionEventEnvelope) (wanted : ItemIdentity)
    (pointing : builder.Pointing) :
    copies wanted (events.foldl (foldEvent serde finalized) builder).transcript ≤
      copies wanted builder.transcript + timesBrought finalized wanted events := by
  induction events generalizing builder with
  | nil => exact Nat.le_add_right ..
  | cons event events ih =>
    have step := copies_foldEvent_le serde finalized pointing event wanted
    have rest := ih (foldEvent_pointing pointing serde finalized event)
    have split : timesBrought finalized wanted (event :: events) =
        timesBrought finalized wanted [event] + timesBrought finalized wanted events := by
      unfold timesBrought
      rw [← countP_append, singleton_append]
    rw [foldl_cons, split]
    omega

end fold

theorem builderAfter_succ (serde : Serde) {log : List SessionEventEnvelope} {count : Nat}
    {event : SessionEventEnvelope} (next : log[count]? = some event) :
    builderAfter serde log (count + 1) =
      foldEvent serde (finalizedOperationIds log) (builderAfter serde log count) event := by
  unfold builderAfter
  rw [take_add_one, next, Option.toList_some, foldl_append]
  rfl

theorem builderAfter_add (serde : Serde) (log : List SessionEventEnvelope) (count more : Nat) :
    builderAfter serde log (count + more) =
      ((log.drop count).take more).foldl (foldEvent serde (finalizedOperationIds log))
        (builderAfter serde log count) := by
  unfold builderAfter
  rw [take_add, foldl_append]

/-- The transcript at every step of a replay: where summaries stand, what a replayed compaction
makes of it, and how often an item can be there after further events. -/
structure CompactedSoundly (serde : Serde) (log : List SessionEventEnvelope) (count : Nat) : Prop where
  shape : SummaryFirst (builderAfter serde log count).transcript
  compaction : ∀ event summary firstKeptMessageId tokensBefore, log[count]? = some event →
    isReplayed (finalizedOperationIds log) event = true →
    event.data = .sessionCompactionCompleted summary firstKeptMessageId tokensBefore →
      Compacts summary firstKeptMessageId tokensBefore (builderAfter serde log count).transcript
        (builderAfter serde log (count + 1)).transcript
  reappears : ∀ more wanted, copies wanted (builderAfter serde log (count + more)).transcript ≤
    copies wanted (builderAfter serde log count).transcript +
      timesBrought (finalizedOperationIds log) wanted ((log.drop count).take more)

theorem foldEvents_compacted_soundly (serde : Serde) (log : List SessionEventEnvelope)
    (count : Nat) : CompactedSoundly serde log count where
  shape := by
    refine foldl_foldEvent_summaryFirst serde _ _ _ ?_
    intro index item there
    cases there
  compaction := by
    intro event summary firstKeptMessageId tokensBefore next replayed compaction
    rw [builderAfter_succ serde next, foldEvent_transcript, if_pos replayed]
    exact ReplayBuilder.applyEvent_compacts _ serde compaction
  reappears := by
    intro more wanted
    rw [builderAfter_add]
    exact copies_foldl_foldEvent_le serde _ _ wanted
      (foldl_foldEvent_pointing serde _ _ empty_pointing)

section late

def foldedEvent : SessionEventEnvelope :=
  promptEvent (.delegationFoldedUpdated "tool_1" "main" .agent "helper" "look" .running none none)

def foldedBlock : TranscriptItem :=
  .delegationBlock "tool_1" "main" .agent "helper" "look" .running none none

def lateUpdateLog : List SessionEventEnvelope :=
  [foldedEvent, promptEvent (.messageStarted "msg_1"),
    promptEvent (.operationCommitted (some "leaf_1")),
    compactionEvent (.sessionCompactionCompleted "looked" "msg_1" 9),
    compactionEvent (.operationCommitted none), foldedEvent]

def StaysDropped (serde : Serde) (log : List SessionEventEnvelope) : Prop :=
  ∀ count more event item, log[count]? = some event → isCompaction event.data = true →
    item ∈ (builderAfter serde log count).transcript →
    item ∉ (builderAfter serde log (count + 1)).transcript →
      item ∉ (builderAfter serde log (count + 1 + more)).transcript

/-- The update appends the item that was dropped. -/
theorem dropped_delegation_reappears : ¬ StaysDropped plainValues lateUpdateLog := by
  intro stays
  have dropped : (builderAfter plainValues lateUpdateLog 3).transcript[0]? = some foldedBlock := rfl
  have left : (builderAfter plainValues lateUpdateLog 4).transcript =
      [.compactionSummary "looked" "msg_1" 9, .assistantMessage "msg_1" [] .started] := rfl
  have back : (builderAfter plainValues lateUpdateLog 6).transcript[2]? = some foldedBlock := rfl
  refine stays 3 2 _ foldedBlock rfl rfl (mem_of_getElem? dropped) ?_ (mem_of_getElem? back)
  rw [left]
  simp [foldedBlock]

end late

end PiRust.SessionLog
