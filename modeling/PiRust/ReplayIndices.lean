import PiRust.Pointing
import PiRust.ReplayItems

/- The index maps of a replay: what they point to, and the indexing that relies on it. -/
namespace PiRust.SessionLog

open List Pointing

inductive ItemKey where
  | message (messageId : String)
  | tool (toolCallId : String)
  | delegation (toolCallId : String)
  deriving DecidableEq, Repr

def itemKey : TranscriptItem → Option ItemKey
  | .assistantMessage messageId _ _ => some (.message messageId)
  | .toolCall toolCallId _ _ _ _ => some (.tool toolCallId)
  | .delegationBlock toolCallId _ _ _ _ _ _ _ => some (.delegation toolCallId)
  | .userInput .. | .compactionSummary .. | .branchSummary .. | .diagnostic .. => none

/-- What an item is, whatever updates change in it. A call stays the same call when its
delegation block takes its place. -/
inductive ItemIdentity where
  | input (turnId text : String)
  | message (messageId : String)
  | call (toolCallId : String)
  | summary (summary firstKeptMessageId : String) (tokensBefore : UInt32)
  | branch (summary sourceLeafId targetLeafId : String)
  | diagnostic (level : DiagnosticLevel) (message : String)
  deriving DecidableEq, Repr

def identity : TranscriptItem → ItemIdentity
  | .userInput turnId text => .input turnId text
  | .assistantMessage messageId _ _ => .message messageId
  | .toolCall toolCallId _ _ _ _ => .call toolCallId
  | .delegationBlock toolCallId _ _ _ _ _ _ _ => .call toolCallId
  | .compactionSummary summary firstKeptMessageId tokensBefore =>
    .summary summary firstKeptMessageId tokensBefore
  | .branchSummary summary sourceLeafId targetLeafId => .branch summary sourceLeafId targetLeafId
  | .diagnostic level message => .diagnostic level message

def brings (event : SessionEventEnvelope) : Option ItemIdentity :=
  match event.data with
  | .sessionCompactionCompleted summary firstKeptMessageId tokensBefore =>
    some (.summary summary firstKeptMessageId tokensBefore)
  | .branchSummaryCreated summary sourceLeafId targetLeafId =>
    some (.branch summary sourceLeafId targetLeafId)
  | .delegationFoldedUpdated toolCallId _ _ _ _ _ _ _ => some (.call toolCallId)
  | .turnInputRecorded content =>
    some (.input (event.turnId.getD "") (contentBlocksText content))
  | .messageStarted messageId => some (.message messageId)
  | .toolCallStarted toolCallId _ _ => some (.call toolCallId)
  | .diagnosticEmitted level message => some (.diagnostic level message)
  | _ => none

/-- A change that keeps the id of an item. -/
inductive Updates : TranscriptItem → TranscriptItem → Prop
  | message (messageId : String) (content content' : List PersistedContentBlock)
      (status status' : MessageStatus) :
      Updates (.assistantMessage messageId content status)
        (.assistantMessage messageId content' status')
  | tool (toolCallId name : String) (arguments : Value) (status status' : ToolCallStatus)
      (summary summary' : String) :
      Updates (.toolCall toolCallId name arguments status summary)
        (.toolCall toolCallId name arguments status' summary')

theorem Updates.itemKey_eq {item updated : TranscriptItem} (updates : Updates item updated) :
    itemKey updated = itemKey item := by
  cases updates <;> rfl

theorem Updates.identity_eq {item updated : TranscriptItem} (updates : Updates item updated) :
    identity updated = identity item := by
  cases updates <;> rfl

namespace ReplayBuilder

/-- Nothing but the items matters, and updates keep it. -/
structure Retained (holds : ReplayBuilder → Prop) : Prop where
  items : ∀ builder other, itemState other = itemState builder → holds builder → holds other
  update : ∀ (builder : ReplayBuilder) index item updated,
    builder.transcript[index]? = some item → Updates item updated → holds builder →
      holds { builder with transcript := builder.transcript.set index updated }

namespace Retained

variable {holds : ReplayBuilder → Prop} {builder : ReplayBuilder}

variable (retained : Retained holds)
include retained

variable {index : Option Nat} {change : TranscriptItem → Option TranscriptItem}

theorem changeItem (before : holds builder) {changed : ReplayBuilder}
    (updating : ∀ item updated, change item = some updated → Updates item updated)
    (success : builder.changeItem index change = some changed) : holds changed := by
  simp only [ReplayBuilder.changeItem, Option.bind_eq_some_iff, Option.map_eq_some_iff] at success
  obtain ⟨position, _, item, there, updated, done, rfl⟩ := success
  exact retained.update builder position item updated there (updating item updated done) before

theorem getD_warn (before : holds builder)
    (updating : ∀ item updated, change item = some updated → Updates item updated)
    (message : String) : holds ((builder.changeItem index change).getD (builder.warn message)) := by
  cases done : builder.changeItem index change with
  | none => exact retained.items builder _ rfl before
  | some changed => exact retained.changeItem before updating done

theorem finishTool (before : holds builder) (toolCallId : String) (status : ToolCallStatus)
    (summary warning : String) : holds (builder.finishTool toolCallId status summary warning) := by
  unfold ReplayBuilder.finishTool
  cases changed : builder.setToolStatus toolCallId status with
  | none => exact retained.items builder _ rfl before
  | some set =>
    have first : holds set := by
      refine retained.changeItem before (fun item updated done => ?_) changed
      cases item <;> cases done
      exact .tool ..
    dsimp only
    cases summarised : set.changeToolSummary toolCallId fun _ => summary with
    | none => exact first
    | some final =>
      refine retained.changeItem first (fun item updated done => ?_) summarised
      cases item <;> cases done
      exact .tool ..

theorem applyEvent (before : holds builder) (serde : Serde) {event : SessionEventEnvelope}
    (quiet : brings event = none) : holds (builder.applyEvent serde event) := by
  by_cases untouched : touchesItems event.data = false
  · exact retained.items builder _ (itemState_applyEvent serde event untouched builder) before
  unfold ReplayBuilder.applyEvent
  unfold brings at quiet
  revert untouched quiet
  cases event.data <;> intro quiet touched
  case messageCompleted messageId content usage =>
    have recorded := retained.items builder (builder.recordAssistantUsage usage) rfl before
    refine retained.getD_warn recorded (fun item updated done => ?_) _
    cases item <;> cases done
    exact .message ..
  case messageCancelled messageId =>
    refine retained.getD_warn before (fun item updated done => ?_) _
    cases item <;> cases done
    exact .message ..
  case toolCallUpdated toolCallId message =>
    refine retained.getD_warn before (fun item updated done => ?_) _
    cases item <;> cases done
    exact .tool ..
  case toolCallCompleted | toolCallFailed | toolCallCancelled =>
    exact retained.finishTool before _ _ _ _
  all_goals first | exact absurd rfl touched | cases quiet

end Retained

def lookup (builder : ReplayBuilder) : ItemKey → Option Nat
  | .message messageId => StringMap.get builder.messageIndices messageId
  | .tool toolCallId => StringMap.get builder.toolIndices toolCallId
  | .delegation toolCallId => StringMap.get builder.delegationIndices toolCallId

def Pointing (builder : ReplayBuilder) : Prop :=
  Points itemKey builder.transcript builder.lookup

/-- `self.transcript[index] = item`, which panics past the end. -/
def assignItem (index : Nat) (item : TranscriptItem) (builder : ReplayBuilder) :
    Option ReplayBuilder :=
  if index < builder.transcript.length then
    some { builder with transcript := builder.transcript.set index item }
  else none

/-- `self.transcript.split_off(at)`, which panics past the end. -/
def splitOff (index : Nat) (builder : ReplayBuilder) : Option (List TranscriptItem) :=
  if index ≤ builder.transcript.length then some (builder.transcript.drop index) else none

/-- `applyDelegationFoldedUpdate`, or `none` where it panics. -/
def tryDelegationFoldedUpdate (toolCallId : String) (item : TranscriptItem)
    (builder : ReplayBuilder) : Option ReplayBuilder :=
  match StringMap.get builder.delegationIndices toolCallId with
  | some index => builder.assignItem index item
  | none =>
    match StringMap.get builder.toolIndices toolCallId with
    | some index =>
      (builder.assignItem index item).map fun assigned =>
        { assigned with
          toolIndices := StringMap.remove builder.toolIndices toolCallId
          delegationIndices := StringMap.insert builder.delegationIndices toolCallId index }
    | none => some (builder.applyDelegationFoldedUpdate toolCallId item)

/-- `applyCompactionCompleted`, or `none` where it panics. -/
def tryCompactionCompleted (summary firstKeptMessageId : String) (tokensBefore : UInt32)
    (builder : ReplayBuilder) : Option ReplayBuilder :=
  match builder.transcript.findIdx? fun item =>
      transcriptItemId item = some firstKeptMessageId with
  | none =>
    some (builder.warn ("session compaction references unknown first kept message: " ++
      firstKeptMessageId))
  | some firstKeptIndex =>
    (builder.splitOff firstKeptIndex).map fun keptItems =>
      rebuildIndices { builder with
        transcript := .compactionSummary summary firstKeptMessageId tokensBefore :: keptItems }

/-- `applyEvent`, or `none` where it panics. All other arms reach an item by `get_mut`. -/
def tryEvent (serde : Serde) (event : SessionEventEnvelope) (builder : ReplayBuilder) :
    Option ReplayBuilder :=
  match event.data with
  | .sessionCompactionCompleted summary firstKeptMessageId tokensBefore =>
    tryCompactionCompleted summary firstKeptMessageId tokensBefore
      { builder with usage := { builder.usage with lastContextTokens := none } }
  | .delegationFoldedUpdated toolCallId requestingProfileId targetKind targetId task status
      childOperationId summary =>
      builder.tryDelegationFoldedUpdate toolCallId (.delegationBlock toolCallId
        requestingProfileId targetKind targetId task status childOperationId summary)
  | _ => some (builder.applyEvent serde event)

variable {builder other : ReplayBuilder}

theorem Pointing.of_items (pointing : builder.Pointing)
    (same : itemState other = itemState builder) : other.Pointing := by
  have lookups : other.lookup = builder.lookup := by
    funext key
    cases key with
    | message messageId => simp [lookup, messageIndices_of_items same]
    | tool toolCallId => simp [lookup, toolIndices_of_items same]
    | delegation toolCallId => simp [lookup, delegationIndices_of_items same]
  unfold Pointing
  rw [lookups, transcript_of_items same]
  exact pointing

theorem pointing_retained : Retained Pointing where
  items := fun _ _ same pointing => pointing.of_items same
  update := by
    intro builder index item updated there updates pointing
    refine Points.set pointing ?_
    rw [there, Option.bind_some, updates.itemKey_eq]

theorem Pointing.pushItem (pointing : builder.Pointing) (item : TranscriptItem) :
    (builder.pushItem item).Pointing :=
  Points.append pointing [item]

theorem Pointing.enter (pointing : builder.Pointing) (key : ItemKey) (index : Nat)
    (there : (builder.transcript[index]?).bind itemKey = some key)
    (transcript : other.transcript = builder.transcript)
    (entered : ∀ wanted, other.lookup wanted =
      if wanted = key then some index else builder.lookup wanted) : other.Pointing := by
  unfold Pointing
  rw [transcript, funext entered]
  exact Points.insert pointing there

theorem Pointing.indexItem (pointing : builder.Pointing) {entry : TranscriptItem × Nat}
    (there : builder.transcript[entry.2]? = some entry.1) : (builder.indexItem entry).Pointing := by
  obtain ⟨item, index⟩ := entry
  have held (key : ItemKey) (named : itemKey item = some key) :
      (builder.transcript[index]?).bind itemKey = some key := by
    simpa only [there, Option.bind_some] using named
  cases item with
  | assistantMessage messageId content status =>
    refine pointing.enter _ _ (held (.message messageId) rfl) rfl fun wanted => ?_
    cases wanted <;> simp [lookup, ReplayBuilder.indexItem, StringMap.get_insert]
  | toolCall toolCallId name arguments status summary =>
    refine pointing.enter _ _ (held (.tool toolCallId) rfl) rfl fun wanted => ?_
    cases wanted <;> simp [lookup, ReplayBuilder.indexItem, StringMap.get_insert]
  | delegationBlock toolCallId requestingProfileId targetKind targetId task status =>
    refine pointing.enter _ _ (held (.delegation toolCallId) rfl) rfl fun wanted => ?_
    cases wanted <;> simp [lookup, ReplayBuilder.indexItem, StringMap.get_insert]
  | userInput | compactionSummary | branchSummary | diagnostic => exact pointing

theorem rebuildIndices_pointing (builder : ReplayBuilder) : builder.rebuildIndices.Pointing := by
  have pass (entries : List (TranscriptItem × Nat)) (start : ReplayBuilder)
      (pointing : start.Pointing)
      (there : ∀ entry ∈ entries, start.transcript[entry.2]? = some entry.1) :
      (entries.foldl (fun builder entry => builder.indexItem entry) start).Pointing := by
    induction entries generalizing start with
    | nil => exact pointing
    | cons entry entries ih =>
      refine ih _ (pointing.indexItem (there entry (mem_cons_self ..)))
        fun later member => ?_
      have same : (start.indexItem entry).transcript = start.transcript := by
        unfold ReplayBuilder.indexItem
        split <;> rfl
      rw [same]
      exact there later (mem_cons_of_mem _ member)
  refine pass _ _ ?_ fun entry member => ?_
  · intro key index found
    cases key <;> cases found
  · exact mem_zipIdx_iff_getElem?.mp member

variable (pointing : builder.Pointing)
include pointing

theorem Pointing.applyDelegationFoldedUpdate {toolCallId : String} {item : TranscriptItem}
    (named : itemKey item = some (.delegation toolCallId)) :
    (builder.applyDelegationFoldedUpdate toolCallId item).Pointing := by
  unfold ReplayBuilder.applyDelegationFoldedUpdate
  cases found : StringMap.get builder.delegationIndices toolCallId with
  | some index =>
    have there := pointing (.delegation toolCallId) index found
    exact Points.set pointing (there.trans named.symm)
  | none =>
    cases tool : StringMap.get builder.toolIndices toolCallId with
    | some index =>
      have renamed := Points.rename pointing (.tool toolCallId) tool named
      intro key position at_
      refine renamed key position ?_
      rw [← at_]
      cases key <;> simp [lookup, StringMap.get_insert, StringMap.get_remove]
    | none =>
      have last : ((builder.pushItem item).transcript[builder.transcript.length]?).bind itemKey
          = some (.delegation toolCallId) := by
        simpa [ReplayBuilder.pushItem] using named
      refine (pointing.pushItem item).enter _ _ last rfl fun wanted => ?_
      cases wanted <;> simp [lookup, ReplayBuilder.pushItem, StringMap.get_insert]

theorem Pointing.applyEvent (serde : Serde) (event : SessionEventEnvelope) :
    (builder.applyEvent serde event).Pointing := by
  by_cases quiet : brings event = none
  · exact pointing_retained.applyEvent pointing serde quiet
  unfold ReplayBuilder.applyEvent
  unfold brings at quiet
  revert quiet
  cases event.data <;> intro bringing
  case sessionCompactionCompleted summary firstKeptMessageId tokensBefore =>
    dsimp only
    unfold applyCompactionCompleted
    split
    · exact pointing.of_items rfl
    · exact rebuildIndices_pointing _
  case branchSummaryCreated | turnInputRecorded => exact pointing.pushItem _
  case diagnosticEmitted level message =>
    have diagnosed : (builder.diagnose level message).Pointing := pointing.of_items rfl
    exact diagnosed.pushItem _
  case delegationFoldedUpdated => exact pointing.applyDelegationFoldedUpdate rfl
  case messageStarted messageId =>
    have pushed := pointing.pushItem (.assistantMessage messageId [] .started)
    refine pushed.enter (.message messageId) builder.transcript.length
      (by simp [ReplayBuilder.pushItem, itemKey]) rfl fun wanted => ?_
    cases wanted <;> simp [lookup, ReplayBuilder.pushItem, StringMap.get_insert]
  case toolCallStarted toolCallId name arguments =>
    have pushed := pointing.pushItem (.toolCall toolCallId name arguments .started "")
    refine pushed.enter (.tool toolCallId) builder.transcript.length
      (by simp [ReplayBuilder.pushItem, itemKey]) rfl fun wanted => ?_
    cases wanted <;> simp [lookup, ReplayBuilder.pushItem, StringMap.get_insert]
  all_goals exact absurd rfl bringing

theorem assignItem_of_points (key : ItemKey) {index : Nat} (found : builder.lookup key = some index)
    (item : TranscriptItem) :
    builder.assignItem index item =
      some { builder with transcript := builder.transcript.set index item } :=
  if_pos (Points.inside pointing key found)

theorem tryEvent_of_points (serde : Serde) (event : SessionEventEnvelope) :
    builder.tryEvent serde event = some (builder.applyEvent serde event) := by
  unfold tryEvent ReplayBuilder.applyEvent
  cases event.data
  case sessionCompactionCompleted summary firstKeptMessageId tokensBefore =>
    dsimp only
    unfold tryCompactionCompleted applyCompactionCompleted
    dsimp only
    cases found : builder.transcript.findIdx? fun item =>
        transcriptItemId item = some firstKeptMessageId with
    | none => rfl
    | some firstKeptIndex =>
      have inside := (findIdx?_eq_some_iff_findIdx_eq.mp found).1
      simp [splitOff, if_pos (Nat.le_of_lt inside)]
  case delegationFoldedUpdated toolCallId _ _ _ _ _ _ _ =>
    dsimp only
    unfold tryDelegationFoldedUpdate ReplayBuilder.applyDelegationFoldedUpdate
    cases found : StringMap.get builder.delegationIndices toolCallId with
    | some index =>
      exact assignItem_of_points pointing (.delegation toolCallId) found _
    | none =>
      cases tool : StringMap.get builder.toolIndices toolCallId with
      | some index =>
        simp [assignItem_of_points pointing (.tool toolCallId) tool]
      | none => rfl
  all_goals rfl

theorem Pointing.observed (event : SessionEventEnvelope) :
    ((builder.observeSessionId event).observeOperationStatus event).Pointing :=
  pointing.of_items (itemState_observed event builder)

end ReplayBuilder

/-- `foldEvent`, or `none` where it panics. -/
def tryFoldEvent (serde : Serde) (finalized : List String) (builder : ReplayBuilder)
    (event : SessionEventEnvelope) : Option ReplayBuilder :=
  let observed := (builder.observeSessionId event).observeOperationStatus event
  if isReplayed finalized event then observed.tryEvent serde event else some observed

/-- The builder of `fold_events` after the first `count` events of a log. -/
def builderAfter (serde : Serde) (log : List SessionEventEnvelope) (count : Nat) : ReplayBuilder :=
  (log.take count).foldl (foldEvent serde (finalizedOperationIds log)) {}

variable {builder : ReplayBuilder}

theorem foldEvent_pointing (pointing : builder.Pointing) (serde : Serde) (finalized : List String)
    (event : SessionEventEnvelope) : (foldEvent serde finalized builder event).Pointing := by
  have observed := pointing.observed event
  unfold foldEvent
  by_cases replayed : isReplayed finalized event = true
  · rw [if_pos replayed]
    exact observed.applyEvent serde event
  · rw [if_neg replayed]
    exact observed

theorem foldl_foldEvent_pointing (serde : Serde) (finalized : List String)
    (events : List SessionEventEnvelope) (pointing : builder.Pointing) :
    (events.foldl (foldEvent serde finalized) builder).Pointing := by
  induction events generalizing builder with
  | nil => exact pointing
  | cons event events ih => exact ih (foldEvent_pointing pointing serde finalized event)

theorem empty_pointing : ({} : ReplayBuilder).Pointing := by
  intro key index found
  cases key <;> cases found

theorem tryFoldEvent_of_points {builder : ReplayBuilder} (pointing : builder.Pointing)
    (serde : Serde) (finalized : List String) (event : SessionEventEnvelope) :
    tryFoldEvent serde finalized builder event = some (foldEvent serde finalized builder event) := by
  unfold tryFoldEvent foldEvent
  by_cases replayed : isReplayed finalized event = true
  · simp only [if_pos replayed]
    exact ReplayBuilder.tryEvent_of_points (pointing.observed event) serde event
  · simp [if_neg replayed]

theorem foldlM_tryFoldEvent (serde : Serde) (finalized : List String)
    (events : List SessionEventEnvelope) (pointing : builder.Pointing) :
    events.foldlM (tryFoldEvent serde finalized) builder =
      some (events.foldl (foldEvent serde finalized) builder) := by
  induction events generalizing builder with
  | nil => rfl
  | cons event events ih =>
    rw [foldlM_cons, tryFoldEvent_of_points pointing, Option.bind_eq_bind, Option.bind_some,
      foldl_cons]
    exact ih (foldEvent_pointing pointing serde finalized event)

/-- What holds of the index maps of a builder: an index that one of them gives for an id
is inside the transcript, and the item there has that id and the kind of the map. -/
structure SoundIndices (builder : ReplayBuilder) : Prop where
  messages : ∀ messageId index, StringMap.get builder.messageIndices messageId = some index →
    index < builder.transcript.length ∧ ∃ content status,
      builder.transcript[index]? = some (.assistantMessage messageId content status)
  tools : ∀ toolCallId index, StringMap.get builder.toolIndices toolCallId = some index →
    index < builder.transcript.length ∧ ∃ name arguments status summary,
      builder.transcript[index]? = some (.toolCall toolCallId name arguments status summary)
  delegations : ∀ toolCallId index,
    StringMap.get builder.delegationIndices toolCallId = some index →
      index < builder.transcript.length ∧
        ∃ requestingProfileId targetKind targetId task status childOperationId summary,
          builder.transcript[index]? = some (.delegationBlock toolCallId requestingProfileId
            targetKind targetId task status childOperationId summary)

theorem ReplayBuilder.Pointing.sound (pointing : builder.Pointing) : SoundIndices builder where
  messages := by
    intro messageId index found
    obtain ⟨item, there, named⟩ :=
      Option.bind_eq_some_iff.mp (pointing (.message messageId) index found)
    refine ⟨Points.inside pointing (.message messageId) found, ?_⟩
    cases item <;> cases named
    exact ⟨_, _, there⟩
  tools := by
    intro toolCallId index found
    obtain ⟨item, there, named⟩ :=
      Option.bind_eq_some_iff.mp (pointing (.tool toolCallId) index found)
    refine ⟨Points.inside pointing (.tool toolCallId) found, ?_⟩
    cases item <;> cases named
    exact ⟨_, _, _, _, there⟩
  delegations := by
    intro toolCallId index found
    obtain ⟨item, there, named⟩ :=
      Option.bind_eq_some_iff.mp (pointing (.delegation toolCallId) index found)
    refine ⟨Points.inside pointing (.delegation toolCallId) found, ?_⟩
    cases item <;> cases named
    exact ⟨_, _, _, _, _, _, _, there⟩

/-- At every step of a replay the index maps are sound, and the replay with checked
indexing never stops. -/
theorem foldEvents_indices_sound (serde : Serde) (log : List SessionEventEnvelope) (count : Nat) :
    SoundIndices (builderAfter serde log count) ∧
      (log.take count).foldlM (tryFoldEvent serde (finalizedOperationIds log)) {} =
        some (builderAfter serde log count) :=
  ⟨(foldl_foldEvent_pointing serde _ _ empty_pointing).sound,
    foldlM_tryFoldEvent serde _ _ empty_pointing⟩

end PiRust.SessionLog
