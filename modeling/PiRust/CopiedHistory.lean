import Mathlib.Data.List.Forall2
import PiRust.SessionCopy

/- What a clone or a fork of a session shows. -/
namespace PiRust.SessionLog

open List

section stamped

variable {sessionId : String} {events : List SessionEventEnvelope}

theorem stampEvents_getElem? (nextSequence : UInt64) (events : List SessionEventEnvelope)
    (index : Nat) :
    (stampEvents nextSequence events)[index]? =
      events[index]?.map fun event =>
        event.withSessionSequence (nextSequence + UInt64.ofNat index) := by
  induction events generalizing nextSequence index with
  | nil => simp [stampEvents]
  | cons event events ih =>
    cases index with
    | zero => simp [stampEvents]
    | succ index =>
      have shifted : nextSequence + 1 + UInt64.ofNat index =
          nextSequence + UInt64.ofNat (index + 1) := by
        rw [UInt64.ofNat_add, UInt64.add_assoc, UInt64.add_comm 1]
        rfl
      simp [stampEvents, ih, shifted]

theorem rewriteEventForSession_valid {event : SessionEventEnvelope}
    (valid : validateEventForSession event sessionId = .ok ()) (targetSessionId eventId : String) :
    validateEventForSession (rewriteEventForSession targetSessionId eventId event)
      targetSessionId = .ok () := by
  unfold validateEventForSession at valid ⊢
  split at valid
  · cases valid
  · split at valid
    · cases valid
    · rename_i schema version
      simp [rewriteEventForSession, schema, version]

theorem copiedEvents_valid (system : CopySystem) (targetSessionId : String)
    (valid : ∀ event ∈ events, validateEventForSession event sessionId = .ok ()) :
    ∀ event ∈ copiedEvents system targetSessionId events,
      validateEventForSession event targetSessionId = .ok () := by
  intro event member
  obtain ⟨entry, kept, rfl⟩ := mem_map.mp member
  have source : entry.1 ∈ events := mem_of_mem_filter (fst_mem_of_mem_zipIdx kept)
  exact rewriteEventForSession_valid (valid entry.1 source) _ _

end stamped

section selected

variable {events later : List SessionEventEnvelope} {cutoff : Nat} {leaf : String}

def RecordsSummary (leaf : String) (event : SessionEventEnvelope) : Prop :=
  ∃ summary sourceLeafId, event.data = .branchSummaryCreated summary sourceLeafId leaf

/-- The event is of an operation that records a branch summary for the leaf, or is such a
record outside of any operation. -/
def Summarizes (later : List SessionEventEnvelope) (leaf : String)
    (event : SessionEventEnvelope) : Prop :=
  match event.operationId with
  | some operationId =>
    ∃ record ∈ later, RecordsSummary leaf record ∧ record.operationId = some operationId
  | none => RecordsSummary leaf event

theorem mem_branchSummaryOperationIds (operationId : String) :
    operationId ∈ branchSummaryOperationIdsForTarget later leaf ↔
      ∃ record ∈ later, RecordsSummary leaf record ∧ record.operationId = some operationId := by
  unfold branchSummaryOperationIdsForTarget RecordsSummary
  rw [mem_filterMap]
  apply exists_congr
  intro record
  apply and_congr_right
  intro _
  cases data : record.data <;> simp

theorem shouldCopyBranchSummaryOperation_iff (event : SessionEventEnvelope) :
    shouldCopyBranchSummaryOperation leaf (branchSummaryOperationIdsForTarget later leaf) event =
      true ↔ Summarizes later leaf event := by
  unfold shouldCopyBranchSummaryOperation Summarizes
  cases event.operationId with
  | some operationId =>
    simp only [decide_eq_true_eq]
    exact mem_branchSummaryOperationIds operationId
  | none =>
    unfold RecordsSummary
    cases event.data <;> simp

instance (later : List SessionEventEnvelope) (leaf : String) :
    DecidablePred (Summarizes later leaf) := fun event =>
  decidable_of_iff _ (shouldCopyBranchSummaryOperation_iff event)

def contribution (later : List SessionEventEnvelope) (leaf : String) : List SessionEventEnvelope :=
  later.filter fun event => Summarizes later leaf event

theorem selectedEvents_eq (events : List SessionEventEnvelope) (cutoff : Nat) (leaf : String) :
    selectedEvents events cutoff leaf =
      events.take (cutoff + 1) ++ contribution (events.drop (cutoff + 1)) leaf := by
  have same : shouldCopyBranchSummaryOperation leaf
      (branchSummaryOperationIdsForTarget (events.drop (cutoff + 1)) leaf) =
      fun event => decide (Summarizes (events.drop (cutoff + 1)) leaf event) := by
    funext event
    rw [Bool.eq_iff_iff, shouldCopyBranchSummaryOperation_iff, decide_eq_true_eq]
  simp [selectedEvents, same, contribution]

theorem contribution_subset : contribution later leaf ⊆ later :=
  filter_subset_self ..

theorem selectedEvents_subset : selectedEvents events cutoff leaf ⊆ events := by
  intro event member
  rw [selectedEvents_eq] at member
  rcases mem_append.mp member with early | late
  · exact mem_of_mem_take early
  · exact mem_of_mem_drop (contribution_subset late)

theorem finalizedOperationIds_subset {others : List SessionEventEnvelope}
    (subset : others ⊆ events) :
    finalizedOperationIds others ⊆ finalizedOperationIds events := by
  intro operationId member
  obtain ⟨event, inside, marker, named⟩ := (mem_finalizedOperationIds others operationId).mp member
  exact (mem_finalizedOperationIds events operationId).mpr ⟨event, subset inside, marker, named⟩

theorem isReplayed_contribution {event : SessionEventEnvelope}
    (summarizes : Summarizes (events.drop (cutoff + 1)) leaf event)
    (shown : isReplayed (finalizedOperationIds events) event = true) :
    isReplayed (finalizedOperationIds (selectedEvents events cutoff leaf)) event = true := by
  unfold isReplayed at shown ⊢
  unfold Summarizes at summarizes
  cases named : event.operationId with
  | none => rfl
  | some operationId =>
    simp only [named, decide_eq_true_eq] at shown summarizes ⊢
    refine shown.imp_left fun finalized => ?_
    obtain ⟨marker, inside, final, own⟩ :=
      (mem_finalizedOperationIds events operationId).mp finalized
    refine (mem_finalizedOperationIds _ operationId).mpr ⟨marker, ?_, final, own⟩
    rw [selectedEvents_eq, mem_append]
    rw [← take_append_drop (cutoff + 1) events, mem_append] at inside
    refine inside.imp_right fun late => mem_filter.mpr ⟨late, ?_⟩
    rw [decide_eq_true_eq, Summarizes, own]
    exact summarizes

theorem committedLeafCutoff_spec (committed : committedLeafCutoff events leaf = some cutoff) :
    ∃ event, events[cutoff]? = some event ∧ event.data = .operationCommitted (some leaf) := by
  obtain ⟨inside, commits, -⟩ := findIdx?_eq_some_iff_getElem.mp committed
  refine ⟨events[cutoff], getElem?_eq_getElem inside, ?_⟩
  revert commits
  cases events[cutoff].data with
  | operationCommitted newLeafId =>
    cases newLeafId with
    | none => simp
    | some newLeafId =>
      intro commits
      rw [of_decide_eq_true commits]
  | _ => simp

end selected

section history

variable {values : Serde} {source : List SessionEventEnvelope} {cutoff : Nat} {leaf : String}

theorem selectedEvents_activeLeafId (committed : committedLeafCutoff source leaf = some cutoff)
    (values : Serde) :
    (foldEvents values (selectedEvents source cutoff leaf)).activeLeafId =
      (lastMove ((contribution (source.drop (cutoff + 1)) leaf).filter
        (isReplayed (finalizedOperationIds (selectedEvents source cutoff leaf))))).or
          (some leaf) := by
  obtain ⟨event, placed, commits⟩ := committedLeafCutoff_spec committed
  have early : source.take (cutoff + 1) = source.take cutoff ++ [event] := by
    rw [take_add_one, placed, Option.toList_some]
  have moves : leafMove event = some leaf := by
    rw [leafMove, commits]
  have shown : isReplayed (finalizedOperationIds (selectedEvents source cutoff leaf)) event =
      true := by
    apply isReplayed_of_immediate
    · rw [selectedEvents_eq, early]
      simp
    · exact fun _ => .inl (by rw [commits]; rfl)
    · rw [moves]
      exact Option.some_ne_none leaf
  rw [foldEvents_activeLeafId]
  generalize finalizedOperationIds (selectedEvents source cutoff leaf) = finalized at shown ⊢
  rw [selectedEvents_eq, early, filter_append, lastMove_append, filter_append,
    lastMove_append, filter_cons_of_pos shown]
  have last : lastMove [event] = some leaf := by
    unfold lastMove
    rw [filterMap_cons, moves]
    rfl
  rw [filter_nil, last, Option.some_or]

theorem alike_self (events : List SessionEventEnvelope) : Forall₂ Alike events events :=
  forall₂_same.mpr fun _ _ => ⟨rfl, rfl, rfl⟩

theorem selectedEvents_story
    (early : ∀ event ∈ source.take (cutoff + 1), touchesItems event.data = true →
      isReplayed (finalizedOperationIds source) event = true →
      isReplayed (finalizedOperationIds (selectedEvents source cutoff leaf)) event = true)
    (late : ∀ event ∈ source.drop (cutoff + 1), touchesItems event.data = true →
      isReplayed (finalizedOperationIds source) event = true →
      Summarizes (source.drop (cutoff + 1)) leaf event) :
    SameStory (finalizedOperationIds source)
      (finalizedOperationIds (selectedEvents source cutoff leaf)) source
      (selectedEvents source cutoff leaf) := by
  have selection : selectedEvents source cutoff leaf ⊆ source := selectedEvents_subset
  have fewer := finalizedOperationIds_subset selection
  have shown (event : SessionEventEnvelope)
      (kept : touchesItems event.data = true →
        isReplayed (finalizedOperationIds source) event = true →
        isReplayed (finalizedOperationIds (selectedEvents source cutoff leaf)) event = true) :
      isReplayed (finalizedOperationIds (selectedEvents source cutoff leaf)) event =
        isReplayed (finalizedOperationIds source) event ∨ touchesItems event.data = false := by
    by_cases touched : touchesItems event.data = true
    · exact .inl (Bool.eq_iff_iff.mpr ⟨isReplayed_mono fewer, kept touched⟩)
    · exact .inr (by simpa using touched)
  generalize selected : selectedEvents source cutoff leaf = copies at early shown
  have front : SameStory (finalizedOperationIds source) (finalizedOperationIds copies)
      (source.take (cutoff + 1)) (source.take (cutoff + 1)) := by
    have copied : Forall₂ Alike ((source.take (cutoff + 1)).filter fun _ => true)
        (source.take (cutoff + 1)) := by
      rw [filter_true]
      exact alike_self _
    apply Alike.story copied
    · exact fun event member _ => shown event (early event member)
    · exact fun _ _ impossible => Bool.noConfusion impossible
  have back : SameStory (finalizedOperationIds source) (finalizedOperationIds copies)
      (source.drop (cutoff + 1)) (contribution (source.drop (cutoff + 1)) leaf) := by
    apply Alike.story (alike_self (contribution (source.drop (cutoff + 1)) leaf))
    · intro event _ summarizes
      apply shown
      intro _ replayed
      rw [← selected]
      exact isReplayed_contribution (of_decide_eq_true summarizes) replayed
    · intro event member apart replayed
      by_contra touched
      exact of_decide_eq_false apart (late event member (by simpa using touched) replayed)
  have whole := front.append back
  rw [take_append_drop, ← selectedEvents_eq, selected] at whole
  exact whole

end history

section copy

variable {values : Serde} {system : CopySystem} {kind : SessionCopyKind} {leaf name : String}

theorem StoredManifest.new_valid (sessionId createdAt defaultAgentProfileId : String) :
    validateManifest
      (StoredManifest.new sessionId createdAt defaultAgentProfileId).toSessionManifest = .ok () := by
  have path : validateRelativeManifestPath sessionEventLogFile = .ok () := rfl
  simp [validateManifest, StoredManifest.new, path]

theorem StoredManifest.new_sessionId (sessionId createdAt defaultAgentProfileId : String) :
    (StoredManifest.new sessionId createdAt defaultAgentProfileId).sessionId = sessionId := rfl

def copyManifest (system : CopySystem) (name leaf defaultAgentProfileId : String) :
    StoredManifest :=
  { StoredManifest.new name system.now defaultAgentProfileId with activeLeafId := some leaf }

def creation (system : CopySystem) (name : String) (cwd : Option String) : SessionEventEnvelope :=
  .new name (system.nextEventId 0) system.now (.sessionCreated cwd)

def provenance (system : CopySystem) (kind : SessionCopyKind) (name : String) :
    SessionEventEnvelope :=
  .new name (system.nextEventId 1) system.now kind.provenanceEvent

theorem opening_valid (cwd : Option String) :
    ∀ event ∈ [creation system name cwd, provenance system kind name],
      validateEventForSession event name = .ok () := by
  intro event member
  rcases mem_pair.mp member with rfl | rfl
  · exact SessionEventEnvelope.new_valid ..
  · exact SessionEventEnvelope.new_valid ..

theorem createCopy_ok (cwd : Option String) (defaultAgentProfileId : String) :
    createCopy system name cwd defaultAgentProfileId =
      (⟨StoredManifest.new name system.now defaultAgentProfileId,
        stampEvents 1 [creation system name cwd]⟩, .ok ()) := by
  have own : ∀ event ∈ [creation system name cwd], validateEventForSession event name = .ok () := by
    intro event member
    rw [mem_singleton.mp member]
    exact SessionEventEnvelope.new_valid ..
  unfold createCopy
  apply SessionRecord.appendEvents_ok
  · intro event member
    cases member
  · exact own

theorem fillCopy_ok {sessionId : String} {events : List SessionEventEnvelope}
    (own : ∀ event ∈ events, validateEventForSession event sessionId = .ok ())
    (cwd : Option String) (defaultAgentProfileId : String) :
    fillCopy system kind leaf events none
        ⟨StoredManifest.new name system.now defaultAgentProfileId,
          stampEvents 1 [creation system name cwd]⟩ =
      (⟨copyManifest system name leaf defaultAgentProfileId,
          copyEvents system kind name cwd events⟩,
        .ok (copyManifest system name leaf defaultAgentProfileId)) := by
  have opening : ∀ event ∈ [creation system name cwd, provenance system kind name],
      validateEventForSession event name = .ok () := opening_valid cwd
  have marked : (⟨StoredManifest.new name system.now defaultAgentProfileId,
      stampEvents 1 [creation system name cwd]⟩ : SessionRecord).appendEvents name
        [provenance system kind name] =
      (⟨StoredManifest.new name system.now defaultAgentProfileId,
        stampEvents 1 [creation system name cwd, provenance system kind name]⟩, .ok ()) :=
    SessionRecord.appendEvents_ok
      (stampEvents_valid fun event member => opening event (by
        rw [mem_singleton.mp member]
        exact mem_cons_self ..))
      fun event member => opening event (mem_cons_of_mem _ member)
  have copied : (⟨StoredManifest.new name system.now defaultAgentProfileId,
      stampEvents 1 [creation system name cwd, provenance system kind name]⟩ :
        SessionRecord).appendEvents name (copiedEvents system name events) =
      (⟨StoredManifest.new name system.now defaultAgentProfileId,
        copyEvents system kind name cwd events⟩, .ok ()) :=
    SessionRecord.appendEvents_ok (stampEvents_valid opening) (copiedEvents_valid system name own)
  have valid : validateManifest
      (copyManifest system name leaf defaultAgentProfileId).toSessionManifest = .ok () :=
    StoredManifest.new_valid name system.now defaultAgentProfileId
  have updated : (⟨StoredManifest.new name system.now defaultAgentProfileId,
      copyEvents system kind name cwd events⟩ : SessionRecord).updateManifest none
        { updatedAt := some system.now, activeLeafId := some (some leaf) } =
      (⟨copyManifest system name leaf defaultAgentProfileId,
        copyEvents system kind name cwd events⟩, .ok ()) := by
    simp only [SessionRecord.updateManifest, ManifestPatch.apply_valid, StoredManifest.new_valid]
    rfl
  unfold provenance at marked
  simp only [fillCopy, StoredManifest.new_sessionId, marked]
  unfold provenance at copied
  simp [copied, updated, SessionRecord.openSession, valid]

/-- A copy that nothing stands in the way of: its leaf is committed in the log of the
session, and the name of the new session is free. -/
structure Copyable (system : CopySystem) (handle : StoredManifest) (requested : Option String)
    (root : SessionRoot) (source : SessionRecord) (leaf name : String) (cutoff : Nat) : Prop where
  target : resolveCopyTargetLeaf handle requested = .ok leaf
  stored : StringMap.get root.sessions handle.sessionId = some source
  reads : source.readEvents handle.sessionId = .ok source.events
  committed : committedLeafCutoff source.events leaf = some cutoff
  named : normalizeSessionId system.targetSessionId = .ok name
  fresh : StringMap.get root.sessions name = none

def copyRecord (values : Serde) (system : CopySystem) (kind : SessionCopyKind)
    (handle : StoredManifest) (source : SessionRecord) (leaf name : String) (cutoff : Nat) :
    SessionRecord where
  manifest := copyManifest system name leaf handle.defaultAgentProfileId
  events := copyEvents system kind name (foldEvents values source.events).cwd
    (selectedEvents source.events cutoff leaf)

theorem copyToNewSession_ok {handle : StoredManifest} {requested : Option String}
    {root : SessionRoot} {source : SessionRecord} {cutoff : Nat}
    (copyable : Copyable system handle requested root source leaf name cutoff)
    (values : Serde) (kind : SessionCopyKind) (cleanup : Option String) :
    let copy := copyRecord values system kind handle source leaf name cutoff
    copyToNewSession values system kind requested none cleanup handle root =
      ({ root with sessions := StringMap.insert root.sessions name copy },
        .ok ⟨copy, copy.manifest⟩) := by
  have own : ∀ event ∈ selectedEvents source.events cutoff leaf,
      validateEventForSession event handle.sessionId = .ok () := fun event member =>
    (SessionRecord.readEvents_own copyable.reads).2 event (selectedEvents_subset member)
  have filled := @fillCopy_ok system kind leaf name _ _ own
    (foldEvents values source.events).cwd handle.defaultAgentProfileId
  simp only [copyToNewSession, copyable.target, copyable.stored, copyable.reads,
    copyable.committed, copyable.named, copyable.fresh, createCopy_ok, filled,
    Option.isSome_none, Bool.false_eq_true, if_false]
  rfl

theorem copyEvents_numbered (cwd : Option String) (events : List SessionEventEnvelope)
    {index : Nat} {event : SessionEventEnvelope}
    (there : (copyEvents system kind name cwd events)[index]? = some event) :
    event.sessionSequence = some (UInt64.ofNat (index + 1)) := by
  unfold copyEvents at there
  rw [stampEvents_getElem?, Option.map_eq_some_iff] at there
  obtain ⟨plain, -, rfl⟩ := there
  have shifted : (1 : UInt64) + UInt64.ofNat index = UInt64.ofNat (index + 1) := by
    rw [UInt64.ofNat_add, UInt64.add_comm]
    rfl
  rw [← shifted]
  rfl

theorem foldl_foldEvent_append {early late : List SessionEventEnvelope}
    (apart : ∀ event ∈ early, ∀ operationId, event.operationId = some operationId →
      operationId ∈ finalizedOperationIds late → operationId ∈ finalizedOperationIds early)
    (values : Serde) :
    (early ++ late).foldl (foldEvent values (finalizedOperationIds (early ++ late))) {} =
      late.foldl (foldEvent values (finalizedOperationIds (early ++ late)))
        (early.foldl (foldEvent values (finalizedOperationIds early)) {}) := by
  have both : finalizedOperationIds (early ++ late) =
      finalizedOperationIds early ++ finalizedOperationIds late := filterMap_append
  have shown : ∀ event ∈ early, isReplayed (finalizedOperationIds (early ++ late)) event =
      isReplayed (finalizedOperationIds early) event := by
    intro event member
    unfold isReplayed
    cases named : event.operationId with
    | none => rfl
    | some operationId =>
      have settled : operationId ∈ finalizedOperationIds (early ++ late) ↔
          operationId ∈ finalizedOperationIds early := by
        rw [both, mem_append]
        exact or_iff_left_of_imp (apart event member operationId named)
      simp [settled]
  have front : early.foldl (foldEvent values (finalizedOperationIds (early ++ late))) {} =
      early.foldl (foldEvent values (finalizedOperationIds early)) {} := by
    apply foldl_ext
    intro builder event member
    unfold foldEvent
    rw [shown event member]
  rw [foldl_append, front]

end copy

/-- A fork to a committed leaf. -/
theorem forkCurrent_history {system : CopySystem} {handle : StoredManifest}
    {requested : Option String} {root : SessionRoot} {source : SessionRecord} {leaf name : String}
    {cutoff : Nat} (copyable : Copyable system handle requested root source leaf name cutoff)
    (values : Serde) (cleanup : Option String) :
    let early := source.events.take (cutoff + 1)
    let late := contribution (source.events.drop (cutoff + 1)) leaf
    ∃ grown fork,
      forkCurrent values system requested none cleanup handle root = (grown, .ok fork) ∧
      StringMap.get grown.sessions name = some fork.record ∧
      StringMap.get grown.sessions handle.sessionId = some source ∧
      (∀ other ≠ name, StringMap.get grown.sessions other = StringMap.get root.sessions other) ∧
      fork.handle = fork.record.manifest ∧ fork.record.manifest.activeLeafId = some leaf ∧
      (∀ index event, fork.record.events[index]? = some event →
        event.sessionSequence = some (UInt64.ofNat (index + 1))) ∧
      (foldEvents values fork.record.events).transcript =
        (foldEvents values (early ++ late)).transcript ∧
      ((∀ event ∈ early, ∀ operationId, event.operationId = some operationId →
          operationId ∈ finalizedOperationIds late → operationId ∈ finalizedOperationIds early) →
        (foldEvents values fork.record.events).transcript =
          (late.foldl (foldEvent values (finalizedOperationIds (early ++ late)))
            (early.foldl (foldEvent values (finalizedOperationIds early)) {})).transcript) ∧
      ((foldEvents values fork.record.events).activeLeafId = some leaf ↔
        ∀ moved, lastMove (late.filter (isReplayed (finalizedOperationIds (early ++ late)))) =
          some moved → moved = leaf) := by
  intro early late
  have selected : selectedEvents source.events cutoff leaf = early ++ late := selectedEvents_eq ..
  have other (other : String) (apart : other ≠ name) (record : SessionRecord) :
      StringMap.get (StringMap.insert root.sessions name record) other =
        StringMap.get root.sessions other := by
    rw [StringMap.get_insert, if_neg apart]
  have shown : (foldEvents values (copyRecord values system .fork handle source leaf name
      cutoff).events).transcript = (foldEvents values (early ++ late)).transcript := by
    rw [← selected]
    exact copyEvents_transcript ..
  refine ⟨_, _, copyToNewSession_ok copyable values .fork cleanup, ?_, ?_, ?_, rfl, rfl, ?_, shown,
    ?_, ?_⟩
  · rw [StringMap.get_insert, if_pos rfl]
  · have apart : handle.sessionId ≠ name := by
      intro same
      have stored := copyable.stored
      rw [same, copyable.fresh] at stored
      cases stored
    rw [other _ apart]
    exact copyable.stored
  · exact fun session apart => other session apart _
  · exact fun index event there => copyEvents_numbered _ _ there
  · intro apart
    rw [← foldl_foldEvent_append apart, ← foldEvents_transcript]
    exact shown
  · rw [← selected]
    refine Iff.trans (Eq.congr_left ((copyEvents_activeLeafId ..).trans
      (selectedEvents_activeLeafId copyable.committed values))) ?_
    change (lastMove (late.filter _)).or (some leaf) = some leaf ↔ _
    cases lastMove (late.filter
        (isReplayed (finalizedOperationIds (selectedEvents source.events cutoff leaf)))) with
    | none => simp
    | some moved => simp

section samples

def sampleCopy : CopySystem := ⟨"op_copy", "copy", fun _ => "e", "t"⟩

def samplePrompt (operationId turnId leafId : String) : ServiceCall :=
  .commitPrompt ((TurnTransaction.start "s" operationId turnId ("a", "b") "t" .prompt).record "i" "t"
    (.turnInputRecorded [.text "list"]) rfl) leafId "c" "t" none

def summaryTransaction : TurnTransaction :=
  (TurnTransaction.start "s" "op_3" "turn_3" ("a", "b") "t" .branchSummary).record "i" "t"
    (.branchSummaryCreated "tried" "leaf_2" "leaf_1") rfl

def sampleSource (calls : List ServiceCall) : ServiceState :=
  sampleState.run sampleValues ([samplePrompt "op_1" "turn_1" "leaf_1"] ++ calls)

def sampleRoot (calls : List ServiceCall) : SessionRoot :=
  ⟨"sessions", [("s", (sampleSource calls).record)]⟩

theorem sample_copyable {calls : List ServiceCall} {requested : Option String}
    (id : (sampleSource calls).handle.sessionId = "s")
    (target : resolveCopyTargetLeaf (sampleSource calls).handle requested = .ok "leaf_1")
    (own : ∀ event ∈ (sampleSource calls).record.events,
      validateEventForSession event "s" = .ok ())
    (committed : committedLeafCutoff (sampleSource calls).record.events "leaf_1" = some 4) :
    Copyable sampleCopy (sampleSource calls).handle requested (sampleRoot calls)
      (sampleSource calls).record "leaf_1" "copy" 4 where
  target := target
  stored := by
    rw [id]
    rfl
  reads := SessionRecord.readEvents_ok (by rw [id]; exact own)
  committed := committed
  named := by decide
  fresh := rfl

def branchedCalls : List ServiceCall :=
  [samplePrompt "op_2" "turn_2" "leaf_2", .commitNonLeaf summaryTransaction "c" "t" none]

theorem forkCurrent_history_branched :
    ∃ grown fork, forkCurrent sampleValues sampleCopy (some "leaf_1") none none
        (sampleSource branchedCalls).handle (sampleRoot branchedCalls) = (grown, .ok fork) ∧
      (foldEvents sampleValues fork.record.events).activeLeafId = some "leaf_1" := by
  have copyable : Copyable sampleCopy (sampleSource branchedCalls).handle (some "leaf_1")
      (sampleRoot branchedCalls) (sampleSource branchedCalls).record "leaf_1" "copy" 4 := by
    apply sample_copyable <;> decide
  obtain ⟨grown, fork, forked, -, -, -, -, -, -, -, -, active⟩ :=
    forkCurrent_history copyable sampleValues none
  refine ⟨grown, fork, forked, active.mpr fun moved last => ?_⟩
  have still : lastMove ((contribution ((sampleSource branchedCalls).record.events.drop 5)
      "leaf_1").filter (isReplayed (finalizedOperationIds
        ((sampleSource branchedCalls).record.events.take 5 ++ contribution
          ((sampleSource branchedCalls).record.events.drop 5) "leaf_1")))) = none := by
    decide
  rw [still] at last
  cases last

def movingCalls : List ServiceCall :=
  [samplePrompt "op_2" "turn_2" "leaf_2",
    .commitPrompt summaryTransaction "leaf_3" "c" "t" none]

/-- The fork is at its leaf in the manifest, and at the leaf of the summary in the replay. -/
theorem fork_moves_on :
    ∃ grown fork, forkCurrent sampleValues sampleCopy (some "leaf_1") none none
        (sampleSource movingCalls).handle (sampleRoot movingCalls) = (grown, .ok fork) ∧
      fork.record.manifest.activeLeafId = some "leaf_1" ∧
      (foldEvents sampleValues fork.record.events).activeLeafId = some "leaf_3" := by
  have copyable : Copyable sampleCopy (sampleSource movingCalls).handle (some "leaf_1")
      (sampleRoot movingCalls) (sampleSource movingCalls).record "leaf_1" "copy" 4 := by
    apply sample_copyable <;> decide
  refine ⟨_, _, copyToNewSession_ok copyable sampleValues .fork none, rfl, ?_⟩
  decide

end samples

/-- A clone of a session with a committed active leaf. -/
theorem cloneCurrent_history {system : CopySystem} {handle : StoredManifest}
    {root : SessionRoot} {source : SessionRecord} {leaf name : String} {cutoff : Nat}
    (copyable : Copyable system handle none root source leaf name cutoff)
    (values : Serde) (cleanup : Option String) :
    let early := source.events.take (cutoff + 1)
    let later := source.events.drop (cutoff + 1)
    let copied := early ++ contribution later leaf
    ∃ grown clone, cloneCurrent values system none cleanup handle root = (grown, .ok clone) ∧
      (foldEvents values clone.record.events).transcript = (foldEvents values copied).transcript ∧
      ((∀ event ∈ early, touchesItems event.data = true →
          isReplayed (finalizedOperationIds source.events) event = true →
          isReplayed (finalizedOperationIds copied) event = true) →
        (∀ event ∈ later, touchesItems event.data = true →
          isReplayed (finalizedOperationIds source.events) event = true →
          Summarizes later leaf event) →
        (foldEvents values clone.record.events).transcript =
          (foldEvents values source.events).transcript) := by
  intro early later copied
  have selected : selectedEvents source.events cutoff leaf = copied := selectedEvents_eq ..
  have same : (foldEvents values (copyRecord values system .clone handle source leaf name
      cutoff).events).transcript = (foldEvents values copied).transcript := by
    rw [← selected]
    exact copyEvents_transcript ..
  refine ⟨_, _, copyToNewSession_ok copyable values .clone cleanup, same, fun before after => ?_⟩
  rw [← selected] at before
  have story := selectedEvents_story before after
  rw [selected] at story
  exact same.trans (SameStory.transcript story values)

def compactionCall : ServiceCall :=
  .commitNonLeaf ((TurnTransaction.start "s" "op_2" "turn_2" ("a", "b") "t"
    .manualCompaction).record "i" "t" (.sessionCompactionCompleted "listed" "turn_1" 9) rfl) "c" "t"
    none

theorem cloneCurrent_history_prompt :
    ∃ grown clone, cloneCurrent sampleValues sampleCopy none none (sampleSource []).handle
        (sampleRoot []) = (grown, .ok clone) ∧
      (foldEvents sampleValues clone.record.events).transcript =
        (foldEvents sampleValues (sampleSource []).record.events).transcript := by
  have copyable : Copyable sampleCopy (sampleSource []).handle none (sampleRoot [])
      (sampleSource []).record "leaf_1" "copy" 4 := by
    apply sample_copyable <;> decide
  obtain ⟨grown, clone, cloned, -, whole⟩ := cloneCurrent_history copyable sampleValues none
  refine ⟨grown, clone, cloned, whole ?_ ?_⟩
  · decide
  · decide

/-- The clone of a session that was compacted lacks the summary. -/
theorem clone_drops_compaction :
    (sampleSource [compactionCall]).handle.activeLeafId =
        lastMove (sampleSource [compactionCall]).record.events ∧
      ∃ grown clone, cloneCurrent sampleValues sampleCopy none none
          (sampleSource [compactionCall]).handle (sampleRoot [compactionCall]) =
            (grown, .ok clone) ∧
        (foldEvents sampleValues clone.record.events).transcript ≠
          (foldEvents sampleValues (sampleSource [compactionCall]).record.events).transcript := by
  have copyable : Copyable sampleCopy (sampleSource [compactionCall]).handle none
      (sampleRoot [compactionCall]) (sampleSource [compactionCall]).record "leaf_1" "copy" 4 := by
    apply sample_copyable <;> decide
  refine ⟨by decide, _, _, copyToNewSession_ok copyable sampleValues .clone none,
    fun same => ?_⟩
  have lengths := congrArg length same
  revert lengths
  decide

end PiRust.SessionLog
