import Mathlib.Data.List.Count
import Mathlib.Data.List.Nodup
import PiRust.LogTail

/- What a startup recovery appends, and when its log still reads. -/
namespace PiRust.SessionLog

open List

def isOperationRecovered : SessionEventData → Bool
  | .operationRecovered _ _ => true
  | _ => false

def recoveries (operationId : String) (events : List SessionEventEnvelope) : Nat :=
  events.countP fun event =>
    isOperationRecovered event.data && event.operationId = some operationId

theorem recoverySummary_nodup (values : Serde) (events : List SessionEventEnvelope) :
    (foldEvents values events).recoverySummary.Nodup := by
  have unique := foldl_foldEvent_unique values (finalizedOperationIds events) events {} nodup_nil
  rw [← foldEvents_operationStatuses] at unique
  unfold SessionReplay.recoverySummary
  refine (mergeSort_perm _ _).nodup_iff.mpr ?_
  exact unique.sublist (filter_sublist.map Prod.fst)

section markers

variable {values : Serde} {system : StartupSystem} {sessionId : String}
  {before : List SessionEventEnvelope}

theorem recoveryLines_operationIds :
    (recoveryLines values system sessionId before).map SessionEventEnvelope.operationId =
      (foldEvents values before).recoverySummary.map some := by
  have events (markers : List StartupRecoveryMarker) :
      (recoveryEvents system sessionId markers).map SessionEventEnvelope.operationId =
        markers.map fun marker => some marker.operationId := by
    rw [recoveryEvents, map_map]
    have kept := congrArg (map fun marker => some marker.operationId) (zipIdx_map_fst 0 markers)
    rwa [map_map] at kept
  rw [recoveryLines, stampEvents_map fun _ _ => rfl, events, recoveryMarkers, map_map]
  have kept := congrArg (map some) (zipIdx_map_fst 0 (foldEvents values before).recoverySummary)
  rwa [map_map] at kept

theorem recoveryLines_recovered : ∀ event ∈ recoveryLines values system sessionId before,
    isOperationRecovered event.data = true := by
  intro event member
  have data := mem_map_of_mem (f := SessionEventEnvelope.data) member
  rw [recoveryLines, stampEvents_map fun _ _ => rfl, recoveryEvents, map_map] at data
  obtain ⟨marker, _, same⟩ := mem_map.mp data
  rw [← same]
  rfl

theorem recoveries_recoveryLines (operationId : String) :
    recoveries operationId (recoveryLines values system sessionId before) =
      (foldEvents values before).recoverySummary.count operationId := by
  have marked : recoveries operationId (recoveryLines values system sessionId before) =
      ((recoveryLines values system sessionId before).map
        SessionEventEnvelope.operationId).count (some operationId) := by
    rw [count, countP_map, recoveries]
    refine countP_congr fun event member => ?_
    simp [recoveryLines_recovered event member]
  rw [marked, recoveryLines_operationIds]
  exact count_map_of_injective _ _ (fun _ _ same => Option.some.inj same) _

variable {operationId : String}

theorem recoveries_inDoubt (doubtful : InDoubt before operationId) :
    recoveries operationId (recoveryLines values system sessionId before) = 1 := by
  rw [recoveries_recoveryLines]
  exact count_eq_one_of_mem (recoverySummary_nodup values before)
    ((mem_recoverySummary values before operationId).mpr ((inDoubt_iff _ _).mp doubtful))

theorem recoveries_settled (settled : ¬ InDoubt before operationId) :
    recoveries operationId (recoveryLines values system sessionId before) = 0 := by
  rw [recoveries_recoveryLines]
  refine count_eq_zero_of_not_mem fun member => settled ?_
  exact (inDoubt_iff _ _).mpr ((mem_recoverySummary values before operationId).mp member)

theorem statusOf_append_others (events : List SessionEventEnvelope)
    {more : List SessionEventEnvelope}
    (others : ∀ event ∈ more, event.operationId ≠ some operationId) :
    statusOf (events ++ more) operationId = statusOf events operationId := by
  induction more generalizing events with
  | nil => rw [append_nil]
  | cons event more ih =>
    rw [← singleton_append, ← append_assoc,
      ih _ fun other inside => others other (mem_cons_of_mem _ inside),
      statusOf_append_other events (others event (mem_cons_self ..))]

theorem recovered_settled (operationId : String) :
    ¬ InDoubt (before ++ recoveryLines values system sessionId before) operationId := by
  rintro ⟨started, unsettled⟩
  have finalized_iff := mem_finalizedOperationIds
    (before ++ recoveryLines values system sessionId before) operationId
  have doubtful : InDoubt before operationId := by
    refine ⟨?_, fun finalized => unsettled ?_⟩
    · rw [isStarted_append, Bool.or_eq_true] at started
      refine started.resolve_right fun marked => ?_
      obtain ⟨event, member, begins⟩ := any_eq_true.mp marked
      have recovered := recoveryLines_recovered event member
      revert begins recovered
      cases event.data <;> simp [isOperationStarted, isOperationRecovered]
    · obtain ⟨event, member, final⟩ := (mem_finalizedOperationIds _ _).mp finalized
      exact finalized_iff.mpr ⟨event, mem_append_left _ member, final⟩
  have counted : recoveries operationId (recoveryLines values system sessionId before) = 1 :=
    recoveries_inDoubt doubtful
  obtain ⟨event, member, marks⟩ := countP_pos_iff.mp (by rw [← recoveries, counted]; decide)
  rw [Bool.and_eq_true, decide_eq_true_eq] at marks
  refine unsettled (finalized_iff.mpr ⟨event, mem_append_right _ member, ?_, marks.2⟩)
  revert marks
  cases event.data <;> simp [isOperationRecovered, SessionEventData.isFinalMarker]

theorem recovered_status (settled : ¬ InDoubt before operationId) :
    statusOf (before ++ recoveryLines values system sessionId before) operationId =
      statusOf before operationId := by
  refine statusOf_append_others before fun event member named => ?_
  have marked : some operationId ∈ (recoveryLines values system sessionId before).map
      SessionEventEnvelope.operationId := mem_map.mpr ⟨event, member, named⟩
  rw [recoveryLines_operationIds] at marked
  obtain ⟨_, doubtful, same⟩ := mem_map.mp marked
  cases same
  exact settled ((inDoubt_iff _ _).mpr
    ((mem_recoverySummary values before operationId).mp doubtful))

end markers

/-- An open recovers every operation in doubt, once and for all: its log reads as before with
the markers, and the next open changes nothing. -/
def RecoversOnce (serde : EventSerde) (values : Serde) (system : StartupSystem)
    (before : List SessionEventEnvelope) (dir : SessionDir) : Prop :=
  ∃ after service added replay,
    openService serde values system dir = (after, .ok service) ∧
    readEvents serde service.manifest after = .ok (before ++ added) ∧
    service.replay serde values after = .ok replay ∧
    replay.recoverySummary = [] ∧
    (∀ event ∈ added, isOperationRecovered event.data = true) ∧
    (∀ operationId, InDoubt before operationId → recoveries operationId added = 1) ∧
    (∀ operationId, ¬ InDoubt before operationId → recoveries operationId added = 0 ∧
      replay.operationStatus operationId = (foldEvents values before).operationStatus operationId) ∧
    ∀ again, ∃ reopened, openService serde values again after = (after, .ok reopened)

section recovery

variable {serde : EventSerde} {values : Serde} {system : StartupSystem} {dir after : SessionDir}
  {content : String} {before added : List SessionEventEnvelope} {service : SessionService}

theorem RecoversOnce.of_open
    (opened : openService serde values system dir = (after, .ok service))
    (kept : service.manifest = after.manifest) (valid : validateManifest after.manifest = .ok ())
    {bytes : ByteArray} (log : after.eventLog = some bytes)
    (reads : readEvents serde after.manifest after = .ok (before ++ added))
    (markers : added = recoveryLines values system dir.manifest.sessionId before) :
    RecoversOnce serde values system before dir := by
  have settled : (foldEvents values (before ++ added)).recoverySummary = [] := by
    rw [recoverySummary_eq_nil, markers]
    exact recovered_settled
  refine ⟨after, service, added, foldEvents values (before ++ added), opened, ?_, ?_, settled, ?_,
    ?_, ?_, fun again => ⟨_, openService_settled valid log reads settled⟩⟩
  · rw [kept, reads]
  · simp [SessionService.replay, replaySession, kept, reads, bind, Except.bind, pure, Except.pure]
  · rw [markers]
    exact recoveryLines_recovered
  · rw [markers]
    exact fun _ doubtful => recoveries_inDoubt doubtful
  · rw [markers]
    intro operationId unmarked
    refine ⟨recoveries_settled unmarked, ?_⟩
    rw [operationStatus_foldEvents, operationStatus_foldEvents, recovered_status unmarked]

theorem recoveryLines_eq_nil (settled : (foldEvents values before).recoverySummary = []) :
    recoveryLines values system dir.manifest.sessionId before = [] := by
  rw [recoveryLines, settled]
  rfl

theorem recoveredDir_grown_lines (log : dir.eventLog = some content.toUTF8) :
    Grown dir (recoveredDir serde values system before dir) content
      (jsonLines serde (recoveryLines values system dir.manifest.sessionId before)) where
  path := rfl
  sessionId := rfl
  eventLog := rfl
  log := by
    rw [recoveredDir, SessionDir.append, log]
    exact congrArg some String.toByteArray_append.symm

theorem openService_doubtful (system : StartupSystem)
    (session : ReadableSession serde dir content before)
    (doubtful : (foldEvents values before).recoverySummary ≠ []) :
    ∃ after service marker rest, openService serde values system dir = (after, .ok service) ∧
      service.manifest = after.manifest ∧ validateManifest after.manifest = .ok () ∧
      recoveryLines values system dir.manifest.sessionId before = marker :: rest ∧
      Grown dir after content (jsonLines serde (marker :: rest)) := by
  obtain ⟨marker, rest, markers⟩ : ∃ marker rest,
      recoveryLines values system dir.manifest.sessionId before = marker :: rest :=
    recoveryLines_ne_nil doubtful
  have grown : Grown dir (recoveredDir serde values system before dir) content
      (jsonLines serde (recoveryLines values system dir.manifest.sessionId before)) :=
    recoveredDir_grown_lines session.log
  rw [markers] at grown
  exact ⟨_, _, marker, rest, openService_recovers session.manifest session.named session.log
    session.reads doubtful, rfl, session.manifest, markers, grown⟩

theorem openService_blocked (strict : serde.Strict)
    (session : ReadableSession serde dir content before)
    (faithful : ∀ event ∈ recoveryLines values system dir.manifest.sessionId before,
      serde.Faithful event)
    (doubtful : (foldEvents values before).recoverySummary ≠ [])
    (blocked : ¬ Appendable content) :
    ∃ after service, openService serde values system dir = (after, .ok service) ∧
      service.manifest = after.manifest ∧
      ∃ error, readEvents serde after.manifest after = .error error := by
  obtain ⟨after, service, marker, rest, opened, kept, -, markers, grown⟩ :=
    openService_doubtful system session doubtful
  rw [markers] at faithful
  exact ⟨after, service, opened, kept, readEvents_blocked strict session blocked faithful grown⟩

/-- A startup recovery is complete and idempotent exactly when the log ends with a line feed
(or with spaces after the last one), or there is nothing to recover. -/
theorem recoversOnce_iff (strict : serde.Strict)
    (session : ReadableSession serde dir content before)
    (faithful : ∀ event ∈ recoveryLines values system dir.manifest.sessionId before,
      serde.Faithful event) :
    RecoversOnce serde values system before dir ↔
      Appendable content ∨ ∀ operationId, ¬ InDoubt before operationId := by
  rw [← recoverySummary_eq_nil values]
  by_cases settled : (foldEvents values before).recoverySummary = []
  · refine ⟨fun _ => .inr settled, fun _ => ?_⟩
    have reads : readEvents serde dir.manifest dir = .ok (before ++ []) := by
      rw [append_nil]
      exact session.reads
    exact RecoversOnce.of_open
      (openService_settled session.manifest session.log session.reads settled) rfl
      session.manifest session.log reads (recoveryLines_eq_nil settled).symm
  · constructor
    · intro recovers
      refine .inl ?_
      by_contra blocked
      obtain ⟨after, service, opened, kept, error, failed⟩ :=
        openService_blocked strict session faithful settled blocked
      obtain ⟨again, other, added, replay, reopened, reads, _⟩ := recovers
      rw [opened] at reopened
      cases reopened
      rw [kept, failed] at reads
      cases reads
    · rintro (appendable | none)
      · obtain ⟨after, service, marker, rest, opened, kept, valid, markers, grown⟩ :=
          openService_doubtful system session settled
        have stored := recoveryLines_stored faithful
        rw [markers] at stored
        exact RecoversOnce.of_open opened kept valid grown.log
          (readEvents_appended strict session appendable stored grown) markers.symm
      · exact absurd none settled

end recovery

section sample

def EventSerde.skipSpaces (serde : EventSerde) : EventSerde where
  fromStr text := serde.fromStr (String.ofList (text.toList.dropWhile isJsonSpace))
  toWriter := serde.toWriter

theorem skipSpaces_fromStr (serde : EventSerde) {text : String} {c : Char}
    (opens : text.toList.head? = some c) (token : isJsonSpace c = false) :
    serde.skipSpaces.fromStr text = serde.fromStr text := by
  obtain ⟨rest, same⟩ := head?_eq_some_iff.mp opens
  have kept : text.toList.dropWhile isJsonSpace = text.toList := by
    rw [same, dropWhile_cons_of_neg (by simp [token])]
  simp [EventSerde.skipSpaces, kept]

theorem skipSpaces_faithful {serde : EventSerde} {event : SessionEventEnvelope}
    (faithful : serde.Faithful event) : serde.skipSpaces.Faithful event := by
  obtain ⟨tail, written⟩ := head?_eq_some_iff.mp faithful.opens
  have front {text : String} (opens : text.toList.head? = some '{') :
      serde.skipSpaces.fromStr text = serde.fromStr text :=
    skipSpaces_fromStr serde opens (by decide)
  refine ⟨(front faithful.opens).trans faithful.readsBack, faithful.oneLine, faithful.opens,
    faithful.closes, fun part inLine nonempty cut => ?_, fun rest => ?_⟩
  · have opens : part.toList.head? = some '{' := by
      obtain ⟨back, split⟩ := inLine
      have filled : part.toList ≠ [] := fun none => nonempty (String.toList_inj.mp none)
      rw [← head?_append_of_ne_nil _ filled, split]
      exact faithful.opens
    obtain ⟨error, failed⟩ := faithful.torn part inLine nonempty cut
    exact ⟨error, (front opens).trans failed⟩
  · have opens : (serde.toWriter event ++ "\x7b" ++ rest).toList.head? = some '{' := by
      rw [String.append_assoc, String.toList_append, written]
      rfl
    obtain ⟨error, failed⟩ := faithful.alone rest
    exact ⟨error, (front opens).trans failed⟩

theorem sampleSerde_foreign {text : String} (opens : text.toList.head? ≠ some '{') :
    ∃ error, sampleSerde.fromStr text = .error error := by
  have missing : sampleEvents.find? (fun event =>
      decide ("\x7b" ++ event.eventId ++ "\x7d" = text)) = none := by
    rw [find?_eq_none]
    intro event known same
    rw [← of_decide_eq_true same, String.toList_append, String.toList_append] at opens
    exact opens rfl
  exact ⟨"EOF while parsing an object", by simp [sampleSerde, missing]⟩

theorem sampleSerde_strict : sampleSerde.skipSpaces.Strict where
  leading := by
    intro blank text event spaces parsed
    have skipped : (blank ++ text).toList.dropWhile isJsonSpace =
        text.toList.dropWhile isJsonSpace := by
      rw [String.toList_append, dropWhile_append_of_pos spaces]
    rw [← parsed]
    simp only [EventSerde.skipSpaces, skipped]
  foreign := by
    intro blank rest whitespace ⟨c, member, token⟩
    have visible : blank.toList.dropWhile isJsonSpace ≠ [] := by
      intro none
      have space := dropWhile_eq_nil_iff.mp none c member
      rw [token] at space
      cases space
    obtain ⟨first, more, left⟩ := exists_cons_of_ne_nil visible
    have kept : (blank ++ "\x7b" ++ rest).toList.dropWhile isJsonSpace =
        first :: (more ++ ("\x7b" ++ rest).toList) := by
      rw [String.append_assoc, String.toList_append, dropWhile_append, left]
      rfl
    have inside : first ∈ blank.toList :=
      (dropWhile_sublist isJsonSpace).subset (by rw [left]; exact mem_cons_self ..)
    refine sampleSerde_foreign ?_
    rw [kept, String.toList_ofList]
    rintro ⟨⟩
    have space := blank_of_trim whitespace _ inside
    cases space
  trailing := by
    intro text rest event parsed
    have three : (text.toList.dropWhile isJsonSpace).length = 3 := by
      by_contra other
      obtain ⟨error, failed⟩ : ∃ error, sampleSerde.fromStr (String.ofList
          (text.toList.dropWhile isJsonSpace)) = .error error :=
        sampleSerde_other (by rw [String.toList_ofList]; exact other)
      simp only [EventSerde.skipSpaces] at parsed
      rw [failed] at parsed
      cases parsed
    have written : (text.toList.dropWhile isJsonSpace).isEmpty = false := by
      cases shape : text.toList.dropWhile isJsonSpace with
      | nil => rw [shape] at three; cases three
      | cons => rfl
    refine sampleSerde_other ?_
    rw [String.toList_ofList, String.append_assoc, String.toList_append, dropWhile_append,
      written, String.toList_append]
    simp only [Bool.false_eq_true, if_false, length_append, three]
    have brace : "\x7b".toList.length = 1 := by decide
    omega

def unendedText : String :=
  jsonLines sampleSerde [sampleStarted, sampleCommitted] ++ sampleSerde.toWriter sampleNext

def endedDir : SessionDir :=
  { sampleDir with eventLog := some (unendedText ++ "\n").toUTF8 }

def unendedDir : SessionDir := { sampleDir with eventLog := some unendedText.toUTF8 }

theorem endedDir_readable : ReadableSession sampleSerde.skipSpaces endedDir (unendedText ++ "\n")
    [sampleStarted, sampleCommitted, sampleNext] where
  manifest := rfl
  named := rfl
  log := rfl
  reads := rfl

theorem unendedDir_readable : ReadableSession sampleSerde.skipSpaces unendedDir unendedText
    [sampleStarted, sampleCommitted, sampleNext] where
  manifest := rfl
  named := rfl
  log := rfl
  reads := rfl

theorem sampleRecovery_faithful : ∀ event ∈ recoveryLines sampleValues sampleSystem "sess"
    [sampleStarted, sampleCommitted, sampleNext], sampleSerde.skipSpaces.Faithful event :=
  fun event inside => skipSpaces_faithful (sampleSerde_faithful
    (sampleRecovered_lines (prefix_refl _) event inside))

theorem sample_inDoubt : InDoubt [sampleStarted, sampleCommitted, sampleNext] "op_2" :=
  ⟨by decide, by decide⟩

/-- The second operation of a whole log is recovered once. -/
theorem endedDir_recoversOnce : RecoversOnce sampleSerde.skipSpaces sampleValues sampleSystem
    [sampleStarted, sampleCommitted, sampleNext] endedDir :=
  (recoversOnce_iff sampleSerde_strict endedDir_readable sampleRecovery_faithful).mpr
    (.inl (by decide))

/-- Without its last line feed the log opens and is recovered, but it no longer reads. -/
theorem unendedDir_unreadable :
    ReadableSession sampleSerde.skipSpaces unendedDir unendedText
      [sampleStarted, sampleCommitted, sampleNext] ∧
    (∃ after service, openService sampleSerde.skipSpaces sampleValues sampleSystem unendedDir =
      (after, .ok service) ∧
      ∃ error, readEvents sampleSerde.skipSpaces after.manifest after = .error error) ∧
    ¬ RecoversOnce sampleSerde.skipSpaces sampleValues sampleSystem
      [sampleStarted, sampleCommitted, sampleNext] unendedDir := by
  have doubtful : (foldEvents sampleValues
      [sampleStarted, sampleCommitted, sampleNext]).recoverySummary ≠ [] := fun settled =>
    (recoverySummary_eq_nil _ _).mp settled "op_2" sample_inDoubt
  have blocked : ¬ Appendable unendedText := by decide
  obtain ⟨after, service, opened, kept, error, failed⟩ := openService_blocked sampleSerde_strict
    unendedDir_readable sampleRecovery_faithful doubtful blocked
  refine ⟨unendedDir_readable, ⟨after, service, opened, error, failed⟩, ?_⟩
  rintro ⟨again, other, added, replay, reopened, reads, _⟩
  rw [opened] at reopened
  cases reopened
  rw [kept, failed] at reads
  cases reads

end sample

end PiRust.SessionLog
