import PiRust.SessionRecord
import PiRust.StartupRecovery

/- The sequence numbers of a log whose first events have none, over any appends of one
writer. -/
namespace PiRust.SessionLog

open List

/-- The events of the lines of a log, as they are written there. -/
def parsedLines (serde : EventSerde) (texts : List String) : List SessionEventEnvelope :=
  texts.filterMap fun text => if trim text = "" then none else (serde.fromStr text).toOption

/-- The sequences that `read_events` gives to the events that have none. -/
def number : UInt64 → List SessionEventEnvelope → List SessionEventEnvelope
  | _, [] => []
  | next, event :: rest =>
    event.withSessionSequence (event.sessionSequence.getD next) :: number (next + 1) rest

/-- The events of a batch before the first that is not of the session. -/
def accepted (sessionId : String) (batch : List SessionEventEnvelope) : List SessionEventEnvelope :=
  batch.takeWhile fun event => (validateEventForSession event sessionId).isOk

/-- Calls of `append_events` on one handle, whatever each of them returns. -/
def appendRun (serde : EventSerde) (manifest : SessionManifest)
    (batches : List (List SessionEventEnvelope)) (dir : SessionDir) : SessionDir :=
  batches.foldl (fun dir batch => (appendEvents serde manifest batch dir).1) dir

def SessionEventEnvelope.withoutSequence (event : SessionEventEnvelope) : SessionEventEnvelope :=
  { event with sessionSequence := none }

/-- A log reads as `events`, numbered 1, 2, ... in their order. -/
def Numbered (serde : EventSerde) (dir : SessionDir) (events : List SessionEventEnvelope) : Prop :=
  ∃ read, readEvents serde dir.manifest dir = .ok read ∧
    read.Pairwise (fun earlier later =>
      earlier.sessionSequence.getD 0 < later.sessionSequence.getD 0) ∧
    read.map (fun event => event.sessionSequence.map UInt64.toNat) =
      (range' 1 events.length).map some ∧
    read.map SessionEventEnvelope.withoutSequence = events.map SessionEventEnvelope.withoutSequence

section numbers

variable {serde : EventSerde} {legacy later events : List SessionEventEnvelope}

variable (next : UInt64)

theorem add_ofNat_succ (count : Nat) :
    next + UInt64.ofNat (count + 1) = next + 1 + UInt64.ofNat count := by
  rw [UInt64.ofNat_add, UInt64.add_assoc, UInt64.add_comm 1]
  rfl

theorem stampEvents_append (events more : List SessionEventEnvelope) :
    stampEvents next (events ++ more) =
      stampEvents next events ++ stampEvents (next + UInt64.ofNat events.length) more := by
  induction events generalizing next with
  | nil => simp [stampEvents]
  | cons event events ih =>
    rw [cons_append, stampEvents, stampEvents, ih, length_cons, add_ofNat_succ]
    rfl

theorem number_legacy (unnumbered : ∀ event ∈ legacy, event.sessionSequence = none) :
    number next legacy = stampEvents next legacy := by
  induction legacy generalizing next with
  | nil => rfl
  | cons event legacy ih =>
    rw [number, stampEvents, unnumbered event (mem_cons_self ..),
      ih _ fun other inside => unnumbered other (mem_cons_of_mem _ inside)]
    rfl

theorem number_append (events more : List SessionEventEnvelope) :
    number next (events ++ more) =
      number next events ++ number (next + UInt64.ofNat events.length) more := by
  induction events generalizing next with
  | nil => simp [number]
  | cons event events ih =>
    rw [cons_append, number, number, ih, length_cons, add_ofNat_succ]
    rfl

theorem number_stamped (other : UInt64) :
    number other (stampEvents next later) = stampEvents next later := by
  induction later generalizing next other with
  | nil => rfl
  | cons event later ih =>
    rw [stampEvents, number, ih]
    rfl

theorem readLines_number (path sessionId : String) {texts : List String} {index : Nat}
    {sequence : UInt64}
    (reads : readLines serde path sessionId index sequence texts = .ok events) :
    events = number (sequence + 1) (parsedLines serde texts) := by
  induction texts generalizing index sequence events with
  | nil =>
    cases reads
    rfl
  | cons text texts ih =>
    by_cases blank : trim text = ""
    · rw [readLines, if_pos blank] at reads
      rw [parsedLines, filterMap_cons, if_pos blank]
      exact ih reads
    · obtain ⟨event, read, parsed, valid, tail, rfl⟩ :=
        readLines_event_inv path sessionId blank reads
      rw [parsedLines, filterMap_cons, if_neg blank, parsed, ih tail]
      rfl

theorem readEvents_legacy {dir : SessionDir} {content : String} {before : List SessionEventEnvelope}
    (session : ReadableSession serde dir content before)
    (unnumbered : ∀ event ∈ legacy, event.sessionSequence = none)
    (parsed : parsedLines serde (lines content) =
      legacy ++ stampEvents (UInt64.ofNat (legacy.length + 1)) later) :
    before = stampEvents 1 (legacy ++ later) := by
  have reads := session.reads
  rw [readEvents_eq (validateManifest_path session.manifest) session.log] at reads
  have shifted : (1 : UInt64) + UInt64.ofNat legacy.length = UInt64.ofNat (legacy.length + 1) := by
    rw [UInt64.ofNat_add, UInt64.add_comm]
    rfl
  calc before = number 1 (legacy ++ stampEvents (UInt64.ofNat (legacy.length + 1)) later) := by
        rw [← parsed]
        exact readLines_number _ _ reads
    _ = stampEvents 1 legacy ++ stampEvents (UInt64.ofNat (legacy.length + 1)) later := by
        rw [number_append, number_legacy 1 unnumbered, number_stamped]
    _ = stampEvents 1 (legacy ++ later) := by rw [stampEvents_append, shifted]

theorem stampEvents_numbers (first : Nat) (bound : first + events.length ≤ 2 ^ 64) :
    (stampEvents (UInt64.ofNat first) events).map
        (fun event => event.sessionSequence.map UInt64.toNat) =
      (range' first events.length).map some := by
  induction events generalizing first with
  | nil => rfl
  | cons event events ih =>
    rw [length_cons] at bound
    have inside : first < 2 ^ 64 := by omega
    have small : (UInt64.ofNat first).toNat = first := UInt64.toNat_ofNat_of_lt' inside
    have next : UInt64.ofNat first + 1 = UInt64.ofNat (first + 1) := by
      rw [UInt64.ofNat_add]
      rfl
    rw [stampEvents, map_cons, next, ih (first + 1) (by omega), length_cons, range'_succ, map_cons]
    simp [SessionEventEnvelope.withSessionSequence, small]

theorem foldl_max_stampEvents (last : Nat) (bound : last + events.length < 2 ^ 64) :
    (stampEvents (UInt64.ofNat (last + 1)) events).foldl
        (fun last event => max last (event.sessionSequence.getD 0)) (UInt64.ofNat last) =
      UInt64.ofNat (last + events.length) := by
  induction events generalizing last with
  | nil => rfl
  | cons event events ih =>
    rw [length_cons] at bound ⊢
    have next : UInt64.ofNat (last + 1) + 1 = UInt64.ofNat (last + 1 + 1) := by
      rw [UInt64.ofNat_add (last + 1) 1]
      rfl
    have inside : last + 1 < 2 ^ 64 := by omega
    have below : UInt64.ofNat last ≤ UInt64.ofNat (last + 1) :=
      (UInt64.ofNat_le_iff_le (Nat.lt_of_succ_lt inside) inside).mpr (Nat.le_succ last)
    have larger : max (UInt64.ofNat last) (UInt64.ofNat (last + 1)) = UInt64.ofNat (last + 1) :=
      if_pos below
    rw [stampEvents, next, foldl_cons]
    simp only [SessionEventEnvelope.withSessionSequence, Option.getD_some, larger]
    rw [ih (last + 1) (by omega), Nat.add_assoc, Nat.add_comm 1]

variable (bound : events.length < 2 ^ 64)
include bound

theorem nextAfter_stampEvents :
    nextAfter (stampEvents 1 events) = UInt64.ofNat (events.length + 1) := by
  have small : 0 + events.length < 2 ^ 64 := by omega
  have last := foldl_max_stampEvents 0 small
  rw [Nat.zero_add, Nat.zero_add] at last
  rw [UInt64.ofNat_add, nextAfter]
  exact congrArg (· + 1) last

theorem stampEvents_increasing :
    (stampEvents 1 events).Pairwise fun earlier later =>
      earlier.sessionSequence.getD 0 < later.sessionSequence.getD 0 := by
  have small : 1 + events.length ≤ 2 ^ 64 := by omega
  have numbers := stampEvents_numbers 1 small
  have sorted : ((range' 1 events.length).map some).Pairwise
      fun earlier later => earlier.getD 0 < later.getD 0 := by
    rw [pairwise_map]
    exact pairwise_lt_range'
  have below := pairwise_map.mp (by rw [← numbers] at sorted; exact sorted)
  have default (sequence : Option UInt64) :
      (sequence.map UInt64.toNat).getD 0 = (sequence.getD 0).toNat := by cases sequence <;> rfl
  refine below.imp fun {earlier later} less => UInt64.lt_iff_toNat_lt.mpr ?_
  rw [← default, ← default]
  exact less

theorem Numbered.of_reads {dir : SessionDir}
    (reads : readEvents serde dir.manifest dir = .ok (stampEvents 1 events)) :
    Numbered serde dir events :=
  ⟨_, reads, stampEvents_increasing bound, stampEvents_numbers 1 (by omega),
    stampEvents_map (fun _ _ => rfl) _ _⟩

end numbers

section appends

variable {serde : EventSerde} {dir : SessionDir} {content : String}
  {known batch : List SessionEventEnvelope}

theorem accepted_valid (sessionId : String) (batch : List SessionEventEnvelope) :
    ∀ event ∈ accepted sessionId batch, validateEventForSession event sessionId = .ok () := by
  intro event member
  have passed := mem_takeWhile_imp member
  cases valid : validateEventForSession event sessionId with
  | error error =>
    rw [valid] at passed
    cases passed
  | ok => rfl

theorem writeEvents_accepted (sessionId : String) (next : UInt64)
    (batch : List SessionEventEnvelope) :
    (writeEvents serde sessionId next batch).1 =
      jsonLines serde (stampEvents next (accepted sessionId batch)) := by
  induction batch generalizing next with
  | nil => rfl
  | cons event batch ih =>
    have blind : validateEventForSession (event.withSessionSequence next) sessionId =
        validateEventForSession event sessionId := rfl
    rw [writeEvents, accepted, takeWhile_cons]
    simp only [blind]
    cases validateEventForSession event sessionId with
    | error error => rfl
    | ok =>
      have later := ih (next + 1)
      simp only [Except.isOk, Except.toBool, if_true, stampEvents, jsonLines, later]
      rfl

theorem SessionDir.append_empty (dir : SessionDir) : dir.append "".toUTF8 = dir := by
  have none : "".toUTF8 = ByteArray.empty := rfl
  rw [SessionDir.append, none]
  simp [ByteArray.append_empty]

theorem appendEvents_eq (reads : readEvents serde dir.manifest dir = .ok known)
    (batch : List SessionEventEnvelope) :
    (appendEvents serde dir.manifest batch dir).1 =
      dir.append (jsonLines serde
        (stampEvents (nextAfter known) (accepted dir.manifest.sessionId batch))).toUTF8 := by
  simp [appendEvents, nextSessionSequence_eq reads, writeEvents_accepted]

theorem appendEvents_manifest (serde : EventSerde) (manifest : SessionManifest)
    (batch : List SessionEventEnvelope) (dir : SessionDir) :
    (appendEvents serde manifest batch dir).1.manifest = dir.manifest := by
  unfold appendEvents
  cases nextSessionSequence serde manifest dir <;> rfl

theorem appendEvents_unreadable
    (unreadable : ∃ error, readEvents serde dir.manifest dir = .error error)
    (batch : List SessionEventEnvelope) :
    (appendEvents serde dir.manifest batch dir).1 = dir := by
  obtain ⟨error, failed⟩ := unreadable
  simp [appendEvents, nextSessionSequence, failed, bind, Except.bind]

theorem stored_accepted {next : UInt64}
    (faithful : ∀ event ∈ stampEvents next (accepted dir.manifest.sessionId batch),
      serde.Faithful event) :
    ∀ event ∈ stampEvents next (accepted dir.manifest.sessionId batch),
      Stored serde dir.manifest.sessionId event := by
  intro event member
  have written : (writeEvents serde dir.manifest.sessionId next
      (accepted dir.manifest.sessionId batch)).2 = .ok () :=
    writeEvents_valid (accepted_valid _ batch)
  obtain ⟨sequenced, valid⟩ := (writeEvents_ok written).2 event member
  exact ⟨faithful event member, sequenced, valid⟩

theorem appendEvents_numbered (strict : serde.Strict)
    (session : ReadableSession serde dir content (stampEvents 1 known))
    (appendable : Appendable content) (bound : known.length < 2 ^ 64)
    (faithful : ∀ event ∈ stampEvents (UInt64.ofNat (known.length + 1))
      (accepted dir.manifest.sessionId batch), serde.Faithful event) :
    ∃ grown, Appendable grown ∧
      ReadableSession serde (appendEvents serde dir.manifest batch dir).1 grown
        (stampEvents 1 (known ++ accepted dir.manifest.sessionId batch)) := by
  rw [appendEvents_eq session.reads, nextAfter_stampEvents bound]
  have stored := stored_accepted faithful
  have joined : stampEvents 1 (known ++ accepted dir.manifest.sessionId batch) =
      stampEvents 1 known ++ stampEvents (UInt64.ofNat (known.length + 1))
        (accepted dir.manifest.sessionId batch) := by
    rw [stampEvents_append, UInt64.ofNat_add, UInt64.add_comm]
    rfl
  rw [joined]
  cases written : stampEvents (UInt64.ofNat (known.length + 1))
      (accepted dir.manifest.sessionId batch) with
  | nil =>
    refine ⟨content, appendable, ?_⟩
    rw [jsonLines, SessionDir.append_empty, append_nil]
    exact session
  | cons event events =>
    rw [written] at stored
    have grown := append_grown session.log (jsonLines serde (event :: events))
    exact ⟨_, appendable_jsonLines content, session.manifest, session.named, grown.log,
      readEvents_appended strict session appendable stored grown⟩

theorem stampEvents_from (count : Nat) (events more : List SessionEventEnvelope) :
    stampEvents (UInt64.ofNat (count + 1)) (events ++ more) =
      stampEvents (UInt64.ofNat (count + 1)) events ++
        stampEvents (UInt64.ofNat (count + events.length + 1)) more := by
  have shifted : UInt64.ofNat (count + 1) + UInt64.ofNat events.length =
      UInt64.ofNat (count + events.length + 1) := by
    rw [← UInt64.ofNat_add]
    congr 1
    omega
  rw [stampEvents_append, shifted]

theorem appendRun_numbered (strict : serde.Strict) (manifest : SessionManifest)
    (batches : List (List SessionEventEnvelope))
    (session : ReadableSession serde dir content (stampEvents 1 known))
    (own : dir.manifest = manifest) (appendable : Appendable content)
    (bound : known.length + (batches.flatMap (accepted manifest.sessionId)).length < 2 ^ 64)
    (faithful : ∀ event ∈ stampEvents (UInt64.ofNat (known.length + 1))
      (batches.flatMap (accepted manifest.sessionId)), serde.Faithful event) :
    readEvents serde manifest (appendRun serde manifest batches dir) =
      .ok (stampEvents 1 (known ++ batches.flatMap (accepted manifest.sessionId))) := by
  induction batches generalizing dir content known with
  | nil =>
    rw [flatMap_nil, append_nil, ← own]
    exact session.reads
  | cons batch batches ih =>
    rw [flatMap_cons, length_append] at bound
    rw [flatMap_cons, stampEvents_from] at faithful
    have first (event : SessionEventEnvelope) (member : event ∈ stampEvents
        (UInt64.ofNat (known.length + 1)) (accepted manifest.sessionId batch)) :=
      faithful event (mem_append_left _ member)
    have kept : (appendEvents serde manifest batch dir).1.manifest = manifest :=
      (appendEvents_manifest serde manifest batch dir).trans own
    subst own
    obtain ⟨grown, ended, next⟩ := appendEvents_numbered strict session appendable (by omega) first
    have rest := ih next kept ended (by rw [length_append]; omega) (by
      rw [length_append]
      exact fun event member => faithful event (mem_append_right _ member))
    rw [flatMap_cons, ← append_assoc]
    exact rest

theorem appendRun_unreadable {manifest : SessionManifest}
    (batches : List (List SessionEventEnvelope)) (own : dir.manifest = manifest)
    (unreadable : ∃ error, readEvents serde manifest dir = .error error) :
    appendRun serde manifest batches dir = dir := by
  induction batches with
  | nil => rfl
  | cons batch batches ih =>
    subst own
    rw [appendRun, foldl_cons, appendEvents_unreadable unreadable]
    exact ih

theorem appendRun_blocked (strict : serde.Strict) (manifest : SessionManifest)
    (batches : List (List SessionEventEnvelope))
    (session : ReadableSession serde dir content (stampEvents 1 known))
    (own : dir.manifest = manifest) (blocked : ¬ Appendable content)
    (bound : known.length < 2 ^ 64)
    (faithful : ∀ event ∈ stampEvents (UInt64.ofNat (known.length + 1))
      (batches.flatMap (accepted manifest.sessionId)), serde.Faithful event)
    (written : batches.flatMap (accepted manifest.sessionId) ≠ []) :
    ∃ error, readEvents serde manifest (appendRun serde manifest batches dir) = .error error := by
  induction batches with
  | nil => exact absurd rfl written
  | cons batch batches ih =>
    subst own
    have appended := appendEvents_eq session.reads batch
    rw [nextAfter_stampEvents bound] at appended
    rw [flatMap_cons] at faithful written
    rw [appendRun, foldl_cons]
    cases first : accepted dir.manifest.sessionId batch with
    | nil =>
      rw [first, stampEvents, jsonLines, SessionDir.append_empty] at appended
      rw [first, nil_append] at faithful written
      rw [appended]
      exact ih faithful written
    | cons event events =>
      rw [first] at appended
      rw [first, stampEvents_from] at faithful
      have grown := append_grown session.log (jsonLines serde
        (stampEvents (UInt64.ofNat (known.length + 1)) (event :: events)))
      rw [← appended] at grown
      have unreadable := readEvents_blocked strict session blocked
        (fun other member => faithful other (mem_append_left _ member)) grown
      have kept := appendEvents_manifest serde dir.manifest batch dir
      rw [kept] at unreadable
      have still := appendRun_unreadable batches kept unreadable
      rw [appendRun] at still
      rw [still]
      exact unreadable

theorem appendRun_nothing {manifest : SessionManifest}
    (batches : List (List SessionEventEnvelope))
    (session : ReadableSession serde dir content known) (own : dir.manifest = manifest)
    (nothing : batches.flatMap (accepted manifest.sessionId) = []) :
    appendRun serde manifest batches dir = dir := by
  induction batches with
  | nil => rfl
  | cons batch batches ih =>
    subst own
    rw [flatMap_cons, append_eq_nil_iff] at nothing
    rw [appendRun, foldl_cons, appendEvents_eq session.reads, nothing.1, stampEvents,
      jsonLines, SessionDir.append_empty]
    exact ih nothing.2

theorem appendRun_manifest (serde : EventSerde) (manifest : SessionManifest)
    (batches : List (List SessionEventEnvelope)) (dir : SessionDir) :
    (appendRun serde manifest batches dir).manifest = dir.manifest := by
  induction batches generalizing dir with
  | nil => rfl
  | cons batch batches ih => exact (ih _).trans (appendEvents_manifest serde manifest batch dir)

end appends

/-- Over any appends of one writer, the numbers of a log whose first events have none run on
from one exactly when the log ends with a line feed (or with spaces after the last one), or
nothing is appended. -/
theorem appendRun_numbered_iff {serde : EventSerde} {dir : SessionDir} {content : String}
    {before : List SessionEventEnvelope} (legacy later : List SessionEventEnvelope)
    (strict : serde.Strict) (session : ReadableSession serde dir content before)
    (unnumbered : ∀ event ∈ legacy, event.sessionSequence = none)
    (parsed : parsedLines serde (lines content) =
      legacy ++ stampEvents (UInt64.ofNat (legacy.length + 1)) later)
    (batches : List (List SessionEventEnvelope))
    (bound : legacy.length + later.length +
      (batches.flatMap (accepted dir.manifest.sessionId)).length < 2 ^ 64 - 1)
    (faithful : ∀ event ∈ stampEvents (UInt64.ofNat (legacy.length + later.length + 1))
      (batches.flatMap (accepted dir.manifest.sessionId)), serde.Faithful event) :
    Numbered serde (appendRun serde dir.manifest batches dir)
        (legacy ++ later ++ batches.flatMap (accepted dir.manifest.sessionId)) ↔
      Appendable content ∨ batches.flatMap (accepted dir.manifest.sessionId) = [] := by
  have numbers := readEvents_legacy session unnumbered parsed
  rw [numbers] at session
  rw [← length_append] at bound faithful
  have kept := appendRun_manifest serde dir.manifest batches dir
  have small : (legacy ++ later ++ batches.flatMap (accepted dir.manifest.sessionId)).length <
      2 ^ 64 := by
    rw [length_append]
    omega
  by_cases nothing : batches.flatMap (accepted dir.manifest.sessionId) = []
  · refine ⟨fun _ => .inr nothing, fun _ => ?_⟩
    rw [appendRun_nothing batches session rfl nothing]
    refine Numbered.of_reads small ?_
    rw [nothing, append_nil]
    exact session.reads
  · constructor
    · rintro ⟨read, reads, _⟩
      refine .inl ?_
      by_contra blocked
      obtain ⟨error, failed⟩ := appendRun_blocked strict dir.manifest batches session rfl blocked
        (by omega) faithful nothing
      rw [kept, failed] at reads
      cases reads
    · rintro (appendable | none)
      · refine Numbered.of_reads small ?_
        rw [kept]
        exact appendRun_numbered strict dir.manifest batches session rfl appendable (by omega)
          faithful
      · exact absurd none nothing

section sample

def EventSerde.mapEvents (change : SessionEventEnvelope → SessionEventEnvelope)
    (serde : EventSerde) : EventSerde where
  fromStr text := (serde.fromStr text).map change
  toWriter := serde.toWriter

variable {change : SessionEventEnvelope → SessionEventEnvelope} {serde : EventSerde}
variable {text : String} {event : SessionEventEnvelope}

theorem mapEvents_error (failed : ∃ error, serde.fromStr text = .error error) :
    ∃ error, (serde.mapEvents change).fromStr text = .error error := by
  obtain ⟨error, same⟩ := failed
  exact ⟨error, by simp [EventSerde.mapEvents, same, Except.map]⟩

theorem mapEvents_ok (parsed : (serde.mapEvents change).fromStr text = .ok event) :
    ∃ written, serde.fromStr text = .ok written ∧ change written = event := by
  unfold EventSerde.mapEvents at parsed
  cases read : serde.fromStr text with
  | error error =>
    simp only [read] at parsed
    cases parsed
  | ok written =>
    simp only [read] at parsed
    cases parsed
    exact ⟨written, rfl, rfl⟩

theorem mapEvents_strict (strict : serde.Strict) : (serde.mapEvents change).Strict where
  leading := by
    intro blank text event spaces parsed
    obtain ⟨written, read, rfl⟩ := mapEvents_ok parsed
    simp [EventSerde.mapEvents, strict.leading blank text written spaces read, Except.map]
  foreign blank rest whitespace token :=
    mapEvents_error (strict.foreign blank rest whitespace token)
  trailing := by
    intro text rest event parsed
    obtain ⟨written, read, rfl⟩ := mapEvents_ok parsed
    exact mapEvents_error (strict.trailing text rest written read)

theorem mapEvents_faithful (faithful : serde.Faithful event) (same : change event = event) :
    (serde.mapEvents change).Faithful event where
  __ := faithful
  readsBack := by
    simp [EventSerde.mapEvents, faithful.readsBack, Except.map, same]
  torn front cut nonempty other := mapEvents_error (faithful.torn front cut nonempty other)
  alone rest := mapEvents_error (faithful.alone rest)

def legacySerde : EventSerde :=
  sampleSerde.skipSpaces.mapEvents fun event =>
    if event.eventId = "a" then event.withoutSequence else event

def legacyDir (content : String) : SessionDir :=
  { sampleDir with eventLog := some content.toUTF8 }

theorem legacySerde_strict : legacySerde.Strict := mapEvents_strict sampleSerde_strict

theorem legacyDir_readable : ReadableSession legacySerde (legacyDir "\x7ba\x7d\n") "\x7ba\x7d\n"
    [sampleStarted] where
  manifest := rfl
  named := rfl
  log := rfl
  reads := rfl

theorem legacyDir_unended_readable : ReadableSession legacySerde (legacyDir "\x7ba\x7d")
    "\x7ba\x7d" [sampleStarted] where
  manifest := rfl
  named := rfl
  log := rfl
  reads := rfl

theorem legacyAppend_faithful : ∀ event ∈ stampEvents 2
    ([[sampleCommitted.withoutSequence]].flatMap (accepted "sess")),
      legacySerde.Faithful event := by
  intro event member
  have only : event = sampleCommitted := mem_singleton.mp member
  rw [only]
  exact mapEvents_faithful (skipSpaces_faithful (sampleSerde_faithful (by simp [sampleEvents])))
    rfl

/-- The second event of a whole log gets the number two. -/
theorem legacyDir_numbered : Numbered legacySerde
    (appendRun legacySerde sampleDir.manifest [[sampleCommitted.withoutSequence]]
      (legacyDir "\x7ba\x7d\n"))
    [sampleStarted.withoutSequence, sampleCommitted.withoutSequence] :=
  (appendRun_numbered_iff [sampleStarted.withoutSequence] [] legacySerde_strict legacyDir_readable
    (fun event member => by rw [mem_singleton.mp member]; rfl) rfl
    [[sampleCommitted.withoutSequence]] (by decide) legacyAppend_faithful).mpr
    (.inl (by decide))

/-- The same append to a log whose last line lacks its line feed succeeds, and the log no longer
reads. -/
theorem legacyDir_unnumbered :
    ReadableSession legacySerde (legacyDir "\x7ba\x7d") "\x7ba\x7d" [sampleStarted] ∧
    parsedLines legacySerde (lines "\x7ba\x7d") = [sampleStarted.withoutSequence] ∧
    (appendEvents legacySerde sampleDir.manifest [sampleCommitted.withoutSequence]
      (legacyDir "\x7ba\x7d")).2 = .ok () ∧
    ¬ Numbered legacySerde
      (appendRun legacySerde sampleDir.manifest [[sampleCommitted.withoutSequence]]
        (legacyDir "\x7ba\x7d"))
      [sampleStarted.withoutSequence, sampleCommitted.withoutSequence] := by
  refine ⟨legacyDir_unended_readable, rfl, rfl, ?_⟩
  have session : ReadableSession legacySerde (legacyDir "\x7ba\x7d") "\x7ba\x7d"
      (stampEvents 1 [sampleStarted]) := legacyDir_unended_readable
  obtain ⟨error, failed⟩ := appendRun_blocked legacySerde_strict sampleDir.manifest
    [[sampleCommitted.withoutSequence]] session rfl (by decide) (by decide) legacyAppend_faithful
    (by decide)
  rintro ⟨read, reads, _⟩
  rw [appendRun_manifest] at reads
  cases reads.symm.trans failed

end sample

end PiRust.SessionLog
