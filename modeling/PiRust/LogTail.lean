import PiRust.TornAppend

/- Appending to a log that reads, however its text ends: `append_events` opens the file to
append and does not look at its last line. -/
namespace PiRust

open List

variable {text : String}

theorem trim_eq_empty (blank : ∀ c ∈ text.toList, isWhitespace c = true) : trim text = "" := by
  unfold trim
  rw [dropWhile_eq_nil_iff.mpr blank]
  rfl

theorem blank_of_trim (empty : trim text = "") : ∀ c ∈ text.toList, isWhitespace c = true := by
  have chars : ((text.toList.dropWhile isWhitespace).reverse.dropWhile isWhitespace).reverse = [] :=
    String.ofList_eq_empty_iff.mp empty
  have reversed := reverse_eq_nil_iff.mp chars
  intro c member
  have split := takeWhile_append_dropWhile (p := isWhitespace) (l := text.toList)
  rw [← split] at member
  rcases mem_append.mp member with front | back
  · exact mem_takeWhile_imp front
  · exact dropWhile_eq_nil_iff.mp reversed c (mem_reverse.mpr back)

theorem trim_ne_empty_of_mem {c : Char} (member : c ∈ text.toList)
    (visible : isWhitespace c = false) : trim text ≠ "" := by
  intro empty
  have blank := blank_of_trim empty c member
  rw [visible] at blank
  cases blank

namespace SessionLog

/-- What `serde_json` skips between tokens. -/
def isJsonSpace (c : Char) : Bool := c = ' ' || c = '\t' || c = '\n' || c = '\r'

theorem isWhitespace_of_isJsonSpace {c : Char} (space : isJsonSpace c = true) :
    isWhitespace c = true := by
  simp only [isJsonSpace, Bool.or_eq_true, decide_eq_true_eq] at space
  rcases space with ((rfl | rfl) | rfl) | rfl <;> decide

/-- What `serde_json::from_str` guarantees of every text: spaces before a value are skipped,
other characters are not, and nothing may follow a value. -/
structure EventSerde.Strict (serde : EventSerde) : Prop where
  leading : ∀ (blank text : String) (event : SessionEventEnvelope),
    (∀ c ∈ blank.toList, isJsonSpace c = true) → serde.fromStr text = .ok event →
    serde.fromStr (blank ++ text) = .ok event
  foreign : ∀ blank rest : String, trim blank = "" → (∃ c ∈ blank.toList, isJsonSpace c = false) →
    ∃ error, serde.fromStr (blank ++ "\x7b" ++ rest) = .error error
  trailing : ∀ (text rest : String) (event : SessionEventEnvelope),
    serde.fromStr text = .ok event → ∃ error, serde.fromStr (text ++ "\x7b" ++ rest) = .error error

def logTail (content : String) : String := String.ofList (Framing.pieces '\n' content.toList).2

/-- A log that a line can be appended to: it ends with a line feed, or in spaces only. -/
def Appendable (content : String) : Prop := ∀ c ∈ (logTail content).toList, isJsonSpace c = true

instance (content : String) : Decidable (Appendable content) :=
  decidable_of_iff ((logTail content).toList.all isJsonSpace = true) all_eq_true

/-- A session whose log reads as `events`. -/
structure ReadableSession (serde : EventSerde) (dir : SessionDir) (content : String)
    (events : List SessionEventEnvelope) : Prop where
  manifest : validateManifest dir.manifest = .ok ()
  named : normalizeSessionId dir.manifest.sessionId = .ok dir.name
  log : dir.eventLog = some content.toUTF8
  reads : readEvents serde dir.manifest dir = .ok events

theorem logTail_split (content : String) :
    ∃ front : String, content = front ++ logTail content ∧
      (Framing.pieces '\n' front.toList).2 = [] ∧ '\n' ∉ (logTail content).toList := by
  obtain ⟨front, split, ended, whole⟩ := Framing.pieces_split '\n' content.toList
  refine ⟨String.ofList front, String.toList_inj.mp ?_, ?_, ?_⟩
  · rw [String.toList_append, logTail, String.toList_ofList, String.toList_ofList]
    exact split
  · rw [String.toList_ofList]
    exact ended
  · rw [logTail, String.toList_ofList]
    exact whole

theorem lines_logTail (content : String) :
    lines (logTail content) = if logTail content = "" then [] else [logTail content] := by
  obtain ⟨_, _, _, whole⟩ := logTail_split content
  by_cases empty : logTail content = ""
  · rw [empty]
    rfl
  · rw [if_neg empty]
    exact lines_unfinished whole empty

section serde

variable {serde : EventSerde} (path sessionId : String)
variable {events : List SessionEventEnvelope} {event : SessionEventEnvelope}
variable {index : Nat} {sequence : UInt64} {content : String}

theorem readLines_split {texts more : List String}
    (reads : readLines serde path sessionId index sequence (texts ++ more) = .ok events) :
    ∃ front, readLines serde path sessionId index sequence texts = .ok front := by
  induction texts generalizing events index sequence with
  | nil => exact ⟨[], rfl⟩
  | cons text texts ih =>
    rw [cons_append] at reads
    by_cases blank : trim text = ""
    · rw [readLines, if_pos blank] at reads ⊢
      exact ih reads
    · obtain ⟨event, read, parsed, valid, tail, -⟩ := readLines_event_inv path sessionId blank reads
      obtain ⟨front, first⟩ := ih tail
      exact ⟨_, by rw [readLines_event path sessionId blank parsed valid, first]; rfl⟩

theorem lines_appended (content : String)
    (faithful : ∀ other ∈ event :: events, serde.Faithful other) :
    ∃ front : String, lines content = lines front ++ lines (logTail content) ∧
      lines (content ++ jsonLines serde (event :: events)) =
        lines front ++ (logTail content ++ serde.toWriter event) :: events.map serde.toWriter := by
  obtain ⟨front, split, ended, whole⟩ := logTail_split content
  have first := faithful event (mem_cons_self ..)
  have oneLine : '\n' ∉ (logTail content ++ serde.toWriter event).toList := by
    rw [String.toList_append, mem_append]
    exact fun inside => inside.elim whole first.oneLine
  have plain : (logTail content ++ serde.toWriter event).toList.getLast? ≠ some '\r' := by
    rw [String.toList_append, getLast?_append, first.closes, Option.some_or]
    decide
  have cut := lines_line oneLine plain (jsonLines serde events ++ "")
  have rest := lines_jsonLines
    (fun other inside => faithful other (mem_cons_of_mem _ inside)) ""
  refine ⟨front, ?_, ?_⟩
  · calc lines content = lines (front ++ logTail content) := by rw [← split]
      _ = lines front ++ lines (logTail content) := lines_append ended _
  · have joined : content ++ jsonLines serde (event :: events) =
        front ++ (logTail content ++ serde.toWriter event ++ "\n" ++
          (jsonLines serde events ++ "")) := by
      conv_lhs => rw [split]
      simp [jsonLines, String.append_empty, String.append_assoc]
    rw [joined, lines_append ended, cut, rest, lines_empty, append_nil]

theorem readLines_joined (strict : serde.Strict) (appendable : Appendable content)
    (stored : Stored serde sessionId event) (rest : List String) (index : Nat) (sequence : UInt64) :
    readLines serde path sessionId index sequence
        ((logTail content ++ serde.toWriter event) :: rest) =
      (readLines serde path sessionId (index + 1) (sequence + 1) rest).map (event :: ·) := by
  have parsed := strict.leading _ _ event appendable stored.faithful.readsBack
  have brace : '{' ∈ (logTail content ++ serde.toWriter event).toList := by
    rw [String.toList_append]
    exact mem_append_right _ (mem_of_mem_head? stored.faithful.opens)
  obtain ⟨own, same⟩ := Option.isSome_iff_exists.mp stored.sequenced
  have unchanged :
      event.withSessionSequence (event.sessionSequence.getD (sequence + 1)) = event := by
    rw [same, Option.getD_some, SessionEventEnvelope.withSessionSequence, ← same]
  rw [readLines_event path sessionId (trim_ne_empty_of_mem brace (by decide)) parsed
    (by rw [unchanged]; exact stored.valid), unchanged]

theorem joined_broken (strict : serde.Strict) (blocked : ¬ Appendable content)
    (reads : readLines serde path sessionId index sequence (lines (logTail content)) = .ok events)
    (faithful : serde.Faithful event) :
    ∃ error, serde.fromStr (logTail content ++ serde.toWriter event) = .error error := by
  obtain ⟨rest, opens⟩ := faithful.brace
  rw [opens, ← String.append_assoc]
  by_cases blank : trim (logTail content) = ""
  · refine strict.foreign _ rest blank ?_
    by_contra spaces
    refine blocked fun c member => ?_
    by_contra other
    exact spaces ⟨c, member, Bool.eq_false_iff.mpr other⟩
  · have written : logTail content ≠ "" := by
      intro empty
      rw [empty] at blank
      exact blank rfl
    rw [lines_logTail, if_neg written] at reads
    obtain ⟨last, _, parsed, _⟩ := readLines_event_inv path sessionId blank reads
    exact strict.trailing _ rest last parsed

end serde

section grown

variable {serde : EventSerde} {dir grown : SessionDir} {content : String}
  {before : List SessionEventEnvelope} {event : SessionEventEnvelope}
  {events : List SessionEventEnvelope}

theorem readEvents_appended (strict : serde.Strict)
    (session : ReadableSession serde dir content before)
    (appendable : Appendable content)
    (stored : ∀ other ∈ event :: events, Stored serde dir.manifest.sessionId other)
    (grows : Grown dir grown content (jsonLines serde (event :: events))) :
    readEvents serde grown.manifest grown = .ok (before ++ event :: events) := by
  have valid := validateManifest_path session.manifest
  obtain ⟨front, old, new⟩ := lines_appended content
    (fun other inside => (stored other inside).faithful)
  have reads := session.reads
  rw [readEvents_eq valid session.log, old] at reads
  obtain ⟨read, first⟩ := readLines_split _ _ reads
  obtain ⟨index, sequence, after⟩ := readLines_append _ _ first
  have tail : readLines serde (dir.path ++ "/" ++ dir.manifest.eventLog) dir.manifest.sessionId
      index sequence (lines (logTail content)) = .ok [] := by
    have blank : trim (logTail content) = "" :=
      trim_eq_empty fun c member => isWhitespace_of_isJsonSpace (appendable c member)
    rw [lines_logTail]
    split
    · rfl
    · rw [readLines, if_pos blank]
      rfl
  have same : read = before := by
    rw [after, tail] at reads
    simpa [Except.map] using reads
  rw [readEvents_eq (by rw [grows.eventLog]; exact valid) grows.log, grows.path, grows.sessionId,
    grows.eventLog, new, after,
    readLines_joined _ _ strict appendable (stored event (mem_cons_self ..)),
    readLines_stored _ _ fun other inside => stored other (mem_cons_of_mem _ inside), same]
  rfl

theorem readEvents_blocked (strict : serde.Strict)
    (session : ReadableSession serde dir content before)
    (blocked : ¬ Appendable content)
    (faithful : ∀ other ∈ event :: events, serde.Faithful other)
    (grows : Grown dir grown content (jsonLines serde (event :: events))) :
    ∃ error, readEvents serde grown.manifest grown = .error error := by
  have valid := validateManifest_path session.manifest
  obtain ⟨front, old, new⟩ := lines_appended content faithful
  have reads := session.reads
  rw [readEvents_eq valid session.log, old] at reads
  obtain ⟨read, first⟩ := readLines_split _ _ reads
  obtain ⟨index, sequence, after⟩ := readLines_append _ _ first
  have tail : ∃ last, readLines serde (dir.path ++ "/" ++ dir.manifest.eventLog)
      dir.manifest.sessionId index sequence (lines (logTail content)) = .ok last := by
    rw [after] at reads
    cases last : readLines serde (dir.path ++ "/" ++ dir.manifest.eventLog) dir.manifest.sessionId
        index sequence (lines (logTail content)) with
    | error error =>
      rw [last] at reads
      cases reads
    | ok events => exact ⟨events, rfl⟩
  obtain ⟨last, tail⟩ := tail
  have written := faithful event (mem_cons_self ..)
  obtain ⟨error, failed⟩ := joined_broken _ _ strict blocked tail written
  have visible : trim (logTail content ++ serde.toWriter event) ≠ "" := by
    refine trim_ne_empty_of_mem (c := '{') ?_ (by decide)
    rw [String.toList_append]
    exact mem_append_right _ (mem_of_mem_head? written.opens)
  rw [readEvents_eq (by rw [grows.eventLog]; exact valid) grows.log, grows.path, grows.sessionId,
    grows.eventLog, new, after, readLines, if_neg visible, failed]
  exact ⟨_, rfl⟩

theorem appendable_jsonLines (content : String) :
    Appendable (content ++ jsonLines serde (event :: events)) := by
  obtain ⟨front, ended⟩ : ∃ front : String,
      content ++ jsonLines serde (event :: events) = front ++ "\n" := by
    induction events generalizing content event with
    | nil => exact ⟨content ++ serde.toWriter event, by simp [jsonLines, String.append_assoc]⟩
    | cons next events ih =>
      obtain ⟨front, ends⟩ : ∃ front : String, content ++ serde.toWriter event ++ "\n" ++
          jsonLines serde (next :: events) = front ++ "\n" := ih _
      refine ⟨front, ?_⟩
      rw [← ends]
      simp [jsonLines, String.append_assoc]
  intro c member
  have empty : (Framing.pieces '\n' (front ++ "\n").toList).2 = [] := by
    rw [String.toList_append]
    exact Framing.pieces_ended '\n' front.toList
  rw [ended, logTail, empty] at member
  cases member

end grown

end SessionLog

end PiRust
