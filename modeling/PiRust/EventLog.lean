import Mathlib.Data.List.TakeWhile
import PiRust.SessionStore

/- Reading a log back: the lines of its text, and the events of its lines. -/
namespace PiRust

open List

theorem lines_append {text : String} (ended : (Framing.pieces '\n' text.toList).2 = [])
    (more : String) : lines (text ++ more) = lines text ++ lines more := by
  unfold lines
  rw [String.toList_append, Framing.pieces_append, ended]
  simp [ended]

theorem lines_unfinished {text : String} (whole : '\n' ∉ text.toList) (written : text ≠ "") :
    lines text = [text] := by
  have nonempty : text.toList ≠ [] := fun none => written (String.toList_inj.mp none)
  unfold lines
  rw [Framing.pieces_whole '\n' whole]
  simp [nonempty]

@[simp] theorem lines_empty : lines "" = [] := rfl

theorem lines_line {line : String} (whole : '\n' ∉ line.toList)
    (plain : line.toList.getLast? ≠ some '\r') (rest : String) :
    lines (line ++ "\n" ++ rest) = line :: lines rest := by
  have cut := Framing.pieces_piece '\n' whole rest.toList
  have text : (line ++ "\n" ++ rest).toList = line.toList ++ '\n' :: rest.toList := by
    simp [String.toList_append]
  unfold lines
  rw [text, cut]
  simp [plain]

theorem trim_ne_empty {text : String} {first : Char} (starts : text.toList.head? = some first)
    (visible : isWhitespace first = false) : trim text ≠ "" := by
  intro blank
  obtain ⟨rest, same⟩ : ∃ rest, text.toList = first :: rest := by
    cases shape : text.toList with
    | nil => rw [shape] at starts; cases starts
    | cons c rest => rw [shape] at starts; cases starts; exact ⟨rest, rfl⟩
  have none := congrArg String.toList blank
  unfold trim at none
  rw [same, dropWhile_cons_of_neg (by simp [visible])] at none
  have nothing : (first :: rest).reverse.dropWhile isWhitespace = [] := by simpa using none
  have all := dropWhile_eq_nil_iff.mp nothing first (by simp)
  rw [visible] at all
  cases all

namespace SessionLog

/-- What `serde_json` guarantees for an event that it writes: one line that holds one
object, that reads back, and that does not parse when it is cut short or followed by
another object. -/
structure EventSerde.Faithful (serde : EventSerde) (event : SessionEventEnvelope) : Prop where
  readsBack : serde.fromStr (serde.toWriter event) = .ok event
  oneLine : '\n' ∉ (serde.toWriter event).toList
  opens : (serde.toWriter event).toList.head? = some '{'
  closes : (serde.toWriter event).toList.getLast? = some '}'
  torn : ∀ front : String, front.toList <+: (serde.toWriter event).toList → front ≠ "" →
    front ≠ serde.toWriter event → ∃ error, serde.fromStr front = .error error
  alone : ∀ rest : String, ∃ error,
    serde.fromStr (serde.toWriter event ++ "\x7b" ++ rest) = .error error

def jsonLines (serde : EventSerde) : List SessionEventEnvelope → String
  | [] => ""
  | event :: rest => serde.toWriter event ++ "\n" ++ jsonLines serde rest

/-- An event that is written and read back. -/
structure Stored (serde : EventSerde) (sessionId : String) (event : SessionEventEnvelope) :
    Prop where
  faithful : serde.Faithful event
  sequenced : event.sessionSequence.isSome = true
  valid : validateEventForSession event sessionId = .ok ()

section serde

variable {serde : EventSerde}
variable {event : SessionEventEnvelope}

theorem EventSerde.Faithful.visible (faithful : serde.Faithful event) (rest : String) :
    trim (serde.toWriter event ++ rest) ≠ "" := by
  obtain ⟨tail, same⟩ := head?_eq_some_iff.mp faithful.opens
  exact trim_ne_empty (by rw [String.toList_append, same]; rfl)
    (by decide : isWhitespace '{' = false)

theorem EventSerde.Faithful.brace (faithful : serde.Faithful event) :
    ∃ tail, serde.toWriter event = "\x7b" ++ tail := by
  obtain ⟨tail, same⟩ := head?_eq_some_iff.mp faithful.opens
  refine ⟨String.ofList tail, String.toList_inj.mp ?_⟩
  simp only [same, String.toList_append, String.toList_ofList]
  rfl

theorem EventSerde.Faithful.line (faithful : serde.Faithful event) (rest : String) :
    lines (serde.toWriter event ++ "\n" ++ rest) = serde.toWriter event :: lines rest :=
  lines_line faithful.oneLine (by rw [faithful.closes]; decide) rest

theorem lines_jsonLines {events : List SessionEventEnvelope}
    (faithful : ∀ event ∈ events, serde.Faithful event) (rest : String) :
    lines (jsonLines serde events ++ rest) = events.map serde.toWriter ++ lines rest := by
  induction events with
  | nil => simp [jsonLines]
  | cons event events ih =>
    have later := ih fun other inside => faithful other (mem_cons_of_mem _ inside)
    simp only [jsonLines, String.append_assoc, map_cons, cons_append]
    rw [← later, ← (faithful event (mem_cons_self ..)).line, String.append_assoc]

theorem jsonLines_append (events more : List SessionEventEnvelope) :
    jsonLines serde (events ++ more) = jsonLines serde events ++ jsonLines serde more := by
  induction events with
  | nil => simp [jsonLines]
  | cons event events ih => simp [cons_append, jsonLines, ih, String.append_assoc]

variable (path sessionId : String)
variable {events : List SessionEventEnvelope} {index : Nat} {sequence : UInt64}

theorem readLines_event {text : String} {event : SessionEventEnvelope} (visible : trim text ≠ "")
    (parsed : serde.fromStr text = .ok event)
    (valid : validateEventForSession
      (event.withSessionSequence (event.sessionSequence.getD (sequence + 1))) sessionId = .ok ())
    (rest : List String) :
    readLines serde path sessionId index sequence (text :: rest) =
      (readLines serde path sessionId (index + 1) (sequence + 1) rest).map
        (event.withSessionSequence (event.sessionSequence.getD (sequence + 1)) :: ·) := by
  rw [readLines, if_neg visible, parsed]
  simp only [valid, bind, Except.bind, pure, Except.pure]
  cases readLines serde path sessionId (index + 1) (sequence + 1) rest <;> rfl

theorem readLines_event_inv {text : String} {rest : List String} (visible : trim text ≠ "")
    (reads : readLines serde path sessionId index sequence (text :: rest) = .ok events) :
    ∃ event later, serde.fromStr text = .ok event ∧
      validateEventForSession
        (event.withSessionSequence (event.sessionSequence.getD (sequence + 1))) sessionId = .ok () ∧
      readLines serde path sessionId (index + 1) (sequence + 1) rest = .ok later ∧
      events = event.withSessionSequence (event.sessionSequence.getD (sequence + 1)) :: later := by
  rw [readLines, if_neg visible] at reads
  split at reads
  · cases reads
  rename_i event parsed
  simp only [bind, Except.bind, pure, Except.pure] at reads
  split at reads
  · cases reads
  rename_i valid
  split at reads
  · cases reads
  · rename_i later read
    cases reads
    exact ⟨event, later, parsed, valid, read, rfl⟩

theorem readLines_append {texts : List String}
    (reads : readLines serde path sessionId index sequence texts = .ok events) :
    ∃ after next, ∀ rest, readLines serde path sessionId index sequence (texts ++ rest) =
      (readLines serde path sessionId after next rest).map (events ++ ·) := by
  induction texts generalizing events index sequence with
  | nil =>
    cases reads
    refine ⟨index, sequence, fun rest => ?_⟩
    simp only [nil_append]
    cases readLines serde path sessionId index sequence rest <;> rfl
  | cons text texts ih =>
    by_cases blank : trim text = ""
    · rw [readLines, if_pos blank] at reads
      obtain ⟨after, next, later⟩ := ih reads
      refine ⟨after, next, fun rest => ?_⟩
      rw [cons_append, readLines, if_pos blank, later]
    · obtain ⟨event, read, parsed, valid, tail, rfl⟩ :=
        readLines_event_inv path sessionId blank reads
      obtain ⟨after, next, later⟩ := ih tail
      refine ⟨after, next, fun rest => ?_⟩
      rw [cons_append, readLines_event path sessionId blank parsed valid, later]
      cases readLines serde path sessionId after next rest <;> rfl

theorem readLines_stored (stored : ∀ event ∈ events, Stored serde sessionId event) (index : Nat)
    (sequence : UInt64) :
    readLines serde path sessionId index sequence (events.map serde.toWriter) = .ok events := by
  induction events generalizing index sequence with
  | nil => rfl
  | cons event events ih =>
    obtain ⟨faithful, sequenced, valid⟩ := stored event (mem_cons_self ..)
    obtain ⟨own, same⟩ := Option.isSome_iff_exists.mp sequenced
    have unchanged : event.withSessionSequence (event.sessionSequence.getD (sequence + 1)) =
        event := by
      rw [same, Option.getD_some, SessionEventEnvelope.withSessionSequence, ← same]
    rw [map_cons, readLines_event path sessionId
      (trim_ne_empty faithful.opens (by decide)) faithful.readsBack (by rw [unchanged]; exact valid),
      ih (fun other inside => stored other (mem_cons_of_mem _ inside)), unchanged]
    rfl

end serde

end SessionLog

end PiRust
