import PiRust.BufferedFile
import PiRust.LogAppends

/- What an append that fails leaves in the log. -/
namespace PiRust.SessionLog

open BufferedFile

/-- `serde_json::to_writer`: the text of an event reaches the writer in pieces. -/
structure EventWriter (serde : EventSerde) where
  pieces : SessionEventEnvelope → List ByteArray
  joined : ∀ event, (pieces event).foldl (fun joined bytes => joined ++ bytes) ByteArray.empty =
    (serde.toWriter event).toUTF8

variable {serde : EventSerde} {capacity : Nat}

/-- The loop of `append_events`, on the writer itself. -/
def writeBuffered (out : EventWriter serde) (sessionId : String) :
    UInt64 → List SessionEventEnvelope → BufWriter capacity → BufWriter capacity × Except String Unit
  | _, [], writer => (writer, .ok ())
  | nextSequence, event :: rest, writer =>
    let event := event.withSessionSequence nextSequence
    match validateEventForSession event sessionId with
    | .error error => (writer, .error error)
    | .ok () =>
      writeBuffered out sessionId (nextSequence + 1) rest
        ((writer.writePieces (out.pieces event)).writeAll "\n".toUTF8)

variable (out : EventWriter serde)

/-- `append_events` through its `BufWriter`, which is flushed at the end and written out when
an error drops it. -/
def appendBuffered (capacity : Nat) (manifest : SessionManifest)
    (events : List SessionEventEnvelope) (dir : SessionDir) : SessionDir × Except String Unit :=
  match nextSessionSequence serde manifest dir with
  | .error error => (dir, .error error)
  | .ok nextSequence =>
    match dir.eventLog with
    | none => (dir, .error ("failed to open session event log " ++ dir.path ++ "/" ++
        manifest.eventLog ++ ": No such file or directory (os error 2)"))
    | some log =>
      let written := writeBuffered out manifest.sessionId nextSequence events
        (BufWriter.new capacity log)
      ({ dir with eventLog := some written.1.close }, written.2)

/-- A call that fails leaves the log as it was. -/
def KeepsLog (capacity : Nat) (manifest : SessionManifest) (events : List SessionEventEnvelope)
    (dir : SessionDir) : Prop :=
  ∀ error, (appendBuffered out capacity manifest events dir).2 = .error error →
    (appendBuffered out capacity manifest events dir).1.eventLog = dir.eventLog

theorem writeBuffered_eq (sessionId : String) (next : UInt64) (events : List SessionEventEnvelope)
    (writer : BufWriter capacity) :
    (writeBuffered out sessionId next events writer).1.close =
        writer.close ++ (writeEvents serde sessionId next events).1.toUTF8 ∧
      (writeBuffered out sessionId next events writer).2 =
        (writeEvents serde sessionId next events).2 := by
  induction events generalizing next writer with
  | nil => exact ⟨ByteArray.append_empty.symm, rfl⟩
  | cons event events ih =>
    simp only [writeBuffered, writeEvents]
    cases validateEventForSession (event.withSessionSequence next) sessionId with
    | error error => exact ⟨ByteArray.append_empty.symm, rfl⟩
    | ok =>
      obtain ⟨closed, result⟩ := ih (next + 1)
        ((writer.writePieces (out.pieces (event.withSessionSequence next))).writeAll "\n".toUTF8)
      refine ⟨?_, result⟩
      rw [closed, BufWriter.close_writeAll, BufWriter.close_writePieces, out.joined]
      simp [ByteArray.append_assoc]

variable {manifest : SessionManifest} {dir : SessionDir}

theorem nextSessionSequence_error {error : String}
    (unreadable : readEvents serde manifest dir = .error error) :
    nextSessionSequence serde manifest dir = .error error := by
  simp [nextSessionSequence, unreadable, bind, Except.bind]

theorem eventLog_of_reads {events : List SessionEventEnvelope}
    (reads : readEvents serde manifest dir = .ok events) : ∃ log, dir.eventLog = some log := by
  cases log : dir.eventLog with
  | some bytes => exact ⟨bytes, rfl⟩
  | none =>
    unfold readEvents readToString at reads
    rw [log] at reads
    cases path : eventLogPath dir manifest <;> rw [path] at reads <;> cases reads

theorem appendBuffered_eq (capacity : Nat) (manifest : SessionManifest)
    (events : List SessionEventEnvelope) (dir : SessionDir) :
    appendBuffered out capacity manifest events dir = appendEvents serde manifest events dir := by
  unfold appendBuffered appendEvents
  cases reads : readEvents serde manifest dir with
  | error error => simp [nextSessionSequence_error reads]
  | ok known =>
    obtain ⟨bytes, log⟩ := eventLog_of_reads reads
    obtain ⟨closed, result⟩ := writeBuffered_eq out manifest.sessionId (nextAfter known) events
      (BufWriter.new capacity bytes)
    simp [nextSessionSequence_eq reads, log, closed, result, BufWriter.close_new, SessionDir.append]

theorem writeEvents_ok_iff (sessionId : String) (next : UInt64)
    (events : List SessionEventEnvelope) :
    (writeEvents serde sessionId next events).2 = .ok () ↔
      ∀ event ∈ events, validateEventForSession event sessionId = .ok () := by
  induction events generalizing next with
  | nil => simp [writeEvents]
  | cons event events ih =>
    have blind : validateEventForSession (event.withSessionSequence next) sessionId =
        validateEventForSession event sessionId := rfl
    simp only [writeEvents, blind, List.forall_mem_cons]
    cases validateEventForSession event sessionId with
    | error error => simp
    | ok => simpa using ih (next + 1)

theorem writeEvents_size_pos {sessionId : String} {next : UInt64} {first : SessionEventEnvelope}
    (valid : validateEventForSession first sessionId = .ok ())
    (rest : List SessionEventEnvelope) :
    0 < (writeEvents serde sessionId next (first :: rest)).1.toUTF8.size := by
  have blind : validateEventForSession (first.withSessionSequence next) sessionId =
      validateEventForSession first sessionId := rfl
  have line : "\n".toByteArray.size = 1 := rfl
  simp only [writeEvents, blind, valid, String.toUTF8_eq_toByteArray, String.toByteArray_append,
    ByteArray.size_append, line]
  omega

theorem writeEvents_quiet_iff (sessionId : String) (next : UInt64)
    (events : List SessionEventEnvelope) :
    (∀ error, (writeEvents serde sessionId next events).2 = .error error →
        (writeEvents serde sessionId next events).1.toUTF8.size = 0) ↔
      (∀ event ∈ events, validateEventForSession event sessionId = .ok ()) ∨
      ∃ first rest, events = first :: rest ∧ validateEventForSession first sessionId ≠ .ok () := by
  refine ⟨fun quiet => ?_, fun condition error failed => ?_⟩
  · cases result : (writeEvents serde sessionId next events).2 with
    | ok => exact .inl ((writeEvents_ok_iff _ _ _).mp result)
    | error error =>
      cases events with
      | nil => cases result
      | cons first rest =>
        refine .inr ⟨first, rest, rfl, fun valid => ?_⟩
        have written : 0 < (writeEvents serde sessionId next (first :: rest)).1.toUTF8.size :=
          writeEvents_size_pos valid rest
        rw [quiet error result] at written
        exact Nat.lt_irrefl 0 written
  · rcases condition with valid | ⟨first, rest, rfl, foreign⟩
    · rw [(writeEvents_ok_iff _ _ _).mpr valid] at failed
      cases failed
    · have blind : validateEventForSession (first.withSessionSequence next) sessionId =
          validateEventForSession first sessionId := rfl
      simp only [writeEvents, blind]
      cases valid : validateEventForSession first sessionId with
      | error error => rfl
      | ok => exact absurd valid foreign

/-- A failed call adds no line exactly if the log cannot be read, no event is foreign to the
session, or the first one is. -/
theorem keepsLog_iff (out : EventWriter serde) (capacity : Nat) (manifest : SessionManifest)
    (events : List SessionEventEnvelope) (dir : SessionDir) :
    KeepsLog out capacity manifest events dir ↔
      (∃ error, readEvents serde manifest dir = .error error) ∨
      (∀ event ∈ events, validateEventForSession event manifest.sessionId = .ok ()) ∨
      ∃ first rest, events = first :: rest ∧
        validateEventForSession first manifest.sessionId ≠ .ok () := by
  unfold KeepsLog
  simp only [appendBuffered_eq]
  unfold appendEvents
  cases reads : readEvents serde manifest dir with
  | error failure =>
    simp only [nextSessionSequence_error reads]
    exact ⟨fun _ => .inl ⟨failure, rfl⟩, fun _ _ _ => trivial⟩
  | ok known =>
    obtain ⟨log, there⟩ := eventLog_of_reads reads
    have same (more : ByteArray) : log ++ more = log ↔ more.size = 0 := by
      refine ⟨fun kept => ?_, fun none_more => ?_⟩
      · have sizes := congrArg ByteArray.size kept
        rw [ByteArray.size_append] at sizes
        omega
      · rw [ByteArray.size_eq_zero_iff.mp none_more, ByteArray.append_empty]
    simp only [nextSessionSequence_eq reads, SessionDir.append, there, Option.map_some,
      Option.some.injEq, same, writeEvents_quiet_iff]
    refine ⟨.inr, fun condition => condition.resolve_left ?_⟩
    rintro ⟨failure, wrong⟩
    cases wrong

section torn

def wholePieces (serde : EventSerde) : EventWriter serde where
  pieces := fun event => [(serde.toWriter event).toUTF8]
  joined := fun _ => ByteArray.empty_append

def mixedBatch : List SessionEventEnvelope := [sampleNext, { sampleNext with sessionId := "other" }]

/-- The call fails at the second event, and the line of the first is in the log. -/
theorem mixedBatch_leaves_line :
    ¬ KeepsLog (wholePieces sampleSerde) 8192 sampleDir.manifest mixedBatch sampleDir := by
  intro keeps
  have failed : (appendBuffered (wholePieces sampleSerde) 8192 sampleDir.manifest mixedBatch
      sampleDir).2 = .error "session event c belongs to other, expected sess" := by
    rfl
  have more : (appendBuffered (wholePieces sampleSerde) 8192 sampleDir.manifest mixedBatch
      sampleDir).1.eventLog.map ByteArray.size ≠ sampleDir.eventLog.map ByteArray.size := by
    decide
  exact more (congrArg (Option.map ByteArray.size) (keeps _ failed))

end torn

end PiRust.SessionLog
