import Mathlib.Data.List.TakeWhile
import PiRust.Truncate

/- `tools/bash.rs`: the bounded tail of a command's output, and how it is displayed. -/
namespace PiRust.Bash

open EditTool Fitting Truncate List

def bufferKeep : Nat := 65536

def drainByte (buf : Bytes) (keep : Nat) : Bytes :=
  let drop := buf.length - keep
  if drop = 0 then buf else (buf.drop drop).dropWhile isContinuation

structure OutputTail where
  buf : Bytes
  totalLines : Nat
  totalBytes : Nat
  overflowed : Bool

def OutputTail.new : OutputTail := ⟨[], 0, 0, false⟩

def OutputTail.push (tail : OutputTail) (data : Bytes) : OutputTail :=
  let buf := tail.buf ++ data
  let totalBytes := tail.totalBytes + data.length
  let totalLines := tail.totalLines + data.count 0x0A
  if buf.length > bufferKeep * 2 then ⟨drainByte buf bufferKeep, totalLines, totalBytes, true⟩
  else ⟨buf, totalLines, totalBytes, tail.overflowed⟩

def OutputTail.bufToString (tail : OutputTail) : Str := (fromUtf8Lossy tail.buf).toList

def cutLine (line : Str) : Str :=
  let b := line.asBytes
  let keep := min defaultMaxBytes b.length
  (fromUtf8Lossy ((b.drop (b.length - keep)).dropWhile isContinuation)).toList

def truncationNote (outputLines knownLines : Nat) : String :=
  "\n\n[Output truncated: showing last " ++ toString outputLines ++ " of " ++ toString knownLines ++
    " lines (50KB/2000-line limit).]"

def shownLines : List Str × Nat × Option Str → List Str
  | ([], _, some line) => [cutLine line]
  | (out, _, _) => out

/-- Its lines are split like those of `split_lines_for_counting`. -/
def applyTruncation (text : Str) (knownLines : Nat) (overflowed : Bool) : Str :=
  let lines := splitLinesForCounting text
  if lines.length ≤ defaultMaxLines ∧ Str.len text ≤ defaultMaxBytes ∧ !overflowed then text
  else
    let filled := fillLines cons defaultMaxLines defaultMaxBytes [] 0 lines.reverse
    let out := shownLines filled
    let byteHit := filled.2.2.isSome
    let note := if overflowed || byteHit || out.length < lines.length then
      (truncationNote out.length knownLines).toList else []
    joinLines out ++ note

/-- The text of a command whose output arrives in these chunks. -/
def outputText (chunks : List Bytes) : Str :=
  let tail := chunks.foldl OutputTail.push OutputTail.new
  applyTruncation tail.bufToString tail.totalLines tail.overflowed

/-- The text of the whole output, kept without a bound. -/
def unboundedText (bytes : Bytes) : Str :=
  applyTruncation (fromUtf8Lossy bytes).toList (bytes.count 0x0A)
    (decide (bytes.length > bufferKeep * 2))

theorem cutLine_eq {line : Str} (beyond : defaultMaxBytes < Str.len line) :
    cutLine line = lastFit Char.utf8Size defaultMaxBytes line := by
  have least : min defaultMaxBytes (Str.len line) = defaultMaxBytes := Nat.min_eq_left beyond.le
  simp only [cutLine, asBytes_length, least]
  rw [asBytes_lastFit beyond, fromUtf8Lossy_asBytes]

/-- What the last drain has left: behind its cut all bytes up to the kept ones are continuation
bytes, and the kept ones start a character unless everything was dropped. -/
structure Drained (keep : Nat) (whole front buf : Bytes) : Prop where
  split : whole = front ++ buf
  cut : ∃ lead run, front = lead ++ run ∧ lead.length + keep ≤ whole.length ∧
    (∀ byte ∈ run, isContinuation byte = true) ∧
    (keep ≤ run.length ∨ ∃ byte rest, buf = byte :: rest ∧ isContinuation byte = false)

/-- The counters of the whole output, and its tail. -/
structure Tracks (whole : Bytes) (tail : OutputTail) : Prop where
  lines : tail.totalLines = whole.count 0x0A
  bytes : tail.totalBytes = whole.length
  overflowed : tail.overflowed = decide (whole.length > bufferKeep * 2)
  kept : tail.overflowed = false → tail.buf = whole
  drained : tail.overflowed = true → ∃ front, Drained bufferKeep whole front tail.buf

variable {keep : Nat} {whole front buf : Bytes}

theorem Drained.append (drained : Drained keep whole front buf) (data : Bytes) :
    Drained keep (whole ++ data) front (buf ++ data) := by
  obtain ⟨lead, run, split, early, continues, starts⟩ := drained.cut
  refine ⟨by rw [drained.split, append_assoc], lead, run, split, ?_, continues, ?_⟩
  · rw [length_append]
    omega
  · refine starts.imp_right ?_
    rintro ⟨byte, rest, rfl, first⟩
    exact ⟨byte, rest ++ data, rfl, first⟩

theorem dropWhile_starts (bytes : Bytes) :
    (bytes.takeWhile isContinuation = bytes ∧ bytes.dropWhile isContinuation = []) ∨
      ∃ byte rest, bytes.dropWhile isContinuation = byte :: rest ∧ isContinuation byte = false := by
  induction bytes with
  | nil => exact .inl ⟨rfl, rfl⟩
  | cons byte bytes ih =>
    cases continues : isContinuation byte with
    | true =>
      rw [takeWhile_cons_of_pos continues, dropWhile_cons_of_pos continues]
      exact ih.imp_left fun all => ⟨by rw [all.1], all.2⟩
    | false =>
      rw [dropWhile_cons_of_neg (by simp [continues])]
      exact .inr ⟨byte, bytes, rfl, continues⟩

theorem drainByte_drained (full : keep < buf.length) :
    ∃ dropped, Drained keep (front ++ buf) dropped (drainByte buf keep) := by
  have more : buf.length - keep ≠ 0 := by omega
  have split := take_append_drop (buf.length - keep) buf
  have length : (buf.take (buf.length - keep)).length = buf.length - keep := by
    rw [length_take]
    omega
  have kept : (buf.drop (buf.length - keep)).length = keep := by
    rw [length_drop]
    omega
  rw [drainByte, if_neg more]
  generalize buf.take (buf.length - keep) = early at split length
  generalize buf.drop (buf.length - keep) = late at split kept
  refine ⟨front ++ early ++ late.takeWhile isContinuation, ?_, ?_⟩
  · rw [← split, append_assoc, append_assoc, takeWhile_append_dropWhile]
  · refine ⟨front ++ early, _, rfl, ?_,
      fun byte member => mem_takeWhile_imp member, ?_⟩
    · rw [length_append, length_append]
      omega
    · refine (dropWhile_starts late).imp_left fun all => ?_
      rw [all.1, kept]

theorem Tracks.push {tail : OutputTail} (tracks : Tracks whole tail) (data : Bytes) :
    Tracks (whole ++ data) (tail.push data) := by
  have suffix : ∃ front, whole = front ++ tail.buf := by
    cases flag : tail.overflowed with
    | false => exact ⟨[], (tracks.kept flag).symm⟩
    | true =>
      obtain ⟨front, drained⟩ := tracks.drained flag
      exact ⟨front, drained.split⟩
  obtain ⟨front, split⟩ := suffix
  rw [OutputTail.push]
  split
  · next full =>
    refine ⟨?_, ?_, ?_, nofun, fun _ => ?_⟩
    · rw [count_append, tracks.lines]
    · rw [length_append, tracks.bytes]
    · rw [length_append] at full
      rw [split, eq_comm, decide_eq_true_eq, length_append, length_append]
      omega
    · have more : bufferKeep < (tail.buf ++ data).length := by omega
      have drained : ∃ dropped, Drained bufferKeep (front ++ (tail.buf ++ data)) dropped
          (drainByte (tail.buf ++ data) bufferKeep) := drainByte_drained more
      rw [split, append_assoc]
      dsimp only
      exact drained
  · next small =>
    refine ⟨?_, ?_, ?_, fun same => ?_, fun same => ?_⟩
    · rw [count_append, tracks.lines]
    · rw [length_append, tracks.bytes]
    · cases same : tail.overflowed with
      | false =>
        rw [tracks.kept same] at small
        exact (decide_eq_false small).symm
      | true =>
        have before := tracks.overflowed
        rw [same, eq_comm, decide_eq_true_eq] at before
        rw [eq_comm, decide_eq_true_eq, length_append]
        omega
    · dsimp only
      rw [tracks.kept same]
    · obtain ⟨front, drained⟩ := tracks.drained same
      exact ⟨front, drained.append data⟩

theorem tracks_run (chunks : List Bytes) :
    Tracks chunks.flatten (chunks.foldl OutputTail.push OutputTail.new) := by
  have start : Tracks [] OutputTail.new :=
    ⟨rfl, rfl, rfl, fun _ => rfl, nofun⟩
  have run : ∀ (whole : Bytes) (tail : OutputTail), Tracks whole tail →
      Tracks (whole ++ chunks.flatten) (chunks.foldl OutputTail.push tail) := by
    induction chunks with
    | nil => exact fun whole tail tracks => by rw [flatten_nil, append_nil]; exact tracks
    | cons data chunks ih =>
      intro whole tail tracks
      rw [flatten_cons, ← append_assoc]
      exact ih _ _ (tracks.push data)
  exact run [] OutputTail.new start

end PiRust.Bash
