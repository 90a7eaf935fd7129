import PiRust.Bedrock
import PiRust.Reader
import Mathlib.Tactic.NormNum

/- `EventStreamDecoder` with the places where it could panic, and the frames that
it reads. -/
namespace PiRust.Bedrock

open List

/-- `usize` of a 64-bit target; an overflow panics. -/
def usizeAdd (a b : Nat) : Option Nat := if a + b < 2 ^ 64 then some (a + b) else none

def usizeSub (a b : Nat) : Option Nat := if b ≤ a then some (a - b) else none

/-- `buffer[start..stop]`, which panics on a wrong range. -/
def sliceOf (buffer : Bytes) (start stop : Nat) : Option Bytes :=
  if start ≤ stop ∧ stop ≤ buffer.length then some ((buffer.take stop).drop start) else none

/-- `buffer.drain(..stop)`. -/
def drained (buffer : Bytes) (stop : Nat) : Option Bytes :=
  if stop ≤ buffer.length then some (buffer.drop stop) else none

/-- `u32::from_be_bytes` of the bytes indexed from `offset` on. -/
def wordAt (buffer : Bytes) (offset : Nat) : Option Nat := do
  let first ← buffer[offset]?
  let second ← buffer[offset + 1]?
  let third ← buffer[offset + 2]?
  let fourth ← buffer[offset + 3]?
  return ((first.toNat * 256 + second.toNat) * 256 + third.toNat) * 256 + fourth.toNat

structure EventStreamDecoder where
  buffer : Bytes := []

namespace EventStreamDecoder

def push (decoder : EventStreamDecoder) (bytes : Bytes) : EventStreamDecoder :=
  ⟨decoder.buffer ++ bytes⟩

/-- The result of `next_payload` and the decoder after it, unless it panics. -/
def nextPayload (decoder : EventStreamDecoder) :
    Option (Except String (Option Bytes) × EventStreamDecoder) :=
  if decoder.buffer.length < 12 then some (.ok none, decoder)
  else do
    let totalLen ← wordAt decoder.buffer 0
    let headersLen ← wordAt decoder.buffer 4
    if totalLen < 16 then
      return (.error ("invalid Bedrock event-stream frame length: " ++ toString totalLen), decoder)
    if totalLen - 16 < headersLen then
      return (.error ("invalid Bedrock event-stream headers length: " ++ toString headersLen),
        decoder)
    if decoder.buffer.length < totalLen then
      return (.ok none, decoder)
    let payloadStart ← usizeAdd 12 headersLen
    let payloadEnd ← usizeSub totalLen 4
    let payload ← sliceOf decoder.buffer payloadStart payloadEnd
    let rest ← drained decoder.buffer totalLen
    return (.ok (some payload), ⟨rest⟩)

/-- The results of the calls of `next_payload` among the calls, unless one panics. -/
def run : EventStreamDecoder → List (Reader.Call UInt8) →
    Option (List (Except String (Option Bytes)) × EventStreamDecoder)
  | decoder, [] => some ([], decoder)
  | decoder, .push bytes :: calls => run (decoder.push bytes) calls
  | decoder, .next :: calls => do
      let (result, after) ← decoder.nextPayload
      let (results, last) ← run after calls
      return (result :: results, last)

end EventStreamDecoder

theorem wordAt_eq {buffer : Bytes} {offset : Nat} (inside : offset + 4 ≤ buffer.length) :
    wordAt buffer offset = some (bigEndian buffer offset) := by
  have lengths : (buffer.drop offset).length = buffer.length - offset := length_drop
  have read : ∀ i, buffer[offset + i]? = (buffer.drop offset)[i]? :=
    fun i => getElem?_drop.symm
  match split : buffer.drop offset with
  | first :: second :: third :: fourth :: rest =>
    have at_start := read 0
    rw [Nat.add_zero] at at_start
    simp only [wordAt, bigEndian, at_start, read, split]
    simp
  | [] | [_] | [_, _] | [_, _, _] =>
    rw [split] at lengths
    simp only [length_nil, length_cons] at lengths
    omega

theorem bigEndian_lt (buffer : Bytes) (offset : Nat) : bigEndian buffer offset < 2 ^ 32 := by
  have bound : ∀ (bytes : Bytes) (value : Nat),
      bytes.foldl (fun value byte => value * 256 + byte.toNat) value <
        (value + 1) * 256 ^ bytes.length := by
    intro bytes
    induction bytes with
    | nil => intro value; simp
    | cons byte bytes ih =>
      intro value
      have small := byte.toNat_lt
      calc bytes.foldl (fun value byte => value * 256 + byte.toNat) (value * 256 + byte.toNat)
          < (value * 256 + byte.toNat + 1) * 256 ^ bytes.length := ih _
        _ ≤ ((value + 1) * 256) * 256 ^ bytes.length := by
            apply Nat.mul_le_mul_right
            omega
        _ = (value + 1) * 256 ^ (byte :: bytes).length := by
            rw [length_cons, Nat.pow_succ', Nat.mul_assoc]
  calc bigEndian buffer offset
      < (0 + 1) * 256 ^ ((buffer.drop offset).take 4).length := bound _ 0
    _ ≤ (0 + 1) * 256 ^ 4 := by
        apply Nat.mul_le_mul_left
        exact Nat.pow_le_pow_right (by decide) (length_take_le 4 _)
    _ = 2 ^ 32 := by norm_num

theorem EventStreamDecoder.nextPayload_eq (decoder : EventStreamDecoder) :
    decoder.nextPayload =
      some ((Reader.answer Bedrock.nextPayload decoder.buffer).1,
        ⟨(Reader.answer Bedrock.nextPayload decoder.buffer).2⟩) := by
  by_cases short : decoder.buffer.length < 12
  · simp [nextPayload, Bedrock.nextPayload, Reader.answer, short]
  have total := @wordAt_eq decoder.buffer 0 (by omega)
  have headers := @wordAt_eq decoder.buffer 4 (by omega)
  have limit := bigEndian_lt decoder.buffer 0
  simp only [nextPayload, Bedrock.nextPayload, Reader.answer, short, ↓reduceIte, total, headers,
    Option.bind_eq_bind, Option.bind_some]
  generalize bigEndian decoder.buffer 0 = totalLen at limit
  generalize bigEndian decoder.buffer 4 = headersLen
  by_cases small : totalLen < 16
  · simp only [small, ↓reduceIte]
    rfl
  by_cases long : totalLen - 16 < headersLen
  · simp only [small, long, ↓reduceIte]
    rfl
  by_cases incomplete : decoder.buffer.length < totalLen
  · simp only [small, long, incomplete, ↓reduceIte]
    rfl
  have start : usizeAdd 12 headersLen = some (12 + headersLen) := if_pos (by omega)
  have stop : usizeSub totalLen 4 = some (totalLen - 4) := if_pos (by omega)
  have payload : sliceOf decoder.buffer (12 + headersLen) (totalLen - 4) =
      some ((decoder.buffer.take (totalLen - 4)).drop (12 + headersLen)) := if_pos (by omega)
  have rest : drained decoder.buffer totalLen = some (decoder.buffer.drop totalLen) :=
    if_pos (by omega)
  simp only [small, long, incomplete, ↓reduceIte, start, stop, payload, rest, Option.bind_some]
  rfl

theorem EventStreamDecoder.run_eq (calls : List (Reader.Call UInt8))
    (decoder : EventStreamDecoder) :
    decoder.run calls =
      some ((Reader.run Bedrock.nextPayload decoder.buffer calls).1,
        ⟨(Reader.run Bedrock.nextPayload decoder.buffer calls).2⟩) := by
  induction calls generalizing decoder with
  | nil => rfl
  | cons call calls ih =>
    cases call with
    | push bytes => exact ih (decoder.push bytes)
    | next =>
      simp only [run, nextPayload_eq, ih, Option.bind_eq_bind, Option.bind_some]
      rfl

/-- `u32::to_be_bytes`. -/
def wordBytes (word : Nat) : Bytes :=
  [UInt8.ofNat (word / 2 ^ 24), UInt8.ofNat (word / 2 ^ 16), UInt8.ofNat (word / 2 ^ 8),
    UInt8.ofNat word]

/-- A frame of the wire. The decoder skips both checksums, so any will do. -/
structure Frame where
  headers : Bytes
  payload : Bytes
  preludeCrc : UInt32
  messageCrc : UInt32
  fits : 16 + headers.length + payload.length < 2 ^ 32

namespace Frame

def totalLen (frame : Frame) : Nat := 16 + frame.headers.length + frame.payload.length

def prelude (frame : Frame) : Bytes :=
  wordBytes frame.totalLen ++ wordBytes frame.headers.length ++ wordBytes frame.preludeCrc.toNat

def encode (frame : Frame) : Bytes :=
  frame.prelude ++ frame.headers ++ frame.payload ++ wordBytes frame.messageCrc.toNat

end Frame

@[simp] theorem length_wordBytes (word : Nat) : (wordBytes word).length = 4 := rfl

@[simp] theorem Frame.length_prelude (frame : Frame) : frame.prelude.length = 12 := rfl

theorem Frame.length_encode (frame : Frame) : frame.encode.length = frame.totalLen := by
  simp only [encode, length_append, length_prelude, length_wordBytes, totalLen]
  omega

theorem bigEndian_wordBytes {word : Nat} (small : word < 2 ^ 32) (front tail : Bytes) :
    bigEndian (front ++ wordBytes word ++ tail) front.length = word := by
  have dropped : (front ++ wordBytes word ++ tail).drop front.length = wordBytes word ++ tail := by
    rw [append_assoc, drop_left]
  have taken : (wordBytes word ++ tail).take 4 = wordBytes word := rfl
  rw [bigEndian, dropped, taken]
  simp only [wordBytes, foldl_cons, foldl_nil, UInt8.toNat_ofNat']
  omega

section Prelude

variable {frame : Frame} {buffer : Bytes}

theorem Frame.lengths_of_prefix (starts : frame.prelude <+: buffer) :
    bigEndian buffer 0 = frame.totalLen ∧ bigEndian buffer 4 = frame.headers.length := by
  obtain ⟨tail, rfl⟩ := starts
  have total : frame.totalLen < 2 ^ 32 := frame.fits
  have headers : frame.headers.length < 2 ^ 32 := by
    rw [totalLen] at total
    omega
  constructor
  · have read : bigEndian (wordBytes frame.totalLen ++
        (wordBytes frame.headers.length ++ wordBytes frame.preludeCrc.toNat ++ tail)) 0 = _ :=
      bigEndian_wordBytes total [] _
    rw [prelude]
    simpa only [append_assoc] using read
  · have read : bigEndian (wordBytes frame.totalLen ++ wordBytes frame.headers.length ++
        (wordBytes frame.preludeCrc.toNat ++ tail)) 4 = _ :=
      bigEndian_wordBytes headers (wordBytes frame.totalLen) _
    rw [prelude]
    simpa only [append_assoc] using read

theorem Frame.prelude_prefix (frame : Frame) : frame.prelude <+: frame.encode := by
  simp only [encode, append_assoc]
  exact prefix_append _ _

end Prelude

theorem frames_read : Reader.Reads nextPayload Frame.encode Frame.payload where
  nothing := rfl
  whole frame tail := by
    have starts : frame.prelude <+: frame.encode ++ tail :=
      frame.prelude_prefix.trans (prefix_append _ _)
    obtain ⟨total, headers⟩ := frame.lengths_of_prefix starts
    have length := frame.length_encode
    have long : ¬ (frame.encode ++ tail).length < 12 := by
      rw [length_append, length, Frame.totalLen]
      omega
    have large : ¬ frame.totalLen < 16 := by
      rw [Frame.totalLen]
      omega
    have holds : ¬ frame.totalLen - 16 < frame.headers.length := by
      rw [Frame.totalLen]
      omega
    have complete : ¬ (frame.encode ++ tail).length < frame.totalLen := by
      rw [length_append, length]
      omega
    have written : frame.encode ++ tail = (frame.prelude ++ frame.headers) ++ (frame.payload ++
        (wordBytes frame.messageCrc.toNat ++ tail)) := by
      simp [Frame.encode]
    have payload : ((frame.encode ++ tail).take (frame.totalLen - 4)).drop
        (12 + frame.headers.length) = frame.payload := by
      have start : 12 + frame.headers.length = (frame.prelude ++ frame.headers).length := by
        rw [length_append, Frame.length_prelude]
      have size : frame.totalLen - 4 - (12 + frame.headers.length) = frame.payload.length := by
        rw [Frame.totalLen]
        omega
      rw [drop_take, size, written, start, drop_left, take_left]
    have rest : (frame.encode ++ tail).drop frame.totalLen = tail := by
      rw [← length, drop_left]
    rw [nextPayload]
    simp only [long, total, headers, large, holds, complete, ↓reduceIte, payload, rest]
  part frame front starts partly := by
    by_cases short : front.length < 12
    · simp [nextPayload, short]
    have prelude : frame.prelude <+: front :=
      prefix_of_prefix_length_le frame.prelude_prefix starts (by rw [Frame.length_prelude]; omega)
    obtain ⟨total, headers⟩ := frame.lengths_of_prefix prelude
    have large : ¬ frame.totalLen < 16 := by
      rw [Frame.totalLen]
      omega
    have holds : ¬ frame.totalLen - 16 < frame.headers.length := by
      rw [Frame.totalLen]
      omega
    have incomplete : front.length < frame.totalLen := by
      have most := starts.length_le
      have other : front.length ≠ frame.encode.length :=
        fun same => partly (starts.eq_of_length same)
      have length := frame.length_encode
      omega
    simp [nextPayload, short, total, headers, large, holds, incomplete]

/-- The next complete prelude: the total length and the length of the headers. -/
def nextPrelude (buffer : Bytes) : Option (Nat × Nat) :=
  if buffer.length < 12 then none
  else do return (← wordAt buffer 0, ← wordAt buffer 4)

theorem nextPayload_error_iff (buffer : Bytes) :
    (∃ reason, nextPayload buffer = .error reason) ↔
      ∃ totalLen headersLen, nextPrelude buffer = some (totalLen, headersLen) ∧
        (totalLen < 16 ∨ totalLen - 16 < headersLen) := by
  by_cases short : buffer.length < 12
  · simp [nextPayload, nextPrelude, short]
  have total := @wordAt_eq buffer 0 (by omega)
  have headers := @wordAt_eq buffer 4 (by omega)
  have prelude : nextPrelude buffer = some (bigEndian buffer 0, bigEndian buffer 4) := by
    simp only [nextPrelude, short, ↓reduceIte, total, headers]
    rfl
  rw [prelude]
  simp only [nextPayload, short, ↓reduceIte]
  generalize bigEndian buffer 0 = totalLen
  generalize bigEndian buffer 4 = headersLen
  by_cases small : totalLen < 16
  · simp [small]
  by_cases long : totalLen - 16 < headersLen
  · simp [small, long]
  by_cases incomplete : buffer.length < totalLen
  · simp [small, long, incomplete]
  · simp [small, long, incomplete]

theorem nextPayload_takes {buffer payload rest : Bytes}
    (found : nextPayload buffer = .ok (some (payload, rest))) :
    rest.length + 16 ≤ buffer.length := by
  unfold nextPayload at found
  split at found
  · cases found
  · dsimp only at found
    split at found
    · cases found
    · split at found
      · cases found
      · split at found
        · cases found
        · cases found
          rw [length_drop]
          omega

namespace EventStreamDecoder

/-- The loop of `next_payload` calls: it ends with the first result that is no payload. -/
def Loops (decoder : EventStreamDecoder) (payloads : List Bytes)
    (last : Except String (Option Bytes)) (after : EventStreamDecoder) : Prop :=
  decoder.run (replicate (payloads.length + 1) .next) =
      some (payloads.map (.ok ∘ some) ++ [last], after) ∧
    ∀ payload, last ≠ .ok (some payload)

theorem loops_of_ends {decoder : EventStreamDecoder} {payloads : List Bytes}
    {last : Except String (Option Bytes)} {after : Bytes}
    (ends : Reader.Ends Bedrock.nextPayload decoder.buffer payloads last after) :
    decoder.Loops payloads last ⟨after⟩ := by
  refine ⟨?_, ends.2⟩
  rw [run_eq, ends.1]

theorem error_iff (decoder : EventStreamDecoder) :
    (∃ reason, decoder.nextPayload = some (.error reason, decoder)) ↔
      ∃ reason, Bedrock.nextPayload decoder.buffer = .error reason := by
  rw [nextPayload_eq]
  cases found : Bedrock.nextPayload decoder.buffer with
  | error reason => simp [Reader.answer, found]
  | ok result =>
    cases result with
    | none => simp [Reader.answer, found]
    | some pair => simp [Reader.answer, found]

/-- Frames come out as they went in, however they are cut into chunks and whenever
`next_payload` is called; on any bytes nothing panics, the loop ends, and only a
prelude with wrong lengths is an error. -/
theorem decodes (frames : List Frame) (calls : List (Reader.Call UInt8))
    (complete : Reader.pushed calls = frames.flatMap Frame.encode) :
    (∃ (read left : List Bytes) (answers : List (Option Bytes)) (decoder : EventStreamDecoder),
      run {} calls = some (answers.map .ok, decoder) ∧ answers.reduceOption = read ∧
      decoder.Loops left (.ok none) {} ∧ read ++ left = frames.map Frame.payload) ∧
    ∀ decoder : EventStreamDecoder,
      (∀ calls, (decoder.run calls).isSome) ∧
      (∃ payloads last after, payloads.length ≤ decoder.buffer.length / 16 ∧
        decoder.Loops payloads last after) ∧
      ((∃ reason, decoder.nextPayload = some (.error reason, decoder)) ↔
        ∃ totalLen headersLen, nextPrelude decoder.buffer = some (totalLen, headersLen) ∧
          (totalLen < 16 ∨ totalLen - 16 < headersLen)) := by
  refine ⟨?_, fun decoder => ⟨fun calls => ?_, ?_, ?_⟩⟩
  · obtain ⟨read, left, answers, split, said, values, kept⟩ :=
      @Reader.Reads.run _ _ _ _ _ _ _ frames_read calls [] frames complete
    refine ⟨read.map Frame.payload, left.map Frame.payload, answers,
      ⟨left.flatMap Frame.encode⟩, ?_, values, loops_of_ends (frames_read.ends left), ?_⟩
    · rw [run_eq, said, kept]
    · rw [split, map_append]
  · rw [run_eq]
    rfl
  · obtain ⟨payloads, last, after, few, ends⟩ :=
      Reader.exists_ends (by decide) nextPayload_takes decoder.buffer
    exact ⟨payloads, last, ⟨after⟩, few, loops_of_ends ends⟩
  · rw [error_iff, nextPayload_error_iff]

def twoFrames : List Frame :=
  [⟨[1], [2, 3], 7, 8, by decide⟩, ⟨[], [4], 9, 10, by decide⟩]

def cutTwice : List (Reader.Call UInt8) :=
  let bytes := twoFrames.flatMap Frame.encode
  [.push (bytes.take 5), .next, .push ((bytes.drop 5).take 9), .next, .push (bytes.drop 14), .next]

theorem decodes_cutTwice :
    (∃ (read left : List Bytes) (answers : List (Option Bytes)) (decoder : EventStreamDecoder),
      run {} cutTwice = some (answers.map .ok, decoder) ∧ answers.reduceOption = read ∧
      decoder.Loops left (.ok none) {} ∧ read ++ left = twoFrames.map Frame.payload) ∧
    ∀ decoder : EventStreamDecoder,
      (∀ calls, (decoder.run calls).isSome) ∧
      (∃ payloads last after, payloads.length ≤ decoder.buffer.length / 16 ∧
        decoder.Loops payloads last after) ∧
      ((∃ reason, decoder.nextPayload = some (.error reason, decoder)) ↔
        ∃ totalLen headersLen, nextPrelude decoder.buffer = some (totalLen, headersLen) ∧
          (totalLen < 16 ∨ totalLen - 16 < headersLen)) :=
  decodes twoFrames cutTwice (by decide)

end EventStreamDecoder

end PiRust.Bedrock
