import Mathlib.Data.List.Basic

/- A file that is appended to through a buffer of bounded size. -/
namespace PiRust.BufferedFile

/-- `BufWriter`: what the file has, and what the buffer still holds. -/
structure BufWriter (capacity : Nat) where
  inner : ByteArray
  buf : ByteArray
  fits : buf.size ≤ capacity

namespace BufWriter

variable {capacity : Nat}

def new (capacity : Nat) (file : ByteArray) : BufWriter capacity where
  inner := file
  buf := ByteArray.empty
  fits := Nat.zero_le capacity

variable (bytes : ByteArray) (writer : BufWriter capacity)

def flushBuf : BufWriter capacity where
  inner := writer.inner ++ writer.buf
  buf := ByteArray.empty
  fits := Nat.zero_le capacity

def spareCapacity : Nat := capacity - writer.buf.size

def makeRoom : BufWriter capacity :=
  if writer.spareCapacity < bytes.size then writer.flushBuf else writer

theorem makeRoom_fits {bytes : ByteArray} (small : bytes.size ≤ capacity)
    (writer : BufWriter capacity) : (writer.makeRoom bytes).buf.size + bytes.size ≤ capacity := by
  unfold makeRoom
  by_cases full : writer.spareCapacity < bytes.size
  · simpa [if_pos full, flushBuf] using small
  · have bound := writer.fits
    rw [if_neg full]
    unfold spareCapacity at full
    omega

/-- `write_all_cold`: bytes that do not fit push out what is held, and bytes that never fit
are not held at all. -/
def writeAllCold : BufWriter capacity :=
  let ready := writer.makeRoom bytes
  if big : capacity ≤ bytes.size then { ready with inner := ready.inner ++ bytes }
  else
    { ready with
      buf := ready.buf ++ bytes
      fits := by
        rw [ByteArray.size_append]
        exact makeRoom_fits (Nat.le_of_not_le big) writer }

def writeAll : BufWriter capacity :=
  if room : bytes.size < writer.spareCapacity then
    { writer with
      buf := writer.buf ++ bytes
      fits := by
        unfold spareCapacity at room
        rw [ByteArray.size_append]
        omega }
  else writer.writeAllCold bytes

def writePieces (pieces : List ByteArray) (writer : BufWriter capacity) : BufWriter capacity :=
  pieces.foldl (fun writer bytes => writer.writeAll bytes) writer

/-- What the file has once the buffer is written out, by `flush` or when the writer is
dropped. -/
def close : ByteArray := writer.flushBuf.inner

@[simp] theorem close_new (file : ByteArray) : (new capacity file).close = file := by
  simp [new, close, flushBuf]

@[simp] theorem close_flushBuf : writer.flushBuf.close = writer.close := by
  simp [close, flushBuf]

theorem close_makeRoom : (writer.makeRoom bytes).close = writer.close := by
  unfold makeRoom
  split
  · exact close_flushBuf writer
  · rfl

theorem makeRoom_buf {bytes : ByteArray} {writer : BufWriter capacity}
    (full : writer.spareCapacity ≤ bytes.size) (big : capacity ≤ bytes.size) :
    (writer.makeRoom bytes).buf = ByteArray.empty := by
  unfold makeRoom
  split
  · rfl
  · have bound := writer.fits
    apply ByteArray.size_eq_zero_iff.mp
    unfold spareCapacity at *
    omega

theorem close_writeAllCold (full : writer.spareCapacity ≤ bytes.size) :
    (writer.writeAllCold bytes).close = writer.close ++ bytes := by
  rw [← close_makeRoom bytes writer]
  unfold writeAllCold
  dsimp only
  split
  · rename_i big
    simp [close, flushBuf, makeRoom_buf full big]
  · simp [close, flushBuf, ByteArray.append_assoc]

@[simp] theorem close_writeAll : (writer.writeAll bytes).close = writer.close ++ bytes := by
  unfold writeAll
  split
  · simp [close, flushBuf, ByteArray.append_assoc]
  · rename_i full
    exact close_writeAllCold bytes writer (Nat.le_of_not_lt full)

theorem close_writePieces (pieces : List ByteArray) (writer : BufWriter capacity) :
    (writer.writePieces pieces).close =
      writer.close ++ pieces.foldl (fun joined bytes => joined ++ bytes) ByteArray.empty := by
  have joins (pieces : List ByteArray) (start : ByteArray) :
      pieces.foldl (fun joined bytes => joined ++ bytes) start =
        start ++ pieces.foldl (fun joined bytes => joined ++ bytes) ByteArray.empty := by
    induction pieces generalizing start with
    | nil => simp
    | cons bytes pieces ih =>
      rw [List.foldl_cons, List.foldl_cons, ih (start ++ bytes), ih (ByteArray.empty ++ bytes),
        ByteArray.empty_append, ByteArray.append_assoc]
  induction pieces generalizing writer with
  | nil => simp [writePieces]
  | cons bytes pieces ih =>
    have rest := ih (writer.writeAll bytes)
    unfold writePieces at rest ⊢
    rw [List.foldl_cons, rest, close_writeAll, List.foldl_cons, joins pieces (_ ++ bytes),
      ByteArray.empty_append, ByteArray.append_assoc]

end BufWriter

end PiRust.BufferedFile
