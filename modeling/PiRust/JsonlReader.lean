import PiRust.Utf8Boundaries

/- `protocol/jsonl.rs`: the lines of a byte stream, read by futures that are polled, dropped while
they wait and made again, as the `select!` of `run_rpc_loop` does. -/
namespace PiRust.Jsonl

open List

/-- The bytes of one `read`: at least one, and no more than its buffer holds. -/
structure Chunk where
  bytes : Bytes
  nonempty : bytes ≠ []
  length_le : bytes.length ≤ 8192

/-- What one poll of the reader answers. A poll that has to wait, or that fails, takes no bytes;
behind the last one the stream is at its end. -/
inductive Poll where
  | waits
  | fails
  | reads (chunk : Chunk)

structure JsonlLineReader where
  pending : Bytes
  reachedEof : Bool
  deriving DecidableEq, Repr

def JsonlLineReader.new : JsonlLineReader := ⟨[], false⟩

abbrev lineFeed : UInt8 := 10

abbrev carriageReturn : UInt8 := 13

def lineFromBytes (bytes : Bytes) : String :=
  fromUtf8Lossy (if bytes.getLast? = some carriageReturn then bytes.dropLast else bytes)

/-- The head of the loop of `read_next_line`; nothing is answered where it goes on to read. -/
def turn (reader : JsonlLineReader) : Option (Option String × JsonlLineReader) :=
  match Framing.cut lineFeed reader.pending with
  | some (front, back) => some (lineFromBytes front.dropLast, { reader with pending := back })
  | none =>
    if reader.reachedEof then
      if reader.pending = [] then some (none, reader)
      else some (lineFromBytes reader.pending, { reader with pending := [] })
    else none

/-- `Result<Option<String>>`, but for what the error says. -/
abbrev Answer := Except Unit (Option String)

/-- The loop from its `read` on; there is no answer where the future waits. -/
def readOn : List Poll → JsonlLineReader → Option Answer × JsonlLineReader × List Poll
  | [], reader =>
    let reader := { reader with reachedEof := true }
    match turn reader with
    | some (answer, reader) => (some (.ok answer), reader, [])
    | none => (none, reader, [])
  | .waits :: source, reader => (none, reader, source)
  | .fails :: source, reader => (some (.error ()), reader, source)
  | .reads chunk :: source, reader =>
    let reader := { reader with pending := reader.pending ++ chunk.bytes }
    match turn reader with
    | some (answer, reader) => (some (.ok answer), reader, source)
    | none => readOn source reader

/-- The reader, what it will read, and whether a future stands at its `read`. -/
structure State where
  reader : JsonlLineReader
  source : List Poll
  waiting : Bool

def start (source : List Poll) : State := ⟨.new, source, false⟩

/-- What happens to the future: it is polled, and made before where there is none, or dropped. -/
inductive Action where
  | poll
  | drop
  deriving DecidableEq

def State.readOn (state : State) : Option Answer × State :=
  let found := Jsonl.readOn state.source state.reader
  (found.1, ⟨found.2.1, found.2.2, found.1.isNone⟩)

def step (state : State) : Action → Option Answer × State
  | .drop => (none, { state with waiting := false })
  | .poll =>
    if state.waiting then state.readOn
    else
      match turn state.reader with
      | some (answer, reader) => (some (.ok answer), ⟨reader, state.source, false⟩)
      | none => state.readOn

def run : List Action → State → List Answer × State
  | [], state => ([], state)
  | action :: actions, state =>
    let now := step state action
    let later := run actions now.2
    (now.1.toList ++ later.1, later.2)

/-- The lines of a stream: its pieces, the last one only where it is not empty. -/
def lines (stream : Bytes) : List String :=
  let cut := Framing.pieces lineFeed stream
  (cut.1 ++ if cut.2 = [] then [] else [cut.2]).map lineFromBytes

def streamOf : List Poll → Bytes
  | [] => []
  | .reads chunk :: source => chunk.bytes ++ streamOf source
  | _ :: source => streamOf source

/-- The polls that bring no bytes. -/
def idle : List Poll → Nat
  | [] => 0
  | .reads _ :: source => idle source
  | _ :: source => idle source + 1

/-- What was answered without an error. -/
def returned (answers : List Answer) : List (Option String) :=
  answers.filterMap Except.toOption

section turns

variable {reader after : JsonlLineReader} {answer : Option String}

def Yields (before : Bytes) (answer : Option String) (after : Bytes) : Prop :=
  match answer with
  | some line => lines before = line :: lines after
  | none => before = [] ∧ after = []

theorem lines_cut {bytes front back : Bytes}
    (found : Framing.cut lineFeed bytes = some (front, back)) (rest : Bytes) :
    lines (bytes ++ rest) = lineFromBytes front.dropLast :: lines (back ++ rest) := by
  obtain ⟨piece, rfl, split⟩ := Framing.cut_some lineFeed found
  rw [dropLast_concat, lines, lines, Framing.pieces_append, split,
    Framing.pieces_append lineFeed back rest]
  simp

theorem lines_uncut {bytes : Bytes} (absent : Framing.cut lineFeed bytes = none)
    (some_left : bytes ≠ []) : lines bytes = [lineFromBytes bytes] := by
  simp [lines, Framing.cut_none lineFeed absent, some_left]

theorem turn_some (taken : turn reader = some (answer, after)) (rest : Bytes)
    (ended : reader.reachedEof = true → rest = []) :
    after.reachedEof = reader.reachedEof ∧
      Yields (reader.pending ++ rest) answer (after.pending ++ rest) := by
  unfold turn at taken
  split at taken
  · next front back found =>
    cases taken
    exact ⟨rfl, lines_cut found rest⟩
  · next absent =>
    split at taken
    · next eof =>
      rw [ended eof, append_nil, append_nil]
      split at taken
      · next empty =>
        cases taken
        exact ⟨rfl, empty, empty⟩
      · next some_left =>
        cases taken
        refine ⟨rfl, ?_⟩
        show lines reader.pending = [lineFromBytes reader.pending]
        exact lines_uncut absent some_left
    · cases taken

theorem turn_none (waits : turn reader = none) : reader.reachedEof = false := by
  unfold turn at waits
  split at waits
  · cases waits
  · split at waits
    · split at waits <;> cases waits
    · next unread => exact Bool.eq_false_iff.mpr unread

end turns

section states

def State.left (state : State) : Bytes := state.reader.pending ++ streamOf state.source

/-- Nothing is read behind the end of the stream. -/
structure Sound (state : State) : Prop where
  ended : state.reader.reachedEof = true → state.source = []
  waiting : state.waiting = true → state.reader.reachedEof = false

theorem Sound.dropped {state : State} (sound : Sound state) :
    Sound { state with waiting := false } := ⟨sound.ended, nofun⟩

/-- What one poll does: an answer takes its line, and a poll without one takes no bytes, but brings
the stream nearer to its next bytes. -/
def Polled (before : State) (answer : Option Answer) (after : State) : Prop :=
  Sound after ∧ after.source <:+ before.source ∧
    match answer with
    | some (.ok line) => Yields before.left line after.left ∧ idle after.source ≤ idle before.source
    | some (.error _) =>
      after.left = before.left ∧ idle after.source < idle before.source ∧ .fails ∈ before.source
    | none => after.left = before.left ∧ idle after.source < idle before.source

theorem readOn_polled (source : List Poll) {reader : JsonlLineReader} {waiting : Bool}
    (unread : reader.reachedEof = false) :
    Polled ⟨reader, source, waiting⟩ (State.readOn ⟨reader, source, waiting⟩).1
      (State.readOn ⟨reader, source, waiting⟩).2 := by
  induction source generalizing reader with
  | nil =>
    simp only [State.readOn, readOn]
    cases taken : turn { reader with reachedEof := true } with
    | none => exact absurd (turn_none taken) (by simp)
    | some answered =>
      obtain ⟨answer, after⟩ := answered
      obtain ⟨-, yields⟩ := turn_some taken [] fun _ => rfl
      exact ⟨⟨fun _ => rfl, nofun⟩, suffix_rfl, yields, Nat.le_refl _⟩
  | cons poll source ih =>
    cases poll with
    | waits =>
      refine ⟨⟨fun eof => ?_, fun _ => unread⟩, suffix_cons _ _, rfl, Nat.lt_succ_self _⟩
      exact absurd (unread.symm.trans eof) (by decide)
    | fails =>
      refine ⟨⟨fun eof => ?_, nofun⟩, suffix_cons _ _, rfl, Nat.lt_succ_self _, mem_cons_self⟩
      exact absurd (unread.symm.trans eof) (by decide)
    | reads chunk =>
      have gathered (waiting : Bool) : State.left ⟨reader, .reads chunk :: source, waiting⟩ =
          State.left ⟨{ reader with pending := reader.pending ++ chunk.bytes }, source, waiting⟩ := by
        simp [State.left, streamOf]
      cases taken : turn { reader with pending := reader.pending ++ chunk.bytes } with
      | some answered =>
        obtain ⟨answer, after⟩ := answered
        obtain ⟨same, yields⟩ := turn_some taken (streamOf source) fun eof =>
          absurd (unread.symm.trans eof) (by decide)
        simp only [State.readOn, readOn, taken]
        refine ⟨⟨fun eof => ?_, nofun⟩, suffix_cons _ _, ?_, Nat.le_refl _⟩
        · exact absurd (unread.symm.trans (same.symm.trans eof)) (by decide)
        · rw [gathered]
          exact yields
      | none =>
        have later := @ih { reader with pending := reader.pending ++ chunk.bytes } unread
        simp only [State.readOn, readOn, taken] at later ⊢
        obtain ⟨sound, suffix, told⟩ := later
        refine ⟨sound, suffix.trans (suffix_cons _ _), ?_⟩
        rw [gathered]
        revert told
        split
        · exact id
        · exact fun ⟨same, fewer, failing⟩ => ⟨same, fewer, mem_cons_of_mem _ failing⟩
        · exact id

theorem poll_polled {state : State} (sound : Sound state) :
    Polled state (step state .poll).1 (step state .poll).2 := by
  obtain ⟨reader, source, waiting⟩ := state
  by_cases here : waiting = true
  · rw [step, if_pos here]
    exact readOn_polled source (sound.waiting here)
  · rw [step, if_neg here]
    cases taken : turn reader with
    | none => exact readOn_polled source (turn_none taken)
    | some answered =>
      obtain ⟨answer, after⟩ := answered
      obtain ⟨same, yields⟩ := turn_some taken (streamOf source) fun eof => by
        rw [show source = [] from sound.ended eof]
        rfl
      exact ⟨⟨fun eof => sound.ended (same.symm.trans eof), nofun⟩, suffix_rfl, yields,
        Nat.le_refl _⟩

theorem sound_start (source : List Poll) : Sound (start source) := ⟨nofun, nofun⟩

end states

section runs

variable {state : State}

theorem run_returned (actions : List Action) (sound : Sound state) (ends : Nat)
    (enough : (returned (run actions state).1).length ≤ ends) :
    returned (run actions state).1 <+: (lines state.left).map some ++ replicate ends none := by
  induction actions generalizing state ends with
  | nil => exact nil_prefix
  | cons action actions ih =>
    cases action with
    | drop => exact ih sound.dropped ends enough
    | poll =>
      obtain ⟨later, -, told⟩ := poll_polled sound
      simp only [run, returned, filterMap_append] at enough ⊢
      cases answered : (step state .poll).1 with
      | none =>
        rw [answered] at told enough
        rw [← told.1]
        exact ih later ends enough
      | some answer =>
        rw [answered] at told enough
        cases answer with
        | error failed =>
          rw [← told.1]
          exact ih later ends enough
        | ok line =>
          obtain ⟨yields, -⟩ := told
          cases line with
          | some line =>
            have split : lines state.left = line :: lines (step state .poll).2.left := yields
            rw [split]
            exact (prefix_cons_inj _).mpr (ih later ends (Nat.le_of_succ_le enough))
          | none =>
            obtain ⟨empty, after⟩ := yields
            cases ends with
            | zero => cases enough
            | succ ends =>
              have rest := ih later ends (Nat.le_of_succ_le_succ enough)
              rw [after] at rest
              rw [empty]
              exact (prefix_cons_inj _).mpr rest

theorem count_polls (actions : List Action) (sound : Sound state) :
    actions.count .poll + idle (run actions state).2.source ≤
      (returned (run actions state).1).length + idle state.source := by
  induction actions generalizing state with
  | nil => simp [run, returned]
  | cons action actions ih =>
    cases action with
    | drop =>
      have later := ih sound.dropped
      simpa [run, step] using later
    | poll =>
      obtain ⟨later, -, told⟩ := poll_polled sound
      have rest := ih later
      simp only [run, returned, filterMap_append, length_append, count_cons_self] at rest ⊢
      cases answered : (step state .poll).1 with
      | none =>
        rw [answered] at told
        simp only [Option.toList_none, filterMap_nil, length_nil]
        omega
      | some answer =>
        rw [answered] at told
        cases answer with
        | error failed =>
          have none_returned : ([.error failed] : List Answer).filterMap Except.toOption = [] := rfl
          simp only [Option.toList_some, none_returned, length_nil]
          omega
        | ok line =>
          have one : ([.ok line] : List Answer).filterMap Except.toOption = [line] := rfl
          simp only [Option.toList_some, one, length_singleton]
          omega

theorem run_ok (actions : List Action) (sound : Sound state) (works : .fails ∉ state.source) :
    (run actions state).1 = (returned (run actions state).1).map .ok := by
  induction actions generalizing state with
  | nil => rfl
  | cons action actions ih =>
    cases action with
    | drop => exact ih sound.dropped works
    | poll =>
      obtain ⟨later, suffix, told⟩ := poll_polled sound
      have rest := ih later fun failing => works (suffix.subset failing)
      simp only [run]
      cases answered : (step state .poll).1 with
      | none => exact rest
      | some answer =>
        rw [answered] at told
        cases answer with
        | error failed => exact absurd told.2.2 works
        | ok line => exact congrArg (.ok line :: ·) rest

end runs

/-- However the stream is divided into reads, and whenever a waiting future is polled, dropped and
made again: the answers are the lines of the stream in order and then `None`, and each poll gives
one of them unless the reader had to wait or failed. -/
theorem readNextLine_lines (source : List Poll) (actions : List Action) :
    let answers := returned (run actions (start source)).1
    answers <+: (lines (streamOf source)).map some ++ replicate answers.length none ∧
      actions.count .poll ≤ answers.length + idle source ∧
      ((lines (streamOf source)).length + idle source < actions.count .poll →
        (lines (streamOf source)).map some ++ [none] <+: answers) ∧
      (.fails ∉ source → (run actions (start source)).1 = answers.map .ok) := by
  intro answers
  have sound := sound_start source
  have returns := run_returned actions sound answers.length (Nat.le_refl _)
  have counted := count_polls actions sound
  have enough : actions.count .poll ≤ answers.length + idle source := by
    exact Nat.le_trans (Nat.le_add_right _ _) counted
  refine ⟨returns, enough, fun polled => ?_, run_ok actions sound⟩
  have long : (lines (streamOf source)).length < answers.length :=
    Nat.lt_of_add_lt_add_right (Nat.lt_of_lt_of_le polled enough)
  obtain ⟨more, split⟩ := Nat.exists_eq_add_of_lt long
  have ended : (lines (streamOf source)).map some ++ [none] <+:
      (lines (streamOf source)).map some ++ replicate answers.length none := by
    rw [prefix_append_right_inj, split]
    exact ⟨replicate _ none, rfl⟩
  apply prefix_of_prefix_length_le ended returns
  simp only [length_append, length_map, length_singleton]
  exact long

def cutSource : List Poll :=
  [.reads ⟨[97, 13], by decide, by decide⟩, .waits, .reads ⟨[10, 98], by decide, by decide⟩]

theorem readNextLine_lines_cut :
    ([some "a", some "b", none] : List (Option String)) <+:
      returned (run [.poll, .drop, .poll, .poll, .poll] (start cutSource)).1 := by
  have read := (readNextLine_lines cutSource [.poll, .drop, .poll, .poll, .poll]).2.2.1 (by decide)
  have two : lines (streamOf cutSource) = ["a", "b"] := by decide
  rw [two] at read
  exact read

/-- With `serde_json::to_string` as a parameter. -/
def serializeJsonLine {α : Type} (print : α → String) (value : α) : String := print value ++ "\n"

section written

theorem mem_encode {c : Char} {byte : UInt8} (inside : byte ∈ String.utf8EncodeChar c)
    (ascii : byte.toNat < 0x80) : c.toNat = byte.toNat := by
  have whole := encoding c
  generalize String.utf8EncodeChar c = bytes at whole inside
  cases whole with
  | one =>
    cases mem_singleton.mp inside
    omega
  | two | three | four =>
    simp only [mem_cons, not_mem_nil, or_false] at inside
    rcases inside with rfl | rfl | rfl | rfl <;> omega

variable {text : EditTool.Str} (plain : ∀ c ∈ text, c ≠ '\n' ∧ c ≠ '\r')
include plain

theorem not_mem_asBytes : lineFeed ∉ text.asBytes ∧ carriageReturn ∉ text.asBytes := by
  constructor <;> intro inside <;> obtain ⟨c, member, here⟩ := mem_flatMap.mp inside
  · exact (plain c member).1 (Char.ext (UInt32.toNat.inj (mem_encode here (by decide))))
  · exact (plain c member).2 (Char.ext (UInt32.toNat.inj (mem_encode here (by decide))))

theorem lineFromBytes_text : lineFromBytes text.asBytes = String.ofList text := by
  have unended : text.asBytes.getLast? ≠ some carriageReturn := fun last =>
    (not_mem_asBytes plain).2 (mem_of_getLast? last)
  rw [lineFromBytes, if_neg unended]
  exact String.toList_inj.mp ((fromUtf8Lossy_asBytes text).trans String.toList_ofList.symm)

theorem lines_text (rest : Bytes) :
    lines (text.asBytes ++ lineFeed :: rest) = String.ofList text :: lines rest := by
  rw [lines, Framing.pieces_piece _ (not_mem_asBytes plain).1, ← lineFromBytes_text plain]
  rfl

end written

/-- Written lines are read back in order, however the reads and the calls cut the stream. -/
theorem serialized_read {α : Type} {print : α → String}
    (oneLine : ∀ value, ∀ c ∈ (print value).toList, c ≠ '\n' ∧ c ≠ '\r') (values : List α)
    {source : List Poll} (actions : List Action) (sent : streamOf source =
      values.flatMap fun value => EditTool.Str.asBytes (serializeJsonLine print value).toList) :
    let answers := returned (run actions (start source)).1
    answers <+: values.map (fun value => some (print value)) ++
        replicate answers.length none ∧
      actions.count .poll ≤ answers.length + idle source := by
  intro answers
  have written : lines (streamOf source) = values.map print := by
    rw [sent]
    clear sent
    induction values with
    | nil => rfl
    | cons value values ih =>
      have line : EditTool.Str.asBytes (serializeJsonLine print value).toList =
          EditTool.Str.asBytes (print value).toList ++ [lineFeed] := by
        rw [serializeJsonLine, String.toList_append, EditTool.Str.asBytes, flatMap_append]
        rfl
      rw [flatMap_cons, line, append_assoc, singleton_append, lines_text (oneLine value), ih,
        String.ofList_toList, map_cons]
  have returns := run_returned actions (sound_start source) answers.length (Nat.le_refl _)
  have left : (start source).left = streamOf source := rfl
  rw [left, written, map_map] at returns
  exact ⟨returns, Nat.le_trans (Nat.le_add_right _ _) (count_polls actions (sound_start source))⟩

/-- Two values, the stream cut inside the first line. -/
theorem serialized_read_two :
    let answers := returned (run [.poll, .drop, .poll, .poll] (start
      [.reads ⟨[49], by decide, by decide⟩, .waits, .reads ⟨[10, 50, 10], by decide, by decide⟩])).1
    answers <+: [some "1", some "2"] ++ replicate answers.length none ∧ 3 ≤ answers.length + 1 :=
  @serialized_read Bool (fun first => if first then "1" else "2")
    (fun first => by cases first <;> simp) [true, false] _ _ (by decide)

end PiRust.Jsonl
