import PiRust.JsonText

/- A text cut anywhere and closed again says less than the whole one, and nothing else. -/
namespace JsonText

open List

/-- `part` is `whole` as far as it goes: only the last entry it has may be unfinished. -/
inductive Approx : Tree → Tree → Prop where
  | same (tree : Tree) : Approx tree tree
  | string {text full : List Char} (front : text <+: full) : Approx (.string text) (.string full)
  | number {text full : List Char} (front : text <+: full) : Approx (.number text) (.number full)
  | items (items more : List Tree) : Approx (.array items) (.array (items ++ more))
  | lastItem (items more : List Tree) {last full : Tree} (nearly : Approx last full) :
      Approx (.array (items ++ [last])) (.array (items ++ full :: more))
  | fields (fields more : List (List Char × Tree)) :
      Approx (.object fields) (.object (fields ++ more))
  | lastField (fields more : List (List Char × Tree)) (key : List Char) {last full : Tree}
      (nearly : Approx last full) :
      Approx (.object (fields ++ [(key, last)])) (.object (fields ++ (key, full) :: more))

/-- `whole` has `inner` in the place that the open containers surround. -/
def Within : List Frame → Tree → Tree → Prop
  | [], inner, whole => whole = inner
  | .items before :: rest, inner, whole =>
    ∃ more, Within rest (.array (before ++ inner :: more)) whole
  | .member before key :: rest, inner, whole =>
    ∃ more, Within rest (.object (before ++ (key, inner) :: more)) whole

def Extends (state : State) (whole : Tree) : Prop :=
  match state.mode with
  | .value => ∃ inner, Within state.stack inner whole
  | .firstItem => ∃ items, Within state.stack (.array items) whole
  | .item items => ∃ more, Within state.stack (.array (items ++ more)) whole
  | .firstKey => ∃ fields, Within state.stack (.object fields) whole
  | .key fields | .keyString fields _ _ | .colon fields _ | .member fields =>
    ∃ more, Within state.stack (.object (fields ++ more)) whole
  | .string text _ => ∃ full, text <+: full ∧ Within state.stack (.string full) whole
  | .number text _ => ∃ full, text <+: full ∧ Within state.stack (.number full) whole
  | .word word _ => Within state.stack word.tree whole
  | .done tree => Within state.stack tree whole

variable {c : Char} {text : List Char} {state : State} {tree whole : Tree}

theorem extends_close {stack : List Frame} (kept : Extends (close stack tree) whole) :
    Within stack tree whole := by
  cases stack with
  | nil => exact kept
  | cons frame rest =>
    cases frame <;>
    · obtain ⟨more, inside⟩ := kept
      rw [append_assoc] at inside
      exact ⟨more, inside⟩

theorem Letters.step_grows {letters next : Letters} {later : List Char}
    (stepped : letters.step text c = some (later, next)) : text <+: later := by
  have whole : text <+: text := prefix_rfl
  have more : ∀ d, text <+: text ++ [d] := fun d => prefix_append text [d]
  cases letters with
  | plain => simp only [Letters.step] at stepped; grind
  | escape => simp only [Letters.step] at stepped; grind [Option.map_eq_some_iff]
  | hex left value =>
    obtain ⟨digit, _, stepped⟩ := Option.bind_eq_some_iff.mp stepped
    cases left <;> grind
  | surrogate lead | surrogateEscape lead => simp only [Letters.step] at stepped; grind
  | surrogateHex lead left value =>
    obtain ⟨digit, _, stepped⟩ := Option.bind_eq_some_iff.mp stepped
    cases left <;> grind

/-- What comes later keeps what came before: read backwards, no step loses anything. -/
theorem Move.extends {next : State} (move : Move state c next) (kept : Extends next whole) :
    Extends state whole := by
  induction move with
  | space => exact kept
  | openArray stack =>
    obtain ⟨items, inside⟩ := kept
    exact ⟨.array items, inside⟩
  | openObject stack =>
    obtain ⟨fields, inside⟩ := kept
    exact ⟨.object fields, inside⟩
  | openString stack =>
    obtain ⟨full, _, inside⟩ := kept
    exact ⟨.string full, inside⟩
  | openWord stack word => exact ⟨word.tree, kept⟩
  | openNumber stack digits =>
    obtain ⟨full, _, inside⟩ := kept
    exact ⟨.number full, inside⟩
  | firstItem _ ih =>
    obtain ⟨first, more, inside⟩ := ih kept
    exact ⟨first :: more, inside⟩
  | noItem stack => exact ⟨[], extends_close kept⟩
  | comma stack items =>
    obtain ⟨inner, more, inside⟩ := kept
    exact ⟨inner :: more, inside⟩
  | endArray stack items =>
    have inside := extends_close kept
    exact ⟨[], by rwa [append_nil]⟩
  | noKey stack => exact ⟨[], extends_close kept⟩
  | firstKey stack => exact kept
  | memberComma => exact kept
  | endObject stack fields =>
    have inside := extends_close kept
    exact ⟨[], by rwa [append_nil]⟩
  | key => exact kept
  | keyLetter => exact kept
  | endKey => exact kept
  | colon stack fields key =>
    obtain ⟨inner, more, inside⟩ := kept
    exact ⟨(key, inner) :: more, inside⟩
  | letter stack letter _ =>
    obtain ⟨full, front, inside⟩ := kept
    exact ⟨full, (Letters.step_grows letter).trans front, inside⟩
  | endString stack text => exact ⟨text, prefix_rfl, extends_close kept⟩
  | digit stack text digits next =>
    obtain ⟨full, front, inside⟩ := kept
    exact ⟨full, (prefix_append text _).trans front, inside⟩
  | @endNumber stack text _ _ digits _ ih =>
    exact ⟨text, prefix_rfl, extends_close (ih kept)⟩
  | wordLetter => exact kept
  | endWord => exact extends_close kept

theorem run_extends {last : State} (reached : run state text = some last)
    (kept : Extends last whole) : Extends state whole := by
  induction text generalizing state with
  | nil => cases reached; exact kept
  | cons c rest ih =>
    obtain ⟨next, stepped, rest⟩ := Option.bind_eq_some_iff.mp reached
    exact (step_move stepped).extends (ih rest)

theorem finish_extends (finished : finish state = some tree) : Extends state tree := by
  unfold finish at finished
  split at finished
  case h_1 => cases finished; exact rfl
  case h_2 =>
    split at finished
    case isTrue => cases finished; exact ⟨_, prefix_rfl, rfl⟩
    case isFalse => cases finished
  case h_3 => cases finished

theorem read_extends {front back : List Char} (reached : run start front = some state)
    (document : read (front ++ back) = some whole) :
    Extends state whole := by
  rw [read, run_append, reached, Option.bind_some] at document
  obtain ⟨last, rest, finished⟩ := Option.bind_eq_some_iff.mp document
  exact run_extends rest (finish_extends finished)

theorem finish_approx (finished : finish state = some tree) (kept : Extends state whole) :
    Approx tree whole := by
  unfold finish at finished
  split at finished
  case h_1 =>
    cases finished
    cases kept
    exact .same _
  case h_2 =>
    split at finished
    case isTrue =>
      cases finished
      obtain ⟨full, front, rfl⟩ := kept
      exact .number front
    case isFalse => cases finished
  case h_3 => cases finished

/-- The document in which the innermost value ends all open containers. -/
def least : List Frame → Tree → Tree
  | [], tree => tree
  | .items before :: rest, tree => least rest (.array (before ++ [tree]))
  | .member before key :: rest, tree => least rest (.object (before ++ [(key, tree)]))

theorem least_approx {stack : List Frame} {part inner : Tree} (inside : Within stack inner whole)
    (nearly : Approx part inner) :
    Approx (least stack part) whole := by
  induction stack generalizing part inner with
  | nil => cases inside; exact nearly
  | cons frame rest ih =>
    cases frame with
    | items before =>
      obtain ⟨more, inside⟩ := inside
      exact ih inside (.lastItem before more nearly)
    | member before key =>
      obtain ⟨more, inside⟩ := inside
      exact ih inside (.lastField before more key nearly)

def Frame.bracket : Frame → Char
  | .items _ => ']'
  | .member _ _ => '}'

def Mode.bracket : Mode → List Char
  | .firstItem | .item _ => [']']
  | .firstKey | .key _ | .keyString _ _ _ | .colon _ _ | .member _ => ['}']
  | .value | .string _ _ | .number _ _ | .word _ _ | .done _ => []

def State.brackets (state : State) : List Char :=
  state.mode.bracket ++ state.stack.map Frame.bracket

def State.closers (state : State) : List Char :=
  (if state.quoted.isSome then ['"'] else []) ++ state.brackets

theorem run_close (stack : List Frame) (tree : Tree) :
    (run (close stack tree) (stack.map Frame.bracket)).bind finish = some (least stack tree) := by
  induction stack generalizing tree with
  | nil => rfl
  | cons frame rest ih =>
    cases frame with
    | items before => exact ih (.array (before ++ [tree]))
    | member before key => exact ih (.object (before ++ [(key, tree)]))

theorem finish_quoted (inside : state.quoted.isSome) : finish state = none := by
  unfold finish
  split
  case h_1 => cases inside
  case h_2 => cases inside
  case h_3 => rfl

theorem Move.stays {next : State} (move : Move state c next) (inside : state.quoted.isSome)
    (letter : c ≠ '"') : next.quoted.isSome := by
  cases move with
  | space => exact inside
  | keyLetter => exact Option.isSome_some
  | letter => exact Option.isSome_some
  | endKey => exact absurd rfl letter
  | endString => exact absurd rfl letter
  | _ => cases inside

theorem run_inside (inside : state.quoted.isSome) (letters : '"' ∉ text) :
    (run state text).bind finish = none := by
  induction text generalizing state with
  | nil => exact finish_quoted inside
  | cons c rest ih =>
    rw [mem_cons, not_or] at letters
    rw [run]
    cases stepped : step state c with
    | none => rfl
    | some next => exact ih ((step_move stepped).stays inside (Ne.symm letters.1)) letters.2

theorem quote_not_bracket (state : State) : '"' ∉ state.brackets := by
  obtain ⟨stack, mode⟩ := state
  intro found
  rcases mem_append.mp found with found | found
  · cases mode <;> exact absurd found (by simp [Mode.bracket])
  · obtain ⟨frame, _, same⟩ := mem_map.mp found
    cases frame with
    | items before => exact absurd same (show ']' ≠ '"' by decide)
    | member before key => exact absurd same (show '}' ≠ '"' by decide)

theorem Frame.bracket_not_ordinary (frame : Frame) : ¬ Ordinary frame.bracket := by
  cases frame with
  | items before => exact show ¬ Ordinary ']' by decide
  | member before key => exact show ¬ Ordinary '}' by decide

section

variable (stack : List Frame)
include stack

theorem begin_bracket (frame : Frame) : step ⟨stack, .value⟩ frame.bracket = none := by
  cases frame <;> rfl

theorem done_bracket (tree : Tree) (frame : Frame) :
    step ⟨stack, .done tree⟩ frame.bracket = none := by
  cases frame <;> rfl

theorem word_bracket (word : Word) (count : Nat) (frame : Frame) :
    step ⟨stack, .word word count⟩ frame.bracket = none := by
  have other : word.letters[count]? ≠ some frame.bracket := fun found =>
    frame.bracket_not_ordinary (word.letters_ordinary (mem_of_getElem? found))
  simp [step, other]

theorem follow_close (tree : Tree) (c : Char) :
    follow (close stack tree) c = step (close stack tree) c := by
  cases stack with
  | nil => rfl
  | cons frame rest => cases frame <;> rfl

theorem number_bracket (text : List Char) (digits : Digits) (frame : Frame) :
    step ⟨stack, .number text digits⟩ frame.bracket =
      if digits.final then step (close stack (.number text)) frame.bracket else none := by
  have other : digits.step frame.bracket = none := by
    cases read : digits.step frame.bracket with
    | none => rfl
    | some next => exact absurd (Digits.step_ordinary read) frame.bracket_not_ordinary
  rw [← follow_close]
  simp [step, other]

end

theorem quoted_closed {letters : Letters} (inside : state.quoted = some letters)
    (completed : (run state ('"' :: state.brackets)).bind finish = some tree) :
    ∃ text, state.mode = .string text .plain := by
  rw [run] at completed
  cases stepped : step state '"' with
  | none => rw [stepped] at completed; cases completed
  | some next =>
    rw [stepped, Option.bind_some] at completed
    have outside : next.quoted.isSome = false := by
      cases state' : next.quoted.isSome with
      | false => rfl
      | true =>
        rw [run_inside state' (quote_not_bracket state)] at completed
        cases completed
    cases step_move stepped with
    | endString stack text => exact ⟨text, rfl⟩
    | endKey stack fields text => cases completed
    | keyLetter => cases outside
    | letter => cases outside
    | space outer =>
      rw [inside] at outer
      cases outer
    | _ => cases inside

theorem closed_approx {closed : Tree}
    (completed : (run state state.closers).bind finish = some closed) (kept : Extends state whole) :
    Approx closed whole := by
  obtain ⟨stack, mode⟩ := state
  cases mode with
  | value =>
    cases stack with
    | nil => cases completed
    | cons frame rest =>
      have refused := begin_bracket (frame :: rest) frame
      change ((step _ frame.bracket).bind _).bind finish = _ at completed
      rw [refused] at completed
      cases completed
  | firstItem =>
    have same := (run_close stack (.array [])).symm.trans completed
    cases same
    obtain ⟨items, inside⟩ := kept
    exact least_approx inside (.items [] items)
  | item items =>
    have same := (run_close stack (.array items)).symm.trans completed
    cases same
    obtain ⟨more, inside⟩ := kept
    exact least_approx inside (.items items more)
  | firstKey =>
    have same := (run_close stack (.object [])).symm.trans completed
    cases same
    obtain ⟨fields, inside⟩ := kept
    exact least_approx inside (.fields [] fields)
  | member fields =>
    have same := (run_close stack (.object fields)).symm.trans completed
    cases same
    obtain ⟨more, inside⟩ := kept
    exact least_approx inside (.fields fields more)
  | key fields => cases completed
  | colon fields key => cases completed
  | keyString fields text letters =>
    have inside : (⟨stack, .keyString fields text letters⟩ : State).quoted = some letters := rfl
    obtain ⟨_, found⟩ := quoted_closed inside completed
    cases found
  | string text letters =>
    have inside : (⟨stack, .string text letters⟩ : State).quoted = some letters := rfl
    obtain ⟨_, found⟩ := quoted_closed inside completed
    cases found
    have same := (run_close stack (.string text)).symm.trans completed
    cases same
    obtain ⟨full, front, inside⟩ := kept
    exact least_approx inside (.string front)
  | number text digits =>
    obtain ⟨full, front, inside⟩ := kept
    cases stack with
    | nil =>
      have bare : finish ⟨[], .number text digits⟩ = some closed := completed
      exact finish_approx bare ⟨full, front, inside⟩
    | cons frame rest =>
      have ended := number_bracket (frame :: rest) text digits frame
      change ((step _ frame.bracket).bind _).bind finish = _ at completed
      rw [ended] at completed
      split at completed
      case isTrue =>
        have same := (run_close (frame :: rest) (.number text)).symm.trans completed
        cases same
        exact least_approx inside (.number front)
      case isFalse => cases completed
  | word word count =>
    cases stack with
    | nil => cases completed
    | cons frame rest =>
      have refused := word_bracket (frame :: rest) word count frame
      change ((step _ frame.bracket).bind _).bind finish = _ at completed
      rw [refused] at completed
      cases completed
  | done tree =>
    cases stack with
    | nil =>
      have bare : finish ⟨[], .done tree⟩ = some closed := completed
      exact finish_approx bare kept
    | cons frame rest =>
      have refused := done_bracket (frame :: rest) tree frame
      change ((step _ frame.bracket).bind _).bind finish = _ at completed
      rw [refused] at completed
      cases completed

end JsonText
