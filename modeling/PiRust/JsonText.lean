import Mathlib.Data.Bool.AllAny
import Mathlib.Data.List.Basic
import Mathlib.Data.List.Nodup

/- JSON read one character at a time. A state holds the containers that are still open, and what
the text has said so far about the innermost value. -/
namespace JsonText

open List

/-- The content of a document in its own order; a number is kept as it is written. -/
inductive Tree where
  | null
  | bool (value : Bool)
  | number (text : List Char)
  | string (text : List Char)
  | array (items : List Tree)
  | object (fields : List (List Char × Tree))

/-- No object in it has a key twice. -/
inductive Tree.Distinct : Tree → Prop where
  | null : Distinct .null
  | bool (value : Bool) : Distinct (.bool value)
  | number (text : List Char) : Distinct (.number text)
  | string (text : List Char) : Distinct (.string text)
  | array {items : List Tree} (each : ∀ item ∈ items, Distinct item) : Distinct (.array items)
  | object {fields : List (List Char × Tree)} (keys : (fields.map Prod.fst).Nodup)
      (each : ∀ field ∈ fields, Distinct field.2) : Distinct (.object fields)

/-- Where a string literal stands. `left` more digits come after the next one. -/
inductive Letters where
  | plain
  | escape
  | hex (left value : Nat)
  | surrogate (lead : Nat)
  | surrogateEscape (lead : Nat)
  | surrogateHex (lead left value : Nat)
  deriving DecidableEq

/-- Where a number stands, named by what was read last. -/
inductive Digits where
  | minus
  | zero
  | integer
  | point
  | fraction
  | exponent
  | sign
  | power
  deriving DecidableEq

inductive Word where
  | yes
  | no
  | nothing

def Word.letters : Word → List Char
  | .yes => ['t', 'r', 'u', 'e']
  | .no => ['f', 'a', 'l', 's', 'e']
  | .nothing => ['n', 'u', 'l', 'l']

def Word.tree : Word → Tree
  | .yes => .bool true
  | .no => .bool false
  | .nothing => .null

/-- An open container around the innermost one. -/
inductive Frame where
  | items (before : List Tree)
  | member (before : List (List Char × Tree)) (key : List Char)

inductive Mode where
  | value
  | firstItem
  | item (items : List Tree)
  | firstKey
  | key (fields : List (List Char × Tree))
  | keyString (fields : List (List Char × Tree)) (text : List Char) (letters : Letters)
  | colon (fields : List (List Char × Tree)) (key : List Char)
  | member (fields : List (List Char × Tree))
  | string (text : List Char) (letters : Letters)
  | number (text : List Char) (digits : Digits)
  | word (word : Word) (count : Nat)
  | done (tree : Tree)

structure State where
  stack : List Frame
  mode : Mode

def start : State := ⟨[], .value⟩

def blank (c : Char) : Bool := c = ' ' ∨ c = '\t' ∨ c = '\n' ∨ c = '\r'

def digitOf (c : Char) : Option Nat :=
  if '0' ≤ c ∧ c ≤ '9' then some (c.toNat - '0'.toNat)
  else if 'a' ≤ c ∧ c ≤ 'f' then some (c.toNat - 'a'.toNat + 10)
  else if 'A' ≤ c ∧ c ≤ 'F' then some (c.toNat - 'A'.toNat + 10)
  else none

/-- The characters an escape may name, with what they stand for. -/
def named : List (Char × Char) :=
  [('"', '"'), ('\\', '\\'), ('/', '/'), ('b', '\x08'), ('f', '\x0c'), ('n', '\n'), ('r', '\r'),
    ('t', '\t')]

def isLead (value : Nat) : Prop := 0xD800 ≤ value ∧ value < 0xDC00

def isTrail (value : Nat) : Prop := 0xDC00 ≤ value ∧ value < 0xE000

instance (value : Nat) : Decidable (isLead value) := inferInstanceAs (Decidable (_ ∧ _))

instance (value : Nat) : Decidable (isTrail value) := inferInstanceAs (Decidable (_ ∧ _))

/-- A pair of surrogates is one character, and a surrogate alone is none. -/
def Letters.step (text : List Char) : Letters → Char → Option (List Char × Letters)
  | .plain, c =>
    if c = '\\' then some (text, .escape)
    else if c.toNat < 0x20 then none
    else some (text ++ [c], .plain)
  | .escape, c =>
    if c = 'u' then some (text, .hex 3 0)
    else (named.lookup c).map fun meant => (text ++ [meant], .plain)
  | .hex left value, c =>
    (digitOf c).bind fun digit =>
      let value := 16 * value + digit
      match left with
      | more + 1 => some (text, .hex more value)
      | 0 =>
        if isLead value then some (text, .surrogate value)
        else if isTrail value then none
        else some (text ++ [Char.ofNat value], .plain)
  | .surrogate lead, c => if c = '\\' then some (text, .surrogateEscape lead) else none
  | .surrogateEscape lead, c => if c = 'u' then some (text, .surrogateHex lead 3 0) else none
  | .surrogateHex lead left value, c =>
    (digitOf c).bind fun digit =>
      let value := 16 * value + digit
      match left with
      | more + 1 => some (text, .surrogateHex lead more value)
      | 0 =>
        if isTrail value then
          let point := 0x10000 + (lead - 0xD800) * 0x400 + (value - 0xDC00)
          some (text ++ [Char.ofNat point], .plain)
        else none

def Digits.step : Digits → Char → Option Digits
  | .minus, c => if c = '0' then some .zero else if c.isDigit then some .integer else none
  | .zero, c => if c = '.' then some .point else if c = 'e' ∨ c = 'E' then some .exponent else none
  | .integer, c =>
    if c.isDigit then some .integer
    else if c = '.' then some .point
    else if c = 'e' ∨ c = 'E' then some .exponent
    else none
  | .point, c => if c.isDigit then some .fraction else none
  | .fraction, c =>
    if c.isDigit then some .fraction
    else if c = 'e' ∨ c = 'E' then some .exponent
    else none
  | .exponent, c =>
    if c = '+' ∨ c = '-' then some .sign else if c.isDigit then some .power else none
  | .sign, c => if c.isDigit then some .power else none
  | .power, c => if c.isDigit then some .power else none

def Digits.final : Digits → Bool
  | .zero | .integer | .fraction | .power => true
  | _ => false

/-- A finished value goes into the container it stands in. -/
def close : List Frame → Tree → State
  | [], tree => ⟨[], .done tree⟩
  | .items before :: rest, tree => ⟨rest, .item (before ++ [tree])⟩
  | .member before key :: rest, tree => ⟨rest, .member (before ++ [(key, tree)])⟩

def begin (stack : List Frame) (c : Char) : Option State :=
  if c = '[' then some ⟨stack, .firstItem⟩
  else if c = '{' then some ⟨stack, .firstKey⟩
  else if c = '"' then some ⟨stack, .string [] .plain⟩
  else if c = 't' then some ⟨stack, .word .yes 1⟩
  else if c = 'f' then some ⟨stack, .word .no 1⟩
  else if c = 'n' then some ⟨stack, .word .nothing 1⟩
  else if c = '-' then some ⟨stack, .number ['-'] .minus⟩
  else (Digits.minus.step c).map fun digits => ⟨stack, .number [c] digits⟩

/-- After a value: a comma, the end of the container, or the end of the document. -/
def follow (state : State) (c : Char) : Option State :=
  if blank c then some state
  else match state.mode with
    | .item items =>
      if c = ',' then some ⟨.items items :: state.stack, .value⟩
      else if c = ']' then some (close state.stack (.array items))
      else none
    | .member fields =>
      if c = ',' then some ⟨state.stack, .key fields⟩
      else if c = '}' then some (close state.stack (.object fields))
      else none
    | _ => none

def step (state : State) (c : Char) : Option State :=
  match state.mode with
  | .value => if blank c then some state else begin state.stack c
  | .firstItem =>
    if blank c then some state
    else if c = ']' then some (close state.stack (.array []))
    else begin (.items [] :: state.stack) c
  | .firstKey =>
    if blank c then some state
    else if c = '}' then some (close state.stack (.object []))
    else if c = '"' then some ⟨state.stack, .keyString [] [] .plain⟩
    else none
  | .key fields =>
    if blank c then some state
    else if c = '"' then some ⟨state.stack, .keyString fields [] .plain⟩
    else none
  | .keyString fields text letters =>
    if letters = .plain ∧ c = '"' then some ⟨state.stack, .colon fields text⟩
    else (letters.step text c).map fun next => ⟨state.stack, .keyString fields next.1 next.2⟩
  | .colon fields key =>
    if blank c then some state
    else if c = ':' then some ⟨.member fields key :: state.stack, .value⟩
    else none
  | .string text letters =>
    if letters = .plain ∧ c = '"' then some (close state.stack (.string text))
    else (letters.step text c).map fun next => ⟨state.stack, .string next.1 next.2⟩
  | .number text digits =>
    match digits.step c with
    | some next => some ⟨state.stack, .number (text ++ [c]) next⟩
    | none => if digits.final then follow (close state.stack (.number text)) c else none
  | .word word count =>
    if word.letters[count]? ≠ some c then none
    else if count + 1 = word.letters.length then some (close state.stack word.tree)
    else some ⟨state.stack, .word word (count + 1)⟩
  | .item _ | .member _ | .done _ => follow state c

def finish : State → Option Tree
  | ⟨[], .done tree⟩ => some tree
  | ⟨[], .number text digits⟩ => if digits.final then some (.number text) else none
  | _ => none

def run (state : State) : List Char → Option State
  | [] => some state
  | c :: rest => (step state c).bind fun next => run next rest

def read (text : List Char) : Option Tree := (run start text).bind finish

theorem run_append (state : State) (front back : List Char) :
    run state (front ++ back) = (run state front).bind fun next => run next back := by
  induction front generalizing state with
  | nil => rfl
  | cons c rest ih =>
    simp only [cons_append, run]
    cases step state c with
    | none => rfl
    | some next => exact ih next

def State.quoted (state : State) : Option Letters :=
  match state.mode with
  | .string _ letters | .keyString _ _ letters => some letters
  | _ => none

def Ordinary (c : Char) : Prop :=
  c ∉ ['"', '\\', '[', ']', '{', '}'] ∧ 0x20 ≤ c.toNat

instance (c : Char) : Decidable (Ordinary c) := inferInstanceAs (Decidable (_ ∧ _))

/-- The steps of the reader, as rules. -/
inductive Move : State → Char → State → Prop where
  | space {state : State} {c : Char} (outside : state.quoted = none) (gap : blank c = true) :
      Move state c state
  | openArray (stack : List Frame) : Move ⟨stack, .value⟩ '[' ⟨stack, .firstItem⟩
  | openObject (stack : List Frame) : Move ⟨stack, .value⟩ '{' ⟨stack, .firstKey⟩
  | openString (stack : List Frame) : Move ⟨stack, .value⟩ '"' ⟨stack, .string [] .plain⟩
  | openWord (stack : List Frame) (word : Word) {c : Char} (ordinary : Ordinary c) :
      Move ⟨stack, .value⟩ c ⟨stack, .word word 1⟩
  | openNumber (stack : List Frame) (digits : Digits) {c : Char} (ordinary : Ordinary c) :
      Move ⟨stack, .value⟩ c ⟨stack, .number [c] digits⟩
  | firstItem {stack : List Frame} {c : Char} {next : State}
      (entered : Move ⟨.items [] :: stack, .value⟩ c next) : Move ⟨stack, .firstItem⟩ c next
  | noItem (stack : List Frame) : Move ⟨stack, .firstItem⟩ ']' (close stack (.array []))
  | comma (stack : List Frame) (items : List Tree) :
      Move ⟨stack, .item items⟩ ',' ⟨.items items :: stack, .value⟩
  | endArray (stack : List Frame) (items : List Tree) :
      Move ⟨stack, .item items⟩ ']' (close stack (.array items))
  | noKey (stack : List Frame) : Move ⟨stack, .firstKey⟩ '}' (close stack (.object []))
  | firstKey (stack : List Frame) :
      Move ⟨stack, .firstKey⟩ '"' ⟨stack, .keyString [] [] .plain⟩
  | memberComma (stack : List Frame) (fields : List (List Char × Tree)) :
      Move ⟨stack, .member fields⟩ ',' ⟨stack, .key fields⟩
  | endObject (stack : List Frame) (fields : List (List Char × Tree)) :
      Move ⟨stack, .member fields⟩ '}' (close stack (.object fields))
  | key (stack : List Frame) (fields : List (List Char × Tree)) :
      Move ⟨stack, .key fields⟩ '"' ⟨stack, .keyString fields [] .plain⟩
  | keyLetter (stack : List Frame) (fields : List (List Char × Tree)) {c : Char}
      {text later : List Char} {letters next : Letters}
      (letter : letters.step text c = some (later, next)) (inside : letters ≠ .plain ∨ c ≠ '"') :
      Move ⟨stack, .keyString fields text letters⟩ c ⟨stack, .keyString fields later next⟩
  | endKey (stack : List Frame) (fields : List (List Char × Tree)) (text : List Char) :
      Move ⟨stack, .keyString fields text .plain⟩ '"' ⟨stack, .colon fields text⟩
  | colon (stack : List Frame) (fields : List (List Char × Tree)) (key : List Char) :
      Move ⟨stack, .colon fields key⟩ ':' ⟨.member fields key :: stack, .value⟩
  | letter (stack : List Frame) {c : Char} {text later : List Char} {letters next : Letters}
      (letter : letters.step text c = some (later, next)) (inside : letters ≠ .plain ∨ c ≠ '"') :
      Move ⟨stack, .string text letters⟩ c ⟨stack, .string later next⟩
  | endString (stack : List Frame) (text : List Char) :
      Move ⟨stack, .string text .plain⟩ '"' (close stack (.string text))
  | digit (stack : List Frame) (text : List Char) (digits next : Digits) {c : Char}
      (ordinary : Ordinary c) :
      Move ⟨stack, .number text digits⟩ c ⟨stack, .number (text ++ [c]) next⟩
  | endNumber {stack : List Frame} {text : List Char} {c : Char} {next : State} (digits : Digits)
      (after : Move (close stack (.number text)) c next) : Move ⟨stack, .number text digits⟩ c next
  | wordLetter (stack : List Frame) (word : Word) (count : Nat) {c : Char}
      (ordinary : Ordinary c) :
      Move ⟨stack, .word word count⟩ c ⟨stack, .word word (count + 1)⟩
  | endWord (stack : List Frame) (word : Word) (count : Nat) {c : Char} (ordinary : Ordinary c) :
      Move ⟨stack, .word word count⟩ c (close stack word.tree)

variable {c : Char} {letters : Letters} {later text : List Char} {next state : State}

theorem Ordinary.of_digit (digit : c.isDigit = true) : Ordinary c := by
  constructor
  · intro special
    simp only [mem_cons, not_mem_nil, or_false] at special
    rcases special with rfl | rfl | rfl | rfl | rfl | rfl <;> exact absurd digit (by decide)
  · simp only [Char.isDigit, Bool.and_eq_true, decide_eq_true_eq] at digit
    have least : 48 ≤ c.val.toNat := UInt32.le_iff_toNat_le.mp digit.1
    exact Nat.le_trans (by decide) least

theorem Digits.step_ordinary {digits next : Digits} (stepped : digits.step c = some next) :
    Ordinary c := by
  by_cases digit : c.isDigit = true
  · exact .of_digit digit
  · have among : c ∈ ['.', 'e', 'E', '+', '-', '0'] := by
      cases digits <;> simp only [Digits.step] at stepped <;> grind
    have marks : ∀ c ∈ ['.', 'e', 'E', '+', '-', '0'], Ordinary c :=
      all_iff_forall_prop.mp (by decide)
    exact marks c among

theorem Word.letters_ordinary (word : Word) (letter : c ∈ word.letters) : Ordinary c := by
  have each : ∀ c ∈ word.letters, Ordinary c := all_iff_forall_prop.mp (by cases word <;> decide)
  exact each c letter

theorem close_quoted (stack : List Frame) (tree : Tree) : (close stack tree).quoted = none := by
  cases stack with
  | nil => rfl
  | cons frame rest => cases frame <;> rfl

theorem begin_move {stack : List Frame} (begun : begin stack c = some next) :
    Move ⟨stack, .value⟩ c next := by
  unfold begin at begun
  split at begun
  case isTrue h => cases h; cases begun; exact .openArray stack
  split at begun
  case isTrue h => cases h; cases begun; exact .openObject stack
  split at begun
  case isTrue h => cases h; cases begun; exact .openString stack
  split at begun
  case isTrue h => cases h; cases begun; exact .openWord stack .yes (by decide)
  split at begun
  case isTrue h => cases h; cases begun; exact .openWord stack .no (by decide)
  split at begun
  case isTrue h => cases h; cases begun; exact .openWord stack .nothing (by decide)
  split at begun
  case isTrue h => cases h; cases begun; exact .openNumber stack .minus (by decide)
  obtain ⟨digits, stepped, rfl⟩ := Option.map_eq_some_iff.mp begun
  exact .openNumber stack digits (Digits.step_ordinary stepped)

theorem follow_move (outside : state.quoted = none) (followed : follow state c = some next) :
    Move state c next := by
  obtain ⟨stack, mode⟩ := state
  unfold follow at followed
  split at followed
  case isTrue gap => cases followed; exact .space outside gap
  split at followed
  case h_1 items found =>
    cases found
    split at followed
    case isTrue h => cases h; cases followed; exact .comma stack items
    split at followed
    case isTrue h => cases h; cases followed; exact .endArray stack items
    cases followed
  case h_2 fields found =>
    cases found
    split at followed
    case isTrue h => cases h; cases followed; exact .memberComma stack fields
    split at followed
    case isTrue h => cases h; cases followed; exact .endObject stack fields
    cases followed
  case h_3 => cases followed

theorem step_move (stepped : step state c = some next) : Move state c next := by
  obtain ⟨stack, mode⟩ := state
  cases mode with
  | value =>
    simp only [step] at stepped
    split at stepped
    case isTrue gap => cases stepped; exact .space rfl gap
    exact begin_move stepped
  | firstItem =>
    simp only [step] at stepped
    split at stepped
    case isTrue gap => cases stepped; exact .space rfl gap
    split at stepped
    case isTrue h => cases h; cases stepped; exact .noItem stack
    exact .firstItem (begin_move stepped)
  | item items => exact follow_move rfl stepped
  | firstKey =>
    simp only [step] at stepped
    split at stepped
    case isTrue gap => cases stepped; exact .space rfl gap
    split at stepped
    case isTrue h => cases h; cases stepped; exact .noKey stack
    split at stepped
    case isTrue h => cases h; cases stepped; exact .firstKey stack
    cases stepped
  | key fields =>
    simp only [step] at stepped
    split at stepped
    case isTrue gap => cases stepped; exact .space rfl gap
    split at stepped
    case isTrue h => cases h; cases stepped; exact .key stack fields
    cases stepped
  | keyString fields text letters =>
    simp only [step] at stepped
    split at stepped
    case isTrue closed =>
      obtain ⟨rfl, rfl⟩ := closed
      cases stepped
      exact .endKey stack fields text
    case isFalse inside =>
      obtain ⟨later, letter, rfl⟩ := Option.map_eq_some_iff.mp stepped
      exact .keyLetter stack fields letter (not_and_or.mp inside)
  | colon fields key =>
    simp only [step] at stepped
    split at stepped
    case isTrue gap => cases stepped; exact .space rfl gap
    split at stepped
    case isTrue h => cases h; cases stepped; exact .colon stack fields key
    cases stepped
  | member fields => exact follow_move rfl stepped
  | string text letters =>
    simp only [step] at stepped
    split at stepped
    case isTrue closed =>
      obtain ⟨rfl, rfl⟩ := closed
      cases stepped
      exact .endString stack text
    case isFalse inside =>
      obtain ⟨later, letter, rfl⟩ := Option.map_eq_some_iff.mp stepped
      exact .letter stack letter (not_and_or.mp inside)
  | number text digits =>
    simp only [step] at stepped
    split at stepped
    case h_1 next reads =>
      cases stepped
      exact .digit stack text digits next (Digits.step_ordinary reads)
    case h_2 =>
      split at stepped
      case isTrue =>
        exact .endNumber digits (follow_move (close_quoted stack _) stepped)
      case isFalse => cases stepped
  | word word count =>
    simp only [step] at stepped
    split at stepped
    case isTrue => cases stepped
    case isFalse right =>
      have ordinary : Ordinary c := word.letters_ordinary (mem_of_getElem? (not_not.mp right))
      split at stepped
      case isTrue => cases stepped; exact .endWord stack word count ordinary
      case isFalse => cases stepped; exact .wordLetter stack word count ordinary
  | done tree => exact follow_move rfl stepped

def Letters.escaping : Letters → Bool
  | .escape | .surrogateEscape _ => true
  | _ => false

theorem Letters.step_escaping {next : Letters} (escaping : letters.escaping = true)
    (stepped : letters.step text c = some (later, next)) :
    c ∈ 'u' :: named.map Prod.fst := by
  cases letters with
  | escape =>
    simp only [Letters.step] at stepped
    split at stepped
    case isTrue same => exact mem_cons.mpr (.inl same)
    case isFalse =>
      obtain ⟨meant, found, _⟩ := Option.map_eq_some_iff.mp stepped
      obtain ⟨front, back, split, _⟩ := lookup_eq_some_iff.mp found
      have member : (c, meant) ∈ named := by
        rw [split]
        exact mem_append_right _ mem_cons_self
      exact mem_cons_of_mem _ (mem_map_of_mem member)
  | surrogateEscape lead =>
    simp only [Letters.step] at stepped
    split at stepped
    case isTrue same => exact mem_cons.mpr (.inl same)
    case isFalse => cases stepped
  | _ => cases escaping

theorem digitOf_backslash : digitOf '\\' = none := by decide

theorem Letters.step_opens {next : Letters} (stepped : letters.step text c = some (later, next)) :
    next.escaping = (!letters.escaping && decide (c = '\\')) := by
  cases letters with
  | plain => simp only [Letters.step] at stepped; grind [Letters.escaping]
  | escape =>
    simp only [Letters.step] at stepped
    grind [Letters.escaping, Option.map_eq_some_iff]
  | surrogate lead => simp only [Letters.step] at stepped; grind [Letters.escaping]
  | surrogateEscape lead => simp only [Letters.step] at stepped; grind [Letters.escaping]
  | hex left value =>
    obtain ⟨digit, found, stepped⟩ := Option.bind_eq_some_iff.mp stepped
    have other : c ≠ '\\' := fun same => by simp [same, digitOf_backslash] at found
    cases left <;> grind [Letters.escaping]
  | surrogateHex lead left value =>
    obtain ⟨digit, found, stepped⟩ := Option.bind_eq_some_iff.mp stepped
    have other : c ≠ '\\' := fun same => by simp [same, digitOf_backslash] at found
    cases left <;> grind [Letters.escaping]

theorem Letters.step_backslash {next : Letters}
    (stepped : letters.step text '\\' = some (later, next)) :
    next.escaping = true ∨ next = .plain := by
  cases letters with
  | plain => cases stepped; exact .inl rfl
  | escape => cases stepped; exact .inr rfl
  | surrogate lead => cases stepped; exact .inl rfl
  | _ => cases stepped

theorem digitOf_visible {digit : Nat} (found : digitOf c = some digit) : 0x20 ≤ c.toNat := by
  have above : ∀ d : Char, d ≤ c → d.toNat ≤ c.toNat := fun d le => UInt32.le_iff_toNat_le.mp le
  unfold digitOf at found
  split at found
  case isTrue range => exact Nat.le_trans (by decide) (above _ range.1)
  split at found
  case isTrue range => exact Nat.le_trans (by decide) (above _ range.1)
  split at found
  case isTrue range => exact Nat.le_trans (by decide) (above _ range.1)
  cases found

theorem Letters.step_visible {next : Letters} (stepped : letters.step text c = some (later, next)) :
    0x20 ≤ c.toNat := by
  have escapes : ∀ c ∈ 'u' :: named.map Prod.fst, 0x20 ≤ c.toNat :=
    all_iff_forall_prop.mp (by decide)
  cases letters with
  | plain =>
    simp only [Letters.step] at stepped
    split at stepped
    case isTrue same => rw [same]; decide
    case isFalse =>
      split at stepped
      case isTrue => cases stepped
      case isFalse visible => exact Nat.le_of_not_lt visible
  | escape => exact escapes c (step_escaping rfl stepped)
  | surrogateEscape lead => exact escapes c (step_escaping rfl stepped)
  | surrogate lead =>
    simp only [Letters.step] at stepped
    split at stepped
    case isTrue same => rw [same]; decide
    case isFalse => cases stepped
  | hex left value =>
    obtain ⟨digit, found, _⟩ := Option.bind_eq_some_iff.mp stepped
    exact digitOf_visible found
  | surrogateHex lead left value =>
    obtain ⟨digit, found, _⟩ := Option.bind_eq_some_iff.mp stepped
    exact digitOf_visible found

/-- No text that can still become a document has a control character in it, blanks apart. -/
theorem Move.visible (move : Move state c next) : 0x20 ≤ c.toNat ∨ blank c = true := by
  induction move with
  | space _ gap => exact .inr gap
  | openWord _ _ ordinary => exact .inl ordinary.2
  | openNumber _ _ ordinary => exact .inl ordinary.2
  | firstItem _ ih => exact ih
  | keyLetter _ _ letter => exact .inl (Letters.step_visible letter)
  | letter _ letter => exact .inl (Letters.step_visible letter)
  | digit _ _ _ _ ordinary => exact .inl ordinary.2
  | endNumber _ _ ih => exact ih
  | wordLetter _ _ _ ordinary => exact .inl ordinary.2
  | endWord _ _ _ ordinary => exact .inl ordinary.2
  | _ => exact .inl (by decide)

theorem Move.escaped (move : Move state c next) (inside : state.quoted = some letters)
    (escaping : letters.escaping = true) : c ∈ 'u' :: named.map Prod.fst := by
  cases move with
  | space outside => rw [inside] at outside; cases outside
  | keyLetter _ _ letter => cases inside; exact Letters.step_escaping escaping letter
  | letter _ letter => cases inside; exact Letters.step_escaping escaping letter
  | endKey => cases inside; cases escaping
  | endString => cases inside; cases escaping
  | _ => cases inside

theorem Move.backslash (move : Move state '\\' next) :
    ∃ letters, next.quoted = some letters ∧ (letters.escaping = true ∨ letters = .plain) := by
  generalize same : '\\' = c at move
  induction move with
  | space _ gap => subst same; exact absurd gap (by decide)
  | openWord _ _ ordinary | openNumber _ _ ordinary => subst same; exact absurd ordinary (by decide)
  | firstItem _ ih => exact ih same
  | keyLetter _ _ letter => subst same; exact ⟨_, rfl, Letters.step_backslash letter⟩
  | letter _ letter => subst same; exact ⟨_, rfl, Letters.step_backslash letter⟩
  | digit _ _ _ _ ordinary => subst same; exact absurd ordinary (by decide)
  | endNumber _ _ ih => exact ih same
  | wordLetter _ _ _ ordinary => subst same; exact absurd ordinary (by decide)
  | endWord _ _ _ ordinary => subst same; exact absurd ordinary (by decide)
  | _ => exact absurd same (by decide)

theorem step_plain_backslash (plain : state.quoted = some .plain) :
    ∃ next, step state '\\' = some next ∧ next.quoted = some .escape := by
  obtain ⟨stack, mode⟩ := state
  cases mode with
  | keyString fields text letters => cases plain; exact ⟨_, rfl, rfl⟩
  | string text letters => cases plain; exact ⟨_, rfl, rfl⟩
  | _ => cases plain

end JsonText
