import Mathlib.Algebra.Ring.Nat
import PiRust.Framing

/- The operations of Rust's `str` and `String` that the modelled code calls. -/
namespace PiRust

open List

abbrev Bytes := List UInt8

/-- A multi-byte character that is not finished: its bits so far, how many
bytes it is still owed, and the bounds of the next one. -/
structure Utf8Pending where
  value : Nat
  owed : Nat
  low : Nat
  high : Nat

def replacementChar : Char := Char.ofNat 0xFFFD

def utf8Begin (byte : Nat) : List Char × Option Utf8Pending :=
  if byte < 0x80 then ([Char.ofNat byte], none)
  else if 0xC2 ≤ byte ∧ byte ≤ 0xDF then ([], some ⟨byte - 0xC0, 1, 0x80, 0xBF⟩)
  else if byte = 0xE0 then ([], some ⟨0, 2, 0xA0, 0xBF⟩)
  else if byte = 0xED then ([], some ⟨0xD, 2, 0x80, 0x9F⟩)
  else if 0xE1 ≤ byte ∧ byte ≤ 0xEF then ([], some ⟨byte - 0xE0, 2, 0x80, 0xBF⟩)
  else if byte = 0xF0 then ([], some ⟨0, 3, 0x90, 0xBF⟩)
  else if 0xF1 ≤ byte ∧ byte ≤ 0xF3 then ([], some ⟨byte - 0xF0, 3, 0x80, 0xBF⟩)
  else if byte = 0xF4 then ([], some ⟨4, 3, 0x80, 0x8F⟩)
  else ([replacementChar], none)

def utf8Step (pending : Option Utf8Pending) (byte : Nat) : List Char × Option Utf8Pending :=
  match pending with
  | none => utf8Begin byte
  | some sequence =>
    if sequence.low ≤ byte ∧ byte ≤ sequence.high then
      let value := sequence.value * 64 + (byte - 0x80)
      if sequence.owed = 1 then ([Char.ofNat value], none)
      else ([], some ⟨value, sequence.owed - 1, 0x80, 0xBF⟩)
    else
      -- The cut-off sequence is replaced; its successor is read on its own.
      (replacementChar :: (utf8Begin byte).1, (utf8Begin byte).2)

def utf8Decode : Option Utf8Pending → Bytes → List Char
  | none, [] => []
  | some _, [] => [replacementChar]
  | pending, byte :: rest =>
    (utf8Step pending byte.toNat).1 ++ utf8Decode (utf8Step pending byte.toNat).2 rest

/-- `String::from_utf8_lossy`. -/
def fromUtf8Lossy (bytes : Bytes) : String := String.ofList (utf8Decode none bytes)

def asciiBytes (text : String) : Bytes := text.toList.map fun c => UInt8.ofNat c.toNat

def Printable (text : String) : Prop := ∀ c ∈ text.toList, 0x20 ≤ c.toNat ∧ c.toNat < 0x7F

instance (text : String) : Decidable (Printable text) :=
  decidableBAll (fun c : Char => 0x20 ≤ c.toNat ∧ c.toNat < 0x7F) text.toList

theorem printable_ofList {letters : List Char}
    (plain : letters.all fun c => 0x20 ≤ c.toNat ∧ c.toNat < 0x7F) :
    Printable (String.ofList letters) := by
  rw [Printable, String.toList_ofList]
  intro c member
  exact of_decide_eq_true (all_eq_true.mp plain c member)

theorem printable_append {text more : String} (printable : Printable text)
    (rest : Printable more) : Printable (text ++ more) := by
  intro c member
  rw [String.toList_append, mem_append] at member
  exact member.elim (printable c) (rest c)

theorem ofList_append_ne {c d : Char} (apart : c ≠ d) (letters word : List Char) (rest : String) :
    String.ofList (c :: letters) ++ rest ≠ String.ofList (d :: word) := by
  intro same
  have lists := congrArg String.toList same
  rw [String.toList_append, String.toList_ofList, String.toList_ofList, cons_append,
    cons.injEq] at lists
  exact apart lists.1

theorem ofList_ne {c d : Char} (apart : c ≠ d) (letters word : List Char) :
    String.ofList (c :: letters) ≠ String.ofList (d :: word) := by
  intro same
  have lists := congrArg String.toList same
  rw [String.toList_ofList, String.toList_ofList, cons.injEq] at lists
  exact apart lists.1

theorem utf8Decode_ascii {chars : List Char} (small : ∀ c ∈ chars, c.toNat < 0x80) :
    utf8Decode none (chars.map fun c => UInt8.ofNat c.toNat) = chars := by
  induction chars with
  | nil => rfl
  | cons c rest ih =>
    have one : (UInt8.ofNat c.toNat).toNat = c.toNat := by
      have := small c mem_cons_self
      exact UInt8.toNat_ofNat_of_lt' (by simp only [UInt8.size]; omega)
    have here : utf8Begin c.toNat = ([c], none) := by
      simp [utf8Begin, small c mem_cons_self]
    simp [utf8Decode, utf8Step, one, here,
      ih fun c member => small c (mem_cons_of_mem _ member)]

theorem fromUtf8Lossy_asciiBytes {text : String} (printable : Printable text) :
    fromUtf8Lossy (asciiBytes text) = text := by
  rw [fromUtf8Lossy, asciiBytes, utf8Decode_ascii, String.ofList_toList]
  intro c member
  have := printable c member
  omega

def stripPrefix (lead text : String) : Option String :=
  if lead.toList.isPrefixOf text.toList then
    some (String.ofList (text.toList.drop lead.toList.length))
  else none

/-- `str::trim_end_matches` with a character pattern. -/
def trimEndMatches (unwanted : Char) (text : String) : String :=
  String.ofList (text.toList.reverse.dropWhile (· == unwanted)).reverse

def isWhitespace (c : Char) : Bool :=
  let code := c.toNat
  (0x09 ≤ code && code ≤ 0x0D) || code = 0x20 || code = 0x85 || code = 0xA0 || code = 0x1680 ||
    (0x2000 ≤ code && code ≤ 0x200A) || code = 0x2028 || code = 0x2029 || code = 0x202F ||
    code = 0x205F || code = 0x3000

def trim (text : String) : String :=
  String.ofList ((text.toList.dropWhile isWhitespace).reverse.dropWhile isWhitespace).reverse

/-- `str::lines`: a carriage return goes with the line feed that it precedes, and
nothing follows the last line feed. -/
def lines (text : String) : List String :=
  let cut := Framing.pieces '\n' text.toList
  cut.1.map (fun line =>
    String.ofList (if line.getLast? = some '\r' then line.dropLast else line)) ++
  if cut.2 = [] then [] else [String.ofList cut.2]

end PiRust
