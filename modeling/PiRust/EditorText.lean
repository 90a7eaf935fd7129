import PiRust.EditTool

/- What `components/editor.rs` asks of a text, with `utils/ansi.rs`, `word_navigation.rs` and
`visible_width`. A position counts characters: the source counts bytes, and every position it
keeps is between two characters. -/
namespace PiRust.Editing

open EditTool (Str splitChar joinLines)

/-- Grapheme clusters and their widths, of `unicode_segmentation` and `unicode_width`. -/
structure Unicode where
  graphemes : Str → List Str
  width : Str → Nat
  alphanumeric : Char → Bool
  flatten : ∀ text, (graphemes text).flatten = text
  nonempty : ∀ text, ∀ cluster ∈ graphemes text, cluster ≠ []

def isAsciiPunctuation (c : Char) : Bool :=
  let code := c.toNat
  (0x21 ≤ code && code ≤ 0x2F) || (0x3A ≤ code && code ≤ 0x40) ||
    (0x5B ≤ code && code ≤ 0x60) || (0x7B ≤ code && code ≤ 0x7E)

def isSeparator (c : Char) : Bool := isWhitespace c || isAsciiPunctuation c

/-- The loop of `find_word_backward`, over the characters from the cursor back. -/
def wordBackward : Str → Bool → Nat → Nat
  | [], _, boundary => boundary
  | c :: rest, inWord, boundary =>
    if isSeparator c then
      if inWord then rest.length + 1 else wordBackward rest inWord boundary
    else wordBackward rest true rest.length

def findWordBackward (text : Str) (cursor : Nat) : Nat :=
  wordBackward (text.take cursor).reverse false 0

/-- The loop of `find_word_forward`. -/
def wordForward (offset : Nat) : Str → Bool → Nat
  | [], _ => offset
  | c :: rest, seenWord =>
    if isSeparator c then
      if seenWord then offset else wordForward (offset + 1) rest seenWord
    else wordForward (offset + 1) rest true

def findWordForward (text : Str) (cursor : Nat) : Nat := wordForward cursor (text.drop cursor) false

def currentLineStart (text : Str) (cursor : Nat) : Nat :=
  let before := text.take cursor
  before.length - (before.reverse.takeWhile (· ≠ '\n')).length

def currentLineEnd (text : Str) (cursor : Nat) : Nat :=
  cursor + ((text.drop cursor).takeWhile (· ≠ '\n')).length

section graphemes

variable (unicode : Unicode)

def previousGraphemeBoundary (text : Str) (cursor : Nat) : Nat :=
  ((unicode.graphemes (text.take cursor)).dropLast.map List.length).sum

def nextGraphemeBoundary (text : Str) (cursor : Nat) : Nat :=
  match unicode.graphemes (text.drop cursor) with
  | first :: _ :: _ => cursor + first.length
  | _ => text.length

def isSinglePlainWordGrapheme (text : Str) : Bool :=
  match unicode.graphemes text with
  | [grapheme] => grapheme.all fun c => !isSeparator c
  | _ => false

end graphemes

def locate (cursor : Nat) : List Str → Nat → Nat → Nat × Nat → Nat × Nat
  | [], _, _, found => found
  | line :: rest, index, offset, found =>
    locate cursor rest (index + 1) (offset + line.length + 1)
      (if offset ≤ cursor ∧ cursor ≤ offset + line.length then (index, cursor - offset)
      else found)

def linesAndCursor (text : Str) (cursor : Nat) : List Str × Nat × Nat :=
  (splitChar '\n' text, locate cursor (splitChar '\n' text) 0 0 (0, 0))

def cursorFromLineCol : List Str → Nat → Nat → Nat
  | [], _, _ => 0
  | line :: _, 0, column => min column line.length
  | [line], _ + 1, _ => line.length
  | line :: rest, row + 1, column => line.length + 1 + cursorFromLineCol rest row column

section jump

def findText (text target : Str) : Option Nat := Splice.find (fun _ => 1) target text

/-- Where `target` last stands in a text. -/
def rfindText (text target : Str) : Option Nat :=
  ((List.range (text.length + 1)).reverse).find? fun index => target.isPrefixOf (text.drop index)

end jump

section paste

/-- `str::parse::<u8>`. -/
def parseU8 (code : Str) : Option Nat :=
  let digits := if code.head? = some '+' then code.tail else code
  if digits ≠ [] ∧ digits.all Char.isDigit then
    let value := digits.foldl (fun sum digit => sum * 10 + (digit.toNat - 48)) 0
    if value < 256 then some value else none
  else none

/-- The character of a control key that `ESC [ code ; 5 u` stands for. -/
def controlChar (code : Str) : Option Char :=
  (parseU8 code).bind fun codepoint =>
    if 97 ≤ codepoint ∧ codepoint ≤ 122 then some (Char.ofNat (codepoint - 96))
    else if 65 ≤ codepoint ∧ codepoint ≤ 90 then some (Char.ofNat (codepoint - 64))
    else none

/-- The loop of `decode_csi_u_control_bytes`; each turn takes at least one character. -/
def decodeControlBytes : Nat → Str → Str
  | 0, rest => rest
  | turns + 1, rest =>
    match findText rest ['\x1b', '['] with
    | none => rest
    | some start =>
      let afterStart := rest.drop (start + 2)
      match findText afterStart [';', '5', 'u'] with
      | none => rest
      | some «end» =>
        let onward := decodeControlBytes turns (afterStart.drop («end» + 3))
        match controlChar (afterStart.take «end») with
        | some control => rest.take start ++ control :: onward
        | none => rest.take (start + 2 + «end» + 3) ++ onward

def decodeCsiUControlBytes (text : Str) : Str := decodeControlBytes text.length text

def cleanPasteText (text : Str) : Str :=
  let decoded := decodeCsiUControlBytes text
  let lines := Splice.replaceAll ['\r'] ['\n'] (Splice.replaceAll ['\r', '\n'] ['\n'] decoded)
  (Splice.replaceAll ['\t'] [' ', ' ', ' ', ' '] lines).filter fun c => c = '\n' ∨ ' ' ≤ c

def startsLikePath (text : Str) : Bool :=
  match text.head? with
  | some c => c = '/' ∨ c = '~' ∨ c = '.'
  | none => false

def lineCount (text : Str) : Nat := (splitChar '\n' text).length

def pasteMarker (pasteId : Nat) (text : Str) : Str :=
  if lineCount text > 10 then
    "[paste #".toList ++ (toString pasteId).toList ++ " +".toList ++
      (toString (lineCount text)).toList ++ " lines]".toList
  else
    "[paste #".toList ++ (toString pasteId).toList ++ " ".toList ++
      (toString text.length).toList ++ " chars]".toList

end paste

end PiRust.Editing
