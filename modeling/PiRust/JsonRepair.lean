import PiRust.AiTypes

/- `util/json_repair.rs`: reading JSON that is still being streamed. -/
namespace PiRust

def validEscapes : List Char := ['\\', '"', '/', 'b', 'f', 'n', 'r', 't', 'u']

/-- `\u` and the four hexadecimal digits of a control character. -/
def unicodeEscape (c : Char) : List Char :=
  let digits := Nat.toDigits 16 c.toNat
  '\\' :: 'u' :: List.replicate (4 - digits.length) '0' ++ digits

def repairChars : List Char → List Char
  | [] => []
  | c :: rest =>
    (if c = '\\' then
      match rest.head? with
      | some next => if next ∈ validEscapes then ['\\'] else ['\\', '\\']
      | none => ['\\']
    else if c.toNat < 0x20 ∧ c ≠ '\t' ∧ c ≠ '\n' ∧ c ≠ '\r' then unicodeEscape c
    else [c]) ++ repairChars rest

def repairJson (input : String) : String := String.ofList (repairChars input.toList)

/-- The locals of `close_incomplete`; the innermost bracket is the first of `stack`. -/
structure Nesting where
  stack : List Char := []
  inString : Bool := false
  escaped : Bool := false

def Nesting.scan (nesting : Nesting) (c : Char) : Nesting :=
  if nesting.escaped then { nesting with escaped := false }
  else if c = '\\' ∧ nesting.inString then { nesting with escaped := true }
  else if c = '"' then { nesting with inString := !nesting.inString }
  else if c = '{' ∧ !nesting.inString then { nesting with stack := '}' :: nesting.stack }
  else if c = '[' ∧ !nesting.inString then { nesting with stack := ']' :: nesting.stack }
  else if (c = '}' ∨ c = ']') ∧ !nesting.inString then { nesting with stack := nesting.stack.tail }
  else nesting

/-- Appends the quote and the brackets that are still open. -/
def closeIncomplete (s : String) : String :=
  let nesting := s.toList.foldl Nesting.scan {}
  s ++ (if nesting.inString then "\"" else "") ++ String.ofList nesting.stack

variable (serde : Serde)

def tryParseStreamingJson (input : String) : Except String Value :=
  match serde.fromStr input with
  | some value => .ok value
  | none =>
    let repaired := repairJson input
    match serde.fromStr repaired with
    | some value => .ok value
    | none =>
      match serde.fromStr (closeIncomplete repaired) with
      | some value => .ok value
      | none => .error "malformed streaming JSON"

def parseStreamingJson (input : String) : Value :=
  match tryParseStreamingJson serde input with
  | .ok value => value
  | .error _ => Value.emptyObject

/-- The value of a finished argument text: an empty one is an empty object, any
other has to be a whole document, after escape repair at most. -/
def completeValue (text : String) : Option Value :=
  if text = "" then some Value.emptyObject
  else (serde.fromStr text).or (serde.fromStr (repairJson text))

def Complete (text : String) : Prop := (completeValue serde text).isSome

instance (text : String) : Decidable (Complete serde text) :=
  inferInstanceAs (Decidable ((completeValue serde text).isSome = true))

theorem tryParseStreamingJson_empty :
    tryParseStreamingJson serde "" = .error "malformed streaming JSON" := by
  have repaired : repairJson "" = "" := by decide
  have closed : closeIncomplete "" = "" := by decide
  simp [tryParseStreamingJson, repaired, closed, serde.fromStr_empty]

theorem parseStreamingJson_empty : parseStreamingJson serde "" = Value.emptyObject := by
  simp [parseStreamingJson, tryParseStreamingJson_empty]

theorem parseStreamingJson_ok {text : String} {value : Value}
    (parsed : tryParseStreamingJson serde text = .ok value) :
    parseStreamingJson serde text = value := by
  simp [parseStreamingJson, parsed]

theorem parseStreamingJson_complete {text : String} {value : Value}
    (whole : completeValue serde text = some value) : parseStreamingJson serde text = value := by
  unfold completeValue at whole
  by_cases empty : text = ""
  · rw [if_pos empty] at whole
    rw [empty, parseStreamingJson_empty]
    exact Option.some.inj whole
  · rw [if_neg empty] at whole
    apply parseStreamingJson_ok
    cases strict : serde.fromStr text with
    | some found =>
      rw [strict, Option.some_or] at whole
      simp [tryParseStreamingJson, strict, Option.some.inj whole]
    | none =>
      rw [strict, Option.none_or] at whole
      simp [tryParseStreamingJson, strict, whole]

theorem completeValue_eq_parse_iff (text : String) :
    completeValue serde text = some (parseStreamingJson serde text) ↔ Complete serde text := by
  constructor
  · intro same
    simp [Complete, same]
  · intro complete
    obtain ⟨value, whole⟩ := Option.isSome_iff_exists.mp complete
    rw [whole, parseStreamingJson_complete serde whole]

end PiRust
