import PiRust.JsonPrefixes
import PiRust.JsonRepairs

/- What `try_parse_streaming_json` makes of the beginning of a text, against the value of the
whole one. -/
namespace PiRust.PartialArguments

open List

open JsonText (Tree State Letters Move Approx Extends run start)

/-- A state as `close_incomplete` sees it. -/
def nestingOf (state : State) : Nesting :=
  ⟨state.brackets, state.quoted.isSome, state.quoted.any Letters.escaping⟩

variable {c : Char} {state : State}

theorem scan_ordinary (ordinary : JsonText.Ordinary c) (nesting : Nesting)
    (free : nesting.escaped = false) : nesting.scan c = nesting := by
  obtain ⟨other, _⟩ := ordinary
  simp only [mem_cons, not_mem_nil, or_false, not_or] at other
  simp [Nesting.scan, free, other]

theorem nestingOf_close (stack : List JsonText.Frame) (tree : Tree) :
    nestingOf (JsonText.close stack tree) = ⟨stack.map JsonText.Frame.bracket, false, false⟩ := by
  cases stack with
  | nil => rfl
  | cons frame rest => cases frame <;> rfl

theorem scan_inside (stack : List Char) (quote : c ≠ '"') :
    (⟨stack, true, false⟩ : Nesting).scan c = ⟨stack, true, decide (c = '\\')⟩ := by
  by_cases backslash : c = '\\' <;> simp [Nesting.scan, quote, backslash]

theorem scan_letter {letters next : Letters} {text later : List Char}
    (stepped : letters.step text c = some (later, next)) (inside : letters ≠ .plain ∨ c ≠ '"')
    (stack : List Char) :
    (⟨stack, true, letters.escaping⟩ : Nesting).scan c = ⟨stack, true, next.escaping⟩ := by
  rw [Letters.step_opens stepped]
  cases escaping : letters.escaping with
  | true => rfl
  | false =>
    have quote : c ≠ '"' := by
      rintro rfl
      cases letters with
      | plain => exact inside.elim (fun other => other rfl) (fun other => other rfl)
      | escape => cases escaping
      | surrogateEscape lead => cases escaping
      | _ => cases stepped
    exact scan_inside stack quote

theorem scan_move {next : State} (move : Move state c next) :
    (nestingOf state).scan c = nestingOf next := by
  induction move with
  | @space state c outside gap =>
    have quiet : nestingOf state = ⟨state.brackets, false, false⟩ := by
      simp [nestingOf, outside]
    rw [quiet]
    simp only [JsonText.blank, decide_eq_true_eq] at gap
    rcases gap with rfl | rfl | rfl | rfl <;> rfl
  | openArray stack => rfl
  | openObject stack => rfl
  | openString stack => rfl
  | openWord stack word ordinary => exact scan_ordinary ordinary _ rfl
  | openNumber stack digits ordinary => exact scan_ordinary ordinary _ rfl
  | firstItem _ ih => exact ih
  | noItem stack => exact (nestingOf_close stack _).symm
  | comma stack items => rfl
  | endArray stack items => exact (nestingOf_close stack _).symm
  | noKey stack => exact (nestingOf_close stack _).symm
  | firstKey stack => rfl
  | memberComma stack fields => rfl
  | endObject stack fields => exact (nestingOf_close stack _).symm
  | key stack fields => rfl
  | keyLetter stack fields letter inside => exact scan_letter letter inside _
  | endKey stack fields text => rfl
  | colon stack fields key => rfl
  | letter stack letter inside => exact scan_letter letter inside _
  | endString stack text => exact (nestingOf_close stack _).symm
  | digit stack text digits next ordinary => exact scan_ordinary ordinary _ rfl
  | @endNumber stack text c next digits _ ih => rw [← ih, nestingOf_close]; rfl
  | wordLetter stack word count ordinary => exact scan_ordinary ordinary _ rfl
  | endWord stack word count ordinary =>
    rw [nestingOf_close]
    exact scan_ordinary ordinary _ rfl

theorem scan_run {last : State} {text : List Char} (reached : run state text = some last) :
    text.foldl Nesting.scan (nestingOf state) = nestingOf last := by
  induction text generalizing state with
  | nil => cases reached; rfl
  | cons c rest ih =>
    obtain ⟨next, stepped, onward⟩ := Option.bind_eq_some_iff.mp reached
    rw [foldl_cons, scan_move (JsonText.step_move stepped), ih onward]

theorem closeIncomplete_run {text : String} (reached : run start text.toList = some state) :
    (closeIncomplete text).toList = text.toList ++ state.closers := by
  have scanned : text.toList.foldl Nesting.scan {} = nestingOf state := scan_run reached
  unfold closeIncomplete
  rw [scanned]
  cases quoted : state.quoted <;> simp [nestingOf, JsonText.State.closers, quoted]

section values

variable (number : List Char → String) (keep : List (String × Value) → List (String × Value))

mutual

/-- The value of a document, where `number` prints a number and `keep` collects members. -/
def valueOf : Tree → Value
  | .null => .null
  | .bool value => .bool value
  | .number text => .number (number text)
  | .string text => .string (String.ofList text)
  | .array items => .array (valuesOf items)
  | .object fields => .object (keep (membersOf fields))

def valuesOf : List Tree → List Value
  | [] => []
  | item :: items => valueOf item :: valuesOf items

def membersOf : List (List Char × Tree) → List (String × Value)
  | [] => []
  | (key, tree) :: fields => (String.ofList key, valueOf tree) :: membersOf fields

end

theorem valuesOf_eq_map (items : List Tree) :
    valuesOf number keep items = items.map (valueOf number keep) := by
  induction items with
  | nil => rfl
  | cons item items ih => rw [valuesOf, ih, map_cons]

theorem membersOf_eq_map (fields : List (List Char × Tree)) :
    membersOf number keep fields =
      fields.map fun field => (String.ofList field.1, valueOf number keep field.2) := by
  induction fields with
  | nil => rfl
  | cons field fields ih => rw [membersOf, ih, map_cons]

theorem membersOf_append (front back : List (List Char × Tree)) :
    membersOf number keep (front ++ back) =
      membersOf number keep front ++ membersOf number keep back := by
  simp [membersOf_eq_map]

/-- The entries of `value` are entries of `full`, at most one of them apart, which is an
approximation itself. Objects are maps: their members have no order. -/
inductive Approximates : Value → Value → Prop where
  | same (value : Value) : Approximates value value
  | string {text full : String} (front : text.toList <+: full.toList) :
      Approximates (.string text) (.string full)
  | number {text full : List Char} (front : text <+: full) :
      Approximates (.number (number text)) (.number (number full))
  | items (items more : List Value) : Approximates (.array items) (.array (items ++ more))
  | lastItem (items more : List Value) {last full : Value} (nearly : Approximates last full) :
      Approximates (.array (items ++ [last])) (.array (items ++ full :: more))
  | fields {fields wholes : List (String × Value)} (settled more : List (String × Value))
      (part : fields.Perm settled) (whole : wholes.Perm (settled ++ more)) :
      Approximates (.object fields) (.object wholes)
  | lastField {fields wholes : List (String × Value)} (settled more : List (String × Value))
      (key : String) {last full : Value} (part : fields.Perm (settled ++ [(key, last)]))
      (whole : wholes.Perm (settled ++ (key, full) :: more)) (nearly : Approximates last full) :
      Approximates (.object fields) (.object wholes)

/-- What `serde_json` is taken for: it accepts JSON only, and the map of an object whose keys are
distinct has its members, in an order of its own. -/
structure Correct (serde : Serde) : Prop where
  grammar : ∀ text value, serde.fromStr text = some value →
    ∃ tree, JsonText.read text.toList = some tree ∧ value = valueOf number keep tree
  members : ∀ entries : List (String × Value),
    (entries.map Prod.fst).Nodup → (keep entries).Perm entries

theorem membersOf_nodup {fields : List (List Char × Tree)}
    (keys : (fields.map Prod.fst).Nodup) :
    ((membersOf number keep fields).map Prod.fst).Nodup := by
  have printed : (membersOf number keep fields).map Prod.fst =
      (fields.map Prod.fst).map String.ofList := by
    rw [membersOf_eq_map, map_map, map_map]
    rfl
  rw [printed]
  exact keys.map fun _ _ same => String.ofList_injective same

variable {number keep} {serde : Serde}

theorem object_perm (correct : Correct number keep serde) {fields : List (List Char × Tree)}
    (keys : (fields.map Prod.fst).Nodup) :
    (keep (membersOf number keep fields)).Perm (membersOf number keep fields) :=
  correct.members _ (membersOf_nodup number keep keys)

theorem approximates_of_approx (correct : Correct number keep serde) {part whole : Tree}
    (nearly : Approx part whole) (distinct : whole.Distinct) :
    Approximates number (valueOf number keep part) (valueOf number keep whole) := by
  induction nearly with
  | same tree => exact .same _
  | string front =>
    simp only [valueOf]
    exact .string (by rwa [String.toList_ofList, String.toList_ofList])
  | number front => exact .number front
  | items items more =>
    simp only [valueOf, valuesOf_eq_map, map_append]
    exact .items _ _
  | lastItem items more nearly ih =>
    cases distinct with
    | array each =>
      simp only [valueOf, valuesOf_eq_map, map_append, map_cons, map_nil]
      exact .lastItem _ _ (ih (each _ (by simp)))
  | fields fields more =>
    cases distinct with
    | object keys each =>
      have before : (fields.map Prod.fst).Nodup := by
        rw [map_append] at keys
        exact keys.of_append_left
      have whole : (keep (membersOf number keep (fields ++ more))).Perm
          (membersOf number keep fields ++ membersOf number keep more) := by
        rw [← membersOf_append]
        exact object_perm correct keys
      exact .fields _ _ (object_perm correct before) whole
  | @lastField fields more key last full nearly ih =>
    cases distinct with
    | object keys each =>
      have before : ((fields ++ [(key, last)]).map Prod.fst).Nodup := by
        have split : (fields ++ (key, full) :: more).map Prod.fst =
            (fields ++ [(key, last)]).map Prod.fst ++ more.map Prod.fst := by simp
        rw [split] at keys
        exact keys.of_append_left
      have part : (keep (membersOf number keep (fields ++ [(key, last)]))).Perm
          (membersOf number keep fields ++ [(String.ofList key, valueOf number keep last)]) := by
        have same : membersOf number keep [(key, last)] =
            [(String.ofList key, valueOf number keep last)] := rfl
        rw [← same, ← membersOf_append]
        exact object_perm correct before
      have whole : (keep (membersOf number keep (fields ++ (key, full) :: more))).Perm
          (membersOf number keep fields ++ (String.ofList key, valueOf number keep full) ::
            membersOf number keep more) := by
        rw [← membersOf, ← membersOf_append]
        exact object_perm correct keys
      have entry : (key, full) ∈ fields ++ (key, full) :: more := by simp
      exact .lastField _ _ _ part whole (ih (each (key, full) entry))

theorem tryParse_cases {input : String} {value : Value}
    (accepted : tryParseStreamingJson serde input = .ok value) :
    serde.fromStr input = some value ∨ serde.fromStr (repairJson input) = some value ∨
      serde.fromStr (closeIncomplete (repairJson input)) = some value := by
  unfold tryParseStreamingJson at accepted
  split at accepted
  case h_1 parsed => cases accepted; exact .inl parsed
  dsimp only at accepted
  split at accepted
  case h_1 parsed => cases accepted; exact .inr (.inl parsed)
  split at accepted
  case h_1 parsed => cases accepted; exact .inr (.inr parsed)
  case h_2 => cases accepted

section

variable (correct : Correct number keep serde)
include correct

theorem fromStr_stopped {text more : String} (stopped : run start text.toList = none)
    (front : text.toList <+: more.toList) : serde.fromStr more = none := by
  cases parsed : serde.fromStr more with
  | none => rfl
  | some value =>
    obtain ⟨tree, read, _⟩ := correct.grammar _ _ parsed
    obtain ⟨rest, split⟩ := front
    rw [JsonText.read, ← split, JsonText.run_append, stopped] at read
    cases read

variable {cut : String} {value : Value}

theorem accepted_cases (reached : run start cut.toList = some state)
    (accepted : tryParseStreamingJson serde cut = .ok value) :
    serde.fromStr cut = some value ∨ serde.fromStr (closeIncomplete cut) = some value := by
  rcases JsonRepairs.repairChars_run reached with same | stopped
  · have kept : repairJson cut = cut := by rw [repairJson, same, String.ofList_toList]
    rcases tryParse_cases accepted with parsed | parsed | parsed
    · exact .inl parsed
    · exact .inl (by rwa [kept] at parsed)
    · exact .inr (by rwa [kept] at parsed)
  · have broken : run start (repairJson cut).toList = none := by
      rwa [repairJson, String.toList_ofList]
    have front : (repairJson cut).toList <+: (closeIncomplete (repairJson cut)).toList := by
      simp only [closeIncomplete, String.toList_append, append_assoc]
      exact prefix_append _ _
    rcases tryParse_cases accepted with parsed | parsed | parsed
    · exact .inl parsed
    · rw [fromStr_stopped correct broken prefix_rfl] at parsed
      cases parsed
    · rw [fromStr_stopped correct broken front] at parsed
      cases parsed

theorem accepted_approx {back : List Char} {whole : Tree}
    (document : JsonText.read (cut.toList ++ back) = some whole)
    (accepted : tryParseStreamingJson serde cut = .ok value) :
    ∃ part, Approx part whole ∧ value = valueOf number keep part := by
  obtain ⟨last, reached⟩ := JsonRepairs.read_run document
  rw [JsonText.run_append] at reached
  obtain ⟨state, reached, _⟩ := Option.bind_eq_some_iff.mp reached
  have kept : Extends state whole := JsonText.read_extends reached document
  rcases accepted_cases correct reached accepted with parsed | parsed
  · obtain ⟨tree, read, same⟩ := correct.grammar _ _ parsed
    rw [JsonText.read, reached, Option.bind_some] at read
    exact ⟨tree, JsonText.finish_approx read kept, same⟩
  · obtain ⟨tree, read, same⟩ := correct.grammar _ _ parsed
    rw [closeIncomplete_run reached, JsonText.read, JsonText.run_append, reached,
      Option.bind_some] at read
    exact ⟨tree, JsonText.closed_approx read kept, same⟩

end

/-- Whatever prefix of an object's text is accepted, its value is the value of a tree that
approximates the document in the order of the text, and so approximates the full value. -/
theorem partialArguments_sound (correct : Correct number keep serde) {whole cut : String}
    {fields : List (List Char × Tree)}
    (document : JsonText.read whole.toList = some (.object fields))
    (distinct : (Tree.object fields).Distinct) (front : cut.toList <+: whole.toList)
    {value : Value} (accepted : tryParseStreamingJson serde cut = .ok value) :
    (∃ part, Approx part (.object fields) ∧ value = valueOf number keep part) ∧
      Approximates number value (valueOf number keep (.object fields)) := by
  obtain ⟨back, split⟩ := front
  rw [← split] at document
  obtain ⟨part, nearly, rfl⟩ := accepted_approx correct document accepted
  exact ⟨⟨part, nearly, rfl⟩, approximates_of_approx correct nearly distinct⟩

end values

/-- A parser that is the grammar itself, with numbers as they are written. -/
def plainSerde : Serde :=
  ⟨fun text => (JsonText.read text.toList).map (valueOf String.ofList id), fun _ => "", rfl⟩

theorem plainSerde_correct : Correct String.ofList id plainSerde := by
  constructor
  · intro text value parsed
    obtain ⟨tree, read, same⟩ := Option.map_eq_some_iff.mp parsed
    exact ⟨tree, read, same.symm⟩
  · intro entries _
    exact Perm.refl entries

/-- A string cut in the middle. -/
theorem partialArguments_sound_cut :
    Approximates String.ofList (.object [("a", .string "b")])
      (valueOf String.ofList id (.object [(['a'], .string ['b', 'c'])])) := by
  have document : JsonText.read "\x7b\"a\":\"bc\"\x7d".toList =
      some (.object [(['a'], .string ['b', 'c'])]) := by rfl
  have distinct : (Tree.object [(['a'], .string ['b', 'c'])]).Distinct :=
    .object (by simp) (by simp [Tree.Distinct.string])
  have front : "\x7b\"a\":\"b".toList <+: "\x7b\"a\":\"bc\"\x7d".toList := by decide
  have accepted : tryParseStreamingJson plainSerde "\x7b\"a\":\"b" =
      .ok (.object [("a", .string "b")]) := by
    have unfinished : plainSerde.fromStr "\x7b\"a\":\"b" = none := by rfl
    have kept : repairJson "\x7b\"a\":\"b" = "\x7b\"a\":\"b" := by decide
    have closed : closeIncomplete "\x7b\"a\":\"b" = "\x7b\"a\":\"b\"\x7d" := by
      decide
    have tree : JsonText.read "\x7b\"a\":\"b\"\x7d".toList =
        some (.object [(['a'], .string ['b'])]) := by rfl
    have parsed : plainSerde.fromStr "\x7b\"a\":\"b\"\x7d" =
        some (.object [("a", .string "b")]) :=
      congrArg (Option.map (valueOf String.ofList id)) tree
    simp [tryParseStreamingJson, unfinished, kept, closed, parsed]
  exact (partialArguments_sound plainSerde_correct document distinct front accepted).2

end PiRust.PartialArguments
