import PiRust.JsonRepair
import PiRust.JsonText

/- `repair_json` against the grammar. It looks one character past a backslash without consuming
it, so the second backslash of a pair is taken for the start of another escape. -/
namespace PiRust.JsonRepairs

open List

open JsonText (Tree State run read start)

def Control (c : Char) : Prop := c.toNat < 0x20 ∧ c ≠ '\t' ∧ c ≠ '\n' ∧ c ≠ '\r'

instance (c : Char) : Decidable (Control c) := inferInstanceAs (Decidable (_ ∧ _))

/-- A backslash that is not the last character stands before a letter of a valid escape, or before
a control character, which becomes an escape itself. -/
def Clean (text : List Char) : Prop :=
  ∀ front next back, text = front ++ '\\' :: next :: back → next ∈ validEscapes ∨ Control next

/-- What is said of one input: as a document it keeps its meaning, and a second repair
changes nothing. -/
def Harmless (input : String) : Prop :=
  ∀ tree, read input.toList = some tree → read (repairJson input).toList = some tree

def Stable (input : String) : Prop := repairJson (repairJson input) = repairJson input

attribute [local simp] repairChars

theorem clean_cons (c : Char) (rest : List Char) :
    Clean (c :: rest) ↔
      (c = '\\' → ∀ next ∈ rest.head?, next ∈ validEscapes ∨ Control next) ∧ Clean rest := by
  constructor
  · intro clean
    constructor
    · rintro rfl next first
      obtain ⟨back, rfl⟩ := head?_eq_some_iff.mp first
      exact clean [] next back rfl
    · intro front next back split
      exact clean (c :: front) next back (by rw [split, cons_append])
  · rintro ⟨first, later⟩ front next back split
    cases front with
    | nil =>
      obtain ⟨rfl, rfl⟩ := cons.inj split
      exact first rfl next rfl
    | cons d front =>
      obtain ⟨rfl, rfl⟩ := cons.inj split
      exact later front next back rfl

theorem clean_nil : Clean [] := by
  intro front next back split
  exact absurd split (by simp)

theorem repairChars_backslash {rest : List Char}
    (valid : ∀ next ∈ rest.head?, next ∈ validEscapes) :
    repairChars ('\\' :: rest) = '\\' :: repairChars rest := by
  cases rest with
  | nil => rfl
  | cons next rest => simp [repairChars, valid next rfl]

theorem repairChars_doubled {next : Char} {rest : List Char} (invalid : next ∉ validEscapes) :
    repairChars ('\\' :: next :: rest) = '\\' :: '\\' :: repairChars (next :: rest) := by
  simp [repairChars, invalid]

variable {c : Char} {state : State} {text : List Char}

theorem repairChars_control (control : Control c) (rest : List Char) :
    repairChars (c :: rest) = unicodeEscape c ++ repairChars rest := by
  have other : c ≠ '\\' := by
    rintro rfl
    exact absurd control (by decide)
  have escaped : c.toNat < 0x20 ∧ c ≠ '\t' ∧ c ≠ '\n' ∧ c ≠ '\r' := control
  rw [repairChars, if_neg other, if_pos escaped]

theorem repairChars_ordinary (other : c ≠ '\\') (visible : ¬ Control c) (rest : List Char) :
    repairChars (c :: rest) = c :: repairChars rest := by
  have kept : ¬ (c.toNat < 0x20 ∧ c ≠ '\t' ∧ c ≠ '\n' ∧ c ≠ '\r') := visible
  rw [repairChars, if_neg other, if_neg kept, singleton_append]

/-- What the output begins with is a backslash exactly where something was escaped. -/
theorem head_repairChars (text : List Char) :
    (repairChars text).head? = text.head?.map fun c => if Control c then '\\' else c := by
  cases text with
  | nil => rfl
  | cons c rest =>
    by_cases backslash : c = '\\'
    · subst backslash
      have visible : ¬ Control '\\' := by decide
      by_cases valid : ∀ next ∈ rest.head?, next ∈ validEscapes
      · rw [repairChars_backslash valid]
        simp [visible]
      · obtain ⟨next, first, invalid⟩ : ∃ next, rest.head? = some next ∧ next ∉ validEscapes := by
          simpa using valid
        obtain ⟨back, rfl⟩ := head?_eq_some_iff.mp first
        rw [repairChars_doubled invalid]
        simp [visible]
    · by_cases control : Control c
      · rw [repairChars_control control]
        simp [control, unicodeEscape]
      · rw [repairChars_ordinary backslash control]
        simp [control]

theorem escape_letters (control : Control c) :
    ∃ letters, unicodeEscape c = '\\' :: 'u' :: letters ∧
      ∀ d ∈ letters, d ≠ '\\' ∧ ¬ Control d := by
  have each : ∀ n < 0x20, ((replicate (4 - (Nat.toDigits 16 n).length) '0' ++
      Nat.toDigits 16 n).all fun d => decide (d ≠ '\\' ∧ ¬ Control d)) = true := by decide
  exact ⟨_, rfl, all_iff_forall_prop.mp (each c.toNat control.1)⟩

theorem valid_visible (valid : c ∈ validEscapes) : ¬ Control c := by
  have each : ∀ c ∈ validEscapes, ¬ Control c := all_iff_forall_prop.mp (by decide)
  exact each c valid

theorem first_cases (c : Char) (rest : List Char) :
    (Control c ∧ repairChars (c :: rest) = unicodeEscape c ++ repairChars rest) ∨
    (¬ Control c ∧ (c = '\\' → ∀ next ∈ rest.head?, next ∈ validEscapes) ∧
      repairChars (c :: rest) = c :: repairChars rest) ∨
    (∃ next back, c = '\\' ∧ rest = next :: back ∧ next ∉ validEscapes ∧
      repairChars (c :: rest) = '\\' :: '\\' :: repairChars rest) := by
  by_cases backslash : c = '\\'
  · subst backslash
    cases rest with
    | nil => exact .inr (.inl ⟨by decide, by simp, rfl⟩)
    | cons next back =>
      by_cases valid : next ∈ validEscapes
      · have allowed : ∀ d ∈ (next :: back).head?, d ∈ validEscapes := by simpa using valid
        exact .inr (.inl ⟨by decide, fun _ => allowed, repairChars_backslash allowed⟩)
      · exact .inr (.inr ⟨next, back, rfl, rfl, valid, repairChars_doubled valid⟩)
  · by_cases control : Control c
    · exact .inl ⟨control, repairChars_control control rest⟩
    · exact .inr (.inl ⟨control, fun same => absurd same backslash,
        repairChars_ordinary backslash control rest⟩)

theorem repairChars_visible (text : List Char) : ∀ d ∈ repairChars text, ¬ Control d := by
  induction text with
  | nil => intro d found; cases found
  | cons c rest ih =>
    have backslash : ¬ Control '\\' := by decide
    rcases first_cases c rest with ⟨control, made⟩ | ⟨visible, _, made⟩ | ⟨_, _, _, _, _, made⟩
    · obtain ⟨letters, escape, plain⟩ := escape_letters control
      have u : ¬ Control 'u' := by decide
      rw [made, escape]
      intro d found
      rcases mem_append.mp found with found | found
      · simp only [mem_cons] at found
        rcases found with rfl | rfl | found
        · exact backslash
        · exact u
        · exact (plain d found).2
      · exact ih d found
    · rw [made]
      exact forall_mem_cons.mpr ⟨visible, ih⟩
    · rw [made]
      exact forall_mem_cons.mpr ⟨backslash, forall_mem_cons.mpr ⟨backslash, ih⟩⟩

theorem clean_letters {letters : List Char} (plain : ∀ d ∈ letters, d ≠ '\\')
    (rest : List Char) : Clean (letters ++ rest) ↔ Clean rest := by
  induction letters with
  | nil => rfl
  | cons d letters ih =>
    obtain ⟨other, plain⟩ := forall_mem_cons.mp plain
    rw [cons_append, clean_cons, ih plain]
    exact and_iff_right fun same => absurd same other

/-- A repair neither mends nor adds a backslash that a second one would double. -/
theorem clean_repairChars (text : List Char) : Clean (repairChars text) ↔ Clean text := by
  induction text with
  | nil => rfl
  | cons c rest ih =>
    rw [clean_cons c rest, ← ih]
    rcases first_cases c rest with
      ⟨control, made⟩ | ⟨visible, valid, made⟩ | ⟨next, back, rfl, rfl, invalid, made⟩
    · obtain ⟨letters, escape, plain⟩ := escape_letters control
      have other : c ≠ '\\' := by
        rintro rfl
        exact absurd control (by decide)
      rw [made, escape, cons_append, cons_append, clean_cons, clean_cons,
        clean_letters fun d found => (plain d found).1]
      simp [other, validEscapes]
    · have allowed : c = '\\' → ∀ next ∈ (repairChars rest).head?, next ∈ validEscapes := by
        intro backslash next first
        rw [head_repairChars] at first
        obtain ⟨d, head, rfl⟩ := Option.map_eq_some_iff.mp first
        rw [if_neg (valid_visible (valid backslash d head))]
        exact valid backslash d head
      rw [made, clean_cons]
      exact and_congr_left fun _ =>
        ⟨fun _ backslash next first => .inl (valid backslash next first),
          fun _ backslash next first => .inl (allowed backslash next first)⟩
    · have head : (repairChars (next :: back)).head? =
          some (if Control next then '\\' else next) := head_repairChars (next :: back)
      have same : (if Control next then '\\' else next) ∈ validEscapes ∨
          Control (if Control next then '\\' else next) ↔
            next ∈ validEscapes ∨ Control next := by
        by_cases control : Control next
        · simp [control, validEscapes]
        · simp [control]
      have doubled : '\\' ∈ validEscapes := by decide
      rw [made, clean_cons, clean_cons, head]
      simp [same, doubled]

theorem repairChars_eq_self_iff (text : List Char) :
    repairChars text = text ↔ Clean text ∧ ∀ c ∈ text, ¬ Control c := by
  induction text with
  | nil => exact ⟨fun _ => ⟨clean_nil, by simp⟩, fun _ => rfl⟩
  | cons c rest ih =>
    rw [clean_cons, forall_mem_cons]
    rcases first_cases c rest with
      ⟨control, made⟩ | ⟨visible, valid, made⟩ | ⟨next, back, rfl, rfl, invalid, made⟩
    · constructor
      · intro same
        obtain ⟨letters, escape, _⟩ := escape_letters control
        rw [made, escape] at same
        obtain ⟨rfl, _⟩ := cons.inj same
        exact absurd control (by decide)
      · rintro ⟨_, visible, _⟩
        exact absurd control visible
    · rw [made, cons.injEq, ih]
      constructor
      · rintro ⟨_, clean, each⟩
        exact ⟨⟨fun same next first => .inl (valid same next first), clean⟩, visible, each⟩
      · rintro ⟨⟨_, clean⟩, _, each⟩
        exact ⟨rfl, clean, each⟩
    · constructor
      · intro same
        rw [made] at same
        obtain ⟨_, tail⟩ := cons.inj same
        obtain ⟨rfl, _⟩ := cons.inj tail
        exact absurd (by decide) invalid
      · rintro ⟨⟨first, _⟩, _, each⟩
        rcases first rfl next rfl with valid | control
        · exact absurd valid invalid
        · exact absurd control (each next mem_cons_self)

theorem repairChars_twice_iff (text : List Char) :
    repairChars (repairChars text) = repairChars text ↔ Clean text := by
  rw [repairChars_eq_self_iff, clean_repairChars]
  exact and_iff_left (repairChars_visible text)

theorem step_visible {next : State} (stepped : JsonText.step state c = some next) :
    ¬ Control c := by
  intro control
  rcases (JsonText.step_move stepped).visible with visible | gap
  · exact absurd control.1 (Nat.not_lt.mpr visible)
  · simp only [JsonText.blank, decide_eq_true_eq] at gap
    obtain ⟨low, tab, line, feed⟩ := control
    rcases gap with rfl | rfl | rfl | rfl
    · exact absurd low (by decide)
    · exact tab rfl
    · exact line rfl
    · exact feed rfl

/-- As far as a text is the beginning of a document, it is repaired only where that breaks it:
a backslash before a letter of no escape is the second of a pair. -/
theorem repairChars_run {last : State} (reached : run state text = some last) :
    repairChars text = text ∨ run state (repairChars text) = none := by
  induction text generalizing state with
  | nil => exact .inl rfl
  | cons c rest ih =>
    obtain ⟨inner, stepped, onward⟩ := Option.bind_eq_some_iff.mp reached
    rcases first_cases c rest with
      ⟨control, _⟩ | ⟨_, _, made⟩ | ⟨next, back, rfl, rfl, invalid, made⟩
    · exact absurd control (step_visible stepped)
    · rw [made]
      rcases ih onward with same | broken
      · exact .inl (by rw [same])
      · refine .inr ?_
        rw [run, stepped, Option.bind_some, broken]
    · obtain ⟨letters, inside, kind⟩ := (JsonText.step_move stepped).backslash
      obtain ⟨_, letter, _⟩ := Option.bind_eq_some_iff.mp onward
      have escapes : ∀ d ∈ 'u' :: JsonText.named.map Prod.fst, d ∈ validEscapes :=
        all_iff_forall_prop.mp (by decide)
      have plain : inner.quoted = some .plain := by
        rcases kind with escaping | rfl
        · have named := (JsonText.step_move letter).escaped inside escaping
          exact absurd (escapes next named) invalid
        · exact inside
      obtain ⟨escape, opened, escaping⟩ := JsonText.step_plain_backslash plain
      have head : (repairChars (next :: back)).head? = some next := by
        rw [head_repairChars]
        simp [step_visible letter]
      obtain ⟨more, split⟩ := head?_eq_some_iff.mp head
      refine .inr ?_
      rw [made, split, run, stepped, Option.bind_some, run, opened, Option.bind_some, run]
      cases refused : JsonText.step escape next with
      | none => rfl
      | some _ =>
        have named := (JsonText.step_move refused).escaped escaping rfl
        exact absurd (escapes next named) invalid

theorem run_visible {last : State} (reached : run state text = some last) :
    ∀ c ∈ text, ¬ Control c := by
  induction text generalizing state with
  | nil => intro c found; cases found
  | cons c rest ih =>
    obtain ⟨inner, stepped, reached⟩ := Option.bind_eq_some_iff.mp reached
    exact forall_mem_cons.mpr ⟨step_visible stepped, ih reached⟩

theorem read_run {tree : Tree} (document : read text = some tree) :
    ∃ last, run start text = some last := by
  obtain ⟨last, reached, _⟩ := Option.bind_eq_some_iff.mp document
  exact ⟨last, reached⟩

theorem stable_iff (input : String) : Stable input ↔ Clean input.toList := by
  rw [Stable, repairJson, repairJson, String.toList_ofList, ← repairChars_twice_iff]
  exact ⟨fun same => String.ofList_injective same, fun same => congrArg String.ofList same⟩

theorem harmless_iff {input : String} {tree : Tree} (document : read input.toList = some tree) :
    Harmless input ↔ Clean input.toList := by
  obtain ⟨last, reached⟩ := read_run document
  have fixed : repairChars input.toList = input.toList ↔ Clean input.toList := by
    rw [repairChars_eq_self_iff]
    exact and_iff_left (run_visible reached)
  rw [Harmless, repairJson, String.toList_ofList, ← fixed]
  constructor
  · intro kept
    rcases repairChars_run reached with same | broken
    · exact same
    · have again := kept tree document
      rw [JsonText.read, broken] at again
      cases again
  · intro same found again
    rw [same, again]

/-- A document keeps its value, and any text is repaired for good at once, exactly when no
backslash stands before a character that would need another one. Only a text that is no document
anyway may have such a backslash without losing its value. -/
theorem repairs_clean_iff (input : String) :
    (Harmless input ∧ Stable input ↔ Clean input.toList) ∧
      (Stable input ↔ Clean input.toList) ∧
      (Harmless input ↔ Clean input.toList ∨ read input.toList = none) := by
  have harmless : Harmless input ↔ Clean input.toList ∨ read input.toList = none := by
    cases document : read input.toList with
    | none =>
      refine iff_of_true ?_ (.inr rfl)
      intro tree found
      rw [document] at found
      cases found
    | some tree =>
      rw [harmless_iff document]
      exact (or_iff_left (Option.some_ne_none tree)).symm
  refine ⟨?_, stable_iff input, harmless⟩
  rw [harmless, stable_iff input]
  exact and_iff_right_of_imp .inl

/-- An escaped backslash before a letter. -/
theorem escaped_backslash_breaks :
    read "\"a\\\\x\"".toList = some (.string ['a', '\\', 'x']) ∧
      ¬ Harmless "\"a\\\\x\"" ∧ ¬ Stable "\"a\\\\x\"" := by
  have broken : read (repairJson "\"a\\\\x\"").toList = none := by rfl
  have document : read "\"a\\\\x\"".toList = some (.string ['a', '\\', 'x']) := by rfl
  refine ⟨document, ?_, by unfold Stable; decide⟩
  intro kept
  have again := kept _ document
  rw [broken] at again
  cases again

end PiRust.JsonRepairs
