import Mathlib.Data.List.Perm.Lattice
import PiRust.EditorText
import PiRust.Keys

/- `matches_key` of `input/key.rs`: the keys that a key id of the bindings stands for. -/
namespace PiRust.KeyIds

open List

open EditTool (Str splitChar)
open Editing (parseU8)

def noModifiers : KeyModifiers := ⟨false, false, false, false⟩

def ctrlOnly : KeyModifiers := { noModifiers with ctrl := true }

/-- `to_ascii_lowercase`. -/
def lowercase (text : Str) : Str := text.map Char.toLower

def namedKeys : List (String × Key) :=
  [("escape", .escape), ("esc", .escape), ("enter", .enter), ("return", .enter), ("tab", .tab),
    ("space", .space), ("backspace", .backspace), ("delete", .delete), ("insert", .insert),
    ("clear", .clear), ("home", .home), ("end", .end), ("pageup", .pageUp),
    ("pagedown", .pageDown), ("up", .up), ("down", .down), ("left", .left), ("right", .right)]

def parseKeyName (name : Str) : Option Key :=
  match namedKeys.find? fun entry => entry.1.toList = name with
  | some entry => some entry.2
  | none =>
    if (Str.len name = 2 ∨ Str.len name = 3) ∧ name.head? = some 'f' then
      (parseU8 name.tail).map .function
    else some (.char name)

/-- One turn of the loop of `parse_key_id`; a later name replaces an earlier one. -/
def readPart (found : KeyModifiers × Option (Option Key)) (part : Str) :
    KeyModifiers × Option (Option Key) :=
  let name := lowercase part
  if name = "shift".toList then ({ found.1 with shift := true }, found.2)
  else if name = "alt".toList then ({ found.1 with alt := true }, found.2)
  else if name = "ctrl".toList then ({ found.1 with ctrl := true }, found.2)
  else if name = "super".toList then ({ found.1 with super := true }, found.2)
  else (found.1, some (parseKeyName name))

def parseKeyId (keyId : Str) : Option (Key × KeyModifiers) :=
  let found := (splitChar '+' keyId).foldl readPart (noModifiers, none)
  found.2.join.map fun key => (key, found.1)

def keysEqual (actual expected : Key) : Bool :=
  match actual, expected with
  | .char actual, .char expected =>
    lowercase actual = lowercase expected || actual = ['-'] && expected = ['_'] ||
      actual = ['_'] && expected = ['-']
  | .space, .char text => text = [' ']
  | .char text, .space => text = [' ']
  | actual, expected => actual = expected

/-- `kitty` tells whether the Kitty protocol is active. -/
def matchesKey (kitty : Bool) (event : InputEvent) (keyId : Str) : Bool :=
  match event with
  | .key event =>
    if event.kind = .release then false
    else
      match parseKeyId keyId with
      | none => false
      | some (expectedKey, expectedModifiers) =>
        keysEqual event.key expectedKey && event.modifiers = expectedModifiers ||
          !kitty && event.key = .char ['j'] && event.modifiers = ctrlOnly &&
            expectedKey = .enter && expectedModifiers = noModifiers
  | _ => false

example : parseKeyId "Ctrl+F5".toList = some (.function 5, ctrlOnly) := by decide

section parts

variable {parts : List Str} {separator : Char}

theorem splitChar_joined (separator : Char) (front back : Str) :
    splitChar separator (front ++ separator :: back) =
      splitChar separator front ++ splitChar separator back := by
  simp [splitChar, Framing.pieces_joined]

theorem splitChar_whole {part : Str} (whole : separator ∉ part) :
    splitChar separator part = [part] := by
  simp [splitChar, Framing.pieces_whole separator whole]

theorem splitChar_intercalate (nonempty : parts ≠ []) :
    splitChar separator (intercalate [separator] parts) =
      parts.flatMap (splitChar separator) := by
  induction parts with
  | nil => exact absurd rfl nonempty
  | cons part rest ih =>
    cases rest with
    | nil => simp
    | cons next rest =>
      rw [intercalate_cons_of_ne_nil (cons_ne_nil next rest), append_assoc,
        singleton_append, splitChar_joined, ih (cons_ne_nil next rest)]
      rfl

def modifierNames : List Str :=
  ["shift".toList, "alt".toList, "ctrl".toList, "super".toList]

def keyNames (parts : List Str) : List Str :=
  (parts.map lowercase).filter fun name => !modifierNames.contains name

theorem foldl_readPart (parts : List Str) : parts.foldl readPart (noModifiers, none) =
    (⟨"shift".toList ∈ parts.map lowercase, "alt".toList ∈ parts.map lowercase,
      "ctrl".toList ∈ parts.map lowercase, "super".toList ∈ parts.map lowercase⟩,
      (keyNames parts).getLast?.map parseKeyName) := by
  induction parts using reverseRecOn with
  | nil => rfl
  | append_singleton parts part ih =>
    rw [foldl_append, ih]
    show readPart _ part = _
    by_cases named : lowercase part ∈ modifierNames
    · have same : keyNames (parts ++ [part]) = keyNames parts := by
        simp [keyNames, named]
      rw [same, readPart]
      simp only [modifierNames, mem_cons, not_mem_nil, or_false] at named
      rcases named with shift | alt | ctrl | super
      · simp [shift]
      · simp [alt]
      · simp [ctrl]
      · simp [super]
    · have added : keyNames (parts ++ [part]) = keyNames parts ++ [lowercase part] := by
        simp [keyNames, named]
      rw [added, getLast?_concat, readPart]
      simp only [modifierNames, mem_cons, not_mem_nil, or_false, not_or] at named
      obtain ⟨shift, alt, ctrl, super⟩ := named
      simp only [if_neg shift, if_neg alt, if_neg ctrl, if_neg super, map_append, map_cons,
        map_nil, mem_append, mem_singleton, Ne.symm shift, Ne.symm alt,
        Ne.symm ctrl, Ne.symm super, or_false, Option.map_some]

end parts

section names

variable {modifiers : KeyModifiers} {c : Char} {keyId : Str}

def heldNames (modifiers : KeyModifiers) : List Str :=
  (if modifiers.shift then ["shift".toList] else []) ++
    (if modifiers.alt then ["alt".toList] else []) ++
    (if modifiers.ctrl then ["ctrl".toList] else []) ++
    if modifiers.super then ["super".toList] else []

/-- The id is made of the names of the modifiers and of a character, in any order. -/
def Names (modifiers : KeyModifiers) (c : Char) (keyId : Str) : Prop :=
  ∃ parts : List Str, parts.Perm ([c] :: heldNames modifiers) ∧ keyId = intercalate ['+'] parts

theorem held_lowercase (modifiers : KeyModifiers) :
    (⟨"shift".toList ∈ (heldNames modifiers).map lowercase,
      "alt".toList ∈ (heldNames modifiers).map lowercase,
      "ctrl".toList ∈ (heldNames modifiers).map lowercase,
      "super".toList ∈ (heldNames modifiers).map lowercase⟩ : KeyModifiers) = modifiers := by
  rcases modifiers with ⟨_ | _, _ | _, _ | _, _ | _⟩ <;> decide

theorem keyNames_held (modifiers : KeyModifiers) : keyNames (heldNames modifiers) = [] := by
  rcases modifiers with ⟨_ | _, _ | _, _ | _, _ | _⟩ <;> decide

theorem plus_not_mem_held (modifiers : KeyModifiers) : ∀ part ∈ heldNames modifiers, '+' ∉ part := by
  rcases modifiers with ⟨_ | _, _ | _, _ | _, _ | _⟩ <;> decide

theorem parseKeyId_of_perm (name : Str) (count : Nat) (key : lowercase name ∉ modifierNames)
    (split : (splitChar '+' keyId).Perm (replicate (count + 1) name ++ heldNames modifiers)) :
    parseKeyId keyId = (parseKeyName (lowercase name)).map fun key => (key, modifiers) := by
  have lower := split.map lowercase
  rw [map_append, map_replicate] at lower
  have held (modifier : Str) (known : modifier ∈ modifierNames) :
      modifier ∈ (splitChar '+' keyId).map lowercase ↔
        modifier ∈ (heldNames modifiers).map lowercase := by
    rw [lower.mem_iff, mem_append, mem_replicate]
    refine or_iff_right fun same => key ?_
    rw [← same.2]
    exact known
  have names : (keyNames (splitChar '+' keyId)).Perm
      (replicate (count + 1) (lowercase name)) := by
    have filtered := lower.filter fun name => !modifierNames.contains name
    have none_held := keyNames_held modifiers
    rw [keyNames] at none_held
    rwa [filter_append, none_held, append_nil, filter_replicate_of_pos (by simp [key])]
      at filtered
  have last : (keyNames (splitChar '+' keyId)).getLast? = some (lowercase name) := by
    rw [perm_replicate.mp names, getLast?_replicate]
    rfl
  rw [parseKeyId, foldl_readPart, last]
  simp only [held _ (show "shift".toList ∈ modifierNames by decide),
    held _ (show "alt".toList ∈ modifierNames by decide),
    held _ (show "ctrl".toList ∈ modifierNames by decide),
    held _ (show "super".toList ∈ modifierNames by decide), held_lowercase]
  rfl

theorem splitChar_names (named : Names modifiers c keyId) :
    (splitChar '+' keyId).Perm (splitChar '+' [c] ++ heldNames modifiers) := by
  obtain ⟨parts, order, rfl⟩ := named
  have nonempty : parts ≠ [] := by
    rintro rfl
    exact absurd order.length_eq (by simp)
  rw [splitChar_intercalate nonempty]
  have cut := order.flatMap_right (splitChar '+')
  have held : (heldNames modifiers).flatMap (splitChar '+') = heldNames modifiers := by
    calc (heldNames modifiers).flatMap (splitChar '+')
        = (heldNames modifiers).flatMap fun part => [part] :=
          flatMap_congr fun part inside =>
            splitChar_whole (plus_not_mem_held modifiers part inside)
      _ = heldNames modifiers := flatMap_singleton' _
  rwa [flatMap_cons, held] at cut

theorem toLower_toLower (c : Char) : c.toLower.toLower = c.toLower := by
  unfold Char.toLower
  split
  · next upper =>
    rw [dif_neg]
    intro again
    have first := UInt32.le_iff_toNat_le.mp upper.1
    have last := UInt32.le_iff_toNat_le.mp again.2
    have sum : (c.val + ('a'.val - 'A'.val)).toNat = c.val.toNat + 32 := by
      have bound := UInt32.le_iff_toNat_le.mp upper.2
      have small : c.val.toNat ≤ 90 := bound
      rw [UInt32.toNat_add]
      show (c.val.toNat + 32) % 2 ^ 32 = c.val.toNat + 32
      omega
    have low : 65 ≤ c.val.toNat := first
    have high : (c.val + ('a'.val - 'A'.val)).toNat ≤ 90 := last
    omega
  · rfl

theorem parseKeyName_letter (c : Char) : parseKeyName [c] = some (.char [c]) := by
  have unnamed : namedKeys.find? (fun entry => entry.1.toList = [c]) = none := by
    apply find?_eq_none.mpr
    intro entry inside
    have long := (show ∀ entry ∈ namedKeys, entry.1.toList.length ≠ 1 by decide) entry inside
    simp only [decide_eq_true_eq]
    intro same
    exact long (congrArg length same)
  have short : ¬ ((Str.len [c] = 2 ∨ Str.len [c] = 3) ∧ [c].head? = some 'f') := by
    rintro ⟨size, first⟩
    cases first
    revert size
    decide
  rw [parseKeyName, unnamed]
  exact if_neg short

theorem letter_not_modifier (c : Char) : [c] ∉ modifierNames := by
  intro inside
  have long := (show ∀ name ∈ modifierNames, name.length ≠ 1 by decide) [c] inside
  exact long rfl

theorem parseKeyId_names (named : Names modifiers c keyId) :
    parseKeyId keyId = some (.char (if c = '+' then [] else [c.toLower]), modifiers) := by
  have split := splitChar_names named
  by_cases plus : c = '+'
  · subst plus
    rw [if_pos rfl]
    exact parseKeyId_of_perm [] 1 (by decide) split
  · rw [if_neg plus]
    rw [splitChar_whole (show '+' ∉ [c] by simp [Ne.symm plus])] at split
    rw [parseKeyId_of_perm [c] 0 (letter_not_modifier c.toLower) split]
    show (parseKeyName [c.toLower]).map _ = _
    rw [parseKeyName_letter, Option.map_some]

end names

section matching

variable {kitty otherKitty : Bool} {keyId firstId secondId : Str}

/-- One key for those that count as the same: ASCII letters in lower case, `-` for `_`, and the
space key for a space. -/
def canonical (key : Key) : Key :=
  match key with
  | .char text =>
    let name := lowercase text
    if name = [' '] then .space else if name = ['_'] then .char ['-'] else .char name
  | key => key

/-- `ctrl+j`, which is `enter` without the Kitty protocol. -/
def LegacyEnter (first second : Key × KeyModifiers) : Prop :=
  first = (.enter, noModifiers) ∧ canonical second.1 = .char ['j'] ∧ second.2 = ctrlOnly

def Alike (first second : Key × KeyModifiers) : Prop :=
  first.2 = second.2 ∧ canonical first.1 = canonical second.1 ∨ LegacyEnter first second ∨
    LegacyEnter second first

theorem keysEqual_canonical {actual expected : Key} (equal : keysEqual actual expected = true) :
    canonical actual = canonical expected := by
  unfold keysEqual at equal
  split at equal
  · next name other =>
    simp only [Bool.or_eq_true, Bool.and_eq_true, decide_eq_true_eq] at equal
    rcases equal with (lower | ⟨rfl, rfl⟩) | ⟨rfl, rfl⟩
    · simp only [canonical, lower]
    · rfl
    · rfl
  · next text =>
    rw [of_decide_eq_true equal]
    rfl
  · next text =>
    rw [of_decide_eq_true equal]
    rfl
  · rw [of_decide_eq_true equal]

theorem matchesKey_iff (event : KeyEvent) : matchesKey kitty (.key event) keyId = true ↔
    event.kind ≠ .release ∧ ∃ expected, parseKeyId keyId = some expected ∧
      (keysEqual event.key expected.1 = true ∧ event.modifiers = expected.2 ∨
        kitty = false ∧ event.key = .char ['j'] ∧ event.modifiers = ctrlOnly ∧
          expected = (.enter, noModifiers)) := by
  rw [matchesKey]
  by_cases released : event.kind = .release
  · simp [released]
  · rw [if_neg released]
    cases parsed : parseKeyId keyId with
    | none => simp
    | some expected =>
      simp [released, Prod.ext_iff, and_assoc]

theorem matchesKey_letter {modifiers : KeyModifiers} {c : Char} (named : Names modifiers c keyId)
    {kind : KeyEventKind} (down : kind ≠ .release) :
    matchesKey kitty (.key ⟨.char [c], modifiers, kind⟩) keyId = true ↔ c ≠ '+' := by
  rw [matchesKey_iff, parseKeyId_names named]
  by_cases plus : c = '+'
  · subst plus
    simp [keysEqual, lowercase]
  · refine iff_of_true ⟨down, _, rfl, .inl ⟨?_, rfl⟩⟩ plus
    simp only [keysEqual, if_neg plus, lowercase, map_cons, map_nil, toLower_toLower, decide_true,
      Bool.true_or]

theorem alike_of_matches {event : KeyEvent}
    (first : matchesKey kitty (.key event) firstId = true)
    (second : matchesKey otherKitty (.key event) secondId = true) :
    ∃ one other, parseKeyId firstId = some one ∧ parseKeyId secondId = some other ∧
      Alike one other := by
  obtain ⟨-, one, oneRead, oneMatches⟩ := (matchesKey_iff event).mp first
  obtain ⟨-, other, otherRead, otherMatches⟩ := (matchesKey_iff event).mp second
  refine ⟨one, other, oneRead, otherRead, ?_⟩
  rcases oneMatches with ⟨oneKey, oneHeld⟩ | ⟨-, letter, held, rfl⟩
  · have oneSame := keysEqual_canonical oneKey
    rcases otherMatches with ⟨otherKey, otherHeld⟩ | ⟨-, letter, held, rfl⟩
    · exact .inl ⟨oneHeld.symm.trans otherHeld, oneSame.symm.trans (keysEqual_canonical otherKey)⟩
    · refine .inr (.inr ⟨rfl, ?_, oneHeld.symm.trans held⟩)
      rw [← oneSame, letter]
      rfl
  · rcases otherMatches with ⟨otherKey, otherHeld⟩ | ⟨-, -, -, rfl⟩
    · refine .inr (.inl ⟨rfl, ?_, otherHeld.symm.trans held⟩)
      rw [← keysEqual_canonical otherKey, letter]
      rfl
    · exact .inl ⟨rfl, rfl⟩

end matching

/-- Every character but the separator can be bound with every set of modifiers, and ids that match
a common event stand for the same key. -/
theorem matchesKey_binds_iff (c : Char) (modifiers : KeyModifiers) (keyId : Str)
    (named : Names modifiers c keyId) (kitty : Bool) (kind : KeyEventKind)
    (down : kind ≠ .release) :
    (matchesKey kitty (.key ⟨.char [c], modifiers, kind⟩) keyId = true ↔ c ≠ '+') ∧
    ∀ (event : InputEvent) (firstId secondId : Str) (otherKitty : Bool),
      matchesKey kitty event firstId = true → matchesKey otherKitty event secondId = true →
        ∃ first second, parseKeyId firstId = some first ∧ parseKeyId secondId = some second ∧
          Alike first second := by
  refine ⟨matchesKey_letter named down, ?_⟩
  intro event firstId secondId otherKitty first second
  cases event with
  | key event => exact alike_of_matches first second
  | paste text => cases first
  | raw data => cases first
  | resize columns rows => cases first

theorem ctrl_a_names : Names ctrlOnly 'a' "ctrl+a".toList :=
  ⟨["ctrl".toList, ['a']], Perm.swap _ _ _, by decide⟩

theorem matchesKey_binds_ctrl_a :
    matchesKey true (.key ⟨.char ['a'], ctrlOnly, .press⟩) "ctrl+a".toList = true :=
  (matchesKey_binds_iff 'a' ctrlOnly _ ctrl_a_names true .press (by decide)).1.mpr (by decide)

theorem plus_not_bound : ¬ ∀ (c : Char) (modifiers : KeyModifiers) (keyId : Str), c ≠ ' ' →
    Names modifiers c keyId → ∀ (kitty : Bool) (kind : KeyEventKind), kind ≠ .release →
      matchesKey kitty (.key ⟨.char [c], modifiers, kind⟩) keyId = true := by
  intro bound
  have named : Names ctrlOnly '+' "ctrl++".toList :=
    ⟨["ctrl".toList, ['+']], Perm.swap _ _ _, by decide⟩
  have matched := bound '+' ctrlOnly _ (by decide) named true .press (by decide)
  exact absurd matched (by decide)

end PiRust.KeyIds
