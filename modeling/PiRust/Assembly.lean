import Mathlib.Data.List.Basic
import Mathlib.Logic.Function.Basic

/- Texts that arrive in pieces, several at a time. A piece names the key of the
text that it continues, and a key may be used again for a later text. -/

structure Assembly (κ : Type) where
  owner : κ → Option Nat
  texts : List String
  inside : ∀ {key n}, owner key = some n → n < texts.length
  apart : ∀ {key other n}, owner key = some n → owner other = some n → key = other

namespace Assembly

open List

inductive Move (κ : Type) where
  /-- A new text under `key`; an older one is no longer continued. -/
  | opened (key : κ)
  /-- A piece of the text that is open under `key`, lost when there is none. -/
  | piece (key : κ) (text : String)
  /-- A piece that opens its text when there is none. -/
  | joined (key : κ) (text : String)
  | closed (key : κ)

variable {κ : Type}

def empty : Assembly κ where
  owner := fun _ => none
  texts := []
  inside := by simp
  apart := by simp

/-- The text that is open under a key. -/
def current (assembly : Assembly κ) (key : κ) : Option String :=
  (assembly.owner key).bind (assembly.texts[·]?)

variable {assembly : Assembly κ} {key : κ}

theorem current_of_owner {n : Nat} (owned : assembly.owner key = some n) :
    ∃ text, assembly.current key = some text ∧ assembly.texts[n]? = some text := by
  have inside := assembly.inside owned
  exact ⟨assembly.texts[n], by simp [current, owned, inside], by simp [inside]⟩

def piece (assembly : Assembly κ) (key : κ) (text : String) : Assembly κ where
  owner := assembly.owner
  texts :=
    match assembly.owner key with
    | some n => assembly.texts.modify n (· ++ text)
    | none => assembly.texts
  inside := by
    intro other n owned
    have := assembly.inside owned
    split
    · rwa [length_modify]
    · exact this
  apart := assembly.apart

@[simp] theorem owner_piece (assembly : Assembly κ) (key : κ) (text : String) :
    (assembly.piece key text).owner = assembly.owner := rfl

theorem texts_piece {n : Nat} (owned : assembly.owner key = some n) (text : String) :
    (assembly.piece key text).texts = assembly.texts.modify n (· ++ text) := by
  simp [piece, owned]

theorem piece_unowned (unowned : assembly.owner key = none) (text : String) :
    (assembly.piece key text).texts = assembly.texts := by
  simp [piece, unowned]

theorem piece_empty (assembly : Assembly κ) (key : κ) : assembly.piece key "" = assembly := by
  unfold piece
  congr
  split
  · have same : (· ++ "") = (id : String → String) := by
      funext text
      exact String.append_empty
    rw [same, modify_id]
  · rfl

variable [DecidableEq κ]

def opened (assembly : Assembly κ) (key : κ) : Assembly κ where
  owner := Function.update assembly.owner key (some assembly.texts.length)
  texts := assembly.texts ++ [""]
  inside := by
    intro other n owned
    rw [Function.update_apply] at owned
    split at owned
    · simp [← Option.some.inj owned]
    · have := assembly.inside owned
      simp only [length_append, length_singleton]
      omega
  apart := by
    intro first second n one two
    rw [Function.update_apply] at one two
    split at one <;> split at two
    · rename_i left right
      exact left.trans right.symm
    · have := assembly.inside two
      have := Option.some.inj one
      omega
    · have := assembly.inside one
      have := Option.some.inj two
      omega
    · exact assembly.apart one two

/-- Opens a text under `key` unless one is open. -/
def ensured (assembly : Assembly κ) (key : κ) : Assembly κ :=
  match assembly.owner key with
  | some _ => assembly
  | none => assembly.opened key

def closed (assembly : Assembly κ) (key : κ) : Assembly κ where
  owner := Function.update assembly.owner key none
  texts := assembly.texts
  inside := by
    intro other n owned
    rw [Function.update_apply] at owned
    split at owned
    · cases owned
    · exact assembly.inside owned
  apart := by
    intro first second n one two
    rw [Function.update_apply] at one two
    split at one
    · cases one
    · split at two
      · cases two
      · exact assembly.apart one two

def step (assembly : Assembly κ) : Move κ → Assembly κ
  | .opened key => assembly.opened key
  | .piece key text => assembly.piece key text
  | .joined key text => (assembly.ensured key).piece key text
  | .closed key => assembly.closed key

/-- The texts that a sequence of moves puts together. -/
def run (moves : List (Move κ)) : Assembly κ := moves.foldl step empty

@[simp] theorem run_nil : run ([] : List (Move κ)) = empty := rfl

theorem texts_joined_empty (key : κ) (text : String) : (run [.joined key text]).texts = [text] := by
  simp [run, step, ensured, opened, piece, empty]

theorem run_append (moves : List (Move κ)) (more : List (Move κ)) :
    run (moves ++ more) = more.foldl step (run moves) := by
  simp [run]

variable (assembly : Assembly κ)

@[simp] theorem texts_opened (key : κ) :
    (assembly.opened key).texts = assembly.texts ++ [""] := rfl

@[simp] theorem texts_closed (key : κ) :
    (assembly.closed key).texts = assembly.texts := rfl

theorem owner_opened (key other : κ) :
    (assembly.opened key).owner other =
      if other = key then some assembly.texts.length else assembly.owner other := by
  simp [opened, Function.update_apply]

theorem owner_closed (key other : κ) :
    (assembly.closed key).owner other = if other = key then none else assembly.owner other := by
  simp [closed, Function.update_apply]

theorem current_opened (key other : κ) :
    (assembly.opened key).current other =
      if other = key then some "" else assembly.current other := by
  unfold current
  rw [owner_opened]
  by_cases same : other = key
  · simp [same]
  · rw [if_neg same, if_neg same]
    cases owned : assembly.owner other with
    | none => rfl
    | some n =>
      simp only [Option.bind_some, texts_opened]
      exact getElem?_append_left (assembly.inside owned)

theorem current_piece (key other : κ) (text : String) :
    (assembly.piece key text).current other =
      if other = key then (assembly.current key).map (· ++ text) else assembly.current other := by
  unfold current
  rw [owner_piece]
  cases owned : assembly.owner key with
  | none =>
    rw [piece_unowned owned]
    by_cases same : other = key
    · simp [same, owned]
    · rw [if_neg same]
  | some n =>
    rw [texts_piece owned]
    by_cases same : other = key
    · simp [same, owned, getElem?_modify]
    · rw [if_neg same]
      cases held : assembly.owner other with
      | none => rfl
      | some m =>
        have distinct : n ≠ m := by
          intro equal
          exact same (assembly.apart held (equal ▸ owned))
        simp [getElem?_modify, distinct]

theorem current_closed (key other : κ) :
    (assembly.closed key).current other =
      if other = key then none else assembly.current other := by
  unfold current
  rw [owner_closed]
  by_cases same : other = key
  · simp [same]
  · simp [same]

end Assembly
