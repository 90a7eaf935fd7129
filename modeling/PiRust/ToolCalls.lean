import Mathlib.Data.List.Forall2
import PiRust.Assembly
import PiRust.JsonRepair
import PiRust.Progress

/- The tool calls of a message under construction against the argument texts
that have arrived for them. -/
namespace PiRust

open List

open ContentBlock (arguments?)

theorem getElem?_insert {α : Type} (map : Std.TreeMap UInt32 α) (key other : UInt32) (value : α) :
    (map.insert key value)[other]? = if other = key then some value else map[other]? := by
  by_cases same : other = key
  · rw [same, Std.TreeMap.getElem?_insert_self, if_pos rfl]
  · have apart : compare key other ≠ .eq := fun equal =>
      same (Std.LawfulEqOrd.eq_of_compare equal).symm
    rw [Std.TreeMap.getElem?_insert, if_neg apart, if_neg same]

def openedCall (id name : String) : ContentBlock := .toolCall id name Value.emptyObject none

variable {κ : Type}

/-- Each tool call of the content has what the permissive parser makes of its
text so far, and `place` finds the block of every call that is still open. -/
structure Written (serde : Serde) (content : List ContentBlock) (calls : Assembly κ)
    (place : κ → Option Nat) : Prop where
  arguments : content.filterMap arguments? = calls.texts.map (parseStreamingJson serde)
  placed : ∀ {key n}, calls.owner key = some n →
    ∃ p, place key = some p ∧ Selection.IsAt arguments? content n p

def Held (calls : Assembly κ) (held : κ → Option String) : Prop :=
  ∀ {key text}, calls.current key = some text → held key = some text

theorem isSome_setArguments (value : Value) (block : ContentBlock) :
    (arguments? (block.setArguments value)).isSome = (arguments? block).isSome := by
  rw [ContentBlock.arguments?_setArguments, Option.isSome_map]

namespace Written

variable {serde : Serde} {content : List ContentBlock} {calls : Assembly κ} {place : κ → Option Nat}

theorem empty (place : κ → Option Nat) : Written serde [] Assembly.empty place :=
  ⟨rfl, nofun⟩

section

variable (written : Written serde content calls place)
include written

theorem push {block : ContentBlock} (other : block.arguments? = none) :
    Written serde (content ++ [block]) calls place where
  arguments := by
    rw [Selection.filterMap_push, other, Option.toList_none, append_nil, written.arguments]
  placed := by
    intro key n owned
    obtain ⟨p, found, at_p⟩ := written.placed owned
    exact ⟨p, found, Selection.isAt_append _ at_p _⟩

theorem edit (p : Nat) {change : ContentBlock → ContentBlock}
    (same : ∀ block, (change block).arguments? = block.arguments?) :
    Written serde (content.modify p change) calls place where
  arguments := by
    rw [Selection.filterMap_modify_same _ _ _ _ same, written.arguments]
  placed := by
    intro key n owned
    obtain ⟨q, found, at_q⟩ := written.placed owned
    exact ⟨q, found, Selection.isAt_modify _ at_q _ _ fun block => by rw [same]⟩

variable {p n : Nat} {key : κ} {text : String}

theorem miss (unselected : (Selection.shape arguments? content)[p]? ≠ some true) (value : Value) :
    Written serde (content.modify p (ContentBlock.setArguments value)) calls place where
  arguments := by
    rw [Selection.filterMap_modify_other _ unselected, written.arguments]
    intro block other
    rw [ContentBlock.arguments?_setArguments, other, Option.map_none]
  placed := by
    intro key n owned
    obtain ⟨q, found, at_q⟩ := written.placed owned
    exact ⟨q, found, Selection.isAt_modify _ at_q _ _ (isSome_setArguments value)⟩

theorem rewrite (owned : calls.owner key = some n) (found : place key = some p)
    (holds : calls.current key = some text) :
    Written serde
      (content.modify p (ContentBlock.setArguments (parseStreamingJson serde text)))
      calls place where
  arguments := by
    obtain ⟨q, same, at_q⟩ := written.placed owned
    obtain rfl := Option.some.inj (same.symm.trans found)
    obtain ⟨own, current, stored⟩ := Assembly.current_of_owner owned
    obtain rfl := Option.some.inj (current.symm.trans holds)
    obtain ⟨inside, read⟩ := List.getElem?_eq_some_iff.mp stored
    rw [Selection.filterMap_modify _ at_q (parseStreamingJson serde own) _
      (ContentBlock.arguments?_setArguments · _), written.arguments, ← read,
      ← map_set, set_getElem_self]
  placed := by
    intro other m owned
    obtain ⟨q, found, at_q⟩ := written.placed owned
    exact ⟨q, found, Selection.isAt_modify _ at_q _ _ (isSome_setArguments _)⟩

theorem piece (owned : calls.owner key = some n) (found : place key = some p)
    (holds : calls.current key = some text) (more : String) :
    Written serde
      (content.modify p (ContentBlock.setArguments (parseStreamingJson serde (text ++ more))))
      (calls.piece key more) place where
  arguments := by
    obtain ⟨q, same, at_q⟩ := written.placed owned
    obtain rfl := Option.some.inj (same.symm.trans found)
    obtain ⟨own, current, stored⟩ := Assembly.current_of_owner owned
    obtain rfl := Option.some.inj (current.symm.trans holds)
    rw [Selection.filterMap_modify _ at_q (parseStreamingJson serde (own ++ more)) _
      (ContentBlock.arguments?_setArguments · _), written.arguments, Assembly.texts_piece owned,
      modify_eq_set, stored, Option.getD_some, map_set]
  placed := by
    intro other m owned
    obtain ⟨q, found, at_q⟩ := written.placed owned
    exact ⟨q, found, Selection.isAt_modify _ at_q _ _ (isSome_setArguments _)⟩

theorem lost (unowned : calls.owner key = none) (more : String) :
    Written serde content (calls.piece key more) place where
  arguments := by rw [Assembly.piece_unowned unowned, written.arguments]
  placed := written.placed

end

variable [DecidableEq κ]

theorem opened (written : Written serde content calls place) (key : κ) (id name : String)
    {later : κ → Option Nat} (here : later key = some content.length)
    (others : ∀ other, other ≠ key → later other = place other) :
    Written serde (content ++ [openedCall id name]) (calls.opened key) later where
  arguments := by
    rw [Selection.filterMap_push, written.arguments, Assembly.texts_opened, map_append,
      map_singleton, parseStreamingJson_empty]
    rfl
  placed := by
    intro other n owned
    rw [Assembly.owner_opened] at owned
    by_cases same : other = key
    · rw [if_pos same] at owned
      have size := congrArg length written.arguments
      rw [length_map, Option.some.inj owned] at size
      refine ⟨content.length, by rw [same, here], ?_⟩
      rw [← size]
      exact Selection.isAt_push _ _ rfl
    · rw [if_neg same] at owned
      obtain ⟨p, found, at_p⟩ := written.placed owned
      exact ⟨p, by rw [others other same, found], Selection.isAt_append _ at_p _⟩

theorem closed (written : Written serde content calls place) (key : κ)
    {later : κ → Option Nat} (others : ∀ other, other ≠ key → later other = place other) :
    Written serde content (calls.closed key) later where
  arguments := written.arguments
  placed := by
    intro other n owned
    rw [Assembly.owner_closed] at owned
    by_cases same : other = key
    · rw [if_pos same] at owned
      cases owned
    · rw [if_neg same] at owned
      obtain ⟨p, found, at_p⟩ := written.placed owned
      exact ⟨p, by rw [others other same, found], at_p⟩

end Written

theorem forall₂_completeValue_iff (serde : Serde) (texts : List String) :
    Forall₂ (fun value text => completeValue serde text = some value)
        (texts.map (parseStreamingJson serde)) texts ↔
      ∀ text ∈ texts, Complete serde text := by
  rw [forall₂_map_left_iff, forall₂_same]
  simp [completeValue_eq_parse_iff]

end PiRust
