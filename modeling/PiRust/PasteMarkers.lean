import PiRust.Editor

/- Large pastes stand in the editor's text as markers, which a submit replaces by what was
pasted. The pastes are in a hash map, so they come in any order. -/
namespace PiRust.Editing

open List

open EditTool (Str)

section markers

theorem not_mem_toDigits {c : Char} (other : c.isDigit = false) (n : Nat) :
    c ∉ Nat.toDigits 10 n := by
  intro member
  rw [Nat.isDigit_of_mem_toDigits (by decide) (by decide) member] at other
  cases other

/-- What a marker says behind the number of its paste. -/
theorem pasteMarker_eq (pasteId : Nat) (text : Str) :
    ∃ size, '[' ∉ size ∧ pasteMarker pasteId text =
      "[paste #".toList ++ (Nat.toDigits 10 pasteId ++ ' ' :: size) := by
  have plain (n : Nat) := not_mem_toDigits (c := '[') (by decide) n
  unfold pasteMarker
  split
  · exact ⟨'+' :: (toString (lineCount text)).toList ++ " lines]".toList, by simp [plain], by simp⟩
  · exact ⟨(toString text.length).toList ++ " chars]".toList, by simp [plain], by simp⟩

theorem pasteMarker_cons (pasteId : Nat) (text : Str) :
    ∃ label, '[' ∉ label ∧ pasteMarker pasteId text = '[' :: label := by
  obtain ⟨size, plain, spelled⟩ := pasteMarker_eq pasteId text
  refine ⟨"paste #".toList ++ (Nat.toDigits 10 pasteId ++ ' ' :: size), ?_, spelled⟩
  simp [plain, not_mem_toDigits (c := '[') (by decide) pasteId]

theorem pasteMarker_id {pasteId other : Nat} {text content rest : Str}
    (starts : pasteMarker pasteId text <+: pasteMarker other content ++ rest) :
    pasteId = other := by
  obtain ⟨size, _, spelled⟩ := pasteMarker_eq pasteId text
  obtain ⟨second, _, spelledToo⟩ := pasteMarker_eq other content
  rw [spelled, spelledToo, append_assoc, prefix_append_right_inj] at starts
  obtain ⟨tail, reads⟩ := starts
  simp only [append_assoc, cons_append] at reads
  have numeral (n : Nat) (behind : Str) :
      (Nat.toDigits 10 n ++ ' ' :: behind).takeWhile Char.isDigit = Nat.toDigits 10 n := by
    rw [takeWhile_append_of_pos fun c => Nat.isDigit_of_mem_toDigits (by decide) (by decide)]
    exact append_nil _
  have same := congrArg (takeWhile Char.isDigit) reads
  rw [numeral, numeral] at same
  rw [← Nat.ofDigitChars_ten_toDigits (n := pasteId), same, Nat.ofDigitChars_ten_toDigits]

end markers

/-- A letter of the text, or the marker of a paste. -/
inductive Piece where
  | letter (c : Char)
  | paste (pasteId : Nat) (content : Str)
  deriving DecidableEq, Repr

namespace Piece

/-- How the piece stands in the text. -/
def shown : Piece → Str
  | letter c => [c]
  | paste pasteId content => pasteMarker pasteId content

def content : Piece → Str
  | letter c => [c]
  | paste _ content => content

/-- The piece once the paste is expanded. -/
def expandedBy (stored : Nat × Str) (piece : Piece) : List Piece :=
  if piece = paste stored.1 stored.2 then stored.2.map letter else [piece]

end Piece

open Piece (letter paste)

section expansion

variable {pieces : List Piece}

theorem flatMap_letter (text : Str) (f : Piece → Str) (same : ∀ c, f (letter c) = [c]) :
    (text.map letter).flatMap f = text := by
  rw [flatMap_map]
  simp [same]

theorem replaceAll_shown {stored : Nat × Str} (plain : ∀ piece ∈ pieces, '[' ∉ piece.content)
    (alone : ∀ content, paste stored.1 content ∈ pieces → content = stored.2) :
    Splice.replaceAll (pasteMarker stored.1 stored.2) stored.2 (pieces.flatMap Piece.shown) =
      (pieces.flatMap (Piece.expandedBy stored)).flatMap Piece.shown := by
  obtain ⟨label, _, spelled⟩ := pasteMarker_cons stored.1 stored.2
  induction pieces with
  | nil => rfl
  | cons piece pieces ih =>
    have later := ih (fun piece inside => plain piece (mem_cons_of_mem _ inside))
      fun content inside => alone content (mem_cons_of_mem _ inside)
    rw [flatMap_cons, flatMap_cons, flatMap_append, ← later, Piece.expandedBy]
    cases piece with
    | letter c =>
      have apart : '[' ∉ [c] := plain _ mem_cons_self
      rw [if_neg (by simp)]
      rw [spelled]
      exact Splice.replaceAll_skip apart ..
    | paste pasteId content =>
      split
      · rename_i same
        cases same
        rw [flatMap_letter _ _ fun _ => rfl]
        exact Splice.replaceAll_match (by simp [spelled]) ..
      · rename_i other
        obtain ⟨second, plainToo, spelledToo⟩ := pasteMarker_cons pasteId content
        have apart : ¬ pasteMarker stored.1 stored.2 <+:
            pasteMarker pasteId content ++ pieces.flatMap Piece.shown := by
          intro starts
          cases pasteMarker_id starts
          exact other (congrArg _ (alone content mem_cons_self))
        rw [flatMap_singleton]
        show Splice.replaceAll _ _ (pasteMarker pasteId content ++ _) =
          pasteMarker pasteId content ++ _
        rw [spelledToo, cons_append] at apart ⊢
        rw [Splice.replaceAll_pass apart, spelled, Splice.replaceAll_skip plainToo, cons_append]

theorem mem_expandedBy {stored : Nat × Str} {piece : Piece}
    (inside : piece ∈ pieces.flatMap (Piece.expandedBy stored)) :
    (paste stored.1 stored.2 ∈ pieces ∧ ∃ c ∈ stored.2, letter c = piece) ∨
      piece ∈ pieces ∧ piece ≠ paste stored.1 stored.2 := by
  obtain ⟨source, member, made⟩ := mem_flatMap.mp inside
  unfold Piece.expandedBy at made
  split at made
  · rename_i same
    exact .inl ⟨same ▸ member, mem_map.mp made⟩
  · rename_i other
    cases mem_singleton.mp made
    exact .inr ⟨member, other⟩

/-- A text of letters that open no bracket and of markers of stored pastes: each marker becomes its
paste and nothing else changes, in whatever order the pastes are gone through. -/
theorem expandPasteMarkers_shown {order : List (Nat × Str)}
    (ids : (order.map Prod.fst).Nodup) (plain : ∀ piece ∈ pieces, '[' ∉ piece.content)
    (stored : ∀ pasteId content, paste pasteId content ∈ pieces → (pasteId, content) ∈ order) :
    Editor.expandPasteMarkers order (pieces.flatMap Piece.shown) =
      pieces.flatMap Piece.content := by
  induction order generalizing pieces with
  | nil =>
    refine flatMap_congr fun piece inside => ?_
    cases piece with
    | letter c => rfl
    | paste pasteId content => cases stored pasteId content inside
  | cons first order ih =>
    rw [map_cons, nodup_cons] at ids
    have alone (content : Str) (inside : paste first.1 content ∈ pieces) :
        content = first.2 := by
      rcases mem_cons.mp (stored _ _ inside) with same | later
      · exact congrArg Prod.snd same
      · exact absurd (mem_map_of_mem later) ids.1
    rw [Editor.expandPasteMarkers, foldl_cons, replaceAll_shown plain alone,
      ← Editor.expandPasteMarkers, ih ids.2, flatMap_assoc]
    · refine flatMap_congr fun piece _ => ?_
      unfold Piece.expandedBy
      split
      · rename_i same
        rw [same, flatMap_letter _ _ fun _ => rfl]
        rfl
      · exact flatMap_singleton ..
    · intro piece inside
      rcases mem_expandedBy inside with ⟨here, c, within, rfl⟩ | ⟨before, _⟩
      · exact fun bracket => plain _ here (mem_singleton.mp bracket ▸ within)
      · exact plain piece before
    · intro pasteId content inside
      rcases mem_expandedBy inside with ⟨_, c, _, none⟩ | ⟨before, other⟩
      · cases none
      · rcases mem_cons.mp (stored _ _ before) with same | later
        · exact absurd (congrArg (fun stored => paste stored.1 stored.2) same) other
        · exact later

/-- The later paste is expanded first. -/
theorem expandPasteMarkers_shown_two :
    Editor.expandPasteMarkers [(2, ['c', '\n']), (1, ['b'])]
      ([letter 'a', paste 1 ['b'], letter ',', paste 2 ['c', '\n']].flatMap Piece.shown) =
        ['a', 'b', ',', 'c', '\n'] :=
  expandPasteMarkers_shown (by decide) (by decide) (by simp [or_comm])

end expansion

end PiRust.Editing
