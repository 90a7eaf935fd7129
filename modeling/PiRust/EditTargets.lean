import Mathlib.Data.List.Forall2
import PiRust.EditTool

/- Which part of a file an edit replaces, and whether it could have been another one. -/
namespace PiRust.EditTool

open Splice List

variable {nfkc : Str → Str} {base normalized : Str} {path : String} {total : Nat}

/-- What `fuzzyFindText` and the count say of an edit that is matched. -/
structure Found (nfkc : Str → Str) (base : Str) (e : Edit) (m : Matched) : Prop where
  place : find Char.utf8Size e.oldText base = some m.idx ∧ m.len = Str.len e.oldText ∨
    find Char.utf8Size e.oldText base = none ∧
      find Char.utf8Size (normalizeForFuzzy nfkc e.oldText) (normalizeForFuzzy nfkc base) =
        some m.idx ∧
      m.len = Str.len (normalizeForFuzzy nfkc e.oldText)
  once : countOccurrences base e.oldText ≤ 1
  newText : m.newText = e.newText

theorem fuzzyFindText_found {oldText : Str} {idx len : Nat} {fuzzy : Bool}
    (found : fuzzyFindText nfkc base oldText = (true, idx, len, fuzzy)) :
    find Char.utf8Size oldText base = some idx ∧ len = Str.len oldText ∨
      find Char.utf8Size oldText base = none ∧
        find Char.utf8Size (normalizeForFuzzy nfkc oldText) (normalizeForFuzzy nfkc base) =
          some idx ∧
        len = Str.len (normalizeForFuzzy nfkc oldText) := by
  unfold fuzzyFindText Str.find at found
  split at found
  · next literal =>
    cases found
    exact .inl ⟨literal, rfl⟩
  · next absent =>
    dsimp only at found
    split at found
    · next present =>
      cases found
      exact .inr ⟨absent, present, rfl⟩
    · cases found

variable {edits : List Edit}
variable {matched : List Matched} {i : Nat} {text : Str} {m : Matched}

theorem matchEdits_ok (ok : matchEdits nfkc base path total i edits = .ok matched) :
    Forall₂ (Found nfkc base) edits matched ∧
      matched.map Matched.edit = range' i edits.length := by
  induction edits generalizing i matched with
  | nil =>
    cases ok
    exact ⟨.nil, rfl⟩
  | cons e edits ih =>
    rw [matchEdits] at ok
    rcases found : fuzzyFindText nfkc base e.oldText with ⟨present, idx, len, fuzzy⟩
    rw [found] at ok
    cases present with
    | false => cases ok
    | true =>
      simp only [Bool.not_true, Bool.false_eq_true, if_false] at ok
      split at ok
      · cases ok
      · next few =>
        cases rest : matchEdits nfkc base path total (i + 1) edits with
        | error error =>
          rw [rest] at ok
          cases ok
        | ok later =>
          rw [rest] at ok
          cases ok
          obtain ⟨places, numbers⟩ := ih rest
          have here : Found nfkc base e ⟨i, idx, len, e.newText⟩ :=
            ⟨fuzzyFindText_found found, Nat.le_of_not_lt few, rfl⟩
          exact ⟨.cons here places, by rw [map_cons, numbers]; rfl⟩

theorem checkOverlaps_ok (ok : checkOverlaps path matched = .ok ()) :
    matched.Pairwise fun former latter => former.idx + former.len ≤ latter.idx := by
  induction matched with
  | nil => exact .nil
  | cons a rest ih =>
    cases rest with
    | nil => exact pairwise_singleton _ a
    | cons b rest =>
      rw [checkOverlaps] at ok
      split at ok
      · cases ok
      · next clear =>
        have later := ih ok
        refine .cons (fun c member => ?_) later
        rcases mem_cons.mp member with rfl | behind
        · exact Nat.le_of_not_lt clear
        · have := rel_of_pairwise_cons later behind
          omega

theorem applyEdits_ok {contents : Str × Str}
    (ok : applyEdits nfkc normalized edits path = some (.ok contents)) :
    checkOldTexts path edits.length 0 (edits.map Edit.normalized) = .ok () ∧
      ∃ found, matchEdits nfkc (matchingBase nfkc normalized (edits.map Edit.normalized)) path
          edits.length 0 (edits.map Edit.normalized) = .ok found ∧
        checkOverlaps path (sortMatched found) = .ok () ∧
        replaceMatched normalized (matchingBase nfkc normalized (edits.map Edit.normalized)) path
          (usedFuzzy normalized (edits.map Edit.normalized)) (sortMatched found) =
            some (.ok contents.2) ∧
        contents.1 = normalized := by
  unfold applyEdits at ok
  dsimp only at ok
  split at ok
  · cases ok
  · next checked =>
    refine ⟨checked, ?_⟩
    split at ok
    · cases ok
    · next found matches_ =>
      refine ⟨found, matches_, ?_⟩
      split at ok
      · cases ok
      · next clear =>
        refine ⟨clear, ?_⟩
        obtain ⟨replaced, wrote, same⟩ := Option.map_eq_some_iff.mp ok
        cases replaced with
        | error error => cases same
        | ok newContent =>
          by_cases unchanged : normalized = newContent
          · simp [unchanged, bind, Except.bind, throw, throwThe, MonadExceptOf.throw] at same
          · simp only [bind, Except.bind, unchanged, if_false, pure, Except.pure] at same
            cases same
            exact ⟨wrote, rfl⟩

/-- The text of an edit that is looked for: itself where it occurs, its fuzzy form elsewhere. -/
def target (nfkc : Str → Str) (base : Str) (e : Edit) : Str :=
  if Str.contains base e.oldText then e.oldText else normalizeForFuzzy nfkc e.oldText

/-- A match of the only place of its text. -/
structure OnlyPlace (base text : Str) (m : Matched) : Prop where
  nonempty : text ≠ []
  occurs : OccursAt Char.utf8Size text base m.idx
  length : m.len = Str.len text
  only : ∀ n, OccursAt Char.utf8Size text base n → n = m.idx

/-- Every edit replaces the only place of its text, and no two of these places meet. -/
structure Unambiguous (nfkc : Str → Str) (base : Str) (edits : List Edit)
    (matched : List Matched) : Prop where
  numbers : matched.map Matched.edit = range edits.length
  only : Forall₂ (fun e m => OnlyPlace base (target nfkc base e) m) edits matched
  apart : matched.Pairwise fun m other =>
    m.idx + m.len ≤ other.idx ∨ other.idx + other.len ≤ m.idx

/-- The text that is looked for has characters, is counted at most once in the base, does not
stand across itself there, and stands first where its fuzzy form was found. -/
structure Definite (nfkc : Str → Str) (base : Str) (e : Edit) : Prop where
  nonempty : target nfkc base e ≠ []
  once : countOccurrences base (target nfkc base e) ≤ 1
  clear : ¬ Overlapping (target nfkc base e) base
  aligned : Str.contains base e.oldText = false →
    Str.find base (target nfkc base e) = Str.find (normalizeForFuzzy nfkc base) (target nfkc base e)

theorem countOccurrences_eq (nonempty : text ≠ []) :
    countOccurrences base text = countMatches text base := by
  rw [countOccurrences, if_neg (by simpa using nonempty)]

theorem onlyPlace_iff (nonempty : text ≠ []) (length : m.len = Str.len text) :
    OnlyPlace base text m ↔
      find Char.utf8Size text base = some m.idx ∧ countOccurrences base text ≤ 1 ∧
        ¬ Overlapping text base := by
  rw [countOccurrences_eq nonempty]
  constructor
  · intro place
    have found : find Char.utf8Size text base = some m.idx :=
      find_eq_of_first place.occurs fun n occurs => by rw [place.only n occurs]
    exact ⟨found, (only_iff Char.utf8Size_pos nonempty found).mp place.only⟩
  · rintro ⟨found, counted⟩
    exact ⟨nonempty, (find_spec found).1, length,
      (only_iff Char.utf8Size_pos nonempty found).mpr counted⟩

theorem Found.onlyPlace_iff {e : Edit} (found : Found nfkc base e m) (nonempty : e.oldText ≠ []) :
    OnlyPlace base (target nfkc base e) m ↔ Definite nfkc base e := by
  rcases found.place with ⟨literal, length⟩ | ⟨absent, fuzzy, length⟩
  · have contains : Str.contains base e.oldText = true := by
      rw [Str.contains, Str.find, literal]
      rfl
    have text : target nfkc base e = e.oldText := if_pos contains
    rw [text, EditTool.onlyPlace_iff nonempty length]
    constructor
    · rintro ⟨_, once, clear⟩
      refine ⟨by rwa [text], by rwa [text], by rwa [text], fun other => ?_⟩
      rw [contains] at other
      cases other
    · rintro ⟨_, once, clear, _⟩
      rw [text] at once clear
      exact ⟨literal, once, clear⟩
  · have contains : Str.contains base e.oldText = false := by
      rw [Str.contains, Str.find, absent]
      rfl
    have text : target nfkc base e = normalizeForFuzzy nfkc e.oldText := by
      rw [target, contains]
      rfl
    constructor
    · intro place
      obtain ⟨here, once, clear⟩ := (EditTool.onlyPlace_iff place.nonempty place.length).mp place
      refine ⟨place.nonempty, once, clear, fun _ => ?_⟩
      rw [Str.find, Str.find, here, text, fuzzy]
    · intro definite
      refine (EditTool.onlyPlace_iff definite.nonempty (by rw [text]; exact length)).mpr
        ⟨?_, definite.once, definite.clear⟩
      have aligned := definite.aligned contains
      rw [Str.find, Str.find] at aligned
      rw [aligned, text, fuzzy]

theorem checkOldTexts_ok (ok : checkOldTexts path total i edits = .ok ()) :
    ∀ e ∈ edits, e.oldText ≠ [] := by
  induction edits generalizing i with
  | nil => exact forall_mem_nil _
  | cons e edits ih =>
    rw [checkOldTexts] at ok
    split at ok
    · cases ok
    · next full =>
      intro other member
      rcases mem_cons.mp member with rfl | later
      · exact mt isEmpty_iff.mpr full
      · exact ih ok other later

theorem apart_of_sorted {found : List Matched}
    (ok : checkOverlaps path (sortMatched found) = .ok ()) :
    found.Pairwise fun m other => m.idx + m.len ≤ other.idx ∨ other.idx + other.len ≤ m.idx := by
  have sorted := (checkOverlaps_ok ok).imp (S := fun m other : Matched =>
    m.idx + m.len ≤ other.idx ∨ other.idx + other.len ≤ m.idx) .inl
  exact ((perm_insertionSort _ found).pairwise_iff Or.symm).mp sorted

theorem forall₂_iff_forall {α β : Type} {xs : List α} {ys : List β} {R P : α → β → Prop}
    {Q : α → Prop} (related : Forall₂ R xs ys)
    (each : ∀ x ∈ xs, ∀ y, R x y → (P x y ↔ Q x)) :
    Forall₂ P xs ys ↔ ∀ x ∈ xs, Q x := by
  induction related with
  | nil => simp
  | cons here _ ih =>
    rw [forall₂_cons, forall_mem_cons, each _ mem_cons_self _ here,
      ih fun x member => each x (mem_cons_of_mem _ member)]

/-- An edit list that is applied replaces the only place of every text, and no part of the base
twice, exactly when every text that is looked for is definite. -/
theorem applyEdits_unambiguous_iff {edits : List Edit} {contents : Str × Str}
    (ok : applyEdits nfkc normalized edits path = some (.ok contents)) :
    (∃ matched, matchEdits nfkc (matchingBase nfkc normalized (edits.map Edit.normalized)) path
        edits.length 0 (edits.map Edit.normalized) = .ok matched ∧
      Unambiguous nfkc (matchingBase nfkc normalized (edits.map Edit.normalized))
        (edits.map Edit.normalized) matched) ↔
      ∀ e ∈ edits.map Edit.normalized,
        Definite nfkc (matchingBase nfkc normalized (edits.map Edit.normalized)) e := by
  obtain ⟨checked, found, matched, clear, _, _⟩ := applyEdits_ok ok
  obtain ⟨places, numbers⟩ := matchEdits_ok matched
  have full := checkOldTexts_ok checked
  have only := forall₂_iff_forall places fun e member m here => here.onlyPlace_iff (full e member)
  constructor
  · rintro ⟨others, same, unambiguous⟩
    rw [matched] at same
    cases same
    exact only.mp unambiguous.only
  · intro definite
    refine ⟨found, matched, ?_, only.mpr definite, apart_of_sorted clear⟩
    rw [numbers, range_eq_range']

/-- The last letter and the first. -/
def letterEdits : List Edit := [⟨['c'], ['y', 'z']⟩, ⟨['a'], ['x']⟩]

theorem letter_unambiguous :
    ∃ matched, matchEdits id (matchingBase id ['a', 'b', 'c'] letterEdits) "f" 2 0 letterEdits =
        .ok matched ∧
      Unambiguous id (matchingBase id ['a', 'b', 'c'] letterEdits) letterEdits matched := by
  have applied : applyEdits id ['a', 'b', 'c'] letterEdits "f" =
      some (.ok (['a', 'b', 'c'], ['x', 'b', 'y', 'z'])) := rfl
  refine (applyEdits_unambiguous_iff applied).mpr fun e member => ?_
  rcases mem_pair.mp member with rfl | rfl
  all_goals
    refine ⟨by decide, by decide, ?_, by decide⟩
    rintro ⟨shift, inside, apart, _⟩
    have short : shift < 1 := inside
    omega

/-- Two blanks do not occur in a text without blanks, and their fuzzy form is empty: the edit
succeeds, and its new text is put in front of the file. -/
theorem blank_target_inserts :
    applyEdits id ['a', 'b', 'c'] [⟨[' ', ' '], ['x']⟩] "f" =
        some (.ok (['a', 'b', 'c'], ['x', 'a', 'b', 'c'])) ∧
      ¬ ∃ matched, matchEdits id (matchingBase id ['a', 'b', 'c']
          ([⟨[' ', ' '], ['x']⟩] : List Edit)) "f" 1 0 [⟨[' ', ' '], ['x']⟩] = .ok matched ∧
        Unambiguous id (matchingBase id ['a', 'b', 'c'] [⟨[' ', ' '], ['x']⟩])
          [⟨[' ', ' '], ['x']⟩] matched := by
  refine ⟨rfl, ?_⟩
  rintro ⟨matched, ok, unambiguous⟩
  have only := unambiguous.only
  cases ok
  obtain ⟨place, _⟩ := forall₂_cons.mp only
  exact place.nonempty (by decide)

end PiRust.EditTool
