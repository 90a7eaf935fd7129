import PiRust.ListSelection

/- `fuzzy.rs`, with its scores in tenths: the matcher of the lists. -/
namespace PiRust.FuzzyMatch

open List

open ListSelection (Fuzzy)

def isBoundary (ch : Char) : Bool :=
  isWhitespace ch || ch = '-' || ch = '_' || ch = '.' || ch = '/' || ch = ':'

/-- What the loop of `match_query` keeps; `query` is what is still to be found. -/
structure Scan where
  query : List Char
  score : Int := 0
  lastMatchIndex : Option Nat := none
  consecutiveMatches : Int := 0

def Scan.advance (before : Option Char) (index : Nat) (ch : Char) (scan : Scan) : Scan :=
  match scan.query with
  | [] => scan
  | wanted :: rest =>
    if ch = wanted then
      let adjacent := scan.lastMatchIndex = some (index - 1)
      let consecutive := if adjacent then scan.consecutiveMatches + 1 else 0
      let apart : Int :=
        if adjacent then -(50 * consecutive)
        else ((scan.lastMatchIndex.map fun last => 20 * (index - last - 1 : Nat)).getD 0 : Nat)
      let boundary : Int := if index = 0 ∨ before.any isBoundary then -100 else 0
      ⟨rest, scan.score + apart + boundary + index, some index, consecutive⟩
    else scan

def scan (before : Option Char) (index : Nat) : List Char → Scan → Scan
  | [], found => found
  | ch :: rest, found => scan (some ch) (index + 1) rest (found.advance before index ch)

def matchQuery (query text : List Char) : Option Int :=
  if query = [] then some 0
  else if query.length > text.length then none
  else
    let found := scan none 0 text { query }
    if found.query ≠ [] then none
    else some (if query = text then found.score - 1000 else found.score)

/-- A query of `first` and then `second` characters, the other way round. -/
def swapped (first second : Char → Bool) (query : List Char) : Option (List Char) :=
  (query.findIdx? second).bind fun split =>
    let (front, back) := query.splitAt split
    if front ≠ [] ∧ back ≠ [] ∧ front.all first ∧ back.all second then some (back ++ front)
    else none

def swappedAlphaNumericQuery (query : List Char) : Option (List Char) :=
  (swapped Char.isAlpha Char.isDigit query).or (swapped Char.isDigit Char.isAlpha query)

section

variable (lower : String → String)

/-- `fuzzy_match`, with `str::to_lowercase` as `lower`. -/
def fuzzyMatch (query text : String) : Option Int :=
  let queryLower := (lower query).toList
  let textLower := (lower text).toList
  (matchQuery queryLower textLower).or
    ((swappedAlphaNumericQuery queryLower).bind fun swappedQuery =>
      (matchQuery swappedQuery textLower).map (· + 50))

abbrev fuzzy : Fuzzy := ⟨Int, 0, (· + ·), compare, fuzzyMatch lower⟩

def Accepts (token text : String) : Prop :=
  (lower token).toList.Sublist (lower text).toList ∨
    ∃ query, swappedAlphaNumericQuery (lower token).toList = some query ∧
      query.Sublist (lower text).toList

def totalScore (query text : String) : Int :=
  ((fuzzy lower).total (Fuzzy.splitWhitespace query) text).getD (0 : Int)

end

theorem scan_query (before : Option Char) (index : Nat) (text : List Char) (found : Scan) :
    (scan before index text found).query = [] ↔ found.query.Sublist text := by
  induction text generalizing before index found with
  | nil => exact sublist_nil.symm
  | cons ch rest ih =>
    unfold scan
    rw [ih]
    unfold Scan.advance
    split
    · rename_i done
      rw [done]
      exact iff_of_true (nil_sublist _) (nil_sublist _)
    · rename_i wanted left query
      rw [query]
      split
      · rename_i same
        rw [same]
        exact cons_sublist_cons.symm
      · rename_i other
        rw [query, sublist_cons_iff]
        refine (or_iff_left ?_).symm
        rintro ⟨_, same, _⟩
        exact other (cons.inj same).1.symm

theorem matchQuery_isSome (query text : List Char) :
    (matchQuery query text).isSome = true ↔ query.Sublist text := by
  unfold matchQuery
  split
  · rename_i none
    rw [none]
    exact iff_of_true rfl (nil_sublist _)
  · split
    · rename_i longer
      exact iff_of_false Bool.false_ne_true fun inside => Nat.not_le.mpr longer inside.length_le
    · rw [← scan_query none 0 text { query }]
      dsimp only
      split
      · rename_i left
        exact iff_of_false Bool.false_ne_true left
      · rename_i all
        exact iff_of_true rfl (Decidable.not_not.mp all)

theorem fuzzyMatch_isSome (lower : String → String) (query text : String) :
    (fuzzyMatch lower query text).isSome = true ↔ Accepts lower query text := by
  unfold fuzzyMatch Accepts
  rw [Option.isSome_or, Bool.or_eq_true, matchQuery_isSome]
  refine or_congr_right ?_
  cases swappedAlphaNumericQuery (lower query).toList with
  | none => simp
  | some swappedQuery => simp [matchQuery_isSome]

section

variable {lower : String → String} {texts : List String} {query : String}

theorem total_isSome (tokens : List String) (text : String) :
    ((fuzzy lower).total tokens text).isSome = true ↔
      ∀ token ∈ tokens, Accepts lower token text := by
  unfold Fuzzy.total
  generalize (fuzzy lower).zero = sum
  induction tokens generalizing sum with
  | nil => exact iff_of_true rfl (forall_mem_nil _)
  | cons token rest ih =>
    rw [foldlM_cons, forall_mem_cons, ← fuzzyMatch_isSome]
    change Option.isSome (((fuzzyMatch lower token text).map _).bind _) = true ↔ _
    cases fuzzyMatch lower token text with
    | none => exact iff_of_false Bool.false_ne_true fun both => Bool.false_ne_true both.1
    | some score => exact (ih _).trans (and_iff_right rfl).symm

end

theorem then_ne_gt (a b : Int) (i j : Nat) :
    (compare a b).then (compare i j) ≠ .gt ↔ a < b ∨ a = b ∧ i ≤ j := by
  rw [ne_eq, ← Ordering.isLE_iff_ne_gt, Ordering.isLE_then_iff_or, Int.compare_eq_lt,
    Int.compare_eq_eq, Nat.isLE_compare]

theorem mem_results {lower : String → String} {texts : List String} {tokens : List String}
    {index : Nat} {score : Int} :
    (index, score) ∈ texts.zipIdx.filterMap (fun item =>
        ((fuzzy lower).total tokens item.1).map fun score => (item.2, score)) ↔
      ∃ text, texts[index]? = some text ∧ (fuzzy lower).total tokens text = some score := by
  rw [mem_filterMap]
  constructor
  · rintro ⟨⟨text, place⟩, inside, found⟩
    obtain ⟨_, scored, same⟩ := Option.map_eq_some_iff.mp found
    cases same
    exact ⟨text, mem_zipIdx_iff_getElem?.mp inside, scored⟩
  · rintro ⟨text, inside, scored⟩
    exact ⟨(text, index), mem_zipIdx_iff_getElem?.mpr inside,
      Option.map_eq_some_iff.mpr ⟨score, scored, rfl⟩⟩

theorem mergeSort_pairwise (lower : String → String) {results : List (Nat × Int)}
    (apart : results.Pairwise fun one other => one.1 ≠ other.1) :
    (results.mergeSort (fuzzy lower).notAfter).Pairwise fun one other =>
      one.2 < other.2 ∨ one.2 = other.2 ∧ one.1 < other.1 := by
  have notAfter_iff : ∀ one other : Nat × Int, (fuzzy lower).notAfter one other = true ↔
      one.2 < other.2 ∨ one.2 = other.2 ∧ one.1 ≤ other.1 := fun one other =>
    decide_eq_true_iff.trans (then_ne_gt _ _ _ _)
  have ordered := @pairwise_mergeSort _ (fuzzy lower).notAfter (by
    intro a b c
    rw [notAfter_iff, notAfter_iff, notAfter_iff]
    omega) (by
    intro a b
    rw [Bool.or_eq_true, notAfter_iff, notAfter_iff]
    omega) results
  have still := (mergeSort_perm results (fuzzy lower).notAfter).symm.pairwise apart
    fun differ => differ.symm
  refine (ordered.and still).imp fun both => ?_
  have first := (notAfter_iff _ _).mp both.1
  have second := both.2
  omega

/-- The filter gives just the texts that have all tokens, once each, the best scores first and
equal scores in their order; and a scan finds a query in every text of which it is a
subsequence. -/
theorem filterIndices_spec (lower : String → String) (texts : List String) (query : String) :
    let indices := (fuzzy lower).filterIndices texts query
    let score := fun index => totalScore lower query (texts.getD index "")
    indices.Nodup ∧
      (∀ index, index ∈ indices ↔ ∃ text, texts[index]? = some text ∧
        ∀ token ∈ Fuzzy.splitWhitespace query, Accepts lower token text) ∧
      indices.Pairwise (fun i j => score i < score j ∨ score i = score j ∧ i < j) ∧
      ∀ wanted text : List Char, (matchQuery wanted text).isSome = true ↔ wanted.Sublist text := by
  intro indices score
  have sorted : (∀ index, index ∈ indices ↔ ∃ text, texts[index]? = some text ∧
      ∀ token ∈ Fuzzy.splitWhitespace query, Accepts lower token text) ∧
      indices.Pairwise (fun i j => score i < score j ∨ score i = score j ∧ i < j) := by
    unfold indices Fuzzy.filterIndices
    dsimp only
    split
    · rename_i none
      refine ⟨fun index => ?_, pairwise_lt_range.imp fun before => .inr ⟨?_, before⟩⟩
      · rw [none, mem_range]
        constructor
        · exact fun below => ⟨_, getElem?_eq_getElem below,
            forall_mem_nil _⟩
        · rintro ⟨_, inside, _⟩
          exact (List.getElem?_eq_some_iff.mp inside).1
      · unfold score totalScore
        rw [none]
        rfl
    · have apart : texts.zipIdx.Pairwise fun one other => one.2 ≠ other.2 := by
        refine pairwise_map.mp ?_
        rw [zipIdx_map_snd]
        exact nodup_range'
      have differ : (texts.zipIdx.filterMap fun item =>
          ((fuzzy lower).total (Fuzzy.splitWhitespace query) item.1).map fun score =>
            (item.2, score)).Pairwise fun one other => one.1 ≠ other.1 := by
        refine pairwise_filterMap.mpr (apart.imp ?_)
        intro one other unlike first found second next
        obtain ⟨_, _, rfl⟩ := Option.map_eq_some_iff.mp found
        obtain ⟨_, _, rfl⟩ := Option.map_eq_some_iff.mp next
        exact unlike
      have ordered := mergeSort_pairwise lower differ
      refine ⟨fun index => ?_, pairwise_map.mpr (ordered.imp_of_mem ?_)⟩
      · rw [mem_map]
        constructor
        · rintro ⟨⟨_, found⟩, inside, rfl⟩
          obtain ⟨text, there, total⟩ := mem_results.mp (mem_mergeSort.mp inside)
          exact ⟨text, there, (total_isSome _ _).mp (by rw [total]; rfl)⟩
        · rintro ⟨text, there, accepted⟩
          obtain ⟨found, total⟩ := Option.isSome_iff_exists.mp ((total_isSome _ _).mpr accepted)
          exact ⟨(index, found), mem_mergeSort.mpr (mem_results.mpr ⟨text, there, total⟩), rfl⟩
      · have scored : ∀ result : Nat × Int, result ∈ (texts.zipIdx.filterMap fun item =>
            ((fuzzy lower).total (Fuzzy.splitWhitespace query) item.1).map fun score =>
              (item.2, score)).mergeSort (fuzzy lower).notAfter → score result.1 = result.2 := by
          intro result inside
          obtain ⟨text, there, total⟩ := mem_results.mp (mem_mergeSort.mp inside)
          unfold score totalScore
          rw [getD_eq_getElem?_getD, there, Option.getD_some, total]
          rfl
        intro one other first second before
        rwa [scored one first, scored other second]
  refine ⟨sorted.2.imp ?_, sorted.1, sorted.2, matchQuery_isSome⟩
  rintro i j (less | ⟨_, before⟩) rfl
  · exact absurd less (Int.lt_irrefl _)
  · exact absurd before (Nat.lt_irrefl _)

end PiRust.FuzzyMatch
