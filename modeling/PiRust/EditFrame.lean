import PiRust.EditTargets
import PiRust.FileLetters

/- What an edit leaves of the bytes of a file outside the text that it replaces. -/
namespace PiRust.EditTool

open Splice List

variable {nfkc : Str → Str} {raw bytes : Bytes} {edits : List Edit} {path : String}

/-- The content as the edit tool sees it. -/
def seenText (raw : Bytes) : Str := normalizeToLf (stripBom (fromUtf8Lossy raw).toList).2

def fileCrlf (raw : Bytes) : Bool := detectCrlf (stripBom (fromUtf8Lossy raw).toList).2

def editRegion (raw : Bytes) (e : Edit) : Region UInt8 where
  start := (Str.find (seenText raw) e.oldText).getD 0
  length := Str.len e.oldText
  new := Str.asBytes (restoreCrlf e.newText (fileCrlf raw))

def editRegions (raw : Bytes) (edits : List Edit) : List (Region UInt8) :=
  (edits.map Edit.normalized).map (editRegion raw)

/-- The original bytes of a file, with the matched regions replaced. -/
def editedFile (raw : Bytes) (edits : List Edit) : Bytes :=
  (seenFile raw).1 ++
    rewrite (fun u : Letter => u.char.utf8Size) Letter.bytes (editRegions raw edits) 0
      (seenFile raw).2

/-- A line feed was read from the line ending of the file, another character from its encoding. -/
def Letter.Regular (crlf : Bool) (u : Letter) : Prop :=
  u.bytes =
    if u.char = '\n' then (if crlf then [0x0D, 0x0A] else [0x0A])
    else String.utf8EncodeChar u.char

/-- Every letter outside the matched regions is regular. -/
def RegularOutside (raw : Bytes) (edits : List Edit) : Prop :=
  ∀ front u back, (seenFile raw).2 = front ++ u :: back →
    (editRegions raw edits).any
        (Region.covers · (width (fun v : Letter => v.char.utf8Size) front)) = false →
      u.Regular (fileCrlf raw)

def written (crlf : Bool) (c : Char) : Bytes := Str.asBytes (restoreCrlf [c] crlf)

theorem asBytes_restoreCrlf (text : Str) (crlf : Bool) :
    Str.asBytes (restoreCrlf text crlf) = text.flatMap (written crlf) := by
  cases crlf with
  | false =>
    refine congrArg (flatMap · text) (funext fun c => ?_)
    exact (flatMap_singleton _ c).symm
  | true =>
    have restored (s : Str) : restoreCrlf s true =
        s.flatMap fun c => if c = '\n' then ['\r', '\n'] else [c] := replaceAll_singleton ..
    rw [restored, Str.asBytes, flatMap_assoc]
    refine congrArg (flatMap · text) (funext fun c => ?_)
    rw [written, restored, flatMap_singleton]
    rfl

theorem written_eq (crlf : Bool) (c : Char) :
    written crlf c =
      if c = '\n' then (if crlf then [0x0D, 0x0A] else [0x0A]) else String.utf8EncodeChar c := by
  have whole : written false c = String.utf8EncodeChar c := flatMap_singleton _ c
  by_cases feed : c = '\n'
  · rw [if_pos feed, feed]
    cases crlf <;> rfl
  · rw [if_neg feed]
    cases crlf with
    | false => exact whole
    | true =>
      rw [written, restoreCrlf, if_pos rfl, replaceAll_singleton, flatMap_singleton, if_neg feed]
      exact whole

def notReturn (byte : UInt8) : Nat := if byte = 0x0D then 0 else 1

theorem width_notReturn {bytes : Bytes} (high : ∀ b ∈ bytes, 0x80 ≤ b.toNat) :
    width notReturn bytes = bytes.length := by
  induction bytes with
  | nil => rfl
  | cons b rest ih =>
    rw [forall_mem_cons] at high
    have other : b ≠ 0x0D := by
      rintro rfl
      exact absurd high.1 (by decide)
    rw [width_cons, ih high.2, notReturn, if_neg other, length_cons, Nat.add_comm]

theorem clash_of_head {front back : Bytes} (apart : front.head? ≠ back.head?)
    (nonempty : front ≠ []) (full : back ≠ []) : Clash front back := by
  intro rest last same
  obtain ⟨a, _, rfl⟩ := exists_cons_of_ne_nil nonempty
  obtain ⟨b, _, rfl⟩ := exists_cons_of_ne_nil full
  exact apart (congrArg some (cons.inj same).1)

theorem Letter.Seen.written {u : Letter} (seen : u.Seen) (crlf : Bool) :
    width notReturn u.bytes ≤ width notReturn (EditTool.written crlf u.char) ∧
      (width notReturn u.bytes = width notReturn (EditTool.written crlf u.char) →
        u.bytes = EditTool.written crlf u.char ∨ Clash u.bytes (EditTool.written crlf u.char)) := by
  rw [written_eq]
  cases seen with
  | plain c =>
    dsimp only
    by_cases feed : c = '\n'
    · subst feed
      cases crlf with
      | false => exact ⟨Nat.le_refl _, fun _ => .inl rfl⟩
      | true =>
        exact ⟨by decide, fun _ => .inr (clash_of_head (by decide) (by decide) (by decide))⟩
    · rw [if_neg feed]
      exact ⟨Nat.le_refl _, fun _ => .inl rfl⟩
  | crlf =>
    cases crlf with
    | false =>
      exact ⟨by decide, fun _ => .inr (clash_of_head (by decide) (by decide) (by decide))⟩
    | true => exact ⟨Nat.le_refl _, fun _ => .inl rfl⟩
  | cr => cases crlf <;> exact ⟨by decide, nofun⟩
  | @broken bytes broken =>
    have replaced : String.utf8EncodeChar replacementChar = [0xEF, 0xBF, 0xBD] := by decide
    dsimp only
    rw [if_neg (by decide), width_notReturn broken.high, replaced]
    have three : width notReturn [0xEF, 0xBF, 0xBD] = 3 := by decide
    rw [three]
    refine ⟨broken.short, fun same => .inr ?_⟩
    exact clash_of_head (broken.lead same) broken.nonempty (by decide)

theorem forall₂_right {α β : Type} {xs : List α} {ys : List β} {R : α → β → Prop}
    {P : β → Prop} (related : Forall₂ R xs ys) (each : ∀ x ∈ xs, ∀ y, R x y → P y) :
    ∀ y ∈ ys, P y := by
  induction related with
  | nil => exact forall_mem_nil _
  | cons here _ ih =>
    rw [forall_mem_cons]
    exact ⟨each _ mem_cons_self _ here, ih fun x member => each x (mem_cons_of_mem _ member)⟩

theorem map_eq_of_forall₂ {α β γ : Type} {xs : List α} {ys : List β} {R : α → β → Prop}
    {f : α → γ} {g : β → γ} (related : Forall₂ R xs ys)
    (each : ∀ x ∈ xs, ∀ y, R x y → f x = g y) : xs.map f = ys.map g := by
  induction related with
  | nil => rfl
  | cons here _ ih =>
    rw [map_cons, map_cons, each _ mem_cons_self _ here,
      ih fun x member => each x (mem_cons_of_mem _ member)]

section places

variable {e : Edit} {m : Matched} {found : List Matched}
variable {base : Str}

theorem Found.literal (matched : Found nfkc base e m)
    (literal : Str.contains base e.oldText = true) :
    find Char.utf8Size e.oldText base = some m.idx ∧ m.len = Str.len e.oldText := by
  rcases matched.place with here | ⟨absent, _⟩
  · exact here
  · rw [Str.contains, Str.find, absent] at literal
    cases literal

theorem Found.within (matched : Found nfkc base e m) (literal : Str.contains base e.oldText = true)
    (full : e.oldText ≠ []) : m.region.Within Char.utf8Size base := by
  obtain ⟨found, length⟩ := matched.literal literal
  refine ⟨?_, e.oldText, (find_spec found).1, length.symm⟩
  by_contra empty
  have none_left : width Char.utf8Size e.oldText = 0 := by
    have : m.len = 0 := Nat.eq_zero_of_not_pos empty
    rw [← this, length, Str.len]
  exact full (eq_nil_of_width Char.utf8Size_pos none_left)

theorem Found.region (matched : Found nfkc (seenText raw) e m)
    (literal : Str.contains (seenText raw) e.oldText = true) :
    editRegion raw e = m.region.flatMap (EditTool.written (fileCrlf raw)) := by
  obtain ⟨found, length⟩ := matched.literal literal
  rw [editRegion, Str.find, found, ← length, asBytes_restoreCrlf, ← matched.newText]
  rfl

theorem replaceRange_sorted {sorted : List Matched} (clear : checkOverlaps path sorted = .ok ())
    (within : ∀ m ∈ sorted, m.region.Within Char.utf8Size base) :
    sorted.reverse.foldlM replaceRange base =
      some (rewrite Char.utf8Size (fun c => [c]) (sorted.map Matched.region) 0 base) := by
  have apart : Apart (sorted.map Matched.region) := by
    rw [Apart, pairwise_map]
    exact checkOverlaps_ok clear
  have spliced := replaceRange_reverse Char.utf8Size_pos [] base apart (fun region member => by
      obtain ⟨m, listed, rfl⟩ := mem_map.mp member
      exact within m listed)
    (fun region _ => Nat.zero_le _)
  rw [← map_reverse, foldlM_map] at spliced
  exact spliced

theorem starts_apart {sorted : List Matched} (clear : checkOverlaps path sorted = .ok ())
    (within : ∀ m ∈ sorted, m.region.Within Char.utf8Size base) :
    sorted.Pairwise fun former latter => former.idx ≠ latter.idx := by
  refine (checkOverlaps_ok clear).imp_of_mem fun {former latter} member _ ordered => ?_
  have nonempty : 0 < former.len := (within former member).1
  omega

end places

/-- The text of every edit occurs in the content that the tool sees. -/
def Literal (raw : Bytes) (edits : List Edit) : Prop :=
  ∀ e ∈ edits.map Edit.normalized, Str.contains (seenText raw) e.oldText = true

theorem Literal.usedFuzzy (literal : Literal raw edits) :
    EditTool.usedFuzzy (seenText raw) (edits.map Edit.normalized) = false := by
  rw [EditTool.usedFuzzy, any_eq_false]
  intro e member
  rw [literal e member]
  decide

variable {contents : Str × Str}

theorem applyEdits_literal (literal : Literal raw edits)
    (ok : applyEdits nfkc (seenText raw) edits path = some (.ok contents)) :
    contents.2.flatMap (EditTool.written (fileCrlf raw)) =
      rewrite Char.utf8Size (EditTool.written (fileCrlf raw)) (editRegions raw edits) 0
        (seenText raw) := by
  obtain ⟨checked, found, matched, clear, replaced, _⟩ := applyEdits_ok ok
  have base : matchingBase nfkc (seenText raw) (edits.map Edit.normalized) = seenText raw := by
    rw [matchingBase, literal.usedFuzzy]
    rfl
  rw [base] at matched replaced
  rw [literal.usedFuzzy, replaceMatched, if_neg Bool.false_ne_true] at replaced
  have places := (matchEdits_ok matched).1
  have full := checkOldTexts_ok checked
  have within : ∀ m ∈ found, m.region.Within Char.utf8Size (seenText raw) :=
    forall₂_right places fun e member m here => here.within (literal e member) (full e member)
  have regions : editRegions raw edits =
      found.map fun m => m.region.flatMap (EditTool.written (fileCrlf raw)) :=
    map_eq_of_forall₂ places fun e member m here => here.region (literal e member)
  have sorted : (sortMatched found).Perm found := perm_insertionSort _ found
  have within' : ∀ m ∈ sortMatched found, m.region.Within Char.utf8Size (seenText raw) :=
    fun m member => within m (sorted.mem_iff.mp member)
  rw [replaceRange_sorted clear within'] at replaced
  have content := Except.ok.inj (Option.some.inj replaced)
  have starts := starts_apart clear within'
  rw [← content, rewrite_flatMap, map_map, regions]
  simp only [flatMap_singleton]
  refine rewrite_perm (sorted.map _) ?_ 0 _
  rw [pairwise_map]
  exact starts

theorem editFile_ok (ok : editFile nfkc raw edits path = some (.ok (bytes, contents))) :
    applyEdits nfkc (seenText raw) edits path = some (.ok contents) ∧
      bytes = (seenFile raw).1 ++ contents.2.flatMap (EditTool.written (fileCrlf raw)) := by
  have unfolded : editFile nfkc raw edits path =
      (applyEdits nfkc (seenText raw) edits path).map fun applied => do
        let contents ← applied
        return (Str.asBytes ((stripBom (fromUtf8Lossy raw).toList).1 ++
          restoreCrlf contents.2 (fileCrlf raw)), contents) := rfl
  rw [unfolded] at ok
  obtain ⟨applied, success, same⟩ := Option.map_eq_some_iff.mp ok
  cases applied with
  | error error => cases same
  | ok contents =>
    cases same
    refine ⟨success, ?_⟩
    rw [Str.asBytes, flatMap_append, ← Str.asBytes, ← Str.asBytes, asBytes_restoreCrlf,
      (seenFile_text raw).1]

theorem editFile_frame_iff (literal : Literal raw edits)
    (ok : editFile nfkc raw edits path = some (.ok (bytes, contents))) :
    bytes = editedFile raw edits ↔ RegularOutside raw edits := by
  obtain ⟨success, rfl⟩ := editFile_ok ok
  have content := applyEdits_literal literal success
  have letters : seenText raw = (seenFile raw).2.map Letter.char := (seenFile_text raw).2
  rw [letters, rewrite_map] at content
  rw [content, editedFile, append_cancel_left_eq, eq_comm]
  refine (rewrite_eq_iff notReturn (editRegions raw edits) 0
    (fun u member => ((seenFile_seen raw u member).written _).1)
    fun u member => ((seenFile_seen raw u member).written _).2).trans ?_
  simp [AgreeOutside, RegularOutside, Letter.Regular, written_eq]

/-- A successful call writes the file that it has read, and keeps every byte outside the matched
regions exactly when the file is regular there: valid UTF-8, with one kind of line ending. -/
theorem editExecute_frame_iff {serde : Serde} {resolve : String → String} {ops : EditOperations}
    {args : Value} {target : String} {output : EditOutput}
    (named : (args.get "path").bind Value.asStr = some path)
    (parsed : parseEdits serde args = .ok edits) (read : ops.readFile (resolve path) = .ok raw)
    (literal : Literal raw edits)
    (success : editExecuteWithOperations nfkc serde resolve ops args =
      some ⟨some (target, bytes), .ok output⟩) :
    target = resolve path ∧ (bytes = editedFile raw edits ↔ RegularOutside raw edits) := by
  simp only [editExecuteWithOperations, named, parsed, read] at success
  obtain ⟨edited, ok, same⟩ := Option.map_eq_some_iff.mp success
  cases edited with
  | error error => cases same
  | ok wrote =>
    obtain ⟨bytes', contents⟩ := wrote
    obtain ⟨file, _⟩ := EditRun.mk.inj same
    cases file
    exact ⟨rfl, editFile_frame_iff literal ok⟩

def oneFile (raw : Bytes) : EditOperations := ⟨fun _ => .ok raw, fun _ _ => .ok ()⟩

def oneEdit (oldText newText : String) : Value :=
  .object [("path", .string "f"),
    ("edits", .array [.object [("oldText", .string oldText), ("newText", .string newText)]])]

/-- In a file with line feeds only, the last line is replaced and the first one stays. -/
theorem oneFile_framed : [0x61, 0x0A, 0x63] = editedFile [0x61, 0x0A, 0x62] [⟨['b'], ['c']⟩] := by
  have success : editExecuteWithOperations id Serde.silent id (oneFile [0x61, 0x0A, 0x62])
      (oneEdit "b" "c") = some ⟨some ("f", [0x61, 0x0A, 0x63]),
        .ok ⟨"Successfully replaced 1 block(s) in f.", ['a', '\n', 'b'], ['a', '\n', 'c']⟩⟩ := rfl
  have framed := editExecute_frame_iff rfl
    (show parseEdits Serde.silent (oneEdit "b" "c") = .ok [⟨['b'], ['c']⟩] from rfl) rfl
    (by unfold Literal; decide) success
  refine framed.2.mpr fun front u back split _ => ?_
  have letters : (seenFile [0x61, 0x0A, 0x62]).2 =
      [⟨[0x61], 'a'⟩, ⟨[0x0A], '\n'⟩, ⟨[0x62], 'b'⟩] := rfl
  have member : u ∈ (seenFile [0x61, 0x0A, 0x62]).2 := by simp [split]
  rw [letters] at member
  simp only [mem_cons, not_mem_nil, or_false] at member
  rcases member with rfl | rfl | rfl <;> rfl

/-- In a file with both line endings, replacing the last line changes the ending of the second
one. -/
theorem mixedFile_changed :
    editExecuteWithOperations id Serde.silent id
        (oneFile [0x61, 0x0D, 0x0A, 0x62, 0x0A, 0x63]) (oneEdit "c" "d") =
      some ⟨some ("f", [0x61, 0x0D, 0x0A, 0x62, 0x0D, 0x0A, 0x64]),
        .ok ⟨"Successfully replaced 1 block(s) in f.",
          ['a', '\n', 'b', '\n', 'c'], ['a', '\n', 'b', '\n', 'd']⟩⟩ ∧
      Literal [0x61, 0x0D, 0x0A, 0x62, 0x0A, 0x63] [⟨['c'], ['d']⟩] ∧
      [0x61, 0x0D, 0x0A, 0x62, 0x0D, 0x0A, 0x64] ≠
        editedFile [0x61, 0x0D, 0x0A, 0x62, 0x0A, 0x63] [⟨['c'], ['d']⟩] := by
  have kept : editedFile [0x61, 0x0D, 0x0A, 0x62, 0x0A, 0x63] [⟨['c'], ['d']⟩] =
      [0x61, 0x0D, 0x0A, 0x62, 0x0A, 0x64] := rfl
  refine ⟨rfl, by unfold Literal; decide, ?_⟩
  rw [kept]
  decide

end PiRust.EditTool
