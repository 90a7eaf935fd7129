import Mathlib.Data.List.Sort
import PiRust.AiTypes
import PiRust.Splice

/- `tools/edit.rs`, and what it uses of `tools/edit_diff.rs` to replace text. -/
namespace PiRust.EditTool

/-- A Rust text as its characters; offsets into it count UTF-8 bytes. -/
abbrev Str := List Char

/-- What an operation gives that slices texts: none when it panics, because an offset lies
inside a character or behind the end. -/
abbrev Sliced (α : Type) := Option α

def Str.find (text pattern : Str) : Option Nat := Splice.find Char.utf8Size pattern text

def Str.contains (text pattern : Str) : Bool := (text.find pattern).isSome

def Str.len (text : Str) : Nat := Splice.width Char.utf8Size text

/-- `text[..end]` and `text[end..]`. -/
def Str.splitAt (text : Str) (offset : Nat) : Sliced (Str × Str) :=
  Splice.cutAt Char.utf8Size text offset

/-- `text[start..end]`. -/
def Str.slice (text : Str) (start «end» : Nat) : Sliced Str := do
  let before ← text.splitAt «end»
  let inside ← Str.splitAt before.1 start
  return inside.2

def Str.asBytes (text : Str) : Bytes := text.flatMap String.utf8EncodeChar

structure Edit where
  oldText : Str
  newText : Str

def detectCrlf (s : Str) : Bool :=
  match Str.find s ['\r', '\n'], Str.find s ['\n'] with
  | some rn, some n => rn ≤ n
  | _, _ => Str.contains s ['\r', '\n']

def normalizeToLf (s : Str) : Str :=
  Splice.replaceAll ['\r'] ['\n'] (Splice.replaceAll ['\r', '\n'] ['\n'] s)

def restoreCrlf (s : Str) (crlf : Bool) : Str :=
  if crlf then Splice.replaceAll ['\n'] ['\r', '\n'] s else s

def bomChar : Char := Char.ofNat 0xFEFF

def stripBom (s : Str) : Str × Str :=
  match s with
  | c :: rest => if c = bomChar then ([c], rest) else ([], s)
  | [] => ([], s)

/-- `str::split` at a character. -/
def splitChar (separator : Char) (text : Str) : List Str :=
  (Framing.pieces separator text).1 ++ [(Framing.pieces separator text).2]

/-- `lines.join("\n")`. -/
def joinLines (lines : List Str) : Str := ['\n'].intercalate lines

def trimEnd (line : Str) : Str := (line.reverse.dropWhile isWhitespace).reverse

def foldChar (c : Char) : Char :=
  let code := c.toNat
  if 0x2018 ≤ code ∧ code ≤ 0x201B then '\''
  else if 0x201C ≤ code ∧ code ≤ 0x201F then '"'
  else if (0x2010 ≤ code ∧ code ≤ 0x2015) ∨ code = 0x2212 then '-'
  else if code = 0xA0 ∨ code = 0x202F ∨ code = 0x205F ∨ code = 0x3000 ∨
      (0x2002 ≤ code ∧ code ≤ 0x200A) then ' '
  else c

/-- `nfkc` is the compatibility normalization of `unicode_normalization`. -/
def normalizeForFuzzy (nfkc : Str → Str) (text : Str) : Str :=
  (List.intercalate ['\n'] ((splitChar '\n' (nfkc text)).map trimEnd)).map foldChar

def countOccurrences (content old : Str) : Nat :=
  if old.isEmpty then 0 else Splice.countMatches old content

def fuzzyFindText (nfkc : Str → Str) (content oldText : Str) : Bool × Nat × Nat × Bool :=
  match Str.find content oldText with
  | some idx => (true, idx, Str.len oldText, false)
  | none =>
    let fuzzyContent := normalizeForFuzzy nfkc content
    let fuzzyOld := normalizeForFuzzy nfkc oldText
    match Str.find fuzzyContent fuzzyOld with
    | some idx => (true, idx, Str.len fuzzyOld, true)
    | none => (false, 0, 0, false)

structure TextReplacement where
  matchIndex : Nat
  matchLength : Nat
  newText : Str

structure LineSpan where
  start : Nat
  «end» : Nat

def splitLinesWithEndings (content : Str) : List Str :=
  let cut := Framing.pieces '\n' content
  cut.1.map (· ++ ['\n']) ++ if cut.2 = [] then [] else [cut.2]

def lineSpans (content : Str) : List LineSpan :=
  go 0 (splitLinesWithEndings content)
where
  go (offset : Nat) : List Str → List LineSpan
    | [] => []
    | line :: rest => ⟨offset, offset + Str.len line⟩ :: go (offset + Str.len line) rest

/-- The first line from `endLine` on that reaches the end of the replacement. -/
def endLineFrom (lines : List LineSpan) (replacementEnd endLine : Nat) : Option Nat :=
  ((lines.drop endLine).findIdx? fun line => ¬ line.end < replacementEnd).map (endLine + ·)

def replacementLineRange (lines : List LineSpan) (replacement : TextReplacement) :
    Option (Nat × Nat) := do
  let replacementStart := replacement.matchIndex
  let replacementEnd := replacement.matchIndex + replacement.matchLength
  let startLine ← lines.findIdx? fun line =>
    replacementStart ≥ line.start ∧ replacementStart < line.end
  let endLine ← endLineFrom lines replacementEnd startLine
  return (startLine, endLine + 1)

def applyReplacements (content : Str) (replacements : List TextReplacement) (offset : Nat) :
    Sliced Str :=
  let ordered := replacements.insertionSort fun a b => b.matchIndex ≤ a.matchIndex
  ordered.foldlM (fun result replacement => do
    guard (offset ≤ replacement.matchIndex)
    let matchIndex := replacement.matchIndex - offset
    let before ← Str.splitAt result matchIndex
    let after ← Str.splitAt result (matchIndex + replacement.matchLength)
    return before.1 ++ replacement.newText ++ after.2) content

structure LineGroup where
  startLine : Nat
  endLine : Nat
  replacements : List TextReplacement

def groupReplacements (lines : List LineSpan) :
    List LineGroup → List TextReplacement → Option (List LineGroup)
  | groups, [] => some groups
  | groups, replacement :: rest => do
      let range ← replacementLineRange lines replacement
      match groups.getLast? with
      | some last =>
        if range.1 < last.endLine then
          groupReplacements lines (groups.dropLast ++ [{ last with
            endLine := max last.endLine range.2
            replacements := last.replacements ++ [replacement] }]) rest
        else groupReplacements lines (groups ++ [⟨range.1, range.2, [replacement]⟩]) rest
      | none => groupReplacements lines (groups ++ [⟨range.1, range.2, [replacement]⟩]) rest

/-- `lines[start..end]`. -/
def sliceLines (lines : List Str) (start «end» : Nat) : Sliced (List Str) := do
  guard (start ≤ «end» ∧ «end» ≤ lines.length)
  return (lines.take «end»).drop start

def writeGroups (originalLines : List Str) (baseContent : Str) (baseLines : List LineSpan) :
    Nat → List LineGroup → Sliced Str
  | originalLineIndex, [] => do
      let unchanged ← sliceLines originalLines originalLineIndex originalLines.length
      return unchanged.flatten
  | originalLineIndex, group :: rest => do
      let unchanged ← sliceLines originalLines originalLineIndex group.startLine
      let first ← baseLines[group.startLine]?
      let last ← baseLines[group.endLine - 1]?
      let groupSlice ← Str.slice baseContent first.start last.end
      let touched ← applyReplacements groupSlice group.replacements first.start
      let behind ← writeGroups originalLines baseContent baseLines group.endLine rest
      return unchanged.flatten ++ touched ++ behind

/-- `none` inside when the line counts differ, or a replacement is outside the base. -/
def applyReplacementsPreservingUnchangedLines (originalContent baseContent : Str)
    (replacements : List TextReplacement) : Sliced (Option Str) :=
  let originalLines := splitLinesWithEndings originalContent
  let baseLines := lineSpans baseContent
  if originalLines.length ≠ baseLines.length then some none
  else
    let sorted := replacements.insertionSort fun a b => a.matchIndex ≤ b.matchIndex
    match groupReplacements baseLines [] sorted with
    | none => some none
    | some groups => (writeGroups originalLines baseContent baseLines 0 groups).map some

def notFound (path : String) (i total : Nat) : String :=
  if total = 1 then
    s!"Could not find the exact text in {path}. The old text must match exactly including all whitespace and newlines."
  else
    s!"Could not find edits[{i}] in {path}. The oldText must match exactly including all whitespace and newlines."

def duplicate (path : String) (i total n : Nat) : String :=
  if total = 1 then
    s!"Found {n} occurrences of the text in {path}. The text must be unique. Please provide more context to make it unique."
  else
    s!"Found {n} occurrences of edits[{i}] in {path}. Each oldText must be unique. Please provide more context to make it unique."

def emptyOldText (path : String) (i total : Nat) : String :=
  if total = 1 then s!"oldText must not be empty in {path}."
  else s!"edits[{i}].oldText must not be empty in {path}."

def noChanges (path : String) (total : Nat) : String :=
  if total = 1 then
    s!"No changes made to {path}. The replacement produced identical content. This might indicate an issue with special characters or the text not existing as expected."
  else s!"No changes made to {path}. The replacements produced identical content."

/-- Both texts of an edit with line feeds only. -/
def Edit.normalized (edit : Edit) : Edit :=
  ⟨normalizeToLf edit.oldText, normalizeToLf edit.newText⟩

def checkOldTexts (path : String) (total : Nat) : Nat → List Edit → Except String Unit
  | _, [] => .ok ()
  | i, e :: rest =>
    if e.oldText.isEmpty then .error (emptyOldText path i total)
    else checkOldTexts path total (i + 1) rest

structure Matched where
  edit : Nat
  idx : Nat
  len : Nat
  newText : Str

/-- The loop that looks for every text in the base. -/
def matchEdits (nfkc : Str → Str) (base : Str) (path : String) (total : Nat) :
    Nat → List Edit → Except String (List Matched)
  | _, [] => .ok []
  | i, e :: rest =>
    let (found, idx, len, _) := fuzzyFindText nfkc base e.oldText
    if !found then .error (notFound path i total)
    else
      let occ := countOccurrences base e.oldText
      if occ > 1 then .error (duplicate path i total occ)
      else (matchEdits nfkc base path total (i + 1) rest).map (⟨i, idx, len, e.newText⟩ :: ·)

/-- `matched.sort_by_key`, which is stable. -/
def sortMatched (found : List Matched) : List Matched :=
  found.insertionSort fun a b => a.idx ≤ b.idx

/-- The first two neighbours among the sorted matches that meet. -/
def checkOverlaps (path : String) : List Matched → Except String Unit
  | a :: b :: rest =>
    if a.idx + a.len > b.idx then
      .error s!"edits[{a.edit}] and edits[{b.edit}] overlap in {path}. Merge them into one edit or target disjoint regions."
    else checkOverlaps path (b :: rest)
  | _ => .ok ()

def usedFuzzy (normalized : Str) (norm : List Edit) : Bool :=
  norm.any fun e => !Str.contains normalized e.oldText

/-- The text in which the edits are looked for. -/
def matchingBase (nfkc : Str → Str) (normalized : Str) (norm : List Edit) : Str :=
  if usedFuzzy normalized norm then normalizeForFuzzy nfkc normalized else normalized

def Matched.region (m : Matched) : Splice.Region Char := ⟨m.idx, m.len, m.newText⟩

/-- `out.replace_range(idx..idx + len, new)`. -/
def replaceRange (out : Str) (m : Matched) : Sliced Str :=
  Splice.replaceRange Char.utf8Size out m.region

def replaceMatched (normalized base : Str) (path : String) (fuzzy : Bool)
    (matched : List Matched) : Sliced (Except String Str) :=
  if fuzzy then
    (applyReplacementsPreservingUnchangedLines normalized base
      (matched.map fun m => ⟨m.idx, m.len, m.newText⟩)).map fun content =>
        match content with
        | some content => .ok content
        | none => .error s!"Could not align fuzzy match to original lines in {path}. Provide oldText exactly as it appears in the file."
  else (matched.reverse.foldlM replaceRange base).map .ok

/-- The base content and the new one. -/
def applyEdits (nfkc : Str → Str) (normalized : Str) (edits : List Edit) (path : String) :
    Sliced (Except String (Str × Str)) :=
  let total := edits.length
  let norm := edits.map Edit.normalized
  match checkOldTexts path total 0 norm with
  | .error error => some (.error error)
  | .ok () =>
    let base := matchingBase nfkc normalized norm
    match matchEdits nfkc base path total 0 norm with
    | .error error => some (.error error)
    | .ok found =>
      let matched := sortMatched found
      match checkOverlaps path matched with
      | .error error => some (.error error)
      | .ok () =>
        (replaceMatched normalized base path (usedFuzzy normalized norm) matched).map
          fun replaced => do
            let newContent ← replaced
            if normalized = newContent then throw (noChanges path total)
            return (normalized, newContent)

def editOf (e : Value) : Option Edit := do
  let o ← (e.get "oldText").bind Value.asStr
  let n ← (e.get "newText").bind Value.asStr
  return ⟨o.toList, n.toList⟩

/-- `parse_edits`: the list under `edits`, which may be printed as text, and then the edit of the
older form. Items that lack a text are passed over. -/
def parseEdits (serde : Serde) (args : Value) : Except String (List Edit) :=
  let editsVal := (args.get "edits").getD .null
  let editsVal := match editsVal.asStr with
    | some s => (serde.fromStr s).getD editsVal
    | none => editsVal
  let listed := match editsVal with
    | .array items => items.filterMap editOf
    | _ => []
  let out := listed ++ (editOf args).toList
  if out.isEmpty then
    .error "Edit tool input is invalid. edits must contain at least one replacement."
  else .ok out

structure EditOperations where
  readFile : String → Except String Bytes
  writeFile : String → Bytes → Except String Unit

/-- The text of the reply, and the two contents that its diff and its patch are made from. -/
structure EditOutput where
  text : String
  contents : Str × Str

/-- What one call hands to `write_file`, and what it returns. -/
structure EditRun where
  written : Option (String × Bytes)
  result : Except String EditOutput

/-- What the call writes for a file that reads as `raw`. -/
def editFile (nfkc : Str → Str) (raw : Bytes) (edits : List Edit) (path : String) :
    Sliced (Except String (Bytes × (Str × Str))) :=
  let content := (fromUtf8Lossy raw).toList
  let (bom, body) := stripBom content
  let crlf := detectCrlf body
  let normalized := normalizeToLf body
  (applyEdits nfkc normalized edits path).map fun applied => do
    let contents ← applied
    return (Str.asBytes (bom ++ restoreCrlf contents.2 crlf), contents)

/-- `edit_execute_with_operations`, where `resolve` is `resolve_to_cwd` at the directory of the
tool. -/
def editExecuteWithOperations (nfkc : Str → Str) (serde : Serde) (resolve : String → String)
    (ops : EditOperations) (args : Value) : Sliced EditRun :=
  match (args.get "path").bind Value.asStr with
  | none => some ⟨none, .error "edit: missing or non-string 'path' argument"⟩
  | some path =>
    match parseEdits serde args with
    | .error error => some ⟨none, .error error⟩
    | .ok edits =>
      let target := resolve path
      match ops.readFile target with
      | .error error => some ⟨none, .error error⟩
      | .ok raw =>
        (editFile nfkc raw edits path).map fun edited =>
          match edited with
          | .error error => ⟨none, .error error⟩
          | .ok (bytes, contents) =>
            ⟨some (target, bytes), (ops.writeFile target bytes).map fun () =>
              ⟨s!"Successfully replaced {edits.length} block(s) in {path}.", contents⟩⟩

end PiRust.EditTool
