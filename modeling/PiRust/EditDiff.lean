import PiRust.EditScripts
import PiRust.Truncate

/- `tools/edit_diff.rs`: the line diff, and the patch that is written from it. -/
namespace PiRust.EditTool

open EditScripts Truncate

inductive DiffPart
  | equal (lines : List Str)
  | removed (lines : List Str)
  | added (lines : List Str)

def splitLines (content : Str) : List Str :=
  let lines := splitChar '\n' content
  if lines.getLast? = some [] then lines.dropLast else lines

/-- The row of the table for an old line, from its last entry on. `below` is the row of the next
old line. -/
def lcsRow (oldLine : Str) : List Str → List Nat → List Nat
  | [], _ => [0]
  | newLine :: newLines, below =>
    let row := lcsRow oldLine newLines below.tail
    (if oldLine = newLine then below.tail.headD 0 + 1 else max (below.headD 0) (row.headD 0)) :: row

/-- The table `lcs`, from its last row on. -/
def lcsTable (newLines : List Str) : List Str → List (List Nat)
  | [] => [List.replicate (newLines.length + 1) 0]
  | oldLine :: oldLines =>
    let table := lcsTable newLines oldLines
    lcsRow oldLine newLines (table.headD []) :: table

/-- `lcs[old_idx][new_idx]`. -/
def lcsEntry (lcs : List (List Nat)) (oldIdx newIdx : Nat) : Nat :=
  ((lcs[oldIdx]?.getD [])[newIdx]?).getD 0

/-- The loops of `diff_parts` that write the parts. -/
def rawParts (lcs : List (List Nat)) (oldLines newLines : List Str) (oldIdx newIdx : Nat) :
    List DiffPart :=
  if old : oldIdx < oldLines.length then
    if new : newIdx < newLines.length then
      if oldLines[oldIdx] = newLines[newIdx] then
        .equal [oldLines[oldIdx]] :: rawParts lcs oldLines newLines (oldIdx + 1) (newIdx + 1)
      else if lcsEntry lcs (oldIdx + 1) newIdx ≥ lcsEntry lcs oldIdx (newIdx + 1) then
        .removed [oldLines[oldIdx]] :: rawParts lcs oldLines newLines (oldIdx + 1) newIdx
      else .added [newLines[newIdx]] :: rawParts lcs oldLines newLines oldIdx (newIdx + 1)
    else (oldLines.drop oldIdx).map fun line => .removed [line]
  else (newLines.drop newIdx).map fun line => .added [line]
termination_by oldLines.length - oldIdx + (newLines.length - newIdx)

def pushPart (coalesced : List DiffPart) (part : DiffPart) : List DiffPart :=
  match coalesced.getLast?, part with
  | some (.equal existing), .equal lines => coalesced.dropLast ++ [.equal (existing ++ lines)]
  | some (.removed existing), .removed lines =>
    coalesced.dropLast ++ [.removed (existing ++ lines)]
  | some (.added existing), .added lines => coalesced.dropLast ++ [.added (existing ++ lines)]
  | _, part => coalesced ++ [part]

def coalesceParts (parts : List DiffPart) : List DiffPart := parts.foldl pushPart []

def diffParts (oldContent newContent : Str) : List DiffPart :=
  let oldLines := splitLines oldContent
  let newLines := splitLines newContent
  coalesceParts (rawParts (lcsTable newLines oldLines) oldLines newLines 0 0)

def hunkHeader (oldCount newCount : Nat) : Str :=
  "@@ -1,".toList ++ Nat.toDigits 10 oldCount ++ " +1,".toList ++ Nat.toDigits 10 newCount ++
    " @@".toList

def partLines : DiffPart → List Str
  | .equal lines => lines.map (' ' :: ·)
  | .removed lines => lines.map ('-' :: ·)
  | .added lines => lines.map ('+' :: ·)

def generateUnifiedPatch (path oldContent newContent : Str) : Str :=
  joinLines (["--- ".toList ++ path, "+++ ".toList ++ path,
      hunkHeader (splitLines oldContent).length (splitLines newContent).length] ++
    (diffParts oldContent newContent).flatMap partLines)

abbrev Hunk := List (Step Str)

def hunkLine : Char → Str → Option (Step Str)
  | ' ', line => some (.keep line)
  | '-', line => some (.remove line)
  | '+', line => some (.add line)
  | _, _ => none

/-- A line ends with a line feed, if the next one does not say that there is none. -/
def parseBody : List Str → Option Hunk
  | [] => some []
  | [] :: _ => none
  | (kind :: text) :: ('\\' :: _) :: rest => do
      let line ← hunkLine kind text
      let hunk ← parseBody rest
      return line :: hunk
  | (kind :: text) :: rest => do
      let line ← hunkLine kind (text ++ ['\n'])
      let hunk ← parseBody rest
      return line :: hunk

def parseHunk (text : Str) : Option Hunk :=
  match splitChar '\n' text with
  | [] => none
  | header :: body => do
      let hunk ← parseBody body
      guard (header = hunkHeader (before hunk).length (after hunk).length)
      return hunk

/-- What a hunk that starts at the first line makes of a content: none where the content has other
lines, or where a line inside would lack its line feed. -/
def applyHunk (hunk : Hunk) (content : Str) : Option Str :=
  let lines := splitLinesWithEndings content
  if before hunk <+: lines then
    let result := after hunk ++ lines.drop (before hunk).length
    if splitLinesWithEndings result.flatten = result then some result.flatten else none
  else none

/-- The text in front of the hunk. -/
def fileHeader (path : Str) : Str := joinLines ["--- ".toList ++ path, "+++ ".toList ++ path] ++ ['\n']

/-- The patch makes the new content of the old one, and no other does with fewer lines. -/
def Minimal (patch path oldContent newContent : Str) : Prop :=
  ∃ text hunk, patch = fileHeader path ++ text ∧ parseHunk text = some hunk ∧
    applyHunk hunk oldContent = some newContent ∧
    ∀ other, applyHunk other oldContent = some newContent →
      removals hunk ≤ removals other ∧ additions hunk ≤ additions other

example : generateUnifiedPatch "f".toList "a\nb\n".toList "b\nc\n".toList =
    "--- f\n+++ f\n@@ -1,2 +1,2 @@\n-a\n b\n+c".toList := by decide +kernel

end PiRust.EditTool
