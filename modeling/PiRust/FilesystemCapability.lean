import PiRust.CapabilitySnapshot
import PiRust.EditTool
import PiRust.LexicalPaths
import PiRust.SessionRecord

/- `FilesystemCapability::resolve_path` of `capability_snapshot.rs`, over Unix paths as texts.
A path that comes to it is a text of a tool call. -/
namespace PiRust.Capability

open List

open EditTool (Str splitChar)
open LexicalPaths (Component OnlyParents Inside)

abbrev PathBuf := Str

abbrev Name := { text : Str // text ≠ [] ∧ '/' ∉ text ∧ text ≠ ['.'] ∧ text ≠ ['.', '.'] }

instance : Nontrivial Name :=
  ⟨⟨['a'], by decide⟩, ⟨['b'], by decide⟩, by decide⟩

def component? (text : Str) : Option (Component Name) :=
  if plain : text ≠ [] ∧ '/' ∉ text ∧ text ≠ ['.'] ∧ text ≠ ['.', '.'] then
    some (.normal ⟨text, plain⟩)
  else if text = ['.', '.'] then some .parentDir
  else none

def isAbsolute (path : PathBuf) : Bool := path.head? = some '/'

def lead (path : PathBuf) : List (Component Name) :=
  if isAbsolute path then [.rootDir]
  else if (splitChar '/' path).head? = some ['.'] then [.curDir]
  else []

def components (path : PathBuf) : List (Component Name) :=
  lead path ++ (splitChar '/' path).filterMap component?

def asOsStr : Component Name → Str
  | .rootDir => ['/']
  | .curDir => ['.']
  | .parentDir => ['.', '.']
  | .normal name => name.val

/-- `PathBuf::push`, and `Path::join`. -/
def push (path more : PathBuf) : PathBuf :=
  if isAbsolute more then more
  else if path = [] ∨ path.getLast? = some '/' then path ++ more
  else path ++ '/' :: more

def startsWith (path base : PathBuf) : Bool := (components base).isPrefixOf (components path)

def rebuilt (stack : List (Component Name)) : PathBuf :=
  stack.foldl (fun result component => push result (asOsStr component)) []

def lexicallyNormalize (path : PathBuf) : PathBuf :=
  rebuilt (LexicalPaths.normalize (components path))

/-- `resolve_to_cwd`, with the home directory of the environment. -/
def resolveToCwd (home : Option PathBuf) (path cwd : PathBuf) : PathBuf :=
  if path = ['~'] then home.getD path
  else if path.take 2 = ['~', '/'] then
    match home with
    | some directory => push directory (path.drop 2)
    | none => path
  else if isAbsolute path then path
  else push cwd path

def FilesystemCapability.resolvePath (capability : FilesystemCapability) (home : Option PathBuf)
    (path : PathBuf) : Except SessionLog.CodingSessionError PathBuf :=
  let cwd := capability.cwd.toList
  let resolved := resolveToCwd home path cwd
  if !isAbsolute path && !(path.head? = some '~') then
    let normalized := lexicallyNormalize resolved
    if startsWith normalized (lexicallyNormalize cwd) then .ok normalized
    else
      .error (.unsupportedCapability
        ("filesystem path escapes granted cwd: " ++ String.ofList normalized))
  else .ok resolved

section texts

theorem splitChar_slash (front back : Str) :
    splitChar '/' (front ++ '/' :: back) = splitChar '/' front ++ splitChar '/' back := by
  obtain ⟨_, _, _, whole⟩ := Framing.pieces_split '/' front
  rw [splitChar, splitChar, splitChar, Framing.pieces_append, Framing.pieces_piece _ whole]
  simp

theorem splitChar_whole {text : Str} (whole : '/' ∉ text) : splitChar '/' text = [text] := by
  rw [splitChar, Framing.pieces_whole _ whole]
  rfl

theorem splitChar_ne_nil (text : Str) : splitChar '/' text ≠ [] := by
  simp [splitChar]

/-- The components that the slashes cut. -/
def body (path : PathBuf) : List (Component Name) := (splitChar '/' path).filterMap component?

theorem body_slash (front back : Str) : body (front ++ '/' :: back) = body front ++ body back := by
  rw [body, splitChar_slash, filterMap_append]
  rfl

theorem lead_slash {front : Str} (some : front ≠ []) (back : Str) :
    lead (front ++ '/' :: back) = lead front := by
  have first : (front ++ '/' :: back).head? = front.head? := by
    rw [head?_append_of_ne_nil _ some]
  have cut : (splitChar '/' (front ++ '/' :: back)).head? = (splitChar '/' front).head? := by
    rw [splitChar_slash, head?_append_of_ne_nil _ (splitChar_ne_nil front)]
  rw [lead, lead, isAbsolute, isAbsolute, first, cut]

theorem components_slash {front : Str} (some : front ≠ []) (back : Str) :
    components (front ++ '/' :: back) = components front ++ body back := by
  have split : components (front ++ '/' :: back) =
      lead (front ++ '/' :: back) ++ body (front ++ '/' :: back) := rfl
  rw [split, lead_slash some, body_slash, ← append_assoc]
  rfl

theorem push_nil (more : PathBuf) : push [] more = more := by
  rw [push, if_pos (Or.inl rfl), nil_append, ite_self]

theorem components_push {path more : PathBuf} (some : path ≠ [])
    (relative : isAbsolute more = false) :
    components (push path more) = components path ++ body more := by
  rw [push, if_neg (by rw [relative]; exact nofun)]
  split
  · next ends =>
    obtain ⟨front, rfl⟩ := getLast?_eq_some_iff.mp (ends.resolve_left some)
    rw [append_assoc, singleton_append]
    by_cases root : front = []
    · subst root
      have whole : components ('/' :: more) = [.rootDir] ++ body ([] ++ '/' :: more) := rfl
      rw [nil_append, whole, body_slash]
      rfl
    · rw [components_slash root, components_slash root]
      have none : body [] = [] := by decide
      rw [none, append_nil]
  · exact components_slash some more

theorem component?_ne_rootDir {text : Str} : component? text ≠ some .rootDir := by
  unfold component?
  split
  · exact nofun
  · split <;> exact nofun

theorem body_relative (path : PathBuf) : LexicalPaths.Relative (body path) := by
  intro component inside root
  obtain ⟨text, _, parsed⟩ := mem_filterMap.mp inside
  rw [root] at parsed
  exact component?_ne_rootDir parsed

theorem components_spelled (path : PathBuf) : LexicalPaths.Spelled (components path) := by
  have relative := body_relative path
  unfold components lead
  split
  · exact relative
  · split
    · exact relative
    · exact fun component inside => relative component (mem_of_mem_tail inside)

variable {component : Component Name}

theorem body_asOsStr (root : component ≠ .rootDir) (here : component ≠ .curDir) :
    body (asOsStr component) = [component] := by
  cases component with
  | rootDir => exact absurd rfl root
  | curDir => exact absurd rfl here
  | parentDir => decide
  | normal name =>
    rw [asOsStr, body, splitChar_whole name.property.2.1, filterMap_cons, component?,
      dif_pos name.property]
    rfl

theorem asOsStr_relative (root : component ≠ .rootDir) :
    isAbsolute (asOsStr component) = false := by
  cases component with
  | rootDir => exact absurd rfl root
  | curDir | parentDir => rfl
  | normal name =>
    obtain ⟨text, full, clear, _⟩ := name
    cases text with
    | nil => exact absurd rfl full
    | cons c rest =>
      refine decide_eq_false fun slash => clear ?_
      rw [← Option.some.inj slash]
      exact mem_cons_self

theorem components_asOsStr (here : component ≠ .curDir) :
    components (asOsStr component) = [component] := by
  by_cases root : component = .rootDir
  · subst root
    decide
  · have plain : lead (asOsStr component) = [] := by
      rw [lead, asOsStr_relative root, if_neg Bool.false_ne_true]
      refine if_neg ?_
      cases component with
      | rootDir => exact absurd rfl root
      | curDir => exact absurd rfl here
      | parentDir => decide
      | normal name =>
        rw [asOsStr, splitChar_whole name.property.2.1]
        exact fun same => name.property.2.2.1 (Option.some.inj same)
    have split : components (asOsStr component) =
        lead (asOsStr component) ++ body (asOsStr component) := rfl
    rw [split, plain, body_asOsStr root here]
    rfl

theorem components_rebuilt {stack : List (Component Name)} (spelled : LexicalPaths.Spelled stack)
    (kept : Component.curDir ∉ stack) : components (rebuilt stack) = stack := by
  induction stack using reverseRecOn with
  | nil => decide
  | append_singleton front component ih =>
    have here : component ≠ .curDir := by
      rintro rfl
      exact kept (mem_append_right _ mem_cons_self)
    have step : rebuilt (front ++ [component]) = push (rebuilt front) (asOsStr component) :=
      foldl_concat ..
    by_cases first : front = []
    · subst first
      have lone : rebuilt ([] ++ [component]) = push [] (asOsStr component) := rfl
      rw [lone, push_nil, components_asOsStr here]
      rfl
    · have before : components (rebuilt front) = front := by
        refine ih (fun c inside => spelled c ?_) fun inside =>
          kept (mem_append_left _ inside)
        rw [tail_append_of_ne_nil first]
        exact mem_append_left _ inside
      have root : component ≠ .rootDir := by
        refine spelled component ?_
        rw [tail_append_of_ne_nil first]
        exact mem_append_right _ mem_cons_self
      have some : rebuilt front ≠ [] := by
        intro none
        rw [none] at before
        exact first (before.symm.trans (by decide))
      rw [step, components_push some (asOsStr_relative root), before, body_asOsStr root here]

theorem components_lexicallyNormalize (path : PathBuf) :
    components (lexicallyNormalize path) = LexicalPaths.normalize (components path) := by
  obtain ⟨rooted, n, names, shape⟩ := LexicalPaths.normalize_shaped (components_spelled path)
  rw [lexicallyNormalize, shape]
  exact components_rebuilt (LexicalPaths.spelled_shaped rooted n names)
    (LexicalPaths.curDir_not_mem_shaped rooted n names)

theorem enter_components {path : PathBuf} (relative : isAbsolute path = false)
    (stack : List (Component Name)) :
    (components path).foldl LexicalPaths.enter stack =
      (body path).foldl LexicalPaths.enter stack := by
  unfold components lead
  rw [relative, if_neg Bool.false_ne_true]
  split <;> rfl

end texts

section resolved

variable {capability : FilesystemCapability} {home : Option PathBuf} {path : PathBuf}

theorem normalize_push (cwd : PathBuf) (relative : isAbsolute path = false) :
    LexicalPaths.normalize (components (push cwd path)) =
      LexicalPaths.normalize (components cwd ++ body path) := by
  by_cases here : cwd = []
  · subst here
    rw [push_nil, LexicalPaths.normalize, enter_components relative]
    rfl
  · rw [components_push here relative]

theorem resolvePath_relative (relative : isAbsolute path = false) (plain : path.head? ≠ some '~') :
    capability.resolvePath home path =
      if startsWith (lexicallyNormalize (push capability.cwd.toList path))
          (lexicallyNormalize capability.cwd.toList) then
        .ok (lexicallyNormalize (push capability.cwd.toList path))
      else
        .error (.unsupportedCapability ("filesystem path escapes granted cwd: " ++
          String.ofList (lexicallyNormalize (push capability.cwd.toList path)))) := by
  have joined : resolveToCwd home path capability.cwd.toList = push capability.cwd.toList path := by
    have lone : path ≠ ['~'] := fun same => plain (by rw [same]; rfl)
    have below : path.take 2 ≠ ['~', '/'] := by
      intro same
      cases path with
      | nil => cases same
      | cons c rest => exact plain (congrArg some (cons.inj same).1)
    unfold resolveToCwd
    rw [if_neg lone, if_neg below, relative, if_neg Bool.false_ne_true]
  simp [FilesystemCapability.resolvePath, joined, relative, plain]

/-- A relative path is only resolved to a place inside the granted directory, exactly if the
directory is not given by steps to the parent alone, or by nothing, or the path does not begin
with a step to the parent once it is normalized. -/
theorem resolvePath_inside_iff (capability : FilesystemCapability) (home : Option PathBuf)
    (path : PathBuf) (relative : isAbsolute path = false) (plain : path.head? ≠ some '~') :
    (∀ resolved, capability.resolvePath home path = .ok resolved →
      Inside (components capability.cwd.toList) (components resolved)) ↔
    ¬ (OnlyParents (components (lexicallyNormalize capability.cwd.toList)) ∧
      (components (lexicallyNormalize path)).head? = some .parentDir) := by
  let cwd := components capability.cwd.toList
  have read : LexicalPaths.normalize (components path) = LexicalPaths.normalize (body path) :=
    enter_components relative []
  have target : components (lexicallyNormalize (push capability.cwd.toList path)) =
      LexicalPaths.normalize (cwd ++ body path) := by
    rw [components_lexicallyNormalize, normalize_push _ relative]
  have tested : startsWith (lexicallyNormalize (push capability.cwd.toList path))
      (lexicallyNormalize capability.cwd.toList) = true ↔
        LexicalPaths.normalize cwd <+: LexicalPaths.normalize (cwd ++ body path) := by
    rw [startsWith, isPrefixOf_iff_prefix, target, components_lexicallyNormalize]
  have leads : Inside cwd (LexicalPaths.normalize (cwd ++ body path)) ↔
      Inside cwd (cwd ++ body path) :=
    forall_congr' fun place => by rw [LexicalPaths.walk_normalize]
  rw [components_lexicallyNormalize, components_lexicallyNormalize, read,
    resolvePath_relative relative plain]
  by_cases within : LexicalPaths.normalize cwd <+: LexicalPaths.normalize (cwd ++ body path)
  · rw [if_pos (tested.mpr within), ← LexicalPaths.inside_iff (components_spelled _)
      (body_relative path) within, ← leads, ← target]
    exact ⟨fun inside => inside _ rfl, fun inside resolved same => by cases same; exact inside⟩
  · rw [if_neg (mt tested.mp within)]
    refine ⟨fun _ ⟨up, _⟩ => within ?_, fun _ resolved same => by cases same⟩
    rw [LexicalPaths.normalize_above up]
    exact prefix_append _ _

/-- The condition for the default directory. -/
theorem resolvePath_inside_iff_default :
    (∀ resolved, FilesystemCapability.resolvePath ⟨"."⟩ none "src/../a.rs".toList = .ok resolved →
      Inside (components (FilesystemCapability.cwd ⟨"."⟩).toList) (components resolved)) ↔
    ¬ (OnlyParents (components (lexicallyNormalize (FilesystemCapability.cwd ⟨"."⟩).toList)) ∧
      (components (lexicallyNormalize "src/../a.rs".toList)).head? = some .parentDir) :=
  resolvePath_inside_iff ⟨"."⟩ none "src/../a.rs".toList (by decide) (by decide)

/-- The default directory does not keep the parent out. -/
theorem parent_resolved :
    ¬ ∀ (capability : FilesystemCapability) (home : Option PathBuf) (path : PathBuf),
      isAbsolute path = false → path.head? ≠ some '~' →
      ∀ resolved, capability.resolvePath home path = .ok resolved →
        Inside (components capability.cwd.toList) (components resolved) := by
  intro always
  have resolved : FilesystemCapability.resolvePath ⟨"."⟩ none "../a".toList =
      .ok "../a".toList := by decide
  have inside := always ⟨"."⟩ none "../a".toList (by decide) (by decide) _ resolved
    [⟨['b'], by decide⟩]
  exact absurd inside (by decide)

end resolved

end PiRust.Capability
