import Mathlib.Data.List.Basic

/- Directory trees with symbolic links, and how a path is resolved in one. -/
namespace FileTree

inductive Component where
  | parentDir
  | normal (name : String)
  deriving DecidableEq, Repr

structure Path where
  absolute : Bool
  components : List Component
  deriving DecidableEq, Repr

/-- The names from the root down, without links. -/
abbrev Location := List String

/-- Hard links are files with one inode. -/
inductive Entry where
  | file (inode : Nat)
  | directory (searchable : Bool)
  | symlink (target : Path)
  deriving DecidableEq, Repr

abbrev Tree := Location → Option Entry

inductive ErrorKind where
  | notFound
  | permissionDenied
  | notADirectory
  | filesystemLoop
  deriving DecidableEq, Repr

inductive Stop where
  | arrived (place : Location)
  | link (base : Location) (rest : List Component)
  deriving DecidableEq, Repr

variable (creating : Bool) (tree : Tree)

def advance : Location → List Component → Except ErrorKind Stop
  | place, [] => .ok (.arrived place)
  | place, component :: rest =>
    match tree place with
    | some (.directory true) =>
      match component with
      | .parentDir => advance place.dropLast rest
      | .normal name =>
        match tree (place ++ [name]) with
        | some (.symlink target) =>
          .ok (.link (if target.absolute then [] else place) (target.components ++ rest))
        | some _ => advance (place ++ [name]) rest
        | none =>
          if creating && rest.isEmpty then .ok (.arrived (place ++ [name]))
          else .error .notFound
    | some (.directory false) => .error .permissionDenied
    | some _ => .error .notADirectory
    | none => .error .notFound

def walk : Nat → Location → List Component → Except ErrorKind Location
  | links, place, components =>
    match advance creating tree place components with
    | .error kind => .error kind
    | .ok (.arrived found) => .ok found
    | .ok (.link base rest) =>
      match links with
      | 0 => .error .filesystemLoop
      | links + 1 => walk links base rest

def maxLinks : Nat := 40

/-- `realpath` on an absolute path. -/
def canonicalize (components : List Component) : Except ErrorKind Location :=
  walk false tree maxLinks [] components

def openTarget (components : List Component) : Except ErrorKind Location :=
  walk true tree maxLinks [] components

def Location.spelled (place : Location) : List Component := place.map Component.normal

/-- Every file has one name. -/
def SingleNames : Prop :=
  ∀ first second inode, tree first = some (.file inode) → tree second = some (.file inode) →
    first = second

variable {tree}
variable {components : List Component}
variable {place found : Location}

theorem advance_creating {stop : Stop} (found : advance false tree place components = .ok stop) :
    advance true tree place components = .ok stop := by
  induction components generalizing place with
  | nil => exact found
  | cons component rest ih =>
    unfold advance at found ⊢
    split at found
    · split at found
      · exact ih found
      · split at found
        · exact found
        · exact ih found
        · cases found
    · cases found
    · cases found
    · cases found

theorem walk_creating {links : Nat} (reached : walk false tree links place components = .ok found) :
    walk true tree links place components = .ok found := by
  induction links generalizing place components with
  | zero =>
    unfold walk at reached ⊢
    split at reached
    · cases reached
    · rename_i there stopped
      rw [advance_creating stopped]
      exact reached
    · cases reached
  | succ links ih =>
    unfold walk at reached ⊢
    split at reached
    · cases reached
    · rename_i there stopped
      rw [advance_creating stopped]
      exact reached
    · rename_i base rest stopped
      rw [advance_creating stopped]
      exact ih reached

theorem openTarget_of_canonicalize (real : canonicalize tree components = .ok found) :
    openTarget tree components = .ok found :=
  walk_creating real

end FileTree
