import PiRust.EditorText

/- `autocomplete.rs`: what a provider offers at a cursor. Columns count characters, as the positions
of the editor do. -/
namespace PiRust.Autocomplete

open EditTool (Str)

structure AutocompleteItem where
  value : Str
  label : Str
  description : Option Str
  deriving DecidableEq, Repr

/-- The items, and the `prefix` that one of them is put in place of. -/
structure AutocompleteSuggestions where
  items : List AutocompleteItem
  prefixText : Str
  deriving DecidableEq, Repr

structure CompletionEdit where
  lines : List Str
  cursorLine : Nat
  cursorCol : Nat
  deriving DecidableEq, Repr

/-- A provider as it answers during one event; none when `apply_completion` panics. -/
structure AutocompleteProvider where
  getSuggestions : List Str → Nat → Nat → Bool → Option AutocompleteSuggestions
  applyCompletion : List Str → Nat → Nat → AutocompleteItem → Str → Option CompletionEdit
  shouldTriggerFileCompletion : List Str → Nat → Nat → Bool

end PiRust.Autocomplete
