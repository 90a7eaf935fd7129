import PiRust.Keys
import PiRust.Text
import PiRust.Transition

/- `components/select_list.rs` and `components/settings_list.rs`: what is selected, and the rows
of items that are shown. A row is given before it is painted, padded and cut to the width. -/
namespace PiRust.ListSelection

open List

/-- The scores of `fuzzy.rs`, which are floating point. -/
structure Fuzzy where
  Score : Type
  zero : Score
  add : Score → Score → Score
  totalCmp : Score → Score → Ordering
  fuzzyMatch : String → String → Option Score

namespace Fuzzy

variable (fuzzy : Fuzzy)

def splitWhitespace (text : String) : List String :=
  ((text.toList.splitOnP isWhitespace).filter (· ≠ [])).map String.ofList

/-- The sum of the scores of all tokens, or none if one does not match. -/
def total (tokens : List String) (text : String) : Option fuzzy.Score :=
  tokens.foldlM (fun sum token => (fuzzy.fuzzyMatch token text).map (fuzzy.add sum)) fuzzy.zero

def notAfter (first second : Nat × fuzzy.Score) : Bool :=
  ((fuzzy.totalCmp first.2 second.2).then (compare first.1 second.1)) ≠ .gt

def filterIndices (texts : List String) (query : String) : List Nat :=
  let tokens := splitWhitespace query
  if tokens = [] then range texts.length
  else
    let results := texts.zipIdx.filterMap fun item =>
      (fuzzy.total tokens item.1).map fun score => (item.2, score)
    (results.mergeSort fuzzy.notAfter).map Prod.fst

end Fuzzy

/-- A `usize` or a sum as an `isize`. Sums wrap, as in a release build. -/
def asIsize (n : Int) : Int := n.bmod (2 ^ 64)

/-- `move_selection`, of both lists. -/
def moved (len selected : Nat) (delta : Int) : Nat :=
  if len = 0 then 0 else (asIsize (selected + delta) % len).toNat

/-- The end of `rebuild_filter`, of both lists. -/
def clamped (len selected : Nat) : Nat := if len ≤ selected then len - 1 else selected

structure Row (ι : Type) where
  marker : String
  index : Nat
  item : ι
  deriving DecidableEq

def row? {ι : Type} (items : List ι) (selected : Nat) (shown : Nat × Nat) : Option (Row ι) :=
  (items[shown.1]?).map fun item => ⟨if shown.2 = selected then "> " else "  ", shown.1, item⟩

/-- The rows of the filtered items from `start` up to `stop`. -/
def rows {ι : Type} (items : List ι) (filtered : List Nat) (selected start stop : Nat) :
    List (Row ι) :=
  (((filtered.take stop).drop start).zipIdx start).filterMap (row? items selected)

section selectList

structure SelectItem where
  value : String
  label : String
  description : Option String
  deriving DecidableEq

structure SelectList where
  items : List SelectItem
  filteredIndices : List Nat
  selected : Nat
  maxVisible : Nat
  filter : String

def SelectItem.searchableText (item : SelectItem) : String :=
  match item.description with
  | some description => item.value ++ " " ++ item.label ++ " " ++ description
  | none => item.value ++ " " ++ item.label

inductive SelectCommand where
  | up | down | pageUp | pageDown | confirm | cancel
  | key (key : Key)
  deriving DecidableEq, Repr

namespace SelectList

variable (fuzzy : Fuzzy)

def rebuildFilter (list : SelectList) : SelectList :=
  let filtered := fuzzy.filterIndices (list.items.map SelectItem.searchableText) list.filter
  { list with filteredIndices := filtered, selected := clamped filtered.length list.selected }

def new (items : List SelectItem) (maxVisible : Nat) : SelectList :=
  rebuildFilter fuzzy ⟨items, [], 0, maxVisible, ""⟩

def setFilter (filter : String) (list : SelectList) : SelectList :=
  rebuildFilter fuzzy { list with filter := filter, selected := 0 }

def selectedIndex (list : SelectList) : Option Nat := list.filteredIndices[list.selected]?

def selectedItem (list : SelectList) : Option SelectItem :=
  list.selectedIndex.bind fun index => list.items[index]?

def moveSelection (delta : Int) (list : SelectList) : SelectList :=
  { list with selected := moved list.filteredIndices.length list.selected delta }

/-- The rows of items of `render`. -/
def itemRows (list : SelectList) (width : Nat) : List (Row SelectItem) :=
  if width = 0 then []
  else rows list.items list.filteredIndices list.selected 0 list.maxVisible

/-- What `handle_input` finds in an event: a command of the key bindings, or a key. -/
def command? (bound : InputEvent → String → Bool) (event : InputEvent) : Option SelectCommand :=
  match event with
  | .key key =>
    if key.release then none
    else if bound event "tui.select.up" then some .up
    else if bound event "tui.select.down" then some .down
    else if bound event "tui.select.pageUp" then some .pageUp
    else if bound event "tui.select.pageDown" then some .pageDown
    else if bound event "tui.select.confirm" then some .confirm
    else if bound event "tui.select.cancel" then some .cancel
    else some (.key key.key)
  | _ => none

def popped (text : String) : String := String.ofList text.toList.dropLast

def apply (command : SelectCommand) (list : SelectList) : SelectList :=
  match command with
  | .up => list.moveSelection (-1)
  | .down => list.moveSelection 1
  | .pageUp => list.moveSelection (-asIsize list.maxVisible)
  | .pageDown => list.moveSelection (asIsize list.maxVisible)
  | .key (.char text) => list.setFilter fuzzy (list.filter ++ String.ofList text)
  | .key .space => list.setFilter fuzzy (list.filter ++ " ")
  | .key .backspace => list.setFilter fuzzy (popped list.filter)
  | _ => list

def confirmed (list : SelectList) : Option Nat := list.filteredIndices[list.selected]?

def handleInput (bound : InputEvent → String → Bool) (event : InputEvent) (list : SelectList) :
    SelectList :=
  match command? bound event with
  | some command => list.apply fuzzy command
  | none => list

inductive Call where
  | input (command : SelectCommand)
  | setFilter (filter : String)

def step (call : Call) (list : SelectList) : Option SelectList :=
  match call with
  | .input command => some (list.apply fuzzy command)
  | .setFilter filter => some (list.setFilter fuzzy filter)

end SelectList

end selectList

section settingsList

structure SettingItem where
  id : String
  label : String
  description : Option String
  currentValue : String
  values : List String
  deriving DecidableEq

/-- `activeSubmenu` has the id of the item whose submenu is open. What a submenu ends with is
kept until an input is handed to it. -/
structure SettingsList where
  items : List SettingItem
  filteredIndices : List Nat
  selected : Nat
  maxVisible : Nat
  search : String
  enableSearch : Bool
  submenuIds : List String
  activeSubmenu : Option String
  activeSubmenuSelected : Nat
  submenuResult : Option (Option String)

def SettingItem.searchableText (item : SettingItem) : String :=
  item.id ++ " " ++ item.label ++ " " ++ item.currentValue ++
    (match item.description with
    | some description => " " ++ description
    | none => "")

inductive SettingsCommand where
  | up | down | pageUp | pageDown | activate | cancel
  | searchKey (key : Key)
  deriving DecidableEq, Repr

namespace SettingsList

variable (fuzzy : Fuzzy)

def rebuildFilter (list : SettingsList) : SettingsList :=
  let filtered :=
    if list.enableSearch then
      fuzzy.filterIndices (list.items.map SettingItem.searchableText) list.search
    else range list.items.length
  { list with filteredIndices := filtered, selected := clamped filtered.length list.selected }

/-- `with_options`. -/
def new (items : List SettingItem) (maxVisible : Nat) (enableSearch : Bool) : SettingsList :=
  rebuildFilter fuzzy ⟨items, [], 0, maxVisible, "", enableSearch, [], none, 0, none⟩

def selectedIndex (list : SettingsList) : Option Nat := list.filteredIndices[list.selected]?

def selectedItem (list : SettingsList) : Option SettingItem :=
  list.selectedIndex.bind fun index => list.items[index]?

def setValue (id value : String) (items : List SettingItem) : List SettingItem :=
  match items with
  | [] => []
  | item :: rest =>
    if item.id = id then { item with currentValue := value } :: rest
    else item :: setValue id value rest

def updateValue (id value : String) (list : SettingsList) : SettingsList :=
  rebuildFilter fuzzy { list with items := setValue id value list.items }

def moveSelection (delta : Int) (list : SettingsList) : SettingsList :=
  { list with selected := moved list.filteredIndices.length list.selected delta }

/-- The value behind the current one, cyclically; the first where that is none of them. -/
def nextValue (item : SettingItem) : Option String :=
  match item.values.findIdx? (· = item.currentValue) with
  | some index => item.values[(index + 1) % item.values.length]?
  | none => item.values.head?

def activateSelected (list : SettingsList) : SettingsList :=
  match list.selectedIndex with
  | none => list
  | some index =>
    match list.items[index]? with
    | none => list
    | some item =>
      if item.id ∈ list.submenuIds then
        { list with
          submenuResult := none
          activeSubmenu := some item.id
          activeSubmenuSelected := list.selected }
      else
        match nextValue item with
        | none => list
        | some value =>
          rebuildFilter fuzzy
            { list with items := list.items.set index { item with currentValue := value } }

def applySubmenuResult (id : String) (list : SettingsList) : SettingsList :=
  match list.submenuResult with
  | none => list
  | some result =>
    let left := { list with
      submenuResult := none
      activeSubmenu := none
      selected := list.activeSubmenuSelected }
    match result with
    | none => left
    | some value => rebuildFilter fuzzy { left with items := setValue id value left.items }

def searched (search : String) (list : SettingsList) : SettingsList :=
  rebuildFilter fuzzy { list with search := search, selected := 0 }

def handleSearchKey (key : Key) (list : SettingsList) : SettingsList :=
  match key with
  | .char text => list.searched fuzzy (list.search ++ String.ofList text)
  | .space => list.searched fuzzy (list.search ++ " ")
  | .backspace => list.searched fuzzy (SelectList.popped list.search)
  | _ => list

/-- `max_visible.max(1)`. -/
def visibleCount (list : SettingsList) : Nat := max list.maxVisible 1

def windowStart (list : SettingsList) : Nat :=
  min (list.selected - list.visibleCount / 2) (list.filteredIndices.length - list.visibleCount)

/-- The rows of items of `render`, with no submenu open. -/
def itemRows (list : SettingsList) (width : Nat) : List (Row SettingItem) :=
  if width = 0 then []
  else
    rows list.items list.filteredIndices list.selected list.windowStart
      (min (list.windowStart + list.visibleCount) list.filteredIndices.length)

def command? (bound : InputEvent → String → Bool) (enableSearch : Bool) (event : InputEvent) :
    Option SettingsCommand :=
  match event with
  | .key key =>
    if key.release then none
    else if bound event "tui.select.up" then some .up
    else if bound event "tui.select.down" then some .down
    else if bound event "tui.select.pageUp" then some .pageUp
    else if bound event "tui.select.pageDown" then some .pageDown
    else if bound event "tui.select.confirm" || key.key = .space then some .activate
    else if bound event "tui.select.cancel" then some .cancel
    else if enableSearch && !key.modifiers.chorded then some (.searchKey key.key)
    else none
  | _ => none

def apply (command : SettingsCommand) (list : SettingsList) : SettingsList :=
  match command with
  | .up => list.moveSelection (-1)
  | .down => list.moveSelection 1
  | .pageUp => list.moveSelection (-asIsize list.visibleCount)
  | .pageDown => list.moveSelection (asIsize list.visibleCount)
  | .activate => list.activateSelected fuzzy
  | .searchKey key => list.handleSearchKey fuzzy key
  | .cancel => list

/-- An event, by what it is for the list: an open submenu is given all of them. -/
def handle (command : Option SettingsCommand) (list : SettingsList) : SettingsList :=
  match list.activeSubmenu with
  | some id => list.applySubmenuResult fuzzy id
  | none =>
    match command with
    | some command => list.apply fuzzy command
    | none => list

def handleInput (bound : InputEvent → String → Bool) (event : InputEvent) (list : SettingsList) :
    SettingsList :=
  list.handle fuzzy (command? bound list.enableSearch event)

/-- `finish` is what a submenu calls when it is done. -/
inductive Call where
  | input (command : Option SettingsCommand)
  | updateValue (id value : String)
  | setSubmenuFactory (id : String)
  | finish (value : Option String)

def step (call : Call) (list : SettingsList) : Option SettingsList :=
  match call with
  | .input command => some (list.handle fuzzy command)
  | .updateValue id value => some (list.updateValue fuzzy id value)
  | .setSubmenuFactory id => some { list with submenuIds := id :: list.submenuIds }
  | .finish value => some { list with submenuResult := some value }

end SettingsList

end settingsList

/-- What is asked of a list that is shown: there is a selected item, and of the rows, which are
not too many, the one with its index is marked and no other. -/
def Shown {ι : Type} (items : List ι) (chosen : Option Nat) (maxVisible : Nat)
    (shown : List (Row ι)) : Prop :=
  shown.length ≤ maxVisible ∧ ∃ index item, chosen = some index ∧ items[index]? = some item ∧
    shown.filter (fun row => row.marker = "> ") = [⟨"> ", index, item⟩]

/-- The list has to be drawn on some columns. -/
def SelectList.Shows (list : SelectList) : Prop :=
  list.filteredIndices ≠ [] → ∀ width, 0 < width →
    Shown list.items list.confirmed list.maxVisible (list.itemRows width)

/-- While a submenu is open, it is shown in place of the items. -/
def SettingsList.Shows (list : SettingsList) : Prop :=
  list.activeSubmenu = none → list.filteredIndices ≠ [] → ∀ width, 0 < width →
    Shown list.items list.selectedIndex list.maxVisible (list.itemRows width)

/-- A submenu is not left without a value after the filtered list got too short for the row that
it was opened from. -/
def SettingsList.Keeps (call : SettingsList.Call) (list : SettingsList) : Prop :=
  match call with
  | .input _ => list.activeSubmenu.isSome → list.submenuResult = some none →
      list.filteredIndices ≠ [] → list.activeSubmenuSelected < list.filteredIndices.length
  | _ => True

section marked

variable {ι : Type} {items : List ι} {filtered : List Nat} {selected start stop index : Nat}
  {item : ι}

theorem marked_outside (items : List ι) (window : List Nat)
    (outside : selected < start ∨ start + window.length ≤ selected) :
    ((window.zipIdx start).filterMap (row? items selected)).filter
      (fun row => row.marker = "> ") = [] := by
  induction window generalizing start with
  | nil => rfl
  | cons first window ih =>
    have apart : start ≠ selected := by
      rw [length_cons] at outside
      omega
    have rest := @ih (start + 1) (by rw [length_cons] at outside; omega)
    rw [zipIdx_cons, filterMap_cons]
    cases there : items[first]? with
    | none =>
      simp only [row?, there, Option.map_none]
      exact rest
    | some item =>
      simp only [row?, there, Option.map_some, if_neg apart]
      exact rest

theorem marked_inside {window : List Nat} (low : start ≤ selected)
    (chosen : window[selected - start]? = some index) (there : items[index]? = some item) :
    ((window.zipIdx start).filterMap (row? items selected)).filter
      (fun row => row.marker = "> ") = [⟨"> ", index, item⟩] := by
  induction window generalizing start with
  | nil => cases chosen
  | cons first window ih =>
    rw [zipIdx_cons, filterMap_cons]
    by_cases here : start = selected
    · subst here
      rw [Nat.sub_self, getElem?_cons_zero, Option.some.injEq] at chosen
      subst chosen
      have none := marked_outside items window (.inl (Nat.lt_succ_self start))
      simp only [row?, there, Option.map_some, if_pos]
      exact congrArg (cons _) none
    · obtain ⟨k, rfl⟩ := Nat.exists_eq_add_of_lt (Nat.lt_of_le_of_ne low here)
      have later : window[start + k + 1 - (start + 1)]? = some index := by
        have shift : start + k + 1 - start = start + k + 1 - (start + 1) + 1 := by omega
        rwa [shift, getElem?_cons_succ] at chosen
      have rest := @ih (start + 1) (by omega) later
      cases item : items[first]? with
      | none =>
        simp only [row?, item, Option.map_none]
        exact rest
      | some item =>
        simp only [row?, item, Option.map_some, if_neg here]
        exact rest

theorem rows_length_le (items : List ι) (filtered : List Nat) (selected start stop : Nat) :
    (rows items filtered selected start stop).length ≤ stop - start := by
  refine Nat.le_trans (length_filterMap_le _ _) ?_
  rw [length_zipIdx, length_drop, length_take]
  omega

theorem rows_marked (low : start ≤ selected) (high : selected < stop)
    (chosen : filtered[selected]? = some index) (there : items[index]? = some item) :
    (rows items filtered selected start stop).filter (fun row => row.marker = "> ") =
      [⟨"> ", index, item⟩] := by
  refine marked_inside low ?_ there
  rw [getElem?_drop, Nat.add_sub_of_le low, getElem?_take_of_lt high]
  exact chosen

theorem rows_unmarked (items : List ι) (filtered : List Nat)
    (outside : selected < start ∨ stop ≤ selected) :
    (rows items filtered selected start stop).filter (fun row => row.marker = "> ") = [] := by
  apply marked_outside
  rw [length_drop, length_take]
  omega

end marked

section selections

theorem moved_lt {len : Nat} (some : len ≠ 0) (selected : Nat) (delta : Int) :
    moved len selected delta < len := by
  rw [moved, if_neg some]
  have positive : (0 : Int) < len := by omega
  have low := Int.emod_nonneg (asIsize (selected + delta)) (Int.ne_of_gt positive)
  have high := Int.emod_lt_of_pos (asIsize (selected + delta)) positive
  omega

theorem clamped_lt {len : Nat} (some : len ≠ 0) (selected : Nat) : clamped len selected < len := by
  unfold clamped
  split <;> omega

theorem moved_up {len : Nat} (some : len ≠ 0) : moved len 0 (-1) = len - 1 := by
  have wrapped : asIsize ((0 : Nat) + -1) = -1 := by decide
  rw [moved, if_neg some, wrapped]
  have last : (-1 : Int) % (len : Int) = len - 1 := by
    rw [Int.emod_eq_iff (by omega)]
    refine ⟨by omega, by omega, ?_⟩
    exact ⟨1, by omega⟩
  rw [last]
  omega

theorem filterIndices_lt (fuzzy : Fuzzy) (texts : List String) (query : String) :
    ∀ index ∈ fuzzy.filterIndices texts query, index < texts.length := by
  intro index inside
  unfold Fuzzy.filterIndices at inside
  dsimp only at inside
  split at inside
  · exact mem_range.mp inside
  · obtain ⟨result, sorted, rfl⟩ := mem_map.mp inside
    rw [mem_mergeSort] at sorted
    obtain ⟨item, member, scored⟩ := mem_filterMap.mp sorted
    obtain ⟨score, _, rfl⟩ := Option.map_eq_some_iff.mp scored
    have bounds := mem_zipIdx member
    simp only at bounds ⊢
    omega

theorem filterIndices_length_le (fuzzy : Fuzzy) (texts : List String) (query : String) :
    (fuzzy.filterIndices texts query).length ≤ texts.length := by
  unfold Fuzzy.filterIndices
  dsimp only
  split
  · rw [length_range]
  · rw [length_map, length_mergeSort]
    refine Nat.le_trans (length_filterMap_le _ _) ?_
    rw [length_zipIdx]

end selections

section selectRuns

variable {fuzzy : Fuzzy}

/-- The selection is within the items that are shown. -/
structure SelectList.Inv (items : List SelectItem) (maxVisible : Nat) (list : SelectList) :
    Prop where
  items : list.items = items
  visible : list.maxVisible = maxVisible
  indices : ∀ index ∈ list.filteredIndices, index < list.items.length
  fewer : list.filteredIndices.length ≤ list.items.length
  selected : list.filteredIndices ≠ [] → list.selected < list.filteredIndices.length

namespace SelectList

variable {items : List SelectItem} {maxVisible : Nat} {list : SelectList}

theorem rebuildFilter_inv (same : list.items = items) (visible : list.maxVisible = maxVisible) :
    (list.rebuildFilter fuzzy).Inv items maxVisible where
  items := same
  visible := visible
  indices := by
    intro index inside
    have below := filterIndices_lt fuzzy _ _ index inside
    rwa [length_map] at below
  fewer := by
    have count := filterIndices_length_le fuzzy (list.items.map SelectItem.searchableText)
      list.filter
    rwa [length_map] at count
  selected := fun some => clamped_lt (mt length_eq_zero_iff.mp some) _

section

variable (inv : list.Inv items maxVisible)
include inv

theorem Inv.setFilter (filter : String) : (list.setFilter fuzzy filter).Inv items maxVisible :=
  rebuildFilter_inv inv.items inv.visible

theorem Inv.moveSelection (delta : Int) : (list.moveSelection delta).Inv items maxVisible where
  __ := inv
  selected := fun some => moved_lt (mt length_eq_zero_iff.mp some) _ _

theorem Inv.apply (command : SelectCommand) : (list.apply fuzzy command).Inv items maxVisible := by
  cases command with
  | up | down | pageUp | pageDown => exact inv.moveSelection _
  | confirm | cancel => exact inv
  | key key =>
    cases key with
    | char | space | backspace => exact inv.setFilter _
    | _ => exact inv

end

theorem Inv.step {call : Call} {after : SelectList} (inv : list.Inv items maxVisible)
    (taken : SelectList.step fuzzy call list = some after) : after.Inv items maxVisible := by
  cases call with
  | input command =>
    cases taken
    exact inv.apply command
  | setFilter filter =>
    cases taken
    exact inv.setFilter filter

/-- The states of a list that was made with some items. -/
def Reached (fuzzy : Fuzzy) (items : List SelectItem) (maxVisible : Nat) (list : SelectList) :
    Prop :=
  ∃ calls, Transition.Run (SelectList.step fuzzy) (fun _ _ => True) (new fuzzy items maxVisible)
    calls list

theorem Reached.inv (reached : Reached fuzzy items maxVisible list) :
    list.Inv items maxVisible := by
  obtain ⟨calls, run⟩ := reached
  exact run.invariant (fun _ _ _ inv _ taken => inv.step taken) (rebuildFilter_inv rfl rfl)

theorem itemRows_length_le (list : SelectList) (width : Nat) :
    (list.itemRows width).length ≤ list.maxVisible := by
  unfold itemRows
  split
  · exact Nat.zero_le _
  · exact rows_length_le ..

theorem Inv.shows_iff (inv : list.Inv items maxVisible) :
    list.Shows ↔ list.filteredIndices = [] ∨ list.selected < maxVisible := by
  refine ⟨fun shows => ?_, fun within some => ?_⟩
  · by_contra outside
    obtain ⟨some, beyond⟩ := not_or.mp outside
    obtain ⟨_, index, item, _, _, marked⟩ := shows some 1 Nat.one_pos
    have none : (list.itemRows 1).filter (fun row => row.marker = "> ") = [] :=
      rows_unmarked _ _ (.inr (inv.visible ▸ Nat.le_of_not_lt beyond))
    exact cons_ne_nil _ _ (marked.symm.trans none)
  · intro width positive
    have high := within.resolve_left some
    have low := inv.selected some
    have there := inv.indices _ (getElem_mem low)
    refine ⟨itemRows_length_le .., _, _, getElem?_eq_getElem low,
      getElem?_eq_getElem there, ?_⟩
    rw [itemRows, if_neg positive.ne']
    exact rows_marked (Nat.zero_le _) (inv.visible ▸ high) (getElem?_eq_getElem low)
      (getElem?_eq_getElem there)

theorem new_filteredIndices (fuzzy : Fuzzy) (items : List SelectItem) (maxVisible : Nat) :
    (new fuzzy items maxVisible).filteredIndices = range items.length := by
  have tokens : Fuzzy.splitWhitespace "" = [] := by decide
  simp [new, rebuildFilter, Fuzzy.filterIndices, tokens]

theorem shows_always_iff (fuzzy : Fuzzy) (items : List SelectItem) (maxVisible : Nat) :
    (∀ list, Reached fuzzy items maxVisible list → list.Shows) ↔ items.length ≤ maxVisible := by
  refine ⟨fun always => ?_, fun fits list reached => ?_⟩
  · by_contra more
    let start := new fuzzy items maxVisible
    have filtered := new_filteredIndices fuzzy items maxVisible
    have some : items.length ≠ 0 := by omega
    have reached : Reached fuzzy items maxVisible (start.moveSelection (-1)) :=
      ⟨[.input .up], .next (.done start) trivial rfl⟩
    have first : start.selected = 0 := by
      have clamp : start.selected = clamped start.filteredIndices.length 0 := rfl
      rw [clamp, filtered, length_range, clamped, if_neg (by omega)]
    have last : (start.moveSelection (-1)).selected = items.length - 1 := by
      rw [moveSelection, first, filtered, length_range, moved_up some]
    rcases reached.inv.shows_iff.mp (always _ reached) with none | within
    · have empty : range items.length = [] := filtered.symm.trans none
      exact some (range_eq_nil.mp empty)
    · omega
  · have inv := reached.inv
    rw [inv.shows_iff]
    by_cases none : list.filteredIndices = []
    · exact .inl none
    · have fewer : list.filteredIndices.length ≤ items.length := inv.items ▸ inv.fewer
      exact .inr (Nat.lt_of_lt_of_le (inv.selected none) (Nat.le_trans fewer fits))

end SelectList

end selectRuns

section settingsRuns

variable {fuzzy : Fuzzy}

namespace SettingsList

variable {maxVisible : Nat} {list after : SettingsList}

/-- The selection is within the settings that are shown. -/
structure Inv (maxVisible : Nat) (list : SettingsList) : Prop where
  visible : list.maxVisible = maxVisible
  indices : ∀ index ∈ list.filteredIndices, index < list.items.length
  selected : list.filteredIndices ≠ [] → list.selected < list.filteredIndices.length

theorem rebuildFilter_inv (visible : list.maxVisible = maxVisible) :
    (list.rebuildFilter fuzzy).Inv maxVisible where
  visible := visible
  indices := by
    intro index inside
    unfold rebuildFilter at inside ⊢
    dsimp only at inside ⊢
    split at inside
    · have below := filterIndices_lt fuzzy _ _ index inside
      rwa [length_map] at below
    · exact mem_range.mp inside
  selected := fun some => clamped_lt (mt length_eq_zero_iff.mp some) _

theorem Inv.moveSelection (inv : list.Inv maxVisible) (delta : Int) :
    (list.moveSelection delta).Inv maxVisible where
  __ := inv
  selected := fun some => moved_lt (mt length_eq_zero_iff.mp some) _ _

theorem Inv.activateSelected (inv : list.Inv maxVisible) :
    (list.activateSelected fuzzy).Inv maxVisible := by
  unfold SettingsList.activateSelected
  split
  · exact inv
  split
  · exact inv
  split
  · exact ⟨inv.visible, inv.indices, inv.selected⟩
  split
  · exact inv
  · exact rebuildFilter_inv inv.visible

theorem Inv.apply (inv : list.Inv maxVisible) (command : SettingsCommand) :
    (list.apply fuzzy command).Inv maxVisible := by
  cases command with
  | up | down | pageUp | pageDown => exact inv.moveSelection _
  | activate => exact inv.activateSelected
  | cancel => exact inv
  | searchKey key =>
    cases key with
    | char | space | backspace => exact rebuildFilter_inv inv.visible
    | _ => exact inv

theorem Inv.applySubmenuResult (inv : list.Inv maxVisible) (id : String)
    (keeps : list.submenuResult = some none → list.filteredIndices ≠ [] →
      list.activeSubmenuSelected < list.filteredIndices.length) :
    (list.applySubmenuResult fuzzy id).Inv maxVisible := by
  unfold SettingsList.applySubmenuResult
  split
  · exact inv
  next result ended =>
  dsimp only
  split
  · exact ⟨inv.visible, inv.indices, keeps ended⟩
  · exact rebuildFilter_inv inv.visible

theorem Inv.handle (inv : list.Inv maxVisible) (command : Option SettingsCommand)
    (keeps : Keeps (.input command) list) : (list.handle fuzzy command).Inv maxVisible := by
  unfold SettingsList.handle
  split
  · next id active => exact inv.applySubmenuResult id (keeps (by rw [active]; rfl))
  split
  · exact inv.apply _
  · exact inv

theorem Inv.step {call : Call} (inv : list.Inv maxVisible) (keeps : Keeps call list)
    (taken : SettingsList.step fuzzy call list = some after) : after.Inv maxVisible := by
  cases call with
  | input command =>
    cases taken
    exact inv.handle command keeps
  | updateValue id value =>
    cases taken
    exact rebuildFilter_inv inv.visible
  | setSubmenuFactory id | finish value =>
    cases taken
    exact ⟨inv.visible, inv.indices, inv.selected⟩

theorem Inv.shows (inv : list.Inv maxVisible) (positive : 1 ≤ maxVisible) : list.Shows := by
  intro _ some width drawn
  rw [itemRows, if_neg drawn.ne']
  have low := inv.selected some
  have there := inv.indices _ (getElem_mem low)
  have count : list.visibleCount = maxVisible := by
    rw [visibleCount, inv.visible, max_eq_left positive]
  refine ⟨Nat.le_trans (rows_length_le ..) ?_, _, _, getElem?_eq_getElem low,
    getElem?_eq_getElem there, ?_⟩
  · rw [inv.visible, count]
    omega
  · refine rows_marked ?_ ?_ (getElem?_eq_getElem low) (getElem?_eq_getElem there)
    · unfold windowStart
      omega
    · unfold windowStart
      rw [count]
      omega

theorem not_shows_of_left {id : String} (active : list.activeSubmenu = some id)
    (ended : list.submenuResult = some none) (some : list.filteredIndices ≠ [])
    (beyond : list.filteredIndices.length ≤ list.activeSubmenuSelected)
    (command : Option SettingsCommand) : ¬ (list.handle fuzzy command).Shows := by
  have left : list.handle fuzzy command = { list with
      submenuResult := none
      activeSubmenu := none
      selected := list.activeSubmenuSelected } := by
    simp [handle, active, applySubmenuResult, ended]
  rw [left]
  intro shows
  obtain ⟨_, index, _, chosen, _⟩ := shows rfl some 1 Nat.one_pos
  have none : list.filteredIndices[list.activeSubmenuSelected]? = none :=
    getElem?_eq_none beyond
  exact absurd (none.symm.trans chosen) nofun

theorem Inv.shows_iff {call : Call} (inv : list.Inv maxVisible) (positive : 1 ≤ maxVisible)
    (taken : SettingsList.step fuzzy call list = some after) :
    after.Shows ↔ Keeps call list := by
  refine ⟨fun shows => ?_, fun keeps => (inv.step keeps taken).shows positive⟩
  cases call with
  | input command =>
    cases taken
    intro active ended some
    by_contra beyond
    obtain ⟨id, active⟩ := Option.isSome_iff_exists.mp active
    exact not_shows_of_left active ended some (Nat.le_of_not_lt beyond) command shows
  | updateValue | setSubmenuFactory | finish => trivial

end SettingsList

end settingsRuns

/-- A selection list shows its selection in every state exactly if it has no more items than
rows. A settings list shows it while no submenu is left for a row that is gone, and not after. -/
theorem selection_shown_iff (fuzzy : Fuzzy) (items : List SelectItem)
    (settings : List SettingItem) (enableSearch : Bool) (maxVisible : Nat)
    (positive : 1 ≤ maxVisible) :
    ((∀ list, SelectList.Reached fuzzy items maxVisible list → list.Shows) ↔
      items.length ≤ maxVisible) ∧
    ∀ calls list, Transition.Run (SettingsList.step fuzzy) SettingsList.Keeps
        (SettingsList.new fuzzy settings maxVisible enableSearch) calls list →
      list.Shows ∧ ∀ call after, SettingsList.step fuzzy call list = some after →
        (after.Shows ↔ SettingsList.Keeps call list) := by
  refine ⟨SelectList.shows_always_iff fuzzy items maxVisible, fun calls list run => ?_⟩
  have inv : list.Inv maxVisible :=
    run.invariant (fun _ _ _ inv keeps taken => SettingsList.Inv.step inv keeps taken)
      (SettingsList.rebuildFilter_inv rfl)
  exact ⟨inv.shows positive, fun call after taken => inv.shows_iff positive taken⟩

/-- Scores that match every token of a filter. -/
def evenFuzzy : Fuzzy := ⟨Unit, (), fun _ _ => (), fun _ _ => .eq, fun _ _ => some ()⟩

def twoItems : List SelectItem := [⟨"a", "a", none⟩, ⟨"b", "b", none⟩]

def threeSettings : List SettingItem :=
  [⟨"a", "a", none, "on", ["on", "off"]⟩, ⟨"b", "b", none, "on", []⟩, ⟨"c", "c", none, "x", []⟩]

theorem selection_shown_iff_two :
    ((∀ list, SelectList.Reached evenFuzzy twoItems 2 list → list.Shows) ↔ twoItems.length ≤ 2) ∧
    ∀ calls list, Transition.Run (SettingsList.step evenFuzzy) SettingsList.Keeps
        (SettingsList.new evenFuzzy threeSettings 2 true) calls list →
      list.Shows ∧ ∀ call after, SettingsList.step evenFuzzy call list = some after →
        (after.Shows ↔ SettingsList.Keeps call list) :=
  selection_shown_iff evenFuzzy twoItems threeSettings true 2 (by decide)

/-- One step down, and the selection is no longer shown. -/
theorem selection_scrolled_away :
    ¬ ∀ (fuzzy : Fuzzy) (items : List SelectItem) (maxVisible : Nat), 1 ≤ maxVisible →
      ∀ list, SelectList.Reached fuzzy items maxVisible list → list.Shows := by
  intro always
  let start := SelectList.new evenFuzzy twoItems 1
  have reached : SelectList.Reached evenFuzzy twoItems 1 (start.moveSelection 1) :=
    ⟨[.input .down], .next (.done start) trivial rfl⟩
  have filtered : (start.moveSelection 1).filteredIndices ≠ [] := by decide
  obtain ⟨_, _, _, _, _, marked⟩ := always _ _ _ (by decide) _ reached filtered 80 (by decide)
  have none :
      ((start.moveSelection 1).itemRows 80).filter (fun row => row.marker = "> ") = [] := by
    decide
  exact cons_ne_nil _ _ (marked.symm.trans none)

/-- In every reachable list a filtered item is selected, if there is one, and the rows are few
enough; the selected row is missing exactly while the selection is past the rows that are shown. -/
theorem SelectList.Reached.selects_shown {fuzzy : Fuzzy} {items : List SelectItem}
    {maxVisible : Nat} {list : SelectList} (reached : Reached fuzzy items maxVisible list) :
    (list.filteredIndices ≠ [] → ∃ index item, list.selectedIndex = some index ∧
        items[index]? = some item ∧ list.selectedItem = some item) ∧
      (∀ width, (list.itemRows width).length ≤ maxVisible) ∧
      (list.Shows ↔ list.filteredIndices = [] ∨ list.selected < maxVisible) := by
  have inv := reached.inv
  rw [← inv.visible, ← inv.items]
  refine ⟨fun some => ?_, itemRows_length_le list, inv.visible ▸ inv.shows_iff⟩
  have low := getElem?_eq_getElem (inv.selected some)
  have there := getElem?_eq_getElem (inv.indices _ (getElem_mem (inv.selected some)))
  refine ⟨_, _, low, there, ?_⟩
  rw [selectedItem, selectedIndex, low]
  exact there

theorem SelectList.Reached.selects_shown_down :
    ¬ ((SelectList.new evenFuzzy twoItems 1).moveSelection 1).Shows := by
  have reached : Reached evenFuzzy twoItems 1
      ((SelectList.new evenFuzzy twoItems 1).moveSelection 1) :=
    ⟨[.input .down], .next (.done _) trivial rfl⟩
  rw [(Reached.selects_shown reached).2.2]
  decide

end PiRust.ListSelection
