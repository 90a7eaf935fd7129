import Mathlib.Data.List.Nodup
import PiRust.Transition

/- The focus of `tui.rs`: the components, the overlays, and what each component was told last. -/
namespace PiRust.TuiFocus

open List

/-- A component with its id, and whether `set_focused(true)` is the last it was told. -/
structure Component where
  id : Nat
  told : Bool
  deriving DecidableEq, Repr

structure OverlayEntry where
  id : Nat
  component : Component
  nonCapturing : Bool
  hidden : Bool
  restoreFocus : Option Nat
  deriving DecidableEq, Repr

structure Tui where
  children : List Component
  overlays : List OverlayEntry
  nextComponentId : Nat
  nextOverlayId : Nat
  focusedComponent : Option Nat
  deriving DecidableEq, Repr

def OverlayEntry.mapComponent (change : Component → Component) (overlay : OverlayEntry) :
    OverlayEntry :=
  { overlay with component := change overlay.component }

namespace Tui

def new : Tui := ⟨[], [], 1, 1, none⟩

def components (tui : Tui) : List Component :=
  tui.children ++ tui.overlays.map OverlayEntry.component

/-- Whether `child_mut` finds a component. -/
def has (tui : Tui) (id : Nat) : Bool := tui.components.any (·.id = id)

def eachComponent (change : Component → Component) (tui : Tui) : Tui :=
  { tui with
    children := tui.children.map change
    overlays := tui.overlays.map (OverlayEntry.mapComponent change) }

/-- `set_focused` of the component that `child_mut` finds. Ids are not used twice. -/
def tell (id : Nat) (focused : Bool) (tui : Tui) : Tui :=
  tui.eachComponent fun component =>
    if component.id = id then { component with told := focused } else component

def setFocus (id : Option Nat) (tui : Tui) : Tui :=
  if tui.focusedComponent = id then tui
  else
    let left :=
      match tui.focusedComponent with
      | some previous => tui.tell previous false
      | none => tui
    match id with
    | none => { left with focusedComponent := none }
    | some next =>
      if left.has next then { left.tell next true with focusedComponent := some next }
      else { left with focusedComponent := none }

/-- `add_child`; `told` is what the component was told before it came here. -/
def addChild (told : Bool) (tui : Tui) : Tui :=
  { tui with
    children := tui.children ++ [⟨tui.nextComponentId, told⟩]
    nextComponentId := tui.nextComponentId + 1 }

def clearChildren (tui : Tui) : Tui := { tui with children := [], focusedComponent := none }

/-- `remove_child` gives the component back. -/
def removeChild (id : Nat) (tui : Tui) : Option Component × Tui :=
  match tui.children.find? (·.id = id) with
  | none => (none, tui)
  | some child =>
    (some child,
      { tui with
        children := tui.children.eraseP (·.id = id)
        focusedComponent :=
          if tui.focusedComponent = some id then none else tui.focusedComponent })

def showOverlay (told nonCapturing : Bool) (tui : Tui) : Tui :=
  { tui with
    overlays := tui.overlays ++
      [⟨tui.nextOverlayId, ⟨tui.nextComponentId, told⟩, nonCapturing, false, none⟩]
    nextComponentId := tui.nextComponentId + 1
    nextOverlayId := tui.nextOverlayId + 1 }

def putOverlay (overlay : OverlayEntry) (tui : Tui) : Tui :=
  { tui with overlays := tui.overlays.map fun other =>
      if other.id = overlay.id then overlay else other }

def overlay? (handle : Nat) (tui : Tui) : Option OverlayEntry := tui.overlays.find? (·.id = handle)

def setOverlayHidden (handle : Nat) (hidden : Bool) (tui : Tui) : Tui :=
  match tui.overlay? handle with
  | none => tui
  | some overlay =>
    let put := tui.putOverlay { overlay with hidden := hidden }
    if hidden ∧ tui.focusedComponent = some overlay.component.id then
      put.setFocus overlay.restoreFocus
    else put

def focusOverlay (handle : Nat) (tui : Tui) : Tui :=
  match tui.overlay? handle with
  | none => tui
  | some overlay =>
    if overlay.nonCapturing then tui
    else
      (tui.putOverlay { overlay with restoreFocus := tui.focusedComponent }).setFocus
        (some overlay.component.id)

def unfocusOverlay (handle : Nat) (target : Option Nat) (tui : Tui) : Tui :=
  match tui.overlay? handle with
  | none => tui
  | some overlay =>
    if tui.focusedComponent = some overlay.component.id then
      tui.setFocus (target.or overlay.restoreFocus)
    else tui

end Tui

/-- A call, `hide_overlay` being `set_overlay_hidden` with true. -/
inductive Call where
  | addChild (told : Bool)
  | removeChild (id : Nat)
  | clearChildren
  | showOverlay (told nonCapturing : Bool)
  | setOverlayHidden (handle : Nat) (hidden : Bool)
  | focusOverlay (handle : Nat)
  | unfocusOverlay (handle : Nat) (target : Option Nat)
  | setFocus (id : Option Nat)
  deriving DecidableEq, Repr

def Tui.call (call : Call) (tui : Tui) : Tui :=
  match call with
  | .addChild told => tui.addChild told
  | .removeChild id => (tui.removeChild id).2
  | .clearChildren => tui.clearChildren
  | .showOverlay told nonCapturing => tui.showOverlay told nonCapturing
  | .setOverlayHidden handle hidden => tui.setOverlayHidden handle hidden
  | .focusOverlay handle => tui.focusOverlay handle
  | .unfocusOverlay handle target => tui.unfocusOverlay handle target
  | .setFocus id => tui.setFocus id

def Tui.givenBack (call : Call) (tui : Tui) : List Component :=
  match call with
  | .removeChild id => (tui.removeChild id).1.toList
  | _ => []

/-- What is watched beside the code: the components that were given back, and for each overlay
where the focus was when the overlay first took it since it was hidden last. -/
structure World where
  tui : Tui
  removed : List Component
  first : Nat → Option (Option Nat)

def noted (before after : Tui) (first : Nat → Option (Option Nat)) (handle : Nat) :
    Option (Option Nat) :=
  match after.overlay? handle with
  | none => none
  | some overlay =>
    if overlay.hidden then none
    else if first handle = none ∧ after.focusedComponent = some overlay.component.id ∧
        before.focusedComponent ≠ some overlay.component.id then
      some before.focusedComponent
    else first handle

namespace World

def start : World := ⟨.new, [], fun _ => none⟩

def step (call : Call) (world : World) : Option World :=
  some {
    tui := world.tui.call call
    removed := world.tui.givenBack call ++ world.removed
    first := noted world.tui (world.tui.call call) world.first }

/-- The focus may go to a component: not to that of a hidden overlay, and to that of a capturing
overlay that takes it for the first time only if the overlay would give it back to where it is. -/
def Admits (target : Option Nat) (world : World) : Prop :=
  ∀ overlay ∈ world.tui.overlays, target = some overlay.component.id →
    overlay.hidden = false ∧ (overlay.nonCapturing = false → world.first overlay.id = none →
      overlay.restoreFocus.filter world.tui.has = world.tui.focusedComponent)

/-- The condition on a call. -/
def Meets (call : Call) (world : World) : Prop :=
  match call with
  | .addChild told | .showOverlay told _ => told = false
  | .removeChild id => world.tui.focusedComponent = some id →
      ∀ child ∈ world.tui.children, child.id ≠ id
  | .clearChildren => ∀ overlay ∈ world.tui.overlays,
      world.tui.focusedComponent ≠ some overlay.component.id
  | .setOverlayHidden handle hidden => hidden = true → ∀ overlay ∈ world.tui.overlays,
      overlay.id = handle → world.tui.focusedComponent = some overlay.component.id →
        world.Admits overlay.restoreFocus
  | .focusOverlay handle => ∀ overlay ∈ world.tui.overlays, overlay.id = handle →
      overlay.nonCapturing = false → overlay.hidden = false ∧
        ∀ earlier ∈ world.first handle, earlier.filter world.tui.has = world.tui.focusedComponent
  | .unfocusOverlay handle target => ∀ overlay ∈ world.tui.overlays, overlay.id = handle →
      world.tui.focusedComponent = some overlay.component.id →
        world.Admits (target.or overlay.restoreFocus)
  | .setFocus id => world.Admits id

instance (target : Option Nat) (world : World) : Decidable (world.Admits target) :=
  inferInstanceAs (Decidable (∀ _ ∈ world.tui.overlays, _ → _))

instance (call : Call) (world : World) : Decidable (world.Meets call) :=
  match call with
  | .addChild _ => inferInstanceAs (Decidable (_ = false))
  | .showOverlay _ _ => inferInstanceAs (Decidable (_ = false))
  | .removeChild _ => inferInstanceAs (Decidable (_ → ∀ _ ∈ world.tui.children, _))
  | .clearChildren => inferInstanceAs (Decidable (∀ _ ∈ world.tui.overlays, _))
  | .setOverlayHidden _ _ => inferInstanceAs (Decidable (_ → ∀ _ ∈ world.tui.overlays, _ → _ → _))
  | .focusOverlay _ => inferInstanceAs (Decidable (∀ _ ∈ world.tui.overlays, _ → _ → _))
  | .unfocusOverlay _ _ => inferInstanceAs (Decidable (∀ _ ∈ world.tui.overlays, _ → _ → _))
  | .setFocus id => inferInstanceAs (Decidable (world.Admits id))

/-- What is asked of a state: who was told, who is named, and where the focus goes when the
overlay that has it is hidden. -/
structure Focused (world : World) : Prop where
  one : (world.tui.components ++ world.removed).countP Component.told ≤ 1
  named : ∀ component ∈ world.tui.components ++ world.removed, component.told = true →
    world.tui.focusedComponent = some component.id
  exists_ : ∀ id, world.tui.focusedComponent = some id →
    ∃ component ∈ world.tui.components, component.id = id
  visible : ∀ overlay ∈ world.tui.overlays,
    world.tui.focusedComponent = some overlay.component.id → overlay.hidden = false
  restored : ∀ overlay ∈ world.tui.overlays, overlay.nonCapturing = false →
    world.tui.focusedComponent = some overlay.component.id →
      ∃ earlier, world.first overlay.id = some earlier ∧
        (world.tui.setOverlayHidden overlay.id true).focusedComponent = earlier.filter world.tui.has

end World

section components

variable {tui : Tui}

theorem components_eachComponent (change : Component → Component) (tui : Tui) :
    (tui.eachComponent change).components = tui.components.map change := by
  simp [Tui.components, Tui.eachComponent, OverlayEntry.mapComponent, Function.comp_def]

theorem eachComponent_congr {change other : Component → Component}
    (same : ∀ component ∈ tui.components, change component = other component) :
    tui.eachComponent change = tui.eachComponent other := by
  have children : tui.children.map change = tui.children.map other :=
    map_congr_left fun child inside => same child (mem_append_left _ inside)
  have overlays : tui.overlays.map (OverlayEntry.mapComponent change) =
      tui.overlays.map (OverlayEntry.mapComponent other) := by
    refine map_congr_left fun overlay inside => ?_
    unfold OverlayEntry.mapComponent
    rw [same _ (mem_append_right _ (mem_map_of_mem inside))]
  unfold Tui.eachComponent
  rw [children, overlays]

theorem eachComponent_eachComponent (change later : Component → Component) (tui : Tui) :
    (tui.eachComponent change).eachComponent later = tui.eachComponent (later ∘ change) := by
  simp [Tui.eachComponent, OverlayEntry.mapComponent, Function.comp_def]

theorem eachComponent_id (tui : Tui) : tui.eachComponent id = tui := by
  have whole : OverlayEntry.mapComponent id = id := rfl
  simp [Tui.eachComponent, whole]

theorem has_iff {id : Nat} :
    tui.has id = true ↔ ∃ component ∈ tui.components, component.id = id := by
  simp [Tui.has]

theorem has_eachComponent {change : Component → Component}
    (keeps : ∀ component, (change component).id = component.id) (tui : Tui) :
    (tui.eachComponent change).has = tui.has := by
  funext id
  rw [Tui.has, Tui.has, components_eachComponent, any_map]
  congr 1
  funext component
  rw [Function.comp_apply, keeps]

/-- What a component was told, where the focus is at `focus`. -/
def retell (focus : Option Nat) (component : Component) : Component :=
  { component with told := decide (focus = some component.id) }

def Tui.refocus (focus : Option Nat) (tui : Tui) : Tui :=
  { tui.eachComponent (retell focus) with focusedComponent := focus }

/-- The component in focus is there, and the only one that is told so. -/
structure Told (tui : Tui) : Prop where
  told : ∀ component ∈ tui.components, retell tui.focusedComponent component = component
  there : ∀ id, tui.focusedComponent = some id → tui.has id = true

theorem Told.refocus_self (told : Told tui) : tui.refocus tui.focusedComponent = tui := by
  rw [Tui.refocus, eachComponent_congr told.told]
  exact eachComponent_id tui

theorem Told.found (told : Told tui) :
    tui.focusedComponent.filter tui.has = tui.focusedComponent := by
  cases focused : tui.focusedComponent with
  | none => rfl
  | some id => exact Option.filter_some_pos (told.there id focused)

theorem Told.left (told : Told tui) :
    (match tui.focusedComponent with
      | some previous => tui.tell previous false
      | none => tui) = tui.eachComponent (retell none) := by
  cases focused : tui.focusedComponent with
  | none =>
    have all := told.told
    rw [focused] at all
    exact (eachComponent_id tui).symm.trans
      (eachComponent_congr fun component inside => (all component inside).symm)
  | some previous =>
    refine eachComponent_congr fun component inside => ?_
    have own := told.told component inside
    rw [focused] at own
    by_cases same : component.id = previous
    · rw [if_pos same]
      rfl
    · rw [if_neg same]
      have other : ¬ some previous = some component.id := fun equal =>
        same (Option.some.inj equal).symm
      rw [← own]
      simp [retell, other]

theorem Told.setFocus (told : Told tui) (target : Option Nat) :
    tui.setFocus target = tui.refocus (target.filter tui.has) := by
  have keeps : ∀ focus component, (retell focus component).id = component.id := fun _ _ => rfl
  unfold Tui.setFocus
  by_cases same : tui.focusedComponent = target
  · subst same
    rw [if_pos rfl, told.found, told.refocus_self]
  · rw [if_neg same]
    dsimp only
    rw [told.left]
    cases target with
    | none => rfl
    | some next =>
      dsimp only
      rw [has_eachComponent (keeps none)]
      by_cases there : tui.has next = true
      · rw [if_pos there, Option.filter_some_pos there]
        unfold Tui.refocus Tui.tell
        rw [eachComponent_eachComponent]
        have all : (fun component : Component =>
            if component.id = next then { component with told := true } else component) ∘
            retell none = retell (some next) := by
          funext component
          by_cases same : component.id = next
          · simp [retell, same]
          · simp [retell, same, Ne.symm same]
        rw [all]
      · rw [if_neg there, Option.filter_some_neg (Bool.eq_false_iff.mpr there)]
        rfl

end components

/-- What holds of the components and overlays at every moment. -/
structure Sound (tui : Tui) : Prop where
  told : Told tui
  apart : (tui.components.map Component.id).Nodup
  below : ∀ component ∈ tui.components, component.id < tui.nextComponentId
  handles : (tui.overlays.map OverlayEntry.id).Nodup
  under : ∀ overlay ∈ tui.overlays, overlay.id < tui.nextOverlayId
  quiet : ∀ overlay ∈ tui.overlays, overlay.nonCapturing = true → overlay.restoreFocus = none
  kept : ∀ overlay ∈ tui.overlays, ∀ id, overlay.restoreFocus = some id → id < tui.nextComponentId

/-- A change of an overlay's fields `hidden` and `restore_focus`. -/
structure Marks (change : OverlayEntry → OverlayEntry) : Prop where
  id : ∀ overlay, (change overlay).id = overlay.id
  component : ∀ overlay, (change overlay).component = overlay.component
  nonCapturing : ∀ overlay, (change overlay).nonCapturing = overlay.nonCapturing

/-- What a call leaves that adds nothing: some children are gone, the overlays are marked, and the
focus is somewhere. -/
def Tui.turned (kids : List Component) (change : OverlayEntry → OverlayEntry) (focus : Option Nat)
    (tui : Tui) : Tui :=
  { tui with children := kids, overlays := tui.overlays.map change }.refocus focus

section turned

variable {tui : Tui} {kids : List Component} {change : OverlayEntry → OverlayEntry}
  {focus : Option Nat}

theorem Marks.refl : Marks fun overlay => overlay := ⟨fun _ => rfl, fun _ => rfl, fun _ => rfl⟩

theorem Marks.own (marks : Marks change) (focus : Option Nat) (overlay : OverlayEntry) :
    ((change overlay).mapComponent (retell focus)).component.id = overlay.component.id := by
  change (change overlay).component.id = overlay.component.id
  rw [marks.component]

theorem overlay_turned {after : OverlayEntry} :
    after ∈ (tui.turned kids change focus).overlays ↔
      ∃ overlay ∈ tui.overlays, (change overlay).mapComponent (retell focus) = after := by
  simp [Tui.turned, Tui.refocus, Tui.eachComponent]

theorem Marks.components_turned (marks : Marks change) :
    (tui.turned kids change focus).components =
      (kids ++ tui.overlays.map OverlayEntry.component).map (retell focus) := by
  have same : OverlayEntry.component ∘ change = OverlayEntry.component :=
    funext marks.component
  have inner :
      ({ tui with children := kids, overlays := tui.overlays.map change } : Tui).components =
        kids ++ tui.overlays.map OverlayEntry.component := by
    rw [Tui.components, map_map, same]
  rw [← inner]
  exact components_eachComponent (retell focus) _

theorem Marks.has_turned (marks : Marks change) (id : Nat) :
    (tui.turned kids change focus).has id = true ↔
      ∃ component ∈ kids ++ tui.overlays.map OverlayEntry.component, component.id = id := by
  rw [has_iff, marks.components_turned]
  constructor
  · rintro ⟨_, inside, named⟩
    obtain ⟨component, present, rfl⟩ := mem_map.mp inside
    exact ⟨component, present, named⟩
  · rintro ⟨component, present, named⟩
    exact ⟨retell focus component, mem_map_of_mem present, named⟩

theorem Marks.has_of_turned (marks : Marks change) (fewer : kids.Sublist tui.children) {id : Nat}
    (there : (tui.turned kids change focus).has id = true) : tui.has id = true := by
  obtain ⟨component, inside, named⟩ := (marks.has_turned id).mp there
  have whole : (kids ++ tui.overlays.map OverlayEntry.component).Sublist tui.components :=
    fewer.append_right _
  exact has_iff.mpr ⟨component, whole.subset inside, named⟩

theorem Sound.turned (sound : Sound tui) (marks : Marks change)
    (fewer : kids.Sublist tui.children)
    (there : ∀ id, focus = some id → (tui.turned kids change focus).has id = true)
    (quiet : ∀ overlay ∈ tui.overlays, overlay.nonCapturing = true →
      (change overlay).restoreFocus = none)
    (kept : ∀ overlay ∈ tui.overlays, ∀ id, (change overlay).restoreFocus = some id →
      id < tui.nextComponentId) : Sound (tui.turned kids change focus) := by
  have whole : (kids ++ tui.overlays.map OverlayEntry.component).Sublist tui.components :=
    fewer.append_right _
  have names : (tui.turned kids change focus).overlays.map OverlayEntry.id =
      tui.overlays.map OverlayEntry.id := by
    simp [Tui.turned, Tui.refocus, Tui.eachComponent, OverlayEntry.mapComponent,
      Function.comp_def, marks.id]
  refine ⟨⟨fun component inside => ?_, there⟩, ?_, fun component inside => ?_, ?_,
    fun after inside => ?_, fun after inside silent => ?_, fun after inside id held => ?_⟩
  · rw [marks.components_turned] at inside
    obtain ⟨earlier, _, rfl⟩ := mem_map.mp inside
    rfl
  · rw [marks.components_turned, map_map]
    exact sound.apart.sublist (whole.map _)
  · rw [marks.components_turned] at inside
    obtain ⟨earlier, present, rfl⟩ := mem_map.mp inside
    exact sound.below earlier (whole.subset present)
  · rw [names]
    exact sound.handles
  · have named := mem_map_of_mem (f := OverlayEntry.id) inside
    rw [names] at named
    obtain ⟨overlay, present, same⟩ := mem_map.mp named
    rw [← same]
    exact sound.under overlay present
  · obtain ⟨overlay, present, rfl⟩ := overlay_turned.mp inside
    exact quiet overlay present ((marks.nonCapturing overlay).symm.trans silent)
  · obtain ⟨overlay, present, rfl⟩ := overlay_turned.mp inside
    exact kept overlay present id held

end turned

/-- What holds of every state of a run whose calls meet the condition. -/
structure World.Inv (world : World) : Prop where
  sound : Sound world.tui
  visible : ∀ overlay ∈ world.tui.overlays,
    world.tui.focusedComponent = some overlay.component.id → overlay.hidden = false
  back : ∀ component ∈ world.removed, component.told = false
  holds : ∀ overlay ∈ world.tui.overlays, overlay.nonCapturing = false →
    ∀ earlier, world.first overlay.id = some earlier →
      overlay.restoreFocus.filter world.tui.has = earlier.filter world.tui.has ∧
        overlay.restoreFocus ≠ some overlay.component.id
  taken : ∀ overlay ∈ world.tui.overlays, overlay.nonCapturing = false →
    world.tui.focusedComponent = some overlay.component.id → world.first overlay.id ≠ none
  unknown : ∀ handle, (∀ overlay ∈ world.tui.overlays, overlay.id ≠ handle) →
    world.first handle = none
  past : ∀ handle id, world.first handle = some (some id) → id < world.tui.nextComponentId

section steps

variable {tui before after : Tui} {first : Nat → Option (Option Nat)} {overlay : OverlayEntry}
variable {handle : Nat} {other : OverlayEntry} {earlier : Option Nat}

theorem overlay?_some (found : tui.overlay? handle = some overlay) :
    overlay ∈ tui.overlays ∧ overlay.id = handle :=
  ⟨mem_of_find?_eq_some found, by simpa using find?_some found⟩

theorem Sound.overlay_unique (sound : Sound tui) (inside : overlay ∈ tui.overlays)
    (there : other ∈ tui.overlays) (same : other.id = overlay.id) : other = overlay :=
  inj_on_of_nodup_map sound.handles there inside same

theorem Sound.overlay_of_component (sound : Sound tui) (inside : overlay ∈ tui.overlays)
    (there : other ∈ tui.overlays) (same : other.component.id = overlay.component.id) :
    other = overlay := by
  have names : (tui.overlays.map fun one => one.component.id).Nodup := by
    have whole := sound.apart
    rw [Tui.components, map_append, map_map] at whole
    exact whole.of_append_right
  exact inj_on_of_nodup_map names there inside same

theorem Sound.overlay?_of_mem (sound : Sound tui) (inside : overlay ∈ tui.overlays) :
    tui.overlay? overlay.id = some overlay := by
  cases found : tui.overlay? overlay.id with
  | none => simpa using find?_eq_none.mp found overlay inside
  | some other =>
    obtain ⟨there, same⟩ := overlay?_some found
    rw [sound.overlay_unique inside there same]

theorem Sound.noted_eq (sound : Sound after) (inside : overlay ∈ after.overlays) :
    noted before after first overlay.id =
      if overlay.hidden then none
      else if first overlay.id = none ∧ after.focusedComponent = some overlay.component.id ∧
          before.focusedComponent ≠ some overlay.component.id then
        some before.focusedComponent
      else first overlay.id := by
  rw [noted, sound.overlay?_of_mem inside]

theorem Sound.noted_some (sound : Sound after) (inside : overlay ∈ after.overlays)
    (seen : noted before after first overlay.id = some earlier) :
    first overlay.id = some earlier ∨
      first overlay.id = none ∧ after.focusedComponent = some overlay.component.id ∧
        before.focusedComponent ≠ some overlay.component.id ∧
          earlier = before.focusedComponent := by
  rw [sound.noted_eq inside] at seen
  split at seen
  · cases seen
  · split at seen
    · rename_i gained
      exact .inr ⟨gained.1, gained.2.1, gained.2.2, (Option.some.inj seen).symm⟩
    · exact .inl seen

theorem filter_narrow {one other : Option Nat} {wide narrow : Nat → Bool}
    (same : one.filter wide = other.filter wide)
    (less : ∀ id, narrow id = true → wide id = true) :
    one.filter narrow = other.filter narrow := by
  have through : ∀ target : Option Nat,
      target.filter narrow = (target.filter wide).filter narrow := by
    intro target
    rw [Option.filter_filter]
    congr 1
    funext id
    cases kept : narrow id with
    | false => exact (Bool.and_false _).symm
    | true => rw [less id kept, Bool.and_true]
  rw [through one, through other, same]

theorem noted_past (seen : noted before after first handle = some earlier) :
    first handle = some earlier ∨ earlier = before.focusedComponent := by
  unfold noted at seen
  split at seen
  · cases seen
  · split at seen
    · cases seen
    · split at seen
      · exact .inr (Option.some.inj seen).symm
      · exact .inl seen

theorem filter_agree {target : Option Nat} {one other : Nat → Bool}
    (same : ∀ id, target = some id → one id = other id) :
    target.filter one = target.filter other := by
  cases target with
  | none => rfl
  | some id => rw [Option.filter_some, Option.filter_some, same id rfl]

theorem has_of_overlay (inside : overlay ∈ tui.overlays) : tui.has overlay.component.id = true :=
  has_iff.mpr ⟨overlay.component, mem_append_right _ (mem_map_of_mem inside), rfl⟩

theorem Sound.focused_below (sound : Sound tui) {id : Nat}
    (focused : tui.focusedComponent = some id) : id < tui.nextComponentId := by
  obtain ⟨component, inside, same⟩ := has_iff.mp (sound.told.there id focused)
  rw [← same]
  exact sound.below component inside

theorem noted_unknown (absent : ∀ overlay ∈ after.overlays, overlay.id ≠ handle) :
    noted before after first handle = none := by
  have missing : after.overlay? handle = none :=
    find?_eq_none.mpr fun overlay inside => by simpa using absent overlay inside
  rw [noted, missing]

end steps

theorem World.Inv.turned {world : World} (inv : world.Inv) {kids : List Component}
    {change : OverlayEntry → OverlayEntry} {focus : Option Nat} {back : List Component}
    (marks : Marks change) (fewer : kids.Sublist world.tui.children)
    (given : ∀ component ∈ back, component.told = false)
    (there : ∀ id, focus = some id → (world.tui.turned kids change focus).has id = true)
    (quiet : ∀ overlay ∈ world.tui.overlays, overlay.nonCapturing = true →
      (change overlay).restoreFocus = none)
    (kept : ∀ overlay ∈ world.tui.overlays, ∀ id, (change overlay).restoreFocus = some id →
      id < world.tui.nextComponentId)
    (visible : ∀ overlay ∈ world.tui.overlays, focus = some overlay.component.id →
      (change overlay).hidden = false)
    (gains : ∀ overlay ∈ world.tui.overlays, overlay.nonCapturing = false →
      world.first overlay.id = none → focus = some overlay.component.id →
        world.tui.focusedComponent ≠ some overlay.component.id →
          (change overlay).restoreFocus.filter world.tui.has = world.tui.focusedComponent)
    (holds : ∀ overlay ∈ world.tui.overlays, overlay.nonCapturing = false →
      ∀ earlier, world.first overlay.id = some earlier →
        (change overlay).restoreFocus.filter world.tui.has = earlier.filter world.tui.has ∧
          (change overlay).restoreFocus ≠ some overlay.component.id) :
    World.Inv ⟨world.tui.turned kids change focus, back ++ world.removed,
      noted world.tui (world.tui.turned kids change focus) world.first⟩ := by
  have sound := inv.sound.turned marks fewer there quiet kept
  have less : ∀ id, (world.tui.turned kids change focus).has id = true →
      world.tui.has id = true := fun id => marks.has_of_turned fewer
  -- the focus before the call is on a component that is there
  have found := inv.sound.told.found
  refine ⟨sound, fun after inside focused => ?_, fun component inside => ?_,
    fun after inside taking earlier seen => ?_, fun after inside taking focused => ?_,
    fun handle absent => noted_unknown absent, fun handle id seen => ?_⟩
  · obtain ⟨overlay, present, rfl⟩ := overlay_turned.mp inside
    exact visible overlay present (marks.component overlay ▸ focused)
  · exact (mem_append.mp inside).elim (given component) (inv.back component)
  · obtain ⟨overlay, present, rfl⟩ := overlay_turned.mp inside
    have own := marks.own focus overlay
    have handle : ((change overlay).mapComponent (retell focus)).id = overlay.id := marks.id overlay
    have captures : overlay.nonCapturing = false := (marks.nonCapturing overlay).symm.trans taking
    have seen := sound.noted_some inside seen
    rw [own, handle] at seen
    rw [own]
    obtain old | ⟨fresh, gained, away, rfl⟩ := seen
    · obtain ⟨same, other⟩ := holds overlay present captures earlier old
      exact ⟨filter_narrow same less, other⟩
    · have back := gains overlay present captures fresh gained away
      refine ⟨filter_narrow (back.trans found.symm) less, fun self => away ?_⟩
      have marked : (change overlay).restoreFocus = some overlay.component.id := self
      rw [marked, Option.filter_some_pos (has_of_overlay present)] at back
      exact back.symm
  · obtain ⟨overlay, present, rfl⟩ := overlay_turned.mp inside
    have own := marks.own focus overlay
    have captures : overlay.nonCapturing = false := (marks.nonCapturing overlay).symm.trans taking
    have shown : ((change overlay).mapComponent (retell focus)).hidden = false :=
      visible overlay present (own ▸ focused)
    change noted _ _ _ _ ≠ none
    rw [sound.noted_eq inside, shown, if_neg Bool.false_ne_true]
    split
    · exact Option.some_ne_none _
    · rename_i kept
      have handle : ((change overlay).mapComponent (retell focus)).id = overlay.id :=
        marks.id overlay
      rw [own, handle] at kept
      rw [handle]
      rw [own] at focused
      intro fresh
      refine inv.taken overlay present captures ?_ fresh
      exact Decidable.byContradiction fun away => kept ⟨fresh, focused, away⟩
  · obtain old | same := noted_past seen
    · exact inv.past handle id old
    · exact inv.sound.focused_below same.symm

def Tui.marked (change : OverlayEntry → OverlayEntry) (tui : Tui) : Tui :=
  { tui with overlays := tui.overlays.map change }

def onHandle (handle : Nat) (change : OverlayEntry → OverlayEntry) (overlay : OverlayEntry) :
    OverlayEntry :=
  if overlay.id = handle then change overlay else overlay

section marked

variable {tui : Tui} {change : OverlayEntry → OverlayEntry} {handle : Nat}

section

variable (marks : Marks change)
include marks

theorem Marks.onHandle : Marks (onHandle handle change) := by
  refine ⟨fun overlay => ?_, fun overlay => ?_, fun overlay => ?_⟩ <;>
    by_cases same : overlay.id = handle
  all_goals
    simp [TuiFocus.onHandle, same, marks.id, marks.component, marks.nonCapturing]

theorem Marks.components_marked : (tui.marked change).components = tui.components := by
  have same : OverlayEntry.component ∘ change = OverlayEntry.component := funext marks.component
  rw [Tui.components, Tui.components, Tui.marked, map_map, same]

theorem Marks.has_marked : (tui.marked change).has = tui.has := by
  funext id
  rw [Tui.has, Tui.has, marks.components_marked]

theorem Marks.told_marked (told : Told tui) : Told (tui.marked change) := by
  refine ⟨fun component inside => ?_, fun id focused => ?_⟩
  · rw [marks.components_marked] at inside
    exact told.told component inside
  · rw [marks.has_marked]
    exact told.there id focused

theorem Marks.setFocus_marked (told : Told tui) (target : Option Nat) :
    (tui.marked change).setFocus target =
      tui.turned tui.children change (target.filter tui.has) := by
  rw [(marks.told_marked told).setFocus, marks.has_marked]
  rfl

end

theorem setFocus_self (tui : Tui) : tui.setFocus tui.focusedComponent = tui := by
  unfold Tui.setFocus
  exact if_pos rfl

theorem Sound.putOverlay (sound : Sound tui) (marks : Marks change) {overlay : OverlayEntry}
    (found : tui.overlay? handle = some overlay) :
    tui.putOverlay (change overlay) = tui.marked (onHandle handle change) := by
  obtain ⟨inside, named⟩ := overlay?_some found
  unfold Tui.putOverlay Tui.marked
  congr 1
  refine map_congr_left fun other there => ?_
  rw [marks.id, named, onHandle]
  by_cases same : other.id = handle
  · rw [if_pos same, if_pos same, sound.overlay_unique inside there (same.trans named.symm)]
  · rw [if_neg same, if_neg same]

end marked

namespace World.Inv

variable {world : World}

theorem sent (inv : world.Inv) {change : OverlayEntry → OverlayEntry} (marks : Marks change)
    (same : ∀ overlay, (change overlay).restoreFocus = overlay.restoreFocus) (target : Option Nat)
    (visible : ∀ overlay ∈ world.tui.overlays, target = some overlay.component.id →
      (change overlay).hidden = false)
    (admits : ∀ overlay ∈ world.tui.overlays, target = some overlay.component.id →
      overlay.nonCapturing = false → world.first overlay.id = none →
        world.tui.focusedComponent ≠ some overlay.component.id →
          overlay.restoreFocus.filter world.tui.has = world.tui.focusedComponent) :
    World.Inv ⟨(world.tui.marked change).setFocus target, world.removed,
      noted world.tui ((world.tui.marked change).setFocus target) world.first⟩ := by
  have through : ∀ {id : Nat}, target.filter world.tui.has = some id →
      target = some id ∧ world.tui.has id = true := fun sent =>
    Option.filter_eq_some_iff.mp sent
  rw [marks.setFocus_marked inv.sound.told]
  refine inv.turned marks (Sublist.refl _)
    (forall_mem_nil _)
    (fun id arrived => ?_) (fun overlay inside silent => ?_) (fun overlay inside id held => ?_)
    (fun overlay inside arrived => visible overlay inside (through arrived).1)
    (fun overlay inside captures fresh arrived away => ?_)
    (fun overlay inside captures earlier seen => ?_)
  · exact (marks.has_turned id).mpr (has_iff.mp (through arrived).2)
  · rw [same]
    exact inv.sound.quiet overlay inside silent
  · rw [same] at held
    exact inv.sound.kept overlay inside id held
  · rw [same]
    exact admits overlay inside (through arrived).1 captures fresh away
  · rw [same]
    exact inv.holds overlay inside captures earlier seen

theorem stay (inv : world.Inv) :
    World.Inv ⟨world.tui, world.removed, noted world.tui world.tui world.first⟩ := by
  have same : (world.tui.marked fun overlay => overlay) = world.tui := by
    rw [Tui.marked, map_id']
  have kept := inv.sent Marks.refl (fun _ => rfl) world.tui.focusedComponent inv.visible
    (fun overlay _ focused _ _ away => absurd focused away)
  rw [same, setFocus_self] at kept
  exact kept

variable {target focus : Option Nat} {handle : Nat} {kids : List Component}

theorem setFocus (inv : world.Inv) (admits : world.Admits target) :
    World.Inv ⟨world.tui.setFocus target, world.removed,
      noted world.tui (world.tui.setFocus target) world.first⟩ := by
  have same : (world.tui.marked fun overlay => overlay) = world.tui := by
    rw [Tui.marked, map_id']
  have kept := inv.sent Marks.refl (fun _ => rfl) target
    (fun overlay inside sent => (admits overlay inside sent).1)
    (fun overlay inside sent captures fresh _ => (admits overlay inside sent).2 captures fresh)
  rw [same] at kept
  exact kept

theorem elsewhere (inv : world.Inv) {overlay : OverlayEntry}
    (inside : overlay ∈ world.tui.overlays)
    (focused : world.tui.focusedComponent = some overlay.component.id) :
    overlay.restoreFocus ≠ some overlay.component.id := by
  cases captures : overlay.nonCapturing with
  | true =>
    rw [inv.sound.quiet overlay inside captures]
    exact (Option.some_ne_none _).symm
  | false =>
    obtain ⟨earlier, seen⟩ := Option.ne_none_iff_exists'.mp
      (inv.taken overlay inside captures focused)
    exact (inv.holds overlay inside captures earlier seen).2

def hide (hidden : Bool) (overlay : OverlayEntry) : OverlayEntry := { overlay with hidden := hidden }

def aside (focus : Option Nat) (overlay : OverlayEntry) : OverlayEntry :=
  { overlay with restoreFocus := focus }

theorem marks_hide (hidden : Bool) : Marks (hide hidden) :=
  ⟨fun _ => rfl, fun _ => rfl, fun _ => rfl⟩

theorem marks_aside (focus : Option Nat) : Marks (aside focus) :=
  ⟨fun _ => rfl, fun _ => rfl, fun _ => rfl⟩

theorem setOverlayHidden (inv : world.Inv) {hidden : Bool}
    (meets : world.Meets (.setOverlayHidden handle hidden)) :
    World.Inv ⟨world.tui.setOverlayHidden handle hidden, world.removed,
      noted world.tui (world.tui.setOverlayHidden handle hidden) world.first⟩ := by
  unfold Tui.setOverlayHidden
  cases found : world.tui.overlay? handle with
  | none => exact inv.stay
  | some overlay =>
    obtain ⟨inside, named⟩ := overlay?_some found
    have marks : Marks (onHandle handle (hide hidden)) := (marks_hide hidden).onHandle
    have put : world.tui.putOverlay { overlay with hidden := hidden } =
        world.tui.marked (onHandle handle (hide hidden)) :=
      inv.sound.putOverlay (marks_hide hidden) found
    have same : ∀ other, (onHandle handle (hide hidden) other).restoreFocus =
        other.restoreFocus := by
      intro other
      by_cases this : other.id = handle
      · rw [onHandle, if_pos this, hide]
      · rw [onHandle, if_neg this]
    dsimp only
    rw [put]
    by_cases leaves : hidden = true ∧ world.tui.focusedComponent = some overlay.component.id
    · rw [if_pos leaves]
      have admits := meets leaves.1 overlay inside named leaves.2
      refine inv.sent marks same overlay.restoreFocus (fun other there sent => ?_)
        (fun other there sent captures fresh _ => (admits other there sent).2 captures fresh)
      -- the overlay that is hidden does not get the focus back
      have apart : other.id ≠ handle := by
        intro this
        rw [inv.sound.overlay_unique inside there (this.trans named.symm)] at sent
        exact inv.elsewhere inside leaves.2 sent
      rw [onHandle, if_neg apart]
      exact (admits other there sent).1
    · rw [if_neg leaves, ← setFocus_self (world.tui.marked _)]
      refine inv.sent marks same world.tui.focusedComponent (fun other there focused => ?_)
        (fun other _ focused _ _ away => absurd focused away)
      by_cases this : other.id = handle
      · rw [onHandle, if_pos this]
        rw [inv.sound.overlay_unique inside there (this.trans named.symm)] at focused
        exact Bool.eq_false_iff.mpr fun goes => leaves ⟨goes, focused⟩
      · rw [onHandle, if_neg this]
        exact inv.visible other there focused

theorem unfocusOverlay (inv : world.Inv) (meets : world.Meets (.unfocusOverlay handle target)) :
    World.Inv ⟨world.tui.unfocusOverlay handle target, world.removed,
      noted world.tui (world.tui.unfocusOverlay handle target) world.first⟩ := by
  unfold Tui.unfocusOverlay
  cases found : world.tui.overlay? handle with
  | none => exact inv.stay
  | some overlay =>
    obtain ⟨inside, named⟩ := overlay?_some found
    dsimp only
    by_cases focused : world.tui.focusedComponent = some overlay.component.id
    · rw [if_pos focused]
      exact inv.setFocus (meets overlay inside named focused)
    · rw [if_neg focused]
      exact inv.stay

theorem focusOverlay (inv : world.Inv) (meets : world.Meets (.focusOverlay handle)) :
    World.Inv ⟨world.tui.focusOverlay handle, world.removed,
      noted world.tui (world.tui.focusOverlay handle) world.first⟩ := by
  unfold Tui.focusOverlay
  cases found : world.tui.overlay? handle with
  | none => exact inv.stay
  | some overlay =>
    obtain ⟨inside, named⟩ := overlay?_some found
    dsimp only
    by_cases silent : overlay.nonCapturing = true
    · rw [if_pos silent]
      exact inv.stay
    · rw [if_neg silent]
      have captures : overlay.nonCapturing = false := Bool.eq_false_iff.mpr silent
      obtain ⟨shown, repeats⟩ := meets overlay inside named captures
      have marks : Marks (onHandle handle (aside world.tui.focusedComponent)) :=
        (marks_aside world.tui.focusedComponent).onHandle
      have put : world.tui.putOverlay
          { overlay with restoreFocus := world.tui.focusedComponent } =
          world.tui.marked (onHandle handle (aside world.tui.focusedComponent)) :=
        inv.sound.putOverlay (marks_aside world.tui.focusedComponent) found
      have there := has_of_overlay inside
      have own : ∀ other ∈ world.tui.overlays, other.id = handle → other = overlay :=
        fun other present this => inv.sound.overlay_unique inside present (this.trans named.symm)
      rw [put, marks.setFocus_marked inv.sound.told, Option.filter_some_pos there]
      refine inv.turned marks (Sublist.refl _)
        (forall_mem_nil _)
        (fun id arrived => ?_) (fun other present quiet => ?_) (fun other present id held => ?_)
        (fun other present arrived => ?_) (fun other present taking fresh arrived away => ?_)
        (fun other present taking earlier seen => ?_)
      · exact (marks.has_turned id).mpr (has_iff.mp (Option.some.inj arrived ▸ there))
      · have apart : other.id ≠ handle := fun this => silent (own other present this ▸ quiet)
        rw [onHandle, if_neg apart]
        exact inv.sound.quiet other present quiet
      · by_cases this : other.id = handle
        · rw [onHandle, if_pos this] at held
          exact inv.sound.focused_below held
        · rw [onHandle, if_neg this] at held
          exact inv.sound.kept other present id held
      · have this := inv.sound.overlay_of_component inside present (Option.some.inj arrived).symm
        rw [this, onHandle, if_pos named]
        exact shown
      · have this := inv.sound.overlay_of_component inside present (Option.some.inj arrived).symm
        rw [this, onHandle, if_pos named]
        exact inv.sound.told.found
      · by_cases this : other.id = handle
        · have same := own other present this
          subst same
          have again := repeats earlier (this ▸ seen)
          rw [onHandle, if_pos this]
          refine ⟨inv.sound.told.found.trans again.symm, fun self => ?_⟩
          have focused : world.tui.focusedComponent = some other.component.id := self
          have back := (inv.holds other present taking earlier seen).1
          rw [again, focused] at back
          exact inv.elsewhere present focused (Option.filter_eq_some_iff.mp back).1
        · rw [onHandle, if_neg this]
          exact inv.holds other present taking earlier seen

theorem turned_eq {tui : Tui}
    (told : Told { tui with children := kids, focusedComponent := focus }) :
    tui.turned kids (fun overlay => overlay) focus =
      { tui with children := kids, focusedComponent := focus } := by
  unfold Tui.turned
  rw [map_id']
  exact told.refocus_self

theorem fewer (inv : world.Inv) {back : List Component} (fewer : kids.Sublist world.tui.children)
    (given : ∀ component ∈ back, component.told = false)
    (told : Told { world.tui with children := kids, focusedComponent := focus })
    (same : ∀ id, focus = some id → world.tui.focusedComponent = some id) :
    World.Inv ⟨{ world.tui with children := kids, focusedComponent := focus },
      back ++ world.removed,
      noted world.tui { world.tui with children := kids, focusedComponent := focus }
        world.first⟩ := by
  have equal := turned_eq told
  rw [← equal]
  refine inv.turned Marks.refl fewer given (fun id arrived => ?_) inv.sound.quiet inv.sound.kept
    (fun overlay inside arrived => inv.visible overlay inside (same _ arrived))
    (fun overlay _ _ _ arrived away => absurd (same _ arrived) away) inv.holds
  rw [equal]
  exact told.there id arrived

theorem clearChildren (inv : world.Inv) (meets : world.Meets .clearChildren) :
    World.Inv ⟨world.tui.clearChildren, world.removed,
      noted world.tui world.tui.clearChildren world.first⟩ := by
  refine inv.fewer (nil_sublist _)
    (forall_mem_nil _)
    ⟨fun component inside => ?_, fun id arrived => absurd arrived.symm (Option.some_ne_none id)⟩
    (fun id arrived => absurd arrived.symm (Option.some_ne_none id))
  obtain ⟨overlay, present, rfl⟩ := mem_map.mp inside
  have own := inv.sound.told.told overlay.component (mem_append_right _ (mem_map_of_mem present))
  rw [← own]
  simp [retell, meets overlay present]

theorem removeChild (inv : world.Inv) {id : Nat} (meets : world.Meets (.removeChild id)) :
    World.Inv ⟨(world.tui.removeChild id).2, (world.tui.removeChild id).1.toList ++ world.removed,
      noted world.tui (world.tui.removeChild id).2 world.first⟩ := by
  unfold Tui.removeChild
  cases found : world.tui.children.find? (·.id = id) with
  | none => exact inv.stay
  | some child =>
    have inside := mem_of_find?_eq_some found
    have named : child.id = id := by simpa using find?_some found
    have away : world.tui.focusedComponent ≠ some id := fun focused =>
      meets focused child inside named
    dsimp only
    rw [if_neg away]
    refine inv.fewer eraseP_sublist (fun component given => ?_)
      ⟨fun component there => ?_, fun other focused => ?_⟩ (fun _ focused => focused)
    · rw [mem_singleton.mp given]
      have own := inv.sound.told.told child (mem_append_left _ inside)
      rw [← own]
      simp [retell, named, away]
    · exact inv.sound.told.told component ((eraseP_sublist.append_right _).subset there)
    · have apart : other ≠ id := fun this => away (this ▸ focused)
      obtain ⟨component, there, this⟩ := has_iff.mp (inv.sound.told.there other focused)
      refine has_iff.mpr ⟨component, ?_, this⟩
      obtain kid | overlay := mem_append.mp there
      · exact mem_append_left _ ((mem_eraseP_of_neg (by simp [this, apart])).mpr kid)
      · exact mem_append_right _ overlay

end World.Inv

section added

variable {world : World} {after : Tui} {fresh : List OverlayEntry}

/-- A component that was told nothing comes in, as a child or in an overlay that is `fresh`. -/
structure Added (tui after : Tui) (fresh : List OverlayEntry) : Prop where
  components : after.components.Perm (⟨tui.nextComponentId, false⟩ :: tui.components)
  focus : after.focusedComponent = tui.focusedComponent
  next : after.nextComponentId = tui.nextComponentId + 1
  overlays : after.overlays = tui.overlays ++ fresh
  new : ∀ overlay ∈ fresh, overlay.id = tui.nextOverlayId ∧
    overlay.component.id = tui.nextComponentId ∧ overlay.restoreFocus = none ∧
      overlay.hidden = false
  single : (fresh.map OverlayEntry.id).Nodup
  room : ∀ overlay ∈ fresh, overlay.id < after.nextOverlayId
  more : tui.nextOverlayId ≤ after.nextOverlayId

theorem Sound.focus_old {tui : Tui} (sound : Sound tui) :
    tui.focusedComponent ≠ some tui.nextComponentId := fun focused =>
  Nat.lt_irrefl _ (sound.focused_below focused)

theorem Added.has {tui : Tui} (added : Added tui after fresh) {id : Nat}
    (old : id < tui.nextComponentId) : after.has id = tui.has id := by
  have other : ¬ tui.nextComponentId = id := (Nat.ne_of_lt old).symm
  rw [Tui.has, added.components.any_eq, any_cons, decide_eq_false other, Bool.false_or]
  rfl

theorem Added.sound {tui : Tui} (added : Added tui after fresh) (sound : Sound tui) :
    Sound after := by
  have inside : ∀ component ∈ after.components,
      component = ⟨tui.nextComponentId, false⟩ ∨ component ∈ tui.components :=
    fun component there => mem_cons.mp (added.components.mem_iff.mp there)
  have overlay : ∀ overlay ∈ after.overlays, overlay ∈ tui.overlays ∨ overlay ∈ fresh :=
    fun overlay there => mem_append.mp (added.overlays ▸ there)
  refine ⟨⟨fun component there => ?_, fun id focused => ?_⟩, ?_, fun component there => ?_, ?_,
    fun one there => ?_, fun one there silent => ?_, fun one there id held => ?_⟩
  · rw [added.focus]
    obtain rfl | old := inside component there
    · simp [retell, sound.focus_old]
    · exact sound.told.told component old
  · rw [added.focus] at focused
    rw [added.has (sound.focused_below focused)]
    exact sound.told.there id focused
  · rw [(added.components.map Component.id).nodup_iff, map_cons, nodup_cons]
    refine ⟨fun there => ?_, sound.apart⟩
    obtain ⟨component, old, same⟩ := mem_map.mp there
    exact Nat.ne_of_lt (sound.below component old) same
  · rw [added.next]
    obtain rfl | old := inside component there
    · exact Nat.lt_succ_self _
    · exact Nat.lt_succ_of_lt (sound.below component old)
  · rw [added.overlays, map_append]
    refine Nodup.append sound.handles added.single fun id old new => ?_
    obtain ⟨one, there, rfl⟩ := mem_map.mp old
    obtain ⟨other, present, same⟩ := mem_map.mp new
    exact Nat.ne_of_lt (sound.under one there) (same.symm.trans (added.new other present).1)
  · obtain old | new := overlay one there
    · exact Nat.lt_of_lt_of_le (sound.under one old) added.more
    · exact added.room one new
  · obtain old | new := overlay one there
    · exact sound.quiet one old silent
    · exact (added.new one new).2.2.1
  · rw [added.next]
    obtain old | new := overlay one there
    · exact Nat.lt_succ_of_lt (sound.kept one old id held)
    · rw [(added.new one new).2.2.1] at held
      cases held

theorem Added.inv (added : Added world.tui after fresh) (inv : world.Inv) :
    World.Inv ⟨after, world.removed, noted world.tui after world.first⟩ := by
  have sound := added.sound inv.sound
  have old : ∀ handle earlier, noted world.tui after world.first handle = some earlier →
      ∀ id, earlier = some id → id < world.tui.nextComponentId := by
    intro handle earlier seen id named
    obtain before | same := noted_past seen
    · exact inv.past handle id (named ▸ before)
    · exact inv.sound.focused_below (same.symm.trans named)
  have overlay : ∀ overlay ∈ after.overlays, overlay ∈ world.tui.overlays ∨ overlay ∈ fresh :=
    fun overlay there => mem_append.mp (added.overlays ▸ there)
  have unfocused : ∀ overlay ∈ fresh, world.tui.focusedComponent ≠ some overlay.component.id := by
    intro overlay new focused
    rw [(added.new overlay new).2.1] at focused
    exact inv.sound.focus_old focused
  refine ⟨sound, fun one there focused => ?_, inv.back, fun one there captures earlier seen => ?_,
    fun one there captures focused => ?_, fun handle absent => noted_unknown absent,
    fun handle id seen => ?_⟩
  · rw [added.focus] at focused
    obtain present | new := overlay one there
    · exact inv.visible one present focused
    · exact (added.new one new).2.2.2
  · have before : world.first one.id = some earlier := by
      obtain before | ⟨_, focused, away, _⟩ := sound.noted_some there seen
      · exact before
      · exact absurd (added.focus.symm.trans focused) away
    obtain present | new := overlay one there
    · obtain ⟨same, other⟩ := inv.holds one present captures earlier before
      have one_agrees := filter_agree fun id held =>
        added.has (inv.sound.kept one present id held)
      have agrees := filter_agree fun id named => added.has (old one.id earlier seen id named)
      exact ⟨one_agrees.trans (same.trans agrees.symm), other⟩
    · have unknown := inv.unknown one.id fun other present same =>
        Nat.ne_of_lt (inv.sound.under other present) (same.trans (added.new one new).1)
      rw [unknown] at before
      cases before
  · change noted _ _ _ _ ≠ none
    rw [added.focus] at focused
    obtain present | new := overlay one there
    · have taken := inv.taken one present captures focused
      rw [sound.noted_eq there, inv.visible one present focused, if_neg Bool.false_ne_true,
        if_neg fun gained => taken gained.1]
      exact taken
    · exact absurd focused (unfocused one new)
  · rw [added.next]
    exact Nat.lt_succ_of_lt (old handle _ seen id rfl)

theorem added_addChild (tui : Tui) : Added tui (tui.addChild false) [] where
  components := by
    unfold Tui.components Tui.addChild
    rw [append_assoc]
    exact perm_middle
  focus := rfl
  next := rfl
  overlays := (append_nil _).symm
  new := forall_mem_nil _
  single := nodup_nil
  room := forall_mem_nil _
  more := Nat.le_refl _

theorem added_showOverlay (tui : Tui) (nonCapturing : Bool) :
    Added tui (tui.showOverlay false nonCapturing)
      [⟨tui.nextOverlayId, ⟨tui.nextComponentId, false⟩, nonCapturing, false, none⟩] where
  components := by
    unfold Tui.components Tui.showOverlay
    rw [map_append, ← append_assoc]
    exact perm_append_singleton _ _
  focus := rfl
  next := rfl
  overlays := rfl
  new := by
    intro overlay inside
    rw [mem_singleton.mp inside]
    exact ⟨rfl, rfl, rfl, rfl⟩
  single := nodup_singleton _
  room := by
    intro overlay inside
    rw [mem_singleton.mp inside]
    exact Nat.lt_succ_self _
  more := Nat.le_succ _

end added

namespace World

variable {world after : World}

theorem inv_start : World.start.Inv where
  sound := {
    told := ⟨forall_mem_nil _,
      fun id focused => absurd focused.symm (Option.some_ne_none id)⟩
    apart := nodup_nil
    below := forall_mem_nil _
    handles := nodup_nil
    under := forall_mem_nil _
    quiet := forall_mem_nil _
    kept := forall_mem_nil _ }
  visible := forall_mem_nil _
  back := forall_mem_nil _
  holds := forall_mem_nil _
  taken := forall_mem_nil _
  unknown := fun _ _ => rfl
  past := fun _ id seen => absurd seen.symm (Option.some_ne_none (some id))

theorem Inv.step {call : Call} (inv : world.Inv) (meets : world.Meets call)
    (taken : World.step call world = some after) : after.Inv := by
  obtain rfl := Option.some.inj taken
  cases call with
  | addChild told =>
    obtain rfl : told = false := meets
    exact (added_addChild world.tui).inv inv
  | removeChild id => exact inv.removeChild meets
  | clearChildren => exact inv.clearChildren meets
  | showOverlay told nonCapturing =>
    obtain rfl : told = false := meets
    exact (added_showOverlay world.tui nonCapturing).inv inv
  | setOverlayHidden handle hidden => exact inv.setOverlayHidden meets
  | focusOverlay handle => exact inv.focusOverlay meets
  | unfocusOverlay handle target => exact inv.unfocusOverlay meets
  | setFocus id => exact inv.setFocus meets

theorem countP_told {tui : Tui} (sound : Sound tui) : tui.components.countP Component.told ≤ 1 := by
  have same : tui.components.countP Component.told =
      (tui.components.map Component.id).countP fun id => tui.focusedComponent = some id := by
    rw [countP_map]
    refine countP_congr fun component inside => ?_
    have own := congrArg Component.told (sound.told.told component inside)
    rw [← own]
    rfl
  rw [same]
  cases tui.focusedComponent with
  | none => simp
  | some focused =>
    have only : ∀ id, decide (some focused = some id) = (id == focused) := by
      intro id
      by_cases this : id = focused
      · simp [this]
      · simp [this, Ne.symm this]
    rw [funext only]
    exact nodup_iff_count_le_one.mp sound.apart focused

theorem Inv.focused (inv : world.Inv) : world.Focused := by
  have away : world.removed.countP Component.told = 0 :=
    countP_eq_zero.mpr fun component inside => by simp [inv.back component inside]
  refine ⟨?_, fun component inside told => ?_, fun id focused =>
    has_iff.mp (inv.sound.told.there id focused), inv.visible,
    fun overlay inside captures focused => ?_⟩
  · rw [countP_append, away]
    exact countP_told inv.sound
  · obtain here | removed := mem_append.mp inside
    · have own := congrArg Component.told (inv.sound.told.told component here)
      rw [told] at own
      exact of_decide_eq_true own
    · rw [inv.back component removed] at told
      cases told
  · obtain ⟨earlier, seen⟩ := Option.ne_none_iff_exists'.mp
      (inv.taken overlay inside captures focused)
    refine ⟨earlier, seen, ?_⟩
    have marks : Marks (onHandle overlay.id (Inv.hide true)) := (Inv.marks_hide true).onHandle
    have put : world.tui.putOverlay { overlay with hidden := true } =
        world.tui.marked (onHandle overlay.id (Inv.hide true)) :=
      inv.sound.putOverlay (Inv.marks_hide true) (inv.sound.overlay?_of_mem inside)
    unfold Tui.setOverlayHidden
    rw [inv.sound.overlay?_of_mem inside]
    dsimp only
    rw [if_pos ⟨rfl, focused⟩, put, marks.setFocus_marked inv.sound.told]
    exact (inv.holds overlay inside captures earlier seen).1

/-- The focus after every run whose calls meet the condition. -/
theorem run_focused {calls : List Call}
    (run : Transition.Run World.step (fun call world => world.Meets call) .start calls world) :
    world.Focused := by
  have inv : world.Inv := run.invariant (fun _ _ _ kept meets taken => kept.step meets taken)
    inv_start
  exact inv.focused

/-- A child has the focus, and an overlay takes it and is hidden. -/
theorem run_focused_overlay : ∃ world, Transition.Run World.step
    (fun call world => world.Meets call) .start
    [.addChild false, .setFocus (some 1), .showOverlay false false, .focusOverlay 1,
      .setOverlayHidden 1 true] world ∧ world.Focused ∧
    world.tui.focusedComponent = some 1 := by
  have run : Transition.Run World.step (fun call world => world.Meets call) .start
    [.addChild false, .setFocus (some 1), .showOverlay false false, .focusOverlay 1,
      .setOverlayHidden 1 true] _ := .of_guarded rfl
  exact ⟨_, run, run_focused run, rfl⟩

/-- An overlay that has the focus takes it again, and keeps it when it is hidden. -/
theorem refocused_overlay : ¬ ∀ calls world,
    Transition.Run World.step (fun _ _ => True) .start calls world → world.Focused := by
  intro all
  have reached : Transition.follow World.step [.showOverlay false false, .focusOverlay 1,
      .focusOverlay 1, .setOverlayHidden 1 true] .start = some _ := rfl
  have focused := all _ _ (Transition.Run.of_follow (fun _ _ _ => trivial) reached)
  have hidden := focused.visible ⟨1, ⟨1, true⟩, false, true, some 1⟩ (by decide) rfl
  cases hidden

end World

end PiRust.TuiFocus
