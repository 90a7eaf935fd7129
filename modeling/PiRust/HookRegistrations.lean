import PiRust.Conversation
import PiRust.Harness

/- Which handlers a prompt calls, against the registrations whose guards were alive when it
was created. -/
namespace PiRust.HookRegistrations

open Harness List

structure Registrations where
  registered : List (HookKind × Nat)
  dropped : List (HookKind × Nat)

def Registrations.alive (registrations : Registrations) (kind : HookKind) : List Nat :=
  (registrations.registered.filter fun entry =>
    entry.1 = kind ∧ entry ∉ registrations.dropped).map Prod.snd

/-- A harness with the registrations so far, those at the creation of each prompt, and all that
its steps let be seen. -/
structure Chronicle where
  world : Harness.World
  registrations : Registrations
  atCreation : List Registrations
  notes : List Note

variable (serde : Serde) (setup : Setup)

def Chronicle.start (state : AgentState) : Chronicle where
  world := .start setup state
  registrations := ⟨[], []⟩
  atCreation := []
  notes := []

def step (label : Harness.Label) (chronicle : Chronicle) : Option Chronicle :=
  (Harness.step serde setup label chronicle.world).bind fun taken =>
    let after := { chronicle with world := taken.1, notes := chronicle.notes ++ taken.2 }
    let registrations := chronicle.registrations
    match label with
    | .on kind =>
      let entry := (kind, chronicle.world.registry.nextId + 1)
      some { after with registrations :=
        { registrations with registered := registrations.registered ++ [entry] } }
    | .dropGuard kind id =>
      -- a guard is what a registration returned
      if (kind, id) ∈ registrations.registered then
        some { after with registrations :=
          { registrations with dropped := registrations.dropped ++ [(kind, id)] } }
      else none
    | .prompt _ => some { after with atCreation := chronicle.atCreation ++ [registrations] }
    | _ => some after

def expected (alive : HookKind → List Nat) : Occasion → List Handler
  | .beforeAgentStart => handlersOf setup.hooks alive .beforeAgentStart
  | .context => handlersOf setup.hooks alive .context
  | .providerRequest => requestHandlers setup alive
  | .stream kind prior =>
    (if prior then [.prior] else []) ++ handlersOf setup.hooks alive kind

/-- Every prompt calls the configured hooks and the handlers whose guards were alive when it was
created, and none whose guard was dropped before that. -/
def HandlersRight (chronicle : Chronicle) : Prop :=
  ∀ i occasion handlers failed, .invoked i occasion handlers failed ∈ chronicle.notes →
    ∃ created, chronicle.atCreation[i]? = some created ∧
      Called handlers failed (expected setup created.alive occasion) ∧
      ∀ kind id, .registered kind id ∈ handlers → (kind, id) ∉ created.dropped

def launching (label : Harness.Label) (world : Harness.World) : Option Prompt :=
  match label with
  | .launch i _ => world.prompts[i]?
  | _ => none

/-- A prompt that starts its run has a hook for provider requests to install, or no earlier
prompt has left one. -/
def Installs (label : Harness.Label) (chronicle : Chronicle) : Prop :=
  ∀ launched ∈ launching label chronicle.world,
    needsProviderHook setup launched.onSnapshot = true ∨ chronicle.world.providerHook = none

instance (label : Harness.Label) (chronicle : Chronicle) :
    Decidable (Installs setup label chronicle) :=
  inferInstanceAs (Decidable (∀ launched ∈ launching label chronicle.world,
    needsProviderHook setup launched.onSnapshot = true ∨ chronicle.world.providerHook = none))

section Calls

variable {setup}
variable {kind : HookKind} {id : Nat}
variable {hooks : AgentHarnessHooks} {entries : HookKind → List Nat} {prior : Bool}
  {onSnapshot : OnHandlerRegistry}

theorem mem_handlersOf {other : HookKind}
    (member : .registered other id ∈ handlersOf hooks entries kind) : id ∈ entries other := by
  unfold handlersOf at member
  rcases mem_append.mp member with configured | registered
  · split at configured
    · cases mem_singleton.mp configured
    · cases configured
  · obtain ⟨found, inside, same⟩ := mem_map.mp registered
    cases same
    exact inside

theorem mem_prior : Handler.registered kind id ∉ (if prior then [Handler.prior] else []) := by
  intro member
  cases prior with
  | true => cases mem_singleton.mp member
  | false => cases member

theorem alive_of_expected {alive : HookKind → List Nat} {occasion : Occasion}
    (member : .registered kind id ∈ expected setup alive occasion) : id ∈ alive kind := by
  cases occasion with
  | beforeAgentStart | context => exact mem_handlersOf member
  | providerRequest =>
    rcases mem_append.mp member with base | chain
    · split at base
      · cases mem_singleton.mp base
      · cases base
    · rcases mem_append.mp chain with auth | request
      · exact mem_handlersOf auth
      · exact mem_handlersOf request
  | stream other prior =>
    rcases mem_append.mp member with before | registered
    · exact absurd before mem_prior
    · exact mem_handlersOf registered

theorem not_dropped_of_alive {registrations : Registrations}
    (alive : id ∈ registrations.alive kind) : (kind, id) ∉ registrations.dropped := by
  obtain ⟨⟨other, found⟩, inside, rfl⟩ := mem_map.mp alive
  have kept := (mem_filter.mp inside).2
  simp only [decide_eq_true_eq] at kept
  obtain ⟨rfl, kept⟩ := kept
  exact kept

theorem handlersOf_nil (off : hooks.has kind = false) (none : entries kind = []) :
    handlersOf hooks entries kind = [] := by
  simp [handlersOf, off, none]

theorem expected_nil (none : needsProviderHook setup onSnapshot = false) :
    requestHandlers setup onSnapshot.entries = [] ∧
      makesStreamHooks setup.hooks onSnapshot = false := by
  simp only [needsProviderHook, Bool.or_eq_false_iff, Bool.not_eq_false', List.isEmpty_iff] at none
  obtain ⟨⟨⟨⟨⟨⟨⟨⟨base, request⟩, payload⟩, response⟩, auth⟩, requests⟩, payloads⟩, responses⟩,
    auths⟩ := none
  constructor
  · unfold requestHandlers
    rw [base, handlersOf_nil (show setup.hooks.has .getApiKeyAndHeaders = false from auth) auths,
      handlersOf_nil (show setup.hooks.has .beforeProviderRequest = false from request) requests]
    rfl
  · simp [makesStreamHooks, payload, response, payloads, responses]

theorem streamHandlers_eq
    (streams : kind = .beforeProviderPayload ∨ kind = .afterProviderResponse) :
    streamHandlers kind prior (some (.made setup onSnapshot)) =
      expected setup onSnapshot.entries (.stream kind prior) := by
  simp only [streamHandlers, expected]
  cases makes : makesStreamHooks setup.hooks onSnapshot with
  | true => rfl
  | false =>
    simp only [makesStreamHooks, Bool.or_eq_false_iff, Bool.not_eq_false',
      List.isEmpty_iff] at makes
    obtain ⟨⟨⟨payload, response⟩, payloads⟩, responses⟩ := makes
    have empty : handlersOf setup.hooks onSnapshot.entries kind = [] := by
      rcases streams with rfl | rfl
      · exact handlersOf_nil payload payloads
      · exact handlersOf_nil response responses
    rw [empty]
    rfl

end Calls

section Streams

/-- The streams that have passed the busy check and have not ended. -/
def Active (world : Harness.World) (i : Nat) : Prop :=
  world.stage? i = some .polled ∨ world.stage? i = some .running

def Hooked (onSnapshot : OnHandlerRegistry) (hook : Option ProviderHook) : Prop :=
  hook = some (.made setup onSnapshot) ∨ needsProviderHook setup onSnapshot = false ∧ hook = none

/-- At most one stream is active, and only in a turn; while it runs its own hook is there. -/
structure Sound (world : Harness.World) : Prop where
  exclusive : ∀ i, Active world i → world.phase = .turn ∧ ∀ j, Active world j → j = i
  hook : ∀ (i : Nat) (prompt : Prompt), world.prompts[i]? = some prompt → prompt.stage = .running →
    Hooked setup prompt.onSnapshot world.providerHook

variable {setup} {world after : Harness.World} {notes : List Note}
variable {i : Nat} {launched : Prompt}

theorem active_setStage {j : Nat} {stage : Stage} (active : Active (world.setStage i stage) j) :
    (i = j ∧ (stage = .polled ∨ stage = .running)) ∨ (i ≠ j ∧ Active world j) := by
  rcases active with polled | running
  · rcases stage?_setStage polled with ⟨here, same⟩ | ⟨other, there⟩
    · exact .inl ⟨here, .inl same.symm⟩
    · exact .inr ⟨other, .inl there⟩
  · rcases stage?_setStage running with ⟨here, same⟩ | ⟨other, there⟩
    · exact .inl ⟨here, .inr same.symm⟩
    · exact .inr ⟨other, .inr there⟩

section

variable (sound : Sound setup world)
include sound

theorem Sound.kept (kept : Kept world after) : Sound setup after := by
  have same : ∀ i, Active after i ↔ Active world i := by
    intro i
    simp [Active, World.stage?, kept.prompts]
  refine ⟨?_, ?_⟩
  · intro i active
    rw [kept.phase]
    obtain ⟨turn, only⟩ := sound.exclusive i ((same i).mp active)
    exact ⟨turn, fun j other => only j ((same j).mp other)⟩
  · intro i prompt found running
    rw [kept.prompts] at found
    rw [kept.hook]
    exact sound.hook i prompt found running

theorem Sound.over (i : Nat) : Sound setup (world.setStage i .over) := by
  refine ⟨?_, ?_⟩
  · intro j active
    rcases active_setStage active with ⟨_, polled | running⟩ | ⟨_, before⟩
    · cases polled
    · cases running
    · obtain ⟨turn, only⟩ := sound.exclusive j before
      refine ⟨turn, fun k other => ?_⟩
      rcases active_setStage other with ⟨_, polled | running⟩ | ⟨_, there⟩
      · cases polled
      · cases running
      · exact only k there
  · intro j prompt found running
    obtain ⟨before, old, snapshot, _, same⟩ := setStage_prompt found
    split at same
    · rw [same] at running
      cases running
    · rw [snapshot]
      exact sound.hook j before old (same ▸ running)

theorem Sound.settle (active : Active world i) (agent : PiRust.World) (hook : Option ProviderHook) :
    Sound setup (Harness.settle i { world with agent := agent, providerHook := hook }) := by
  have none_active : ∀ j, ¬ Active (world.setStage i .over) j := by
    intro j other
    rcases active_setStage other with ⟨_, polled | running⟩ | ⟨apart, before⟩
    · cases polled
    · cases running
    · exact apart ((sound.exclusive i active).2 j before).symm
  refine ⟨fun j other => absurd other (none_active j), ?_⟩
  intro j prompt found running
  exact absurd (.inr (stage?_eq_some.mpr ⟨prompt, found, running⟩)) (none_active j)

theorem Sound.poll : Sound setup (Harness.poll i world).1 := by
  unfold Harness.poll
  split
  · rename_i idle
    have none_active : ∀ j, ¬ Active world j := by
      intro j active
      have turn := (sound.exclusive j active).1
      rw [idle] at turn
      cases turn
    refine ⟨?_, ?_⟩
    · intro j active
      refine ⟨rfl, fun k other => ?_⟩
      rcases active_setStage active with ⟨rfl, _⟩ | ⟨_, before⟩
      · rcases active_setStage other with ⟨rfl, _⟩ | ⟨_, there⟩
        · rfl
        · exact absurd there (none_active k)
      · exact absurd before (none_active j)
    · intro j prompt found running
      obtain ⟨before, old, _, _, same⟩ := setStage_prompt found
      split at same
      · rw [same] at running
        cases running
      · exact absurd (.inr (stage?_eq_some.mpr ⟨before, old, same ▸ running⟩)) (none_active j)
  · exact sound.over i

theorem Sound.startRun (found : world.prompts[i]? = some launched)
    (polled : launched.stage = .polled)
    (installs : needsProviderHook setup launched.onSnapshot = true ∨ world.providerHook = none)
    (messages : List AgentMessage) :
    Sound setup (Harness.startRun setup i launched.onSnapshot messages world) := by
  have active : Active world i := .inl (stage?_eq_some.mpr ⟨launched, found, polled⟩)
  obtain ⟨turn, only⟩ := sound.exclusive i active
  unfold Harness.startRun
  dsimp only
  split
  · refine ⟨?_, ?_⟩
    · intro j other
      refine ⟨turn, fun k another => ?_⟩
      have first : i = j := by
        rcases active_setStage other with ⟨here, _⟩ | ⟨_, before⟩
        · exact here
        · exact (only j before).symm
      have second : i = k := by
        rcases active_setStage another with ⟨here, _⟩ | ⟨_, before⟩
        · exact here
        · exact (only k before).symm
      exact second.symm.trans first
    · intro j prompt there running
      obtain ⟨before, old, snapshot, _, same⟩ := setStage_prompt there
      have here : i = j := by
        by_contra apart
        rw [if_neg apart] at same
        have other : Active world j := .inr (stage?_eq_some.mpr ⟨before, old, same ▸ running⟩)
        exact apart (only j other).symm
      subst here
      rw [found] at old
      cases old
      rw [snapshot]
      cases needs : needsProviderHook setup launched.onSnapshot with
      | true => exact .inl rfl
      | false =>
        refine .inr ⟨needs, ?_⟩
        rcases installs with other | empty
        · rw [needs] at other
          cases other
        · exact empty
  · exact sound.settle active _ _

theorem Sound.launch (found : world.prompts[i]? = some launched)
    (polled : launched.stage = .polled)
    (installs : needsProviderHook setup launched.onSnapshot = true ∨ world.providerHook = none)
    (answer : Handler → HarnessContext → Except String (Option HarnessContext)) :
    Sound setup (Harness.launch setup i launched answer world).1 := by
  have active : Active world i := .inl (stage?_eq_some.mpr ⟨launched, found, polled⟩)
  unfold Harness.launch
  dsimp only
  split
  · exact sound.settle active world.agent world.providerHook
  · split
    · exact sound.settle active world.agent world.providerHook
    · exact sound.startRun found polled installs _

theorem Sound.prompt (text : String) : Sound setup (Harness.prompt text world) := by
  have old : ∀ (i : Nat) (found : Prompt), (Harness.prompt text world).prompts[i]? = some found →
      found.stage ≠ .created → world.prompts[i]? = some found := by
    intro i found there stage
    rcases getElem?_append_cases there with before | ⟨_, last⟩
    · exact before
    · rw [mem_singleton.mp (mem_of_getElem? last)] at stage
      exact absurd rfl stage
  have same : ∀ i, Active (Harness.prompt text world) i → Active world i := by
    intro i active
    rcases active with polled | running
    · obtain ⟨found, there, stage⟩ := stage?_eq_some.mp polled
      exact .inl (stage?_eq_some.mpr ⟨found, old i found there (by rw [stage]; nofun), stage⟩)
    · obtain ⟨found, there, stage⟩ := stage?_eq_some.mp running
      exact .inr (stage?_eq_some.mpr ⟨found, old i found there (by rw [stage]; nofun), stage⟩)
  refine ⟨?_, ?_⟩
  · intro i active
    obtain ⟨turn, only⟩ := sound.exclusive i (same i active)
    exact ⟨turn, fun j other => only j (same j other)⟩
  · intro i found there running
    exact sound.hook i found (old i found there (by rw [running]; nofun)) running

end

theorem Sound.effect {label : Harness.Label} (sound : Sound setup world)
    (effect : Effect setup world label after notes)
    (installs : ∀ i answer launched, label = .launch i answer →
      world.prompts[i]? = some launched →
      needsProviderHook setup launched.onSnapshot = true ∨ world.providerHook = none) :
    Sound setup after := by
  cases effect with
  | quiet kept => exact sound.kept kept
  | called i occasion handlers fails running kept => exact sound.kept kept
  | created text => exact sound.prompt text
  | polled i fresh => exact sound.poll
  | launched i launched found polled answer =>
    exact sound.launch found polled (installs i answer launched rfl found) answer
  | withdrawn i fresh => exact sound.over i
  | ended i agent stood => exact sound.settle stood agent world.providerHook

end Streams

section Registry

/-- The registry holds the handlers whose guards are alive. -/
structure Registered (registrations : Registrations) (registry : OnHandlerRegistry) : Prop where
  alive : registry.entries = registrations.alive
  issued : ∀ entry ∈ registrations.registered, entry.2 ≤ registry.nextId
  real : registrations.dropped ⊆ registrations.registered

variable {registrations : Registrations} {registry : OnHandlerRegistry}

theorem alive_register {kind : HookKind} {id : Nat} (fresh : (kind, id) ∉ registrations.dropped)
    (other : HookKind) :
    Registrations.alive { registrations with registered := registrations.registered ++ [(kind, id)] }
        other =
      if other = kind then registrations.alive kind ++ [id] else registrations.alive other := by
  unfold Registrations.alive
  rw [filter_append, map_append]
  by_cases same : other = kind
  · subst same
    simp [fresh]
  · have apart : ¬ kind = other := fun equal => same equal.symm
    simp [same, apart]

theorem alive_drop (kind : HookKind) (id : Nat) (other : HookKind) :
    Registrations.alive { registrations with dropped := registrations.dropped ++ [(kind, id)] }
        other =
      if other = kind then (registrations.alive kind).filter (· ≠ id)
      else registrations.alive other := by
  unfold Registrations.alive
  by_cases same : other = kind
  · subst same
    rw [if_pos rfl, filter_map, filter_filter]
    congr 1
    apply filter_congr
    rintro ⟨found, number⟩ _
    simp only [Function.comp, mem_append, mem_singleton, Prod.mk.injEq, not_or,
      ← Bool.decide_and, decide_eq_decide]
    constructor
    · rintro ⟨rfl, kept, apart⟩
      exact ⟨fun equal => apart ⟨rfl, equal⟩, rfl, kept⟩
    · rintro ⟨apart, rfl, kept⟩
      exact ⟨rfl, kept, fun equal => apart equal.2⟩
  · rw [if_neg same]
    congr 1
    apply filter_congr
    rintro ⟨found, number⟩ _
    simp only [mem_append, mem_singleton, Prod.mk.injEq, not_or, decide_eq_decide]
    constructor
    · rintro ⟨rfl, kept, _⟩
      exact ⟨rfl, kept⟩
    · rintro ⟨rfl, kept⟩
      exact ⟨rfl, kept, fun equal => same equal.1⟩

theorem Registered.register (held : Registered registrations registry) (kind : HookKind) :
    Registered
      { registrations with
        registered := registrations.registered ++ [(kind, registry.nextId + 1)] }
      (registry.register kind) where
  alive := by
    have fresh : (kind, registry.nextId + 1) ∉ registrations.dropped := by
      intro dropped
      have bound := held.issued _ (held.real dropped)
      simp only at bound
      omega
    funext other
    rw [alive_register fresh other]
    simp [OnHandlerRegistry.register, held.alive]
  issued := by
    intro entry member
    rcases mem_append.mp member with old | new
    · exact Nat.le_succ_of_le (held.issued entry old)
    · rw [mem_singleton.mp new]
      exact Nat.le_refl _
  real := fun _ dropped => mem_append_left _ (held.real dropped)

theorem Registered.unregister (held : Registered registrations registry) {kind : HookKind} {id : Nat}
    (issued : (kind, id) ∈ registrations.registered) :
    Registered { registrations with dropped := registrations.dropped ++ [(kind, id)] }
      (registry.unregister kind id) where
  alive := by
    funext other
    rw [alive_drop kind id other]
    simp [OnHandlerRegistry.unregister, held.alive]
  issued := held.issued
  real := by
    intro entry member
    rcases mem_append.mp member with old | new
    · exact held.real old
    · rw [mem_singleton.mp new]
      exact issued

end Registry

section Runs

variable {serde setup}

def Snapshots (world : Harness.World) (atCreation : List Registrations) : Prop :=
  world.prompts.length = atCreation.length ∧
    ∀ (i : Nat) (prompt : Prompt), world.prompts[i]? = some prompt →
      ∃ created, atCreation[i]? = some created ∧ prompt.onSnapshot.entries = created.alive

/-- What holds in every run with its registrations. -/
structure Inv (setup : Setup) (chronicle : Chronicle) : Prop where
  registered : Registered chronicle.registrations chronicle.world.registry
  snapshots : Snapshots chronicle.world chronicle.atCreation
  sound : Sound setup chronicle.world
  right : HandlersRight setup chronicle

variable {world after : Harness.World} {notes : List Note} {label : Harness.Label}
variable {chronicle : Chronicle} {atCreation : List Registrations}

theorem Snapshots.setStage (snapshots : Snapshots world atCreation) (i : Nat) (stage : Stage) :
    Snapshots (world.setStage i stage) atCreation := by
  refine ⟨?_, ?_⟩
  · rw [World.setStage, length_modify]
    exact snapshots.1
  · intro j prompt found
    obtain ⟨before, old, snapshot, _, _⟩ := setStage_prompt found
    rw [snapshot]
    exact snapshots.2 j before old

theorem Snapshots.startRun (snapshots : Snapshots world atCreation) (i : Nat)
    (onSnapshot : OnHandlerRegistry) (messages : List AgentMessage) :
    Snapshots (Harness.startRun setup i onSnapshot messages world) atCreation := by
  unfold Harness.startRun
  dsimp only
  split <;> exact snapshots.setStage i _

theorem Snapshots.effect (snapshots : Snapshots world atCreation)
    (effect : Effect setup world label after notes) (old : ∀ text, label ≠ .prompt text) :
    Snapshots after atCreation := by
  cases effect with
  | quiet kept | called _ _ _ _ _ kept =>
    unfold Snapshots
    rw [kept.prompts]
    exact snapshots
  | created text => exact absurd rfl (old text)
  | polled i fresh =>
    unfold Harness.poll
    split <;> exact snapshots.setStage i _
  | launched i launched found polled answer =>
    unfold Harness.launch
    dsimp only
    split
    · exact snapshots.setStage i _
    · split
      · exact snapshots.setStage i _
      · exact snapshots.startRun i _ _
  | withdrawn i fresh => exact snapshots.setStage i _
  | ended i agent stood => exact snapshots.setStage i _

theorem Snapshots.prompt {registrations : Registrations} (snapshots : Snapshots world atCreation)
    (registered : Registered registrations world.registry) (text : String) :
    Snapshots (Harness.prompt text world) (atCreation ++ [registrations]) := by
  refine ⟨?_, ?_⟩
  · rw [Harness.prompt, length_append, length_append, snapshots.1]
    rfl
  · intro i prompt found
    rcases getElem?_append_cases found with before | ⟨beyond, last⟩
    · obtain ⟨created, there, same⟩ := snapshots.2 i prompt before
      exact ⟨created, by rw [List.getElem?_append_left (List.getElem?_eq_some_iff.mp there).1, there],
        same⟩
    · rw [snapshots.1] at beyond last
      have single := List.getElem?_eq_some_iff.mp last
      obtain ⟨inside, rfl⟩ := single
      have first : i - atCreation.length = 0 := by
        simp only [length_singleton] at inside
        omega
      refine ⟨registrations, ?_, ?_⟩
      · rw [getElem?_append_right beyond, first]
        rfl
      · simp only [first, getElem_cons_zero]
        exact registered.alive

theorem called_right (snapshots : Snapshots world atCreation) {i : Nat} {prompt : Prompt}
    (found : world.prompts[i]? = some prompt) {occasion : Occasion} {handlers : List Handler}
    {fails : Bool}
    (called : Called handlers fails (expected setup prompt.onSnapshot.entries occasion)) :
    ∃ created, atCreation[i]? = some created ∧
      Called handlers fails (expected setup created.alive occasion) ∧
      ∀ kind id, .registered kind id ∈ handlers → (kind, id) ∉ created.dropped := by
  obtain ⟨created, there, same⟩ := snapshots.2 i prompt found
  rw [same] at called
  exact ⟨created, there, called, fun kind id member =>
    not_dropped_of_alive (alive_of_expected (called.subset member))⟩

theorem handlersAt_hooked {onSnapshot : OnHandlerRegistry} {hook : Option ProviderHook}
    (hooked : Hooked setup onSnapshot hook) {occasion : Occasion}
    (during : occasion = .providerRequest ∨
      ∃ prior, occasion = .stream .beforeProviderPayload prior ∨
        occasion = .stream .afterProviderResponse prior) :
    handlersAt hook occasion = expected setup onSnapshot.entries occasion := by
  have streams : ∀ kind prior, kind = .beforeProviderPayload ∨ kind = .afterProviderResponse →
      handlersAt hook (.stream kind prior) =
        expected setup onSnapshot.entries (.stream kind prior) := by
    intro kind prior payload
    rcases hooked with rfl | ⟨needless, rfl⟩
    · exact streamHandlers_eq payload
    · have same : handlersAt none (.stream kind prior) =
          streamHandlers kind prior (some (.made setup onSnapshot)) := by
        simp [handlersAt, streamHandlers, (expected_nil needless).2]
      exact same.trans (streamHandlers_eq payload)
  rcases during with rfl | ⟨prior, rfl | rfl⟩
  · rcases hooked with rfl | ⟨needless, rfl⟩
    · rfl
    · exact (expected_nil needless).1.symm
  · exact streams _ prior (.inl rfl)
  · exact streams _ prior (.inr rfl)

theorem Inv.noted (inv : Inv setup chronicle)
    (effect : Effect setup chronicle.world label after notes) :
    HandlersRight setup { chronicle with notes } := by
  intro i occasion handlers failed noted
  cases effect with
  | quiet | created | withdrawn | ended => cases noted
  | called j other found fails running kept during called =>
    cases mem_singleton.mp noted
    obtain ⟨prompt, there, stage⟩ := stage?_eq_some.mp running
    rw [handlersAt_hooked (inv.sound.hook i prompt there stage) during] at called
    exact called_right inv.snapshots there called
  | polled j fresh =>
    unfold Harness.poll at noted
    split at noted
    · cases mem_singleton.mp noted
    · cases noted
  | launched j launched found polled answer =>
    unfold Harness.launch at noted
    dsimp only at noted
    have first : ∀ input, Called
        (consult answer (handlersOf setup.hooks launched.onSnapshot.entries .beforeAgentStart)
          input).1
        (Harness.failed (consult answer
          (handlersOf setup.hooks launched.onSnapshot.entries .beforeAgentStart) input).2)
        (expected setup launched.onSnapshot.entries .beforeAgentStart) :=
      fun input => consult_called answer _ input
    have second : ∀ input, Called
        (consult answer (handlersOf setup.hooks launched.onSnapshot.entries .context) input).1
        (Harness.failed (consult answer
          (handlersOf setup.hooks launched.onSnapshot.entries .context) input).2)
        (expected setup launched.onSnapshot.entries .context) :=
      fun input => consult_called answer _ input
    split at noted
    · cases mem_singleton.mp noted
      exact called_right inv.snapshots found (first _)
    · split at noted
      · simp only [mem_cons, not_mem_nil, or_false] at noted
        rcases noted with same | same
        · cases same
          exact called_right inv.snapshots found (first _)
        · cases same
          exact called_right inv.snapshots found (second _)
      · simp only [mem_cons, not_mem_nil, or_false] at noted
        rcases noted with same | same | same
        · cases same
          exact called_right inv.snapshots found (first _)
        · cases same
          exact called_right inv.snapshots found (second _)
        · cases same

theorem begun (setup : Setup) (state : AgentState) : Inv setup (.start setup state) where
  registered := ⟨rfl, forall_mem_nil _, Subset.refl _⟩
  snapshots := ⟨rfl, nofun⟩
  sound := by
    refine ⟨?_, nofun⟩
    rintro i (polled | running)
    · cases polled
    · cases running
  right := fun _ _ _ _ absent => absurd absent not_mem_nil

theorem HandlersRight.append {later : Chronicle} {more : List Note}
    (right : HandlersRight setup chronicle)
    (noted : HandlersRight setup { chronicle with notes := more })
    (notes : later.notes = chronicle.notes ++ more)
    (created : chronicle.atCreation <+: later.atCreation) : HandlersRight setup later := by
  intro i occasion handlers failed member
  rw [notes] at member
  obtain ⟨found, there, called⟩ := (mem_append.mp member).elim
    (right i occasion handlers failed) (noted i occasion handlers failed)
  obtain ⟨rest, same⟩ := created
  refine ⟨found, ?_, called⟩
  rw [← same, List.getElem?_append_left (List.getElem?_eq_some_iff.mp there).1, there]

theorem step_inv {later : Chronicle} (inv : Inv setup chronicle)
    (installs : Installs setup label chronicle)
    (taken : step serde setup label chronicle = some later) : Inv setup later := by
  obtain ⟨⟨world, notes⟩, stepped, recorded⟩ := Option.bind_eq_some_iff.mp taken
  have effect := step_effect stepped
  have registry := step_registry stepped
  have sound : Sound setup world := inv.sound.effect effect fun i answer launched same found => by
    rw [same] at installs
    exact installs launched found
  have noted := inv.noted effect
  -- a step that neither registers, drops nor creates
  have plain (registrations : Registered chronicle.registrations world.registry)
      (old : ∀ text, label ≠ .prompt text)
      (same : later = { chronicle with world := world, notes := chronicle.notes ++ notes }) :
      Inv setup later := by
    rw [same]
    exact ⟨registrations, inv.snapshots.effect effect old, sound,
      inv.right.append noted rfl (prefix_refl _)⟩
  cases label with
  | on kind =>
    cases recorded
    refine ⟨?_, inv.snapshots.effect effect nofun, sound,
      inv.right.append noted rfl (prefix_refl _)⟩
    rw [registry]
    exact inv.registered.register kind
  | dropGuard kind id =>
    simp only at recorded
    split at recorded
    · rename_i issued
      cases recorded
      refine ⟨?_, inv.snapshots.effect effect nofun, sound,
        inv.right.append noted rfl (prefix_refl _)⟩
      rw [registry]
      exact inv.registered.unregister issued
    · cases recorded
  | prompt text =>
    cases recorded
    cases stepped
    exact ⟨inv.registered, inv.snapshots.prompt inv.registered text, sound,
      inv.right.append noted rfl (prefix_append _ _)⟩
  | subscribe =>
    have held : Registered chronicle.registrations world.registry := by
      rw [registry]
      exact ⟨inv.registered.alive,
        fun entry member => Nat.le_succ_of_le (inv.registered.issued entry member),
        inv.registered.real⟩
    exact plain held nofun (Option.some.inj recorded).symm
  | addMessage | steer | followUp | abort | poll | launch | snapshot | enter | runNode | payload
  | response | apply | finish | cancel =>
    have held : Registered chronicle.registrations world.registry := by
      rw [registry]
      exact inv.registered
    exact plain held nofun (Option.some.inj recorded).symm

/-- In every run in which each prompt that starts has a hook of its own to install, or finds
none of an earlier prompt, the prompts call exactly the handlers that they should. -/
theorem run_handlersRight {state : AgentState} {labels : List Harness.Label} {final : Chronicle}
    (run : Transition.Run (step serde setup) (Installs setup) (.start setup state) labels final) :
    HandlersRight setup final := by
  have inv : Inv setup final :=
    run.invariant (fun _ _ _ inv installs taken => step_inv inv installs taken) (begun setup state)
  exact inv.right

end Runs

/-- A prompt that reaches the provider and gets no answer. -/
def unanswered (i : Nat) : List Harness.Label :=
  [.poll i, .launch i fun _ _ => .ok none, .snapshot i, .enter i, .runNode i {} fun _ _ => .ok none,
    .enter i, .runNode i {} fun _ _ => .ok none, .enter i, .runNode i {} fun _ _ => .ok none,
    .enter i, .runNode i {} fun _ _ => .ok none, .enter i, .runNode i {} fun _ _ => .ok none,
    .enter i, .runNode i {} fun _ _ => .ok none, .apply i, .finish i]

def oneEach : List Harness.Label :=
  [.on .getApiKeyAndHeaders, .prompt "first"] ++ unanswered 0 ++
    [.dropGuard .getApiKeyAndHeaders 1, .on .beforeProviderRequest, .prompt "second"] ++
    unanswered 1

theorem run_handlersRight_oneEach : ∃ final,
    Transition.Run (step .silent {}) (Installs {}) (.start {} Conversation.newAgent.state) oneEach
        final ∧
      HandlersRight {} final := by
  have run : Transition.Run (step .silent {}) (Installs {})
      (.start {} Conversation.newAgent.state) oneEach _ := .of_guarded rfl
  exact ⟨_, run, run_handlersRight run⟩

/-- A handler for one prompt, and none for the next. -/
def oneForFirst : List Harness.Label :=
  [.on .getApiKeyAndHeaders, .prompt "first"] ++ unanswered 0 ++
    [.dropGuard .getApiKeyAndHeaders 1, .prompt "second"] ++ unanswered 1

/-- The second prompt calls the handler whose guard was dropped before. -/
theorem run_calls_dropped : ¬ ∀ labels final,
    Transition.follow (step .silent {}) labels (.start {} Conversation.newAgent.state) =
      some final → HandlersRight {} final := by
  intro always
  have right := always oneForFirst _ rfl
  have called := right 1 .providerRequest [.registered .getApiKeyAndHeaders 1] false
  obtain ⟨created, there, _, kept⟩ := called (mem_of_getElem? (i := 9) rfl)
  cases there
  exact kept .getApiKeyAndHeaders 1 (by decide) (by decide)

end PiRust.HookRegistrations
