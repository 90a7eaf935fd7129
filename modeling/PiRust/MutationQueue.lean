import PiRust.FileTree
import PiRust.Transition

/- `tools/file_mutation_queue.rs`: calls of `with_file_mutation_queue` as a transition
system. A step is one hold of the registry, one system call or one stretch between them. -/
namespace PiRust

open List FileTree

/-- What the calls see of the file system; the current directory belongs to the process. -/
structure FileSystem where
  tree : Tree
  currentDir : Except String (List Component)

namespace MutationQueue

/-- `PathBuf`s are equal when their components are. -/
abbrev Key := List Component

def componentText : Component → String
  | .parentDir => ".."
  | .normal name => name

def display (key : Key) : String :=
  if key.isEmpty then "/" else String.join (key.map fun component => "/" ++ componentText component)

def errorText : ErrorKind → String
  | .notFound => "No such file or directory (os error 2)"
  | .permissionDenied => "Permission denied (os error 13)"
  | .notADirectory => "Not a directory (os error 20)"
  | .filesystemLoop => "Too many levels of symbolic links (os error 40)"

def isMissingPathError (error : ErrorKind) : Bool := error = .notFound

def resolved (fs : FileSystem) (path : Path) : Except String Key :=
  if path.absolute then .ok path.components
  else match fs.currentDir with
    | .error e => .error ("file mutation queue: failed to resolve cwd: " ++ e)
    | .ok dir => .ok (dir ++ path.components)

def mutationQueueKey (fs : FileSystem) (path : Path) : Except String Key :=
  match resolved fs path with
  | .error message => .error message
  | .ok resolved =>
    match canonicalize fs.tree resolved with
    | .ok realPath => .ok realPath.spelled
    | .error error =>
      if isMissingPathError error then .ok resolved
      else .error ("file mutation queue: failed to resolve " ++ display resolved ++ ": " ++
        errorText error)

/-- Where a call stands. From `waiting` to `leaving` it owns a reference to its queue; the
guard of the queue is its own in `operating` only. -/
inductive Phase where
  | called
  | failed (message : String)
  | keyed (key : Key)
  | waiting (key : Key) (queue : Nat)
  | operating (key : Key) (queue : Nat)
  | operated (key : Key) (queue : Nat)
  | leaving (queue : Nat)
  | returned
  deriving DecidableEq, Repr

namespace Phase

def queued? : Phase → Option (Key × Nat)
  | waiting key queue | operating key queue | operated key queue => some (key, queue)
  | _ => none

def reference? : Phase → Option Nat
  | waiting _ queue | operating _ queue | operated _ queue | leaving queue => some queue
  | _ => none

def key? : Phase → Option Key
  | keyed key | waiting key _ | operating key _ | operated key _ => some key
  | _ => none

def guard? : Phase → Option Nat
  | operating _ queue => some queue
  | _ => none

end Phase

structure Call where
  path : Path
  phase : Phase := .called
  deriving DecidableEq, Repr

/-- The registry maps keys to queues; an `Arc` is told apart by a number. -/
structure World where
  fs : FileSystem
  queues : List (Key × Nat) := []
  nextQueue : Nat := 0
  calls : List Call := []

inductive Label where
  | call (path : Path)
  | mutationQueueKey (i : Nat)
  | queueForKey (i : Nat)
  | lock (i : Nat)
  | operate (i : Nat)
  | cleanupQueue (i : Nat)
  | leave (i : Nat)
  | cancel (i : Nat)
  | change (fs : FileSystem)

namespace World

variable (world : World)

def queue? (key : Key) : Option Nat :=
  (world.queues.find? fun entry => entry.1 = key).map Prod.snd

def setPhase (i : Nat) (phase : Phase) : World :=
  { world with calls := world.calls.modify i fun call => { call with phase := phase } }

def phase? (i : Nat) : Option Phase := (world.calls[i]?).map Call.phase

def strongCount (queue : Nat) : Nat :=
  world.queues.countP (fun entry => entry.2 = queue) +
    world.calls.countP fun call => call.phase.reference? = some queue

def locked (queue : Nat) : Bool := world.calls.any fun call => call.phase.guard? = some queue

def queueForKey (key : Key) : Nat × World :=
  match world.queue? key with
  | some queue => (queue, world)
  | none =>
    (world.nextQueue, { world with
      queues := (key, world.nextQueue) :: world.queues
      nextQueue := world.nextQueue + 1 })

def cleanupQueue (key : Key) (queue : Nat) : World :=
  if world.strongCount queue = 2 ∧ world.queue? key = some queue then
    { world with queues := world.queues.filter fun entry => entry.1 ≠ key }
  else world

end World

/-- A call may be dropped wherever it stands; `operate` is the end of its operation with
the guard, and `change` is whatever operations and others do to the file system. -/
def step : Label → World → Option World
  | .call path, world => some { world with calls := world.calls ++ [{ path := path }] }
  | .mutationQueueKey i, world =>
    match world.calls[i]? with
    | some ⟨path, .called⟩ =>
      match mutationQueueKey world.fs path with
      | .ok key => some (world.setPhase i (.keyed key))
      | .error message => some (world.setPhase i (.failed message))
    | _ => none
  | .queueForKey i, world =>
    match world.phase? i with
    | some (.keyed key) =>
      let found := world.queueForKey key
      some (found.2.setPhase i (.waiting key found.1))
    | _ => none
  | .lock i, world =>
    match world.phase? i with
    | some (.waiting key queue) =>
      if world.locked queue then none else some (world.setPhase i (.operating key queue))
    | _ => none
  | .operate i, world =>
    match world.phase? i with
    | some (.operating key queue) => some (world.setPhase i (.operated key queue))
    | _ => none
  | .cleanupQueue i, world =>
    match world.phase? i with
    | some (.operated key queue) =>
      some ((world.cleanupQueue key queue).setPhase i (.leaving queue))
    | _ => none
  | .leave i, world =>
    match world.phase? i with
    | some (.leaving _) => some (world.setPhase i .returned)
    | _ => none
  | .cancel i, world =>
    match world.phase? i with
    | some _ => some (world.setPhase i .returned)
    | _ => none
  | .change fs, world => some { world with fs := fs }

def leadsTo (fs : FileSystem) (path : Path) : Option Location :=
  match resolved fs path with
  | .ok resolved => (openTarget fs.tree resolved).toOption
  | .error _ => none

def SameFile (fs : FileSystem) (first second : Path) : Prop :=
  ∃ place other, leadsTo fs first = some place ∧ leadsTo fs second = some other ∧
    (place = other ∨
      ∃ inode, fs.tree place = some (.file inode) ∧ fs.tree other = some (.file inode))

def Exclusive (world : World) : Prop :=
  ∀ (i j : Nat) (first second : Call), world.calls[i]? = some first →
    world.calls[j]? = some second → i ≠ j → first.phase.guard?.isSome →
    second.phase.guard?.isSome → ¬ SameFile world.fs first.path second.path

def Plain (fs : FileSystem) (path : Path) : Prop :=
  ∀ components, resolved fs path = .ok components →
    canonicalize fs.tree components = .error .notFound →
    ∀ place, leadsTo fs path = some place → components = place.spelled

/-- The path keeps leading where it led; from nowhere it may come to lead to the place it
spells out. -/
def KeepsLeading (before after : FileSystem) (path : Path) : Prop :=
  resolved after path = resolved before path ∧
    match leadsTo before path with
    | some place => leadsTo after path = some place
    | none => ∀ place, leadsTo after path = some place → resolved after path = .ok place.spelled

/-- What the queues rely on: keys are computed for paths that are found or plain, files have
one name, and the file system stays as it is around the calls in progress. -/
def Settled : Label → World → Prop
  | .mutationQueueKey i, world => ∀ call : Call, world.calls[i]? = some call → Plain world.fs call.path
  | .change fs, world =>
    SingleNames fs.tree ∧
      ∀ call ∈ world.calls, call.phase.key?.isSome → KeepsLeading world.fs fs call.path
  | _, _ => True

/-- The key of a path is where the path leads. -/
structure Leads (fs : FileSystem) (path : Path) (key : Key) : Prop where
  place : ∀ place, leadsTo fs path = some place → key = place.spelled
  nowhere : leadsTo fs path = none → resolved fs path = .ok key

/-- Who works on a file holds the guard of its queue. -/
structure Inv (world : World) : Prop where
  queued : ∀ (i : Nat) (call : Call) key queue, world.calls[i]? = some call →
    call.phase.queued? = some (key, queue) → world.queue? key = some queue
  guarded : ∀ (i j : Nat) (first second : Call) queue, world.calls[i]? = some first →
    world.calls[j]? = some second → first.phase.guard? = some queue →
    second.phase.guard? = some queue → i = j
  leads : ∀ (i : Nat) (call : Call) key, world.calls[i]? = some call → call.phase.key? = some key →
    Leads world.fs call.path key
  names : SingleNames world.fs.tree

namespace Phase

variable {phase : Phase} {key : Key} {queue : Nat}

theorem key?_of_queued (queued : phase.queued? = some (key, queue)) : phase.key? = some key := by
  cases phase <;> cases queued <;> rfl

theorem reference?_of_queued (queued : phase.queued? = some (key, queue)) :
    phase.reference? = some queue := by
  cases phase <;> cases queued <;> rfl

theorem queued?_of_guard (guarded : phase.guard? = some queue) :
    ∃ key, phase.queued? = some (key, queue) := by
  cases phase <;> cases guarded
  exact ⟨_, rfl⟩

end Phase

theorem calls_setPhase {world : World} {i j : Nat} {phase : Phase} {call : Call}
    (found : (world.setPhase i phase).calls[j]? = some call) :
    ∃ old, world.calls[j]? = some old ∧ call.path = old.path ∧
      call.phase = if i = j then phase else old.phase := by
  simp only [World.setPhase, getElem?_modify] at found
  obtain ⟨old, there, same⟩ := Option.map_eq_some_iff.mp found
  refine ⟨old, there, ?_⟩
  split at same
  · rename_i here
    rw [← same, if_pos here]
    exact ⟨rfl, rfl⟩
  · rename_i elsewhere
    rw [← same, if_neg elsewhere]
    exact ⟨rfl, rfl⟩

namespace Inv

variable {world : World}

theorem exclusive (inv : Inv world) : Exclusive world := by
  intro i j first second here there apart running alongside same
  obtain ⟨queue, held⟩ := Option.isSome_iff_exists.mp running
  obtain ⟨other, heldToo⟩ := Option.isSome_iff_exists.mp alongside
  obtain ⟨key, queued⟩ := Phase.queued?_of_guard held
  obtain ⟨otherKey, otherQueued⟩ := Phase.queued?_of_guard heldToo
  obtain ⟨place, otherPlace, leading, otherLeading, one⟩ := same
  have samePlace : place = otherPlace := by
    rcases one with same | ⟨inode, named, namedToo⟩
    · exact same
    · exact inv.names _ _ inode named namedToo
  have spelled := (inv.leads i first key here (Phase.key?_of_queued queued)).place _ leading
  have otherSpelled :=
    (inv.leads j second otherKey there (Phase.key?_of_queued otherQueued)).place _ otherLeading
  have sameKey : key = otherKey := by rw [spelled, otherSpelled, samePlace]
  have registered := inv.queued i first key queue here queued
  have otherRegistered := inv.queued j second otherKey other there otherQueued
  rw [sameKey, otherRegistered] at registered
  rw [Option.some.inj registered] at heldToo
  exact apart (inv.guarded i j first second queue here there held heldToo)

theorem setPhase (inv : Inv world) {i : Nat} {phase : Phase}
    (queued : ∀ key queue, phase.queued? = some (key, queue) → world.queue? key = some queue)
    (guarded : ∀ queue, phase.guard? = some queue → ∀ (j : Nat) (call : Call), i ≠ j →
      world.calls[j]? = some call → call.phase.guard? ≠ some queue)
    (leads : ∀ key (call : Call), phase.key? = some key → world.calls[i]? = some call →
      Leads world.fs call.path key) :
    Inv (world.setPhase i phase) where
  queued := by
    intro j call key queue found holds
    obtain ⟨old, there, -, now⟩ := calls_setPhase found
    rw [now] at holds
    split at holds
    · exact queued key queue holds
    · exact inv.queued j old key queue there holds
  guarded := by
    intro j k first second queue found foundToo holds holdsToo
    obtain ⟨old, there, -, now⟩ := calls_setPhase found
    obtain ⟨other, thereToo, -, nowToo⟩ := calls_setPhase foundToo
    rw [now] at holds
    rw [nowToo] at holdsToo
    split at holds
    · rename_i here
      split at holdsToo
      · rename_i hereToo
        exact here.symm.trans hereToo
      · rename_i elsewhere
        exact absurd holdsToo (guarded queue holds k other elsewhere thereToo)
    · rename_i elsewhere
      split at holdsToo
      · exact absurd holds (guarded queue holdsToo j old elsewhere there)
      · exact inv.guarded j k old other queue there thereToo holds holdsToo
  leads := by
    intro j call key found keyed
    obtain ⟨old, there, samePath, now⟩ := calls_setPhase found
    rw [now] at keyed
    rw [samePath]
    split at keyed
    · rename_i here
      subst here
      exact leads key old keyed there
    · exact inv.leads j old key there keyed
  names := inv.names

theorem release (inv : Inv world) {i : Nat} {phase : Phase} (none_queued : phase.queued? = none)
    (no_key : phase.key? = none) (no_guard : phase.guard? = none) :
    Inv (world.setPhase i phase) := by
  apply inv.setPhase
  · intro key queue held
    rw [none_queued] at held
    cases held
  · intro queue held
    rw [no_guard] at held
    cases held
  · intro key call keyed
    rw [no_key] at keyed
    cases keyed

end Inv

theorem two_le_countP {α : Type} {p : α → Bool} {items : List α} {i j : Nat} {first second : α}
    (here : items[i]? = some first) (there : items[j]? = some second) (apart : i ≠ j)
    (passes : p first) (passesToo : p second) : 2 ≤ items.countP p := by
  induction items generalizing i j with
  | nil => cases here
  | cons head rest ih =>
    have later : ∀ {k : Nat} {item : α}, rest[k]? = some item → p item → 1 ≤ rest.countP p :=
      fun found good => countP_pos_iff.mpr ⟨_, mem_of_getElem? found, good⟩
    rw [countP_cons]
    cases i with
    | zero =>
      cases here
      rw [if_pos passes]
      cases j with
      | zero => exact absurd rfl apart
      | succ j =>
        have := later there passesToo
        omega
    | succ i =>
      cases j with
      | zero =>
        cases there
        rw [if_pos passesToo]
        have := later here passes
        omega
      | succ j =>
        have := ih here there fun same => apart (congrArg Nat.succ same)
        omega

namespace World

variable {world : World} {i : Nat} {phase : Phase} {key : Key} {queue : Nat}

theorem phase?_eq_some (found : world.phase? i = some phase) :
    ∃ call, world.calls[i]? = some call ∧ call.phase = phase :=
  Option.map_eq_some_iff.mp found

theorem queue?_mem (found : world.queue? key = some queue) : (key, queue) ∈ world.queues := by
  obtain ⟨entry, first, rfl⟩ := Option.map_eq_some_iff.mp found
  have same : entry.1 = key := by simpa using find?_some first
  rw [← same]
  exact mem_of_find?_eq_some first

theorem alone (found : world.queue? key = some queue) (counted : world.strongCount queue = 2)
    {call : Call} (here : world.calls[i]? = some call) (own : call.phase.reference? = some queue)
    {j : Nat} {other : Call} (there : world.calls[j]? = some other)
    (others : other.phase.reference? = some queue) : i = j := by
  by_contra apart
  have registered : 1 ≤ world.queues.countP fun entry => entry.2 = queue :=
    countP_pos_iff.mpr ⟨_, queue?_mem found, decide_eq_true rfl⟩
  have referred := two_le_countP here there apart
    (p := fun call : Call => call.phase.reference? = some queue)
    (decide_eq_true own) (decide_eq_true others)
  unfold strongCount at counted
  omega

theorem queue?_filter (world : World) (queues : List (Key × Nat)) {kept : Key} (apart : kept ≠ key) :
    ({ world with queues := queues.filter fun entry => entry.1 ≠ key } : World).queue? kept =
      ({ world with queues := queues } : World).queue? kept := by
  have same : ∀ entry : Key × Nat, (decide (entry.1 ≠ key) && decide (entry.1 = kept)) =
      decide (entry.1 = kept) := by
    intro entry
    by_cases here : entry.1 = kept
    · simp [here, apart]
    · simp [here]
  simp only [queue?, find?_filter, Bool.decide_and, Bool.decide_eq_true, same]

end World

namespace Inv

variable {world : World} {i : Nat} {call : Call} {key : Key} {queue : Nat}

theorem queueForKey (inv : Inv world) (key : Key) :
    Inv (world.queueForKey key).2 ∧
      (world.queueForKey key).2.queue? key = some (world.queueForKey key).1 := by
  unfold World.queueForKey
  split
  · rename_i queue found
    exact ⟨inv, found⟩
  · rename_i missing
    have here : ({ world with
        queues := (key, world.nextQueue) :: world.queues
        nextQueue := world.nextQueue + 1 } : World).queue? key = some world.nextQueue := by
      simp [World.queue?]
    refine ⟨⟨?_, inv.guarded, inv.leads, inv.names⟩, here⟩
    intro j other kept held found holds
    have registered := inv.queued j other kept held found holds
    have apart : key ≠ kept := by
      rintro rfl
      rw [missing] at registered
      cases registered
    simpa [World.queue?, apart] using registered

theorem cleanupQueue (inv : Inv world) (here : world.calls[i]? = some call)
    (stands : call.phase = .operated key queue) :
    Inv ((world.cleanupQueue key queue).setPhase i (.leaving queue)) := by
  have left : Inv (world.setPhase i (.leaving queue)) := inv.release rfl rfl rfl
  unfold World.cleanupQueue
  split
  · rename_i last
    obtain ⟨counted, registered⟩ := last
    refine ⟨?_, left.guarded, left.leads, left.names⟩
    intro j other kept held found holds
    have stays := left.queued j other kept held found holds
    have apart : kept ≠ key := by
      rintro rfl
      obtain ⟨old, there, -, now⟩ := calls_setPhase found
      rw [now] at holds
      split at holds
      · cases holds
      · rename_i elsewhere
        have same : some queue = some held := registered.symm.trans stays
        rw [← Option.some.inj same] at holds
        have own : call.phase.reference? = some queue := by rw [stands]; rfl
        exact elsewhere
          (World.alone registered counted here own there (Phase.reference?_of_queued holds))
    exact (World.queue?_filter (world.setPhase i (.leaving queue)) world.queues apart).trans stays
  · exact left

end Inv

variable {fs : FileSystem} {path : Path} {key : Key}

theorem leads_mutationQueueKey (plain : Plain fs path)
    (computed : mutationQueueKey fs path = .ok key) : Leads fs path key := by
  unfold mutationQueueKey at computed
  split at computed
  · cases computed
  · rename_i components absolute
    have leading : leadsTo fs path = (openTarget fs.tree components).toOption := by
      simp [leadsTo, absolute]
    split at computed
    · rename_i real found
      cases computed
      rw [openTarget_of_canonicalize found] at leading
      constructor
      · intro place leads
        rw [leading] at leads
        rw [Option.some.inj leads]
      · intro nowhere
        rw [leading] at nowhere
        cases nowhere
    · rename_i error failed
      split at computed
      · rename_i missing
        cases computed
        rw [of_decide_eq_true missing] at failed
        exact ⟨plain key absolute failed, fun _ => absolute⟩
      · cases computed

theorem Leads.keeps {before after : FileSystem} (leads : Leads before path key)
    (keeps : KeepsLeading before after path) : Leads after path key := by
  obtain ⟨same, leading⟩ := keeps
  cases led : leadsTo before path with
  | some place =>
    rw [led] at leading
    have stays : leadsTo after path = some place := leading
    constructor
    · intro other now
      rw [stays] at now
      rw [← Option.some.inj now]
      exact leads.place place led
    · intro nowhere
      rw [stays] at nowhere
      cases nowhere
  | none =>
    rw [led] at leading
    have own := leads.nowhere led
    constructor
    · intro place now
      have spelled := leading place now
      rw [same, own] at spelled
      exact Except.ok.inj spelled
    · intro _
      rw [same]
      exact own

theorem step_inv {label : Label} {before after : World} (inv : Inv before)
    (settled : Settled label before) (taken : step label before = some after) : Inv after := by
  cases label with
  | call path =>
    cases taken
    have old : ∀ {j : Nat} {call : Call},
        (before.calls ++ [{ path := path }])[j]? = some call →
        before.calls[j]? = some call ∨ call.phase = .called := by
      intro j call found
      rcases Nat.lt_or_ge j before.calls.length with inside | outside
      · rw [getElem?_append_left inside] at found
        exact .inl found
      · rw [getElem?_append_right outside] at found
        have member := mem_of_getElem? found
        rw [mem_singleton] at member
        rw [member]
        exact .inr rfl
    refine ⟨?_, ?_, ?_, inv.names⟩
    · intro j call key queue found holds
      rcases old found with there | begun
      · exact inv.queued j call key queue there holds
      · rw [begun] at holds
        cases holds
    · intro j k first second queue found foundToo holds holdsToo
      rcases old found with there | begun
      · rcases old foundToo with thereToo | begun
        · exact inv.guarded j k first second queue there thereToo holds holdsToo
        · rw [begun] at holdsToo
          cases holdsToo
      · rw [begun] at holds
        cases holds
    · intro j call key found keyed
      rcases old found with there | begun
      · exact inv.leads j call key there keyed
      · rw [begun] at keyed
        cases keyed
  | mutationQueueKey i =>
    simp only [step] at taken
    split at taken
    · rename_i path here
      split at taken
      · rename_i key computed
        cases taken
        apply inv.setPhase
        · intro other queue holds
          cases holds
        · intro queue holds
          cases holds
        · intro other call keyed found
          cases keyed
          rw [here] at found
          cases found
          exact leads_mutationQueueKey (settled _ here) computed
      · cases taken
        exact inv.release rfl rfl rfl
    · cases taken
  | queueForKey i =>
    simp only [step] at taken
    split at taken
    · rename_i key stands
      cases taken
      obtain ⟨call, here, phase⟩ := World.phase?_eq_some stands
      obtain ⟨kept, registered⟩ := inv.queueForKey key
      have calls : (before.queueForKey key).2.calls = before.calls := by
        unfold World.queueForKey
        split <;> rfl
      apply kept.setPhase
      · intro other queue holds
        cases holds
        exact registered
      · intro queue holds
        cases holds
      · intro other found keyed there
        cases keyed
        rw [calls, here] at there
        cases there
        have same : (before.queueForKey key).2.fs = before.fs := by
          unfold World.queueForKey
          split <;> rfl
        rw [same]
        exact inv.leads i call key here (by rw [phase]; rfl)
    · cases taken
  | lock i =>
    simp only [step] at taken
    split at taken
    · rename_i key queue stands
      split at taken
      · cases taken
      · rename_i free
        cases taken
        obtain ⟨call, here, phase⟩ := World.phase?_eq_some stands
        apply inv.setPhase
        · intro other held holds
          cases holds
          exact inv.queued i call key queue here (by rw [phase]; rfl)
        · intro held holds j other _ there guarded
          cases holds
          apply free
          exact any_eq_true.mpr ⟨other, mem_of_getElem? there, decide_eq_true guarded⟩
        · intro other found keyed there
          cases keyed
          rw [here] at there
          cases there
          exact inv.leads i call key here (by rw [phase]; rfl)
    · cases taken
  | operate i =>
    simp only [step] at taken
    split at taken
    · rename_i key queue stands
      cases taken
      obtain ⟨call, here, phase⟩ := World.phase?_eq_some stands
      apply inv.setPhase
      · intro other held holds
        cases holds
        exact inv.queued i call key queue here (by rw [phase]; rfl)
      · intro held holds
        cases holds
      · intro other found keyed there
        cases keyed
        rw [here] at there
        cases there
        exact inv.leads i call key here (by rw [phase]; rfl)
    · cases taken
  | cleanupQueue i =>
    simp only [step] at taken
    split at taken
    · rename_i key queue stands
      cases taken
      obtain ⟨call, here, phase⟩ := World.phase?_eq_some stands
      exact inv.cleanupQueue here phase
    · cases taken
  | leave i | cancel i =>
    simp only [step] at taken
    split at taken
    · cases taken
      exact inv.release rfl rfl rfl
    · cases taken
  | change fs =>
    cases taken
    obtain ⟨names, keeps⟩ := settled
    refine ⟨inv.queued, inv.guarded, ?_, names⟩
    intro j call key found keyed
    have member := mem_of_getElem? found
    have inside : call.phase.key?.isSome := by
      rw [keyed]
      rfl
    exact (inv.leads j call key found keyed).keeps (keeps call member inside)

theorem inv_initial (names : SingleNames fs.tree) : Inv { fs := fs } where
  queued := by
    intro i call key queue found
    cases found
  guarded := by
    intro i j first second queue found
    cases found
  leads := by
    intro i call key found
    cases found
  names := names

/-- In a settled file system the operations on one file take turns, whatever paths they are
called with and however the calls are interleaved. -/
theorem run_exclusive {fs : FileSystem} {labels : List Label} {final : World}
    (names : SingleNames fs.tree)
    (run : Transition.Run step Settled { fs := fs } labels final) : Exclusive final := by
  have held : Inv final :=
    run.invariant (fun _ _ _ inv settled taken => step_inv inv settled taken) (inv_initial names)
  exact held.exclusive

def workTree : Tree
  | [] | ["work"] | ["work", "sub"] => some (.directory true)
  | ["work", "old.txt"] => some (.file 7)
  | ["work", "link"] => some (.symlink ⟨true, [.normal "work"]⟩)
  | _ => none

def workFs : FileSystem := ⟨workTree, .ok [.normal "work"]⟩

theorem workTree_names : SingleNames workTree := by
  have only : ∀ place inode, workTree place = some (.file inode) → place = ["work", "old.txt"] := by
    intro place inode found
    unfold workTree at found
    split at found <;> cases found
    rfl
  intro first second inode here there
  rw [only first inode here, only second inode there]

theorem run_exclusive_links : ∃ labels final,
    Transition.Run step Settled { fs := workFs } labels final ∧
      final.calls.map Call.phase =
        [.operating [.normal "work", .normal "old.txt"] 0,
          .waiting [.normal "work", .normal "old.txt"] 0] ∧
      Exclusive final := by
  let linked : Path := ⟨true, [.normal "work", .normal "link", .normal "old.txt"]⟩
  let dotted : Path := ⟨false, [.normal "sub", .parentDir, .normal "old.txt"]⟩
  have linkedPlain : Plain workFs linked := by
    intro components absolute missing
    cases absolute
    exact absurd missing (by decide)
  have dottedPlain : Plain workFs dotted := by
    intro components absolute missing
    cases absolute
    exact absurd missing (by decide)
  have begun : Transition.Run step Settled { fs := workFs } [] { fs := workFs } := .done _
  have called := (begun.next (l := Label.call linked) trivial rfl).next
    (l := Label.call dotted) trivial rfl
  have keyed := called.next (l := Label.mutationQueueKey 0)
    (fun call here => Option.some.inj here ▸ linkedPlain) rfl
  have keyedToo := keyed.next (l := Label.mutationQueueKey 1)
    (fun call here => Option.some.inj here ▸ dottedPlain) rfl
  have queued := (keyedToo.next (l := Label.queueForKey 0) trivial rfl).next
    (l := Label.queueForKey 1) trivial rfl
  have run := queued.next (l := Label.lock 0) trivial rfl
  exact ⟨_, _, run, rfl, run_exclusive workTree_names run⟩

/-- Two spellings of a file that is not there yet get two queues. -/
theorem run_not_exclusive : ¬ ∀ labels final,
    Transition.follow step labels { fs := workFs } = some final → Exclusive final := by
  intro always
  have overlap := always
    [.call ⟨true, [.normal "work", .normal "sub", .parentDir, .normal "new.txt"]⟩,
      .call ⟨true, [.normal "work", .normal "new.txt"]⟩,
      .mutationQueueKey 0, .mutationQueueKey 1, .queueForKey 0, .queueForKey 1, .lock 0, .lock 1]
    _ rfl 0 1 _ _ rfl rfl (by decide) rfl rfl
  exact overlap ⟨["work", "new.txt"], ["work", "new.txt"], rfl, rfl, .inl rfl⟩

end MutationQueue

end PiRust
