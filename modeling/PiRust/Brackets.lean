import Mathlib.Data.List.Basic
import Mathlib.Data.List.Nodup

/- Logs whose events open and close items. -/
namespace Brackets

open List

variable {ε κ : Type} [DecidableEq κ]

structure Pairing (ε κ : Type) where
  opens : ε → Option κ
  closes : ε → Option κ

namespace Pairing

variable (pairing : Pairing ε κ)

/-- How many events close an item. -/
def endings (item : κ) (log : List ε) : Nat :=
  log.countP fun event => pairing.closes event = some item

/-- How many events open an item. -/
def openings (item : κ) (log : List ε) : Nat :=
  log.countP fun event => pairing.opens event = some item

/-- Nothing is ever closed more often than it was opened. -/
def Nested (log : List ε) : Prop :=
  ∀ front, front <+: log → ∀ item, pairing.endings item front ≤ pairing.openings item front

def Balanced (log : List ε) : Prop :=
  ∀ before event after item, log = before ++ event :: after →
    pairing.opens event = some item → pairing.endings item after = 1

/-- A log that uses issued items only and has closed the ones that it opened, except for
`current`. -/
structure Tracks (log : List ε) (current : List κ) (issued : κ → Prop) : Prop where
  known : ∀ event ∈ log, ∀ item,
    pairing.opens event = some item ∨ pairing.closes event = some item → issued item
  opened : ∀ item ∈ current, ∃ event ∈ log, pairing.opens event = some item
  closed : ∀ before event after item, log = before ++ event :: after →
    pairing.opens event = some item → pairing.endings item after = if item ∈ current then 0 else 1
  distinct : current.Nodup

variable {pairing} {log : List ε} {current : List κ} {issued later : κ → Prop} {event : ε}

theorem endings_append (item : κ) (log more : List ε) :
    pairing.endings item (log ++ more) = pairing.endings item log + pairing.endings item more :=
  countP_append

theorem endings_singleton (item : κ) (event : ε) :
    pairing.endings item [event] = if pairing.closes event = some item then 1 else 0 := by
  simp [endings]

theorem endings_silent (item : κ) (log : List ε) (closes : pairing.closes event = none) :
    pairing.endings item (log ++ [event]) = pairing.endings item log := by
  simp [endings_append, endings_singleton, closes]

theorem openings_append (item : κ) (log more : List ε) :
    pairing.openings item (log ++ more) = pairing.openings item log + pairing.openings item more :=
  countP_append

theorem endings_of_silent {log : List ε} (silent : ∀ event ∈ log, pairing.closes event = none)
    (item : κ) : pairing.endings item log = 0 := by
  unfold endings
  rw [countP_eq_zero]
  intro event member
  simp [silent event member]

theorem prefix_append_cases {front first second : List ε} (inside : front <+: first ++ second) :
    front <+: first ∨ ∃ more, front = first ++ more ∧ more <+: second := by
  rcases prefix_or_prefix_of_prefix inside (prefix_append first second) with short | long
  · exact .inl short
  · obtain ⟨more, rfl⟩ := long
    exact .inr ⟨more, rfl, (prefix_append_right_inj first).mp inside⟩

namespace Nested

theorem of_silent (silent : ∀ event ∈ log, pairing.closes event = none) : pairing.Nested log := by
  intro front inside item
  rw [endings_of_silent (fun event member => silent event (inside.subset member)) item]
  exact Nat.zero_le _

theorem append {second : List ε} (first : pairing.Nested log) (rest : pairing.Nested second) :
    pairing.Nested (log ++ second) := by
  intro front inside item
  rcases prefix_append_cases inside with short | ⟨more, rfl, within⟩
  · exact first front short item
  · have before := first log (prefix_refl log) item
    have after := rest more within item
    rw [endings_append, openings_append]
    omega

theorem flatMap {ι : Type} {logOf : ι → List ε} (each : ∀ source, pairing.Nested (logOf source))
    (sources : List ι) : pairing.Nested (sources.flatMap logOf) := by
  induction sources with
  | nil => exact of_silent (forall_mem_nil _)
  | cons source sources ih =>
    rw [flatMap_cons]
    exact (each source).append ih

theorem of_le {second : List ε} (silent : ∀ event ∈ log, pairing.closes event = none)
    (most : ∀ item, pairing.endings item second ≤ pairing.openings item log) :
    pairing.Nested (log ++ second) := by
  intro front inside item
  rcases prefix_append_cases inside with short | ⟨more, rfl, within⟩
  · exact of_silent silent front short item
  · have few : pairing.endings item more ≤ pairing.endings item second :=
      Sublist.countP_le within.sublist
    have enough := most item
    rw [endings_append, openings_append, endings_of_silent silent item]
    omega

theorem once (nested : pairing.Nested log) {before after : List ε} {item : κ}
    (split : log = before ++ event :: after) (single : pairing.openings item log = 1) :
    pairing.endings item after ≤ 1 := by
  have whole := nested log (prefix_refl log) item
  have part : pairing.endings item after ≤ pairing.endings item log := by
    rw [split, endings_append]
    exact Nat.le_add_left_of_le (Sublist.countP_le (sublist_cons_self event after))
  omega

end Nested

theorem split_concat {log before after : List ε} {last event : ε}
    (split : log ++ [last] = before ++ event :: after) :
    (after = [] ∧ event = last) ∨ ∃ rest, after = rest ++ [last] ∧ log = before ++ event :: rest := by
  rcases eq_nil_or_concat after with rfl | ⟨rest, final, rfl⟩
  · have same := append_inj_right' split rfl
    exact .inl ⟨rfl, (singleton_inj.mp same).symm⟩
  · rw [concat_eq_append, ← cons_append, ← append_assoc] at split
    have same := append_inj_right' split rfl
    have front := append_inj_left' split rfl
    rw [singleton_inj.mp same]
    exact .inr ⟨rest, concat_eq_append, front⟩

namespace Tracks

theorem nil : pairing.Tracks [] [] issued where
  known := forall_mem_nil _
  opened := forall_mem_nil _
  closed := by
    intro before event after item split
    cases before <;> cases split
  distinct := nodup_nil

section

variable (tracks : pairing.Tracks log current issued)
include tracks

theorem issued_of_mem {item : κ} (member : item ∈ current) : issued item := by
  obtain ⟨event, inside, opens⟩ := tracks.opened item member
  exact tracks.known event inside item (.inl opens)

theorem plain (opens : pairing.opens event = none) (closes : pairing.closes event = none) :
    pairing.Tracks (log ++ [event]) current issued where
  known := by
    intro other member item used
    rcases mem_append.mp member with old | new
    · exact tracks.known other old item used
    · rw [mem_singleton.mp new, opens, closes] at used
      rcases used with used | used <;> cases used
  opened := by
    intro item member
    obtain ⟨other, inside, opens⟩ := tracks.opened item member
    exact ⟨other, mem_append_left _ inside, opens⟩
  closed := by
    intro before other after item split own
    rcases split_concat split with ⟨_, rfl⟩ | ⟨rest, rfl, front⟩
    · rw [opens] at own
      cases own
    · rw [endings_silent item rest closes]
      exact tracks.closed before other rest item front own
  distinct := tracks.distinct

theorem start {item : κ} (fresh : ¬ issued item) (opens : pairing.opens event = some item)
    (closes : pairing.closes event = none) (more : ∀ other, issued other → later other)
    (now : later item) : pairing.Tracks (log ++ [event]) (item :: current) later where
  known := by
    intro other member used_item used
    rcases mem_append.mp member with old | new
    · exact more _ (tracks.known other old used_item used)
    · rw [mem_singleton.mp new, opens, closes] at used
      rcases used with used | used
      · cases used
        exact now
      · cases used
  opened := by
    intro other member
    rcases mem_cons.mp member with rfl | old
    · exact ⟨event, mem_append_right _ (mem_singleton_self event), opens⟩
    · obtain ⟨earlier, inside, opened⟩ := tracks.opened other old
      exact ⟨earlier, mem_append_left _ inside, opened⟩
  closed := by
    intro before other after other_item split own
    rcases split_concat split with ⟨rfl, rfl⟩ | ⟨rest, rfl, front⟩
    · rw [opens] at own
      cases own
      rw [if_pos (mem_cons_self ..)]
      rfl
    · have old : issued other_item :=
        tracks.known other (front ▸ mem_append_right _ (mem_cons_self ..)) other_item (.inl own)
      have different : other_item ≠ item := fun same => fresh (same ▸ old)
      rw [endings_silent other_item rest closes,
        tracks.closed before other rest other_item front own]
      simp [different]
  distinct := nodup_cons.mpr ⟨fun member => fresh (tracks.issued_of_mem member), tracks.distinct⟩

theorem finish {item : κ} (member : item ∈ current) (opens : pairing.opens event = none)
    (closes : pairing.closes event = some item) :
    pairing.Tracks (log ++ [event]) (current.erase item) issued where
  known := by
    intro other inside used_item used
    rcases mem_append.mp inside with old | new
    · exact tracks.known other old used_item used
    · rw [mem_singleton.mp new, opens, closes] at used
      rcases used with used | used
      · cases used
      · cases used
        exact tracks.issued_of_mem member
  opened := by
    intro other inside
    obtain ⟨earlier, old, opened⟩ := tracks.opened other (mem_of_mem_erase inside)
    exact ⟨earlier, mem_append_left _ old, opened⟩
  closed := by
    intro before other after other_item split own
    rcases split_concat split with ⟨_, rfl⟩ | ⟨rest, rfl, front⟩
    · rw [opens] at own
      cases own
    · rw [endings_append, endings_singleton, closes, tracks.closed before other rest other_item front own]
      by_cases same : other_item = item
      · subst same
        rw [if_pos member, if_pos rfl, if_neg tracks.distinct.not_mem_erase]
      · have kept : other_item ∈ current.erase item ↔ other_item ∈ current := mem_erase_of_ne same
        rw [if_neg (fun closed => same (Option.some.inj closed).symm), Nat.add_zero]
        simp [kept]
  distinct := tracks.distinct.erase item

end

theorem finishAll {events : List ε} {items : List κ} (tracks : pairing.Tracks log current issued)
    (order : items.Perm current)
    (closing : Forall₂ (fun event item => pairing.opens event = none ∧
      pairing.closes event = some item) events items) :
    pairing.Tracks (log ++ events) [] issued := by
  induction closing generalizing log current with
  | nil =>
    rw [append_nil, ← nil_perm.mp order]
    exact nil_perm.mp order ▸ tracks
  | @cons event item events items closes _ ih =>
    have member : item ∈ current := order.subset (mem_cons_self ..)
    have rest : items.Perm (current.erase item) := by
      have erased := order.erase item
      rwa [erase_cons_head] at erased
    rw [append_cons]
    exact ih (tracks.finish member closes.1 closes.2) rest

theorem plains {events : List ε} (tracks : pairing.Tracks log current issued)
    (silent : ∀ event ∈ events, pairing.opens event = none ∧ pairing.closes event = none) :
    pairing.Tracks (log ++ events) current issued := by
  induction events generalizing log with
  | nil => rwa [append_nil]
  | cons event events ih =>
    have first := silent event (mem_cons_self ..)
    rw [append_cons]
    exact ih (tracks.plain first.1 first.2)
      (fun other inside => silent other (mem_cons_of_mem event inside))

theorem balanced_iff (tracks : pairing.Tracks log current issued) :
    pairing.Balanced log ↔ current = [] := by
  constructor
  · intro balanced
    refine eq_nil_iff_forall_not_mem.mpr fun item member => ?_
    obtain ⟨event, inside, opens⟩ := tracks.opened item member
    obtain ⟨before, after, split⟩ := append_of_mem inside
    have once := balanced before event after item split opens
    rw [tracks.closed before event after item split opens, if_pos member] at once
    cases once
  · rintro rfl before event after item split opens
    rw [tracks.closed before event after item split opens, if_neg not_mem_nil]

end Tracks

/-- A piece of a log that closes whatever it opens, and uses `used` items only. -/
structure Settled (pairing : Pairing ε κ) (log : List ε) (used : κ → Prop) : Prop where
  balanced : pairing.Balanced log
  known : ∀ event ∈ log, ∀ item,
    pairing.opens event = some item ∨ pairing.closes event = some item → used item

namespace Settled

variable {more : List ε} {used : κ → Prop}

theorem endings_eq_zero (settled : pairing.Settled log used) {item : κ} (unused : ¬ used item) :
    pairing.endings item log = 0 := by
  unfold endings
  rw [countP_eq_zero]
  intro event member closes
  exact unused (settled.known event member item (.inr (of_decide_eq_true closes)))

theorem mono (settled : pairing.Settled log used) (wider : ∀ item, used item → later item) :
    pairing.Settled log later where
  balanced := settled.balanced
  known := fun event member item uses => wider item (settled.known event member item uses)

theorem nil : pairing.Settled [] used where
  balanced := by
    intro before event after item split
    cases before <;> cases split
  known := forall_mem_nil _

theorem single (opens : pairing.opens event = none)
    (closes : ∀ item, pairing.closes event = some item → used item) :
    pairing.Settled [event] used where
  balanced := by
    intro before other after item split own
    have whole : [] ++ [event] = before ++ other :: after := split
    obtain ⟨rfl, _⟩ | ⟨rest, _, front⟩ := split_concat whole
    · rcases before with _ | ⟨first, before⟩
      · cases split
        rw [opens] at own
        cases own
      · cases before <;> cases split
    · cases before <;> cases front
  known := by
    intro other member item uses
    rw [mem_singleton.mp member, opens] at uses
    rcases uses with none_opened | closed
    · cases none_opened
    · exact closes item closed

theorem append (first : pairing.Settled log used) (second : pairing.Settled more later)
    (apart : ∀ item, used item → ¬ later item) :
    pairing.Settled (log ++ more) (fun item => used item ∨ later item) where
  balanced := by
    intro before event after item split opens
    rcases append_eq_append_iff.mp split with ⟨between, rfl, right⟩ | ⟨between, left, right⟩
    · exact second.balanced between event after item right opens
    · rcases between with _ | ⟨head, between⟩
      · exact second.balanced [] event after item right.symm opens
      · obtain ⟨rfl, rfl⟩ := cons.inj right
        have here : used item := first.known event
          (left ▸ mem_append_right before (mem_cons_self ..)) item (.inl opens)
        calc pairing.endings item (between ++ more)
            = pairing.endings item between + pairing.endings item more :=
              endings_append item between more
          _ = 1 := by
              rw [first.balanced before event between item left opens,
                second.endings_eq_zero (apart item here)]
  known := by
    intro event member item uses
    rcases mem_append.mp member with old | new
    · exact .inl (first.known event old item uses)
    · exact .inr (second.known event new item uses)

theorem cons (settled : pairing.Settled log used) (opens : pairing.opens event = none)
    (closes : pairing.closes event = none) : pairing.Settled (event :: log) used := by
  have first : pairing.Settled [event] (fun _ => False) :=
    single opens fun _ closed => Option.some_ne_none _ (closed.symm.trans closes)
  exact (first.append settled fun _ absurd => absurd.elim).mono fun _ uses =>
    uses.elim False.elim id

theorem concat (settled : pairing.Settled log used) (opens : pairing.opens event = none)
    (closes : ∀ item, pairing.closes event = some item → ¬ used item ∧ later item)
    (wider : ∀ item, used item → later item) : pairing.Settled (log ++ [event]) later := by
  have last : pairing.Settled [event] (fun item => pairing.closes event = some item) :=
    single opens fun _ closed => closed
  exact (settled.append last fun item uses closed => (closes item closed).1 uses).mono
    fun item uses => uses.elim (wider item) fun closed => (closes item closed).2

theorem bracket {opening closing : ε} {item : κ} (settled : pairing.Settled log used)
    (unused : ¬ used item) (opens : pairing.opens opening = some item)
    (starts : pairing.closes opening = none) (ends : pairing.opens closing = none)
    (closes : pairing.closes closing = some item) :
    pairing.Settled (opening :: (log ++ [closing])) (fun other => other = item ∨ used other) where
  balanced := by
    have closer : pairing.Settled [closing] (· = item) :=
      single ends fun other same => (Option.some.inj (closes.symm.trans same)).symm
    have tail := settled.append closer fun other uses same => unused (same ▸ uses)
    intro before event after other split own
    rcases before with _ | ⟨head, before⟩
    · cases split
      rw [opens] at own
      cases own
      rw [endings_append, settled.endings_eq_zero unused, endings_singleton, if_pos closes]
    · exact tail.balanced before event after other (cons.inj split).2 own
  known := by
    intro event member other uses
    rcases mem_cons.mp member with rfl | inside
    · rw [opens, starts] at uses
      rcases uses with same | closed
      · exact .inl (Option.some.inj same).symm
      · cases closed
    · rcases mem_append.mp inside with old | new
      · exact .inr (settled.known event old other uses)
      · rw [mem_singleton.mp new, ends, closes] at uses
        rcases uses with opened | same
        · cases opened
        · exact .inl (Option.some.inj same).symm

end Settled

end Pairing

end Brackets
