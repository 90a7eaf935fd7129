import Mathlib.Data.List.Induction
import Mathlib.Data.List.Nodup
import Mathlib.Data.Nat.Find
import Mathlib.Tactic.MkIffOfInductiveProp

/- Lists of messages in which some messages make calls and others answer one. -/
namespace Dialogue

open List

variable {μ ι : Type} (calls : μ → List ι) (answers : μ → Option ι)

/-- The calls answered by the answers that stand at the head of a list. -/
def replies : List μ → List ι
  | [] => []
  | message :: rest =>
    match answers message with
    | some id => id :: replies rest
    | none => []

/-- Every call is answered exactly once before the next message that is no answer. -/
def Answered [DecidableEq ι] : List μ → Prop
  | [] => True
  | message :: rest =>
    (∀ id ∈ calls message, (replies answers rest).count id = 1) ∧ Answered rest

instance decidableAnswered [DecidableEq ι] : (messages : List μ) → Decidable (Answered calls answers messages)
  | [] => isTrue trivial
  | message :: rest =>
    have := decidableAnswered rest
    inferInstanceAs (Decidable
      ((∀ id ∈ calls message, (replies answers rest).count id = 1) ∧ Answered calls answers rest))

/-- There is a message, and it makes a call. -/
def Makes (message? : Option μ) (id : ι) : Prop := ∃ call ∈ message?, id ∈ calls call

/-- Every answer has its call before it and every call an answer after it. -/
@[mk_iff] structure Paired (messages : List μ) : Prop where
  called : ∀ (reply : Nat) id, messages[reply]?.bind answers = some id →
    ∃ call < reply, Makes calls messages[call]? id
  replied : ∀ (call : Nat) id, Makes calls messages[call]? id →
    ∃ reply > call, messages[reply]?.bind answers = some id

/-- A list does not start with an answer. -/
def Opens (messages : List μ) : Prop :=
  ∀ message, messages.head? = some message → answers message = none

variable {calls answers}

@[simp] theorem opens_nil : Opens answers [] := by
  intro message absent
  cases absent

@[simp] theorem opens_cons (message : μ) (rest : List μ) :
    Opens answers (message :: rest) ↔ answers message = none := by
  simp [Opens]

variable {messages : List μ}

theorem replies_of_opens (opens : Opens answers messages) : replies answers messages = [] := by
  cases messages with
  | nil => rfl
  | cons message rest =>
    rw [opens_cons] at opens
    simp [replies, opens]

theorem replies_append (first second : List μ) (opens : Opens answers second) :
    replies answers (first ++ second) = replies answers first := by
  induction first with
  | nil => exact replies_of_opens opens
  | cons message rest ih =>
    rw [cons_append]
    simp only [replies]
    cases answers message with
    | some id => simp [ih]
    | none => rfl

theorem answered_append [DecidableEq ι] (first second : List μ) (opens : Opens answers second) :
    Answered calls answers (first ++ second) ↔
      Answered calls answers first ∧ Answered calls answers second := by
  induction first with
  | nil => simp [Answered]
  | cons message rest ih =>
    rw [cons_append]
    simp [Answered, ih, replies_append rest second opens, and_assoc]

theorem answered_silent [DecidableEq ι] (silent : ∀ message ∈ messages, calls message = []) :
    Answered calls answers messages := by
  induction messages with
  | nil => trivial
  | cons message rest ih =>
    refine ⟨?_, ih fun other inside => silent other (mem_cons_of_mem message inside)⟩
    intro id called
    rw [silent message mem_cons_self] at called
    cases called

theorem replies_eq {ids : List ι} (each : messages.map answers = ids.map some) :
    replies answers messages = ids := by
  induction messages generalizing ids with
  | nil =>
    cases ids with
    | nil => rfl
    | cons id ids => cases each
  | cons message rest ih =>
    cases ids with
    | nil => cases each
    | cons id ids =>
      simp only [map_cons, cons.injEq] at each
      simp [replies, each.1, ih each.2]

theorem answered_round [DecidableEq ι] {message : μ} {results : List μ} {ids : List ι}
    (distinct : (calls message).Nodup) (order : ids.Perm (calls message))
    (each : results.map answers = ids.map some)
    (silent : ∀ result ∈ results, calls result = []) :
    Answered calls answers (message :: results) := by
  refine ⟨?_, answered_silent silent⟩
  intro id called
  rw [replies_eq each, order.count_eq]
  exact count_eq_one_of_mem distinct called

theorem paired_cons {message : μ} {rest : List μ} (mute : calls message = [])
    (opens : answers message = none) :
    Paired calls answers (message :: rest) ↔ Paired calls answers rest := by
  have silent (id : ι) : ¬ Makes calls (some message) id := by simp [Makes, mute]
  refine ⟨fun paired => ⟨fun reply id answer => ?_, fun call id called => ?_⟩,
    fun paired => ⟨fun reply id answer => ?_, fun call id called => ?_⟩⟩
  · obtain ⟨_ | call, early, called⟩ := paired.called (reply + 1) id answer
    · exact absurd called (silent id)
    · exact ⟨call, Nat.lt_of_succ_lt_succ early, called⟩
  · obtain ⟨_ | reply, late, answer⟩ := paired.replied (call + 1) id called
    · cases late
    · exact ⟨reply, Nat.lt_of_succ_lt_succ late, answer⟩
  · cases reply with
    | zero => cases opens.symm.trans answer
    | succ reply =>
      obtain ⟨call, early, called⟩ := paired.called reply id answer
      exact ⟨call + 1, Nat.succ_lt_succ early, called⟩
  · cases call with
    | zero => exact absurd called (silent id)
    | succ call =>
      obtain ⟨reply, late, answer⟩ := paired.replied call id called
      exact ⟨reply + 1, Nat.succ_lt_succ late, answer⟩

theorem paired_map (change : μ → μ) (sameCalls : ∀ message, calls (change message) = calls message)
    (sameAnswers : ∀ message, answers (change message) = answers message) (messages : List μ) :
    Paired calls answers (messages.map change) ↔ Paired calls answers messages := by
  have made (message? : Option μ) (id : ι) :
      Makes calls (message?.map change) id ↔ Makes calls message? id := by
    cases message? <;> simp [Makes, sameCalls]
  have answered (message? : Option μ) :
      (message?.map change).bind answers = message?.bind answers := by
    cases message? <;> simp [sameAnswers]
  simp only [paired_iff, getElem?_map, made, answered]

variable (calls answers)

/-- A call and an answer to it, with no other call of the same name between them. -/
structure NearestCall (messages : List μ) (call reply : Nat) (id : ι) : Prop where
  order : call < reply
  called : Makes calls messages[call]? id
  replied : messages[reply]?.bind answers = some id
  nearest : ∀ between, call < between → between < reply → ¬ Makes calls messages[between]? id

/-- A call and an answer to it, with no other answer to it between them. -/
structure FirstReply (messages : List μ) (call reply : Nat) (id : ι) : Prop where
  order : call < reply
  called : Makes calls messages[call]? id
  replied : messages[reply]?.bind answers = some id
  first : ∀ between, call < between → between < reply →
    messages[between]?.bind answers ≠ some id

variable {calls answers}

theorem lt_of_makes {call : Nat} {id : ι} (called : Makes calls messages[call]? id) :
    call < messages.length := by
  obtain ⟨message, there, _⟩ := called
  exact (List.getElem?_eq_some_iff.mp there).1

theorem lt_of_answers {reply : Nat} {id : ι} (answer : messages[reply]?.bind answers = some id) :
    reply < messages.length := by
  obtain ⟨message, there, _⟩ := Option.bind_eq_some_iff.mp answer
  exact (List.getElem?_eq_some_iff.mp there).1

theorem Paired.nearestCall (paired : Paired calls answers messages) {reply : Nat} {id : ι}
    (answer : messages[reply]?.bind answers = some id) :
    ∃ call, NearestCall calls answers messages call reply id := by
  classical
  obtain ⟨some, early, called⟩ := paired.called reply id answer
  let makes (call : Nat) : Prop := Makes calls messages[call]? id
  have within : Nat.findGreatest makes (reply - 1) ≤ reply - 1 := Nat.findGreatest_le _
  have bound : some ≤ reply - 1 := by omega
  have found : makes (Nat.findGreatest makes (reply - 1)) := Nat.findGreatest_spec bound called
  exact ⟨_, by omega, found, answer,
    fun between later earlier => Nat.findGreatest_is_greatest later (by omega)⟩

theorem Paired.firstReply (paired : Paired calls answers messages) {call : Nat} {id : ι}
    (called : Makes calls messages[call]? id) :
    ∃ reply, FirstReply calls answers messages call reply id := by
  classical
  have some := paired.replied call id called
  exact ⟨Nat.find some, (Nat.find_spec some).1, called, (Nat.find_spec some).2,
    fun between later earlier answer => Nat.find_min some earlier ⟨later, answer⟩⟩

/-- A part of a list whose calls and answers belong together is such a list itself if no answer
in it has its nearest call before it, and no call in it its first answer behind it. -/
theorem paired_window_iff {before window after : List μ}
    (whole : messages = before ++ window ++ after) (paired : Paired calls answers messages) :
    Paired calls answers window ↔
      (∀ call reply id, NearestCall calls answers messages call reply id →
        before.length ≤ reply → reply < (before ++ window).length → before.length ≤ call) ∧
      ∀ call reply id, FirstReply calls answers messages call reply id →
        before.length ≤ call → call < (before ++ window).length →
          reply < (before ++ window).length := by
  have same (position : Nat) (inside : position < window.length) :
      messages[before.length + position]? = window[position]? := by
    rw [whole, append_assoc, getElem?_append_right (Nat.le_add_right _ _),
      Nat.add_sub_cancel_left, getElem?_append_left inside]
  rw [length_append]
  refine ⟨fun inner => ⟨?_, ?_⟩, fun ⟨called, replied⟩ => ⟨?_, ?_⟩⟩
  · intro call reply id near low high
    obtain ⟨place, rfl⟩ := Nat.exists_eq_add_of_le low
    obtain ⟨kept, early, made⟩ := inner.called place id (same place (by omega) ▸ near.replied)
    by_contra out
    rw [← same kept (by omega)] at made
    exact near.nearest _ (by omega) (by omega) made
  · intro call reply id near low high
    obtain ⟨place, rfl⟩ := Nat.exists_eq_add_of_le low
    obtain ⟨kept, late, answer⟩ := inner.replied place id (same place (by omega) ▸ near.called)
    have inside := lt_of_answers answer
    by_contra out
    rw [← same kept inside] at answer
    exact near.first _ (by omega) (by omega) answer
  · intro place id answer
    have inside := lt_of_answers answer
    rw [← same place inside] at answer
    obtain ⟨call, near⟩ := paired.nearestCall answer
    obtain ⟨kept, rfl⟩ := Nat.exists_eq_add_of_le
      (called call _ id near (Nat.le_add_right _ _) (by omega))
    have early := near.order
    exact ⟨kept, by omega, same kept (by omega) ▸ near.called⟩
  · intro place id made
    have inside := lt_of_makes made
    rw [← same place inside] at made
    obtain ⟨reply, near⟩ := paired.firstReply made
    have late := near.order
    have high := replied _ reply id near (Nat.le_add_right _ _) (by omega)
    obtain ⟨kept, rfl⟩ := Nat.exists_eq_add_of_le (by omega : before.length ≤ reply)
    exact ⟨kept, by omega, same kept (by omega) ▸ near.replied⟩

/-- A message that is no answer is followed by the answers to its calls, in their order, and by
no other answer. -/
structure Lockstep (calls : μ → List ι) (answers : μ → Option ι) (messages : List μ) : Prop where
  opens : Opens answers messages
  replied : ∀ before message after, messages = before ++ message :: after →
    answers message = none → replies answers after = calls message

theorem lockstep_nil : Lockstep calls answers ([] : List μ) where
  opens := opens_nil
  replied := by
    intro before message after split
    cases before with
    | nil => cases split
    | cons first before => cases split

variable {message : μ} {id : ι}

theorem lockstep_round {results : List μ} (opens : answers message = none)
    (each : results.map answers = (calls message).map some) :
    Lockstep calls answers (message :: results) where
  opens := (opens_cons message results).mpr opens
  replied := by
    intro before other after split mute
    cases before with
    | nil =>
      cases split
      exact replies_eq each
    | cons first before =>
      cases split
      have inside : answers other ∈ (calls message).map some := by
        rw [← each]
        exact mem_map_of_mem (mem_append_right _ mem_cons_self)
      rw [mute] at inside
      obtain ⟨id, -, same⟩ := mem_map.mp inside
      cases same

theorem Lockstep.append {first second : List μ} (early : Lockstep calls answers first)
    (late : Lockstep calls answers second) : Lockstep calls answers (first ++ second) where
  opens := by
    cases first with
    | nil => exact late.opens
    | cons message rest =>
      rw [cons_append, opens_cons]
      exact (opens_cons message rest).mp early.opens
  replied := by
    intro before message after split mute
    rcases append_eq_append_iff.mp split with ⟨middle, same, back⟩ | ⟨middle, same, back⟩
    · exact late.replied middle message after back mute
    · cases middle with
      | nil => exact late.replied [] message after back.symm mute
      | cons first middle =>
        rw [cons_append, cons.injEq] at back
        obtain ⟨rfl, rfl⟩ := back
        rw [replies_append middle second late.opens]
        exact early.replied before message middle same mute

theorem lockstep_flatMap {β : Type} {parts : List β} {speak : β → List μ}
    (each : ∀ part ∈ parts, Lockstep calls answers (speak part)) :
    Lockstep calls answers (parts.flatMap speak) := by
  induction parts with
  | nil => exact lockstep_nil
  | cons part parts ih =>
    rw [flatMap_cons]
    exact (each part mem_cons_self).append
      (ih fun other member => each other (mem_cons_of_mem part member))

theorem mem_replies {between : List μ} (answer : ∀ message ∈ between, answers message ≠ none)
    (answered : answers message = some id) (rest : List μ) :
    id ∈ replies answers (between ++ message :: rest) := by
  induction between with
  | nil =>
    simp only [nil_append, replies, answered]
    exact mem_cons_self
  | cons first between ih =>
    obtain ⟨head, others⟩ := forall_mem_cons.mp answer
    obtain ⟨other, named⟩ := Option.ne_none_iff_exists'.mp head
    simp only [cons_append, replies, named]
    exact mem_cons_of_mem other (ih others)

theorem Lockstep.called (lockstep : Lockstep calls answers messages) {front : List μ}
    {rest : List μ} (split : messages = front ++ message :: rest)
    (answered : answers message = some id) :
    ∃ before call between, front = before ++ call :: between ∧ id ∈ calls call ∧
      ∀ other ∈ between, answers other ≠ none := by
  have last (between : List μ) : ∀ before, front = before ++ between →
      (∀ other ∈ between, answers other ≠ none) →
      ∃ before call between, front = before ++ call :: between ∧ id ∈ calls call ∧
        ∀ other ∈ between, answers other ≠ none := by
    intro before
    induction before using reverseRecOn generalizing between with
    | nil =>
      intro same answer
      have opens := lockstep.opens
      rw [split, same, nil_append] at opens
      cases between with
      | nil => exact absurd answered (by rw [opens message rfl]; exact nofun)
      | cons first between => exact absurd (opens first rfl) (answer first mem_cons_self)
    | append_singleton before call ih =>
      intro same answer
      rw [append_assoc, singleton_append] at same
      by_cases mute : answers call = none
      · refine ⟨before, call, between, same, ?_, answer⟩
        rw [← lockstep.replied before call (between ++ message :: rest)
          (by rw [split, same, append_assoc]; rfl) mute]
        exact mem_replies answer answered rest
      · exact ih (call :: between) same (forall_mem_cons.mpr ⟨mute, answer⟩)
  exact last [] front (append_nil front).symm nofun

end Dialogue
