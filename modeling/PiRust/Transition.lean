import Mathlib.Data.List.Basic

/- Runs of a labelled transition system given by a partial step function. -/
namespace Transition

variable {σ ε : Type}

/-- The state after a list of steps; none when a step is not possible. -/
def follow (step : ε → σ → Option σ) : List ε → σ → Option σ
  | [], state => some state
  | label :: rest, state => (step label state).bind (follow step rest)

theorem follow_singleton (step : ε → σ → Option σ) (label : ε) (state : σ) :
    follow step [label] state = step label state := by
  change (step label state).bind (fun next => some next) = step label state
  exact Option.bind_fun_some (step label state)

theorem follow_append (step : ε → σ → Option σ) (labels more : List ε) (state : σ) :
    follow step (labels ++ more) state = (follow step labels state).bind (follow step more) := by
  induction labels generalizing state with
  | nil => rfl
  | cons label labels ih =>
    change (step label state).bind (follow step (labels ++ more)) =
      ((step label state).bind (follow step labels)).bind (follow step more)
    rw [Option.bind_assoc]
    exact Option.bind_congr fun next _ => ih next

variable (step : ε → σ → Option σ) (allowed : ε → σ → Prop)

/-- Finitely many steps, the labels in order; each step is taken where `allowed`
holds of its label and of the state before it. -/
inductive Run : σ → List ε → σ → Prop
  | done (start : σ) : Run start [] start
  | next {start before after : σ} {labels : List ε} {l : ε} (earlier : Run start labels before)
      (admitted : allowed l before) (taken : step l before = some after) :
      Run start (labels ++ [l]) after

variable {step allowed}

theorem Run.invariant {P : σ → Prop} {start final : σ} {labels : List ε}
    (keeps : ∀ label before after, P before → allowed label before →
      step label before = some after → P after)
    (first : P start) (run : Run step allowed start labels final) : P final := by
  induction run with
  | done => exact first
  | next _ admitted taken ih => exact keeps _ _ _ ih admitted taken

theorem Run.history {P : List ε → σ → Prop} {start final : σ} {labels : List ε}
    (keeps : ∀ labels label before after, P labels before → allowed label before →
      step label before = some after → P (labels ++ [label]) after)
    (first : P [] start) (run : Run step allowed start labels final) : P labels final := by
  induction run with
  | done => exact first
  | next _ admitted taken ih => exact keeps _ _ _ _ ih admitted taken

variable {start final : σ} {labels : List ε}

theorem Run.trans {middle : σ} {first second : List ε}
    (before : Run step allowed start first middle) (after : Run step allowed middle second final) :
    Run step allowed start (first ++ second) final := by
  induction after with
  | done => simpa using before
  | next _ admitted taken ih =>
    rw [← List.append_assoc]
    exact .next ih admitted taken

theorem Run.of_follow (free : ∀ label ∈ labels, ∀ state, allowed label state)
    (reached : follow step labels start = some final) : Run step allowed start labels final := by
  induction labels generalizing start with
  | nil =>
    cases reached
    exact .done _
  | cons label rest ih =>
    obtain ⟨next, taken, onward⟩ := Option.bind_eq_some_iff.mp reached
    have one : Run step allowed start [label] next :=
      .next (.done start) (free label (List.mem_cons_self) start) taken
    exact one.trans (ih (fun other inside => free other (List.mem_cons_of_mem label inside)) onward)

def guarded (step : ε → σ → Option σ) (allowed : ε → σ → Prop)
    [∀ label state, Decidable (allowed label state)] (label : ε) (state : σ) : Option σ :=
  if allowed label state then step label state else none

theorem Run.of_guarded [∀ label state, Decidable (allowed label state)]
    (reached : follow (guarded step allowed) labels start = some final) :
    Run step allowed start labels final := by
  induction labels generalizing start with
  | nil =>
    cases reached
    exact .done _
  | cons label rest ih =>
    obtain ⟨next, taken, onward⟩ := Option.bind_eq_some_iff.mp reached
    simp only [guarded] at taken
    split at taken
    · rename_i admitted
      have one : Run step allowed start [label] next := .next (.done start) admitted taken
      exact one.trans (ih onward)
    · cases taken

/-- The state after a list of steps that are always possible. -/
def execute (step : ε → σ → σ) : List ε → σ → σ
  | [], state => state
  | label :: rest, state => execute step rest (step label state)

section total

variable {step : ε → σ → σ}

theorem always_iff {steady holds : σ → Prop} {allowed : ε → σ → Prop}
    (keeps : ∀ label state, steady state → holds state →
      steady (step label state) ∧ (holds (step label state) ↔ allowed label state))
    (labels : List ε) {start : σ} (first : steady start) (begun : holds start) :
    (∀ earlier later, labels = earlier ++ later → holds (execute step earlier start)) ↔
      ∀ earlier label later, labels = earlier ++ label :: later →
        allowed label (execute step earlier start) := by
  induction labels generalizing start with
  | nil =>
    refine iff_of_true (fun earlier later split => ?_) fun earlier label later split => ?_
    · rw [(List.append_eq_nil_iff.mp split.symm).1]
      exact begun
    · cases (List.append_eq_nil_iff.mp split.symm).2
  | cons label labels ih =>
    obtain ⟨next, exact_step⟩ := keeps label start first begun
    constructor
    · intro always
      have after : holds (step label start) := always [label] labels rfl
      have rest := (ih next after).mp fun earlier later split =>
        always (label :: earlier) later (congrArg (label :: ·) split)
      intro earlier other later split
      cases earlier with
      | nil =>
        cases split
        exact exact_step.mp after
      | cons before earlier =>
        cases split
        exact rest earlier other later rfl
    · intro admitted
      have after : holds (step label start) := exact_step.mpr (admitted [] label labels rfl)
      have rest := (ih next after).mpr fun earlier other later split =>
        admitted (label :: earlier) other later (congrArg (label :: ·) split)
      intro earlier later split
      cases earlier with
      | nil => exact begun
      | cons before earlier =>
        cases split
        exact rest earlier later rfl

end total

end Transition
