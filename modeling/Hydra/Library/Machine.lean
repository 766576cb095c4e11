import Mathlib.Tactic.TypeStar

/-!
# Labelled machines

A machine is a predicate on initial states and a labelled step relation.  A
safety property of every run is proved once per machine, by
`Machine.Reachable.invariant`: it holds initially and one step keeps it.

`Machine.restrict` keeps only the steps with allowed labels,
`Machine.guarded` those that are allowed in the state that they start from, and
`Machine.withGhost` pairs the states with a history variable that the steps
update but cannot observe.
-/

/-- A transition system with labelled steps. -/
structure Machine (State Label : Type*) where
  initial : State → Prop
  step : State → Label → State → Prop

namespace Machine

variable {State Label Ghost : Type*}

/-- The states that a run of the machine can end in. -/
inductive Reachable (machine : Machine State Label) : State → Prop where
  | initial {state : State} :
      machine.initial state → Reachable machine state
  | step {state next : State} {label : Label} :
      Reachable machine state → machine.step state label next →
      Reachable machine next

theorem Reachable.invariant {machine : Machine State Label}
    (property : State → Prop)
    (base : ∀ state, machine.initial state → property state)
    (preserved : ∀ state label next, property state →
      machine.step state label next → property next)
    {state : State} (reachable : machine.Reachable state) :
    property state := by
  induction reachable with
  | initial start => exact base _ start
  | step _ taken held => exact preserved _ _ _ held taken

/-- Only the steps whose label is allowed. -/
def restrict (machine : Machine State Label) (allowed : Label → Prop) :
    Machine State Label where
  initial := machine.initial
  step state label next := allowed label ∧ machine.step state label next

theorem Reachable.of_restrict {machine : Machine State Label}
    {allowed : Label → Prop} {state : State}
    (reachable : (machine.restrict allowed).Reachable state) :
    machine.Reachable state := by
  induction reachable with
  | initial start => exact .initial start
  | step _ taken held => exact .step held taken.2

/-- Only the steps that are allowed in their states. -/
def guarded (machine : Machine State Label)
    (allowed : State → Label → Prop) : Machine State Label where
  initial := machine.initial
  step state label next := allowed state label ∧ machine.step state label next

theorem Reachable.of_guarded {machine : Machine State Label}
    {allowed : State → Label → Prop} {state : State}
    (reachable : (machine.guarded allowed).Reachable state) :
    machine.Reachable state := by
  induction reachable with
  | initial start => exact .initial start
  | step _ taken held => exact .step held taken.2

/-- A map between machines that sends initial states to initial states and
steps from reachable states to reachable states sends reachable states to
reachable states. -/
theorem Reachable.map {Concrete Event : Type*}
    {concrete : Machine Concrete Event} {machine : Machine State Label}
    (view : Concrete → State)
    (base : ∀ state, concrete.initial state → machine.initial (view state))
    (simulated : ∀ state event next, concrete.Reachable state →
      machine.Reachable (view state) → concrete.step state event next →
      machine.Reachable (view next))
    {state : Concrete} (reachable : concrete.Reachable state) :
    machine.Reachable (view state) := by
  induction reachable with
  | initial start => exact .initial (base _ start)
  | step earlier taken held => exact simulated _ _ _ earlier held taken

/-- The machine with a history variable: `start` initially, and changed by
`record` at each step. -/
def withGhost (machine : Machine State Label) (start : Ghost)
    (record : State → Label → State → Ghost → Ghost) :
    Machine (State × Ghost) Label where
  initial state := machine.initial state.1 ∧ state.2 = start
  step state label next :=
    machine.step state.1 label next.1 ∧
      next.2 = record state.1 label next.1 state.2

/-- A property of the states and the history, proved for every run. -/
theorem Reachable.ghost_invariant {machine : Machine State Label}
    {start : Ghost} {record : State → Label → State → Ghost → Ghost}
    (property : State → Ghost → Prop)
    (base : ∀ state, machine.initial state → property state start)
    (preserved : ∀ state ghost label next, property state ghost →
      machine.step state label next →
      property next (record state label next ghost))
    {state : State} {ghost : Ghost}
    (reachable : (machine.withGhost start record).Reachable (state, ghost)) :
    property state ghost := by
  refine Reachable.invariant (fun pair => property pair.1 pair.2) ?_ ?_
    reachable
  · intro pair initial
    rw [initial.2]
    exact base _ initial.1
  · intro pair label next held taken
    rw [taken.2]
    exact preserved _ _ _ _ held taken.1

theorem Reachable.of_withGhost {machine : Machine State Label} {start : Ghost}
    {record : State → Label → State → Ghost → Ghost} {state : State × Ghost}
    (reachable : (machine.withGhost start record).Reachable state) :
    machine.Reachable state.1 := by
  refine Reachable.map Prod.fst ?_ ?_ reachable
  · intro state start
    exact start.1
  · intro state event next _ held taken
    exact .step held taken.1

/-- Every run of a machine can carry the history variable. -/
theorem Reachable.exists_ghost {machine : Machine State Label} {state : State}
    (reachable : machine.Reachable state) (start : Ghost)
    (record : State → Label → State → Ghost → Ghost) :
    ∃ ghost, (machine.withGhost start record).Reachable (state, ghost) := by
  induction reachable with
  | initial initial => exact ⟨start, .initial ⟨initial, rfl⟩⟩
  | @step state next label _ taken induction =>
      obtain ⟨ghost, reachable⟩ := induction
      exact ⟨record state label next ghost, .step reachable ⟨taken, rfl⟩⟩

end Machine
