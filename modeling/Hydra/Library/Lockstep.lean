import Mathlib.Logic.Basic

/-!
# Computations in lockstep

Two computations in `Except` run in lockstep under a view when they fail with
the same error or both return, the second one with what the first one returns
as the view shows it.  The rules follow the binds of the computations, so that
a property of two runs is proved one step at a time.
-/

variable {Error Value Image Next NextImage : Type}

/-- The second computation is the first one under the view. -/
def Lockstep (view : Value → Image) (run : Except Error Value)
    (other : Except Error Image) : Prop :=
  other = run.map view

namespace Lockstep

variable {view : Value → Image} {nextView : Next → NextImage}
variable {run : Except Error Value} {other : Except Error Image}

theorem ok (view : Value → Image) (value : Value) :
    Lockstep view (.ok value : Except Error Value) (.ok (view value)) := rfl

theorem error (view : Value → Image) (error : Error) :
    Lockstep view (.error error) (.error error) := rfl

theorem bind {next : Value → Except Error Next}
    {otherNext : Image → Except Error NextImage}
    (first : Lockstep view run other)
    (rest : ∀ value, Lockstep nextView (next value) (otherNext (view value))) :
    Lockstep nextView (run >>= next) (other >>= otherNext) := by
  cases first
  cases run with
  | error error => rfl
  | ok value => exact rest value

theorem shared {next : Value → Except Error Next}
    {otherNext : Value → Except Error NextImage}
    (rest : ∀ value, Lockstep nextView (next value) (otherNext value)) :
    Lockstep nextView (run >>= next) (run >>= otherNext) := by
  cases run with
  | error error => rfl
  | ok value => exact rest value

theorem ite {condition : Prop} [Decidable condition]
    {run' : Except Error Value} {other' : Except Error Image}
    (holds : condition → Lockstep view run other)
    (fails : ¬ condition → Lockstep view run' other') :
    Lockstep view (if condition then run else run')
      (if condition then other else other') := by
  by_cases tested : condition
  · rw [if_pos tested, if_pos tested]
    exact holds tested
  · rw [if_neg tested, if_neg tested]
    exact fails tested

theorem run_ok {value : Value} (locked : Lockstep view run other)
    (ran : run = .ok value) : other = .ok (view value) := by
  rw [locked, ran]
  rfl

end Lockstep
