import Mathlib.Logic.Basic
import Mathlib.Tactic.TypeStar

/-!
# Computations that check their input

A computation in `Except` that tests its input and gives up at the first test
that fails is described by the condition under which it returns, by the value
that it then returns, and by the errors that it may give up with.  The rules
follow the binds of the computation, and a test that has passed is a fact in
the rule for what comes behind it.
-/

namespace Checks

variable {Error : Type*} {Value Next : Type} {admitted : Error → Prop}

/-- The computation returns the value on the condition, and otherwise fails with
an admitted error. -/
structure Decides (admitted : Error → Prop) (run : Except Error Value)
    (condition : Prop) (value : Value) : Prop where
  accepts : condition → run = .ok value
  rejects : ¬ condition → ∃ error, admitted error ∧ run = .error error

variable {run : Except Error Value} {next : Value → Except Error Next}
variable {condition other : Prop} {value result : Value} {last : Next}

theorem Decides.congr (decides : Decides admitted run condition value)
    (same : other ↔ condition) : Decides admitted run other value where
  accepts held := decides.accepts (same.mp held)
  rejects failed := decides.rejects fun held => failed (same.mpr held)

theorem Decides.ok : Decides admitted (.ok value) True value where
  accepts _ := rfl
  rejects failed := absurd trivial failed

theorem Decides.guard {test : Prop} [Decidable test] {error : Error}
    {next : Unit → Except Error Next} (known : admitted error)
    (rest : ¬ test → Decides admitted (next ()) condition last) :
    Decides admitted ((if test then .error error else .ok ()) >>= next)
      (¬ test ∧ condition) last where
  accepts held := by
    rw [if_neg held.1]
    exact (rest held.1).accepts held.2
  rejects failed := by
    by_cases tested : test
    · rw [if_pos tested]
      exact ⟨error, known, rfl⟩
    · rw [if_neg tested]
      exact (rest tested).rejects fun held => failed ⟨tested, held⟩

theorem Decides.final {test : Prop} [Decidable test] {error : Error}
    (known : admitted error) :
    Decides admitted (if test then .error error else .ok ()) (¬ test) () where
  accepts passed := if_neg passed
  rejects failed := ⟨error, known, if_pos (not_not.mp failed)⟩

theorem Decides.step (returned : run = .ok value)
    (rest : Decides admitted (next value) condition last) :
    Decides admitted (run >>= next) condition last := by
  rw [returned]
  exact rest

theorem Decides.bind (first : Decides admitted run condition value)
    (rest : condition → Decides admitted (next value) other last) :
    Decides admitted (run >>= next) (condition ∧ other) last where
  accepts held := by
    rw [first.accepts held.1]
    exact (rest held.1).accepts held.2
  rejects failed := by
    by_cases held : condition
    · rw [first.accepts held]
      exact (rest held).rejects fun back => failed ⟨held, back⟩
    · obtain ⟨error, known, stopped⟩ := first.rejects held
      rw [stopped]
      exact ⟨error, known, rfl⟩

theorem Decides.of_ok (decides : Decides admitted run condition value)
    (returned : run = .ok result) : condition ∧ result = value := by
  by_cases held : condition
  · rw [decides.accepts held] at returned
    cases returned
    exact ⟨held, rfl⟩
  · obtain ⟨error, _, stopped⟩ := decides.rejects held
    rw [stopped] at returned
    cases returned

end Checks
