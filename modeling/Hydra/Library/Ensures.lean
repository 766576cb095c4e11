import Mathlib.Logic.Basic

/-!
# Partial correctness

`Ensures program post` says that whatever the program returns satisfies `post`;
a program that fails ensures everything.  The rules follow the binds of a
computation in `Except`, so that a property which every step keeps is proved
without running the steps.
-/

variable {Error Value Next : Type}

/-- Whatever the program returns satisfies `post`. -/
structure Ensures (program : Except Error Value) (post : Value → Prop) :
    Prop where
  returned : ∀ {value}, program = .ok value → post value

namespace Ensures

variable {program : Except Error Value} {post : Value → Prop} {value : Value}

theorem ok (holds : post value) :
    Ensures (.ok value : Except Error Value) post where
  returned same := Except.ok.inj same ▸ holds

theorem error (error : Error) (post : Value → Prop) :
    Ensures (.error error) post where
  returned same := by cases same

theorem bind {next : Value → Except Error Next} {last : Next → Prop}
    (first : Ensures program post)
    (rest : ∀ value, post value → Ensures (next value) last) :
    Ensures (program >>= next) last := by
  cases programEq : program with
  | error error => exact Ensures.error error last
  | ok value => exact rest value (first.returned programEq)

theorem step {next : Value → Except Error Next} {last : Next → Prop}
    (rest : ∀ value, Ensures (next value) last) :
    Ensures (program >>= next) last := by
  cases program with
  | error error => exact Ensures.error error last
  | ok value => exact rest value

theorem weaken {weaker : Value → Prop} (ensured : Ensures program post)
    (implies : ∀ value, post value → weaker value) :
    Ensures program weaker where
  returned run := implies _ (ensured.returned run)

theorem ite {condition : Prop} [Decidable condition]
    {other : Except Error Value} (holds : Ensures program post)
    (fails : Ensures other post) :
    Ensures (if condition then program else other) post := by
  split
  · exact holds
  · exact fails

end Ensures
