import Hydra.Library.Ascii
import Mathlib.Data.Nat.Digits.Defs

/-!
# Signed decimals

The texts that denote integers: decimal digits, at least one, behind at most
one sign.  `horner` is the left-to-right evaluation of digits.
-/

namespace Decimal

open Ascii

/-- Decimal digits with their value. -/
structure Digits (text : List UInt8) (value : Nat) : Prop where
  nonempty : text ≠ []
  digits : ∀ byte ∈ text, isDigit byte
  value_eq : value = Nat.ofDigits 10 (text.reverse.map digitValue)

/-- The text is a decimal number, with or without a sign. -/
inductive Signed : List UInt8 → Int → Prop where
  | unsigned {text : List UInt8} {value : Nat} :
      Digits text value → Signed text value
  | positive {text : List UInt8} {value : Nat} :
      Digits text value → Signed (plus :: text) value
  | negative {text : List UInt8} {value : Nat} :
      Digits text value → Signed (minus :: text) (-value)

def horner (text : List UInt8) : Nat :=
  text.foldl (fun value byte => value * 10 + digitValue byte) 0

variable {text : List UInt8} {value : Int}

theorem horner_eq (text : List UInt8) :
    horner text = Nat.ofDigits 10 (text.reverse.map digitValue) := by
  rw [horner, ← List.foldr_reverse]
  induction text.reverse with
  | nil => rfl
  | cons byte bytes induction =>
      rw [List.foldr_cons, induction, List.map_cons, Nat.ofDigits_cons]
      ring

theorem digits_iff {value : Nat} : Digits text value ↔
    text ≠ [] ∧ (∀ byte ∈ text, isDigit byte) ∧ value = horner text := by
  rw [horner_eq]
  exact ⟨fun digits => ⟨digits.nonempty, digits.digits, digits.value_eq⟩,
    fun parts => ⟨parts.1, parts.2.1, parts.2.2⟩⟩

theorem not_digits_sign {sign : UInt8} {value : Nat}
    (noDigit : isDigit sign = false) : ¬ Digits (sign :: text) value := by
  intro digits
  have sign_digit := digits.digits sign List.mem_cons_self
  rw [noDigit] at sign_digit
  cases sign_digit

theorem signed_minus_iff : Signed (minus :: text) value ↔
    text ≠ [] ∧ (∀ byte ∈ text, isDigit byte) ∧
      value = -(horner text : Int) := by
  constructor
  · intro signed
    cases signed with
    | unsigned digits => exact absurd digits (not_digits_sign rfl)
    | negative digits =>
        obtain ⟨nonempty, clean, rfl⟩ := digits_iff.mp digits
        exact ⟨nonempty, clean, rfl⟩
  · rintro ⟨nonempty, clean, rfl⟩
    exact .negative (digits_iff.mpr ⟨nonempty, clean, rfl⟩)

theorem signed_plus_iff : Signed (plus :: text) value ↔
    text ≠ [] ∧ (∀ byte ∈ text, isDigit byte) ∧
      value = (horner text : Int) := by
  constructor
  · intro signed
    cases signed with
    | unsigned digits => exact absurd digits (not_digits_sign rfl)
    | positive digits =>
        obtain ⟨nonempty, clean, rfl⟩ := digits_iff.mp digits
        exact ⟨nonempty, clean, rfl⟩
  · rintro ⟨nonempty, clean, rfl⟩
    exact .positive (digits_iff.mpr ⟨nonempty, clean, rfl⟩)

theorem signed_unsigned_iff {first : UInt8} (noMinus : first ≠ minus)
    (noPlus : first ≠ plus) : Signed (first :: text) value ↔
      first :: text ≠ [] ∧ (∀ byte ∈ first :: text, isDigit byte) ∧
        value = (horner (first :: text) : Int) := by
  constructor
  · intro signed
    cases signed with
    | unsigned digits =>
        obtain ⟨nonempty, clean, rfl⟩ := digits_iff.mp digits
        exact ⟨nonempty, clean, rfl⟩
    | positive => exact absurd rfl noPlus
    | negative => exact absurd rfl noMinus
  · rintro ⟨nonempty, clean, rfl⟩
    exact .unsigned (digits_iff.mpr ⟨nonempty, clean, rfl⟩)

theorem minus_not_mem (digits : ∀ byte ∈ text, isDigit byte) :
    minus ∉ text := fun member =>
  absurd (digits minus member) (by decide)

theorem Signed.ne_nil (signed : Signed text value) : text ≠ [] := by
  cases signed with
  | unsigned digits => exact digits.nonempty
  | positive => exact List.cons_ne_nil _ _
  | negative => exact List.cons_ne_nil _ _

theorem Signed.minus_not_mem_tail (signed : Signed text value) :
    minus ∉ text.tail := by
  cases signed with
  | unsigned digits =>
      exact fun member =>
        minus_not_mem digits.digits (List.mem_of_mem_tail member)
  | positive digits => exact minus_not_mem digits.digits
  | negative digits => exact minus_not_mem digits.digits

end Decimal
