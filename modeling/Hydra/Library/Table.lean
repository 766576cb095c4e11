import Hydra.Library.Csv
import Hydra.Library.Decimal
import Mathlib.Data.Nat.Digits.Lemmas

/-!
# Tables of comma-separated values

Tables as programs write them: numbers in decimal, fields between commas, a
line feed behind every record.  A table that is written so is read back record
by record, and a number that is written so is read back as the number.
-/

namespace Decimal

open Ascii

/-- The digit of a number below ten. -/
def digit (value : Nat) : UInt8 := UInt8.ofNat (0x30 + value)

/-- The digits of a number, the highest one first. -/
def print (value : Nat) : List UInt8 :=
  if value = 0 then [digit 0]
  else (Nat.digits 10 value).reverse.map digit

def printInt : Int → List UInt8
  | .ofNat value => print value
  | .negSucc value => minus :: print (value + 1)

/-- The number that decimal digits denote. -/
def read? (text : List UInt8) : Option Nat :=
  if !text.isEmpty && text.all isDigit then some (horner text) else none

def readInt? (text : List UInt8) : Option Int :=
  if text.head? = some minus then
    (read? text.tail).map fun value : Nat => -(value : Int)
  else (read? text).map Int.ofNat

theorem digit_isDigit {value : Nat} (small : value < 10) :
    isDigit (digit value) := by
  have checked : ∀ value < 10, isDigit (digit value) := by decide
  exact checked value small

theorem digitValue_digit {value : Nat} (small : value < 10) :
    digitValue (digit value) = value := by
  have checked : ∀ value < 10, digitValue (digit value) = value := by decide
  exact checked value small

theorem map_digitValue {values : List Nat}
    (small : ∀ value ∈ values, value < 10) :
    (values.map digit).map digitValue = values := by
  rw [List.map_map]
  conv_rhs => rw [← List.map_id values]
  apply List.map_congr_left
  intro value member
  exact digitValue_digit (small value member)

theorem print_digits (value : Nat) : Digits (print value) value := by
  rw [print]
  split
  next zero =>
    subst zero
    exact
      { nonempty := List.cons_ne_nil _ _
        digits := by
          intro byte member
          rw [List.mem_singleton.mp member]
          rfl
        value_eq := rfl }
  next nonzero =>
    have small : ∀ place ∈ Nat.digits 10 value, place < 10 :=
      fun place member => Nat.digits_lt_base (by decide) member
    constructor
    case nonempty =>
      rw [ne_eq, List.map_eq_nil_iff, List.reverse_eq_nil_iff]
      exact Nat.digits_ne_nil_iff_ne_zero.mpr nonzero
    case digits =>
      intro byte member
      obtain ⟨place, listed, rfl⟩ := List.mem_map.mp member
      exact digit_isDigit (small place (List.mem_reverse.mp listed))
    case value_eq =>
      rw [← List.map_reverse, List.reverse_reverse, map_digitValue small,
        Nat.ofDigits_digits]

theorem read?_digits {text : List UInt8} {value : Nat}
    (digits : Digits text value) : read? text = some value := by
  obtain ⟨nonempty, clean, rfl⟩ := digits_iff.mp digits
  apply if_pos
  rw [Bool.and_eq_true, Bool.not_eq_true', List.isEmpty_eq_false_iff,
    List.all_eq_true]
  exact ⟨nonempty, clean⟩

theorem read?_print (value : Nat) : read? (print value) = some value :=
  read?_digits (print_digits value)

theorem head_print_ne (value : Nat) : (print value).head? ≠ some minus := by
  intro first
  have member := List.mem_of_mem_head? (Option.mem_def.mpr first)
  exact minus_not_mem (print_digits value).digits member

theorem readInt?_printInt (value : Int) :
    readInt? (printInt value) = some value := by
  cases value with
  | ofNat value =>
      rw [printInt, readInt?, if_neg (head_print_ne value), read?_print]
      rfl
  | negSucc value =>
      have signed : (minus :: print (value + 1)).head? = some minus := rfl
      rw [printInt, readInt?, if_pos signed, List.tail_cons, read?_print]
      rfl

end Decimal

namespace Csv

open Ascii

theorem not_special_digit {byte : UInt8} (isDigit : isDigit byte) :
    ¬ Special byte := by
  rintro (rfl | rfl | rfl | rfl) <;> exact absurd isDigit (by decide)

theorem isField_print (value : Nat) :
    IsField (Decimal.print value) (Decimal.print value) :=
  .plain fun byte member =>
    not_special_digit ((Decimal.print_digits value).digits byte member)

theorem isField_printInt (value : Int) :
    IsField (Decimal.printInt value) (Decimal.printInt value) := by
  cases value with
  | ofNat value => exact isField_print value
  | negSucc value =>
      refine .plain fun byte member => ?_
      rcases List.mem_cons.mp member with rfl | digit
      · decide
      · exact not_special_digit
          ((Decimal.print_digits (value + 1)).digits byte digit)

/-- The images of fields with commas between them. -/
def line (images : List (List UInt8)) : List UInt8 :=
  List.intercalate [comma] images

/-- The lines with a line feed behind each. -/
def table (lines : List (List UInt8)) : List UInt8 :=
  lines.flatMap (· ++ [lineFeed])

theorem isRecord_line {image field : List UInt8}
    {images fields : List (List UInt8)} (isField : IsField image field)
    (others : List.Forall₂ IsField images fields) :
    IsRecord (line (image :: images)) (field :: fields) := by
  induction others generalizing image field with
  | nil =>
      have single : line [image] = image := by simp [line, List.intercalate]
      rw [single]
      exact .last isField
  | @cons second other images fields isSecond _ induction =>
      have split : line (image :: second :: images) =
          image ++ comma :: line (second :: images) := by
        simp [line, List.intercalate]
      rw [split]
      exact .more isField (induction isSecond)

/-- The records of a text, of at most `fuel` bytes. -/
def readRecords : Nat → List UInt8 → Option (List (List (List UInt8)))
  | _, [] => some []
  | 0, _ :: _ => none
  | fuel + 1, byte :: bytes =>
      (readRecord (byte :: bytes)).bind fun read =>
        (readRecords fuel read.2).map (read.1 :: ·)

/-- The records of a text. -/
def readTable (bytes : List UInt8) : Option (List (List (List UInt8))) :=
  readRecords bytes.length bytes

theorem readRecords_cons {fuel : Nat} {line : List UInt8}
    {fields : List (List UInt8)} (record : IsRecord line fields)
    (rest : List UInt8) :
    readRecords (fuel + 1) (line ++ lineFeed :: rest) =
      (readRecords fuel rest).map (fields :: ·) := by
  have read := readRecord_line record rest
  obtain ⟨byte, bytes, shape⟩ : ∃ byte bytes,
      line ++ lineFeed :: rest = byte :: bytes :=
    List.exists_cons_of_ne_nil (List.append_ne_nil_of_right_ne_nil _
      (List.cons_ne_nil _ _))
  rw [shape] at read ⊢
  rw [readRecords, read]
  rfl

theorem readRecords_table {lines : List (List UInt8)}
    {records : List (List (List UInt8))}
    (each : List.Forall₂ IsRecord lines records) {fuel : Nat}
    (enough : (table lines).length ≤ fuel) :
    readRecords fuel (table lines) = some records := by
  induction each generalizing fuel with
  | nil =>
      rw [table, List.flatMap_nil]
      cases fuel <;> rfl
  | @cons line fields lines records record _ induction =>
      have split : table (line :: lines) =
          line ++ lineFeed :: table lines := by
        simp [table]
      rw [split, List.length_append, List.length_cons] at enough
      obtain ⟨fuel, rfl⟩ := Nat.exists_eq_add_of_lt
        (Nat.lt_of_lt_of_le (Nat.lt_add_left line.length
          (Nat.succ_pos (table lines).length)) enough)
      rw [split, readRecords_cons record, induction (by omega)]
      rfl

/-- A table is read back record by record. -/
theorem readTable_table {lines : List (List UInt8)}
    {records : List (List (List UInt8))}
    (each : List.Forall₂ IsRecord lines records) :
    readTable (table lines) = some records :=
  readRecords_table each (Nat.le_refl _)

end Csv
