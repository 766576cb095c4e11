import Mathlib.Algebra.Ring.Nat
import Mathlib.Data.List.Basic

/-!
# Characters as bytes

Texts are byte strings here, so that whatever a file name or a line of a file
contains can be spoken about.  This file names the bytes that text formats give
a meaning to, and reads and writes hexadecimal digits.
-/

namespace Ascii

def tab : UInt8 := 0x09
def lineFeed : UInt8 := 0x0A
def carriageReturn : UInt8 := 0x0D
def quote : UInt8 := 0x22
def plus : UInt8 := 0x2B
def comma : UInt8 := 0x2C
def minus : UInt8 := 0x2D
def dot : UInt8 := 0x2E
def slash : UInt8 := 0x2F
def backslash : UInt8 := 0x5C

/-- The bytes of a text in a program. -/
def ofString (text : String) : List UInt8 := text.toUTF8.data.toList

/-- A decimal digit. -/
def isDigit (byte : UInt8) : Bool := 0x30 ≤ byte && byte ≤ 0x39

def digitValue (byte : UInt8) : Nat := byte.toNat - 0x30

/-- The lower-case hexadecimal digit of a number below sixteen. -/
def hexDigit (value : Nat) : UInt8 :=
  if value < 10 then UInt8.ofNat (0x30 + value) else UInt8.ofNat (0x57 + value)

/-- The value of a hexadecimal digit, of either case. -/
def hexValue? (byte : UInt8) : Option Nat :=
  if isDigit byte then some (digitValue byte)
  else if 0x61 ≤ byte ∧ byte ≤ 0x66 then some (byte.toNat - 0x57)
  else if 0x41 ≤ byte ∧ byte ≤ 0x46 then some (byte.toNat - 0x37)
  else none

theorem hexValue?_hexDigit {value : Nat} (small : value < 16) :
    hexValue? (hexDigit value) = some value := by
  have checked : ∀ value < 16, hexValue? (hexDigit value) = some value := by
    decide
  exact checked value small

/-- A number in `width` hexadecimal digits, the highest one first. -/
def hexDigits : Nat → Nat → List UInt8
  | 0, _ => []
  | width + 1, value =>
      hexDigits width (value / 16) ++ [hexDigit (value % 16)]

theorem hexDigit_inj {left right : Nat} (leftSmall : left < 16)
    (rightSmall : right < 16) (same : hexDigit left = hexDigit right) :
    left = right := by
  have values := congrArg hexValue? same
  rw [hexValue?_hexDigit leftSmall, hexValue?_hexDigit rightSmall] at values
  exact Option.some.inj values

/-- Numbers that fit have the same digits only when they are the same. -/
theorem hexDigits_inj {width left right : Nat} (leftFits : left < 16 ^ width)
    (rightFits : right < 16 ^ width)
    (same : hexDigits width left = hexDigits width right) : left = right := by
  induction width generalizing left right with
  | zero =>
      rw [Nat.pow_zero] at leftFits rightFits
      omega
  | succ width induction =>
      rw [Nat.pow_succ] at leftFits rightFits
      obtain ⟨high, low⟩ := List.append_inj' same rfl
      have highSame := @induction (left / 16) (right / 16) (by omega)
        (by omega) high
      have lowSame := hexDigit_inj (Nat.mod_lt _ (Nat.succ_pos 15))
        (Nat.mod_lt _ (Nat.succ_pos 15)) (List.head_eq_of_cons_eq low)
      omega

end Ascii
