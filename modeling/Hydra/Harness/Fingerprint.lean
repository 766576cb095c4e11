import Hydra.Library.Ascii
import Hydra.Library.Fingerprint

/-!
# Fingerprints of files and of trials

`compute_dataset_hash` of the benchmark, the fold that it shares with the
fingerprint of a trial, and the text in which both are reported.  A file is a
byte string.

The multiplier of the fold is odd, so a step forgets nothing.  It is also a
power of two and little more, which keeps up to three neighbouring changes from
cancelling each other.
-/

namespace Hydra

open Ascii Fingerprint

/-- What the source takes for the FNV offset basis.  That of FNV-1a is
14695981039346656037, so its last digit is missing here. -/
def fnvOffsetBasis : UInt64 := 1469598103934665603

def kPrime : UInt64 := 1099511628211

/-- Fold a value into a hash. -/
def fold (hash value : UInt64) : UInt64 := (hash ^^^ value) * kPrime

/-- Fold a byte of a file into a hash. -/
def foldByte (hash : UInt64) (byte : UInt8) : UInt64 := fold hash byte.toUInt64

/-- The size of `buf` in `compute_dataset_hash`. -/
def hashBufferSize : Nat := 65536

theorem hashBufferSize_pos : 0 < hashBufferSize := Nat.succ_pos 65535

/-- `compute_dataset_hash`, which reads the file through a buffer. -/
def computeDatasetHash (file : List UInt8) : UInt64 :=
  foldChunks foldByte hashBufferSize hashBufferSize_pos fnvOffsetBasis file

/-- `hex64` -/
def hex64 (value : UInt64) : List UInt8 := hexDigits 16 value.toNat

theorem hex64_injective : Function.Injective hex64 := by
  intro left right same
  have leftFits : left.toNat < 16 ^ 16 := left.toNat_lt
  have rightFits : right.toNat < 16 ^ 16 := right.toNat_lt
  exact UInt64.toNat_inj.mp (hexDigits_inj leftFits rightFits same)

theorem mul_kPrime_injective : Function.Injective (· * kPrime) := by
  intro left right same
  have inverse : kPrime * 14886173955864302971 = 1 := by decide
  have scaled := congrArg (· * 14886173955864302971) same
  simpa only [UInt64.mul_assoc, inverse, UInt64.mul_one] using scaled

theorem fold_sharp : Sharp fold where
  hash_injective value _ _ same :=
    (UInt64.xor_left_inj value).mp (mul_kPrime_injective same)
  item_injective hash _ _ same :=
    (UInt64.xor_right_inj hash).mp (mul_kPrime_injective same)

theorem foldByte_sharp : Sharp foldByte where
  hash_injective byte := fold_sharp.hash_injective byte.toUInt64
  item_injective hash _ _ same :=
    UInt8.toUInt64_inj.mp (fold_sharp.item_injective hash same)

/-- Hashes are near each other when they differ in their last byte only.
Folding a byte keeps everything above the last byte of the hash, and the
multiplication takes near hashes far apart. -/
def Near (left right : UInt64) : Prop :=
  left.toNat / 256 = right.toNat / 256

theorem near_xor (hash : UInt64) (byte : UInt8) :
    Near (hash ^^^ byte.toUInt64) hash := by
  have small : byte.toNat / 256 = 0 := Nat.div_eq_of_lt byte.toNat_lt
  have shift : ∀ number : Nat, number / 256 = number >>> 8 :=
    fun number => (Nat.shiftRight_eq_div_pow number 8).symm
  rw [Near, UInt64.toNat_xor, shift, shift, Nat.shiftRight_xor_distrib,
    UInt8.toNat_toUInt64, ← shift byte.toNat, small, Nat.xor_zero]

theorem near_xor_xor (hash : UInt64) (left right : UInt8) :
    Near (hash ^^^ left.toUInt64) (hash ^^^ right.toUInt64) :=
  (near_xor hash left).trans (near_xor hash right).symm

theorem near_of_xor {left right : UInt64} {byte other : UInt8}
    (same : left ^^^ byte.toUInt64 = right ^^^ other.toUInt64) :
    Near left right := by
  have leftNear := near_xor left byte
  rw [same] at leftNear
  exact leftNear.symm.trans (near_xor right other)

theorem Near.distance {left right : UInt64} (near : Near left right) :
    -256 < (left.toNat - right.toNat : Int) ∧
      (left.toNat - right.toNat : Int) < 256 := by
  rw [Near] at near
  omega

theorem toNat_mul_kPrime (hash : UInt64) :
    ∃ overflow : Int, ((hash * kPrime).toNat : Int) =
      hash.toNat * 1099511628211 - overflow * 18446744073709551616 := by
  have product : (hash * kPrime).toNat =
      hash.toNat * 1099511628211 % 18446744073709551616 := by
    rw [UInt64.toNat_mul]
    rfl
  refine ⟨(hash.toNat * 1099511628211 / 18446744073709551616 : Nat), ?_⟩
  omega

/-- Near hashes whose products are near are equal. -/
theorem Near.eq_of_product {left right : UInt64} (near : Near left right)
    (product : Near (left * kPrime) (right * kPrime)) : left = right := by
  obtain ⟨leftOver, leftProduct⟩ := toNat_mul_kPrime left
  obtain ⟨rightOver, rightProduct⟩ := toNat_mul_kPrime right
  have apart := near.distance
  have productApart := product.distance
  apply UInt64.toNat_inj.mp
  have whole : leftOver = rightOver := by omega
  omega

/-- Near hashes are equal when two steps later they are near again. -/
theorem Near.eq_of_products {left right next other : UInt64}
    (near : Near left right) (leftNext : Near next (left * kPrime))
    (rightNext : Near other (right * kPrime))
    (product : Near (next * kPrime) (other * kPrime)) : left = right := by
  obtain ⟨leftOver, leftProduct⟩ := toNat_mul_kPrime left
  obtain ⟨rightOver, rightProduct⟩ := toNat_mul_kPrime right
  obtain ⟨nextOver, nextProduct⟩ := toNat_mul_kPrime next
  obtain ⟨otherOver, otherProduct⟩ := toNat_mul_kPrime other
  have apart := near.distance
  have leftApart := leftNext.distance
  have rightApart := rightNext.distance
  have productApart := product.distance
  apply UInt64.toNat_inj.mp
  obtain ⟨distance, distanceEq⟩ :
      ∃ distance : Int, distance = left.toNat - right.toNat := ⟨_, rfl⟩
  obtain ⟨bytes, bytesEq⟩ : ∃ bytes : Int, bytes =
      (next.toNat - (left * kPrime).toNat) -
        (other.toNat - (right * kPrime).toNat) := ⟨_, rfl⟩
  obtain ⟨overflow, overflowEq⟩ : ∃ overflow : Int, overflow =
      nextOver - otherOver + (leftOver - rightOver) * 1099511628211 :=
    ⟨_, rfl⟩
  have square : -256 < (distance * 1099511628211 + bytes) * 1099511628211 -
        overflow * 18446744073709551616 ∧
      (distance * 1099511628211 + bytes) * 1099511628211 -
        overflow * 18446744073709551616 < 256 := by
    omega
  -- The square of the multiplier is a multiple of the modulus and a rest.
  have wraps : overflow = 65536 * distance := by omega
  have high : 870 * distance + bytes = 0 := by omega
  omega

theorem foldl_three_inj (hash : UInt64) {first second third : UInt8}
    {first' second' third' : UInt8}
    (same : [first, second, third].foldl foldByte hash =
      [first', second', third'].foldl foldByte hash) :
    [first, second, third] = [first', second', third'] := by
  simp only [List.foldl_cons, List.foldl_nil, foldByte, fold] at same
  have last := near_of_xor (mul_kPrime_injective same)
  have firstSame : hash ^^^ first.toUInt64 = hash ^^^ first'.toUInt64 :=
    (near_xor_xor hash first first').eq_of_products (near_xor _ second)
      (near_xor _ second') last
  rw [firstSame] at same last
  have secondSame := (near_xor_xor _ second second').eq_of_product last
  rw [secondSame] at same
  have thirdSame := foldByte_sharp.item_injective _ same
  rw [UInt8.toUInt64_inj.mp ((UInt64.xor_right_inj hash).mp firstSame),
    UInt8.toUInt64_inj.mp ((UInt64.xor_right_inj _).mp secondSame), thirdSame]

theorem computeDatasetHash_eq (file : List UInt8) :
    computeDatasetHash file = file.foldl foldByte fnvOffsetBasis :=
  foldChunks_eq _ _ _ _

/-- Two files that agree outside of three neighbouring bytes have the same
reported hash only when they are the same, wherever the buffer of the reader
ends. -/
theorem datasetHash_change (front back : List UInt8)
    (first second third first' second' third' : UInt8) :
    hex64 (computeDatasetHash (front ++ [first, second, third] ++ back)) =
        hex64 (computeDatasetHash
          (front ++ [first', second', third'] ++ back)) ↔
      [first, second, third] = [first', second', third'] := by
  rw [hex64_injective.eq_iff, computeDatasetHash_eq, computeDatasetHash_eq,
    foldByte_sharp.foldl_append_inj]
  exact ⟨foldl_three_inj _, congrArg _⟩

end Hydra
