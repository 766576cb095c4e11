import Mathlib.Algebra.Ring.Nat
import Mathlib.Data.List.Basic
import Mathlib.Data.List.GetD

/-!
# Numbers as bytes

The images of a number in a fixed count of bytes, in both byte orders, and the
parts of a byte string.  Swapping the bytes of a number changes between the
two orders.
-/

namespace Bytes

def littleEndian : Nat → Nat → List UInt8
  | 0, _ => []
  | width + 1, value =>
      UInt8.ofNat value :: littleEndian width (value / 256)

def ofLittleEndian : List UInt8 → Nat
  | [] => 0
  | byte :: bytes => byte.toNat + 256 * ofLittleEndian bytes

def bigEndian (width value : Nat) : List UInt8 :=
  (littleEndian width value).reverse

def ofBigEndian (bytes : List UInt8) : Nat := ofLittleEndian bytes.reverse

variable {width value : Nat} {bytes : List UInt8}

@[simp] theorem length_littleEndian (width value : Nat) :
    (littleEndian width value).length = width := by
  induction width generalizing value with
  | zero => rfl
  | succ width induction =>
      rw [littleEndian, List.length_cons, induction]

@[simp] theorem length_bigEndian (width value : Nat) :
    (bigEndian width value).length = width := by
  rw [bigEndian, List.length_reverse, length_littleEndian]

theorem ofLittleEndian_lt (bytes : List UInt8) :
    ofLittleEndian bytes < 256 ^ bytes.length := by
  induction bytes with
  | nil => decide
  | cons byte bytes induction =>
      have small : byte.toNat < 256 := byte.toNat_lt
      rw [ofLittleEndian, List.length_cons, Nat.pow_succ]
      omega

theorem ofBigEndian_lt (bytes : List UInt8) :
    ofBigEndian bytes < 256 ^ bytes.length := by
  have bound := ofLittleEndian_lt bytes.reverse
  rw [List.length_reverse] at bound
  exact bound

theorem ofLittleEndian_littleEndian (fits : value < 256 ^ width) :
    ofLittleEndian (littleEndian width value) = value := by
  induction width generalizing value with
  | zero =>
      rw [Nat.pow_zero] at fits
      rw [littleEndian, ofLittleEndian]
      omega
  | succ width induction =>
      rw [Nat.pow_succ] at fits
      have high : value / 256 < 256 ^ width := by omega
      have low : (UInt8.ofNat value).toNat = value % 256 :=
        UInt8.toNat_ofNat'
      rw [littleEndian, ofLittleEndian, induction high, low]
      omega

theorem littleEndian_ofLittleEndian (bytes : List UInt8) :
    littleEndian bytes.length (ofLittleEndian bytes) = bytes := by
  induction bytes with
  | nil => rfl
  | cons byte bytes induction =>
      have small : byte.toNat < 256 := byte.toNat_lt
      have low : UInt8.ofNat (byte.toNat + 256 * ofLittleEndian bytes) =
          byte := by
        rw [← UInt8.toNat_inj, UInt8.toNat_ofNat']
        omega
      have high : (byte.toNat + 256 * ofLittleEndian bytes) / 256 =
          ofLittleEndian bytes := by omega
      rw [List.length_cons, ofLittleEndian, littleEndian, low, high, induction]

theorem ofBigEndian_bigEndian (fits : value < 256 ^ width) :
    ofBigEndian (bigEndian width value) = value := by
  rw [ofBigEndian, bigEndian, List.reverse_reverse,
    ofLittleEndian_littleEndian fits]

theorem bigEndian_ofBigEndian (bytes : List UInt8) :
    bigEndian bytes.length (ofBigEndian bytes) = bytes := by
  have back := littleEndian_ofLittleEndian bytes.reverse
  rw [List.length_reverse] at back
  rw [bigEndian, ofBigEndian, back, List.reverse_reverse]

/-- The number with the bytes in the opposite order. -/
def swapped (width value : Nat) : Nat :=
  ofLittleEndian (littleEndian width value).reverse

theorem swapped_lt (width value : Nat) : swapped width value < 256 ^ width := by
  have bound := ofLittleEndian_lt (littleEndian width value).reverse
  rw [List.length_reverse, length_littleEndian] at bound
  exact bound

theorem littleEndian_swapped (width value : Nat) :
    littleEndian width (swapped width value) = bigEndian width value := by
  have back := littleEndian_ofLittleEndian (littleEndian width value).reverse
  rw [List.length_reverse, length_littleEndian] at back
  exact back

theorem swapped_ofLittleEndian (bytes : List UInt8) :
    swapped bytes.length (ofLittleEndian bytes) = ofBigEndian bytes := by
  rw [swapped, littleEndian_ofLittleEndian, ofBigEndian]

theorem swapped_swapped (fits : value < 256 ^ width) :
    swapped width (swapped width value) = value := by
  rw [swapped, littleEndian_swapped, bigEndian, List.reverse_reverse,
    ofLittleEndian_littleEndian fits]

/-- The bytes from an offset on. -/
def slice (bytes : List UInt8) (offset width : Nat) : List UInt8 :=
  (bytes.drop offset).take width

theorem length_slice {offset : Nat} (inside : offset + width ≤ bytes.length) :
    (slice bytes offset width).length = width := by
  rw [slice, List.length_take, List.length_drop]
  omega

theorem slice_slice {offset size inner : Nat} (inside : inner + width ≤ size) :
    slice (slice bytes offset size) inner width =
      slice bytes (offset + inner) width := by
  rw [slice, slice, List.drop_take, List.drop_drop, List.take_take,
    Nat.min_eq_left (by omega), slice]

theorem getD_slice {offset index : Nat} (inside : index < width) :
    (slice bytes offset width).getD index 0 =
      bytes.getD (offset + index) 0 := by
  rw [slice, List.getD_eq_getElem?_getD, List.getElem?_take_of_lt inside,
    List.getElem?_drop, List.getD_eq_getElem?_getD]

theorem slice_eq_iff {left right : List UInt8} {first second : Nat}
    (leftInside : first + width ≤ left.length)
    (rightInside : second + width ≤ right.length) :
    slice left first width = slice right second width ↔
      ∀ index, index < width →
        left.getD (first + index) 0 = right.getD (second + index) 0 := by
  constructor
  · intro same index inside
    rw [← getD_slice inside, ← getD_slice inside, same]
  · intro same
    apply List.ext_getElem
    · rw [length_slice leftInside, length_slice rightInside]
    · intro index leftIn rightIn
      have inside : index < width := by
        rw [length_slice leftInside] at leftIn
        exact leftIn
      have sameByte := same index inside
      rw [← getD_slice inside, ← getD_slice inside,
        List.getD_eq_getElem _ _ leftIn, List.getD_eq_getElem _ _ rightIn]
        at sameByte
      exact sameByte

theorem drop_eq_slice (bytes : List UInt8) (offset width : Nat) :
    bytes.drop offset =
      slice bytes offset width ++ bytes.drop (offset + width) := by
  rw [slice, ← List.drop_drop, List.take_append_drop]

theorem bigEndian_slice {offset : Nat}
    (inside : offset + width ≤ bytes.length) :
    bigEndian width (ofBigEndian (slice bytes offset width)) =
      slice bytes offset width := by
  have back := bigEndian_ofBigEndian (slice bytes offset width)
  rw [length_slice inside] at back
  exact back

/-- The parts of the given widths that follow each other from an offset on. -/
def cuts (bytes : List UInt8) : Nat → List Nat → List (List UInt8)
  | _, [] => []
  | offset, width :: widths =>
      slice bytes offset width :: cuts bytes (offset + width) widths

theorem flatten_cuts (bytes : List UInt8) (offset : Nat) (widths : List Nat) :
    (cuts bytes offset widths).flatten ++ bytes.drop (offset + widths.sum) =
      bytes.drop offset := by
  induction widths generalizing offset with
  | nil => rfl
  | cons width widths induction =>
      rw [cuts, List.flatten_cons, List.append_assoc, List.sum_cons,
        ← Nat.add_assoc, induction, ← drop_eq_slice]

/-- The part is found at the offset. -/
def At (bytes : List UInt8) (offset : Nat) (part : List UInt8) : Prop :=
  ∃ front back, bytes = front ++ (part ++ back) ∧ front.length = offset

section At

variable {offset : Nat} {part front back : List UInt8}

theorem At.here (part back : List UInt8) : At (part ++ back) 0 part :=
  ⟨[], back, rfl, rfl⟩

theorem At.whole (part : List UInt8) : At part 0 part :=
  ⟨[], [], (List.append_nil part).symm, rfl⟩

theorem At.skip {size : Nat} (frontLength : front.length = size)
    (found : At back offset part) :
    At (front ++ back) (size + offset) part := by
  obtain ⟨before, after, rfl, rfl⟩ := found
  refine ⟨front ++ before, after, (List.append_assoc _ _ _).symm, ?_⟩
  rw [List.length_append, frontLength]

theorem At.append (found : At front offset part) :
    At (front ++ back) offset part := by
  obtain ⟨before, after, rfl, offsetEq⟩ := found
  refine ⟨before, after ++ back, ?_, offsetEq⟩
  rw [List.append_assoc, List.append_assoc]

theorem At.within {inner : List UInt8} {distance : Nat}
    (found : At bytes offset part) (inside : At part distance inner) :
    At bytes (offset + distance) inner := by
  obtain ⟨before, after, rfl, frontLength⟩ := found
  exact inside.append.skip frontLength

theorem At.joined (front : List UInt8) (found : At back 0 part) :
    At (front ++ back) 0 (front ++ part) := by
  obtain ⟨before, after, rfl, empty⟩ := found
  rw [List.length_eq_zero_iff.mp empty, List.nil_append,
    ← List.append_assoc]
  exact .here _ _

theorem At.slice (found : At bytes offset part) :
    slice bytes offset part.length = part := by
  obtain ⟨before, after, rfl, rfl⟩ := found
  rw [Bytes.slice, List.drop_left, List.take_left]

theorem At.ofBigEndian (found : At bytes offset (bigEndian width value))
    (fits : value < 256 ^ width) :
    ofBigEndian (Bytes.slice bytes offset width) = value := by
  have same := found.slice
  rw [length_bigEndian] at same
  rw [same, ofBigEndian_bigEndian fits]

end At

end Bytes
