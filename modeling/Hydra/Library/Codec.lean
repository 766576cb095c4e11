import Hydra.Library.Bytes
import Mathlib.Logic.Equiv.Defs

/-!
# Fixed-width images

A codec is a one-to-one correspondence between the values of a type and the
byte strings of a fixed width.  Words are stored with the low byte first; the
codec of a record is that of its fields in order.
-/

/-- The values of a type as byte strings of one width. -/
structure Codec (Value : Type*) where
  width : Nat
  encode : Value → List UInt8
  decode : List UInt8 → Value
  length_encode : ∀ value, (encode value).length = width
  decode_encode : ∀ value, decode (encode value) = value
  encode_decode : ∀ bytes, bytes.length = width → encode (decode bytes) = bytes

namespace Codec

open Bytes

attribute [simp] length_encode decode_encode

variable {Value First Second : Type*}

theorem encode_inj (codec : Codec Value) {left right : Value} :
    codec.encode left = codec.encode right ↔ left = right := by
  constructor
  · intro same
    rw [← codec.decode_encode left, same, codec.decode_encode]
  · intro same
    rw [same]

def uint8 : Codec UInt8 where
  width := 1
  encode value := [value]
  decode bytes := bytes.headD 0
  length_encode _ := rfl
  decode_encode _ := rfl
  encode_decode bytes lengthEq := by
    obtain ⟨byte, rfl⟩ := List.length_eq_one_iff.mp lengthEq
    rfl

theorem decode_uint8 (bytes : List UInt8) :
    uint8.decode bytes = .ofNat (ofLittleEndian (bytes.take 1)) := by
  cases bytes with
  | nil => rfl
  | cons byte bytes =>
      rw [List.take_succ_cons, List.take_zero, ofLittleEndian, ofLittleEndian]
      exact UInt8.ofNat_toNat.symm

def uint32 : Codec UInt32 where
  width := 4
  encode value := littleEndian 4 value.toNat
  decode bytes := UInt32.ofNat (ofLittleEndian bytes)
  length_encode value := length_littleEndian 4 value.toNat
  decode_encode value := by
    rw [ofLittleEndian_littleEndian value.toNat_lt, UInt32.ofNat_toNat]
  encode_decode bytes lengthEq := by
    have bound := ofLittleEndian_lt bytes
    rw [lengthEq] at bound
    rw [UInt32.toNat_ofNat_of_lt' bound, ← lengthEq,
      littleEndian_ofLittleEndian]

def uint64 : Codec UInt64 where
  width := 8
  encode value := littleEndian 8 value.toNat
  decode bytes := UInt64.ofNat (ofLittleEndian bytes)
  length_encode value := length_littleEndian 8 value.toNat
  decode_encode value := by
    rw [ofLittleEndian_littleEndian value.toNat_lt, UInt64.ofNat_toNat]
  encode_decode bytes lengthEq := by
    have bound := ofLittleEndian_lt bytes
    rw [lengthEq] at bound
    rw [UInt64.toNat_ofNat_of_lt' bound, ← lengthEq,
      littleEndian_ofLittleEndian]

/-- The same bytes for a type in one-to-one correspondence. -/
def map (codec : Codec First) (same : First ≃ Second) : Codec Second where
  width := codec.width
  encode value := codec.encode (same.symm value)
  decode bytes := same (codec.decode bytes)
  length_encode value := codec.length_encode (same.symm value)
  decode_encode value := by
    rw [codec.decode_encode, Equiv.apply_symm_apply]
  encode_decode bytes lengthEq := by
    rw [Equiv.symm_apply_apply, codec.encode_decode bytes lengthEq]

/-- A signed word is stored as the unsigned word of the same bits. -/
def int64 : Codec Int64 :=
  uint64.map
    { toFun := UInt64.toInt64
      invFun := Int64.toUInt64
      left_inv := UInt64.toUInt64_toInt64
      right_inv := Int64.toInt64_toUInt64 }

/-- An array of bytes. -/
def vector (size : Nat) : Codec (Vector UInt8 size) where
  width := size
  encode value := value.toList
  decode bytes := Vector.ofFn fun index => bytes.getD index 0
  length_encode value := value.length_toList
  decode_encode value := by
    apply Vector.ext
    intro index inside
    rw [Vector.getElem_ofFn, List.getD_eq_getElem?_getD,
      List.getElem?_eq_getElem (by rw [value.length_toList]; exact inside)]
    exact Vector.getElem_toList _
  encode_decode bytes lengthEq := by
    apply List.ext_getElem
    · rw [Vector.length_toList, lengthEq]
    · intro index _ inside
      rw [Vector.getElem_toList, Vector.getElem_ofFn,
        List.getD_eq_getElem?_getD,
        List.getElem?_eq_getElem inside]
      rfl

/-- One field behind the other. -/
def pair (first : Codec First) (second : Codec Second) :
    Codec (First × Second) where
  width := first.width + second.width
  encode value := first.encode value.1 ++ second.encode value.2
  decode bytes :=
    (first.decode (bytes.take first.width),
      second.decode (bytes.drop first.width))
  length_encode value := by
    rw [List.length_append, first.length_encode, second.length_encode]
  decode_encode value := by
    have front := first.length_encode value.1
    rw [List.take_left' front, List.drop_left' front, first.decode_encode,
      second.decode_encode]
  encode_decode bytes lengthEq := by
    have front : (bytes.take first.width).length = first.width := by
      rw [List.length_take]
      omega
    have back : (bytes.drop first.width).length = second.width := by
      rw [List.length_drop]
      omega
    rw [first.encode_decode _ front, second.encode_decode _ back,
      List.take_append_drop]

/-- A part of every value is found at an offset of its image. -/
def Field {Part : Type*} (codec : Codec Value) (part : Codec Part)
    (offset : Nat) (get : Value → Part) : Prop :=
  ∀ value, At (codec.encode value) offset (part.encode (get value))

section Fields

variable {Part Inner : Type*} {codec : Codec Value} {part : Codec Part}
  {inner : Codec Inner} {first : Codec First} {second : Codec Second}
  {get : Value → Part} {offset : Nat}

theorem Field.whole : Field codec codec 0 id :=
  fun _ => .whole _

theorem Field.fst : Field (pair first second) first 0 Prod.fst :=
  fun _ => .here _ _

theorem Field.behind {reach : Second → Inner}
    (field : Field second inner offset reach) :
    Field (pair first second) inner (first.width + offset)
      fun value => reach value.2 :=
  fun value => .skip (first.length_encode value.1) (field value.2)

theorem Field.front {reach : Second → Inner}
    (field : Field second inner 0 reach) :
    Field (pair first second) (pair first inner) 0
      fun value => (value.1, reach value.2) :=
  fun value => .joined _ (field value.2)

theorem Field.map {get : First → Part} (field : Field first part offset get)
    (same : First ≃ Second) :
    Field (first.map same) part offset fun value => get (same.symm value) :=
  fun value => field (same.symm value)

theorem Field.within {distance : Nat} {reach : Part → Inner}
    (field : Field codec part offset get)
    (inside : Field part inner distance reach) :
    Field codec inner (offset + distance) fun value => reach (get value) :=
  fun value => (field value).within (inside (get value))

theorem Field.inside (field : Field codec part offset get) (value : Value) :
    offset + part.width ≤ codec.width := by
  obtain ⟨front, back, whole, frontLength⟩ := field value
  have lengths := congrArg List.length whole
  rw [codec.length_encode, List.length_append, List.length_append,
    part.length_encode, frontLength] at lengths
  omega

end Fields

end Codec
