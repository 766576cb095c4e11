import Hydra.Library.Checks
import Hydra.Library.Codec
import Mathlib.Data.List.GetD

/-!
# Streams of records

The images of records of one width, one behind the other: the record at an
index, the byte at a position, and a loop that reads and checks a number of
records.
-/

namespace Records

open Bytes Checks

variable {Record Value : Type} {Error : Type*} (codec : Codec Record)

def writeAll (records : List Record) : List UInt8 :=
  records.flatMap codec.encode

theorem writeAll_cons (record : Record) (records : List Record) :
    writeAll codec (record :: records) =
      codec.encode record ++ writeAll codec records :=
  List.flatMap_cons

theorem length_writeAll (records : List Record) :
    (writeAll codec records).length = records.length * codec.width := by
  induction records with
  | nil => exact (Nat.zero_mul _).symm
  | cons record records induction =>
      rw [writeAll_cons, List.length_append, codec.length_encode, induction,
        List.length_cons, Nat.succ_mul, Nat.add_comm]

/-- The byte at a position of the images of the records. -/
def byteAt (records : List Record) (position : Nat) : UInt8 :=
  match records[position / codec.width]? with
  | none => 0
  | some record => (codec.encode record).getD (position % codec.width) 0

theorem byteAt_front (record : Record) (records : List Record) {position : Nat}
    (inside : position < codec.width) :
    byteAt codec (record :: records) position =
      (codec.encode record).getD position 0 := by
  rw [byteAt, Nat.div_eq_of_lt inside, Nat.mod_eq_of_lt inside]
  rfl

theorem byteAt_behind (positive : 0 < codec.width) (record : Record)
    (records : List Record) (position : Nat) :
    byteAt codec (record :: records) (codec.width + position) =
      byteAt codec records position := by
  rw [byteAt, byteAt, Nat.add_div_left _ positive, Nat.add_mod_left,
    List.getElem?_cons_succ]

theorem getD_writeAll (positive : 0 < codec.width) (records : List Record)
    (position : Nat) :
    (writeAll codec records).getD position 0 =
      byteAt codec records position := by
  induction records generalizing position with
  | nil => rfl
  | cons record records induction =>
      have width := codec.length_encode record
      rw [writeAll_cons]
      by_cases inside : position < codec.width
      · rw [byteAt_front codec record records inside,
          List.getD_append _ _ _ _ (width ▸ inside)]
      · obtain ⟨behind, rfl⟩ :=
          Nat.exists_eq_add_of_le (Nat.le_of_not_lt inside)
        rw [byteAt_behind codec positive,
          List.getD_append_right _ _ _ _ (width ▸ Nat.le_add_right _ _),
          width, Nat.add_sub_cancel_left, induction]

/-- The record at an index. -/
def recordAt (bytes : List UInt8) (index : Nat) : Record :=
  codec.decode (slice bytes (index * codec.width) codec.width)

theorem recordAt_zero (bytes : List UInt8) :
    recordAt codec bytes 0 = codec.decode (bytes.take codec.width) := by
  rw [recordAt, Nat.zero_mul, slice, List.drop_zero]

theorem recordAt_succ (bytes : List UInt8) (index : Nat) :
    recordAt codec bytes (index + 1) =
      recordAt codec (bytes.drop codec.width) index := by
  rw [recordAt, recordAt, slice, slice, List.drop_drop, Nat.succ_mul,
    Nat.add_comm]

theorem recordAt_writeAll {records : List Record} {index : Nat}
    (inside : index < records.length) :
    recordAt codec (writeAll codec records) index = records[index] := by
  induction records generalizing index with
  | nil => exact absurd inside (Nat.not_lt_zero index)
  | cons record records induction =>
      have width := codec.length_encode record
      rw [writeAll_cons]
      cases index with
      | zero =>
          rw [recordAt_zero, List.take_left' width, codec.decode_encode]
          rfl
      | succ index =>
          rw [recordAt_succ, List.drop_left' width,
            induction (Nat.lt_of_succ_lt_succ inside)]
          rfl

/-- The records at the front of a stream are there, and valid. -/
structure Holds (valid : Record → Prop) (bytes : List UInt8) (count : Nat) :
    Prop where
  room : count * codec.width ≤ bytes.length
  valid : ∀ index, index < count → valid (recordAt codec bytes index)

/-- The values of the records at the front of a stream. -/
def valuesOf (value : Record → Value) (bytes : List UInt8) (count : Nat) :
    List Value :=
  (List.range count).map fun index => value (recordAt codec bytes index)

section Streams

variable {codec} {valid : Record → Prop} {value : Record → Value}
  {bytes : List UInt8} {count : Nat}

theorem holds_zero : Holds codec valid bytes 0 where
  room := by
    rw [Nat.zero_mul]
    exact Nat.zero_le _
  valid index inside := absurd inside (Nat.not_lt_zero index)

theorem holds_succ :
    Holds codec valid bytes (count + 1) ↔
      codec.width ≤ bytes.length ∧ valid (recordAt codec bytes 0) ∧
        Holds codec valid (bytes.drop codec.width) count := by
  constructor
  · intro holds
    have room := holds.room
    rw [Nat.succ_mul] at room
    refine ⟨Nat.le_of_add_left_le room, holds.valid 0 (Nat.succ_pos _), ?_⟩
    constructor
    · rw [List.length_drop]
      omega
    · intro index inside
      rw [← recordAt_succ]
      exact holds.valid (index + 1) (Nat.succ_lt_succ inside)
  · intro ⟨room, first, rest⟩
    constructor
    · have restRoom := rest.room
      rw [List.length_drop] at restRoom
      rw [Nat.succ_mul]
      omega
    · intro index inside
      cases index with
      | zero => exact first
      | succ index =>
          rw [recordAt_succ]
          exact rest.valid index (Nat.lt_of_succ_lt_succ inside)

theorem length_valuesOf :
    (valuesOf codec value bytes count).length = count := by
  rw [valuesOf, List.length_map, List.length_range]

theorem getElem_valuesOf {index : Nat}
    (inside : index < (valuesOf codec value bytes count).length) :
    (valuesOf codec value bytes count)[index] =
      value (recordAt codec bytes index) := by
  simp only [valuesOf, List.getElem_map, List.getElem_range]

theorem valuesOf_succ :
    valuesOf codec value bytes (count + 1) =
      value (recordAt codec bytes 0) ::
        valuesOf codec value (bytes.drop codec.width) count := by
  have rest (index : Nat) (_ : index ∈ List.range count) :
      value (recordAt codec bytes (index + 1)) =
        value (recordAt codec (bytes.drop codec.width) index) := by
    rw [recordAt_succ]
  rw [valuesOf, List.range_succ_eq_map, List.map_cons, List.map_map]
  exact congrArg _ (List.map_congr_left rest)

end Streams

theorem valuesOf_writeAll (value : Record → Value) (records : List Record) :
    valuesOf codec value (writeAll codec records) records.length =
      records.map value := by
  apply List.ext_getElem
  · rw [length_valuesOf, List.length_map]
  · intro index listed inside
    rw [List.length_map] at inside
    rw [getElem_valuesOf listed, recordAt_writeAll codec inside,
      List.getElem_map]

section Fields

variable {codec} {Part Other : Type} {part : Codec Part}
  {get : Record → Part} {offset : Nat} {bytes : List UInt8}

theorem slice_field (field : codec.Field part offset get) {index : Nat}
    (room : (index + 1) * codec.width ≤ bytes.length) :
    slice bytes (index * codec.width + offset) part.width =
      part.encode (get (recordAt codec bytes index)) := by
  rw [Nat.succ_mul] at room
  have image : codec.encode (recordAt codec bytes index) =
      slice bytes (index * codec.width) codec.width :=
    codec.encode_decode _ (length_slice room)
  have found := (field (recordAt codec bytes index)).slice
  rw [part.length_encode, image, slice_slice (field.inside
    (recordAt codec bytes index))] at found
  exact found

theorem recordAt_byte {get : Record → UInt8}
    (field : codec.Field .uint8 offset get) {index : Nat}
    (room : (index + 1) * codec.width ≤ bytes.length) :
    get (recordAt codec bytes index) =
      bytes.getD (index * codec.width + offset) 0 := by
  have image := slice_field field room
  calc
    get (recordAt codec bytes index) =
        (Codec.uint8.encode (get (recordAt codec bytes index))).getD 0 0 := rfl
    _ = (slice bytes (index * codec.width + offset) 1).getD 0 0 :=
        congrArg (fun found => found.getD 0 0) image.symm
    _ = bytes.getD (index * codec.width + offset) 0 :=
        getD_slice Nat.one_pos

/-- A field that two layouts of a record share is the same in two records of
one stream if the bytes are. -/
theorem recordAt_field_iff {other : Codec Other} {otherGet : Other → Part}
    {otherOffset index : Nat} (field : codec.Field part offset get)
    (otherField : other.Field part otherOffset otherGet)
    (room : (index + 1) * codec.width ≤ bytes.length)
    (otherRoom : (index + 1) * other.width ≤ bytes.length) :
    get (recordAt codec bytes index) = otherGet (recordAt other bytes index) ↔
      ∀ position, position < part.width →
        bytes.getD (index * codec.width + offset + position) 0 =
          bytes.getD (index * other.width + otherOffset + position) 0 := by
  have inside := field.inside (recordAt codec bytes index)
  have otherInside := otherField.inside (recordAt other bytes index)
  rw [← part.encode_inj, ← slice_field field room,
    ← slice_field otherField otherRoom]
  apply slice_eq_iff
  · rw [Nat.succ_mul] at room
    omega
  · rw [Nat.succ_mul] at otherRoom
    omega

end Fields

/-- The number of records that are left, the index of the next, and the bytes
that are not read yet. -/
def readAll (truncated : Nat → Error) (check : Nat → Record → Except Error Unit)
    (value : Record → Value) :
    Nat → Nat → List UInt8 → Except Error (List Value)
  | 0, _, _ => return []
  | left + 1, index, bytes => do
      (if bytes.length < codec.width then .error (truncated index) else .ok ())
      let record := codec.decode (bytes.take codec.width)
      check index record
      let values ← readAll truncated check value left (index + 1)
        (bytes.drop codec.width)
      return value record :: values

theorem readAll_decides {admitted : Error → Prop} {truncated : Nat → Error}
    {check : Nat → Record → Except Error Unit} {value : Record → Value}
    {valid : Record → Prop} (known : ∀ index, admitted (truncated index))
    (checks : ∀ index record,
      Decides admitted (check index record) (valid record) ())
    (count index : Nat) (bytes : List UInt8) :
    Decides admitted (readAll codec truncated check value count index bytes)
      (Holds codec valid bytes count) (valuesOf codec value bytes count) := by
  induction count generalizing index bytes with
  | zero => exact Decides.ok.congr (iff_true_intro holds_zero)
  | succ count induction =>
      rw [readAll, ← recordAt_zero, valuesOf_succ]
      apply Decides.congr
      · apply Decides.guard (known index)
        intro _
        apply Decides.bind (checks index _)
        intro _
        apply Decides.bind (induction (index + 1) _)
        intro _
        exact .ok
      · rw [holds_succ, Nat.not_lt, and_true]

end Records
