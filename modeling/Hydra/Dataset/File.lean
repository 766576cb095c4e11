import Hydra.Dataset.Reader

/-!
# Dataset files

`write_to_file` and `read_from_file`.  A file is read back as it was written,
and every other file is either refused or read as the records that it holds.
-/

namespace Hydra

open Bytes Checks

/-- The record of an event; `padding` is what happens to be in the padding. -/
def EventImage.record (event : EventImage) (padding : Vector UInt8 48) :
    DatasetRecord where
  eventType := event.type.toByte
  reserved0 := Vector.replicate 63 0
  order := event.order
  cancelOrderId := event.cancelOrderId
  arrivalOffsetNs := event.arrivalOffsetNs
  padding := padding

/-- The event of a record. -/
def DatasetRecord.event (record : DatasetRecord) : EventImage where
  type := .ofByte record.eventType
  order := record.order
  cancelOrderId := record.cancelOrderId
  arrivalOffsetNs := record.arrivalOffsetNs

/-- The layout of this build, with the two cache lines of an order. -/
def splitLayout : RecordLayout DatasetRecord EventImage where
  codec := DatasetRecord.codec
  eventType := DatasetRecord.eventType
  side record := record.order.side
  tif record := record.order.tif
  event := DatasetRecord.event

theorem splitLayout_width : splitLayout.codec.width = DatasetRecord.size :=
  DatasetRecord.width_codec

theorem splitLayout_positive : 0 < splitLayout.codec.width := by
  rw [splitLayout_width]
  decide

def recordsOf (padding : Nat → Vector UInt8 48) (events : List EventImage) :
    List DatasetRecord :=
  events.mapIdx fun index event => event.record (padding index)

/-- What the loop of `write_to_file` writes. -/
def writeRecords (padding : Nat → Vector UInt8 48) (events : List EventImage) :
    List UInt8 :=
  Records.writeAll splitLayout.codec (recordsOf padding events)

/-- The bytes of the file that `write_to_file` leaves. -/
def writeToFile (config : DatasetConfig) (padding : Nat → Vector UInt8 48)
    (events : List EventImage) : List UInt8 :=
  splitLayout.write config (recordsOf padding events)

/-- How many records are reserved, and what the call returns or throws. -/
abbrev ReadOutcome : Type := Reading EventImage

/-- A file that cannot be opened is `none`. -/
def readFromFile (path : String) (file : Option (List UInt8)) : ReadOutcome :=
  splitLayout.readFromFile path file

/-- The record at an index of a record stream. -/
abbrev recordAt : List UInt8 → Nat → DatasetRecord :=
  Records.recordAt splitLayout.codec

/-- A file that can be read. -/
abbrev Readable : List UInt8 → Prop := splitLayout.Readable

/-- The events of the records at the front of a stream. -/
abbrev eventsOf : List UInt8 → Nat → List EventImage :=
  Records.valuesOf splitLayout.codec splitLayout.event

theorem readFromFile_throws (path : String) (bytes : List UInt8) :
    Throws (readFromFile path (some bytes)).result (Readable bytes)
      (eventsOf (recordBytes bytes) (headerOf bytes).eventCount.toNat) :=
  RecordLayout.readFromFile_throws splitLayout_positive path bytes

section Written

variable {padding : Nat → Vector UInt8 48} {config : DatasetConfig}

theorem length_recordsOf (events : List EventImage) :
    (recordsOf padding events).length = events.length :=
  List.length_mapIdx

theorem getElem_recordsOf {index : Nat} {events : List EventImage}
    (made : index < (recordsOf padding events).length)
    (inside : index < events.length) :
    (recordsOf padding events)[index] =
      events[index].record (padding index) := by
  simp only [recordsOf, List.getElem_mapIdx]

theorem EventImage.event_record (event : EventImage)
    (padding : Vector UInt8 48) : (event.record padding).event = event := by
  rw [record, DatasetRecord.event, EventType.ofByte_toByte]

theorem map_event_recordsOf (events : List EventImage) :
    (recordsOf padding events).map DatasetRecord.event = events := by
  apply List.ext_getElem
  · rw [List.length_map, length_recordsOf]
  · intro index listed inside
    rw [List.getElem_map, getElem_recordsOf _ inside, EventImage.event_record]

theorem recordBytes_writeToFile (events : List EventImage) :
    recordBytes (writeToFile config padding events) =
      writeRecords padding events :=
  recordBytes_append _ _

theorem recordAt_writeRecords {index : Nat} {events : List EventImage}
    (inside : index < events.length) :
    recordAt (writeRecords padding events) index =
      events[index].record (padding index) := by
  have made : index < (recordsOf padding events).length := by
    rw [length_recordsOf]
    exact inside
  have written := Records.recordAt_writeAll splitLayout.codec made
  rw [getElem_recordsOf made inside] at written
  exact written

/-- The enumerators that the order of a new-order event needs. -/
def EventImage.InRange (event : EventImage) : Prop :=
  event.type = .newOrder → event.order.side ≤ Side.sell.toByte ∧
    event.order.tif ≤ TimeInForce.fok.toByte

theorem EventImage.InRange.valid {event : EventImage} (inRange : event.InRange)
    (padding : Vector UInt8 48) :
    splitLayout.Valid (event.record padding) :=
  .ofType rfl inRange

end Written

/-- The fields of a record that carry its event. -/
structure DatasetRecord.SameEvent (left right : DatasetRecord) : Prop where
  eventType : left.eventType = right.eventType
  order : left.order = right.order
  cancelOrderId : left.cancelOrderId = right.cancelOrderId
  arrivalOffsetNs : left.arrivalOffsetNs = right.arrivalOffsetNs

/-- What a call of the reader does with a file. -/
structure ReadLaw (bytes : List UInt8) (outcome : ReadOutcome) : Prop where
  reserved : outcome.reserved ≤
    (bytes.length - DatasetFileHeader.size) / DatasetRecord.size
  returns : (∃ events, outcome.result = .ok events) ↔ Readable bytes
  count : ∀ events, outcome.result = .ok events →
    events.length = (headerOf bytes).eventCount.toNat
  /-- Writing the events again gives the records again. -/
  rewritten : ∀ events, outcome.result = .ok events →
    ∀ config padding index, index < events.length →
      (recordAt (recordBytes (writeToFile config padding events))
        index).SameEvent (recordAt (recordBytes bytes) index)

theorem readFromFile_law (path : String) (bytes : List UInt8) :
    ReadLaw bytes (readFromFile path (some bytes)) where
  reserved := RecordLayout.reserved_le path bytes
  returns := by
    have throws := readFromFile_throws path bytes
    constructor
    · intro ⟨events, returned⟩
      exact (throws.of_ok returned).1
    · intro readable
      exact ⟨_, throws.accepts readable⟩
  count events returned := by
    obtain ⟨_, rfl⟩ := (readFromFile_throws path bytes).of_ok returned
    exact Records.length_valuesOf
  rewritten events returned config padding index inside := by
    obtain ⟨readable, rfl⟩ := (readFromFile_throws path bytes).of_ok returned
    have listed : index < (headerOf bytes).eventCount.toNat := by
      rw [Records.length_valuesOf] at inside
      exact inside
    have valid := readable.records index listed
    rw [recordBytes_writeToFile, recordAt_writeRecords inside,
      Records.getElem_valuesOf inside]
    exact
      { eventType := EventType.toByte_ofByte valid.type
        order := rfl
        cancelOrderId := rfl
        arrivalOffsetNs := rfl }

theorem events_inRange {path : String} {bytes : List UInt8}
    {events : List EventImage}
    (returned : (readFromFile path (some bytes)).result = .ok events) :
    ∀ event ∈ events, event.InRange := by
  obtain ⟨readable, rfl⟩ := (readFromFile_throws path bytes).of_ok returned
  intro event listed newOrder
  obtain ⟨index, inside, rfl⟩ := List.mem_map.mp listed
  have valid := readable.records index (List.mem_range.mp inside)
  apply valid.order
  rw [← EventType.toByte_ofByte valid.type]
  exact congrArg EventType.toByte newOrder

theorem readFromFile_writeToFile {path : String} {config : DatasetConfig}
    {padding : Nat → Vector UInt8 48} {events : List EventImage}
    (fits : events.length < 2 ^ 64)
    (inRange : ∀ event ∈ events, EventImage.InRange event) :
    (readFromFile path (some (writeToFile config padding events))).result =
      .ok events := by
  have made : (recordsOf padding events).length < 2 ^ 64 := by
    rw [length_recordsOf]
    exact fits
  have valid : ∀ record ∈ recordsOf padding events,
      splitLayout.Valid record := by
    intro record listed
    obtain ⟨index, inside, rfl⟩ := List.mem_mapIdx.mp listed
    exact (inRange _ (List.getElem_mem inside)).valid _
  have read := @RecordLayout.readFromFile_write _ _ splitLayout config _ path
    splitLayout_positive made valid
  rw [readFromFile, writeToFile, read]
  exact congrArg _ (map_event_recordsOf events)

/-- A dataset is read as it was written; any other file is refused, or read as
the records that it holds. -/
theorem dataset_codec :
    (∀ path config padding events, events.length < 2 ^ 64 →
      (∀ event ∈ events, EventImage.InRange event) →
        (readFromFile path
          (some (writeToFile config padding events))).result = .ok events) ∧
    ∀ path bytes, ReadLaw bytes (readFromFile path (some bytes)) :=
  ⟨fun _ _ _ _ => readFromFile_writeToFile, readFromFile_law⟩

/-- A configuration, and a replacement with a side that does not exist. -/
def sampleConfig : DatasetConfig where
  seed := 42
  orderCount := 1
  midPrice := 100000
  priceSpreadTicks := 50
  minQty := 1
  maxQty := 100
  cancelRatio := 0
  arrivalRateHz := 0
  iocRatio := 0
  fokRatio := 0
  replaceRatio := 0
  clientIdCount := 8

def sampleReplace : EventImage where
  type := .replace
  order := { (default : OrderImage) with price := -7, qty := 3, side := 9 }
  cancelOrderId := 5
  arrivalOffsetNs := 1000

/-- A new order to sell at once or not at all. -/
def sampleNewOrder : EventImage where
  type := .newOrder
  order :=
    { (default : OrderImage) with
      orderId := 5
      price := 100000
      qty := 7
      side := Side.sell.toByte
      tif := TimeInForce.fok.toByte }
  cancelOrderId := 0
  arrivalOffsetNs := 400

theorem dataset_codec_sample :
    (readFromFile "dataset.bin"
        (some (writeToFile sampleConfig (fun _ => Vector.replicate 48 255)
          [sampleNewOrder, sampleReplace]))).result =
      .ok [sampleNewOrder, sampleReplace] := by
  apply dataset_codec.1
  · decide
  · intro event listed newOrder
    rcases List.mem_pair.mp listed with rfl | rfl
    · decide
    · cases newOrder

end Hydra
