import Hydra.Dataset.Flat

/-!
# Files of the other layout

The two layouts share the magic and the format version, and the header does not
say how long a record is.  A flat file is too short for the reader of the split
layout, so that it throws on every list of events but the empty one.  A split
file has room for all the records of the flat layout: what the other reader
finds there are the bytes of other fields, and it returns them as events unless
an enumerator is out of range.
-/

namespace Hydra

open Records

/-- The fields at the front of an order. -/
def termsCodec :
    Codec (UInt64 × Int64 × UInt32 × UInt8 × UInt8 × UInt8) :=
  .pair .uint64 <| .pair .int64 <| .pair .uint32 <| .pair .uint8 <|
    .pair .uint8 .uint8

/-- The fields at the back of an order. -/
def originCodec : Codec (UInt64 × UInt64 × Vector UInt8 32) :=
  .pair .uint64 <| .pair .uint64 (.vector 32)

/-- The fields behind an order. -/
def endsCodec : Codec (UInt64 × UInt64) := .pair .uint64 .uint64

def LogicalOrder.terms (order : LogicalOrder) :
    UInt64 × Int64 × UInt32 × UInt8 × UInt8 × UInt8 :=
  (order.orderId, order.price, order.qty, order.side, order.tif,
    order.eventTag)

def LogicalOrder.origin (order : LogicalOrder) :
    UInt64 × UInt64 × Vector UInt8 32 :=
  (order.timestampNs, order.clientId, order.clientTag)

def LogicalEvent.ends (event : LogicalEvent) : UInt64 × UInt64 :=
  (event.cancelOrderId, event.arrivalOffsetNs)

theorem LogicalEvent.eq_iff {left right : LogicalEvent} :
    left = right ↔ left.type = right.type ∧
      left.order.terms = right.order.terms ∧
      left.order.origin = right.order.origin ∧ left.ends = right.ends := by
  constructor
  · intro same
    rw [same]
    exact ⟨rfl, rfl, rfl, rfl⟩
  · intro ⟨type, terms, origin, ends⟩
    obtain ⟨leftType, leftOrder, leftCancel, leftArrival⟩ := left
    obtain ⟨rightType, rightOrder, rightCancel, rightArrival⟩ := right
    obtain ⟨_, _, _, _, _, _, _, _, _⟩ := leftOrder
    obtain ⟨_, _, _, _, _, _, _, _, _⟩ := rightOrder
    cases type
    cases terms
    cases origin
    cases ends
    rfl

theorem OrderImage.terms_at :
    OrderImage.codec.Field termsCodec 0 (·.logical.terms) :=
  .map (.front <| .front <| .front <| .front <| .front .fst) _

theorem OrderImage.origin_at :
    OrderImage.codec.Field originCodec 64 (·.logical.origin) :=
  .map (.behind <| .behind <| .behind <| .behind <| .behind <| .behind <|
    .behind <| .behind <| .behind <| .front <| .front .fst) _

theorem split_type : splitLayout.codec.Field .uint8 0 DatasetRecord.eventType :=
  .map .fst _

theorem split_order :
    splitLayout.codec.Field OrderImage.codec 64 DatasetRecord.order :=
  .map (.behind <| .behind .fst) _

theorem split_terms :
    splitLayout.codec.Field termsCodec 64 (·.order.logical.terms) :=
  split_order.within OrderImage.terms_at

theorem split_origin :
    splitLayout.codec.Field originCodec 128 (·.order.logical.origin) :=
  split_order.within OrderImage.origin_at

theorem split_ends :
    splitLayout.codec.Field endsCodec 192 (·.event.logical.ends) :=
  .map (.behind <| .behind <| .behind <| .front .fst) _

theorem Flat.OrderImage.terms_at :
    Flat.OrderImage.codec.Field termsCodec 0 (·.logical.terms) :=
  .map (.front <| .front <| .front <| .front <| .front .fst) _

theorem Flat.OrderImage.origin_at :
    Flat.OrderImage.codec.Field originCodec 40 (·.logical.origin) :=
  .map (.behind <| .behind <| .behind <| .behind <| .behind <| .behind <|
    .behind <| .behind <| .behind <| .front <| .front .whole) _

theorem flat_type :
    Flat.layout.codec.Field .uint8 0 Flat.DatasetRecord.eventType :=
  .map .fst _

theorem flat_order :
    Flat.layout.codec.Field Flat.OrderImage.codec 64 Flat.DatasetRecord.order :=
  .map (.behind <| .behind .fst) _

theorem flat_terms :
    Flat.layout.codec.Field termsCodec 64 (·.order.logical.terms) :=
  flat_order.within Flat.OrderImage.terms_at

theorem flat_origin :
    Flat.layout.codec.Field originCodec 104 (·.order.logical.origin) :=
  flat_order.within Flat.OrderImage.origin_at

theorem flat_ends :
    Flat.layout.codec.Field endsCodec 152 (·.event.logical.ends) :=
  .map (.behind <| .behind <| .behind .whole) _

theorem flat_side : Flat.layout.codec.Field .uint8 84 (·.order.side) :=
  flat_order.within (.map (.behind <| .behind <| .behind .fst) _)

theorem flat_tif : Flat.layout.codec.Field .uint8 85 (·.order.tif) :=
  flat_order.within (.map (.behind <| .behind <| .behind <| .behind .fst) _)

/-- Any call that returns has read the events that were written. -/
def Unconfused {Event : Type} (result : Except RuntimeError (List Event))
    (logical : Event → LogicalEvent) (written : List LogicalEvent) : Prop :=
  ∀ returned, result = .ok returned → returned.map logical = written

theorem unconfused_flat {path : String} {config : DatasetConfig}
    {padding : Nat → UInt8} {events : List Flat.EventImage}
    (fits : events.length < 2 ^ 64) :
    Unconfused
      (readFromFile path (some (Flat.writeToFile config padding events))).result
      EventImage.logical (events.map Flat.EventImage.logical) := by
  have made : (Flat.records padding events).length < 2 ^ 64 := by
    rw [Flat.length_records]
    exact fits
  rw [Flat.writeToFile]
  intro returned read
  obtain ⟨readable, same⟩ := (readFromFile_throws path _).of_ok read
  have room := (RecordLayout.headerFor_write made).mp
    readable.toHeaderFor
  rw [Flat.length_records, Flat.layout_width, splitLayout_width,
    Flat.DatasetRecord.size, DatasetRecord.size] at room
  have empty : events = [] := List.length_eq_zero_iff.mp (by omega)
  rw [same, RecordLayout.count_write made, Flat.length_records, empty]
  rfl

section Written

variable (padding : Nat → Vector UInt8 48) (events : List EventImage)

/-- The byte at a position of the records of the events, one behind the
other. -/
def memoryByte (position : Nat) : UInt8 :=
  byteAt splitLayout.codec (recordsOf padding events) position

/-- The same bytes stand at two places. -/
def SameBytes (first second width : Nat) : Prop :=
  ∀ position, position < width →
    memoryByte padding events (first + position) =
      memoryByte padding events (second + position)

/-- The bytes where the flat reader looks for the enumerators of a record are
out of range. -/
def FlatRefuses (index : Nat) : Prop :=
  memoryByte padding events (index * 168) > EventType.replace.toByte ∨
    memoryByte padding events (index * 168) = EventType.newOrder.toByte ∧
      (memoryByte padding events (index * 168 + 84) > Side.sell.toByte ∨
        memoryByte padding events (index * 168 + 85) > TimeInForce.fok.toByte)

/-- The bytes where the flat reader looks for an event are those of the
event. -/
structure FlatCoincides (index : Nat) : Prop where
  type : SameBytes padding events (index * 168) (index * 256) 1
  terms : SameBytes padding events (index * 168 + 64) (index * 256 + 64) 23
  origin : SameBytes padding events (index * 168 + 104) (index * 256 + 128) 48
  ends : SameBytes padding events (index * 168 + 152) (index * 256 + 192) 16

variable {padding events}

theorem getD_writeRecords (position : Nat) :
    (writeRecords padding events).getD position 0 =
      memoryByte padding events position := by
  rw [writeRecords, getD_writeAll _ splitLayout_positive, memoryByte]

theorem room_writeRecords {index width : Nat} (inside : index < events.length)
    (narrow : width ≤ 256) :
    (index + 1) * width ≤ (writeRecords padding events).length := by
  rw [writeRecords, length_writeAll, length_recordsOf]
  exact Nat.mul_le_mul inside narrow

/-- The record that the flat reader finds at an index. -/
def flatRecord (padding : Nat → Vector UInt8 48) (events : List EventImage)
    (index : Nat) : Flat.DatasetRecord :=
  Records.recordAt Flat.layout.codec (writeRecords padding events) index

theorem flatRecord_valid {index : Nat} (inside : index < events.length) :
    Flat.layout.Valid (flatRecord padding events index) ↔
      ¬ FlatRefuses padding events index := by
  have room : (index + 1) * Flat.layout.codec.width ≤
      (writeRecords padding events).length :=
    room_writeRecords inside (by decide)
  have type := recordAt_byte flat_type room
  have side := recordAt_byte flat_side room
  have tif := recordAt_byte flat_tif room
  rw [getD_writeRecords] at type side tif
  rw [RecordLayout.valid_iff]
  change ¬ ((flatRecord padding events index).eventType > _ ∨
    (flatRecord padding events index).eventType = _ ∧
      ((flatRecord padding events index).order.side > _ ∨
        (flatRecord padding events index).order.tif > _)) ↔ _
  rw [flatRecord, type, side, tif]
  rfl

theorem sameField_iff {Part : Type} {part : Codec Part}
    {get : Flat.DatasetRecord → Part} {splitGet : DatasetRecord → Part}
    {offset splitOffset index : Nat} (width : Nat)
    (flat : Flat.layout.codec.Field part offset get)
    (split : splitLayout.codec.Field part splitOffset splitGet)
    (wide : part.width = width) (inside : index < events.length) :
    get (flatRecord padding events index) =
        splitGet (events[index].record (padding index)) ↔
      SameBytes padding events (index * 168 + offset)
        (index * 256 + splitOffset) width := by
  have same := recordAt_field_iff flat split
    (@room_writeRecords padding events _ Flat.layout.codec.width inside
      (by decide))
    (@room_writeRecords padding events _ splitLayout.codec.width inside
      (by decide))
  have written := @recordAt_writeRecords padding index events inside
  simp only [getD_writeRecords, wide] at same
  rw [← written]
  exact same

theorem flat_event_iff {record : Flat.DatasetRecord} {event : EventImage}
    {padding : Vector UInt8 48} (valid : Flat.layout.Valid record) :
    record.event.logical = event.logical ↔
      record.eventType = (event.record padding).eventType ∧
        record.order.logical.terms =
          (event.record padding).order.logical.terms ∧
        record.order.logical.origin =
          (event.record padding).order.logical.origin ∧
        record.event.logical.ends =
          (event.record padding).event.logical.ends := by
  have type := @EventType.ofByte_eq_iff record.eventType event.type valid.type
  rw [LogicalEvent.eq_iff]
  exact and_congr type Iff.rfl

theorem flatRecord_event {index : Nat} (inside : index < events.length)
    (kept : ¬ FlatRefuses padding events index) :
    (flatRecord padding events index).event.logical = events[index].logical ↔
      FlatCoincides padding events index := by
  have valid := (flatRecord_valid inside).mpr kept
  rw [@flat_event_iff _ _ (padding index) valid,
    sameField_iff 1 flat_type split_type rfl inside,
    sameField_iff 23 flat_terms split_terms rfl inside,
    sameField_iff 48 flat_origin split_origin rfl inside,
    sameField_iff 16 flat_ends split_ends rfl inside, Nat.add_zero,
    Nat.add_zero]
  constructor
  · intro ⟨type, terms, origin, ends⟩
    exact { type, terms, origin, ends }
  · intro same
    exact ⟨same.type, same.terms, same.origin, same.ends⟩

theorem flat_readFromFile_writeToFile {config : DatasetConfig}
    (fits : events.length < 2 ^ 64) (path : String) :
    Throws
      (Flat.readFromFile path (some (writeToFile config padding events))).result
      (∀ index, index < events.length → ¬ FlatRefuses padding events index)
      ((List.range events.length).map fun index =>
        (flatRecord padding events index).event) := by
  have made : (recordsOf padding events).length < 2 ^ 64 := by
    rw [length_recordsOf]
    exact fits
  have count :
      (headerOf (writeToFile config padding events)).eventCount.toNat =
        events.length := by
    rw [writeToFile, RecordLayout.count_write made, length_recordsOf]
  have header : HeaderFor Flat.layout.codec.width
      (writeToFile config padding events) := by
    rw [writeToFile, RecordLayout.headerFor_write made,
      length_recordsOf, Flat.layout_width, splitLayout_width,
      Flat.DatasetRecord.size, DatasetRecord.size]
    omega
  have reads := RecordLayout.readFromFile_throws Flat.layout_positive path
    (writeToFile config padding events)
  rw [recordBytes_writeToFile, count] at reads
  apply reads.congr
  constructor
  · intro kept
    refine { header with records := ?_ }
    intro index inside
    rw [count] at inside
    rw [recordBytes_writeToFile]
    exact (flatRecord_valid inside).mpr (kept index inside)
  · intro readable index inside
    have valid := readable.records index (by rw [count]; exact inside)
    rw [recordBytes_writeToFile] at valid
    exact (flatRecord_valid inside).mp valid

variable (padding events)

/-- The flat reader refuses a record, or finds every event where it looks. -/
def SplitToldApart : Prop :=
  (∃ index, index < events.length ∧ FlatRefuses padding events index) ∨
    ∀ index, index < events.length → FlatCoincides padding events index

variable {padding events}

theorem unconfused_split_iff {path : String} {config : DatasetConfig}
    (fits : events.length < 2 ^ 64) :
    Unconfused
        (Flat.readFromFile path
          (some (writeToFile config padding events))).result
        Flat.EventImage.logical (events.map EventImage.logical) ↔
      SplitToldApart padding events := by
  have reads := @flat_readFromFile_writeToFile padding events config fits path
  by_cases kept : ∀ index, index < events.length →
      ¬ FlatRefuses padding events index
  · have found : ((List.range events.length).map fun index =>
          (flatRecord padding events index).event).map
            Flat.EventImage.logical = events.map EventImage.logical ↔
        ∀ index, index < events.length →
          FlatCoincides padding events index := by
      rw [List.map_map, List.ext_getElem_iff]
      simp only [List.length_map, List.length_range, List.getElem_map,
        List.getElem_range, true_and]
      constructor
      · intro same index inside
        exact (flatRecord_event inside (kept index inside)).mp
          (same index inside inside)
      · intro coincides index inside _
        exact (flatRecord_event inside (kept index inside)).mpr
          (coincides index inside)
    have read := reads.accepts kept
    constructor
    · intro unconfused
      exact .inr (found.mp (unconfused _ read))
    · rintro (⟨index, inside, refuses⟩ | coincides) returned same
      · exact absurd refuses (kept index inside)
      · rw [read] at same
        cases same
        exact found.mpr coincides
  · constructor
    · intro _
      push Not at kept
      exact .inl kept
    · intro _ returned same
      exact absurd (reads.of_ok same).1 kept

end Written

/-- A list of events, in the layout of the build that writes it. -/
inductive WrittenDataset where
  | split (padding : Nat → Vector UInt8 48) (events : List EventImage)
  | flat (padding : Nat → UInt8) (events : List Flat.EventImage)

namespace WrittenDataset

def length : WrittenDataset → Nat
  | split _ events => events.length
  | flat _ events => events.length

/-- The other build throws, or reads the events that were written. -/
def CrossRead (path : String) (config : DatasetConfig) :
    WrittenDataset → Prop
  | split padding events =>
      Unconfused
        (Flat.readFromFile path
          (some (writeToFile config padding events))).result
        Flat.EventImage.logical (events.map EventImage.logical)
  | flat padding events =>
      Unconfused
        (readFromFile path
          (some (Flat.writeToFile config padding events))).result
        EventImage.logical (events.map Flat.EventImage.logical)

/-- The other build refuses the file, or finds the same events in it. -/
def ToldApart : WrittenDataset → Prop
  | split padding events => SplitToldApart padding events
  | flat _ _ => True

end WrittenDataset

/-- A new order, as the generator makes it. -/
def plainOrder : EventImage where
  type := .newOrder
  order :=
    { (default : OrderImage) with
      orderId := 1
      price := 100
      qty := 5
      timestampNs := 1000
      clientId := 1 }
  cancelOrderId := 0
  arrivalOffsetNs := 1000

def plainDataset : WrittenDataset :=
  .split (fun _ => Vector.replicate 48 0) [plainOrder]

/-- The flat reader takes the links and the padding of the order for its
client and its times. -/
theorem layouts_confused :
    ¬ plainDataset.CrossRead "dataset.bin" sampleConfig := by
  have kept : ∀ index, index < [plainOrder].length →
      ¬ FlatRefuses (fun _ => Vector.replicate 48 0) [plainOrder] index := by
    intro index inside
    cases Nat.lt_one_iff.mp inside
    unfold FlatRefuses
    decide
  have reads := @flat_readFromFile_writeToFile
    (fun _ => Vector.replicate 48 0) [plainOrder] sampleConfig (by decide)
    "dataset.bin"
  intro unconfused
  have same := unconfused _ (reads.accepts kept)
  have clients := congrArg (List.map (·.order.clientId)) same
  revert clients
  decide

/-- A build does not confuse a file of the other layout if and only if the file
is flat, or the bytes of its events give it away, or the flat reader finds the
bytes of every event where it looks for them. -/
theorem layouts_apart_iff {dataset : WrittenDataset}
    (fits : dataset.length < 2 ^ 64) (path : String)
    (config : DatasetConfig) :
    dataset.CrossRead path config ↔ dataset.ToldApart := by
  cases dataset with
  | split padding events => exact unconfused_split_iff fits
  | flat padding events => exact iff_true_intro (unconfused_flat fits)

theorem layouts_apart_plain :
    plainDataset.CrossRead "dataset.bin" sampleConfig ↔
      plainDataset.ToldApart :=
  layouts_apart_iff (by decide) "dataset.bin" sampleConfig

end Hydra
