import Hydra.Dataset.File

/-!
# Datasets of the flat layout

The build with the flat layout has an `Order` without cache lines of its own:
the same fields one behind the other, 88 bytes instead of 128.  Its dataset
records take 168 bytes instead of 256.  Its files have the same header, and its
reader and its writer are otherwise the same.
-/

namespace Hydra

/-- The fields of an order that do not depend on the layout. -/
structure LogicalOrder where
  orderId : UInt64
  price : Int64
  qty : UInt32
  side : UInt8
  tif : UInt8
  eventTag : UInt8
  timestampNs : UInt64
  clientId : UInt64
  clientTag : Vector UInt8 32
  deriving DecidableEq

/-- What an event says, wherever its fields lie in memory. -/
structure LogicalEvent where
  type : EventType
  order : LogicalOrder
  cancelOrderId : UInt64
  arrivalOffsetNs : UInt64
  deriving DecidableEq

def OrderImage.logical (order : OrderImage) : LogicalOrder where
  orderId := order.orderId
  price := order.price
  qty := order.qty
  side := order.side
  tif := order.tif
  eventTag := order.eventTag
  timestampNs := order.timestampNs
  clientId := order.clientId
  clientTag := order.clientTag

def EventImage.logical (event : EventImage) : LogicalEvent where
  type := event.type
  order := event.order.logical
  cancelOrderId := event.cancelOrderId
  arrivalOffsetNs := event.arrivalOffsetNs

namespace Flat

/-- The memory of an order; `padding` is what the alignment leaves in front of
the links. -/
structure OrderImage where
  orderId : UInt64
  price : Int64
  qty : UInt32
  side : UInt8
  tif : UInt8
  eventTag : UInt8
  padding : UInt8
  prev : UInt64
  next : UInt64
  timestampNs : UInt64
  clientId : UInt64
  clientTag : Vector UInt8 32
  deriving DecidableEq

namespace OrderImage

def fields :
    UInt64 × Int64 × UInt32 × UInt8 × UInt8 × UInt8 × UInt8 × UInt64 ×
      UInt64 × UInt64 × UInt64 × Vector UInt8 32 ≃ OrderImage where
  toFun
    | (orderId, price, qty, side, tif, eventTag, padding, prev, next,
        timestampNs, clientId, clientTag) =>
        { orderId, price, qty, side, tif, eventTag, padding, prev, next,
          timestampNs, clientId, clientTag }
  invFun order :=
    (order.orderId, order.price, order.qty, order.side, order.tif,
      order.eventTag, order.padding, order.prev, order.next,
      order.timestampNs, order.clientId, order.clientTag)
  left_inv _ := rfl
  right_inv _ := rfl

def codec : Codec OrderImage :=
  Codec.map
    (.pair .uint64 <| .pair .int64 <| .pair .uint32 <| .pair .uint8 <|
      .pair .uint8 <| .pair .uint8 <| .pair .uint8 <| .pair .uint64 <|
      .pair .uint64 <| .pair .uint64 <| .pair .uint64 <| .vector 32)
    fields

def logical (order : OrderImage) : LogicalOrder where
  orderId := order.orderId
  price := order.price
  qty := order.qty
  side := order.side
  tif := order.tif
  eventTag := order.eventTag
  timestampNs := order.timestampNs
  clientId := order.clientId
  clientTag := order.clientTag

end OrderImage

/-- An event with all bytes of its order. -/
structure EventImage where
  type : EventType
  order : OrderImage
  cancelOrderId : UInt64
  arrivalOffsetNs : UInt64
  deriving DecidableEq

def EventImage.logical (event : EventImage) : LogicalEvent where
  type := event.type
  order := event.order.logical
  cancelOrderId := event.cancelOrderId
  arrivalOffsetNs := event.arrivalOffsetNs

/-- An event as the flat build writes it. -/
structure DatasetRecord where
  eventType : UInt8
  reserved0 : Vector UInt8 63
  order : OrderImage
  cancelOrderId : UInt64
  arrivalOffsetNs : UInt64
  deriving DecidableEq

namespace DatasetRecord

def fields :
    UInt8 × Vector UInt8 63 × OrderImage × UInt64 × UInt64 ≃
      DatasetRecord where
  toFun
    | (eventType, reserved0, order, cancelOrderId, arrivalOffsetNs) =>
        { eventType, reserved0, order, cancelOrderId, arrivalOffsetNs }
  invFun record :=
    (record.eventType, record.reserved0, record.order, record.cancelOrderId,
      record.arrivalOffsetNs)
  left_inv _ := rfl
  right_inv _ := rfl

def size : Nat := 168

def codec : Codec DatasetRecord :=
  Codec.map
    (.pair .uint8 <| .pair (.vector 63) <| .pair OrderImage.codec <|
      .pair .uint64 .uint64)
    fields

theorem width_codec : codec.width = size := rfl

/-- The event of a record. -/
def event (record : DatasetRecord) : EventImage where
  type := .ofByte record.eventType
  order := record.order
  cancelOrderId := record.cancelOrderId
  arrivalOffsetNs := record.arrivalOffsetNs

end DatasetRecord

def layout : RecordLayout DatasetRecord EventImage where
  codec := DatasetRecord.codec
  eventType := DatasetRecord.eventType
  side record := record.order.side
  tif record := record.order.tif
  event := DatasetRecord.event

theorem layout_width : layout.codec.width = DatasetRecord.size :=
  DatasetRecord.width_codec

theorem layout_positive : 0 < layout.codec.width := by
  rw [layout_width]
  decide

/-- The record of an event; what the assignment leaves in the padding of the
order is arbitrary. -/
def EventImage.record (event : EventImage) (padding : UInt8) :
    DatasetRecord where
  eventType := event.type.toByte
  reserved0 := Vector.replicate 63 0
  order := { event.order with padding := padding }
  cancelOrderId := event.cancelOrderId
  arrivalOffsetNs := event.arrivalOffsetNs

def records (padding : Nat → UInt8) (events : List EventImage) :
    List DatasetRecord :=
  events.mapIdx fun index event => event.record (padding index)

def writeToFile (config : DatasetConfig) (padding : Nat → UInt8)
    (events : List EventImage) : List UInt8 :=
  layout.write config (records padding events)

def readFromFile (path : String) (file : Option (List UInt8)) :
    Reading EventImage :=
  layout.readFromFile path file

theorem length_records {padding : Nat → UInt8} {events : List EventImage} :
    (records padding events).length = events.length :=
  List.length_mapIdx

/-- The enumerators that the order of a new-order event needs. -/
def EventImage.InRange (event : EventImage) : Prop :=
  event.type = .newOrder → event.order.side ≤ Side.sell.toByte ∧
    event.order.tif ≤ TimeInForce.fok.toByte

theorem EventImage.InRange.valid {event : EventImage} (inRange : event.InRange)
    (padding : UInt8) : layout.Valid (event.record padding) :=
  .ofType rfl inRange

theorem EventImage.logical_record (event : EventImage) (padding : UInt8) :
    (event.record padding).event.logical = event.logical := by
  rw [record, DatasetRecord.event, EventType.ofByte_toByte]
  rfl

/-- The flat build reads what it has written. -/
theorem readFromFile_writeToFile {path : String} {config : DatasetConfig}
    {padding : Nat → UInt8} {events : List EventImage}
    (fits : events.length < 2 ^ 64)
    (inRange : ∀ event ∈ events, EventImage.InRange event) :
    ∃ returned, (readFromFile path
        (some (writeToFile config padding events))).result = .ok returned ∧
      returned.map EventImage.logical = events.map EventImage.logical := by
  have made : (records padding events).length < 2 ^ 64 := by
    rw [length_records]
    exact fits
  have valid : ∀ record ∈ records padding events, layout.Valid record := by
    intro record listed
    obtain ⟨index, inside, rfl⟩ := List.mem_mapIdx.mp listed
    exact (inRange _ (List.getElem_mem inside)).valid _
  refine ⟨_, RecordLayout.readFromFile_write layout_positive made valid, ?_⟩
  rw [List.map_map]
  apply List.ext_getElem
  · rw [List.length_map, List.length_map, length_records]
  · intro index listed inside
    rw [List.getElem_map, List.getElem_map]
    simp only [records, List.getElem_mapIdx]
    exact EventImage.logical_record _ _

end Flat

end Hydra
