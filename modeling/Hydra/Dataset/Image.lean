import Hydra.Dataset.Event
import Hydra.Library.Codec
import Mathlib.Data.List.Basic

/-!
# The images in a dataset file

The records of a dataset file, byte by byte.  An order in a file is the memory
of an `Order`: its enumerators are bytes of any value, and its links and its
padding are carried along.
-/

namespace Hydra

open Bytes

/-- The memory of an order. -/
structure OrderImage where
  orderId : UInt64
  price : Int64
  qty : UInt32
  side : UInt8
  tif : UInt8
  eventTag : UInt8
  hotPadding : Vector UInt8 25
  prev : UInt64
  next : UInt64
  timestampNs : UInt64
  clientId : UInt64
  clientTag : Vector UInt8 32
  coldPadding : Vector UInt8 16
  deriving DecidableEq

namespace OrderImage

/-- `Order{}`. -/
instance : Inhabited OrderImage where
  default :=
    { orderId := 0
      price := 0
      qty := 0
      side := 0
      tif := 0
      eventTag := 0
      hotPadding := Vector.replicate 25 0
      prev := 0
      next := 0
      timestampNs := 0
      clientId := 0
      clientTag := Vector.replicate 32 0
      coldPadding := Vector.replicate 16 0 }

def fields :
    UInt64 × Int64 × UInt32 × UInt8 × UInt8 × UInt8 × Vector UInt8 25 ×
      UInt64 × UInt64 × UInt64 × UInt64 × Vector UInt8 32 × Vector UInt8 16 ≃
    OrderImage where
  toFun
    | (orderId, price, qty, side, tif, eventTag, hotPadding, prev, next,
        timestampNs, clientId, clientTag, coldPadding) =>
        { orderId, price, qty, side, tif, eventTag, hotPadding, prev, next,
          timestampNs, clientId, clientTag, coldPadding }
  invFun order :=
    (order.orderId, order.price, order.qty, order.side, order.tif,
      order.eventTag, order.hotPadding, order.prev, order.next,
      order.timestampNs, order.clientId, order.clientTag, order.coldPadding)
  left_inv _ := rfl
  right_inv _ := rfl

def codec : Codec OrderImage :=
  Codec.map
    (.pair .uint64 <| .pair .int64 <| .pair .uint32 <| .pair .uint8 <|
      .pair .uint8 <| .pair .uint8 <| .pair (.vector 25) <| .pair .uint64 <|
      .pair .uint64 <| .pair .uint64 <| .pair .uint64 <| .pair (.vector 32) <|
      .vector 16)
    fields

end OrderImage

namespace EventType

def toByte : EventType → UInt8
  | newOrder => 0
  | cancel => 1
  | replace => 2

/-- `static_cast<EventType>` of a byte that is in range. -/
def ofByte (byte : UInt8) : EventType :=
  if byte = 0 then newOrder
  else if byte = 1 then cancel
  else replace

theorem ofByte_toByte (type : EventType) : ofByte type.toByte = type := by
  cases type <;> rfl

theorem toByte_ofByte {byte : UInt8} (inRange : byte ≤ replace.toByte) :
    (ofByte byte).toByte = byte := by
  rw [ofByte]
  split
  next zero => exact zero.symm
  next notZero =>
    split
    next one => exact one.symm
    next notOne =>
      rw [UInt8.le_iff_toNat_le] at inRange
      rw [← UInt8.toNat_inj] at notZero notOne ⊢
      change byte.toNat ≤ 2 at inRange
      change ¬ byte.toNat = 0 at notZero
      change ¬ byte.toNat = 1 at notOne
      change 2 = byte.toNat
      omega

theorem ofByte_eq_iff {byte : UInt8} {type : EventType}
    (inRange : byte ≤ replace.toByte) :
    ofByte byte = type ↔ byte = type.toByte := by
  constructor
  · intro same
    rw [← same, toByte_ofByte inRange]
  · intro same
    rw [same, ofByte_toByte]

theorem toByte_le (type : EventType) : type.toByte ≤ replace.toByte := by
  cases type <;> decide

end EventType

/-- A `DatasetEvent` whose order is the memory of an order. -/
structure EventImage where
  type : EventType
  order : OrderImage
  cancelOrderId : UInt64
  arrivalOffsetNs : UInt64
  deriving DecidableEq

/-- The bytes of a floating-point number stand for the number. -/
structure DatasetConfig where
  seed : UInt64
  orderCount : UInt64
  midPrice : Int64
  priceSpreadTicks : Int64
  minQty : UInt32
  maxQty : UInt32
  cancelRatio : UInt64
  arrivalRateHz : UInt64
  iocRatio : UInt64
  fokRatio : UInt64
  replaceRatio : UInt64
  clientIdCount : UInt64
  deriving DecidableEq

namespace DatasetConfig

def fields :
    UInt64 × UInt64 × Int64 × Int64 × UInt32 × UInt32 × UInt64 × UInt64 ×
      UInt64 × UInt64 × UInt64 × UInt64 ≃ DatasetConfig where
  toFun
    | (seed, orderCount, midPrice, priceSpreadTicks, minQty, maxQty,
        cancelRatio, arrivalRateHz, iocRatio, fokRatio, replaceRatio,
        clientIdCount) =>
        { seed, orderCount, midPrice, priceSpreadTicks, minQty, maxQty,
          cancelRatio, arrivalRateHz, iocRatio, fokRatio, replaceRatio,
          clientIdCount }
  invFun config :=
    (config.seed, config.orderCount, config.midPrice, config.priceSpreadTicks,
      config.minQty, config.maxQty, config.cancelRatio, config.arrivalRateHz,
      config.iocRatio, config.fokRatio, config.replaceRatio,
      config.clientIdCount)
  left_inv _ := rfl
  right_inv _ := rfl

def codec : Codec DatasetConfig :=
  Codec.map
    (.pair .uint64 <| .pair .uint64 <| .pair .int64 <| .pair .int64 <|
      .pair .uint32 <| .pair .uint32 <| .pair .uint64 <| .pair .uint64 <|
      .pair .uint64 <| .pair .uint64 <| .pair .uint64 .uint64)
    fields

end DatasetConfig

/-- The header of a dataset file, with the configuration that it was made
from. -/
structure DatasetFileHeader where
  magic : Vector UInt8 8
  formatVersion : UInt32
  reserved0 : UInt32
  eventCount : UInt64
  config : DatasetConfig
  deriving DecidableEq

namespace DatasetFileHeader

def fields :
    Vector UInt8 8 × UInt32 × UInt32 × UInt64 × DatasetConfig ≃
      DatasetFileHeader where
  toFun
    | (magic, formatVersion, reserved0, eventCount, config) =>
        { magic, formatVersion, reserved0, eventCount, config }
  invFun header :=
    (header.magic, header.formatVersion, header.reserved0, header.eventCount,
      header.config)
  left_inv _ := rfl
  right_inv _ := rfl

def size : Nat := 112

def codec : Codec DatasetFileHeader :=
  Codec.map
    (.pair (.vector 8) <| .pair .uint32 <| .pair .uint32 <| .pair .uint64 <|
      DatasetConfig.codec)
    fields

theorem length_encode (header : DatasetFileHeader) :
    (codec.encode header).length = size :=
  codec.length_encode header

end DatasetFileHeader

/-- `padding` is what the alignment leaves behind the last field; it is never
written by name. -/
structure DatasetRecord where
  eventType : UInt8
  reserved0 : Vector UInt8 63
  order : OrderImage
  cancelOrderId : UInt64
  arrivalOffsetNs : UInt64
  padding : Vector UInt8 48
  deriving DecidableEq

namespace DatasetRecord

def fields :
    UInt8 × Vector UInt8 63 × OrderImage × UInt64 × UInt64 × Vector UInt8 48 ≃
      DatasetRecord where
  toFun
    | (eventType, reserved0, order, cancelOrderId, arrivalOffsetNs, padding) =>
        { eventType, reserved0, order, cancelOrderId, arrivalOffsetNs, padding }
  invFun record :=
    (record.eventType, record.reserved0, record.order, record.cancelOrderId,
      record.arrivalOffsetNs, record.padding)
  left_inv _ := rfl
  right_inv _ := rfl

def size : Nat := 256

def codec : Codec DatasetRecord :=
  Codec.map
    (.pair .uint8 <| .pair (.vector 63) <| .pair OrderImage.codec <|
      .pair .uint64 <| .pair .uint64 <| .vector 48)
    fields

theorem width_codec : codec.width = size := rfl

end DatasetRecord

end Hydra
