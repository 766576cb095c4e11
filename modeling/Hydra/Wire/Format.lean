import Hydra.Library.Codec
import Hydra.Types

/-!
# Frames and order messages

What the two parsers of a frame share: reads from a byte string, the byte order
of the network, and the message `OrderWireFormat`.  The host stores the low
byte of a number first.
-/

namespace Hydra

open Bytes

/-- Why a parser stops: a check fails, a byte outside of the frame is read, or
a byte is taken as an enumerator that does not exist. -/
inductive Stop where
  | reject
  | outOfBounds
  | badEnumerator
  deriving DecidableEq

/-- A failing check.  The parser returns without a result. -/
def rejectIf (condition : Prop) [Decidable condition] : Except Stop Unit :=
  if condition then .error .reject else .ok ()

/-- `detail::rd`, the number in the bytes from an offset on. -/
def rd (width : Nat) (bytes : List UInt8) (offset : Nat) : Except Stop Nat :=
  if offset + width ≤ bytes.length then
    .ok (ofLittleEndian (slice bytes offset width))
  else
    .error .outOfBounds

def htons (value : Nat) : Nat := swapped 2 value

def ntohs (value : Nat) : Nat := swapped 2 value

def htonl (value : UInt32) : UInt32 := .ofNat (swapped 4 value.toNat)

def ntohl (value : UInt32) : UInt32 := .ofNat (swapped 4 value.toNat)

def htobe64 (value : UInt64) : UInt64 := .ofNat (swapped 8 value.toNat)

def be64toh (value : UInt64) : UInt64 := .ofNat (swapped 8 value.toNat)

theorem ntohl_htonl (value : UInt32) : ntohl (htonl value) = value := by
  have bound := swapped_lt 4 value.toNat
  rw [ntohl, htonl, UInt32.toNat_ofNat_of_lt' bound,
    swapped_swapped value.toNat_lt, UInt32.ofNat_toNat]

theorem htonl_ntohl (value : UInt32) : htonl (ntohl value) = value :=
  ntohl_htonl value

theorem be64toh_htobe64 (value : UInt64) : be64toh (htobe64 value) = value := by
  have bound := swapped_lt 8 value.toNat
  rw [be64toh, htobe64, UInt64.toNat_ofNat_of_lt' bound,
    swapped_swapped value.toNat_lt, UInt64.ofNat_toNat]

theorem htobe64_be64toh (value : UInt64) : htobe64 (be64toh value) = value :=
  be64toh_htobe64 value

/-- A received frame; `frame_len` has 32 bits. -/
structure Frame where
  bytes : List UInt8
  fits : bytes.length < 2 ^ 32

def ethPIp : Nat := 0x0800

def ethP8021Q : Nat := 0x8100

def ethP8021AD : Nat := 0x88A8

def ipprotoUdp : Nat := 17

def sizeofEthhdr : Nat := 14

def sizeofVlanTag : Nat := 4

def sizeofIphdr : Nat := 20

def sizeofUdphdr : Nat := 8

/-- `IP_MF | IP_OFFMASK`. -/
def fragmentBits : Nat := 0x2000 ||| 0x1FFF

def afxdpOrderEntryUdpPort : Nat := 40000

def Side.toByte : Side → UInt8
  | buy => 0
  | sell => 1

def Side.ofByte (byte : UInt8) : Except Stop Side :=
  if byte = 0 then .ok buy
  else if byte = 1 then .ok sell
  else .error .badEnumerator

def TimeInForce.toByte : TimeInForce → UInt8
  | gtc => 0
  | ioc => 1
  | fok => 2

def TimeInForce.ofByte (byte : UInt8) : Except Stop TimeInForce :=
  if byte = 0 then .ok gtc
  else if byte = 1 then .ok ioc
  else if byte = 2 then .ok fok
  else .error .badEnumerator

theorem Side.ofByte_toByte (side : Side) : ofByte side.toByte = .ok side := by
  cases side <;> rfl

theorem TimeInForce.ofByte_toByte (tif : TimeInForce) :
    ofByte tif.toByte = .ok tif := by
  cases tif <;> rfl

theorem Side.toByte_le (side : Side) : side.toByte ≤ sell.toByte := by
  cases side <;> decide

theorem TimeInForce.toByte_le (tif : TimeInForce) :
    tif.toByte ≤ fok.toByte := by
  cases tif <;> decide

theorem Side.exists_ofByte {byte : UInt8} (inRange : byte ≤ sell.toByte) :
    ∃ side, ofByte byte = .ok side ∧ side.toByte = byte := by
  rw [UInt8.le_iff_toNat_le] at inRange
  have possible : byte.toNat = 0 ∨ byte.toNat = 1 := by
    change byte.toNat ≤ 1 at inRange
    omega
  rcases possible with zero | one
  · obtain rfl : byte = 0 := UInt8.toNat_inj.mp zero
    exact ⟨buy, rfl, rfl⟩
  · obtain rfl : byte = 1 := UInt8.toNat_inj.mp one
    exact ⟨sell, rfl, rfl⟩

theorem TimeInForce.exists_ofByte {byte : UInt8}
    (inRange : byte ≤ fok.toByte) :
    ∃ tif, ofByte byte = .ok tif ∧ tif.toByte = byte := by
  rw [UInt8.le_iff_toNat_le] at inRange
  have possible : byte.toNat = 0 ∨ byte.toNat = 1 ∨ byte.toNat = 2 := by
    change byte.toNat ≤ 2 at inRange
    omega
  rcases possible with zero | one | two
  · obtain rfl : byte = 0 := UInt8.toNat_inj.mp zero
    exact ⟨gtc, rfl, rfl⟩
  · obtain rfl : byte = 1 := UInt8.toNat_inj.mp one
    exact ⟨ioc, rfl, rfl⟩
  · obtain rfl : byte = 2 := UInt8.toNat_inj.mp two
    exact ⟨fok, rfl, rfl⟩

/-- One order-entry message, its numbers in the byte order of the network. -/
structure OrderWireFormat where
  orderId : UInt64
  price : Int64
  qty : UInt32
  clientId : UInt64
  side : UInt8
  tif : UInt8
  deriving DecidableEq

namespace OrderWireFormat

def size : Nat := 30

def offsetOrderId : Nat := 0

def offsetPrice : Nat := 8

def offsetQty : Nat := 16

def offsetClientId : Nat := 20

def offsetSide : Nat := 28

def offsetTif : Nat := 29

def fields : UInt64 × Int64 × UInt32 × UInt64 × UInt8 × UInt8 ≃
    OrderWireFormat where
  toFun
    | (orderId, price, qty, clientId, side, tif) =>
        { orderId, price, qty, clientId, side, tif }
  invFun wire :=
    (wire.orderId, wire.price, wire.qty, wire.clientId, wire.side, wire.tif)
  left_inv _ := rfl
  right_inv _ := rfl

/-- The packed layout. -/
def codec : Codec OrderWireFormat :=
  Codec.map
    (.pair .uint64 <| .pair .int64 <| .pair .uint32 <| .pair .uint64 <|
      .pair .uint8 .uint8)
    fields

theorem codec_width : codec.width = size := rfl

/-- The fields are at the offsets of the packed layout. -/
theorem decode_codec (bytes : List UInt8) :
    codec.decode bytes =
      { orderId := .ofNat (ofLittleEndian (slice bytes offsetOrderId 8))
        price := (UInt64.ofNat
          (ofLittleEndian (slice bytes offsetPrice 8))).toInt64
        qty := .ofNat (ofLittleEndian (slice bytes offsetQty 4))
        clientId := .ofNat (ofLittleEndian (slice bytes offsetClientId 8))
        side := .ofNat (ofLittleEndian (slice bytes offsetSide 1))
        tif := .ofNat (ofLittleEndian (slice bytes offsetTif 1)) } := by
  change OrderWireFormat.mk
    (Codec.uint64.decode (bytes.take 8))
    (Codec.int64.decode ((bytes.drop 8).take 8))
    (Codec.uint32.decode (((bytes.drop 8).drop 8).take 4))
    (Codec.uint64.decode ((((bytes.drop 8).drop 8).drop 4).take 8))
    (Codec.uint8.decode (((((bytes.drop 8).drop 8).drop 4).drop 8).take 1))
    (Codec.uint8.decode (((((bytes.drop 8).drop 8).drop 4).drop 8).drop 1)) = _
  simp only [Codec.decode_uint8, List.drop_drop, List.take_take]
  rfl

end OrderWireFormat

/-- The message that a sender builds for an order. -/
def encodeOrder (orderId : UInt64) (price : Int64) (qty : UInt32)
    (clientId : UInt64) (side : Side) (tif : TimeInForce) :
    OrderWireFormat where
  orderId := htobe64 orderId
  price := (htobe64 price.toUInt64).toInt64
  qty := htonl qty
  clientId := htobe64 clientId
  side := side.toByte
  tif := tif.toByte

end Hydra
