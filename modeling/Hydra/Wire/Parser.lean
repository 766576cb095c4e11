import Hydra.Library.Checks
import Hydra.Wire.Format

/-!
# The parser of order frames

`parse_order_zero_copy`: its checks on the shape of a frame, its checks on the
order message, and the exact condition under which each part returns.  No read
is outside of the frame.
-/

namespace Hydra

open Bytes Checks

/-- One VLAN tag is unwrapped; gives the EtherType and the offset behind it. -/
def skipVlanTag (bytes : List UInt8) (ethertype offset : Nat) :
    Except Stop (Nat × Nat) :=
  if ethertype = htons ethP8021Q ∨ ethertype = htons ethP8021AD then do
    rejectIf (bytes.length < offset + sizeofVlanTag)
    let encapsulatedProto ← rd 2 bytes (offset + 2)
    return (encapsulatedProto, offset + sizeofVlanTag)
  else
    return (ethertype, offset)

/-- The checks in front of the order message; gives its offset. -/
def locateWire (bytes : List UInt8) : Except Stop Nat := do
  rejectIf (bytes.length < sizeofEthhdr)
  let hProto ← rd 2 bytes 12
  let (ethertype, offset) ← skipVlanTag bytes hProto sizeofEthhdr
  rejectIf (ethertype ≠ htons ethPIp)
  rejectIf (bytes.length < offset + sizeofIphdr)
  let versionIhl ← rd 1 bytes offset
  rejectIf (versionIhl >>> 4 ≠ 4)
  let ipHdrLen := (versionIhl &&& 0x0F) * 4
  rejectIf (ipHdrLen < sizeofIphdr ∨ bytes.length < offset + ipHdrLen)
  let protocol ← rd 1 bytes (offset + 9)
  rejectIf (protocol ≠ ipprotoUdp)
  let fragOff ← rd 2 bytes (offset + 6)
  rejectIf (ntohs fragOff &&& fragmentBits ≠ 0)
  let ipTotLen ← rd 2 bytes (offset + 2)
  rejectIf (ntohs ipTotLen < ipHdrLen + sizeofUdphdr + OrderWireFormat.size ∨
    bytes.length < offset + ntohs ipTotLen)
  let udpOff := offset + ipHdrLen
  rejectIf (bytes.length < udpOff + sizeofUdphdr)
  let udpDest ← rd 2 bytes (udpOff + 2)
  rejectIf (ntohs udpDest ≠ afxdpOrderEntryUdpPort)
  let udpLen ← rd 2 bytes (udpOff + 4)
  rejectIf (ntohs udpLen < sizeofUdphdr + OrderWireFormat.size)
  let wireOff := udpOff + sizeofUdphdr
  rejectIf (bytes.length < wireOff + OrderWireFormat.size)
  return wireOff

/-- The order message at an offset. -/
def readWire (bytes : List UInt8) (wireOff : Nat) :
    Except Stop OrderWireFormat := do
  let orderId ← rd 8 bytes (wireOff + OrderWireFormat.offsetOrderId)
  let price ← rd 8 bytes (wireOff + OrderWireFormat.offsetPrice)
  let qty ← rd 4 bytes (wireOff + OrderWireFormat.offsetQty)
  let clientId ← rd 8 bytes (wireOff + OrderWireFormat.offsetClientId)
  let side ← rd 1 bytes (wireOff + OrderWireFormat.offsetSide)
  let tif ← rd 1 bytes (wireOff + OrderWireFormat.offsetTif)
  return {
    orderId := .ofNat orderId
    price := (UInt64.ofNat price).toInt64
    qty := .ofNat qty
    clientId := .ofNat clientId
    side := .ofNat side
    tif := .ofNat tif }

/-- The fields of an order message are checked and written to `out`. -/
def acceptWire (wire : OrderWireFormat) (out : Order) : Except Stop Order := do
  rejectIf (wire.side > Side.sell.toByte ∨ wire.tif > TimeInForce.fok.toByte ∨
    ntohl wire.qty = 0)
  let side ← Side.ofByte wire.side
  let tif ← TimeInForce.ofByte wire.tif
  return { out with
    orderId := be64toh wire.orderId
    price := (be64toh wire.price.toUInt64).toInt64
    qty := ntohl wire.qty
    side := side
    tif := tif
    clientId := be64toh wire.clientId }

/-- What a caller sees: a check that fails returns false and leaves `out`
alone. -/
def returnBool (out : Order) : Except Stop Order → Except Stop (Bool × Order)
  | .ok order => .ok (true, order)
  | .error .reject => .ok (false, out)
  | .error fault => .error fault

/-- `none` is the null pointer. -/
def parseOrderZeroCopy (frame : Option Frame) (out : Order) :
    Except Stop (Bool × Order) :=
  returnBool out
    (match frame with
    | none => .error .reject
    | some frame => do
        let wireOff ← locateWire frame.bytes
        let wire ← readWire frame.bytes wireOff
        acceptWire wire out)

/-- The number in some bytes, in the byte order of the network. -/
def wordAt (bytes : List UInt8) (offset width : Nat) : Nat :=
  ofBigEndian (slice bytes offset width)

def Tagged (bytes : List UInt8) : Prop :=
  wordAt bytes 12 2 = ethP8021Q ∨ wordAt bytes 12 2 = ethP8021AD

instance (bytes : List UInt8) : Decidable (Tagged bytes) :=
  inferInstanceAs (Decidable (_ ∨ _))

/-- Where the IPv4 header starts. -/
def ipOffset (bytes : List UInt8) : Nat :=
  if Tagged bytes then sizeofEthhdr + sizeofVlanTag else sizeofEthhdr

def ipHeaderLength (bytes : List UInt8) : Nat :=
  (wordAt bytes (ipOffset bytes) 1 &&& 0x0F) * 4

def udpOffset (bytes : List UInt8) : Nat :=
  ipOffset bytes + ipHeaderLength bytes

def ipTotalLength (bytes : List UInt8) : Nat :=
  wordAt bytes (ipOffset bytes + 2) 2

/-- The checks of a frame up to its IPv4 header: the EtherType in front of the
header says IPv4, and the header is inside of the frame. -/
structure HoldsIpv4 (bytes : List UInt8) : Prop where
  room : ipOffset bytes + sizeofIphdr ≤ bytes.length
  ethertype : wordAt bytes (ipOffset bytes - 2) 2 = ethPIp
  headerRoom : sizeofIphdr ≤ ipHeaderLength bytes
  headerInside : udpOffset bytes ≤ bytes.length

/-- The IPv4 packet is a whole UDP datagram for the port of the order entry,
and claims to be long enough for an order message. -/
structure HoldsDatagram (bytes : List UInt8) :
    Prop extends HoldsIpv4 bytes where
  udp : wordAt bytes (ipOffset bytes + 9) 1 = ipprotoUdp
  whole : wordAt bytes (ipOffset bytes + 6) 2 &&& fragmentBits = 0
  udpInside : udpOffset bytes + sizeofUdphdr ≤ bytes.length
  port : wordAt bytes (udpOffset bytes + 2) 2 = afxdpOrderEntryUdpPort
  udpCovers : sizeofUdphdr + OrderWireFormat.size ≤
    wordAt bytes (udpOffset bytes + 4) 2

/-- The version is that of IPv4, and the total length of the packet covers an
order message that is really there. -/
structure HonestLengths (bytes : List UInt8) : Prop where
  version : wordAt bytes (ipOffset bytes) 1 >>> 4 = 4
  covers : ipHeaderLength bytes + sizeofUdphdr + OrderWireFormat.size ≤
    ipTotalLength bytes
  present : ipOffset bytes + ipTotalLength bytes ≤ bytes.length

section Reads

variable {bytes : List UInt8} {offset width : Nat}

theorem rd_inside (inside : offset + width ≤ bytes.length) :
    rd width bytes offset = .ok (ofLittleEndian (slice bytes offset width)) :=
  if_pos inside

theorem swapped_slice (inside : offset + width ≤ bytes.length) :
    swapped width (ofLittleEndian (slice bytes offset width)) =
      wordAt bytes offset width := by
  have swapped_eq := swapped_ofLittleEndian (slice bytes offset width)
  rw [length_slice inside] at swapped_eq
  exact swapped_eq

theorem ntohs_slice (inside : offset + 2 ≤ bytes.length) :
    ntohs (ofLittleEndian (slice bytes offset 2)) = wordAt bytes offset 2 :=
  swapped_slice inside

theorem ofLittleEndian_byte (inside : offset + 1 ≤ bytes.length) :
    ofLittleEndian (slice bytes offset 1) = wordAt bytes offset 1 := by
  obtain ⟨byte, single⟩ := List.length_eq_one_iff.mp (length_slice inside)
  rw [wordAt, single]
  rfl

/-- The comparison of a read with a number in the byte order of the network. -/
theorem slice_eq_htons (inside : offset + 2 ≤ bytes.length) {value : Nat}
    (fits : value < 256 ^ 2) :
    ofLittleEndian (slice bytes offset 2) = htons value ↔
      wordAt bytes offset 2 = value := by
  rw [← swapped_slice inside]
  constructor
  · intro same
    rw [same]
    exact swapped_swapped fits
  · intro same
    have bound := ofLittleEndian_lt (slice bytes offset 2)
    rw [length_slice inside] at bound
    rw [← same]
    exact (swapped_swapped bound).symm

end Reads

/-- The run returns the value on the condition, and is a failed check
otherwise; it never faults. -/
abbrev Parses {Value : Type} (run : Except Stop Value) (condition : Prop)
    (value : Value) : Prop :=
  Decides (· = .reject) run condition value

theorem Parses.rejectIf {Value : Type} {test condition : Prop}
    [Decidable test] {next : Unit → Except Stop Value} {value : Value}
    (rest : ¬ test → Parses (next ()) condition value) :
    Parses (rejectIf test >>= next) (¬ test ∧ condition) value :=
  Decides.guard rfl rest

variable {bytes : List UInt8}

theorem sizeofEthhdr_le_ipOffset (bytes : List UInt8) :
    sizeofEthhdr ≤ ipOffset bytes := by
  rw [ipOffset]
  split
  next => exact Nat.le_add_right _ _
  next => exact Nat.le_refl _

theorem ethertype_iff (inside : ipOffset bytes ≤ bytes.length) :
    ¬ ofLittleEndian (slice bytes (ipOffset bytes - 2) 2) ≠ htons ethPIp ↔
      wordAt bytes (ipOffset bytes - 2) 2 = ethPIp := by
  have ethernet : 14 ≤ ipOffset bytes := sizeofEthhdr_le_ipOffset bytes
  rw [not_not]
  apply slice_eq_htons
  · omega
  · decide

theorem skipVlanTag_parses (room : sizeofEthhdr ≤ bytes.length) :
    Parses
      (skipVlanTag bytes (ofLittleEndian (slice bytes 12 2)) sizeofEthhdr)
      (ipOffset bytes ≤ bytes.length)
      (ofLittleEndian (slice bytes (ipOffset bytes - 2) 2),
        ipOffset bytes) := by
  have inside : 12 + 2 ≤ bytes.length := room
  have tagged : (ofLittleEndian (slice bytes 12 2) = htons ethP8021Q ∨
      ofLittleEndian (slice bytes 12 2) = htons ethP8021AD) ↔
        Tagged bytes := by
    rw [slice_eq_htons inside (by decide), slice_eq_htons inside (by decide)]
    exact Iff.rfl
  rw [skipVlanTag, ipOffset]
  by_cases tag : Tagged bytes
  · rw [if_pos (tagged.mpr tag), if_pos tag]
    apply Decides.congr
    · apply Parses.rejectIf
      intro short
      have room := Nat.le_of_not_lt short
      exact Decides.step (rd_inside room) .ok
    · rw [Nat.not_lt, and_true]
  · rw [if_neg (fun same => tag (tagged.mp same)), if_neg tag]
    exact Decides.ok.congr (iff_true_intro room)

theorem locateWire_parses (bytes : List UInt8) :
    Parses (locateWire bytes) (HoldsDatagram bytes ∧ HonestLengths bytes)
      (udpOffset bytes + sizeofUdphdr) := by
  apply Decides.congr
  · apply Parses.rejectIf
    intro ethernetShort
    have ethernet := Nat.le_of_not_lt ethernetShort
    apply Decides.step (rd_inside ethernet)
    apply Decides.bind (skipVlanTag_parses ethernet)
    intro tagInside
    apply Parses.rejectIf
    intro ipv4
    apply Parses.rejectIf
    intro ipv4Short
    have room := Nat.le_of_not_lt ipv4Short
    rw [sizeofIphdr] at room
    have first : ipOffset bytes + 1 ≤ bytes.length := by omega
    apply Decides.step (rd_inside first)
    rw [ofLittleEndian_byte first]
    apply Parses.rejectIf
    intro version
    change Parses (do
      rejectIf (ipHeaderLength bytes < sizeofIphdr ∨
        bytes.length < udpOffset bytes)
      _) _ _
    apply Parses.rejectIf
    intro header
    have protocol : ipOffset bytes + 9 + 1 ≤ bytes.length := by omega
    apply Decides.step (rd_inside protocol)
    rw [ofLittleEndian_byte protocol]
    apply Parses.rejectIf
    intro udp
    have fragment : ipOffset bytes + 6 + 2 ≤ bytes.length := by omega
    apply Decides.step (rd_inside fragment)
    rw [ntohs_slice fragment]
    apply Parses.rejectIf
    intro whole
    have total : ipOffset bytes + 2 + 2 ≤ bytes.length := by omega
    apply Decides.step (rd_inside total)
    rw [ntohs_slice total]
    apply Parses.rejectIf
    intro lengths
    apply Parses.rejectIf
    intro udpShort
    have udpRoom := Nat.le_of_not_lt udpShort
    change udpOffset bytes + 8 ≤ bytes.length at udpRoom
    have dest : udpOffset bytes + 2 + 2 ≤ bytes.length := by omega
    apply Decides.step (rd_inside dest)
    rw [ntohs_slice dest]
    apply Parses.rejectIf
    intro port
    have length : udpOffset bytes + 4 + 2 ≤ bytes.length := by omega
    apply Decides.step (rd_inside length)
    rw [ntohs_slice length]
    apply Parses.rejectIf
    intro udpCovers
    apply Parses.rejectIf
    intro payload
    exact .ok
  · constructor
    · intro ⟨datagram, honest⟩
      have ethernet := sizeofEthhdr_le_ipOffset bytes
      have inside : ipOffset bytes ≤ bytes.length :=
        Nat.le_of_add_right_le datagram.room
      have payload : ipOffset bytes + (ipHeaderLength bytes + sizeofUdphdr +
          OrderWireFormat.size) ≤ bytes.length :=
        Nat.le_trans (Nat.add_le_add_left honest.covers _) honest.present
      refine ⟨Nat.not_lt.mpr (Nat.le_trans ethernet inside), inside,
        (ethertype_iff inside).mpr datagram.ethertype,
        Nat.not_lt.mpr datagram.room, not_not.mpr honest.version,
        not_or.mpr ⟨Nat.not_lt.mpr datagram.headerRoom,
          Nat.not_lt.mpr datagram.headerInside⟩,
        not_not.mpr datagram.udp, not_not.mpr datagram.whole,
        not_or.mpr ⟨Nat.not_lt.mpr honest.covers,
          Nat.not_lt.mpr honest.present⟩,
        Nat.not_lt.mpr datagram.udpInside, not_not.mpr datagram.port,
        Nat.not_lt.mpr datagram.udpCovers, Nat.not_lt.mpr ?_, trivial⟩
      rw [← Nat.add_assoc, ← Nat.add_assoc] at payload
      exact payload
    · intro ⟨ethernetShort, inside, ethertype, ipv4Short, version, header, udp,
        whole, lengths, udpShort, port, udpCovers, _⟩
      exact
        ⟨{ room := Nat.le_of_not_lt ipv4Short
           ethertype := (ethertype_iff inside).mp ethertype
           headerRoom := Nat.le_of_not_lt (not_or.mp header).1
           headerInside := Nat.le_of_not_lt (not_or.mp header).2
           udp := not_not.mp udp
           whole := not_not.mp whole
           udpInside := Nat.le_of_not_lt udpShort
           port := not_not.mp port
           udpCovers := Nat.le_of_not_lt udpCovers },
         { version := not_not.mp version
           covers := Nat.le_of_not_lt (not_or.mp lengths).1
           present := Nat.le_of_not_lt (not_or.mp lengths).2 }⟩

theorem readWire_inside {wireOff : Nat}
    (inside : wireOff + OrderWireFormat.size ≤ bytes.length) :
    readWire bytes wireOff =
      .ok (OrderWireFormat.codec.decode
        (slice bytes wireOff OrderWireFormat.size)) := by
  have field (offset width : Nat) (fits : offset + width ≤ 30) :
      rd width bytes (wireOff + offset) =
        .ok (ofLittleEndian
          (slice (slice bytes wireOff OrderWireFormat.size) offset width)) := by
    rw [OrderWireFormat.size] at inside ⊢
    rw [slice_slice fits]
    exact rd_inside (by omega)
  rw [readWire, field _ 8 (by decide), field _ 8 (by decide),
    field _ 4 (by decide), field _ 8 (by decide), field _ 1 (by decide),
    field _ 1 (by decide), OrderWireFormat.decode_codec]
  rfl

/-- The numbers of the message can become an order. -/
structure OrderWireFormat.Valid (wire : OrderWireFormat) : Prop where
  side : wire.side ≤ Side.sell.toByte
  tif : wire.tif ≤ TimeInForce.fok.toByte
  qty : ntohl wire.qty ≠ 0

theorem OrderWireFormat.Valid.exists_encodeOrder {wire : OrderWireFormat}
    (valid : wire.Valid) :
    ∃ orderId price qty clientId side tif,
      wire = encodeOrder orderId price qty clientId side tif ∧ qty ≠ 0 := by
  obtain ⟨side, _, sideByte⟩ := Side.exists_ofByte valid.side
  obtain ⟨tif, _, tifByte⟩ := TimeInForce.exists_ofByte valid.tif
  refine ⟨be64toh wire.orderId, (be64toh wire.price.toUInt64).toInt64,
    ntohl wire.qty, be64toh wire.clientId, side, tif, ?_, valid.qty⟩
  rw [encodeOrder, htobe64_be64toh, UInt64.toUInt64_toInt64, htobe64_be64toh,
    Int64.toInt64_toUInt64, htonl_ntohl, htobe64_be64toh, sideByte, tifByte]

theorem encodeOrder_valid {orderId clientId : UInt64} {price : Int64}
    {qty : UInt32} {side : Side} {tif : TimeInForce} (positive : qty ≠ 0) :
    (encodeOrder orderId price qty clientId side tif).Valid where
  side := side.toByte_le
  tif := tif.toByte_le
  qty := by
    rw [encodeOrder, ntohl_htonl]
    exact positive

theorem acceptWire_encodeOrder {orderId clientId : UInt64} {price : Int64}
    {qty : UInt32} {side : Side} {tif : TimeInForce} {out : Order}
    (positive : qty ≠ 0) :
    acceptWire (encodeOrder orderId price qty clientId side tif) out =
      .ok { out with orderId, price, qty, side, tif, clientId } := by
  have valid := @encodeOrder_valid orderId clientId price qty side tif positive
  have passes : ¬ ((encodeOrder orderId price qty clientId side tif).side >
      Side.sell.toByte ∨
        (encodeOrder orderId price qty clientId side tif).tif >
          TimeInForce.fok.toByte ∨
        ntohl (encodeOrder orderId price qty clientId side tif).qty = 0) := by
    rintro (side | tif | zero)
    · exact UInt8.not_lt.mpr valid.side side
    · exact UInt8.not_lt.mpr valid.tif tif
    · exact valid.qty zero
  rw [acceptWire, rejectIf, if_neg passes]
  simp only [encodeOrder, Side.ofByte_toByte, TimeInForce.ofByte_toByte,
    be64toh_htobe64, ntohl_htonl, UInt64.toUInt64_toInt64,
    Int64.toInt64_toUInt64]
  rfl

theorem acceptWire_invalid {wire : OrderWireFormat} {out : Order}
    (invalid : ¬ wire.Valid) : acceptWire wire out = .error .reject := by
  have fails : wire.side > Side.sell.toByte ∨
      wire.tif > TimeInForce.fok.toByte ∨ ntohl wire.qty = 0 := by
    by_contra passes
    rw [not_or, not_or] at passes
    exact invalid
      { side := UInt8.not_lt.mp passes.1
        tif := UInt8.not_lt.mp passes.2.1
        qty := passes.2.2 }
  rw [acceptWire, rejectIf, if_pos fails]
  rfl

end Hydra
