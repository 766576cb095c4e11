import Hydra.Runs.Stream
import Hydra.Wire.Parser
import Mathlib.Data.Vector.Basic

/-!
# The grammar of order frames

What an order frame is, written as the frames that can be built: headers of
the right form around an order message.  The parser accepts exactly these
frames, and gets back what was put into them.
-/

namespace Hydra

open Bytes Checks

/-- The tag of a virtual network in front of a frame. -/
structure VlanTag where
  /-- 802.1AD instead of 802.1Q. -/
  provider : Bool
  tci : List.Vector UInt8 2

def VlanTag.protocol (tag : VlanTag) : Nat :=
  if tag.provider then ethP8021AD else ethP8021Q

def VlanTag.bytes (tag : VlanTag) : List UInt8 :=
  bigEndian 2 tag.protocol ++ tag.tci.val

/-- The Ethernet header of an IPv4 packet, with its tag. -/
def ethernetBytes (addresses : List.Vector UInt8 12) (tag : Option VlanTag) :
    List UInt8 :=
  addresses.val ++ (tag.elim [] VlanTag.bytes ++ bigEndian 2 ethPIp)

/-- An order frame without its order message.  The addresses are those of the
two stations, `hosts` those of the IPv4 header. -/
structure Envelope where
  addresses : List.Vector UInt8 12
  tag : Option VlanTag
  ihl : Nat
  tos : List.Vector UInt8 1
  totalLength : UInt16
  identification : List.Vector UInt8 2
  /-- The reserved bit and the bit against fragmentation. -/
  flags : Fin 4
  ttl : List.Vector UInt8 1
  checksum : List.Vector UInt8 2
  hosts : List.Vector UInt8 8
  options : List UInt8
  udpSource : List.Vector UInt8 2
  udpLength : UInt16
  udpChecksum : List.Vector UInt8 2
  trailing : List UInt8
  ihl_min : 5 ≤ ihl
  ihl_max : ihl ≤ 15
  options_length : options.length = ihl * 4 - sizeofIphdr
  covers : ihl * 4 + sizeofUdphdr + OrderWireFormat.size ≤ totalLength.toNat
  present : totalLength.toNat ≤
    ihl * 4 + sizeofUdphdr + OrderWireFormat.size + trailing.length
  udpCovers : sizeofUdphdr + OrderWireFormat.size ≤ udpLength.toNat

namespace Envelope

variable (envelope : Envelope)

def ethernet : List UInt8 := ethernetBytes envelope.addresses envelope.tag

def ipv4 : List UInt8 :=
  List.flatten
    [bigEndian 1 (4 * 16 + envelope.ihl), envelope.tos.val,
      bigEndian 2 envelope.totalLength.toNat, envelope.identification.val,
      bigEndian 2 (envelope.flags.val * 0x4000), envelope.ttl.val,
      bigEndian 1 ipprotoUdp, envelope.checksum.val, envelope.hosts.val,
      envelope.options]

def udp : List UInt8 :=
  List.flatten
    [envelope.udpSource.val, bigEndian 2 afxdpOrderEntryUdpPort,
      bigEndian 2 envelope.udpLength.toNat, envelope.udpChecksum.val]

/-- The frame around an order message. -/
def wrap (wire : OrderWireFormat) : List UInt8 :=
  envelope.ethernet ++ (envelope.ipv4 ++ (envelope.udp ++
    (OrderWireFormat.codec.encode wire ++ envelope.trailing)))

end Envelope

/-- The frames of order messages with numbers that can become an order. -/
def OrderFrame (bytes : List UInt8) : Prop :=
  ∃ (envelope : Envelope) (wire : OrderWireFormat),
    wire.Valid ∧ bytes = envelope.wrap wire

namespace Envelope

variable {envelope : Envelope} {wire : OrderWireFormat}

theorem length_ipv4 : envelope.ipv4.length = envelope.ihl * 4 := by
  have atLeast := envelope.ihl_min
  have options := envelope.options_length
  rw [sizeofIphdr] at options
  simp only [ipv4, List.flatten_cons, List.flatten_nil, List.length_append,
    length_bigEndian, List.Vector.length_val, List.length_nil, options]
  omega

theorem length_udp : envelope.udp.length = sizeofUdphdr := by
  simp only [udp, List.flatten_cons, List.flatten_nil, List.length_append,
    length_bigEndian, List.Vector.length_val, List.length_nil]
  rfl

theorem ipOffset_wrap :
    ipOffset (envelope.wrap wire) = envelope.ethernet.length := by
  have room := envelope.addresses.length_val
  cases tagEq : envelope.tag with
  | none =>
      have found : At (envelope.wrap wire) (12 + 0) (bigEndian 2 ethPIp) := by
        apply At.append
        rw [ethernet, tagEq]
        exact .skip room (.whole _)
      have untagged : ¬ Tagged (envelope.wrap wire) := by
        rw [Tagged, wordAt, found.ofBigEndian (by decide)]
        decide
      rw [ipOffset, if_neg untagged, ethernet, tagEq, ethernetBytes,
        List.length_append, room]
      rfl
  | some tag =>
      have found : At (envelope.wrap wire) (12 + 0)
          (bigEndian 2 tag.protocol) := by
        apply At.append
        rw [ethernet, tagEq]
        exact .skip room (.append (.here _ _))
      have fits : tag.protocol < 256 ^ 2 := by
        rw [VlanTag.protocol]
        split <;> decide
      have tagged : Tagged (envelope.wrap wire) := by
        rw [Tagged, wordAt, found.ofBigEndian fits, VlanTag.protocol]
        split
        next => exact Or.inr rfl
        next => exact Or.inl rfl
      rw [ipOffset, if_pos tagged, ethernet, tagEq, ethernetBytes,
        List.length_append, List.length_append, room, Option.elim_some,
        VlanTag.bytes, List.length_append, tag.tci.length_val]
      rfl

theorem at_ethertype :
    At (envelope.wrap wire) (ipOffset (envelope.wrap wire) - 2)
      (bigEndian 2 ethPIp) := by
  have offset : ipOffset (envelope.wrap wire) - 2 =
      12 + ((envelope.tag.elim [] VlanTag.bytes).length + 0) := by
    rw [ipOffset_wrap, ethernet, ethernetBytes, List.length_append,
      List.length_append, length_bigEndian, envelope.addresses.length_val]
    omega
  rw [offset]
  apply At.append
  exact .skip envelope.addresses.length_val (.skip rfl (.whole _))

theorem at_ipv4 {offset : Nat} {part : List UInt8}
    (found : At envelope.ipv4 offset part) :
    At (envelope.wrap wire) (ipOffset (envelope.wrap wire) + offset) part := by
  rw [ipOffset_wrap]
  exact .skip rfl found.append

theorem version_wrap :
    wordAt (envelope.wrap wire) (ipOffset (envelope.wrap wire)) 1 =
      4 * 16 + envelope.ihl := by
  have atMost := envelope.ihl_max
  apply At.ofBigEndian
  · exact at_ipv4 (.here _ _)
  · omega

theorem ipHeaderLength_wrap :
    ipHeaderLength (envelope.wrap wire) = envelope.ihl * 4 := by
  have atMost := envelope.ihl_max
  have low : (4 * 16 + envelope.ihl) % 2 ^ 4 = envelope.ihl := by omega
  rw [ipHeaderLength, version_wrap,
    Nat.and_two_pow_sub_one_eq_mod (4 * 16 + envelope.ihl) 4, low]

theorem ipTotalLength_wrap :
    ipTotalLength (envelope.wrap wire) = envelope.totalLength.toNat := by
  apply At.ofBigEndian
  · apply at_ipv4
    exact .skip (length_bigEndian 1 _)
      (.skip envelope.tos.length_val (.here _ _))
  · exact envelope.totalLength.toNat_lt

theorem udpOffset_wrap :
    udpOffset (envelope.wrap wire) =
      envelope.ethernet.length + envelope.ipv4.length := by
  rw [udpOffset, ipOffset_wrap, ipHeaderLength_wrap, length_ipv4]

theorem at_udp {offset : Nat} {part : List UInt8}
    (found : At envelope.udp offset part) :
    At (envelope.wrap wire) (udpOffset (envelope.wrap wire) + offset) part := by
  rw [udpOffset_wrap, Nat.add_assoc]
  exact .skip rfl (.skip rfl found.append)

theorem at_wire :
    At (envelope.wrap wire) (udpOffset (envelope.wrap wire) + sizeofUdphdr)
      (OrderWireFormat.codec.encode wire) := by
  rw [udpOffset_wrap, Nat.add_assoc]
  exact .skip rfl (.skip rfl (.skip length_udp (.here _ _)))

theorem length_wrap :
    (envelope.wrap wire).length =
      ipOffset (envelope.wrap wire) + (envelope.ihl * 4 + sizeofUdphdr +
        OrderWireFormat.size + envelope.trailing.length) := by
  rw [ipOffset_wrap, wrap, List.length_append, List.length_append,
    List.length_append, List.length_append, length_ipv4, length_udp,
    Codec.length_encode, OrderWireFormat.codec_width]
  simp only [Nat.add_assoc]

theorem holdsDatagram_wrap : HoldsDatagram (envelope.wrap wire) where
  room := by
    have atLeast := envelope.ihl_min
    rw [length_wrap, sizeofIphdr]
    omega
  ethertype := at_ethertype.ofBigEndian (by decide)
  headerRoom := by
    have atLeast := envelope.ihl_min
    rw [ipHeaderLength_wrap, sizeofIphdr]
    omega
  headerInside := by
    rw [udpOffset, ipHeaderLength_wrap, length_wrap]
    omega
  udp := by
    apply At.ofBigEndian
    · apply at_ipv4
      exact .skip (length_bigEndian 1 _) (.skip envelope.tos.length_val
        (.skip (length_bigEndian 2 _) (.skip envelope.identification.length_val
          (.skip (length_bigEndian 2 _) (.skip envelope.ttl.length_val
            (.here _ _))))))
    · decide
  whole := by
    have found : At (envelope.wrap wire)
        (ipOffset (envelope.wrap wire) + 6)
        (bigEndian 2 (envelope.flags.val * 0x4000)) := by
      apply at_ipv4
      exact .skip (length_bigEndian 1 _) (.skip envelope.tos.length_val
        (.skip (length_bigEndian 2 _) (.skip envelope.identification.length_val
          (.here _ _))))
    have flags := envelope.flags.isLt
    have small : envelope.flags.val * 0x4000 < 256 ^ 2 := by omega
    rw [wordAt, found.ofBigEndian small]
    exact (Nat.and_two_pow_sub_one_eq_mod _ 14).trans (Nat.mul_mod_left _ _)
  udpInside := by
    rw [udpOffset, ipHeaderLength_wrap, length_wrap]
    omega
  port := by
    apply At.ofBigEndian
    · apply at_udp
      exact .skip envelope.udpSource.length_val (.here _ _)
    · decide
  udpCovers := by
    have found : At (envelope.wrap wire) (udpOffset (envelope.wrap wire) + 4)
        (bigEndian 2 envelope.udpLength.toNat) := by
      apply at_udp
      exact .skip envelope.udpSource.length_val
        (.skip (length_bigEndian 2 _) (.here _ _))
    rw [wordAt, found.ofBigEndian envelope.udpLength.toNat_lt]
    exact envelope.udpCovers

theorem honestLengths_wrap : HonestLengths (envelope.wrap wire) where
  version := by
    have atMost := envelope.ihl_max
    rw [version_wrap, Nat.shiftRight_eq_div_pow]
    omega
  covers := by
    rw [ipHeaderLength_wrap, ipTotalLength_wrap]
    exact envelope.covers
  present := by
    rw [ipTotalLength_wrap, length_wrap]
    exact Nat.add_le_add_left envelope.present _

end Envelope

section TakingApart

variable {bytes : List UInt8}

/-- The bytes of a part of fixed width. -/
def part {offset width : Nat} (inside : offset + width ≤ bytes.length) :
    List.Vector UInt8 width :=
  ⟨slice bytes offset width, length_slice inside⟩

theorem bigEndian_wordAt {offset width : Nat}
    (inside : offset + width ≤ bytes.length) :
    bigEndian width (wordAt bytes offset width) = slice bytes offset width :=
  bigEndian_slice inside

theorem wordAt_lt {offset width : Nat}
    (inside : offset + width ≤ bytes.length) :
    wordAt bytes offset width < 256 ^ width := by
  have bound := ofBigEndian_lt (slice bytes offset width)
  rw [length_slice inside] at bound
  exact bound

theorem exists_ethernet (ipv4 : HoldsIpv4 bytes) :
    ∃ addresses tag,
      bytes = ethernetBytes addresses tag ++ bytes.drop (ipOffset bytes) := by
  have room := ipv4.room
  have ethertype := ipv4.ethertype
  rw [sizeofIphdr] at room
  have front : 0 + 12 ≤ bytes.length := by omega
  by_cases tagged : Tagged bytes
  · have offset : ipOffset bytes = 18 := if_pos tagged
    rw [offset] at room ethertype ⊢
    have word : 12 + 2 ≤ bytes.length := by omega
    have tci : 14 + 2 ≤ bytes.length := by omega
    have last : 16 + 2 ≤ bytes.length := by omega
    obtain ⟨provider, protocol⟩ : ∃ provider,
        VlanTag.protocol ⟨provider, part tci⟩ = wordAt bytes 12 2 := by
      rcases tagged with dot1q | dot1ad
      · exact ⟨false, dot1q.symm⟩
      · exact ⟨true, dot1ad.symm⟩
    refine ⟨part front, some ⟨provider, part tci⟩, ?_⟩
    have whole := flatten_cuts bytes 0 [12, 2, 2, 2]
    rw [ethernetBytes, Option.elim_some, VlanTag.bytes, protocol,
      bigEndian_wordAt word, ← ethertype, bigEndian_wordAt last]
    simp only [cuts, List.flatten_cons, List.flatten_nil, List.append_nil,
      List.append_assoc] at whole ⊢
    exact whole.symm
  · have offset : ipOffset bytes = 14 := if_neg tagged
    rw [offset] at room ethertype ⊢
    have word : 12 + 2 ≤ bytes.length := by omega
    refine ⟨part front, none, ?_⟩
    have whole := flatten_cuts bytes 0 [12, 2]
    rw [ethernetBytes, Option.elim_none, ← ethertype, bigEndian_wordAt word]
    simp only [cuts, List.flatten_cons, List.flatten_nil, List.append_nil,
      List.append_assoc] at whole ⊢
    exact whole.symm

theorem first_byte (honest : HonestLengths bytes) :
    wordAt bytes (ipOffset bytes) 1 =
      4 * 16 + (wordAt bytes (ipOffset bytes) 1 &&& 0x0F) := by
  have version := honest.version
  rw [Nat.shiftRight_eq_div_pow] at version
  rw [Nat.and_two_pow_sub_one_eq_mod (wordAt bytes (ipOffset bytes) 1) 4]
  omega

theorem HoldsDatagram.fragment (datagram : HoldsDatagram bytes) :
    wordAt bytes (ipOffset bytes + 6) 2 =
      wordAt bytes (ipOffset bytes + 6) 2 / 0x4000 * 0x4000 := by
  have whole := datagram.whole
  change wordAt bytes (ipOffset bytes + 6) 2 &&& 2 ^ 14 - 1 = 0 at whole
  rw [Nat.and_two_pow_sub_one_eq_mod] at whole
  omega

theorem drop_ipOffset (datagram : HoldsDatagram bytes) {ihl : Nat}
    (first : wordAt bytes (ipOffset bytes) 1 = 4 * 16 + ihl)
    (header : ipHeaderLength bytes = ihl * 4) :
    bytes.drop (ipOffset bytes) =
      List.flatten
        [bigEndian 1 (4 * 16 + ihl), slice bytes (ipOffset bytes + 1) 1,
          bigEndian 2 (ipTotalLength bytes), slice bytes (ipOffset bytes + 4) 2,
          bigEndian 2 (wordAt bytes (ipOffset bytes + 6) 2 / 0x4000 * 0x4000),
          slice bytes (ipOffset bytes + 8) 1, bigEndian 1 ipprotoUdp,
          slice bytes (ipOffset bytes + 10) 2,
          slice bytes (ipOffset bytes + 12) 8,
          slice bytes (ipOffset bytes + 20) (ihl * 4 - sizeofIphdr)] ++
        bytes.drop (udpOffset bytes) := by
  have room := datagram.room
  have headerRoom := datagram.headerRoom
  rw [sizeofIphdr] at room headerRoom ⊢
  have cut := flatten_cuts bytes (ipOffset bytes)
    [1, 1, 2, 2, 2, 1, 1, 2, 8, ihl * 4 - 20]
  have total : ipOffset bytes +
      [1, 1, 2, 2, 2, 1, 1, 2, 8, ihl * 4 - 20].sum = udpOffset bytes := by
    rw [udpOffset]
    simp only [List.sum_cons, List.sum_nil]
    omega
  rw [total] at cut
  rw [← first, ← datagram.udp, ← datagram.fragment, ipTotalLength,
    bigEndian_wordAt (by omega), bigEndian_wordAt (by omega),
    bigEndian_wordAt (by omega), bigEndian_wordAt (by omega)]
  exact cut.symm

theorem drop_udpOffset (datagram : HoldsDatagram bytes)
    (inside : udpOffset bytes + sizeofUdphdr + OrderWireFormat.size ≤
      bytes.length) :
    bytes.drop (udpOffset bytes) =
      List.flatten
        [slice bytes (udpOffset bytes) 2, bigEndian 2 afxdpOrderEntryUdpPort,
          bigEndian 2 (wordAt bytes (udpOffset bytes + 4) 2),
          slice bytes (udpOffset bytes + 6) 2] ++
        (slice bytes (udpOffset bytes + sizeofUdphdr) OrderWireFormat.size ++
          bytes.drop
            (udpOffset bytes + sizeofUdphdr + OrderWireFormat.size)) := by
  rw [sizeofUdphdr, OrderWireFormat.size] at inside ⊢
  have cut := flatten_cuts bytes (udpOffset bytes) [2, 2, 2, 2]
  rw [← drop_eq_slice, ← datagram.port, bigEndian_wordAt (by omega),
    bigEndian_wordAt (by omega)]
  exact cut.symm

/-- A frame of the right shape is an envelope around an order message. -/
theorem exists_envelope (datagram : HoldsDatagram bytes)
    (honest : HonestLengths bytes) :
    ∃ (envelope : Envelope) (wire : OrderWireFormat),
      bytes = envelope.wrap wire := by
  obtain ⟨addresses, tag, ethernet⟩ := exists_ethernet datagram.toHoldsIpv4
  obtain ⟨ihl, first, header, small⟩ : ∃ ihl,
      wordAt bytes (ipOffset bytes) 1 = 4 * 16 + ihl ∧
        ipHeaderLength bytes = ihl * 4 ∧ ihl ≤ 15 :=
    ⟨_, first_byte honest, rfl, Nat.and_le_right⟩
  have udpStart : udpOffset bytes = ipOffset bytes + ihl * 4 := by
    rw [udpOffset, header]
  have headerRoom := datagram.headerRoom
  have covers := honest.covers
  have present := honest.present
  rw [header, sizeofIphdr] at headerRoom
  rw [header, sizeofUdphdr, OrderWireFormat.size] at covers
  have totalInside : ipOffset bytes + 2 + 2 ≤ bytes.length := by omega
  have fragmentInside : ipOffset bytes + 6 + 2 ≤ bytes.length := by omega
  have lengthInside : udpOffset bytes + 4 + 2 ≤ bytes.length := by omega
  have totalEq : (UInt16.ofNat (ipTotalLength bytes)).toNat =
      ipTotalLength bytes :=
    UInt16.toNat_ofNat_of_lt' (wordAt_lt totalInside)
  have lengthEq := UInt16.toNat_ofNat_of_lt' (wordAt_lt lengthInside)
  have flags : wordAt bytes (ipOffset bytes + 6) 2 / 0x4000 < 4 :=
    Nat.div_lt_of_lt_mul (wordAt_lt fragmentInside)
  have tos : ipOffset bytes + 1 + 1 ≤ bytes.length := by omega
  have identification : ipOffset bytes + 4 + 2 ≤ bytes.length := by omega
  have ttl : ipOffset bytes + 8 + 1 ≤ bytes.length := by omega
  have checksum : ipOffset bytes + 10 + 2 ≤ bytes.length := by omega
  have hosts : ipOffset bytes + 12 + 8 ≤ bytes.length := by omega
  have options : ipOffset bytes + 20 + (ihl * 4 - 20) ≤ bytes.length := by
    omega
  have udpSource : udpOffset bytes + 2 ≤ bytes.length := by omega
  have udpChecksum : udpOffset bytes + 6 + 2 ≤ bytes.length := by omega
  have wire : udpOffset bytes + 8 + 30 ≤ bytes.length := by omega
  refine ⟨
    { addresses, tag, ihl
      tos := part tos
      totalLength := .ofNat (ipTotalLength bytes)
      identification := part identification
      flags := ⟨_, flags⟩
      ttl := part ttl
      checksum := part checksum
      hosts := part hosts
      options := slice bytes (ipOffset bytes + 20) (ihl * 4 - sizeofIphdr)
      udpSource := part udpSource
      udpLength := .ofNat (wordAt bytes (udpOffset bytes + 4) 2)
      udpChecksum := part udpChecksum
      trailing := bytes.drop
        (udpOffset bytes + sizeofUdphdr + OrderWireFormat.size)
      ihl_min := by omega
      ihl_max := small
      options_length := length_slice options
      covers := ?covers
      present := ?present
      udpCovers := ?udpCovers },
    OrderWireFormat.codec.decode
      (slice bytes (udpOffset bytes + sizeofUdphdr) OrderWireFormat.size),
    ?parts⟩
  case covers =>
    rw [totalEq]
    exact covers
  case present =>
    rw [totalEq, sizeofUdphdr, OrderWireFormat.size, List.length_drop]
    omega
  case udpCovers =>
    rw [lengthEq]
    exact datagram.udpCovers
  case parts =>
    have message : OrderWireFormat.codec.encode (OrderWireFormat.codec.decode
        (slice bytes (udpOffset bytes + sizeofUdphdr) OrderWireFormat.size)) =
          slice bytes (udpOffset bytes + sizeofUdphdr) OrderWireFormat.size :=
      OrderWireFormat.codec.encode_decode _ (length_slice wire)
    rw [drop_ipOffset datagram first header, drop_udpOffset datagram wire]
      at ethernet
    simp only [Envelope.wrap, Envelope.ethernet, Envelope.ipv4, Envelope.udp,
      totalEq, lengthEq, message]
    exact ethernet

end TakingApart

section Parser

variable {frame : Frame} {out : Order}

/-- On a frame of the right shape only the order message counts. -/
theorem parseOrderZeroCopy_wrap {envelope : Envelope} {wire : OrderWireFormat}
    (built : frame.bytes = envelope.wrap wire) :
    parseOrderZeroCopy (some frame) out =
      returnBool out (acceptWire wire out) := by
  have located := (locateWire_parses frame.bytes).accepts
  rw [built] at located
  have inside : udpOffset (envelope.wrap wire) + sizeofUdphdr +
      OrderWireFormat.size ≤ (envelope.wrap wire).length := by
    rw [Envelope.length_wrap, udpOffset, Envelope.ipHeaderLength_wrap]
    omega
  have message := (@Envelope.at_wire envelope wire).slice
  rw [Codec.length_encode, OrderWireFormat.codec_width] at message
  have read := readWire_inside inside
  rw [message, Codec.decode_encode] at read
  rw [parseOrderZeroCopy]
  simp only [built, located ⟨Envelope.holdsDatagram_wrap,
    Envelope.honestLengths_wrap⟩]
  change returnBool out (do
    let wire ← readWire (envelope.wrap wire) _
    acceptWire wire out) = _
  rw [read]
  rfl

theorem parseOrderZeroCopy_reject
    (other : ¬ (HoldsDatagram frame.bytes ∧ HonestLengths frame.bytes)) :
    parseOrderZeroCopy (some frame) out = .ok (false, out) := by
  obtain ⟨error, rfl, stopped⟩ :=
    (locateWire_parses frame.bytes).rejects other
  rw [parseOrderZeroCopy]
  simp only [stopped]
  rfl

/-- What a sender puts into a frame is what the parser takes out. -/
theorem parse_encodeOrder {envelope : Envelope} {orderId clientId : UInt64}
    {price : Int64} {qty : UInt32} {side : Side} {tif : TimeInForce}
    (positive : qty ≠ 0)
    (built : frame.bytes =
      envelope.wrap (encodeOrder orderId price qty clientId side tif)) :
    parseOrderZeroCopy (some frame) out =
      .ok (true, { out with orderId, price, qty, side, tif, clientId }) := by
  rw [parseOrderZeroCopy_wrap built, acceptWire_encodeOrder positive]
  rfl

/-- An envelope with a VLAN tag, four bytes of options and two bytes of
padding behind the datagram. -/
def taggedEnvelope : Envelope where
  addresses := List.Vector.replicate 12 0
  tag := some { provider := false, tci := List.Vector.replicate 2 1 }
  ihl := 6
  tos := List.Vector.replicate 1 0
  totalLength := 62
  identification := List.Vector.replicate 2 0
  flags := 1
  ttl := List.Vector.replicate 1 64
  checksum := List.Vector.replicate 2 0
  hosts := List.Vector.replicate 8 10
  options := [1, 1, 1, 0]
  udpSource := List.Vector.replicate 2 5
  udpLength := 38
  udpChecksum := List.Vector.replicate 2 0
  trailing := [0, 0]
  ihl_min := by decide
  ihl_max := by decide
  options_length := by decide
  covers := by decide
  present := by decide
  udpCovers := by decide

theorem parse_encodeOrder_tagged :
    parseOrderZeroCopy
      (some
        { bytes := taggedEnvelope.wrap (encodeOrder 258 (-3) 1000 77 .sell .ioc)
          fits := by decide })
      default =
        .ok (true,
          { (default : Order) with
            orderId := 258
            price := -3
            qty := 1000
            side := .sell
            tif := .ioc
            clientId := 77 }) :=
  parse_encodeOrder (by decide) rfl

theorem dispatch_new {order : Order} (fresh : order.eventTag = .newOrCancel)
    (positive : order.qty ≠ 0) : dispatch order = .matchOrder order := by
  rw [dispatch, if_neg (fun cancel => positive cancel.2), if_neg]
  rw [fresh]
  decide

theorem parse_orderFrame (order : OrderFrame frame.bytes) :
    ∃ orderId price qty clientId side tif, qty ≠ 0 ∧
      parseOrderZeroCopy (some frame) out =
        .ok (true, { out with orderId, price, qty, side, tif, clientId }) := by
  obtain ⟨envelope, wire, valid, built⟩ := order
  obtain ⟨orderId, price, qty, clientId, side, tif, rfl, positive⟩ :=
    valid.exists_encodeOrder
  refine ⟨orderId, price, qty, clientId, side, tif, positive, ?_⟩
  rw [parseOrderZeroCopy_wrap built, acceptWire_encodeOrder positive]
  rfl

theorem parse_not_orderFrame (other : ¬ OrderFrame frame.bytes) :
    parseOrderZeroCopy (some frame) out = .ok (false, out) := by
  by_cases shape : HoldsDatagram frame.bytes ∧ HonestLengths frame.bytes
  · obtain ⟨envelope, wire, built⟩ := exists_envelope shape.1 shape.2
    have invalid : ¬ wire.Valid := by
      intro valid
      exact other ⟨envelope, wire, valid, built⟩
    rw [parseOrderZeroCopy_wrap built, acceptWire_invalid invalid]
    rfl
  · exact parseOrderZeroCopy_reject shape

/-- What a call of the parser does with its frame and its order. -/
structure Parsed (frame : Option Frame) (out : Order) (accepted : Bool)
    (next : Order) : Prop where
  grammar : accepted = true ↔
    ∃ buffer, frame = some buffer ∧ OrderFrame buffer.bytes
  unchanged : accepted = false → next = out
  /-- The other fields of `out`; the links of an order are no fields of it. -/
  onlyFields : accepted = true →
    next.timestampNs = out.timestampNs ∧ next.eventTag = out.eventTag ∧
      next.clientTag = out.clientTag
  positive : accepted = true → next.qty ≠ 0
  /-- The message for a value-initialised order is a new order. -/
  placed : accepted = true → out.eventTag = .newOrCancel →
    dispatch next = .matchOrder next

theorem Parsed.rejected {frame : Option Frame}
    (other : ¬ ∃ buffer, frame = some buffer ∧ OrderFrame buffer.bytes) :
    Parsed frame out false out where
  grammar := ⟨fun accepted => absurd accepted (by decide),
    fun order => absurd order other⟩
  unchanged _ := rfl
  onlyFields accepted := absurd accepted (by decide)
  positive accepted := absurd accepted (by decide)
  placed accepted := absurd accepted (by decide)

/-- The parser never reads outside of a frame, accepts the order frames and no
others, and changes nothing but the six fields of an order message. -/
theorem parse_grammar (frame : Option Frame) (out : Order) :
    ∃ accepted next, parseOrderZeroCopy frame out = .ok (accepted, next) ∧
      Parsed frame out accepted next := by
  cases frame with
  | none =>
      refine ⟨false, out, rfl, .rejected ?_⟩
      rintro ⟨buffer, null, _⟩
      cases null
  | some frame =>
      by_cases order : OrderFrame frame.bytes
      · obtain ⟨orderId, price, qty, clientId, side, tif, positive, parsed⟩ :=
          @parse_orderFrame frame out order
        refine ⟨true, _, parsed, ?_⟩
        exact
          { grammar := ⟨fun _ => ⟨frame, rfl, order⟩, fun _ => rfl⟩
            unchanged := fun rejected => absurd rejected (by decide)
            onlyFields := fun _ => ⟨rfl, rfl, rfl⟩
            positive := fun _ => positive
            placed := fun _ fresh => dispatch_new fresh positive }
      · refine ⟨false, out, parse_not_orderFrame order, .rejected ?_⟩
        rintro ⟨buffer, same, framed⟩
        cases same
        exact order framed

end Parser

end Hydra
