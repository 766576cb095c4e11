import Hydra.Wire.Grammar

/-!
# The classifier in the kernel

`hydra_xdp_redirect` with the parsing helpers that it uses.  It sees the same
bytes as the parser, but through a cursor that moves from header to header,
and tests fewer fields.  A packet ends where `data_end` points.
-/

namespace Hydra

open Bytes Checks

/-- What the program counts. -/
inductive HydraStatSlot where
  | redirected
  | passed
  | notUdp
  | wrongPort
  | fragmented
  deriving DecidableEq, Repr

/-- What becomes of a packet. -/
inductive XdpAction where
  | pass
  | redirect (queueIndex : UInt32)
  deriving DecidableEq

/-- How the program stops before it looks for a socket. -/
inductive XdpExit where
  | pass (slot : HydraStatSlot)
  | fault (stop : Stop)
  deriving DecidableEq

/-- `VLAN_MAX_DEPTH`. -/
def vlanMaxDepth : Nat := 1

/-- The size of `struct vlan_hdr`. -/
def sizeofVlanHdr : Nat := 4

def hydraOrderEntryUdpPort : Nat := 40000

def hydraOrderWireBytes : Nat := 30

/-- A load from the packet. -/
def load (width : Nat) (packet : List UInt8) (offset : Nat) :
    Except XdpExit Nat :=
  (rd width packet offset).mapError .fault

/-- The packet is counted in a slot and left to the kernel. -/
def passIf (condition : Prop) [Decidable condition] (slot : HydraStatSlot) :
    Except XdpExit Unit :=
  if condition then .error (.pass slot) else .ok ()

/-- What a parsing helper leaves: its answer, the cursor behind the header, and
the start of the header. -/
structure HeaderParse where
  answer : Int
  pos : Nat
  header : Nat

/-- Whether the EtherType is that of a VLAN tag. -/
def protoIsVlan (hProto : Nat) : Prop :=
  hProto = htons ethP8021Q ∨ hProto = htons ethP8021AD

instance (hProto : Nat) : Decidable (protoIsVlan hProto) :=
  inferInstanceAs (Decidable (_ ∨ _))

/-- The loop of `parse_ethhdr_vlan`; gives the protocol and the end of the tags
that were skipped. -/
def skipVlanHeaders (packet : List UInt8) :
    Nat → Nat → Nat → Except XdpExit (Nat × Nat)
  | 0, vlh, hProto => return (hProto, vlh)
  | depth + 1, vlh, hProto =>
      if ¬ protoIsVlan hProto then
        return (hProto, vlh)
      else if packet.length < vlh + sizeofVlanHdr then
        return (hProto, vlh)
      else do
        let encapsulated ← load 2 packet (vlh + 2)
        skipVlanHeaders packet depth (vlh + sizeofVlanHdr) encapsulated

/-- The cursor behind the Ethernet header, with the type of what follows, or -1
if the packet is too short. -/
def parseEthhdr (packet : List UInt8) (pos : Nat) :
    Except XdpExit HeaderParse :=
  if packet.length < pos + sizeofEthhdr then
    return { answer := -1, pos, header := pos }
  else do
    let hProto ← load 2 packet (pos + 12)
    let (proto, vlh) ←
      skipVlanHeaders packet vlanMaxDepth (pos + sizeofEthhdr) hProto
    return { answer := proto, pos := vlh, header := pos }

/-- The cursor behind the IPv4 header, with the protocol that it names,
or -1. -/
def parseIphdr (packet : List UInt8) (pos : Nat) :
    Except XdpExit HeaderParse :=
  if packet.length < pos + sizeofIphdr then
    return { answer := -1, pos, header := pos }
  else do
    let versionIhl ← load 1 packet pos
    let hdrsize := (versionIhl &&& 0x0F) * 4
    if hdrsize < sizeofIphdr then
      return { answer := -1, pos, header := pos }
    else if packet.length < pos + hdrsize then
      return { answer := -1, pos, header := pos }
    else do
      let protocol ← load 1 packet (pos + 9)
      return { answer := protocol, pos := pos + hdrsize, header := pos }

/-- The difference of 64-bit words, as an `int`. -/
def udpPayloadLength (udpLen : Nat) : Int :=
  (UInt64.ofNat udpLen - UInt64.ofNat sizeofUdphdr).toUInt32.toInt32.toInt

/-- The cursor behind the UDP header, with the length of the payload, or -1. -/
def parseUdphdr (packet : List UInt8) (pos : Nat) :
    Except XdpExit HeaderParse :=
  if packet.length < pos + sizeofUdphdr then
    return { answer := -1, pos, header := pos }
  else do
    let udpLen ← load 2 packet (pos + 4)
    let len := udpPayloadLength (ntohs udpLen)
    if len < 0 then
      return { answer := -1, pos := pos + sizeofUdphdr, header := pos }
    else
      return { answer := len, pos := pos + sizeofUdphdr, header := pos }

/-- The filters of `hydra_xdp_redirect`, up to its look at `xsks_map`. -/
def headerFilters (packet : List UInt8) : Except XdpExit Unit := do
  let eth ← parseEthhdr packet 0
  passIf (eth.answer ≠ htons ethPIp) .notUdp
  let iph ← parseIphdr packet eth.pos
  passIf (iph.answer ≠ ipprotoUdp) .notUdp
  let fragOff ← load 2 packet (iph.header + 6)
  passIf (ntohs fragOff &&& fragmentBits ≠ 0) .fragmented
  let udph ← parseUdphdr packet iph.pos
  passIf (udph.answer < 0) .wrongPort
  let dest ← load 2 packet (udph.header + 2)
  passIf (ntohs dest ≠ hydraOrderEntryUdpPort) .wrongPort
  passIf (udph.answer < hydraOrderWireBytes) .wrongPort

/-- The slot that is counted and the action; `xsksMap` says on which queues a
socket is registered. -/
def hydraXdpRedirect (xsksMap : UInt32 → Bool) (rxQueueIndex : UInt32)
    (packet : List UInt8) : Except Stop (HydraStatSlot × XdpAction) :=
  match headerFilters packet with
  | .error (.pass slot) => .ok (slot, .pass)
  | .error (.fault stop) => .error stop
  | .ok () =>
      if xsksMap rxQueueIndex then
        .ok (.redirected, .redirect rxQueueIndex)
      else
        .ok (.passed, .pass)

section Helpers

variable {packet : List UInt8}

theorem load_inside {width offset : Nat}
    (inside : offset + width ≤ packet.length) :
    load width packet offset =
      .ok (ofLittleEndian (slice packet offset width)) := by
  rw [load, rd_inside inside]
  rfl

/-- The filters never read outside of the packet. -/
abbrev Filters {Value : Type} (run : Except XdpExit Value) (condition : Prop)
    (value : Value) : Prop :=
  Decides (fun exit => ∃ slot, exit = .pass slot) run condition value

theorem Filters.passIf {Value : Type} {test condition : Prop}
    [Decidable test] {slot : HydraStatSlot}
    {next : Unit → Except XdpExit Value} {value : Value}
    (rest : ¬ test → Filters (next ()) condition value) :
    Filters (passIf test slot >>= next) (¬ test ∧ condition) value :=
  Decides.guard ⟨slot, rfl⟩ rest

theorem udpPayloadLength_eq {udpLen : Nat} (fits : udpLen < 256 ^ 2) :
    udpPayloadLength udpLen = (udpLen : Int) - 8 := by
  rw [udpPayloadLength, Int32.toInt, UInt32.toBitVec_toInt32,
    BitVec.toInt_eq_toNat_cond, UInt32.toNat_toBitVec, UInt64.toNat_toUInt32,
    UInt64.toNat_sub, UInt64.toNat_ofNat', UInt64.toNat_ofNat', sizeofUdphdr]
  split
  next => omega
  next => omega

/-- After at most one tag the EtherType is that of IPv4. -/
structure HoldsEthertype (bytes : List UInt8) : Prop where
  inside : ipOffset bytes ≤ bytes.length
  ethertype : wordAt bytes (ipOffset bytes - 2) 2 = ethPIp

theorem protoIsVlan_iff (inside : 12 + 2 ≤ packet.length) :
    protoIsVlan (ofLittleEndian (slice packet 12 2)) ↔ Tagged packet := by
  rw [protoIsVlan, slice_eq_htons inside (by decide),
    slice_eq_htons inside (by decide)]
  exact Iff.rfl

theorem skipVlanHeaders_finds (room : 12 + 2 ≤ packet.length) :
    ∃ proto vlh, skipVlanHeaders packet vlanMaxDepth sizeofEthhdr
        (ofLittleEndian (slice packet 12 2)) = .ok (proto, vlh) ∧
      (proto = htons ethPIp ↔ HoldsEthertype packet) ∧
      (HoldsEthertype packet → vlh = ipOffset packet) := by
  have holdsIff (inside : ipOffset packet ≤ packet.length) :
      ofLittleEndian (slice packet (ipOffset packet - 2) 2) = htons ethPIp ↔
        HoldsEthertype packet := by
    rw [← not_not (a := _ = _), ethertype_iff inside]
    exact ⟨fun ethertype => ⟨inside, ethertype⟩, fun holds => holds.ethertype⟩
  rw [vlanMaxDepth, skipVlanHeaders]
  by_cases tagged : Tagged packet
  · have offset : ipOffset packet = 18 := if_pos tagged
    have vlan := (protoIsVlan_iff room).mpr tagged
    rw [if_neg (not_not.mpr vlan)]
    by_cases cut : packet.length < sizeofEthhdr + sizeofVlanHdr
    · have other : ¬ HoldsEthertype packet := by
        intro holds
        have inside := holds.inside
        rw [sizeofEthhdr, sizeofVlanHdr] at cut
        omega
      rw [if_pos cut]
      refine ⟨_, _, rfl, ⟨fun same => ?_, fun holds => absurd holds other⟩,
        fun holds => absurd holds other⟩
      rcases vlan with dot1q | dot1ad
      · rw [dot1q] at same
        exact absurd same (by decide)
      · rw [dot1ad] at same
        exact absurd same (by decide)
    · have inside : 14 + 2 + 2 ≤ packet.length := Nat.le_of_not_lt cut
      have holds := holdsIff (offset ▸ inside)
      rw [offset] at holds
      rw [if_neg cut, sizeofEthhdr, load_inside inside]
      exact ⟨_, _, rfl, holds, fun _ => offset.symm⟩
  · have offset : ipOffset packet = 14 := if_neg tagged
    have holds := holdsIff (offset ▸ room)
    rw [offset] at holds
    rw [if_pos (mt (protoIsVlan_iff room).mp tagged)]
    exact ⟨_, _, rfl, holds, fun _ => offset.symm⟩

theorem parseEthhdr_finds (packet : List UInt8) :
    ∃ eth, parseEthhdr packet 0 = .ok eth ∧
      (eth.answer = htons ethPIp ↔ HoldsEthertype packet) ∧
      (HoldsEthertype packet → eth.pos = ipOffset packet) := by
  have ethernet := sizeofEthhdr_le_ipOffset packet
  rw [parseEthhdr, Nat.zero_add, Nat.zero_add]
  by_cases short : packet.length < sizeofEthhdr
  · have other : ¬ HoldsEthertype packet := by
      intro holds
      exact absurd (Nat.le_trans ethernet holds.inside) (Nat.not_le.mpr short)
    rw [if_pos short]
    refine ⟨_, rfl, ⟨fun same => ?_, fun holds => absurd holds other⟩,
      fun holds => absurd holds other⟩
    cases same
  · have room : 12 + 2 ≤ packet.length := Nat.le_of_not_lt short
    obtain ⟨proto, vlh, skipped, answer, pos⟩ := skipVlanHeaders_finds room
    rw [if_neg short, load_inside room]
    simp only [bind, Except.bind, skipped]
    refine ⟨_, rfl, ?_, pos⟩
    rw [Int.natCast_inj, answer]

theorem parseIphdr_finds (pos : Nat) :
    ∃ iph, parseIphdr packet pos = .ok iph ∧
      (iph.answer = ipprotoUdp ↔
        pos + sizeofIphdr ≤ packet.length ∧
          sizeofIphdr ≤ (wordAt packet pos 1 &&& 0x0F) * 4 ∧
          pos + (wordAt packet pos 1 &&& 0x0F) * 4 ≤ packet.length ∧
          wordAt packet (pos + 9) 1 = ipprotoUdp) ∧
      (iph.answer = ipprotoUdp →
        iph.pos = pos + (wordAt packet pos 1 &&& 0x0F) * 4 ∧
          iph.header = pos) := by
  have failed : ¬ (-1 : Int) = ipprotoUdp := by decide
  rw [parseIphdr]
  by_cases short : packet.length < pos + sizeofIphdr
  · rw [if_pos short]
    refine ⟨_, rfl, ⟨fun same => absurd same failed, fun holds => ?_⟩,
      fun same => absurd same failed⟩
    exact absurd short (Nat.not_lt.mpr holds.1)
  · have room := Nat.le_of_not_lt short
    rw [sizeofIphdr] at room
    have first : pos + 1 ≤ packet.length := by omega
    have protocol : pos + 9 + 1 ≤ packet.length := by omega
    rw [if_neg short, load_inside first, ofLittleEndian_byte first,
      load_inside protocol, ofLittleEndian_byte protocol]
    simp only [bind, Except.bind, pure, Except.pure]
    by_cases small : (wordAt packet pos 1 &&& 0x0F) * 4 < sizeofIphdr
    · rw [if_pos small]
      refine ⟨_, rfl, ⟨fun same => absurd same failed, fun holds => ?_⟩,
        fun same => absurd same failed⟩
      exact absurd small (Nat.not_lt.mpr holds.2.1)
    · rw [if_neg small]
      by_cases cut : packet.length < pos + (wordAt packet pos 1 &&& 0x0F) * 4
      · rw [if_pos cut]
        refine ⟨_, rfl, ⟨fun same => absurd same failed, fun holds => ?_⟩,
          fun same => absurd same failed⟩
        exact absurd cut (Nat.not_lt.mpr holds.2.2.1)
      · rw [if_neg cut]
        refine ⟨_, rfl, ?_, fun _ => ⟨rfl, rfl⟩⟩
        rw [Int.natCast_inj]
        constructor
        · intro same
          exact ⟨room, Nat.le_of_not_lt small, Nat.le_of_not_lt cut, same⟩
        · intro holds
          exact holds.2.2.2

theorem parseUdphdr_finds (pos : Nat) :
    ∃ udph, parseUdphdr packet pos = .ok udph ∧
      (0 ≤ udph.answer →
        pos + sizeofUdphdr ≤ packet.length ∧ udph.header = pos ∧
          udph.answer = wordAt packet (pos + 4) 2 - sizeofUdphdr) ∧
      (pos + sizeofUdphdr ≤ packet.length →
        sizeofUdphdr ≤ wordAt packet (pos + 4) 2 →
          udph.answer = wordAt packet (pos + 4) 2 - sizeofUdphdr) := by
  have failed : ¬ (0 : Int) ≤ -1 := by decide
  rw [parseUdphdr]
  by_cases short : packet.length < pos + sizeofUdphdr
  · rw [if_pos short]
    exact ⟨_, rfl, fun answered => absurd answered failed,
      fun room => absurd short (Nat.not_lt.mpr room)⟩
  · have room := Nat.le_of_not_lt short
    rw [sizeofUdphdr] at room
    have length : pos + 4 + 2 ≤ packet.length := by omega
    have lengthEq := udpPayloadLength_eq (wordAt_lt length)
    rw [if_neg short, load_inside length]
    simp only [bind, Except.bind, pure, Except.pure, ntohs_slice length,
      lengthEq]
    by_cases negative : (wordAt packet (pos + 4) 2 : Int) - 8 < 0
    · rw [if_pos negative]
      refine ⟨_, rfl, fun answered => absurd answered failed, ?_⟩
      intro _ covers
      rw [sizeofUdphdr] at covers
      omega
    · rw [if_neg negative]
      exact ⟨_, rfl, fun _ => ⟨room, rfl, rfl⟩, fun _ _ => rfl⟩

/-- The filters pass exactly the packets with a datagram for the order
entry. -/
theorem headerFilters_filters (packet : List UInt8) :
    Filters (headerFilters packet) (HoldsDatagram packet) () := by
  obtain ⟨eth, ethParsed, ethAnswer, ethPos⟩ := parseEthhdr_finds packet
  obtain ⟨iph, iphParsed, iphAnswer, iphPos⟩ :=
    @parseIphdr_finds packet (ipOffset packet)
  obtain ⟨udph, udphParsed, udphAnswer, udphCovers⟩ :=
    @parseUdphdr_finds packet (udpOffset packet)
  apply Decides.congr
  · apply Decides.step ethParsed
    apply Filters.passIf
    intro ethertype
    have holds := ethAnswer.mp (not_not.mp ethertype)
    rw [ethPos holds]
    apply Decides.step iphParsed
    apply Filters.passIf
    intro udp
    have room := (iphAnswer.mp (not_not.mp udp)).1
    rw [sizeofIphdr] at room
    have fragment : ipOffset packet + 6 + 2 ≤ packet.length := by omega
    rw [(iphPos (not_not.mp udp)).2]
    apply Decides.step (load_inside fragment)
    rw [ntohs_slice fragment]
    apply Filters.passIf
    intro whole
    rw [(iphPos (not_not.mp udp)).1]
    apply Decides.step udphParsed
    apply Filters.passIf
    intro answered
    obtain ⟨udpRoom, header, _⟩ := udphAnswer (Int.not_lt.mp answered)
    rw [sizeofUdphdr] at udpRoom
    have dest : udpOffset packet + 2 + 2 ≤ packet.length := by omega
    rw [header]
    apply Decides.step (load_inside dest)
    rw [ntohs_slice dest]
    apply Filters.passIf
    intro port
    exact .final ⟨_, rfl⟩
  · constructor
    · intro datagram
      have holds : HoldsEthertype packet :=
        ⟨Nat.le_of_add_right_le datagram.room, datagram.ethertype⟩
      have udp := iphAnswer.mpr ⟨datagram.room, datagram.headerRoom,
        datagram.headerInside, datagram.udp⟩
      have covers := datagram.udpCovers
      have answer := udphCovers datagram.udpInside
        (Nat.le_of_add_right_le covers)
      rw [sizeofUdphdr, OrderWireFormat.size] at covers
      rw [sizeofUdphdr] at answer
      refine ⟨not_not.mpr (ethAnswer.mpr holds), not_not.mpr udp,
        not_not.mpr datagram.whole, ?_, not_not.mpr datagram.port, ?_⟩
      · omega
      · rw [hydraOrderWireBytes]
        omega
    · intro passed
      obtain ⟨ethertype, udp, whole, answered, port, long⟩ := passed
      have holds := ethAnswer.mp (not_not.mp ethertype)
      obtain ⟨room, headerRoom, headerInside, protocol⟩ :=
        iphAnswer.mp (not_not.mp udp)
      obtain ⟨udpInside, _, answer⟩ := udphAnswer (Int.not_lt.mp answered)
      rw [hydraOrderWireBytes] at long
      rw [sizeofUdphdr] at answer
      exact
        { room, ethertype := holds.ethertype
          headerRoom, headerInside
          udp := protocol
          whole := not_not.mp whole
          udpInside
          port := not_not.mp port
          udpCovers := by
            rw [sizeofUdphdr, OrderWireFormat.size]
            omega }

end Helpers

/-- What the parser accepts is redirected. -/
theorem redirected_of_accepted {frame : Frame} {out next : Order}
    (accepted : parseOrderZeroCopy (some frame) out = .ok (true, next))
    (xsksMap : UInt32 → Bool) (rxQueueIndex : UInt32) :
    headerFilters frame.bytes = .ok () ∧
      (xsksMap rxQueueIndex = true →
        hydraXdpRedirect xsksMap rxQueueIndex frame.bytes =
          .ok (.redirected, .redirect rxQueueIndex)) := by
  have datagram : HoldsDatagram frame.bytes := by
    by_contra other
    have rejected := @parseOrderZeroCopy_reject frame out fun shape =>
      other shape.1
    rw [rejected] at accepted
    cases accepted
  have passed := (headerFilters_filters frame.bytes).accepts datagram
  refine ⟨passed, ?_⟩
  intro registered
  rw [hydraXdpRedirect, passed]
  simp only [registered, if_true]

/-- The frame with a VLAN tag and options, for a queue with a socket. -/
theorem redirected_of_accepted_tagged :
    headerFilters
        (taggedEnvelope.wrap (encodeOrder 258 (-3) 1000 77 .sell .ioc)) =
      .ok () ∧
      ((fun queue => decide (queue = 3)) (3 : UInt32) = true →
        hydraXdpRedirect (fun queue => decide (queue = 3)) 3
            (taggedEnvelope.wrap (encodeOrder 258 (-3) 1000 77 .sell .ioc)) =
          .ok (.redirected, .redirect 3)) := by
  have accepted := @parseOrderZeroCopy_wrap
    { bytes := taggedEnvelope.wrap (encodeOrder 258 (-3) 1000 77 .sell .ioc)
      fits := by decide }
    default taggedEnvelope _ rfl
  rw [acceptWire_encodeOrder (by decide)] at accepted
  exact redirected_of_accepted accepted (fun queue => decide (queue = 3)) 3

/-- A frame that ends behind its UDP header.  Its lengths are those of a whole
order message. -/
def headersOnly : Frame where
  bytes :=
    [2, 0, 0, 0, 0, 1, 2, 0, 0, 0, 0, 2, 8, 0,
      0x45, 0, 0, 58, 0, 0, 0, 0, 64, 17, 0, 0, 10, 0, 0, 1, 10, 0, 0, 2,
      0x30, 0x39, 0x9C, 0x40, 0, 38, 0, 0]
  fits := by decide

/-- The classifier lets the frame through, and the parser rejects its shape. -/
theorem headersOnly_diverges :
    headerFilters headersOnly.bytes = .ok () ∧
      hydraXdpRedirect (fun _ => true) 0 headersOnly.bytes =
        .ok (.redirected, .redirect 0) ∧
      locateWire headersOnly.bytes = .error .reject := by
  decide

/-- A frame that the classifier lets through passes the checks of the parser on
its shape exactly if its version and its total length are honest. -/
theorem locateWire_iff_honest {frame : Frame}
    (passed : headerFilters frame.bytes = .ok ()) :
    (∃ wireOff, locateWire frame.bytes = .ok wireOff) ↔
      HonestLengths frame.bytes := by
  have datagram := ((headerFilters_filters frame.bytes).of_ok passed).1
  constructor
  · intro ⟨wireOff, located⟩
    exact ((locateWire_parses frame.bytes).of_ok located).1.2
  · intro honest
    exact ⟨_, (locateWire_parses frame.bytes).accepts ⟨datagram, honest⟩⟩

theorem locateWire_iff_honest_headersOnly :
    (∃ wireOff, locateWire headersOnly.bytes = .ok wireOff) ↔
      HonestLengths headersOnly.bytes :=
  locateWire_iff_honest (by decide)

end Hydra
