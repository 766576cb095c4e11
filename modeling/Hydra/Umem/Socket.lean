import Hydra.Library.Custody
import Hydra.Library.Machine
import Hydra.Pipeline.Producers

/-!
# The frames of an AF_XDP socket

The free-frame stack of `XdpSocket`, its two rings on the receiving side, the
kernel and the caller, as one machine.  The calls of libxdp are known by their
documentation only: the number of free entries and the outcome of a reservation
are chosen by the steps, and the kernel takes frames from one ring and returns
them on the other.
-/

namespace Hydra

/-- `AFXDP_NUM_FRAMES`. -/
def afxdpNumFrames : Nat := 4096

/-- `AFXDP_FRAME_SIZE`. -/
def afxdpFrameSize : UInt64 := 4096

/-- The frame that an address of the UMEM lies in. -/
def frameOf (addr : UInt64) : UInt64 :=
  addr / afxdpFrameSize

/-- A received packet: its address in the UMEM, and its length. -/
structure FrameDescriptor where
  addr : UInt64
  len : UInt32
  deriving DecidableEq

/-- The receiving side of an AF_XDP socket, with the free list of its frames. -/
structure XdpSocket where
  numFrames : Nat
  /-- The part of the array below `free_frame_count_`, from its end. -/
  freeFrames : List UInt64
  doubleReleaseCount : UInt64
  fillRing : List UInt64
  rxRing : List FrameDescriptor
  deriving DecidableEq

namespace XdpSocket

def freeFrameCount (socket : XdpSocket) : Nat :=
  socket.freeFrames.length

/-- `count` frames go from the end of the array to the FILL ring. -/
def stock (socket : XdpSocket) (count : Nat) : XdpSocket :=
  { socket with
    freeFrames := socket.freeFrames.drop count
    fillRing := socket.fillRing ++ socket.freeFrames.take count }

/-- `nbFree` is the answer of `xsk_prod_nb_free`, and `reserves` says whether
`xsk_ring_prod__reserve` grants the reservation; it grants all of it or
nothing.  The kernel sees the entries when all of them are written. -/
def refillFillRing (socket : XdpSocket) (nbFree : UInt32) (reserves : Bool) :
    XdpSocket :=
  if socket.freeFrameCount = 0 then socket
  else
    let want := nbFree.toNat
    let stock :=
      if want < socket.freeFrameCount then want else socket.freeFrameCount
    if stock = 0 then socket
    else
      let reserved := if reserves then stock else 0
      socket.stock reserved

/-- The loop that seeds the allocator. -/
def seedFrames (numFrames : Nat) : List UInt64 :=
  (List.range numFrames).foldl
    (fun frames frame => UInt64.ofNat frame * afxdpFrameSize :: frames) []

/-- A socket with all of its frames on the free list. -/
def seeded (numFrames : Nat) : XdpSocket where
  numFrames
  freeFrames := seedFrames numFrames
  doubleReleaseCount := 0
  fillRing := []
  rxRing := []

/-- The constructor, once its system calls have succeeded. -/
def create (umemSize : UInt64) (nbFree : UInt32) (reserves : Bool) :
    Except String XdpSocket :=
  if umemSize % afxdpFrameSize ≠ 0 then
    .error "XdpSocket: umem_size must be a multiple of AFXDP_FRAME_SIZE"
  else
    let numFrames := (umemSize / afxdpFrameSize).toNat
    if afxdpNumFrames < numFrames then
      .error
        "XdpSocket: umem_size exceeds AFXDP_NUM_FRAMES * AFXDP_FRAME_SIZE"
    else
      .ok ((seeded numFrames).refillFillRing nbFree reserves)

/-- How many frames `recv_batch` asks the RX ring for. -/
def recvWant (max : Nat) : Nat :=
  if max < AfxdpThread.rxBatchSize then max else AfxdpThread.rxBatchSize

/-- `release_frame`: back to the free list, unless the list is full. -/
def releaseFrame (socket : XdpSocket) (addr : UInt64) : XdpSocket :=
  if socket.freeFrameCount < socket.numFrames then
    { socket with freeFrames := addr :: socket.freeFrames }
  else
    { socket with doubleReleaseCount := socket.doubleReleaseCount + 1 }

theorem refillFillRing_eq (socket : XdpSocket) (nbFree : UInt32)
    (reserves : Bool) :
    ∃ count, socket.refillFillRing nbFree reserves = socket.stock count := by
  have nothing : socket = socket.stock 0 := by
    simp [stock]
  simp only [refillFillRing]
  split
  · exact ⟨0, nothing⟩
  · generalize (if nbFree.toNat < socket.freeFrameCount then nbFree.toNat
      else socket.freeFrameCount) = stock
    split
    · exact ⟨0, nothing⟩
    · exact ⟨_, rfl⟩

theorem seedFrames_eq (numFrames : Nat) :
    seedFrames numFrames =
      (List.range numFrames).reverse.map fun frame =>
        UInt64.ofNat frame * afxdpFrameSize := by
  rw [seedFrames, List.map_reverse]
  induction numFrames with
  | zero => rfl
  | succ numFrames induction =>
      rw [List.range_succ, List.foldl_append, induction]
      simp

/-- The seeded addresses are the starts of the frames. -/
theorem frameOf_seed {frame : Nat} (small : frame < afxdpNumFrames) :
    frameOf (UInt64.ofNat frame * afxdpFrameSize) = UInt64.ofNat frame := by
  have below : frame < 4096 := small
  have frameNat : (UInt64.ofNat frame).toNat = frame :=
    UInt64.toNat_ofNat_of_lt' (by
      have size : UInt64.size = 2 ^ 64 := rfl
      omega)
  have sizeNat : afxdpFrameSize.toNat = 4096 := rfl
  apply UInt64.toNat_inj.mp
  rw [frameOf, UInt64.toNat_div, UInt64.toNat_mul, frameNat, sizeNat,
    Nat.mod_eq_of_lt (by omega)]
  omega

end XdpSocket

/-- The socket with what the kernel and the caller hold. -/
structure Umem where
  socket : XdpSocket
  /-- The frames that the kernel has taken, by the addresses it took. -/
  kernel : List UInt64
  /-- The descriptors that were handed out and not released. -/
  caller : List FrameDescriptor
  /-- Whether `recv_batch` stands between its two halves. -/
  refilled : Bool
  deriving DecidableEq

/-- A frame goes from one party to another. -/
inductive UmemEvent where
  | kernelTakes (addr : UInt64)
  | kernelReturns (frame : FrameDescriptor)
  | refill
  | receive (frames : List FrameDescriptor)
  | release (addr : UInt64)

namespace Umem

/-- The caller has no descriptor with this address: the frame was released
before, or the address was never handed out. -/
def Erroneous (umem : Umem) (addr : UInt64) : Prop :=
  addr ∉ umem.caller.map FrameDescriptor.addr

/-- The steps of the kernel, of `recv_batch` in its two halves, and of
`release_frame` with any address. -/
inductive Step : Umem → UmemEvent → Umem → Prop where
  | kernelTakes {umem addr rest}
      (oldest : umem.socket.fillRing = addr :: rest) :
      Step umem (.kernelTakes addr)
        { umem with
          socket := { umem.socket with fillRing := rest }
          kernel := addr :: umem.kernel }
  | kernelReturns {umem addr} (frame : FrameDescriptor)
      (taken : addr ∈ umem.kernel)
      (inside : frameOf frame.addr = frameOf addr) :
      Step umem (.kernelReturns frame)
        { umem with
          socket :=
            { umem.socket with rxRing := umem.socket.rxRing ++ [frame] }
          kernel := umem.kernel.erase addr }
  | refill {umem} (nbFree : UInt32) (reserves : Bool)
      (begins : umem.refilled = false) :
      Step umem .refill
        { umem with
          socket := umem.socket.refillFillRing nbFree reserves
          refilled := true }
  | receive {umem} (max rcvd : Nat) (continues : umem.refilled = true)
      (wanted : rcvd ≤ XdpSocket.recvWant max)
      (present : rcvd ≤ umem.socket.rxRing.length) :
      Step umem (.receive (umem.socket.rxRing.take rcvd))
        { umem with
          socket :=
            { umem.socket with rxRing := umem.socket.rxRing.drop rcvd }
          caller := umem.caller ++ umem.socket.rxRing.take rcvd
          refilled := false }
  | release {umem} (addr : UInt64) (outside : umem.refilled = false) :
      Step umem (.release addr)
        { umem with
          socket := umem.socket.releaseFrame addr
          caller := umem.caller.eraseP fun frame => frame.addr = addr }

/-- A socket right after its constructor. -/
def opened (socket : XdpSocket) : Umem where
  socket
  kernel := []
  caller := []
  refilled := false

/-- All uses of a socket on a UMEM of a given size. -/
def uses (umemSize : UInt64) : Machine Umem UmemEvent where
  initial umem := ∃ nbFree reserves socket,
    XdpSocket.create umemSize nbFree reserves = .ok socket ∧
      umem = .opened socket
  step := Step

/-- Where a frame can be. -/
inductive Place where
  | freeList
  | fillRing
  | kernel
  | rxRing
  | caller
  deriving DecidableEq

/-- The frames at a place. -/
def held (umem : Umem) : Place → List UInt64
  | .freeList => umem.socket.freeFrames.map frameOf
  | .fillRing => umem.socket.fillRing.map frameOf
  | .kernel => umem.kernel.map frameOf
  | .rxRing => umem.socket.rxRing.map fun frame => frameOf frame.addr
  | .caller => umem.caller.map fun frame => frameOf frame.addr

/-- The frames of the UMEM. -/
def IsFrame (umem : Umem) (frame : UInt64) : Prop :=
  frame.toNat < umem.socket.numFrames

/-- Every frame is at exactly one place. -/
def Conserved (umem : Umem) : Prop :=
  Custody.Exact umem.IsFrame umem.held

end Umem

end Hydra
