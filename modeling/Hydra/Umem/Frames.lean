import Hydra.Umem.Socket

/-!
# Where the frames are

Each step of the socket, of the kernel and of a correct caller transfers frames
from one place to another one.  An erroneous release does no harm only when the
free list is full.
-/

namespace Hydra

namespace Umem

open Custody

variable {umem next : Umem} {event : UmemEvent} {addr : UInt64}

theorem transfer_stock (umem : Umem) (count : Nat) (refilled : Bool) :
    Transfer Place.freeList .fillRing
      ((umem.socket.freeFrames.take count).map frameOf) umem.held
      { umem with socket := umem.socket.stock count, refilled }.held where
  differs := by simp
  taken := by
    simp only [held, XdpSocket.stock]
    rw [← List.map_append, List.take_append_drop]
  put := by
    simp only [held, XdpSocket.stock]
    rw [List.map_append]
    exact List.perm_append_comm
  others place notFree notFill := by
    cases place with
    | freeList => exact absurd rfl notFree
    | fillRing => exact absurd rfl notFill
    | kernel | rxRing | caller => rfl

theorem transfer_taken {rest : List UInt64}
    (oldest : umem.socket.fillRing = addr :: rest) :
    Transfer Place.fillRing .kernel [frameOf addr] umem.held
      { umem with
        socket := { umem.socket with fillRing := rest }
        kernel := addr :: umem.kernel }.held where
  differs := by simp
  taken := by
    simp [held, oldest]
  put := by
    simp [held]
  others place notFill notKernel := by
    cases place with
    | fillRing => exact absurd rfl notFill
    | kernel => exact absurd rfl notKernel
    | freeList | rxRing | caller => rfl

theorem transfer_returned (frame : FrameDescriptor) (taken : addr ∈ umem.kernel)
    (inside : frameOf frame.addr = frameOf addr) :
    Transfer Place.kernel .rxRing [frameOf addr] umem.held
      { umem with
        socket := { umem.socket with rxRing := umem.socket.rxRing ++ [frame] }
        kernel := umem.kernel.erase addr }.held where
  differs := by simp
  taken := by
    have split := (List.perm_cons_erase taken).map frameOf
    simpa [held] using split
  put := by
    simp only [held, List.map_append, List.map_cons, List.map_nil, inside]
    exact List.perm_append_comm
  others place notKernel notRx := by
    cases place with
    | kernel => exact absurd rfl notKernel
    | rxRing => exact absurd rfl notRx
    | freeList | fillRing | caller => rfl

theorem transfer_received (umem : Umem) (rcvd : Nat) :
    Transfer Place.rxRing .caller
      ((umem.socket.rxRing.take rcvd).map fun frame => frameOf frame.addr)
      umem.held
      { umem with
        socket := { umem.socket with rxRing := umem.socket.rxRing.drop rcvd }
        caller := umem.caller ++ umem.socket.rxRing.take rcvd
        refilled := false }.held where
  differs := by simp
  taken := by
    simp only [held]
    rw [← List.map_append, List.take_append_drop]
  put := by
    simp only [held, List.map_append]
    exact List.perm_append_comm
  others place notRx notCaller := by
    cases place with
    | rxRing => exact absurd rfl notRx
    | caller => exact absurd rfl notCaller
    | freeList | fillRing | kernel => rfl

theorem transfer_released {front back : List FrameDescriptor}
    {frame : FrameDescriptor} (split : umem.caller = front ++ frame :: back) :
    Transfer Place.caller .freeList [frameOf frame.addr] umem.held
      { umem with
        socket :=
          { umem.socket with
            freeFrames := frame.addr :: umem.socket.freeFrames }
        caller := front ++ back }.held where
  differs := by simp
  taken := by
    simp [held, split]
  put := by
    simp [held]
  others place notCaller notFree := by
    cases place with
    | caller => exact absurd rfl notCaller
    | freeList => exact absurd rfl notFree
    | fillRing | kernel | rxRing => rfl

theorem frames_length_le {frames : List UInt64} (nodup : frames.Nodup)
    (valid : ∀ frame ∈ frames, umem.IsFrame frame) :
    frames.length ≤ umem.socket.numFrames := by
  have indices : (frames.map UInt64.toNat).Nodup :=
    nodup.map fun _ _ same => UInt64.toNat_inj.mp same
  have inRange : frames.map UInt64.toNat ⊆
      List.range umem.socket.numFrames := by
    intro index member
    obtain ⟨frame, inFrames, rfl⟩ := List.mem_map.mp member
    exact List.mem_range.mpr (valid frame inFrames)
  have bound := (indices.subperm inRange).length_le
  simpa using bound

namespace Conserved

theorem freeFrameCount_le (conserved : umem.Conserved) :
    umem.socket.freeFrameCount ≤ umem.socket.numFrames := by
  have bound := frames_length_le (conserved.once .freeList)
    fun frame member => conserved.valid member
  simpa [held, XdpSocket.freeFrameCount] using bound

/-- While the caller holds a descriptor, the free list is not full. -/
theorem room (conserved : umem.Conserved) {frame : FrameDescriptor}
    (member : frame ∈ umem.caller) :
    umem.socket.freeFrameCount < umem.socket.numFrames := by
  have atCaller : frameOf frame.addr ∈ umem.held .caller :=
    List.mem_map.mpr ⟨frame, member, rfl⟩
  have outside : frameOf frame.addr ∉ umem.held .freeList := by
    intro atFree
    have same := conserved.apart atCaller atFree
    cases same
  have bound := frames_length_le
    (List.nodup_cons.mpr ⟨outside, conserved.once .freeList⟩) (by
      intro other inFrames
      rcases List.mem_cons.mp inFrames with rfl | atFree
      · exact conserved.valid atCaller
      · exact conserved.valid atFree)
  have sizes : umem.socket.freeFrameCount + 1 ≤ umem.socket.numFrames := by
    simpa [held, XdpSocket.freeFrameCount] using bound
  exact sizes

end Conserved

theorem release_correct (conserved : umem.Conserved)
    (correct : ¬ umem.Erroneous addr) :
    Conserved { umem with
      socket := umem.socket.releaseFrame addr
      caller := umem.caller.eraseP fun frame => frame.addr = addr } ∧
    (umem.socket.releaseFrame addr).doubleReleaseCount =
      umem.socket.doubleReleaseCount := by
  have known : addr ∈ umem.caller.map FrameDescriptor.addr := by
    simpa [Erroneous] using correct
  obtain ⟨frame, member, sameAddr⟩ := List.mem_map.mp known
  have found : decide (frame.addr = addr) = true := decide_eq_true sameAddr
  obtain ⟨first, front, back, _, matched, split, erased⟩ :=
    List.exists_of_eraseP (p := fun frame => frame.addr = addr) member found
  obtain rfl : first.addr = addr := of_decide_eq_true matched
  have room := conserved.room
    (split ▸ List.mem_append_right _ List.mem_cons_self)
  rw [XdpSocket.releaseFrame, if_pos room, erased]
  exact ⟨(transfer_released split).exact conserved, rfl⟩

/-- An erroneous release is dropped exactly when the free list is full. -/
theorem release_dropped (umem : Umem) (addr : UInt64)
    (bounded : umem.socket.freeFrameCount ≤ umem.socket.numFrames) :
    umem.socket.releaseFrame addr =
        { umem.socket with
          doubleReleaseCount := umem.socket.doubleReleaseCount + 1 } ↔
      umem.socket.freeFrameCount = umem.socket.numFrames := by
  rw [XdpSocket.releaseFrame]
  split
  next room =>
    constructor
    · intro same
      have frames := congrArg XdpSocket.freeFrames same
      exact absurd frames (List.cons_ne_self _ _)
    · intro full
      omega
  next noRoom =>
    constructor
    · intro _
      omega
    · intro _
      rfl

/-- The precondition of the steps: an erroneous release comes only when every
frame is on the free list. -/
def Careful (umem : Umem) : UmemEvent → Prop
  | .release addr =>
      umem.Erroneous addr →
        umem.socket.freeFrameCount = umem.socket.numFrames
  | _ => True

instance (umem : Umem) (addr : UInt64) : Decidable (umem.Erroneous addr) :=
  inferInstanceAs (Decidable (addr ∉ umem.caller.map FrameDescriptor.addr))

/-- The number of erroneous releases, after an event. -/
def countErrors (umem : Umem) (event : UmemEvent) (_next : Umem)
    (errors : Nat) : Nat :=
  match event with
  | .release addr => if umem.Erroneous addr then errors + 1 else errors
  | _ => errors

/-- The uses of a socket, with the number of erroneous releases. -/
def countedUses (umemSize : UInt64)
    (allowed : Umem → UmemEvent → Prop) : Machine (Umem × Nat) UmemEvent :=
  ((uses umemSize).guarded allowed).withGhost 0 countErrors

theorem counted_step {umemSize : UInt64} {errors : Nat}
    {allowed : Umem → UmemEvent → Prop}
    (reachable : (countedUses umemSize allowed).Reachable (umem, errors))
    (permitted : allowed umem event) (taken : Step umem event next) :
    (countedUses umemSize allowed).Reachable
      (next, countErrors umem event next errors) :=
  .step reachable ⟨⟨permitted, taken⟩, rfl⟩

/-- The frames are conserved and the erroneous releases are counted. -/
structure Sane (umemSize : UInt64) (umem : Umem) (errors : Nat) : Prop where
  conserved : umem.Conserved
  counted : umem.socket.doubleReleaseCount = UInt64.ofNat errors
  size : umem.socket.numFrames = (umemSize / afxdpFrameSize).toNat

theorem seeded_conserved {numFrames : Nat}
    (small : numFrames ≤ afxdpNumFrames) :
    (opened (.seeded numFrames)).Conserved := by
  have freeHeld : (opened (.seeded numFrames)).held .freeList =
      (List.range numFrames).reverse.map UInt64.ofNat := by
    change (XdpSocket.seedFrames numFrames).map frameOf = _
    rw [XdpSocket.seedFrames_eq, List.map_map]
    apply List.map_congr_left
    intro frame member
    have below : frame < numFrames := by simpa using member
    exact XdpSocket.frameOf_seed (Nat.lt_of_lt_of_le below small)
  have others : ∀ place, place ≠ .freeList →
      (opened (.seeded numFrames)).held place = [] := by
    intro place differs
    cases place with
    | freeList => exact absurd rfl differs
    | fillRing | kernel | rxRing | caller => rfl
  have toNat : ∀ {frame}, frame < numFrames →
      (UInt64.ofNat frame).toNat = frame := by
    intro frame below
    have bound : numFrames ≤ 4096 := small
    exact UInt64.toNat_ofNat_of_lt' (by
      have size : UInt64.size = 2 ^ 64 := rfl
      omega)
  have freePlace : ∀ {frame place},
      frame ∈ (opened (.seeded numFrames)).held place →
      place = .freeList := by
    intro frame place member
    by_contra differs
    rw [others place differs] at member
    exact List.not_mem_nil member
  refine ⟨?_, ?_, ?_, ?_⟩
  · intro frame valid
    refine ⟨.freeList, ?_⟩
    rw [freeHeld]
    have below : frame.toNat < numFrames := valid
    exact List.mem_map.mpr ⟨frame.toNat, by simpa using below, by simp⟩
  · intro frame left right inLeft inRight
    rw [freePlace inLeft, freePlace inRight]
  · intro place
    by_cases same : place = .freeList
    · rw [same, freeHeld, List.map_reverse, List.nodup_reverse]
      apply List.Nodup.map_on _ List.nodup_range
      intro left inLeft right inRight equal
      have sameNat := congrArg UInt64.toNat equal
      rwa [toNat (List.mem_range.mp inLeft),
        toNat (List.mem_range.mp inRight)] at sameNat
    · rw [others place same]
      exact List.nodup_nil
  · intro frame place member
    rw [freePlace member, freeHeld] at member
    obtain ⟨index, inRange, rfl⟩ := List.mem_map.mp member
    have below : index < numFrames := by simpa using inRange
    change (UInt64.ofNat index).toNat < numFrames
    rw [toNat below]
    exact below

theorem create_sane {umemSize : UInt64} {nbFree : UInt32} {reserves : Bool}
    {socket : XdpSocket}
    (created : XdpSocket.create umemSize nbFree reserves = .ok socket) :
    (opened socket).Sane umemSize 0 := by
  rw [XdpSocket.create] at created
  split at created
  · cases created
  · simp only at created
    split at created
    · cases created
    next fits =>
      obtain rfl := Except.ok.inj created
      obtain ⟨count, refilled⟩ := (XdpSocket.seeded
        (umemSize / afxdpFrameSize).toNat).refillFillRing_eq nbFree reserves
      rw [refilled]
      have seeded := seeded_conserved (Nat.le_of_not_lt fits)
      exact ⟨(transfer_stock _ count false).exact seeded, rfl, rfl⟩

/-- What one careful step keeps. -/
theorem Step.sane {umemSize : UInt64} {errors : Nat}
    (taken : Step umem event next) (careful : umem.Careful event)
    (sane : umem.Sane umemSize errors) :
    next.Sane umemSize (countErrors umem event next errors) := by
  obtain ⟨conserved, counted, size⟩ := sane
  cases taken with
  | kernelTakes oldest =>
      exact ⟨(transfer_taken oldest).exact conserved, counted, size⟩
  | kernelReturns frame inKernel inside =>
      exact ⟨(transfer_returned frame inKernel inside).exact conserved,
        counted, size⟩
  | refill nbFree reserves begins =>
      obtain ⟨count, refilled⟩ :=
        umem.socket.refillFillRing_eq nbFree reserves
      rw [refilled]
      exact ⟨(transfer_stock umem count true).exact conserved, counted, size⟩
  | receive max rcvd continues wanted present =>
      exact ⟨(transfer_received umem rcvd).exact conserved, counted, size⟩
  | release addr outside =>
      by_cases erroneous : umem.Erroneous addr
      · have full := careful erroneous
        have dropped := (release_dropped umem addr
          conserved.freeFrameCount_le).mpr full
        have sameCaller : (umem.caller.eraseP fun frame => frame.addr = addr) =
            umem.caller := by
          apply List.eraseP_of_forall_not
          intro frame member same
          exact erroneous (List.mem_map.mpr
            ⟨frame, member, of_decide_eq_true same⟩)
        rw [dropped, sameCaller]
        refine ⟨conserved, ?_, size⟩
        simp [countErrors, erroneous, counted]
      · obtain ⟨kept, clean⟩ := release_correct conserved erroneous
        refine ⟨kept, ?_, ?_⟩
        · simp [countErrors, erroneous, clean, counted]
        · rw [← size]
          change (umem.socket.releaseFrame addr).numFrames = _
          rw [XdpSocket.releaseFrame]
          split <;> rfl

theorem careful_sane {umemSize : UInt64} {errors : Nat}
    (reachable : (countedUses umemSize Careful).Reachable (umem, errors)) :
    umem.Sane umemSize errors := by
  refine Machine.Reachable.ghost_invariant (Sane umemSize) ?_ ?_ reachable
  · intro umem initial
    obtain ⟨nbFree, reserves, socket, created, rfl⟩ := initial
    exact create_sane created
  · intro umem errors event next sane taken
    exact taken.2.sane taken.1 sane

/-- No frame is on the free list twice, or on it and in the FILL ring, and the
counter shows the erroneous releases. -/
structure Uncorrupted (umem : Umem) (errors : Nat) : Prop where
  free_once : (umem.held .freeList).Nodup
  free_unfilled : ∀ frame ∈ umem.held .freeList,
    frame ∉ umem.held .fillRing
  counted : umem.socket.doubleReleaseCount = UInt64.ofNat errors

theorem Sane.uncorrupted {umemSize : UInt64} {errors : Nat}
    (sane : umem.Sane umemSize errors) : umem.Uncorrupted errors where
  free_once := sane.conserved.once .freeList
  free_unfilled frame inFree inFill := by
    have same := sane.conserved.apart inFree inFill
    cases same
  counted := sane.counted

/-- As long as every erroneous release finds the free list full, nothing is
corrupted; and the next erroneous release is dropped and counted exactly when
it does so, too. -/
theorem release_frame_guarded {umemSize : UInt64} {errors : Nat}
    (reachable : (countedUses umemSize Careful).Reachable (umem, errors)) :
    umem.Uncorrupted errors ∧
      ∀ addr, umem.Erroneous addr →
        (umem.socket.releaseFrame addr =
            { umem.socket with
              doubleReleaseCount := umem.socket.doubleReleaseCount + 1 } ↔
          umem.socket.freeFrameCount = umem.socket.numFrames) := by
  have sane := careful_sane reachable
  refine ⟨sane.uncorrupted, ?_⟩
  intro addr _
  exact release_dropped umem addr sane.conserved.freeFrameCount_le

theorem release_frame_guarded_full :
    (countedUses 4096 Careful).Reachable
        ({ opened (.seeded 1) with
          socket := { XdpSocket.seeded 1 with doubleReleaseCount := 1 } }, 1) ∧
      Uncorrupted
        { opened (.seeded 1) with
          socket :=
            { XdpSocket.seeded 1 with doubleReleaseCount := 1 } } 1 := by
  have start : (countedUses 4096 Careful).Reachable
      (opened (.seeded 1), 0) :=
    .initial ⟨⟨0, true, _, rfl, rfl⟩, rfl⟩
  have careful : (opened (.seeded 1)).Careful (.release 0) := fun _ => rfl
  have released := counted_step start careful (.release 0 rfl)
  exact ⟨released, (release_frame_guarded released).1⟩

/-- Of two frames in the FILL ring the first one has been received and released
twice. -/
def releasedTwice : Umem :=
  opened
    { numFrames := 2
      freeFrames := [4096, 4096]
      doubleReleaseCount := 0
      fillRing := [0]
      rxRing := [] }

theorem release_frame_corrupts :
    (countedUses 8192 fun _ _ => True).Reachable (releasedTwice, 1) ∧
      ¬ releasedTwice.Uncorrupted 1 := by
  constructor
  · have start : (countedUses 8192 fun _ _ => True).Reachable
        (opened ((XdpSocket.seeded 2).stock 2), 0) :=
      .initial ⟨⟨2, true, _, rfl, rfl⟩, rfl⟩
    have taken := counted_step start trivial (.kernelTakes rfl)
    have returned := counted_step taken trivial
      (.kernelReturns { addr := 4096, len := 84 } List.mem_cons_self rfl)
    have refilled := counted_step returned trivial (.refill 1 true rfl)
    have received := counted_step refilled trivial
      (.receive 64 1 rfl (by decide) (by decide))
    have released := counted_step received trivial (.release 4096 rfl)
    exact counted_step released trivial (.release 4096 rfl)
  · intro uncorrupted
    have twice := uncorrupted.free_once
    revert twice
    decide

end Umem

end Hydra
