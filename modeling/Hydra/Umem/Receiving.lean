import Hydra.Umem.Frames

/-!
# The frames of the receiving thread

The loop of `afxdp_rx_thread_fn` on its socket.  The thread releases every
descriptor that it receives, once and in order, whatever becomes of the packet;
so its releases are never erroneous, and the frames are conserved.
-/

namespace Hydra

namespace AfxdpPoint

/-- The descriptors of the batch that are not released. -/
def unprocessed {Frame : Type} : AfxdpPoint Frame → List Frame
  | batch frames | pushing _ _ frames => frames
  | loop | receive | exited => []

end AfxdpPoint

/-- The thread with its socket. -/
structure AfxdpReceiver where
  umem : Umem
  thread : AfxdpThread FrameDescriptor

/-- What happens to the UMEM, or in the thread. -/
inductive ReceiverEvent where
  | umem (event : UmemEvent)
  | thread (event : IngestEvent)

namespace AfxdpReceiver

/-- Whether the next step of the thread calls the socket. -/
def CallsSocket : AfxdpPoint FrameDescriptor → Prop
  | .receive | .batch (_ :: _) => True
  | .loop | .batch [] | .pushing _ _ _ | .exited => False

/-- The steps of the kernel and of the thread.  What `parse` makes of a frame,
and what the stop token says, may differ from step to step. -/
inductive Step : AfxdpReceiver → ReceiverEvent → AfxdpReceiver → Prop where
  | kernelTakes {state addr umem}
      (taken : Umem.Step state.umem (.kernelTakes addr) umem) :
      Step state (.umem (.kernelTakes addr)) { state with umem }
  | kernelReturns {state frame umem}
      (taken : Umem.Step state.umem (.kernelReturns frame) umem) :
      Step state (.umem (.kernelReturns frame)) { state with umem }
  | refill {state umem} (receiving : state.thread.point = .receive)
      (taken : Umem.Step state.umem .refill umem) :
      Step state (.umem .refill) { state with umem }
  | receive {state umem frames thread}
      (parse : FrameDescriptor → Option Order) (stopped : Bool)
      (received : Umem.Step state.umem (.receive frames) umem)
      (taken : AfxdpThread.Step parse stopped state.thread .silent thread)
      (receiving : state.thread.point = .receive)
      (batch : thread.point = .batch frames) :
      Step state (.umem (.receive frames)) { umem, thread }
  | process {state umem frame frames thread event}
      (parse : FrameDescriptor → Option Order) (stopped : Bool)
      (next : state.thread.point = .batch (frame :: frames))
      (released : Umem.Step state.umem (.release frame.addr) umem)
      (taken : AfxdpThread.Step parse stopped state.thread event thread) :
      Step state (.umem (.release frame.addr)) { umem, thread }
  | thread {state thread event}
      (parse : FrameDescriptor → Option Order) (stopped : Bool)
      (alone : ¬ CallsSocket state.thread.point)
      (taken : AfxdpThread.Step parse stopped state.thread event thread) :
      Step state (.thread event) { state with thread }

/-- The descriptors that were received and the addresses that were released. -/
structure Log where
  received : List FrameDescriptor
  released : List UInt64

def Log.record (log : Log) : ReceiverEvent → Log
  | .umem (.receive frames) => { log with received := log.received ++ frames }
  | .umem (.release addr) => { log with released := log.released ++ [addr] }
  | _ => log

/-- The runs of the thread, once its socket is open. -/
def receiving (umemSize : UInt64) :
    Machine (AfxdpReceiver × Log) ReceiverEvent :=
  Machine.withGhost
    { initial := fun state =>
        (Umem.uses umemSize).initial state.umem ∧ state.thread = .start
      step := Step }
    { received := [], released := [] }
    fun _ event _ log => log.record event

variable {state next : AfxdpReceiver} {event : ReceiverEvent} {log : Log}

/-- What the thread keeps in the hands of the caller. -/
structure Orderly (state : AfxdpReceiver) (log : Log) : Prop where
  inHand : state.umem.caller = state.thread.point.unprocessed
  released : log.received.map FrameDescriptor.addr =
    log.released ++ state.umem.caller.map FrameDescriptor.addr
  between : state.umem.refilled = true → state.thread.point = .receive

theorem unprocessed_process {parse : FrameDescriptor → Option Order}
    {stopped : Bool} {thread next : AfxdpThread FrameDescriptor}
    {event : IngestEvent} {frame : FrameDescriptor}
    {frames : List FrameDescriptor}
    (taken : AfxdpThread.Step parse stopped thread event next)
    (point : thread.point = .batch (frame :: frames)) :
    next.point.unprocessed = frames := by
  cases taken with
  | exit at_point | enter at_point | receive at_point | batchDone at_point
  | pushed at_point | dropped at_point | attempt at_point =>
      rw [point] at at_point
      cases at_point
  | parseError at_point | produce timestampNs at_point =>
      rw [point] at at_point
      cases at_point
      rfl

theorem unprocessed_alone {parse : FrameDescriptor → Option Order}
    {stopped : Bool} {thread next : AfxdpThread FrameDescriptor}
    {event : IngestEvent}
    (taken : AfxdpThread.Step parse stopped thread event next)
    (alone : ¬ CallsSocket thread.point) :
    next.point.unprocessed = thread.point.unprocessed := by
  cases taken with
  | receive at_point | parseError at_point | produce timestampNs at_point =>
      rw [at_point] at alone
      exact absurd trivial alone
  | exit at_point | enter at_point | batchDone at_point | attempt at_point
  | pushed at_point | dropped at_point =>
      rw [at_point]
      rfl

theorem Step.orderly (taken : Step state event next)
    (orderly : state.Orderly log) : next.Orderly (log.record event) := by
  obtain ⟨inHand, released, between⟩ := orderly
  cases taken with
  | kernelTakes taken | kernelReturns taken =>
      cases taken
      exact ⟨inHand, released, between⟩
  | refill receiving taken =>
      cases taken
      exact ⟨inHand, released, fun _ => receiving⟩
  | receive parse stopped received taken receiving batch =>
      have empty : state.umem.caller = [] := by
        rw [inHand, receiving]
        rfl
      cases received
      refine ⟨?_, ?_, ?_⟩
      · rw [batch, empty]
        rfl
      · simp [Log.record, released, empty]
      · intro refilled
        cases refilled
  | process parse stopped point release taken =>
      cases release with
      | release addr outside =>
          simp only [point, AfxdpPoint.unprocessed] at inHand
          refine ⟨?_, ?_, ?_⟩
          · rw [unprocessed_process taken point, inHand]
            simp
          · simp [Log.record, released, inHand]
          · intro refilled
            rw [outside] at refilled
            cases refilled
  | thread parse stopped alone taken =>
      refine ⟨?_, released, ?_⟩
      · rw [unprocessed_alone taken alone, inHand]
      · intro refilled
        rw [between refilled] at alone
        exact absurd trivial alone

theorem receiving_orderly {umemSize : UInt64}
    (reachable : (receiving umemSize).Reachable (state, log)) :
    state.Orderly log := by
  refine Machine.Reachable.ghost_invariant Orderly ?_ ?_ reachable
  · intro state initial
    obtain ⟨⟨_, _, _, _, opened⟩, started⟩ := initial
    refine ⟨?_, ?_, ?_⟩
    · rw [opened, started]
      rfl
    · rw [opened]
      rfl
    · intro refilled
      rw [opened] at refilled
      cases refilled
  · intro state log event next orderly taken
    exact taken.orderly orderly

theorem Step.uses {umemSize : UInt64} (taken : Step state event next)
    (orderly : state.Orderly log)
    (held : (Umem.countedUses umemSize Umem.Careful).Reachable
      (state.umem, 0)) :
    (Umem.countedUses umemSize Umem.Careful).Reachable (next.umem, 0) := by
  cases taken with
  | kernelTakes taken | kernelReturns taken | refill receiving taken
  | receive parse stopped taken =>
      refine Umem.counted_step held ?_ taken
      exact trivial
  | @process umem frame frames thread ingest parse stopped point released =>
      have correct : ¬ state.umem.Erroneous frame.addr := by
        rw [Umem.Erroneous, orderly.inHand, point]
        simp [AfxdpPoint.unprocessed]
      have careful : state.umem.Careful (.release frame.addr) :=
        fun erroneous => absurd erroneous correct
      have stepped := Umem.counted_step held careful released
      rwa [Umem.countErrors, if_neg correct] at stepped
  | thread parse stopped alone taken => exact held

theorem receiving_uses {umemSize : UInt64}
    (reachable : (receiving umemSize).Reachable (state, log)) :
    (Umem.countedUses umemSize Umem.Careful).Reachable (state.umem, 0) := by
  refine Machine.Reachable.map (fun pair => (pair.1.umem, 0)) ?_ ?_ reachable
  · intro pair initial
    exact ⟨initial.1.1, rfl⟩
  · intro pair event next earlier held taken
    exact taken.1.uses (receiving_orderly earlier) held

/-- Where the frames of the UMEM are while the thread runs. -/
structure FramesKept (umemSize : UInt64) (state : AfxdpReceiver) (log : Log) :
    Prop where
  size : state.umem.socket.numFrames = (umemSize / afxdpFrameSize).toNat
  /-- Every frame is at exactly one place. -/
  one_place : ∀ frame, state.umem.IsFrame frame →
    ∃! place, frame ∈ state.umem.held place
  once : ∀ place, (state.umem.held place).Nodup
  only : ∀ place, ∀ frame ∈ state.umem.held place, state.umem.IsFrame frame
  /-- The caller holds what is left of the batch. -/
  caller : state.umem.caller = state.thread.point.unprocessed
  bounded : state.umem.socket.freeFrameCount ≤ state.umem.socket.numFrames
  /-- The received descriptors are those that were released, each of them
  once, and after them those that are left. -/
  released : log.received.map FrameDescriptor.addr =
    log.released ++ state.umem.caller.map FrameDescriptor.addr
  clean : state.umem.socket.doubleReleaseCount = 0

theorem receiving_frames {umemSize : UInt64}
    (reachable : (receiving umemSize).Reachable (state, log)) :
    state.FramesKept umemSize log := by
  have orderly := receiving_orderly reachable
  have sane := Umem.careful_sane (receiving_uses reachable)
  exact {
    size := sane.size
    one_place := fun frame valid => sane.conserved.unique valid
    once := sane.conserved.once
    only := fun place frame member => sane.conserved.valid member
    caller := orderly.inHand
    bounded := sane.conserved.freeFrameCount_le
    released := orderly.released
    clean := sane.counted }

/-- One packet arrives in a UMEM of two frames, and its parse fails. -/
theorem receiving_frames_parse_error : ∃ state log,
    (receiving 8192).Reachable (state, log) ∧ log.released = [4352] ∧
      state.FramesKept 8192 log := by
  have step : ∀ {state log event next},
      (receiving 8192).Reachable (state, log) → Step state event next →
      (receiving 8192).Reachable (next, log.record event) :=
    fun reachable taken => .step reachable ⟨taken, rfl⟩
  have start : (receiving 8192).Reachable
      ({ umem := .opened ((XdpSocket.seeded 2).stock 2), thread := .start },
        { received := [], released := [] }) :=
    .initial ⟨⟨⟨2, true, _, rfl, rfl⟩, rfl⟩, rfl⟩
  have taken := step start (.kernelTakes (.kernelTakes rfl))
  have returned := step taken (.kernelReturns
    (.kernelReturns { addr := 4352, len := 84 } List.mem_cons_self rfl))
  have entered := step returned
    (.thread (fun _ => none) false id (.enter rfl rfl))
  have refilled := step entered (.refill rfl (.refill 2 true rfl))
  have received := step refilled (.receive (fun _ => none) false
    (.receive 64 1 rfl (by decide) (by decide)) (.receive rfl (by decide)) rfl
    rfl)
  have processed := step received (.process (fun _ => none) false rfl
    (.release 4352 rfl) (.parseError rfl rfl))
  exact ⟨_, _, processed, rfl, receiving_frames processed⟩

end AfxdpReceiver

end Hydra
