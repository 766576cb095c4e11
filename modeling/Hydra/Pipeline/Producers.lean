import Hydra.Dataset.Event
import Hydra.Library.Handover
import Hydra.Pipeline.Matching

/-!
# The producers

The three loops that push orders: `rx_thread_fn`, `afxdp_rx_thread_fn` and
`replay_phase`.  What comes from outside (random draws, frames, readings of the
clock) is chosen by the steps.
-/

namespace Hydra

/-- What a step of a producer does to the queue, or to an order. -/
inductive IngestEvent where
  | silent
  | readClock (nowNs : UInt64)
  | produce (order : Order)
  | push (order : Order) (accepted : Bool)
  | drop

namespace IngestEvent

/-- The event as one of the handing over of orders. -/
def handover : IngestEvent → Handover.Event Order
  | silent | readClock _ => .silent
  | produce order => .take order
  | push order accepted => .offer order accepted
  | drop => .drop

/-- The effect of the event on the queue. -/
def Acts {size : Nat} (queue next : MutexQueue Order size) :
    IngestEvent → Prop
  | push order accepted => queue.push order = (accepted, next)
  | silent | readClock _ | produce _ | drop => next = queue

/-- The orders that the event pushes. -/
def pushed : IngestEvent → List Order
  | push order true => [order]
  | _ => []

/-- A push appends to the queue, and nothing else in it changes. -/
theorem Acts.items {size : Nat} {queue next : MutexQueue Order size}
    {event : IngestEvent} (acts : event.Acts queue next) :
    next.queue = queue.queue ++ event.pushed := by
  cases event with
  | push order accepted =>
      have pushes : queue.push order = (accepted, next) := acts
      rw [MutexQueue.push] at pushes
      split at pushes
      next full =>
        cases pushes
        exact (List.append_nil _).symm
      next room =>
        cases pushes
        rfl
  | silent | readClock | produce | drop =>
      obtain rfl : next = queue := acts
      exact (List.append_nil _).symm

/-- The pushed orders are those that are handed over. -/
theorem handover_passed (event : IngestEvent) (record : Handover.Record Order) :
    (record.add event.handover).passed.map Prod.snd =
      record.passed.map Prod.snd ++ event.pushed := by
  cases event with
  | push order accepted =>
      cases accepted with
      | false => exact (List.append_nil _).symm
      | true => exact List.map_append
  | silent | readClock | produce | drop => exact (List.append_nil _).symm

end IngestEvent

/-- A producer: its steps, given what its stop token says, and the order that
it has neither pushed nor counted yet. -/
structure ProducerThread (Program : Type) where
  start : Program
  step : Bool → Program → IngestEvent → Program → Prop
  inHand : Program → Option Order
  start_inHand : inHand start = none
  moves : ∀ stopped program event next, step stopped program event next →
    event.handover.Moves (inHand program) (inHand next)

/-- The loop of the live producers around `push`. -/
inductive PushLoop where
  | test (attempt : Nat)
  | push (attempt : Nat)
  | done (pushed : Bool)

namespace PushLoop

/-- The attempts at one push: they end with success, after `limit` failures, or
when the thread is asked to stop. -/
inductive Step (limit : Nat) (stopped : Bool) (order : Order) :
    PushLoop → IngestEvent → PushLoop → Prop where
  | again {attempt} (left : attempt < limit) (go : stopped = false) :
      Step limit stopped order (.test attempt) .silent (.push attempt)
  | giveUp {attempt} (exhausted : ¬ (attempt < limit ∧ stopped = false)) :
      Step limit stopped order (.test attempt) .silent (.done false)
  | accepted {attempt} :
      Step limit stopped order (.push attempt) (.push order true)
        (.done true)
  | refused {attempt} :
      Step limit stopped order (.push attempt) (.push order false)
        (.test (attempt + 1))

def inHand (order : Order) : PushLoop → Option Order
  | test _ | push _ | done false => some order
  | done true => none

theorem Step.moves {limit : Nat} {stopped : Bool} {order : Order}
    {loop next : PushLoop} {event : IngestEvent}
    (taken : Step limit stopped order loop event next) :
    event.handover.Moves (loop.inHand order) (next.inHand order) := by
  cases taken with
  | again | giveUp => rfl
  | accepted | refused => exact ⟨rfl, rfl⟩

end PushLoop

/-- Where the synthetic producer stands. -/
inductive RxPoint where
  | loop
  | pushing (order : Order) (loop : PushLoop)
  | exited

/-- The local variables of `rx_thread_fn`. -/
structure RxThread where
  nextOrderId : UInt64
  droppedOrders : UInt64
  point : RxPoint

namespace RxThread

def kSyntheticClientCount : UInt64 := 8

/-- The order of `rx_thread_fn`, with the drawn price and quantity. -/
def order (orderId : UInt64) (price : Int64) (qty : UInt32)
    (timestampNs : UInt64) : Order :=
  { (default : Order) with
    orderId, price, qty, timestampNs
    side := if orderId % 2 = 0 then .buy else .sell
    tif := .gtc
    clientId := 1 + orderId % kSyntheticClientCount }

/-- The steps of `rx_thread_fn`; `stopped` is what its stop token says. -/
inductive Step (stopped : Bool) : RxThread → IngestEvent → RxThread → Prop where
  | exit {thread} (looping : thread.point = .loop) (stop : stopped = true) :
      Step stopped thread .silent { thread with point := .exited }
  | produce {thread} {price : Int64} {qty : UInt32} (timestampNs : UInt64)
      (looping : thread.point = .loop) (go : stopped = false)
      (priceDrawn : 99000 ≤ price ∧ price ≤ 101000)
      (qtyDrawn : 1 ≤ qty ∧ qty ≤ 100) :
      Step stopped thread
        (.produce (order thread.nextOrderId price qty timestampNs))
        { thread with
          nextOrderId := thread.nextOrderId + 1
          point := .pushing (order thread.nextOrderId price qty timestampNs)
            (.test 0) }
  | attempt {thread order loop event next}
      (pushing : thread.point = .pushing order loop)
      (taken : PushLoop.Step kBoundedSpinAttempts stopped order loop event
        next) :
      Step stopped thread event { thread with point := .pushing order next }
  | pushed {thread order}
      (pushing : thread.point = .pushing order (.done true)) :
      Step stopped thread .silent { thread with point := .loop }
  | dropped {thread order}
      (pushing : thread.point = .pushing order (.done false)) :
      Step stopped thread .drop
        { thread with
          droppedOrders := thread.droppedOrders + 1
          point := .loop }

def start : RxThread where
  nextOrderId := 1
  droppedOrders := 0
  point := .loop

def inHand (thread : RxThread) : Option Order :=
  match thread.point with
  | .pushing order loop => loop.inHand order
  | .loop | .exited => none

theorem Step.moves {stopped : Bool} {thread next : RxThread}
    {event : IngestEvent} (taken : Step stopped thread event next) :
    event.handover.Moves thread.inHand next.inHand := by
  cases taken with
  | exit looping stop =>
      rw [inHand, looping]
      rfl
  | produce timestampNs looping go =>
      rw [inHand, looping]
      exact ⟨rfl, rfl⟩
  | attempt pushing taken =>
      rw [inHand, pushing]
      exact taken.moves
  | pushed pushing =>
      rw [inHand, pushing]
      rfl
  | dropped pushing =>
      rw [inHand, pushing]
      exact ⟨rfl, rfl⟩

end RxThread

/-- `rx_thread_fn`. -/
def rxThread : ProducerThread RxThread where
  start := .start
  step := RxThread.Step
  inHand := RxThread.inHand
  start_inHand := rfl
  moves _ _ _ _ taken := taken.moves

/-- Where the receiver stands. -/
inductive AfxdpPoint (Frame : Type) where
  | loop
  | receive
  /-- The frames of the batch that are left. -/
  | batch (frames : List Frame)
  | pushing (order : Order) (loop : PushLoop) (frames : List Frame)
  | exited

/-- The counters of `afxdp_rx_thread_fn`. -/
structure AfxdpThread (Frame : Type) where
  received : UInt64
  parsedOk : UInt64
  parseErrors : UInt64
  dropped : UInt64
  point : AfxdpPoint Frame

namespace AfxdpThread

variable {Frame : Type}

/-- `AFXDP_RX_BATCH_SIZE`. -/
def rxBatchSize : Nat := 64

/-- The steps of `afxdp_rx_thread_fn`; any batch of frames can be received. -/
inductive Step (parseAndRelease : Frame → Option Order) (stopped : Bool) :
    AfxdpThread Frame → IngestEvent → AfxdpThread Frame → Prop where
  | exit {thread} (looping : thread.point = .loop) (stop : stopped = true) :
      Step parseAndRelease stopped thread .silent
        { thread with point := .exited }
  | enter {thread} (looping : thread.point = .loop) (go : stopped = false) :
      Step parseAndRelease stopped thread .silent
        { thread with point := .receive }
  | receive {thread frames} (receiving : thread.point = .receive)
      (fits : frames.length ≤ rxBatchSize) :
      Step parseAndRelease stopped thread .silent
        { thread with point := .batch frames }
  | batchDone {thread} (empty : thread.point = .batch []) :
      Step parseAndRelease stopped thread .silent
        { thread with point := .loop }
  | parseError {thread frame frames}
      (next : thread.point = .batch (frame :: frames))
      (malformed : parseAndRelease frame = none) :
      Step parseAndRelease stopped thread .silent
        { thread with
          received := thread.received + 1
          parseErrors := thread.parseErrors + 1
          point := .batch frames }
  | produce {thread frame frames order} (timestampNs : UInt64)
      (next : thread.point = .batch (frame :: frames))
      (parsed : parseAndRelease frame = some order) :
      Step parseAndRelease stopped thread
        (.produce { order with timestampNs })
        { thread with
          received := thread.received + 1
          point := .pushing { order with timestampNs } (.test 0) frames }
  | attempt {thread order loop frames event next}
      (pushing : thread.point = .pushing order loop frames)
      (taken : PushLoop.Step kBoundedSpinAttempts stopped order loop event
        next) :
      Step parseAndRelease stopped thread event
        { thread with point := .pushing order next frames }
  | pushed {thread order frames}
      (pushing : thread.point = .pushing order (.done true) frames) :
      Step parseAndRelease stopped thread .silent
        { thread with
          parsedOk := thread.parsedOk + 1
          point := .batch frames }
  | dropped {thread order frames}
      (pushing : thread.point = .pushing order (.done false) frames) :
      Step parseAndRelease stopped thread .drop
        { thread with
          dropped := thread.dropped + 1
          point := .batch frames }

def start : AfxdpThread Frame where
  received := 0
  parsedOk := 0
  parseErrors := 0
  dropped := 0
  point := .loop

def inHand (thread : AfxdpThread Frame) : Option Order :=
  match thread.point with
  | .pushing order loop _ => loop.inHand order
  | .loop | .receive | .batch _ | .exited => none

theorem Step.moves {parseAndRelease : Frame → Option Order} {stopped : Bool}
    {thread next : AfxdpThread Frame} {event : IngestEvent}
    (taken : Step parseAndRelease stopped thread event next) :
    event.handover.Moves thread.inHand next.inHand := by
  cases taken with
  | exit at_point | enter at_point | receive at_point | batchDone at_point
  | parseError at_point =>
      rw [inHand, at_point]
      rfl
  | produce timestampNs at_point =>
      rw [inHand, at_point]
      exact ⟨rfl, rfl⟩
  | attempt pushing taken =>
      rw [inHand, pushing]
      exact taken.moves
  | pushed pushing =>
      rw [inHand, pushing]
      rfl
  | dropped pushing =>
      rw [inHand, pushing]
      exact ⟨rfl, rfl⟩

end AfxdpThread

/-- `afxdp_rx_thread_fn`, once its socket is open. -/
def afxdpThread {Frame : Type} (parseAndRelease : Frame → Option Order) :
    ProducerThread (AfxdpThread Frame) where
  start := .start
  step := AfxdpThread.Step parseAndRelease
  inHand := AfxdpThread.inHand
  start_inHand := rfl
  moves _ _ _ _ taken := taken.moves

/-- The result of a phase, but for the sum of the push times. -/
structure ReplayPhaseResult where
  dropped : UInt64 := 0
  maxDriftNs : UInt64 := 0
  pushNsMax : UInt64 := 0
  pushCount : UInt64 := 0

def kBoundedPushAttempts : Nat := 1000

/-- The arguments of `replay_phase`. -/
structure Replay where
  events : List DatasetEvent
  first : Nat
  last : Nat

/-- Where a phase stands. -/
inductive ReplayPoint where
  | begin
  | loop (index : Nat)
  | pace (index : Nat) (event : DatasetEvent) (targetNs : UInt64)
  | stamp (index : Nat) (event : DatasetEvent) (targetNs : UInt64)
  | test (index : Nat) (event : DatasetEvent) (order : Order) (attempt : Nat)
  | push (index : Nat) (event : DatasetEvent) (order : Order) (attempt : Nat)
      (pushStartNs : UInt64)
  | accepted (index : Nat) (event : DatasetEvent) (pushStartNs : UInt64)
  | pushed (index : Nat) (event : DatasetEvent)
  | returned

/-- The local variables of `replay_phase`. -/
structure ReplayThread where
  phaseStartNs : UInt64
  baseOffsetNs : UInt64
  result : ReplayPhaseResult
  /-- The calls of `on_push`. -/
  onPush : List (Nat × DatasetEvent)
  point : ReplayPoint

namespace ReplayThread

def start : ReplayThread where
  phaseStartNs := 0
  baseOffsetNs := 0
  result := {}
  onPush := []
  point := .begin

/-- The result after the push of an event has started at `t1Ns`. -/
def drift (result : ReplayPhaseResult) (t1Ns targetNs : UInt64) :
    ReplayPhaseResult :=
  if targetNs < t1Ns then
    { result with maxDriftNs := max result.maxDriftNs (t1Ns - targetNs) }
  else
    result

/-- The steps of `replay_phase`. -/
inductive Step (replay : Replay) :
    ReplayThread → IngestEvent → ReplayThread → Prop where
  | begin {thread event} (nowNs : UInt64) (beginning : thread.point = .begin)
      (selected : replay.events[replay.first]? = some event) :
      Step replay thread (.readClock nowNs)
        { thread with
          phaseStartNs := nowNs
          baseOffsetNs := event.arrivalOffsetNs
          point := .loop replay.first }
  | next {thread index event} (looping : thread.point = .loop index)
      (left : index < replay.last)
      (selected : replay.events[index]? = some event) :
      Step replay thread .silent
        { thread with
          point := .pace index event
            (thread.phaseStartNs +
              (event.arrivalOffsetNs - thread.baseOffsetNs)) }
  | finish {thread index} (looping : thread.point = .loop index)
      (exhausted : ¬ index < replay.last) :
      Step replay thread .silent { thread with point := .returned }
  | wait {thread index event targetNs} (nowNs : UInt64)
      (pacing : thread.point = .pace index event targetNs)
      (early : nowNs < targetNs) :
      Step replay thread (.readClock nowNs) thread
  | due {thread index event targetNs} (nowNs : UInt64)
      (pacing : thread.point = .pace index event targetNs)
      (late : ¬ nowNs < targetNs) :
      Step replay thread (.readClock nowNs)
        { thread with point := .stamp index event targetNs }
  | produce {thread index event targetNs} (t1Ns : UInt64)
      (stamping : thread.point = .stamp index event targetNs) :
      Step replay thread (.produce (encodeAsQueueOrder event t1Ns))
        { thread with
          result := drift thread.result t1Ns targetNs
          point := .test index event (encodeAsQueueOrder event t1Ns) 0 }
  | again {thread index event order attempt} (nowNs : UInt64)
      (testing : thread.point = .test index event order attempt)
      (left : attempt < kBoundedPushAttempts) :
      Step replay thread (.readClock nowNs)
        { thread with point := .push index event order attempt nowNs }
  | drop {thread index event order attempt}
      (testing : thread.point = .test index event order attempt)
      (exhausted : ¬ attempt < kBoundedPushAttempts) :
      Step replay thread .drop
        { thread with
          result :=
            { thread.result with dropped := thread.result.dropped + 1 }
          point := .loop (index + 1) }
  | accepted {thread index event order attempt pushStartNs}
      (pushing : thread.point = .push index event order attempt pushStartNs) :
      Step replay thread (.push order true)
        { thread with point := .accepted index event pushStartNs }
  | refused {thread index event order attempt pushStartNs}
      (pushing : thread.point = .push index event order attempt pushStartNs) :
      Step replay thread (.push order false)
        { thread with point := .test index event order (attempt + 1) }
  | count {thread index event pushStartNs} (nowNs : UInt64)
      (accepted : thread.point = .accepted index event pushStartNs) :
      Step replay thread (.readClock nowNs)
        { thread with
          result :=
            { thread.result with
              pushNsMax := max thread.result.pushNsMax (nowNs - pushStartNs)
              pushCount := thread.result.pushCount + 1 }
          point := .pushed index event }
  | onPush {thread index event} (pushed : thread.point = .pushed index event) :
      Step replay thread .silent
        { thread with
          onPush := thread.onPush ++ [(index - replay.first, event)]
          point := .loop (index + 1) }

def inHand (thread : ReplayThread) : Option Order :=
  match thread.point with
  | .test _ _ order _ | .push _ _ order _ _ => some order
  | .begin | .loop _ | .pace _ _ _ | .stamp _ _ _ | .accepted _ _ _
  | .pushed _ _ | .returned => none

theorem Step.moves {replay : Replay} {thread next : ReplayThread}
    {event : IngestEvent} (taken : Step replay thread event next) :
    event.handover.Moves thread.inHand next.inHand := by
  cases taken with
  | begin nowNs at_point | next at_point | finish at_point
  | due nowNs at_point | again nowNs at_point | count nowNs at_point
  | onPush at_point =>
      rw [inHand, at_point]
      rfl
  | wait => rfl
  | produce t1Ns at_point | drop at_point | accepted at_point
  | refused at_point =>
      rw [inHand, at_point]
      exact ⟨rfl, rfl⟩

end ReplayThread

/-- `replay_phase`, which asks no stop token. -/
def replayThread (replay : Replay) : ProducerThread ReplayThread where
  start := .start
  step _ := ReplayThread.Step replay
  inHand := ReplayThread.inHand
  start_inHand := rfl
  moves _ _ _ _ taken := taken.moves

end Hydra
