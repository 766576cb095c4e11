import Hydra.Pipeline.Delivery

/-!
# The counters of the producers

Each producer counts what became of its orders.  Whenever its loop starts over,
the counters agree with the orders that were pushed and dropped.
-/

namespace Hydra

open Handover

namespace RxThread

/-- The loop of the thread starts over, or is left. -/
def Boundary (thread : RxThread) : Prop :=
  thread.point = .loop ∨ thread.point = .exited

theorem Boundary.inHand {thread : RxThread} (boundary : thread.Boundary) :
    thread.inHand = none := by
  rcases boundary with at_point | at_point
  · rw [RxThread.inHand, at_point]
  · rw [RxThread.inHand, at_point]

def Counted (thread : RxThread) (record : Record Order) : Prop :=
  thread.droppedOrders = .ofNat record.dropped.length

theorem start_counted : start.Counted .empty := rfl

theorem Step.counted {stopped : Bool} {thread next : RxThread}
    {event : IngestEvent} {record : Record Order}
    (taken : Step stopped thread event next)
    (counted : thread.Counted record) :
    next.Counted (record.add event.handover) := by
  cases taken with
  | exit | produce | pushed => exact counted
  | attempt pushing taken =>
      cases taken with
      | again | giveUp | accepted | refused => exact counted
  | dropped pushing =>
      change thread.droppedOrders + 1 =
        .ofNat (record.dropped ++ [_]).length
      rw [List.length_append, show thread.droppedOrders = _ from counted,
        counter_succ]
      rfl

end RxThread

namespace AfxdpThread

variable {Frame : Type}

def Boundary (thread : AfxdpThread Frame) : Prop :=
  match thread.point with
  | .loop | .receive | .batch _ | .exited => True
  | .pushing _ _ _ => False

theorem Boundary.inHand {thread : AfxdpThread Frame}
    (boundary : thread.Boundary) : thread.inHand = none := by
  rw [Boundary] at boundary
  rw [AfxdpThread.inHand]
  cases at_point : thread.point with
  | loop | receive | batch | exited => rfl
  | pushing =>
      rw [at_point] at boundary
      cases boundary

/-- The order that is received and not yet counted otherwise. -/
def pending : AfxdpPoint Frame → UInt64
  | .pushing _ _ _ => 1
  | .loop | .receive | .batch _ | .exited => 0

/-- The order that is pushed and not yet counted. -/
def uncounted : AfxdpPoint Frame → UInt64
  | .pushing _ (.done true) _ => 1
  | _ => 0

/-- The counters of the thread count what became of the orders and the
frames. -/
structure Counted (thread : AfxdpThread Frame) (record : Record Order) :
    Prop where
  dropped : thread.dropped = .ofNat record.dropped.length
  parsed : thread.parsedOk + uncounted thread.point =
    .ofNat record.passed.length
  received : thread.received =
    thread.parsedOk + thread.parseErrors + thread.dropped +
      pending thread.point

theorem Counted.at_point {thread : AfxdpThread Frame} {record : Record Order}
    {point : AfxdpPoint Frame} (counted : thread.Counted record)
    (stands : thread.point = point) :
    thread.dropped = .ofNat record.dropped.length ∧
      thread.parsedOk + uncounted point = .ofNat record.passed.length ∧
      thread.received =
        thread.parsedOk + thread.parseErrors + thread.dropped +
          pending point := by
  rw [← stands]
  exact ⟨counted.dropped, counted.parsed, counted.received⟩

theorem Boundary.counts {thread : AfxdpThread Frame} {record : Record Order}
    (boundary : thread.Boundary) (counted : thread.Counted record) :
    thread.parsedOk = .ofNat record.passed.length ∧
      thread.received =
        thread.parsedOk + thread.parseErrors + thread.dropped := by
  rw [Boundary] at boundary
  cases stands : thread.point with
  | loop | receive | batch | exited =>
      obtain ⟨_, parsed, received⟩ := counted.at_point stands
      exact ⟨(UInt64.add_zero _).symm.trans parsed,
        received.trans (UInt64.add_zero _)⟩
  | pushing =>
      rw [stands] at boundary
      cases boundary

theorem start_counted : (start : AfxdpThread Frame).Counted .empty where
  dropped := rfl
  parsed := rfl
  received := rfl

theorem Step.counted {parseAndRelease : Frame → Option Order} {stopped : Bool}
    {thread next : AfxdpThread Frame} {event : IngestEvent}
    {record : Record Order}
    (taken : Step parseAndRelease stopped thread event next)
    (counted : thread.Counted record) :
    next.Counted (record.add event.handover) := by
  cases taken with
  | exit stands | enter stands | receive stands | batchDone stands =>
      obtain ⟨dropped, parsed, received⟩ := counted.at_point stands
      exact ⟨dropped, parsed, received⟩
  | parseError stands =>
      obtain ⟨dropped, parsed, received⟩ := counted.at_point stands
      refine ⟨dropped, parsed, ?_⟩
      change thread.received + 1 =
        thread.parsedOk + (thread.parseErrors + 1) + thread.dropped + 0
      rw [received, pending]
      grind
  | produce timestampNs stands =>
      obtain ⟨dropped, parsed, received⟩ := counted.at_point stands
      refine ⟨dropped, parsed, ?_⟩
      change thread.received + 1 =
        thread.parsedOk + thread.parseErrors + thread.dropped + 1
      rw [received, pending]
      grind
  | attempt stands taken =>
      obtain ⟨dropped, parsed, received⟩ := counted.at_point stands
      cases taken with
      | again | giveUp | refused => exact ⟨dropped, parsed, received⟩
      | accepted =>
          refine ⟨dropped, ?_, received⟩
          have counts : thread.parsedOk = .ofNat record.passed.length :=
            (UInt64.add_zero _).symm.trans parsed
          change thread.parsedOk + 1 = .ofNat (record.passed ++ [_]).length
          rw [List.length_append, counts, counter_succ]
          rfl
  | pushed stands =>
      obtain ⟨dropped, parsed, received⟩ := counted.at_point stands
      refine ⟨dropped, (UInt64.add_zero _).trans parsed, ?_⟩
      change thread.received =
        thread.parsedOk + 1 + thread.parseErrors + thread.dropped + 0
      rw [received, pending]
      grind
  | dropped stands =>
      obtain ⟨dropped, parsed, received⟩ := counted.at_point stands
      refine ⟨?_, parsed, ?_⟩
      · change thread.dropped + 1 = .ofNat (record.dropped ++ [_]).length
        rw [List.length_append, dropped, counter_succ]
        rfl
      · change thread.received =
          thread.parsedOk + thread.parseErrors + (thread.dropped + 1) + 0
        rw [received, pending]
        grind

end AfxdpThread

namespace ReplayThread

variable {replay : Replay}

def Boundary (thread : ReplayThread) : Prop :=
  (∃ index, thread.point = .loop index) ∨ thread.point = .returned

theorem Boundary.inHand {thread : ReplayThread} (boundary : thread.Boundary) :
    thread.inHand = none := by
  rcases boundary with ⟨index, at_point⟩ | at_point
  · rw [ReplayThread.inHand, at_point]
  · rw [ReplayThread.inHand, at_point]

/-- The event that the thread is at, after `taken` orders. -/
def AtEvent (replay : Replay) (taken : Nat) : ReplayPoint → Prop
  | .begin => taken = 0
  | .loop index => index = replay.first + taken
  | .pace index event _ | .stamp index event _ =>
      index = replay.first + taken ∧ replay.events[index]? = some event
  | .test index event _ _ | .push index event _ _ _ | .accepted index event _
  | .pushed index event =>
      index + 1 = replay.first + taken ∧ replay.first ≤ index ∧
        replay.events[index]? = some event
  | .returned => True

/-- The order that is pushed and not yet counted. -/
def uncounted : ReplayPoint → UInt64
  | .accepted _ _ _ => 1
  | _ => 0

/-- The call of `on_push` that the push of an order leads to. -/
def toCall (replay : Replay) : ReplayPoint → List (Nat × DatasetEvent)
  | .accepted index event _ | .pushed index event =>
      [(index - replay.first, event)]
  | .begin | .loop _ | .pace _ _ _ | .stamp _ _ _ | .test _ _ _ _
  | .push _ _ _ _ _ | .returned => []

/-- The result of the phase counts what became of the orders, and `on_push` was
called for each one that was pushed. -/
structure Counted (replay : Replay) (thread : ReplayThread)
    (record : Record Order) : Prop where
  dropped : thread.result.dropped = .ofNat record.dropped.length
  counted : thread.result.pushCount + uncounted thread.point =
    .ofNat record.passed.length
  called : (thread.onPush ++ toCall replay thread.point).map
      (fun call => (call.1, some call.2)) =
    record.passed.map
      (fun entry => (entry.1, replay.events[replay.first + entry.1]?))
  atEvent : AtEvent replay record.taken.length thread.point

theorem Counted.at_point {thread : ReplayThread} {record : Record Order}
    {point : ReplayPoint} (counted : thread.Counted replay record)
    (stands : thread.point = point) :
    thread.result.dropped = .ofNat record.dropped.length ∧
      thread.result.pushCount + uncounted point =
        .ofNat record.passed.length ∧
      (thread.onPush ++ toCall replay point).map
          (fun call => (call.1, some call.2)) =
        record.passed.map
          (fun entry => (entry.1, replay.events[replay.first + entry.1]?)) ∧
      AtEvent replay record.taken.length point := by
  rw [← stands]
  exact ⟨counted.dropped, counted.counted, counted.called, counted.atEvent⟩

theorem Boundary.counts {thread : ReplayThread} {record : Record Order}
    (boundary : thread.Boundary) (counted : thread.Counted replay record) :
    thread.result.pushCount = .ofNat record.passed.length ∧
      thread.onPush.map (fun call => (call.1, some call.2)) =
        record.passed.map
          (fun entry => (entry.1, replay.events[replay.first + entry.1]?)) := by
  rcases boundary with ⟨index, stands⟩ | stands
  · obtain ⟨_, count, called, _⟩ := counted.at_point stands
    rw [toCall, List.append_nil] at called
    exact ⟨(UInt64.add_zero _).symm.trans count, called⟩
  · obtain ⟨_, count, called, _⟩ := counted.at_point stands
    rw [toCall, List.append_nil] at called
    exact ⟨(UInt64.add_zero _).symm.trans count, called⟩

theorem start_counted : start.Counted replay .empty where
  dropped := rfl
  counted := rfl
  called := rfl
  atEvent := rfl

theorem drift_dropped (result : ReplayPhaseResult) (t1Ns targetNs : UInt64) :
    (drift result t1Ns targetNs).dropped = result.dropped := by
  rw [drift]
  split
  next => rfl
  next => rfl

theorem drift_pushCount (result : ReplayPhaseResult) (t1Ns targetNs : UInt64) :
    (drift result t1Ns targetNs).pushCount = result.pushCount := by
  rw [drift]
  split
  next => rfl
  next => rfl

theorem Step.counted {thread next : ReplayThread} {event : IngestEvent}
    {record : Record Order} (taken : Step replay thread event next)
    (counted : thread.Counted replay record) :
    next.Counted replay (record.add event.handover) := by
  cases taken with
  | begin nowNs stands selected =>
      obtain ⟨dropped, count, called, fresh⟩ := counted.at_point stands
      refine ⟨dropped, count, called, ?_⟩
      have untaken : record.taken.length = 0 := fresh
      change replay.first = replay.first + record.taken.length
      rw [untaken, Nat.add_zero]
  | next stands left selected =>
      obtain ⟨dropped, count, called, position⟩ := counted.at_point stands
      exact ⟨dropped, count, called, position, selected⟩
  | finish stands exhausted =>
      obtain ⟨dropped, count, called, _⟩ := counted.at_point stands
      exact ⟨dropped, count, called, trivial⟩
  | wait =>
      exact ⟨counted.dropped, counted.counted, counted.called, counted.atEvent⟩
  | due nowNs stands | again nowNs stands | refused stands =>
      obtain ⟨dropped, count, called, position⟩ := counted.at_point stands
      exact ⟨dropped, count, called, position⟩
  | @produce index event targetNs t1Ns stands =>
      obtain ⟨dropped, count, called, position, selected⟩ :=
        counted.at_point stands
      refine ⟨?_, ?_, called, ?_, ?_, selected⟩
      · exact (drift_dropped ..).trans dropped
      · change (drift thread.result t1Ns targetNs).pushCount + 0 = _
        rw [drift_pushCount]
        exact count
      · change index + 1 =
          replay.first + (record.taken ++ [_]).length
        rw [position, List.length_append]
        rfl
      · rw [position]
        exact Nat.le_add_right _ _
  | drop stands exhausted =>
      obtain ⟨dropped, count, called, position, _⟩ := counted.at_point stands
      refine ⟨?_, count, called, position⟩
      change thread.result.dropped + 1 =
        .ofNat (record.dropped ++ [_]).length
      rw [List.length_append, dropped, counter_succ]
      rfl
  | @accepted index event order attempt pushStartNs stands =>
      obtain ⟨dropped, count, called, position, below, selected⟩ :=
        counted.at_point stands
      refine ⟨dropped, ?_, ?_, position, below, selected⟩
      · have counts : thread.result.pushCount = .ofNat record.passed.length :=
          (UInt64.add_zero _).symm.trans count
        change thread.result.pushCount + 1 =
          .ofNat (record.passed ++ [_]).length
        rw [List.length_append, counts, counter_succ]
        rfl
      · have number : record.taken.length - 1 = index - replay.first := by
          omega
        have place : replay.first + (index - replay.first) = index := by
          omega
        rw [toCall, List.append_nil] at called
        change (thread.onPush ++ [(index - replay.first, event)]).map _ =
          (record.passed ++ [(record.taken.length - 1, order)]).map _
        rw [List.map_append, List.map_append, called, number,
          List.map_singleton, List.map_singleton, place, selected]
  | count nowNs stands =>
      obtain ⟨dropped, count, called, position⟩ := counted.at_point stands
      exact ⟨dropped, (UInt64.add_zero _).trans count, called, position⟩
  | onPush stands =>
      obtain ⟨dropped, count, called, position, _⟩ := counted.at_point stands
      refine ⟨dropped, count, ?_, position⟩
      change (_ ++ []).map _ = _
      rw [List.append_nil]
      exact called

end ReplayThread

namespace ReplayThread

variable {replay : Replay} {thread next : ReplayThread} {event : IngestEvent}

/-- How many orders the phase has pushed. -/
def pushes (replay : Replay) (thread : ReplayThread) : Nat :=
  thread.onPush.length + (toCall replay thread.point).length

theorem Step.pushes (taken : Step replay thread event next) :
    next.pushes replay = thread.pushes replay + event.pushed.length := by
  cases taken with
  | begin nowNs stands | next stands | finish stands | due nowNs stands
  | produce nowNs stands | again nowNs stands | drop stands
  | refused stands | accepted stands | count nowNs stands =>
      rw [ReplayThread.pushes, ReplayThread.pushes, stands]
      rfl
  | wait => rfl
  | onPush stands =>
      rw [ReplayThread.pushes, ReplayThread.pushes, stands,
        List.length_append]
      rfl

/-- A phase with `pushes` pushes has passed at least as many events. -/
def Within (replay : Replay) (pushes : Nat) : ReplayPoint → Prop
  | .begin => pushes = 0
  | .loop index => replay.first + pushes ≤ index ∧ index ≤ replay.last
  | .pace index _ _ | .stamp index _ _ | .test index _ _ _
  | .push index _ _ _ _ => replay.first + pushes ≤ index ∧ index < replay.last
  | .accepted index _ _ | .pushed index _ =>
      replay.first + pushes ≤ index + 1 ∧ index < replay.last
  | .returned => replay.first + pushes ≤ replay.last

theorem Within.bound {pushes : Nat} {point : ReplayPoint}
    (ordered : replay.first ≤ replay.last)
    (within : Within replay pushes point) :
    replay.first + pushes ≤ replay.last := by
  cases point with
  | begin =>
      have fresh : pushes = 0 := within
      omega
  | loop => exact within.1.trans within.2
  | pace | stamp | test | push => exact within.1.trans within.2.le
  | accepted | pushed => exact within.1.trans within.2
  | returned => exact within

theorem Step.within (ordered : replay.first ≤ replay.last)
    (taken : Step replay thread event next)
    (within : Within replay (thread.pushes replay) thread.point) :
    Within replay (next.pushes replay) next.point := by
  have count := taken.pushes
  rw [count]
  generalize thread.pushes replay = pushes at within
  cases taken with
  | begin nowNs stands =>
      rw [stands] at within
      have fresh : pushes = 0 := within
      rw [fresh]
      exact ⟨le_rfl, ordered⟩
  | next stands left =>
      rw [stands] at within
      exact ⟨within.1, left⟩
  | finish stands =>
      rw [stands] at within
      exact within.1.trans within.2
  | wait => exact within
  | due nowNs stands | produce nowNs stands | again nowNs stands
  | refused stands | count nowNs stands =>
      rw [stands] at within
      exact within
  | drop stands =>
      rw [stands] at within
      exact ⟨within.1.trans (Nat.le_succ _), within.2⟩
  | accepted stands =>
      rw [stands] at within
      exact ⟨Nat.succ_le_succ within.1, within.2⟩
  | onPush stands =>
      rw [stands] at within
      exact within

end ReplayThread

namespace Pipeline

variable {sizes : PoolSizes} {size : Nat} {matcher : Matcher sizes}
variable {delivery : Delivery}

theorem rx_counted {state : Pipeline RxThread sizes size}
    (reachable : (pipeline rxThread matcher size).Reachable (state, delivery)) :
    state.producer.Counted delivery.ingest := by
  refine producer_invariant RxThread.Counted RxThread.start_counted ?_
    reachable
  intro stopped program event next record held taken
  exact taken.counted held

theorem afxdp_counted {Frame : Type} {parseAndRelease : Frame → Option Order}
    {state : Pipeline (AfxdpThread Frame) sizes size}
    (reachable :
      (pipeline (afxdpThread parseAndRelease) matcher size).Reachable
        (state, delivery)) :
    state.producer.Counted delivery.ingest := by
  refine producer_invariant AfxdpThread.Counted AfxdpThread.start_counted ?_
    reachable
  intro stopped program event next record held taken
  exact taken.counted held

theorem replay_counted {replay : Replay}
    {state : Pipeline ReplayThread sizes size}
    (reachable :
      (pipeline (replayThread replay) matcher size).Reachable
        (state, delivery)) :
    state.producer.Counted replay delivery.ingest := by
  refine producer_invariant (ReplayThread.Counted replay)
    ReplayThread.start_counted ?_ reachable
  intro stopped program event next record held taken
  exact taken.counted held

/-- An order that is not in the hand of the producer is settled. -/
theorem complete {Program : Type} {thread : ProducerThread Program}
    {state : Pipeline Program sizes size}
    (reachable : (pipeline thread matcher size).Reachable (state, delivery))
    (free : thread.inHand state.producer = none) :
    delivery.ingest.Complete := by
  have kept := consistent reachable
  rw [free] at kept
  exact kept.complete

/-- Orders reach the book exactly once and in the order of their production,
from every producer and in every interleaving with the matching thread; and
when the loop of the producer starts over, every order is counted. -/
theorem exactly_once (matcher : Matcher sizes) (size : Nat) :
    (∀ state delivery,
      (pipeline rxThread matcher size).Reachable (state, delivery) →
      Delivered matcher state delivery ∧
      (state.producer.Boundary →
        delivery.ingest.Complete ∧
        delivery.ingest.taken.length =
          delivery.ingest.passed.length + delivery.ingest.dropped.length ∧
        state.producer.droppedOrders =
          .ofNat delivery.ingest.dropped.length)) ∧
    (∀ (Frame : Type) (parseAndRelease : Frame → Option Order) state delivery,
      (pipeline (afxdpThread parseAndRelease) matcher size).Reachable
        (state, delivery) →
      Delivered matcher state delivery ∧
      (state.producer.Boundary →
        delivery.ingest.Complete ∧
        state.producer.parsedOk = .ofNat delivery.ingest.passed.length ∧
        state.producer.dropped = .ofNat delivery.ingest.dropped.length ∧
        state.producer.received =
          state.producer.parsedOk + state.producer.parseErrors +
            state.producer.dropped)) ∧
    ∀ (replay : Replay) state delivery,
      (pipeline (replayThread replay) matcher size).Reachable
        (state, delivery) →
      Delivered matcher state delivery ∧
      (state.producer.Boundary →
        delivery.ingest.Complete ∧
        delivery.ingest.taken.length =
          delivery.ingest.passed.length + delivery.ingest.dropped.length ∧
        state.producer.result.dropped =
          .ofNat delivery.ingest.dropped.length ∧
        state.producer.result.pushCount =
          .ofNat delivery.ingest.passed.length ∧
        state.producer.onPush.map (fun call => (call.1, some call.2)) =
          delivery.ingest.passed.map
            (fun entry =>
              (entry.1, replay.events[replay.first + entry.1]?))) := by
  refine ⟨?_, ?_, ?_⟩
  · intro state delivery reachable
    refine ⟨delivered reachable, ?_⟩
    intro boundary
    have settled := complete reachable boundary.inHand
    exact ⟨settled, settled.total, rx_counted reachable⟩
  · intro Frame parseAndRelease state delivery reachable
    refine ⟨delivered reachable, ?_⟩
    intro boundary
    have counted := afxdp_counted reachable
    obtain ⟨parsed, received⟩ := boundary.counts counted
    exact ⟨complete reachable boundary.inHand, parsed, counted.dropped,
      received⟩
  · intro replay state delivery reachable
    refine ⟨delivered reachable, ?_⟩
    intro boundary
    have counted := replay_counted reachable
    have settled := complete reachable boundary.inHand
    exact ⟨settled, settled.total, counted.dropped, boundary.counts counted⟩

/-- The live producer pushes the order that it draws. -/
theorem rx_pushed {size : Nat} {current : Matcher sizes} {items : List Order}
    {thread : RxThread}
    (reachable : (pipeline rxThread matcher size).Reachable
      (quiet items current thread, delivery))
    (looping : thread.point = .loop) (room : items.length < size)
    (price : Int64) (qty : UInt32) (timestampNs : UInt64)
    (priceDrawn : 99000 ≤ price ∧ price ≤ 101000)
    (qtyDrawn : 1 ≤ qty ∧ qty ≤ 100) :
    let order := RxThread.order thread.nextOrderId price qty timestampNs
    (pipeline rxThread matcher size).Reachable
      (quiet (items ++ [order]) current
        { thread with nextOrderId := thread.nextOrderId + 1, point := .loop },
        { delivery with
          ingest := (delivery.ingest.add (.take order)).add
            (.offer order true) }) := by
  intro order
  have accepts : ({ queue := items } : MutexQueue Order size).push order =
      (true, { queue := items ++ [order] }) := by
    rw [MutexQueue.push, if_neg (Nat.not_le_of_lt room)]
  have produced := after_producer reachable
    (.produce timestampNs looping rfl priceDrawn qtyDrawn) rfl
  have pushing := after_producer produced
    (.attempt rfl (.again (by decide) rfl)) rfl
  have accepted := after_producer pushing (.attempt rfl .accepted) accepts
  exact after_producer accepted (.pushed rfl) rfl

/-- The first orders of `rx_thread_fn` in a session. -/
def sessionSell : Order := RxThread.order 1 100000 5 7

def sessionBuy : Order := RxThread.order 2 100000 3 8

/-- The phase of a single event. -/
def sessionReplay : Replay where
  events :=
    [{ type := .newOrder
       order := sessionSell
       cancelOrderId := 0
       arrivalOffsetNs := 3 }]
  first := 0
  last := 1

/-- The live producer drops the third of its orders; the receiver drops one
order as well, and finds no order in another frame; and a phase pushes its only
event. -/
theorem exactly_once_session :
    (∃ (state : Pipeline RxThread Matcher.sessionSizes 4)
        (delivery : Delivery),
      (pipeline rxThread (Matcher.start .priceTime) 4).Reachable
        (state, delivery) ∧
      delivery.applied = [sessionSell, sessionBuy] ∧
      delivery.ingest.dropped = [2] ∧
      Delivered (.start .priceTime) state delivery ∧
      delivery.ingest.Complete ∧
      delivery.ingest.taken.length =
        delivery.ingest.passed.length + delivery.ingest.dropped.length ∧
      state.producer.droppedOrders =
        .ofNat delivery.ingest.dropped.length) ∧
    (∃ (state : Pipeline (AfxdpThread (Option Order)) Matcher.sessionSizes 4)
        (delivery : Delivery),
      (pipeline (afxdpThread id) (Matcher.start .priceTime) 4).Reachable
        (state, delivery) ∧
      state.producer.parseErrors = 1 ∧ delivery.ingest.dropped = [1] ∧
      Delivered (.start .priceTime) state delivery ∧
      delivery.ingest.Complete ∧
      state.producer.parsedOk = .ofNat delivery.ingest.passed.length ∧
      state.producer.dropped = .ofNat delivery.ingest.dropped.length ∧
      state.producer.received =
        state.producer.parsedOk + state.producer.parseErrors +
          state.producer.dropped) ∧
    ∃ (state : Pipeline ReplayThread Matcher.sessionSizes 4)
        (delivery : Delivery),
      (pipeline (replayThread sessionReplay) (Matcher.start .priceTime)
        4).Reachable (state, delivery) ∧
      delivery.applied = [{ sessionSell with timestampNs := 6 }] ∧
      Delivered (.start .priceTime) state delivery ∧
      delivery.ingest.Complete ∧
      state.producer.result.pushCount =
        .ofNat delivery.ingest.passed.length := by
  refine ⟨?_, ?_, ?_⟩
  · have start := @quiet_start Matcher.sessionSizes 4 _ rxThread
      (.start .priceTime)
    have first := rx_pushed start rfl (by decide) 100000 5 7 (by decide)
      (by decide)
    have second := rx_pushed first rfl (by decide) 100000 3 8 (by decide)
      (by decide)
    have sold := quiet_serves second rfl
    have bought := quiet_serves sold rfl
    have produced := after_producer bought
      (@RxThread.Step.produce false _ 100000 5 9 rfl rfl (by decide)
        (by decide)) rfl
    have stopped := pipeline_step produced .stopProducer
    have tired := after_producer stopped (.attempt rfl (.giveUp (by decide)))
      rfl
    have dropped := after_producer tired (.dropped rfl) rfl
    obtain ⟨delivered, counted⟩ :=
      (exactly_once (.start .priceTime) 4).1 _ _ dropped
    exact ⟨_, _, dropped, rfl, rfl, delivered, counted (.inl rfl)⟩
  · have start := @quiet_start Matcher.sessionSizes 4 _
      (@afxdpThread (Option Order) id) (.start .priceTime)
    have entered := after_producer start (.enter rfl rfl) rfl
    have received := after_producer entered
      (@AfxdpThread.Step.receive _ _ _ _
        [some sessionSell, none, some sessionBuy] rfl (by decide)) rfl
    have first := after_producer received (.produce 7 rfl rfl) rfl
    have pushing := after_producer first
      (.attempt rfl (.again (by decide) rfl)) rfl
    have accepted := after_producer pushing (.attempt rfl .accepted) rfl
    have pushed := after_producer accepted (.pushed rfl) rfl
    have malformed := after_producer pushed (.parseError rfl rfl) rfl
    have second := after_producer malformed (.produce 8 rfl rfl) rfl
    have stopped := pipeline_step second .stopProducer
    have tired := after_producer stopped (.attempt rfl (.giveUp (by decide)))
      rfl
    have dropped := after_producer tired (.dropped rfl) rfl
    obtain ⟨delivered, counted⟩ :=
      (exactly_once (.start .priceTime) 4).2.1 _ _ _ _ dropped
    exact ⟨_, _, dropped, rfl, rfl, delivered, counted trivial⟩
  · have start := @quiet_start Matcher.sessionSizes 4 _
      (replayThread sessionReplay) (.start .priceTime)
    have begun := after_producer start (.begin 5 rfl rfl) rfl
    have next := after_producer begun (.next rfl (by decide) rfl) rfl
    have due := after_producer next (.due 5 rfl (by decide)) rfl
    have produced := after_producer due (.produce 6 rfl) rfl
    have pushing := after_producer produced (.again 7 rfl (by decide)) rfl
    have accepted := after_producer pushing (.accepted rfl) rfl
    have counted := after_producer accepted (.count 8 rfl) rfl
    have pushed := after_producer counted (.onPush rfl) rfl
    have served := quiet_serves pushed rfl
    obtain ⟨delivered, complete⟩ :=
      (exactly_once (.start .priceTime) 4).2.2 _ _ _ served
    obtain ⟨complete, _, _, count, _⟩ := complete (.inl ⟨1, rfl⟩)
    exact ⟨_, _, served, rfl, delivered, complete, count⟩

end Pipeline

end Hydra
