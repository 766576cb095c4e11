import Hydra.Dataset.File
import Hydra.Pipeline.Matching

/-!
# From a dataset file to the matcher

The messages that stand for the events of a file.  A message is in range for
every event that the reader returns, and the matching thread makes the call
that the event asks for, with one exception: a new order without quantity is
taken for a cancel.
-/

namespace Hydra

namespace OrderEventTag

def toByte : OrderEventTag → UInt8
  | newOrCancel => 0
  | replace => 1

def ofByte (byte : UInt8) : Except Stop OrderEventTag :=
  if byte = 0 then .ok newOrCancel
  else if byte = 1 then .ok replace
  else .error .badEnumerator

theorem ofByte_toByte (eventTag : OrderEventTag) :
    ofByte eventTag.toByte = .ok eventTag := by
  cases eventTag <;> rfl

end OrderEventTag

/-- The order in a memory, when its enumerators exist. -/
def OrderImage.read (image : OrderImage) : Except Stop Order := do
  let side ← Side.ofByte image.side
  let tif ← TimeInForce.ofByte image.tif
  let eventTag ← OrderEventTag.ofByte image.eventTag
  return {
    orderId := image.orderId
    price := image.price
    qty := image.qty
    side := side
    tif := tif
    eventTag := eventTag
    timestampNs := image.timestampNs
    clientId := image.clientId
    clientTag := image.clientTag }

/-- `encode_as_queue_order`, on memory. -/
def EventImage.encodeAsQueueOrder (event : EventImage) (t1Ns : UInt64) :
    OrderImage :=
  let order := { (default : OrderImage) with timestampNs := t1Ns }
  match event.type with
  | .newOrder =>
      { event.order with
        eventTag := OrderEventTag.newOrCancel.toByte
        timestampNs := t1Ns }
  | .replace =>
      { order with
        orderId := event.cancelOrderId
        price := event.order.price
        qty := event.order.qty
        eventTag := OrderEventTag.replace.toByte }
  | .cancel =>
      { order with
        orderId := event.cancelOrderId
        qty := 0
        eventTag := OrderEventTag.newOrCancel.toByte }

/-- The event with the enumerators that its order has. -/
def EventImage.typed (event : EventImage) (side : Side) (tif : TimeInForce) :
    DatasetEvent where
  type := event.type
  order :=
    { orderId := event.order.orderId
      price := event.order.price
      qty := event.order.qty
      side := side
      tif := tif
      eventTag := .newOrCancel
      timestampNs := event.order.timestampNs
      clientId := event.order.clientId
      clientTag := event.order.clientTag }
  cancelOrderId := event.cancelOrderId
  arrivalOffsetNs := event.arrivalOffsetNs

/-- The message in memory is the message for the typed event. -/
theorem EventImage.InRange.encode_typed {event : EventImage}
    (inRange : event.InRange) :
    ∃ side tif,
      (event.type = .newOrder →
        side.toByte = event.order.side ∧ tif.toByte = event.order.tif) ∧
      ∀ t1Ns, (event.encodeAsQueueOrder t1Ns).read =
        .ok (Hydra.encodeAsQueueOrder (event.typed side tif) t1Ns) := by
  cases typeEq : event.type with
  | newOrder =>
      obtain ⟨sideRange, tifRange⟩ := inRange typeEq
      obtain ⟨side, sideRead, sideByte⟩ := Side.exists_ofByte sideRange
      obtain ⟨tif, tifRead, tifByte⟩ := TimeInForce.exists_ofByte tifRange
      refine ⟨side, tif, fun _ => ⟨sideByte, tifByte⟩, ?_⟩
      intro t1Ns
      simp only [EventImage.encodeAsQueueOrder, typeEq, OrderImage.read,
        sideRead, tifRead, OrderEventTag.ofByte_toByte,
        Hydra.encodeAsQueueOrder, EventImage.typed]
      rfl
  | cancel =>
      refine ⟨.buy, .gtc, fun newOrder => ?_, ?_⟩
      · cases newOrder
      · intro t1Ns
        simp only [EventImage.encodeAsQueueOrder, typeEq, OrderImage.read,
          OrderEventTag.ofByte_toByte, Hydra.encodeAsQueueOrder,
          EventImage.typed]
        rfl
  | replace =>
      refine ⟨.buy, .gtc, fun newOrder => ?_, ?_⟩
      · cases newOrder
      · intro t1Ns
        simp only [EventImage.encodeAsQueueOrder, typeEq, OrderImage.read,
          OrderEventTag.ofByte_toByte, Hydra.encodeAsQueueOrder,
          EventImage.typed]
        rfl

/-- The calls that an event asks for. -/
def EventImage.Asks (event : EventImage) : Call → Prop
  | .matchOrder order =>
      event.type = .newOrder ∧ order.orderId = event.order.orderId ∧
        order.price = event.order.price ∧ order.qty = event.order.qty ∧
        order.side.toByte = event.order.side ∧
        order.tif.toByte = event.order.tif ∧
        order.clientId = event.order.clientId
  | .cancelOrder orderId =>
      event.type = .cancel ∧ orderId = event.cancelOrderId
  | .replace orderId price qty =>
      event.type = .replace ∧ orderId = event.cancelOrderId ∧
        price = event.order.price ∧ qty = event.order.qty
  | .addOrder _ | .replaceOrderInPlace _ _ | .setMode _ => False

/-- What the matching thread does with a message, whatever the state of the
pipeline: it takes the message when it is the first in the queue, and applies
this call to the matcher. -/
structure MadeFor (order : Order) (call : Call) : Prop where
  taken : ∀ (sizes : PoolSizes) (size : Nat) (stopped : Bool)
    (context next : PipelineContext sizes size) (waiting : List Order)
    (attempt : Nat) (popStartNs : UInt64) (label : MatchingEvent)
    (nextPoint : MatchingPoint),
    context.queue.queue = order :: waiting →
      MatchingPoint.Step stopped context (.pop attempt popStartNs) label next
          nextPoint →
        nextPoint = .readEnd order popStartNs ∧ next.queue.queue = waiting
  called : ∀ (sizes : PoolSizes) (size : Nat) (stopped : Bool)
    (context next : PipelineContext sizes size) (times : CallTimes)
    (label : MatchingEvent) (nextPoint : MatchingPoint),
    MatchingPoint.Step stopped context (.call order times) label next
        nextPoint →
      ∃ emitted, context.matcher.apply call = .ok (next.matcher, emitted)

theorem madeFor_dispatch (order : Order) : MadeFor order (dispatch order) where
  taken sizes size stopped context next waiting attempt popStartNs label
      nextPoint queued popped := by
    cases popped with
    | popNone empty =>
        rw [MutexQueue.pop, queued] at empty
        cases empty
    | popSome found =>
        rw [MutexQueue.pop, queued] at found ⊢
        cases found
        exact ⟨rfl, rfl⟩
  called sizes size stopped context next times label nextPoint taken := by
    cases taken with
    | call readings processed published =>
        rw [Matcher.process_apply, processed]
        exact ⟨_, rfl⟩

/-- The message for a typed event asks for the same call, unless it is a new
order without quantity. -/
theorem EventImage.asks_dispatch {event : EventImage} {side : Side}
    {tif : TimeInForce} (t1Ns : UInt64)
    (bytes : event.type = .newOrder →
      side.toByte = event.order.side ∧ tif.toByte = event.order.tif) :
    event.Asks
        (dispatch (Hydra.encodeAsQueueOrder (event.typed side tif) t1Ns)) ↔
      ¬ (event.type = .newOrder ∧ event.order.qty = 0) := by
  cases typeEq : event.type with
  | newOrder =>
      obtain ⟨sideByte, tifByte⟩ := bytes typeEq
      by_cases zero : event.order.qty = 0
      · simp [dispatch, Hydra.encodeAsQueueOrder, typed, typeEq, zero, Asks]
      · simp [dispatch, Hydra.encodeAsQueueOrder, typed, typeEq, zero, Asks,
          sideByte, tifByte]
  | cancel =>
      simp [dispatch, Hydra.encodeAsQueueOrder, typed, typeEq, Asks]
  | replace =>
      simp [dispatch, Hydra.encodeAsQueueOrder, typed, typeEq, Asks]

/-- A file with a new order without quantity. -/
def zeroQuantityEvent : EventImage where
  type := .newOrder
  order := { (default : OrderImage) with orderId := 7, price := 100 }
  cancelOrderId := 0
  arrivalOffsetNs := 0

/-- The reader returns the new order, and the matching thread cancels the
resting order of that name. -/
theorem zeroQuantityEvent_cancels :
    (readFromFile "dataset.bin"
        (some (writeToFile sampleConfig (fun _ => Vector.replicate 48 0)
          [zeroQuantityEvent]))).result = .ok [zeroQuantityEvent] ∧
      zeroQuantityEvent.type = .newOrder ∧
      ∃ order, (zeroQuantityEvent.encodeAsQueueOrder 9).read = .ok order ∧
        dispatch order = .cancelOrder 7 ∧ MadeFor order (.cancelOrder 7) := by
  refine ⟨?_, rfl, _, rfl, rfl, madeFor_dispatch _⟩
  apply readFromFile_writeToFile
  · decide
  · intro event listed _
    rw [List.mem_singleton.mp listed]
    decide

/-- Every event of a readable file becomes a message with enumerators that
exist, and the matching thread makes the call that the event asks for exactly
if the event is not a new order without quantity. -/
theorem event_meaning {path : String} {bytes : List UInt8}
    {events : List EventImage} {event : EventImage}
    (accepted : (readFromFile path (some bytes)).result = .ok events)
    (listed : event ∈ events) (t1Ns : UInt64) :
    ∃ order call, (event.encodeAsQueueOrder t1Ns).read = .ok order ∧
      call = dispatch order ∧ MadeFor order call ∧
      (event.Asks call ↔
        ¬ (event.type = .newOrder ∧ event.order.qty = 0)) := by
  have inRange := events_inRange accepted event listed
  obtain ⟨side, tif, sameBytes, read⟩ := inRange.encode_typed
  exact ⟨_, _, read t1Ns, rfl, madeFor_dispatch _,
    EventImage.asks_dispatch t1Ns sameBytes⟩

theorem event_meaning_replace :
    ∃ order call, (sampleReplace.encodeAsQueueOrder 9).read = .ok order ∧
      call = dispatch order ∧ MadeFor order call ∧
      (sampleReplace.Asks call ↔
        ¬ (sampleReplace.type = .newOrder ∧ sampleReplace.order.qty = 0)) := by
  apply @event_meaning "dataset.bin"
    (writeToFile sampleConfig (fun _ => Vector.replicate 48 0) [sampleReplace])
    [sampleReplace]
  · apply readFromFile_writeToFile
    · decide
    · intro event listed newOrder
      rw [List.mem_singleton.mp listed] at newOrder
      cases newOrder
  · exact List.mem_singleton_self _

end Hydra
