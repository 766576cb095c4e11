import Hydra.Types

/-!
# Dataset events

The events of a dataset, and the message that stands for an event in the queue.
-/

namespace Hydra

/-- What an event of a dataset asks for. -/
inductive EventType where
  | newOrder
  | cancel
  | replace
  deriving DecidableEq, Repr

/-- An event of a dataset; which fields it uses depends on its type. -/
structure DatasetEvent where
  type : EventType
  order : Order
  cancelOrderId : UInt64
  arrivalOffsetNs : UInt64
  deriving DecidableEq

/-- `encode_as_queue_order`.  A cancel is a message without quantity. -/
def encodeAsQueueOrder (event : DatasetEvent) (t1Ns : UInt64) : Order :=
  match event.type with
  | .newOrder =>
      { event.order with eventTag := .newOrCancel, timestampNs := t1Ns }
  | .replace =>
      { (default : Order) with
        timestampNs := t1Ns
        orderId := event.cancelOrderId
        price := event.order.price
        qty := event.order.qty
        eventTag := .replace }
  | .cancel =>
      { (default : Order) with
        timestampNs := t1Ns
        orderId := event.cancelOrderId
        qty := 0
        eventTag := .newOrCancel }

end Hydra
