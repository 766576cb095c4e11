import Mathlib.Algebra.BigOperators.Group.List.Basic
import Mathlib.Algebra.Ring.Nat
import Mathlib.Order.Defs.Unbundled

/-!
# Wire and resting types

The value types of the engine: orders, price levels, fills and match counters,
with the widths of the source.  The link fields of a resting order and the
addresses of pooled objects are slots of a pool whose size is a parameter.

Padding is left out, and the link fields are kept apart from the message
fields: a message never carries links, and a resting order is a message with
links.
-/

namespace Hydra

/-- The side of the book that an order is for. -/
inductive Side where
  | buy
  | sell
  deriving DecidableEq, Repr

/-- Good till cancelled, immediate or cancel, fill or kill. -/
inductive TimeInForce where
  | gtc
  | ioc
  | fok
  deriving DecidableEq, Repr

/-- How the matching thread reads an order message. -/
inductive OrderEventTag where
  | newOrCancel
  | replace
  deriving DecidableEq, Repr

/-- How the orders at one price share what an incoming order takes. -/
inductive MatchingMode where
  | priceTime
  | proRata
  deriving DecidableEq, Repr

/-- The capacities of the two pools of a book.  Both are positive, and every
level can count its orders in 32 bits. -/
structure PoolSizes where
  orders : Nat
  levels : Nat
  orders_pos : 0 < orders
  levels_pos : 0 < levels
  orders_lt : orders < 2 ^ 32

/-- The capacities of the production build. -/
def configSizes : PoolSizes where
  orders := 65536
  levels := 4096
  orders_pos := by decide
  levels_pos := by decide
  orders_lt := by decide

variable (sizes : PoolSizes)

abbrev OrderSlot : Type := Fin sizes.orders

abbrev LevelSlot : Type := Fin sizes.levels

/-- An order as it is submitted; its links are in `RestingOrder`. -/
structure Order where
  orderId : UInt64
  price : Int64
  qty : UInt32
  side : Side
  tif : TimeInForce
  eventTag : OrderEventTag
  timestampNs : UInt64
  clientId : UInt64
  clientTag : Vector UInt8 32
  deriving DecidableEq

/-- The value-initialised order. -/
instance : Inhabited Order where
  default :=
    { orderId := 0
      price := 0
      qty := 0
      side := .buy
      tif := .gtc
      eventTag := .newOrCancel
      timestampNs := 0
      clientId := 0
      clientTag := Vector.replicate 32 0 }

/-- An order in a pool slot, with the links of its level's queue. -/
structure RestingOrder extends Order where
  prev : Option (OrderSlot sizes)
  next : Option (OrderSlot sizes)

instance : Inhabited (RestingOrder sizes) where
  default := { (default : Order) with prev := none, next := none }

/-- The orders at one price: a doubly linked list and its totals. -/
structure Level where
  price : Int64
  totalQty : UInt64
  orderCount : UInt32
  head : Option (OrderSlot sizes)
  tail : Option (OrderSlot sizes)

instance : Inhabited (Level sizes) where
  default :=
    { price := 0
      totalQty := 0
      orderCount := 0
      head := none
      tail := none }

/-- One fill of the incoming order (the taker) by a resting one (the maker). -/
structure FillEvent where
  makerOrderId : UInt64
  takerOrderId : UInt64
  price : Int64
  timestampNs : UInt64
  qty : UInt32
  deriving DecidableEq

/-- The counters of one match; all of them are 32-bit words. -/
structure MatchStats where
  fillsGenerated : UInt32 := 0
  levelsConsumed : UInt32 := 0
  restingOrdersExamined : UInt32 := 0
  eligibleOrdersExamined : UInt32 := 0
  selfTradeSkips : UInt32 := 0
  remainingQty : UInt32 := 0
  deriving DecidableEq

namespace Side

def opposite : Side → Side
  | buy => sell
  | sell => buy

@[simp] theorem opposite_opposite (side : Side) :
    side.opposite.opposite = side := by
  cases side <;> rfl

theorem opposite_ne (side : Side) : side.opposite ≠ side := by
  cases side <;> decide

/-- The key order of a side's price map: bids from high to low, asks from low
to high. -/
def better : Side → Int64 → Int64 → Prop
  | buy, left, right => right < left
  | sell, left, right => left < right

instance (side : Side) : DecidableRel side.better :=
  match side with
  | buy => fun left right => inferInstanceAs (Decidable (right < left))
  | sell => fun left right => inferInstanceAs (Decidable (left < right))

theorem better_iff (side : Side) (left right : Int64) :
    side.better left right ↔
      match side with
      | buy => right.toInt < left.toInt
      | sell => left.toInt < right.toInt := by
  cases side <;> exact Int64.lt_iff_toInt_lt

instance (side : Side) : IsStrictTotalOrder Int64 side.better where
  irrefl price := by
    cases side <;> simp [better_iff]
  trans left middle right := by
    cases side <;> simp only [better_iff] <;> omega
  trichotomous left right := by
    rw [← Int64.toInt_inj]
    cases side <;> simp only [better_iff] <;> omega

end Side

end Hydra
