import Hydra.Library.Links
import Hydra.Library.SortedMap
import Hydra.ObjectPool

/-!
# The order book

The resting-order state machine of the source, on its own data: two price maps
of level slots, the index from order ids to slots, and the two pools.  Every
pointer access is a pool access, so an access through a released slot is a
fault instead of a value.

Operations that the source writes twice, once for each price map, keep both
branches; `priceMap` and `setPriceMap` name the map of a side.
-/

namespace Hydra

variable {sizes : PoolSizes}

/-- The levels of one side, best price first. -/
abbrev PriceMap (sizes : PoolSizes) (side : Side) : Type :=
  SortedMap side.better (LevelSlot sizes)

/-- Where a resting order lives. -/
structure Entry (sizes : PoolSizes) where
  order : OrderSlot sizes
  level : LevelSlot sizes

/-- Both sides of a book, the index of its orders, and its two pools. -/
structure OrderBook (sizes : PoolSizes) where
  bids : PriceMap sizes .buy
  asks : PriceMap sizes .sell
  orderIndex : UInt64 → Option (Entry sizes)
  orderPool : ObjectPool (RestingOrder sizes) sizes.orders
  levelPool : ObjectPool (Level sizes) sizes.levels

namespace OrderBook

/-- The constructed book, with both of its pools fresh. -/
def empty : OrderBook sizes where
  bids := .empty
  asks := .empty
  orderIndex _ := none
  orderPool := .fresh
  levelPool := .fresh

def priceMap (book : OrderBook sizes) : (side : Side) → PriceMap sizes side
  | .buy => book.bids
  | .sell => book.asks

def setPriceMap (book : OrderBook sizes) :
    (side : Side) → PriceMap sizes side → OrderBook sizes
  | .buy, map => { book with bids := map }
  | .sell, map => { book with asks := map }

def modifyOrder (book : OrderBook sizes) (slot : OrderSlot sizes)
    (change : RestingOrder sizes → RestingOrder sizes) :
    Except Fault (OrderBook sizes) := do
  let orderPool ← book.orderPool.modify slot change
  return { book with orderPool }

def modifyLevel (book : OrderBook sizes) (slot : LevelSlot sizes)
    (change : Level sizes → Level sizes) :
    Except Fault (OrderBook sizes) := do
  let levelPool ← book.levelPool.modify slot change
  return { book with levelPool }

/-- The level at a price, with a fresh one if there is none; nothing without a
slot for it. -/
def getOrCreateLevel (book : OrderBook sizes) (side : Side) (price : Int64) :
    Except Fault (Option (LevelSlot sizes) × OrderBook sizes) :=
  match (book.priceMap side).find? price with
  | some level => .ok (some level, book)
  | none => do
      let (acquired, levelPool) ← book.levelPool.acquire
      let book := { book with levelPool }
      match acquired with
      | none => return (none, book)
      | some level =>
          let book ← book.modifyLevel level fun _ =>
            { price, totalQty := 0, orderCount := 0, head := none,
              tail := none }
          return (some level,
            book.setPriceMap side ((book.priceMap side).emplace price level))

def findOrCreateLevel (book : OrderBook sizes) (side : Side) (price : Int64) :
    Except Fault (Option (LevelSlot sizes) × OrderBook sizes) :=
  if side = .buy then book.getOrCreateLevel .buy price
  else book.getOrCreateLevel .sell price

/-- An order joins the end of the queue of a level. -/
def appendToLevel (book : OrderBook sizes) (level : LevelSlot sizes)
    (order : OrderSlot sizes) : Except Fault (OrderBook sizes) := do
  let record ← book.levelPool.read level
  let book ← book.modifyOrder order fun node =>
    { node with prev := record.tail, next := none }
  let book ←
    match record.tail with
    | some tail =>
        book.modifyOrder tail fun node => { node with next := some order }
    | none =>
        book.modifyLevel level fun record => { record with head := some order }
  let node ← book.orderPool.read order
  book.modifyLevel level fun record =>
    { record with
      tail := some order
      totalQty := record.totalQty + node.qty.toUInt64
      orderCount := record.orderCount + 1 }

/-- The predecessor of an order, or the head of its level, points past it. -/
def linkNextPast (book : OrderBook sizes) (level : LevelSlot sizes)
    (node : RestingOrder sizes) : Except Fault (OrderBook sizes) :=
  match node.prev with
  | some prev =>
      book.modifyOrder prev fun other => { other with next := node.next }
  | none =>
      book.modifyLevel level fun record => { record with head := node.next }

/-- The successor of an order, or the tail of its level, points past it. -/
def linkPrevPast (book : OrderBook sizes) (level : LevelSlot sizes)
    (node : RestingOrder sizes) : Except Fault (OrderBook sizes) :=
  match node.next with
  | some next =>
      book.modifyOrder next fun other => { other with prev := node.prev }
  | none =>
      book.modifyLevel level fun record => { record with tail := node.prev }

/-- An order leaves the queue of its level. -/
def unlinkFromLevel (book : OrderBook sizes) (level : LevelSlot sizes)
    (order : OrderSlot sizes) : Except Fault (OrderBook sizes) := do
  let node ← book.orderPool.read order
  let book ← book.linkNextPast level node
  let node ← book.orderPool.read order
  let book ← book.linkPrevPast level node
  let node ← book.orderPool.read order
  book.modifyLevel level fun record =>
    { record with
      totalQty := record.totalQty - node.qty.toUInt64
      orderCount := record.orderCount - 1 }

/-- An acquired order joins its level and the index. -/
def joinLevel (book : OrderBook sizes) (level : LevelSlot sizes)
    (resting : OrderSlot sizes) :
    Except Fault (Option (OrderSlot sizes) × OrderBook sizes) := do
  let book ← book.appendToLevel level resting
  let node ← book.orderPool.read resting
  let orderIndex := Function.update book.orderIndex node.orderId
    (some { order := resting, level })
  return (some resting, { book with orderIndex })

/-- The end of `addOrder`: without a level for it the order is released. -/
def attachOrder (book : OrderBook sizes) (resting : OrderSlot sizes)
    (found : Option (LevelSlot sizes)) :
    Except Fault (Option (OrderSlot sizes) × OrderBook sizes) :=
  match found with
  | none => do
      let orderPool ← book.orderPool.release resting
      return (none, { book with orderPool })
  | some level => book.joinLevel level resting

/-- `add_order`.  It is refused for an id that rests already, and without a slot
in either pool. -/
def addOrder (book : OrderBook sizes) (incoming : Order) :
    Except Fault (Option (OrderSlot sizes) × OrderBook sizes) :=
  match book.orderIndex incoming.orderId with
  | some _ => .ok (none, book)
  | none => do
      let (acquired, orderPool) ← book.orderPool.acquire
      let book := { book with orderPool }
      match acquired with
      | none => return (none, book)
      | some resting =>
          let book ← book.modifyOrder resting fun node =>
            { node with toOrder := incoming }
          let node ← book.orderPool.read resting
          let (found, book) ← book.findOrCreateLevel node.side node.price
          book.attachOrder resting found

def eraseLevel (book : OrderBook sizes) (side : Side) (price : Int64) :
    OrderBook sizes :=
  if side = .buy then { book with bids := book.bids.erase price }
  else { book with asks := book.asks.erase price }

/-- The end of a cancellation: a level without orders is erased and released. -/
def collectLevel (book : OrderBook sizes) (side : Side)
    (level : LevelSlot sizes) : Except Fault (OrderBook sizes) := do
  let record ← book.levelPool.read level
  if record.orderCount = 0 then
    let book := book.eraseLevel side record.price
    let levelPool ← book.levelPool.release level
    return { book with levelPool }
  else
    return book

/-- `cancel_order`.  The flag says whether the id was found. -/
def cancelOrder (book : OrderBook sizes) (orderId : UInt64) :
    Except Fault (Bool × OrderBook sizes) :=
  match book.orderIndex orderId with
  | none => .ok (false, book)
  | some entry => do
      let node ← book.orderPool.read entry.order
      let book ← book.unlinkFromLevel entry.level entry.order
      let book :=
        { book with orderIndex := Function.update book.orderIndex orderId none }
      let orderPool ← book.orderPool.release entry.order
      let book ← collectLevel { book with orderPool } node.side entry.level
      return (true, book)

def findOrder (book : OrderBook sizes) (orderId : UInt64) :
    Option (OrderSlot sizes) :=
  (book.orderIndex orderId).map Entry.order

/-- A new quantity at the old place in the queue. -/
def replaceOrderInPlace (book : OrderBook sizes) (orderId : UInt64)
    (newQty : UInt32) : Except Fault (Bool × OrderBook sizes) :=
  match book.orderIndex orderId with
  | none => .ok (false, book)
  | some entry => do
      let node ← book.orderPool.read entry.order
      let delta := node.qty - newQty
      let book ← book.modifyOrder entry.order fun node =>
        { node with qty := newQty }
      let book ← book.modifyLevel entry.level fun record =>
        { record with totalQty := record.totalQty - delta.toUInt64 }
      return (true, book)

/-- Drop all levels and the index.  The slots stay acquired. -/
def reset (book : OrderBook sizes) : OrderBook sizes :=
  { book with
    bids := .empty
    asks := .empty
    orderIndex := fun _ => none }

def bestBid (book : OrderBook sizes) : Option Int64 :=
  book.bids.entries.head?.map Prod.fst

def bestAsk (book : OrderBook sizes) : Option Int64 :=
  book.asks.entries.head?.map Prod.fst

def bestBidLevel (book : OrderBook sizes) : Option (LevelSlot sizes) :=
  book.bids.first?

def bestAskLevel (book : OrderBook sizes) : Option (LevelSlot sizes) :=
  book.asks.first?

def nextBidLevel (book : OrderBook sizes) (afterPrice : Int64) :
    Option (LevelSlot sizes) :=
  book.bids.after? afterPrice

def nextAskLevel (book : OrderBook sizes) (afterPrice : Int64) :
    Option (LevelSlot sizes) :=
  book.asks.after? afterPrice

/-- Whether both orders are of one client. -/
def isSelfTrade (resting incoming : Order) : Bool :=
  resting.clientId = incoming.clientId

end OrderBook

end Hydra
