import Hydra.OrderBook
import Mathlib.Data.Fintype.Card

/-!
# Layouts of the book's heap

A layout names the slots of a heap: the queue of every level slot, the two
free lists, and at most one order slot that an operation holds outside of
every queue.  `Represents book layout` says that the heap of the book is laid
out so: links, level records, index and free lists all agree with the queues.

The functions `payload`, `links` and `queue` read the heap; they are total, so
that they can be used in statements about any book.
-/

namespace Hydra

variable {sizes : PoolSizes}

namespace OrderBook

/-- The message part of the order in a slot. -/
def payload (book : OrderBook sizes) (slot : OrderSlot sizes) : Order :=
  ((book.orderPool.object? slot).map RestingOrder.toOrder).getD default

/-- The link fields of all order slots. -/
def links (book : OrderBook sizes) : Links (OrderSlot sizes) where
  prev slot := (book.orderPool.object? slot).bind RestingOrder.prev
  next slot := (book.orderPool.object? slot).bind RestingOrder.next

/-- The queue of a level, read from `head` along the `next` links. -/
def queue (book : OrderBook sizes) (level : LevelSlot sizes) :
    List (OrderSlot sizes) :=
  book.links.walk sizes.orders
    ((book.levelPool.object? level).bind Level.head)

def Listed (book : OrderBook sizes) (side : Side) (price : Int64)
    (level : LevelSlot sizes) : Prop :=
  (price, level) ∈ (book.priceMap side).entries

def qtyAt (book : OrderBook sizes) (slot : OrderSlot sizes) : Nat :=
  (book.payload slot).qty.toNat

/-- The record of a level with the given queue. -/
def levelRecord (book : OrderBook sizes) (price : Int64)
    (queue : List (OrderSlot sizes)) : Level sizes where
  price
  totalQty := .ofNat (queue.map book.qtyAt).sum
  orderCount := .ofNat queue.length
  head := queue.head?
  tail := queue.getLast?

end OrderBook

/-- The slots of a heap by their role. -/
@[ext]
structure Layout (sizes : PoolSizes) where
  queue : LevelSlot sizes → List (OrderSlot sizes)
  freeOrders : List (OrderSlot sizes)
  freeLevels : List (LevelSlot sizes)
  /-- The slot that a running operation holds outside of every queue. -/
  loose : Option (OrderSlot sizes)

namespace OrderBook

/-- The heap of the book has the given layout.  Levels may be empty. -/
structure Represents (book : OrderBook sizes) (layout : Layout sizes) :
    Prop where
  orders_free : book.orderPool.FreeList layout.freeOrders
  levels_free : book.levelPool.FreeList layout.freeLevels
  record : ∀ {side price level}, book.Listed side price level →
    book.levelPool.object? level =
      some (book.levelRecord price (layout.queue level))
  chain : ∀ level, book.links.Chain (layout.queue level)
  placed : ∀ {side price level slot}, book.Listed side price level →
    slot ∈ layout.queue level →
    (book.payload slot).price = price ∧ (book.payload slot).side = side
  listed_once : ∀ {side price level otherSide otherPrice},
    book.Listed side price level → book.Listed otherSide otherPrice level →
    side = otherSide ∧ price = otherPrice
  level_used : ∀ level, level ∉ layout.freeLevels ↔
    ∃ side price, book.Listed side price level
  queue_listed : ∀ {level slot}, slot ∈ layout.queue level →
    ∃ side price, book.Listed side price level
  slot_used : ∀ slot, slot ∉ layout.freeOrders ↔
    layout.loose = some slot ∨ ∃ level, slot ∈ layout.queue level
  loose_unqueued : ∀ {slot level}, layout.loose = some slot →
    slot ∉ layout.queue level
  queue_unique : ∀ {slot level other}, slot ∈ layout.queue level →
    slot ∈ layout.queue other → level = other
  index : ∀ orderId entry, book.orderIndex orderId = some entry ↔
    entry.order ∈ layout.queue entry.level ∧
      (book.payload entry.order).orderId = orderId

/-- Between operations no slot is loose and no listed level is empty. -/
structure Settled (book : OrderBook sizes) (layout : Layout sizes) :
    Prop extends Represents book layout where
  none_loose : layout.loose = none
  populated : ∀ {side price level}, book.Listed side price level →
    layout.queue level ≠ []

/-- The representation invariant of the book. -/
def WellFormed (book : OrderBook sizes) : Prop :=
  ∃ layout, book.Settled layout

/-- The book that a write to an order slot in use produces. -/
def setOrder (book : OrderBook sizes) (slot : OrderSlot sizes)
    (node : RestingOrder sizes) : OrderBook sizes :=
  { book with orderPool := book.orderPool.set slot node }

def setLevel (book : OrderBook sizes) (slot : LevelSlot sizes)
    (record : Level sizes) : OrderBook sizes :=
  { book with levelPool := book.levelPool.set slot record }

theorem modifyOrder_eq {book : OrderBook sizes} {slot : OrderSlot sizes}
    {node : RestingOrder sizes}
    (stored : book.orderPool.object? slot = some node)
    (change : RestingOrder sizes → RestingOrder sizes) :
    book.modifyOrder slot change = .ok (book.setOrder slot (change node)) := by
  rw [modifyOrder, ObjectPool.modify_eq stored]
  rfl

theorem modifyLevel_eq {book : OrderBook sizes} {slot : LevelSlot sizes}
    {record : Level sizes}
    (stored : book.levelPool.object? slot = some record)
    (change : Level sizes → Level sizes) :
    book.modifyLevel slot change =
      .ok (book.setLevel slot (change record)) := by
  rw [modifyLevel, ObjectPool.modify_eq stored]
  rfl

section Edits

variable (book : OrderBook sizes) (slot : OrderSlot sizes)
variable (node : RestingOrder sizes) (level : LevelSlot sizes)
variable (record : Level sizes) (side : Side)

@[simp] theorem setOrder_priceMap :
    (book.setOrder slot node).priceMap side = book.priceMap side := by
  cases side <;> rfl

@[simp] theorem setOrder_orderIndex :
    (book.setOrder slot node).orderIndex = book.orderIndex := rfl

@[simp] theorem setOrder_levelPool :
    (book.setOrder slot node).levelPool = book.levelPool := rfl

@[simp] theorem setOrder_orderPool :
    (book.setOrder slot node).orderPool = book.orderPool.set slot node := rfl

@[simp] theorem setLevel_priceMap :
    (book.setLevel level record).priceMap side = book.priceMap side := by
  cases side <;> rfl

@[simp] theorem setLevel_orderIndex :
    (book.setLevel level record).orderIndex = book.orderIndex := rfl

@[simp] theorem setLevel_orderPool :
    (book.setLevel level record).orderPool = book.orderPool := rfl

@[simp] theorem setLevel_levelPool :
    (book.setLevel level record).levelPool =
      book.levelPool.set level record := rfl

@[simp] theorem setLevel_payload :
    (book.setLevel level record).payload = book.payload := rfl

@[simp] theorem setLevel_links :
    (book.setLevel level record).links = book.links := rfl

theorem setOrder_payload :
    (book.setOrder slot node).payload =
      Function.update book.payload slot node.toOrder := by
  funext current
  by_cases same : current = slot
  · subst same
    simp [payload]
  · simp [payload, ObjectPool.object?_set_of_ne same,
      Function.update_of_ne same]

theorem setOrder_links :
    (book.setOrder slot node).links =
      { prev := Function.update book.links.prev slot node.prev
        next := Function.update book.links.next slot node.next } := by
  simp only [links, setOrder_orderPool, ObjectPool.object?_set]
  congr 1
  · funext current
    by_cases same : current = slot <;> simp [same]
  · funext current
    by_cases same : current = slot <;> simp [same]

@[simp] theorem setPriceMap_same (map : PriceMap sizes side) :
    (book.setPriceMap side map).priceMap side = map := by
  cases side <;> rfl

theorem setPriceMap_of_ne {other : Side} (differs : other ≠ side)
    (map : PriceMap sizes side) :
    (book.setPriceMap side map).priceMap other = book.priceMap other := by
  cases side <;> cases other <;> first | rfl | exact absurd rfl differs

@[simp] theorem setPriceMap_orderIndex (map : PriceMap sizes side) :
    (book.setPriceMap side map).orderIndex = book.orderIndex := by
  cases side <;> rfl

@[simp] theorem setPriceMap_orderPool (map : PriceMap sizes side) :
    (book.setPriceMap side map).orderPool = book.orderPool := by
  cases side <;> rfl

@[simp] theorem setPriceMap_levelPool (map : PriceMap sizes side) :
    (book.setPriceMap side map).levelPool = book.levelPool := by
  cases side <;> rfl

end Edits

theorem payload_eq {book : OrderBook sizes} {slot : OrderSlot sizes}
    {node : RestingOrder sizes}
    (stored : book.orderPool.object? slot = some node) :
    book.payload slot = node.toOrder := by
  simp [payload, stored]

theorem links_eq {book : OrderBook sizes} {slot : OrderSlot sizes}
    {node : RestingOrder sizes}
    (stored : book.orderPool.object? slot = some node) :
    book.links.prev slot = node.prev ∧ book.links.next slot = node.next := by
  simp [links, stored]

/-- A level record only depends on the payloads of its queue. -/
theorem levelRecord_congr {book other : OrderBook sizes} {price : Int64}
    {queue : List (OrderSlot sizes)}
    (agree : ∀ slot ∈ queue, other.payload slot = book.payload slot) :
    other.levelRecord price queue = book.levelRecord price queue := by
  have quantities : queue.map other.qtyAt = queue.map book.qtyAt := by
    apply List.map_congr_left
    intro slot member
    rw [qtyAt, qtyAt, agree slot member]
  rw [levelRecord, levelRecord, quantities]

/-- The quantities of as many orders as the pool holds fit into 64 bits. -/
theorem sum_qtyAt_lt (book : OrderBook sizes) {slots : List (OrderSlot sizes)}
    (few : slots.length ≤ sizes.orders) :
    (slots.map book.qtyAt).sum < 2 ^ 64 := by
  have bound : (slots.map book.qtyAt).sum ≤ slots.length * (2 ^ 32 - 1) := by
    clear few
    induction slots with
    | nil => simp
    | cons slot slots induction =>
        have qtyLt : book.qtyAt slot < 2 ^ 32 :=
          (book.payload slot).qty.toNat_lt
        rw [List.map_cons, List.sum_cons, List.length_cons, Nat.succ_mul]
        omega
  have small := sizes.orders_lt
  calc (slots.map book.qtyAt).sum ≤ slots.length * (2 ^ 32 - 1) := bound
    _ ≤ sizes.orders * (2 ^ 32 - 1) := Nat.mul_le_mul_right _ few
    _ < 2 ^ 64 := by omega

namespace Represents

variable {book : OrderBook sizes} {layout : Layout sizes}
variable {level : LevelSlot sizes} {slot : OrderSlot sizes}

theorem queue_used (rep : book.Represents layout)
    (member : slot ∈ layout.queue level) : slot ∉ layout.freeOrders :=
  (rep.slot_used slot).mpr (.inr ⟨level, member⟩)

/-- A queued slot holds an order, whose links follow the queue. -/
theorem node (rep : book.Represents layout)
    {front back : List (OrderSlot sizes)}
    (split : layout.queue level = front ++ slot :: back) :
    book.orderPool.object? slot =
      some { book.payload slot with
        prev := front.getLast?
        next := back.head? } := by
  have member : slot ∈ layout.queue level := by simp [split]
  obtain ⟨node, stored⟩ := rep.orders_free.live slot (rep.queue_used member)
  obtain ⟨prevEq, nextEq⟩ := (rep.chain level).linked front slot back split
  obtain ⟨nodePrev, nodeNext⟩ := links_eq stored
  rw [stored, payload_eq stored, ← prevEq, ← nextEq, nodePrev, nodeNext]

theorem queue_length_le (rep : book.Represents layout)
    (level : LevelSlot sizes) :
    (layout.queue level).length ≤ sizes.orders := by
  have bound := (rep.chain level).nodup.length_le_card
  simpa using bound

theorem queue_eq (rep : book.Represents layout) {side : Side} {price : Int64}
    (listed : book.Listed side price level) :
    book.queue level = layout.queue level := by
  rw [queue, rep.record listed]
  exact (rep.chain level).walk_eq (rep.queue_length_le level)

theorem queue_eq_nil (rep : book.Represents layout)
    (unlisted : ∀ side price, ¬ book.Listed side price level) :
    layout.queue level = [] := by
  rw [List.eq_nil_iff_forall_not_mem]
  intro slot member
  obtain ⟨side, price, listed⟩ := rep.queue_listed member
  exact unlisted side price listed

theorem find?_eq (_rep : book.Represents layout) {side : Side} {price : Int64} :
    (book.priceMap side).find? price = some level ↔
      book.Listed side price level :=
  SortedMap.find?_eq_some_iff

end Represents

end OrderBook

end Hydra
