import Hydra.Runs.Calls

/-!
# The representation of the book over runs of calls

`Consistent` is the representation invariant in the terms of the heap alone:
the queues are those that are read along the links, and no layout is given.
Counters are compared as numbers, so that none of them has wrapped.
-/

namespace Hydra

variable {sizes : PoolSizes}

namespace OrderBook

/-- The record of a level agrees with the queue of the level. -/
structure LevelConsistent (book : OrderBook sizes) (side : Side)
    (price : Int64) (level : LevelSlot sizes) (record : Level sizes) :
    Prop where
  keyed : record.price = price
  nonempty : book.queue level ≠ []
  chain : book.links.Chain (book.queue level)
  first : record.head = (book.queue level).head?
  last : record.tail = (book.queue level).getLast?
  counted : record.orderCount.toNat = (book.queue level).length
  summed : record.totalQty.toNat = ((book.queue level).map book.qtyAt).sum
  placed : ∀ slot ∈ book.queue level, ∃ node,
    book.orderPool.object? slot = some node ∧
      node.price = price ∧ node.side = side

/-- A slot is in the queue of a listed level. -/
def InQueue (book : OrderBook sizes) (slot : OrderSlot sizes)
    (level : LevelSlot sizes) : Prop :=
  (∃ side price, book.Listed side price level) ∧ slot ∈ book.queue level

/-- Price maps, levels, links, index and free lists agree with each other. -/
structure Consistent (book : OrderBook sizes) : Prop where
  levels : ∀ {side price level}, book.Listed side price level →
    ∃ record, book.levelPool.object? level = some record ∧
      book.LevelConsistent side price level record
  listed_once : ∀ {side price level otherSide otherPrice},
    book.Listed side price level → book.Listed otherSide otherPrice level →
    side = otherSide ∧ price = otherPrice
  queued_once : ∀ {slot level other}, book.InQueue slot level →
    book.InQueue slot other → level = other
  index : ∀ orderId entry, book.orderIndex orderId = some entry ↔
    book.InQueue entry.order entry.level ∧
      (book.payload entry.order).orderId = orderId
  orderSlots : ∃ free, book.orderPool.FreeList free ∧
    ∀ slot, slot ∉ free ↔ ∃ level, book.InQueue slot level
  levelSlots : ∃ free, book.levelPool.FreeList free ∧
    ∀ level, level ∉ free ↔ ∃ side price, book.Listed side price level

variable {book : OrderBook sizes} {layout : Layout sizes}

theorem Represents.inQueue_iff (rep : book.Represents layout)
    {slot : OrderSlot sizes} {level : LevelSlot sizes} :
    book.InQueue slot level ↔ slot ∈ layout.queue level := by
  constructor
  · intro queued
    obtain ⟨⟨side, price, listed⟩, member⟩ := queued
    rw [rep.queue_eq listed] at member
    exact member
  · intro member
    obtain ⟨side, price, listed⟩ := rep.queue_listed member
    refine ⟨⟨side, price, listed⟩, ?_⟩
    rw [rep.queue_eq listed]
    exact member

theorem Settled.levelConsistent (settled : book.Settled layout) {side : Side}
    {price : Int64} {level : LevelSlot sizes}
    (listed : book.Listed side price level) :
    book.LevelConsistent side price level
      (book.levelRecord price (layout.queue level)) := by
  have queueEq := settled.queue_eq listed
  have few := settled.queue_length_le level
  constructor
  case keyed => rfl
  case nonempty =>
    rw [queueEq]
    exact settled.populated listed
  case chain =>
    rw [queueEq]
    exact settled.chain level
  case first =>
    rw [queueEq]
    rfl
  case last =>
    rw [queueEq]
    rfl
  case counted =>
    rw [queueEq]
    apply UInt32.toNat_ofNat_of_lt'
    exact Nat.lt_of_le_of_lt few sizes.orders_lt
  case summed =>
    rw [queueEq]
    apply UInt64.toNat_ofNat_of_lt'
    exact book.sum_qtyAt_lt few
  case placed =>
    rw [queueEq]
    intro slot member
    obtain ⟨node, stored⟩ :=
      settled.orders_free.live slot (settled.queue_used member)
    have place := settled.placed listed member
    rw [payload_eq stored] at place
    exact ⟨node, stored, place⟩

theorem Settled.consistent (settled : book.Settled layout) :
    book.Consistent where
  levels listed := ⟨_, settled.record listed, settled.levelConsistent listed⟩
  listed_once := settled.listed_once
  queued_once queued otherQueued :=
    settled.queue_unique (settled.inQueue_iff.mp queued)
      (settled.inQueue_iff.mp otherQueued)
  index orderId entry := by
    rw [settled.index, settled.inQueue_iff]
  orderSlots := by
    refine ⟨layout.freeOrders, settled.orders_free, ?_⟩
    intro slot
    simp only [settled.slot_used, settled.none_loose, reduceCtorEq, false_or,
      settled.inQueue_iff]
  levelSlots := ⟨layout.freeLevels, settled.levels_free, settled.level_used⟩

end OrderBook

namespace Matcher

/-- Every run of calls keeps the book consistent and never gets stuck. -/
theorem calls_consistent {matcher : Matcher sizes}
    (reachable : (calls sizes).Reachable matcher) :
    matcher.book.Consistent ∧
      ∀ call, matcher.Admits call →
        ∃ next emitted, matcher.apply call = .ok (next, emitted) := by
  obtain ⟨layout, settled⟩ := reachable_wellFormed reachable
  refine ⟨settled.consistent, ?_⟩
  intro call admitted
  obtain ⟨next, emitted, run, _⟩ := apply_spec settled admitted
  exact ⟨next, emitted, run⟩

theorem calls_consistent_session :
    (session.book.Consistent ∧
      ∀ call, session.Admits call →
        ∃ next emitted, session.apply call = .ok (next, emitted)) ∧
      session.book.view.orderCount = 2 :=
  ⟨calls_consistent session_reachable.of_restrict, rfl⟩

end Matcher

end Hydra
