import Hydra.Library.Lockstep
import Hydra.OrderBook

/-!
# The exhaustion counters are only counted

No operation reads the exhaustion counters of the pools.  A book whose counters
stand elsewhere therefore goes through the same operations with the same
results, and its counters keep their distance.
-/

namespace Hydra

namespace ObjectPool

variable {Object : Type} {capacity : Nat}

/-- The pool with its counter moved on. -/
def recount (extra : UInt64) (pool : ObjectPool Object capacity) :
    ObjectPool Object capacity :=
  { pool with exhaustionCount := pool.exhaustionCount + extra }

variable (extra : UInt64) (pool : ObjectPool Object capacity)

theorem acquire_recount [Inhabited Object] :
    Lockstep (Prod.map id (recount extra)) pool.acquire
      (pool.recount extra).acquire := by
  rw [Lockstep]
  cases head : pool.freeHead with
  | none =>
      have moved : pool.exhaustionCount + extra + 1 =
          pool.exhaustionCount + 1 + extra := by
        rw [UInt64.add_assoc, UInt64.add_comm extra, UInt64.add_assoc]
      simp [acquire, acquireWith, recount, head, moved, Except.map]
  | some slot =>
      cases stored : pool.slab slot <;>
        simp [acquire, acquireWith, recount, head, stored, Except.map]

theorem release_recount (slot : Fin capacity) :
    Lockstep (recount extra) (pool.release slot)
      ((pool.recount extra).release slot) := by
  rw [Lockstep]
  cases stored : pool.slab slot <;>
    simp [release, recount, stored, Except.map]

theorem modify_recount (slot : Fin capacity) (change : Object → Object) :
    Lockstep (recount extra) (pool.modify slot change)
      ((pool.recount extra).modify slot change) := by
  rw [Lockstep]
  cases stored : pool.slab slot <;>
    simp [modify, set, recount, stored, Except.map]

end ObjectPool

namespace OrderBook

variable {sizes : PoolSizes} (orders levels : UInt64)
variable (book : OrderBook sizes)

/-- The book with the counters of its pools moved on. -/
def recount : OrderBook sizes :=
  { book with
    orderPool := book.orderPool.recount orders
    levelPool := book.levelPool.recount levels }

theorem modifyOrder_recount (slot : OrderSlot sizes)
    (change : RestingOrder sizes → RestingOrder sizes) :
    Lockstep (recount orders levels) (book.modifyOrder slot change)
      ((book.recount orders levels).modifyOrder slot change) := by
  apply (book.orderPool.modify_recount orders slot change).bind
  intro orderPool
  exact .ok (recount orders levels) { book with orderPool }

theorem modifyLevel_recount (slot : LevelSlot sizes)
    (change : Level sizes → Level sizes) :
    Lockstep (recount orders levels) (book.modifyLevel slot change)
      ((book.recount orders levels).modifyLevel slot change) := by
  apply (book.levelPool.modify_recount levels slot change).bind
  intro levelPool
  exact .ok (recount orders levels) { book with levelPool }

theorem priceMap_recount (side : Side) :
    (book.recount orders levels).priceMap side = book.priceMap side := by
  cases side <;> rfl

theorem orderIndex_recount :
    (book.recount orders levels).orderIndex = book.orderIndex :=
  rfl

theorem getOrCreateLevel_recount (side : Side) (price : Int64) :
    Lockstep (Prod.map id (recount orders levels))
      (book.getOrCreateLevel side price)
      ((book.recount orders levels).getOrCreateLevel side price) := by
  rw [getOrCreateLevel, getOrCreateLevel, priceMap_recount]
  cases (book.priceMap side).find? price with
  | some level => exact .ok _ _
  | none =>
      apply (book.levelPool.acquire_recount levels).bind
      intro acquired
      obtain ⟨found, levelPool⟩ := acquired
      cases found with
      | none =>
          exact .ok (Prod.map id (recount orders levels))
            (none, { book with levelPool })
      | some level =>
          apply (modifyLevel_recount orders levels { book with levelPool }
            level _).bind
          intro next
          cases side with
          | buy =>
              exact .ok (Prod.map id (recount orders levels)) (some level, _)
          | sell =>
              exact .ok (Prod.map id (recount orders levels)) (some level, _)

theorem findOrCreateLevel_recount (side : Side) (price : Int64) :
    Lockstep (Prod.map id (recount orders levels))
      (book.findOrCreateLevel side price)
      ((book.recount orders levels).findOrCreateLevel side price) :=
  .ite (fun _ => book.getOrCreateLevel_recount orders levels .buy price)
    fun _ => book.getOrCreateLevel_recount orders levels .sell price

theorem appendToLevel_recount (level : LevelSlot sizes)
    (order : OrderSlot sizes) :
    Lockstep (recount orders levels) (book.appendToLevel level order)
      ((book.recount orders levels).appendToLevel level order) := by
  have counted : ∀ book : OrderBook sizes,
      Lockstep (recount orders levels)
        (book.orderPool.read order >>= fun node =>
          book.modifyLevel level fun record =>
            { record with
              tail := some order
              totalQty := record.totalQty + node.qty.toUInt64
              orderCount := record.orderCount + 1 })
        ((book.recount orders levels).orderPool.read order >>= fun node =>
          (book.recount orders levels).modifyLevel level fun record =>
            { record with
              tail := some order
              totalQty := record.totalQty + node.qty.toUInt64
              orderCount := record.orderCount + 1 }) := by
    intro book
    apply Lockstep.shared
    intro node
    exact book.modifyLevel_recount orders levels level _
  apply Lockstep.shared
  intro record
  apply (book.modifyOrder_recount orders levels order _).bind
  intro linked
  cases record.tail with
  | none =>
      apply (linked.modifyLevel_recount orders levels level _).bind
      exact counted
  | some tail =>
      apply (linked.modifyOrder_recount orders levels tail _).bind
      exact counted

theorem linkNextPast_recount (level : LevelSlot sizes)
    (node : RestingOrder sizes) :
    Lockstep (recount orders levels) (book.linkNextPast level node)
      ((book.recount orders levels).linkNextPast level node) := by
  rw [linkNextPast, linkNextPast]
  cases node.prev with
  | none => exact book.modifyLevel_recount orders levels level _
  | some prev => exact book.modifyOrder_recount orders levels prev _

theorem linkPrevPast_recount (level : LevelSlot sizes)
    (node : RestingOrder sizes) :
    Lockstep (recount orders levels) (book.linkPrevPast level node)
      ((book.recount orders levels).linkPrevPast level node) := by
  rw [linkPrevPast, linkPrevPast]
  cases node.next with
  | none => exact book.modifyLevel_recount orders levels level _
  | some next => exact book.modifyOrder_recount orders levels next _

theorem unlinkFromLevel_recount (level : LevelSlot sizes)
    (order : OrderSlot sizes) :
    Lockstep (recount orders levels) (book.unlinkFromLevel level order)
      ((book.recount orders levels).unlinkFromLevel level order) := by
  apply Lockstep.shared
  intro node
  apply (book.linkNextPast_recount orders levels level node).bind
  intro nextLinked
  apply Lockstep.shared
  intro node
  apply (nextLinked.linkPrevPast_recount orders levels level node).bind
  intro prevLinked
  apply Lockstep.shared
  intro node
  exact prevLinked.modifyLevel_recount orders levels level _

theorem joinLevel_recount (level : LevelSlot sizes)
    (resting : OrderSlot sizes) :
    Lockstep (Prod.map id (recount orders levels))
      (book.joinLevel level resting)
      ((book.recount orders levels).joinLevel level resting) := by
  apply (book.appendToLevel_recount orders levels level resting).bind
  intro joined
  apply Lockstep.shared
  intro node
  exact .ok (Prod.map id (recount orders levels)) (some resting, _)

theorem attachOrder_recount (resting : OrderSlot sizes)
    (found : Option (LevelSlot sizes)) :
    Lockstep (Prod.map id (recount orders levels))
      (book.attachOrder resting found)
      ((book.recount orders levels).attachOrder resting found) := by
  cases found with
  | none =>
      apply (book.orderPool.release_recount orders resting).bind
      intro orderPool
      exact .ok (Prod.map id (recount orders levels))
        (none, { book with orderPool })
  | some level => exact book.joinLevel_recount orders levels level resting

theorem addOrder_recount (incoming : Order) :
    Lockstep (Prod.map id (recount orders levels)) (book.addOrder incoming)
      ((book.recount orders levels).addOrder incoming) := by
  rw [addOrder, addOrder, orderIndex_recount]
  cases book.orderIndex incoming.orderId with
  | some entry => exact .ok _ _
  | none =>
      apply (book.orderPool.acquire_recount orders).bind
      intro acquired
      obtain ⟨found, orderPool⟩ := acquired
      cases found with
      | none =>
          exact .ok (Prod.map id (recount orders levels))
            (none, { book with orderPool })
      | some resting =>
          apply (modifyOrder_recount orders levels { book with orderPool }
            resting _).bind
          intro stored
          apply Lockstep.shared
          intro node
          apply (stored.findOrCreateLevel_recount orders levels node.side
            node.price).bind
          intro levelFound
          exact levelFound.2.attachOrder_recount orders levels resting
            levelFound.1

theorem eraseLevel_recount (side : Side) (price : Int64) :
    (book.recount orders levels).eraseLevel side price =
      (book.eraseLevel side price).recount orders levels := by
  cases side <;> rfl

theorem collectLevel_recount (side : Side) (level : LevelSlot sizes) :
    Lockstep (recount orders levels) (book.collectLevel side level)
      ((book.recount orders levels).collectLevel side level) := by
  apply Lockstep.shared
  intro record
  apply Lockstep.ite
  · intro _
    rw [eraseLevel_recount]
    apply ((book.eraseLevel side record.price).levelPool.release_recount levels
      level).bind
    intro levelPool
    exact .ok (recount orders levels)
      { book.eraseLevel side record.price with levelPool }
  · intro _
    exact .ok _ _

theorem cancelOrder_recount (orderId : UInt64) :
    Lockstep (Prod.map id (recount orders levels)) (book.cancelOrder orderId)
      ((book.recount orders levels).cancelOrder orderId) := by
  rw [cancelOrder, cancelOrder, orderIndex_recount]
  cases book.orderIndex orderId with
  | none => exact .ok _ _
  | some entry =>
      apply Lockstep.shared
      intro node
      apply (book.unlinkFromLevel_recount orders levels entry.level
        entry.order).bind
      intro unlinked
      apply (unlinked.orderPool.release_recount orders entry.order).bind
      intro orderPool
      apply (collectLevel_recount orders levels _ node.side entry.level).bind
      intro collected
      exact .ok (Prod.map id (recount orders levels)) (true, collected)

theorem replaceOrderInPlace_recount (orderId : UInt64) (newQty : UInt32) :
    Lockstep (Prod.map id (recount orders levels))
      (book.replaceOrderInPlace orderId newQty)
      ((book.recount orders levels).replaceOrderInPlace orderId newQty) := by
  rw [replaceOrderInPlace, replaceOrderInPlace, orderIndex_recount]
  cases book.orderIndex orderId with
  | none => exact .ok _ _
  | some entry =>
      apply Lockstep.shared
      intro node
      apply (book.modifyOrder_recount orders levels entry.order _).bind
      intro resized
      apply (resized.modifyLevel_recount orders levels entry.level _).bind
      intro counted
      exact .ok (Prod.map id (recount orders levels)) (true, counted)

end OrderBook

end Hydra
