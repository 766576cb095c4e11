import Hydra.Book.Operations
import Hydra.Library.Ensures

/-!
# A cancelled insertion is undone exactly

A layout, the price maps, the queued orders and the exhaustion counters
determine a settled heap.  An order that is added and cancelled at once leaves
all four as they were, and so the whole heap, free lists and links included.
-/

namespace Hydra

namespace ObjectPool

variable {Object : Type} {capacity : Nat} {slot : Fin capacity}
variable (pool : ObjectPool Object capacity)

theorem acquire_count [Inhabited Object] :
    Ensures pool.acquire fun result => result.1 ≠ none →
      result.2.exhaustionCount = pool.exhaustionCount := by
  rw [acquire, acquireWith]
  cases pool.freeHead with
  | none => exact .ok (fun isSome => absurd rfl isSome)
  | some slot =>
      dsimp only
      cases pool.slab slot with
      | object value => exact .error _ _
      | free next => exact .ok (fun _ => rfl)

theorem release_count : Ensures (pool.release slot) fun released =>
    released.exhaustionCount = pool.exhaustionCount := by
  rw [release]
  cases pool.slab slot with
  | object value => exact .ok rfl
  | free next => exact .error _ _

theorem modify_count (change : Object → Object) :
    Ensures (pool.modify slot change) fun modified =>
      modified.exhaustionCount = pool.exhaustionCount := by
  rw [modify]
  cases pool.slab slot with
  | object value => exact .ok rfl
  | free next => exact .error _ _

end ObjectPool

namespace OrderBook

variable {sizes : PoolSizes}

/-- The exhaustion counters of the pools have not moved. -/
structure SameCounts (book next : OrderBook sizes) : Prop where
  orders : next.orderPool.exhaustionCount = book.orderPool.exhaustionCount
  levels : next.levelPool.exhaustionCount = book.levelPool.exhaustionCount

section Counts

variable {book next : OrderBook sizes}

theorem SameCounts.refl (book : OrderBook sizes) : SameCounts book book :=
  ⟨rfl, rfl⟩

theorem SameCounts.trans {last : OrderBook sizes}
    (first : SameCounts book next) (second : SameCounts next last) :
    SameCounts book last :=
  ⟨second.orders.trans first.orders, second.levels.trans first.levels⟩

variable (book)

theorem modifyOrder_counts (slot : OrderSlot sizes)
    (change : RestingOrder sizes → RestingOrder sizes) :
    Ensures (book.modifyOrder slot change) book.SameCounts := by
  apply (book.orderPool.modify_count change).bind
  intro orderPool same
  exact .ok ⟨same, rfl⟩

theorem modifyLevel_counts (level : LevelSlot sizes)
    (change : Level sizes → Level sizes) :
    Ensures (book.modifyLevel level change) book.SameCounts := by
  apply (book.levelPool.modify_count change).bind
  intro levelPool same
  exact .ok ⟨rfl, same⟩

theorem setPriceMap_counts (side : Side) (map : PriceMap sizes side) :
    SameCounts book (book.setPriceMap side map) := by
  cases side <;> exact ⟨rfl, rfl⟩

theorem getOrCreateLevel_counts (side : Side) (price : Int64) :
    Ensures (book.getOrCreateLevel side price) fun result =>
      result.1 ≠ none → SameCounts book result.2 := by
  rw [getOrCreateLevel]
  cases (book.priceMap side).find? price with
  | some level => exact .ok fun _ => .refl book
  | none =>
      apply book.levelPool.acquire_count.bind
      intro taken same
      obtain ⟨acquired, levelPool⟩ := taken
      cases acquired with
      | none => exact .ok fun isSome => absurd rfl isSome
      | some level =>
          have taken : SameCounts book { book with levelPool } :=
            ⟨rfl, same (by simp)⟩
          apply (modifyLevel_counts _ level _).bind
          intro filled filledCounts
          apply Ensures.ok
          intro _
          exact (taken.trans filledCounts).trans
            (filled.setPriceMap_counts side _)

theorem appendToLevel_counts (level : LevelSlot sizes)
    (order : OrderSlot sizes) :
    Ensures (book.appendToLevel level order) book.SameCounts := by
  apply Ensures.step
  intro record
  apply (book.modifyOrder_counts order _).bind
  intro queued queuedCounts
  have counted : ∀ linked, queued.SameCounts linked → Ensures (do
      let node ← linked.orderPool.read order
      linked.modifyLevel level fun record =>
        { record with
          tail := some order
          totalQty := record.totalQty + node.qty.toUInt64
          orderCount := record.orderCount + 1 }) book.SameCounts := by
    intro linked linkedCounts
    apply Ensures.step
    intro node
    apply (linked.modifyLevel_counts level _).weaken
    intro last lastCounts
    exact (queuedCounts.trans linkedCounts).trans lastCounts
  dsimp only
  cases record.tail with
  | some tail => exact (queued.modifyOrder_counts tail _).bind counted
  | none => exact (queued.modifyLevel_counts level _).bind counted

theorem linkNextPast_counts (level : LevelSlot sizes)
    (node : RestingOrder sizes) :
    Ensures (book.linkNextPast level node) book.SameCounts := by
  rw [linkNextPast]
  cases node.prev with
  | some prev => exact book.modifyOrder_counts prev _
  | none => exact book.modifyLevel_counts level _

theorem linkPrevPast_counts (level : LevelSlot sizes)
    (node : RestingOrder sizes) :
    Ensures (book.linkPrevPast level node) book.SameCounts := by
  rw [linkPrevPast]
  cases node.next with
  | some next => exact book.modifyOrder_counts next _
  | none => exact book.modifyLevel_counts level _

theorem unlinkFromLevel_counts (level : LevelSlot sizes)
    (order : OrderSlot sizes) :
    Ensures (book.unlinkFromLevel level order) book.SameCounts := by
  apply Ensures.step
  intro node
  apply (book.linkNextPast_counts level node).bind
  intro passed passedCounts
  apply Ensures.step
  intro node
  apply (passed.linkPrevPast_counts level node).bind
  intro unlinked unlinkedCounts
  apply Ensures.step
  intro node
  apply (unlinked.modifyLevel_counts level _).weaken
  intro last lastCounts
  exact (passedCounts.trans unlinkedCounts).trans lastCounts

theorem attachOrder_counts (slot : OrderSlot sizes)
    (found : Option (LevelSlot sizes)) :
    Ensures (book.attachOrder slot found) fun result =>
      result.1 ≠ none → SameCounts book result.2 := by
  cases found with
  | none =>
      apply Ensures.step
      intro orderPool
      exact .ok fun isSome => absurd rfl isSome
  | some level =>
      apply (book.appendToLevel_counts level slot).bind
      intro appended appendedCounts
      apply Ensures.step
      intro node
      exact .ok fun _ => ⟨appendedCounts.orders, appendedCounts.levels⟩

/-- An insertion that succeeds is not counted. -/
theorem addOrder_counts (incoming : Order) :
    Ensures (book.addOrder incoming) fun result =>
      result.1 ≠ none → SameCounts book result.2 := by
  rw [addOrder]
  cases book.orderIndex incoming.orderId with
  | some entry => exact .ok fun isSome => absurd rfl isSome
  | none =>
      apply book.orderPool.acquire_count.bind
      intro taken same
      obtain ⟨acquired, orderPool⟩ := taken
      cases acquired with
      | none => exact .ok fun isSome => absurd rfl isSome
      | some slot =>
          have taken : SameCounts book { book with orderPool } :=
            ⟨same (by simp), rfl⟩
          apply (modifyOrder_counts _ slot _).bind
          intro filled filledCounts
          apply Ensures.step
          intro node
          rw [findOrCreateLevel_eq]
          apply (filled.getOrCreateLevel_counts _ _).bind
          intro levelFound levelCounts
          obtain ⟨found, created⟩ := levelFound
          cases found with
          | none =>
              apply Ensures.step
              intro released
              exact .ok fun isSome => absurd rfl isSome
          | some level =>
              apply (created.attachOrder_counts slot _).weaken
              intro result resultCounts isSome
              exact ((taken.trans filledCounts).trans
                (levelCounts (by simp))).trans (resultCounts isSome)

theorem collectLevel_counts (side : Side) (level : LevelSlot sizes) :
    Ensures (book.collectLevel side level) book.SameCounts := by
  apply Ensures.step
  intro record
  apply Ensures.ite
  · rw [eraseLevel_eq]
    apply (ObjectPool.release_count _).bind
    intro levelPool same
    apply Ensures.ok
    have erased := book.setPriceMap_counts side
      ((book.priceMap side).erase record.price)
    exact ⟨erased.orders, same.trans erased.levels⟩
  · exact .ok (.refl book)

theorem cancelOrder_counts (orderId : UInt64) :
    Ensures (book.cancelOrder orderId) fun result =>
      SameCounts book result.2 := by
  rw [cancelOrder]
  cases book.orderIndex orderId with
  | none => exact .ok (.refl book)
  | some entry =>
      apply Ensures.step
      intro node
      apply (book.unlinkFromLevel_counts entry.level entry.order).bind
      intro unlinked unlinkedCounts
      apply (ObjectPool.release_count _).bind
      intro orderPool same
      apply (collectLevel_counts _ node.side entry.level).bind
      intro collected collectedCounts
      apply Ensures.ok
      have released : SameCounts unlinked
          { unlinked with
            orderIndex := Function.update unlinked.orderIndex orderId none
            orderPool } := ⟨same, rfl⟩
      exact (unlinkedCounts.trans released).trans collectedCounts

end Counts

end OrderBook

/-- A pool is given by its free list, its objects and its counter. -/
theorem ObjectPool.FreeList.ext {Object : Type} {capacity : Nat}
    {pool other : ObjectPool Object capacity} {free : List (Fin capacity)}
    (freeList : FreeList pool free) (otherFree : FreeList other free)
    (objects : ∀ slot, slot ∉ free → other.object? slot = pool.object? slot)
    (counts : other.exhaustionCount = pool.exhaustionCount) :
    other = pool := by
  have slabs : other.slab = pool.slab := by
    funext slot
    by_cases isFree : slot ∈ free
    · obtain ⟨front, back, split⟩ := List.append_of_mem isFree
      rw [freeList.linked front slot back split,
        otherFree.linked front slot back split]
    · obtain ⟨value, stored⟩ := freeList.live slot isFree
      have otherStored := objects slot isFree
      rw [stored] at otherStored
      rw [object?_eq_some.mp stored, object?_eq_some.mp otherStored]
  have heads : other.freeHead = pool.freeHead := by
    rw [freeList.head, otherFree.head]
  cases other
  cases pool
  simp_all

namespace OrderBook

variable {sizes : PoolSizes} {book next : OrderBook sizes}
variable {layout : Layout sizes}

/-- Two heaps are the same if their layouts, price maps, queued orders and
counters are. -/
theorem Settled.ext (settled : book.Settled layout)
    (nextSettled : next.Settled layout)
    (maps : ∀ side, next.priceMap side = book.priceMap side)
    (payload : ∀ {level slot}, slot ∈ layout.queue level →
      next.payload slot = book.payload slot)
    (counts : SameCounts book next) : next = book := by
  have orderPools : next.orderPool = book.orderPool := by
    apply settled.orders_free.ext nextSettled.orders_free _ counts.orders
    intro slot used
    have queued := (settled.slot_used slot).mp used
    rw [settled.none_loose] at queued
    rcases queued with impossible | ⟨level, member⟩
    · cases impossible
    · obtain ⟨front, back, split⟩ := List.append_of_mem member
      rw [settled.node split, nextSettled.node split, payload member]
  have levelPools : next.levelPool = book.levelPool := by
    apply settled.levels_free.ext nextSettled.levels_free _ counts.levels
    intro level used
    obtain ⟨side, price, listed⟩ := (settled.level_used level).mp used
    rw [settled.record listed,
      nextSettled.record ((listed_congr maps).mpr listed)]
    congr 1
    apply levelRecord_congr
    intro slot member
    exact payload member
  have indexes : next.orderIndex = book.orderIndex := by
    funext orderId
    apply Option.ext
    intro entry
    rw [settled.index, nextSettled.index]
    apply and_congr_right
    intro member
    rw [payload member]
  have bids := maps .buy
  have asks := maps .sell
  change next.bids = book.bids at bids
  change next.asks = book.asks at asks
  cases next
  cases book
  simp_all

/-- Cancelling an order that has just been added restores the heap. -/
theorem Joined.cancelled (settled : book.Settled layout) {incoming : Order}
    {slot : OrderSlot sizes} {level : LevelSlot sizes}
    {nextLayout : Layout sizes}
    (joined : book.Joined layout incoming slot level next nextLayout)
    (counts : SameCounts book next) :
    next.cancelOrder incoming.orderId = .ok (true, book) := by
  have payloadSlot : next.payload slot = incoming := by
    rw [joined.payload, Function.update_self]
  have split : nextLayout.queue level = layout.queue level ++ slot :: [] :=
    joined.queue_eq
  obtain ⟨restored, cancelled, edited⟩ :=
    cancelOrder_queued joined.settled joined.listed split
  rw [payloadSlot] at cancelled
  have restoredCounts :=
    counts.trans ((next.cancelOrder_counts _).returned cancelled)
  have restoredSettled := edited.settled
  rw [joined.undone] at restoredSettled
  rw [List.append_nil] at edited
  have same : restored = book := by
    apply settled.ext restoredSettled _ _ restoredCounts
    · intro side
      by_cases own : side = incoming.side
      · subst own
        rw [edited.map]
        rcases joined.map with kept | ⟨absent, emplaced, empty⟩
        · have listed := joined.listed
          rw [Listed, kept] at listed
          rw [if_neg (settled.populated listed), kept]
        · rw [if_pos empty, emplaced]
          exact SortedMap.erase_emplace absent level
      · rw [edited.otherMap side own, joined.otherMap side own]
    · intro other current member
      have differs : current ≠ slot := by
        rintro rfl
        exact joined.fresh other member
      rw [edited.payload current differs, joined.payload,
        Function.update_of_ne differs]
  rw [cancelled, same]

end OrderBook

end Hydra
