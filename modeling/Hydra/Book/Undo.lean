import Hydra.Book.Counters
import Hydra.Book.View

/-!
# What a failed insertion leaves behind

An insertion that fails gives back the order slot that it took, so that the
slots of the book, used and free, are as before; only the exhaustion counter of
a pool may have grown.
-/

namespace Hydra

namespace ObjectPool

variable {Object : Type} {capacity : Nat}

/-- The link in a free slot. -/
def nextFree (pool : ObjectPool Object capacity) (slot : Fin capacity) :
    Option (Fin capacity) :=
  match pool.slab slot with
  | .free next => next
  | .object _ => none

/-- Follow the free list, for at most `fuel` slots. -/
def walkFree (pool : ObjectPool Object capacity) :
    Nat → Option (Fin capacity) → List (Fin capacity)
  | 0, _ => []
  | _, none => []
  | fuel + 1, some slot => slot :: pool.walkFree fuel (pool.nextFree slot)

/-- The free slots, in the order in which they will be handed out. -/
def freeSlots (pool : ObjectPool Object capacity) : List (Fin capacity) :=
  pool.walkFree capacity pool.freeHead

theorem FreeList.walkFree_suffix {pool : ObjectPool Object capacity}
    {free : List (Fin capacity)} (freeList : FreeList pool free)
    {front back : List (Fin capacity)} {fuel : Nat}
    (split : free = front ++ back) (enough : back.length ≤ fuel) :
    pool.walkFree fuel back.head? = back := by
  induction back generalizing front fuel with
  | nil => cases fuel <;> rfl
  | cons slot back induction =>
      cases fuel with
      | zero => simp at enough
      | succ fuel =>
          have linked := freeList.linked front slot back split
          have split' : free = (front ++ [slot]) ++ back := by simp [split]
          simp only [List.head?_cons, walkFree, nextFree, linked]
          rw [induction split' (by simpa using enough)]

/-- The slots that are read along the links are the free list. -/
theorem FreeList.freeSlots_eq {pool : ObjectPool Object capacity}
    {free : List (Fin capacity)} (freeList : FreeList pool free) :
    pool.freeSlots = free := by
  have few : free.length ≤ capacity := by
    simpa using freeList.nodup.length_le_card
  rw [freeSlots, freeList.head]
  exact freeList.walkFree_suffix (List.nil_append free).symm few

/-- A slot that is acquired, written and released is as it was before. -/
theorem FreeList.acquire_release [Inhabited Object]
    {pool : ObjectPool Object capacity} {slot : Fin capacity}
    {free : List (Fin capacity)} (freeList : FreeList pool (slot :: free)) :
    ∃ taken, pool.acquire = .ok (some slot, taken) ∧
      taken.object? slot = some default ∧
      ∀ value, (taken.set slot value).release slot = .ok pool := by
  have head : pool.freeHead = some slot := freeList.head
  have stored := freeList.linked [] slot free rfl
  refine ⟨{ pool with
    slab := Function.update pool.slab slot (.object default)
    freeHead := free.head? }, ?_, ?_, ?_⟩
  · simp [acquire, acquireWith, head, stored]
  · simp [object?]
  · intro value
    have restored : Function.update pool.slab slot (.free free.head?) =
        pool.slab := by
      rw [← stored, Function.update_eq_self]
    simp [ObjectPool.release, ObjectPool.set, restored, ← head]

end ObjectPool

namespace OrderBook

variable {sizes : PoolSizes} {book : OrderBook sizes} {layout : Layout sizes}

/-- The reasons for which `addOrder` returns a null pointer. -/
def Refuses (book : OrderBook sizes) (incoming : Order) : Prop :=
  book.findOrder incoming.orderId ≠ none ∨
    book.orderPool.freeSlots = [] ∨
    ((book.priceMap incoming.side).find? incoming.price = none ∧
      book.levelPool.freeSlots = [])

/-- The book after a failed insertion: the counter of the exhausted pool has
grown by one. -/
def countRefusal (book : OrderBook sizes) (incoming : Order) :
    OrderBook sizes :=
  if book.findOrder incoming.orderId ≠ none then book
  else if book.orderPool.freeSlots = [] then book.recount 1 0
  else book.recount 0 1

/-- The heap of a book has its layout whatever the counters say. -/
theorem Settled.recount (settled : book.Settled layout)
    (orders levels : UInt64) :
    (book.recount orders levels).Settled layout where
  orders_free := ⟨settled.orders_free.nodup, settled.orders_free.head,
    settled.orders_free.linked, settled.orders_free.live⟩
  levels_free := ⟨settled.levels_free.nodup, settled.levels_free.head,
    settled.levels_free.linked, settled.levels_free.live⟩
  record := settled.record
  chain := settled.chain
  placed := settled.placed
  listed_once := settled.listed_once
  level_used := settled.level_used
  queue_listed := settled.queue_listed
  slot_used := settled.slot_used
  loose_unqueued := settled.loose_unqueued
  queue_unique := settled.queue_unique
  index := settled.index
  none_loose := settled.none_loose
  populated := settled.populated

theorem Settled.countRefusal (settled : book.Settled layout)
    (incoming : Order) : (book.countRefusal incoming).Settled layout := by
  rw [OrderBook.countRefusal]
  split
  · exact settled
  · split
    · exact settled.recount 1 0
    · exact settled.recount 0 1

theorem countRefusal_view (book : OrderBook sizes) (incoming : Order) :
    (book.countRefusal incoming).view = book.view := by
  rw [countRefusal]
  split
  · rfl
  · split <;> rfl

theorem findOrCreateLevel_eq (book : OrderBook sizes) (side : Side)
    (price : Int64) :
    book.findOrCreateLevel side price = book.getOrCreateLevel side price := by
  cases side <;> rfl

theorem findOrder_eq_none (book : OrderBook sizes) (orderId : UInt64) :
    book.findOrder orderId = none ↔ book.orderIndex orderId = none := by
  simp [findOrder]

theorem addOrder_duplicate {incoming : Order}
    (present : book.findOrder incoming.orderId ≠ none) :
    book.addOrder incoming = .ok (none, book) := by
  rw [addOrder]
  cases indexed : book.orderIndex incoming.orderId with
  | none => exact absurd ((book.findOrder_eq_none _).mpr indexed) present
  | some entry => rfl

theorem addOrder_ordersExhausted (settled : book.Settled layout)
    {incoming : Order} (absent : book.findOrder incoming.orderId = none)
    (free : layout.freeOrders = []) :
    book.addOrder incoming = .ok (none, book.recount 1 0) := by
  have ordersFree := settled.orders_free
  rw [free] at ordersFree
  rw [addOrder, (book.findOrder_eq_none _).mp absent]
  change (book.orderPool.acquire >>= _) = _
  rw [ordersFree.acquire_nil]
  simp [recount, ObjectPool.recount]
  rfl

theorem addOrder_levelsExhausted (settled : book.Settled layout)
    {incoming : Order} (absent : book.findOrder incoming.orderId = none)
    (unlisted : (book.priceMap incoming.side).find? incoming.price = none)
    {slot : OrderSlot sizes} {rest : List (OrderSlot sizes)}
    (freeOrders : layout.freeOrders = slot :: rest)
    (freeLevels : layout.freeLevels = []) :
    book.addOrder incoming = .ok (none, book.recount 0 1) := by
  have ordersFree := settled.orders_free
  rw [freeOrders] at ordersFree
  have levelsFree := settled.levels_free
  rw [freeLevels] at levelsFree
  obtain ⟨taken, acquired, stored, restored⟩ := ordersFree.acquire_release
  let node : RestingOrder sizes :=
    { (default : RestingOrder sizes) with toOrder := incoming }
  let held : OrderBook sizes := { book with orderPool := taken.set slot node }
  have filled : OrderBook.modifyOrder { book with orderPool := taken } slot
      (fun node => { node with toOrder := incoming }) = .ok held :=
    modifyOrder_eq stored _
  have read : held.orderPool.read slot = .ok node :=
    ObjectPool.read_eq ObjectPool.object?_set_self
  have heldUnlisted : (held.priceMap incoming.side).find? incoming.price =
      none := by
    rw [← unlisted]
    cases incoming.side <;> rfl
  have exhausted : held.getOrCreateLevel incoming.side incoming.price =
      .ok (none, { held with levelPool := book.levelPool.recount 1 }) := by
    rw [getOrCreateLevel, heldUnlisted]
    change (book.levelPool.acquire >>= _) = _
    rw [levelsFree.acquire_nil]
    rfl
  rw [addOrder, (book.findOrder_eq_none _).mp absent]
  change (book.orderPool.acquire >>= _) = _
  rw [acquired, ok_bind]
  change (modifyOrder { book with orderPool := taken } slot _ >>= _) = _
  rw [filled, ok_bind, read, ok_bind, findOrCreateLevel_eq]
  change (held.getOrCreateLevel incoming.side incoming.price >>= _) = _
  rw [exhausted, ok_bind]
  change ((taken.set slot node).release slot >>= _) = _
  rw [restored node, ok_bind]
  have sameOrders : book.orderPool.recount 0 = book.orderPool := by
    simp [ObjectPool.recount]
  rw [recount, sameOrders]
  rfl

/-- A refused order changes nothing but a counter. -/
theorem addOrder_refused (settled : book.Settled layout) {incoming : Order}
    (refuses : book.Refuses incoming) :
    book.addOrder incoming = .ok (none, book.countRefusal incoming) := by
  have ordersEq := settled.orders_free.freeSlots_eq
  have levelsEq := settled.levels_free.freeSlots_eq
  rw [Refuses, ordersEq, levelsEq] at refuses
  rw [countRefusal, ordersEq]
  by_cases present : book.findOrder incoming.orderId ≠ none
  · rw [if_pos present, addOrder_duplicate present]
  · have absent : book.findOrder incoming.orderId = none :=
      Decidable.not_not.mp present
    rw [if_neg present]
    cases free : layout.freeOrders with
    | nil => rw [if_pos rfl, addOrder_ordersExhausted settled absent free]
    | cons slot rest =>
        rw [free] at refuses
        rcases refuses with resting | none_left | ⟨unlisted, full⟩
        · exact absurd resting present
        · cases none_left
        · rw [if_neg (List.cons_ne_nil slot rest)]
          exact addOrder_levelsExhausted settled absent unlisted free full

/-- The refusals are those of the market. -/
theorem refuses_iff (settled : book.Settled layout) (incoming : Order) :
    book.Refuses incoming ↔ ¬ book.view.Accepts sizes incoming := by
  have found := settled.find?_view incoming.orderId
  have listed : (book.view.ladder incoming.side).find? incoming.price =
      ((book.priceMap incoming.side).find? incoming.price).map
        book.queueOrders := SortedMap.find?_mapValues _ _ _
  have orders := settled.freeOrders_eq_nil
  have levels := settled.freeLevels_eq_nil
  rw [Refuses, settled.orders_free.freeSlots_eq,
    settled.levels_free.freeSlots_eq, Market.Accepts, Market.HasRoom, found,
    listed, orders, levels]
  cases book.findOrder incoming.orderId with
  | some slot => simp
  | none =>
      cases (book.priceMap incoming.side).find? incoming.price with
      | some level => simp
      | none =>
          simp
          omega

end OrderBook

end Hydra
