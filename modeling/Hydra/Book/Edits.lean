import Hydra.Book.Layout

/-!
# Edits of a represented heap

One lemma for each edit that the book operations are made of.  Each says that
the edit succeeds and names the layout of the resulting heap: an order slot is
acquired, filled, queued, taken out of its queue and released; a level slot is
acquired and listed, unlisted and released; the quantity of a queued order is
changed.
-/

namespace Hydra

variable {sizes : PoolSizes}

namespace Layout

/-- The loose slot joins the end of a queue. -/
def enqueue (layout : Layout sizes) (level : LevelSlot sizes)
    (slot : OrderSlot sizes) : Layout sizes :=
  { layout with
    queue := Function.update layout.queue level (layout.queue level ++ [slot])
    loose := none }

/-- A slot leaves its queue and is held by the running operation. -/
def dequeue (layout : Layout sizes) (level : LevelSlot sizes)
    (slot : OrderSlot sizes) : Layout sizes :=
  { layout with
    queue := Function.update layout.queue level
      ((layout.queue level).erase slot)
    loose := some slot }

/-- A level without orders is released. -/
def collected (layout : Layout sizes) (level : LevelSlot sizes) :
    Layout sizes :=
  if layout.queue level = [] then
    { layout with freeLevels := level :: layout.freeLevels }
  else layout

/-- A slot leaves its queue and is released. -/
def cancelled (layout : Layout sizes) (level : LevelSlot sizes)
    (slot : OrderSlot sizes) : Layout sizes :=
  { layout.dequeue level slot with
    freeOrders := slot :: layout.freeOrders
    loose := none }.collected level

variable (layout : Layout sizes) (level : LevelSlot sizes)
variable (slot : OrderSlot sizes)

@[simp] theorem collected_queue :
    (layout.collected level).queue = layout.queue := by
  rw [collected]
  split <;> rfl

@[simp] theorem collected_freeOrders :
    (layout.collected level).freeOrders = layout.freeOrders := by
  rw [collected]
  split <;> rfl

@[simp] theorem collected_loose :
    (layout.collected level).loose = layout.loose := by
  rw [collected]
  split <;> rfl

@[simp] theorem cancelled_queue :
    (layout.cancelled level slot).queue =
      (layout.dequeue level slot).queue := by
  rw [cancelled, collected_queue]

@[simp] theorem cancelled_freeOrders :
    (layout.cancelled level slot).freeOrders = slot :: layout.freeOrders := by
  rw [cancelled, collected_freeOrders]

@[simp] theorem cancelled_loose :
    (layout.cancelled level slot).loose = none := by
  rw [cancelled, collected_loose]

@[simp] theorem enqueue_queue_self :
    (layout.enqueue level slot).queue level = layout.queue level ++ [slot] := by
  simp [enqueue]

theorem enqueue_queue_of_ne {other : LevelSlot sizes}
    (differs : other ≠ level) :
    (layout.enqueue level slot).queue other = layout.queue other := by
  simp [enqueue, Function.update_of_ne differs]

@[simp] theorem dequeue_queue_self :
    (layout.dequeue level slot).queue level =
      (layout.queue level).erase slot := by
  simp [dequeue]

theorem dequeue_queue_of_ne {other : LevelSlot sizes}
    (differs : other ≠ level) :
    (layout.dequeue level slot).queue other = layout.queue other := by
  simp [dequeue, Function.update_of_ne differs]

end Layout

namespace OrderBook

theorem listed_congr {book other : OrderBook sizes}
    (maps : ∀ side, other.priceMap side = book.priceMap side)
    {side : Side} {price : Int64} {level : LevelSlot sizes} :
    other.Listed side price level ↔ book.Listed side price level := by
  rw [Listed, Listed, maps]

theorem listed_of_split {book : OrderBook sizes} {side : Side} {price : Int64}
    {level : LevelSlot sizes} {before after : List (Int64 × LevelSlot sizes)}
    (split : (book.priceMap side).entries = before ++ (price, level) :: after) :
    book.Listed side price level := by
  rw [Listed, split]
  simp

theorem payload_congr {book other : OrderBook sizes} {slot : OrderSlot sizes}
    (same : other.orderPool.object? slot = book.orderPool.object? slot) :
    other.payload slot = book.payload slot := by
  rw [payload, payload, same]

theorem links_congr {book other : OrderBook sizes} {slot : OrderSlot sizes}
    (same : other.orderPool.object? slot = book.orderPool.object? slot) :
    other.links.prev slot = book.links.prev slot ∧
      other.links.next slot = book.links.next slot := by
  simp [links, same]

namespace Represents

variable {book : OrderBook sizes} {layout : Layout sizes}
variable {level : LevelSlot sizes} {slot : OrderSlot sizes}
variable {side : Side} {price : Int64}

section Maps

variable {other : OrderBook sizes}

theorem listed_once_congr (rep : book.Represents layout)
    (maps : ∀ side, other.priceMap side = book.priceMap side)
    {leftSide rightSide : Side} {leftPrice rightPrice : Int64}
    (left : other.Listed leftSide leftPrice level)
    (right : other.Listed rightSide rightPrice level) :
    leftSide = rightSide ∧ leftPrice = rightPrice := by
  rw [listed_congr maps] at left right
  exact rep.listed_once left right

theorem level_used_congr (rep : book.Represents layout)
    (maps : ∀ side, other.priceMap side = book.priceMap side)
    (level : LevelSlot sizes) :
    level ∉ layout.freeLevels ↔
      ∃ side price, other.Listed side price level := by
  simp only [listed_congr maps]
  exact rep.level_used level

theorem queue_listed_congr (rep : book.Represents layout)
    (maps : ∀ side, other.priceMap side = book.priceMap side)
    (member : slot ∈ layout.queue level) :
    ∃ side price, other.Listed side price level := by
  simp only [listed_congr maps]
  exact rep.queue_listed member

end Maps

/-- Edits of the order pool that leave the queued orders alone only move slots
between the free list and the running operation. -/
theorem reslot (rep : book.Represents layout) {other : OrderBook sizes}
    {freeOrders : List (OrderSlot sizes)} {loose : Option (OrderSlot sizes)}
    (maps : ∀ side, other.priceMap side = book.priceMap side)
    (index : other.orderIndex = book.orderIndex)
    (levels : other.levelPool = book.levelPool)
    (orders : ∀ {level slot}, slot ∈ layout.queue level →
      other.orderPool.object? slot = book.orderPool.object? slot)
    (orders_free : other.orderPool.FreeList freeOrders)
    (slot_used : ∀ slot, slot ∉ freeOrders ↔
      loose = some slot ∨ ∃ level, slot ∈ layout.queue level)
    (loose_unqueued : ∀ {slot level}, loose = some slot →
      slot ∉ layout.queue level) :
    other.Represents { layout with freeOrders, loose } where
  orders_free := orders_free
  levels_free := levels ▸ rep.levels_free
  record listed := by
    rw [listed_congr maps] at listed
    rw [levels, rep.record listed]
    congr 1
    apply Eq.symm
    apply levelRecord_congr
    intro slot member
    exact payload_congr (orders member)
  chain level := by
    apply (rep.chain level).congr
    intro slot member
    exact links_congr (orders member)
  placed listed member := by
    rw [listed_congr maps] at listed
    rw [payload_congr (orders member)]
    exact rep.placed listed member
  listed_once := rep.listed_once_congr maps
  level_used := rep.level_used_congr maps
  queue_listed := rep.queue_listed_congr maps
  slot_used := slot_used
  loose_unqueued := loose_unqueued
  queue_unique := rep.queue_unique
  index orderId entry := by
    rw [index, rep.index]
    apply and_congr_right
    intro member
    rw [payload_congr (orders member)]

theorem repool (rep : book.Represents layout)
    {orderPool : ObjectPool (RestingOrder sizes) sizes.orders}
    {freeOrders : List (OrderSlot sizes)} {loose : Option (OrderSlot sizes)}
    (unqueued : ∀ {level other}, other ∈ layout.queue level → other ≠ slot)
    (objects : ∀ other, other ≠ slot →
      orderPool.object? other = book.orderPool.object? other)
    (orders_free : orderPool.FreeList freeOrders)
    (slot_used : ∀ slot, slot ∉ freeOrders ↔
      loose = some slot ∨ ∃ level, slot ∈ layout.queue level)
    (loose_unqueued : ∀ {slot level}, loose = some slot →
      slot ∉ layout.queue level) :
    ({ book with orderPool } : OrderBook sizes).Represents
      { layout with freeOrders, loose } := by
  apply rep.reslot
  · intro side
    cases side <;> rfl
  · rfl
  · rfl
  · intro level other member
    exact objects other (unqueued member)
  · exact orders_free
  · exact slot_used
  · exact loose_unqueued

theorem acquireOrder (rep : book.Represents layout)
    (held : layout.loose = none) {rest : List (OrderSlot sizes)}
    (free : layout.freeOrders = slot :: rest) :
    ∃ orderPool, book.orderPool.acquire = .ok (some slot, orderPool) ∧
      orderPool.object? slot = some default ∧
      (∀ other, other ≠ slot →
        orderPool.object? other = book.orderPool.object? other) ∧
      ({ book with orderPool } : OrderBook sizes).Represents
        { layout with freeOrders := rest, loose := some slot } := by
  have ordersFree := rep.orders_free
  rw [free] at ordersFree
  obtain ⟨orderPool, acquired, restFree, objects, _⟩ := ordersFree.acquire_cons
  have unqueued : ∀ {level other}, other ∈ layout.queue level →
      other ≠ slot := by
    rintro level other member rfl
    exact rep.queue_used member (by simp [free])
  have fresh : slot ∉ rest := (List.nodup_cons.mp ordersFree.nodup).1
  have elsewhere : ∀ other, other ≠ slot →
      orderPool.object? other = book.orderPool.object? other := by
    intro other differs
    rw [objects, Function.update_of_ne differs]
  refine ⟨orderPool, acquired, by simp [objects], elsewhere, ?_⟩
  apply rep.repool unqueued elsewhere restFree
  · intro other
    have used := rep.slot_used other
    simp only [free, held, List.mem_cons, reduceCtorEq, false_or] at used
    by_cases same : other = slot
    · subst same
      simp [fresh]
    · simp only [same, false_or] at used
      rw [used]
      simp [Ne.symm same]
  · intro other level same member
    exact unqueued member (Option.some.inj same).symm

theorem ne_loose (rep : book.Represents layout)
    (held : layout.loose = some slot) {level : LevelSlot sizes}
    {other : OrderSlot sizes} (member : other ∈ layout.queue level) :
    other ≠ slot := by
  rintro rfl
  exact rep.loose_unqueued held member

theorem setLoose (rep : book.Represents layout)
    (held : layout.loose = some slot) (node : RestingOrder sizes) :
    (book.setOrder slot node).Represents layout := by
  have used : slot ∉ layout.freeOrders := (rep.slot_used slot).mpr (.inl held)
  apply rep.repool (rep.ne_loose held)
  · intro other differs
    exact ObjectPool.object?_set_of_ne differs
  · exact rep.orders_free.set used node
  · exact rep.slot_used
  · exact rep.loose_unqueued

theorem releaseOrder (rep : book.Represents layout)
    (held : layout.loose = some slot) :
    ∃ orderPool, book.orderPool.release slot = .ok orderPool ∧
      (∀ other, other ≠ slot →
        orderPool.object? other = book.orderPool.object? other) ∧
      ({ book with orderPool } : OrderBook sizes).Represents
        { layout with
          freeOrders := slot :: layout.freeOrders
          loose := none } := by
  have used : slot ∉ layout.freeOrders := (rep.slot_used slot).mpr (.inl held)
  obtain ⟨node, stored⟩ := rep.orders_free.live slot used
  obtain ⟨orderPool, released, freed, objects, _⟩ :=
    rep.orders_free.release stored
  have elsewhere : ∀ other, other ≠ slot →
      orderPool.object? other = book.orderPool.object? other := by
    intro other differs
    rw [objects, Function.update_of_ne differs]
  refine ⟨orderPool, released, elsewhere, ?_⟩
  apply rep.repool (rep.ne_loose held) elsewhere freed
  · intro other
    have otherUsed := rep.slot_used other
    by_cases same : other = slot
    · subst same
      simp [rep.loose_unqueued held]
    · simp only [List.mem_cons, same, false_or, otherUsed, held]
      simp [Ne.symm same]
  · intro other level same
    cases same

end Represents

/-- Only links and level records differ. -/
structure Relinked (book next : OrderBook sizes) : Prop where
  maps : ∀ side, next.priceMap side = book.priceMap side
  index : next.orderIndex = book.orderIndex
  payload : next.payload = book.payload
  orders_free : ∀ {free}, book.orderPool.FreeList free →
    next.orderPool.FreeList free
  levels_free : ∀ {free}, book.levelPool.FreeList free →
    next.levelPool.FreeList free

section Links

variable {book : OrderBook sizes} {level : LevelSlot sizes}
variable {slot : OrderSlot sizes} {record : Level sizes}
variable {node : RestingOrder sizes}

theorem Relinked.refl (book : OrderBook sizes) : Relinked book book where
  maps _ := rfl
  index := rfl
  payload := rfl
  orders_free free := free
  levels_free free := free

theorem Relinked.setOrder {next : OrderBook sizes}
    (relinked : Relinked book next)
    (stored : next.orderPool.object? slot = some node)
    {changed : RestingOrder sizes} (same : changed.toOrder = node.toOrder) :
    Relinked book (next.setOrder slot changed) where
  maps side := by rw [setOrder_priceMap, relinked.maps]
  index := relinked.index
  payload := by
    rw [setOrder_payload, same, ← payload_eq stored, Function.update_eq_self,
      relinked.payload]
  orders_free free := by
    have nextFree := relinked.orders_free free
    exact nextFree.set (nextFree.not_mem_of_object stored) changed
  levels_free free := relinked.levels_free free

theorem Relinked.setLevel {next : OrderBook sizes}
    (relinked : Relinked book next)
    (stored : next.levelPool.object? level = some record)
    (changed : Level sizes) : Relinked book (next.setLevel level changed) where
  maps side := by rw [setLevel_priceMap, relinked.maps]
  index := relinked.index
  payload := relinked.payload
  orders_free free := relinked.orders_free free
  levels_free free := by
    have nextFree := relinked.levels_free free
    exact nextFree.set (nextFree.not_mem_of_object stored) changed

theorem appendToLevel_spec
    (levelStored : book.levelPool.object? level = some record)
    (stored : book.orderPool.object? slot = some node)
    (tailStored : ∀ tail, record.tail = some tail → tail ≠ slot ∧
      ∃ last, book.orderPool.object? tail = some last) :
    ∃ next, book.appendToLevel level slot = .ok next ∧
      Relinked book next ∧
      next.links = book.links.append record.tail slot ∧
      next.levelPool.object? =
        Function.update book.levelPool.object? level
          (some { record with
            head := if record.tail = none then some slot else record.head
            tail := some slot
            totalQty := record.totalQty + node.qty.toUInt64
            orderCount := record.orderCount + 1 }) := by
  cases tailEq : record.tail with
  | none =>
      let queued : RestingOrder sizes :=
        { node with prev := none, next := none }
      let headed : Level sizes := { record with head := some slot }
      let appended : Level sizes :=
        { headed with
          tail := some slot
          totalQty := record.totalQty + node.qty.toUInt64
          orderCount := record.orderCount + 1 }
      have queuedRelinked : Relinked book (book.setOrder slot queued) :=
        (Relinked.refl book).setOrder stored rfl
      have levelKept : (book.setOrder slot queued).levelPool.object? level =
          some record := levelStored
      have headedRelinked := queuedRelinked.setLevel levelKept headed
      have headedStored : ((book.setOrder slot queued).setLevel level
          headed).levelPool.object? level = some headed :=
        ObjectPool.object?_set_self
      have queuedStored : ((book.setOrder slot queued).setLevel level
          headed).orderPool.object? slot = some queued :=
        ObjectPool.object?_set_self
      refine ⟨_, ?_, headedRelinked.setLevel headedStored appended, ?_, ?_⟩
      · rw [appendToLevel, ObjectPool.read_eq levelStored, ok_bind,
          modifyOrder_eq stored, ok_bind, tailEq]
        change (modifyLevel (book.setOrder slot queued) level _ >>= _) = _
        rw [modifyLevel_eq levelKept, ok_bind]
        change (((book.setOrder slot queued).setLevel level
          headed).orderPool.read slot >>= _) = _
        rw [ObjectPool.read_eq queuedStored, ok_bind,
          modifyLevel_eq headedStored]
      · simp only [setLevel_links, setOrder_links, Links.append, queued]
      · simp [ObjectPool.object?_set, appended, headed]
  | some tail =>
      obtain ⟨differs, last, lastStored⟩ := tailStored tail tailEq
      let queued : RestingOrder sizes :=
        { node with prev := some tail, next := none }
      let linked : RestingOrder sizes := { last with next := some slot }
      let appended : Level sizes :=
        { record with
          tail := some slot
          totalQty := record.totalQty + node.qty.toUInt64
          orderCount := record.orderCount + 1 }
      have queuedRelinked : Relinked book (book.setOrder slot queued) :=
        (Relinked.refl book).setOrder stored rfl
      have lastKept : (book.setOrder slot queued).orderPool.object? tail =
          some last := by
        rw [setOrder_orderPool, ObjectPool.object?_set_of_ne differs,
          lastStored]
      have linkedRelinked := queuedRelinked.setOrder lastKept
        (show linked.toOrder = last.toOrder from rfl)
      have queuedKept : ((book.setOrder slot queued).setOrder tail
          linked).orderPool.object? slot = some queued := by
        rw [setOrder_orderPool, ObjectPool.object?_set_of_ne differs.symm]
        exact ObjectPool.object?_set_self
      have levelKept : ((book.setOrder slot queued).setOrder tail
          linked).levelPool.object? level = some record := levelStored
      refine ⟨_, ?_, linkedRelinked.setLevel levelKept appended, ?_, ?_⟩
      · rw [appendToLevel, ObjectPool.read_eq levelStored, ok_bind,
          modifyOrder_eq stored, ok_bind, tailEq]
        change (modifyOrder (book.setOrder slot queued) tail _ >>= _) = _
        rw [modifyOrder_eq lastKept, ok_bind]
        change (((book.setOrder slot queued).setOrder tail
          linked).orderPool.read slot >>= _) = _
        rw [ObjectPool.read_eq queuedKept, ok_bind, modifyLevel_eq levelKept]
      · simp only [setLevel_links, setOrder_links, Links.append, queued,
          linked, ← (links_eq lastStored).1]
        congr 1
        rw [Function.update_comm differs.symm, Function.update_eq_self]
      · simp [ObjectPool.object?_set, appended]

theorem linkNextPast_spec
    (levelStored : book.levelPool.object? level = some record)
    (prevStored : ∀ prev, node.prev = some prev →
      ∃ other, book.orderPool.object? prev = some other) :
    ∃ next, book.linkNextPast level node = .ok next ∧
      Relinked book next ∧
      next.links =
        { prev := book.links.prev
          next :=
            match node.prev with
            | none => book.links.next
            | some prev =>
                Function.update book.links.next prev node.next } ∧
      (∀ other, node.prev ≠ some other →
        next.orderPool.object? other = book.orderPool.object? other) ∧
      next.levelPool.object? =
        Function.update book.levelPool.object? level
          (some { record with
            head := if node.prev = none then node.next else record.head }) := by
  rw [linkNextPast]
  cases prevEq : node.prev with
  | none =>
      refine ⟨_, modifyLevel_eq levelStored _,
        (Relinked.refl book).setLevel levelStored _, rfl, fun _ _ => rfl, ?_⟩
      simp [ObjectPool.object?_set]
  | some prev =>
      obtain ⟨other, otherStored⟩ := prevStored prev prevEq
      refine ⟨_, modifyOrder_eq otherStored _,
        (Relinked.refl book).setOrder otherStored rfl, ?_, ?_, ?_⟩
      · rw [setOrder_links]
        simp only [← (links_eq otherStored).1, Function.update_eq_self]
      · intro current differs
        apply ObjectPool.object?_set_of_ne
        intro same
        exact differs (congrArg some same.symm)
      · simp [← levelStored, Function.update_eq_self]

theorem linkPrevPast_spec
    (levelStored : book.levelPool.object? level = some record)
    (nextStored : ∀ next, node.next = some next →
      ∃ other, book.orderPool.object? next = some other) :
    ∃ next, book.linkPrevPast level node = .ok next ∧
      Relinked book next ∧
      next.links =
        { prev :=
            match node.next with
            | none => book.links.prev
            | some after =>
                Function.update book.links.prev after node.prev
          next := book.links.next } ∧
      (∀ other, node.next ≠ some other →
        next.orderPool.object? other = book.orderPool.object? other) ∧
      next.levelPool.object? =
        Function.update book.levelPool.object? level
          (some { record with
            tail := if node.next = none then node.prev else record.tail }) := by
  rw [linkPrevPast]
  cases nextEq : node.next with
  | none =>
      refine ⟨_, modifyLevel_eq levelStored _,
        (Relinked.refl book).setLevel levelStored _, rfl, fun _ _ => rfl, ?_⟩
      simp [ObjectPool.object?_set]
  | some after =>
      obtain ⟨other, otherStored⟩ := nextStored after nextEq
      refine ⟨_, modifyOrder_eq otherStored _,
        (Relinked.refl book).setOrder otherStored rfl, ?_, ?_, ?_⟩
      · rw [setOrder_links]
        simp only [← (links_eq otherStored).2, Function.update_eq_self]
      · intro current differs
        apply ObjectPool.object?_set_of_ne
        intro same
        exact differs (congrArg some same.symm)
      · simp [← levelStored, Function.update_eq_self]

theorem Relinked.trans {middle next : OrderBook sizes}
    (first : Relinked book middle) (second : Relinked middle next) :
    Relinked book next where
  maps side := by rw [second.maps, first.maps]
  index := by rw [second.index, first.index]
  payload := by rw [second.payload, first.payload]
  orders_free free := second.orders_free (first.orders_free free)
  levels_free free := second.levels_free (first.levels_free free)

theorem unlinkFromLevel_spec
    (levelStored : book.levelPool.object? level = some record)
    (stored : book.orderPool.object? slot = some node)
    (prevStored : ∀ prev, node.prev = some prev → prev ≠ slot ∧
      node.next ≠ some prev ∧
      ∃ other, book.orderPool.object? prev = some other)
    (nextStored : ∀ next, node.next = some next → next ≠ slot ∧
      ∃ other, book.orderPool.object? next = some other) :
    ∃ next, book.unlinkFromLevel level slot = .ok next ∧
      Relinked book next ∧
      next.links = book.links.unlink slot ∧
      next.levelPool.object? =
        Function.update book.levelPool.object? level
          (some { record with
            head := if node.prev = none then node.next else record.head
            tail := if node.next = none then node.prev else record.tail
            totalQty := record.totalQty - node.qty.toUInt64
            orderCount := record.orderCount - 1 }) := by
  obtain ⟨first, firstEq, firstRelinked, firstLinks, firstOrders,
    firstLevels⟩ :=
    linkNextPast_spec levelStored
      fun prev prevEq => (prevStored prev prevEq).2.2
  have firstStored : first.orderPool.object? slot = some node := by
    rw [firstOrders slot, stored]
    intro same
    exact (prevStored slot same).1 rfl
  have firstRecord := congrFun firstLevels level
  rw [Function.update_self] at firstRecord
  have firstNext : ∀ next, node.next = some next →
      ∃ other, first.orderPool.object? next = some other := by
    intro next nextEq
    rw [firstOrders next]
    · exact (nextStored next nextEq).2
    · intro prevEq
      exact (prevStored next prevEq).2.1 nextEq
  obtain ⟨second, secondEq, secondRelinked, secondLinks, secondOrders,
    secondLevels⟩ := linkPrevPast_spec firstRecord firstNext
  have secondStored : second.orderPool.object? slot = some node := by
    rw [secondOrders slot, firstStored]
    intro same
    exact (nextStored slot same).1 rfl
  have secondRecord := congrFun secondLevels level
  rw [Function.update_self] at secondRecord
  refine ⟨_, ?_,
    (firstRelinked.trans secondRelinked).setLevel secondRecord
      { record with
        head := if node.prev = none then node.next else record.head
        tail := if node.next = none then node.prev else record.tail
        totalQty := record.totalQty - node.qty.toUInt64
        orderCount := record.orderCount - 1 }, ?_, ?_⟩
  · rw [unlinkFromLevel, ObjectPool.read_eq stored, ok_bind, firstEq, ok_bind,
      ObjectPool.read_eq firstStored, ok_bind, secondEq, ok_bind,
      ObjectPool.read_eq secondStored, ok_bind, modifyLevel_eq secondRecord]
  · obtain ⟨slotPrev, slotNext⟩ := links_eq stored
    simp only [setLevel_links, secondLinks, firstLinks, Links.unlink, slotPrev,
      slotNext]
    cases node.prev <;> cases node.next <;> rfl
  · rw [setLevel_levelPool, ObjectPool.object?_set, secondLevels, firstLevels,
      Function.update_idem, Function.update_idem]

end Links

namespace Represents

variable {book : OrderBook sizes} {layout : Layout sizes}
variable {level : LevelSlot sizes} {slot : OrderSlot sizes}
variable {side : Side} {price : Int64}

/-- The queue of one listed level is replaced, together with its record; the
links of the other queues are left alone. -/
theorem requeue (rep : book.Represents layout)
    (listed : book.Listed side price level) {next : OrderBook sizes}
    (relinked : Relinked book next) {queue : List (OrderSlot sizes)}
    (chain : next.links.Chain queue)
    (others : ∀ {other slot}, other ≠ level → slot ∈ layout.queue other →
      next.links.prev slot = book.links.prev slot ∧
        next.links.next slot = book.links.next slot)
    (records : next.levelPool.object? =
      Function.update book.levelPool.object? level
        (some (book.levelRecord price queue)))
    (placed : ∀ slot ∈ queue,
      (book.payload slot).price = price ∧ (book.payload slot).side = side)
    (disjoint : ∀ {other slot}, other ≠ level → slot ∈ queue →
      slot ∉ layout.queue other)
    {loose : Option (OrderSlot sizes)}
    (slot_used : ∀ slot, slot ∉ layout.freeOrders ↔ loose = some slot ∨
      ∃ other, slot ∈ Function.update layout.queue level queue other)
    (loose_unqueued : ∀ {slot other}, loose = some slot →
      slot ∉ Function.update layout.queue level queue other)
    {orderIndex : UInt64 → Option (Entry sizes)}
    (index : ∀ orderId entry, orderIndex orderId = some entry ↔
      entry.order ∈ Function.update layout.queue level queue entry.level ∧
        (book.payload entry.order).orderId = orderId) :
    ({ next with orderIndex } : OrderBook sizes).Represents
      { layout with
        queue := Function.update layout.queue level queue
        loose } := by
  have maps : ∀ current, ({ next with orderIndex } : OrderBook sizes).priceMap
      current = book.priceMap current := by
    intro current
    rw [← relinked.maps]
    cases current <;> rfl
  have payload : ({ next with orderIndex } : OrderBook sizes).payload =
      book.payload := relinked.payload
  constructor
  case orders_free => exact relinked.orders_free rep.orders_free
  case levels_free => exact relinked.levels_free rep.levels_free
  case slot_used => exact slot_used
  case loose_unqueued => exact loose_unqueued
  case record =>
    intro otherSide otherPrice other otherListed
    rw [listed_congr maps] at otherListed
    have recordEq : ({ next with orderIndex } : OrderBook sizes).levelRecord
        otherPrice = book.levelRecord otherPrice := by
      funext slots
      apply levelRecord_congr
      intro slot _
      rw [payload]
    rw [recordEq]
    change next.levelPool.object? other = _
    rw [records]
    by_cases same : other = level
    · subst same
      obtain ⟨rfl, rfl⟩ := rep.listed_once listed otherListed
      simp
    · simp only [Function.update_of_ne same]
      exact rep.record otherListed
  case chain =>
    intro other
    change next.links.Chain _
    by_cases same : other = level
    · subst same
      simpa using chain
    · simp only [Function.update_of_ne same]
      apply (rep.chain other).congr
      intro slot member
      exact others same member
  case placed =>
    intro otherSide otherPrice other current otherListed member
    rw [listed_congr maps] at otherListed
    rw [payload]
    by_cases same : other = level
    · subst same
      obtain ⟨rfl, rfl⟩ := rep.listed_once listed otherListed
      exact placed current (by simpa using member)
    · simp only [Function.update_of_ne same] at member
      exact rep.placed otherListed member
  case listed_once => exact rep.listed_once_congr maps
  case level_used => exact rep.level_used_congr maps
  case queue_listed =>
    intro other current member
    simp only [listed_congr maps]
    by_cases same : other = level
    · exact ⟨side, price, same ▸ listed⟩
    · simp only [Function.update_of_ne same] at member
      exact rep.queue_listed member
  case queue_unique =>
    intro current left right leftMember rightMember
    by_cases leftSame : left = level <;> by_cases rightSame : right = level
    · rw [leftSame, rightSame]
    · subst leftSame
      simp only [Function.update_self, Function.update_of_ne rightSame]
        at leftMember rightMember
      exact absurd rightMember (disjoint rightSame leftMember)
    · subst rightSame
      simp only [Function.update_self, Function.update_of_ne leftSame]
        at leftMember rightMember
      exact absurd leftMember (disjoint leftSame rightMember)
    · simp only [Function.update_of_ne leftSame,
        Function.update_of_ne rightSame] at leftMember rightMember
      exact rep.queue_unique leftMember rightMember
  case index =>
    intro orderId entry
    rw [payload]
    exact index orderId entry

theorem queue_disjoint (rep : book.Represents layout)
    {other : LevelSlot sizes} (differs : other ≠ level)
    (member : slot ∈ layout.queue level) : slot ∉ layout.queue other := by
  intro otherMember
  exact differs (rep.queue_unique otherMember member)

theorem queued_live (rep : book.Represents layout)
    (member : slot ∈ layout.queue level) :
    ∃ node, book.orderPool.object? slot = some node :=
  rep.orders_free.live slot (rep.queue_used member)

theorem enqueue_member (layout : Layout sizes) (level other : LevelSlot sizes)
    (slot current : OrderSlot sizes) :
    current ∈ (layout.enqueue level slot).queue other ↔
      current ∈ layout.queue other ∨ (current = slot ∧ other = level) := by
  by_cases same : other = level
  · subst same
    simp
  · simp [Layout.enqueue_queue_of_ne layout level slot same, same]

theorem levelRecord_enqueue (book : OrderBook sizes) (price : Int64)
    (queue : List (OrderSlot sizes)) (slot : OrderSlot sizes) :
    book.levelRecord price (queue ++ [slot]) =
      { book.levelRecord price queue with
        head := if queue.getLast? = none then some slot else queue.head?
        tail := some slot
        totalQty := (book.levelRecord price queue).totalQty +
          (book.payload slot).qty.toUInt64
        orderCount := (book.levelRecord price queue).orderCount + 1 } := by
  have head : (queue ++ [slot]).head? =
      if queue.getLast? = none then some slot else queue.head? := by
    cases queue <;> simp
  have qtyEq : UInt64.ofNat (book.qtyAt slot) =
      (book.payload slot).qty.toUInt64 := by
    apply UInt64.toNat_inj.mp
    simp [qtyAt]
  simp [levelRecord, head, UInt64.ofNat_add, UInt32.ofNat_add, qtyEq]

theorem enqueue_index (rep : book.Represents layout)
    (absent : book.orderIndex (book.payload slot).orderId = none)
    (level : LevelSlot sizes) (orderId : UInt64) (entry : Entry sizes) :
    Function.update book.orderIndex (book.payload slot).orderId
          (some { order := slot, level }) orderId = some entry ↔
      entry.order ∈ (layout.enqueue level slot).queue entry.level ∧
        (book.payload entry.order).orderId = orderId := by
  rw [enqueue_member layout level entry.level slot entry.order,
    Function.update_apply]
  have old := rep.index orderId entry
  by_cases same : orderId = (book.payload slot).orderId
  · subst same
    rw [absent] at old
    have none_queued : ¬ (entry.order ∈ layout.queue entry.level ∧
        (book.payload entry.order).orderId =
          (book.payload slot).orderId) := by
      simpa using old
    rw [if_pos rfl]
    constructor
    · intro same
      cases Option.some.inj same
      exact ⟨.inr ⟨rfl, rfl⟩, rfl⟩
    · intro held
      obtain ⟨queued | ⟨orderEq, levelEq⟩, idEq⟩ := held
      · exact absurd ⟨queued, idEq⟩ none_queued
      · rw [← orderEq, ← levelEq]
  · rw [if_neg same, old]
    constructor
    · intro held
      exact ⟨.inl held.1, held.2⟩
    · intro held
      obtain ⟨queued | ⟨orderEq, _⟩, idEq⟩ := held
      · exact ⟨queued, idEq⟩
      · exact absurd (orderEq ▸ idEq).symm same

/-- The loose order joins the end of the queue of a listed level and enters
the index. -/
theorem enqueue (rep : book.Represents layout)
    (listed : book.Listed side price level) (held : layout.loose = some slot)
    (placed : (book.payload slot).price = price ∧
      (book.payload slot).side = side)
    (absent : book.orderIndex (book.payload slot).orderId = none) :
    ∃ next, book.appendToLevel level slot = .ok next ∧ Relinked book next ∧
      ({ next with
        orderIndex := Function.update book.orderIndex
          (book.payload slot).orderId (some { order := slot, level }) }
        : OrderBook sizes).Represents (layout.enqueue level slot) := by
  have unqueued : slot ∉ layout.queue level := rep.loose_unqueued held
  obtain ⟨node, stored⟩ := rep.orders_free.live slot
    ((rep.slot_used slot).mpr (.inl held))
  have tailStored : ∀ tail,
      (book.levelRecord price (layout.queue level)).tail = some tail →
      tail ≠ slot ∧ ∃ last, book.orderPool.object? tail = some last := by
    intro tail tailEq
    have member : tail ∈ layout.queue level := List.mem_of_getLast? tailEq
    refine ⟨?_, rep.queued_live member⟩
    rintro rfl
    exact unqueued member
  obtain ⟨next, appended, relinked, links, records⟩ :=
    appendToLevel_spec (rep.record listed) stored tailStored
  refine ⟨next, appended, relinked, ?_⟩
  apply rep.requeue listed relinked
  · rw [links]
    exact (rep.chain level).append unqueued
  · intro other current differs member
    have notSlot : current ≠ slot := by
      rintro rfl
      exact rep.loose_unqueued held member
    rw [links]
    apply Links.append_of_ne notSlot
    intro tailEq
    exact rep.queue_disjoint differs (List.mem_of_getLast? tailEq) member
  · rw [records, levelRecord_enqueue, payload_eq stored]
    rfl
  · intro current member
    rcases List.mem_append.mp member with old | fresh
    · exact rep.placed listed old
    · rw [List.mem_singleton.mp fresh]
      exact placed
  · intro other current differs member
    rcases List.mem_append.mp member with old | fresh
    · exact rep.queue_disjoint differs old
    · rw [List.mem_singleton.mp fresh]
      exact rep.loose_unqueued held
  · intro current
    rw [rep.slot_used, held]
    have members := fun other =>
      enqueue_member layout level other slot current
    simp only [Layout.enqueue] at members
    simp only [members, exists_or, reduceCtorEq, false_or]
    simp [or_comm, eq_comm]
  · intro current other isLoose
    cases isLoose
  · exact rep.enqueue_index absent level

theorem levelRecord_dequeue (book : OrderBook sizes) (price : Int64)
    (front back : List (OrderSlot sizes)) (slot : OrderSlot sizes) :
    book.levelRecord price (front ++ back) =
      { book.levelRecord price (front ++ slot :: back) with
        head := if front.getLast? = none then back.head?
          else (front ++ slot :: back).head?
        tail := if back.head? = none then front.getLast?
          else (front ++ slot :: back).getLast?
        totalQty := (book.levelRecord price (front ++ slot :: back)).totalQty -
          (book.payload slot).qty.toUInt64
        orderCount :=
          (book.levelRecord price (front ++ slot :: back)).orderCount -
            1 } := by
  have head : (front ++ back).head? =
      if front.getLast? = none then back.head?
      else (front ++ slot :: back).head? := by
    rw [Links.head?_unlink slot]
    cases front.getLast? <;> simp
  have tail : (front ++ back).getLast? =
      if back.head? = none then front.getLast?
      else (front ++ slot :: back).getLast? := by
    rw [Links.getLast?_unlink slot]
    cases back.head? <;> simp
  have qtyEq : UInt64.ofNat (book.qtyAt slot) =
      (book.payload slot).qty.toUInt64 := by
    apply UInt64.toNat_inj.mp
    simp [qtyAt]
  have count : UInt32.ofNat (front ++ back).length =
      UInt32.ofNat (front ++ slot :: back).length - 1 := by
    simp only [List.length_append, List.length_cons, UInt32.ofNat_add]
    grind
  have quantity : UInt64.ofNat ((front ++ back).map book.qtyAt).sum =
      UInt64.ofNat ((front ++ slot :: back).map book.qtyAt).sum -
        (book.payload slot).qty.toUInt64 := by
    simp only [List.map_append, List.map_cons, List.sum_append, List.sum_cons,
      UInt64.ofNat_add, qtyEq]
    grind
  rw [levelRecord, levelRecord, head, tail, count, quantity]

theorem erase_split (rep : book.Represents layout)
    {front back : List (OrderSlot sizes)}
    (split : layout.queue level = front ++ slot :: back) :
    (layout.queue level).erase slot = front ++ back := by
  have nodup := (rep.chain level).nodup
  rw [split] at nodup ⊢
  have notFront : slot ∉ front := by
    intro member
    exact List.disjoint_of_nodup_append nodup member List.mem_cons_self
  rw [List.erase_append_right _ notFront, List.erase_cons_head]

theorem dequeue_member (rep : book.Represents layout)
    (member : slot ∈ layout.queue level) (other : LevelSlot sizes)
    (current : OrderSlot sizes) :
    current ∈ (layout.dequeue level slot).queue other ↔
      current ∈ layout.queue other ∧ current ≠ slot := by
  by_cases same : other = level
  · subst same
    rw [Layout.dequeue_queue_self, (rep.chain other).nodup.mem_erase_iff,
      and_comm]
  · rw [Layout.dequeue_queue_of_ne layout level slot same]
    constructor
    · intro queued
      refine ⟨queued, ?_⟩
      rintro rfl
      exact rep.queue_disjoint same member queued
    · intro queued
      exact queued.1

theorem slot_unique (rep : book.Represents layout) {other : LevelSlot sizes}
    {current : OrderSlot sizes} (member : slot ∈ layout.queue level)
    (currentMember : current ∈ layout.queue other)
    (sameId : (book.payload current).orderId = (book.payload slot).orderId) :
    current = slot := by
  have slotEntry := (rep.index (book.payload slot).orderId
    { order := slot, level }).mpr ⟨member, rfl⟩
  have currentEntry := (rep.index (book.payload slot).orderId
    { order := current, level := other }).mpr ⟨currentMember, sameId⟩
  rw [slotEntry] at currentEntry
  cases currentEntry
  rfl

theorem front_stored (rep : book.Represents layout)
    {front back : List (OrderSlot sizes)}
    (split : layout.queue level = front ++ slot :: back)
    {prev : OrderSlot sizes} (prevEq : front.getLast? = some prev) :
    prev ≠ slot ∧ back.head? ≠ some prev ∧
      ∃ other, book.orderPool.object? prev = some other := by
  have prevMember := List.mem_of_getLast? prevEq
  have nodup := (rep.chain level).nodup
  rw [split] at nodup
  have apart := List.disjoint_of_nodup_append nodup prevMember
  refine ⟨?_, ?_, ?_⟩
  · rintro rfl
    exact apart List.mem_cons_self
  · intro nextEq
    exact apart (List.mem_cons_of_mem _ (List.mem_of_head? nextEq))
  · have queued : prev ∈ layout.queue level := by simp [split, prevMember]
    exact rep.queued_live queued

theorem back_stored (rep : book.Represents layout)
    {front back : List (OrderSlot sizes)}
    (split : layout.queue level = front ++ slot :: back)
    {next : OrderSlot sizes} (nextEq : back.head? = some next) :
    next ≠ slot ∧ ∃ other, book.orderPool.object? next = some other := by
  have nextMember := List.mem_of_head? nextEq
  have nodup := (rep.chain level).nodup
  rw [split] at nodup
  constructor
  · rintro rfl
    exact (List.nodup_cons.mp nodup.of_append_right).1 nextMember
  · have queued : next ∈ layout.queue level := by simp [split, nextMember]
    exact rep.queued_live queued

theorem dequeue_index (rep : book.Represents layout)
    (member : slot ∈ layout.queue level) (orderId : UInt64)
    (entry : Entry sizes) :
    Function.update book.orderIndex (book.payload slot).orderId none orderId =
        some entry ↔
      entry.order ∈ (layout.dequeue level slot).queue entry.level ∧
        (book.payload entry.order).orderId = orderId := by
  rw [rep.dequeue_member member, Function.update_apply]
  by_cases same : orderId = (book.payload slot).orderId
  · subst same
    rw [if_pos rfl]
    constructor
    · intro impossible
      cases impossible
    · intro kept
      obtain ⟨⟨queued, differs⟩, sameId⟩ := kept
      exact absurd (rep.slot_unique member queued sameId) differs
  · rw [if_neg same, rep.index]
    constructor
    · intro queued
      refine ⟨⟨queued.1, ?_⟩, queued.2⟩
      intro orderEq
      exact same (orderEq ▸ queued.2).symm
    · intro kept
      exact ⟨kept.1.1, kept.2⟩

theorem dequeue_used (rep : book.Represents layout)
    (held : layout.loose = none) (member : slot ∈ layout.queue level)
    (current : OrderSlot sizes) :
    current ∉ layout.freeOrders ↔ some slot = some current ∨
      ∃ other, current ∈ (layout.dequeue level slot).queue other := by
  simp only [rep.dequeue_member member, rep.slot_used, held, reduceCtorEq,
    false_or, Option.some.injEq]
  by_cases same : current = slot
  · subst same
    simp [show ∃ level, current ∈ layout.queue level from ⟨level, member⟩]
  · simp [same, Ne.symm same]

/-- A queued order leaves its queue and the index, and is loose. -/
theorem dequeue (rep : book.Represents layout)
    (listed : book.Listed side price level) (held : layout.loose = none)
    {front back : List (OrderSlot sizes)}
    (split : layout.queue level = front ++ slot :: back) :
    ∃ next, book.unlinkFromLevel level slot = .ok next ∧ Relinked book next ∧
      ({ next with
        orderIndex := Function.update book.orderIndex
          (book.payload slot).orderId none }
        : OrderBook sizes).Represents (layout.dequeue level slot) := by
  have member : slot ∈ layout.queue level := by simp [split]
  have stored := rep.node split
  obtain ⟨next, unlinked, relinked, links, records⟩ :=
    unlinkFromLevel_spec (rep.record listed) stored
      (fun _ => rep.front_stored split) (fun _ => rep.back_stored split)
  refine ⟨next, unlinked, relinked, ?_⟩
  have slotLinks := links_eq stored
  have erased := rep.erase_split split
  apply rep.requeue listed relinked
  · rw [links, erased]
    exact Links.Chain.unlink (split ▸ rep.chain level)
  · intro other current differs currentMember
    rw [links]
    have unqueued := rep.queue_disjoint differs.symm currentMember
    rw [split] at unqueued
    apply Links.unlink_of_ne
    · rw [slotLinks.1]
      intro prevEq
      exact unqueued (List.mem_append_left _ (List.mem_of_getLast? prevEq))
    · rw [slotLinks.2]
      intro nextEq
      exact unqueued (List.mem_append_right _
        (List.mem_cons_of_mem _ (List.mem_of_head? nextEq)))
  · rw [records, erased, split, levelRecord_dequeue book price front back slot]
    rfl
  · intro current currentMember
    exact rep.placed listed (List.mem_of_mem_erase currentMember)
  · intro other current differs currentMember
    exact rep.queue_disjoint differs (List.mem_of_mem_erase currentMember)
  · exact rep.dequeue_used held member
  · intro current other isLoose queued
    obtain rfl : slot = current := Option.some.inj isLoose
    exact ((rep.dequeue_member member other slot).mp queued).2 rfl
  · exact rep.dequeue_index member

/-- Edits of the level pool and the price maps keep the queues, as long as the
listed levels keep their records and no level with a queue is unlisted. -/
theorem relist (rep : book.Represents layout) {next : OrderBook sizes}
    {freeLevels : List (LevelSlot sizes)}
    (orders : next.orderPool = book.orderPool)
    (index : next.orderIndex = book.orderIndex)
    (levels_free : next.levelPool.FreeList freeLevels)
    (record : ∀ {side price level}, next.Listed side price level →
      next.levelPool.object? level =
        some (book.levelRecord price (layout.queue level)))
    (known : ∀ {side price level}, next.Listed side price level →
      book.Listed side price level ∨ layout.queue level = [])
    (listed_once : ∀ {side price level otherSide otherPrice},
      next.Listed side price level → next.Listed otherSide otherPrice level →
      side = otherSide ∧ price = otherPrice)
    (level_used : ∀ level, level ∉ freeLevels ↔
      ∃ side price, next.Listed side price level)
    (kept : ∀ {side price level}, book.Listed side price level →
      layout.queue level ≠ [] → next.Listed side price level) :
    next.Represents { layout with freeLevels } := by
  have payload : next.payload = book.payload := by
    funext slot
    apply payload_congr
    rw [orders]
  have links : next.links = book.links := by
    rw [OrderBook.links, orders]
    rfl
  refine ⟨orders ▸ rep.orders_free, levels_free, ?_, ?_, ?_, listed_once,
    level_used, ?_, rep.slot_used, rep.loose_unqueued, rep.queue_unique, ?_⟩
  · intro side price level listed
    rw [record listed]
    congr 1
    apply Eq.symm
    apply levelRecord_congr
    intro slot _
    rw [payload]
  · intro level
    rw [links]
    exact rep.chain level
  · intro side price level slot listed member
    rw [payload]
    rcases known listed with old | empty
    · exact rep.placed old member
    · change layout.queue level = [] at empty
      change slot ∈ layout.queue level at member
      simp [empty] at member
  · intro level slot member
    obtain ⟨side, price, listed⟩ := rep.queue_listed member
    exact ⟨side, price, kept listed (List.ne_nil_of_mem member)⟩
  · intro orderId entry
    rw [payload, index]
    exact rep.index orderId entry

theorem getOrCreateLevel_found (rep : book.Represents layout)
    (listed : book.Listed side price level) :
    book.getOrCreateLevel side price = .ok (some level, book) := by
  rw [getOrCreateLevel, rep.find?_eq.mpr listed]

theorem listed_emplace {next : OrderBook sizes}
    (absent : (book.priceMap side).find? price = none)
    (same : next.priceMap side = (book.priceMap side).emplace price level)
    (others : ∀ other, other ≠ side →
      next.priceMap other = book.priceMap other)
    {otherSide : Side} {otherPrice : Int64} {other : LevelSlot sizes} :
    next.Listed otherSide otherPrice other ↔
      book.Listed otherSide otherPrice other ∨
        (otherSide = side ∧ otherPrice = price ∧ other = level) := by
  obtain ⟨front, back, split, inserted⟩ :=
    SortedMap.emplace_split absent level
  by_cases sameSide : otherSide = side
  · subst sameSide
    rw [Listed, Listed, same, inserted, split]
    simp only [List.mem_append, List.mem_cons, Prod.mk.injEq]
    tauto
  · rw [Listed, Listed, others otherSide sameSide]
    simp [sameSide]

/-- The creation of a level, in terms of the pool that its slot is taken
from. -/
theorem getOrCreateLevel_acquires {book : OrderBook sizes}
    (absent : (book.priceMap side).find? price = none)
    {taken : ObjectPool (Level sizes) sizes.levels}
    (acquired : book.levelPool.acquire = .ok (some level, taken))
    (stored : taken.object? level = some default) :
    ∃ next, book.getOrCreateLevel side price = .ok (some level, next) ∧
      next.priceMap side = (book.priceMap side).emplace price level ∧
      (∀ other, other ≠ side → next.priceMap other = book.priceMap other) ∧
      next.orderPool = book.orderPool ∧ next.orderIndex = book.orderIndex ∧
      next.levelPool = taken.set level
        { price, totalQty := 0, orderCount := 0, head := none,
          tail := none } := by
  let record : Level sizes :=
    { price, totalQty := 0, orderCount := 0, head := none, tail := none }
  let withLevel : OrderBook sizes :=
    setLevel { book with levelPool := taken } level record
  have withLevelMaps : ∀ other,
      withLevel.priceMap other = book.priceMap other := by
    intro other
    cases other <;> rfl
  refine ⟨withLevel.setPriceMap side ((book.priceMap side).emplace price level),
    ?_, ?_, ?_, ?_, ?_, ?_⟩
  · rw [getOrCreateLevel, absent]
    change (book.levelPool.acquire >>= _) = _
    rw [acquired, ok_bind]
    change (modifyLevel { book with levelPool := taken } level _ >>= _) = _
    rw [modifyLevel_eq stored, ok_bind]
    change Except.ok (some level, withLevel.setPriceMap side
      ((withLevel.priceMap side).emplace price level)) = _
    rw [withLevelMaps]
  · rw [setPriceMap_same]
  · intro other differs
    rw [setPriceMap_of_ne withLevel side differs, withLevelMaps]
  · rw [setPriceMap_orderPool]
    rfl
  · rw [setPriceMap_orderIndex]
    rfl
  · rw [setPriceMap_levelPool]
    rfl

/-- A fresh level slot is listed under a new price, with an empty queue. -/
theorem getOrCreateLevel_created (rep : book.Represents layout)
    (absent : (book.priceMap side).find? price = none)
    {rest : List (LevelSlot sizes)} (free : layout.freeLevels = level :: rest) :
    ∃ next, book.getOrCreateLevel side price = .ok (some level, next) ∧
      next.priceMap side = (book.priceMap side).emplace price level ∧
      (∀ other, other ≠ side → next.priceMap other = book.priceMap other) ∧
      next.orderPool = book.orderPool ∧ next.orderIndex = book.orderIndex ∧
      layout.queue level = [] ∧
      next.Represents { layout with freeLevels := rest } := by
  have levelsFree := rep.levels_free
  rw [free] at levelsFree
  obtain ⟨fresh, _⟩ := List.nodup_cons.mp levelsFree.nodup
  obtain ⟨taken, acquired, takenFree, objects, _⟩ := levelsFree.acquire_cons
  have unlisted : ∀ otherSide otherPrice,
      ¬ book.Listed otherSide otherPrice level := by
    intro otherSide otherPrice listed
    have used := (rep.level_used level).mpr ⟨_, _, listed⟩
    exact used (by simp [free])
  have empty : layout.queue level = [] := rep.queue_eq_nil unlisted
  have stored : taken.object? level = some default := by
    simp [objects]
  obtain ⟨next, created, mapSame, mapOther, orders, index, levels⟩ :=
    getOrCreateLevel_acquires absent acquired stored
  have levelObjects : next.levelPool.object? =
      Function.update book.levelPool.object? level
        (some { price, totalQty := 0, orderCount := 0, head := none,
                tail := none }) := by
    rw [levels, ObjectPool.object?_set, objects, Function.update_idem]
  have listed_iff : ∀ {otherSide otherPrice other},
      next.Listed otherSide otherPrice other ↔
        book.Listed otherSide otherPrice other ∨
          (otherSide = side ∧ otherPrice = price ∧ other = level) :=
    listed_emplace absent mapSame mapOther
  refine ⟨next, created, mapSame, mapOther, orders, index, empty, ?_⟩
  apply rep.relist orders index
  · rw [levels]
    exact takenFree.set fresh _
  · intro otherSide otherPrice other listed
    rw [levelObjects]
    rcases listed_iff.mp listed with old | ⟨rfl, rfl, rfl⟩
    · have differs : other ≠ level := by
        rintro rfl
        exact unlisted _ _ old
      rw [Function.update_of_ne differs]
      exact rep.record old
    · rw [Function.update_self]
      simp [empty, levelRecord]
  · intro otherSide otherPrice other listed
    rcases listed_iff.mp listed with old | ⟨rfl, rfl, rfl⟩
    · exact .inl old
    · exact .inr empty
  · intro leftSide leftPrice other rightSide rightPrice left right
    rcases listed_iff.mp left with leftOld | ⟨rfl, rfl, rfl⟩
    · rcases listed_iff.mp right with rightOld | ⟨rfl, rfl, rfl⟩
      · exact rep.listed_once leftOld rightOld
      · exact absurd leftOld (unlisted _ _)
    · rcases listed_iff.mp right with rightOld | ⟨rfl, rfl, _⟩
      · exact absurd rightOld (unlisted _ _)
      · exact ⟨rfl, rfl⟩
  · intro other
    have used := rep.level_used other
    simp only [free, List.mem_cons, not_or] at used
    simp only [listed_iff]
    by_cases same : other = level
    · subst same
      simpa [fresh] using ⟨side, price, .inr ⟨rfl, rfl⟩⟩
    · simpa [same] using used
  · intro otherSide otherPrice other listed _
    exact listed_iff.mpr (.inl listed)

/-- The listed levels after an erasure from one price map. -/
theorem listed_erase (rep : book.Represents layout)
    (listed : book.Listed side price level) {next : OrderBook sizes}
    (same : next.priceMap side = (book.priceMap side).erase price)
    (others : ∀ other, other ≠ side →
      next.priceMap other = book.priceMap other)
    {otherSide : Side} {otherPrice : Int64} {other : LevelSlot sizes} :
    next.Listed otherSide otherPrice other ↔
      book.Listed otherSide otherPrice other ∧ other ≠ level := by
  obtain ⟨front, back, split⟩ := List.append_of_mem listed
  have erased := SortedMap.erase_of_split split
  by_cases sameSide : otherSide = side
  · subst sameSide
    rw [Listed, Listed, same, erased, split]
    constructor
    · intro kept
      have old : (otherPrice, other) ∈ front ++ (price, level) :: back := by
        rw [List.mem_append] at kept
        rw [List.mem_append, List.mem_cons]
        tauto
      refine ⟨old, ?_⟩
      rintro rfl
      obtain ⟨_, rfl⟩ := rep.listed_once (split ▸ old) listed
      rcases List.mem_append.mp kept with before | after
      · exact SortedMap.front_ne split before rfl
      · exact SortedMap.back_ne split after rfl
    · intro old
      obtain ⟨old, differs⟩ := old
      rw [List.mem_append, List.mem_cons, Prod.mk.injEq] at old
      rw [List.mem_append]
      tauto
  · rw [Listed, Listed, others otherSide sameSide]
    constructor
    · intro old
      refine ⟨old, ?_⟩
      rintro rfl
      exact sameSide (rep.listed_once old listed).1
    · intro old
      exact old.1

/-- An empty level is unlisted and its slot released. -/
theorem dropLevel (rep : book.Represents layout)
    (listed : book.Listed side price level)
    (empty : layout.queue level = []) :
    ∃ levelPool next, book.levelPool.release level = .ok levelPool ∧
      { book.setPriceMap side ((book.priceMap side).erase price) with
        levelPool } = next ∧
      next.orderPool = book.orderPool ∧
      next.priceMap side = (book.priceMap side).erase price ∧
      (∀ other, other ≠ side → next.priceMap other = book.priceMap other) ∧
      next.Represents
        { layout with freeLevels := level :: layout.freeLevels } := by
  obtain ⟨levelPool, released, freed, objects, _⟩ :=
    rep.levels_free.release (rep.record listed)
  refine ⟨levelPool, _, released, rfl, ?_⟩
  generalize nextEq : ({ book.setPriceMap side
    ((book.priceMap side).erase price) with levelPool } : OrderBook sizes) =
      next
  have mapSame : next.priceMap side = (book.priceMap side).erase price := by
    rw [← nextEq]
    cases side <;> rfl
  have mapOther : ∀ other, other ≠ side →
      next.priceMap other = book.priceMap other := by
    intro other differs
    rw [← nextEq]
    cases side <;> cases other <;> first | rfl | exact absurd rfl differs
  have orders : next.orderPool = book.orderPool := by
    rw [← nextEq]
    cases side <;> rfl
  have index : next.orderIndex = book.orderIndex := by
    rw [← nextEq]
    cases side <;> rfl
  have levels : next.levelPool = levelPool := by rw [← nextEq]
  have listed_iff : ∀ {otherSide otherPrice other},
      next.Listed otherSide otherPrice other ↔
        book.Listed otherSide otherPrice other ∧ other ≠ level :=
    rep.listed_erase listed mapSame mapOther
  refine ⟨orders, mapSame, mapOther, ?_⟩
  apply rep.relist orders index
  · rw [levels]
    exact freed
  · intro otherSide otherPrice other otherListed
    obtain ⟨old, differs⟩ := listed_iff.mp otherListed
    rw [levels, objects, Function.update_of_ne differs]
    exact rep.record old
  · intro otherSide otherPrice other otherListed
    exact .inl (listed_iff.mp otherListed).1
  · intro leftSide leftPrice other rightSide rightPrice left right
    exact rep.listed_once (listed_iff.mp left).1 (listed_iff.mp right).1
  · intro other
    have used := rep.level_used other
    simp only [listed_iff, List.mem_cons, not_or]
    by_cases same : other = level
    · simp [same]
    · simpa [same] using used
  · intro otherSide otherPrice other old populated
    refine listed_iff.mpr ⟨old, ?_⟩
    rintro rfl
    exact populated empty

theorem split_fresh (rep : book.Represents layout)
    {front back : List (OrderSlot sizes)}
    (split : layout.queue level = front ++ slot :: back) :
    slot ∉ front ∧ slot ∉ back := by
  have nodup := (rep.chain level).nodup
  rw [split, List.nodup_middle, List.nodup_cons, List.mem_append,
    not_or] at nodup
  exact nodup.1

theorem sum_qtyAt (rep : book.Represents layout)
    {front back : List (OrderSlot sizes)}
    (split : layout.queue level = front ++ slot :: back)
    {next : OrderBook sizes}
    (others : ∀ current, current ≠ slot →
      next.payload current = book.payload current) :
    (front.map next.qtyAt).sum = (front.map book.qtyAt).sum ∧
      (back.map next.qtyAt).sum = (back.map book.qtyAt).sum := by
  obtain ⟨notFront, notBack⟩ := rep.split_fresh split
  have agree : ∀ current, current ≠ slot →
      next.qtyAt current = book.qtyAt current := by
    intro current differs
    rw [qtyAt, qtyAt, others current differs]
  constructor
  · congr 1
    apply List.map_congr_left
    intro current member
    exact agree current (fun same => notFront (same ▸ member))
  · congr 1
    apply List.map_congr_left
    intro current member
    exact agree current (fun same => notBack (same ▸ member))

theorem levelRecord_take (rep : book.Represents layout)
    {front back : List (OrderSlot sizes)}
    (split : layout.queue level = front ++ slot :: back) {taken : UInt32}
    {next : OrderBook sizes}
    (samePayload : ∀ current, current ≠ slot →
      next.payload current = book.payload current)
    (qtyEq : next.qtyAt slot + taken.toNat = book.qtyAt slot)
    (price : Int64) :
    next.levelRecord price (layout.queue level) =
      { book.levelRecord price (layout.queue level) with
        totalQty := (book.levelRecord price (layout.queue level)).totalQty -
          taken.toUInt64 } := by
  obtain ⟨frontSum, backSum⟩ := rep.sum_qtyAt split samePayload
  have total : ((layout.queue level).map book.qtyAt).sum =
      ((layout.queue level).map next.qtyAt).sum + taken.toNat := by
    rw [split]
    simp only [List.map_append, List.map_cons, List.sum_append,
      List.sum_cons, frontSum, backSum, ← qtyEq]
    omega
  have takenEq : UInt64.ofNat taken.toNat = taken.toUInt64 := by
    apply UInt64.toNat_inj.mp
    simp
  simp only [levelRecord, total, UInt64.ofNat_add, takenEq]
  congr 1
  grind

/-- Part of the quantity of a queued order is taken away, from the order and
from the total of its level. -/
theorem takeQty (rep : book.Represents layout)
    (listed : book.Listed side price level)
    {front back : List (OrderSlot sizes)}
    (split : layout.queue level = front ++ slot :: back) {taken : UInt32}
    (enough : taken.toNat ≤ (book.payload slot).qty.toNat)
    {node : RestingOrder sizes}
    (stored : book.orderPool.object? slot = some node) {record : Level sizes}
    (levelStored : book.levelPool.object? level = some record) :
    OrderBook.Represents
      ((book.setOrder slot { node with qty := node.qty - taken }).setLevel level
        { record with totalQty := record.totalQty - taken.toUInt64 })
      layout := by
  generalize nextEq :
    (book.setOrder slot { node with qty := node.qty - taken }).setLevel level
      { record with totalQty := record.totalQty - taken.toUInt64 } = next
  have member : slot ∈ layout.queue level := by simp [split]
  obtain rfl : book.levelRecord price (layout.queue level) = record := by
    rw [rep.record listed] at levelStored
    exact Option.some.inj levelStored
  have nodeEq := payload_eq stored
  have maps : ∀ side, next.priceMap side = book.priceMap side := by
    intro side
    rw [← nextEq, setLevel_priceMap, setOrder_priceMap]
  have payload : next.payload = Function.update book.payload slot
      { book.payload slot with qty := (book.payload slot).qty - taken } := by
    rw [← nextEq, setLevel_payload, setOrder_payload, nodeEq]
  have links : next.links = book.links := by
    obtain ⟨prevEq, nextLink⟩ := links_eq stored
    rw [← nextEq, setLevel_links, setOrder_links]
    simp only [← prevEq, ← nextLink, Function.update_eq_self]
  have samePayload : ∀ current, current ≠ slot →
      next.payload current = book.payload current := by
    intro current differs
    rw [payload, Function.update_of_ne differs]
  have unchanged : ∀ current,
      (next.payload current).price = (book.payload current).price ∧
        (next.payload current).side = (book.payload current).side ∧
        (next.payload current).orderId = (book.payload current).orderId := by
    intro current
    by_cases same : current = slot
    · subst same
      simp [payload]
    · simp [samePayload current same]
  have qtyEq : next.qtyAt slot + taken.toNat = book.qtyAt slot := by
    rw [qtyAt, qtyAt, payload, Function.update_self]
    change ((book.payload slot).qty - taken).toNat + _ = _
    rw [UInt32.toNat_sub_of_le _ _ (UInt32.le_iff_toNat_le.mpr enough)]
    omega
  constructor
  case slot_used => exact rep.slot_used
  case loose_unqueued => exact rep.loose_unqueued
  case queue_unique => exact rep.queue_unique
  case orders_free =>
    rw [← nextEq]
    exact rep.orders_free.set (rep.queue_used member) _
  case levels_free =>
    rw [← nextEq]
    exact rep.levels_free.set
      ((rep.level_used level).mpr ⟨_, _, listed⟩) _
  case record =>
    intro otherSide otherPrice other otherListed
    rw [listed_congr maps] at otherListed
    by_cases same : other = level
    · subst same
      obtain ⟨rfl, rfl⟩ := rep.listed_once listed otherListed
      rw [rep.levelRecord_take split samePayload qtyEq, ← nextEq]
      exact ObjectPool.object?_set_self
    · have levelKept : next.levelPool.object? other =
          book.levelPool.object? other := by
        rw [← nextEq]
        exact ObjectPool.object?_set_of_ne same
      rw [levelKept, rep.record otherListed]
      congr 1
      apply Eq.symm
      apply levelRecord_congr
      intro current otherMember
      apply samePayload
      rintro rfl
      exact rep.queue_disjoint same member otherMember
  case chain =>
    intro other
    rw [links]
    exact rep.chain other
  case placed =>
    intro otherSide otherPrice other current otherListed otherMember
    rw [listed_congr maps] at otherListed
    rw [(unchanged current).1, (unchanged current).2.1]
    exact rep.placed otherListed otherMember
  case listed_once => exact rep.listed_once_congr maps
  case level_used => exact rep.level_used_congr maps
  case queue_listed => exact rep.queue_listed_congr maps
  case index =>
    intro orderId entry
    rw [(unchanged entry.order).2.2, ← nextEq]
    exact rep.index orderId entry

end Represents

end OrderBook

end Hydra
