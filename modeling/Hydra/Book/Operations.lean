import Hydra.Book.Undo

/-!
# The book operations on settled heaps

Every operation runs without a fault on a settled heap and leaves a settled
heap, whose market is the one that the operation stands for: `addOrder`
inserts, `cancelOrder` cancels, `replaceOrderInPlace` sets a quantity.

`Edited` is what the matching loops need in addition: an operation on one
queued order only touches the queue of its level.
-/

namespace Hydra

variable {sizes : PoolSizes}

namespace OrderBook

/-- The outcome of an operation on a queued order: the queue of its level is
`queue`, other queues and other orders are unchanged, and the level is
unlisted exactly when its queue is empty. -/
structure Edited (book : OrderBook sizes) (layout : Layout sizes)
    (side : Side) (price : Int64) (level : LevelSlot sizes)
    (slot : OrderSlot sizes) (next : OrderBook sizes)
    (nextLayout : Layout sizes) (queue : List (OrderSlot sizes)) : Prop where
  settled : next.Settled nextLayout
  queue_eq : nextLayout.queue level = queue
  others : ∀ other, other ≠ level →
    nextLayout.queue other = layout.queue other
  payload : ∀ other, other ≠ slot → next.payload other = book.payload other
  map : next.priceMap side =
    if queue = [] then (book.priceMap side).erase price
    else book.priceMap side
  otherMap : ∀ other, other ≠ side →
    next.priceMap other = book.priceMap other

section Operations

variable {book : OrderBook sizes} {layout : Layout sizes}
variable {level : LevelSlot sizes} {slot : OrderSlot sizes}
variable {side : Side} {price : Int64}
variable {front back : List (OrderSlot sizes)}

theorem Settled.index_queued (settled : book.Settled layout)
    (member : slot ∈ layout.queue level) :
    book.orderIndex (book.payload slot).orderId =
      some { order := slot, level } :=
  (settled.index _ _).mpr ⟨member, rfl⟩

theorem Represents.orderCount_eq_zero (rep : book.Represents layout)
    (price : Int64) (level : LevelSlot sizes) :
    (book.levelRecord price (layout.queue level)).orderCount = 0 ↔
      layout.queue level = [] := by
  have bound := rep.queue_length_le level
  have small : sizes.orders < UInt32.size := sizes.orders_lt
  rw [← UInt32.toNat_inj]
  change (UInt32.ofNat (layout.queue level).length).toNat = 0 ↔ _
  rw [UInt32.toNat_ofNat_of_lt' (Nat.lt_of_le_of_lt bound small),
    List.length_eq_zero_iff]

/-- Both branches of the source write the map of the order's side. -/
theorem eraseLevel_eq (book : OrderBook sizes) (side : Side) (price : Int64) :
    book.eraseLevel side price =
      book.setPriceMap side ((book.priceMap side).erase price) := by
  cases side <;> rfl

theorem collectLevel_spec (rep : book.Represents layout)
    (held : layout.loose = none) (listed : book.Listed side price level)
    (populated : ∀ {otherSide otherPrice other},
      book.Listed otherSide otherPrice other → other ≠ level →
      layout.queue other ≠ []) :
    ∃ next, book.collectLevel side level = .ok next ∧
      next.Settled (layout.collected level) ∧
      next.orderPool = book.orderPool ∧
      next.priceMap side =
        (if layout.queue level = [] then (book.priceMap side).erase price
        else book.priceMap side) ∧
      ∀ other, other ≠ side → next.priceMap other = book.priceMap other := by
  have stored := rep.record listed
  have count := rep.orderCount_eq_zero price level
  have run : book.collectLevel side level =
      (if (book.levelRecord price (layout.queue level)).orderCount = 0 then do
        let levelPool ← (book.eraseLevel side price).levelPool.release level
        return { book.eraseLevel side price with levelPool }
      else return book) := by
    rw [collectLevel, ObjectPool.read_eq stored]
    rfl
  by_cases empty : layout.queue level = []
  · obtain ⟨levelPool, next, released, nextEq, orders, mapSame, mapOther,
      nextRep⟩ := rep.dropLevel listed empty
    rw [eraseLevel_eq, if_pos (count.mpr empty), setPriceMap_levelPool,
      released, ok_bind, nextEq] at run
    rw [Layout.collected, if_pos empty]
    refine ⟨next, run, ⟨nextRep, held, ?_⟩, orders, ?_, mapOther⟩
    · intro otherSide otherPrice other otherListed
      obtain ⟨old, differs⟩ :=
        (rep.listed_erase listed mapSame mapOther).mp otherListed
      exact populated old differs
    · rw [mapSame, if_pos empty]
  · rw [if_neg (fun zero => empty (count.mp zero))] at run
    rw [Layout.collected, if_neg empty]
    refine ⟨book, run, ⟨rep, held, ?_⟩, rfl, ?_, ?_⟩
    · intro otherSide otherPrice other otherListed
      by_cases same : other = level
      · rw [same]
        exact empty
      · exact populated otherListed same
    · rw [if_neg empty]
    · intro other _
      rfl

/-- A queued order is cancelled: its slot becomes the next one to be handed
out, and so does the slot of its level when it was alone there. -/
theorem cancelOrder_queued (settled : book.Settled layout)
    (listed : book.Listed side price level)
    (split : layout.queue level = front ++ slot :: back) :
    ∃ next,
      book.cancelOrder (book.payload slot).orderId = .ok (true, next) ∧
      book.Edited layout side price level slot next
        (layout.cancelled level slot) (front ++ back) := by
  have member : slot ∈ layout.queue level := by simp [split]
  have stored := settled.node split
  have sideEq := (settled.placed listed member).2
  obtain ⟨unlinked, unlinkEq, relinked, unlinkedRep⟩ :=
    settled.dequeue listed settled.none_loose split
  have queueEq : (layout.dequeue level slot).queue level = front ++ back := by
    rw [Layout.dequeue_queue_self, settled.erase_split split]
  have others : ∀ other, other ≠ level →
      (layout.dequeue level slot).queue other = layout.queue other := by
    intro other differs
    exact Layout.dequeue_queue_of_ne layout level slot differs
  rw [← relinked.index] at unlinkedRep
  generalize indexedEq : ({ unlinked with
    orderIndex := Function.update unlinked.orderIndex
      (book.payload slot).orderId none } : OrderBook sizes) = indexed
    at unlinkedRep
  obtain ⟨orderPool, released, objects, freedRep⟩ :=
    unlinkedRep.releaseOrder rfl
  generalize freedEq : ({ indexed with orderPool } : OrderBook sizes) = freed
    at freedRep
  have maps : ∀ current, freed.priceMap current = book.priceMap current := by
    intro current
    rw [← relinked.maps, ← freedEq, ← indexedEq]
    cases current <;> rfl
  have payload : ∀ other, other ≠ slot →
      freed.payload other = book.payload other := by
    intro other differs
    rw [← congrFun relinked.payload other]
    apply payload_congr
    rw [← freedEq]
    change orderPool.object? other = _
    rw [objects other differs, ← indexedEq]
  have freedListed := (listed_congr maps).mpr listed
  obtain ⟨next, collected, nextSettled, orders, map, otherMap⟩ :=
    collectLevel_spec freedRep rfl freedListed (by
      intro otherSide otherPrice other otherListed differs
      rw [listed_congr maps] at otherListed
      exact (others other differs).symm ▸ settled.populated otherListed)
  refine ⟨next, ?_, nextSettled, ?_, ?_, ?_, ?_, ?_⟩
  · subst freedEq indexedEq
    have releasedEq : unlinked.orderPool.release slot = .ok orderPool :=
      released
    rw [cancelOrder, settled.index_queued member]
    change (book.orderPool.read slot >>= _) = _
    rw [ObjectPool.read_eq stored, ok_bind, unlinkEq, ok_bind]
    change (unlinked.orderPool.release slot >>= _) = _
    rw [releasedEq, ok_bind]
    change (collectLevel _ (book.payload slot).side level >>= _) = _
    rw [sideEq, collected]
    rfl
  · rw [Layout.cancelled_queue, queueEq]
  · intro other differs
    rw [Layout.cancelled_queue, others other differs]
  · intro other differs
    rw [payload_congr (congrArg (ObjectPool.object? · other) orders),
      payload other differs]
  · rw [map, maps]
    change (if (layout.dequeue level slot).queue level = [] then _ else _) = _
    rw [queueEq]
  · intro other differs
    rw [otherMap other differs, maps]

/-- The other entries of a price map hold other levels. -/
theorem Represents.split_apart (rep : book.Represents layout)
    {before after : List (Int64 × LevelSlot sizes)}
    (split : (book.priceMap side).entries = before ++ (price, level) :: after) :
    ∀ entry ∈ before ++ after, entry.2 ≠ level := by
  intro entry entryMember sameLevel
  have listed := listed_of_split split
  have entryListed : book.Listed side entry.1 level := by
    rw [Listed, split, ← sameLevel]
    rw [List.mem_append] at entryMember ⊢
    rw [List.mem_cons]
    tauto
  have samePrice := (rep.listed_once entryListed listed).2
  rcases List.mem_append.mp entryMember with inBefore | inAfter
  · exact SortedMap.front_ne split inBefore samePrice
  · exact SortedMap.back_ne split inAfter samePrice

namespace Edited

variable {next : OrderBook sizes} {nextLayout : Layout sizes}
variable {queue kept : List (OrderSlot sizes)}

theorem other_orders (settled : book.Settled layout)
    (member : slot ∈ layout.queue level)
    (edited : book.Edited layout side price level slot next nextLayout queue)
    {other : LevelSlot sizes} (differs : other ≠ level) :
    (nextLayout.queue other).map next.payload =
      (layout.queue other).map book.payload := by
  rw [edited.others other differs]
  apply List.map_congr_left
  intro current queued
  apply edited.payload
  rintro rfl
  exact settled.queue_disjoint differs member queued

theorem queue_orders (settled : book.Settled layout)
    (split : layout.queue level = front ++ slot :: back)
    (edited : book.Edited layout side price level slot next nextLayout queue)
    (queueEq : queue = front ++ kept ++ back) {change : Order → Option Order}
    (keptEq : kept.map next.payload = (change (book.payload slot)).toList) :
    ((layout.queue level).map book.payload).filterMap
      (fun order =>
        if order.orderId = (book.payload slot).orderId then change order
        else some order) =
      queue.map next.payload := by
  have member : slot ∈ layout.queue level := by simp [split]
  obtain ⟨notFront, notBack⟩ := settled.split_fresh split
  have fixed : ∀ slots : List (OrderSlot sizes),
      (∀ current ∈ slots, current ∈ layout.queue level) → slot ∉ slots →
      (slots.map book.payload).filterMap
        (fun order =>
          if order.orderId = (book.payload slot).orderId then change order
          else some order) = slots.map next.payload := by
    intro slots queued apart
    rw [Market.filterMap_fixed]
    · apply List.map_congr_left
      intro current currentMember
      apply Eq.symm
      apply edited.payload
      rintro rfl
      exact apart currentMember
    · intro order orderMember
      obtain ⟨current, currentMember, rfl⟩ := List.mem_map.mp orderMember
      rw [if_neg]
      intro sameId
      have same := settled.slot_unique member (queued current currentMember)
        sameId
      exact apart (same ▸ currentMember)
  rw [queueEq, split, List.map_append, List.map_cons, List.filterMap_append,
    List.filterMap_cons, fixed front _ notFront, fixed back _ notBack,
    List.map_append, List.map_append, keptEq]
  · rw [if_pos rfl]
    cases change (book.payload slot) <;> simp
  · intro current currentMember
    rw [split]
    exact List.mem_append_right _ (List.mem_cons_of_mem _ currentMember)
  · intro current currentMember
    rw [split]
    exact List.mem_append_left _ currentMember

/-- On the market, an edit of a queued order is an alteration of that order. -/
theorem view_alter (settled : book.Settled layout)
    (listed : book.Listed side price level)
    (split : layout.queue level = front ++ slot :: back)
    (edited : book.Edited layout side price level slot next nextLayout queue)
    (queueEq : queue = front ++ kept ++ back) {change : Order → Option Order}
    (keptEq : kept.map next.payload = (change (book.payload slot)).toList) :
    next.view = book.view.alter (book.payload slot).orderId change := by
  have member : slot ∈ layout.queue level := by simp [split]
  have valid := settled.view_valid
  have rests : book.view.Rests (book.payload slot) :=
    settled.rests_view.mpr ⟨level, slot, member, rfl⟩
  have others : ∀ {other}, other ≠ level →
      (nextLayout.queue other).map next.payload =
        (layout.queue other).map book.payload :=
    other_orders settled member edited
  apply Market.ext
  intro current
  by_cases same : current = side
  · subst same
    obtain ⟨before, after, mapSplit⟩ := List.append_of_mem listed
    have apart := settled.split_apart mapSplit
    let shown (entry : Int64 × LevelSlot sizes) : Int64 × List Order :=
      (entry.1, (layout.queue entry.2).map book.payload)
    have kept_entries : ∀ entries : List (Int64 × LevelSlot sizes),
        (∀ entry ∈ entries, entry.2 ≠ level) →
        entries.map (fun entry =>
          (entry.1, (nextLayout.queue entry.2).map next.payload)) =
          entries.map shown := by
      intro entries differ
      apply List.map_congr_left
      intro entry entryMember
      rw [others (differ entry entryMember)]
    have beforeEntries := kept_entries before fun entry entryMember =>
      apart entry (List.mem_append_left _ entryMember)
    have afterEntries := kept_entries after fun entry entryMember =>
      apart entry (List.mem_append_right _ entryMember)
    have viewSplit : (book.view.ladder current).entries =
        before.map shown ++
          (price, (layout.queue level).map book.payload) ::
            after.map shown := by
      rw [settled.view_entries, mapSplit, List.map_append, List.map_cons]
    apply SortedMap.ext
    rw [Market.alter, Market.ladder_revise_split valid viewSplit,
      Market.reviseQueue,
      queue_orders settled split edited queueEq keptEq,
      edited.settled.view_entries, edited.map]
    · by_cases empty : queue = []
      · rw [if_pos empty, SortedMap.erase_of_split mapSplit, empty,
          List.map_append, beforeEntries, afterEntries]
        simp
      · rw [if_neg empty, mapSplit, List.map_append, List.map_cons,
          beforeEntries, afterEntries, edited.queue_eq]
        cases queue with
        | nil => exact absurd rfl empty
        | cons head rest => simp
    · intro entry entryMember order orderMember
      rw [← List.map_append] at entryMember
      obtain ⟨source, sourceMember, rfl⟩ := List.mem_map.mp entryMember
      obtain ⟨other, otherQueued, rfl⟩ := List.mem_map.mp orderMember
      rw [if_neg]
      intro sameId
      obtain rfl := settled.slot_unique member otherQueued sameId
      exact settled.queue_disjoint (apart source sourceMember) member
        otherQueued
  · have otherSide : current ≠ (book.payload slot).side := by
      rw [(settled.placed listed member).2]
      exact same
    rw [Market.ladder_alter_of_ne valid rests otherSide]
    apply settled.ladder_congr edited.settled.toRepresents
      (edited.otherMap current same)
    intro entry entryMember
    have differs : entry.2 ≠ level := by
      intro sameLevel
      have entryListed : book.Listed current entry.1 level := by
        rw [← sameLevel]
        exact entryMember
      exact same (settled.listed_once entryListed listed).1
    exact others differs

end Edited

/-- A queued order of a settled heap, with its place. -/
theorem Settled.locate (settled : book.Settled layout) {orderId : UInt64}
    {entry : Entry sizes} (indexed : book.orderIndex orderId = some entry) :
    ∃ side price front back, book.Listed side price entry.level ∧
      layout.queue entry.level = front ++ entry.order :: back ∧
      (book.payload entry.order).orderId = orderId := by
  obtain ⟨member, sameId⟩ := (settled.index orderId entry).mp indexed
  obtain ⟨side, price, listed⟩ := settled.queue_listed member
  obtain ⟨front, back, split⟩ := List.append_of_mem member
  exact ⟨side, price, front, back, listed, split, sameId⟩

theorem cancelOrder_spec (settled : book.Settled layout) (orderId : UInt64) :
    ∃ next, book.cancelOrder orderId =
        .ok ((book.view.find? orderId).isSome, next) ∧
      next.WellFormed ∧ next.view = book.view.cancel orderId := by
  have found := settled.find?_view orderId
  cases indexed : book.orderIndex orderId with
  | none =>
      have absent := settled.index_eq_none.mp indexed
      refine ⟨book, ?_, ⟨layout, settled⟩, ?_⟩
      · rw [cancelOrder, indexed, absent]
        rfl
      · exact (Market.alter_absent settled.view_valid absent _).symm
  | some entry =>
      obtain ⟨side, price, front, back, listed, split, rfl⟩ :=
        settled.locate indexed
      obtain ⟨next, cancelled, edited⟩ :=
        cancelOrder_queued settled listed split
      refine ⟨next, ?_, ⟨_, edited.settled⟩, ?_⟩
      · rw [cancelled, found, findOrder, indexed]
        rfl
      · have kept : front ++ back = front ++ [] ++ back := by simp
        exact edited.view_alter settled listed split kept rfl

theorem Represents.queued_node (rep : book.Represents layout)
    (member : slot ∈ layout.queue level) :
    ∃ node, book.orderPool.object? slot = some node ∧
      book.payload slot = node.toOrder := by
  obtain ⟨node, stored⟩ := rep.queued_live member
  exact ⟨node, stored, payload_eq stored⟩

theorem modifyBoth_eq {node : RestingOrder sizes} {record : Level sizes}
    (stored : book.orderPool.object? slot = some node)
    (levelStored : book.levelPool.object? level = some record)
    (changeOrder : RestingOrder sizes → RestingOrder sizes)
    (changeLevel : Level sizes → Level sizes) {Result : Type}
    (rest : OrderBook sizes → Except Fault Result) :
    (do
      let book ← book.modifyOrder slot changeOrder
      let book ← book.modifyLevel level changeLevel
      rest book) =
      rest ((book.setOrder slot (changeOrder node)).setLevel level
        (changeLevel record)) := by
  have levelKept : (book.setOrder slot
      (changeOrder node)).levelPool.object? level = some record := levelStored
  rw [modifyOrder_eq stored, ok_bind, modifyLevel_eq levelKept, ok_bind]

theorem takeQty_edited (settled : book.Settled layout)
    (listed : book.Listed side price level)
    (split : layout.queue level = front ++ slot :: back) {taken : UInt32}
    (enough : taken.toNat ≤ (book.payload slot).qty.toNat)
    {node : RestingOrder sizes}
    (stored : book.orderPool.object? slot = some node) {record : Level sizes}
    (levelStored : book.levelPool.object? level = some record)
    {next : OrderBook sizes}
    (nextEq :
      (book.setOrder slot { node with qty := node.qty - taken }).setLevel
      level { record with totalQty := record.totalQty - taken.toUInt64 } =
        next) :
    book.Edited layout side price level slot next layout
        (front ++ [slot] ++ back) ∧
      next.payload slot =
        { book.payload slot with qty := (book.payload slot).qty - taken } := by
  have rep := settled.takeQty listed split enough stored levelStored
  rw [nextEq] at rep
  have maps : ∀ other, next.priceMap other = book.priceMap other := by
    intro other
    rw [← nextEq, setLevel_priceMap, setOrder_priceMap]
  have payload : next.payload = Function.update book.payload slot
      { book.payload slot with qty := (book.payload slot).qty - taken } := by
    rw [← nextEq, setLevel_payload, setOrder_payload, payload_eq stored]
  refine ⟨⟨⟨rep, settled.none_loose, ?_⟩, ?_, ?_, ?_, ?_, ?_⟩, ?_⟩
  · intro otherSide otherPrice other otherListed
    exact settled.populated ((listed_congr maps).mp otherListed)
  · simp [split]
  · intro other _
    rfl
  · intro other differs
    rw [payload, Function.update_of_ne differs]
  · rw [maps, if_neg (by simp)]
  · intro other _
    rw [maps]
  · rw [payload, Function.update_self]

theorem replaceOrderInPlace_spec (settled : book.Settled layout)
    (orderId : UInt64) {newQty : UInt32}
    (shrinks : ∀ order, book.view.find? orderId = some order →
      newQty.toNat ≤ order.qty.toNat) :
    ∃ next, book.replaceOrderInPlace orderId newQty =
        .ok ((book.view.find? orderId).isSome, next) ∧
      next.WellFormed ∧ next.view = book.view.setQty orderId newQty := by
  have found := settled.find?_view orderId
  cases indexed : book.orderIndex orderId with
  | none =>
      have absent := settled.index_eq_none.mp indexed
      refine ⟨book, ?_, ⟨layout, settled⟩, ?_⟩
      · rw [replaceOrderInPlace, indexed, absent]
        rfl
      · exact (Market.alter_absent settled.view_valid absent _).symm
  | some entry =>
      obtain ⟨side, price, front, back, listed, split, sameId⟩ :=
        settled.locate indexed
      have member : entry.order ∈ layout.queue entry.level := by simp [split]
      obtain ⟨node, stored, nodeEq⟩ := settled.queued_node member
      have levelStored := settled.record listed
      rw [findOrder, indexed] at found
      have shrinksHere : newQty.toNat ≤ node.qty.toNat := by
        rw [← nodeEq]
        exact shrinks _ found
      have enough : (node.qty - newQty).toNat ≤
          (book.payload entry.order).qty.toNat := by
        rw [nodeEq, UInt32.toNat_sub_of_le _ _
          (UInt32.le_iff_toNat_le.mpr shrinksHere)]
        omega
      have rest : node.qty - (node.qty - newQty) = newQty := by grind
      obtain ⟨edited, payload⟩ := takeQty_edited settled listed split enough
        stored levelStored rfl
      rw [rest] at edited payload
      refine ⟨_, ?_, ⟨layout, edited.settled⟩, ?_⟩
      · rw [replaceOrderInPlace, indexed]
        change (book.orderPool.read entry.order >>= _) = _
        rw [ObjectPool.read_eq stored, ok_bind, found]
        exact modifyBoth_eq stored levelStored _ _ _
      · rw [← sameId]
        apply edited.view_alter settled listed split rfl
        rw [List.map_singleton, payload, nodeEq, rest]
        rfl

theorem ladder_insert_listed (settled : book.Settled layout)
    {next : OrderBook sizes} {nextLayout : Layout sizes}
    (nextSettled : next.Settled nextLayout) {incoming : Order}
    (listed : book.Listed incoming.side incoming.price level)
    (map : next.priceMap incoming.side = book.priceMap incoming.side)
    (orders : (nextLayout.queue level).map next.payload =
      (layout.queue level).map book.payload ++ [incoming])
    (others : ∀ other, other ≠ level →
      (nextLayout.queue other).map next.payload =
        (layout.queue other).map book.payload) :
    next.view.ladder incoming.side =
      (book.view.insert incoming).ladder incoming.side := by
  obtain ⟨before, after, split⟩ := List.append_of_mem listed
  have viewSplit : (book.view.ladder incoming.side).entries =
      before.map (fun entry =>
        (entry.1, (layout.queue entry.2).map book.payload)) ++
        (incoming.price, (layout.queue level).map book.payload) ::
          after.map (fun entry =>
            (entry.1, (layout.queue entry.2).map book.payload)) := by
    rw [settled.view_entries, split, List.map_append, List.map_cons]
  have apart := settled.split_apart split
  rw [Market.insert_ladder_self]
  apply SortedMap.ext
  rw [nextSettled.view_entries, map, SortedMap.upsert_of_split viewSplit, split,
    List.map_append, List.map_cons, orders, Option.getD_some]
  congr 1
  · apply List.map_congr_left
    intro entry member
    rw [others entry.2 (apart entry (List.mem_append_left _ member))]
  · congr 1
    apply List.map_congr_left
    intro entry member
    rw [others entry.2 (apart entry (List.mem_append_right _ member))]

theorem ladder_insert_created (settled : book.Settled layout)
    {next : OrderBook sizes} {nextLayout : Layout sizes}
    (nextSettled : next.Settled nextLayout) {incoming : Order}
    (absent : (book.priceMap incoming.side).find? incoming.price = none)
    (map : next.priceMap incoming.side =
      (book.priceMap incoming.side).emplace incoming.price level)
    (empty : layout.queue level = [])
    (orders : (nextLayout.queue level).map next.payload =
      (layout.queue level).map book.payload ++ [incoming])
    (others : ∀ other, other ≠ level →
      (nextLayout.queue other).map next.payload =
        (layout.queue other).map book.payload) :
    next.view.ladder incoming.side =
      (book.view.insert incoming).ladder incoming.side := by
  have viewEq : book.view.ladder incoming.side =
      (book.priceMap incoming.side).mapValues fun other =>
        (nextLayout.queue other).map next.payload := by
    apply SortedMap.ext
    rw [settled.view_entries, SortedMap.mapValues_entries]
    apply List.map_congr_left
    intro entry member
    have unlisted : entry.2 ≠ level := by
      intro sameLevel
      exact settled.populated member (sameLevel ▸ empty)
    rw [others entry.2 unlisted]
  have viewAbsent : (book.view.ladder incoming.side).find?
      incoming.price = none := by
    rw [SortedMap.find?_eq_none_iff] at absent ⊢
    intro orders member
    rw [settled.view_entries] at member
    obtain ⟨entry, entryMember, sameEntry⟩ := List.mem_map.mp member
    obtain ⟨samePrice, _⟩ := Prod.mk.inj sameEntry
    exact absent entry.2 (samePrice ▸ entryMember)
  rw [Market.insert_ladder_self]
  apply SortedMap.ext
  rw [nextSettled.view_entries, SortedMap.upsert_of_absent viewAbsent, viewEq,
    map, ← SortedMap.mapValues_entries fun other =>
      (nextLayout.queue other).map next.payload,
    SortedMap.mapValues_emplace, orders, empty]
  rfl

/-- The order in `slot` has joined the end of its level, which may be new.
Taking it out again would undo both. -/
structure Joined (book : OrderBook sizes) (layout : Layout sizes)
    (incoming : Order) (slot : OrderSlot sizes) (level : LevelSlot sizes)
    (next : OrderBook sizes) (nextLayout : Layout sizes) : Prop where
  settled : next.Settled nextLayout
  listed : next.Listed incoming.side incoming.price level
  queue_eq : nextLayout.queue level = layout.queue level ++ [slot]
  others : ∀ other, other ≠ level →
    nextLayout.queue other = layout.queue other
  fresh : ∀ other, slot ∉ layout.queue other
  payload : next.payload = Function.update book.payload slot incoming
  map : next.priceMap incoming.side = book.priceMap incoming.side ∨
    ((book.priceMap incoming.side).find? incoming.price = none ∧
      next.priceMap incoming.side =
        (book.priceMap incoming.side).emplace incoming.price level ∧
      layout.queue level = [])
  otherMap : ∀ other, other ≠ incoming.side →
    next.priceMap other = book.priceMap other
  undone : nextLayout.cancelled level slot = layout

/-- On the market, a new slot at the end of a queue is an insertion. -/
theorem Joined.view_eq (settled : book.Settled layout) {incoming : Order}
    {next : OrderBook sizes} {nextLayout : Layout sizes}
    (joined : book.Joined layout incoming slot level next nextLayout) :
    next.view = book.view.insert incoming := by
  have kept : ∀ other, (layout.queue other).map next.payload =
      (layout.queue other).map book.payload := by
    intro other
    apply List.map_congr_left
    intro current member
    rw [joined.payload, Function.update_of_ne]
    rintro rfl
    exact joined.fresh other member
  have levelOrders : (nextLayout.queue level).map next.payload =
      (layout.queue level).map book.payload ++ [incoming] := by
    rw [joined.queue_eq, List.map_append, kept, List.map_singleton,
      joined.payload, Function.update_self]
  have otherOrders : ∀ other, other ≠ level →
      (nextLayout.queue other).map next.payload =
        (layout.queue other).map book.payload := by
    intro other differs
    rw [joined.others other differs, kept]
  apply Market.ext
  intro current
  by_cases same : current = incoming.side
  · subst same
    rcases joined.map with sameMap | ⟨absent, emplaced, empty⟩
    · have listed := joined.listed
      rw [Listed, sameMap] at listed
      exact ladder_insert_listed settled joined.settled listed sameMap
        levelOrders otherOrders
    · exact ladder_insert_created settled joined.settled absent emplaced empty
        levelOrders otherOrders
  · have sameMap := joined.otherMap current same
    rw [Market.insert_ladder_of_ne same]
    apply settled.ladder_congr joined.settled.toRepresents sameMap
    intro entry member
    have differs : entry.2 ≠ level := by
      intro sameLevel
      have entryListed : next.Listed current entry.1 level := by
        rw [Listed, sameMap, ← sameLevel]
        exact member
      exact same (joined.settled.listed_once entryListed joined.listed).1
    exact otherOrders entry.2 differs

/-- The end of `addOrder`: the loose order joins its level and the index. -/
theorem joinLevel_spec (rep : book.Represents layout)
    (listed : book.Listed side price level) (held : layout.loose = some slot)
    (placed : (book.payload slot).price = price ∧
      (book.payload slot).side = side)
    (absent : book.orderIndex (book.payload slot).orderId = none) :
    ∃ next, book.joinLevel level slot = .ok (some slot, next) ∧
      next.Represents (layout.enqueue level slot) ∧
      (∀ side, next.priceMap side = book.priceMap side) ∧
      next.payload = book.payload := by
  obtain ⟨appended, appendEq, relinked, nextRep⟩ :=
    rep.enqueue listed held placed absent
  have member : slot ∈ (layout.enqueue level slot).queue level := by simp
  obtain ⟨node, stored, nodeEq⟩ := nextRep.queued_node member
  have storedHere : appended.orderPool.object? slot = some node := stored
  have payload : appended.payload slot = node.toOrder := payload_eq storedHere
  rw [relinked.payload] at payload
  refine ⟨_, ?_, nextRep, ?_, ?_⟩
  · rewrite [joinLevel, appendEq, ok_bind, ObjectPool.read_eq storedHere,
      ok_bind, payload, relinked.index]
    rfl
  · intro current
    rw [← relinked.maps]
    cases current <;> rfl
  · exact relinked.payload

theorem acquireOrder_filled (settled : book.Settled layout)
    {rest : List (OrderSlot sizes)} (free : layout.freeOrders = slot :: rest)
    (incoming : Order) :
    ∃ orderPool filled node, book.orderPool.acquire =
        .ok (some slot, orderPool) ∧
      (OrderBook.modifyOrder { book with orderPool } slot fun node =>
        { node with toOrder := incoming }) = .ok filled ∧
      filled.orderPool.read slot = .ok node ∧ node.toOrder = incoming ∧
      filled.Represents { layout with
        freeOrders := rest
        loose := some slot } ∧
      (∀ side, filled.priceMap side = book.priceMap side) ∧
      filled.orderIndex = book.orderIndex ∧
      filled.payload = Function.update book.payload slot incoming := by
  obtain ⟨orderPool, acquired, stored, objects, rep⟩ :=
    settled.acquireOrder settled.none_loose free
  let node : RestingOrder sizes :=
    { (default : RestingOrder sizes) with toOrder := incoming }
  have storedHere : ({ book with orderPool } :
      OrderBook sizes).orderPool.object? slot = some default := stored
  refine ⟨orderPool, setOrder { book with orderPool } slot node, node,
    acquired, modifyOrder_eq storedHere _, ?_, rfl, rep.setLoose rfl node, ?_,
    rfl, ?_⟩
  · exact ObjectPool.read_eq ObjectPool.object?_set_self
  · intro side
    cases side <;> rfl
  · rw [setOrder_payload]
    funext current
    by_cases same : current = slot
    · subst same
      simp [node]
    · rw [Function.update_of_ne same, Function.update_of_ne same]
      exact payload_congr (objects current same)

/-- The order in the loose slot is ready to join its level, which was listed
before or has just been created. -/
structure Ready (book : OrderBook sizes) (layout : Layout sizes)
    (incoming : Order) (slot : OrderSlot sizes) (level : LevelSlot sizes)
    (held : OrderBook sizes) (heldLayout : Layout sizes) : Prop where
  rep : held.Represents heldLayout
  queues : heldLayout.queue = layout.queue
  loose : heldLayout.loose = some slot
  freeOrders : layout.freeOrders = slot :: heldLayout.freeOrders
  payload : held.payload = Function.update book.payload slot incoming
  absent : held.orderIndex incoming.orderId = none
  listed : held.Listed incoming.side incoming.price level
  otherMap : ∀ other, other ≠ incoming.side →
    held.priceMap other = book.priceMap other
  map : (held.priceMap incoming.side = book.priceMap incoming.side ∧
      layout.freeLevels = heldLayout.freeLevels) ∨
    ((book.priceMap incoming.side).find? incoming.price = none ∧
      held.priceMap incoming.side =
        (book.priceMap incoming.side).emplace incoming.price level ∧
      layout.queue level = [] ∧
      layout.freeLevels = level :: heldLayout.freeLevels)

namespace Ready

variable {held : OrderBook sizes} {heldLayout : Layout sizes}
variable {incoming : Order}

theorem fresh (ready : book.Ready layout incoming slot level held heldLayout)
    (settled : book.Settled layout) (other : LevelSlot sizes) :
    slot ∉ layout.queue other := by
  intro member
  exact settled.queue_used member (by simp [ready.freeOrders])

theorem payload_slot
    (ready : book.Ready layout incoming slot level held heldLayout) :
    held.payload slot = incoming := by
  rw [ready.payload, Function.update_self]

theorem listed_before
    (ready : book.Ready layout incoming slot level held heldLayout)
    {otherSide : Side} {otherPrice : Int64} {other : LevelSlot sizes}
    (listed : held.Listed otherSide otherPrice other)
    (differs : other ≠ level) : book.Listed otherSide otherPrice other := by
  by_cases same : otherSide = incoming.side
  · subst same
    rcases ready.map with ⟨sameMap, _⟩ | ⟨mapAbsent, emplaced, _⟩
    · rw [Listed, sameMap] at listed
      exact listed
    · rw [Listed, emplaced, SortedMap.mem_emplace mapAbsent] at listed
      rcases listed with old | created
      · exact old
      · exact absurd (Prod.mk.inj created).2 differs
  · rw [Listed, ready.otherMap otherSide same] at listed
    exact listed

/-- Taking the order out again undoes its arrival. -/
theorem undone (ready : book.Ready layout incoming slot level held heldLayout)
    (settled : book.Settled layout) :
    (heldLayout.enqueue level slot).cancelled level slot = layout := by
  have emptied : (layout.queue level ++ [slot]).erase slot =
      layout.queue level := by
    rw [List.erase_append_right _ (ready.fresh settled level)]
    simp
  have queueEq : ((heldLayout.enqueue level slot).dequeue level slot).queue =
      layout.queue := by
    simp [Layout.dequeue, Layout.enqueue, ready.queues, emptied]
  apply Layout.ext
  · rw [Layout.cancelled_queue, queueEq]
  · rw [Layout.cancelled_freeOrders, ready.freeOrders]
    rfl
  · rw [Layout.cancelled, Layout.collected, queueEq]
    rcases ready.map with ⟨sameMap, sameLevels⟩ | ⟨_, _, empty, created⟩
    · have listed := ready.listed
      rw [Listed, sameMap] at listed
      rw [if_neg (settled.populated listed), sameLevels]
      rfl
    · rw [if_pos empty, created]
      rfl
  · rw [Layout.cancelled_loose, settled.none_loose]

end Ready

theorem addOrder_joins (settled : book.Settled layout)
    {held : OrderBook sizes} {heldLayout : Layout sizes} {incoming : Order}
    (ready : book.Ready layout incoming slot level held heldLayout) :
    ∃ next, held.joinLevel level slot = .ok (some slot, next) ∧
      book.Joined layout incoming slot level next
        (heldLayout.enqueue level slot) := by
  have placed : (held.payload slot).price = incoming.price ∧
      (held.payload slot).side = incoming.side := by
    rw [ready.payload_slot]
    exact ⟨rfl, rfl⟩
  have absent := ready.absent
  rw [← ready.payload_slot] at absent
  obtain ⟨next, run, nextRep, maps, nextPayload⟩ :=
    joinLevel_spec ready.rep ready.listed ready.loose placed absent
  refine ⟨next, run, ?_⟩
  constructor
  case settled =>
    refine ⟨nextRep, rfl, ?_⟩
    intro otherSide otherPrice other listed
    rw [listed_congr maps] at listed
    by_cases same : other = level
    · subst same
      simp
    · rw [Layout.enqueue_queue_of_ne heldLayout level slot same, ready.queues]
      exact settled.populated (ready.listed_before listed same)
  case listed => exact (listed_congr maps).mpr ready.listed
  case queue_eq => rw [Layout.enqueue_queue_self, ready.queues]
  case others =>
    intro other differs
    rw [Layout.enqueue_queue_of_ne heldLayout level slot differs, ready.queues]
  case fresh => exact ready.fresh settled
  case payload => rw [nextPayload, ready.payload]
  case map =>
    rw [maps]
    rcases ready.map with ⟨sameMap, _⟩ | ⟨mapAbsent, emplaced, empty, _⟩
    · exact .inl sameMap
    · exact .inr ⟨mapAbsent, emplaced, empty⟩
  case otherMap =>
    intro other differs
    rw [maps, ready.otherMap other differs]
  case undone => exact ready.undone settled

/-- An accepted order joins its level. -/
theorem addOrder_joined (settled : book.Settled layout) {incoming : Order}
    (accepted : book.view.Accepts sizes incoming) :
    ∃ slot level next nextLayout,
      book.addOrder incoming = .ok (some slot, next) ∧
      book.Joined layout incoming slot level next nextLayout := by
  obtain ⟨viewAbsent, roomForOrder, roomForLevel⟩ := accepted
  have absent := settled.index_eq_none.mpr viewAbsent
  cases free : layout.freeOrders with
  | nil =>
      have full := settled.freeOrders_eq_nil.mp free
      omega
  | cons slot rest =>
      obtain ⟨orderPool, filled, node, acquired, filledEq, readEq, rfl, rep,
        maps, index, payload⟩ := acquireOrder_filled settled free incoming
      have run : book.addOrder node.toOrder =
          filled.getOrCreateLevel node.side node.price >>= fun found =>
            found.2.attachOrder slot found.1 := by
        rw [addOrder, absent]
        change (book.orderPool.acquire >>= _) = _
        rw [acquired, ok_bind]
        change (modifyOrder { book with orderPool } slot _ >>= _) = _
        rewrite [filledEq, ok_bind, readEq, ok_bind, findOrCreateLevel_eq]
        rfl
      have indexAbsent : filled.orderIndex node.orderId = none := by
        rw [index, absent]
      cases found : (book.priceMap node.side).find? node.price with
      | some level =>
          have listed : filled.Listed node.side node.price level := by
            rw [listed_congr maps]
            exact SortedMap.find?_eq_some_iff.mp found
          obtain ⟨next, run', joined⟩ := addOrder_joins settled
            { rep, payload, listed
              queues := rfl
              loose := rfl
              freeOrders := free
              absent := indexAbsent
              otherMap := fun other _ => maps other
              map := .inl ⟨maps node.side, rfl⟩ }
          refine ⟨slot, level, next, _, ?_, joined⟩
          rw [run, rep.getOrCreateLevel_found listed]
          exact run'
      | none =>
          have filledAbsent : (filled.priceMap node.side).find? node.price =
              none := by
            rw [maps, found]
          cases freeLevels : layout.freeLevels with
          | nil =>
              have full := settled.freeLevels_eq_nil.mp freeLevels
              have viewFound : (book.view.ladder node.side).find? node.price =
                  ((book.priceMap node.side).find? node.price).map
                    book.queueOrders := SortedMap.find?_mapValues _ _ _
              rw [viewFound, found] at roomForLevel
              simp only [Option.map_none, Option.isSome_none,
                Bool.false_eq_true, false_or] at roomForLevel
              omega
          | cons level levelsLeft =>
              obtain ⟨created, createdEq, sameMap, otherMap, orders,
                createdIndex, empty, createdRep⟩ :=
                rep.getOrCreateLevel_created filledAbsent freeLevels
              have listed : created.Listed node.side node.price level := by
                rw [Listed, sameMap, SortedMap.mem_emplace filledAbsent]
                exact .inr rfl
              have createdPayload : created.payload =
                  Function.update book.payload slot node.toOrder := by
                rw [← payload]
                funext current
                exact payload_congr (by rw [orders])
              obtain ⟨next, run', joined⟩ := addOrder_joins settled
                { listed
                  rep := createdRep
                  queues := rfl
                  loose := rfl
                  freeOrders := free
                  payload := createdPayload
                  absent := by rw [createdIndex, indexAbsent]
                  otherMap := fun other differs => by
                    rw [otherMap other differs, maps]
                  map := .inr ⟨found, by rw [sameMap, maps], empty,
                    freeLevels⟩ }
              refine ⟨slot, level, next, _, ?_, joined⟩
              rw [run, createdEq]
              exact run'

theorem addOrder_spec (settled : book.Settled layout) (incoming : Order) :
    ∃ added next, book.addOrder incoming = .ok (added, next) ∧
      added.isSome = decide (book.view.Accepts sizes incoming) ∧
      next.WellFormed ∧ next.view = book.view.add sizes incoming := by
  by_cases accepted : book.view.Accepts sizes incoming
  · obtain ⟨slot, level, next, nextLayout, run, joined⟩ :=
      addOrder_joined settled accepted
    refine ⟨some slot, next, run, ?_, ⟨nextLayout, joined.settled⟩, ?_⟩
    · simp [accepted]
    · rw [joined.view_eq settled, Market.add, if_pos accepted]
  · have refuses := (refuses_iff settled incoming).mpr accepted
    refine ⟨none, _, addOrder_refused settled refuses, ?_,
      ⟨layout, settled.countRefusal incoming⟩, ?_⟩
    · simp [accepted]
    · rw [countRefusal_view, Market.add, if_neg accepted]

theorem empty_settled : (empty : OrderBook sizes).Settled
    { queue := fun _ => []
      freeOrders := List.finRange sizes.orders
      freeLevels := List.finRange sizes.levels
      loose := none } := by
  have unlisted : ∀ {side price level},
      ¬ (empty : OrderBook sizes).Listed side price level := by
    intro side price level listed
    cases side <;> simp [Listed, priceMap, empty] at listed
  refine ⟨?_, rfl, ?_⟩
  · constructor
    case orders_free => exact .fresh
    case levels_free => exact .fresh
    case record =>
      intro side price level listed
      exact absurd listed unlisted
    case chain =>
      intro level
      exact .nil _
    case placed =>
      intro side price level slot listed
      exact absurd listed unlisted
    case listed_once =>
      intro side price level otherSide otherPrice listed
      exact absurd listed unlisted
    case level_used =>
      intro level
      simp [unlisted]
    case queue_listed =>
      intro level slot member
      simp at member
    case slot_used =>
      intro slot
      simp
    case loose_unqueued =>
      intro slot level member
      simp at member
    case queue_unique =>
      intro slot level other member
      simp at member
    case index =>
      intro orderId entry
      simp [empty]
  · intro side price level listed
    exact absurd listed unlisted

theorem view_empty : (empty : OrderBook sizes).view = .empty := by
  apply Market.ext
  intro side
  cases side <;> rfl

end Operations

end OrderBook

end Hydra
