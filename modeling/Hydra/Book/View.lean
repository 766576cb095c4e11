import Hydra.Book.Edits
import Hydra.Market.Basic

/-!
# The market of a heap

`view` reads the abstract market off the heap: the price maps with every level
replaced by the orders of its queue, from head to tail.  On a settled heap the
market is valid, its ids are those of the index, and its sizes are those of
the used parts of the pools.
-/

namespace Hydra

variable {sizes : PoolSizes}

namespace OrderBook

/-- The orders of a level, from `head` along the `next` links. -/
def queueOrders (book : OrderBook sizes) (level : LevelSlot sizes) :
    List Order :=
  (book.queue level).map book.payload

def view (book : OrderBook sizes) : Market where
  ladder side := (book.priceMap side).mapValues book.queueOrders

/-- The queued slots of a side, in the order of its ladder. -/
def slots (book : OrderBook sizes) (layout : Layout sizes) (side : Side) :
    List (OrderSlot sizes) :=
  (book.priceMap side).entries.flatMap fun entry => layout.queue entry.2

section Slots

variable {book : OrderBook sizes} {layout : Layout sizes}
variable {slot : OrderSlot sizes} {side : Side}

theorem mem_slots : slot ∈ book.slots layout side ↔ ∃ price level,
    book.Listed side price level ∧ slot ∈ layout.queue level := by
  simp only [slots, List.mem_flatMap, Prod.exists, Listed]

end Slots

theorem length_partition {capacity : Nat} {free used : List (Fin capacity)}
    (nodup : (free ++ used).Nodup)
    (complete : ∀ slot, slot ∉ free → slot ∈ used) :
    free.length + used.length = capacity := by
  have perm : (free ++ used).Perm (List.finRange capacity) := by
    apply (List.perm_ext_iff_of_nodup nodup (List.nodup_finRange _)).mpr
    intro slot
    refine iff_of_true ?_ (List.mem_finRange slot)
    rw [List.mem_append]
    by_cases isFree : slot ∈ free
    · exact .inl isFree
    · exact .inr (complete slot isFree)
  rw [← List.length_append, perm.length_eq, List.length_finRange]

namespace Represents

variable {book : OrderBook sizes} {layout : Layout sizes}
variable {level : LevelSlot sizes} {slot : OrderSlot sizes}
variable {side : Side} {price : Int64} {order : Order}

theorem queueOrders_eq (rep : book.Represents layout)
    (listed : book.Listed side price level) :
    book.queueOrders level = (layout.queue level).map book.payload := by
  rw [queueOrders, rep.queue_eq listed]

theorem view_entries (rep : book.Represents layout) (side : Side) :
    (book.view.ladder side).entries =
      (book.priceMap side).entries.map fun entry =>
        (entry.1, (layout.queue entry.2).map book.payload) := by
  change (book.priceMap side).entries.map _ = _
  apply List.map_congr_left
  intro entry member
  rw [rep.queueOrders_eq member]

/-- One side of the market is read from its price map and the orders of the
listed levels. -/
theorem ladder_congr (rep : book.Represents layout) {next : OrderBook sizes}
    {nextLayout : Layout sizes} (nextRep : next.Represents nextLayout)
    {side : Side} (map : next.priceMap side = book.priceMap side)
    (orders : ∀ entry ∈ (book.priceMap side).entries,
      (nextLayout.queue entry.2).map next.payload =
        (layout.queue entry.2).map book.payload) :
    next.view.ladder side = book.view.ladder side := by
  apply SortedMap.ext
  rw [nextRep.view_entries, rep.view_entries, map]
  apply List.map_congr_left
  intro entry member
  rw [orders entry member]

theorem view_orders (rep : book.Represents layout) (side : Side) :
    book.view.orders side = (book.slots layout side).map book.payload := by
  rw [Market.orders, rep.view_entries, slots, List.flatMap_map,
    List.map_flatMap]

theorem levels_nodup (rep : book.Represents layout) (side : Side) :
    ((book.priceMap side).entries.map Prod.snd).Nodup := by
  rw [List.Nodup, List.pairwise_map]
  apply (book.priceMap side).sorted.imp_of_mem
  intro left right leftMember rightMember ordered same
  have leftListed : book.Listed side left.1 right.2 := by
    rw [← same]
    exact leftMember
  have samePrice := (rep.listed_once leftListed rightMember).2
  rw [samePrice] at ordered
  exact Std.Irrefl.irrefl (r := side.better) right.1 ordered

theorem slots_nodup (rep : book.Represents layout) (side : Side) :
    (book.slots layout side).Nodup := by
  rw [slots, List.nodup_flatMap]
  constructor
  · intro entry _
    exact (rep.chain entry.2).nodup
  · apply (List.pairwise_map.mp (rep.levels_nodup side)).imp
    intro left right different slot leftQueued rightQueued
    exact different (rep.queue_unique leftQueued rightQueued)

theorem slots_disjoint (rep : book.Represents layout) :
    List.Disjoint (book.slots layout .buy) (book.slots layout .sell) := by
  intro slot buyMember sellMember
  obtain ⟨_, buyLevel, buyListed, buyQueued⟩ := mem_slots.mp buyMember
  obtain ⟨_, sellLevel, sellListed, sellQueued⟩ := mem_slots.mp sellMember
  obtain rfl := rep.queue_unique buyQueued sellQueued
  cases (rep.listed_once buyListed sellListed).1

theorem all_slots_nodup (rep : book.Represents layout) :
    (book.slots layout .buy ++ book.slots layout .sell).Nodup :=
  List.nodup_append'.mpr
    ⟨rep.slots_nodup .buy, rep.slots_nodup .sell, rep.slots_disjoint⟩

theorem mem_all_slots (rep : book.Represents layout) :
    slot ∈ book.slots layout .buy ++ book.slots layout .sell ↔
      ∃ level, slot ∈ layout.queue level := by
  rw [List.mem_append, mem_slots, mem_slots]
  constructor
  · intro member
    rcases member with ⟨_, level, _, queued⟩ | ⟨_, level, _, queued⟩
    · exact ⟨level, queued⟩
    · exact ⟨level, queued⟩
  · intro member
    obtain ⟨level, queued⟩ := member
    obtain ⟨side, price, listed⟩ := rep.queue_listed queued
    cases side with
    | buy => exact .inl ⟨price, level, listed, queued⟩
    | sell => exact .inr ⟨price, level, listed, queued⟩

/-- The resting orders are the payloads of the queued slots. -/
theorem rests_view (rep : book.Represents layout) :
    book.view.Rests order ↔
      ∃ level, ∃ slot ∈ layout.queue level, book.payload slot = order := by
  rw [Market.Rests, rep.view_orders, List.mem_map]
  constructor
  · intro member
    obtain ⟨slot, member, payload⟩ := member
    obtain ⟨_, level, _, queued⟩ := mem_slots.mp member
    exact ⟨level, slot, queued, payload⟩
  · intro member
    obtain ⟨level, slot, queued, rfl⟩ := member
    obtain ⟨side, price, listed⟩ := rep.queue_listed queued
    rw [(rep.placed listed queued).2]
    exact ⟨slot, mem_slots.mpr ⟨price, level, listed, queued⟩, rfl⟩

end Represents

namespace Settled

variable {book : OrderBook sizes} {layout : Layout sizes}
variable {order : Order}

theorem view_valid (settled : book.Settled layout) : book.view.Valid where
  populated := by
    intro side price queue listed
    rw [settled.view_entries] at listed
    obtain ⟨entry, member, same⟩ := List.mem_map.mp listed
    cases same
    simpa using settled.populated member
  placed := by
    intro side price queue order listed member
    rw [settled.view_entries] at listed
    obtain ⟨entry, entryMember, same⟩ := List.mem_map.mp listed
    cases same
    obtain ⟨slot, queued, rfl⟩ := List.mem_map.mp member
    exact settled.placed entryMember queued
  ids_nodup := by
    rw [settled.view_orders, settled.view_orders, ← List.map_append,
      List.map_map]
    apply List.Nodup.map_on _ settled.all_slots_nodup
    intro left leftMember right rightMember sameId
    obtain ⟨leftLevel, leftQueued⟩ := settled.mem_all_slots.mp leftMember
    obtain ⟨rightLevel, rightQueued⟩ := settled.mem_all_slots.mp rightMember
    exact settled.slot_unique rightQueued leftQueued sameId

/-- The index finds exactly the resting orders. -/
theorem find?_view (settled : book.Settled layout) (orderId : UInt64) :
    book.view.find? orderId = (book.findOrder orderId).map book.payload := by
  apply Option.ext
  intro order
  rw [settled.view_valid.find?_eq_some_iff, settled.rests_view, findOrder,
    Option.map_map, Option.map_eq_some_iff]
  constructor
  · intro rests
    obtain ⟨⟨level, slot, queued, rfl⟩, rfl⟩ := rests
    refine ⟨{ order := slot, level }, ?_, rfl⟩
    rw [settled.index]
    exact ⟨queued, rfl⟩
  · intro found
    obtain ⟨entry, indexed, rfl⟩ := found
    obtain ⟨queued, sameId⟩ := (settled.index orderId entry).mp indexed
    exact ⟨⟨entry.level, entry.order, queued, rfl⟩, sameId⟩

theorem index_eq_none (settled : book.Settled layout) {orderId : UInt64} :
    book.orderIndex orderId = none ↔ book.view.find? orderId = none := by
  rw [settled.find?_view, findOrder]
  simp

theorem orderCount_eq (settled : book.Settled layout) :
    layout.freeOrders.length + book.view.orderCount = sizes.orders := by
  have nodup : (layout.freeOrders ++
      (book.slots layout .buy ++ book.slots layout .sell)).Nodup := by
    rw [List.nodup_append']
    refine ⟨settled.orders_free.nodup, settled.all_slots_nodup, ?_⟩
    intro slot free queued
    obtain ⟨level, queued⟩ := settled.mem_all_slots.mp queued
    exact settled.queue_used queued free
  rw [Market.orderCount, settled.view_orders, settled.view_orders,
    List.length_map, List.length_map, ← List.length_append]
  apply length_partition nodup
  intro slot notFree
  have used := (settled.slot_used slot).mp notFree
  rw [settled.none_loose] at used
  rw [settled.mem_all_slots]
  rcases used with impossible | queued
  · cases impossible
  · exact queued

theorem orderCount_le (settled : book.Settled layout) :
    book.view.orderCount ≤ sizes.orders := by
  have count := settled.orderCount_eq
  omega

theorem levelCount_eq (settled : book.Settled layout) :
    layout.freeLevels.length + book.view.levelCount = sizes.levels := by
  let levels (side : Side) := (book.priceMap side).entries.map Prod.snd
  have mem_levels : ∀ {side level}, level ∈ levels side ↔
      ∃ price, book.Listed side price level := by
    intro side level
    simp [levels, Listed]
  have nodup : (layout.freeLevels ++ (levels .buy ++ levels .sell)).Nodup := by
    rw [List.nodup_append', List.nodup_append']
    refine ⟨settled.levels_free.nodup,
      ⟨settled.levels_nodup .buy, settled.levels_nodup .sell, ?_⟩, ?_⟩
    · intro level buyMember sellMember
      obtain ⟨_, buyListed⟩ := mem_levels.mp buyMember
      obtain ⟨_, sellListed⟩ := mem_levels.mp sellMember
      cases (settled.listed_once buyListed sellListed).1
    · intro level free member
      refine (settled.level_used level).mpr ?_ free
      rcases List.mem_append.mp member with buyMember | sellMember
      · obtain ⟨price, listed⟩ := mem_levels.mp buyMember
        exact ⟨_, price, listed⟩
      · obtain ⟨price, listed⟩ := mem_levels.mp sellMember
        exact ⟨_, price, listed⟩
  have lengths := length_partition nodup (by
    intro level notFree
    obtain ⟨side, price, listed⟩ := (settled.level_used level).mp notFree
    rw [List.mem_append, mem_levels, mem_levels]
    cases side with
    | buy => exact .inl ⟨price, listed⟩
    | sell => exact .inr ⟨price, listed⟩)
  rw [Market.levelCount, settled.view_entries, settled.view_entries,
    List.length_map, List.length_map, ← lengths]
  simp [levels]

theorem levelCount_le (settled : book.Settled layout) :
    book.view.levelCount ≤ sizes.levels := by
  have count := settled.levelCount_eq
  omega

theorem freeOrders_eq_nil (settled : book.Settled layout) :
    layout.freeOrders = [] ↔ sizes.orders ≤ book.view.orderCount := by
  have count := settled.orderCount_eq
  rw [← List.length_eq_zero_iff]
  omega

theorem freeLevels_eq_nil (settled : book.Settled layout) :
    layout.freeLevels = [] ↔ sizes.levels ≤ book.view.levelCount := by
  have count := settled.levelCount_eq
  rw [← List.length_eq_zero_iff]
  omega

end Settled

end OrderBook

end Hydra
