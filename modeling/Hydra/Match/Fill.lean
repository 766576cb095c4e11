import Hydra.Book.Operations
import Hydra.Market.Matching

/-!
# Fills on settled heaps

`Progress` relates two states of a sweep by the grants made in between: on the
market they are the reported fills, each of which was legal in the book that
its handler saw; a dry run only counts them down.  `LevelState` is what a walk
over the queue of one level keeps of the rest of the heap.
-/

namespace Hydra

open Allocation

variable {sizes : PoolSizes}

/-- The maker rested at the given side and price. -/
def atPlace (side : Side) (price : Int64) (maker : Order) : Prop :=
  maker.side = side ∧ maker.price = price

/-- The event fills an order that rested in the book of the call. -/
structure Emission.Legal (incoming : Order) (placed : Order → Prop)
    (emission : Emission sizes) : Prop where
  wellFormed : emission.book.WellFormed
  taker : emission.event.takerOrderId = incoming.orderId
  maker : ∃ maker, emission.book.view.Rests maker ∧ placed maker ∧
    tradable incoming maker = true ∧
    emission.event.makerOrderId = maker.orderId ∧
    emission.event.price = maker.price ∧
    emission.event.qty.toNat ≤ maker.size ∧
    (0 < maker.size → 0 < emission.event.qty.toNat)

namespace MatchStats

variable {incoming : Order} (stats : MatchStats)

@[simp] theorem charge_nil : stats.charge incoming [] [] = stats := by
  simp [charge, eligible]

theorem charge_append (incoming : Order) (visited visited' : List Order)
    (grants grants' : List Grant) :
    stats.charge incoming (visited ++ visited') (grants ++ grants') =
      (stats.charge incoming visited grants).charge incoming visited'
        grants' := by
  simp [charge, eligible, UInt32.ofNat_add, UInt32.add_assoc]

theorem charge_selfTrade {order : Order}
    (self : OrderBook.isSelfTrade order incoming = true) :
    stats.charge incoming [order] [] =
      stats.countExamined.countSelfTrade := by
  simp [charge, eligible, tradable, self, countExamined, countSelfTrade]

theorem charge_eligible {order : Order}
    (other : OrderBook.isSelfTrade order incoming = false) :
    stats.charge incoming [order] [] =
      stats.countExamined.countEligible := by
  simp [charge, eligible, tradable, other, countExamined, countEligible]

theorem charge_grant (incoming : Order) (grant : Grant) :
    stats.charge incoming [] [grant] = stats.countFill := by
  simp [charge, eligible, countFill]

theorem charge_filled {order : Order}
    (other : OrderBook.isSelfTrade order incoming = false) (grant : Grant) :
    stats.charge incoming [order] [grant] =
      stats.countExamined.countEligible.countFill := by
  simp [charge, eligible, tradable, other, countExamined, countEligible,
    countFill]

end MatchStats

namespace Sweep

/-- The sweep made the grants `grants` and counted what `count` counts. -/
structure Progress (dryRun : Bool) (incoming : Order) (placed : Order → Prop)
    (count : MatchStats → MatchStats) (grants : List Grant)
    (sweep next : Sweep sizes) : Prop where
  remaining : next.remaining.toNat + total grants = sweep.remaining.toNat
  view : next.book.view =
    if dryRun then sweep.book.view
    else sweep.book.view.applyFills (grants.map (fillEvent incoming))
  stats : next.stats =
    if dryRun then sweep.stats else count sweep.stats
  emitted : ∃ emitted, next.emitted = sweep.emitted ++ emitted ∧
    (∀ emission ∈ emitted, emission.Legal incoming placed) ∧
    emitted.map Emission.event =
      if dryRun then [] else grants.map (fillEvent incoming)
  unchanged : dryRun = true → next.book = sweep.book

section Progress

variable {dryRun : Bool} {incoming : Order} {placed : Order → Prop}
variable {count count' : MatchStats → MatchStats}
variable {grants grants' : List Grant} {sweep middle next : Sweep sizes}

theorem Progress.refl (dryRun : Bool) (incoming : Order)
    (placed : Order → Prop) (sweep : Sweep sizes) :
    Progress dryRun incoming placed id [] sweep sweep where
  remaining := rfl
  view := by cases dryRun <;> rfl
  stats := by cases dryRun <;> rfl
  emitted := ⟨[], by simp, by simp, by simp⟩
  unchanged _ := rfl

theorem Progress.counting (incoming : Order) (placed : Order → Prop)
    (count : MatchStats → MatchStats) (sweep : Sweep sizes) :
    Progress dryRun incoming placed count [] sweep
      { sweep with stats := sweep.stats.commit dryRun count } where
  remaining := rfl
  view := by cases dryRun <;> rfl
  stats := rfl
  emitted := ⟨[], by simp, by simp, by simp⟩
  unchanged _ := rfl

theorem Progress.recount
    (progress : Progress dryRun incoming placed count grants sweep next)
    (same : ∀ stats, count' stats = count stats) :
    Progress dryRun incoming placed count' grants sweep next where
  remaining := progress.remaining
  view := progress.view
  stats := by rw [progress.stats, same]
  emitted := progress.emitted
  unchanged := progress.unchanged

theorem Progress.trans
    (first : Progress dryRun incoming placed count grants sweep middle)
    (second : Progress dryRun incoming placed count' grants' middle next) :
    Progress dryRun incoming placed (count' ∘ count) (grants ++ grants')
      sweep next where
  remaining := by
    rw [total_append, ← first.remaining, ← second.remaining]
    omega
  view := by
    rw [second.view, first.view]
    cases dryRun with
    | true => rfl
    | false =>
        simp only [Bool.false_eq_true, if_false, List.map_append,
          Market.applyFills, List.foldl_append]
  stats := by
    rw [second.stats, first.stats]
    cases dryRun <;> rfl
  emitted := by
    obtain ⟨firstEmitted, firstEq, firstLegal, firstEvents⟩ := first.emitted
    obtain ⟨secondEmitted, secondEq, secondLegal, secondEvents⟩ :=
      second.emitted
    refine ⟨firstEmitted ++ secondEmitted, ?_, ?_, ?_⟩
    · rw [secondEq, firstEq, List.append_assoc]
    · intro emission member
      rcases List.mem_append.mp member with early | late
      · exact firstLegal emission early
      · exact secondLegal emission late
    · rw [List.map_append, firstEvents, secondEvents]
      cases dryRun <;> simp
  unchanged isDry := by
    rw [second.unchanged isDry, first.unchanged isDry]

theorem Progress.mono {weaker : Order → Prop}
    (progress : Progress dryRun incoming placed count grants sweep next)
    (implies : ∀ order, placed order → weaker order) :
    Progress dryRun incoming weaker count grants sweep next where
  remaining := progress.remaining
  view := progress.view
  stats := progress.stats
  emitted := by
    obtain ⟨emitted, emittedEq, legal, events⟩ := progress.emitted
    refine ⟨emitted, emittedEq, ?_, events⟩
    intro emission member
    obtain ⟨wellFormed, taker, maker, rests, isPlaced, facts⟩ :=
      legal emission member
    exact ⟨wellFormed, taker, maker, rests, implies maker isPlaced, facts⟩
  unchanged := progress.unchanged

end Progress

end Sweep

namespace OrderBook.Edited

variable {book : OrderBook sizes} {layout : Layout sizes}
variable {level : LevelSlot sizes} {slot : OrderSlot sizes}
variable {side : Side} {price : Int64}
variable {front back : List (OrderSlot sizes)}

/-- An edit that keeps its order in place, followed by another edit of it. -/
theorem trans {middle next : OrderBook sizes}
    {middleLayout nextLayout : Layout sizes}
    {kept queue : List (OrderSlot sizes)}
    (first : book.Edited layout side price level slot middle middleLayout kept)
    (populated : kept ≠ [])
    (second : middle.Edited middleLayout side price level slot next nextLayout
      queue) :
    book.Edited layout side price level slot next nextLayout queue where
  settled := second.settled
  queue_eq := second.queue_eq
  others other differs := by
    rw [second.others other differs, first.others other differs]
  payload other differs := by
    rw [second.payload other differs, first.payload other differs]
  map := by
    rw [second.map, first.map, if_neg populated]
  otherMap other differs := by
    rw [second.otherMap other differs, first.otherMap other differs]

theorem listed {next : OrderBook sizes} {nextLayout : Layout sizes}
    {kept : List (OrderSlot sizes)}
    (edited : book.Edited layout side price level slot next nextLayout kept)
    (populated : kept ≠ []) (wasListed : book.Listed side price level) :
    next.Listed side price level := by
  rw [Listed, edited.map, if_neg populated]
  exact wasListed

end OrderBook.Edited

namespace Sweep

section Fill

variable {layout : Layout sizes} {level : LevelSlot sizes}
variable {slot : OrderSlot sizes} {side : Side} {price : Int64}
variable {front back : List (OrderSlot sizes)}
variable {sweep : Sweep sizes} {fillQty : UInt32}

theorem applyFill_run (incoming : Order) (settled : sweep.book.Settled layout)
    (listed : sweep.book.Listed side price level)
    (split : layout.queue level = front ++ slot :: back)
    (fits : fillQty.toNat ≤ (sweep.book.payload slot).qty.toNat) :
    ∃ nextBook nextLayout kept,
      sweep.applyFill slot level fillQty incoming = .ok
        { book := nextBook
          remaining := sweep.remaining - fillQty
          stats := sweep.stats.countFill
          emitted := sweep.emitted ++
            [{ event := fillEvent incoming
                (sweep.book.payload slot, fillQty.toNat)
               book := sweep.book }] } ∧
      sweep.book.Edited layout side price level slot nextBook nextLayout
        (front ++ kept ++ back) ∧
      (kept = [] ∨ kept = [slot]) ∧
      kept.map nextBook.payload =
        ((sweep.book.payload slot).afterFill fillQty).toList := by
  have member : slot ∈ layout.queue level := by simp [split]
  obtain ⟨node, stored, nodeEq⟩ := settled.queued_node member
  have levelStored := settled.record listed
  obtain ⟨edited, payload⟩ := OrderBook.takeQty_edited settled listed split fits
    stored levelStored rfl
  generalize takenEq : (sweep.book.setOrder slot
    { node with qty := node.qty - fillQty }).setLevel level _ = taken
    at edited payload
  have takenMember : slot ∈ layout.queue level := member
  obtain ⟨takenNode, takenStored, takenNodeEq⟩ :=
    edited.settled.queued_node takenMember
  rw [takenNodeEq] at payload
  have qtyEq : takenNode.qty = (sweep.book.payload slot).qty - fillQty :=
    congrArg Order.qty payload
  have run : sweep.applyFill slot level fillQty incoming =
      dropFilled
        { book := taken
          remaining := sweep.remaining - fillQty
          stats := sweep.stats.countFill
          emitted := sweep.emitted ++
            [{ event := fillEvent incoming
                (sweep.book.payload slot, fillQty.toNat)
               book := sweep.book }] } takenNode := by
    rw [applyFill, ObjectPool.read_eq stored, ok_bind]
    dsimp only
    rw [OrderBook.modifyBoth_eq stored levelStored, takenEq,
      ObjectPool.read_eq takenStored, ok_bind, fillEvent, nodeEq]
    simp
  by_cases empty : takenNode.qty = 0
  · have takenSplit : layout.queue level = front ++ slot :: back := split
    have takenListed := edited.listed (by simp) listed
    obtain ⟨next, cancelled, cancelEdited⟩ :=
      OrderBook.cancelOrder_queued edited.settled takenListed takenSplit
    rw [takenNodeEq] at cancelled
    refine ⟨next, layout.cancelled level slot, [], ?_, ?_, .inl rfl, ?_⟩
    · rw [run, dropFilled, if_pos empty]
      change (taken.cancelOrder _ >>= _) = _
      rewrite [cancelled]
      rfl
    · rw [List.append_nil]
      exact edited.trans (by simp) cancelEdited
    · rw [Order.afterFill, if_pos (qtyEq ▸ empty)]
      rfl
  · refine ⟨taken, layout, [slot], ?_, edited, .inr rfl, ?_⟩
    · rewrite [run, dropFilled, if_neg empty]
      rfl
    · rw [Order.afterFill, if_neg (qtyEq ▸ empty), List.map_singleton,
        takenNodeEq, payload]
      rfl

theorem total_singleton (grant : Grant) : total [grant] = grant.2 := by
  simp

/-- A fill is progress by one grant, made to an order of the given level. -/
theorem applyFill_spec (incoming : Order) (settled : sweep.book.Settled layout)
    (listed : sweep.book.Listed side price level)
    (split : layout.queue level = front ++ slot :: back)
    (fits : fillQty.toNat ≤ (sweep.book.payload slot).size)
    (remains : fillQty.toNat ≤ sweep.remaining.toNat)
    (trades : tradable incoming (sweep.book.payload slot) = true)
    (served : 0 < (sweep.book.payload slot).size → 0 < fillQty.toNat) :
    ∃ next nextLayout kept,
      sweep.applyFill slot level fillQty incoming = .ok next ∧
      sweep.book.Edited layout side price level slot next.book nextLayout
        (front ++ kept ++ back) ∧
      (kept = [] ∨ kept = [slot]) ∧
      Progress false incoming (atPlace side price) .countFill
        [(sweep.book.payload slot, fillQty.toNat)] sweep next := by
  have member : slot ∈ layout.queue level := by simp [split]
  have placed := settled.placed listed member
  obtain ⟨nextBook, nextLayout, kept, run, edited, keptCases, keptEq⟩ :=
    applyFill_run incoming settled listed split fits
  have eventQty : (fillEvent incoming
      (sweep.book.payload slot, fillQty.toNat)).qty = fillQty := by
    apply UInt32.toNat_inj.mp
    simp [fillEvent]
  refine ⟨_, nextLayout, kept, run, edited, keptCases, ?_, ?_, ?_, ?_, ?_⟩
  · rw [total_singleton]
    change (sweep.remaining - fillQty).toNat + fillQty.toNat = _
    rw [UInt32.toNat_sub_of_le _ _ (UInt32.le_iff_toNat_le.mpr remains)]
    omega
  · have viewEq := edited.view_alter settled listed split rfl keptEq
    rw [if_neg Bool.false_ne_true]
    change nextBook.view = sweep.book.view.applyFill _
    rw [viewEq, Market.applyFill, eventQty]
    rfl
  · rw [if_neg Bool.false_ne_true]
  · refine ⟨_, rfl, ?_, rfl⟩
    intro emission emissionMember
    rw [List.mem_singleton.mp emissionMember]
    refine ⟨⟨layout, settled⟩, rfl, sweep.book.payload slot, ?_,
      ⟨placed.2, placed.1⟩, trades, rfl, rfl, ?_, ?_⟩
    · exact settled.rests_view.mpr ⟨level, slot, member, rfl⟩
    · change (fillEvent incoming
        (sweep.book.payload slot, fillQty.toNat)).qty.toNat ≤ _
      rw [eventQty]
      exact fits
    · change _ → 0 < (fillEvent incoming
        (sweep.book.payload slot, fillQty.toNat)).qty.toNat
      rw [eventQty]
      exact served
  · intro isDry
    cases isDry

end Fill

end Sweep

/-- What a walk over the queue of one level keeps: every other level, and the
other entries of the level's price map. -/
structure LevelState (start : OrderBook sizes) (startLayout : Layout sizes)
    (side : Side) (price : Int64) (level : LevelSlot sizes)
    (before after : List (Int64 × LevelSlot sizes)) (book : OrderBook sizes)
    (layout : Layout sizes) : Prop where
  settled : book.Settled layout
  others : ∀ other, other ≠ level →
    layout.queue other = startLayout.queue other
  payload : ∀ other, other ≠ level → ∀ slot ∈ startLayout.queue other,
    book.payload slot = start.payload slot
  apart : ∀ entry ∈ before ++ after, entry.2 ≠ level
  entries : ∃ here, (here = [] ∨ here = [(price, level)]) ∧
    (book.priceMap side).entries = before ++ here ++ after

namespace LevelState

variable {start book next : OrderBook sizes}
variable {startLayout layout nextLayout : Layout sizes}
variable {side : Side} {price : Int64} {level : LevelSlot sizes}
variable {slot : OrderSlot sizes} {queue : List (OrderSlot sizes)}
variable {before after : List (Int64 × LevelSlot sizes)}

theorem refl (settled : book.Settled layout)
    (split : (book.priceMap side).entries = before ++ (price, level) :: after) :
    LevelState book layout side price level before after book layout where
  settled := settled
  others _ _ := rfl
  payload _ _ _ _ := rfl
  apart := settled.split_apart split
  entries := ⟨[(price, level)], .inr rfl, by simp [split]⟩

theorem edited
    (state : LevelState start startLayout side price level before after book
      layout)
    (listed : book.Listed side price level) (member : slot ∈ layout.queue level)
    (edited : book.Edited layout side price level slot next nextLayout queue) :
    LevelState start startLayout side price level before after next
      nextLayout where
  settled := edited.settled
  others other differs := by
    rw [edited.others other differs, state.others other differs]
  payload other differs current currentMember := by
    rw [← state.payload other differs current currentMember]
    apply edited.payload
    rintro rfl
    rw [← state.others other differs] at currentMember
    exact state.settled.queue_disjoint differs member currentMember
  apart := state.apart
  entries := by
    obtain ⟨here, hereCases, entriesEq⟩ := state.entries
    have present : here = [(price, level)] := by
      rcases hereCases with rfl | present
      · rw [OrderBook.Listed, entriesEq, List.append_nil] at listed
        exact absurd rfl (state.apart _ listed)
      · exact present
    rw [present, List.append_assoc, List.singleton_append] at entriesEq
    rw [edited.map]
    by_cases empty : queue = []
    · refine ⟨[], .inl rfl, ?_⟩
      rw [if_pos empty, SortedMap.erase_of_split entriesEq, List.append_nil]
    · refine ⟨[(price, level)], .inr rfl, ?_⟩
      rw [if_neg empty, entriesEq, List.append_assoc, List.singleton_append]

theorem after_orders
    (state : LevelState start startLayout side price level before after book
      layout)
    {entries : List (Int64 × LevelSlot sizes)}
    (listed : ∀ entry ∈ entries, entry ∈ before ++ after) :
    entries.map (fun entry =>
      (entry.1, (layout.queue entry.2).map book.payload)) =
      entries.map fun entry =>
        (entry.1, (startLayout.queue entry.2).map start.payload) := by
  apply List.map_congr_left
  intro entry member
  have differs := state.apart entry (listed entry member)
  rw [state.others entry.2 differs]
  congr 1
  apply List.map_congr_left
  intro current currentMember
  exact state.payload entry.2 differs current currentMember

end LevelState

end Hydra
