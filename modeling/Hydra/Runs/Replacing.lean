import Hydra.Market.Replacing
import Hydra.Runs.Matching

/-!
# Replacements in a trading session

A replaced order rests again, is filled or is discarded in front of orders of
its own client; otherwise it was stranded, and it is lost.  The order book of
the production build is full of levels after one run of calls, and then a
replacement loses an order.
-/

namespace Hydra

open Allocation

variable {sizes : PoolSizes}

namespace OrderBook

/-- The best price of a side. -/
def bestPrice (book : OrderBook sizes) : Side → Option Int64
  | .buy => book.bestBid
  | .sell => book.bestAsk

/-- No level slot is free, the order shares its level, its side has no level
at the new price, and the best price of the other side does not cross it. -/
def Strands (book : OrderBook sizes) (orderId : UInt64) (newPrice : Int64) :
    Prop :=
  ∃ entry record, book.orderIndex orderId = some entry ∧
    book.levelPool.object? entry.level = some record ∧
    1 < record.orderCount ∧
    book.levelPool.freeSlots = [] ∧
    (book.priceMap (book.payload entry.order).side).find? newPrice = none ∧
    ∀ price,
      book.bestPrice (book.payload entry.order).side.opposite = some price →
      crosses price { book.payload entry.order with price := newPrice } = false

/-- The order rests on the given side and price, for its old client and under
its old terms, with the quantity `left`. -/
def RestsAgain (book : OrderBook sizes) (existing : Order) (newPrice : Int64)
    (left : Nat) : Prop :=
  ∃ entry, book.orderIndex existing.orderId = some entry ∧
    book.Listed existing.side newPrice entry.level ∧
    entry.order ∈ book.queue entry.level ∧
    (book.payload entry.order).side = existing.side ∧
    (book.payload entry.order).clientId = existing.clientId ∧
    (book.payload entry.order).tif = existing.tif ∧
    (book.payload entry.order).price = newPrice ∧
    (book.payload entry.order).qty.toNat = left ∧ 0 < left

/-- At the new price the order would cross the best opposite level, all of
whose orders are of its own client. -/
def OwnBlocks (book : OrderBook sizes) (existing : Order) (newPrice : Int64) :
    Prop :=
  ∃ price level,
    book.bestPrice existing.side.opposite = some price ∧
    book.Listed existing.side.opposite price level ∧
    crosses price { existing with price := newPrice } = true ∧
    ∀ slot ∈ book.queue level,
      (book.payload slot).clientId = existing.clientId

end OrderBook

/-- One of the three holds and the others do not. -/
def ExactlyOne (first second third : Prop) : Prop :=
  (first ∧ ¬ second ∧ ¬ third) ∨ (¬ first ∧ second ∧ ¬ third) ∨
    (¬ first ∧ ¬ second ∧ third)

namespace MatchResult

/-- The total quantity of the reported fills. -/
def filled (result : MatchResult sizes) : Nat :=
  (result.emitted.map fun emission => emission.event.qty.toNat).sum

/-- The replaced order rests again, was filled or was discarded. -/
def KeepsOrder (result : MatchResult sizes) (existing : Order)
    (newPrice : Int64) (newQty : UInt32) : Prop :=
  ExactlyOne
    (result.book.RestsAgain existing newPrice
      (newQty.toNat - result.filled))
    (result.filled = newQty.toNat ∧
      result.book.findOrder existing.orderId = none)
    (result.filled < newQty.toNat ∧
      result.book.findOrder existing.orderId = none ∧
      result.book.OwnBlocks existing newPrice)

end MatchResult

namespace OrderBook

variable {book : OrderBook sizes} {layout : Layout sizes}
variable {existing : Order} {newPrice : Int64}

theorem bestPrice_view (book : OrderBook sizes) (side : Side) :
    book.view.best? side = book.bestPrice side := by
  have keys : ∀ side, book.view.best? side =
      (book.priceMap side).entries.head?.map Prod.fst := by
    intro side
    change ((book.priceMap side).entries.map _).head?.map Prod.fst = _
    cases (book.priceMap side).entries <;> rfl
  rw [keys]
  cases side <;> rfl

theorem Settled.strands_iff (settled : book.Settled layout)
    {orderId : UInt64} {entry : Entry sizes}
    (indexed : book.orderIndex orderId = some entry) :
    book.Strands orderId newPrice ↔
      book.view.Strands sizes (book.payload entry.order) newPrice := by
  obtain ⟨side, price, front, back, listed, split, sameId⟩ :=
    settled.locate indexed
  have member : entry.order ∈ layout.queue entry.level := by simp [split]
  obtain ⟨priceEq, sideEq⟩ := settled.placed listed member
  have stored := settled.record listed
  have counted : (1 < (book.levelRecord price
      (layout.queue entry.level)).orderCount) ↔
      1 < (layout.queue entry.level).length := by
    have few := settled.queue_length_le entry.level
    have word : (UInt32.ofNat (layout.queue entry.level).length).toNat =
        (layout.queue entry.level).length :=
      UInt32.toNat_ofNat_of_lt' (Nat.lt_of_le_of_lt few sizes.orders_lt)
    change 1 < UInt32.ofNat (layout.queue entry.level).length ↔ _
    rw [UInt32.lt_iff_toNat_lt, word]
    rfl
  have shared : book.view.Shares (book.payload entry.order) ↔
      1 < (layout.queue entry.level).length := by
    have queueListed : (price, (layout.queue entry.level).map book.payload) ∈
        (book.view.ladder side).entries := by
      rw [settled.view_entries]
      exact List.mem_map.mpr ⟨_, listed, rfl⟩
    rw [Market.Shares, priceEq, sideEq, Market.queueAt_eq queueListed,
      List.length_map]
  have full : book.levelPool.freeSlots = [] ↔
      sizes.levels ≤ book.view.levelCount := by
    rw [settled.levels_free.freeSlots_eq, settled.freeLevels_eq_nil]
  have unlisted : (book.priceMap (book.payload entry.order).side).find?
        newPrice = none ↔
      (book.view.ladder (book.payload entry.order).side).find? newPrice =
        none := by
    have found : (book.view.ladder (book.payload entry.order).side).find?
        newPrice = ((book.priceMap (book.payload entry.order).side).find?
          newPrice).map book.queueOrders := SortedMap.find?_mapValues _ _ _
    simp [found]
  have unblocked : (∀ best, book.bestPrice
        (book.payload entry.order).side.opposite = some best →
        crosses best { book.payload entry.order with price := newPrice } =
          false) ↔
      book.view.blocks { book.payload entry.order with price := newPrice } =
        false := by
    rw [← bestPrice_view, Market.blocks]
    cases book.view.best? (book.payload entry.order).side.opposite <;> simp
  constructor
  · intro strands
    obtain ⟨other, record, otherIndexed, recordStored, many, rest⟩ := strands
    rw [indexed] at otherIndexed
    obtain rfl := Option.some.inj otherIndexed
    rw [stored] at recordStored
    obtain rfl := Option.some.inj recordStored
    exact ⟨full.mp rest.1, shared.mpr (counted.mp many),
      unlisted.mp rest.2.1, unblocked.mp rest.2.2⟩
  · intro strands
    exact ⟨entry, _, indexed, stored, counted.mpr (shared.mp strands.shares),
      full.mpr strands.full, unlisted.mpr strands.unlisted,
      unblocked.mpr strands.unblocked⟩

theorem Settled.restsAgain (settled : book.Settled layout) {order : Order}
    (found : book.view.find? existing.orderId = some order)
    (sidePrice : order.price = newPrice ∧ order.side = existing.side)
    (terms : order.clientId = existing.clientId ∧ order.tif = existing.tif)
    (positive : 0 < order.size) :
    book.RestsAgain existing newPrice order.size := by
  rw [settled.find?_view, findOrder, Option.map_map] at found
  obtain ⟨entry, indexed, payloadEq⟩ := Option.map_eq_some_iff.mp found
  obtain ⟨side, price, front, back, listed, split, _⟩ :=
    settled.locate indexed
  have member : entry.order ∈ layout.queue entry.level := by simp [split]
  obtain ⟨priceEq, sideEq⟩ := settled.placed listed member
  have payloadEq : book.payload entry.order = order := payloadEq
  rw [payloadEq] at priceEq sideEq
  refine ⟨entry, indexed, ?_, ?_, ?_, ?_, ?_, ?_, ?_, positive⟩
  · rw [← sidePrice.1, ← sidePrice.2, priceEq, sideEq]
    exact listed
  · rw [settled.queue_eq listed]
    exact member
  · rw [payloadEq, sidePrice.2]
  · rw [payloadEq, terms.1]
  · rw [payloadEq, terms.2]
  · rw [payloadEq, sidePrice.1]
  · rw [payloadEq]
    rfl

theorem Settled.findOrder_eq_none (settled : book.Settled layout)
    {orderId : UInt64} (absent : book.view.find? orderId = none) :
    book.findOrder orderId = none := by
  rw [settled.find?_view] at absent
  simpa using absent

theorem not_restsAgain (absent : book.findOrder existing.orderId = none)
    (left : Nat) : ¬ book.RestsAgain existing newPrice left := by
  intro rests
  obtain ⟨entry, indexed, _⟩ := rests
  rw [findOrder, indexed] at absent
  cases absent

theorem Settled.ownBlocks (settled : book.Settled layout) {price : Int64}
    (best : book.view.best? existing.side.opposite = some price)
    (crossing : crosses price { existing with price := newPrice } = true)
    (own : ∀ order ∈ book.view.queueAt existing.side.opposite price,
      order.clientId = existing.clientId) :
    book.OwnBlocks existing newPrice := by
  have listed := Market.best?_listed best
  have found : (book.view.ladder existing.side.opposite).find? price =
      ((book.priceMap existing.side.opposite).find? price).map
        book.queueOrders := SortedMap.find?_mapValues _ _ _
  rw [found] at listed
  obtain ⟨level, levelFound⟩ :=
    Option.isSome_iff_exists.mp ((Option.isSome_map ..).symm.trans listed)
  have levelListed : book.Listed existing.side.opposite price level :=
    settled.find?_eq.mp levelFound
  refine ⟨price, level, ?_, levelListed, crossing, ?_⟩
  · rw [← bestPrice_view, best]
  · intro slot member
    apply own
    rw [Market.queueAt, found, levelFound]
    exact List.mem_map_of_mem member

end OrderBook

namespace MatchResult

variable {result : MatchResult sizes} {layout : Layout sizes}
variable {market : Market} {existing : Order} {newPrice : Int64}
variable {newQty : UInt32}

theorem filled_eq (result : MatchResult sizes) :
    result.filled = result.outcome.filled := by
  rw [filled, Outcome.filled, outcome, List.map_map]
  rfl

theorem keepsOrder_iff (settled : result.book.Settled layout)
    (fate : market.Fate sizes existing newPrice newQty result.outcome)
    (positive : newQty ≠ 0) :
    result.KeepsOrder existing newPrice newQty ↔
      ¬ market.Strands sizes existing newPrice := by
  have someQty : 0 < newQty.toNat :=
    UInt32.lt_iff_toNat_lt.mp (UInt32.pos_iff_ne_zero.mpr positive)
  rw [KeepsOrder, ExactlyOne, filled_eq]
  cases fate with
  | rests order notStranded found samePrice sameSide sameClient sameTif
      someLeft conserved =>
      have again := settled.restsAgain found ⟨samePrice, sameSide⟩
        ⟨sameClient, sameTif⟩ someLeft
      have left : newQty.toNat - result.outcome.filled = order.size := by omega
      have present : result.book.findOrder existing.orderId ≠ none := by
        intro absent
        exact OrderBook.not_restsAgain absent _ again
      rw [left]
      simp [again, present, notStranded]
  | filled notStranded absent all =>
      have gone := settled.findOrder_eq_none absent
      simp [OrderBook.not_restsAgain gone, gone, all, notStranded]
  | discarded price notStranded absent short best crossing own =>
      have gone := settled.findOrder_eq_none absent
      have blocks := settled.ownBlocks best crossing own
      have notAll : result.outcome.filled ≠ newQty.toNat := by omega
      simp [OrderBook.not_restsAgain gone, gone, short, notAll, blocks,
        notStranded]
  | stranded strands absent nothing unblocked =>
      have gone := settled.findOrder_eq_none absent
      have open_side : ¬ result.book.OwnBlocks existing newPrice := by
        intro blocks
        obtain ⟨price, level, best, _, crossing, _⟩ := blocks
        rw [← OrderBook.bestPrice_view] at best
        have blocked : result.book.view.blocks
            { existing with price := newPrice } = true :=
          Market.blocks_eq_true.mpr ⟨price, best, crossing⟩
        have unblocked : result.book.view.blocks
            { existing with price := newPrice } = false := unblocked
        rw [unblocked] at blocked
        cases blocked
      simp [OrderBook.not_restsAgain gone, gone, nothing, Nat.ne_of_lt someQty,
        open_side, strands]

end MatchResult

namespace Matcher

variable {matcher : Matcher sizes}

theorem replace_result (reachable : (trading sizes).Reachable matcher)
    (load : Nat → MatchingMode) {orderId : UInt64}
    {slot : OrderSlot sizes}
    (rests : matcher.book.findOrder orderId = some slot) (newPrice : Int64)
    {newQty : UInt32} (positive : newQty ≠ 0) :
    ∃ result, matcher.book.replace load orderId newPrice newQty = .ok result ∧
      (matcher.book.payload slot).orderId = orderId ∧
      result.book.WellFormed ∧
      (matcher.book.Strands orderId newPrice ↔ matcher.book.view.Strands sizes
        (matcher.book.payload slot) newPrice) ∧
      matcher.book.view.Fate sizes (matcher.book.payload slot) newPrice newQty
        result.outcome := by
  obtain ⟨layout, settled⟩ := trading_wellFormed reachable
  have sound := trading_sound reachable
  obtain ⟨entry, indexed, rfl⟩ := Option.map_eq_some_iff.mp rests
  have sameId := ((settled.index orderId entry).mp indexed).2
  obtain ⟨result, run, wellFormed, viewEq, fillsEq, statsEq, _⟩ :=
    OrderBook.replace_spec load orderId newPrice newQty settled
  have found : matcher.book.view.find?
      (matcher.book.payload entry.order).orderId =
        some (matcher.book.payload entry.order) := by
    rw [sameId, settled.find?_view, rests]
    rfl
  have fate := @Market.replace_fate sizes matcher.book.view
    (matcher.book.payload entry.order) newPrice newQty sound (load 0) found
    settled.orderCount_le settled.levelCount_le positive
  have outcomeEq : result.outcome = matcher.book.view.replace sizes (load 0)
      (matcher.book.payload entry.order).orderId newPrice newQty := by
    rw [MatchResult.outcome, viewEq, fillsEq, statsEq, sameId]
  rw [← outcomeEq] at fate
  exact ⟨result, run, sameId, wellFormed, settled.strands_iff indexed, fate⟩

/-- A replacement keeps the order exactly when the order is not stranded. -/
theorem replace_keeps_iff (reachable : (trading sizes).Reachable matcher)
    (load : Nat → MatchingMode) {orderId : UInt64}
    {slot : OrderSlot sizes}
    (rests : matcher.book.findOrder orderId = some slot) (newPrice : Int64)
    {newQty : UInt32} (positive : newQty ≠ 0) :
    ∃ result, matcher.book.replace load orderId newPrice newQty = .ok result ∧
      (result.KeepsOrder (matcher.book.payload slot) newPrice newQty ↔
        ¬ matcher.book.Strands orderId newPrice) := by
  obtain ⟨result, run, _, ⟨layout, settled⟩, strandsIff, fate⟩ :=
    replace_result reachable load rests newPrice positive
  refine ⟨result, run, ?_⟩
  rw [strandsIff]
  exact result.keepsOrder_iff settled fate positive

theorem replace_keeps_iff_session :
    ∃ slot, session.book.findOrder 1 = some slot ∧
      ∃ result, session.book.replace session.load 1 105 4 = .ok result ∧
        (result.KeepsOrder (session.book.payload slot) 105 4 ↔
          ¬ session.book.Strands 1 105) :=
  ⟨_, rfl, replace_keeps_iff session_reachable session.load rfl 105
    (by decide)⟩

/-- An order of a crowded book: one buy order at each of as many prices as
there are level slots, and one more at the last of these prices. -/
def crowdOrder (number price : Nat) : Order :=
  { (default : Order) with
    orderId := .ofNat number
    clientId := .ofNat number
    price := .ofNat price
    qty := 10 }

def crowdCalls (count : Nat) : List Call :=
  (List.range count).map fun index =>
    .matchOrder (crowdOrder (index + 1) (index + 1))

/-- The market after the first calls. -/
def crowdMarket : Nat → Market
  | 0 => .empty
  | count + 1 =>
      (crowdMarket count).insert (crowdOrder (count + 1) (count + 1))

/-- What is known of the market after the first calls. -/
structure Crowded (count : Nat) (market : Market) : Prop where
  sound : market.Sound
  asks : market.best? .sell = none
  orders : market.orderCount = count
  levels : market.levelCount = count
  rests : ∀ order, market.Rests order ↔
    ∃ index < count, order = crowdOrder (index + 1) (index + 1)

theorem crowdId_ne {left right : Nat} (leftSmall : left < 2 ^ 32)
    (rightSmall : right < 2 ^ 32) (differs : left ≠ right) (price other : Nat) :
    (crowdOrder left price).orderId ≠ (crowdOrder right other).orderId := by
  intro same
  apply differs
  have leftWord : (UInt64.ofNat left).toNat = left :=
    UInt64.toNat_ofNat_of_lt' (Nat.lt_trans leftSmall (by decide))
  have rightWord : (UInt64.ofNat right).toNat = right :=
    UInt64.toNat_ofNat_of_lt' (Nat.lt_trans rightSmall (by decide))
  have sameWord := congrArg UInt64.toNat same
  change (UInt64.ofNat left).toNat = (UInt64.ofNat right).toNat at sameWord
  omega

theorem crowdPrice_ne {left right : Nat} (leftSmall : left < 2 ^ 32)
    (rightSmall : right < 2 ^ 32) (differs : left ≠ right) :
    Int64.ofNat left ≠ Int64.ofNat right := by
  intro same
  apply differs
  have sameWord := congrArg Int64.toInt same
  rw [Int64.toInt_ofNat_of_lt (by omega),
    Int64.toInt_ofNat_of_lt (by omega)] at sameWord
  omega

section Crowd

variable {count number price : Nat} {market : Market}

theorem Crowded.absent (crowded : Crowded count market)
    (larger : count < number) (small : number < 2 ^ 32) :
    market.find? (crowdOrder number price).orderId = none := by
  rw [crowded.sound.find?_eq_none_iff]
  intro order rests
  obtain ⟨index, below, rfl⟩ := (crowded.rests order).mp rests
  exact crowdId_ne (by omega) small (by omega) _ _

theorem Crowded.unlisted (crowded : Crowded count market)
    (larger : count < price) (small : price < 2 ^ 32) :
    (market.ladder .buy).find? (Int64.ofNat price) = none := by
  rw [SortedMap.find?_eq_none_iff]
  intro queue listed
  obtain ⟨order, queued⟩ :=
    List.exists_mem_of_ne_nil _ (crowded.sound.populated listed)
  have rests := (crowded.sound.mem_orders_iff.mp
    (Market.mem_orders.mpr ⟨_, _, listed, queued⟩)).1
  have priceEq := (crowded.sound.placed listed queued).1
  obtain ⟨index, below, rfl⟩ := (crowded.rests order).mp rests
  exact crowdPrice_ne (by omega) small (by omega) priceEq

theorem Crowded.unblocked (crowded : Crowded count market) :
    market.blocks (crowdOrder number price) = false :=
  Market.blocks_best?_eq_none crowded.asks

theorem Crowded.matchOrder (crowded : Crowded count market)
    (mode : MatchingMode) (few : count < configSizes.orders)
    (larger : count < number) (small : number < 2 ^ 32)
    (room : ((market.ladder .buy).find? (Int64.ofNat price)).isSome ∨
      count < configSizes.levels) :
    (market.matchOrder configSizes mode (crowdOrder number price)).market =
      market.insert (crowdOrder number price) := by
  have positive : (0 : UInt32) < 10 := by decide
  apply (Market.matchOrder_rests crowded.sound mode
    (crowded.absent larger small) rfl positive crowded.unblocked
    ⟨?_, ?_⟩).1
  · rw [crowded.orders]
    exact few
  · rw [crowded.levels]
    exact room

theorem crowdMarket_crowded (fits : count ≤ configSizes.levels) :
    Crowded count (crowdMarket count) := by
  induction count with
  | zero =>
      refine ⟨Market.empty_sound, rfl, rfl, rfl, ?_⟩
      intro order
      simp [crowdMarket, Market.Rests, Market.orders, Market.empty]
  | succ count induction =>
      have crowded := induction (by omega)
      have capacity : configSizes.levels = 4096 := rfl
      have orders : configSizes.orders = 65536 := rfl
      have inserted := @Crowded.matchOrder count (count + 1) (count + 1)
        (crowdMarket count) crowded .priceTime (by omega) (by omega) (by omega)
        (.inr (by omega))
      have sound :=
        @Market.Sound.matchOrder configSizes _ crowded.sound .priceTime
        (crowdOrder (count + 1) (count + 1))
      rw [inserted] at sound
      refine ⟨sound, ?_, ?_, ?_, ?_⟩
      · have asks := crowded.asks
        rw [Market.best?] at asks ⊢
        rw [crowdMarket, Market.insert_ladder_of_ne (by simp [crowdOrder])]
        exact asks
      · rw [crowdMarket, Market.orderCount_insert, crowded.orders]
      · rw [crowdMarket, Market.levelCount_insert, crowded.levels, if_pos]
        exact crowded.unlisted (by omega) (by omega)
      · intro order
        rw [crowdMarket, Market.rests_insert, crowded.rests]
        constructor
        · intro rests
          rcases rests with ⟨index, below, rfl⟩ | rfl
          · exact ⟨index, by omega, rfl⟩
          · exact ⟨count, by omega, rfl⟩
        · intro rests
          obtain ⟨index, below, rfl⟩ := rests
          by_cases last : index = count
          · subst last
            exact .inr rfl
          · exact .inl ⟨index, by omega, rfl⟩

theorem crowdCalls_venue (fits : count ≤ configSizes.levels) :
    (crowdCalls count).foldl (Venue.after configSizes)
        { market := .empty, mode := .priceTime } =
      { market := crowdMarket count, mode := .priceTime } := by
  induction count with
  | zero => rfl
  | succ count induction =>
      have crowded := @crowdMarket_crowded count (by omega)
      have capacity : configSizes.levels = 4096 := rfl
      have orders : configSizes.orders = 65536 := rfl
      have inserted := @Crowded.matchOrder count (count + 1) (count + 1)
        (crowdMarket count) crowded .priceTime (by omega) (by omega) (by omega)
        (.inr (by omega))
      rw [crowdCalls, List.range_succ, List.map_append, List.foldl_append]
      change Venue.after configSizes ((crowdCalls count).foldl _ _) _ = _
      rw [induction (by omega), crowdMarket, ← inserted]
      rfl

theorem Crowded.last (crowded : Crowded count market) (positive : 0 < count) :
    market.Rests (crowdOrder count count) := by
  rw [crowded.rests]
  refine ⟨count - 1, by omega, ?_⟩
  rw [Nat.sub_add_cancel positive]

/-- One more order at the last price of a full crowd strands the order that
was there. -/
theorem Crowded.strands {count : Nat} {market : Market}
    (crowded : Crowded count market) (full : configSizes.levels ≤ count)
    (small : count + 1 < 2 ^ 32)
    (last : market.Rests (crowdOrder count count)) :
    (market.insert (crowdOrder (count + 1) count)).Strands configSizes
      (crowdOrder count count) (.ofNat (count + 1)) where
  full := by
    rw [Market.levelCount_insert, crowded.levels]
    omega
  shares := by
    have queued : crowdOrder count count ∈
        market.queueAt .buy (.ofNat count) :=
      crowded.sound.mem_queueAt_iff.mpr ⟨last, rfl, rfl⟩
    have joined : (market.insert (crowdOrder (count + 1) count)).queueAt .buy
        (.ofNat count) = market.queueAt .buy (.ofNat count) ++
          [crowdOrder (count + 1) count] := Market.queueAt_insert_self
    have nonempty := List.length_pos_of_mem queued
    change 1 < List.length (Market.queueAt _ .buy (.ofNat count))
    rw [joined, List.length_append]
    exact Nat.lt_add_of_pos_left nonempty
  unlisted := by
    have unlisted := @Crowded.unlisted count (count + 1) market crowded
      (by omega) small
    have differs : Int64.ofNat (count + 1) ≠
        (crowdOrder (count + 1) count).price :=
      crowdPrice_ne small (by omega) (Nat.succ_ne_self count)
    change ((market.insert (crowdOrder (count + 1) count)).ladder
      (crowdOrder (count + 1) count).side).find? (.ofNat (count + 1)) = none
    rw [Market.insert_ladder_self, SortedMap.find?_upsert_of_ne _ differs]
    exact unlisted
  unblocked := by
    apply Market.blocks_best?_eq_none
    have asks := crowded.asks
    change Market.best? _ .sell = none
    rw [Market.best?] at asks ⊢
    rw [Market.insert_ladder_of_ne (by simp [crowdOrder])]
    exact asks

/-- The calls of a crowd with company at its last price. -/
def fullCalls (count : Nat) : List Call :=
  crowdCalls count ++ [.matchOrder (crowdOrder (count + 1) count)]

theorem fullCalls_run (fits : count ≤ configSizes.levels)
    (positive : 0 < count) :
    ∃ matcher, (start .priceTime).run (fullCalls count) = .ok matcher ∧
      (trading configSizes).Reachable matcher ∧
      matcher.book.view = (crowdMarket count).insert
        (crowdOrder (count + 1) count) := by
  have trades : ∀ call ∈ fullCalls count, call.Trades := by
    intro call member
    rw [fullCalls, List.mem_append, List.mem_singleton] at member
    rcases member with early | rfl
    · obtain ⟨index, _, rfl⟩ := List.mem_map.mp early
      trivial
    · trivial
  have start_reachable : (trading configSizes).Reachable (start .priceTime) :=
    .initial ⟨.priceTime, rfl⟩
  obtain ⟨matcher, ran, reachable⟩ := run_spec trades start_reachable
  refine ⟨matcher, ran, reachable, ?_⟩
  have crowded := crowdMarket_crowded fits
  have capacity : configSizes.levels = 4096 := rfl
  have orders : configSizes.orders = 65536 := rfl
  obtain ⟨queue, listed, _⟩ := Market.mem_queueAt.mp
    (crowded.sound.mem_queueAt_iff.mpr ⟨crowded.last positive, rfl, rfl⟩)
  have lastListed : ((crowdMarket count).ladder .buy).find? (.ofNat count) =
      some queue := SortedMap.find?_eq_some_iff.mpr listed
  have inserted := @Crowded.matchOrder count (count + 1) count _ crowded
    .priceTime (by omega) (by omega) (by omega)
    (.inl (by rw [lastListed]; rfl))
  have venueEq := run_venue trades start_reachable ran
  have startVenue : (start .priceTime : Matcher configSizes).venue =
      { market := .empty, mode := .priceTime } := by
    rw [venue]
    congr
    exact OrderBook.view_empty
  rw [startVenue, fullCalls, List.foldl_append, crowdCalls_venue fits]
    at venueEq
  rw [← inserted]
  exact congrArg Venue.market venueEq

/-- Moving the last order of a full crowd by one tick loses it. -/
theorem fullCalls_loses (full : count = configSizes.levels) :
    ∃ matcher slot result,
      (start .priceTime).run (fullCalls count) = .ok matcher ∧
      (trading configSizes).Reachable matcher ∧
      matcher.book.findOrder (.ofNat count) = some slot ∧
      matcher.book.replace matcher.load (.ofNat count) (.ofNat (count + 1)) 10 =
        .ok result ∧
      result.filled = 0 ∧ result.book.findOrder (.ofNat count) = none ∧
      ¬ result.KeepsOrder (matcher.book.payload slot) (.ofNat (count + 1))
        10 := by
  have capacity : configSizes.levels = 4096 := rfl
  have crowded := @crowdMarket_crowded count (by omega)
  have rests := crowded.last (by omega)
  obtain ⟨matcher, ran, reachable, viewEq⟩ :=
    @fullCalls_run count (by omega) (by omega)
  have strands := crowded.strands (by omega) (by omega) rests
  rw [← viewEq] at strands
  obtain ⟨layout, settled⟩ := trading_wellFormed reachable
  have found : matcher.book.view.find? (.ofNat count) =
      some (crowdOrder count count) := by
    apply settled.view_valid.find?_eq_some_iff.mpr
    rw [viewEq, Market.rests_insert]
    exact ⟨.inl rests, rfl⟩
  rw [settled.find?_view] at found
  obtain ⟨slot, indexed, payloadEq⟩ := Option.map_eq_some_iff.mp found
  have positive : (10 : UInt32) ≠ 0 := by decide
  obtain ⟨result, run, _, ⟨nextLayout, nextSettled⟩, _, fate⟩ :=
    replace_result reachable matcher.load indexed (.ofNat (count + 1)) positive
  have kept := result.keepsOrder_iff nextSettled fate positive
  rw [payloadEq] at kept fate
  have lost : result.filled = 0 ∧
      result.book.findOrder (.ofNat count) = none := by
    rw [MatchResult.filled_eq]
    cases fate with
    | rests order notStranded => exact absurd strands notStranded
    | filled notStranded => exact absurd strands notStranded
    | discarded price notStranded => exact absurd strands notStranded
    | stranded _ absent nothing _ =>
        exact ⟨nothing, nextSettled.findOrder_eq_none absent⟩
  refine ⟨matcher, slot, result, ran, reachable, indexed, run, lost.1, lost.2,
    ?_⟩
  rw [payloadEq, kept]
  exact not_not_intro strands

end Crowd

/-- With 4096 price levels in use, and two orders at the last of them, moving
one of the two to the next price loses it. -/
theorem replace_loses_order :
    ∃ matcher slot result,
      (start .priceTime).run (fullCalls 4096) = .ok matcher ∧
      (trading configSizes).Reachable matcher ∧
      matcher.book.findOrder (.ofNat 4096) = some slot ∧
      matcher.book.replace matcher.load (.ofNat 4096) (.ofNat 4097) 10 =
        .ok result ∧
      result.filled = 0 ∧ result.book.findOrder (.ofNat 4096) = none ∧
      ¬ result.KeepsOrder (matcher.book.payload slot) (.ofNat 4097) 10 :=
  @fullCalls_loses 4096 rfl

end Matcher

end Hydra
