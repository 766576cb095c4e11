import Hydra.Market.Trading

/-!
# The renamed market

Ids are only compared with each other, prices only by their order, and time
stamps and client tags are carried along unread.  So a market may be given
other ids, other prices in the same order and any other stamps and tags:
whatever is done to the market is done to the renamed one by the renamed
request.
-/

namespace Hydra

open Allocation

/-- New ids, prices, time stamps and client tags.  The order of prices is kept
for those in `prices`. -/
structure Renaming where
  orderId : UInt64 → UInt64
  clientId : UInt64 → UInt64
  price : Int64 → Int64
  timestampNs : UInt64 → UInt64
  clientTag : Vector UInt8 32 → Vector UInt8 32
  prices : Set Int64
  orderId_injective : orderId.Injective
  clientId_injective : clientId.Injective
  price_lt : ∀ {left right}, left ∈ prices → right ∈ prices →
    (price left < price right ↔ left < right)

namespace Renaming

def order (names : Renaming) (order : Order) : Order :=
  { order with
    orderId := names.orderId order.orderId
    price := names.price order.price
    timestampNs := names.timestampNs order.timestampNs
    clientId := names.clientId order.clientId
    clientTag := names.clientTag order.clientTag }

def fill (names : Renaming) (fill : FillEvent) : FillEvent where
  makerOrderId := names.orderId fill.makerOrderId
  takerOrderId := names.orderId fill.takerOrderId
  price := names.price fill.price
  timestampNs := names.timestampNs fill.timestampNs
  qty := fill.qty

def grant (names : Renaming) (grant : Grant) : Grant :=
  Prod.map names.order id grant

def visit (names : Renaming) (visit : Visit) : Visit where
  visited := visit.visited.map names.order
  grants := visit.grants.map names.grant

variable {names : Renaming} {left right price : Int64}
variable {incoming : Order}

theorem better_iff (leftKept : left ∈ names.prices)
    (rightKept : right ∈ names.prices) (side : Side) :
    side.better (names.price left) (names.price right) ↔
      side.better left right := by
  cases side with
  | buy => exact names.price_lt rightKept leftKept
  | sell => exact names.price_lt leftKept rightKept

theorem price_le (leftKept : left ∈ names.prices)
    (rightKept : right ∈ names.prices) :
    names.price left ≤ names.price right ↔ left ≤ right := by
  rw [← Int64.not_lt, ← Int64.not_lt, names.price_lt rightKept leftKept]

theorem price_eq (leftKept : left ∈ names.prices)
    (rightKept : right ∈ names.prices) :
    names.price left = names.price right ↔ left = right := by
  constructor
  · intro same
    have below := price_le leftKept rightKept
    have above := price_le rightKept leftKept
    rw [same] at below above
    exact Int64.le_antisymm (below.mp (Int64.le_refl _))
      (above.mp (Int64.le_refl _))
  · exact congrArg names.price

theorem crosses_eq (kept : price ∈ names.prices)
    (limit : incoming.price ∈ names.prices) :
    crosses (names.price price) (names.order incoming) =
      crosses price incoming := by
  rw [Bool.eq_iff_iff, crosses, crosses]
  change (if incoming.side = .buy then
      decide (names.price price ≤ names.price incoming.price) else
      decide (names.price incoming.price ≤ names.price price)) = true ↔ _
  split
  next => simp only [decide_eq_true_eq, price_le kept limit]
  next => simp only [decide_eq_true_eq, price_le limit kept]

theorem isSelfTrade_eq (order incoming : Order) :
    OrderBook.isSelfTrade (names.order order) (names.order incoming) =
      OrderBook.isSelfTrade order incoming := by
  rw [Bool.eq_iff_iff, OrderBook.isSelfTrade, OrderBook.isSelfTrade,
    decide_eq_true_eq, decide_eq_true_eq]
  exact names.clientId_injective.eq_iff

end Renaming

/-- The other market is the renamed one. -/
def Market.Renames (names : Renaming) (market renamed : Market) : Prop :=
  ∀ side, (market.ladder side).Relabels names.price
    (List.map names.order) (renamed.ladder side)

/-- All resting orders have prices of the set. -/
def Market.PricedIn (market : Market) (prices : Set Int64) : Prop :=
  ∀ order, market.Rests order → order.price ∈ prices

namespace Market

variable {names : Renaming} {market renamed : Market} {side : Side}
variable {order incoming : Order}

theorem empty_renames (names : Renaming) : empty.Renames names empty :=
  fun _ => rfl

theorem Renames.orders (renames : market.Renames names renamed)
    (side : Side) :
    renamed.orders side = (market.orders side).map names.order := by
  rw [Market.orders, renames side, Market.orders, List.flatMap_map,
    List.map_flatMap]
  rfl

theorem Renames.find? (renames : market.Renames names renamed)
    (orderId : UInt64) :
    renamed.find? (names.orderId orderId) =
      (market.find? orderId).map names.order := by
  rw [Market.find?, renames.orders, renames.orders, ← List.map_append,
    List.find?_map, Market.find?]
  congr 2
  funext order
  exact decide_eq_decide.mpr names.orderId_injective.eq_iff

theorem Renames.best? (renames : market.Renames names renamed)
    (side : Side) :
    renamed.best? side = (market.best? side).map names.price := by
  rw [Market.best?, renames side, Market.best?, List.head?_map,
    Option.map_map, Option.map_map]
  rfl

theorem Renames.orderCount (renames : market.Renames names renamed) :
    renamed.orderCount = market.orderCount := by
  rw [Market.orderCount, renames.orders, renames.orders, List.length_map,
    List.length_map]
  rfl

theorem Renames.levelCount (renames : market.Renames names renamed) :
    renamed.levelCount = market.levelCount := by
  rw [Market.levelCount, renames .buy, renames .sell, List.length_map,
    List.length_map]
  rfl

theorem Renames.revise (renames : market.Renames names renamed)
    {change other : Order → Option Order}
    (changes : ∀ order,
      other (names.order order) = (change order).map names.order) :
    (market.revise change).Renames names (renamed.revise other) := by
  intro side
  apply (renames side).filterMap
  intro queue
  have kept : (queue.map names.order).filterMap other =
      (queue.filterMap change).map names.order := by
    rw [List.filterMap_map, List.map_filterMap]
    congr 1
    funext order
    exact changes order
  rw [reviseQueue, kept, reviseQueue]
  cases queue.filterMap change <;> rfl

theorem Renames.alter (renames : market.Renames names renamed)
    (orderId : UInt64) {change other : Order → Option Order}
    (changes : ∀ order,
      other (names.order order) = (change order).map names.order) :
    (market.alter orderId change).Renames names
      (renamed.alter (names.orderId orderId) other) := by
  apply renames.revise
  intro order
  have same : names.orderId order.orderId = names.orderId orderId ↔
      order.orderId = orderId :=
    names.orderId_injective.eq_iff
  change (if names.orderId order.orderId = _ then _ else _) = _
  simp only [same]
  split
  next => exact changes order
  next => rfl

theorem Renames.cancel (renames : market.Renames names renamed)
    (orderId : UInt64) :
    (market.cancel orderId).Renames names
      (renamed.cancel (names.orderId orderId)) :=
  renames.alter orderId fun _ => rfl

theorem Renames.setQty (renames : market.Renames names renamed)
    (orderId : UInt64) (qty : UInt32) :
    (market.setQty orderId qty).Renames names
      (renamed.setQty (names.orderId orderId) qty) :=
  renames.alter orderId fun _ => rfl

theorem Renames.applyFills (renames : market.Renames names renamed)
    (fills : List FillEvent) :
    (market.applyFills fills).Renames names
      (renamed.applyFills (fills.map names.fill)) := by
  induction fills generalizing market renamed with
  | nil => exact renames
  | cons fill rest induction =>
      apply induction
      apply renames.alter fill.makerOrderId
      intro order
      change (if order.qty - fill.qty = 0 then _ else _) = _
      rw [Order.afterFill]
      split <;> rfl

theorem PricedIn.keys {prices : Set Int64} (priced : market.PricedIn prices)
    (valid : market.Valid) {entry : Int64 × List Order}
    (listed : entry ∈ (market.ladder side).entries) : entry.1 ∈ prices := by
  obtain ⟨order, queued⟩ := List.exists_mem_of_ne_nil _
    (valid.populated listed)
  rw [← (valid.placed listed queued).1]
  apply priced
  exact (valid.mem_orders_iff.mp (mem_orders.mpr ⟨_, _, listed, queued⟩)).1

theorem Renames.hasRoom {sizes : PoolSizes}
    (renames : market.Renames names renamed) (valid : market.Valid)
    (priced : market.PricedIn names.prices)
    (limit : order.price ∈ names.prices) :
    renamed.HasRoom sizes (names.order order) ↔
      market.HasRoom sizes order := by
  have level := (renames order.side).find? fun entry listed =>
    names.price_eq (priced.keys valid listed) limit
  rw [HasRoom, HasRoom, renames.orderCount, renames.levelCount]
  change _ ∧ (((renamed.ladder order.side).find?
    (names.price order.price)).isSome = true ∨ _) ↔ _
  rw [level, Option.isSome_map]

theorem Renames.accepts {sizes : PoolSizes}
    (renames : market.Renames names renamed) (valid : market.Valid)
    (priced : market.PricedIn names.prices)
    (limit : order.price ∈ names.prices) :
    renamed.Accepts sizes (names.order order) ↔
      market.Accepts sizes order := by
  rw [Accepts, Accepts, renames.hasRoom valid priced limit]
  change renamed.find? (names.orderId order.orderId) = none ∧ _ ↔ _
  rw [renames.find?, Option.map_eq_none_iff]

theorem PricedIn.changed {prices : Set Int64} {next : Market}
    (priced : market.PricedIn prices) (changed : market.Changed next) :
    next.PricedIn prices := by
  intro order rests
  obtain ⟨old, oldRests, terms, _⟩ := changed.rests rests
  have oldPriced := priced old oldRests
  rw [terms]
  exact oldPriced

theorem PricedIn.moves {prices : Set Int64} {next : Market}
    (priced : market.PricedIn prices) (limit : incoming.price ∈ prices)
    (moves : Moves incoming market next) : next.PricedIn prices := by
  cases moves with
  | settled changed => exact priced.changed changed
  | arrived changed =>
      intro order rests
      rcases rests_insert.mp rests with old | rfl
      · exact priced.changed changed order old
      · exact limit

theorem Renames.insert (renames : market.Renames names renamed)
    (valid : market.Valid) (priced : market.PricedIn names.prices)
    (limit : order.price ∈ names.prices) :
    (market.insert order).Renames names
      (renamed.insert (names.order order)) := by
  intro side
  by_cases own : side = order.side
  · subst own
    rw [insert_ladder_self]
    change (_ : SortedMap _ _).Relabels _ _
      ((renamed.insert (names.order order)).ladder
        (names.order order).side)
    rw [insert_ladder_self]
    apply (renames order.side).upsert
    · intro entry listed
      exact names.price_eq (priced.keys valid listed) limit
    · intro entry listed
      have key := priced.keys valid listed
      exact ⟨names.better_iff limit key _, names.better_iff key limit _⟩
    · intro found
      cases found with
      | none => rfl
      | some queue =>
          change queue.map _ ++ [names.order order] =
            (queue ++ [order]).map _
          rw [List.map_append]
          rfl
  · have other : side ≠ (names.order order).side := own
    rw [insert_ladder_of_ne own, insert_ladder_of_ne other]
    exact renames side

end Market

namespace Renaming

section Sweeps

variable {names : Renaming} {mode : MatchingMode} {incoming : Order}
variable {amount : Nat} {entries : List (Int64 × List Order)}

theorem eligible_map (incoming : Order) (queue : List Order) :
    eligible (names.order incoming) (queue.map names.order) =
      (eligible incoming queue).map names.order := by
  rw [eligible, List.filter_map, eligible]
  congr 2
  funext order
  exact congrArg not (isSelfTrade_eq order incoming)

theorem visitedOrders_map (incoming : Order) (amount : Nat)
    (queue : List Order) :
    visitedOrders (names.order incoming) amount
        (queue.map names.order) =
      (visitedOrders incoming amount queue).map names.order := by
  induction queue generalizing amount with
  | nil => rfl
  | cons order rest induction =>
      have trades : tradable (names.order incoming)
          (names.order order) = tradable incoming order :=
        congrArg not (isSelfTrade_eq order incoming)
      rw [List.map_cons, visitedOrders, visitedOrders, induction, induction,
        trades]
      change (if amount = 0 then _ else if tradable incoming order = true then
        _ else _) = _
      split
      next => rfl
      next => split <;> rfl

theorem total_map (grants : List Grant) :
    total (grants.map names.grant) = total grants := by
  rw [total, List.map_map, total]
  rfl

theorem levelVisit_eq (mode : MatchingMode) (incoming : Order)
    (amount : Nat) (queue : List Order) :
    levelVisit mode (names.order incoming) amount
        (queue.map names.order) =
      names.visit (levelVisit mode incoming amount queue) := by
  cases mode with
  | priceTime =>
      rw [levelVisit, levelVisit, eligible_map, visitedOrders_map, greedy_map]
      rfl
  | proRata =>
      simp only [levelVisit, eligible_map, proportional_map, demand_map,
        List.filter_map]
      rfl

theorem sweepLadder_map (limit : incoming.price ∈ names.prices)
    (kept : ∀ entry ∈ entries, entry.1 ∈ names.prices) :
    sweepLadder mode (names.order incoming) amount
        (entries.map (Prod.map names.price (List.map names.order))) =
      (sweepLadder mode incoming amount entries).map names.visit := by
  induction entries generalizing amount with
  | nil => rfl
  | cons entry rest induction =>
      have later := fun amount => @induction amount fun other member =>
        kept other (List.mem_cons_of_mem _ member)
      have crossing := crosses_eq (kept entry List.mem_cons_self) limit
      rw [List.map_cons, sweepLadder, sweepLadder]
      change (if amount ≠ 0 ∧
          crosses (names.price entry.1) (names.order incoming) = true
        then levelVisit mode (names.order incoming) amount
            (entry.2.map names.order) ::
          sweepLadder mode (names.order incoming) (amount - total
            (levelVisit mode (names.order incoming) amount
              (entry.2.map names.order)).grants) _
        else []) = _
      rw [levelVisit_eq, crossing, later]
      change (if _ then _ :: (sweepLadder _ _ (amount - total (List.map _ _))
        _).map _ else []) = _
      rw [total_map]
      split <;> rfl

theorem allGrants_map (visits : List Visit) :
    allGrants (visits.map names.visit) =
      (allGrants visits).map names.grant := by
  rw [allGrants, List.flatMap_map, allGrants, List.map_flatMap]
  rfl

theorem fillEvents_map (incoming : Order) (grants : List Grant) :
    (grants.map names.grant).map (fillEvent (names.order incoming)) =
      (grants.map (fillEvent incoming)).map names.fill := by
  rw [List.map_map, List.map_map]
  rfl

theorem chargeVisits_map (incoming : Order) (visits : List Visit)
    (stats : MatchStats) :
    MatchStats.chargeVisits (names.order incoming)
        (visits.map names.visit) stats =
      MatchStats.chargeVisits incoming visits stats := by
  have charged : ∀ stats visit,
      MatchStats.chargeVisit (names.order incoming) stats
        (names.visit visit) =
      MatchStats.chargeVisit incoming stats visit := by
    intro stats visit
    have skipped : (visit.visited.map names.order).filter
          (fun order =>
            OrderBook.isSelfTrade order (names.order incoming)) =
        (visit.visited.filter fun order =>
          OrderBook.isSelfTrade order incoming).map names.order := by
      rw [List.filter_map]
      congr 2
      funext order
      exact isSelfTrade_eq order incoming
    simp only [MatchStats.chargeVisit, MatchStats.charge, Renaming.visit,
      eligible_map, skipped, List.length_map]
  rw [MatchStats.chargeVisits, List.foldl_map]
  simp only [charged]
  rfl

end Sweeps

end Renaming

/-- The outcome is the one on the renamed market. -/
structure Outcome.Renames (names : Renaming) (outcome renamed : Outcome) :
    Prop where
  market : outcome.market.Renames names renamed.market
  fills : renamed.fills = outcome.fills.map names.fill
  stats : renamed.stats = outcome.stats

namespace Market

variable {sizes : PoolSizes} {mode : MatchingMode} {names : Renaming}
variable {market renamed : Market} {incoming : Order}

theorem Renames.sweep (renames : market.Renames names renamed)
    (valid : market.Valid) (priced : market.PricedIn names.prices)
    (limit : incoming.price ∈ names.prices) :
    renamed.sweep mode (names.order incoming) =
      (market.sweep mode incoming).map names.visit := by
  change sweepLadder mode (names.order incoming) incoming.size
    (renamed.ladder incoming.side.opposite).entries = _
  rw [renames incoming.side.opposite]
  exact names.sweepLadder_map limit fun entry listed =>
    priced.keys valid listed

theorem Renames.blocks (renames : market.Renames names renamed)
    (valid : market.Valid) (priced : market.PricedIn names.prices)
    (limit : incoming.price ∈ names.prices) :
    renamed.blocks (names.order incoming) = market.blocks incoming := by
  have best : renamed.best? (names.order incoming).side.opposite =
      (market.best? incoming.side.opposite).map names.price :=
    renames.best? incoming.side.opposite
  rw [Market.blocks, best, Market.blocks]
  cases found : market.best? incoming.side.opposite with
  | none => rfl
  | some price =>
      obtain ⟨order, listed, rfl⟩ := valid.best?_order found
      have rests := (valid.mem_orders_iff.mp listed).1
      exact names.crosses_eq (priced order rests) limit

theorem Renames.rest (renames : market.Renames names renamed)
    (valid : market.Valid) (priced : market.PricedIn names.prices)
    (limit : incoming.price ∈ names.prices) (remaining : Nat) :
    (market.rest sizes incoming remaining).Renames names
      (renamed.rest sizes (names.order incoming) remaining) := by
  let remainder : Order := { incoming with qty := .ofNat remaining }
  have accepts := @Renames.accepts _ _ _ remainder sizes renames valid priced
    limit
  have renamedRests : ((names.order incoming).tif = .gtc ∧ 0 < remaining ∧
      renamed.blocks (names.order incoming) = false) ↔
      incoming.tif = .gtc ∧ 0 < remaining ∧ market.blocks incoming = false := by
    rw [renames.blocks valid priced limit]
    exact Iff.rfl
  rw [Market.rest, Market.rest]
  by_cases rests : incoming.tif = .gtc ∧ 0 < remaining ∧
      market.blocks incoming = false
  · rw [if_pos rests, if_pos (renamedRests.mpr rests)]
    change (market.add sizes remainder).Renames names
      (renamed.add sizes (names.order remainder))
    rw [add, add]
    by_cases accepted : market.Accepts sizes remainder
    · rw [if_pos accepted, if_pos (accepts.mpr accepted)]
      exact renames.insert valid priced limit
    · rw [if_neg accepted, if_neg fun other => accepted (accepts.mp other)]
      exact renames
  · rw [if_neg rests, if_neg fun other => rests (renamedRests.mp other)]
    exact renames

theorem Renames.rejects (renames : market.Renames names renamed)
    (valid : market.Valid) (priced : market.PricedIn names.prices)
    (limit : incoming.price ∈ names.prices) :
    renamed.Rejects mode (names.order incoming) ↔
      market.Rejects mode incoming := by
  rw [Rejects, Rejects, renames.sweep valid priced limit,
    names.allGrants_map, names.total_map]
  change renamed.find? (names.orderId incoming.orderId) ≠ none ∨ _ ↔ _
  rw [renames.find?, ne_eq, Option.map_eq_none_iff]
  exact Iff.rfl

theorem Renames.commitMatch (renames : market.Renames names renamed)
    (valid : market.Valid) (priced : market.PricedIn names.prices)
    (limit : incoming.price ∈ names.prices) :
    (market.commitMatch sizes mode incoming).Renames names
      (renamed.commitMatch sizes mode (names.order incoming)) := by
  have sweep := @Renames.sweep mode names market renamed incoming renames
    valid priced limit
  have grants : allGrants (renamed.sweep mode (names.order incoming)) =
      (allGrants (market.sweep mode incoming)).map names.grant := by
    rw [sweep, names.allGrants_map]
  have fills : (allGrants (renamed.sweep mode (names.order incoming))).map
      (fillEvent (names.order incoming)) =
      ((allGrants (market.sweep mode incoming)).map
        (fillEvent incoming)).map names.fill := by
    rw [grants, names.fillEvents_map]
  have remaining : (names.order incoming).size -
      total (allGrants (renamed.sweep mode (names.order incoming))) =
      incoming.size - total (allGrants (market.sweep mode incoming)) := by
    rw [grants, names.total_map]
    rfl
  have changed := changed_applyFills valid
    ((allGrants (market.sweep mode incoming)).map (fillEvent incoming))
  constructor
  case market =>
    change Renames _ _ (Market.rest _ (renamed.applyFills _) _ _)
    rw [fills, remaining]
    exact (renames.applyFills _).rest (changed.valid valid)
      (priced.changed changed) limit _
  case fills => exact fills
  case stats =>
    rw [Market.commitMatch, Market.commitMatch]
    dsimp only
    rw [remaining, sweep, names.chargeVisits_map]

/-- Matching on the renamed market is matching, renamed. -/
theorem Renames.matchOrder (renames : market.Renames names renamed)
    (valid : market.Valid) (priced : market.PricedIn names.prices)
    (limit : incoming.price ∈ names.prices) :
    (market.matchOrder sizes mode incoming).Renames names
      (renamed.matchOrder sizes mode (names.order incoming)) := by
  have rejects := @Renames.rejects mode names market renamed incoming
    renames valid priced limit
  rw [Market.matchOrder, Market.matchOrder]
  by_cases refused : market.Rejects mode incoming
  · rw [if_pos refused, if_pos (rejects.mpr refused)]
    exact ⟨renames, rfl, rfl⟩
  · rw [if_neg refused, if_neg fun other => refused (rejects.mp other)]
    exact renames.commitMatch valid priced limit

/-- Replacing on the renamed market is replacing, renamed. -/
theorem Renames.replace (renames : market.Renames names renamed)
    (valid : market.Valid) (priced : market.PricedIn names.prices)
    (orderId : UInt64) {newPrice : Int64}
    (limit : newPrice ∈ names.prices) (newQty : UInt32) :
    (market.replace sizes mode orderId newPrice newQty).Renames names
      (renamed.replace sizes mode (names.orderId orderId)
        (names.price newPrice) newQty) := by
  rw [Market.replace, Market.replace, renames.find?]
  cases found : market.find? orderId with
  | none => exact ⟨renames, rfl, rfl⟩
  | some existing =>
      have rests := (valid.find?_eq_some_iff.mp found).1
      have keepsPlace : (names.price newPrice =
            (names.order existing).price ∧
          newQty ≤ (names.order existing).qty) ↔
          newPrice = existing.price ∧ newQty ≤ existing.qty :=
        and_congr (names.price_eq limit (priced existing rests)) Iff.rfl
      rw [Option.map_some]
      dsimp only
      by_cases zero : newQty = 0
      · rw [if_pos zero, if_pos zero]
        exact ⟨renames.cancel orderId, rfl, rfl⟩
      · rw [if_neg zero, if_neg zero]
        by_cases keeps : newPrice = existing.price ∧ newQty ≤ existing.qty
        · rw [if_pos keeps, if_pos (keepsPlace.mpr keeps)]
          exact ⟨renames.setQty orderId newQty, rfl, rfl⟩
        · rw [if_neg keeps, if_neg fun other => keeps (keepsPlace.mp other)]
          exact (renames.cancel orderId).matchOrder (valid.cancel orderId)
            (priced.changed (changed_cancel market orderId)) limit

end Market

end Hydra
