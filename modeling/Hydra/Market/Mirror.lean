import Hydra.Market.Trading

/-!
# The mirrored market

Swapping the sides and negating all prices turns a market into its mirror
image: what was the best bid is the best ask.  Negation reverses the order of
all prices but the least one, which has no negation; with that price excluded,
whatever is done to a market is done to its mirror image by the mirrored
request.
-/

namespace Hydra

open Allocation

/-- The price has a negation. -/
def Negatable (price : Int64) : Prop := Int64.minValue < price

def Order.mirror (order : Order) : Order :=
  { order with
    side := order.side.opposite
    price := -order.price }

def FillEvent.mirror (fill : FillEvent) : FillEvent :=
  { fill with price := -fill.price }

/-- The other market is the mirror image. -/
def Market.Mirrors (market mirrored : Market) : Prop :=
  ∀ side, (market.ladder side.opposite).Relabels (fun price => -price)
    (List.map Order.mirror) (mirrored.ladder side)

section Prices

variable {left right price : Int64} {incoming : Order}

theorem Negatable.toInt_neg (negatable : Negatable price) :
    (-price).toInt = -price.toInt := by
  have above := Int64.lt_iff_toInt_lt.mp negatable
  have below := price.toInt_lt
  rw [Int64.toInt_minValue] at above
  rw [Int64.toInt_neg, Int.bmod_eq_of_le]
  · omega
  · omega

theorem better_neg (leftNegatable : Negatable left)
    (rightNegatable : Negatable right) (side : Side) :
    side.better (-left) (-right) ↔ side.opposite.better left right := by
  rw [Side.better_iff, Side.better_iff, leftNegatable.toInt_neg,
    rightNegatable.toInt_neg]
  cases side <;> simp only [Side.opposite] <;> omega

theorem crosses_mirror (negatable : Negatable price)
    (limit : Negatable incoming.price) :
    crosses (-price) incoming.mirror = crosses price incoming := by
  have limitPrice : incoming.mirror.price.toInt = -incoming.price.toInt :=
    limit.toInt_neg
  have side : incoming.mirror.side = incoming.side.opposite := rfl
  rw [Bool.eq_iff_iff, crosses_iff, crosses_iff, side, limitPrice,
    negatable.toInt_neg]
  cases incoming.side <;> simp only [Side.opposite] <;> omega

end Prices

@[simp] theorem Order.mirror_mirror (order : Order) :
    order.mirror.mirror = order := by
  simp [mirror]

theorem Order.mirror_injective : Function.Injective Order.mirror :=
  Function.LeftInverse.injective Order.mirror_mirror

theorem neg_injective : Function.Injective fun price : Int64 => -price :=
  fun _ _ => Int64.neg_inj.mp

namespace Market

variable {market mirrored : Market} {side : Side} {order incoming : Order}

theorem empty_mirrors : empty.Mirrors empty := fun _ => rfl

theorem Mirrors.orders (mirrors : market.Mirrors mirrored) (side : Side) :
    mirrored.orders side = (market.orders side.opposite).map Order.mirror := by
  rw [Market.orders, mirrors side, Market.orders, List.flatMap_map,
    List.map_flatMap]
  rfl

theorem Mirrors.rests (mirrors : market.Mirrors mirrored) :
    mirrored.Rests order.mirror ↔ market.Rests order := by
  rw [Rests, mirrors.orders]
  change order.mirror ∈ (market.orders order.side.opposite.opposite).map _ ↔ _
  rw [Side.opposite_opposite, List.mem_map_of_injective Order.mirror_injective]
  exact Iff.rfl

theorem Mirrors.find? (mirrors : market.Mirrors mirrored)
    (valid : market.Valid) (otherValid : mirrored.Valid) (orderId : UInt64) :
    mirrored.find? orderId = (market.find? orderId).map Order.mirror := by
  cases found : market.find? orderId with
  | none =>
      apply otherValid.find?_eq_none_iff.mpr
      intro order rests
      rw [← order.mirror_mirror, mirrors.rests] at rests
      exact valid.find?_eq_none_iff.mp found order.mirror rests
  | some order =>
      obtain ⟨rests, sameId⟩ := valid.find?_eq_some_iff.mp found
      exact otherValid.find?_eq_some_iff.mpr ⟨mirrors.rests.mpr rests, sameId⟩

theorem Mirrors.best? (mirrors : market.Mirrors mirrored) (side : Side) :
    mirrored.best? side =
      (market.best? side.opposite).map fun price => -price := by
  rw [Market.best?, mirrors side, Market.best?, List.head?_map,
    Option.map_map, Option.map_map]
  rfl

theorem Mirrors.orderCount (mirrors : market.Mirrors mirrored) :
    mirrored.orderCount = market.orderCount := by
  rw [Market.orderCount, mirrors.orders, mirrors.orders, List.length_map,
    List.length_map, Nat.add_comm]
  rfl

theorem Mirrors.levelCount (mirrors : market.Mirrors mirrored) :
    mirrored.levelCount = market.levelCount := by
  rw [Market.levelCount, mirrors .buy, mirrors .sell, List.length_map,
    List.length_map, Nat.add_comm]
  rfl

theorem Mirrors.hasRoom {sizes : PoolSizes}
    (mirrors : market.Mirrors mirrored) (order : Order) :
    mirrored.HasRoom sizes order.mirror ↔ market.HasRoom sizes order := by
  have apart (price : Int64) : -price = -order.price ↔ price = order.price :=
    neg_injective.eq_iff
  have level := (mirrors order.side.opposite).find?
    fun entry _ => apart entry.1
  rw [Side.opposite_opposite] at level
  rw [HasRoom, HasRoom, mirrors.orderCount, mirrors.levelCount]
  change _ ∧ (((mirrored.ladder order.side.opposite).find?
    (-order.price)).isSome = true ∨ _) ↔ _
  rw [level, Option.isSome_map]

theorem Mirrors.revise (mirrors : market.Mirrors mirrored)
    {change other : Order → Option Order}
    (changes : ∀ order, other order.mirror = (change order).map Order.mirror) :
    (market.revise change).Mirrors (mirrored.revise other) := by
  intro side
  apply (mirrors side).filterMap
  intro queue
  have kept : (queue.map Order.mirror).filterMap other =
      (queue.filterMap change).map Order.mirror := by
    rw [List.filterMap_map, List.map_filterMap]
    congr 1
    funext order
    exact changes order
  rw [reviseQueue, kept, reviseQueue]
  cases queue.filterMap change <;> rfl

theorem Mirrors.alter (mirrors : market.Mirrors mirrored) (orderId : UInt64)
    {change other : Order → Option Order}
    (changes : ∀ order, other order.mirror = (change order).map Order.mirror) :
    (market.alter orderId change).Mirrors (mirrored.alter orderId other) := by
  apply mirrors.revise
  intro order
  change (if order.orderId = orderId then _ else _) = _
  split
  next => exact changes order
  next => rfl

theorem Mirrors.cancel (mirrors : market.Mirrors mirrored)
    (orderId : UInt64) :
    (market.cancel orderId).Mirrors (mirrored.cancel orderId) :=
  mirrors.alter orderId fun _ => rfl

theorem Mirrors.setQty (mirrors : market.Mirrors mirrored)
    (orderId : UInt64) (qty : UInt32) :
    (market.setQty orderId qty).Mirrors (mirrored.setQty orderId qty) :=
  mirrors.alter orderId fun _ => rfl

theorem Mirrors.applyFills (mirrors : market.Mirrors mirrored)
    (fills : List FillEvent) :
    (market.applyFills fills).Mirrors
      (mirrored.applyFills (fills.map FillEvent.mirror)) := by
  induction fills generalizing market mirrored with
  | nil => exact mirrors
  | cons fill rest induction =>
      apply induction
      apply mirrors.alter fill.makerOrderId
      intro order
      change (if order.qty - fill.qty = 0 then _ else _) = _
      rw [Order.afterFill]
      split <;> rfl

/-- All resting orders have prices that can be negated. -/
def AllNegatable (market : Market) : Prop :=
  ∀ order, market.Rests order → Negatable order.price

theorem AllNegatable.keys (negatable : market.AllNegatable)
    (valid : market.Valid) {entry : Int64 × List Order}
    (listed : entry ∈ (market.ladder side).entries) : Negatable entry.1 := by
  obtain ⟨order, queued⟩ := List.exists_mem_of_ne_nil _
    (valid.populated listed)
  rw [← (valid.placed listed queued).1]
  apply negatable
  exact (valid.mem_orders_iff.mp (mem_orders.mpr ⟨_, _, listed, queued⟩)).1

theorem Mirrors.insert (mirrors : market.Mirrors mirrored)
    (valid : market.Valid) (negatable : market.AllNegatable)
    (limit : Negatable order.price) :
    (market.insert order).Mirrors (mirrored.insert order.mirror) := by
  intro side
  by_cases own : side.opposite = order.side
  · have sideEq : side = order.mirror.side := by
      change side = order.side.opposite
      rw [← own, Side.opposite_opposite]
    rw [own, sideEq, insert_ladder_self, insert_ladder_self]
    have relabels := mirrors order.mirror.side
    change ((market.ladder order.side.opposite.opposite)).Relabels _ _ _
      at relabels
    rw [Side.opposite_opposite] at relabels
    apply relabels.upsert
    · intro entry _
      exact neg_injective.eq_iff
    · intro entry listed
      have key := negatable.keys valid listed
      have forward := better_neg limit key order.side.opposite
      have backward := better_neg key limit order.side.opposite
      rw [Side.opposite_opposite] at forward backward
      exact ⟨forward, backward⟩
    · intro found
      cases found with
      | none => rfl
      | some queue =>
          change queue.map _ ++ [order.mirror] = (queue ++ [order]).map _
          rw [List.map_append]
          rfl
  · have other : side ≠ order.mirror.side := by
      intro same
      apply own
      rw [same]
      exact order.side.opposite_opposite
    rw [insert_ladder_of_ne own, insert_ladder_of_ne other]
    exact mirrors side

end Market

def Grant.mirror (grant : Grant) : Grant := Prod.map Order.mirror id grant

def Visit.mirror (visit : Visit) : Visit where
  visited := visit.visited.map Order.mirror
  grants := visit.grants.map Grant.mirror

section Sweeps

variable {mode : MatchingMode} {incoming : Order} {amount : Nat}
variable {queue : List Order} {entries : List (Int64 × List Order)}

theorem eligible_mirror (incoming : Order) (queue : List Order) :
    eligible incoming.mirror (queue.map Order.mirror) =
      (eligible incoming queue).map Order.mirror := by
  rw [eligible, List.filter_map]
  rfl

theorem visitedOrders_mirror (incoming : Order) (amount : Nat)
    (queue : List Order) :
    visitedOrders incoming.mirror amount (queue.map Order.mirror) =
      (visitedOrders incoming amount queue).map Order.mirror := by
  induction queue generalizing amount with
  | nil => rfl
  | cons order rest induction =>
      rw [List.map_cons, visitedOrders, visitedOrders, induction, induction]
      change (if amount = 0 then _ else if tradable incoming order = true then
        _ else _) = _
      split
      next => rfl
      next => split <;> rfl

theorem total_mirror (grants : List Grant) :
    total (grants.map Grant.mirror) = total grants := by
  rw [total, List.map_map, total]
  rfl

theorem levelVisit_mirror (mode : MatchingMode) (incoming : Order)
    (amount : Nat) (queue : List Order) :
    levelVisit mode incoming.mirror amount (queue.map Order.mirror) =
      (levelVisit mode incoming amount queue).mirror := by
  cases mode with
  | priceTime =>
      rw [levelVisit, levelVisit, eligible_mirror, visitedOrders_mirror,
        greedy_map]
      rfl
  | proRata =>
      simp only [levelVisit, eligible_mirror, proportional_map, demand_map,
        List.filter_map]
      rfl

theorem sweepLadder_mirror (limit : Negatable incoming.price)
    (negatable : ∀ entry ∈ entries, Negatable entry.1) :
    sweepLadder mode incoming.mirror amount
        (entries.map (Prod.map (fun price => -price) (List.map Order.mirror))) =
      (sweepLadder mode incoming amount entries).map Visit.mirror := by
  induction entries generalizing amount with
  | nil => rfl
  | cons entry rest induction =>
      have later := fun amount => @induction amount fun other member =>
        negatable other (List.mem_cons_of_mem _ member)
      have crossing := crosses_mirror (negatable entry List.mem_cons_self) limit
      rw [List.map_cons, sweepLadder, sweepLadder]
      change (if amount ≠ 0 ∧ crosses (-entry.1) incoming.mirror = true then
        levelVisit mode incoming.mirror amount (entry.2.map Order.mirror) ::
          sweepLadder mode incoming.mirror (amount - total (levelVisit mode
            incoming.mirror amount (entry.2.map Order.mirror)).grants) _
        else []) = _
      rw [levelVisit_mirror, crossing, later]
      change (if _ then _ :: (sweepLadder _ _ (amount - total (List.map _ _))
        _).map _ else []) = _
      rw [total_mirror]
      split <;> rfl

theorem allGrants_mirror (visits : List Visit) :
    allGrants (visits.map Visit.mirror) =
      (allGrants visits).map Grant.mirror := by
  rw [allGrants, List.flatMap_map, allGrants, List.map_flatMap]
  rfl

theorem fillEvents_mirror (incoming : Order) (grants : List Grant) :
    (grants.map Grant.mirror).map (fillEvent incoming.mirror) =
      (grants.map (fillEvent incoming)).map FillEvent.mirror := by
  rw [List.map_map, List.map_map]
  rfl

theorem chargeVisits_mirror (incoming : Order) (visits : List Visit)
    (stats : MatchStats) :
    MatchStats.chargeVisits incoming.mirror (visits.map Visit.mirror) stats =
      MatchStats.chargeVisits incoming visits stats := by
  have charged : ∀ stats visit,
      MatchStats.chargeVisit incoming.mirror stats (Visit.mirror visit) =
        MatchStats.chargeVisit incoming stats visit := by
    intro stats visit
    simp only [MatchStats.chargeVisit, MatchStats.charge, Visit.mirror,
      eligible_mirror, List.length_map, List.filter_map]
    rfl
  rw [MatchStats.chargeVisits, List.foldl_map]
  simp only [charged]
  rfl

end Sweeps

/-- The outcome is the one on the mirror image. -/
structure Outcome.Mirrors (outcome mirrored : Outcome) : Prop where
  market : outcome.market.Mirrors mirrored.market
  fills : mirrored.fills = outcome.fills.map FillEvent.mirror
  stats : mirrored.stats = outcome.stats

namespace Market

variable {sizes : PoolSizes} {mode : MatchingMode}
variable {market mirrored : Market} {incoming : Order}

theorem Mirrors.sweep (mirrors : market.Mirrors mirrored)
    (valid : market.Valid) (negatable : market.AllNegatable)
    (limit : Negatable incoming.price) :
    mirrored.sweep mode incoming.mirror =
      (market.sweep mode incoming).map Visit.mirror := by
  have entries := mirrors incoming.mirror.side.opposite
  rw [Side.opposite_opposite] at entries
  change sweepLadder mode incoming.mirror incoming.size
    (mirrored.ladder incoming.mirror.side.opposite).entries = _
  rw [entries]
  exact sweepLadder_mirror limit fun entry listed =>
    negatable.keys valid listed

theorem Mirrors.blocks (mirrors : market.Mirrors mirrored)
    (valid : market.Valid) (negatable : market.AllNegatable)
    (limit : Negatable incoming.price) :
    mirrored.blocks incoming.mirror = market.blocks incoming := by
  have best := mirrors.best? incoming.mirror.side.opposite
  rw [Side.opposite_opposite] at best
  change _ = Option.map _ (market.best? incoming.side.opposite) at best
  rw [Market.blocks, best, Market.blocks]
  cases found : market.best? incoming.side.opposite with
  | none => rfl
  | some price =>
      obtain ⟨order, listed, rfl⟩ := valid.best?_order found
      have rests := (valid.mem_orders_iff.mp listed).1
      exact crosses_mirror (negatable order rests) limit

theorem Mirrors.rest (mirrors : market.Mirrors mirrored)
    (valid : market.Valid) (otherValid : mirrored.Valid)
    (negatable : market.AllNegatable) (limit : Negatable incoming.price)
    (remaining : Nat) :
    (market.rest sizes incoming remaining).Mirrors
      (mirrored.rest sizes incoming.mirror remaining) := by
  let remainder : Order := { incoming with qty := .ofNat remaining }
  have accepts : mirrored.Accepts sizes remainder.mirror ↔
      market.Accepts sizes remainder := by
    have found := mirrors.find? valid otherValid incoming.orderId
    rw [Accepts, Accepts, mirrors.hasRoom]
    change mirrored.find? incoming.orderId = none ∧ _ ↔
      market.find? incoming.orderId = none ∧ _
    rw [found, Option.map_eq_none_iff]
  have mirrorRests : (incoming.mirror.tif = .gtc ∧ 0 < remaining ∧
      mirrored.blocks incoming.mirror = false) ↔
      incoming.tif = .gtc ∧ 0 < remaining ∧ market.blocks incoming = false := by
    rw [mirrors.blocks valid negatable limit]
    exact Iff.rfl
  rw [Market.rest, Market.rest]
  by_cases rests : incoming.tif = .gtc ∧ 0 < remaining ∧
      market.blocks incoming = false
  · rw [if_pos rests, if_pos (mirrorRests.mpr rests)]
    change (market.add sizes remainder).Mirrors
      (mirrored.add sizes remainder.mirror)
    rw [add, add]
    by_cases accepted : market.Accepts sizes remainder
    · rw [if_pos accepted, if_pos (accepts.mpr accepted)]
      exact mirrors.insert valid negatable limit
    · rw [if_neg accepted, if_neg fun other => accepted (accepts.mp other)]
      exact mirrors
  · rw [if_neg rests, if_neg fun other => rests (mirrorRests.mp other)]
    exact mirrors

theorem AllNegatable.changed {next : Market} (negatable : market.AllNegatable)
    (changed : market.Changed next) : next.AllNegatable := by
  intro order rests
  obtain ⟨old, oldRests, terms, _⟩ := changed.rests rests
  have oldNegatable := negatable old oldRests
  rw [terms]
  exact oldNegatable

theorem AllNegatable.moves {next : Market} (negatable : market.AllNegatable)
    (limit : Negatable incoming.price) (moves : Moves incoming market next) :
    next.AllNegatable := by
  cases moves with
  | settled changed => exact negatable.changed changed
  | arrived changed =>
      intro order rests
      rcases rests_insert.mp rests with old | rfl
      · exact negatable.changed changed order old
      · exact limit

theorem Mirrors.rejects (mirrors : market.Mirrors mirrored)
    (valid : market.Valid) (otherValid : mirrored.Valid)
    (negatable : market.AllNegatable) (limit : Negatable incoming.price) :
    mirrored.Rejects mode incoming.mirror ↔ market.Rejects mode incoming := by
  have found := mirrors.find? valid otherValid incoming.orderId
  rw [Rejects, Rejects, mirrors.sweep valid negatable limit, allGrants_mirror,
    total_mirror]
  change mirrored.find? incoming.orderId ≠ none ∨ _ ↔
    market.find? incoming.orderId ≠ none ∨ _
  rw [found, ne_eq, Option.map_eq_none_iff]
  exact Iff.rfl

theorem Mirrors.commitMatch (mirrors : market.Mirrors mirrored)
    (valid : market.Valid) (otherValid : mirrored.Valid)
    (negatable : market.AllNegatable) (limit : Negatable incoming.price) :
    (market.commitMatch sizes mode incoming).Mirrors
      (mirrored.commitMatch sizes mode incoming.mirror) := by
  have sweep := @Mirrors.sweep mode market mirrored incoming mirrors valid
    negatable limit
  have grants : allGrants (mirrored.sweep mode incoming.mirror) =
      (allGrants (market.sweep mode incoming)).map Grant.mirror := by
    rw [sweep, allGrants_mirror]
  have fills : (allGrants (mirrored.sweep mode incoming.mirror)).map
      (fillEvent incoming.mirror) =
      ((allGrants (market.sweep mode incoming)).map
        (fillEvent incoming)).map FillEvent.mirror := by
    rw [grants, fillEvents_mirror]
  have remaining : incoming.mirror.size -
      total (allGrants (mirrored.sweep mode incoming.mirror)) =
      incoming.size - total (allGrants (market.sweep mode incoming)) := by
    rw [grants, total_mirror]
    rfl
  have changed := changed_applyFills valid
    ((allGrants (market.sweep mode incoming)).map (fillEvent incoming))
  constructor
  case market =>
    change Mirrors _ (Market.rest _ (mirrored.applyFills _) _ _)
    rw [fills, remaining]
    apply (mirrors.applyFills _).rest (changed.valid valid)
      (otherValid.applyFills _) (negatable.changed changed) limit
  case fills => exact fills
  case stats =>
    rw [Market.commitMatch, Market.commitMatch]
    dsimp only
    rw [remaining, sweep, chargeVisits_mirror]

/-- Matching on the mirror image is matching, mirrored. -/
theorem Mirrors.matchOrder (mirrors : market.Mirrors mirrored)
    (valid : market.Valid) (otherValid : mirrored.Valid)
    (negatable : market.AllNegatable) (limit : Negatable incoming.price) :
    (market.matchOrder sizes mode incoming).Mirrors
      (mirrored.matchOrder sizes mode incoming.mirror) := by
  have rejects := @Mirrors.rejects mode market mirrored incoming mirrors valid
    otherValid negatable limit
  rw [Market.matchOrder, Market.matchOrder]
  by_cases refused : market.Rejects mode incoming
  · rw [if_pos refused, if_pos (rejects.mpr refused)]
    exact ⟨mirrors, rfl, rfl⟩
  · rw [if_neg refused, if_neg fun other => refused (rejects.mp other)]
    exact mirrors.commitMatch valid otherValid negatable limit

/-- Replacing on the mirror image is replacing, mirrored. -/
theorem Mirrors.replace (mirrors : market.Mirrors mirrored)
    (valid : market.Valid) (otherValid : mirrored.Valid)
    (negatable : market.AllNegatable) (orderId : UInt64) {newPrice : Int64}
    (limit : Negatable newPrice) (newQty : UInt32) :
    (market.replace sizes mode orderId newPrice newQty).Mirrors
      (mirrored.replace sizes mode orderId (-newPrice) newQty) := by
  rw [Market.replace, Market.replace, mirrors.find? valid otherValid]
  cases market.find? orderId with
  | none => exact ⟨mirrors, rfl, rfl⟩
  | some existing =>
      have mirrorKeeps : (-newPrice = existing.mirror.price ∧
          newQty ≤ existing.mirror.qty) ↔
          newPrice = existing.price ∧ newQty ≤ existing.qty :=
        and_congr Int64.neg_inj Iff.rfl
      rw [Option.map_some]
      dsimp only
      by_cases zero : newQty = 0
      · rw [if_pos zero, if_pos zero]
        exact ⟨mirrors.cancel orderId, rfl, rfl⟩
      · rw [if_neg zero, if_neg zero]
        by_cases keeps : newPrice = existing.price ∧ newQty ≤ existing.qty
        · rw [if_pos keeps, if_pos (mirrorKeeps.mpr keeps)]
          exact ⟨mirrors.setQty orderId newQty, rfl, rfl⟩
        · rw [if_neg keeps,
            if_neg fun other => keeps (mirrorKeeps.mp other)]
          exact (mirrors.cancel orderId).matchOrder (valid.cancel orderId)
            (otherValid.cancel orderId)
            (negatable.changed (changed_cancel market orderId)) limit

end Market

end Hydra
