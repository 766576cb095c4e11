import Hydra.Market.Modes

/-!
# What the statistics count

The counters of a match are 32-bit words.  No sweep visits more orders than
rest, so none of them wraps around: each is the length of a list of what the
sweep did.
-/

namespace Hydra

open Allocation

/-- The counters are those of a sweep over `levels` levels that visited the
orders `visited` and reported `fills` fills. -/
structure MatchStats.Count (stats : MatchStats) (mode : MatchingMode)
    (incoming : Order) (levels : Nat) (visited : List Order) (fills : Nat) :
    Prop where
  levels : stats.levelsConsumed.toNat = levels
  examined : stats.restingOrdersExamined.toNat = visited.length
  selfTrades : stats.selfTradeSkips.toNat =
    (visited.filter fun order =>
      decide (order.clientId = incoming.clientId)).length
  fills : stats.fillsGenerated.toNat = fills
  parts : stats.restingOrdersExamined.toNat =
    stats.eligibleOrdersExamined.toNat + stats.selfTradeSkips.toNat
  served : stats.fillsGenerated.toNat ≤ stats.eligibleOrdersExamined.toNat
  priceTime : mode = .priceTime →
    stats.fillsGenerated = stats.eligibleOrdersExamined

section Level

variable {mode : MatchingMode} {incoming : Order} {amount : Nat}
variable {queue : List Order}

theorem visitedOrders_prefix :
    visitedOrders incoming amount queue <+: queue := by
  induction queue generalizing amount with
  | nil => simp [visitedOrders]
  | cons order rest induction =>
      rw [visitedOrders]
      split
      next => simp
      next =>
        split
        next => exact (List.prefix_cons_inj order).mpr induction
        next => exact (List.prefix_cons_inj order).mpr induction

theorem visited_prefix :
    (levelVisit mode incoming amount queue).visited <+: queue := by
  cases mode with
  | priceTime => exact visitedOrders_prefix
  | proRata => exact List.prefix_refl queue

theorem length_greedy_visited :
    (greedy Order.size amount (eligible incoming queue)).length =
      (eligible incoming (visitedOrders incoming amount queue)).length := by
  induction queue generalizing amount with
  | nil => rfl
  | cons order rest induction =>
      by_cases empty : amount = 0
      · simp [empty, visitedOrders, eligible]
      · cases trades : tradable incoming order with
        | true =>
            have kept : eligible incoming (order :: rest) =
                order :: eligible incoming rest := by
              simp [eligible, trades]
            rw [kept, greedy_cons _ empty, List.length_cons, induction]
            simp [visitedOrders, eligible, empty, trades]
        | false =>
            have dropped : eligible incoming (order :: rest) =
                eligible incoming rest := by
              simp [eligible, trades]
            rw [dropped, induction]
            simp [visitedOrders, eligible, empty, trades]

theorem length_grants_le :
    (levelVisit mode incoming amount queue).grants.length ≤
      (eligible incoming
        (levelVisit mode incoming amount queue).visited).length := by
  cases mode with
  | priceTime => exact length_greedy_visited.le
  | proRata =>
      have items := (@items_levelVisit .proRata incoming amount queue).length_le
      rw [List.length_map] at items
      exact items

end Level

section Ladder

variable {mode : MatchingMode} {incoming : Order} {amount : Nat}
variable {entries : List (Int64 × List Order)}

theorem visited_sublist :
    ((sweepLadder mode incoming amount entries).flatMap Visit.visited).Sublist
      (entries.flatMap Prod.snd) := by
  induction entries generalizing amount with
  | nil => simp [sweepLadder]
  | cons entry rest induction =>
      rw [sweepLadder]
      split
      next =>
        rw [List.flatMap_cons, List.flatMap_cons]
        exact visited_prefix.sublist.append induction
      next => simp

theorem length_sweepLadder_le :
    (sweepLadder mode incoming amount entries).length ≤ entries.length := by
  induction entries generalizing amount with
  | nil => simp [sweepLadder]
  | cons entry rest induction =>
      rw [sweepLadder]
      split
      next => exact Nat.succ_le_succ induction
      next => simp

theorem eligible_flatMap (visits : List Visit) :
    eligible incoming (visits.flatMap Visit.visited) =
      visits.flatMap fun visit => eligible incoming visit.visited := by
  simp [eligible, List.filter_flatMap]

/-- An additive relation between the numbers of grants and of visited orders
that can trade holds of a sweep when it holds of every level. -/
theorem length_allGrants {relates : Nat → Nat → Prop} (nothing : relates 0 0)
    (both : ∀ {grants orders moreGrants moreOrders},
      relates grants orders → relates moreGrants moreOrders →
      relates (grants + moreGrants) (orders + moreOrders))
    (level : ∀ {amount queue},
      let visit := levelVisit mode incoming amount queue
      relates visit.grants.length (eligible incoming visit.visited).length) :
    relates (allGrants (sweepLadder mode incoming amount entries)).length
      (eligible incoming ((sweepLadder mode incoming amount entries).flatMap
        Visit.visited)).length := by
  rw [eligible_flatMap]
  induction entries generalizing amount with
  | nil => exact nothing
  | cons entry rest induction =>
      rw [sweepLadder]
      split
      next =>
        rw [allGrants, List.flatMap_cons, List.flatMap_cons,
          List.length_append, List.length_append]
        exact both level induction
      next => exact nothing

theorem length_allGrants_le :
    (allGrants (sweepLadder mode incoming amount entries)).length ≤
      (eligible incoming ((sweepLadder mode incoming amount entries).flatMap
        Visit.visited)).length :=
  length_allGrants (Nat.le_refl 0) Nat.add_le_add length_grants_le

theorem length_allGrants_priceTime :
    (allGrants (sweepLadder .priceTime incoming amount entries)).length =
      (eligible incoming ((sweepLadder .priceTime incoming amount
        entries).flatMap Visit.visited)).length :=
  length_allGrants rfl (congrArg₂ _) length_greedy_visited

end Ladder

section TimeInForce

variable {mode : MatchingMode} {incoming : Order} {amount : Nat}

theorem visitedOrders_tif (tif : TimeInForce) (queue : List Order) :
    visitedOrders { incoming with tif } amount queue =
      visitedOrders incoming amount queue := by
  induction queue generalizing amount with
  | nil => rfl
  | cons order rest induction =>
      rw [visitedOrders, visitedOrders, induction, induction]
      rfl

theorem levelVisit_tif (tif : TimeInForce) (queue : List Order) :
    levelVisit mode { incoming with tif } amount queue =
      levelVisit mode incoming amount queue := by
  cases mode with
  | priceTime =>
      rw [levelVisit, visitedOrders_tif]
      rfl
  | proRata => rfl

theorem sweepLadder_tif (tif : TimeInForce)
    (entries : List (Int64 × List Order)) :
    sweepLadder mode { incoming with tif } amount entries =
      sweepLadder mode incoming amount entries := by
  induction entries generalizing amount with
  | nil => rfl
  | cons entry rest induction =>
      rw [sweepLadder, sweepLadder, levelVisit_tif]
      simp only [induction]
      rfl

end TimeInForce

namespace Market

variable {sizes : PoolSizes} {market : Market} {mode : MatchingMode}
variable {incoming : Order}

/-- The orders that a sweep visits. -/
def visited (mode : MatchingMode) (incoming : Order) (market : Market) :
    List Order :=
  (market.sweep mode incoming).flatMap Visit.visited

theorem visited_orders : (market.visited mode incoming).Sublist
    (market.orders incoming.side.opposite) :=
  visited_sublist

theorem visited_ids_nodup (valid : market.Valid) :
    ((market.visited mode incoming).map Order.orderId).Nodup :=
  (valid.side_ids_nodup _).sublist (visited_orders.map Order.orderId)

theorem orders_length_le (side : Side) :
    (market.orders side).length ≤ market.orderCount := by
  rw [orderCount]
  cases side <;> omega

theorem levels_length_le (valid : market.Valid) (side : Side) :
    (market.ladder side).entries.length ≤ (market.orders side).length := by
  rw [orders, List.length_flatMap]
  apply le_trans _ (List.length_le_sum_of_one_le _ _)
  · rw [List.length_map]
  · intro length member
    obtain ⟨entry, listed, rfl⟩ := List.mem_map.mp member
    exact List.length_pos_of_ne_nil (valid.populated listed)

/-- The statistics of a match that is carried out. -/
theorem commitMatch_counts (valid : market.Valid)
    (few : market.orderCount < 2 ^ 32) (mode : MatchingMode)
    (incoming : Order) :
    let outcome := market.commitMatch sizes mode incoming
    outcome.stats.Count mode incoming (market.sweep mode incoming).length
      (market.visited mode incoming) outcome.fills.length := by
  have sideFew := @orders_length_le market incoming.side.opposite
  have visitedFew := (@visited_orders market mode incoming).length_le
  have levelsFew := levels_length_le valid incoming.side.opposite
  have sweepFew : (market.sweep mode incoming).length ≤
      (market.ladder incoming.side.opposite).entries.length :=
    length_sweepLadder_le
  have served : (allGrants (market.sweep mode incoming)).length ≤
      (eligible incoming (market.visited mode incoming)).length :=
    length_allGrants_le
  have parts : (market.visited mode incoming).length =
      (eligible incoming (market.visited mode incoming)).length +
        ((market.visited mode incoming).filter fun order =>
          OrderBook.isSelfTrade order incoming).length := by
    rw [List.length_eq_length_filter_add fun order =>
      OrderBook.isSelfTrade order incoming, Nat.add_comm]
    rfl
  have word : ∀ {count : Nat}, count < 2 ^ 32 →
      (0 + UInt32.ofNat count).toNat = count := by
    intro count small
    rw [UInt32.zero_add]
    exact UInt32.toNat_ofNat_of_lt' small
  have charged := MatchStats.chargeVisits_eq incoming
    (market.sweep mode incoming) {}
  intro outcome
  have stats : outcome.stats =
      { MatchStats.chargeVisits incoming (market.sweep mode incoming) {} with
        remainingQty := outcome.stats.remainingQty } := rfl
  rw [charged, ← visited] at stats
  have fillCount : outcome.fills.length =
      (allGrants (market.sweep mode incoming)).length := List.length_map _
  have selfTrades : outcome.stats.selfTradeSkips.toNat =
      ((market.visited mode incoming).filter fun order =>
        OrderBook.isSelfTrade order incoming).length := by
    rw [stats]
    exact word (by omega)
  have eligibles : outcome.stats.eligibleOrdersExamined.toNat =
      (eligible incoming (market.visited mode incoming)).length := by
    rw [stats]
    exact word (by omega)
  have examined : outcome.stats.restingOrdersExamined.toNat =
      (market.visited mode incoming).length := by
    rw [stats]
    exact word (by omega)
  have fills : outcome.stats.fillsGenerated.toNat =
      (allGrants (market.sweep mode incoming)).length := by
    rw [stats]
    exact word (by omega)
  refine ⟨?_, examined, selfTrades, fills.trans fillCount.symm, ?_, ?_, ?_⟩
  · rw [stats]
    exact word (by omega)
  · rw [examined, selfTrades, eligibles, parts]
  · rw [fills, eligibles]
    exact served
  · rintro rfl
    apply UInt32.toNat_inj.mp
    rw [fills, eligibles]
    exact length_allGrants_priceTime

theorem commitMatch_tif (mode : MatchingMode) (incoming : Order)
    (tif : TimeInForce) :
    (market.commitMatch sizes mode { incoming with tif }).stats =
      (market.commitMatch sizes mode incoming).stats := by
  have same : market.sweep mode { incoming with tif } =
      market.sweep mode incoming :=
    sweepLadder_tif tif _
  rw [commitMatch, commitMatch, same]
  rfl

/-- The unfilled quantity and the fills make up the order. -/
theorem matchOrder_conserved (mode : MatchingMode) (sound : market.Sound)
    (incoming : Order) :
    let outcome := market.matchOrder sizes mode incoming
    outcome.stats.remainingQty.toNat +
      (outcome.fills.map fun fill => fill.qty.toNat).sum =
        incoming.qty.toNat := by
  intro outcome
  by_cases rejects : market.Rejects mode incoming
  · have refused : outcome = market.reject incoming := if_pos rejects
    rw [refused]
    rfl
  · have absent : market.find? incoming.orderId = none := by
      by_contra resting
      exact rejects (.inl resting)
    rw [Nat.add_comm]
    exact (matchOrder_balances mode sound absent).conserved

/-- A refused order is not counted at all. -/
theorem reject_counts (mode : MatchingMode) (incoming : Order) :
    (market.reject incoming).stats.Count mode incoming 0 [] 0 where
  levels := rfl
  examined := rfl
  selfTrades := rfl
  fills := rfl
  parts := rfl
  served := Nat.le_refl _
  priceTime _ := rfl

end Market

end Hydra
