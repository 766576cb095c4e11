import Hydra.Library.Allocation
import Hydra.Market.Basic
import Hydra.Matcher

/-!
# Matching on the abstract market

What matching is for: a sweep visits the crossing levels of the opposite side,
best first, and grants quantities to the orders there that belong to another
client; the two modes differ in how a level shares what is left.  Every grant
is reported as a fill, and a good-till-cancelled remainder comes to rest unless
it would cross.

The heap is nowhere mentioned; that the matcher refines these functions is
proved for the sweeps and for `matchOrder` in the modules on the matcher.
-/

namespace Hydra

open Allocation

/-- An order with the quantity given to it. -/
abbrev Grant : Type := Order × Nat

def Order.size (order : Order) : Nat := order.qty.toNat

/-- The event that reports a grant. -/
def fillEvent (incoming : Order) (grant : Grant) : FillEvent where
  makerOrderId := grant.1.orderId
  takerOrderId := incoming.orderId
  price := grant.1.price
  timestampNs := incoming.timestampNs
  qty := .ofNat grant.2

/-- Only orders of different clients trade. -/
def tradable (incoming order : Order) : Bool :=
  !OrderBook.isSelfTrade order incoming

def eligible (incoming : Order) (queue : List Order) : List Order :=
  queue.filter (tradable incoming)

/-- The orders that a price-time sweep looks at before its amount is used up. -/
def visitedOrders (incoming : Order) : Nat → List Order → List Order
  | _, [] => []
  | amount, order :: rest =>
      if amount = 0 then []
      else if tradable incoming order then
        order :: visitedOrders incoming (amount - min amount order.size) rest
      else
        order :: visitedOrders incoming amount rest

/-- The orders that a sweep looks at on one level, and what it grants them. -/
structure Visit where
  visited : List Order
  grants : List Grant

def levelVisit (mode : MatchingMode) (incoming : Order) (amount : Nat)
    (queue : List Order) : Visit :=
  match mode with
  | .priceTime =>
      { visited := visitedOrders incoming amount queue
        grants := greedy Order.size amount (eligible incoming queue) }
  | .proRata =>
      let orders := eligible incoming queue
      { visited := queue
        grants := (proportional Order.size
          (min amount (demand Order.size orders)) orders).filter
            fun grant => decide (0 < grant.2) }

/-- A sweep over a ladder, as long as something is left and levels cross. -/
def sweepLadder (mode : MatchingMode) (incoming : Order) :
    Nat → List (Int64 × List Order) → List Visit
  | _, [] => []
  | amount, entry :: rest =>
      if amount ≠ 0 ∧ crosses entry.1 incoming = true then
        let visit := levelVisit mode incoming amount entry.2
        visit :: sweepLadder mode incoming (amount - total visit.grants) rest
      else []

/-- All grants of a sweep, in the order in which they are made. -/
def allGrants (visits : List Visit) : List Grant := visits.flatMap Visit.grants

namespace MatchStats

/-- Count visited orders and grants. -/
def charge (incoming : Order) (visited : List Order) (grants : List Grant)
    (stats : MatchStats) : MatchStats :=
  { stats with
    fillsGenerated := stats.fillsGenerated + .ofNat grants.length
    restingOrdersExamined := stats.restingOrdersExamined + .ofNat visited.length
    eligibleOrdersExamined := stats.eligibleOrdersExamined +
      .ofNat (eligible incoming visited).length
    selfTradeSkips := stats.selfTradeSkips +
      .ofNat (visited.filter fun order =>
        OrderBook.isSelfTrade order incoming).length }

/-- Count a visited level with its orders and grants. -/
def chargeVisit (incoming : Order) (stats : MatchStats) (visit : Visit) :
    MatchStats :=
  stats.countLevel.charge incoming visit.visited visit.grants

def chargeVisits (incoming : Order) (visits : List Visit)
    (stats : MatchStats) : MatchStats :=
  visits.foldl (chargeVisit incoming) stats

end MatchStats

/-- The result of matching on a market. -/
structure Outcome where
  market : Market
  fills : List FillEvent
  stats : MatchStats

namespace Market

def sweep (mode : MatchingMode) (incoming : Order) (market : Market) :
    List Visit :=
  sweepLadder mode incoming incoming.size
    (market.ladder incoming.side.opposite).entries

/-- Whether the best opposite level satisfies the limit of the order. -/
def blocks (market : Market) (incoming : Order) : Bool :=
  match market.best? incoming.side.opposite with
  | none => false
  | some price => crosses price incoming

/-- A remainder rests when it may and there is room for it. -/
def rest (sizes : PoolSizes) (market : Market) (incoming : Order)
    (remaining : Nat) : Market :=
  if incoming.tif = .gtc ∧ 0 < remaining ∧ market.blocks incoming = false then
    market.add sizes { incoming with qty := .ofNat remaining }
  else market

def reject (market : Market) (incoming : Order) : Outcome where
  market
  fills := []
  stats := { remainingQty := incoming.qty }

def commitMatch (sizes : PoolSizes) (mode : MatchingMode) (incoming : Order)
    (market : Market) : Outcome :=
  let visits := market.sweep mode incoming
  let fills := (allGrants visits).map (fillEvent incoming)
  let remaining := incoming.size - total (allGrants visits)
  { market := (market.applyFills fills).rest sizes incoming remaining
    fills
    stats :=
      { MatchStats.chargeVisits incoming visits {} with
        remainingQty := .ofNat remaining } }

/-- An order is refused when its id rests, or when it must be filled at once
and cannot. -/
def Rejects (mode : MatchingMode) (incoming : Order) (market : Market) : Prop :=
  market.find? incoming.orderId ≠ none ∨
    (incoming.tif = .fok ∧
      total (allGrants (market.sweep mode incoming)) < incoming.size)

instance (mode : MatchingMode) (incoming : Order) (market : Market) :
    Decidable (market.Rejects mode incoming) :=
  inferInstanceAs (Decidable (_ ∨ (_ ∧ _)))

/-- Matching on the market: a refusal, or a sweep and its remainder. -/
def matchOrder (sizes : PoolSizes) (mode : MatchingMode) (incoming : Order)
    (market : Market) : Outcome :=
  if market.Rejects mode incoming then market.reject incoming
  else market.commitMatch sizes mode incoming

/-- The order that a replaced order re-enters as. -/
def reentry (existing : Order) (newPrice : Int64) (newQty : UInt32) : Order :=
  { existing with
    price := newPrice
    qty := newQty
    eventTag := .newOrCancel }

/-- Replacing on the market: a cancellation, a change in place, or a new
match. -/
def replace (sizes : PoolSizes) (mode : MatchingMode) (orderId : UInt64)
    (newPrice : Int64) (newQty : UInt32) (market : Market) : Outcome :=
  match market.find? orderId with
  | none => { market, fills := [], stats := {} }
  | some existing =>
      if newQty = 0 then
        { market := market.cancel orderId, fills := [], stats := {} }
      else if newPrice = existing.price ∧ newQty ≤ existing.qty then
        { market := market.setQty orderId newQty, fills := [], stats := {} }
      else
        (market.cancel orderId).matchOrder sizes mode
          (reentry existing newPrice newQty)

end Market

section Level

variable {mode : MatchingMode} {incoming : Order} {amount : Nat}
variable {queue : List Order}

theorem total_levelVisit :
    total (levelVisit mode incoming amount queue).grants =
      min amount (demand Order.size (eligible incoming queue)) := by
  cases mode with
  | priceTime => exact total_greedy _ _ _
  | proRata =>
      rw [levelVisit, total_filter_pos]
      exact total_proportional _ (Nat.min_le_right _ _)

/-- Who receives a grant, and how much. -/
theorem mem_levelVisit {grant : Grant}
    (member : grant ∈ (levelVisit mode incoming amount queue).grants) :
    grant.1 ∈ queue ∧ tradable incoming grant.1 = true ∧
      grant.2 ≤ grant.1.size ∧ (0 < grant.1.size → 0 < grant.2) := by
  cases mode with
  | priceTime =>
      obtain ⟨listed, bounded, served⟩ := mem_greedy _ member
      obtain ⟨queued, trades⟩ := List.mem_filter.mp listed
      exact ⟨queued, trades, bounded, served⟩
  | proRata =>
      obtain ⟨listed, positive⟩ := List.mem_filter.mp member
      obtain ⟨shared, _, bounded⟩ := mem_proportional _
        (Nat.min_le_right _ _) listed
      obtain ⟨queued, trades⟩ := List.mem_filter.mp shared
      exact ⟨queued, trades, bounded, fun _ => of_decide_eq_true positive⟩

end Level

end Hydra
