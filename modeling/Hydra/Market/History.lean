import Hydra.Market.Trading

/-!
# Orders and their histories

Two facts about a resting order are not part of the market: who submitted it
first, and when it came to rest.  A market that agrees with a record of the
submitters keeps agreeing with it, because a replaced order keeps its client;
and every queue stays sorted by arrival, because orders only ever join at the
end.
-/

namespace Hydra

open Allocation

/-- For every id the client that submitted it last. -/
abbrev Submitters : Type := UInt64 → Option UInt64

/-- Arrival stamps by order id, and the next stamp. -/
structure Stamps where
  stamp : UInt64 → Nat
  clock : Nat

namespace Stamps

def start : Stamps where
  stamp _ := 0
  clock := 0

/-- The order with the given id comes to rest. -/
def arrive (stamps : Stamps) (orderId : UInt64) : Stamps where
  stamp := Function.update stamps.stamp orderId stamps.clock
  clock := stamps.clock + 1

/-- At most one order comes to rest. -/
def record (stamps : Stamps) : Option UInt64 → Stamps
  | none => stamps
  | some orderId => stamps.arrive orderId

def Earlier (stamps : Stamps) (left right : UInt64) : Prop :=
  stamps.stamp left < stamps.stamp right

end Stamps

namespace Market

variable {sizes : PoolSizes} {market swept next : Market} {incoming : Order}

/-- The ids of a queue, oldest first. -/
def idsAt (market : Market) (side : Side) (price : Int64) : List UInt64 :=
  (market.queueAt side price).map Order.orderId

/-- Every resting order still belongs to the client that submitted its id. -/
def OwnedBy (market : Market) (submitters : Submitters) : Prop :=
  ∀ order, market.Rests order →
    submitters order.orderId = some order.clientId

section Owners

variable {submitters : Submitters}

theorem OwnedBy.changed (owned : market.OwnedBy submitters)
    (changed : market.Changed next) : next.OwnedBy submitters := by
  intro order rests
  obtain ⟨old, oldRests, terms, _⟩ := changed.rests rests
  have oldOwned := owned old oldRests
  rw [terms]
  exact oldOwned

theorem OwnedBy.moves (owned : market.OwnedBy submitters)
    (submitted : submitters incoming.orderId = some incoming.clientId)
    (moves : Moves incoming market next) : next.OwnedBy submitters := by
  cases moves with
  | settled changed => exact owned.changed changed
  | arrived changed absent patient positive unblocked =>
      intro order rests
      rcases rests_insert.mp rests with old | rfl
      · exact owned.changed changed order old
      · exact submitted

/-- A new submission does not touch the orders of other ids. -/
theorem OwnedBy.submit (owned : market.OwnedBy submitters)
    (valid : market.Valid) (absent : market.find? incoming.orderId = none) :
    market.OwnedBy (Function.update submitters incoming.orderId
      (some incoming.clientId)) := by
  intro order rests
  rw [Function.update_of_ne]
  · exact owned order rests
  · exact valid.find?_eq_none_iff.mp absent order rests

end Owners

/-- All resting orders are stamped, and every queue is sorted by stamp. -/
structure StampedBy (market : Market) (stamps : Stamps) : Prop where
  past : ∀ order, market.Rests order →
    stamps.stamp order.orderId < stamps.clock
  sorted : ∀ side price, (market.idsAt side price).Pairwise stamps.Earlier

section Stamped

variable {stamps : Stamps}

theorem empty_stampedBy : empty.StampedBy .start where
  past order rests := by
    have impossible : order ∈ empty.orders order.side := rests
    simp [orders, empty] at impossible
  sorted side price := by
    have vacant : empty.idsAt side price = [] := rfl
    rw [vacant]
    exact .nil

/-- Changes keep the order of every queue. -/
theorem Changed.idsAt (changed : market.Changed next) (side : Side)
    (price : Int64) :
    (next.idsAt side price).Sublist (market.idsAt side price) := by
  obtain ⟨change, keeps, rfl⟩ := changed
  rw [Market.idsAt, queueAt_revise]
  exact ids_filterMap keeps.keepsPlace _

theorem StampedBy.changed (stamped : market.StampedBy stamps)
    (changed : market.Changed next) : next.StampedBy stamps where
  past order rests := by
    obtain ⟨old, oldRests, terms, _⟩ := changed.rests rests
    have oldPast := stamped.past old oldRests
    rw [terms]
    exact oldPast
  sorted side price :=
    (stamped.sorted side price).sublist (changed.idsAt side price)

theorem idsAt_insert_self (market : Market) (order : Order) :
    (market.insert order).idsAt order.side order.price =
      market.idsAt order.side order.price ++ [order.orderId] := by
  rw [idsAt, queueAt_insert_self, List.map_append]
  rfl

theorem idsAt_insert_of_ne {order : Order} {side : Side} {price : Int64}
    (differs : side ≠ order.side ∨ price ≠ order.price) :
    (market.insert order).idsAt side price = market.idsAt side price := by
  rw [idsAt, queueAt_insert_of_ne differs, idsAt]

theorem Valid.mem_idsAt (valid : market.Valid) {side : Side} {price : Int64}
    {orderId : UInt64} (member : orderId ∈ market.idsAt side price) :
    ∃ order, market.Rests order ∧ order.orderId = orderId := by
  obtain ⟨order, queued, rfl⟩ := List.mem_map.mp member
  exact ⟨order, (valid.mem_queueAt_iff.mp queued).1, rfl⟩

/-- The order that arrives is stamped last and joins last. -/
theorem StampedBy.insert (stamped : market.StampedBy stamps)
    (valid : market.Valid) {order : Order}
    (absent : market.find? order.orderId = none) :
    (market.insert order).StampedBy (stamps.arrive order.orderId) := by
  have others : ∀ other, market.Rests other →
      (stamps.arrive order.orderId).stamp other.orderId =
        stamps.stamp other.orderId := by
    intro other rests
    apply Function.update_of_ne
    exact valid.find?_eq_none_iff.mp absent other rests
  have last : (stamps.arrive order.orderId).stamp order.orderId =
      stamps.clock := Function.update_self ..
  have kept : ∀ side price, (market.idsAt side price).Pairwise
      (stamps.arrive order.orderId).Earlier := by
    intro side price
    apply (stamped.sorted side price).imp_of_mem
    intro left right leftMember rightMember earlier
    obtain ⟨leftOrder, leftRests, rfl⟩ := valid.mem_idsAt leftMember
    obtain ⟨rightOrder, rightRests, rfl⟩ := valid.mem_idsAt rightMember
    rw [Stamps.Earlier, others leftOrder leftRests,
      others rightOrder rightRests]
    exact earlier
  constructor
  case past =>
    intro other rests
    change _ < stamps.clock + 1
    rcases rests_insert.mp rests with old | rfl
    · rw [others other old]
      exact Nat.lt_succ_of_lt (stamped.past other old)
    · rw [last]
      exact Nat.lt_succ_self _
  case sorted =>
    intro side price
    by_cases place : side = order.side ∧ price = order.price
    · obtain ⟨rfl, rfl⟩ := place
      rw [idsAt_insert_self, List.pairwise_append]
      refine ⟨kept _ _, List.pairwise_singleton _ _, ?_⟩
      intro left leftMember right rightMember
      obtain ⟨other, rests, rfl⟩ := valid.mem_idsAt leftMember
      rw [List.mem_singleton.mp rightMember, Stamps.Earlier, last,
        others other rests]
      exact stamped.past other rests
    · rw [idsAt_insert_of_ne (not_and_or.mp place)]
      exact kept side price

end Stamped

/-- Resting orders change or leave, and the order with the given id, if any,
comes to rest. -/
inductive Arrival (market : Market) : Option UInt64 → Market → Prop where
  | nobody {next : Market} : market.Changed next → Arrival market none next
  | joined {swept : Market} {order : Order} : market.Changed swept →
      swept.find? order.orderId = none →
      Arrival market (some order.orderId) (swept.insert order)

section Arrival

variable {middle : Market} {arrived : Option UInt64} {stamps : Stamps}

theorem find?_insert (valid : market.Valid) {order : Order}
    (absent : market.find? order.orderId = none) :
    (market.insert order).find? order.orderId = some order :=
  (valid.insert absent).find?_eq_some_iff.mpr ⟨rests_insert.mpr (.inr rfl), rfl⟩

theorem Arrival.after (changed : market.Changed middle)
    (arrival : Arrival middle arrived next) : Arrival market arrived next := by
  cases arrival with
  | nobody later => exact .nobody (changed.trans later)
  | joined later absent => exact .joined (changed.trans later) absent

/-- The matched order arrives exactly when its id rests afterwards. -/
theorem Moves.arrival (moves : Moves incoming market next)
    (valid : market.Valid) (absent : market.find? incoming.orderId = none) :
    Arrival market
      (if next.find? incoming.orderId = none then none
      else some incoming.orderId) next := by
  cases moves with
  | settled changed =>
      rw [if_pos (changed.find?_none valid absent)]
      exact .nobody changed
  | @arrived swept qty changed sweptAbsent _ _ _ =>
      let order : Order := { incoming with qty }
      have found : (swept.insert order).find? incoming.orderId = some order :=
        @find?_insert swept (changed.valid valid) order sweptAbsent
      change Arrival market (if (swept.insert order).find? _ = none then none
        else some order.orderId) (swept.insert order)
      rw [found, if_neg (Option.some_ne_none order)]
      exact .joined changed sweptAbsent

theorem StampedBy.arrival (stamped : market.StampedBy stamps)
    (valid : market.Valid) (arrival : Arrival market arrived next) :
    next.StampedBy (stamps.record arrived) := by
  cases arrival with
  | nobody changed => exact stamped.changed changed
  | joined changed absent =>
      exact (stamped.changed changed).insert (changed.valid valid) absent

/-- Nobody overtakes anybody: the orders at a place are, in their old order,
those that were there before, and behind them the one that arrived. -/
theorem Arrival.idsAt (arrival : Arrival market arrived next) (side : Side)
    (price : Int64) : ∃ kept, kept.Sublist (market.idsAt side price) ∧
      (next.idsAt side price = kept ∨
        ∃ orderId, arrived = some orderId ∧
          next.idsAt side price = kept ++ [orderId]) := by
  cases arrival with
  | nobody changed => exact ⟨_, changed.idsAt side price, .inl rfl⟩
  | @joined swept order changed absent =>
      refine ⟨_, changed.idsAt side price, ?_⟩
      by_cases place : side = order.side ∧ price = order.price
      · obtain ⟨rfl, rfl⟩ := place
        exact .inr ⟨order.orderId, rfl, idsAt_insert_self swept order⟩
      · exact .inl (idsAt_insert_of_ne (not_and_or.mp place))

end Arrival

/-- An order whose id rests already is refused. -/
theorem matchOrder_duplicate (sizes : PoolSizes) (mode : MatchingMode)
    (resting : market.find? incoming.orderId ≠ none) :
    market.matchOrder sizes mode incoming = market.reject incoming := by
  rw [matchOrder, if_pos (.inl resting)]

/-- Every fill of a match takes something from a resting order of another
client; the matched order itself does not rest. -/
theorem mem_matchOrder_fills {mode : MatchingMode} (sound : market.Sound)
    {fill : FillEvent}
    (filled : fill ∈ (market.matchOrder sizes mode incoming).fills) :
    market.find? incoming.orderId = none ∧ 0 < fill.qty.toNat ∧
      ∃ order, market.Rests order ∧ order.orderId = fill.makerOrderId ∧
        order.clientId ≠ incoming.clientId := by
  rw [matchOrder] at filled
  split at filled
  next => cases filled
  next accepted =>
    obtain ⟨grant, member, rfl⟩ := List.mem_map.mp filled
    obtain ⟨rests, _, _, trades, bounded, positive⟩ :=
      mem_sweep sound.toValid member
    refine ⟨?_, ?_, grant.1, rests, rfl, ?_⟩
    · by_contra resting
      exact accepted (.inl resting)
    · rw [fillEvent_qty bounded]
      exact positive (sound.size_pos rests)
    · intro sameClient
      simp [tradable, OrderBook.isSelfTrade, sameClient] at trades

end Market

end Hydra
