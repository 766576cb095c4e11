import Hydra.Market.Replacing

/-!
# Slices of an order

In price-time mode the fills of an order are a greedy allocation over the
orders that can trade with it, and what they leave of these is again what the
next order can trade with.  So two orders, one after the other, take from every
resting order what one order of their total quantity takes.
-/

namespace Hydra

open Allocation

/-- What the fills take from an order at a price. -/
def filledFrom (fills : List FillEvent) (makerOrderId : UInt64)
    (price : Int64) : Nat :=
  (fills.map fun fill =>
    if fill.makerOrderId = makerOrderId ∧ fill.price = price then
      fill.qty.toNat
    else 0).sum

theorem filledFrom_append (left right : List FillEvent) (makerOrderId : UInt64)
    (price : Int64) :
    filledFrom (left ++ right) makerOrderId price =
      filledFrom left makerOrderId price +
        filledFrom right makerOrderId price := by
  simp [filledFrom]

theorem taken_append (left right : List FillEvent) (orderId : UInt64) :
    taken (left ++ right) orderId =
      taken left orderId + taken right orderId := by
  simp [taken]

/-- Two immediate-or-cancel orders that together ask for what a third one asks
for. -/
structure Slices (whole first second : Order) : Prop where
  immediate : whole.tif = .ioc ∧ first.tif = .ioc ∧ second.tif = .ioc
  sides : first.side = whole.side ∧ second.side = whole.side
  limits : first.price = whole.price ∧ second.price = whole.price
  clients : first.clientId = whole.clientId ∧ second.clientId = whole.clientId
  quantity : first.size + second.size = whole.size

/-- The order without some of its quantity. -/
def Order.without (order : Order) (amount : Nat) : Order :=
  { order with qty := .ofNat (order.size - amount) }

theorem Order.without_size (order : Order) (amount : Nat) :
    (order.without amount).size = order.size - amount := by
  apply UInt32.toNat_ofNat_of_lt'
  exact Nat.lt_of_le_of_lt (Nat.sub_le _ _) order.qty.toNat_lt

section Fills

variable {incoming order : Order} {left right : List FillEvent}

/-- The fills that report grants name a kind of orders as the grants do. -/
theorem sum_fillEvents_kind {grants : List Grant}
    (bounded : ∀ grant ∈ grants, grant.2 ≤ grant.1.size)
    {named : FillEvent → Prop} [DecidablePred named] {kind : Order → Bool}
    (same : ∀ grant, named (fillEvent incoming grant) ↔ kind grant.1 = true) :
    ((grants.map (fillEvent incoming)).map fun fill =>
      if named fill then fill.qty.toNat else 0).sum = granted kind grants := by
  induction grants with
  | nil => rfl
  | cons grant rest induction =>
      have restBounded : ∀ other ∈ rest, other.2 ≤ other.1.size := by
        intro other member
        exact bounded other (List.mem_cons_of_mem _ member)
      have qtyEq : (fillEvent incoming grant).qty.toNat = grant.2 :=
        fillEvent_qty (bounded grant List.mem_cons_self)
      simp only [List.map_cons, List.sum_cons, same, qtyEq,
        induction restBounded, granted, List.filter_cons]
      split <;> simp

theorem taken_grants {grants : List Grant}
    (bounded : ∀ grant ∈ grants, grant.2 ≤ grant.1.size) (orderId : UInt64) :
    taken (grants.map (fillEvent incoming)) orderId =
      granted (fun order => decide (order.orderId = orderId)) grants := by
  apply sum_fillEvents_kind bounded
  simp [fillEvent]

theorem filledFrom_grants {grants : List Grant}
    (bounded : ∀ grant ∈ grants, grant.2 ≤ grant.1.size)
    (orderId : UInt64) (price : Int64) :
    filledFrom (grants.map (fillEvent incoming)) orderId price =
      granted (fun order =>
        decide (order.orderId = orderId ∧ order.price = price)) grants := by
  apply sum_fillEvents_kind bounded
  simp [fillEvent]

theorem afterFills_append :
    (afterFills left order).bind (afterFills right) =
      afterFills (left ++ right) order := by
  have shorter : afterFills left order =
      if order.size ≤ taken left order.orderId then none
      else some (order.without (taken left order.orderId)) := rfl
  rw [shorter, afterFills, taken_append]
  by_cases gone : order.size ≤ taken left order.orderId
  · rw [if_pos gone, if_pos (by omega)]
    rfl
  · have size := order.without_size (taken left order.orderId)
    have next : afterFills right
        (order.without (taken left order.orderId)) =
        if (order.without (taken left order.orderId)).size ≤
          taken right order.orderId then none
        else some { order with
          qty := .ofNat ((order.without (taken left order.orderId)).size -
            taken right order.orderId) } := rfl
    rw [if_neg gone, Option.bind_some, next, size]
    by_cases all : order.size ≤
        taken left order.orderId + taken right order.orderId
    · rw [if_pos (by omega), if_pos all]
    · rw [if_neg (by omega), if_neg all, Nat.sub_sub]

theorem greedy_bounded {amount : Nat} {orders : List Order} {grant : Grant}
    (member : grant ∈ greedy Order.size amount orders) :
    grant.2 ≤ grant.1.size :=
  (mem_greedy Order.size member).2.1

theorem filterMap_afterFills {orders : List Order} (amount : Nat)
    (positive : ∀ order ∈ orders, 0 < order.size)
    (distinct : (orders.map Order.orderId).Nodup) :
    orders.filterMap (afterFills
        ((greedy Order.size amount orders).map (fillEvent incoming))) =
      leftover Order.size Order.without amount orders := by
  induction orders generalizing amount with
  | nil => rfl
  | cons order rest induction =>
      obtain ⟨orderPositive, restPositive⟩ := List.forall_mem_cons.mp positive
      rw [List.map_cons, List.nodup_cons] at distinct
      have apart : ∀ other ∈ rest, order.orderId ≠ other.orderId := by
        intro other member same
        exact distinct.1 (same ▸ List.mem_map_of_mem member)
      have untouched : ∀ current ∈ order :: rest,
          afterFills [] current = some current := by
        intro current member
        exact afterFills_untouched (positive current member) rfl
      by_cases empty : amount = 0
      · have whole : order.without 0 = order := by
          simp [Order.without, Order.size]
        rw [empty, greedy_zero, leftover, if_neg (by omega), whole]
        exact Market.filterMap_fixed untouched
      · rw [greedy_cons _ empty, List.map_cons, leftover, List.filterMap_cons]
        generalize restFills : (greedy Order.size
          (amount - min amount order.size) rest).map (fillEvent incoming) =
            fills
        have unnamed : taken fills order.orderId = 0 := by
          apply taken_eq_zero
          rw [← restFills]
          intro fill filled
          obtain ⟨grant, member, rfl⟩ := List.mem_map.mp filled
          exact (apart grant.1 (mem_greedy _ member).1).symm
        have own : (fillEvent incoming
            (order, min amount order.size)).qty.toNat =
              min amount order.size :=
          fillEvent_qty (Nat.min_le_right _ _)
        have others : rest.filterMap (afterFills
            (fillEvent incoming (order, min amount order.size) :: fills)) =
            rest.filterMap (afterFills fills) := by
          apply List.filterMap_congr
          intro other member
          have differs : (fillEvent incoming
              (order, min amount order.size)).makerOrderId ≠
                other.orderId := apart other member
          rw [afterFills, afterFills, taken_cons, if_neg differs,
            Nat.zero_add]
        have takenAll : taken
            (fillEvent incoming (order, min amount order.size) :: fills)
            order.orderId = min amount order.size := by
          have named : (fillEvent incoming
              (order, min amount order.size)).makerOrderId =
                order.orderId := rfl
          rw [taken_cons, if_pos named, own, unnamed, Nat.add_zero]
        rw [others, afterFills, takenAll]
        by_cases small : order.size ≤ amount
        · rw [if_pos (by omega), if_pos small, ← induction _ restPositive
            distinct.2, ← restFills, Nat.min_eq_right small]
        · have spent : amount - min amount order.size = 0 := by omega
          rw [if_neg (by omega), if_neg small, ← restFills, spent,
            greedy_zero, Nat.min_eq_left (by omega)]
          exact congrArg _ (Market.filterMap_fixed fun other member =>
            untouched other (List.mem_cons_of_mem _ member))

end Fills

namespace Market

variable {sizes : PoolSizes} {market : Market}
variable {incoming whole first second : Order}

theorem matchable_congr (sides : first.side = whole.side)
    (limits : first.price = whole.price)
    (clients : first.clientId = whole.clientId) :
    market.matchable first = market.matchable whole := by
  have same : Hydra.matchable first = Hydra.matchable whole := by
    funext order
    simp [Hydra.matchable, crosses, tradable, OrderBook.isSelfTrade, sides,
      limits, clients]
  rw [matchable, matchable, same, sides]

theorem matchable_revise {change : Order → Option Order}
    (keeps : ∀ order next, change order = some next →
      next.price = order.price ∧ next.clientId = order.clientId) :
    (market.revise change).matchable incoming =
      (market.matchable incoming).filterMap change := by
  rw [matchable, matchable, orders_revise, List.filter_filterMap,
    List.filterMap_filter]
  apply List.filterMap_congr
  intro order _
  cases changed : change order with
  | none => simp
  | some next =>
      obtain ⟨price, client⟩ := keeps order next changed
      have same : Hydra.matchable incoming next =
          Hydra.matchable incoming order := by
        simp [Hydra.matchable, tradable, OrderBook.isSelfTrade, price, client]
      rw [Option.filter_some, same]

/-- The fills of a price-time sweep. -/
def greedyFills (market : Market) (incoming : Order) : List FillEvent :=
  (greedy Order.size incoming.size (market.matchable incoming)).map
    (fillEvent incoming)

theorem swept_greedy (valid : market.Valid) :
    market.swept .priceTime incoming =
      market.revise (afterFills (market.greedyFills incoming)) := by
  rw [swept, sweep_priceTime valid]
  rfl

theorem matchOrder_immediate (sound : market.Sound)
    (absent : market.find? incoming.orderId = none)
    (immediate : incoming.tif = .ioc) :
    let outcome := market.matchOrder sizes .priceTime incoming
    outcome.market = market.swept .priceTime incoming ∧
      outcome.fills = market.greedyFills incoming ∧
      outcome.stats.remainingQty.toNat = incoming.size -
        demand Order.size (market.matchable incoming) := by
  have accepted : ¬ market.Rejects .priceTime incoming := by
    rw [rejects_iff .priceTime sound.toValid absent]
    simp [immediate]
  obtain ⟨sweptEq, _⟩ := sweep_changed sound .priceTime incoming
  intro outcome
  have committed : outcome = market.commitMatch sizes .priceTime incoming :=
    if_neg accepted
  rw [committed]
  refine ⟨?_, ?_, ?_⟩
  · rw [commitMatch, rest, if_neg (by simp [immediate])]
    exact sweptEq
  · rw [commitMatch, sweep_priceTime sound.toValid]
    rfl
  · have left : (UInt32.ofNat (incoming.size -
        total (allGrants (market.sweep .priceTime incoming)))).toNat =
        incoming.size -
          total (allGrants (market.sweep .priceTime incoming)) := by
      apply UInt32.toNat_ofNat_of_lt'
      exact Nat.lt_of_le_of_lt (Nat.sub_le _ _) incoming.qty.toNat_lt
    rw [total_sweep sound.toValid] at left
    rw [commitMatch, total_sweep sound.toValid, left]
    omega

end Market

namespace Slices

variable {sizes : PoolSizes} {market : Market}
variable {whole first second : Order}

theorem greedyFills_first (slices : Slices whole first second) :
    market.greedyFills first =
      (greedy Order.size first.size (market.matchable whole)).map
        (fillEvent first) := by
  rw [Market.greedyFills, Market.matchable_congr slices.sides.1
    slices.limits.1 slices.clients.1]

theorem matchable_second (slices : Slices whole first second)
    (sound : market.Sound) :
    (market.swept .priceTime first).matchable second =
      leftover Order.size Order.without first.size
        (market.matchable whole) := by
  have keeps : ∀ order next, afterFills (market.greedyFills first) order =
      some next →
      next.price = order.price ∧ next.clientId = order.clientId := by
    intro order next kept
    rw [afterFills] at kept
    split at kept
    next => cases kept
    next =>
      obtain rfl := Option.some.inj kept
      exact ⟨rfl, rfl⟩
  have positive : ∀ order ∈ market.matchable whole, 0 < order.size := by
    intro order candidate
    have member := (Market.mem_matchable.mp candidate).1
    exact sound.size_pos (sound.mem_orders_iff.mp member).1
  have distinct : ((market.matchable whole).map Order.orderId).Nodup :=
    (sound.side_ids_nodup _).sublist (List.filter_sublist.map _)
  rw [Market.swept_greedy sound.toValid,
    Market.matchable_congr slices.sides.2 slices.limits.2 slices.clients.2,
    Market.matchable_revise keeps, slices.greedyFills_first,
    filterMap_afterFills _ positive distinct]

theorem greedyFills_second (slices : Slices whole first second)
    (sound : market.Sound) :
    (market.swept .priceTime first).greedyFills second =
      (greedy Order.size second.size
        (leftover Order.size Order.without first.size
          (market.matchable whole))).map (fillEvent second) := by
  rw [Market.greedyFills, slices.matchable_second sound]

theorem granted_add (slices : Slices whole first second)
    {kind : Order → Bool}
    (kept : ∀ order amount, kind (order.without amount) = kind order)
    (orders : List Order) :
    granted kind (greedy Order.size first.size orders) +
        granted kind (greedy Order.size second.size
          (leftover Order.size Order.without first.size orders)) =
      granted kind (greedy Order.size whole.size orders) := by
  rw [← slices.quantity]
  exact (granted_greedy_add (fun order amount _ => order.without_size amount)
    kept _ _ _).symm

theorem filledFrom_add (slices : Slices whole first second)
    (sound : market.Sound) (orderId : UInt64) (price : Int64) :
    filledFrom (market.greedyFills first) orderId price +
        filledFrom ((market.swept .priceTime first).greedyFills second)
          orderId price =
      filledFrom (market.greedyFills whole) orderId price := by
  rw [slices.greedyFills_first, slices.greedyFills_second sound,
    Market.greedyFills, filledFrom_grants (fun _ => greedy_bounded),
    filledFrom_grants (fun _ => greedy_bounded),
    filledFrom_grants (fun _ => greedy_bounded)]
  exact slices.granted_add (fun _ _ => rfl) _

theorem taken_add (slices : Slices whole first second)
    (sound : market.Sound) (orderId : UInt64) :
    taken (market.greedyFills first ++
        (market.swept .priceTime first).greedyFills second) orderId =
      taken (market.greedyFills whole) orderId := by
  rw [taken_append, slices.greedyFills_first,
    slices.greedyFills_second sound, Market.greedyFills,
    taken_grants (fun _ => greedy_bounded),
    taken_grants (fun _ => greedy_bounded),
    taken_grants (fun _ => greedy_bounded)]
  exact slices.granted_add (fun _ _ => rfl) _

/-- The slices leave the market that the whole leaves. -/
theorem swept_twice (slices : Slices whole first second)
    (sound : market.Sound) :
    (market.swept .priceTime first).swept .priceTime second =
      market.swept .priceTime whole := by
  have nextSound : (market.swept .priceTime first).Sound :=
    sound.changed (Market.swept_changed sound .priceTime)
  rw [Market.swept_greedy nextSound.toValid]
  generalize secondFills :
    (market.swept .priceTime first).greedyFills second = fills
  have sums := slices.taken_add sound
  rw [secondFills] at sums
  rw [Market.swept_greedy sound.toValid, Market.swept_greedy sound.toValid,
    Market.revise_revise]
  apply Market.revise_congr
  intro side order _
  rw [afterFills_append, afterFills, afterFills, sums]

/-- The slices leave as much unfilled as the whole. -/
theorem unfilled_add (slices : Slices whole first second)
    (sound : market.Sound) :
    first.size - demand Order.size (market.matchable first) +
        (second.size - demand Order.size
          ((market.swept .priceTime first).matchable second)) =
      whole.size - demand Order.size (market.matchable whole) := by
  rw [slices.matchable_second sound,
    demand_leftover fun order amount _ => order.without_size amount,
    Market.matchable_congr slices.sides.1 slices.limits.1 slices.clients.1,
    ← slices.quantity]
  omega

end Slices

end Hydra
