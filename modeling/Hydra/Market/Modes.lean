import Hydra.Market.Commuting
import Hydra.Market.Outcomes
import Mathlib.Algebra.BigOperators.Ring.Finset

/-!
# What does not depend on the matching mode

The two modes differ in how they share out a level, and in nothing else.  What
a sweep takes from each level is a function of the amount and the ladder alone,
and the quantity that rests at a price afterwards, whether the remainder is
blocked and whether there is a level slot for it depend only on that.
-/

namespace Hydra

open Allocation

/-- The quantity that the fills report at a price. -/
def filledAt (fills : List FillEvent) (price : Int64) : Nat :=
  (fills.map fun fill => if fill.price = price then fill.qty.toNat else 0).sum

/-- The total of price times quantity. -/
def notional (fills : List FillEvent) : Int :=
  (fills.map fun fill => fill.price.toInt * (fill.qty.toNat : Int)).sum

/-- The total quantity at a price, if there is a level. -/
def Market.depth? (market : Market) (side : Side) (price : Int64) :
    Option Nat :=
  ((market.ladder side).find? price).map (demand Order.size)

/-- The outcomes of matching one order differ only in who is filled. -/
structure Outcome.Agrees (incoming : Order) (left right : Outcome) : Prop where
  filled : ∀ price, filledAt left.fills price = filledAt right.fills price
  notional : notional left.fills = notional right.fills
  remaining : left.stats.remainingQty = right.stats.remainingQty
  levels : left.stats.levelsConsumed = right.stats.levelsConsumed
  rests : (left.market.find? incoming.orderId).isSome =
    (right.market.find? incoming.orderId).isSome
  depth : ∀ side price,
    left.market.depth? side price = right.market.depth? side price

/-- What a sweep takes from the levels that it visits. -/
def sweepTotals (incoming : Order) :
    Nat → List (Int64 × List Order) → List (Int64 × Nat)
  | _, [] => []
  | amount, entry :: rest =>
      if amount ≠ 0 ∧ crosses entry.1 incoming = true then
        let granted :=
          min amount (demand Order.size (eligible incoming entry.2))
        (entry.1, granted) :: sweepTotals incoming (amount - granted) rest
      else []

section Totals

variable {mode : MatchingMode} {incoming : Order} {amount : Nat}
variable {entries : List (Int64 × List Order)}

theorem length_sweepLadder :
    (sweepLadder mode incoming amount entries).length =
      (sweepTotals incoming amount entries).length := by
  induction entries generalizing amount with
  | nil => rfl
  | cons entry rest induction =>
      rw [sweepLadder, sweepTotals]
      split
      next => simp only [List.length_cons, total_levelVisit, induction]
      next => rfl

/-- The grants at a price, each weighed by its price. -/
def weighed (weight : Int64 → Int) (grants : List Grant) : Int :=
  (grants.map fun grant => weight grant.1.price * grant.2).sum

theorem weighed_append (weight : Int64 → Int) (left right : List Grant) :
    weighed weight (left ++ right) =
      weighed weight left + weighed weight right := by
  simp [weighed]

theorem weighed_level (weight : Int64 → Int) {price : Int64}
    {grants : List Grant}
    (placed : ∀ grant ∈ grants, grant.1.price = price) :
    weighed weight grants = weight price * total grants := by
  induction grants with
  | nil => simp [weighed]
  | cons grant rest induction =>
      have restEq := induction fun other member =>
        placed other (List.mem_cons_of_mem _ member)
      rw [weighed] at restEq ⊢
      rw [List.map_cons, List.sum_cons, restEq,
        placed grant List.mem_cons_self, total_cons]
      push_cast
      ring

/-- Whatever weight prices have, the grants of a sweep weigh what it takes from
the levels. -/
theorem weighed_sweepLadder (weight : Int64 → Int)
    (tiered : Tiered incoming.side.opposite entries) :
    weighed weight (allGrants (sweepLadder mode incoming amount entries)) =
      ((sweepTotals incoming amount entries).map fun taken =>
        weight taken.1 * taken.2).sum := by
  induction entries generalizing amount with
  | nil => rfl
  | cons entry rest induction =>
      rw [sweepLadder, sweepTotals]
      split
      next =>
        have placed : ∀ grant ∈ (levelVisit mode incoming amount
            entry.2).grants, grant.1.price = entry.1 := by
          intro grant member
          exact tiered.placed List.mem_cons_self (mem_levelVisit member).1
        rw [allGrants, List.flatMap_cons, weighed_append,
          weighed_level weight placed, total_levelVisit, List.map_cons,
          List.sum_cons, ← induction tiered.tail]
        rfl
      next => rfl

end Totals

section Priority

variable {mode : MatchingMode} {incoming : Order} {amount : Nat}
variable {entries : List (Int64 × List Order)}

theorem sweepLadder_zero : sweepLadder mode incoming 0 entries = [] := by
  cases entries with
  | nil => rfl
  | cons entry rest =>
      rw [sweepLadder, if_neg]
      intro continues
      exact continues.1 rfl

theorem levelVisit_served {queue : List Order} {order : Order}
    (left : amount - total (levelVisit mode incoming amount queue).grants ≠ 0)
    (member : order ∈ eligible incoming queue) (positive : 0 < order.size) :
    (order, order.size) ∈ (levelVisit mode incoming amount queue).grants := by
  apply served_of_total Order.size items_levelVisit _ _ member positive
  · intro grant granted
    exact (mem_levelVisit granted).2.2.1
  · rw [total_levelVisit] at left ⊢
    omega

theorem split_append {Item : Type} {left right before after : List Item}
    {item : Item} (split : left ++ right = before ++ item :: after) :
    item ∈ left ∨
      ∃ later, before = left ++ later ∧ right = later ++ item :: after := by
  rcases List.append_eq_append_iff.mp split with
    ⟨later, beforeEq, rightEq⟩ | ⟨here, leftEq, afterEq⟩
  · exact .inr ⟨later, beforeEq, rightEq⟩
  · cases here with
    | nil => exact .inr ⟨[], by simp [leftEq], afterEq.symm⟩
    | cons head rest =>
        obtain ⟨rfl, _⟩ := List.cons.inj afterEq
        exact .inl (by simp [leftEq])

theorem Tiered.first_best {side : Side} {price : Int64} {queue : List Order}
    {rest : List (Int64 × List Order)}
    (tiered : Tiered side ((price, queue) :: rest)) {order : Order}
    (listed : order ∈ ((price, queue) :: rest).flatMap Prod.snd) :
    ¬ side.better order.price price := by
  intro better
  obtain ⟨entry, member, queued⟩ := List.mem_flatMap.mp listed
  rw [tiered.placed member queued] at better
  rcases List.mem_cons.mp member with rfl | later
  · exact Std.Irrefl.irrefl _ better
  · have worse := (List.pairwise_cons.mp tiered.sorted).1 entry later
    exact Std.Asymm.asymm _ _ better worse

/-- Before a sweep grants anything at a price, it has granted all there is at
better prices. -/
theorem sweepLadder_priority
    (tiered : Tiered incoming.side.opposite entries)
    {before after : List Grant} {grant : Grant}
    (split : allGrants (sweepLadder mode incoming amount entries) =
      before ++ grant :: after) {order : Order}
    (candidate : order ∈ matchables incoming entries)
    (positive : 0 < order.size)
    (better : incoming.side.opposite.better order.price grant.1.price) :
    (order, order.size) ∈ before := by
  induction entries generalizing amount before with
  | nil => simp [matchables] at candidate
  | cons entry rest induction =>
      rcases tiered.sweepLadder_cons mode amount with
        ⟨stops, _⟩ | ⟨visits, candidates⟩
      · rw [stops] at split
        simp [allGrants] at split
      · rw [visits, allGrants, List.flatMap_cons] at split
        rcases split_append split with here | ⟨later, rfl, laterEq⟩
        · have placed := tiered.placed List.mem_cons_self
            (mem_levelVisit here).1
          rw [placed] at better
          exact absurd better
            (tiered.first_best (List.mem_filter.mp candidate).1)
        · rw [candidates, List.mem_append] at candidate
          rcases candidate with atLevel | behind
          · apply List.mem_append_left
            apply levelVisit_served _ atLevel positive
            intro exhausted
            rw [exhausted, sweepLadder_zero] at laterEq
            simp at laterEq
          · apply List.mem_append_right
            exact induction tiered.tail laterEq behind

end Priority

section Fills

variable {incoming : Order} {grants : List Grant}

theorem filledAt_fillEvents (price : Int64)
    (bounded : ∀ grant ∈ grants, grant.2 ≤ grant.1.size) :
    (filledAt (grants.map (fillEvent incoming)) price : Int) =
      weighed (fun other => if other = price then 1 else 0) grants := by
  rw [filledAt, List.map_map, Nat.cast_list_sum, List.map_map, weighed]
  congr 1
  apply List.map_congr_left
  intro grant member
  simp only [Function.comp_apply, fillEvent_qty (bounded grant member)]
  change ((if grant.1.price = price then grant.2 else 0 : Nat) : Int) = _
  split <;> simp

theorem notional_fillEvents
    (bounded : ∀ grant ∈ grants, grant.2 ≤ grant.1.size) :
    notional (grants.map (fillEvent incoming)) =
      weighed Int64.toInt grants := by
  rw [notional, List.map_map, weighed]
  congr 1
  apply List.map_congr_left
  intro grant member
  simp only [Function.comp_apply, fillEvent_qty (bounded grant member)]
  rfl

end Fills

namespace MatchStats

/-- A sweep counts its levels, and its visited orders and grants all
together. -/
theorem chargeVisits_eq (incoming : Order) (visits : List Visit)
    (stats : MatchStats) :
    chargeVisits incoming visits stats =
      { stats.charge incoming (visits.flatMap Visit.visited)
          (allGrants visits) with
        levelsConsumed := stats.levelsConsumed + .ofNat visits.length } := by
  induction visits generalizing stats with
  | nil => simp [chargeVisits, charge, eligible, allGrants]
  | cons visit rest induction =>
      change chargeVisits incoming rest (stats.chargeVisit incoming visit) = _
      rw [induction]
      simp [charge, chargeVisit, countLevel, eligible, allGrants,
        UInt32.ofNat_add, UInt32.add_assoc, UInt32.add_comm 1]

theorem levelsConsumed_chargeVisits (incoming : Order) (visits : List Visit)
    (stats : MatchStats) :
    (chargeVisits incoming visits stats).levelsConsumed =
      stats.levelsConsumed + .ofNat visits.length := by
  rw [chargeVisits_eq]

end MatchStats

namespace Market

variable {market : Market} {mode : MatchingMode} {incoming : Order}

/-- Both modes take the same from every level. -/
theorem weighed_sweep (valid : market.Valid) (mode other : MatchingMode)
    (incoming : Order) (weight : Int64 → Int) :
    weighed weight (allGrants (market.sweep mode incoming)) =
      weighed weight (allGrants (market.sweep other incoming)) := by
  rw [sweep, sweep, weighed_sweepLadder weight (valid.tiered _),
    weighed_sweepLadder weight (valid.tiered _)]

theorem filledAt_sweep (valid : market.Valid) (mode other : MatchingMode)
    (incoming : Order) (price : Int64) :
    filledAt ((allGrants (market.sweep mode incoming)).map
        (fillEvent incoming)) price =
      filledAt ((allGrants (market.sweep other incoming)).map
        (fillEvent incoming)) price := by
  have same := weighed_sweep valid mode other incoming
    fun other => if other = price then 1 else 0
  rw [← @filledAt_fillEvents incoming _ price (sweep_bounded valid),
    ← @filledAt_fillEvents incoming _ price (sweep_bounded valid)]
    at same
  exact Int.ofNat.inj same

theorem notional_sweep (valid : market.Valid) (mode other : MatchingMode)
    (incoming : Order) :
    notional ((allGrants (market.sweep mode incoming)).map
        (fillEvent incoming)) =
      notional ((allGrants (market.sweep other incoming)).map
        (fillEvent incoming)) := by
  rw [notional_fillEvents (sweep_bounded valid),
    notional_fillEvents (sweep_bounded valid),
    weighed_sweep valid mode other]

theorem length_sweep (mode other : MatchingMode) (incoming : Order) :
    (market.sweep mode incoming).length =
      (market.sweep other incoming).length := by
  rw [sweep, sweep, length_sweepLadder, length_sweepLadder]

end Market

section Taken

variable {fills rest : List FillEvent} {fill : FillEvent}
variable {queue : List Order} {price : Int64}

theorem sum_fill (distinct : (queue.map Order.orderId).Nodup)
    (named : fill.price = price ↔
      ∃ order ∈ queue, order.orderId = fill.makerOrderId) :
    (queue.map fun order =>
        if fill.makerOrderId = order.orderId then fill.qty.toNat else 0).sum =
      if fill.price = price then fill.qty.toNat else 0 := by
  simp only [named]
  clear named
  induction queue with
  | nil => simp
  | cons order rest induction =>
      rw [List.map_cons, List.nodup_cons] at distinct
      rw [List.map_cons, List.sum_cons, induction distinct.2]
      by_cases same : order.orderId = fill.makerOrderId
      · have absent : ¬ ∃ other ∈ rest,
            other.orderId = fill.makerOrderId := by
          intro found
          obtain ⟨other, member, otherSame⟩ := found
          apply distinct.1
          exact List.mem_map.mpr ⟨other, member, otherSame.trans same.symm⟩
        rw [if_pos same.symm, if_neg absent,
          if_pos ⟨order, List.mem_cons_self, same⟩, Nat.add_zero]
      · rw [if_neg (Ne.symm same), Nat.zero_add]
        simp [same]

theorem sum_taken (distinct : (queue.map Order.orderId).Nodup)
    (named : ∀ fill ∈ fills, fill.price = price ↔
      ∃ order ∈ queue, order.orderId = fill.makerOrderId) :
    (queue.map fun order => taken fills order.orderId).sum =
      filledAt fills price := by
  induction fills with
  | nil => simp [filledAt]
  | cons fill rest induction =>
      simp only [taken_cons, List.sum_map_add]
      rw [sum_fill distinct (named fill List.mem_cons_self), induction]
      · rfl
      · intro other member
        exact named other (List.mem_cons_of_mem _ member)

theorem afterFills_eq_none {order : Order} :
    afterFills fills order = none ↔
      order.size ≤ taken fills order.orderId := by
  rw [afterFills]
  split <;> simp [*]

theorem afterFills_size {order next : Order}
    (kept : afterFills fills order = some next) :
    next.size = order.size - taken fills order.orderId ∧ 0 < next.size := by
  rw [afterFills] at kept
  split at kept
  next => cases kept
  next some_left =>
    obtain rfl := Option.some.inj kept
    have left : (UInt32.ofNat
        (order.size - taken fills order.orderId)).toNat =
        order.size - taken fills order.orderId := by
      apply UInt32.toNat_ofNat_of_lt'
      exact Nat.lt_of_le_of_lt (Nat.sub_le _ _) order.qty.toNat_lt
    change (UInt32.ofNat _).toNat = _ ∧ 0 < (UInt32.ofNat _).toNat
    omega

theorem demand_afterFills
    (covered : ∀ order ∈ queue, taken fills order.orderId ≤ order.size) :
    demand Order.size (queue.filterMap (afterFills fills)) =
      demand Order.size queue -
        (queue.map fun order => taken fills order.orderId).sum ∧
    (queue.map fun order => taken fills order.orderId).sum ≤
      demand Order.size queue := by
  induction queue with
  | nil => simp
  | cons order rest induction =>
      have fits := covered order List.mem_cons_self
      obtain ⟨restEq, restFits⟩ := induction fun other member =>
        covered other (List.mem_cons_of_mem _ member)
      rw [List.filterMap_cons, List.map_cons, List.sum_cons, demand_cons]
      refine ⟨?_, by omega⟩
      cases kept : afterFills fills order with
      | none =>
          have all := afterFills_eq_none.mp kept
          change demand _ (rest.filterMap _) = _
          omega
      | some next =>
          have left := (afterFills_size kept).1
          change demand _ (_ :: rest.filterMap _) = _
          rw [demand_cons]
          omega

end Taken

namespace Market

variable {market left right : Market} {incoming : Order}
variable {side : Side} {price : Int64}

/-- What is left of a level. -/
def remove (amount whole : Nat) : Option Nat :=
  if whole ≤ amount then none else some (whole - amount)

/-- The fills name orders at the prices that they report. -/
def Names (market : Market) (side : Side) (fills : List FillEvent) : Prop :=
  ∀ fill ∈ fills, ∃ maker, market.Rests maker ∧ maker.side = side ∧
    maker.orderId = fill.makerOrderId ∧ maker.price = fill.price

theorem names_sweep (mode : MatchingMode) (valid : market.Valid) :
    market.Names incoming.side.opposite
      ((allGrants (market.sweep mode incoming)).map (fillEvent incoming)) := by
  intro fill filled
  obtain ⟨grant, member, rfl⟩ := List.mem_map.mp filled
  obtain ⟨rests, sideEq, _⟩ := mem_sweep valid member
  exact ⟨grant.1, rests, sideEq, rfl, rfl⟩

theorem Valid.queue_ids_nodup (valid : market.Valid) {queue : List Order}
    (listed : (price, queue) ∈ (market.ladder side).entries) :
    (queue.map Order.orderId).Nodup := by
  have sublist : queue.Sublist (market.orders side) :=
    List.sublist_flatten_of_mem (List.mem_map_of_mem listed)
  exact (valid.side_ids_nodup side).sublist (sublist.map Order.orderId)

theorem depth?_afterFills (sound : market.Sound) {fills : List FillEvent}
    (names : market.Names side.opposite fills)
    (covered : ∀ order, market.Rests order →
      taken fills order.orderId ≤ order.size) :
    (market.revise (afterFills fills)).depth? side.opposite price =
      (market.depth? side.opposite price).bind
        (remove (filledAt fills price)) := by
  have found : ((market.revise (afterFills fills)).ladder
      side.opposite).find? price =
      ((market.ladder side.opposite).find? price).bind
        (reviseQueue (afterFills fills)) := SortedMap.find?_filterMap _ _ _
  rw [depth?, depth?, found]
  cases queueEq : (market.ladder side.opposite).find? price with
  | none => rfl
  | some queue =>
      have listed := SortedMap.find?_eq_some_iff.mp queueEq
      have named : ∀ fill ∈ fills, fill.price = price ↔
          ∃ order ∈ queue, order.orderId = fill.makerOrderId := by
        intro fill filled
        obtain ⟨maker, rests, sideEq, idEq, priceEq⟩ := names fill filled
        constructor
        · intro same
          have queued := sound.mem_queueAt_iff.mpr
            ⟨rests, sideEq, priceEq.trans same⟩
          rw [queueAt_eq listed] at queued
          exact ⟨maker, queued, idEq⟩
        · intro holds
          obtain ⟨order, queued, sameId⟩ := holds
          rw [← queueAt_eq listed, sound.mem_queueAt_iff] at queued
          rw [← priceEq, sound.id_unique rests queued.1
            (idEq.trans sameId.symm)]
          exact queued.2.2
      have queueCovered : ∀ order ∈ queue,
          taken fills order.orderId ≤ order.size := by
        intro order queued
        rw [← queueAt_eq listed, sound.mem_queueAt_iff] at queued
        exact covered order queued.1
      have demandEq := (demand_afterFills queueCovered).1
      rw [sum_taken (sound.queue_ids_nodup listed) named] at demandEq
      rw [Option.bind_some, Option.map_some, Option.bind_some, reviseQueue,
        remove]
      split
      next empty =>
        rw [empty, demand_nil] at demandEq
        rw [if_pos (by omega)]
        rfl
      next order rest populated =>
        have kept : order ∈ queue.filterMap (afterFills fills) := by
          simp [populated]
        obtain ⟨old, _, keeps⟩ := List.mem_filterMap.mp kept
        have positive := (afterFills_size keeps).2
        rw [populated, demand_cons] at demandEq
        rw [if_neg (by omega), Option.map_some, demand_cons, demandEq]

/-- The same quantities rest at the same prices. -/
def SameDepth (left right : Market) : Prop :=
  ∀ side price, left.depth? side price = right.depth? side price

section SameDepth

variable {sizes : PoolSizes}

theorem SameDepth.find? (same : left.SameDepth right) (side : Side)
    (price : Int64) : ((left.ladder side).find? price).isSome =
      ((right.ladder side).find? price).isSome := by
  have depths := congrArg Option.isSome (same side price)
  simpa only [depth?, Option.isSome_map] using depths

theorem SameDepth.keys (same : left.SameDepth right) (side : Side) :
    (left.ladder side).entries.map Prod.fst =
      (right.ladder side).entries.map Prod.fst :=
  SortedMap.keys_eq (same.find? side)

theorem SameDepth.blocks (same : left.SameDepth right) (incoming : Order) :
    left.blocks incoming = right.blocks incoming := by
  simp only [Market.blocks, best?, ← List.head?_map, same.keys]

theorem SameDepth.levelCount (same : left.SameDepth right) :
    left.levelCount = right.levelCount := by
  have count : ∀ side, (left.ladder side).entries.length =
      (right.ladder side).entries.length := by
    intro side
    simpa only [List.length_map] using congrArg List.length (same.keys side)
  rw [Market.levelCount, Market.levelCount, count, count]

/-- When neither lacks an order slot, both have room or neither has. -/
theorem SameDepth.hasRoom (same : left.SameDepth right)
    (leftFree : left.orderCount < sizes.orders)
    (rightFree : right.orderCount < sizes.orders) (order : Order) :
    left.HasRoom sizes order ↔ right.HasRoom sizes order := by
  rw [HasRoom, HasRoom, same.levelCount, same.find?]
  exact and_congr_left fun _ => iff_of_true leftFree rightFree

theorem depth?_insert (market : Market) (order : Order) (side : Side)
    (price : Int64) :
    (market.insert order).depth? side price =
      if side = order.side ∧ price = order.price then
        some ((market.depth? side price).getD 0 + order.size)
      else market.depth? side price := by
  by_cases same : side = order.side
  · subst same
    rw [depth?, insert_ladder_self]
    by_cases here : price = order.price
    · subst here
      rw [SortedMap.find?_upsert_self, if_pos ⟨rfl, rfl⟩, depth?]
      cases (market.ladder order.side).find? order.price <;> simp
    · rw [SortedMap.find?_upsert_of_ne _ here, if_neg (by simp [here]), depth?]
  · rw [depth?, insert_ladder_of_ne same, if_neg (by simp [same]), depth?]

theorem SameDepth.insert (same : left.SameDepth right) (order : Order) :
    (left.insert order).SameDepth (right.insert order) := by
  intro side price
  rw [depth?_insert, depth?_insert, same]

end SameDepth

theorem isSome_find?_insert (sound : market.Sound)
    (absent : market.find? incoming.orderId = none) (qty : UInt32) :
    ((market.insert { incoming with qty }).find?
      incoming.orderId).isSome = true := by
  have valid : (market.insert { incoming with qty }).Valid :=
    Valid.insert sound.toValid absent
  apply Option.isSome_iff_exists.mpr
  refine ⟨{ incoming with qty }, valid.find?_eq_some_iff.mpr ⟨?_, rfl⟩⟩
  exact rests_insert.mpr (.inr rfl)

/-- The remainder of an order comes to rest in both markets or in neither. -/
theorem SameDepth.rest {sizes : PoolSizes} (same : left.SameDepth right)
    (leftSound : left.Sound) (rightSound : right.Sound)
    (leftAbsent : left.find? incoming.orderId = none)
    (rightAbsent : right.find? incoming.orderId = none)
    (leftFree : left.orderCount < sizes.orders)
    (rightFree : right.orderCount < sizes.orders) (remaining : UInt32) :
    let leftNext := left.rest sizes incoming remaining.toNat
    let rightNext := right.rest sizes incoming remaining.toNat
    leftNext.SameDepth rightNext ∧
      (leftNext.find? incoming.orderId).isSome =
        (rightNext.find? incoming.orderId).isSome := by
  dsimp only
  rw [rest_eq sizes remaining leftAbsent, rest_eq sizes remaining rightAbsent]
  have room := same.hasRoom leftFree rightFree incoming
  rw [same.blocks]
  by_cases comes : incoming.tif = .gtc ∧ 0 < remaining ∧
      right.blocks incoming = false ∧ right.HasRoom sizes incoming
  · rw [if_pos comes,
      if_pos ⟨comes.1, comes.2.1, comes.2.2.1, room.mpr comes.2.2.2⟩,
      isSome_find?_insert leftSound leftAbsent,
      isSome_find?_insert rightSound rightAbsent]
    exact ⟨same.insert _, rfl⟩
  · rw [if_neg comes, if_neg fun all => comes
      ⟨all.1, all.2.1, all.2.2.1, room.mp all.2.2.2⟩, leftAbsent, rightAbsent]
    exact ⟨same, rfl⟩

section Agreement

variable {sizes : PoolSizes}

/-- What the fills of both modes leave at every price is the same. -/
theorem swept_sameDepth (sound : market.Sound) (mode other : MatchingMode)
    (incoming : Order) :
    (market.revise (afterFills ((allGrants (market.sweep mode incoming)).map
        (fillEvent incoming)))).SameDepth
      (market.revise (afterFills ((allGrants (market.sweep other incoming)).map
        (fillEvent incoming)))) := by
  intro side price
  have ownSide : ∀ mode, (market.revise (afterFills
      ((allGrants (market.sweep mode incoming)).map
        (fillEvent incoming)))).ladder incoming.side =
      market.ladder incoming.side := by
    intro mode
    exact ladder_afterFills sound (makers_sweep mode sound)
  have opposite : ∀ mode, (market.revise (afterFills
      ((allGrants (market.sweep mode incoming)).map
        (fillEvent incoming)))).depth? incoming.side.opposite price =
      (market.depth? incoming.side.opposite price).bind
        (remove (filledAt ((allGrants (market.sweep mode incoming)).map
          (fillEvent incoming)) price)) := by
    intro mode
    apply depth?_afterFills sound (names_sweep mode sound.toValid)
    intro order rests
    exact taken_sweep_le mode incoming sound.toValid rests
  by_cases same : side = incoming.side
  · rw [same, depth?, depth?, ownSide, ownSide]
  · have opposed : side = incoming.side.opposite := by
      revert same
      cases side <;> cases incoming.side <;> simp [Side.opposite]
    rw [opposed, opposite, opposite,
      filledAt_sweep sound.toValid mode other]

/-- The fills of a sweep as one revision. -/
theorem sweep_changed (sound : market.Sound) (mode : MatchingMode)
    (incoming : Order) :
    let fills := (allGrants (market.sweep mode incoming)).map
      (fillEvent incoming)
    market.applyFills fills = market.revise (afterFills fills) ∧
      market.Changed (market.applyFills fills) :=
  ⟨applyFills_eq sound.toValid (fun _ rests => sound.size_pos rests)
    fun _ rests => taken_sweep_le mode incoming sound.toValid rests,
    changed_applyFills sound.toValid _⟩

theorem remainingQty_commitMatch (valid : market.Valid)
    (mode other : MatchingMode) :
    (market.commitMatch sizes mode incoming).stats.remainingQty =
      (market.commitMatch sizes other incoming).stats.remainingQty := by
  change UInt32.ofNat (incoming.size - total _) =
    UInt32.ofNat (incoming.size - total _)
  rw [total_sweep valid, total_sweep valid]

theorem market_commitMatch (mode : MatchingMode) :
    (market.commitMatch sizes mode incoming).market =
      (market.applyFills ((allGrants (market.sweep mode incoming)).map
        (fillEvent incoming))).rest sizes incoming
        (market.commitMatch sizes mode incoming).stats.remainingQty.toNat := by
  have left : (UInt32.ofNat (incoming.size -
      total (allGrants (market.sweep mode incoming)))).toNat =
      incoming.size - total (allGrants (market.sweep mode incoming)) := by
    apply UInt32.toNat_ofNat_of_lt'
    exact Nat.lt_of_le_of_lt (Nat.sub_le _ _) incoming.qty.toNat_lt
  change _ = Market.rest sizes _ incoming (UInt32.ofNat _).toNat
  rw [left]
  rfl

theorem commitMatch_sameDepth (sound : market.Sound)
    (mode other : MatchingMode)
    (absent : market.find? incoming.orderId = none)
    (slotFree : market.orderCount < sizes.orders) :
    let left := (market.commitMatch sizes mode incoming).market
    let right := (market.commitMatch sizes other incoming).market
    left.SameDepth right ∧ (left.find? incoming.orderId).isSome =
      (right.find? incoming.orderId).isSome := by
  dsimp only
  obtain ⟨leftEq, leftChanged⟩ := sweep_changed sound mode incoming
  obtain ⟨rightEq, rightChanged⟩ := sweep_changed sound other incoming
  have same := swept_sameDepth sound mode other incoming
  rw [← leftEq, ← rightEq] at same
  rw [market_commitMatch, market_commitMatch,
    remainingQty_commitMatch sound.toValid mode other]
  apply same.rest (sound.changed leftChanged) (sound.changed rightChanged)
    (leftChanged.find?_none sound.toValid absent)
    (rightChanged.find?_none sound.toValid absent)
  · rw [leftEq]
    exact Nat.lt_of_le_of_lt (orderCount_revise_le _ _) slotFree
  · rw [rightEq]
    exact Nat.lt_of_le_of_lt (orderCount_revise_le _ _) slotFree

theorem commitMatch_agrees (sound : market.Sound) (mode other : MatchingMode)
    (absent : market.find? incoming.orderId = none)
    (slotFree : market.orderCount < sizes.orders) :
    (market.commitMatch sizes mode incoming).Agrees incoming
      (market.commitMatch sizes other incoming) := by
  obtain ⟨depth, rests⟩ :=
    commitMatch_sameDepth sound mode other absent slotFree
  constructor
  case filled =>
    intro price
    exact filledAt_sweep sound.toValid mode other incoming price
  case notional => exact notional_sweep sound.toValid mode other incoming
  case remaining => exact remainingQty_commitMatch sound.toValid mode other
  case levels =>
    change (MatchStats.chargeVisits _ _ _).levelsConsumed =
      (MatchStats.chargeVisits _ _ _).levelsConsumed
    rw [MatchStats.levelsConsumed_chargeVisits,
      MatchStats.levelsConsumed_chargeVisits, length_sweep mode other]
  case rests => exact rests
  case depth => exact depth

/-- Matching an order in either mode has the same outcome, up to who is
filled. -/
theorem matchOrder_agrees (sound : market.Sound) (mode other : MatchingMode)
    (absent : market.find? incoming.orderId = none)
    (slotFree : market.orderCount < sizes.orders) :
    (market.matchOrder sizes mode incoming).Agrees incoming
      (market.matchOrder sizes other incoming) := by
  have rejects : market.Rejects mode incoming ↔
      market.Rejects other incoming :=
    (rejects_iff mode sound.toValid absent).trans
      (rejects_iff other sound.toValid absent).symm
  by_cases refused : market.Rejects mode incoming
  · rw [matchOrder, matchOrder, if_pos refused, if_pos (rejects.mp refused)]
    exact ⟨fun _ => rfl, rfl, rfl, rfl, rfl, fun _ _ => rfl⟩
  · rw [matchOrder, matchOrder, if_neg refused,
      if_neg (fun other => refused (rejects.mpr other))]
    exact commitMatch_agrees sound mode other absent slotFree

/-- When a fill of either mode is reported, nothing is left of any order that
could have traded at a better price. -/
theorem matchOrder_priority (sound : market.Sound) (mode : MatchingMode)
    {before after : List FillEvent} {fill : FillEvent}
    (split : (market.matchOrder sizes mode incoming).fills =
      before ++ fill :: after) {order : Order}
    (candidate : order ∈ market.matchable incoming)
    (better : incoming.side.opposite.better order.price fill.price) :
    taken before order.orderId = order.size := by
  rw [matchOrder] at split
  split at split
  next =>
    have nothing : [] = before ++ fill :: after := split
    simp at nothing
  next =>
    obtain ⟨front, back, grantsEq, rfl, backEq⟩ :=
      List.map_eq_append_iff.mp split
    obtain ⟨grant, rest, rfl, rfl, _⟩ := List.map_eq_cons_iff.mp backEq
    have rests := (sound.mem_orders_iff.mp (mem_matchable.mp candidate).1).1
    have served := sweepLadder_priority (sound.toValid.tiered _) grantsEq
      candidate (sound.size_pos rests) better
    have distinct := grants_distinct mode incoming sound.toValid
    rw [grantsEq, List.map_append] at distinct
    have bounded : ∀ grant ∈ front, grant.2 ≤ grant.1.size := by
      intro other member
      apply @sweep_bounded market mode incoming sound.toValid
      rw [grantsEq]
      exact List.mem_append_left _ member
    exact taken_fillEvents bounded (List.nodup_append'.mp distinct).1 served

end Agreement

end Market

end Hydra
