import Hydra.Market.Sweep

/-!
# Fills as a ledger

A list of fills says for every order how much is taken from it.  Applying the
fills one after the other is one revision of the market: every order loses
what the ledger takes from its id, and the orders that lose everything leave.
-/

namespace Hydra

open Allocation

/-- What the fills take from the order with the given id. -/
def taken (fills : List FillEvent) (orderId : UInt64) : Nat :=
  (fills.map fun fill =>
    if fill.makerOrderId = orderId then fill.qty.toNat else 0).sum

/-- The order without what the fills take from it, unless that is all. -/
def afterFills (fills : List FillEvent) (order : Order) : Option Order :=
  if order.size ≤ taken fills order.orderId then none
  else some { order with
    qty := .ofNat (order.size - taken fills order.orderId) }

section Taken

variable {fills rest : List FillEvent} {fill : FillEvent} {order : Order}

@[simp] theorem taken_nil (orderId : UInt64) : taken [] orderId = 0 := rfl

theorem taken_cons (orderId : UInt64) :
    taken (fill :: rest) orderId =
      (if fill.makerOrderId = orderId then fill.qty.toNat else 0) +
        taken rest orderId := by
  simp [taken]

/-- Nothing is taken from an order that no fill names. -/
theorem taken_eq_zero {orderId : UInt64}
    (unnamed : ∀ fill ∈ fills, fill.makerOrderId ≠ orderId) :
    taken fills orderId = 0 := by
  induction fills with
  | nil => rfl
  | cons fill rest induction =>
      rw [taken_cons, if_neg (unnamed fill List.mem_cons_self), induction]
      intro other member
      exact unnamed other (List.mem_cons_of_mem _ member)

theorem afterFills_untouched (positive : 0 < order.size)
    (untouched : taken fills order.orderId = 0) :
    afterFills fills order = some order := by
  have sameQty : UInt32.ofNat order.size = order.qty :=
    UInt32.ofNat_toNat
  rw [afterFills, untouched, if_neg (by omega), Nat.sub_zero, sameQty]

/-- The fill of the front and the ledger of the rest take what the whole
ledger takes. -/
theorem afterFill_bind
    (covered : taken (fill :: rest) order.orderId ≤ order.size) :
    ((if order.orderId = fill.makerOrderId then order.afterFill fill.qty
      else some order).bind (afterFills rest)) =
      afterFills (fill :: rest) order := by
  rw [taken_cons] at covered
  by_cases named : order.orderId = fill.makerOrderId
  · rw [if_pos named.symm] at covered
    have fits : fill.qty ≤ order.qty := by
      rw [UInt32.le_iff_toNat_le]
      change _ ≤ order.size
      omega
    have left : (order.qty - fill.qty).toNat = order.size - fill.qty.toNat :=
      UInt32.toNat_sub_of_le _ _ fits
    have empty_iff : order.qty - fill.qty = 0 ↔
        order.size ≤ fill.qty.toNat := by
      rw [← UInt32.toNat_inj, left]
      change _ = 0 ↔ _
      omega
    rw [if_pos named, Order.afterFill, afterFills, taken_cons,
      if_pos named.symm]
    by_cases empty : order.size ≤ fill.qty.toNat
    · rw [if_pos (empty_iff.mpr empty), if_pos (by omega)]
      rfl
    · let partly : Order := { order with qty := order.qty - fill.qty }
      have partlySize : partly.size = order.size - fill.qty.toNat := left
      have partlyAfter : afterFills rest partly =
          if partly.size ≤ taken rest order.orderId then none
          else some { order with
            qty := .ofNat (partly.size - taken rest order.orderId) } := rfl
      rw [if_neg (fun zero => empty (empty_iff.mp zero)), Option.bind_some,
        partlyAfter, partlySize]
      by_cases all : order.size ≤ fill.qty.toNat + taken rest order.orderId
      · rw [if_pos (by omega), if_pos all]
      · rw [if_neg (by omega), if_neg all, Nat.sub_sub]
  · rw [if_neg named, Option.bind_some, afterFills, afterFills, taken_cons,
      if_neg (Ne.symm named), Nat.zero_add]

end Taken

namespace Market

variable {market : Market} {fills : List FillEvent}

theorem revise_congr {change other : Order → Option Order}
    (agree : ∀ side, ∀ order ∈ market.orders side,
      change order = other order) :
    market.revise change = market.revise other := by
  apply ext
  intro side
  apply SortedMap.ext
  change (market.ladder side).entries.filterMap _ =
    (market.ladder side).entries.filterMap _
  apply List.filterMap_congr
  intro entry member
  have sameQueue : entry.2.filterMap change = entry.2.filterMap other := by
    apply List.filterMap_congr
    intro order queued
    exact agree side order (mem_orders.mpr ⟨_, _, member, queued⟩)
  simp only [reviseQueue, sameQueue]

theorem revise_some (valid : market.Valid) : market.revise some = market := by
  apply ext
  intro side
  apply ladder_revise_fixed valid
  intro order _
  rfl

theorem rests_applyFill {fill : FillEvent} {rest : List FillEvent}
    (positive : ∀ order, market.Rests order → 0 < order.size)
    (covered : ∀ order, market.Rests order →
      taken (fill :: rest) order.orderId ≤ order.size) {order : Order}
    (rests : (market.applyFill fill).Rests order) :
    0 < order.size ∧ taken rest order.orderId ≤ order.size := by
  have keeps : KeepsPlace fun order =>
      if order.orderId = fill.makerOrderId then order.afterFill fill.qty
      else some order := keepsPlace_alter (keepsPlace_afterFill fill.qty)
  obtain ⟨old, oldRests, changed⟩ := (rests_revise keeps).mp rests
  have oldCovered := covered old oldRests
  have oldPositive := positive old oldRests
  rw [(keeps old order changed).2.2]
  rw [taken_cons] at oldCovered
  split at changed
  next named =>
    rw [if_pos named.symm] at oldCovered
    rw [Order.afterFill] at changed
    split at changed
    next => cases changed
    next remains =>
      obtain rfl := Option.some.inj changed
      have fits : fill.qty ≤ old.qty := by
        rw [UInt32.le_iff_toNat_le]
        change _ ≤ old.size
        omega
      have left : (old.qty - fill.qty).toNat = old.size - fill.qty.toNat :=
        UInt32.toNat_sub_of_le _ _ fits
      have positive : 0 < (old.qty - fill.qty).toNat :=
        UInt32.lt_iff_toNat_lt.mp (UInt32.pos_iff_ne_zero.mpr remains)
      change 0 < (old.qty - fill.qty).toNat ∧
        taken rest old.orderId ≤ (old.qty - fill.qty).toNat
      omega
  next other =>
    obtain rfl := Option.some.inj changed
    rw [if_neg (Ne.symm other), Nat.zero_add] at oldCovered
    exact ⟨oldPositive, oldCovered⟩

/-- Applying fills is one revision, as long as no order loses more than it
has. -/
theorem applyFills_eq (valid : market.Valid)
    (positive : ∀ order, market.Rests order → 0 < order.size)
    (covered : ∀ order, market.Rests order →
      taken fills order.orderId ≤ order.size) :
    market.applyFills fills = market.revise (afterFills fills) := by
  induction fills generalizing market with
  | nil =>
      apply (revise_some valid).symm.trans
      apply revise_congr
      intro side order member
      obtain ⟨rests, _⟩ := valid.mem_orders_iff.mp member
      exact (afterFills_untouched (positive order rests) rfl).symm
  | cons fill rest induction =>
      change (market.applyFill fill).applyFills rest = _
      rw [induction (valid.applyFill fill)
          (fun _ rests => (rests_applyFill positive covered rests).1)
          (fun _ rests => (rests_applyFill positive covered rests).2),
        applyFill, alter, revise_revise]
      apply revise_congr
      intro side order member
      obtain ⟨rests, _⟩ := valid.mem_orders_iff.mp member
      exact afterFill_bind (covered order rests)

end Market

section Grants

variable {incoming : Order} {grants : List Grant} {grant : Grant}

theorem fillEvent_qty (bounded : grant.2 ≤ grant.1.size) :
    (fillEvent incoming grant).qty.toNat = grant.2 := by
  apply UInt32.toNat_ofNat_of_lt'
  exact Nat.lt_of_le_of_lt bounded grant.1.qty.toNat_lt

theorem sum_fillEvents (bounded : ∀ grant ∈ grants, grant.2 ≤ grant.1.size) :
    ((grants.map (fillEvent incoming)).map fun fill => fill.qty.toNat).sum =
      total grants := by
  rw [List.map_map, total]
  congr 1
  apply List.map_congr_left
  intro grant member
  exact fillEvent_qty (bounded grant member)

/-- A grant is all that is taken from its order when no other grant names it. -/
theorem taken_fillEvents (bounded : ∀ grant ∈ grants, grant.2 ≤ grant.1.size)
    (distinct : (grants.map fun grant => grant.1.orderId).Nodup)
    (member : grant ∈ grants) :
    taken (grants.map (fillEvent incoming)) grant.1.orderId = grant.2 := by
  induction grants with
  | nil => cases member
  | cons head rest induction =>
      rw [List.map_cons, List.nodup_cons] at distinct
      have restBounded : ∀ grant ∈ rest, grant.2 ≤ grant.1.size := by
        intro grant member
        exact bounded grant (List.mem_cons_of_mem _ member)
      rw [List.map_cons, taken_cons]
      change (if head.1.orderId = _ then _ else 0) + _ = _
      rcases List.mem_cons.mp member with rfl | later
      · rw [if_pos rfl, fillEvent_qty (bounded grant List.mem_cons_self),
          taken_eq_zero, Nat.add_zero]
        intro fill filled
        obtain ⟨other, otherMember, rfl⟩ := List.mem_map.mp filled
        intro sameId
        apply distinct.1
        exact List.mem_map.mpr ⟨other, otherMember, sameId⟩
      · rw [if_neg, Nat.zero_add]
        · exact induction restBounded distinct.2 later
        · intro sameId
          apply distinct.1
          exact List.mem_map.mpr ⟨grant, later, sameId.symm⟩

end Grants

namespace Market

variable {market : Market}

theorem Valid.side_ids_nodup (valid : market.Valid) (side : Side) :
    ((market.orders side).map Order.orderId).Nodup := by
  have idsNodup := valid.ids_nodup
  rw [List.map_append] at idsNodup
  cases side with
  | buy => exact (List.nodup_append'.mp idsNodup).1
  | sell => exact (List.nodup_append'.mp idsNodup).2.1

/-- No two grants of a sweep go to the same id. -/
theorem grants_distinct (mode : MatchingMode) (incoming : Order)
    (valid : market.Valid) :
    ((allGrants (market.sweep mode incoming)).map fun grant =>
      grant.1.orderId).Nodup := by
  obtain ⟨items, perm, sublist⟩ :=
    @items_sweep market mode incoming valid
  have listed : items.Sublist (market.orders incoming.side.opposite) :=
    sublist.trans List.filter_sublist
  have itemsNodup := (valid.side_ids_nodup incoming.side.opposite).sublist
    (listed.map Order.orderId)
  have permIds := perm.map Order.orderId
  rw [List.map_map] at permIds
  exact permIds.nodup_iff.mp itemsNodup

/-- The fills of a sweep never take more from an order than it has. -/
theorem taken_sweep_le (mode : MatchingMode) (incoming : Order)
    (valid : market.Valid) {order : Order} (rests : market.Rests order) :
    taken ((allGrants (market.sweep mode incoming)).map (fillEvent incoming))
      order.orderId ≤ order.size := by
  have bounded : ∀ grant ∈ allGrants (market.sweep mode incoming),
      grant.2 ≤ grant.1.size := by
    intro grant member
    exact (mem_sweep valid member).2.2.2.2.1
  by_cases granted : ∃ grant ∈ allGrants (market.sweep mode incoming),
      grant.1.orderId = order.orderId
  · obtain ⟨grant, member, sameId⟩ := granted
    have sameOrder := valid.id_unique (mem_sweep valid member).1 rests sameId
    rw [← sameOrder, taken_fillEvents bounded
      (grants_distinct mode incoming valid) member]
    exact bounded grant member
  · rw [taken_eq_zero]
    · exact Nat.zero_le _
    · intro fill filled
      obtain ⟨grant, member, rfl⟩ := List.mem_map.mp filled
      intro sameId
      exact granted ⟨grant, member, sameId⟩

end Market

end Hydra
