import Hydra.Market.Ledger
import Hydra.Match.ProRata

/-!
# The pro-rata law

What the orders of one level receive from a pro-rata fill, stated on exact
numbers: every eligible order its rounded-down share, the first largest order
the residual up to its size, and the others what is left of the residual, in
the order of the queue.  The words that the matcher computes on the way are
those numbers: none of its products, sums and differences wraps.
-/

namespace Hydra

open Allocation

/-- The fills share an amount among the orders of a level. -/
structure SharedAmong (orders : List Order) (amount : Nat)
    (fills : List FillEvent) : Prop where
  once : (fills.map FillEvent.makerOrderId).Nodup
  makers : ∀ fill ∈ fills, ∃ order ∈ orders,
    order.orderId = fill.makerOrderId
  conserved : (fills.map fun fill => fill.qty.toNat).sum = amount
  bounds : ∀ order ∈ orders,
    amount * order.size / demand Order.size orders ≤
      taken fills order.orderId ∧
    taken fills order.orderId ≤ order.size
  residual : ∃ front largest back, orders = front ++ largest :: back ∧
    (∀ order ∈ front, order.size < largest.size) ∧
    (∀ order ∈ back, order.size ≤ largest.size) ∧
    let whole := demand Order.size orders
    let residual := amount - floors Order.size amount whole orders
    let floor := amount * largest.size / whole
    taken fills largest.orderId = min largest.size (floor + residual) ∧
    (front ++ back).map (fun order => (order, taken fills order.orderId)) =
      topUp Order.size amount whole
        (residual - min residual (largest.size - floor)) (front ++ back)

section Shares

variable {incoming : Order} {grants : List Grant} {grant : Grant}

theorem taken_positive (bounded : ∀ grant ∈ grants, grant.2 ≤ grant.1.size)
    (distinct : (grants.map fun grant => grant.1.orderId).Nodup)
    (member : grant ∈ grants) :
    taken ((grants.filter fun grant => decide (0 < grant.2)).map
      (fillEvent incoming)) grant.1.orderId = grant.2 := by
  by_cases positive : 0 < grant.2
  · apply taken_fillEvents
    · intro other otherMember
      exact bounded other (List.mem_filter.mp otherMember).1
    · exact distinct.sublist (List.filter_sublist.map _)
    · exact List.mem_filter.mpr ⟨member, decide_eq_true positive⟩
  · rw [taken_eq_zero]
    · exact (Nat.eq_zero_of_not_pos positive).symm
    · intro fill filled sameId
      obtain ⟨other, otherMember, rfl⟩ := List.mem_map.mp filled
      obtain ⟨listed, otherPositive⟩ := List.mem_filter.mp otherMember
      have same : other = grant :=
        List.inj_on_of_nodup_map distinct listed member sameId
      rw [same] at otherPositive
      exact positive (of_decide_eq_true otherPositive)

theorem proportional_shared {orders : List Order} {amount : Nat}
    (ids : (orders.map Order.orderId).Nodup) (some_order : orders ≠ [])
    (bounded : amount ≤ demand Order.size orders) :
    SharedAmong orders amount
      (((proportional Order.size amount orders).filter fun grant =>
        decide (0 < grant.2)).map (fillEvent incoming)) := by
  have fits : ∀ grant ∈ proportional Order.size amount orders,
      grant.2 ≤ grant.1.size := by
    intro grant member
    exact (mem_proportional Order.size bounded member).2.2
  have items := proportional_items Order.size amount orders
  have distinct : ((proportional Order.size amount orders).map fun grant =>
      grant.1.orderId).Nodup := by
    have permIds := items.map Order.orderId
    rw [List.map_map] at permIds
    exact permIds.nodup_iff.mpr ids
  have takenEq : ∀ grant ∈ proportional Order.size amount orders,
      taken (((proportional Order.size amount orders).filter fun grant =>
        decide (0 < grant.2)).map (fillEvent incoming)) grant.1.orderId =
        grant.2 := by
    intro grant member
    exact taken_positive fits distinct member
  constructor
  case once =>
    rw [List.map_map]
    exact distinct.sublist (List.filter_sublist.map _)
  case makers =>
    intro fill filled
    obtain ⟨grant, member, rfl⟩ := List.mem_map.mp filled
    have listed := (List.mem_filter.mp member).1
    exact ⟨grant.1, items.subset (List.mem_map_of_mem listed), rfl⟩
  case conserved =>
    rw [sum_fillEvents, total_filter_pos, total_proportional _ bounded]
    intro grant member
    exact fits grant (List.mem_filter.mp member).1
  case bounds =>
    intro order member
    obtain ⟨grant, granted, rfl⟩ :=
      List.mem_map.mp (items.symm.subset member)
    rw [takenEq grant granted]
    exact (mem_proportional Order.size bounded granted).2
  case residual =>
    cases found : splitLargest Order.size orders with
    | none =>
        rw [splitLargest_eq_none] at found
        exact absurd found some_order
    | some parts =>
        obtain ⟨front, largest, back⟩ := parts
        obtain ⟨split, smaller, later⟩ := splitLargest_spec _ found
        refine ⟨front, largest, back, split, smaller, later, ?_⟩
        intro whole residual floor
        have floorLe : floor ≤ largest.size :=
          share_le bounded largest.size
        have allocation : proportional Order.size amount orders =
            topUp Order.size amount whole
              (residual - min residual (largest.size - floor))
              (front ++ back) ++
            [(largest, floor + min residual (largest.size - floor))] := by
          rw [proportional, found]
          rfl
        constructor
        · have last := takenEq (largest, floor +
            min residual (largest.size - floor)) (by simp [allocation])
          dsimp only at last
          rw [last]
          omega
        · generalize others : topUp Order.size amount whole
              (residual - min residual (largest.size - floor))
              (front ++ back) = tops at allocation ⊢
          have topItems : tops.map Prod.fst = front ++ back := by
            rw [← others, topUp_items]
          rw [← topItems, List.map_map]
          apply Eq.trans _ (List.map_id tops)
          apply List.map_congr_left
          intro grant member
          have listed : grant ∈ proportional Order.size amount orders := by
            rw [allocation]
            exact List.mem_append_left _ member
          change (grant.1, taken _ grant.1.orderId) = grant
          rw [takenEq grant listed]

end Shares

namespace Sweep

variable {sizes : PoolSizes} {sweep : Sweep sizes} {layout : Layout sizes}
variable {side : Side} {price : Int64} {level : LevelSlot sizes}

/-- The words of the passes over a level are the exact numbers. -/
structure ExactPasses (orders : List Order) (amount whole : Nat)
    (fillQty totalFloor : UInt32) (eligibleTotal : UInt64) : Prop where
  wholeExact : eligibleTotal.toNat = whole
  amountExact : fillQty.toNat = amount
  floorsExact : totalFloor.toNat = floors Order.size amount whole orders
  residualExact : (fillQty - totalFloor).toNat =
    amount - floors Order.size amount whole orders
  productExact : ∀ order ∈ orders,
    (fillQty.toUInt64 * order.qty.toUInt64).toNat = amount * order.size
  shareExact : ∀ order ∈ orders,
    (floorShare fillQty order.qty eligibleTotal).toNat =
      amount * order.size / whole
  headroomExact : ∀ order ∈ orders,
    (order.qty - floorShare fillQty order.qty eligibleTotal).toNat =
      order.size - amount * order.size / whole

theorem exactPasses {orders : List Order} {fillQty totalFloor : UInt32}
    {eligibleTotal : UInt64}
    (wholeEq : eligibleTotal.toNat = demand Order.size orders)
    (positive : 0 < eligibleTotal.toNat)
    (bounded : fillQty.toNat ≤ eligibleTotal.toNat)
    (floorsEq : totalFloor.toNat =
      floors Order.size fillQty.toNat eligibleTotal.toNat orders) :
    ExactPasses orders fillQty.toNat eligibleTotal.toNat fillQty totalFloor
      eligibleTotal := by
  have shares : ∀ order : Order,
      (floorShare fillQty order.qty eligibleTotal).toNat =
        fillQty.toNat * order.size / eligibleTotal.toNat := by
    intro order
    rw [floorShare_eq]
    apply UInt32.toNat_ofNat_of_lt'
    exact Nat.lt_of_le_of_lt (share_le bounded order.size) order.qty.toNat_lt
  constructor
  case wholeExact => rfl
  case amountExact => rfl
  case floorsExact => exact floorsEq
  case residualExact =>
    have fits : totalFloor ≤ fillQty := by
      rw [UInt32.le_iff_toNat_le, floorsEq, wholeEq]
      exact floors_le Order.size _ (wholeEq ▸ positive)
    rw [UInt32.toNat_sub_of_le _ _ fits, floorsEq]
  case productExact =>
    intro order _
    rw [UInt64.toNat_mul, UInt32.toNat_toUInt64, UInt32.toNat_toUInt64]
    apply Nat.mod_eq_of_lt
    calc fillQty.toNat * order.qty.toNat
        < 2 ^ 32 * 2 ^ 32 :=
          Nat.mul_lt_mul'' fillQty.toNat_lt order.qty.toNat_lt
      _ = 2 ^ 64 := by decide
  case shareExact =>
    intro order _
    exact shares order
  case headroomExact =>
    intro order _
    have fits : floorShare fillQty order.qty eligibleTotal ≤ order.qty := by
      rw [UInt32.le_iff_toNat_le, shares order]
      exact share_le bounded order.size
    rw [UInt32.toNat_sub_of_le _ _ fits, shares order]
    rfl

theorem eligible_ids (settled : sweep.book.Settled layout) (incoming : Order)
    (level : LevelSlot sizes) :
    ((eligible incoming ((layout.queue level).map sweep.book.payload)).map
      Order.orderId).Nodup := by
  rw [eligible_map, List.map_map]
  apply List.Nodup.map_on
  · intro left leftMember right rightMember sameId
    exact settled.slot_unique (List.mem_filter.mp rightMember).1
      (List.mem_filter.mp leftMember).1 sameId
  · exact (settled.chain level).nodup.filter _

/-- A pro-rata fill of a level obeys the law. -/
theorem proRataAtLevel_shares (settled : sweep.book.Settled layout)
    (listed : sweep.book.Listed side price level)
    (remains : 0 < sweep.remaining) (incoming : Order) :
    let orders := eligible incoming (sweep.book.queueOrders level)
    let whole := demand Order.size orders
    let amount := min sweep.remaining.toNat whole
    ∃ next emitted, proRataAtLevel false incoming level sweep = .ok next ∧
      next.emitted = sweep.emitted ++ emitted ∧
      next.remaining.toNat + amount = sweep.remaining.toNat ∧
      (if whole = 0 then emitted = []
      else SharedAmong orders amount (emitted.map Emission.event)) := by
  rw [settled.queueOrders_eq listed]
  intro orders whole amount
  obtain ⟨before, after, split⟩ := List.append_of_mem listed
  obtain ⟨next, nextLayout, ran, _, made⟩ :=
    proRataAtLevel_spec false incoming settled split
      (UInt32.lt_iff_toNat_lt.mp remains)
  obtain ⟨emitted, emittedEq, _, events⟩ := made.emitted
  have balance := made.remaining
  rw [total_levelVisit] at balance
  rw [if_neg Bool.false_ne_true] at events
  refine ⟨next, emitted, ran, emittedEq, balance, ?_⟩
  by_cases nothing : whole = 0
  · rw [if_pos nothing]
    rw [proRata_grants_zero _ nothing] at events
    exact List.map_eq_nil_iff.mp events
  · rw [if_neg nothing, events]
    apply proportional_shared (eligible_ids settled incoming level)
    · intro none_eligible
      apply nothing
      change demand Order.size orders = 0
      rw [show orders = [] from none_eligible]
      rfl
    · exact Nat.min_le_right _ _

/-- The first two passes over a level compute exact numbers. -/
theorem passes_exact (settled : sweep.book.Settled layout)
    (listed : sweep.book.Listed side price level) (incoming : Order) :
    let orders := eligible incoming (sweep.book.queueOrders level)
    let whole := demand Order.size orders
    let head := (sweep.book.queue level).head?
    ∃ scan, scanOrders false incoming sweep.book (sizes.orders + 1) head
        { eligibleTotal := 0, largest := none, stats := sweep.stats } =
        .ok scan ∧
      scan.eligibleTotal.toNat = whole ∧
      (whole ≠ 0 →
        let fillQty := (stdMin sweep.remaining.toUInt64
          scan.eligibleTotal).toUInt32
        ∃ totalFloor, sumFloors incoming fillQty scan.eligibleTotal sweep.book
            (sizes.orders + 1) head 0 = .ok totalFloor ∧
          ExactPasses orders (min sweep.remaining.toNat whole) whole fillQty
            totalFloor scan.eligibleTotal) := by
  rw [settled.queueOrders_eq listed, settled.queue_eq listed]
  intro orders whole head
  obtain ⟨scan, ran, totalEq, _, _⟩ := scanLevel_spec false incoming settled
  have wholeEq : scan.eligibleTotal.toNat = whole := by
    change _ = demand Order.size (eligible incoming _)
    rw [totalEq, eligible_map, demand_map]
    rfl
  refine ⟨scan, ran, wholeEq, ?_⟩
  intro nonzero fillQty
  have fillEq : fillQty.toNat = min sweep.remaining.toNat whole := by
    rw [← wholeEq]
    exact levelFillQty_toNat _ _
  have bounded : fillQty.toNat ≤ scan.eligibleTotal.toNat := by
    rw [fillEq, wholeEq]
    exact Nat.min_le_right _ _
  have positive : 0 < scan.eligibleTotal.toNat := by
    rw [wholeEq]
    exact Nat.pos_of_ne_zero nonzero
  have floorsSame : slotFloors sweep.book incoming fillQty.toNat
      scan.eligibleTotal.toNat (layout.queue level) =
      floors Order.size fillQty.toNat scan.eligibleTotal.toNat orders := by
    change _ = floors Order.size _ _ (eligible incoming _)
    rw [eligible_map, floors_map]
    rfl
  have spent : floors Order.size fillQty.toNat scan.eligibleTotal.toNat
      orders ≤ fillQty.toNat := by
    rw [wholeEq]
    exact floors_le Order.size _ (Nat.pos_of_ne_zero nonzero)
  have enough : (layout.queue level).length < sizes.orders + 1 :=
    Nat.lt_succ_of_le (settled.queue_length_le level)
  have floorsRan := @sumFloors_spec sizes sweep.book layout level []
    (layout.queue level) incoming fillQty scan.eligibleTotal settled 0 _ enough
    (List.nil_append _).symm
  generalize totalIs : (0 + .ofNat (slotFloors sweep.book incoming
    fillQty.toNat scan.eligibleTotal.toNat (layout.queue level)) : UInt32) =
    totalFloor at floorsRan
  have floorsEq : totalFloor.toNat = floors Order.size fillQty.toNat
      scan.eligibleTotal.toNat orders := by
    rw [← totalIs, UInt32.zero_add, floorsSame]
    apply UInt32.toNat_ofNat_of_lt'
    exact Nat.lt_of_le_of_lt spent fillQty.toNat_lt
  have exactness := exactPasses wholeEq positive bounded floorsEq
  rw [fillEq, wholeEq] at exactness
  exact ⟨totalFloor, floorsRan, exactness⟩

end Sweep

end Hydra
