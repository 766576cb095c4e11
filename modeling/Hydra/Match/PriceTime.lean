import Hydra.Match.Levels

/-!
# Price-time matching at one level

The inner loop walks the queue of a level while fills unlink orders from it.
It reads the link to the next order before the fill, so what it walks is the
queue as it was: the part behind the current order never changes before the
loop gets there.
-/

namespace Hydra

open Allocation

variable {sizes : PoolSizes}

theorem stdMin_toNat (left right : UInt32) :
    (stdMin left right).toNat = min left.toNat right.toNat := by
  rw [stdMin]
  split
  next smaller =>
    rw [UInt32.lt_iff_toNat_lt] at smaller
    omega
  next larger =>
    rw [UInt32.lt_iff_toNat_lt] at larger
    omega

namespace Sweep

variable {start : OrderBook sizes} {startLayout layout : Layout sizes}
variable {side : Side} {price : Int64} {level : LevelSlot sizes}
variable {slot : OrderSlot sizes} {front back : List (OrderSlot sizes)}
variable {before after : List (Int64 × LevelSlot sizes)}
variable {sweep : Sweep sizes} {incoming : Order}

/-- The grant that a price-time sweep makes to one order. -/
def orderGrants (incoming : Order) (amount : Nat) (order : Order) :
    List Grant :=
  if tradable incoming order then [(order, min amount order.size)] else []

theorem visitOrder_dry (incoming : Order) (placed : Order → Prop)
    (count : MatchStats → MatchStats) (settled : sweep.book.Settled layout)
    (member : slot ∈ layout.queue level) :
    ∃ next, visitOrder true incoming level slot sweep = .ok next ∧
      Progress true incoming placed count
        (orderGrants incoming sweep.remaining.toNat (sweep.book.payload slot))
        sweep next := by
  obtain ⟨node, stored, nodeEq⟩ := settled.queued_node member
  rw [visitOrder, ObjectPool.read_eq stored, ok_bind, nodeEq]
  cases self : OrderBook.isSelfTrade node.toOrder incoming with
  | true =>
      refine ⟨sweep, rfl, ?_⟩
      have skipped : orderGrants incoming sweep.remaining.toNat node.toOrder =
          [] := by
        simp [orderGrants, tradable, self]
      rw [skipped]
      exact ⟨rfl, rfl, rfl, ⟨[], by simp, by simp, rfl⟩, fun _ => rfl⟩
  | false =>
      have granted : orderGrants incoming sweep.remaining.toNat node.toOrder =
          [(node.toOrder, min sweep.remaining.toNat node.toOrder.size)] := by
        simp [orderGrants, tradable, self]
      rw [granted]
      refine ⟨_, rfl, ?_, rfl, rfl, ⟨[], by simp, by simp, rfl⟩, fun _ => rfl⟩
      have minEq := stdMin_toNat sweep.remaining node.qty
      have fits : stdMin sweep.remaining node.qty ≤ sweep.remaining := by
        rw [UInt32.le_iff_toNat_le, minEq]
        exact Nat.min_le_left _ _
      change (sweep.remaining - stdMin sweep.remaining node.qty).toNat + _ = _
      rw [UInt32.toNat_sub_of_le _ _ fits, minEq, total_singleton]
      change _ + min sweep.remaining.toNat node.qty.toNat = _
      omega

theorem visitOrder_spec (dryRun : Bool) (incoming : Order)
    (state : LevelState start startLayout side price level before after
      sweep.book layout)
    (listed : sweep.book.Listed side price level)
    (split : layout.queue level = front ++ slot :: back)
    (remains : 0 < sweep.remaining.toNat) :
    ∃ next nextLayout kept,
      visitOrder dryRun incoming level slot sweep = .ok next ∧
      LevelState start startLayout side price level before after next.book
        nextLayout ∧
      nextLayout.queue level = front ++ kept ++ back ∧
      (back ≠ [] → next.book.Listed side price level) ∧
      (∀ other, other ≠ slot →
        next.book.payload other = sweep.book.payload other) ∧
      Progress dryRun incoming (atPlace side price)
        (.charge incoming [sweep.book.payload slot]
          (orderGrants incoming sweep.remaining.toNat
            (sweep.book.payload slot)))
        (orderGrants incoming sweep.remaining.toNat (sweep.book.payload slot))
        sweep next := by
  have settled := state.settled
  have member : slot ∈ layout.queue level := by simp [split]
  have splitKept : layout.queue level = front ++ [slot] ++ back := by
    simp [split]
  cases dryRun with
  | true =>
      obtain ⟨next, run, progress⟩ := visitOrder_dry incoming
        (atPlace side price)
        (.charge incoming [sweep.book.payload slot]
          (orderGrants incoming sweep.remaining.toNat
            (sweep.book.payload slot)))
        settled member
      have same := progress.unchanged rfl
      refine ⟨next, layout, [slot], run, same ▸ state, splitKept, ?_, ?_,
        progress⟩
      · intro _
        rw [same]
        exact listed
      · intro other _
        rw [same]
  | false =>
      obtain ⟨node, stored, nodeEq⟩ := settled.queued_node member
      cases self : OrderBook.isSelfTrade node.toOrder incoming with
      | true =>
          have skipped : orderGrants incoming sweep.remaining.toNat
              node.toOrder = [] := by
            simp [orderGrants, tradable, self]
          let counted : Sweep sizes :=
            { sweep with stats := sweep.stats.countExamined.countSelfTrade }
          have run : visitOrder false incoming level slot sweep =
              .ok counted := by
            rw [visitOrder, ObjectPool.read_eq stored, ok_bind, if_pos self]
            rfl
          rw [nodeEq, skipped]
          refine ⟨counted, layout, [slot], run, state, splitKept,
            fun _ => listed, fun _ _ => rfl, ?_⟩
          have counting : Progress false incoming (atPlace side price)
              (fun stats => stats.countExamined.countSelfTrade) [] sweep
              counted :=
            Progress.counting incoming _ _ sweep
          apply counting.recount
          intro stats
          exact stats.charge_selfTrade self
      | false =>
          have trades : tradable incoming (sweep.book.payload slot) = true := by
            simp [tradable, nodeEq, self]
          let counted : Sweep sizes :=
            { sweep with stats := sweep.stats.countExamined.countEligible }
          let fillQty := stdMin sweep.remaining node.qty
          have fillEq : fillQty.toNat =
              min sweep.remaining.toNat (sweep.book.payload slot).size := by
            rw [nodeEq]
            exact stdMin_toNat _ _
          have granted : orderGrants incoming sweep.remaining.toNat
              (sweep.book.payload slot) =
              [(sweep.book.payload slot, fillQty.toNat)] := by
            rw [orderGrants, if_pos trades, fillEq]
          have counting : Progress false incoming (atPlace side price)
              (fun stats => stats.countExamined.countEligible) [] sweep
              counted :=
            Progress.counting incoming _ _ sweep
          have countedSettled : counted.book.Settled layout := settled
          obtain ⟨next, nextLayout, kept, run, edited, keptCases, filling⟩ :=
            applyFill_spec incoming countedSettled listed split
              (fillEq.le.trans (Nat.min_le_right _ _))
              (fillEq.le.trans (Nat.min_le_left _ _)) trades (by
                rw [fillEq]
                intro positive
                exact Nat.lt_min.mpr ⟨remains, positive⟩)
          refine ⟨next, nextLayout, kept, ?_, state.edited listed member edited,
            edited.queue_eq, ?_, edited.payload, ?_⟩
          · rw [visitOrder, ObjectPool.read_eq stored, ok_bind]
            simp only [self, Bool.false_eq_true, if_false]
            exact run
          · intro populated
            exact edited.listed (by simp [populated]) listed
          · rw [granted]
            apply (counting.trans filling).recount
            intro stats
            exact stats.charge_filled (nodeEq ▸ self) _

theorem greedy_eligible_cons {amount : Nat} (positive : amount ≠ 0)
    (order : Order) (queue : List Order) :
    greedy Order.size amount (eligible incoming (order :: queue)) =
      orderGrants incoming amount order ++
        greedy Order.size (amount - total (orderGrants incoming amount order))
          (eligible incoming queue) := by
  cases trades : tradable incoming order with
  | true =>
      rw [eligible, List.filter_cons_of_pos trades, greedy_cons _ positive,
        orderGrants, if_pos trades, total_singleton]
      rfl
  | false =>
      rw [eligible, List.filter_cons_of_neg (by simp [trades]), orderGrants,
        if_neg (by simp [trades])]
      rfl

theorem visitedOrders_cons {amount : Nat} (positive : amount ≠ 0)
    (order : Order) (queue : List Order) :
    visitedOrders incoming amount (order :: queue) =
      [order] ++ visitedOrders incoming
        (amount - total (orderGrants incoming amount order)) queue := by
  rw [visitedOrders, if_neg positive]
  cases trades : tradable incoming order with
  | true => simp [orderGrants, trades]
  | false => simp [orderGrants, trades]

theorem visitedOrders_zero (queue : List Order) :
    visitedOrders incoming 0 queue = [] := by
  cases queue <;> simp [visitedOrders]

/-- The slots are what is left of the queue of a level, ahead of a loop. -/
def Ahead (start : OrderBook sizes) (startLayout : Layout sizes) (side : Side)
    (price : Int64) (level : LevelSlot sizes)
    (before after : List (Int64 × LevelSlot sizes))
    (slots : List (OrderSlot sizes)) (book : OrderBook sizes) : Prop :=
  ∃ layout front,
    LevelState start startLayout side price level before after book layout ∧
    (slots ≠ [] → book.Listed side price level ∧
      layout.queue level = front ++ slots)

theorem orderLoop_ahead (dryRun : Bool) (incoming : Order)
    (ahead : Ahead start startLayout side price level before after
      (slot :: back) sweep.book)
    (remains : 0 < sweep.remaining) :
    ∃ next, (orderLoop dryRun incoming level).work slot sweep =
        .ok (some (back.head?, next)) ∧
      Ahead start startLayout side price level before after back next.book ∧
      back.map next.book.payload = back.map sweep.book.payload ∧
      Progress dryRun incoming (atPlace side price)
        (.charge incoming [sweep.book.payload slot]
          (orderGrants incoming sweep.remaining.toNat
            (sweep.book.payload slot)))
        (orderGrants incoming sweep.remaining.toNat (sweep.book.payload slot))
        sweep next := by
  obtain ⟨layout, front, state, queued⟩ := ahead
  obtain ⟨listed, split⟩ := queued (List.cons_ne_nil _ _)
  obtain ⟨next, nextLayout, kept, run, nextState, nextQueue, nextListed,
    payload, progress⟩ := visitOrder_spec dryRun incoming state listed split
      (UInt32.lt_iff_toNat_lt.mp remains)
  refine ⟨next, ?_, ⟨nextLayout, front ++ kept, nextState, ?_⟩, ?_, progress⟩
  · rw [orderLoop]
    dsimp only
    rw [if_pos remains, ObjectPool.read_eq (state.settled.node split), ok_bind,
      run]
    rfl
  · intro populated
    exact ⟨nextListed populated, nextQueue⟩
  · apply List.map_congr_left
    intro other member
    apply payload
    rintro rfl
    exact (state.settled.split_fresh split).2 member

/-- The inner loop, from any position in the queue. -/
theorem visitOrders_spec (dryRun : Bool) (incoming : Order) {fuel : Nat}
    (enough : back.length < fuel)
    (ahead : Ahead start startLayout side price level before after back
      sweep.book) :
    ∃ next nextLayout,
      visitOrders dryRun incoming level fuel back.head? sweep = .ok next ∧
      LevelState start startLayout side price level before after next.book
        nextLayout ∧
      Progress dryRun incoming (atPlace side price)
        (.charge incoming
          (visitedOrders incoming sweep.remaining.toNat
            (back.map sweep.book.payload))
          (greedy Order.size sweep.remaining.toNat
            (eligible incoming (back.map sweep.book.payload))))
        (greedy Order.size sweep.remaining.toNat
          (eligible incoming (back.map sweep.book.payload))) sweep next := by
  rw [visitOrders_run]
  induction back generalizing fuel sweep with
  | nil =>
      obtain ⟨fuel, rfl⟩ := Nat.exists_eq_succ_of_ne_zero (Nat.ne_of_gt enough)
      obtain ⟨layout, _, state, _⟩ := ahead
      refine ⟨sweep, layout, rfl, state, ?_⟩
      apply (Progress.refl _ _ _ _).recount
      intro stats
      exact stats.charge_nil
  | cons slot back induction =>
      obtain ⟨fuel, rfl⟩ := Nat.exists_eq_succ_of_ne_zero
        (Nat.ne_of_gt (Nat.zero_lt_of_lt enough))
      by_cases remains : 0 < sweep.remaining
      · have remainsNat : 0 < sweep.remaining.toNat :=
          UInt32.lt_iff_toNat_lt.mp remains
        obtain ⟨middle, works, middleAhead, samePayload, first⟩ :=
          orderLoop_ahead dryRun incoming ahead remains
        obtain ⟨next, nextLayout, restRun, nextState, rest⟩ :=
          induction (Nat.lt_of_succ_lt_succ enough) middleAhead
        refine ⟨next, nextLayout, (Traversal.run_turn fuel works).trans restRun,
          nextState, ?_⟩
        · have left : middle.remaining.toNat = sweep.remaining.toNat -
              total (orderGrants incoming sweep.remaining.toNat
                (sweep.book.payload slot)) := by
            have counted := first.remaining
            omega
          rw [List.map_cons, greedy_eligible_cons (Nat.ne_of_gt remainsNat),
            visitedOrders_cons (Nat.ne_of_gt remainsNat), ← left,
            ← samePayload]
          apply (first.trans rest).recount
          intro stats
          exact stats.charge_append incoming _ _ _ _
      · have empty : sweep.remaining.toNat = 0 := by
          rw [UInt32.not_lt, UInt32.le_zero_iff] at remains
          exact congrArg UInt32.toNat remains
        obtain ⟨layout, _, state, _⟩ := ahead
        refine ⟨sweep, layout, Traversal.run_stop fuel (if_neg remains), state,
          ?_⟩
        · rw [empty, greedy_zero, visitedOrders_zero]
          apply (Progress.refl _ _ _ _).recount
          intro stats
          exact stats.charge_nil

theorem ahead_level (settled : sweep.book.Settled layout)
    (split : (sweep.book.priceMap side).entries =
      before ++ (price, level) :: after) :
    Ahead sweep.book layout side price level before after (layout.queue level)
      sweep.book := by
  refine ⟨layout, [], LevelState.refl settled split, ?_⟩
  intro _
  exact ⟨OrderBook.listed_of_split split, (List.nil_append _).symm⟩

/-- Price-time matching serves a level in the order of its queue. -/
theorem priceTimeAtLevel_spec (dryRun : Bool) (incoming : Order) :
    @LevelSpec sizes dryRun incoming .priceTime
      (priceTimeAtLevel dryRun incoming) := by
  intro sweep layout side price level before after settled split _
  have listed := OrderBook.listed_of_split split
  have enough : (layout.queue level).length < sizes.orders + 1 :=
    Nat.lt_succ_of_le (settled.queue_length_le level)
  obtain ⟨next, nextLayout, run, state, progress⟩ :=
    visitOrders_spec dryRun incoming enough (ahead_level settled split)
  refine ⟨next, nextLayout, ?_, state, progress⟩
  rw [priceTimeAtLevel, ObjectPool.read_eq (settled.record listed), ok_bind]
  exact run

end Sweep

end Hydra
