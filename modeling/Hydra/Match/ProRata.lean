import Hydra.Match.PriceTime

/-!
# Pro-rata matching at one level

Three passes walk the queue of a level.  The first two only read: they add up
the eligible quantities, find the first largest order and add up the rounded
shares.  The third fills every eligible order but the largest one, which is
filled last; the quantities it reads are still those of the first pass, since
each order is filled at most once.

All intermediate values are exact: the statements below give their natural
number values.
-/

namespace Hydra

open Allocation

variable {sizes : PoolSizes}

namespace Sweep

variable {book : OrderBook sizes} {layout : Layout sizes}
variable {level : LevelSlot sizes} {slot : OrderSlot sizes}
variable {front back : List (OrderSlot sizes)} {incoming : Order}

/-- The slots of a queue whose orders may trade with the incoming one. -/
def eligibleSlots (book : OrderBook sizes) (incoming : Order)
    (slots : List (OrderSlot sizes)) : List (OrderSlot sizes) :=
  slots.filter fun slot => tradable incoming (book.payload slot)

theorem eligible_map (book : OrderBook sizes) (incoming : Order)
    (slots : List (OrderSlot sizes)) :
    eligible incoming (slots.map book.payload) =
      (eligibleSlots book incoming slots).map book.payload := by
  rw [eligible, List.filter_map]
  rfl

theorem eligibleSlots_append (left right : List (OrderSlot sizes)) :
    eligibleSlots book incoming (left ++ right) =
      eligibleSlots book incoming left ++ eligibleSlots book incoming right :=
  List.filter_append _ _

theorem eligibleSlots_self
    (self : OrderBook.isSelfTrade (book.payload slot) incoming = true) :
    eligibleSlots book incoming [slot] = [] := by
  simp [eligibleSlots, tradable, self]

theorem eligibleSlots_other
    (other : OrderBook.isSelfTrade (book.payload slot) incoming = false) :
    eligibleSlots book incoming [slot] = [slot] := by
  simp [eligibleSlots, tradable, other]

/-- The first largest eligible slot. -/
def largestSlot (book : OrderBook sizes) (incoming : Order)
    (slots : List (OrderSlot sizes)) : Option (OrderSlot sizes) :=
  (splitLargest book.qtyAt (eligibleSlots book incoming slots)).map
    fun parts => parts.2.1

/-- What the first pass knows after the slots `slots`. -/
structure Scanned (book : OrderBook sizes) (incoming : Order)
    (slots : List (OrderSlot sizes)) (scan : LevelScan sizes) : Prop where
  eligibleTotal : scan.eligibleTotal =
    .ofNat (demand book.qtyAt (eligibleSlots book incoming slots))
  largest : scan.largest = largestSlot book incoming slots

theorem ofNat_qtyAt (book : OrderBook sizes) (slot : OrderSlot sizes) :
    UInt64.ofNat (book.qtyAt slot) = (book.payload slot).qty.toUInt64 := by
  apply UInt64.toNat_inj.mp
  simp [OrderBook.qtyAt]

theorem Scanned.skip {slots : List (OrderSlot sizes)} {scan : LevelScan sizes}
    (scanned : Scanned book incoming slots scan)
    (self : OrderBook.isSelfTrade (book.payload slot) incoming = true)
    (stats : MatchStats) :
    Scanned book incoming (slots ++ [slot]) { scan with stats } := by
  have same : eligibleSlots book incoming (slots ++ [slot]) =
      eligibleSlots book incoming slots := by
    rw [eligibleSlots_append, eligibleSlots_self self, List.append_nil]
  constructor
  · rw [same]
    exact scanned.eligibleTotal
  · rw [largestSlot, same]
    exact scanned.largest

theorem isLarger_eq {slots : List (OrderSlot sizes)}
    (stored : ∀ slot ∈ slots,
      ∃ node, book.orderPool.object? slot = some node)
    (qty : UInt32) :
    isLarger book qty (largestSlot book incoming slots) =
      .ok (match largestSlot book incoming slots with
        | none => true
        | some largest => (book.payload largest).qty < qty) := by
  cases found : splitLargest book.qtyAt (eligibleSlots book incoming slots) with
  | none =>
      rw [largestSlot, found]
      rfl
  | some parts =>
      obtain ⟨before, largest, after⟩ := parts
      have member : largest ∈ slots := by
        have split := (splitLargest_spec _ found).1
        have eligibleMember : largest ∈ eligibleSlots book incoming slots := by
          rw [split]
          simp
        exact List.mem_of_mem_filter eligibleMember
      obtain ⟨node, largestStored⟩ := stored largest member
      rw [largestSlot, found, Option.map_some, isLarger,
        ObjectPool.read_eq largestStored, ok_bind]
      change _ = Except.ok (decide ((book.payload largest).qty < qty))
      rw [OrderBook.payload_eq largestStored]
      rfl

theorem Scanned.visit {slots : List (OrderSlot sizes)} {scan : LevelScan sizes}
    (scanned : Scanned book incoming slots scan)
    (other : OrderBook.isSelfTrade (book.payload slot) incoming = false)
    (larger : Bool) (stats : MatchStats)
    (largerEq : larger = (match largestSlot book incoming slots with
      | none => true
      | some largest =>
          decide ((book.payload largest).qty < (book.payload slot).qty))) :
    Scanned book incoming (slots ++ [slot])
      { eligibleTotal := scan.eligibleTotal +
          (book.payload slot).qty.toUInt64
        largest := if larger then some slot else scan.largest
        stats } := by
  have grown : eligibleSlots book incoming (slots ++ [slot]) =
      eligibleSlots book incoming slots ++ [slot] := by
    rw [eligibleSlots_append, eligibleSlots_other other]
  constructor
  · rw [grown, demand_append, demand_cons, demand_nil, Nat.add_zero,
      UInt64.ofNat_add, ofNat_qtyAt, ← scanned.eligibleTotal]
  · rw [scanned.largest, largerEq, largestSlot, largestSlot, grown,
      splitLargest_append_singleton]
    cases splitLargest book.qtyAt (eligibleSlots book incoming slots) with
    | none => rfl
    | some parts =>
        obtain ⟨before, largest, after⟩ := parts
        have same : (book.payload largest).qty < (book.payload slot).qty ↔
            book.qtyAt largest < book.qtyAt slot :=
          UInt32.lt_iff_toNat_lt
        simp only [Option.map_some, decide_eq_true_eq, same]
        split <;> rfl

theorem scanLoop_ahead (dryRun : Bool) (incoming : Order)
    (settled : book.Settled layout) {scan : LevelScan sizes}
    (split : layout.queue level = front ++ slot :: back)
    (scanned : Scanned book incoming front scan) :
    ∃ after, (scanLoop dryRun incoming book).work slot scan =
        .ok (some (back.head?, after)) ∧
      Scanned book incoming (front ++ [slot]) after ∧
      after.stats = scan.stats.commit dryRun
        (.charge incoming [book.payload slot] []) := by
  have read := ObjectPool.read_eq (settled.node split)
  cases self : OrderBook.isSelfTrade (book.payload slot) incoming with
  | true =>
      refine ⟨{ scan with
        stats := (scan.stats.commit dryRun .countExamined).commit dryRun
          .countSelfTrade }, ?_, scanned.skip self _, ?_⟩
      · rw [scanLoop]
        dsimp only
        rw [read, ok_bind]
        simp only [self, if_true]
        rfl
      · cases dryRun with
        | true => rfl
        | false => exact (scan.stats.charge_selfTrade self).symm
  | false =>
      have frontStored : ∀ other ∈ front,
          ∃ node, book.orderPool.object? other = some node := by
        intro other member
        have queued : other ∈ layout.queue level := by
          rw [split]
          exact List.mem_append_left _ member
        exact settled.queued_live queued
      refine ⟨_, ?_, scanned.visit self _
        ((scan.stats.commit dryRun .countExamined).commit dryRun
          .countEligible) rfl, ?_⟩
      · rw [scanLoop]
        dsimp only
        rw [read, ok_bind]
        simp only [self, Bool.false_eq_true, if_false, scanned.largest,
          isLarger_eq frontStored, ok_bind]
        rfl
      · cases dryRun with
        | true => rfl
        | false => exact (scan.stats.charge_eligible self).symm

theorem scanOrders_spec (dryRun : Bool) (incoming : Order)
    (settled : book.Settled layout) {scan : LevelScan sizes} {fuel : Nat}
    (enough : back.length < fuel) (split : layout.queue level = front ++ back)
    (scanned : Scanned book incoming front scan) :
    ∃ result, scanOrders dryRun incoming book fuel back.head? scan =
        .ok result ∧
      Scanned book incoming (layout.queue level) result ∧
      result.stats = scan.stats.commit dryRun
        (.charge incoming (back.map book.payload) []) := by
  rw [scanOrders_run]
  induction back generalizing fuel front scan with
  | nil =>
      obtain ⟨fuel, rfl⟩ := Nat.exists_eq_succ_of_ne_zero (Nat.ne_of_gt enough)
      refine ⟨scan, rfl, ?_, ?_⟩
      · rw [split, List.append_nil]
        exact scanned
      · cases dryRun with
        | true => rfl
        | false => exact scan.stats.charge_nil.symm
  | cons slot back induction =>
      obtain ⟨fuel, rfl⟩ := Nat.exists_eq_succ_of_ne_zero
        (Nat.ne_of_gt (Nat.zero_lt_of_lt enough))
      obtain ⟨after, works, afterScanned, first⟩ :=
        scanLoop_ahead dryRun incoming settled split scanned
      obtain ⟨result, run, resultScanned, rest⟩ :=
        induction (Nat.lt_of_succ_lt_succ enough) (by simp [split]) afterScanned
      refine ⟨result, (Traversal.run_turn fuel works).trans run, resultScanned,
        ?_⟩
      rw [rest, first]
      cases dryRun with
      | true => rfl
      | false =>
          exact (scan.stats.charge_append incoming [book.payload slot]
            (back.map book.payload) [] []).symm

theorem floorShare_eq (levelFillQty qty : UInt32) (eligibleTotal : UInt64) :
    floorShare levelFillQty qty eligibleTotal =
      .ofNat (share levelFillQty.toNat eligibleTotal.toNat qty.toNat) := by
  have fits : levelFillQty.toNat * qty.toNat < 2 ^ 64 := by
    calc levelFillQty.toNat * qty.toNat
        < 2 ^ 32 * 2 ^ 32 :=
          Nat.mul_lt_mul'' levelFillQty.toNat_lt qty.toNat_lt
      _ = 2 ^ 64 := by decide
  apply UInt32.toNat_inj.mp
  rw [floorShare, UInt64.toNat_toUInt32, UInt64.toNat_div, UInt64.toNat_mul,
    UInt32.toNat_toUInt64, UInt32.toNat_toUInt64, Nat.mod_eq_of_lt fits,
    UInt32.toNat_ofNat', share]

/-- The rounded-down shares of the orders in some slots. -/
def slotFloors (book : OrderBook sizes) (incoming : Order) (amount whole : Nat)
    (slots : List (OrderSlot sizes)) : Nat :=
  floors book.qtyAt amount whole (eligibleSlots book incoming slots)

theorem floorLoop_ahead (incoming : Order) (levelFillQty : UInt32)
    (eligibleTotal : UInt64) (settled : book.Settled layout)
    (totalFloor : UInt32)
    (split : layout.queue level = front ++ slot :: back) :
    (floorLoop incoming levelFillQty eligibleTotal book).work slot totalFloor =
      .ok (some (back.head?, totalFloor + .ofNat (slotFloors book incoming
        levelFillQty.toNat eligibleTotal.toNat [slot]))) := by
  rw [floorLoop]
  dsimp only
  rw [ObjectPool.read_eq (settled.node split), ok_bind, slotFloors]
  cases self : OrderBook.isSelfTrade (book.payload slot) incoming with
  | true =>
      rw [eligibleSlots_self self]
      simp [floors]
      rfl
  | false =>
      rw [eligibleSlots_other self]
      simp [floors, floorShare_eq, OrderBook.qtyAt]
      rfl

theorem sumFloors_spec (incoming : Order) (levelFillQty : UInt32)
    (eligibleTotal : UInt64) (settled : book.Settled layout)
    {totalFloor : UInt32} {fuel : Nat} (enough : back.length < fuel)
    (split : layout.queue level = front ++ back) :
    sumFloors incoming levelFillQty eligibleTotal book fuel back.head?
        totalFloor =
      .ok (totalFloor + .ofNat (slotFloors book incoming levelFillQty.toNat
        eligibleTotal.toNat back)) := by
  rw [sumFloors_run]
  induction back generalizing fuel front totalFloor with
  | nil =>
      obtain ⟨fuel, rfl⟩ := Nat.exists_eq_succ_of_ne_zero (Nat.ne_of_gt enough)
      simp [Traversal.run, slotFloors, eligibleSlots, floors]
  | cons slot back induction =>
      obtain ⟨fuel, rfl⟩ := Nat.exists_eq_succ_of_ne_zero
        (Nat.ne_of_gt (Nat.zero_lt_of_lt enough))
      have splitNext : layout.queue level = (front ++ [slot]) ++ back := by
        simp [split]
      have works := floorLoop_ahead incoming levelFillQty eligibleTotal settled
        totalFloor split
      have grown : slotFloors book incoming levelFillQty.toNat
          eligibleTotal.toNat (slot :: back) =
          slotFloors book incoming levelFillQty.toNat eligibleTotal.toNat
            [slot] +
          slotFloors book incoming levelFillQty.toNat eligibleTotal.toNat
            back := by
        have parts : eligibleSlots book incoming ([slot] ++ back) = _ :=
          eligibleSlots_append [slot] back
        rw [List.singleton_append] at parts
        simp [slotFloors, parts, floors]
      rw [List.head?_cons, Traversal.run_turn fuel works,
        induction (Nat.lt_of_succ_lt_succ enough) splitNext, grown,
        UInt32.ofNat_add, UInt32.add_assoc]

/-- The slots that the third pass fills. -/
def shareSlots (book : OrderBook sizes) (incoming : Order)
    (largest : OrderSlot sizes) (slots : List (OrderSlot sizes)) :
    List (OrderSlot sizes) :=
  (eligibleSlots book incoming slots).filter fun slot => decide (slot ≠ largest)

/-- The grants of the third pass. -/
def shareGrants (book : OrderBook sizes) (incoming : Order)
    (largest : OrderSlot sizes) (amount whole residual : Nat)
    (slots : List (OrderSlot sizes)) : List Grant :=
  (topUp Order.size amount whole residual
    ((shareSlots book incoming largest slots).map book.payload)).filter
      fun grant => decide (0 < grant.2)

section Shares

variable {largest : OrderSlot sizes} {amount whole residual : Nat}

theorem shareSlots_skip {slots : List (OrderSlot sizes)}
    (skipped : slot = largest ∨
      OrderBook.isSelfTrade (book.payload slot) incoming = true) :
    shareSlots book incoming largest (slot :: slots) =
      shareSlots book incoming largest slots := by
  rcases skipped with rfl | self
  · rw [shareSlots, shareSlots, eligibleSlots, eligibleSlots,
      List.filter_cons]
    split <;> simp
  · simp [shareSlots, eligibleSlots, tradable, self]

theorem shareSlots_cons {slots : List (OrderSlot sizes)}
    (differs : slot ≠ largest)
    (other : OrderBook.isSelfTrade (book.payload slot) incoming = false) :
    shareSlots book incoming largest (slot :: slots) =
      slot :: shareSlots book incoming largest slots := by
  simp [shareSlots, eligibleSlots, tradable, other, differs]

theorem shareGrants_congr (incoming : Order) (largest : OrderSlot sizes)
    (amount whole residual : Nat) {other : OrderBook sizes}
    {slots : List (OrderSlot sizes)}
    (agree : ∀ slot ∈ slots, other.payload slot = book.payload slot) :
    shareGrants other incoming largest amount whole residual slots =
      shareGrants book incoming largest amount whole residual slots := by
  have sameSlots : shareSlots other incoming largest slots =
      shareSlots book incoming largest slots := by
    rw [shareSlots, shareSlots]
    congr 1
    apply List.filter_congr
    intro slot member
    rw [agree slot member]
  rw [shareGrants, shareGrants, sameSlots]
  congr 2
  apply List.map_congr_left
  intro slot member
  exact agree slot (List.mem_of_mem_filter (List.mem_of_mem_filter member))

theorem shareGrants_cons (amount whole residual : Nat)
    (slots : List (OrderSlot sizes)) (differs : slot ≠ largest)
    (other : OrderBook.isSelfTrade (book.payload slot) incoming = false) :
    shareGrants book incoming largest amount whole residual (slot :: slots) =
      let floor := share amount whole (book.qtyAt slot)
      let extra := min residual (book.qtyAt slot - floor)
      (if 0 < floor + extra then [(book.payload slot, floor + extra)]
        else []) ++
        shareGrants book incoming largest amount whole (residual - extra)
          slots := by
  rw [shareGrants, shareSlots_cons differs other, List.map_cons, topUp,
    List.filter_cons]
  change (if decide (0 < share amount whole (book.qtyAt slot) +
    min residual (book.qtyAt slot - share amount whole (book.qtyAt slot))) =
      true then _ else _) = _
  by_cases positive : 0 < share amount whole (book.qtyAt slot) +
      min residual (book.qtyAt slot - share amount whole (book.qtyAt slot))
  · simp only [positive, decide_true, if_true]
    rfl
  · simp only [positive, decide_false, Bool.false_eq_true, if_false]
    rfl

end Shares

section ThirdPass

variable {start : OrderBook sizes} {startLayout : Layout sizes}
variable {side : Side} {price : Int64}
variable {before after : List (Int64 × LevelSlot sizes)}
variable {sweep : Sweep sizes} {largest : OrderSlot sizes}
variable {levelFillQty : UInt32} {eligibleTotal : UInt64}

theorem totalShare_toNat (residual qty : UInt32)
    (bounded : levelFillQty.toNat ≤ eligibleTotal.toNat) :
    let share := floorShare levelFillQty qty eligibleTotal
    let extra := if 0 < residual then stdMin residual (qty - share) else 0
    let floor := Allocation.share levelFillQty.toNat eligibleTotal.toNat
      qty.toNat
    let extraNat := min residual.toNat (qty.toNat - floor)
    (share + extra).toNat = floor + extraNat ∧
      (residual - extra).toNat = residual.toNat - extraNat ∧
      floor + extraNat ≤ qty.toNat := by
  intro share extra floor extraNat
  have floorLe : floor ≤ qty.toNat := share_le bounded qty.toNat
  have qtyLt := qty.toNat_lt
  have residualLt := residual.toNat_lt
  have shareEq : share.toNat = floor := by
    change (floorShare levelFillQty qty eligibleTotal).toNat = _
    rw [floorShare_eq, UInt32.toNat_ofNat']
    apply Nat.mod_eq_of_lt
    change floor < _
    omega
  have roomEq : (qty - share).toNat = qty.toNat - floor := by
    rw [UInt32.toNat_sub_of_le _ _ (by
      rw [UInt32.le_iff_toNat_le, shareEq]
      exact floorLe), shareEq]
  have extraEq : extra.toNat = extraNat := by
    change (if 0 < residual then stdMin residual (qty - share) else 0).toNat = _
    split
    next => rw [stdMin_toNat, roomEq]
    next empty =>
      rw [UInt32.lt_iff_toNat_lt] at empty
      have zero : residual.toNat = 0 := Nat.eq_zero_of_not_pos empty
      change 0 = min residual.toNat _
      omega
  refine ⟨?_, ?_, ?_⟩
  · rw [UInt32.toNat_add, shareEq, extraEq]
    apply Nat.mod_eq_of_lt
    omega
  · rw [UInt32.toNat_sub_of_le _ _ (by
      rw [UInt32.le_iff_toNat_le, extraEq]
      exact Nat.min_le_left _ _), extraEq]
  · omega

theorem total_served (order : Order) (qty : Nat) :
    total (if 0 < qty then [(order, qty)] else []) = qty := by
  split
  next => exact total_singleton _
  next empty => exact (Nat.eq_zero_of_not_pos empty).symm

theorem serveShare_spec (incoming : Order)
    (state : LevelState start startLayout side price level before after
      sweep.book layout)
    (listed : sweep.book.Listed side price level)
    (split : layout.queue level = front ++ slot :: back) {fillQty : UInt32}
    (fits : fillQty.toNat ≤ (sweep.book.payload slot).size)
    (remains : fillQty.toNat ≤ sweep.remaining.toNat)
    (trades : tradable incoming (sweep.book.payload slot) = true) :
    ∃ next nextLayout kept,
      (if 0 < fillQty then sweep.applyFill slot level fillQty incoming
        else pure sweep) = .ok next ∧
      LevelState start startLayout side price level before after next.book
        nextLayout ∧
      nextLayout.queue level = front ++ kept ++ back ∧
      (nextLayout.queue level ≠ [] → next.book.Listed side price level) ∧
      (∀ other, other ≠ slot →
        next.book.payload other = sweep.book.payload other) ∧
      Progress false incoming (atPlace side price)
        (.charge incoming []
          (if 0 < fillQty.toNat then
            [(sweep.book.payload slot, fillQty.toNat)] else []))
        (if 0 < fillQty.toNat then
          [(sweep.book.payload slot, fillQty.toNat)] else []) sweep next := by
  by_cases positive : 0 < fillQty
  · have positiveNat : 0 < fillQty.toNat :=
      UInt32.lt_iff_toNat_lt.mp positive
    obtain ⟨next, nextLayout, kept, run, edited, _, filling⟩ :=
      applyFill_spec incoming state.settled listed split fits remains trades
        fun _ => positiveNat
    have member : slot ∈ layout.queue level := by simp [split]
    refine ⟨next, nextLayout, kept, ?_, state.edited listed member edited,
      edited.queue_eq, ?_, edited.payload, ?_⟩
    · rw [if_pos positive, run]
    · intro nonempty
      exact edited.listed (edited.queue_eq ▸ nonempty) listed
    · rw [if_pos positiveNat]
      apply filling.recount
      intro stats
      exact stats.charge_grant incoming _
  · have zero : ¬ 0 < fillQty.toNat := by
      rw [UInt32.lt_iff_toNat_lt] at positive
      exact positive
    refine ⟨sweep, layout, [slot], ?_, state, ?_, fun _ => listed,
      fun _ _ => rfl, ?_⟩
    · rw [if_neg positive]
      rfl
    · rw [split, List.append_assoc, List.singleton_append]
    · rw [if_neg zero]
      apply (Progress.refl _ _ _ _).recount
      intro stats
      exact stats.charge_nil

/-- The slots are what is left of the queue of a level, ahead of the third
pass: the largest order is still queued, and what the pass will hand out is
still asked for. -/
def SharesAhead (start : OrderBook sizes) (startLayout : Layout sizes)
    (side : Side) (price : Int64) (level : LevelSlot sizes)
    (before after : List (Int64 × LevelSlot sizes)) (incoming : Order)
    (levelFillQty : UInt32) (eligibleTotal : UInt64)
    (largest : OrderSlot sizes) (slots : List (OrderSlot sizes))
    (state : UInt32 × Sweep sizes) : Prop :=
  ∃ layout front,
    LevelState start startLayout side price level before after state.2.book
      layout ∧
    state.2.book.Listed side price level ∧
    layout.queue level = front ++ slots ∧
    largest ∈ layout.queue level ∧
    total (shareGrants state.2.book incoming largest levelFillQty.toNat
      eligibleTotal.toNat state.1.toNat slots) ≤ state.2.remaining.toNat

theorem shareLoop_share (incoming : Order) (levelFillQty : UInt32)
    (eligibleTotal : UInt64) (residual : UInt32)
    (settled : sweep.book.Settled layout)
    (split : layout.queue level = front ++ slot :: back)
    (shared : ¬ (slot = largest ∨
      OrderBook.isSelfTrade (sweep.book.payload slot) incoming = true))
    {share extra : UInt32}
    (shareEq : floorShare levelFillQty (sweep.book.payload slot).qty
      eligibleTotal = share)
    (extraEq : (if 0 < residual then
      stdMin residual ((sweep.book.payload slot).qty - share) else 0) =
        extra) :
    (shareLoop incoming level levelFillQty eligibleTotal largest).work slot
        (residual, sweep) =
      (if 0 < share + extra then
          sweep.applyFill slot level (share + extra) incoming
        else pure sweep) >>= fun next =>
          pure (some (back.head?, (residual - extra, next))) := by
  rw [shareLoop]
  dsimp only
  rw [ObjectPool.read_eq (settled.node split), ok_bind]
  dsimp only
  rw [if_neg shared, shareEq, extraEq]
  split <;> rfl

theorem shareLoop_ahead (incoming : Order)
    (bounded : levelFillQty.toNat ≤ eligibleTotal.toNat) {residual : UInt32}
    (ahead : SharesAhead start startLayout side price level before after
      incoming levelFillQty eligibleTotal largest (slot :: back)
      (residual, sweep)) :
    ∃ left middle grants,
      (shareLoop incoming level levelFillQty eligibleTotal largest).work slot
        (residual, sweep) = .ok (some (back.head?, (left, middle))) ∧
      SharesAhead start startLayout side price level before after incoming
        levelFillQty eligibleTotal largest back (left, middle) ∧
      middle.book.payload largest = sweep.book.payload largest ∧
      Progress false incoming (atPlace side price) (.charge incoming [] grants)
        grants sweep middle ∧
      shareGrants sweep.book incoming largest levelFillQty.toNat
          eligibleTotal.toNat residual.toNat (slot :: back) =
        grants ++ shareGrants middle.book incoming largest levelFillQty.toNat
          eligibleTotal.toNat left.toNat back := by
  obtain ⟨layout, front, state, listed, split, largestQueued, room⟩ := ahead
  dsimp only at state listed room
  have splitNext : layout.queue level = (front ++ [slot]) ++ back := by
    simp [split]
  have read := ObjectPool.read_eq (state.settled.node split)
  by_cases skipped : slot = largest ∨
      OrderBook.isSelfTrade (sweep.book.payload slot) incoming = true
  · have same : shareGrants sweep.book incoming largest levelFillQty.toNat
        eligibleTotal.toNat residual.toNat (slot :: back) =
        shareGrants sweep.book incoming largest levelFillQty.toNat
          eligibleTotal.toNat residual.toNat back := by
      rw [shareGrants, shareGrants, shareSlots_skip skipped]
    rw [same] at room
    refine ⟨residual, sweep, [], ?_, ⟨layout, front ++ [slot], state, listed,
      splitNext, largestQueued, room⟩, rfl, ?_, same⟩
    · rw [shareLoop]
      dsimp only
      rw [read, ok_bind, if_pos skipped]
      rfl
    · apply (Progress.refl _ _ _ _).recount
      intro stats
      exact stats.charge_nil
  · obtain ⟨differs, notSelf⟩ := not_or.mp skipped
    have other : OrderBook.isSelfTrade (sweep.book.payload slot) incoming =
        false := by simpa using notSelf
    have trades : tradable incoming (sweep.book.payload slot) = true := by
      simp [tradable, other]
    have largestElsewhere : largest ∈ front ∨ largest ∈ back := by
      rw [split] at largestQueued
      simpa [differs, Ne.symm differs] using largestQueued
    obtain ⟨totalEq, residualEq, fits⟩ := totalShare_toNat residual
      (sweep.book.payload slot).qty bounded
    have consEq := shareGrants_cons levelFillQty.toNat eligibleTotal.toNat
      residual.toNat back differs other
    dsimp only [OrderBook.qtyAt] at totalEq residualEq consEq
    generalize shareEq : floorShare levelFillQty
      (sweep.book.payload slot).qty eligibleTotal = share
      at totalEq residualEq
    generalize extraEq : (if 0 < residual then
      stdMin residual ((sweep.book.payload slot).qty - share) else 0) =
      extra at totalEq residualEq
    have work := shareLoop_share incoming levelFillQty eligibleTotal residual
      state.settled split skipped shareEq extraEq
    rw [← totalEq, ← residualEq] at consEq
    rw [consEq, total_append, total_served] at room
    have fillFits : (share + extra).toNat ≤
        (sweep.book.payload slot).size := by
      rw [totalEq]
      exact fits
    obtain ⟨middle, middleLayout, kept, fillRun, middleState, queueEq,
      stillListed, payload, filling⟩ := serveShare_spec incoming state
        listed split fillFits (Nat.le_of_add_right_le room) trades
    have largestKept : largest ∈ middleLayout.queue level := by
      rw [queueEq, List.mem_append, List.mem_append]
      rcases largestElsewhere with inFront | inBack
      · exact .inl (.inl inFront)
      · exact .inr inBack
    have samePayload : ∀ current ∈ back,
        middle.book.payload current = sweep.book.payload current := by
      intro current currentMember
      apply payload
      rintro rfl
      exact (state.settled.split_fresh split).2 currentMember
    have sameGrants := shareGrants_congr incoming largest
      levelFillQty.toNat eligibleTotal.toNat (residual - extra).toNat
      samePayload
    have left := filling.remaining
    rw [total_served] at left
    refine ⟨residual - extra, middle, _, ?_, ⟨middleLayout, front ++ kept,
      middleState, stillListed (List.ne_nil_of_mem largestKept), queueEq,
      largestKept, ?_⟩, payload largest (Ne.symm differs), filling, ?_⟩
    · rw [work, fillRun]
      rfl
    · dsimp only
      rw [sameGrants]
      omega
    · rw [sameGrants]
      exact consEq

theorem applyShares_spec (incoming : Order)
    (bounded : levelFillQty.toNat ≤ eligibleTotal.toNat)
    {residual : UInt32} {fuel : Nat} (enough : back.length < fuel)
    (ahead : SharesAhead start startLayout side price level before after
      incoming levelFillQty eligibleTotal largest back (residual, sweep)) :
    ∃ next nextLayout,
      applyShares incoming level levelFillQty eligibleTotal largest fuel
        back.head? residual sweep = .ok next ∧
      LevelState start startLayout side price level before after next.book
        nextLayout ∧
      next.book.Listed side price level ∧
      largest ∈ nextLayout.queue level ∧
      next.book.payload largest = sweep.book.payload largest ∧
      Progress false incoming (atPlace side price)
        (.charge incoming [] (shareGrants sweep.book incoming largest
          levelFillQty.toNat eligibleTotal.toNat residual.toNat back))
        (shareGrants sweep.book incoming largest levelFillQty.toNat
          eligibleTotal.toNat residual.toNat back) sweep next := by
  induction back generalizing fuel sweep residual with
  | nil =>
      obtain ⟨fuel, rfl⟩ := Nat.exists_eq_succ_of_ne_zero (Nat.ne_of_gt enough)
      obtain ⟨layout, _, state, listed, _, largestQueued, _⟩ := ahead
      refine ⟨sweep, layout, rfl, state, listed, largestQueued, rfl, ?_⟩
      apply (Progress.refl _ _ _ _).recount
      intro stats
      exact stats.charge_nil
  | cons slot back induction =>
      obtain ⟨fuel, rfl⟩ := Nat.exists_eq_succ_of_ne_zero
        (Nat.ne_of_gt (Nat.zero_lt_of_lt enough))
      obtain ⟨left, middle, grants, works, middleAhead, middlePayload, first,
        split⟩ := shareLoop_ahead incoming bounded ahead
      obtain ⟨next, nextLayout, restRun, nextState, nextListed, nextLargest,
        nextPayload, rest⟩ :=
          induction (Nat.lt_of_succ_lt_succ enough) middleAhead
      refine ⟨next, nextLayout, ?_, nextState, nextListed, nextLargest,
        nextPayload.trans middlePayload, ?_⟩
      · rw [applyShares_run] at restRun ⊢
        rw [List.head?_cons, Traversal.run_turn fuel works]
        exact restRun
      · rw [split]
        apply (first.trans rest).recount
        intro stats
        exact stats.charge_append incoming [] [] _ _

end ThirdPass

section Level

variable {largest : OrderSlot sizes}
variable {smaller later : List (OrderSlot sizes)}

/-- What a pro-rata level grants, in the order of the third pass. -/
theorem proRata_grants (nodup : (layout.queue level).Nodup)
    (found : splitLargest book.qtyAt
      (eligibleSlots book incoming (layout.queue level)) =
        some (smaller, largest, later)) (remaining : Nat) :
    let orders := eligibleSlots book incoming (layout.queue level)
    let whole := demand book.qtyAt orders
    let amount := min remaining whole
    let residual := amount - floors book.qtyAt amount whole orders
    let floor := share amount whole (book.qtyAt largest)
    let extra := min residual (book.qtyAt largest - floor)
    (levelVisit .proRata incoming remaining
      ((layout.queue level).map book.payload)).grants =
        shareGrants book incoming largest amount whole (residual - extra)
          (layout.queue level) ++
        (if 0 < floor + extra then [(book.payload largest, floor + extra)]
          else []) := by
  intro orders whole amount residual floor extra
  have sizeEq : Order.size ∘ book.payload = book.qtyAt := rfl
  have split : orders = smaller ++ largest :: later :=
    (splitLargest_spec _ found).1
  have ordersNodup : orders.Nodup := nodup.filter _
  rw [split, List.nodup_middle, List.nodup_cons, List.mem_append,
    not_or] at ordersNodup
  obtain ⟨⟨notSmaller, notLater⟩, _⟩ := ordersNodup
  have others : shareSlots book incoming largest (layout.queue level) =
      smaller ++ later := by
    change orders.filter _ = _
    have keep : ∀ slots : List (OrderSlot sizes), largest ∉ slots →
        slots.filter (fun slot => decide (slot ≠ largest)) = slots := by
      intro slots absent
      rw [List.filter_eq_self]
      intro slot member
      rw [decide_eq_true_eq]
      rintro rfl
      exact absent member
    rw [split, List.filter_append, List.filter_cons_of_neg (by simp),
      keep smaller notSmaller, keep later notLater]
  have whole_eq : demand Order.size
      (eligible incoming ((layout.queue level).map book.payload)) = whole := by
    rw [eligible_map, demand_map, sizeEq]
  change ((proportional Order.size (min remaining (demand Order.size
    (eligible incoming ((layout.queue level).map book.payload))))
    (eligible incoming ((layout.queue level).map book.payload))).filter _) = _
  rw [whole_eq, eligible_map, proportional, splitLargest_map, sizeEq, found,
    Option.map_some]
  dsimp only
  rw [demand_map, floors_map, sizeEq, List.filter_append, ← List.map_append,
    shareGrants, others, List.filter_cons, List.filter_nil]
  congr 1
  change (if decide (0 < floor + extra) = true then _ else _) = _
  by_cases positive : 0 < floor + extra
  · simp only [positive, decide_true, if_true]
    rfl
  · simp only [positive, decide_false, Bool.false_eq_true, if_false]

theorem demand_lt (settled : book.Settled layout) :
    demand book.qtyAt (eligibleSlots book incoming (layout.queue level)) <
      2 ^ 64 := by
  apply book.sum_qtyAt_lt
  exact (List.length_filter_le _ _).trans (settled.queue_length_le level)

end Level

theorem levelFillQty_toNat (remaining : UInt32) (eligibleTotal : UInt64) :
    (stdMin remaining.toUInt64 eligibleTotal).toUInt32.toNat =
      min remaining.toNat eligibleTotal.toNat := by
  have remainingLt := remaining.toNat_lt
  rw [UInt64.toNat_toUInt32, stdMin]
  split
  next smaller =>
    rw [UInt64.lt_iff_toNat_lt, UInt32.toNat_toUInt64] at smaller
    rw [Nat.mod_eq_of_lt (smaller.trans remainingLt)]
    omega
  next larger =>
    rw [UInt64.lt_iff_toNat_lt, UInt32.toNat_toUInt64] at larger
    rw [UInt32.toNat_toUInt64, Nat.mod_eq_of_lt remainingLt]
    omega

/-- A level without eligible quantity grants nothing. -/
theorem proRata_grants_zero (remaining : Nat) {queue : List Order}
    (empty : demand Order.size (eligible incoming queue) = 0) :
    (levelVisit .proRata incoming remaining queue).grants = [] := by
  rw [List.eq_nil_iff_forall_not_mem]
  intro grant member
  obtain ⟨queued, trades, bounded, _⟩ := mem_levelVisit member
  have positive := of_decide_eq_true (List.mem_filter.mp member).2
  have listed : grant.1 ∈ eligible incoming queue :=
    List.mem_filter.mpr ⟨queued, trades⟩
  have small := size_le_demand Order.size listed
  omega

section Level

variable {sweep : Sweep sizes} {side : Side} {price : Int64}
variable {before after : List (Int64 × LevelSlot sizes)}

/-- What the first pass finds on a level. -/
theorem scanLevel_spec (dryRun : Bool) (incoming : Order)
    (settled : sweep.book.Settled layout) :
    ∃ scan, scanOrders dryRun incoming sweep.book (sizes.orders + 1)
        (layout.queue level).head?
        { eligibleTotal := 0, largest := none, stats := sweep.stats } =
        .ok scan ∧
      scan.eligibleTotal.toNat = demand sweep.book.qtyAt
        (eligibleSlots sweep.book incoming (layout.queue level)) ∧
      scan.largest = largestSlot sweep.book incoming (layout.queue level) ∧
      scan.stats = sweep.stats.commit dryRun
        (.charge incoming ((layout.queue level).map sweep.book.payload)
          []) := by
  have enough : (layout.queue level).length < sizes.orders + 1 :=
    Nat.lt_succ_of_le (settled.queue_length_le level)
  have none_yet : Scanned sweep.book incoming []
      { eligibleTotal := 0, largest := none, stats := sweep.stats } :=
    ⟨rfl, rfl⟩
  obtain ⟨scan, run, scanned, stats⟩ := scanOrders_spec dryRun incoming settled
    enough (List.nil_append _).symm none_yet
  refine ⟨scan, run, ?_, scanned.largest, stats⟩
  rw [scanned.eligibleTotal]
  exact UInt64.toNat_ofNat_of_lt' (demand_lt settled)

theorem stdMin_guarded (residual room : UInt32) :
    (if 0 < residual then stdMin residual room else 0) =
      stdMin residual room := by
  split
  next => rfl
  next empty =>
    apply UInt32.toNat_inj.mp
    rw [UInt32.lt_iff_toNat_lt] at empty
    have zero : residual.toNat = 0 := Nat.eq_zero_of_not_pos empty
    rw [stdMin_toNat, zero, Nat.zero_min]
    rfl

theorem sumFloors_level (incoming : Order) (settled : sweep.book.Settled layout)
    {levelFillQty : UInt32} {eligibleTotal : UInt64}
    (spent : floors sweep.book.qtyAt levelFillQty.toNat eligibleTotal.toNat
      (eligibleSlots sweep.book incoming (layout.queue level)) ≤
        levelFillQty.toNat) :
    ∃ totalFloor, sumFloors incoming levelFillQty eligibleTotal sweep.book
        (sizes.orders + 1) (layout.queue level).head? 0 = .ok totalFloor ∧
      (levelFillQty - totalFloor).toNat = levelFillQty.toNat -
        floors sweep.book.qtyAt levelFillQty.toNat eligibleTotal.toNat
          (eligibleSlots sweep.book incoming (layout.queue level)) := by
  have enough : (layout.queue level).length < sizes.orders + 1 :=
    Nat.lt_succ_of_le (settled.queue_length_le level)
  refine ⟨_, sumFloors_spec incoming levelFillQty eligibleTotal settled enough
    (List.nil_append _).symm, ?_⟩
  have floorsEq : (0 + UInt32.ofNat (slotFloors sweep.book incoming
      levelFillQty.toNat eligibleTotal.toNat (layout.queue level))).toNat =
        floors sweep.book.qtyAt levelFillQty.toNat eligibleTotal.toNat
          (eligibleSlots sweep.book incoming (layout.queue level)) := by
    rw [UInt32.zero_add, slotFloors]
    apply UInt32.toNat_ofNat_of_lt'
    exact Nat.lt_of_le_of_lt spent levelFillQty.toNat_lt
  rw [UInt32.toNat_sub_of_le _ _ (by
    rw [UInt32.le_iff_toNat_le, floorsEq]
    exact spent), floorsEq]

/-- The committing part is the third pass, and the fill of the largest order
after it. -/
theorem fillLevel_run (incoming : Order) {fifoHead : Option (OrderSlot sizes)}
    {levelFillQty totalFloor : UInt32} {eligibleTotal : UInt64}
    {largest : OrderSlot sizes} {node : RestingOrder sizes}
    (summed : sumFloors incoming levelFillQty eligibleTotal sweep.book
      (sizes.orders + 1) fifoHead 0 = .ok totalFloor)
    (stored : sweep.book.orderPool.object? largest = some node)
    {share extra : UInt32}
    (shareIs : floorShare levelFillQty node.qty eligibleTotal = share)
    (extraIs : stdMin (levelFillQty - totalFloor) (node.qty - share) = extra) :
    fillLevel incoming level fifoHead levelFillQty eligibleTotal (some largest)
        sweep =
      applyShares incoming level levelFillQty eligibleTotal largest
        (sizes.orders + 1) fifoHead (levelFillQty - totalFloor - extra)
        sweep >>= fun sweep =>
          if 0 < share + extra then
            sweep.applyFill largest level (share + extra) incoming
          else pure sweep := by
  rw [fillLevel, summed, ok_bind]
  dsimp only
  rw [ObjectPool.read_eq stored, ok_bind]
  rw [shareIs, extraIs]

/-- What is settled of the fills of a level before the third pass. -/
structure Prepared (incoming : Order) (layout : Layout sizes) (side : Side)
    (price : Int64) (level : LevelSlot sizes)
    (before after : List (Int64 × LevelSlot sizes)) (levelFillQty : UInt32)
    (eligibleTotal : UInt64) (sweep : Sweep sizes)
    (largest : OrderSlot sizes) (node : RestingOrder sizes)
    (totalFloor share extra : UInt32) : Prop where
  found : largestSlot sweep.book incoming (layout.queue level) = some largest
  stored : sweep.book.orderPool.object? largest = some node
  summed : sumFloors incoming levelFillQty eligibleTotal sweep.book
    (sizes.orders + 1) (layout.queue level).head? 0 = .ok totalFloor
  shareIs : floorShare levelFillQty node.qty eligibleTotal = share
  extraIs : stdMin (levelFillQty - totalFloor) (node.qty - share) = extra
  bounded : levelFillQty.toNat ≤ eligibleTotal.toNat
  trades : tradable incoming (sweep.book.payload largest) = true
  fits : (share + extra).toNat ≤ (sweep.book.payload largest).size
  balance : total (shareGrants sweep.book incoming largest levelFillQty.toNat
      eligibleTotal.toNat (levelFillQty - totalFloor - extra).toNat
      (layout.queue level)) + (share + extra).toNat ≤ sweep.remaining.toNat
  ahead : SharesAhead sweep.book layout side price level before after incoming
    levelFillQty eligibleTotal largest (layout.queue level)
    (levelFillQty - totalFloor - extra, sweep)
  grants : (levelVisit .proRata incoming sweep.remaining.toNat
      ((layout.queue level).map sweep.book.payload)).grants =
    shareGrants sweep.book incoming largest levelFillQty.toNat
      eligibleTotal.toNat (levelFillQty - totalFloor - extra).toNat
      (layout.queue level) ++
    if 0 < (share + extra).toNat then
      [(sweep.book.payload largest, (share + extra).toNat)]
    else []

theorem fillLevel_prepared (incoming : Order)
    (settled : sweep.book.Settled layout)
    (split : (sweep.book.priceMap side).entries =
      before ++ (price, level) :: after)
    {levelFillQty : UInt32} {eligibleTotal : UInt64}
    (totalEq : eligibleTotal.toNat = demand sweep.book.qtyAt
      (eligibleSlots sweep.book incoming (layout.queue level)))
    (positive : 0 < eligibleTotal.toNat)
    (fillEq : levelFillQty.toNat =
      min sweep.remaining.toNat eligibleTotal.toNat) :
    ∃ largest node totalFloor share extra,
      Prepared incoming layout side price level before after levelFillQty
        eligibleTotal sweep largest node totalFloor share extra := by
  have listed := OrderBook.listed_of_split split
  have bounded : levelFillQty.toNat ≤ eligibleTotal.toNat := by
    rw [fillEq]
    exact Nat.min_le_right _ _
  cases found : splitLargest sweep.book.qtyAt
      (eligibleSlots sweep.book incoming (layout.queue level)) with
  | none =>
      rw [splitLargest_eq_none] at found
      rw [totalEq, found] at positive
      exact absurd positive (Nat.lt_irrefl 0)
  | some parts =>
      obtain ⟨smaller, largest, later⟩ := parts
      have eligibleMember : largest ∈ eligibleSlots sweep.book incoming
          (layout.queue level) := by
        rw [(splitLargest_spec _ found).1]
        simp
      obtain ⟨largestMember, trades⟩ := List.mem_filter.mp eligibleMember
      obtain ⟨node, stored, nodeEq⟩ := settled.queued_node largestMember
      have spent : floors sweep.book.qtyAt levelFillQty.toNat
          eligibleTotal.toNat (eligibleSlots sweep.book incoming
            (layout.queue level)) ≤ levelFillQty.toNat := by
        rw [totalEq]
        exact floors_le _ _ (totalEq ▸ positive)
      obtain ⟨totalFloor, summed, residualNat⟩ :=
        sumFloors_level incoming settled spent
      obtain ⟨shareEq, leftEq, fits⟩ :=
        totalShare_toNat (levelFillQty - totalFloor) node.qty bounded
      rw [stdMin_guarded] at shareEq leftEq
      have largestQty : sweep.book.qtyAt largest = node.qty.toNat := by
        rw [OrderBook.qtyAt, nodeEq]
      generalize shareIs :
        floorShare levelFillQty node.qty eligibleTotal = share
        at shareEq leftEq
      generalize extraIs :
        stdMin (levelFillQty - totalFloor) (node.qty - share) = extra
        at shareEq leftEq
      have grantsEq := proRata_grants (settled.chain level).nodup found
        sweep.remaining.toNat
      dsimp only at grantsEq
      rw [← totalEq, ← fillEq, ← residualNat, largestQty, ← shareEq,
        ← leftEq] at grantsEq
      have balance : total (shareGrants sweep.book incoming largest
          levelFillQty.toNat eligibleTotal.toNat
          (levelFillQty - totalFloor - extra).toNat (layout.queue level)) +
          (share + extra).toNat ≤
          sweep.remaining.toNat := by
        have handedOut := congrArg total grantsEq
        rw [total_levelVisit, total_append, total_served] at handedOut
        omega
      refine ⟨largest, node, totalFloor, share, extra, ?_, stored, summed,
        shareIs, extraIs, bounded, trades, ?_, balance,
        ⟨layout, [], LevelState.refl settled split, listed, rfl, largestMember,
          Nat.le_of_add_right_le balance⟩, grantsEq⟩
      · rw [largestSlot, found, Option.map_some]
      · rw [shareEq, nodeEq]
        exact fits

theorem fillLevel_spec (incoming : Order) (settled : sweep.book.Settled layout)
    (split : (sweep.book.priceMap side).entries =
      before ++ (price, level) :: after)
    {levelFillQty : UInt32} {eligibleTotal : UInt64}
    (totalEq : eligibleTotal.toNat = demand sweep.book.qtyAt
      (eligibleSlots sweep.book incoming (layout.queue level)))
    (positive : 0 < eligibleTotal.toNat)
    (fillEq : levelFillQty.toNat =
      min sweep.remaining.toNat eligibleTotal.toNat) :
    let grants := (levelVisit .proRata incoming sweep.remaining.toNat
      ((layout.queue level).map sweep.book.payload)).grants
    ∃ next nextLayout,
      fillLevel incoming level (layout.queue level).head? levelFillQty
        eligibleTotal
        (largestSlot sweep.book incoming (layout.queue level)) sweep =
          .ok next ∧
      LevelState sweep.book layout side price level before after next.book
        nextLayout ∧
      Progress false incoming (atPlace side price) (.charge incoming [] grants)
        grants sweep next := by
  intro grants
  obtain ⟨largest, node, totalFloor, share, extra, prepared⟩ :=
    fillLevel_prepared incoming settled split totalEq positive fillEq
  obtain ⟨middle, middleLayout, sharesRun, middleState, middleListed,
    middleLargest, middlePayload, sharing⟩ := applyShares_spec incoming
      prepared.bounded (Nat.lt_succ_of_le (settled.queue_length_le level))
      prepared.ahead
  obtain ⟨front, back, middleSplit⟩ := List.append_of_mem middleLargest
  have fillFits : (share + extra).toNat ≤
      (middle.book.payload largest).size := by
    rw [middlePayload]
    exact prepared.fits
  have remains : (share + extra).toNat ≤ middle.remaining.toNat := by
    have left := sharing.remaining
    have balance := prepared.balance
    omega
  have trades := prepared.trades
  rw [← middlePayload] at trades
  obtain ⟨next, nextLayout, kept, fillRun, nextState, _, _, _, filling⟩ :=
    serveShare_spec incoming middleState middleListed middleSplit fillFits
      remains trades
  refine ⟨next, nextLayout, ?_, nextState, ?_⟩
  · rw [prepared.found, fillLevel_run incoming prepared.summed prepared.stored
      prepared.shareIs prepared.extraIs, sharesRun, ok_bind, fillRun]
  · rw [middlePayload] at filling
    change Progress false incoming (atPlace side price)
      (.charge incoming [] (levelVisit .proRata incoming _ _).grants)
      (levelVisit .proRata incoming _ _).grants sweep next
    rw [prepared.grants]
    apply (sharing.trans filling).recount
    intro stats
    exact stats.charge_append incoming [] [] _ _

/-- Pro-rata matching serves a level proportionally. -/
theorem proRataAtLevel_spec (dryRun : Bool) (incoming : Order) :
    @LevelSpec sizes dryRun incoming .proRata
      (proRataAtLevel dryRun incoming) := by
  intro sweep layout side price level before after settled split _
  have listed := OrderBook.listed_of_split split
  obtain ⟨scan, scanRun, totalEq, largestEq, stats⟩ :=
    scanLevel_spec dryRun incoming settled
  let counted : Sweep sizes := { sweep with stats := scan.stats }
  have counting : Progress dryRun incoming (atPlace side price)
      (.charge incoming ((layout.queue level).map sweep.book.payload) []) []
      sweep counted := by
    have counted_eq : counted = { sweep with
        stats := sweep.stats.commit dryRun (.charge incoming
          ((layout.queue level).map sweep.book.payload) []) } := by
      rw [← stats]
    rw [counted_eq]
    exact Progress.counting incoming _ _ sweep
  have countedSettled : counted.book.Settled layout := settled
  have wholeEq : demand Order.size
      (eligible incoming ((layout.queue level).map sweep.book.payload)) =
      scan.eligibleTotal.toNat := by
    rw [eligible_map, demand_map, totalEq]
    rfl
  have run : proRataAtLevel dryRun incoming level sweep =
      if scan.eligibleTotal = 0 then .ok counted
      else if dryRun then
        .ok { counted with
          remaining := counted.remaining -
            (stdMin counted.remaining.toUInt64 scan.eligibleTotal).toUInt32 }
      else
        fillLevel incoming level (layout.queue level).head?
          (stdMin counted.remaining.toUInt64 scan.eligibleTotal).toUInt32
          scan.eligibleTotal
          (largestSlot sweep.book incoming (layout.queue level)) counted := by
    rw [proRataAtLevel, ObjectPool.read_eq (settled.record listed), ok_bind,
      ← largestEq]
    change (scanOrders dryRun incoming sweep.book (sizes.orders + 1)
      (layout.queue level).head? _ >>= _) = _
    rw [scanRun, ok_bind]
    rfl
  by_cases empty : scan.eligibleTotal = 0
  · have nothing := proRata_grants_zero sweep.remaining.toNat
      (wholeEq.trans (congrArg UInt64.toNat empty))
    refine ⟨counted, layout, ?_, LevelState.refl countedSettled split, ?_⟩
    · rw [run, if_pos empty]
    · rw [Made, nothing]
      exact counting
  · have positive : 0 < scan.eligibleTotal.toNat := by
      rw [← UInt64.toNat_inj] at empty
      exact Nat.pos_of_ne_zero empty
    have fillEq := levelFillQty_toNat counted.remaining scan.eligibleTotal
    rw [if_neg empty] at run
    cases dryRun with
    | true =>
        refine ⟨_, layout, run, LevelState.refl countedSettled split, ?_, rfl,
          stats, ⟨[], by simp [counted], by simp, rfl⟩, fun _ => rfl⟩
        change (sweep.remaining - (stdMin sweep.remaining.toUInt64
          scan.eligibleTotal).toUInt32).toNat + _ = _
        have fits : (stdMin sweep.remaining.toUInt64
            scan.eligibleTotal).toUInt32 ≤ sweep.remaining := by
          rw [UInt32.le_iff_toNat_le]
          exact fillEq.le.trans (Nat.min_le_left _ _)
        rw [total_levelVisit, wholeEq, ← fillEq,
          UInt32.toNat_sub_of_le _ _ fits]
        change sweep.remaining.toNat - (stdMin sweep.remaining.toUInt64
          scan.eligibleTotal).toUInt32.toNat + (stdMin sweep.remaining.toUInt64
          scan.eligibleTotal).toUInt32.toNat = _
        have fitsNat := UInt32.le_iff_toNat_le.mp fits
        omega
    | false =>
        obtain ⟨next, nextLayout, fillRun, state, filling⟩ := fillLevel_spec
          incoming countedSettled split totalEq positive fillEq
        refine ⟨next, nextLayout, ?_, state, ?_⟩
        · rw [run, if_neg Bool.false_ne_true]
          exact fillRun
        · apply (counting.trans filling).recount
          intro stats
          have appended := stats.charge_append incoming
            ((layout.queue level).map sweep.book.payload) [] []
            (levelVisit .proRata incoming sweep.remaining.toNat
              ((layout.queue level).map sweep.book.payload)).grants
          rw [List.append_nil] at appended
          exact appended

end Level

end Sweep

end Hydra
