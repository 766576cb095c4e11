import Hydra.Match.Refinement

/-!
# Orderly sweeps

The loops of a sweep free the orders that they fill, and a level with its last
order, while they hold links to the ones that come next.  On a well-formed book
every one of them is orderly: it ends, comes to no slot twice, and no fill
releases what a link that was read ahead leads to.  The largest order of a
pro-rata level, which is filled after the last pass, is still there then, and
so is its level.
-/

namespace Hydra

open Allocation

variable {sizes : PoolSizes}

namespace OrderBook

/-- The slot holds an order: it is not on the free list. -/
def LiveOrder (book : OrderBook sizes) (slot : OrderSlot sizes) : Prop :=
  (book.orderPool.object? slot).isSome = true

def LiveLevel (book : OrderBook sizes) (level : LevelSlot sizes) : Prop :=
  (book.levelPool.object? level).isSome = true

end OrderBook

namespace Sweep

/-- The work of a mode at one level. -/
def atLevel (mode : MatchingMode) (dryRun : Bool) (incoming : Order) :
    LevelSlot sizes → Sweep sizes → Except Fault (Sweep sizes) :=
  match mode with
  | .priceTime => priceTimeAtLevel dryRun incoming
  | .proRata => proRataAtLevel dryRun incoming

/-- The passes of a pro-rata level that fill: the second and the third one are
orderly, and the third one leaves the largest order and its level alone. -/
def FillsOrderly (incoming : Order) (level : LevelSlot sizes)
    (fifoHead : Option (OrderSlot sizes)) (levelFillQty : UInt32)
    (eligibleTotal : UInt64) (largest : Option (OrderSlot sizes))
    (sweep : Sweep sizes) : Prop :=
  (floorLoop incoming levelFillQty eligibleTotal sweep.book).Orderly
    (fun _ => sweep.book.LiveOrder) (sizes.orders + 1) fifoHead 0 ∧
  ∃ slot node totalFloor, largest = some slot ∧
    sweep.book.orderPool.read slot = .ok node ∧
    sumFloors incoming levelFillQty eligibleTotal sweep.book
      (sizes.orders + 1) fifoHead 0 = .ok totalFloor ∧
    let share := floorShare levelFillQty node.qty eligibleTotal
    let extra := stdMin (levelFillQty - totalFloor) (node.qty - share)
    let residual := levelFillQty - totalFloor - extra
    (shareLoop incoming level levelFillQty eligibleTotal slot).Orderly
      (fun state => state.2.book.LiveOrder) (sizes.orders + 1) fifoHead
      (residual, sweep) ∧
    ∃ shared, applyShares incoming level levelFillQty eligibleTotal slot
        (sizes.orders + 1) fifoHead residual sweep = .ok shared ∧
      shared.book.LiveOrder slot ∧ shared.book.LiveLevel level

/-- The passes over the orders of one level. -/
def LevelOrderly (mode : MatchingMode) (dryRun : Bool) (incoming : Order)
    (level : LevelSlot sizes) (sweep : Sweep sizes) : Prop :=
  ∃ record, sweep.book.levelPool.read level = .ok record ∧
    match mode with
    | .priceTime =>
        (orderLoop dryRun incoming level).Orderly
          (fun sweep => sweep.book.LiveOrder) (sizes.orders + 1) record.head
          sweep
    | .proRata =>
        (scanLoop dryRun incoming sweep.book).Orderly
          (fun _ => sweep.book.LiveOrder) (sizes.orders + 1) record.head
          { eligibleTotal := 0, largest := none, stats := sweep.stats } ∧
        ∀ scan, scanOrders dryRun incoming sweep.book (sizes.orders + 1)
            record.head
            { eligibleTotal := 0, largest := none, stats := sweep.stats } =
              .ok scan →
          dryRun = false → scan.eligibleTotal ≠ 0 →
          FillsOrderly incoming level record.head
            (stdMin sweep.remaining.toUInt64 scan.eligibleTotal).toUInt32
            scan.eligibleTotal scan.largest { sweep with stats := scan.stats }

end Sweep

/-- A sweep ends, and every loop of it is orderly. -/
structure OrderBook.SweepsOrderly (book : OrderBook sizes)
    (mode : MatchingMode) (dryRun : Bool) (incoming : Order) : Prop where
  ends : ∃ final, book.sweepMode mode dryRun incoming = .ok final
  levels : (Sweep.levelLoop dryRun incoming
      (Sweep.atLevel mode dryRun incoming)).Orderly
    (fun sweep => sweep.book.LiveLevel) (sizes.levels + 1)
    (Sweep.bestOpposite book incoming) (.start book incoming)
  orders : ∀ turn ∈ (Sweep.levelLoop dryRun incoming
      (Sweep.atLevel mode dryRun incoming)).turns (sizes.levels + 1)
        (Sweep.bestOpposite book incoming) (.start book incoming),
    Sweep.LevelOrderly mode dryRun incoming turn.slot
      { turn.before with
        stats := turn.before.stats.commit dryRun .countLevel }

namespace OrderBook

variable {book : OrderBook sizes} {layout : Layout sizes}

theorem Represents.live_order (rep : book.Represents layout)
    {level : LevelSlot sizes} {slot : OrderSlot sizes}
    (member : slot ∈ layout.queue level) : book.LiveOrder slot := by
  obtain ⟨node, stored⟩ := rep.queued_live member
  rw [LiveOrder, stored]
  rfl

theorem Represents.live_level (rep : book.Represents layout) {side : Side}
    {price : Int64} {level : LevelSlot sizes}
    (listed : book.Listed side price level) : book.LiveLevel level := by
  rw [LiveLevel, rep.record listed]
  rfl

/-- A sweep is the run of its loop over the levels. -/
theorem sweepMode_run (mode : MatchingMode) (dryRun : Bool)
    (incoming : Order) :
    book.sweepMode mode dryRun incoming =
      (Sweep.levelLoop dryRun incoming
        (Sweep.atLevel mode dryRun incoming)).run (sizes.levels + 1)
        (Sweep.bestOpposite book incoming) (.start book incoming) := by
  rw [← Sweep.sweepLevels_run]
  cases mode <;> rfl

end OrderBook

namespace Sweep

variable {layout : Layout sizes} {sweep : Sweep sizes} {side : Side}
variable {price : Int64} {level : LevelSlot sizes} {incoming : Order}
variable {before after : List (Int64 × LevelSlot sizes)}

theorem orderLoop_passes (dryRun : Bool) (incoming : Order)
    (start : OrderBook sizes) (startLayout : Layout sizes) (side : Side)
    (price : Int64) (level : LevelSlot sizes)
    (before after : List (Int64 × LevelSlot sizes)) :
    (orderLoop dryRun incoming level).Passes fun slots sweep =>
      Ahead start startLayout side price level before after slots
        sweep.book := by
  intro slot rest sweep ahead
  by_cases remains : 0 < sweep.remaining
  · obtain ⟨next, works, nextAhead, _⟩ :=
      orderLoop_ahead dryRun incoming ahead remains
    exact .inr ⟨next, works, nextAhead⟩
  · exact .inl (if_neg remains)

theorem orderLoop_orderly (dryRun : Bool) (incoming : Order)
    (settled : sweep.book.Settled layout)
    (split : (sweep.book.priceMap side).entries =
      before ++ (price, level) :: after) :
    (orderLoop dryRun incoming level).Orderly
      (fun sweep => sweep.book.LiveOrder) (sizes.orders + 1)
      (layout.queue level).head? sweep := by
  apply Traversal.orderly_along (orderLoop_passes dryRun incoming sweep.book
    layout side price level before after)
  · intro slot rest state ahead
    obtain ⟨nextLayout, front, levelState, queued⟩ := ahead
    apply levelState.settled.live_order
    rw [(queued (List.cons_ne_nil _ _)).2]
    simp
  · exact Nat.lt_succ_of_le (settled.queue_length_le level)
  · exact (settled.chain level).nodup
  · exact ahead_level settled split

theorem scanLoop_passes (dryRun : Bool) (incoming : Order)
    {book : OrderBook sizes} (settled : book.Settled layout)
    (level : LevelSlot sizes) :
    (scanLoop dryRun incoming book).Passes fun slots scan =>
      ∃ front, layout.queue level = front ++ slots ∧
        Scanned book incoming front scan := by
  intro slot rest scan ahead
  obtain ⟨front, split, scanned⟩ := ahead
  obtain ⟨next, works, nextScanned, _⟩ :=
    scanLoop_ahead dryRun incoming settled split scanned
  exact .inr ⟨next, works, front ++ [slot], by simp [split], nextScanned⟩

theorem scanLoop_orderly (dryRun : Bool) (incoming : Order)
    {book : OrderBook sizes} (settled : book.Settled layout)
    (level : LevelSlot sizes) (stats : MatchStats) :
    (scanLoop dryRun incoming book).Orderly (fun _ => book.LiveOrder)
      (sizes.orders + 1) (layout.queue level).head?
      { eligibleTotal := 0, largest := none, stats } := by
  apply Traversal.orderly_along
    (scanLoop_passes dryRun incoming settled level)
  · intro slot rest state ahead
    obtain ⟨front, split, _⟩ := ahead
    apply settled.live_order
    rw [split]
    simp
  · exact Nat.lt_succ_of_le (settled.queue_length_le level)
  · exact (settled.chain level).nodup
  · exact ⟨[], (List.nil_append _).symm, rfl, rfl⟩

theorem floorLoop_orderly (incoming : Order) (levelFillQty : UInt32)
    (eligibleTotal : UInt64) {book : OrderBook sizes}
    (settled : book.Settled layout) (level : LevelSlot sizes) :
    (floorLoop incoming levelFillQty eligibleTotal book).Orderly
      (fun _ => book.LiveOrder) (sizes.orders + 1)
      (layout.queue level).head? 0 := by
  have passes : (floorLoop incoming levelFillQty eligibleTotal book).Passes
      fun slots _ => ∃ front, layout.queue level = front ++ slots := by
    intro slot rest totalFloor ahead
    obtain ⟨front, split⟩ := ahead
    exact .inr ⟨_, floorLoop_ahead incoming levelFillQty eligibleTotal settled
      totalFloor split, front ++ [slot], by simp [split]⟩
  apply Traversal.orderly_along passes
  · intro slot rest state ahead
    obtain ⟨front, split⟩ := ahead
    apply settled.live_order
    rw [split]
    simp
  · exact Nat.lt_succ_of_le (settled.queue_length_le level)
  · exact (settled.chain level).nodup
  · exact ⟨[], (List.nil_append _).symm⟩

theorem shareLoop_orderly (incoming : Order) {levelFillQty : UInt32}
    {eligibleTotal : UInt64} {largest : OrderSlot sizes}
    (bounded : levelFillQty.toNat ≤ eligibleTotal.toNat)
    (settled : sweep.book.Settled layout) {residual : UInt32}
    (ahead : SharesAhead sweep.book layout side price level before after
      incoming levelFillQty eligibleTotal largest (layout.queue level)
      (residual, sweep)) :
    (shareLoop incoming level levelFillQty eligibleTotal largest).Orderly
      (fun state => state.2.book.LiveOrder) (sizes.orders + 1)
      (layout.queue level).head? (residual, sweep) := by
  have passes : (shareLoop incoming level levelFillQty eligibleTotal
      largest).Passes (SharesAhead sweep.book layout side price level before
        after incoming levelFillQty eligibleTotal largest) := by
    intro slot rest state stateAhead
    obtain ⟨left, middle, _, works, nextAhead, _⟩ :=
      shareLoop_ahead incoming bounded stateAhead
    exact .inr ⟨(left, middle), works, nextAhead⟩
  apply Traversal.orderly_along passes
  · intro slot rest state stateAhead
    obtain ⟨nextLayout, front, levelState, _, split, _⟩ := stateAhead
    apply levelState.settled.live_order
    rw [split]
    simp
  · exact Nat.lt_succ_of_le (settled.queue_length_le level)
  · exact (settled.chain level).nodup
  · exact ahead

theorem fills_orderly (incoming : Order) (settled : sweep.book.Settled layout)
    (split : (sweep.book.priceMap side).entries =
      before ++ (price, level) :: after)
    {levelFillQty : UInt32} {eligibleTotal : UInt64}
    (totalEq : eligibleTotal.toNat = demand sweep.book.qtyAt
      (eligibleSlots sweep.book incoming (layout.queue level)))
    (positive : 0 < eligibleTotal.toNat)
    (fillEq : levelFillQty.toNat =
      min sweep.remaining.toNat eligibleTotal.toNat) :
    FillsOrderly incoming level (layout.queue level).head? levelFillQty
      eligibleTotal (largestSlot sweep.book incoming (layout.queue level))
      sweep := by
  obtain ⟨largest, node, totalFloor, share, extra, prepared⟩ :=
    fillLevel_prepared incoming settled split totalEq positive fillEq
  obtain ⟨shared, sharedLayout, run, state, listed, queued, _⟩ :=
    applyShares_spec incoming prepared.bounded
      (Nat.lt_succ_of_le (settled.queue_length_le level)) prepared.ahead
  obtain rfl := prepared.shareIs
  obtain rfl := prepared.extraIs
  refine ⟨floorLoop_orderly incoming levelFillQty eligibleTotal settled level,
    largest, node, totalFloor, prepared.found,
    ObjectPool.read_eq prepared.stored, prepared.summed,
    shareLoop_orderly incoming prepared.bounded settled prepared.ahead,
    shared, run, ?_, ?_⟩
  · exact state.settled.live_order queued
  · exact state.settled.live_level listed

theorem level_orderly (mode : MatchingMode) (dryRun : Bool) (incoming : Order)
    (settled : sweep.book.Settled layout)
    (split : (sweep.book.priceMap side).entries =
      before ++ (price, level) :: after) :
    LevelOrderly mode dryRun incoming level sweep := by
  have listed := OrderBook.listed_of_split split
  refine ⟨_, ObjectPool.read_eq (settled.record listed), ?_⟩
  cases mode with
  | priceTime => exact orderLoop_orderly dryRun incoming settled split
  | proRata =>
      refine ⟨scanLoop_orderly dryRun incoming settled level sweep.stats, ?_⟩
      intro scan ran _ some_eligible
      obtain ⟨found, foundRun, totalEq, largestEq, _⟩ :=
        scanLevel_spec dryRun incoming settled
      obtain rfl : found = scan := Except.ok.inj (foundRun.symm.trans ran)
      have positive : 0 < found.eligibleTotal.toNat := by
        rw [ne_eq, ← UInt64.toNat_inj] at some_eligible
        exact Nat.pos_of_ne_zero some_eligible
      rw [largestEq]
      let scanned : Sweep sizes := { sweep with stats := found.stats }
      have scannedSettled : scanned.book.Settled layout := settled
      exact fills_orderly incoming scannedSettled split totalEq positive
        (levelFillQty_toNat scanned.remaining found.eligibleTotal)

theorem atLevel_spec (mode : MatchingMode) (dryRun : Bool)
    (incoming : Order) :
    @LevelSpec sizes dryRun incoming mode (atLevel mode dryRun incoming) := by
  cases mode with
  | priceTime => exact priceTimeAtLevel_spec dryRun incoming
  | proRata => exact proRataAtLevel_spec dryRun incoming

/-- The slots are those of the levels that are left of the opposite ladder;
`entries` is what it was at the start. -/
def LevelsAhead (incoming : Order) (entries : List (Int64 × LevelSlot sizes))
    (slots : List (LevelSlot sizes)) (sweep : Sweep sizes) : Prop :=
  ∃ layout before rest, sweep.book.Settled layout ∧
    (sweep.book.priceMap incoming.side.opposite).entries = before ++ rest ∧
    slots = rest.map Prod.snd ∧ rest <:+ entries

theorem levelLoop_passes (mode : MatchingMode) (dryRun : Bool)
    (incoming : Order) (entries : List (Int64 × LevelSlot sizes)) :
    (levelLoop dryRun incoming (atLevel mode dryRun incoming)).Passes
      (LevelsAhead incoming entries) := by
  intro slot slots sweep ahead
  obtain ⟨layout, before, left, settled, split, slotsEq, suffix⟩ := ahead
  obtain ⟨⟨price, level⟩, rest, rfl, rfl, rfl⟩ :=
    List.map_eq_cons_iff.mp slotsEq.symm
  rcases levelLoop_ahead (atLevel_spec mode dryRun incoming) settled split with
    ⟨stops, _⟩ | ⟨middle, middleLayout, middleBefore, works, _, middleSettled,
      middleSplit, _⟩
  · exact .inl stops
  · exact .inr ⟨middle, works, middleLayout, middleBefore, rest, middleSettled,
      middleSplit, rfl, (List.suffix_cons _ _).trans suffix⟩

end Sweep

namespace OrderBook

variable {book : OrderBook sizes} {layout : Layout sizes}

theorem levelsAhead_start (incoming : Order) (settled : book.Settled layout) :
    Sweep.LevelsAhead incoming (book.priceMap incoming.side.opposite).entries
      ((book.priceMap incoming.side.opposite).entries.map Prod.snd)
      (.start book incoming) :=
  ⟨layout, [], _, settled, (List.nil_append _).symm, rfl, List.suffix_refl _⟩

/-- Every sweep over a well-formed book is orderly. -/
theorem sweeps_orderly (wellFormed : book.WellFormed) (mode : MatchingMode)
    (dryRun : Bool) (incoming : Order) :
    book.SweepsOrderly mode dryRun incoming := by
  obtain ⟨layout, settled⟩ := wellFormed
  have passes := Sweep.levelLoop_passes mode dryRun incoming
    (book.priceMap incoming.side.opposite).entries
  have start := levelsAhead_start incoming settled
  have best := Sweep.bestOpposite_eq book incoming
  rw [← List.head?_map] at best
  have levels : (Sweep.levelLoop dryRun incoming
      (Sweep.atLevel mode dryRun incoming)).Orderly
      (fun sweep => sweep.book.LiveLevel) (sizes.levels + 1)
      (Sweep.bestOpposite book incoming) (.start book incoming) := by
    rw [best]
    apply Traversal.orderly_along passes
    · intro level rest sweep ahead
      obtain ⟨_, before, left, sweepSettled, split, slotsEq, _⟩ := ahead
      obtain ⟨entry, later, rfl, rfl, _⟩ :=
        List.map_eq_cons_iff.mp slotsEq.symm
      exact sweepSettled.live_level (listed_of_split split)
    · have startSettled : (Sweep.start book incoming).book.Settled layout :=
        settled
      rw [List.length_map]
      exact Nat.lt_succ_of_le (Sweep.entries_length_le startSettled _)
    · exact settled.levels_nodup _
    · exact start
  refine ⟨?_, levels, ?_⟩
  · rw [sweepMode_run]
    exact levels.ends
  · rw [best]
    intro turn member
    obtain ⟨rest, ahead, _⟩ := (Traversal.turns_along passes start).2 turn
      member
    obtain ⟨turnLayout, before, left, turnSettled, split, slotsEq, _⟩ := ahead
    obtain ⟨⟨price, level⟩, later, rfl, levelEq, _⟩ :=
      List.map_eq_cons_iff.mp slotsEq.symm
    rw [← levelEq]
    let counted : Sweep sizes :=
      { turn.before with
        stats := turn.before.stats.commit dryRun .countLevel }
    have countedSettled : counted.book.Settled turnLayout := turnSettled
    exact Sweep.level_orderly mode dryRun incoming countedSettled split

end OrderBook

end Hydra
