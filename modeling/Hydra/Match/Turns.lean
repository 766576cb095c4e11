import Hydra.Library.Traversal
import Hydra.Matcher

/-!
# The loops of the matcher as traversals

Every loop over links in the matcher reads the next link before it works on its
slot.  Each is written here as the work of one turn, and is the run of the
traversal that repeats this work; the turns of the traversal then tell what the
loop visited.
-/

namespace Hydra

variable {sizes : PoolSizes}

namespace Sweep

/-- One turn of the loop over the levels. -/
def levelLoop (dryRun : Bool) (incoming : Order)
    (atLevel : LevelSlot sizes → Sweep sizes → Except Fault (Sweep sizes)) :
    Traversal Fault (LevelSlot sizes) (Sweep sizes) where
  outOfFuel := .outOfFuel
  work level sweep :=
    if 0 < sweep.remaining then do
      let record ← sweep.book.levelPool.read level
      if crosses record.price incoming then
        let nextLevel :=
          if incoming.side = .buy then sweep.book.nextAskLevel record.price
          else sweep.book.nextBidLevel record.price
        let sweep ← atLevel level
          { sweep with stats := sweep.stats.commit dryRun .countLevel }
        return some (nextLevel, sweep)
      else
        return none
    else
      .ok none

/-- One turn of the price-time loop over the orders of a level. -/
def orderLoop (dryRun : Bool) (incoming : Order) (level : LevelSlot sizes) :
    Traversal Fault (OrderSlot sizes) (Sweep sizes) where
  outOfFuel := .outOfFuel
  work resting sweep :=
    if 0 < sweep.remaining then do
      let node ← sweep.book.orderPool.read resting
      let sweep ← visitOrder dryRun incoming level resting sweep
      return some (node.next, sweep)
    else
      .ok none

/-- One turn of the first pro-rata pass. -/
def scanLoop (dryRun : Bool) (incoming : Order) (book : OrderBook sizes) :
    Traversal Fault (OrderSlot sizes) (LevelScan sizes) where
  outOfFuel := .outOfFuel
  work resting scan := do
    let node ← book.orderPool.read resting
    let stats := scan.stats.commit dryRun .countExamined
    if OrderBook.isSelfTrade node.toOrder incoming then
      return some (node.next,
        { scan with stats := stats.commit dryRun .countSelfTrade })
    else
      let larger ← isLarger book node.qty scan.largest
      return some (node.next,
        { eligibleTotal := scan.eligibleTotal + node.qty.toUInt64
          largest := if larger then some resting else scan.largest
          stats := stats.commit dryRun .countEligible })

/-- One turn of the second pro-rata pass. -/
def floorLoop (incoming : Order) (levelFillQty : UInt32)
    (eligibleTotal : UInt64) (book : OrderBook sizes) :
    Traversal Fault (OrderSlot sizes) UInt32 where
  outOfFuel := .outOfFuel
  work resting totalFloor := do
    let node ← book.orderPool.read resting
    let totalFloor :=
      if OrderBook.isSelfTrade node.toOrder incoming then totalFloor
      else totalFloor + floorShare levelFillQty node.qty eligibleTotal
    return some (node.next, totalFloor)

/-- One turn of the third pro-rata pass, with the residual that is left. -/
def shareLoop (incoming : Order) (level : LevelSlot sizes)
    (levelFillQty : UInt32) (eligibleTotal : UInt64)
    (largest : OrderSlot sizes) :
    Traversal Fault (OrderSlot sizes) (UInt32 × Sweep sizes) where
  outOfFuel := .outOfFuel
  work resting state := do
    let node ← state.2.book.orderPool.read resting
    if resting = largest ∨ OrderBook.isSelfTrade node.toOrder incoming then
      return some (node.next, state)
    else
      let share := floorShare levelFillQty node.qty eligibleTotal
      let extra :=
        if 0 < state.1 then stdMin state.1 (node.qty - share) else 0
      let sweep ←
        if 0 < share + extra then
          state.2.applyFill resting level (share + extra) incoming
        else
          pure state.2
      return some (node.next, (state.1 - extra, sweep))

section Runs

variable (dryRun : Bool) (incoming : Order) (level : LevelSlot sizes)
variable (levelFillQty : UInt32) (eligibleTotal : UInt64)
variable (book : OrderBook sizes) (sweep : Sweep sizes)

theorem sweepLevels_run
    (atLevel : LevelSlot sizes → Sweep sizes → Except Fault (Sweep sizes))
    (fuel : Nat) (current : Option (LevelSlot sizes)) :
    sweepLevels dryRun incoming atLevel fuel current sweep =
      (levelLoop dryRun incoming atLevel).run fuel current sweep := by
  apply Traversal.eq_run
  · intro current state
    rfl
  · intro fuel state
    rfl
  · intro fuel level state
    rw [sweepLevels, levelLoop]
    by_cases remains : 0 < state.remaining
    · simp only [if_pos remains]
      cases state.book.levelPool.read level with
      | error fault => rfl
      | ok record =>
          simp only [ok_bind]
          split
          next =>
            cases atLevel level { state with
              stats := state.stats.commit dryRun .countLevel } <;> rfl
          next => rfl
    · simp only [if_neg remains]
      rfl

theorem visitOrders_run (fuel : Nat) (current : Option (OrderSlot sizes)) :
    visitOrders dryRun incoming level fuel current sweep =
      (orderLoop dryRun incoming level).run fuel current sweep := by
  apply Traversal.eq_run
  · intro current state
    rfl
  · intro fuel state
    rfl
  · intro fuel resting state
    rw [visitOrders, orderLoop]
    by_cases remains : 0 < state.remaining
    · simp only [if_pos remains]
      cases state.book.orderPool.read resting with
      | error fault => rfl
      | ok node =>
          simp only [ok_bind]
          cases visitOrder dryRun incoming level resting state <;> rfl
    · simp only [if_neg remains]
      rfl

theorem scanOrders_run (scan : LevelScan sizes) (fuel : Nat)
    (current : Option (OrderSlot sizes)) :
    scanOrders dryRun incoming book fuel current scan =
      (scanLoop dryRun incoming book).run fuel current scan := by
  apply Traversal.eq_run
  · intro current state
    rfl
  · intro fuel state
    rfl
  · intro fuel resting state
    rw [scanOrders, scanLoop]
    dsimp only
    cases book.orderPool.read resting with
    | error fault => rfl
    | ok node =>
        simp only [ok_bind]
        split
        next => rfl
        next => cases isLarger book node.qty state.largest <;> rfl

theorem sumFloors_run (totalFloor : UInt32) (fuel : Nat)
    (current : Option (OrderSlot sizes)) :
    sumFloors incoming levelFillQty eligibleTotal book fuel current
        totalFloor =
      (floorLoop incoming levelFillQty eligibleTotal book).run fuel current
        totalFloor := by
  apply Traversal.eq_run
  · intro current state
    rfl
  · intro fuel state
    rfl
  · intro fuel resting state
    rw [sumFloors, floorLoop]
    dsimp only
    cases book.orderPool.read resting <;> rfl

/-- The third pass returns the sweep of its last turn. -/
theorem applyShares_run (largest : OrderSlot sizes) (residual : UInt32)
    (fuel : Nat) (current : Option (OrderSlot sizes)) :
    applyShares incoming level levelFillQty eligibleTotal largest fuel current
        residual sweep =
      ((shareLoop incoming level levelFillQty eligibleTotal largest).run fuel
        current (residual, sweep)).map Prod.snd := by
  induction fuel generalizing current residual sweep with
  | zero => rfl
  | succ fuel induction =>
      cases current with
      | none => rfl
      | some resting =>
          rw [applyShares, Traversal.run, shareLoop]
          dsimp only
          cases sweep.book.orderPool.read resting with
          | error fault => rfl
          | ok node =>
              simp only [ok_bind]
              by_cases skipped : resting = largest ∨
                  OrderBook.isSelfTrade node.toOrder incoming = true
              · rw [if_pos skipped, if_pos skipped, induction]
                rfl
              · rw [if_neg skipped, if_neg skipped]
                generalize floorShare levelFillQty node.qty eligibleTotal =
                  share
                generalize (if 0 < residual then
                  stdMin residual (node.qty - share) else 0) = extra
                by_cases serves : 0 < share + extra
                · rw [if_pos serves, if_pos serves]
                  cases sweep.applyFill resting level (share + extra)
                    incoming with
                  | error fault => rfl
                  | ok filled => exact induction filled _ _
                · rw [if_neg serves, if_neg serves]
                  exact induction sweep _ _

end Runs

end Sweep

end Hydra
