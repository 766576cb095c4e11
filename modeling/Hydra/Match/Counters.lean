import Hydra.Book.Counters
import Hydra.Matcher

/-!
# Matching does not read the exhaustion counters

The sweeps, matching and replacement of a book whose exhaustion counters stand
elsewhere go through the same steps and report the same fills and statistics.
-/

namespace Hydra

variable {sizes : PoolSizes} (orders levels : UInt64)

def Emission.recount (emission : Emission sizes) : Emission sizes :=
  { emission with book := emission.book.recount orders levels }

def MatchResult.recount (result : MatchResult sizes) : MatchResult sizes :=
  { result with
    book := result.book.recount orders levels
    emitted := result.emitted.map (Emission.recount orders levels) }

namespace Sweep

variable (sweep : Sweep sizes) (incoming : Order) (dryRun : Bool)
variable (level : LevelSlot sizes) (resting : OrderSlot sizes)

def recount : Sweep sizes :=
  { sweep with
    book := sweep.book.recount orders levels
    emitted := sweep.emitted.map (Emission.recount orders levels) }

theorem dropFilled_recount (node : RestingOrder sizes) :
    Lockstep (recount orders levels) (sweep.dropFilled node)
      ((sweep.recount orders levels).dropFilled node) := by
  apply Lockstep.ite
  · intro _
    apply (sweep.book.cancelOrder_recount orders levels node.orderId).bind
    intro cancelled
    exact .ok (recount orders levels) { sweep with book := cancelled.2 }
  · intro _
    exact .ok _ _

theorem applyFill_recount (fillQty : UInt32) :
    Lockstep (recount orders levels)
      (sweep.applyFill resting level fillQty incoming)
      ((sweep.recount orders levels).applyFill resting level fillQty
        incoming) := by
  apply Lockstep.shared
  intro node
  apply (sweep.book.modifyOrder_recount orders levels resting _).bind
  intro filled
  apply (filled.modifyLevel_recount orders levels level _).bind
  intro counted
  apply Lockstep.shared
  intro left
  have dropped := dropFilled_recount orders levels
    { book := counted
      remaining := sweep.remaining - fillQty
      stats := sweep.stats.countFill
      emitted := sweep.emitted ++
        [{ event :=
            { makerOrderId := node.orderId
              takerOrderId := incoming.orderId
              price := node.price
              timestampNs := incoming.timestampNs
              qty := fillQty }
           book := sweep.book }] } left
  rw [recount, List.map_append] at dropped
  exact dropped

theorem sweepLevels_recount
    {atLevel : LevelSlot sizes → Sweep sizes → Except Fault (Sweep sizes)}
    (step : ∀ level sweep, Lockstep (recount orders levels)
      (atLevel level sweep) (atLevel level (sweep.recount orders levels)))
    (fuel : Nat) (current : Option (LevelSlot sizes)) :
    Lockstep (recount orders levels)
      (sweepLevels dryRun incoming atLevel fuel current sweep)
      (sweepLevels dryRun incoming atLevel fuel current
        (sweep.recount orders levels)) := by
  induction fuel generalizing current sweep with
  | zero => exact .error _ _
  | succ fuel induction =>
      cases current with
      | none => exact .ok _ _
      | some level =>
          apply Lockstep.ite
          · intro _
            apply Lockstep.shared
            intro record
            apply Lockstep.ite
            · intro _
              apply (step level _).bind
              intro visited
              exact induction visited _
            · intro _
              exact .ok _ _
          · intro _
            exact .ok _ _

theorem visitOrder_recount :
    Lockstep (recount orders levels)
      (visitOrder dryRun incoming level resting sweep)
      (visitOrder dryRun incoming level resting
        (sweep.recount orders levels)) := by
  apply Lockstep.shared
  intro node
  apply Lockstep.ite
  · intro _
    exact .ok (recount orders levels) { sweep with stats := _ }
  · intro _
    cases dryRun with
    | false => exact applyFill_recount orders levels _ incoming level resting _
    | true =>
        exact .ok (recount orders levels)
          { sweep with stats := _, remaining := _ }

theorem visitOrders_recount (fuel : Nat) (current : Option (OrderSlot sizes)) :
    Lockstep (recount orders levels)
      (visitOrders dryRun incoming level fuel current sweep)
      (visitOrders dryRun incoming level fuel current
        (sweep.recount orders levels)) := by
  induction fuel generalizing current sweep with
  | zero => exact .error _ _
  | succ fuel induction =>
      cases current with
      | none => exact .ok _ _
      | some resting =>
          apply Lockstep.ite
          · intro _
            apply Lockstep.shared
            intro node
            apply (visitOrder_recount orders levels sweep incoming dryRun level
              resting).bind
            intro visited
            exact induction visited _
          · intro _
            exact .ok _ _

theorem sweepPriceTime_recount :
    Lockstep (recount orders levels) (sweepPriceTime dryRun incoming sweep)
      (sweepPriceTime dryRun incoming (sweep.recount orders levels)) := by
  apply sweepLevels_recount
  intro level sweep
  apply Lockstep.shared
  intro record
  exact visitOrders_recount orders levels sweep incoming dryRun level _ _

theorem isLarger_recount (book : OrderBook sizes) (qty : UInt32)
    (largest : Option (OrderSlot sizes)) :
    isLarger (book.recount orders levels) qty largest =
      isLarger book qty largest := by
  cases largest <;> rfl

theorem scanOrders_recount (book : OrderBook sizes) (fuel : Nat)
    (current : Option (OrderSlot sizes)) (scan : LevelScan sizes) :
    scanOrders dryRun incoming (book.recount orders levels) fuel current scan =
      scanOrders dryRun incoming book fuel current scan := by
  induction fuel generalizing current scan with
  | zero => rfl
  | succ fuel induction =>
      cases current with
      | none => rfl
      | some resting =>
          simp only [scanOrders, induction, isLarger_recount]
          rfl

theorem sumFloors_recount (levelFillQty : UInt32) (eligibleTotal : UInt64)
    (book : OrderBook sizes) (fuel : Nat) (current : Option (OrderSlot sizes))
    (totalFloor : UInt32) :
    sumFloors incoming levelFillQty eligibleTotal (book.recount orders levels)
        fuel current totalFloor =
      sumFloors incoming levelFillQty eligibleTotal book fuel current
        totalFloor := by
  induction fuel generalizing current totalFloor with
  | zero => rfl
  | succ fuel induction =>
      cases current with
      | none => rfl
      | some resting =>
          simp only [sumFloors, induction]
          rfl

theorem applyShares_recount (levelFillQty : UInt32) (eligibleTotal : UInt64)
    (largest : OrderSlot sizes) (fuel : Nat)
    (current : Option (OrderSlot sizes)) (residual : UInt32) :
    Lockstep (recount orders levels)
      (applyShares incoming level levelFillQty eligibleTotal largest fuel
        current residual sweep)
      (applyShares incoming level levelFillQty eligibleTotal largest fuel
        current residual (sweep.recount orders levels)) := by
  induction fuel generalizing current residual sweep with
  | zero => exact .error _ _
  | succ fuel induction =>
      cases current with
      | none => exact .ok _ _
      | some resting =>
          apply Lockstep.shared
          intro node
          apply Lockstep.ite
          · intro _
            exact induction sweep _ _
          · intro _
            apply Lockstep.ite
            · intro _
              apply (applyFill_recount orders levels sweep incoming level
                resting _).bind
              intro filled
              exact induction filled _ _
            · intro _
              exact induction sweep _ _

theorem fillLevel_recount (fifoHead : Option (OrderSlot sizes))
    (levelFillQty : UInt32) (eligibleTotal : UInt64)
    (largest : Option (OrderSlot sizes)) :
    Lockstep (recount orders levels)
      (fillLevel incoming level fifoHead levelFillQty eligibleTotal largest
        sweep)
      (fillLevel incoming level fifoHead levelFillQty eligibleTotal largest
        (sweep.recount orders levels)) := by
  rw [fillLevel, fillLevel]
  change Lockstep _ _ (sumFloors _ _ _ (sweep.book.recount orders levels) _ _ _
    >>= _)
  rw [sumFloors_recount]
  apply Lockstep.shared
  intro totalFloor
  cases largest with
  | none => exact .error _ _
  | some largest =>
      apply Lockstep.shared
      intro node
      apply (applyShares_recount orders levels sweep incoming level _ _ _ _ _
        _).bind
      intro shared
      apply Lockstep.ite
      · intro _
        exact applyFill_recount orders levels shared incoming level largest _
      · intro _
        exact .ok _ _

theorem proRataAtLevel_recount :
    Lockstep (recount orders levels)
      (proRataAtLevel dryRun incoming level sweep)
      (proRataAtLevel dryRun incoming level
        (sweep.recount orders levels)) := by
  apply Lockstep.shared
  intro record
  change Lockstep _ _ (scanOrders _ _ (sweep.book.recount orders levels) _ _ _
    >>= _)
  rw [scanOrders_recount]
  apply Lockstep.shared
  intro scan
  apply Lockstep.ite
  · intro _
    exact .ok (recount orders levels) { sweep with stats := scan.stats }
  · intro _
    cases dryRun with
    | false => exact fillLevel_recount orders levels _ incoming level _ _ _ _
    | true =>
        exact .ok (recount orders levels)
          { sweep with stats := scan.stats, remaining := _ }

theorem proRataSweep_recount :
    Lockstep (recount orders levels) (proRataSweep dryRun incoming sweep)
      (proRataSweep dryRun incoming (sweep.recount orders levels)) := by
  apply sweepLevels_recount
  intro level sweep
  exact proRataAtLevel_recount orders levels sweep incoming dryRun level

end Sweep

namespace OrderBook

variable (book : OrderBook sizes) (incoming : Order)
variable (load : Nat → MatchingMode)

theorem sweepMode_recount (mode : MatchingMode) (dryRun : Bool) :
    Lockstep (Sweep.recount orders levels)
      (book.sweepMode mode dryRun incoming)
      ((book.recount orders levels).sweepMode mode dryRun incoming) := by
  cases mode with
  | priceTime =>
      exact Sweep.sweepPriceTime_recount orders levels (.start book incoming)
        incoming dryRun
  | proRata =>
      exact Sweep.proRataSweep_recount orders levels (.start book incoming)
        incoming dryRun

theorem available_recount (mode : MatchingMode) :
    (book.recount orders levels).available mode incoming =
      book.available mode incoming := by
  have dry := sweepMode_recount orders levels book incoming mode true
  cases mode with
  | priceTime =>
      change Sweep.sweepPriceTime true incoming _ = Except.map _
        (Sweep.sweepPriceTime true incoming _) at dry
      rw [available, available, availablePriceTime, availablePriceTime, dry]
      cases Sweep.sweepPriceTime true incoming (.start book incoming) <;> rfl
  | proRata =>
      change Sweep.proRataSweep true incoming _ = Except.map _
        (Sweep.proRataSweep true incoming _) at dry
      rw [available, available, availableProRata, availableProRata, dry]
      cases Sweep.proRataSweep true incoming (.start book incoming) <;> rfl

theorem restRemainder_recount (remaining : UInt32) :
    Lockstep (recount orders levels) (book.restRemainder incoming remaining)
      ((book.recount orders levels).restRemainder incoming remaining) := by
  apply Lockstep.ite
  · intro _
    apply Lockstep.shared
    intro crossed
    apply Lockstep.ite
    · intro _
      exact .ok _ _
    · intro _
      apply (book.addOrder_recount orders levels
        { incoming with qty := remaining }).bind
      intro added
      exact .ok (recount orders levels) added.2
  · intro _
    exact .ok _ _

theorem commitMatch_recount (mode : MatchingMode) :
    Lockstep (MatchResult.recount orders levels)
      (book.commitMatch mode incoming)
      ((book.recount orders levels).commitMatch mode incoming) := by
  apply (book.sweepMode_recount orders levels incoming mode false).bind
  intro swept
  apply (swept.book.restRemainder_recount orders levels incoming
    swept.remaining).bind
  intro rested
  exact .ok (MatchResult.recount orders levels)
    { book := rested, stats := _, emitted := swept.emitted }

theorem findOrder_recount (orderId : UInt64) :
    (book.recount orders levels).findOrder orderId = book.findOrder orderId :=
  rfl

theorem matchOrder_recount :
    Lockstep (MatchResult.recount orders levels)
      (book.matchOrder load incoming)
      ((book.recount orders levels).matchOrder load incoming) := by
  rw [matchOrder, matchOrder, findOrder_recount]
  cases book.findOrder incoming.orderId with
  | some slot => exact .ok _ _
  | none =>
      apply Lockstep.ite
      · intro _
        rw [available_recount]
        apply Lockstep.shared
        intro available
        apply Lockstep.ite
        · intro _
          exact .ok _ _
        · intro _
          exact book.commitMatch_recount orders levels incoming _
      · intro _
        exact book.commitMatch_recount orders levels incoming _

theorem replace_recount (orderId : UInt64) (newPrice : Int64)
    (newQty : UInt32) :
    Lockstep (MatchResult.recount orders levels)
      (book.replace load orderId newPrice newQty)
      ((book.recount orders levels).replace load orderId newPrice newQty) := by
  rw [replace, replace, findOrder_recount]
  cases book.findOrder orderId with
  | none => exact .ok _ _
  | some slot =>
      apply Lockstep.shared
      intro existing
      apply Lockstep.ite
      · intro _
        apply (book.cancelOrder_recount orders levels orderId).bind
        intro cancelled
        exact .ok (MatchResult.recount orders levels)
          { book := cancelled.2, stats := {}, emitted := [] }
      · intro _
        apply Lockstep.ite
        · intro _
          apply (book.replaceOrderInPlace_recount orders levels orderId
            newQty).bind
          intro resized
          exact .ok (MatchResult.recount orders levels)
            { book := resized.2, stats := {}, emitted := [] }
        · intro _
          apply (book.cancelOrder_recount orders levels orderId).bind
          intro cancelled
          exact cancelled.2.matchOrder_recount orders levels _ load

end OrderBook

end Hydra
