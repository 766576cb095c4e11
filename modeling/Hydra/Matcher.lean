import Hydra.OrderBook

/-!
# The matcher

Matching of an incoming order against the book in both allocation modes, and
replacement of resting orders.  The reference parameters of the source (the
remaining quantity, the counters, the fill handler) are the fields of a
`Sweep` that the functions pass along.  The handler of the model records each
event together with the book at the moment of the call.

Loops over links take fuel; running out of it is a fault.
-/

namespace Hydra

variable {sizes : PoolSizes}

/-- One call of the fill handler, and the book that the caller saw. -/
structure Emission (sizes : PoolSizes) where
  event : FillEvent
  book : OrderBook sizes

/-- The state shared by the loops of one sweep. -/
structure Sweep (sizes : PoolSizes) where
  book : OrderBook sizes
  remaining : UInt32
  stats : MatchStats
  emitted : List (Emission sizes)

/-- What a match returns, with the book that it leaves and the fills that it has
reported. -/
structure MatchResult (sizes : PoolSizes) where
  book : OrderBook sizes
  stats : MatchStats
  emitted : List (Emission sizes)

/-- The smaller argument; the first one when they are equal. -/
def stdMin {α : Type} [LT α] [DecidableLT α] (left right : α) : α :=
  if right < left then right else left

/-- Whether a level at `levelPrice` satisfies the limit of the order. -/
def crosses (levelPrice : Int64) (incoming : Order) : Bool :=
  if incoming.side = .buy then levelPrice ≤ incoming.price
  else incoming.price ≤ levelPrice

namespace MatchStats

def countFill (stats : MatchStats) : MatchStats :=
  { stats with fillsGenerated := stats.fillsGenerated + 1 }

def countLevel (stats : MatchStats) : MatchStats :=
  { stats with levelsConsumed := stats.levelsConsumed + 1 }

def countExamined (stats : MatchStats) : MatchStats :=
  { stats with restingOrdersExamined := stats.restingOrdersExamined + 1 }

def countEligible (stats : MatchStats) : MatchStats :=
  { stats with eligibleOrdersExamined := stats.eligibleOrdersExamined + 1 }

def countSelfTrade (stats : MatchStats) : MatchStats :=
  { stats with selfTradeSkips := stats.selfTradeSkips + 1 }

/-- Counting happens in the committing pass only. -/
def commit (dryRun : Bool) (count : MatchStats → MatchStats)
    (stats : MatchStats) : MatchStats :=
  if dryRun then stats else count stats

end MatchStats

namespace Sweep

def start (book : OrderBook sizes) (incoming : Order) : Sweep sizes where
  book
  remaining := incoming.qty
  stats := {}
  emitted := []

/-- The end of `applyFill`: an order without quantity leaves the book. -/
def dropFilled (sweep : Sweep sizes) (node : RestingOrder sizes) :
    Except Fault (Sweep sizes) :=
  if node.qty = 0 then do
    let (_, book) ← sweep.book.cancelOrder node.orderId
    return { sweep with book }
  else
    return sweep

/-- One fill of a resting order by the incoming one: it is reported first, and
then taken from the order and its level. -/
def applyFill (sweep : Sweep sizes) (resting : OrderSlot sizes)
    (level : LevelSlot sizes) (fillQty : UInt32) (incoming : Order) :
    Except Fault (Sweep sizes) := do
  let node ← sweep.book.orderPool.read resting
  let event : FillEvent :=
    { makerOrderId := node.orderId
      takerOrderId := incoming.orderId
      price := node.price
      timestampNs := incoming.timestampNs
      qty := fillQty }
  let emitted := sweep.emitted ++ [{ event, book := sweep.book }]
  let stats := sweep.stats.countFill
  let remaining := sweep.remaining - fillQty
  let book ← sweep.book.modifyOrder resting fun node =>
    { node with qty := node.qty - fillQty }
  let book ← book.modifyLevel level fun record =>
    { record with totalQty := record.totalQty - fillQty.toUInt64 }
  let node ← book.orderPool.read resting
  dropFilled { book, remaining, stats, emitted } node

/-- The `while` loop of both sweeps over the levels.  `atLevel` is its body at
one level. -/
def sweepLevels (dryRun : Bool) (incoming : Order)
    (atLevel : LevelSlot sizes → Sweep sizes → Except Fault (Sweep sizes)) :
    Nat → Option (LevelSlot sizes) → Sweep sizes → Except Fault (Sweep sizes)
  | 0, _, _ => .error .outOfFuel
  | _ + 1, none, sweep => .ok sweep
  | fuel + 1, some level, sweep =>
      if 0 < sweep.remaining then do
        let record ← sweep.book.levelPool.read level
        if crosses record.price incoming then
          let nextLevel :=
            if incoming.side = .buy then sweep.book.nextAskLevel record.price
            else sweep.book.nextBidLevel record.price
          let sweep ← atLevel level
            { sweep with
              stats := sweep.stats.commit dryRun .countLevel }
          sweepLevels dryRun incoming atLevel fuel nextLevel sweep
        else
          return sweep
      else
        .ok sweep

/-- The level where a sweep starts: the best one of the opposite side. -/
def bestOpposite (book : OrderBook sizes) (incoming : Order) :
    Option (LevelSlot sizes) :=
  if incoming.side = .buy then book.bestAskLevel else book.bestBidLevel

/-- The body of the inner loop of the price-time sweep, at one order. -/
def visitOrder (dryRun : Bool) (incoming : Order) (level : LevelSlot sizes)
    (resting : OrderSlot sizes) (sweep : Sweep sizes) :
    Except Fault (Sweep sizes) := do
  let node ← sweep.book.orderPool.read resting
  let stats := sweep.stats.commit dryRun .countExamined
  if OrderBook.isSelfTrade node.toOrder incoming then
    return { sweep with stats := stats.commit dryRun .countSelfTrade }
  else
    let sweep := { sweep with stats := stats.commit dryRun .countEligible }
    let fillQty := stdMin sweep.remaining node.qty
    if dryRun then
      return { sweep with remaining := sweep.remaining - fillQty }
    else
      sweep.applyFill resting level fillQty incoming

/-- The inner loop of the price-time sweep, from the order `resting` on. -/
def visitOrders (dryRun : Bool) (incoming : Order) (level : LevelSlot sizes) :
    Nat → Option (OrderSlot sizes) → Sweep sizes → Except Fault (Sweep sizes)
  | 0, _, _ => .error .outOfFuel
  | _ + 1, none, sweep => .ok sweep
  | fuel + 1, some resting, sweep =>
      if 0 < sweep.remaining then do
        let node ← sweep.book.orderPool.read resting
        let nextResting := node.next
        let sweep ← visitOrder dryRun incoming level resting sweep
        visitOrders dryRun incoming level fuel nextResting sweep
      else
        .ok sweep

def priceTimeAtLevel (dryRun : Bool) (incoming : Order)
    (level : LevelSlot sizes) (sweep : Sweep sizes) :
    Except Fault (Sweep sizes) := do
  let record ← sweep.book.levelPool.read level
  visitOrders dryRun incoming level (sizes.orders + 1) record.head sweep

/-- `sweep_price_time`: the levels in turn, each in the order of its queue. -/
def sweepPriceTime (dryRun : Bool) (incoming : Order) (sweep : Sweep sizes) :
    Except Fault (Sweep sizes) :=
  sweepLevels dryRun incoming (priceTimeAtLevel dryRun incoming)
    (sizes.levels + 1) (bestOpposite sweep.book incoming) sweep

/-- What the first pass over a level computes. -/
structure LevelScan (sizes : PoolSizes) where
  eligibleTotal : UInt64
  largest : Option (OrderSlot sizes)
  stats : MatchStats

/-- Whether an order of quantity `qty` becomes the largest seen so far. -/
def isLarger (book : OrderBook sizes) (qty : UInt32) :
    Option (OrderSlot sizes) → Except Fault Bool
  | none => .ok true
  | some largest => do
      let best ← book.orderPool.read largest
      return best.qty < qty

def scanOrders (dryRun : Bool) (incoming : Order) (book : OrderBook sizes) :
    Nat → Option (OrderSlot sizes) → LevelScan sizes →
    Except Fault (LevelScan sizes)
  | 0, _, _ => .error .outOfFuel
  | _ + 1, none, scan => .ok scan
  | fuel + 1, some resting, scan => do
      let node ← book.orderPool.read resting
      let stats := scan.stats.commit dryRun .countExamined
      if OrderBook.isSelfTrade node.toOrder incoming then
        scanOrders dryRun incoming book fuel node.next
          { scan with stats := stats.commit dryRun .countSelfTrade }
      else
        let larger ← isLarger book node.qty scan.largest
        scanOrders dryRun incoming book fuel node.next
          { eligibleTotal := scan.eligibleTotal + node.qty.toUInt64
            largest := if larger then some resting else scan.largest
            stats := stats.commit dryRun .countEligible }

def floorShare (levelFillQty qty : UInt32) (eligibleTotal : UInt64) : UInt32 :=
  (levelFillQty.toUInt64 * qty.toUInt64 / eligibleTotal).toUInt32

/-- The second pass: the sum of the rounded-down shares. -/
def sumFloors (incoming : Order) (levelFillQty : UInt32)
    (eligibleTotal : UInt64) (book : OrderBook sizes) :
    Nat → Option (OrderSlot sizes) → UInt32 → Except Fault UInt32
  | 0, _, _ => .error .outOfFuel
  | _ + 1, none, totalFloor => .ok totalFloor
  | fuel + 1, some resting, totalFloor => do
      let node ← book.orderPool.read resting
      let totalFloor :=
        if OrderBook.isSelfTrade node.toOrder incoming then totalFloor
        else totalFloor + floorShare levelFillQty node.qty eligibleTotal
      sumFloors incoming levelFillQty eligibleTotal book fuel node.next
        totalFloor

/-- The third pass: every eligible order but the largest one is filled with
its rounded-down share and what still fits of the residual. -/
def applyShares (incoming : Order) (level : LevelSlot sizes)
    (levelFillQty : UInt32) (eligibleTotal : UInt64)
    (largest : OrderSlot sizes) :
    Nat → Option (OrderSlot sizes) → UInt32 → Sweep sizes →
    Except Fault (Sweep sizes)
  | 0, _, _, _ => .error .outOfFuel
  | _ + 1, none, _, sweep => .ok sweep
  | fuel + 1, some resting, residual, sweep => do
      let node ← sweep.book.orderPool.read resting
      let next := node.next
      if resting = largest ∨ OrderBook.isSelfTrade node.toOrder incoming then
        applyShares incoming level levelFillQty eligibleTotal largest fuel next
          residual sweep
      else
        let share := floorShare levelFillQty node.qty eligibleTotal
        let extra :=
          if 0 < residual then stdMin residual (node.qty - share) else 0
        let residual := residual - extra
        let totalShare := share + extra
        let sweep ←
          if 0 < totalShare then
            sweep.applyFill resting level totalShare incoming
          else
            pure sweep
        applyShares incoming level levelFillQty eligibleTotal largest fuel next
          residual sweep

/-- The committing part of `proRataAtLevel`: the first largest order gets the
residual up to its headroom, the others share the rest, and the largest order
is filled last. -/
def fillLevel (incoming : Order) (level : LevelSlot sizes)
    (fifoHead : Option (OrderSlot sizes)) (levelFillQty : UInt32)
    (eligibleTotal : UInt64) (largest : Option (OrderSlot sizes))
    (sweep : Sweep sizes) : Except Fault (Sweep sizes) := do
  let totalFloor ← sumFloors incoming levelFillQty eligibleTotal sweep.book
    (sizes.orders + 1) fifoHead 0
  let residual := levelFillQty - totalFloor
  match largest with
  | none => .error .nullPointer
  | some largest =>
      let node ← sweep.book.orderPool.read largest
      let largestFloorShare := floorShare levelFillQty node.qty eligibleTotal
      let largestHeadroom := node.qty - largestFloorShare
      let largestExtra := stdMin residual largestHeadroom
      let residual := residual - largestExtra
      let largestTotalShare := largestFloorShare + largestExtra
      let sweep ← applyShares incoming level levelFillQty eligibleTotal largest
        (sizes.orders + 1) fifoHead residual sweep
      if 0 < largestTotalShare then
        sweep.applyFill largest level largestTotalShare incoming
      else
        return sweep

/-- `pro_rata_at_level`, whose dry run ends after the first pass. -/
def proRataAtLevel (dryRun : Bool) (incoming : Order)
    (level : LevelSlot sizes) (sweep : Sweep sizes) :
    Except Fault (Sweep sizes) := do
  let record ← sweep.book.levelPool.read level
  let fifoHead := record.head
  let scan ← scanOrders dryRun incoming sweep.book (sizes.orders + 1) fifoHead
    { eligibleTotal := 0, largest := none, stats := sweep.stats }
  let sweep := { sweep with stats := scan.stats }
  if scan.eligibleTotal = 0 then
    return sweep
  else
    let levelFillQty :=
      (stdMin sweep.remaining.toUInt64 scan.eligibleTotal).toUInt32
    if dryRun then
      return { sweep with remaining := sweep.remaining - levelFillQty }
    else
      fillLevel incoming level fifoHead levelFillQty scan.eligibleTotal
        scan.largest sweep

/-- `pro_rata_sweep`: the levels in turn, each shared out in proportion. -/
def proRataSweep (dryRun : Bool) (incoming : Order) (sweep : Sweep sizes) :
    Except Fault (Sweep sizes) :=
  sweepLevels dryRun incoming (proRataAtLevel dryRun incoming)
    (sizes.levels + 1) (bestOpposite sweep.book incoming) sweep

end Sweep

namespace OrderBook

/-- The sweep of the mode that was loaded. -/
def sweepMode (book : OrderBook sizes) (mode : MatchingMode) (dryRun : Bool)
    (incoming : Order) : Except Fault (Sweep sizes) :=
  match mode with
  | .priceTime => Sweep.sweepPriceTime dryRun incoming (.start book incoming)
  | .proRata => Sweep.proRataSweep dryRun incoming (.start book incoming)

/-- What a price-time sweep could fill, by a dry run of it. -/
def availablePriceTime (book : OrderBook sizes) (incoming : Order) :
    Except Fault UInt32 := do
  let sweep ← Sweep.sweepPriceTime true incoming (.start book incoming)
  return incoming.qty - sweep.remaining

/-- What a pro-rata sweep could fill, by a dry run of it. -/
def availableProRata (book : OrderBook sizes) (incoming : Order) :
    Except Fault UInt32 := do
  let sweep ← Sweep.proRataSweep true incoming (.start book incoming)
  return incoming.qty - sweep.remaining

def available (book : OrderBook sizes) (mode : MatchingMode)
    (incoming : Order) : Except Fault UInt32 :=
  match mode with
  | .priceTime => book.availablePriceTime incoming
  | .proRata => book.availableProRata incoming

/-- Nothing done: the whole quantity is still unfilled. -/
def rejected (book : OrderBook sizes) (incoming : Order) :
    MatchResult sizes where
  book
  stats := { remainingQty := incoming.qty }
  emitted := []

/-- Whether the best opposite level crosses the order. -/
def wouldRestCrossed (book : OrderBook sizes) (incoming : Order) :
    Except Fault Bool :=
  match Sweep.bestOpposite book incoming with
  | none => .ok false
  | some level => do
      let record ← book.levelPool.read level
      return crosses record.price incoming

/-- The part of `match` that rests the remainder of a good-till-cancelled
order, unless it would cross the opposite side. -/
def restRemainder (book : OrderBook sizes) (incoming : Order)
    (remaining : UInt32) : Except Fault (OrderBook sizes) :=
  if incoming.tif = .gtc ∧ 0 < remaining then do
    let crossed ← book.wouldRestCrossed incoming
    if crossed then
      return book
    else
      let (_, book) ← book.addOrder { incoming with qty := remaining }
      return book
  else
    .ok book

/-- The committing part of `match`, after the checks. -/
def commitMatch (book : OrderBook sizes) (mode : MatchingMode)
    (incoming : Order) : Except Fault (MatchResult sizes) := do
  let sweep ← book.sweepMode mode false incoming
  let book ← sweep.book.restRemainder incoming sweep.remaining
  return {
    book
    stats := { sweep.stats with remainingQty := sweep.remaining }
    emitted := sweep.emitted }

/-- `Matcher::match`.  The mode is an atomic that another thread may store to
at any time: `load k` is what the `k`-th load of the call returns. -/
def matchOrder (book : OrderBook sizes) (load : Nat → MatchingMode)
    (incoming : Order) : Except Fault (MatchResult sizes) :=
  match book.findOrder incoming.orderId with
  | some _ => .ok (book.rejected incoming)
  | none =>
      let mode := load 0
      if incoming.tif = .fok then do
        let available ← book.available mode incoming
        if available < incoming.qty then
          return book.rejected incoming
        else
          book.commitMatch mode incoming
      else
        book.commitMatch mode incoming

/-- `Matcher::replace`. -/
def replace (book : OrderBook sizes) (load : Nat → MatchingMode)
    (orderId : UInt64) (newPrice : Int64) (newQty : UInt32) :
    Except Fault (MatchResult sizes) :=
  match book.findOrder orderId with
  | none => .ok { book, stats := {}, emitted := [] }
  | some slot => do
      let existing ← book.orderPool.read slot
      if newQty = 0 then
        let (_, book) ← book.cancelOrder orderId
        return { book, stats := {}, emitted := [] }
      else if newPrice = existing.price ∧ newQty ≤ existing.qty then
        let (_, book) ← book.replaceOrderInPlace orderId newQty
        return { book, stats := {}, emitted := [] }
      else
        let incoming : Order :=
          { orderId := existing.orderId
            price := newPrice
            qty := newQty
            side := existing.side
            tif := existing.tif
            eventTag := .newOrCancel
            timestampNs := existing.timestampNs
            clientId := existing.clientId
            clientTag := existing.clientTag }
        let (_, book) ← book.cancelOrder orderId
        book.matchOrder load incoming

end OrderBook

/-- The book with the matching mode of its matcher. -/
structure Matcher (sizes : PoolSizes) where
  book : OrderBook sizes
  mode : MatchingMode

namespace Matcher

def start (mode : MatchingMode) : Matcher sizes where
  book := .empty
  mode

/-- A store to the mode, seen by the next load. -/
def setMode (matcher : Matcher sizes) (mode : MatchingMode) : Matcher sizes :=
  { matcher with mode }

/-- Without a concurrent store every load returns the stored mode. -/
def load (matcher : Matcher sizes) : Nat → MatchingMode :=
  fun _ => matcher.mode

end Matcher

end Hydra
