import Hydra.Book.Picture
import Hydra.Market.Slicing
import Hydra.Runs.Matching

/-!
# Slices of an order in a trading session

Two immediate-or-cancel orders in a row leave the logical book, fill the makers
and stay unfilled as one order of their total quantity.
-/

namespace Hydra

variable {sizes : PoolSizes}

namespace Matcher

variable {matcher : Matcher sizes} {whole first second : Order}

/-- Slicing an order does not change what it comes to in price-time mode. -/
theorem match_sliced (reachable : (trading sizes).Reachable matcher)
    (slices : Slices whole first second)
    (wholeFresh : matcher.book.findOrder whole.orderId = none)
    (firstFresh : matcher.book.findOrder first.orderId = none)
    (secondFresh : matcher.book.findOrder second.orderId = none) :
    ∃ once left right,
      matcher.book.matchOrder (fun _ => .priceTime) whole = .ok once ∧
      matcher.book.matchOrder (fun _ => .priceTime) first = .ok left ∧
      left.book.matchOrder (fun _ => .priceTime) second = .ok right ∧
      right.book.picture = once.book.picture ∧
      (∀ makerOrderId price,
        filledFrom ((left.emitted ++ right.emitted).map Emission.event)
            makerOrderId price =
          filledFrom (once.emitted.map Emission.event) makerOrderId price) ∧
      left.stats.remainingQty.toNat + right.stats.remainingQty.toNat =
        once.stats.remainingQty.toNat := by
  obtain ⟨layout, settled⟩ := trading_wellFormed reachable
  have sound := trading_sound reachable
  have wholeAbsent := absent_of_fresh reachable wholeFresh
  have firstAbsent := absent_of_fresh reachable firstFresh
  have secondAbsent := absent_of_fresh reachable secondFresh
  obtain ⟨wholeNow, firstNow, secondNow⟩ := slices.immediate
  obtain ⟨once, onceRan, onceShows⟩ :=
    OrderBook.matchOrder_spec (fun _ => .priceTime) whole settled
  obtain ⟨left, leftRan, leftShows⟩ :=
    OrderBook.matchOrder_spec (fun _ => .priceTime) first settled
  obtain ⟨leftLayout, leftSettled⟩ := leftShows.wellFormed
  obtain ⟨right, rightRan, rightShows⟩ :=
    OrderBook.matchOrder_spec (fun _ => .priceTime) second leftSettled
  obtain ⟨onceLayout, onceSettled⟩ := onceShows.wellFormed
  obtain ⟨rightLayout, rightSettled⟩ := rightShows.wellFormed
  obtain ⟨onceMarket, onceFills, onceLeft⟩ :=
    @Market.matchOrder_immediate sizes _ _ sound wholeAbsent wholeNow
  obtain ⟨leftMarket, leftFills, leftLeft⟩ :=
    @Market.matchOrder_immediate sizes _ _ sound firstAbsent firstNow
  have changed : matcher.book.view.Changed
      (matcher.book.view.swept .priceTime first) :=
    Market.swept_changed sound .priceTime
  obtain ⟨rightMarket, rightFills, rightLeft⟩ :=
    @Market.matchOrder_immediate sizes _ _ (sound.changed changed)
      (changed.find?_none sound.toValid secondAbsent) secondNow
  have leftView := leftShows.view.trans leftMarket
  rw [leftView] at rightShows
  refine ⟨once, left, right, onceRan, leftRan, rightRan, ?_, ?_, ?_⟩
  · rw [rightSettled.picture_eq, onceSettled.picture_eq, rightShows.view,
      rightMarket, onceShows.view, onceMarket, slices.swept_twice sound]
  · intro makerOrderId price
    rw [List.map_append, filledFrom_append, leftShows.fills, leftFills,
      rightShows.fills, rightFills, onceShows.fills, onceFills]
    exact slices.filledFrom_add sound makerOrderId price
  · rw [leftShows.stats, leftLeft, rightShows.stats, rightLeft,
      onceShows.stats, onceLeft]
    exact slices.unfilled_add sound

def slice (orderId : UInt64) (qty : UInt32) : Order :=
  { sessionOrder orderId 40 .buy qty with tif := .ioc }

/-- The first slice ends inside the first resting order of the session. -/
theorem match_sliced_session :
    ∃ once left right,
      session.book.matchOrder (fun _ => .priceTime) (slice 4 9) = .ok once ∧
      session.book.matchOrder (fun _ => .priceTime) (slice 5 2) = .ok left ∧
      left.book.matchOrder (fun _ => .priceTime) (slice 6 7) = .ok right ∧
      right.book.picture = once.book.picture ∧
      (∀ makerOrderId price,
        filledFrom ((left.emitted ++ right.emitted).map Emission.event)
            makerOrderId price =
          filledFrom (once.emitted.map Emission.event) makerOrderId price) ∧
      left.stats.remainingQty.toNat + right.stats.remainingQty.toNat =
        once.stats.remainingQty.toNat :=
  match_sliced session_reachable
    ⟨⟨rfl, rfl, rfl⟩, ⟨rfl, rfl⟩, ⟨rfl, rfl⟩, ⟨rfl, rfl⟩, rfl⟩ rfl rfl rfl

end Matcher

end Hydra
