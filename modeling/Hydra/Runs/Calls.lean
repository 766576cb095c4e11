import Hydra.Library.Machine
import Hydra.Market.Trading
import Hydra.Match.Refinement

/-!
# Runs of calls

The machine of all calls on a matcher and its book, and the same calls on an
abstract venue: a market with a matching mode.  Every call of the concrete
machine answers, and its answer is that of the venue, so that a run of the
matcher is a run of the venue.
-/

namespace Hydra

open Allocation

variable {sizes : PoolSizes}

/-- A call on a matcher or directly on its book. -/
inductive Call where
  | addOrder (incoming : Order)
  | cancelOrder (orderId : UInt64)
  | replaceOrderInPlace (orderId : UInt64) (newQty : UInt32)
  | matchOrder (incoming : Order)
  | replace (orderId : UInt64) (newPrice : Int64) (newQty : UInt32)
  | setMode (mode : MatchingMode)

/-- The calls of a trading session; orders come to rest only by matching. -/
def Call.Trades : Call → Prop
  | addOrder _ => False
  | replaceOrderInPlace _ _ => False
  | _ => True

namespace Matcher

/-- The matcher after a call, with the fills that were reported in it. -/
def apply (matcher : Matcher sizes) :
    Call → Except Fault (Matcher sizes × List (Emission sizes))
  | .addOrder incoming => do
      let (_, book) ← matcher.book.addOrder incoming
      return ({ matcher with book }, [])
  | .cancelOrder orderId => do
      let (_, book) ← matcher.book.cancelOrder orderId
      return ({ matcher with book }, [])
  | .replaceOrderInPlace orderId newQty => do
      let (_, book) ← matcher.book.replaceOrderInPlace orderId newQty
      return ({ matcher with book }, [])
  | .matchOrder incoming => do
      let result ← matcher.book.matchOrder matcher.load incoming
      return ({ matcher with book := result.book }, result.emitted)
  | .replace orderId newPrice newQty => do
      let result ← matcher.book.replace matcher.load orderId newPrice newQty
      return ({ matcher with book := result.book }, result.emitted)
  | .setMode mode => .ok (matcher.setMode mode, [])

/-- What the callers of `replaceOrderInPlace` guarantee: the new quantity of a
resting order is not larger than its old one. -/
def Admits (matcher : Matcher sizes) : Call → Prop
  | .replaceOrderInPlace orderId newQty =>
      ∀ slot, matcher.book.findOrder orderId = some slot →
        newQty ≤ (matcher.book.payload slot).qty
  | _ => True

/-- All runs of admitted calls from an empty book. -/
def calls (sizes : PoolSizes) :
    Machine (Matcher sizes) (Call × List (Emission sizes)) where
  initial matcher := ∃ mode, matcher = .start mode
  step matcher label next :=
    matcher.Admits label.1 ∧ matcher.apply label.1 = .ok (next, label.2)

/-- All runs in which orders are matched, cancelled and replaced. -/
def trading (sizes : PoolSizes) :
    Machine (Matcher sizes) (Call × List (Emission sizes)) :=
  (calls sizes).restrict fun label => label.1.Trades

end Matcher

/-- A market and the mode in which it matches. -/
structure Venue where
  market : Market
  mode : MatchingMode

namespace Venue

/-- The result of matching in the call. -/
def outcome (sizes : PoolSizes) (venue : Venue) : Call → Outcome
  | .addOrder incoming =>
      { market := venue.market.add sizes incoming, fills := [], stats := {} }
  | .cancelOrder orderId =>
      { market := venue.market.cancel orderId, fills := [], stats := {} }
  | .replaceOrderInPlace orderId newQty =>
      { market := venue.market.setQty orderId newQty, fills := [], stats := {} }
  | .matchOrder incoming => venue.market.matchOrder sizes venue.mode incoming
  | .replace orderId newPrice newQty =>
      venue.market.replace sizes venue.mode orderId newPrice newQty
  | .setMode _ => { market := venue.market, fills := [], stats := {} }

def modeAfter (venue : Venue) : Call → MatchingMode
  | .setMode mode => mode
  | _ => venue.mode

def after (sizes : PoolSizes) (venue : Venue) (call : Call) : Venue where
  market := (venue.outcome sizes call).market
  mode := venue.modeAfter call

/-- The order that the call matches. -/
def taker? (venue : Venue) : Call → Option Order
  | .matchOrder incoming => some incoming
  | .replace orderId newPrice newQty =>
      (venue.market.find? orderId).map fun existing =>
        Market.reentry existing newPrice newQty
  | _ => none

def trading (sizes : PoolSizes) : Machine Venue Call where
  initial venue := venue.market = .empty
  step venue call next := call.Trades ∧ next = venue.after sizes call

theorem after_sound {venue : Venue} (sound : venue.market.Sound) {call : Call}
    (trades : call.Trades) : (venue.after sizes call).market.Sound := by
  cases call with
  | addOrder incoming => cases trades
  | cancelOrder orderId =>
      exact sound.changed (Market.changed_cancel venue.market orderId)
  | replaceOrderInPlace orderId newQty => cases trades
  | matchOrder incoming => exact sound.matchOrder venue.mode incoming
  | replace orderId newPrice newQty =>
      exact sound.replace venue.mode orderId newPrice newQty
  | setMode mode => exact sound

/-- Trading keeps every market sound. -/
theorem trading_sound {venue : Venue}
    (reachable : (trading sizes).Reachable venue) : venue.market.Sound := by
  apply reachable.invariant fun venue => venue.market.Sound
  · intro start empty
    rw [empty]
    exact Market.empty_sound
  · intro before call next sound step
    rw [step.2]
    exact after_sound sound step.1

end Venue

namespace Matcher

variable {matcher next : Matcher sizes} {layout : Layout sizes} {call : Call}

def venue (matcher : Matcher sizes) : Venue where
  market := matcher.book.view
  mode := matcher.mode

/-- A call left the matcher in a state that shows the venue after the call,
and reported the fills of the venue, each of them legal. -/
structure Answers (matcher : Matcher sizes) (call : Call)
    (next : Matcher sizes) (emitted : List (Emission sizes)) : Prop where
  wellFormed : next.book.WellFormed
  venue : next.venue = matcher.venue.after sizes call
  fills : emitted.map Emission.event = (matcher.venue.outcome sizes call).fills
  legal : ∀ emission ∈ emitted, ∃ taker,
    matcher.venue.taker? call = some taker ∧
    emission.Legal taker (Sweep.withinLimit taker)

/-- Every admitted call returns, with the answer of the venue. -/
theorem apply_spec (settled : matcher.book.Settled layout)
    (admitted : matcher.Admits call) :
    ∃ next emitted, matcher.apply call = .ok (next, emitted) ∧
      matcher.Answers call next emitted := by
  cases call with
  | addOrder incoming =>
      obtain ⟨_, book, run, _, wellFormed, viewEq⟩ :=
        OrderBook.addOrder_spec settled incoming
      refine ⟨{ matcher with book }, [], ?_, wellFormed, ?_, rfl, by simp⟩
      · rw [apply, run]
        rfl
      · rw [venue, viewEq]
        rfl
  | cancelOrder orderId =>
      obtain ⟨book, run, wellFormed, viewEq⟩ :=
        OrderBook.cancelOrder_spec settled orderId
      refine ⟨{ matcher with book }, [], ?_, wellFormed, ?_, rfl, by simp⟩
      · rw [apply, run]
        rfl
      · rw [venue, viewEq]
        rfl
  | replaceOrderInPlace orderId newQty =>
      have shrinks : ∀ order, matcher.book.view.find? orderId = some order →
          newQty.toNat ≤ order.qty.toNat := by
        intro order found
        rw [settled.find?_view] at found
        obtain ⟨slot, present, rfl⟩ := Option.map_eq_some_iff.mp found
        exact UInt32.le_iff_toNat_le.mp (admitted slot present)
      obtain ⟨book, run, wellFormed, viewEq⟩ :=
        OrderBook.replaceOrderInPlace_spec settled orderId shrinks
      refine ⟨{ matcher with book }, [], ?_, wellFormed, ?_, rfl, by simp⟩
      · rw [apply, run]
        rfl
      · rw [venue, viewEq]
        rfl
  | matchOrder incoming =>
      obtain ⟨result, run, showing⟩ :=
        OrderBook.matchOrder_spec matcher.load incoming settled
      refine ⟨{ matcher with book := result.book }, result.emitted, ?_,
        showing.wellFormed, ?_, showing.fills, ?_⟩
      · rw [apply, run]
        rfl
      · rw [venue, showing.view]
        rfl
      · intro emission member
        exact ⟨incoming, rfl, showing.legal emission member⟩
  | replace orderId newPrice newQty =>
      obtain ⟨result, run, wellFormed, viewEq, fillsEq, _, legal⟩ :=
        OrderBook.replace_spec matcher.load orderId newPrice newQty settled
      refine ⟨{ matcher with book := result.book }, result.emitted, ?_,
        wellFormed, ?_, fillsEq, ?_⟩
      · rw [apply, run]
        rfl
      · rw [venue, viewEq]
        rfl
      · intro emission member
        obtain ⟨existing, found, emissionLegal⟩ := legal emission member
        refine ⟨Market.reentry existing newPrice newQty, ?_, emissionLegal⟩
        change (matcher.book.view.find? orderId).map _ = _
        rw [found]
        rfl
  | setMode mode =>
      exact ⟨matcher.setMode mode, [], rfl, ⟨layout, settled⟩, rfl, rfl,
        by simp⟩

/-- What a step of the machine does. -/
theorem step_answers {label : Call × List (Emission sizes)}
    (wellFormed : matcher.book.WellFormed)
    (step : (calls sizes).step matcher label next) :
    matcher.Answers label.1 next label.2 := by
  obtain ⟨layout, settled⟩ := wellFormed
  obtain ⟨admitted, run⟩ := step
  obtain ⟨other, emitted, otherRun, answers⟩ := apply_spec settled admitted
  rw [run] at otherRun
  obtain ⟨rfl, rfl⟩ := Prod.mk.inj (Except.ok.inj otherRun)
  exact answers

theorem reachable_wellFormed (reachable : (calls sizes).Reachable matcher) :
    matcher.book.WellFormed := by
  apply reachable.invariant fun matcher => matcher.book.WellFormed
  · intro start initial
    obtain ⟨mode, rfl⟩ := initial
    exact ⟨_, OrderBook.empty_settled⟩
  · intro before label after wellFormed step
    exact (step_answers wellFormed step).wellFormed

theorem trading_wellFormed (reachable : (trading sizes).Reachable matcher) :
    matcher.book.WellFormed :=
  reachable_wellFormed reachable.of_restrict

theorem trading_venue (reachable : (trading sizes).Reachable matcher) :
    (Venue.trading sizes).Reachable matcher.venue := by
  apply Machine.Reachable.map venue _ _ reachable
  · intro start initial
    obtain ⟨mode, rfl⟩ := initial
    exact OrderBook.view_empty
  · intro before label after earlier venueReachable step
    have answers := step_answers (trading_wellFormed earlier) step.2
    exact .step venueReachable ⟨step.1, answers.venue⟩

theorem trading_sound (reachable : (trading sizes).Reachable matcher) :
    matcher.book.view.Sound :=
  Venue.trading_sound (trading_venue reachable)

/-- The matcher after a list of calls. -/
def run (matcher : Matcher sizes) (calls : List Call) :
    Except Fault (Matcher sizes) :=
  calls.foldlM (fun matcher call => (matcher.apply call).map Prod.fst) matcher

theorem admits_of_trades (matcher : Matcher sizes) {call : Call}
    (trades : call.Trades) : matcher.Admits call := by
  cases call with
  | replaceOrderInPlace orderId newQty => cases trades
  | _ => trivial

/-- A list of calls that need no guarantee of the caller runs to its end. -/
theorem run_restrict {allowed : Call → Prop} {calls : List Call}
    (admitted : ∀ call ∈ calls,
      allowed call ∧ ∀ matcher : Matcher sizes, matcher.Admits call)
    (reachable : ((Matcher.calls sizes).restrict fun label =>
      allowed label.1).Reachable matcher) :
    ∃ next, matcher.run calls = .ok next ∧
      ((Matcher.calls sizes).restrict fun label =>
        allowed label.1).Reachable next := by
  induction calls generalizing matcher with
  | nil => exact ⟨matcher, rfl, reachable⟩
  | cons call rest induction =>
      obtain ⟨callAllowed, always⟩ := admitted call List.mem_cons_self
      obtain ⟨layout, settled⟩ := reachable_wellFormed reachable.of_restrict
      obtain ⟨next, emitted, applied, _⟩ := apply_spec settled (always matcher)
      have step : ((Matcher.calls sizes).restrict fun label =>
          allowed label.1).step matcher (call, emitted) next :=
        ⟨callAllowed, always matcher, applied⟩
      obtain ⟨last, ran, lastReachable⟩ := induction
        (fun other member => admitted other (List.mem_cons_of_mem _ member))
        (.step reachable step)
      refine ⟨last, ?_, lastReachable⟩
      rw [run, List.foldlM_cons, applied]
      exact ran

/-- A list of trading calls runs to its end. -/
theorem run_spec {calls : List Call} (trades : ∀ call ∈ calls, call.Trades)
    (reachable : (trading sizes).Reachable matcher) :
    ∃ next, matcher.run calls = .ok next ∧ (trading sizes).Reachable next := by
  apply run_restrict _ reachable
  intro call member
  have callTrades := trades call member
  exact ⟨callTrades, fun matcher => matcher.admits_of_trades callTrades⟩

/-- The venue follows the calls. -/
theorem run_venue {calls : List Call} {next : Matcher sizes}
    (trades : ∀ call ∈ calls, call.Trades)
    (reachable : (trading sizes).Reachable matcher)
    (ran : matcher.run calls = .ok next) :
    next.venue = calls.foldl (Venue.after sizes) matcher.venue := by
  induction calls generalizing matcher with
  | nil =>
      cases ran
      rfl
  | cons call rest induction =>
      have callTrades := trades call List.mem_cons_self
      have admitted := matcher.admits_of_trades callTrades
      obtain ⟨layout, settled⟩ := trading_wellFormed reachable
      obtain ⟨middle, emitted, applied, answers⟩ := apply_spec settled admitted
      have step : (trading sizes).step matcher (call, emitted) middle :=
        ⟨callTrades, admitted, applied⟩
      rw [run, List.foldlM_cons, applied] at ran
      rw [List.foldl_cons, ← answers.venue]
      exact induction
        (fun other member => trades other (List.mem_cons_of_mem _ member))
        (.step reachable step) ran

/-- The pools of a small session: two orders rest at one price, and a third one
has taken a part of the first. -/
def sessionSizes : PoolSizes where
  orders := 3
  levels := 2
  orders_pos := by decide
  levels_pos := by decide
  orders_lt := by decide

def sessionOrder (orderId clientId : UInt64) (side : Side) (qty : UInt32) :
    Order :=
  { (default : Order) with orderId, clientId, side, qty, price := 100 }

def sessionCalls : List Call :=
  [.matchOrder (sessionOrder 1 10 .sell 5),
    .matchOrder (sessionOrder 2 20 .sell 4),
    .matchOrder (sessionOrder 3 30 .buy 2)]

def session : Matcher sessionSizes :=
  match (start .priceTime).run sessionCalls with
  | .ok matcher => matcher
  | .error _ => start .priceTime

/-- The level of the two resting orders. -/
def sessionLevel : LevelSlot sessionSizes := ⟨0, sessionSizes.levels_pos⟩

theorem session_reachable : (trading sessionSizes).Reachable session := by
  have start : (trading sessionSizes).Reachable (start .priceTime) :=
    .initial ⟨.priceTime, rfl⟩
  have trades : ∀ call ∈ sessionCalls, call.Trades := by
    simp [sessionCalls, Call.Trades]
  obtain ⟨next, ran, reachable⟩ := run_spec trades start
  have same : session = next := by
    rw [session, ran]
  rw [same]
  exact reachable

/-- Two orders that cross, added without matching; they take both levels. -/
def crossedCalls : List Call :=
  [.addOrder (sessionOrder 1 10 .sell 5),
    .addOrder { sessionOrder 2 20 .buy 4 with price := 101 }]

def crossed : Matcher sessionSizes :=
  match (start .priceTime).run crossedCalls with
  | .ok matcher => matcher
  | .error _ => start .priceTime

theorem crossed_reachable : (calls sessionSizes).Reachable crossed := by
  have start : ((calls sessionSizes).restrict fun _ => True).Reachable
      (start .priceTime) := .initial ⟨.priceTime, rfl⟩
  have admitted : ∀ call ∈ crossedCalls,
      True ∧ ∀ matcher : Matcher sessionSizes, matcher.Admits call := by
    simp [crossedCalls, Admits]
  obtain ⟨next, ran, reachable⟩ := run_restrict admitted start
  have same : crossed = next := by
    rw [crossed, ran]
  rw [same]
  exact reachable.of_restrict

end Matcher

end Hydra
