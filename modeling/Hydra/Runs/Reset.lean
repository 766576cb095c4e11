import Hydra.Match.Counters
import Hydra.Runs.Messages

/-!
# Replays after a reset

Between two trials the benchmark resets the book and both of its pools.  What
is left of the first trial is where the exhaustion counters stand, and nothing
reads them:  a replay after a reset gets the same responses as one from the
constructed book.
-/

namespace Hydra

variable {sizes : PoolSizes}

namespace OrderBook

/-- The resets in front of a trial: of the book, the order pool and the level
pool. -/
def resetAll (book : OrderBook sizes) : OrderBook sizes :=
  { book.reset with
    orderPool := book.orderPool.reset
    levelPool := book.levelPool.reset }

/-- The resets make the book as it was constructed, but for its counters. -/
theorem resetAll_eq (book : OrderBook sizes) :
    book.resetAll = recount book.orderPool.exhaustionCount
      book.levelPool.exhaustionCount empty := by
  rw [resetAll, recount, ObjectPool.recount, ObjectPool.recount]
  change _ = { empty with
    orderPool := { ObjectPool.fresh with
      exhaustionCount := 0 + book.orderPool.exhaustionCount }
    levelPool := { ObjectPool.fresh with
      exhaustionCount := 0 + book.levelPool.exhaustionCount } }
  rw [UInt64.zero_add, UInt64.zero_add]
  rfl

/-- How often the pools ran out between two states of a book. -/
def exhaustions (before after : OrderBook sizes) : UInt64 × UInt64 :=
  (after.orderPool.exhaustionCount - before.orderPool.exhaustionCount,
    after.levelPool.exhaustionCount - before.levelPool.exhaustionCount)

theorem exhaustions_recount (orders levels : UInt64)
    (before after : OrderBook sizes) :
    exhaustions (before.recount orders levels) (after.recount orders levels) =
      exhaustions before after := by
  have distance : ∀ count other extra : UInt64,
      count + extra - (other + extra) = count - other := by
    intro count other extra
    grind
  exact congrArg₂ Prod.mk (distance _ _ _) (distance _ _ _)

theorem view_recount (orders levels : UInt64) (book : OrderBook sizes) :
    (book.recount orders levels).view = book.view := by
  apply Market.ext
  intro side
  cases side <;> rfl

end OrderBook

theorem MatchResult.response_recount (orders levels : UInt64)
    (result : MatchResult sizes) :
    (result.recount orders levels).response = result.response := by
  rw [response, response, recount, List.map_map]
  rfl

namespace Matcher

variable (orders levels : UInt64)

def recount (matcher : Matcher sizes) : Matcher sizes :=
  { matcher with book := matcher.book.recount orders levels }

/-- The matcher with its book and pools reset. -/
def resetAll (matcher : Matcher sizes) : Matcher sizes :=
  { matcher with book := matcher.book.resetAll }

theorem respond_recount (matcher : Matcher sizes) (message : Message) :
    Lockstep (Prod.map id (recount orders levels)) (matcher.respond message)
      ((matcher.recount orders levels).respond message) := by
  cases message with
  | new incoming =>
      apply (matcher.book.matchOrder_recount orders levels incoming
        matcher.load).bind
      intro result
      rw [result.response_recount]
      exact .ok (Prod.map id (recount orders levels))
        (result.response, { matcher with book := result.book })
  | cancel orderId =>
      apply (matcher.book.cancelOrder_recount orders levels orderId).bind
      intro cancelled
      exact .ok (Prod.map id (recount orders levels)) (_, _)
  | replace orderId newPrice newQty =>
      apply (matcher.book.replace_recount orders levels matcher.load orderId
        newPrice newQty).bind
      intro result
      rw [result.response_recount]
      exact .ok (Prod.map id (recount orders levels))
        (result.response, { matcher with book := result.book })
  | setMode mode => exact .ok _ _

theorem replay_recount (matcher : Matcher sizes) (messages : List Message) :
    Lockstep (Prod.map id (recount orders levels)) (matcher.replay messages)
      ((matcher.recount orders levels).replay messages) := by
  induction messages generalizing matcher with
  | nil => exact .ok (Prod.map id (recount orders levels)) ([], matcher)
  | cons message rest induction =>
      apply (matcher.respond_recount orders levels message).bind
      intro answer
      apply (induction answer.2).bind
      intro later
      exact .ok (Prod.map id (recount orders levels)) (_, _)

theorem resetAll_eq (matcher : Matcher sizes) :
    matcher.resetAll = recount matcher.book.orderPool.exhaustionCount
      matcher.book.levelPool.exhaustionCount (start matcher.mode) := by
  rw [resetAll, OrderBook.resetAll_eq]
  rfl

/-- After any messages and a reset, in any mode, further messages are answered
as by a constructed matcher, and lead to the same market and the same number of
exhaustions of both pools. -/
theorem replay_resetAll (sizes : PoolSizes) (mode other : MatchingMode)
    (first second : List Message) :
    ∃ firstResponses, ∃ used : Matcher sizes,
      (start mode).replay first = .ok (firstResponses, used) ∧
      ∃ responses, ∃ again fresh : Matcher sizes,
        (used.resetAll.setMode other).replay second =
          .ok (responses, again) ∧
        (start other).replay second = .ok (responses, fresh) ∧
        again.mode = fresh.mode ∧
        again.book.view = fresh.book.view ∧
        OrderBook.exhaustions used.resetAll.book again.book =
          OrderBook.exhaustions (start other : Matcher sizes).book
            fresh.book := by
  obtain ⟨used, firstRan, _⟩ := replay_spec (start_wellFormed mode) first
  obtain ⟨fresh, freshRan, _⟩ := replay_spec
    (@start_wellFormed sizes other) second
  refine ⟨_, used, firstRan, _, fresh.recount
    used.book.orderPool.exhaustionCount used.book.levelPool.exhaustionCount,
    fresh, ?_, freshRan, rfl, OrderBook.view_recount _ _ _, ?_⟩
  · have again : used.resetAll.setMode other =
        recount used.book.orderPool.exhaustionCount
          used.book.levelPool.exhaustionCount (start other) := by
      rw [resetAll_eq]
      rfl
    rw [again]
    exact (replay_recount _ _ _ second).run_ok freshRan
  · rw [resetAll_eq]
    exact OrderBook.exhaustions_recount _ _ _ _

end Matcher

end Hydra
