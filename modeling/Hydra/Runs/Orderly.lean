import Hydra.Match.Orderly
import Hydra.Runs.Calls

/-!
# No released slot

On every book that calls can reach, crossed ones included, cancelling, matching
and replacing return without a fault: they never read or write a released slot
or a null pointer, and none of their loops runs out of fuel.  Each sweep that
they start is orderly.
-/

namespace Hydra

variable {sizes : PoolSizes}

namespace Matcher

variable {matcher : Matcher sizes}

/-- The calls never touch a released slot, and every loop of their sweeps, the
dry ones included, is orderly.  What a replacement matches, it matches against
the book without the old order. -/
theorem no_released_slot (reachable : (calls sizes).Reachable matcher) :
    (∀ orderId, ∃ result, matcher.book.cancelOrder orderId = .ok result) ∧
    (∀ load incoming,
      (∃ result, matcher.book.matchOrder load incoming = .ok result) ∧
      ∀ dryRun, matcher.book.SweepsOrderly (load 0) dryRun incoming) ∧
    ∀ load orderId newPrice newQty,
      (∃ result,
        matcher.book.replace load orderId newPrice newQty = .ok result) ∧
      ∃ found cancelled,
        matcher.book.cancelOrder orderId = .ok (found, cancelled) ∧
        ∀ dryRun incoming,
          cancelled.SweepsOrderly (load 0) dryRun incoming := by
  obtain ⟨layout, settled⟩ := reachable_wellFormed reachable
  refine ⟨?_, ?_, ?_⟩
  · intro orderId
    obtain ⟨cancelled, ran, _⟩ := OrderBook.cancelOrder_spec settled orderId
    exact ⟨_, ran⟩
  · intro load incoming
    obtain ⟨result, ran, _⟩ := OrderBook.matchOrder_spec load incoming settled
    refine ⟨⟨result, ran⟩, ?_⟩
    intro dryRun
    exact OrderBook.sweeps_orderly ⟨layout, settled⟩ (load 0) dryRun incoming
  · intro load orderId newPrice newQty
    obtain ⟨result, ran, _⟩ :=
      OrderBook.replace_spec load orderId newPrice newQty settled
    obtain ⟨cancelled, cancelRan, wellFormed, _⟩ :=
      OrderBook.cancelOrder_spec settled orderId
    exact ⟨⟨result, ran⟩, _, cancelled, cancelRan,
      OrderBook.sweeps_orderly wellFormed (load 0)⟩

/-- The orders of the book cross; matching was never called on it. -/
theorem no_released_slot_crossed :
    (∀ orderId, ∃ result, crossed.book.cancelOrder orderId = .ok result) ∧
    (∀ load incoming,
      (∃ result, crossed.book.matchOrder load incoming = .ok result) ∧
      ∀ dryRun, crossed.book.SweepsOrderly (load 0) dryRun incoming) ∧
    ∀ load orderId newPrice newQty,
      (∃ result,
        crossed.book.replace load orderId newPrice newQty = .ok result) ∧
      ∃ found cancelled,
        crossed.book.cancelOrder orderId = .ok (found, cancelled) ∧
        ∀ dryRun incoming,
          cancelled.SweepsOrderly (load 0) dryRun incoming :=
  no_released_slot crossed_reachable

end Matcher

end Hydra
