import Hydra.Book.Undo
import Hydra.Runs.Calls

/-!
# Insertions that fail

In every state that calls lead to, an insertion fails for one of three reasons,
and then nothing but an exhaustion counter has changed.
-/

namespace Hydra

namespace Matcher

variable {sizes : PoolSizes} {matcher : Matcher sizes}

theorem addOrder_accepted {book : OrderBook sizes} {layout : Layout sizes}
    (settled : book.Settled layout) {incoming : Order}
    (accepted : ¬ book.Refuses incoming) :
    ∃ slot next, book.addOrder incoming = .ok (some slot, next) ∧
      next.WellFormed ∧ next.view = book.view.insert incoming := by
  rw [OrderBook.refuses_iff settled, not_not] at accepted
  obtain ⟨added, next, run, isAdded, wellFormed, viewEq⟩ :=
    OrderBook.addOrder_spec settled incoming
  rw [decide_eq_true accepted] at isAdded
  obtain ⟨slot, rfl⟩ := Option.isSome_iff_exists.mp isAdded
  rw [Market.add, if_pos accepted] at viewEq
  exact ⟨slot, next, run, wellFormed, viewEq⟩

/-- When an insertion fails, and what it leaves behind then: the book that it
found, but for a counter, so that an order at a listed price can still be
added as long as an order slot is free. -/
theorem addOrder_atomic (reachable : (calls sizes).Reachable matcher)
    (incoming : Order) :
    ∃ added next, matcher.book.addOrder incoming = .ok (added, next) ∧
      (added = none ↔ matcher.book.Refuses incoming) ∧
      (added = none → next = matcher.book.countRefusal incoming ∧
        ∀ later : Order, next.findOrder later.orderId = none →
          (next.priceMap later.side).find? later.price ≠ none →
          next.orderPool.freeSlots ≠ [] →
          ∃ slot after, next.addOrder later = .ok (some slot, after)) := by
  obtain ⟨layout, settled⟩ := reachable_wellFormed reachable
  by_cases refuses : matcher.book.Refuses incoming
  · have refused := OrderBook.addOrder_refused settled refuses
    refine ⟨none, _, refused, iff_of_true rfl refuses, ?_⟩
    intro _
    refine ⟨rfl, ?_⟩
    intro later absent listed free
    obtain ⟨_, next, run, _, ⟨nextLayout, nextSettled⟩, _⟩ :=
      OrderBook.addOrder_spec settled incoming
    rw [refused] at run
    obtain ⟨_, rfl⟩ := Prod.mk.inj (Except.ok.inj run)
    have accepted : ¬ (matcher.book.countRefusal incoming).Refuses later := by
      simp [OrderBook.Refuses, absent, listed, free]
    obtain ⟨slot, after, added, _⟩ := addOrder_accepted nextSettled accepted
    exact ⟨slot, after, added⟩
  · obtain ⟨slot, next, added, _⟩ := addOrder_accepted settled refuses
    refine ⟨some slot, next, added, ?_, ?_⟩
    · simp [refuses]
    · simp

/-- Both levels are taken: the order slot is given back, and an order at a
listed price can still be added. -/
theorem addOrder_atomic_crossed : ∃ next,
    crossed.book.addOrder { sessionOrder 3 30 .sell 7 with price := 102 } =
      .ok (none, next) ∧
    next.levelPool.exhaustionCount = 1 ∧
    ∃ slot after,
      next.addOrder (sessionOrder 3 30 .sell 7) = .ok (some slot, after) := by
  obtain ⟨added, next, run, refused, undone⟩ := addOrder_atomic
    crossed_reachable { sessionOrder 3 30 .sell 7 with price := 102 }
  have isNone : added = none := refused.mpr
    (.inr (.inr ⟨by decide +kernel, by decide +kernel⟩))
  obtain ⟨rfl, later⟩ := undone isNone
  rw [isNone] at run
  refine ⟨_, run, by decide +kernel, ?_⟩
  exact later _ (by decide +kernel) (by decide +kernel) (by decide +kernel)

end Matcher

end Hydra
