import Hydra.Match.Visits
import Hydra.Runs.Calls

/-!
# The statistics of a match in a trading session

On every book that a session can reach, the counters that `matchOrder` returns
are those of its committing sweep: of the levels it came to, of the orders
there and of the fills it reported.  A refused order is not counted, and the
availability pass of an order that must be filled at once leaves no trace.
-/

namespace Hydra

variable {sizes : PoolSizes}

namespace OrderBook

variable {book : OrderBook sizes} {layout : Layout sizes}

/-- The order is carried out: no order with its id rests, and if it must be
filled at once, enough is available. -/
def Commits (book : OrderBook sizes) (mode : MatchingMode)
    (incoming : Order) : Prop :=
  book.findOrder incoming.orderId = none ∧
    (incoming.tif = .fok → ∃ available,
      book.available mode incoming = .ok available ∧ incoming.qty ≤ available)

theorem commits_iff (mode : MatchingMode) (incoming : Order)
    (settled : book.Settled layout) :
    book.Commits mode incoming ↔ ¬ book.view.Rejects mode incoming := by
  have found := settled.find?_view incoming.orderId
  obtain ⟨available, ran, availableEq⟩ := available_spec mode incoming settled
  have enough : (∃ other, book.available mode incoming = .ok other ∧
      incoming.qty ≤ other) ↔ incoming.size ≤ book.filledQty mode incoming := by
    rw [ran, ← availableEq, Order.size, ← UInt32.le_iff_toNat_le]
    simp
  rw [Commits, Market.Rejects, enough, found, not_or, not_and, Nat.not_lt]
  simp [filledQty]

end OrderBook

/-- The statistics of a result are those of a sweep over `levels`, which came
to the orders `visited` there. -/
structure MatchResult.Faithful (result : MatchResult sizes)
    (book : OrderBook sizes) (mode : MatchingMode) (incoming : Order)
    (levels : List (LevelSlot sizes)) (visited : List Order) : Prop where
  counts : result.stats.Count mode incoming levels.length visited
    result.emitted.length
  levels_once : levels.Nodup
  crossing : ∀ level ∈ levels, ∃ price,
    book.Listed incoming.side.opposite price level ∧
      crosses price incoming = true
  orders_once : (visited.map Order.orderId).Nodup
  conserved : result.stats.remainingQty.toNat +
    (result.emitted.map fun emission => emission.event.qty.toNat).sum =
      incoming.qty.toNat

namespace Matcher

variable {matcher : Matcher sizes}

/-- The counters of a match are exact, whether the order is carried out or
refused; one that is filled at once counts as one that trades immediately. -/
theorem match_stats (reachable : (trading sizes).Reachable matcher)
    (load : Nat → MatchingMode) (incoming : Order) :
    ∃ result, matcher.book.matchOrder load incoming = .ok result ∧
      (matcher.book.Commits (load 0) incoming →
        result.Faithful matcher.book (load 0) incoming
          (matcher.book.visitedLevels (load 0) incoming)
          (matcher.book.visited (load 0) incoming)) ∧
      (¬ matcher.book.Commits (load 0) incoming →
        result.Faithful matcher.book (load 0) incoming [] []) ∧
      (incoming.tif = .fok → matcher.book.Commits (load 0) incoming →
        ∃ other, matcher.book.matchOrder load { incoming with tif := .ioc } =
            .ok other ∧
          other.stats = result.stats) := by
  obtain ⟨layout, settled⟩ := trading_wellFormed reachable
  have sound := trading_sound reachable
  have commits := OrderBook.commits_iff (load 0) incoming settled
  obtain ⟨result, ran, showing⟩ :=
    OrderBook.matchOrder_spec load incoming settled
  have conserved : result.stats.remainingQty.toNat +
      (result.emitted.map fun emission => emission.event.qty.toNat).sum =
        incoming.qty.toNat := by
    have sums := @Market.matchOrder_conserved sizes _ (load 0) sound incoming
    dsimp only at sums
    rw [← showing.stats, ← showing.fills, List.map_map] at sums
    exact sums
  have emittedLength := congrArg List.length showing.fills
  rw [List.length_map] at emittedLength
  refine ⟨result, ran, ?_, ?_, ?_⟩
  · intro committed
    have few : matcher.book.view.orderCount < 2 ^ 32 :=
      Nat.lt_of_le_of_lt settled.orderCount_le sizes.orders_lt
    have outcome : matcher.book.view.matchOrder sizes (load 0) incoming =
        matcher.book.view.commitMatch sizes (load 0) incoming :=
      if_neg (commits.mp committed)
    refine ⟨?_, OrderBook.visitedLevels_nodup _ _ settled, ?_, ?_, conserved⟩
    · rw [showing.stats, emittedLength, outcome,
        OrderBook.visited_eq _ _ settled,
        OrderBook.visitedLevels_length _ _ settled]
      exact Market.commitMatch_counts sound.toValid few (load 0) incoming
    · intro level member
      exact OrderBook.visitedLevels_cross _ _ settled member
    · rw [OrderBook.visited_eq _ _ settled]
      exact Market.visited_ids_nodup sound.toValid
  · intro refused
    have outcome : matcher.book.view.matchOrder sizes (load 0) incoming =
        matcher.book.view.reject incoming :=
      if_pos (not_not.mp fun accepted => refused (commits.mpr accepted))
    refine ⟨?_, List.nodup_nil, by simp, List.nodup_nil, conserved⟩
    rw [showing.stats, emittedLength, outcome]
    exact Market.reject_counts (load 0) incoming
  · intro _ committed
    obtain ⟨other, otherRan, otherShows⟩ :=
      OrderBook.matchOrder_spec load { incoming with tif := .ioc } settled
    have accepted := commits.mp committed
    have otherAccepted : ¬ matcher.book.view.Rejects (load 0)
        { incoming with tif := .ioc } := by
      rintro (resting | short)
      · exact accepted (.inl resting)
      · cases short.1
    refine ⟨other, otherRan, ?_⟩
    rw [otherShows.stats, showing.stats, Market.matchOrder,
      if_neg otherAccepted, Market.matchOrder, if_neg accepted]
    exact Market.commitMatch_tif (load 0) incoming .ioc

/-- An order that is filled at once comes to both orders of the session. -/
theorem match_stats_session :
    let incoming : Order := { sessionOrder 4 40 .buy 5 with tif := .fok }
    ∃ result, session.book.matchOrder (fun _ => .proRata) incoming =
        .ok result ∧
      (session.book.Commits .proRata incoming →
        result.Faithful session.book .proRata incoming
          (session.book.visitedLevels .proRata incoming)
          (session.book.visited .proRata incoming)) ∧
      (¬ session.book.Commits .proRata incoming →
        result.Faithful session.book .proRata incoming [] []) ∧
      (incoming.tif = .fok → session.book.Commits .proRata incoming →
        ∃ other, session.book.matchOrder (fun _ => .proRata)
            { incoming with tif := .ioc } = .ok other ∧
          other.stats = result.stats) :=
  match_stats session_reachable (fun _ => .proRata) _

/-- A price-time sweep stops where it is filled; a pro-rata one comes to the
whole level. -/
example :
    (session.book.visited .priceTime (sessionOrder 4 40 .buy 2)).map
        Order.orderId = [1] ∧
      (session.book.visited .proRata (sessionOrder 4 40 .buy 2)).map
        Order.orderId = [1, 2] := by
  decide

end Matcher

end Hydra
