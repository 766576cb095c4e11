import Hydra.Market.Modes
import Hydra.Match.Sharing
import Hydra.Runs.Representation

/-!
# Matching in a trading session

What `matchOrder` does to any book that a session can reach, for an order whose
id does not rest: its fills account for the whole change of the book, in
price-time mode they are the greedy allocation over the orders that can trade,
in pro-rata mode every level shares out its part, and an order that must be
filled at once is filled at once or not at all.
-/

namespace Hydra

open Allocation

variable {sizes : PoolSizes}

/-- The outcome that a result shows. -/
def MatchResult.outcome (result : MatchResult sizes) : Outcome where
  market := result.book.view
  fills := result.emitted.map Emission.event
  stats := result.stats

theorem MatchResult.Shows.outcome_eq {incoming : Order}
    {result : MatchResult sizes} {outcome : Outcome}
    (showing : result.Shows incoming outcome) : result.outcome = outcome := by
  rw [MatchResult.outcome, showing.view, showing.fills, showing.stats]

namespace Matcher

variable {matcher : Matcher sizes} {incoming : Order}

/-- A session finds the resting orders of its view in the index. -/
theorem absent_of_fresh (reachable : (trading sizes).Reachable matcher)
    (fresh : matcher.book.findOrder incoming.orderId = none) :
    matcher.book.view.find? incoming.orderId = none := by
  obtain ⟨layout, settled⟩ := trading_wellFormed reachable
  rw [settled.find?_view, fresh]
  rfl

/-- The fills of a match are a complete ledger of it. -/
theorem match_ledger (mode : MatchingMode)
    (reachable : (trading sizes).Reachable matcher)
    (fresh : matcher.book.findOrder incoming.orderId = none) :
    ∃ result, matcher.book.matchOrder (fun _ => mode) incoming = .ok result ∧
      result.outcome.Balances sizes matcher.book.view incoming ∧
      result.book.Consistent ∧
      ∀ orderId, result.book.view.find? orderId =
        (result.book.findOrder orderId).map result.book.payload := by
  obtain ⟨layout, settled⟩ := trading_wellFormed reachable
  obtain ⟨result, ran, showing⟩ :=
    OrderBook.matchOrder_spec (fun _ => mode) incoming settled
  obtain ⟨nextLayout, nextSettled⟩ := showing.wellFormed
  refine ⟨result, ran, ?_, nextSettled.consistent, nextSettled.find?_view⟩
  rw [showing.outcome_eq]
  exact Market.matchOrder_balances mode (trading_sound reachable)
    (absent_of_fresh reachable fresh)

theorem match_ledger_session :
    ∃ result, session.book.matchOrder (fun _ => .proRata)
        (sessionOrder 4 40 .buy 5) = .ok result ∧
      result.outcome.Balances sessionSizes session.book.view
        (sessionOrder 4 40 .buy 5) ∧
      result.book.Consistent ∧
      ∀ orderId, result.book.view.find? orderId =
        (result.book.findOrder orderId).map result.book.payload :=
  match_ledger .proRata session_reachable rfl

/-- In price-time mode the fills are the greedy allocation over the orders
that can trade. -/
theorem match_greedy (reachable : (trading sizes).Reachable matcher)
    (fresh : matcher.book.findOrder incoming.orderId = none)
    (accepted : ¬ (incoming.tif = .fok ∧
      demand Order.size (matcher.book.view.matchable incoming) <
        incoming.qty.toNat)) :
    ∃ result, matcher.book.matchOrder (fun _ => .priceTime) incoming =
        .ok result ∧
      result.emitted.map Emission.event =
        (greedy Order.size incoming.qty.toNat
          (matcher.book.view.matchable incoming)).map
          (fillEvent incoming) := by
  obtain ⟨layout, settled⟩ := trading_wellFormed reachable
  obtain ⟨result, ran, showing⟩ :=
    OrderBook.matchOrder_spec (fun _ => .priceTime) incoming settled
  have absent := absent_of_fresh reachable fresh
  have rejects := Market.rejects_iff .priceTime settled.view_valid absent
  refine ⟨result, ran, ?_⟩
  rw [showing.fills, Market.matchOrder,
    if_neg (fun refused => accepted (rejects.mp refused))]
  change (allGrants _).map _ = _
  rw [Market.sweep_priceTime settled.view_valid]
  rfl

theorem match_greedy_session :
    ∃ result, session.book.matchOrder (fun _ => .priceTime)
        (sessionOrder 4 40 .buy 5) = .ok result ∧
      result.emitted.map Emission.event =
        (greedy Order.size 5
          (session.book.view.matchable (sessionOrder 4 40 .buy 5))).map
          (fillEvent (sessionOrder 4 40 .buy 5)) :=
  match_greedy session_reachable rfl (by simp [sessionOrder, default])

/-- The pro-rata law at a level of any well-formed book. -/
theorem proRata_law {sweep : Sweep sizes} {side : Side} {price : Int64}
    {level : LevelSlot sizes} (wellFormed : sweep.book.WellFormed)
    (listed : sweep.book.Listed side price level)
    (remains : 0 < sweep.remaining) (incoming : Order) :
    let orders := eligible incoming (sweep.book.queueOrders level)
    let whole := demand Order.size orders
    let amount := min sweep.remaining.toNat whole
    let head := (sweep.book.queue level).head?
    (∃ next emitted,
      Sweep.proRataAtLevel false incoming level sweep = .ok next ∧
      next.emitted = sweep.emitted ++ emitted ∧
      next.remaining.toNat + amount = sweep.remaining.toNat ∧
      (if whole = 0 then emitted = []
      else SharedAmong orders amount (emitted.map Emission.event))) ∧
    ∃ scan, Sweep.scanOrders false incoming sweep.book (sizes.orders + 1) head
        { eligibleTotal := 0, largest := none, stats := sweep.stats } =
        .ok scan ∧
      scan.eligibleTotal.toNat = whole ∧
      (whole ≠ 0 →
        let fillQty := (stdMin sweep.remaining.toUInt64
          scan.eligibleTotal).toUInt32
        ∃ totalFloor, Sweep.sumFloors incoming fillQty scan.eligibleTotal
            sweep.book (sizes.orders + 1) head 0 = .ok totalFloor ∧
          Sweep.ExactPasses orders amount whole fillQty totalFloor
            scan.eligibleTotal) := by
  obtain ⟨layout, settled⟩ := wellFormed
  intro orders whole amount head
  constructor
  · exact Sweep.proRataAtLevel_shares settled listed remains incoming
  · exact Sweep.passes_exact settled listed incoming

/-- The level of the session, filled by an order for five. -/
theorem proRata_law_session :
    let orders := session.book.queueOrders sessionLevel
    let sweep := Sweep.start session.book (sessionOrder 4 40 .buy 5)
    ∃ next emitted,
      Sweep.proRataAtLevel false (sessionOrder 4 40 .buy 5) sessionLevel
          sweep =
        .ok next ∧
      next.emitted = sweep.emitted ++ emitted ∧
      next.remaining.toNat + 5 = 5 ∧
      SharedAmong orders 5 (emitted.map Emission.event) :=
  (@proRata_law sessionSizes
    (Sweep.start session.book (sessionOrder 4 40 .buy 5)) .sell 100
    sessionLevel (trading_wellFormed session_reachable) (List.mem_of_head? rfl)
    (by decide) (sessionOrder 4 40 .buy 5)).1

theorem match_refused (load : Nat → MatchingMode)
    (reachable : (trading sizes).Reachable matcher)
    (fresh : matcher.book.findOrder incoming.orderId = none)
    (fok : incoming.tif = .fok)
    (short : demand Order.size (matcher.book.view.matchable incoming) <
      incoming.qty.toNat) :
    matcher.book.matchOrder load incoming =
      .ok (matcher.book.rejected incoming) := by
  obtain ⟨layout, settled⟩ := trading_wellFormed reachable
  have rejects := Market.rejects_iff (load 0) settled.view_valid
    (absent_of_fresh reachable fresh)
  rw [OrderBook.matchOrder_eq load incoming settled,
    if_pos (rejects.mpr ⟨fok, short⟩)]

/-- An order that must be filled at once and can is filled completely. -/
theorem match_filled (load : Nat → MatchingMode)
    (reachable : (trading sizes).Reachable matcher)
    (fresh : matcher.book.findOrder incoming.orderId = none)
    (fok : incoming.tif = .fok)
    (enough : incoming.qty.toNat ≤
      demand Order.size (matcher.book.view.matchable incoming)) :
    ∃ result, matcher.book.matchOrder load incoming = .ok result ∧
      result.book.findOrder incoming.orderId = none ∧
      result.stats.remainingQty = 0 ∧
      (result.emitted.map fun emission => emission.event.qty.toNat).sum =
        incoming.qty.toNat := by
  obtain ⟨layout, settled⟩ := trading_wellFormed reachable
  have valid := settled.view_valid
  have absent := absent_of_fresh reachable fresh
  have rejects := Market.rejects_iff (load 0) valid absent
  have accepted : ¬ matcher.book.view.Rejects (load 0) incoming := by
    intro refused
    exact Nat.not_lt.mpr enough (rejects.mp refused).2
  obtain ⟨result, ran, showing⟩ :=
    OrderBook.matchOrder_spec load incoming settled
  obtain ⟨nextLayout, nextSettled⟩ := showing.wellFormed
  have balances : result.outcome.Balances sizes matcher.book.view incoming := by
    rw [showing.outcome_eq]
    exact Market.matchOrder_balances (load 0) (trading_sound reachable) absent
  have filled : result.stats.remainingQty = 0 := by
    rw [showing.stats, Market.matchOrder, if_neg accepted]
    exact Market.commitMatch_filled (load 0) valid enough
  refine ⟨result, ran, ?_, filled, ?_⟩
  · have moves : Market.Moves incoming matcher.book.view result.book.view := by
      rw [showing.view]
      exact Market.matchOrder_moves (load 0) incoming valid
    have changed := moves.changed (by simp [fok])
    have nextAbsent := changed.find?_none valid absent
    rw [nextSettled.find?_view] at nextAbsent
    exact Option.map_eq_none_iff.mp nextAbsent
  · have conserved := balances.conserved
    change (List.map _ (List.map Emission.event result.emitted)).sum +
      result.stats.remainingQty.toNat = _ at conserved
    rw [filled, List.map_map] at conserved
    exact conserved

/-- The dry run of a sweep predicts what the committing run fills. -/
theorem available_committed (mode : MatchingMode)
    (reachable : (trading sizes).Reachable matcher) (incoming : Order) :
    ∃ dry committed,
      matcher.book.sweepMode mode true incoming = .ok dry ∧
      matcher.book.sweepMode mode false incoming = .ok committed ∧
      dry.remaining = committed.remaining ∧
      matcher.book.available mode incoming =
        .ok (incoming.qty - committed.remaining) := by
  obtain ⟨layout, settled⟩ := trading_wellFormed reachable
  obtain ⟨dry, dryRan, _, dryMade⟩ :=
    OrderBook.sweepMode_spec mode true incoming settled
  obtain ⟨committed, ran, _, made⟩ :=
    OrderBook.sweepMode_spec mode false incoming settled
  obtain ⟨available, availableRan, availableEq⟩ :=
    OrderBook.available_spec mode incoming settled
  have dryBalance : dry.remaining.toNat +
      matcher.book.filledQty mode incoming = incoming.qty.toNat :=
    dryMade.remaining
  have balance : committed.remaining.toNat +
      matcher.book.filledQty mode incoming = incoming.qty.toNat :=
    made.remaining
  have fits : committed.remaining ≤ incoming.qty := by
    rw [UInt32.le_iff_toNat_le]
    omega
  refine ⟨dry, committed, dryRan, ran, ?_, ?_⟩
  · apply UInt32.toNat_inj.mp
    omega
  · rw [availableRan]
    congr 1
    apply UInt32.toNat_inj.mp
    rw [UInt32.toNat_sub_of_le _ _ fits]
    omega

/-- A fill-or-kill order is filled completely, or nothing happens at all,
whatever mode the loads return; and the dry run of a sweep predicts what the
committing run of the same mode fills. -/
theorem match_fillOrKill (load : Nat → MatchingMode)
    (reachable : (trading sizes).Reachable matcher)
    (fresh : matcher.book.findOrder incoming.orderId = none)
    (fok : incoming.tif = .fok) :
    (∃ result, matcher.book.matchOrder load incoming = .ok result ∧
      result.book.findOrder incoming.orderId = none ∧
      (if incoming.qty.toNat ≤
          demand Order.size (matcher.book.view.matchable incoming) then
        result.stats.remainingQty = 0 ∧
        (result.emitted.map fun emission => emission.event.qty.toNat).sum =
          incoming.qty.toNat
      else
        result.emitted = [] ∧ result.stats.remainingQty = incoming.qty ∧
        result.book = matcher.book)) ∧
    ∀ mode, ∃ dry committed,
      matcher.book.sweepMode mode true incoming = .ok dry ∧
      matcher.book.sweepMode mode false incoming = .ok committed ∧
      dry.remaining = committed.remaining ∧
      matcher.book.available mode incoming =
        .ok (incoming.qty - committed.remaining) := by
  constructor
  · by_cases enough : incoming.qty.toNat ≤
        demand Order.size (matcher.book.view.matchable incoming)
    · obtain ⟨result, ran, absent, filled, sum⟩ :=
        match_filled load reachable fresh fok enough
      refine ⟨result, ran, absent, ?_⟩
      rw [if_pos enough]
      exact ⟨filled, sum⟩
    · have refused := match_refused load reachable fresh fok
        (Nat.not_le.mp enough)
      refine ⟨_, refused, fresh, ?_⟩
      rw [if_neg enough]
      exact ⟨rfl, rfl, rfl⟩
  · intro mode
    exact available_committed mode reachable incoming

def impatientOrder : Order :=
  { sessionOrder 4 10 .buy 5 with tif := .fok }

/-- A client that owns the first resting order is offered the second one only,
which is too small. -/
theorem match_fillOrKill_session :
    (∃ result, session.book.matchOrder
        (fun index => if index = 0 then .proRata else .priceTime)
        impatientOrder = .ok result ∧
      result.book.findOrder 4 = none ∧
      (if 5 ≤ demand Order.size
          (session.book.view.matchable impatientOrder) then
        result.stats.remainingQty = 0 ∧
        (result.emitted.map fun emission => emission.event.qty.toNat).sum = 5
      else
        result.emitted = [] ∧ result.stats.remainingQty = 5 ∧
        result.book = session.book)) ∧
    ∀ mode, ∃ dry committed,
      session.book.sweepMode mode true impatientOrder = .ok dry ∧
      session.book.sweepMode mode false impatientOrder = .ok committed ∧
      dry.remaining = committed.remaining ∧
      session.book.available mode impatientOrder =
        .ok (5 - committed.remaining) :=
  match_fillOrKill (fun index => if index = 0 then .proRata else .priceTime)
    session_reachable rfl rfl

end Matcher

/-- The counter of the level at a price. -/
def OrderBook.totalQty? (book : OrderBook sizes) (side : Side)
    (price : Int64) : Option UInt64 :=
  ((book.priceMap side).find? price).bind fun level =>
    (book.levelPool.object? level).map Level.totalQty

/-- No fill is reported at a price while something is left of an order that can
trade at a better price. -/
def MatchResult.BestFirst (market : Market) (incoming : Order)
    (result : MatchResult sizes) : Prop :=
  ∀ before fill after,
    result.emitted.map Emission.event = before ++ fill :: after →
    ∀ order ∈ market.matchable incoming,
      incoming.side.opposite.better order.price fill.price →
      taken before order.orderId = order.size

namespace OrderBook

variable {book : OrderBook sizes} {layout : Layout sizes}

theorem Settled.totalQty?_view (settled : book.Settled layout) (side : Side)
    (price : Int64) :
    (book.totalQty? side price).map UInt64.toNat =
      book.view.depth? side price := by
  have viewed : (book.view.ladder side).find? price =
      ((book.priceMap side).find? price).map book.queueOrders :=
    SortedMap.find?_mapValues _ _ _
  rw [totalQty?, Market.depth?, viewed]
  cases found : (book.priceMap side).find? price with
  | none => rfl
  | some level =>
      have listed : book.Listed side price level :=
        SortedMap.find?_eq_some_iff.mp found
      have summed := (settled.levelConsistent listed).summed
      rw [Option.bind_some, settled.record listed]
      change some _ = some (demand Order.size (book.queueOrders level))
      rw [queueOrders, demand_map, summed]
      rfl

theorem Settled.orderCount_lt (settled : book.Settled layout)
    (slotFree : book.orderPool.freeHead ≠ none) :
    book.view.orderCount < sizes.orders := by
  apply Nat.not_le.mp
  intro full
  apply slotFree
  rw [settled.orders_free.head, settled.freeOrders_eq_nil.mpr full]
  rfl

end OrderBook

namespace Matcher

variable {matcher : Matcher sizes} {incoming : Order}

/-- The two modes agree on everything except who is filled, and both serve
better prices first. -/
theorem match_modes (reachable : (trading sizes).Reachable matcher)
    (fresh : matcher.book.findOrder incoming.orderId = none)
    (slotFree : matcher.book.orderPool.freeHead ≠ none) :
    ∃ left right : MatchResult sizes,
      matcher.book.matchOrder (fun _ => .priceTime) incoming = .ok left ∧
      matcher.book.matchOrder (fun _ => .proRata) incoming = .ok right ∧
      left.outcome.Agrees incoming right.outcome ∧
      (left.book.findOrder incoming.orderId).isSome =
        (right.book.findOrder incoming.orderId).isSome ∧
      (∀ side price,
        left.book.totalQty? side price = right.book.totalQty? side price) ∧
      left.BestFirst matcher.book.view incoming ∧
      right.BestFirst matcher.book.view incoming := by
  obtain ⟨layout, settled⟩ := trading_wellFormed reachable
  have sound := trading_sound reachable
  have absent := absent_of_fresh reachable fresh
  obtain ⟨left, leftRan, leftShows⟩ :=
    OrderBook.matchOrder_spec (fun _ => .priceTime) incoming settled
  obtain ⟨right, rightRan, rightShows⟩ :=
    OrderBook.matchOrder_spec (fun _ => .proRata) incoming settled
  have agrees : left.outcome.Agrees incoming right.outcome := by
    rw [leftShows.outcome_eq, rightShows.outcome_eq]
    exact Market.matchOrder_agrees sound .priceTime .proRata absent
      (settled.orderCount_lt slotFree)
  obtain ⟨leftLayout, leftSettled⟩ := leftShows.wellFormed
  obtain ⟨rightLayout, rightSettled⟩ := rightShows.wellFormed
  refine ⟨left, right, leftRan, rightRan, agrees, ?_, ?_, ?_, ?_⟩
  · have rests := agrees.rests
    change (left.book.view.find? _).isSome = (right.book.view.find? _).isSome
      at rests
    rw [leftSettled.find?_view, rightSettled.find?_view] at rests
    simpa only [Option.isSome_map] using rests
  · intro side price
    have depth := agrees.depth side price
    change left.book.view.depth? _ _ = right.book.view.depth? _ _ at depth
    rw [← leftSettled.totalQty?_view, ← rightSettled.totalQty?_view] at depth
    exact Option.map_injective (fun _ _ => UInt64.toNat_inj.mp) depth
  · intro before fill after split order candidate better
    rw [leftShows.fills] at split
    exact Market.matchOrder_priority sound .priceTime split candidate better
  · intro before fill after split order candidate better
    rw [rightShows.fills] at split
    exact Market.matchOrder_priority sound .proRata split candidate better

theorem match_modes_session :
    ∃ left right : MatchResult sessionSizes,
      session.book.matchOrder (fun _ => .priceTime)
        (sessionOrder 4 40 .buy 5) = .ok left ∧
      session.book.matchOrder (fun _ => .proRata)
        (sessionOrder 4 40 .buy 5) = .ok right ∧
      left.outcome.Agrees (sessionOrder 4 40 .buy 5) right.outcome ∧
      (left.book.findOrder 4).isSome = (right.book.findOrder 4).isSome ∧
      (∀ side price,
        left.book.totalQty? side price = right.book.totalQty? side price) ∧
      left.BestFirst session.book.view (sessionOrder 4 40 .buy 5) ∧
      right.BestFirst session.book.view (sessionOrder 4 40 .buy 5) :=
  match_modes session_reachable rfl (Option.isSome_iff_ne_none.mp rfl)

end Matcher

end Hydra
