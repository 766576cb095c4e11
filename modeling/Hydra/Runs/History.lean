import Hydra.Market.History
import Hydra.Runs.Calls

/-!
# Histories of trading sessions

Two history variables ride along with a session: who submitted every order
id, and when every order came to rest.  They are updated by the steps and read
by nobody.  With them it can be said that no fill joins two orders of the same
submitter, and that every queue is sorted by arrival.
-/

namespace Hydra

variable {sizes : PoolSizes}

/-- The id of the order that a call brings to rest: the remainder of a matched
order, or a replaced order that lost its priority. -/
def Call.arrival? (call : Call) (before next : Market) : Option UInt64 :=
  match call with
  | .matchOrder incoming =>
      if before.find? incoming.orderId = none ∧
          next.find? incoming.orderId ≠ none then
        some incoming.orderId
      else none
  | .replace orderId newPrice newQty =>
      match before.find? orderId with
      | none => none
      | some existing =>
          if Market.KeepsPriority existing newPrice newQty ∨
              next.find? orderId = none then
            none
          else some orderId
  | _ => none

/-- A new order is submitted by its client, under its id. -/
def Call.submit (call : Call) (before : Market) (submitters : Submitters) :
    Submitters :=
  match call with
  | .matchOrder incoming =>
      if before.find? incoming.orderId = none then
        Function.update submitters incoming.orderId (some incoming.clientId)
      else submitters
  | _ => submitters

namespace Venue

variable {venue : Venue} {call : Call}

/-- `arrival?` names the order that comes to rest in a trading call. -/
theorem after_arrival (valid : venue.market.Valid) (trades : call.Trades) :
    venue.market.Arrival
      (call.arrival? venue.market (venue.after sizes call).market)
      (venue.after sizes call).market := by
  cases call with
  | addOrder incoming => cases trades
  | cancelOrder orderId => exact .nobody (Market.changed_cancel _ _)
  | replaceOrderInPlace orderId newQty => cases trades
  | setMode mode => exact .nobody (.refl valid)
  | matchOrder incoming =>
      have moves : Market.Moves incoming venue.market
          (venue.after sizes (.matchOrder incoming)).market :=
        Market.matchOrder_moves venue.mode incoming valid
      by_cases fresh : venue.market.find? incoming.orderId = none
      · have arrival := moves.arrival valid fresh
        rw [Call.arrival?]
        split at arrival
        next gone =>
          rw [if_neg (fun both => both.2 gone)]
          exact arrival
        next rests =>
          rw [if_pos ⟨fresh, rests⟩]
          exact arrival
      · have refused : (venue.after sizes (.matchOrder incoming)).market =
            venue.market := by
          change (venue.market.matchOrder sizes venue.mode incoming).market = _
          rw [Market.matchOrder_duplicate sizes venue.mode fresh]
          rfl
        rw [Call.arrival?, if_neg (fun both => fresh both.1), refused]
        exact .nobody (.refl valid)
  | replace orderId newPrice newQty =>
      rcases @Market.replace_moves sizes venue.market venue.mode orderId
        newPrice newQty valid with ⟨changed, stays⟩ |
          ⟨existing, found, loses, moves⟩
      · have nobody : Call.arrival? (.replace orderId newPrice newQty)
            venue.market (venue.after sizes
              (.replace orderId newPrice newQty)).market = none := by
          rw [Call.arrival?]
          cases found : venue.market.find? orderId with
          | none => rfl
          | some existing => exact if_pos (stays existing found)
        rw [nobody]
        exact .nobody changed
      · obtain ⟨_, rfl⟩ := valid.find?_eq_some_iff.mp found
        have arrival := moves.arrival (valid.cancel existing.orderId)
          (Market.find?_cancel valid existing.orderId)
        have later := arrival.after
          (Market.changed_cancel venue.market existing.orderId)
        change venue.market.Arrival (if (venue.after sizes (.replace
          existing.orderId newPrice newQty)).market.find? existing.orderId =
            none then none else some existing.orderId) _ at later
        rw [Call.arrival?, found]
        dsimp only
        split at later
        next gone =>
          rw [if_pos (.inr gone)]
          exact later
        next rests =>
          rw [if_neg (fun either => either.elim loses rests)]
          exact later

/-- Whoever owned the resting orders still owns them after a trading call. -/
theorem after_owned {submitters : Submitters} (sound : venue.market.Sound)
    (owned : venue.market.OwnedBy submitters) (trades : call.Trades) :
    (venue.after sizes call).market.OwnedBy
      (call.submit venue.market submitters) := by
  cases call with
  | addOrder incoming => cases trades
  | cancelOrder orderId => exact owned.changed (Market.changed_cancel _ _)
  | replaceOrderInPlace orderId newQty => cases trades
  | setMode mode => exact owned
  | matchOrder incoming =>
      have moves : Market.Moves incoming venue.market
          (venue.after sizes (.matchOrder incoming)).market :=
        Market.matchOrder_moves venue.mode incoming sound.toValid
      by_cases fresh : venue.market.find? incoming.orderId = none
      · rw [Call.submit, if_pos fresh]
        apply (owned.submit sound.toValid fresh).moves _ moves
        exact Function.update_self ..
      · rw [Call.submit, if_neg fresh]
        change (venue.market.matchOrder sizes venue.mode
          incoming).market.OwnedBy submitters
        rw [Market.matchOrder_duplicate sizes venue.mode fresh]
        exact owned
  | replace orderId newPrice newQty =>
      rcases @Market.replace_moves sizes venue.market venue.mode orderId
        newPrice newQty sound.toValid with ⟨changed, _⟩ |
          ⟨existing, found, _, moves⟩
      · exact owned.changed changed
      · obtain ⟨rests, _⟩ := sound.find?_eq_some_iff.mp found
        have cancelled := owned.changed
          (Market.changed_cancel venue.market orderId)
        let taker := Market.reentry existing newPrice newQty
        have submitted : submitters taker.orderId = some taker.clientId :=
          owned existing rests
        exact cancelled.moves submitted moves

theorem fill_submitters {submitters : Submitters} {fill : FillEvent}
    {taker : Order} (sound : venue.market.Sound)
    (owned : venue.market.OwnedBy submitters)
    (filled : fill ∈ (venue.outcome sizes call).fills)
    (takes : venue.taker? call = some taker) :
    0 < fill.qty.toNat ∧ fill.makerOrderId ≠ taker.orderId ∧
      call.submit venue.market submitters taker.orderId =
        some taker.clientId ∧
      ∃ client, call.submit venue.market submitters fill.makerOrderId =
        some client ∧ client ≠ taker.clientId := by
  cases call with
  | addOrder incoming => cases takes
  | cancelOrder orderId => cases takes
  | replaceOrderInPlace orderId newQty => cases takes
  | setMode mode => cases takes
  | matchOrder incoming =>
      obtain rfl := Option.some.inj takes
      obtain ⟨fresh, positive, order, rests, sameId, otherClient⟩ :=
        Market.mem_matchOrder_fills sound filled
      have otherId := sound.find?_eq_none_iff.mp fresh order rests
      rw [Call.submit, if_pos fresh, ← sameId, Function.update_self,
        Function.update_of_ne otherId]
      exact ⟨positive, otherId, rfl, order.clientId, owned order rests,
        otherClient⟩
  | replace orderId newPrice newQty =>
      obtain ⟨existing, found, rfl⟩ := Option.map_eq_some_iff.mp takes
      obtain ⟨existingRests, rfl⟩ := sound.find?_eq_some_iff.mp found
      change fill ∈ (venue.market.replace sizes venue.mode existing.orderId
        newPrice newQty).fills at filled
      rw [Market.replace, found] at filled
      dsimp only at filled
      split at filled
      next => cases filled
      next =>
        split at filled
        next => cases filled
        next =>
          have changed :=
            Market.changed_cancel venue.market existing.orderId
          obtain ⟨fresh, positive, order, rests, sameId, otherClient⟩ :=
            Market.mem_matchOrder_fills (sound.changed changed) filled
          have otherId := (sound.changed changed).find?_eq_none_iff.mp fresh
            order rests
          rw [← sameId]
          exact ⟨positive, otherId, owned existing existingRests,
            order.clientId, owned.changed changed order rests, otherClient⟩

end Venue

namespace Matcher

variable {matcher next : Matcher sizes}

/-- Sessions that remember when the orders came to rest. -/
def stamped (sizes : PoolSizes) :
    Machine (Matcher sizes × Stamps) (Call × List (Emission sizes)) :=
  (trading sizes).withGhost .start fun before label next stamps =>
    stamps.record (label.1.arrival? before.book.view next.book.view)

/-- Sessions that remember who submitted the orders. -/
def submitted (sizes : PoolSizes) :
    Machine (Matcher sizes × Submitters) (Call × List (Emission sizes)) :=
  (trading sizes).withGhost (fun _ => none) fun before label _ submitters =>
    label.1.submit before.book.view submitters

theorem step_arrival {label : Call × List (Emission sizes)}
    (session : (trading sizes).Reachable matcher)
    (step : (trading sizes).step matcher label next) :
    matcher.book.view.Arrival
      (label.1.arrival? matcher.book.view next.book.view) next.book.view := by
  have answers := step_answers (trading_wellFormed session) step.2
  have arrival := @Venue.after_arrival sizes matcher.venue label.1
    (trading_sound session).toValid step.1
  rw [← answers.venue] at arrival
  exact arrival

theorem stamped_view {state : Matcher sizes × Stamps}
    (reachable : (stamped sizes).Reachable state) :
    state.1.book.view.StampedBy state.2 := by
  induction reachable with
  | initial start =>
      obtain ⟨⟨mode, started⟩, stamps⟩ := start
      rw [started, stamps]
      change OrderBook.empty.view.StampedBy _
      rw [OrderBook.view_empty]
      exact Market.empty_stampedBy
  | step earlier taken stampedBy =>
      have session := earlier.of_withGhost
      have arrival := step_arrival session taken.1
      rw [taken.2]
      exact stampedBy.arrival (trading_sound session).toValid arrival

theorem submitted_view {state : Matcher sizes × Submitters}
    (reachable : (submitted sizes).Reachable state) :
    state.1.book.view.OwnedBy state.2 := by
  induction reachable with
  | initial start =>
      obtain ⟨⟨mode, started⟩, _⟩ := start
      intro order rests
      rw [started] at rests
      change OrderBook.empty.view.Rests order at rests
      rw [OrderBook.view_empty] at rests
      have impossible : order ∈ Market.empty.orders order.side := rests
      simp [Market.orders, Market.empty] at impossible
  | @step state next label earlier taken owned =>
      have session := earlier.of_withGhost
      have answers := step_answers (trading_wellFormed session) taken.1.2
      have ownedAfter := @Venue.after_owned sizes state.1.venue label.1 state.2
        (trading_sound session) owned taken.1.1
      rw [← answers.venue] at ownedAfter
      rw [taken.2]
      exact ownedAfter

/-- Every queue is sorted by arrival, and a step keeps the order of every
queue: nobody moves, and who arrives is last. -/
theorem time_priority {stamps : Stamps}
    (reachable : (stamped sizes).Reachable (matcher, stamps)) :
    (∀ side price level, matcher.book.Listed side price level →
      (matcher.book.queue level).Pairwise fun left right =>
        stamps.stamp (matcher.book.payload left).orderId <
          stamps.stamp (matcher.book.payload right).orderId) ∧
    ∀ label next nextStamps,
      (stamped sizes).step (matcher, stamps) label (next, nextStamps) →
      ∀ side price, ∃ kept,
        kept.Sublist (matcher.book.view.idsAt side price) ∧
        (next.book.view.idsAt side price = kept ∨
          ∃ orderId, label.1.arrival? matcher.book.view next.book.view =
              some orderId ∧
            next.book.view.idsAt side price = kept ++ [orderId]) := by
  have session := reachable.of_withGhost
  have wellFormed := trading_wellFormed session
  constructor
  · intro side price level listed
    obtain ⟨layout, settled⟩ := wellFormed
    have sorted := (stamped_view reachable).sorted side price
    have entry : (price, matcher.book.queueOrders level) ∈
        (matcher.book.view.ladder side).entries := by
      exact List.mem_map_of_mem listed
    change ((matcher.book.view.queueAt side price).map _).Pairwise _ at sorted
    rw [Market.queueAt_eq entry, OrderBook.queueOrders, List.map_map,
      List.pairwise_map] at sorted
    exact sorted
  · intro label next nextStamps taken side price
    exact (step_arrival session taken.1).idsAt side price

theorem time_priority_session :
    ∃ stamps, (stamped sessionSizes).Reachable (session, stamps) ∧
      (∀ side price level, session.book.Listed side price level →
        (session.book.queue level).Pairwise fun left right =>
          stamps.stamp (session.book.payload left).orderId <
            stamps.stamp (session.book.payload right).orderId) ∧
      ∀ label next nextStamps,
        (stamped sessionSizes).step (session, stamps) label
          (next, nextStamps) →
        ∀ side price, ∃ kept,
          kept.Sublist (session.book.view.idsAt side price) ∧
          (next.book.view.idsAt side price = kept ∨
            ∃ orderId, label.1.arrival? session.book.view next.book.view =
                some orderId ∧
              next.book.view.idsAt side price = kept ++ [orderId]) := by
  obtain ⟨stamps, reachable⟩ := session_reachable.exists_ghost Stamps.start
    fun before label next stamps =>
      stamps.record (label.1.arrival? before.book.view next.book.view)
  exact ⟨stamps, reachable, time_priority reachable⟩

/-- Every fill of a session is legal: at the moment of its report the maker
rests on the other side with at least the filled quantity, at the price of the
fill and within the taker's limit, and the two orders were submitted by
different clients.  A new order under a resting id does nothing. -/
theorem fills_legal {submitters nextSubmitters : Submitters}
    {label : Call × List (Emission sizes)}
    (reachable : (submitted sizes).Reachable (matcher, submitters))
    (step : (submitted sizes).step (matcher, submitters) label
      (next, nextSubmitters)) :
    (∀ emission ∈ label.2, ∃ taker maker,
      matcher.venue.taker? label.1 = some taker ∧
      emission.event.takerOrderId = taker.orderId ∧
      (emission.book.findOrder emission.event.makerOrderId).map
        emission.book.payload = some maker ∧
      maker.side = taker.side.opposite ∧
      0 < emission.event.qty ∧ emission.event.qty ≤ maker.qty ∧
      emission.event.price = maker.price ∧
      crosses maker.price taker = true ∧
      emission.event.makerOrderId ≠ emission.event.takerOrderId ∧
      ∃ makerClient takerClient,
        nextSubmitters emission.event.makerOrderId = some makerClient ∧
        nextSubmitters emission.event.takerOrderId = some takerClient ∧
        makerClient ≠ takerClient) ∧
    ∀ incoming, label.1 = .matchOrder incoming →
      matcher.book.findOrder incoming.orderId ≠ none →
      label.2 = [] ∧ next = matcher := by
  have session : (trading sizes).Reachable matcher := reachable.of_withGhost
  have wellFormed := trading_wellFormed session
  have sound := trading_sound session
  have taken : (trading sizes).step matcher label next := step.1
  have recorded : nextSubmitters =
      label.1.submit matcher.book.view submitters := step.2
  constructor
  · intro emission member
    have answers := step_answers wellFormed taken.2
    obtain ⟨taker, takes, legal⟩ := answers.legal emission member
    obtain ⟨maker, rests, within, _, makerId, priceEq, fits, _⟩ := legal.maker
    obtain ⟨layout, settled⟩ := legal.wellFormed
    have filled : emission.event ∈
        (matcher.venue.outcome sizes label.1).fills := by
      rw [← answers.fills]
      exact List.mem_map_of_mem member
    obtain ⟨positive, otherId, takerOwned, client, makerOwned, differs⟩ :=
      Venue.fill_submitters sound (submitted_view reachable) filled takes
    refine ⟨taker, maker, takes, legal.taker, ?_, within.1,
      UInt32.lt_iff_toNat_lt.mpr positive, UInt32.le_iff_toNat_le.mpr fits,
      priceEq, within.2, ?_, client, taker.clientId, ?_, ?_, differs⟩
    · rw [← settled.find?_view, makerId]
      exact settled.view_valid.find?_eq_some_iff.mpr ⟨rests, rfl⟩
    · rw [legal.taker]
      exact otherId
    · rw [recorded]
      exact makerOwned
    · rw [recorded, legal.taker]
      exact takerOwned
  · intro incoming called resting
    obtain ⟨layout, settled⟩ := wellFormed
    have rejects : matcher.book.view.Rejects (matcher.load 0) incoming := by
      apply Or.inl
      rw [settled.find?_view]
      intro absent
      exact resting (Option.map_eq_none_iff.mp absent)
    have ran := taken.2.2
    rw [called, apply, OrderBook.matchOrder_eq matcher.load incoming settled,
      if_pos rejects] at ran
    obtain ⟨sameMatcher, sameEmitted⟩ := Prod.mk.inj (Except.ok.inj ran)
    exact ⟨sameEmitted.symm, sameMatcher.symm⟩

/-- A buyer takes what is left of the session's first order, and a part of the
second one. -/
theorem fills_legal_session :
    ∃ submitters nextSubmitters next emitted,
      emitted.length = 2 ∧
      (submitted sessionSizes).step (session, submitters)
        (.matchOrder (sessionOrder 4 40 .buy 5), emitted)
        (next, nextSubmitters) ∧
      (∀ emission ∈ emitted, ∃ taker maker,
        session.venue.taker? (.matchOrder (sessionOrder 4 40 .buy 5)) =
          some taker ∧
        emission.event.takerOrderId = taker.orderId ∧
        (emission.book.findOrder emission.event.makerOrderId).map
          emission.book.payload = some maker ∧
        maker.side = taker.side.opposite ∧
        0 < emission.event.qty ∧ emission.event.qty ≤ maker.qty ∧
        emission.event.price = maker.price ∧
        crosses maker.price taker = true ∧
        emission.event.makerOrderId ≠ emission.event.takerOrderId ∧
        ∃ makerClient takerClient,
          nextSubmitters emission.event.makerOrderId = some makerClient ∧
          nextSubmitters emission.event.takerOrderId = some takerClient ∧
          makerClient ≠ takerClient) := by
  obtain ⟨submitters, reachable⟩ := session_reachable.exists_ghost
    (fun _ => none : Submitters) fun before label _ submitters =>
      label.1.submit before.book.view submitters
  let call : Call := .matchOrder (sessionOrder 4 40 .buy 5)
  have ran : ∃ next emitted, session.apply call = .ok (next, emitted) ∧
      emitted.length = 2 := ⟨_, _, rfl, rfl⟩
  obtain ⟨next, emitted, applied, two⟩ := ran
  have step : (submitted sessionSizes).step (session, submitters)
      (call, emitted) (next, call.submit session.book.view submitters) :=
    ⟨⟨trivial, trivial, applied⟩, rfl⟩
  exact ⟨submitters, _, next, emitted, two, step,
    (fills_legal reachable step).1⟩

end Matcher

end Hydra
