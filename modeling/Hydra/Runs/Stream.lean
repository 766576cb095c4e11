import Hydra.Runs.Representation

/-!
# Streams of messages

The matching thread dispatches every message that it takes from the queue to
one call.  However the messages and the mode switches between them are chosen,
every prefix of the stream leaves a market that is not crossed and in which
only good-till-cancelled orders with a positive quantity rest.
-/

namespace Hydra

variable {sizes : PoolSizes}

/-- How `matching_thread_fn` reads a message. -/
def dispatch (order : Order) : Call :=
  if order.eventTag = .newOrCancel ∧ order.qty = 0 then
    .cancelOrder order.orderId
  else if order.eventTag = .replace then
    .replace order.orderId order.price order.qty
  else
    .matchOrder order

/-- What happens to the matcher: a message is dispatched, or the mode is
switched. -/
inductive Input where
  | message (order : Order)
  | setMode (mode : MatchingMode)

def Input.call : Input → Call
  | message order => dispatch order
  | setMode mode => .setMode mode

theorem dispatch_trades (order : Order) : (dispatch order).Trades := by
  rw [dispatch]
  split
  next => trivial
  next =>
    split
    next => trivial
    next => trivial

theorem Input.call_trades (input : Input) : input.call.Trades := by
  cases input with
  | message order => exact dispatch_trades order
  | setMode mode => trivial

namespace OrderBook

variable {book : OrderBook sizes} {layout : Layout sizes}

theorem Settled.first?_best (settled : book.Settled layout) {side : Side}
    {level : LevelSlot sizes}
    (first : (book.priceMap side).first? = some level) :
    ∃ record, book.levelPool.object? level = some record ∧
      book.view.best? side = some record.price := by
  obtain ⟨entry, head, rfl⟩ := Option.map_eq_some_iff.mp first
  have listed : book.Listed side entry.1 entry.2 := List.mem_of_head? head
  refine ⟨_, settled.record listed, ?_⟩
  rw [best?_view settled, head]
  rfl

/-- A sound view, in the terms of the heap. -/
theorem Settled.best_apart (settled : book.Settled layout)
    (sound : book.view.Sound) {bid ask : LevelSlot sizes}
    (bestBid : book.bestBidLevel = some bid)
    (bestAsk : book.bestAskLevel = some ask) :
    ∃ bidRecord askRecord, book.levelPool.object? bid = some bidRecord ∧
      book.levelPool.object? ask = some askRecord ∧
      bidRecord.price < askRecord.price := by
  obtain ⟨bidRecord, bidStored, bidBest⟩ :=
    @first?_best sizes book layout settled .buy bid bestBid
  obtain ⟨askRecord, askStored, askBest⟩ :=
    @first?_best sizes book layout settled .sell ask bestAsk
  obtain ⟨bidOrder, bidRests, bidPrice⟩ := sound.best?_order bidBest
  obtain ⟨askOrder, askRests, askPrice⟩ := sound.best?_order askBest
  refine ⟨bidRecord, askRecord, bidStored, askStored, ?_⟩
  rw [← bidPrice, ← askPrice]
  exact sound.uncrossed bidRests askRests

theorem Settled.queued_sound (settled : book.Settled layout)
    (sound : book.view.Sound) {slot : OrderSlot sizes}
    {level : LevelSlot sizes} (queued : book.InQueue slot level) :
    ∃ node, book.orderPool.object? slot = some node ∧ 0 < node.qty ∧
      node.tif = .gtc := by
  rw [settled.inQueue_iff] at queued
  obtain ⟨node, stored⟩ :=
    settled.orders_free.live slot (settled.queue_used queued)
  have rests : book.view.Rests node.toOrder :=
    settled.rests_view.mpr ⟨level, slot, queued, payload_eq stored⟩
  exact ⟨node, stored, sound.positive rests, sound.patient rests⟩

end OrderBook

/-- Every stream runs to its end, where the best bid is below the best ask and
all resting orders are good-till-cancelled with a positive quantity. -/
theorem stream_valid (mode : MatchingMode) (inputs : List Input) :
    ∃ next : Matcher sizes,
      (Matcher.start mode).run (inputs.map Input.call) = .ok next ∧
      (∀ bid ask, next.book.bestBidLevel = some bid →
        next.book.bestAskLevel = some ask →
        ∃ bidRecord askRecord,
          next.book.levelPool.object? bid = some bidRecord ∧
          next.book.levelPool.object? ask = some askRecord ∧
          bidRecord.price < askRecord.price) ∧
      ∀ slot level, next.book.InQueue slot level →
        ∃ node, next.book.orderPool.object? slot = some node ∧
          0 < node.qty ∧ node.tif = .gtc := by
  have start : (Matcher.trading sizes).Reachable (.start mode) :=
    .initial ⟨mode, rfl⟩
  have trades : ∀ call ∈ inputs.map Input.call, call.Trades := by
    intro call member
    obtain ⟨input, _, rfl⟩ := List.mem_map.mp member
    exact input.call_trades
  obtain ⟨next, ran, reachable⟩ := Matcher.run_spec trades start
  obtain ⟨layout, settled⟩ := Matcher.trading_wellFormed reachable
  have sound := Matcher.trading_sound reachable
  refine ⟨next, ran, ?_, ?_⟩
  · intro bid ask bestBid bestAsk
    exact settled.best_apart sound bestBid bestAsk
  · intro slot level queued
    exact settled.queued_sound sound queued

end Hydra
