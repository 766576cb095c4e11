import Hydra.Pipeline.Synthetic
import Hydra.Wire.Grammar

/-!
# Test traffic

`send_test_orders` sends order messages as datagrams to the port of the order
entry.  On the way to the book a message may be lost, repeated or overtaken, and
other frames may come in between; what the two ways to choose the clients are
for holds all the same.
-/

namespace Hydra

variable {sizes : PoolSizes}

namespace Market

variable {market : Market} {incoming : Order} {mode : MatchingMode}

/-- An order that only meets orders of its own client trades with none of them:
at most it joins them. -/
theorem matchOrder_alone
    (alone : ∀ order ∈ market.orders incoming.side.opposite,
      order.clientId = incoming.clientId) :
    let outcome := market.matchOrder sizes mode incoming
    outcome.fills = [] ∧
      (outcome.market = market ∨ outcome.market = market.insert incoming) := by
  have none_eligible :
      eligible incoming (market.visited mode incoming) = [] := by
    rw [eligible, List.filter_eq_nil_iff]
    intro order visited
    have same := alone order (visited_orders.subset visited)
    simp [tradable, OrderBook.isSelfTrade, same]
  have grants : allGrants (market.sweep mode incoming) = [] := by
    apply List.eq_nil_of_length_eq_zero
    apply Nat.le_zero.mp
    have served : (allGrants (market.sweep mode incoming)).length ≤
        (eligible incoming (market.visited mode incoming)).length :=
      length_allGrants_le
    rw [none_eligible] at served
    exact served
  intro outcome
  by_cases rejects : market.Rejects mode incoming
  · have refused : outcome = market.reject incoming := if_pos rejects
    rw [refused]
    exact ⟨rfl, .inl rfl⟩
  · have committed : outcome = market.commitMatch sizes mode incoming :=
      if_neg rejects
    rw [committed, commitMatch, grants]
    refine ⟨rfl, ?_⟩
    change market.rest sizes incoming (incoming.size - 0) = market ∨
      market.rest sizes incoming (incoming.size - 0) = market.insert incoming
    have whole : { incoming with qty := .ofNat (incoming.size - 0) } =
        incoming := by
      rw [Nat.sub_zero, Order.size, UInt32.ofNat_toNat]
    rw [Market.rest, add, whole]
    split
    · split
      · exact .inr rfl
      · exact .inl rfl
    · exact .inl rfl

theorem matchOrder_alone_fills (valid : market.Valid)
    (few : market.orderCount < 2 ^ 32)
    (alone : ∀ order ∈ market.orders incoming.side.opposite,
      order.clientId = incoming.clientId) :
    (market.matchOrder sizes mode incoming).stats.fillsGenerated = 0 := by
  have nothing := (@matchOrder_alone sizes market incoming mode alone).1
  rw [matchOrder] at nothing ⊢
  split
  · rfl
  next accepted =>
    rw [if_neg accepted] at nothing
    apply UInt32.toNat_inj.mp
    rw [(commitMatch_counts valid few mode incoming).fills, nothing]
    rfl

end Market

/-- The flags of `send_test_orders` that say who submits the orders. -/
structure SendTestOrders where
  clientId : UInt64
  clientIdExplicit : Bool
  clientCount : UInt64
  /-- `--client-count must be >= 1`. -/
  clientCount_ne : clientCount ≠ 0

/-- What the distributions draw for an order. -/
structure TestDraw where
  price : Int64
  qty : UInt32
  price_drawn : 99000 ≤ price ∧ price ≤ 101000
  qty_drawn : 1 ≤ qty ∧ qty ≤ 100

theorem TestDraw.positive (draw : TestDraw) : 0 < draw.qty :=
  UInt32.lt_of_lt_of_le (by decide) draw.qty_drawn.1

namespace SendTestOrders

variable (sender : SendTestOrders)

/-- The client of an order: the fixed one, or the next one in turn. -/
def effectiveClientId (orderId : UInt64) : UInt64 :=
  if sender.clientIdExplicit then sender.clientId
  else 1 + orderId % sender.clientCount

/-- The message that is sent for an order, in the byte order of the network. -/
def wire (orderId : UInt64) (draw : TestDraw) : OrderWireFormat where
  orderId := htobe64 orderId
  price := (htobe64 draw.price.toUInt64).toInt64
  qty := htonl draw.qty
  clientId := htobe64 (sender.effectiveClientId orderId)
  side := if orderId % 2 = 0 then Side.buy.toByte else Side.sell.toByte
  tif := TimeInForce.gtc.toByte

/-- The messages of the loop from the order `orderId` on. -/
def sendFrom (orderId : UInt64) : List TestDraw → List OrderWireFormat
  | [] => []
  | draw :: draws => sender.wire orderId draw :: sendFrom (orderId + 1) draws

def sent (draws : List TestDraw) : List OrderWireFormat :=
  sender.sendFrom 1 draws

/-- What arrives is a message that was sent, in a frame for the port of the
order entry, or no order frame at all. -/
def Arrives (draws : List TestDraw) (frame : Frame) : Prop :=
  (∃ (envelope : Envelope) (wire : OrderWireFormat),
    wire ∈ sender.sent draws ∧ frame.bytes = envelope.wrap wire) ∨
  ¬ OrderFrame frame.bytes

/-- An order of the sender, as the book receives it. -/
structure Places (order : Order) : Prop where
  side : order.side = if order.orderId % 2 = 0 then .buy else .sell
  client : order.clientId = sender.effectiveClientId order.orderId
  price : 99000 ≤ order.price ∧ order.price ≤ 101000
  patient : order.tif = .gtc
  tag : order.eventTag = .newOrCancel
  positive : 0 < order.qty

end SendTestOrders

/-- What `parse_and_release` makes of the bytes of a frame. -/
def Frame.order? (frame : Frame) : Option Order :=
  match parseOrderZeroCopy (some frame) default with
  | .ok (true, order) => some order
  | .ok (false, _) | .error _ => none

namespace SendTestOrders

variable {sender : SendTestOrders} {draws : List TestDraw}

theorem mem_sendFrom {orderId : UInt64} {wire : OrderWireFormat}
    (member : wire ∈ sender.sendFrom orderId draws) :
    ∃ number draw, wire = sender.wire number draw := by
  induction draws generalizing orderId with
  | nil => cases member
  | cons draw rest induction =>
      rcases List.mem_cons.mp member with rfl | later
      · exact ⟨orderId, draw, rfl⟩
      · exact induction later

theorem wire_eq (orderId : UInt64) (draw : TestDraw) :
    sender.wire orderId draw =
      encodeOrder orderId draw.price draw.qty (sender.effectiveClientId orderId)
        (if orderId % 2 = 0 then .buy else .sell) .gtc := by
  rw [wire, encodeOrder]
  split <;> rfl

/-- The order that is sent under a number. -/
def order (sender : SendTestOrders) (orderId : UInt64) (draw : TestDraw) :
    Order :=
  { (default : Order) with
    orderId
    price := draw.price
    qty := draw.qty
    side := if orderId % 2 = 0 then .buy else .sell
    tif := .gtc
    clientId := sender.effectiveClientId orderId }

theorem order?_wire {frame : Frame} {envelope : Envelope} {orderId : UInt64}
    {draw : TestDraw}
    (built : frame.bytes = envelope.wrap (sender.wire orderId draw)) :
    frame.order? = some (sender.order orderId draw) := by
  rw [Frame.order?, parseOrderZeroCopy_wrap built, wire_eq,
    acceptWire_encodeOrder (UInt32.ne_of_lt draw.positive).symm]
  rfl

theorem order_places (orderId : UInt64) (draw : TestDraw) :
    sender.Places (sender.order orderId draw) where
  side := rfl
  client := rfl
  price := draw.price_drawn
  patient := rfl
  tag := rfl
  positive := draw.positive

theorem Arrives.places {frame : Frame} {order : Order}
    (arrives : sender.Arrives draws frame)
    (parsed : frame.order? = some order) : sender.Places order := by
  rcases arrives with ⟨envelope, wire, member, built⟩ | other
  · obtain ⟨orderId, draw, rfl⟩ := mem_sendFrom member
    rw [order?_wire built] at parsed
    exact Option.some.inj parsed ▸ order_places orderId draw
  · rw [Frame.order?, parse_not_orderFrame other] at parsed
    cases parsed

theorem Places.message {order : Order} (places : sender.Places order) :
    order.message = .new order := by
  have nonzero : order.qty ≠ 0 := (UInt32.ne_of_lt places.positive).symm
  rw [Order.message, if_neg, if_neg]
  · simp [Order.isReplace, places.tag]
  · simp [Order.isCancel, nonzero]

theorem Places.synthetic {order : Order} (places : sender.Places order)
    (rotating : sender.clientIdExplicit = false) :
    order.Synthetic sender.clientCount where
  side := places.side
  client := by
    rw [places.client, effectiveClientId, rotating]
    rfl
  price := places.price
  patient := places.patient
  tag := places.tag

theorem Places.fixed {order : Order} (places : sender.Places order)
    (explicit : sender.clientIdExplicit = true) :
    order.clientId = sender.clientId := by
  rw [places.client, effectiveClientId, if_pos explicit]

end SendTestOrders

namespace Market

/-- The resting orders are whole orders of one client. -/
def HoldsWhole (orders : List Order) (clientId : UInt64) : Market → Prop :=
  Upholds fun order => order ∈ orders ∧ order.clientId = clientId

variable {market : Market} {orders : List Order} {clientId : UInt64}

theorem HoldsWhole.alone (whole : market.HoldsWhole orders clientId)
    (valid : market.Valid) {incoming : Order}
    (same : incoming.clientId = clientId) :
    ∀ order ∈ market.orders incoming.side.opposite,
      order.clientId = incoming.clientId := by
  intro order member
  obtain ⟨rests, _⟩ := valid.mem_orders_iff.mp member
  rw [same]
  exact (whole order rests).2

/-- An order of the client leaves all orders as they are. -/
theorem HoldsWhole.matchOrder (whole : market.HoldsWhole orders clientId)
    (valid : market.Valid) {mode : MatchingMode} {incoming : Order}
    (submitted : incoming ∈ orders) (same : incoming.clientId = clientId) :
    let next := (market.matchOrder sizes mode incoming).market
    next.HoldsWhole orders clientId ∧
      ∀ order, market.Rests order → next.Rests order := by
  intro next
  rcases (matchOrder_alone (whole.alone valid same)).2 with stays | joins
  · rw [show next = market from stays]
    exact ⟨whole, fun order rests => rests⟩
  · rw [show next = market.insert incoming from joins]
    constructor
    · intro order rests
      rcases rests_insert.mp rests with old | rfl
      · exact whole order old
      · exact ⟨submitted, same⟩
    · intro order rests
      exact rests_insert.mpr (.inl rests)

end Market

namespace SendTestOrders

variable {sender : SendTestOrders} {draws : List TestDraw}
variable {orders front : List Order} {order : Order}

theorem live (placed : ∀ order ∈ orders, sender.Places order)
    (rotating : sender.clientIdExplicit = false) :
    Live sender.clientCount orders := by
  intro order member
  have places := placed order member
  exact ⟨places.synthetic rotating, places.positive⟩

theorem holdsWhole (placed : ∀ order ∈ front, sender.Places order)
    (explicit : sender.clientIdExplicit = true) (mode : MatchingMode) :
    ((Venue.start mode).afterOrders sizes front).market.HoldsWhole front
      sender.clientId := by
  refine Venue.afterAll_keeps ?_ Market.empty_sound (Market.empty_upholds _)
  intro message member venue sound whole
  obtain ⟨order, submitted, rfl⟩ := List.mem_map.mp member
  have places := placed order submitted
  rw [places.message]
  exact (whole.matchOrder sound.toValid submitted (places.fixed explicit)).1

/-- An order after orders of the same sender. -/
theorem processed (mode : MatchingMode)
    (placed : ∀ other ∈ front ++ [order], sender.Places other) :
    ∃ samples, ∃ matcher : Matcher sizes, ∃ result,
      (Matcher.start mode).measure front = .ok (samples, matcher) ∧
      matcher.process order = .ok result ∧
      (sender.clientIdExplicit = false → sender.clientCount % 2 = 0 →
        result.stats.selfTradeSkips = 0) ∧
      (sender.clientIdExplicit = true →
        result.stats.fillsGenerated = 0 ∧
        (∀ resting, matcher.book.view.Rests resting →
          result.matcher.book.view.Rests resting) ∧
        ∀ resting, result.matcher.book.view.Rests resting →
          resting ∈ front ++ [order]) := by
  have earlier : ∀ other ∈ front, sender.Places other :=
    fun other member => placed other (List.mem_append_left _ member)
  have places : sender.Places order :=
    placed order (List.mem_append_right _ (List.mem_singleton_self order))
  obtain ⟨matcher, measured, wellFormed, venue⟩ :=
    Matcher.measure_spec (@Matcher.start_wellFormed sizes mode) front
  rw [Matcher.start_venue] at venue
  obtain ⟨result, processed, _, later, stats⟩ :=
    Matcher.process_spec wellFormed order
  refine ⟨_, matcher, result, measured, processed, ?_, ?_⟩
  · intro rotating even
    obtain ⟨_, again, same, _, upholds⟩ :=
      @Live.measured sizes _ _ (live earlier rotating) mode
    rw [measured] at same
    obtain ⟨_, rfl⟩ := Prod.mk.inj (Except.ok.inj same)
    obtain ⟨other, twice, skips⟩ := (places.synthetic rotating).skips even
      wellFormed upholds places.positive
    rw [processed] at twice
    exact Except.ok.inj twice ▸ skips
  · intro explicit
    obtain ⟨layout, settled⟩ := wellFormed
    have few : matcher.book.view.orderCount < 2 ^ 32 :=
      Nat.lt_of_le_of_lt settled.orderCount_le sizes.orders_lt
    have view : matcher.book.view =
        ((Venue.start mode).afterOrders sizes front).market :=
      congrArg Venue.market venue
    have whole : matcher.book.view.HoldsWhole front sender.clientId := by
      rw [view]
      exact holdsWhole earlier explicit mode
    have wider : matcher.book.view.HoldsWhole (front ++ [order])
        sender.clientId := by
      intro resting rests
      obtain ⟨member, same⟩ := whole resting rests
      exact ⟨List.mem_append_left _ member, same⟩
    have same := places.fixed explicit
    have after : result.matcher.book.view =
        (matcher.book.view.matchOrder sizes matcher.venue.mode
          order).market := by
      have market := congrArg Venue.market later
      rw [places.message] at market
      exact market
    obtain ⟨next, stays⟩ := @Market.HoldsWhole.matchOrder sizes _ _ _ wider
      settled.view_valid matcher.venue.mode order
      (List.mem_append_right _ (List.mem_singleton_self order)) same
    rw [after, stats, places.message]
    refine ⟨?_, stays, fun resting rests => (next resting rests).1⟩
    exact Market.matchOrder_alone_fills settled.view_valid few
      (whole.alone settled.view_valid same)

end SendTestOrders

/-- What is true of every parsed order, whatever its timestamp, is true of every
order that the thread takes. -/
theorem AfxdpThread.Step.upholds {Frame : Type}
    {parseAndRelease : Frame → Option Order} {terms : Order → Prop}
    (made : ∀ frame order timestampNs, parseAndRelease frame = some order →
      terms { order with timestampNs })
    {stopped : Bool} {thread next : AfxdpThread Frame} {event : IngestEvent}
    {record : Handover.Record Order}
    (taken : Step parseAndRelease stopped thread event next)
    (held : ∀ order ∈ record.taken, terms order) :
    ∀ order ∈ (record.add event.handover).taken, terms order := by
  cases taken with
  | exit | enter | receive | batchDone | parseError | pushed | dropped =>
      exact held
  | attempt pushing taken =>
      cases taken with
      | again | giveUp | accepted | refused => exact held
  | produce timestampNs next parsed =>
      intro order member
      rcases List.mem_append.mp member with old | new
      · exact held order old
      · rw [List.mem_singleton.mp new]
        exact made _ _ timestampNs parsed

namespace SendTestOrders

variable {sender : SendTestOrders} {draws : List TestDraw}
variable {size : Nat} {mode : MatchingMode} {delivery : Delivery}

/-- The frames that can arrive. -/
abbrev Arrival (sender : SendTestOrders) (draws : List TestDraw) : Type :=
  { frame : Frame // sender.Arrives draws frame }

/-- `afxdp_rx_thread_fn` on the frames that can arrive. -/
def receiver (sender : SendTestOrders) (draws : List TestDraw) :
    ProducerThread (AfxdpThread (sender.Arrival draws)) :=
  afxdpThread fun frame => frame.val.order?

theorem applied_places
    {state : Pipeline (AfxdpThread (sender.Arrival draws)) sizes size}
    {matcher : Matcher sizes}
    (reachable : (pipeline (sender.receiver draws) matcher size).Reachable
      (state, delivery)) :
    ∀ order ∈ delivery.applied, sender.Places order := by
  have taken : ∀ order ∈ delivery.ingest.taken, sender.Places order := by
    refine Pipeline.producer_invariant
      (fun _ record => ∀ order ∈ record.taken, sender.Places order)
      ?_ ?_ reachable
    · exact fun order member => nomatch member
    · intro stopped program event next record held step
      refine AfxdpThread.Step.upholds ?_ step held
      intro frame order timestampNs parsed
      obtain ⟨side, client, price, patient, tag, positive⟩ :=
        frame.property.places parsed
      exact ⟨side, client, price, patient, tag, positive⟩
  intro order member
  have kept := Pipeline.delivered reachable
  obtain ⟨entry, passed, rfl⟩ := List.mem_map.mp (kept.applied.subset member)
  exact taken _ (List.mem_of_getElem? (kept.genuine entry passed))

/-- Whatever the network does to the traffic and however the threads interleave,
an even number of clients that take turns never meet themselves, and the orders
of a single client are never filled: the book only grows, by whole orders. -/
theorem traffic
    {state : Pipeline (AfxdpThread (sender.Arrival draws)) sizes size}
    (reachable : (pipeline (sender.receiver draws) (.start mode : Matcher sizes)
      size).Reachable (state, delivery)) :
    ∀ front order back, delivery.applied = front ++ order :: back →
      ∃ samples, ∃ matcher : Matcher sizes, ∃ result,
        (Matcher.start mode).measure front = .ok (samples, matcher) ∧
        matcher.process order = .ok result ∧
        (sender.clientIdExplicit = false → sender.clientCount % 2 = 0 →
          result.stats.selfTradeSkips = 0) ∧
        (sender.clientIdExplicit = true →
          result.stats.fillsGenerated = 0 ∧
          (∀ resting, matcher.book.view.Rests resting →
            result.matcher.book.view.Rests resting) ∧
          ∀ resting, result.matcher.book.view.Rests resting →
            resting ∈ front ++ [order]) := by
  intro front order back applied
  apply processed mode
  intro other member
  apply applied_places reachable
  rw [applied, List.append_cons]
  exact List.mem_append_left back member

/-- The receiver takes a batch of one frame and pushes its order. -/
theorem receiver_pushed {current matcher : Matcher sizes} {items : List Order}
    {thread : AfxdpThread (sender.Arrival draws)} {order : Order}
    (reachable : (pipeline (sender.receiver draws) matcher size).Reachable
      (Pipeline.quiet items current thread, delivery))
    (looping : thread.point = .loop) (room : items.length < size)
    (frame : sender.Arrival draws) (parsed : frame.val.order? = some order)
    (timestampNs : UInt64) :
    let stamped := { order with timestampNs }
    (pipeline (sender.receiver draws) matcher size).Reachable
      (Pipeline.quiet (items ++ [stamped]) current
        { thread with
          received := thread.received + 1
          parsedOk := thread.parsedOk + 1
          point := .loop },
        { delivery with
          ingest := (delivery.ingest.add (.take stamped)).add
            (.offer stamped true) }) := by
  intro stamped
  have accepts : ({ queue := items } : MutexQueue Order size).push stamped =
      (true, { queue := items ++ [stamped] }) := by
    rw [MutexQueue.push, if_neg (Nat.not_le_of_lt room)]
  have entered := Pipeline.after_producer reachable (.enter looping rfl) rfl
  have received := Pipeline.after_producer entered
    (@AfxdpThread.Step.receive _ _ _ _ [frame] rfl
      (show 1 ≤ AfxdpThread.rxBatchSize by decide)) rfl
  have produced := Pipeline.after_producer received
    (.produce timestampNs rfl parsed) rfl
  have pushing := Pipeline.after_producer produced
    (.attempt rfl (.again (by decide) rfl)) rfl
  have accepted := Pipeline.after_producer pushing (.attempt rfl .accepted)
    accepts
  have pushed := Pipeline.after_producer accepted (.pushed rfl) rfl
  exact Pipeline.after_producer pushed (.batchDone rfl) rfl

/-- A sender with eight clients in turn, or with a fixed one. -/
def sampleSender (clientIdExplicit : Bool) : SendTestOrders where
  clientId := 7
  clientIdExplicit
  clientCount := 8
  clientCount_ne := by decide

def sampleDraw : TestDraw where
  price := 100000
  qty := 5
  price_drawn := by decide
  qty_drawn := by decide

def sampleDraws : List TestDraw := [sampleDraw, sampleDraw]

def sampleOrder (clientIdExplicit : Bool) (orderId : UInt64) : Order :=
  { (sampleSender clientIdExplicit).order orderId sampleDraw with
    timestampNs := 7 }

/-- The frame of an order of the sample. -/
def sampleFrame (clientIdExplicit : Bool) (orderId : UInt64)
    (sent : orderId = 1 ∨ orderId = 2) :
    (sampleSender clientIdExplicit).Arrival sampleDraws where
  val :=
    { bytes := taggedEnvelope.wrap
        ((sampleSender clientIdExplicit).wire orderId sampleDraw)
      fits := by
        rcases sent with rfl | rfl <;> cases clientIdExplicit <;> decide }
  property := by
    refine .inl ⟨taggedEnvelope, _, ?_, rfl⟩
    rcases sent with rfl | rfl
    · exact List.mem_cons_self
    · exact List.mem_cons_of_mem _ List.mem_cons_self

/-- The second order of the sample overtakes the first one. -/
theorem sample_reachable (clientIdExplicit : Bool) :
    ∃ (state : Pipeline (AfxdpThread
        ((sampleSender clientIdExplicit).Arrival sampleDraws)) configSizes 4)
      (delivery : Delivery),
      (pipeline ((sampleSender clientIdExplicit).receiver sampleDraws)
        (.start .priceTime) 4).Reachable (state, delivery) ∧
      delivery.applied =
        [sampleOrder clientIdExplicit 2, sampleOrder clientIdExplicit 1] := by
  have start := @Pipeline.quiet_start configSizes 4 _
    ((sampleSender clientIdExplicit).receiver sampleDraws) (.start .priceTime)
  have overtaking := receiver_pushed start rfl (by decide)
    (sampleFrame clientIdExplicit 2 (.inr rfl)) (order?_wire rfl) 7
  have overtaken := receiver_pushed overtaking rfl (show 1 < 4 by decide)
    (sampleFrame clientIdExplicit 1 (.inl rfl)) (order?_wire rfl) 7
  obtain ⟨_, drained⟩ :=
    Pipeline.quiet_drains (Matcher.start_wellFormed _) overtaken
  exact ⟨_, _, drained, rfl⟩

/-- Two of eight clients in turn trade with each other; a fixed client only adds
to the book. -/
theorem traffic_overtaken :
    (∃ samples, ∃ matcher : Matcher configSizes, ∃ result,
      (Matcher.start .priceTime).measure [sampleOrder false 2] =
        .ok (samples, matcher) ∧
      matcher.process (sampleOrder false 1) = .ok result ∧
      result.stats.selfTradeSkips = 0 ∧ result.stats.fillsGenerated = 1) ∧
    ∃ samples, ∃ matcher : Matcher configSizes, ∃ result,
      (Matcher.start .priceTime).measure [sampleOrder true 2] =
        .ok (samples, matcher) ∧
      matcher.process (sampleOrder true 1) = .ok result ∧
      result.stats.fillsGenerated = 0 ∧
      ∀ resting, matcher.book.view.Rests resting →
        result.matcher.book.view.Rests resting := by
  constructor
  · obtain ⟨_, delivery, reachable, applied⟩ := sample_reachable false
    obtain ⟨samples, matcher, result, measured, processed, rotating, _⟩ :=
      traffic reachable [sampleOrder false 2] (sampleOrder false 1) [] applied
    refine ⟨samples, matcher, result, measured, processed,
      rotating rfl (by decide), ?_⟩
    rw [Matcher.measured_stats measured processed]
    decide +kernel
  · obtain ⟨_, delivery, reachable, applied⟩ := sample_reachable true
    obtain ⟨samples, matcher, result, measured, processed, _, fixed⟩ :=
      traffic reachable [sampleOrder true 2] (sampleOrder true 1) [] applied
    obtain ⟨unfilled, stays, _⟩ := fixed rfl
    exact ⟨samples, matcher, result, measured, processed, unfilled, stays⟩

end SendTestOrders

end Hydra
