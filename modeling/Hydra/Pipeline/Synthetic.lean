import Hydra.Market.Statistics
import Hydra.Pipeline.Counting
import Hydra.Pipeline.Sequential
import Hydra.Runs.Capacity

/-!
# The live pipeline on synthetic orders

`rx_thread_fn` gives its orders increasing ids, lets a few clients take turns
and alternates between the sides.  As the number of clients is even, no client
is ever on both sides: whatever is drawn and however the threads interleave, no
order is refused for its id, no resting order is skipped as one of the same
client, and the narrow prices never exhaust the levels.
-/

namespace Hydra

variable {sizes : PoolSizes}

/-- What the generators of live orders make of the number of an order, if
`clients` clients take turns. -/
structure Order.Synthetic (clients : UInt64) (order : Order) : Prop where
  side : order.side = if order.orderId % 2 = 0 then .buy else .sell
  client : order.clientId = 1 + order.orderId % clients
  price : 99000 ≤ order.price ∧ order.price ≤ 101000
  patient : order.tif = .gtc
  tag : order.eventTag = .newOrCancel

theorem Order.Synthetic.message {clients : UInt64} {order : Order}
    (synthetic : order.Synthetic clients) (positive : 0 < order.qty) :
    order.message = .new order := by
  have nonzero : order.qty ≠ 0 := (UInt32.ne_of_lt positive).symm
  rw [Order.message, if_neg, if_neg]
  · simp [Order.isReplace, synthetic.tag]
  · simp [Order.isCancel, nonzero]

theorem mod_two_eq {clients left right : UInt64} (even : clients % 2 = 0)
    (same : left % clients = right % clients) : left % 2 = right % 2 := by
  have divides : 2 ∣ clients.toNat := by
    have evenNat := congrArg UInt64.toNat even
    rw [UInt64.toNat_mod] at evenNat
    exact Nat.dvd_of_mod_eq_zero evenNat
  have sameNat := congrArg UInt64.toNat same
  rw [UInt64.toNat_mod, UInt64.toNat_mod] at sameNat
  apply UInt64.toNat_inj.mp
  rw [UInt64.toNat_mod, UInt64.toNat_mod]
  calc left.toNat % 2
      = left.toNat % clients.toNat % 2 :=
        (Nat.mod_mod_of_dvd _ divides).symm
    _ = right.toNat % clients.toNat % 2 := by rw [sameNat]
    _ = right.toNat % 2 := Nat.mod_mod_of_dvd _ divides

/-- An even number of clients that take turns never meet themselves. -/
theorem Order.Synthetic.apart {clients : UInt64} {left right : Order}
    (even : clients % 2 = 0) (leftSynthetic : left.Synthetic clients)
    (rightSynthetic : right.Synthetic clients)
    (opposite : left.side = right.side.opposite) :
    left.clientId ≠ right.clientId := by
  intro same
  rw [leftSynthetic.client, rightSynthetic.client, UInt64.add_right_inj]
    at same
  have parity := mod_two_eq even same
  have sides : left.side = right.side := by
    rw [leftSynthetic.side, rightSynthetic.side, parity]
  exact right.side.opposite_ne (opposite.symm.trans sides)

namespace Market

variable {market next : Market} {incoming : Order} {terms : Order → Prop}

/-- All resting orders have the terms. -/
def Upholds (terms : Order → Prop) (market : Market) : Prop :=
  ∀ order, market.Rests order → terms order

/-- The terms do not depend on the quantity. -/
def Lasting (terms : Order → Prop) : Prop :=
  ∀ order qty, terms order → terms { order with qty }

theorem empty_upholds (terms : Order → Prop) : empty.Upholds terms := by
  intro order rests
  have impossible : order ∈ empty.orders order.side := rests
  simp [orders, empty] at impossible

theorem Upholds.changed (upholds : market.Upholds terms)
    (lasting : Lasting terms) (changed : market.Changed next) :
    next.Upholds terms := by
  intro order rests
  obtain ⟨old, oldRests, same, _⟩ := changed.rests rests
  rw [same]
  exact lasting old order.qty (upholds old oldRests)

theorem Upholds.moves (upholds : market.Upholds terms)
    (lasting : Lasting terms) (moves : Moves incoming market next)
    (submitted : terms incoming) : next.Upholds terms := by
  cases moves with
  | settled changed => exact upholds.changed lasting changed
  | @arrived swept qty changed =>
      intro order rests
      rcases rests_insert.mp rests with old | rfl
      · exact upholds.changed lasting changed order old
      · exact lasting incoming qty submitted

/-- A match skips no order if the client of the incoming one has none on the
other side. -/
theorem matchOrder_skips (valid : market.Valid)
    (few : market.orderCount < 2 ^ 32) (mode : MatchingMode)
    (apart : ∀ order ∈ market.orders incoming.side.opposite,
      order.clientId ≠ incoming.clientId) :
    (market.matchOrder sizes mode incoming).stats.selfTradeSkips = 0 := by
  rw [matchOrder]
  split
  · rfl
  · apply UInt32.toNat_inj.mp
    rw [(commitMatch_counts valid few mode incoming).selfTrades]
    rw [List.filter_eq_nil_iff.mpr]
    · rfl
    · intro order visited
      simpa using apart order (visited_orders.subset visited)

end Market

/-- The message is a new order with the terms. -/
def Message.Submits (terms : Order → Prop) : Message → Prop
  | new incoming => terms incoming
  | replace _ _ _ | cancel _ | setMode _ => False

/-- What every message of a list keeps, the list keeps. -/
theorem Venue.afterAll_keeps {venue : Venue} {property : Market → Prop}
    {messages : List Message}
    (each : ∀ message ∈ messages, ∀ venue : Venue, venue.market.Sound →
      property venue.market → property (venue.after sizes message.call).market)
    (sound : venue.market.Sound) (holds : property venue.market) :
    property (venue.afterAll sizes messages).market := by
  induction messages generalizing venue with
  | nil => exact holds
  | cons message rest induction =>
      refine induction
        (fun other member => each other (List.mem_cons_of_mem _ member))
        (Venue.after_sound sound message.call_trades) ?_
      exact each message List.mem_cons_self venue sound holds

theorem Venue.afterAll_upholds {venue : Venue} {terms : Order → Prop}
    (lasting : Market.Lasting terms) {messages : List Message}
    (submits : ∀ message ∈ messages, message.Submits terms)
    (sound : venue.market.Sound) (upholds : venue.market.Upholds terms) :
    (venue.afterAll sizes messages).market.Upholds terms := by
  refine Venue.afterAll_keeps ?_ sound upholds
  intro message member venue sound upholds
  have submitted := submits message member
  cases message with
  | new incoming =>
      exact upholds.moves lasting
        (Market.matchOrder_moves venue.mode incoming sound.toValid) submitted
  | cancel | replace | setMode => exact submitted.elim

/-- Synthetic orders with positive quantities. -/
def Live (clients : UInt64) (orders : List Order) : Prop :=
  ∀ order ∈ orders, order.Synthetic clients ∧ 0 < order.qty

theorem Live.submits {clients : UInt64} {orders : List Order}
    (live : Live clients orders) :
    ∀ message ∈ orders.map Order.message, message.Submits fun order =>
      order.Synthetic clients ∧ order.orderId ∈ orders.map Order.orderId := by
  intro message member
  obtain ⟨order, submitted, rfl⟩ := List.mem_map.mp member
  obtain ⟨synthetic, positive⟩ := live order submitted
  rw [synthetic.message positive]
  exact ⟨synthetic, List.mem_map_of_mem submitted⟩

theorem lasting_synthetic (clients : UInt64) (ids : List UInt64) :
    Market.Lasting fun order =>
      order.Synthetic clients ∧ order.orderId ∈ ids := by
  rintro order qty ⟨⟨side, client, price, patient, tag⟩, member⟩
  exact ⟨⟨side, client, price, patient, tag⟩, member⟩

/-- The matcher after some live orders. -/
theorem Live.measured {clients : UInt64} {front : List Order}
    (live : Live clients front) (mode : MatchingMode) :
    ∃ samples, ∃ matcher : Matcher sizes,
      (Matcher.start mode).measure front = .ok (samples, matcher) ∧
      matcher.book.WellFormed ∧
      matcher.book.view.Upholds fun other =>
        other.Synthetic clients ∧
          other.orderId ∈ front.map Order.orderId := by
  obtain ⟨matcher, measured, wellFormed, venue⟩ :=
    Matcher.measure_spec (@Matcher.start_wellFormed sizes mode) front
  refine ⟨_, matcher, measured, wellFormed, ?_⟩
  have sound : (Venue.start mode).market.Sound := Market.empty_sound
  have upholds := @Venue.afterAll_upholds sizes _ _
    (lasting_synthetic clients (front.map Order.orderId)) _ live.submits sound
    (Market.empty_upholds _)
  rw [Matcher.start_venue] at venue
  have view : matcher.book.view =
      ((Venue.start mode).afterOrders sizes front).market :=
    congrArg Venue.market venue
  rw [view]
  exact upholds

/-- A live order meets none of its client. -/
theorem Order.Synthetic.skips {clients : UInt64} {matcher : Matcher sizes}
    {ids : List UInt64} {order : Order} (even : clients % 2 = 0)
    (wellFormed : matcher.book.WellFormed)
    (upholds : matcher.book.view.Upholds fun other =>
      other.Synthetic clients ∧ other.orderId ∈ ids)
    (synthetic : order.Synthetic clients) (positive : 0 < order.qty) :
    ∃ result, matcher.process order = .ok result ∧
      result.stats.selfTradeSkips = 0 := by
  obtain ⟨result, processed, _, _, stats⟩ :=
    Matcher.process_spec wellFormed order
  obtain ⟨layout, settled⟩ := wellFormed
  have few : matcher.book.view.orderCount < 2 ^ 32 :=
    Nat.lt_of_le_of_lt settled.orderCount_le sizes.orders_lt
  refine ⟨result, processed, ?_⟩
  rw [stats, synthetic.message positive]
  refine Market.matchOrder_skips settled.view_valid few _ ?_
  intro other member
  obtain ⟨rests, side⟩ := settled.view_valid.mem_orders_iff.mp member
  exact (upholds other rests).1.apart even synthetic side

theorem findOrder_of_upholds {matcher : Matcher sizes}
    {terms : Order → Prop} {ids : List UInt64} {orderId : UInt64}
    (wellFormed : matcher.book.WellFormed)
    (upholds : matcher.book.view.Upholds fun other =>
      terms other ∧ other.orderId ∈ ids)
    (unused : orderId ∉ ids) : matcher.book.findOrder orderId = none := by
  obtain ⟨layout, settled⟩ := wellFormed
  have absent : matcher.book.view.find? orderId = none := by
    apply settled.view_valid.find?_eq_none_iff.mpr
    intro other rests same
    exact unused (same ▸ (upholds other rests).2)
  rw [settled.find?_view] at absent
  exact Option.map_eq_none_iff.mp absent

namespace RxThread

/-- The orders that the thread has produced are numbered from one on. -/
structure Numbered (thread : RxThread) (record : Handover.Record Order) :
    Prop where
  next : thread.nextOrderId = .ofNat (record.taken.length + 1)
  taken : ∀ (place : Nat) (produced : Order),
    record.taken[place]? = some produced →
      produced.orderId = .ofNat (place + 1) ∧
        produced.Synthetic kSyntheticClientCount ∧ 0 < produced.qty

theorem start_numbered : start.Numbered .empty where
  next := rfl
  taken := nofun

theorem Numbered.silent {thread next : RxThread}
    {record later : Handover.Record Order} (numbered : thread.Numbered record)
    (same : next.nextOrderId = thread.nextOrderId)
    (taken : later.taken = record.taken) : next.Numbered later where
  next := by rw [same, taken, numbered.next]
  taken := by
    rw [taken]
    exact numbered.taken

theorem order_synthetic (orderId : UInt64) {price : Int64} {qty : UInt32}
    (timestampNs : UInt64) (drawn : 99000 ≤ price ∧ price ≤ 101000) :
    (order orderId price qty timestampNs).Synthetic kSyntheticClientCount where
  side := rfl
  client := rfl
  price := drawn
  patient := rfl
  tag := rfl

theorem Step.numbered {stopped : Bool} {thread next : RxThread}
    {event : IngestEvent} {record : Handover.Record Order}
    (taken : Step stopped thread event next)
    (numbered : thread.Numbered record) :
    next.Numbered (record.add event.handover) := by
  cases taken with
  | exit | pushed | dropped => exact numbered.silent rfl rfl
  | attempt pushing taken =>
      cases taken with
      | again | giveUp | accepted | refused => exact numbered.silent rfl rfl
  | @produce price qty timestampNs looping go priceDrawn qtyDrawn =>
      let produced := order thread.nextOrderId price qty timestampNs
      change Numbered _ { record with taken := record.taken ++ [produced] }
      constructor
      case next =>
        rw [List.length_append, List.length_singleton, ← counter_succ,
          ← numbered.next]
      case taken =>
        intro place order found
        rcases Nat.lt_trichotomy place record.taken.length with
          earlier | rfl | beyond
        · rw [List.getElem?_append_left earlier] at found
          exact numbered.taken place order found
        · rw [List.getElem?_concat_length] at found
          obtain rfl := Option.some.inj found
          refine ⟨numbered.next, order_synthetic _ _ priceDrawn, ?_⟩
          exact UInt32.lt_of_lt_of_le (by decide) qtyDrawn.1
        · rw [List.getElem?_eq_none] at found
          · cases found
          · rw [List.length_append]
            exact beyond

end RxThread

namespace Pipeline

variable {size : Nat} {mode : MatchingMode} {matcher : Matcher sizes}
variable {state : Pipeline RxThread sizes size} {delivery : Delivery}

theorem rx_numbered
    (reachable : (pipeline rxThread matcher size).Reachable (state, delivery)) :
    state.producer.Numbered delivery.ingest := by
  refine producer_invariant RxThread.Numbered RxThread.start_numbered ?_
    reachable
  intro stopped program event next record held taken
  exact taken.numbered held

theorem rx_applied
    (reachable : (pipeline rxThread matcher size).Reachable (state, delivery))
    (few : delivery.ingest.taken.length < 2 ^ 64) :
    Live RxThread.kSyntheticClientCount delivery.applied ∧
      (delivery.applied.map Order.orderId).Nodup := by
  have numbered := rx_numbered reachable
  obtain ⟨applied, ordered, genuine, _⟩ := delivered reachable
  constructor
  · intro order member
    obtain ⟨entry, passed, rfl⟩ := List.mem_map.mp (applied.subset member)
    exact (numbered.taken _ _ (genuine entry passed)).2
  · apply List.Nodup.sublist (applied.sublist.map Order.orderId)
    rw [List.map_map, List.Nodup, List.pairwise_map]
    refine List.Pairwise.imp_of_mem ?_ (List.pairwise_map.mp ordered)
    intro left right leftPassed rightPassed before same
    have leftGenuine := genuine left leftPassed
    have rightGenuine := genuine right rightPassed
    have leftPlace := (List.getElem?_eq_some_iff.mp leftGenuine).1
    have rightPlace := (List.getElem?_eq_some_iff.mp rightGenuine).1
    change left.2.orderId = right.2.orderId at same
    rw [(numbered.taken _ _ leftGenuine).1,
      (numbered.taken _ _ rightGenuine).1, ← UInt64.toNat_inj,
      UInt64.toNat_ofNat_of_lt' (Nat.lt_of_le_of_lt leftPlace few),
      UInt64.toNat_ofNat_of_lt' (Nat.lt_of_le_of_lt rightPlace few)] at same
    exact Nat.ne_of_lt before (Nat.succ_inj.mp same)

/-- The prices of live orders. -/
def livePrices : Finset Int64 :=
  (Finset.range 2001).image fun tick : Nat => Int64.ofInt (99000 + tick)

theorem mem_livePrices {price : Int64}
    (drawn : 99000 ≤ price ∧ price ≤ 101000) : price ∈ livePrices := by
  have low : (99000 : Int) ≤ price.toInt := Int64.le_iff_toInt_le.mp drawn.1
  have high : price.toInt ≤ 101000 := Int64.le_iff_toInt_le.mp drawn.2
  refine Finset.mem_image.mpr ⟨(price.toInt - 99000).toNat, ?_, ?_⟩
  · rw [Finset.mem_range]
    omega
  · rw [Int.toNat_of_nonneg (by omega), add_sub_cancel]
    exact Int64.ofInt_toInt price

theorem measure_run {matcher final : Matcher sizes} {orders : List Order}
    {samples : List LatencySample}
    (measured : matcher.measure orders = .ok (samples, final)) :
    matcher.run (orders.map dispatch) = .ok final := by
  induction orders generalizing matcher samples with
  | nil =>
      cases measured
      rfl
  | cons order rest induction =>
      rw [Matcher.measure] at measured
      rw [List.map_cons, Matcher.run, List.foldlM_cons, Matcher.process_apply]
      cases processed : matcher.process order with
      | error fault =>
          rw [processed] at measured
          cases measured
      | ok result =>
          rw [processed, ok_bind] at measured
          cases later : result.matcher.measure rest with
          | error fault =>
              rw [later] at measured
              cases measured
          | ok last =>
              rw [later] at measured
              cases measured
              exact induction later

theorem rx_levels
    (reachable : (pipeline rxThread (.start mode : Matcher sizes)
      size).Reachable (state, delivery))
    (few : delivery.ingest.taken.length < 2 ^ 64)
    (levels : 2001 ≤ sizes.levels) :
    state.context.matcher.book.levelPool.exhaustionCount = 0 := by
  have book := (delivered reachable).book
  have live := (rx_applied reachable few).1
  obtain ⟨final, measured, _⟩ := Matcher.measure_spec
    (@Matcher.start_wellFormed sizes mode) delivery.applied
  have ran := measure_run measured
  rw [book] at ran
  obtain rfl := Except.ok.inj ran
  obtain ⟨responses, replayed⟩ := Matcher.measure_replay measured
  obtain ⟨other, again, _, levelCount⟩ := Matcher.replay_shortages
    (@Matcher.start_wellFormed sizes mode)
    (delivery.applied.map Order.message)
  rw [replayed] at again
  obtain ⟨_, rfl⟩ := Prod.mk.inj (Except.ok.inj again)
  have within : ∀ message ∈ delivery.applied.map Order.message,
      message.Within Set.univ livePrices := by
    intro message member
    obtain ⟨order, submitted, rfl⟩ := List.mem_map.mp member
    obtain ⟨synthetic, positive⟩ := live order submitted
    rw [synthetic.message positive]
    exact fun _ => ⟨trivial, mem_livePrices synthetic.price⟩
  have enough : livePrices.card ≤ sizes.levels := by
    refine Finset.card_image_le.trans ?_
    rw [Finset.card_range]
    exact levels
  have sound : (Venue.start mode).market.Sound := Market.empty_sound
  have confined : (Venue.start mode).market.Confined Set.univ livePrices :=
    Market.empty_confined _ _
  rw [levelCount, Matcher.start_venue]
  change (0 : UInt64) + .ofNat (Venue.shortages sizes .levels
    (Venue.start mode) _) = 0
  rw [Venue.shortages_levels enough within sound confined]
  rfl

/-- Whatever is drawn and however the threads interleave, every order that the
live pipeline applies is new, no resting order is skipped for it as one of the
same client, and the levels are never exhausted, if there are as many as
prices. -/
theorem rx_session
    (reachable : (pipeline rxThread (.start mode : Matcher sizes)
      size).Reachable (state, delivery))
    (few : delivery.ingest.taken.length < 2 ^ 64) :
    (2001 ≤ sizes.levels →
      state.context.matcher.book.levelPool.exhaustionCount = 0) ∧
    ∀ front order back, delivery.applied = front ++ order :: back →
      ∃ samples, ∃ matcher : Matcher sizes, ∃ result,
        (Matcher.start mode).measure front = .ok (samples, matcher) ∧
        matcher.book.findOrder order.orderId = none ∧
        matcher.process order = .ok result ∧
        result.stats.selfTradeSkips = 0 := by
  refine ⟨rx_levels reachable few, ?_⟩
  intro front order back applied
  obtain ⟨live, distinct⟩ := rx_applied reachable few
  rw [applied] at live distinct
  have earlier : Live RxThread.kSyntheticClientCount front :=
    fun other member => live other (List.mem_append_left _ member)
  obtain ⟨synthetic, positive⟩ :=
    live order (List.mem_append_right _ List.mem_cons_self)
  obtain ⟨samples, matcher, measured, wellFormed, upholds⟩ :=
    @Live.measured sizes _ _ earlier mode
  obtain ⟨result, processed, skips⟩ :=
    synthetic.skips rfl wellFormed upholds positive
  rw [List.map_append, List.map_cons] at distinct
  have unused : order.orderId ∉ front.map Order.orderId := fun member =>
    (List.nodup_append.mp distinct).2.2 _ member _ List.mem_cons_self rfl
  exact ⟨samples, matcher, result, measured,
    findOrder_of_upholds wellFormed upholds unused, processed, skips⟩

/-- What is in the queue is applied, while the producer stands still. -/
theorem quiet_drains {Program : Type} {thread : ProducerThread Program}
    {producer : Program} {current : Matcher sizes} {items : List Order}
    (wellFormed : current.book.WellFormed)
    (reachable : (pipeline thread matcher size).Reachable
      (quiet items current producer, delivery)) :
    ∃ final : Matcher sizes, (pipeline thread matcher size).Reachable
      (quiet [] final producer,
        { delivery with applied := delivery.applied ++ items }) := by
  induction items generalizing current delivery with
  | nil =>
      rw [List.append_nil]
      exact ⟨current, reachable⟩
  | cons order items induction =>
      obtain ⟨result, processed, nextFormed, _⟩ :=
        Matcher.process_spec wellFormed order
      rw [List.append_cons]
      exact induction nextFormed (quiet_serves reachable processed)

/-- A buy order meets a sell order of another client, on the pools of the
benchmark. -/
theorem rx_session_traded :
    ∃ (state : Pipeline RxThread configSizes 4) (delivery : Delivery),
      (pipeline rxThread (Matcher.start .priceTime) 4).Reachable
        (state, delivery) ∧
      delivery.applied = [sessionSell, sessionBuy] ∧
      state.context.matcher.book.levelPool.exhaustionCount = 0 ∧
      ∃ samples, ∃ matcher : Matcher configSizes, ∃ result,
        (Matcher.start .priceTime).measure [sessionSell] =
          .ok (samples, matcher) ∧
        matcher.process sessionBuy = .ok result ∧
        result.stats.selfTradeSkips = 0 ∧
        result.stats.fillsGenerated = 1 := by
  have start := @quiet_start configSizes 4 _ rxThread (.start .priceTime)
  have first := rx_pushed start rfl (by decide) 100000 5 7 (by decide)
    (by decide)
  have second := rx_pushed first rfl (by decide) 100000 3 8 (by decide)
    (by decide)
  obtain ⟨_, drained⟩ := quiet_drains (Matcher.start_wellFormed _) second
  obtain ⟨levels, each⟩ := rx_session drained (by decide)
  obtain ⟨samples, matcher, result, measured, _, processed, skips⟩ :=
    each [sessionSell] sessionBuy [] rfl
  refine ⟨_, _, drained, rfl, levels (by decide), samples, matcher, result,
    measured, processed, skips, ?_⟩
  rw [Matcher.measured_stats measured processed]
  decide +kernel

end Pipeline

end Hydra
