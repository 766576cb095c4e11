import Hydra.Dataset.Prices
import Hydra.Dataset.Replay
import Hydra.Pipeline.Sequential
import Hydra.Runs.Capacity
import Mathlib.Data.Finset.Card

/-!
# Trading generated datasets

The messages of a generated dataset, matched one after the other from an empty
book, at whatever times they are pushed.  New orders have new ids, so that none
is refused for its id; cancels and replaces name orders that were submitted to
stay; and a narrow spread of prices never exhausts the levels.
-/

namespace Hydra

/-- The messages of the events, pushed at the times. -/
def pushedAt (events : List DatasetEvent) (times : List UInt64) : List Order :=
  List.zipWith encodeAsQueueOrder events times

/-- A new order whose id is not in the book, or a message that names an order
submitted before, to stay. -/
def Message.Expected {sizes : PoolSizes} (book : OrderBook sizes)
    (before : List Message) : Message → Prop
  | new incoming => book.findOrder incoming.orderId = none
  | cancel orderId | replace orderId _ _ => ∃ order,
      .new order ∈ before ∧ order.tif = .gtc ∧ order.orderId = orderId
  | setMode _ => False

section Messages

variable {event : DatasetEvent} {t1Ns : UInt64}

theorem message_newOrder (isNew : event.type = .newOrder)
    (positive : 0 < event.order.qty) :
    (encodeAsQueueOrder event t1Ns).message =
      .new { event.order with
        eventTag := .newOrCancel
        timestampNs := t1Ns } := by
  have encoded : encodeAsQueueOrder event t1Ns =
      { event.order with eventTag := .newOrCancel, timestampNs := t1Ns } := by
    rw [encodeAsQueueOrder, isNew]
  have nonzero : event.order.qty ≠ 0 := (UInt32.ne_of_lt positive).symm
  rw [encoded, Order.message, if_neg, if_neg]
  · simp [Order.isReplace]
  · simp [Order.isCancel, nonzero]

theorem message_cancel (isCancel : event.type = .cancel) :
    (encodeAsQueueOrder event t1Ns).message = .cancel event.cancelOrderId := by
  rw [encodeAsQueueOrder, isCancel]
  rfl

theorem message_replace (isReplace : event.type = .replace) :
    (encodeAsQueueOrder event t1Ns).message =
      .replace event.cancelOrderId event.order.price event.order.qty := by
  rw [encodeAsQueueOrder, isReplace]
  rfl

end Messages

section Within

variable {events : List DatasetEvent} {times : List UInt64}
variable {ids : Set UInt64} {prices : Set Int64}

/-- New orders have quantities. -/
def Weighted (events : List DatasetEvent) : Prop :=
  ∀ order ∈ newOrders events, 0 < order.qty

theorem mem_newOrders {event : DatasetEvent} (member : event ∈ events)
    (isNew : event.type = .newOrder) : event.order ∈ newOrders events :=
  List.mem_map_of_mem (List.mem_filter.mpr ⟨member, decide_eq_true isNew⟩)

theorem mem_pushedAt {event : DatasetEvent} (member : event ∈ events)
    (lengths : events.length = times.length) :
    ∃ time, encodeAsQueueOrder event time ∈ pushedAt events times := by
  obtain ⟨index, inside, rfl⟩ := List.mem_iff_getElem.mp member
  have timed : index < times.length := lengths ▸ inside
  have pushed : index < (pushedAt events times).length := by
    rw [pushedAt, List.length_zipWith]
    exact Nat.lt_min.mpr ⟨inside, timed⟩
  refine ⟨times[index], List.mem_iff_getElem.mpr ⟨index, pushed, ?_⟩⟩
  exact List.getElem_zipWith

theorem pushedAt_within (weighted : Weighted events)
    (named : ∀ order ∈ newOrders events, order.tif = .gtc →
      order.orderId ∈ ids)
    (priced : ∀ event ∈ events, event.type ≠ .cancel →
      event.order.price ∈ prices) :
    ∀ message ∈ (pushedAt events times).map Order.message,
      message.Within ids prices := by
  intro message member
  obtain ⟨order, pushed, rfl⟩ := List.mem_map.mp member
  obtain ⟨event, found, time, rfl⟩ : ∃ event ∈ events, ∃ time,
      order = encodeAsQueueOrder event time := by
    rw [pushedAt, ← List.map_uncurry_zip_eq_zipWith] at pushed
    obtain ⟨pair, zipped, rfl⟩ := List.mem_map.mp pushed
    exact ⟨pair.1, (List.of_mem_zip zipped).1, pair.2, rfl⟩
  cases kind : event.type with
  | newOrder =>
      have issued := mem_newOrders found kind
      rw [message_newOrder kind (weighted _ issued)]
      intro patient
      exact ⟨named event.order issued patient,
        priced event found (by simp [kind])⟩
  | cancel =>
      rw [message_cancel kind]
      trivial
  | replace =>
      rw [message_replace kind]
      exact priced event found (by simp [kind])

theorem pushedAt_confined {sizes : PoolSizes} {venue : Venue}
    {messages : List Message}
    (within : ∀ message ∈ messages, message.Within ids prices)
    (sound : venue.market.Sound)
    (confined : venue.market.Confined ids prices) :
    (venue.afterAll sizes messages).market.Confined ids prices := by
  induction messages generalizing venue with
  | nil => exact confined
  | cons message rest induction =>
      exact induction
        (fun other member => within other (List.mem_cons_of_mem _ member))
        (Venue.after_sound sound message.call_trades)
        (Venue.after_confined sound confined
          (within message List.mem_cons_self))

end Within

section Engine

variable {sizes : PoolSizes} {events : List DatasetEvent}
variable {times : List UInt64} {front back : List Order} {order : Order}

/-- In a consistent dataset no new order is refused for its id, and cancels and
replaces name orders that were submitted to stay. -/
theorem SelfConsistent.expected (consistent : SelfConsistent events)
    (weighted : Weighted events) (mode : MatchingMode)
    (pushed : pushedAt events times = front ++ order :: back) :
    ∃ samples, ∃ matcher : Matcher sizes,
      (Matcher.start mode).measure front = .ok (samples, matcher) ∧
      order.message.Expected matcher.book (front.map Order.message) := by
  obtain ⟨matcher, measured, ⟨layout, settled⟩, venue⟩ :=
    Matcher.measure_spec (@Matcher.start_wellFormed sizes mode) front
  refine ⟨_, matcher, measured, ?_⟩
  rw [pushedAt, List.zipWith_eq_append_iff] at pushed
  obtain ⟨before, rest, beforeTimes, restTimes, lengths, split, _, frontEq,
    restEq⟩ := pushed
  obtain ⟨event, after, time, _, rfl, rfl, rfl, _⟩ :=
    List.zipWith_eq_cons_iff.mp restEq.symm
  have weightedBefore : Weighted before := by
    intro order member
    refine weighted order ?_
    rw [split, newOrders_append]
    exact List.mem_append_left _ member
  have referred : event.type ≠ .newOrder → ∃ order : Order,
      .new order ∈ front.map Order.message ∧ order.tif = .gtc ∧
        order.orderId = event.cancelOrderId := by
    intro notNew
    obtain ⟨⟨submitted, member, patient, same⟩, _⟩ :=
      consistent.named before event after split notNew
    have positive := weightedBefore submitted member
    obtain ⟨earlier, kept, rfl⟩ := List.mem_map.mp member
    obtain ⟨inside, isNew⟩ := List.mem_filter.mp kept
    obtain ⟨earlierTime, pushed⟩ := mem_pushedAt inside lengths
    have sent := @message_newOrder earlier earlierTime
      (of_decide_eq_true isNew) positive
    refine ⟨{ earlier.order with
      eventTag := .newOrCancel
      timestampNs := earlierTime }, ?_, patient, same⟩
    rw [frontEq, ← sent]
    exact List.mem_map_of_mem pushed
  cases kind : event.type with
  | cancel =>
      rw [message_cancel kind]
      exact referred (by simp [kind])
  | replace =>
      rw [message_replace kind]
      exact referred (by simp [kind])
  | newOrder =>
      have issued : event.order ∈ newOrders events := by
        refine mem_newOrders ?_ kind
        rw [split]
        exact List.mem_append_right _ List.mem_cons_self
      rw [message_newOrder kind (weighted _ issued)]
      -- The orders that rest have ids that were issued before.
      let ids : Set UInt64 :=
        { id | ∃ order ∈ newOrders before, order.orderId = id }
      have within := @pushedAt_within before beforeTimes ids Set.univ
        weightedBefore (fun order member _ => ⟨order, member, rfl⟩)
        (fun _ _ _ => trivial)
      have start : (Matcher.start mode : Matcher sizes).venue.market =
          .empty := by
        rw [Matcher.start_venue]
      have confined : matcher.venue.market.Confined ids Set.univ := by
        rw [venue, Venue.afterOrders, frontEq]
        refine pushedAt_confined within ?_ ?_
        · rw [start]
          exact Market.empty_sound
        · rw [start]
          exact Market.empty_confined _ _
      have unused : event.order.orderId ∉ ids := by
        rintro ⟨earlier, member, same⟩
        have whole : SelfConsistent ((before ++ [event]) ++ after) := by
          rw [List.append_assoc, List.singleton_append, ← split]
          exact consistent
        have front := whole.of_append
        have numbered := front.numbered
        rw [newOrders_concat kind] at numbered
        obtain ⟨earlierNumbered, number⟩ := numbered_concat.mp numbered
        have count := length_newOrders_le before
        have few := front.few
        rw [List.length_append, List.length_singleton] at few
        exact fresh_of_numbered earlierNumbered (by omega) earlier member
          (same.trans number)
      have absent : matcher.book.view.find? event.order.orderId = none := by
        apply settled.view_valid.find?_eq_none_iff.mpr
        intro order rests same
        exact unused (same ▸ confined.named order rests)
      rw [settled.find?_view] at absent
      exact Option.map_eq_none_iff.mp absent

end Engine

section Generate

variable {float : FloatingPoint} {config : DatasetConfig}

theorem generate_weighted (checked : config.Checked float)
    {draws : RandomDraws float.Double} {events : List DatasetEvent}
    (returned : (generate float config draws).result = .ok events) :
    Weighted events := by
  obtain ⟨_, rfl⟩ := generate_throws.of_ok returned
  intro order member
  have issued := (generated_consistent checked draws).issued order member
  exact UInt32.lt_of_lt_of_le checked.minQty issued.minQty

/-- Whatever is drawn, and whenever the messages are pushed, no new order is
refused for its id, and cancels and replaces name orders that were submitted to
stay. -/
theorem generated_expected (accepted : config.Accepted float)
    {draws : RandomDraws float.Double} {events : List DatasetEvent}
    (returned : (generate float config draws).result = .ok events)
    (sizes : PoolSizes) (mode : MatchingMode) {times : List UInt64}
    {front back : List Order} {order : Order}
    (pushed : pushedAt events times = front ++ order :: back) :
    ∃ samples, ∃ matcher : Matcher sizes,
      (Matcher.start mode).measure front = .ok (samples, matcher) ∧
      order.message.Expected matcher.book (front.map Order.message) :=
  (generate_selfConsistent accepted.checked returned).expected
    (generate_weighted accepted.checked returned) mode pushed

/-- Three events, and every order is cancelled at once. -/
def hastyConfig : DatasetConfig :=
  { steadyConfig with orderCount := 3, cancelRatio := 0x3FE0000000000000 }

theorem hastyConfig_accepted : hastyConfig.Accepted finiteDoubles :=
  (constructGenerator_throws finiteDoubles hastyConfig).accepts
    (by decide +kernel)

def hastyOrder (orderId timestampNs clientId : UInt64) : Order :=
  { (default : Order) with
    orderId
    timestampNs
    clientId
    price := 99950
    qty := 1 }

def hastyCancel (orderId timestampNs : UInt64) : Order :=
  { (default : Order) with orderId, timestampNs }

theorem hastyConfig_generate (draws : RandomDraws finiteDoubles.Double) :
    (generate finiteDoubles hastyConfig draws).result =
      .ok (generated finiteDoubles hastyConfig draws).events :=
  generate_throws.accepts (by decide)

theorem hastyConfig_pushed :
    pushedAt (generated finiteDoubles hastyConfig
        (.lowest finiteDoubles.zero)).events [5, 7, 9] =
      [hastyOrder 1 5 2, hastyCancel 1 7] ++ hastyOrder 2 9 3 :: [] := by
  decide +kernel

theorem generated_expected_hasty :
    ∃ samples, ∃ matcher : Matcher configSizes,
      (Matcher.start .priceTime).measure
        [hastyOrder 1 5 2, hastyCancel 1 7] = .ok (samples, matcher) ∧
      (hastyOrder 2 9 3).message.Expected matcher.book
        [.new (hastyOrder 1 5 2), .cancel 1] :=
  generated_expected hastyConfig_accepted
    (hastyConfig_generate (.lowest finiteDoubles.zero)) configSizes .priceTime
    hastyConfig_pushed

/-- The prices that the spread allows, from the lowest one on. -/
def DatasetConfig.priceRange (config : DatasetConfig) : Finset Int64 :=
  (Finset.range (2 * config.priceSpreadTicks.toInt + 1).toNat).image
    fun tick : Nat => Int64.ofInt
      (config.midPrice.toInt - config.priceSpreadTicks.toInt + tick)

theorem DatasetConfig.card_priceRange (config : DatasetConfig) :
    config.priceRange.card ≤ (2 * config.priceSpreadTicks.toInt + 1).toNat := by
  refine Finset.card_image_le.trans ?_
  rw [Finset.card_range]

theorem DatasetConfig.Allows.mem {price : Int64}
    (allowed : config.Allows price) : price ∈ config.priceRange := by
  obtain ⟨low, high⟩ := allowed
  let lowest := config.midPrice.toInt - config.priceSpreadTicks.toInt
  refine Finset.mem_image.mpr ⟨(price.toInt - lowest).toNat, ?_, ?_⟩
  · rw [Finset.mem_range]
    omega
  · rw [Int.toNat_of_nonneg (by omega), add_sub_cancel]
    exact Int64.ofInt_toInt price

/-- When the spread allows no more prices than there are levels, no message of
the dataset exhausts the levels; and when there are as many order slots as
events, none exhausts the orders. -/
theorem generated_capacity (accepted : config.Accepted float)
    (spread : 0 ≤ config.priceSpreadTicks) (inRange : config.InRange)
    {sizes : PoolSizes}
    (narrow : 2 * config.priceSpreadTicks.toInt + 1 ≤ sizes.levels)
    {draws : RandomDraws float.Double} {events : List DatasetEvent}
    (returned : (generate float config draws).result = .ok events)
    (mode : MatchingMode) (times : List UInt64) :
    ∃ samples, ∃ final : Matcher sizes,
      (Matcher.start mode).measure (pushedAt events times) =
        .ok (samples, final) ∧
      final.book.levelPool.exhaustionCount = 0 ∧
      (config.orderCount.toNat ≤ sizes.orders →
        final.book.orderPool.exhaustionCount = 0) := by
  have checked := accepted.checked
  have weighted := generate_weighted checked returned
  obtain ⟨_, rfl⟩ := generate_throws.of_ok returned
  have defined := (GeneratorState.defined_afterRounds checked spread
    (fun _ => inRange) draws : GeneratorState.Defined config
      (generated float config draws))
  let ids : Finset UInt64 :=
    ((newOrders (generated float config draws).events).map
      Order.orderId).toFinset
  have within := @pushedAt_within (generated float config draws).events times
    ids config.priceRange weighted
    (fun order member _ => List.mem_toFinset.mpr (List.mem_map_of_mem member))
    (fun event member notCancel =>
      (defined.prices event member notCancel).mem)
  have few : ids.card ≤ config.orderCount.toNat := by
    have consistent := generated_consistent checked draws
    calc ids.card
        ≤ ((newOrders (generated float config draws).events).map
            Order.orderId).length := List.toFinset_card_le _
      _ = (newOrders (generated float config draws).events).length :=
          List.length_map _
      _ ≤ (generated float config draws).events.length :=
          length_newOrders_le _
      _ = config.orderCount.toNat := consistent.length
  have levels : config.priceRange.card ≤ sizes.levels := by
    refine config.card_priceRange.trans ?_
    omega
  have sound : (Venue.start mode).market.Sound := Market.empty_sound
  have confined : (Venue.start mode).market.Confined ids config.priceRange :=
    Market.empty_confined _ _
  obtain ⟨final, measured, _⟩ := Matcher.measure_spec
    (@Matcher.start_wellFormed sizes mode)
    (pushedAt (generated float config draws).events times)
  obtain ⟨responses, replayed⟩ := Matcher.measure_replay measured
  obtain ⟨other, ran, orderCount, levelCount⟩ := Matcher.replay_shortages
    (@Matcher.start_wellFormed sizes mode)
    ((pushedAt (generated float config draws).events times).map Order.message)
  rw [replayed] at ran
  obtain ⟨_, rfl⟩ := Prod.mk.inj (Except.ok.inj ran)
  rw [Matcher.start_venue] at orderCount levelCount
  refine ⟨_, final, measured, ?_, ?_⟩
  · rw [levelCount]
    change (0 : UInt64) + .ofNat (Venue.shortages sizes .levels
      (Venue.start mode) _) = 0
    rw [Venue.shortages_levels levels within sound confined]
    rfl
  · intro slots
    rw [orderCount]
    change (0 : UInt64) + .ofNat (Venue.shortages sizes .orders
      (Venue.start mode) _) = 0
    rw [Venue.shortages_orders (few.trans slots) within sound confined]
    rfl

/-- A spread of fifty ticks, and the pools of the benchmark. -/
theorem generated_capacity_hasty :
    ∃ samples, ∃ final : Matcher configSizes,
      (Matcher.start .proRata).measure
          (pushedAt (generated finiteDoubles hastyConfig
            (.highest finiteDoubles.one)).events [5, 7, 9]) =
        .ok (samples, final) ∧
      final.book.levelPool.exhaustionCount = 0 ∧
      (hastyConfig.orderCount.toNat ≤ configSizes.orders →
        final.book.orderPool.exhaustionCount = 0) :=
  generated_capacity hastyConfig_accepted (by decide)
    ⟨by decide, by decide⟩ (by decide)
    (hastyConfig_generate (.highest finiteDoubles.one)) .proRata [5, 7, 9]

end Generate

end Hydra
