import Hydra.Dataset.Event
import Hydra.Pipeline.Matching
import Hydra.Runs.Renaming
import Hydra.Runs.Reset

/-!
# Messages matched one after the other

The plain loop that the pipeline stands for: take the messages in order, make
the call for each of them, and note its sample.  What a sample says besides
times depends on the messages before it, but not on their time stamps, so a
list of messages has the same samples whenever it is replayed.
-/

namespace Hydra

variable {sizes : PoolSizes}

namespace LatencySample

/-- What a sample says besides times. -/
def untimed (sample : LatencySample) : LatencySample :=
  { sample with
    queueResidenceNs := 0
    queuePopNs := 0
    matchTimeNs := 0
    fillPublishNs := 0
    endToEndNs := 0 }

end LatencySample

/-- The sample of a message, without times. -/
def Order.untimedSample (order : Order) (stats : MatchStats) : LatencySample :=
  if order.isCancel then { isCancel := true }
  else
    { fillsGenerated := stats.fillsGenerated
      levelsConsumed := stats.levelsConsumed
      restingOrdersExamined := stats.restingOrdersExamined
      eligibleOrdersExamined := stats.eligibleOrdersExamined
      selfTradeSkips := stats.selfTradeSkips
      remainingQty := stats.remainingQty
      isReplace := order.isReplace }

/-- Whatever the clock says, the sample is that of the message. -/
theorem latencySample_untimed (order : Order) (times : CallTimes)
    (publishNs : UInt64) (stats : MatchStats) (callEndNs : UInt64) :
    (latencySample order times publishNs stats callEndNs).untimed =
      order.untimedSample stats := by
  rw [Order.untimedSample, latencySample]
  split <;> rfl

/-- The message of a trading session that a message of the queue stands
for. -/
def Order.message (order : Order) : Message :=
  if order.isCancel then .cancel order.orderId
  else if order.isReplace then .replace order.orderId order.price order.qty
  else .new order

/-- The counters that a response reports; there are none for a cancel. -/
def Response.stats (response : Response) : MatchStats :=
  match response.reply with
  | .stats stats => stats
  | .found _ | .done => {}

/-- The call for a message of the queue is that for its message. -/
theorem Matcher.process_respond (matcher : Matcher sizes) (order : Order) :
    (matcher.process order).map (fun result =>
        (result.stats, result.matcher)) =
      (matcher.respond order.message).map fun answer =>
        (answer.1.stats, answer.2) := by
  rw [process, Order.message]
  by_cases cancels : order.isCancel = true
  · rw [if_pos cancels, if_pos cancels, respond]
    cases matcher.book.cancelOrder order.orderId <;> rfl
  · rw [if_neg cancels, if_neg cancels]
    by_cases replaces : order.isReplace = true
    · rw [if_pos replaces, if_pos replaces, respond]
      cases matcher.book.replace matcher.load order.orderId order.price
        order.qty <;> rfl
    · rw [if_neg replaces, if_neg replaces, respond]
      cases matcher.book.matchOrder matcher.load order <;> rfl

/-- Every message is processed, as the venue answers it. -/
theorem Matcher.process_spec {matcher : Matcher sizes}
    (wellFormed : matcher.book.WellFormed) (order : Order) :
    ∃ result, matcher.process order = .ok result ∧
      result.matcher.book.WellFormed ∧
      result.matcher.venue =
        matcher.venue.after sizes order.message.call ∧
      result.stats = (matcher.venue.respond sizes order.message).stats := by
  obtain ⟨next, answered, nextFormed, nextVenue⟩ :=
    respond_spec wellFormed order.message
  have processed := matcher.process_respond order
  rw [answered] at processed
  cases ran : matcher.process order with
  | error fault =>
      rw [ran] at processed
      cases processed
  | ok result =>
      rw [ran] at processed
      obtain ⟨stats, same⟩ := Prod.mk.inj (Except.ok.inj processed)
      exact ⟨result, rfl, same ▸ nextFormed, same ▸ nextVenue, stats⟩

/-- The samples of a list of messages and the matcher after them. -/
def Matcher.measure (matcher : Matcher sizes) :
    List Order → Except Fault (List LatencySample × Matcher sizes)
  | [] => .ok ([], matcher)
  | order :: rest => do
      let result ← matcher.process order
      let (samples, final) ← result.matcher.measure rest
      return (order.untimedSample result.stats :: samples, final)

namespace Venue

/-- A matcher in `mode` whose book is empty. -/
def start (mode : MatchingMode) : Venue where
  market := .empty
  mode

/-- The samples of a list of messages, without times. -/
def samples (sizes : PoolSizes) (venue : Venue) :
    List Order → List LatencySample
  | [] => []
  | order :: rest =>
      order.untimedSample (venue.respond sizes order.message).stats ::
        samples sizes (venue.after sizes order.message.call) rest

/-- The venue after a list of messages of the queue. -/
def afterOrders (sizes : PoolSizes) (venue : Venue) (orders : List Order) :
    Venue :=
  venue.afterAll sizes (orders.map Order.message)

theorem afterOrders_append (venue : Venue) (first second : List Order) :
    venue.afterOrders sizes (first ++ second) =
      (venue.afterOrders sizes first).afterOrders sizes second := by
  rw [afterOrders, List.map_append, afterAll, List.foldl_append]
  rfl

theorem samples_append (venue : Venue) (first second : List Order) :
    venue.samples sizes (first ++ second) =
      venue.samples sizes first ++
        (venue.afterOrders sizes first).samples sizes second := by
  induction first generalizing venue with
  | nil => rfl
  | cons order rest induction =>
      rw [List.cons_append, samples, samples, induction, List.cons_append]
      rfl

theorem length_samples (venue : Venue) (orders : List Order) :
    (venue.samples sizes orders).length = orders.length := by
  induction orders generalizing venue with
  | nil => rfl
  | cons order rest induction =>
      rw [samples, List.length_cons, induction, List.length_cons]

end Venue

/-- The plain loop computes the samples of the venue. -/
theorem Matcher.measure_spec {matcher : Matcher sizes}
    (wellFormed : matcher.book.WellFormed) (orders : List Order) :
    ∃ final,
      matcher.measure orders =
        .ok (matcher.venue.samples sizes orders, final) ∧
      final.book.WellFormed ∧
      final.venue = matcher.venue.afterOrders sizes orders := by
  induction orders generalizing matcher with
  | nil => exact ⟨matcher, rfl, wellFormed, rfl⟩
  | cons order rest induction =>
      obtain ⟨result, processed, nextFormed, nextVenue, stats⟩ :=
        process_spec wellFormed order
      obtain ⟨final, measured, finalFormed, finalVenue⟩ :=
        induction nextFormed
      rw [nextVenue] at measured finalVenue
      refine ⟨final, ?_, finalFormed, finalVenue⟩
      rw [measure, processed, ok_bind]
      rw [measured, stats]
      rfl

theorem Matcher.measured_stats {mode : MatchingMode} {front : List Order}
    {samples : List LatencySample} {matcher : Matcher sizes} {order : Order}
    {result : Processed sizes}
    (measured : (Matcher.start mode).measure front = .ok (samples, matcher))
    (processed : matcher.process order = .ok result) :
    result.stats = (((Venue.start mode).afterOrders sizes front).respond sizes
      order.message).stats := by
  obtain ⟨_, same, wellFormed, venue⟩ :=
    measure_spec (@start_wellFormed sizes mode) front
  rw [measured] at same
  obtain ⟨_, rfl⟩ := Prod.mk.inj (Except.ok.inj same)
  obtain ⟨_, again, _, _, stats⟩ := process_spec wellFormed order
  rw [processed] at again
  obtain rfl := Except.ok.inj again
  rw [stats, venue, start_venue]
  rfl

/-- The plain loop leads to the same matcher as a replay of the messages. -/
theorem Matcher.measure_replay {matcher final : Matcher sizes}
    {orders : List Order} {samples : List LatencySample}
    (measured : matcher.measure orders = .ok (samples, final)) :
    ∃ responses, matcher.replay (orders.map Order.message) =
      .ok (responses, final) := by
  induction orders generalizing matcher samples with
  | nil =>
      cases measured
      exact ⟨[], rfl⟩
  | cons order rest induction =>
      have first := matcher.process_respond order
      rw [measure] at measured
      cases ran : matcher.process order with
      | error fault =>
          rw [ran] at measured
          cases measured
      | ok result =>
          rw [ran, ok_bind] at measured
          rw [ran] at first
          cases answered : matcher.respond order.message with
          | error fault =>
              rw [answered] at first
              cases first
          | ok answer =>
              rw [answered] at first
              have same : result.matcher = answer.2 :=
                (Prod.mk.inj (Except.ok.inj first)).2
              rw [same] at measured
              cases later : answer.2.measure rest with
              | error fault =>
                  rw [later] at measured
                  cases measured
              | ok last =>
                  rw [later] at measured
                  cases measured
                  obtain ⟨responses, replayed⟩ := induction later
                  refine ⟨answer.1 :: responses, ?_⟩
                  rw [List.map_cons, replay, answered, ok_bind]
                  change (answer.2.replay _ >>= _) = _
                  rw [replayed]
                  rfl

/-- A message without its time stamp and its client tag. -/
def Order.unstamped (order : Order) : Order := Renaming.unstamped.order order

theorem Order.message_unstamped (order : Order) :
    order.unstamped.message = Renaming.unstamped.message order.message := by
  have cancels : order.unstamped.isCancel = order.isCancel := rfl
  have replaces : order.unstamped.isReplace = order.isReplace := rfl
  rw [message, message, cancels, replaces]
  split
  next => rfl
  next => split <;> rfl

theorem Order.untimedSample_unstamped (order : Order) (stats : MatchStats) :
    order.unstamped.untimedSample stats = order.untimedSample stats := by
  have cancels : order.unstamped.isCancel = order.isCancel := rfl
  have replaces : order.unstamped.isReplace = order.isReplace := rfl
  rw [untimedSample, untimedSample, cancels, replaces]

/-- Only its message counts of an event, not when it is pushed. -/
theorem encodeAsQueueOrder_unstamped (event : DatasetEvent) (t1Ns : UInt64) :
    (encodeAsQueueOrder event t1Ns).unstamped =
      (encodeAsQueueOrder event 0).unstamped := by
  rw [encodeAsQueueOrder, encodeAsQueueOrder]
  cases event.type <;> rfl

namespace Venue

variable {venue other : Venue}

theorem Renames.samples (renames : venue.Renames Renaming.unstamped other)
    (orders : List Order) :
    other.samples sizes (orders.map Order.unstamped) =
        venue.samples sizes orders ∧
      (venue.afterOrders sizes orders).Renames Renaming.unstamped
        (other.afterOrders sizes (orders.map Order.unstamped)) := by
  induction orders generalizing venue other with
  | nil => exact ⟨rfl, renames⟩
  | cons order rest induction =>
      have priced := order.message.pricedIn_univ
      have response := @Renames.respond sizes _ _ _ _ renames priced
      obtain ⟨samples, after⟩ := induction (renames.after priced)
      rw [← order.message_unstamped] at response samples after
      refine ⟨?_, after⟩
      rw [List.map_cons, Venue.samples, Venue.samples, samples, response,
        order.untimedSample_unstamped]
      rfl

/-- Messages that differ in their stamps only have the same samples, and leave
as many levels on both sides. -/
theorem samples_unstamped (mode : MatchingMode) {orders others : List Order}
    (same : orders.map Order.unstamped = others.map Order.unstamped) :
    (start mode).samples sizes orders = (start mode).samples sizes others ∧
      ∀ side,
        (((start mode).afterOrders sizes orders).market.ladder
            side).entries.length =
          (((start mode).afterOrders sizes others).market.ladder
            side).entries.length := by
  have renames : (start mode).Renames Renaming.unstamped (start mode) :=
    empty_renames Renaming.unstamped mode
  obtain ⟨samples, market⟩ := @Renames.samples sizes _ _ renames orders
  obtain ⟨otherSamples, otherMarket⟩ :=
    @Renames.samples sizes _ _ renames others
  rw [same] at samples market
  refine ⟨samples.symm.trans otherSamples, ?_⟩
  intro side
  have length := congrArg List.length (market.market side)
  rw [otherMarket.market side, List.length_map, List.length_map] at length
  exact length.symm

end Venue

end Hydra
