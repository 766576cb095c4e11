import Hydra.Pipeline.Accounting

/-!
# The composition of a dataset

A benchmark reports how many events of each kind its window has, and how many
orders and cancels its trials have counted.  The two agree but for new orders
without quantity, which the matching thread takes for cancels.
-/

namespace Hydra

variable {sizes : PoolSizes} {size : Nat} {mode : MatchingMode}

/-- How many events of a window are of which kind. -/
structure DatasetComposition where
  newOrderCount : Nat := 0
  cancelCount : Nat := 0
  replaceCount : Nat := 0
  fokCount : Nat := 0
  iocCount : Nat := 0
  gtcCount : Nat := 0
  deriving DecidableEq

namespace DatasetComposition

/-- One more new order. -/
def countNew (composition : DatasetComposition) (tif : TimeInForce) :
    DatasetComposition :=
  let counted :=
    { composition with newOrderCount := composition.newOrderCount + 1 }
  match tif with
  | .fok => { counted with fokCount := counted.fokCount + 1 }
  | .ioc => { counted with iocCount := counted.iocCount + 1 }
  | .gtc => { counted with gtcCount := counted.gtcCount + 1 }

/-- The body of the loop over the events. -/
def count (composition : DatasetComposition) (event : DatasetEvent) :
    DatasetComposition :=
  match event.type with
  | .cancel => { composition with cancelCount := composition.cancelCount + 1 }
  | .replace =>
      { composition with replaceCount := composition.replaceCount + 1 }
  | .newOrder => composition.countNew event.order.tif

end DatasetComposition

/-- `compute_dataset_composition`, of the events from `first` on and before
`last`. -/
def computeDatasetComposition (events : List DatasetEvent) (first last : Nat) :
    DatasetComposition :=
  ((events.drop first).take (last - first)).foldl DatasetComposition.count {}

/-- New orders without quantity. -/
def DatasetEvent.Emptied (event : DatasetEvent) : Prop :=
  event.type = .newOrder ∧ event.order.qty = 0

instance (event : DatasetEvent) : Decidable event.Emptied :=
  inferInstanceAs (Decidable (_ ∧ _))

def emptiedCount (events : List DatasetEvent) : Nat :=
  events.countP fun event => event.Emptied

theorem encodeAsQueueOrder_isCancel (event : DatasetEvent) (t1Ns : UInt64) :
    (encodeAsQueueOrder event t1Ns).isCancel =
      decide (event.type = .cancel ∨ event.Emptied) := by
  rw [encodeAsQueueOrder, Order.isCancel]
  cases kind : event.type <;> simp [DatasetEvent.Emptied, kind]

/-- The composition of the events agrees with their messages. -/
structure DatasetComposition.Describes (composition : DatasetComposition)
    (events : List DatasetEvent) : Prop where
  cancels : (messagesOf events).countP Order.isCancel =
    composition.cancelCount + emptiedCount events
  orders : (messagesOf events).countP (fun order => !order.isCancel) +
    emptiedCount events = composition.newOrderCount + composition.replaceCount
  kinds : composition.newOrderCount =
    composition.fokCount + composition.iocCount + composition.gtcCount

namespace DatasetComposition

variable {composition : DatasetComposition} {events : List DatasetEvent}

theorem countNew_counts (composition : DatasetComposition)
    (tif : TimeInForce) :
    let counted := composition.countNew tif
    counted.newOrderCount = composition.newOrderCount + 1 ∧
      counted.cancelCount = composition.cancelCount ∧
      counted.replaceCount = composition.replaceCount ∧
      counted.fokCount + counted.iocCount + counted.gtcCount =
        composition.fokCount + composition.iocCount +
          composition.gtcCount + 1 := by
  cases tif <;> refine ⟨rfl, rfl, rfl, ?_⟩ <;> dsimp only [countNew] <;> omega

theorem Describes.concat (describes : composition.Describes events)
    (event : DatasetEvent) :
    (composition.count event).Describes (events ++ [event]) := by
  obtain ⟨cancels, orders, kinds⟩ := describes
  have message : messagesOf (events ++ [event]) =
      messagesOf events ++ [encodeAsQueueOrder event 0] := List.map_append
  have emptied : emptiedCount (events ++ [event]) =
      emptiedCount events + if event.Emptied then 1 else 0 := by
    rw [emptiedCount, List.countP_append, List.countP_singleton]
    simp [emptiedCount]
  have cancelled := encodeAsQueueOrder_isCancel event 0
  obtain ⟨new, cancel, replace, parts⟩ :=
    composition.countNew_counts event.order.tif
  cases kind : event.type with
  | newOrder =>
      have counted : composition.count event =
          composition.countNew event.order.tif := by
        rw [count, kind]
      rw [kind] at cancelled
      simp only [reduceCtorEq, false_or] at cancelled
      rw [counted]
      constructor
      case cancels =>
        rw [message, List.countP_append, List.countP_singleton, cancelled,
          cancels, cancel, emptied]
        simp only [decide_eq_true_eq]
        omega
      case orders =>
        rw [message, List.countP_append, List.countP_singleton, cancelled,
          new, replace, emptied]
        by_cases none : event.Emptied <;> simp [none] <;> omega
      case kinds => rw [new, parts, kinds]
  | cancel =>
      have counted : composition.count event =
          { composition with cancelCount := composition.cancelCount + 1 } := by
        rw [count, kind]
      have full : ¬ event.Emptied := by simp [DatasetEvent.Emptied, kind]
      rw [kind] at cancelled
      rw [counted]
      constructor
      case cancels =>
        rw [message, List.countP_append, List.countP_singleton, cancelled,
          cancels, emptied]
        simp [full]
        omega
      case orders =>
        rw [message, List.countP_append, List.countP_singleton, cancelled,
          emptied]
        simpa [full] using orders
      case kinds => exact kinds
  | replace =>
      have counted : composition.count event =
          { composition with
            replaceCount := composition.replaceCount + 1 } := by
        rw [count, kind]
      have full : ¬ event.Emptied := by simp [DatasetEvent.Emptied, kind]
      rw [kind] at cancelled
      rw [counted]
      constructor
      case cancels =>
        rw [message, List.countP_append, List.countP_singleton, cancelled,
          cancels, emptied]
        simp [full]
      case orders =>
        rw [message, List.countP_append, List.countP_singleton, cancelled,
          emptied]
        simp [full]
        omega
      case kinds => exact kinds

theorem Describes.foldl (describes : composition.Describes events)
    (more : List DatasetEvent) :
    (more.foldl count composition).Describes (events ++ more) := by
  induction more generalizing composition events with
  | nil => rwa [List.append_nil]
  | cons event rest induction =>
      rw [List.append_cons]
      exact induction (describes.concat event)

end DatasetComposition

theorem computeDatasetComposition_describes (events : List DatasetEvent)
    (first last : Nat) :
    (computeDatasetComposition events first last).Describes
      ((events.drop first).take (last - first)) := by
  have none : DatasetComposition.Describes {} [] := ⟨rfl, rfl, rfl⟩
  exact none.foldl _

theorem TrialStats.foldl_count_kinds (samples : List LatencySample)
    (stats : TrialStats) :
    let counted := samples.foldl count stats
    counted.cancelCount =
        stats.cancelCount + samples.countP LatencySample.isCancel ∧
      counted.orderCount =
        stats.orderCount + samples.countP fun sample => !sample.isCancel := by
  induction samples generalizing stats with
  | nil => exact ⟨rfl, rfl⟩
  | cons sample rest induction =>
      obtain ⟨cancels, orders⟩ := induction (stats.count sample)
      rw [List.foldl_cons, List.countP_cons, List.countP_cons]
      refine ⟨cancels.trans ?_, orders.trans ?_⟩
      · cases kind : sample.isCancel <;> simp [count, kind]
        omega
      · cases kind : sample.isCancel <;> simp [count, kind]
        omega

theorem computeTrialStats_kinds (samples : List LatencySample)
    (bids asks : Nat) (dropped drift exhausted : UInt64) :
    let stats := computeTrialStats samples bids asks dropped drift exhausted
    stats.cancelCount = samples.countP LatencySample.isCancel ∧
      stats.orderCount =
        samples.countP fun sample => !sample.isCancel := by
  obtain ⟨cancels, orders⟩ := TrialStats.foldl_count_kinds samples
    { droppedEvents := dropped
      maxScheduleDriftNs := drift
      poolExhaustionDelta := exhausted }
  rw [Nat.zero_add] at cancels orders
  rw [computeTrialStats]
  exact ⟨cancels, orders⟩

theorem Venue.samples_isCancel (venue : Venue) (orders : List Order) :
    (venue.samples sizes orders).map LatencySample.isCancel =
      orders.map Order.isCancel := by
  induction orders generalizing venue with
  | nil => rfl
  | cons order rest induction =>
      rw [samples, List.map_cons, List.map_cons, induction,
        Order.untimedSample]
      cases cancels : order.isCancel <;> rfl

theorem Venue.samples_countP (venue : Venue) (orders : List Order)
    (kind : Bool → Bool) :
    (venue.samples sizes orders).countP (fun sample => kind sample.isCancel) =
      orders.countP fun order => kind order.isCancel := by
  have same := congrArg (List.countP kind)
    (@samples_isCancel sizes venue orders)
  rw [List.countP_map, List.countP_map] at same
  exact same

namespace Benchmark

variable {config : BenchmarkConfig}
variable {state : Benchmark sizes size} {history : BenchmarkHistory}
variable {report : BenchmarkReport}

/-- The dataset composition, as the benchmark computes it. -/
def composition (config : BenchmarkConfig) : DatasetComposition :=
  computeDatasetComposition config.events config.warmupIterations
    (config.warmupIterations + config.measuredIterations)

/-- A trial that gives up on no event has counted the events of the reported
composition, where new orders without quantity count as cancels. -/
theorem trials_composition (small : Countable config)
    (reachable : (reportedBenchmark config mode sizes size).Reachable
      ((state, history), report)) :
    let composition := composition config
    let emptied := emptiedCount (config.replay .measured).window
    composition.newOrderCount =
        composition.fokCount + composition.iocCount + composition.gtcCount ∧
      ∀ trial ∈ report.trials, trial.Dropless →
        trial.stats.cancelCount = composition.cancelCount + emptied ∧
          trial.stats.orderCount + emptied =
            composition.newOrderCount + composition.replaceCount := by
  have describes := computeDatasetComposition_describes config.events
    config.warmupIterations
    (config.warmupIterations + config.measuredIterations)
  refine ⟨describes.kinds, ?_⟩
  intro trial member dropless
  have sequential := (reported small reachable).trials trial member dropless
  rw [Sequential] at sequential
  obtain ⟨cancels, orders⟩ := computeTrialStats_kinds
    (((Venue.start mode).afterOrders sizes
      (messagesOf (config.replay .warmup).window)).samples sizes
        (messagesOf (config.replay .measured).window)) _ _ 0
    trial.stats.maxScheduleDriftNs trial.stats.poolExhaustionDelta
  rw [← sequential] at cancels orders
  have cancelled := cancels.trans (Venue.samples_countP _ _ id)
  have ordered := orders.trans (Venue.samples_countP _ _ not)
  rw [cancelled, ordered]
  exact ⟨describes.cancels, describes.orders⟩

/-- One of the three measured events is a new order without quantity. -/
theorem trials_composition_short :
    ∃ (state : Benchmark configSizes 4) (history : BenchmarkHistory)
        (report : BenchmarkReport),
      (reportedBenchmark shortBenchmark .priceTime configSizes 4).Reachable
        ((state, history), report) ∧
      report.trials.length = 2 ∧
      ∀ trial ∈ report.trials,
        trial.stats.cancelCount = 2 ∧ trial.stats.orderCount = 1 := by
  obtain ⟨_, _, _, report, reachable, length, dropless⟩ :=
    shortBenchmark_trials
  obtain ⟨_, counted⟩ := trials_composition shortBenchmark_countable reachable
  refine ⟨_, _, report, reachable, length, ?_⟩
  intro trial member
  obtain ⟨cancels, orders⟩ := counted trial member (dropless trial member)
  exact ⟨cancels, Nat.succ.inj orders⟩

end Benchmark

end Hydra
