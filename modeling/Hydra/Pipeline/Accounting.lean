import Hydra.Market.Statistics
import Hydra.Pipeline.Exhaustion

/-!
# The counters of a trial

Every event of the measured phase is counted once, as an order, as a cancel or
as dropped; every order once, as one that trades or does not; and every resting
order that was looked at once, as one that could trade or one of the same
client.  The composition of the dataset says how many of each there are, if
nothing is dropped.
-/

namespace Hydra

variable {sizes : PoolSizes} {size : Nat} {mode : MatchingMode}

/-- The counters of a call hang together. -/
structure MatchStats.Balanced (mode : MatchingMode) (stats : MatchStats) :
    Prop where
  parts : stats.restingOrdersExamined.toNat =
    stats.eligibleOrdersExamined.toNat + stats.selfTradeSkips.toNat
  served : stats.fillsGenerated.toNat ≤ stats.eligibleOrdersExamined.toNat
  priceTime : mode = .priceTime →
    stats.fillsGenerated = stats.eligibleOrdersExamined

theorem MatchStats.Count.balanced {stats : MatchStats} {incoming : Order}
    {levels fills : Nat} {visited : List Order}
    (count : stats.Count mode incoming levels visited fills) :
    stats.Balanced mode :=
  ⟨count.parts, count.served, count.priceTime⟩

theorem MatchStats.empty_balanced (mode : MatchingMode) :
    MatchStats.Balanced mode {} :=
  ⟨rfl, le_rfl, fun _ => rfl⟩

namespace Market

variable {market : Market}

theorem matchOrder_balanced (valid : market.Valid)
    (few : market.orderCount < 2 ^ 32) (mode : MatchingMode)
    (incoming : Order) :
    (market.matchOrder sizes mode incoming).stats.Balanced mode := by
  rw [matchOrder]
  split
  · exact (reject_counts mode incoming).balanced
  · exact (commitMatch_counts valid few mode incoming).balanced

theorem orderCount_cancel_le (market : Market) (orderId : UInt64) :
    (market.cancel orderId).orderCount ≤ market.orderCount := by
  have side : ∀ side, ((market.cancel orderId).orders side).length ≤
      (market.orders side).length := by
    intro side
    rw [cancel, alter, orders_revise]
    exact List.length_filterMap_le _ _
  exact Nat.add_le_add (side .buy) (side .sell)

theorem replace_balanced (valid : market.Valid)
    (few : market.orderCount < 2 ^ 32) (mode : MatchingMode)
    (orderId : UInt64) (newPrice : Int64) (newQty : UInt32) :
    (market.replace sizes mode orderId newPrice newQty).stats.Balanced
      mode := by
  rw [replace]
  cases market.find? orderId with
  | none => exact MatchStats.empty_balanced mode
  | some existing =>
      dsimp only
      split
      · exact MatchStats.empty_balanced mode
      · split
        · exact MatchStats.empty_balanced mode
        · exact matchOrder_balanced (valid.cancel orderId)
            ((market.orderCount_cancel_le orderId).trans_lt few) mode _

end Market

theorem Venue.respond_balanced {venue : Venue} (valid : venue.market.Valid)
    (few : venue.market.orderCount < 2 ^ 32) (message : Message) :
    (venue.respond sizes message).stats.Balanced venue.mode := by
  cases message with
  | new incoming => exact Market.matchOrder_balanced valid few _ incoming
  | replace orderId newPrice newQty =>
      exact Market.replace_balanced valid few _ orderId newPrice newQty
  | cancel | setMode => exact MatchStats.empty_balanced _

theorem Matcher.process_balanced {matcher : Matcher sizes} {order : Order}
    {result : Processed sizes} (wellFormed : matcher.book.WellFormed)
    (processed : matcher.process order = .ok result) :
    result.stats.Balanced matcher.mode := by
  obtain ⟨other, ran, _, _, stats⟩ := process_spec wellFormed order
  rw [processed] at ran
  cases ran
  obtain ⟨layout, settled⟩ := wellFormed
  have few : matcher.venue.market.orderCount < 2 ^ 32 :=
    Nat.lt_of_le_of_lt settled.orderCount_le sizes.orders_lt
  rw [stats]
  exact Venue.respond_balanced settled.view_valid few order.message

/-- The counters of a sample hang together. -/
structure LatencySample.Balanced (mode : MatchingMode)
    (sample : LatencySample) : Prop where
  parts : sample.restingOrdersExamined.toNat =
    sample.eligibleOrdersExamined.toNat + sample.selfTradeSkips.toNat
  served : sample.fillsGenerated.toNat ≤ sample.eligibleOrdersExamined.toNat
  priceTime : mode = .priceTime →
    sample.fillsGenerated = sample.eligibleOrdersExamined

theorem MatchStats.Balanced.sample {stats : MatchStats}
    (balanced : stats.Balanced mode) (order : Order) (times : CallTimes)
    (publishNs callEndNs : UInt64) :
    (latencySample order times publishNs stats callEndNs).Balanced mode := by
  rw [latencySample]
  split
  · exact ⟨rfl, le_rfl, fun _ => rfl⟩
  · exact ⟨balanced.parts, balanced.served, balanced.priceTime⟩

/-- The samples since the trial began hang together, and so does the one that
is not made yet. -/
def Metered (mode : MatchingMode) : TrialProperty sizes :=
  fun _ base _ point sampled =>
    base ≤ sampled.length ∧
      (∀ entry ∈ sampled.drop base, entry.2.Balanced mode) ∧
      ∀ called ∈ point.called, called.2.Balanced mode

namespace Metered

variable {before : Shortage → UInt64} {base : Nat}
variable {matcher next : Matcher sizes}
variable {point nextPoint : MatchingPoint}
variable {sampled : List (Order × LatencySample)}

theorem silent (metered : Metered mode before base matcher point sampled)
    (called : nextPoint.called = point.called) :
    Metered mode before base next nextPoint (sampled ++ []) := by
  rw [List.append_nil]
  refine ⟨metered.1, metered.2.1, ?_⟩
  rw [called]
  exact metered.2.2

theorem apply {order : Order} {times : CallTimes} {publishNs : UInt64}
    {stats : MatchStats}
    (metered : Metered mode before base matcher (.call order times) sampled)
    (balanced : stats.Balanced mode) :
    Metered mode before base matcher
      (.readDone order times publishNs stats) sampled := by
  refine ⟨metered.1, metered.2.1, ?_⟩
  intro called member
  cases member
  exact balanced

theorem sample {order : Order} {times : CallTimes} {publishNs : UInt64}
    {stats : MatchStats}
    (metered : Metered mode before base matcher
      (.readDone order times publishNs stats) sampled) (callEndNs : UInt64) :
    let made := latencySample order times publishNs stats callEndNs
    Metered mode before base next (.loadSink made)
      (sampled ++ [(order, made)]) := by
  obtain ⟨within, samples, called⟩ := metered
  have balanced : stats.Balanced mode := called (order, stats) rfl
  refine ⟨?_, ?_, nofun⟩
  · rw [List.length_append]
    exact Nat.le_add_right_of_le within
  · intro entry member
    rw [List.drop_append_of_le_length within] at member
    rcases List.mem_append.mp member with earlier | last
    · exact samples entry earlier
    · cases List.mem_singleton.mp last
      exact balanced.sample order times publishNs callEndNs

theorem kept (mode : MatchingMode) (size : Nat) :
    (Metered mode : TrialProperty sizes).Kept mode size where
  begin matcher point sampled uncalled := by
    refine ⟨le_rfl, ?_, ?_⟩
    · rw [List.drop_length]
      nofun
    · rw [uncalled]
      nofun
  step tallied unswitched metered taken := by
    cases taken with
    | exit | enter | again | giveUp | readStart | popNone | popSome | readEnd
    | readCall | noSink | loadSink | sinkFull | loadIndex | writeSample
    | storeIndex =>
        exact metered.silent rfl
    | call readings processed =>
        have balanced := Matcher.process_balanced tallied.wellFormed processed
        rw [unswitched] at balanced
        exact (metered.apply balanced).silent rfl
    | readDone nowNs => exact metered.sample nowNs

end Metered

namespace TrialStats

variable {stats : TrialStats} {sample : LatencySample}

/-- The counters of a trial hang together. -/
structure Balanced (mode : MatchingMode) (stats : TrialStats) : Prop where
  orders : stats.crossingOrderCount.toNat +
    stats.nonCrossingOrderCount.toNat = stats.orderCount
  partly : stats.partialFillCount.toNat ≤ stats.crossingOrderCount.toNat
  sweeps : stats.multiLevelSweepCount.toNat ≤ stats.orderCount
  parts : stats.restingOrdersExamined.toNat =
    stats.eligibleOrdersExamined.toNat + stats.selfTradeSkipCount.toNat
  served : stats.generatedFillCount.toNat ≤ stats.eligibleOrdersExamined.toNat
  crossing : stats.crossingOrderCount.toNat ≤ stats.generatedFillCount.toNat
  fanout : stats.generatedFillCount.toNat ≤
    stats.crossingOrderCount.toNat * stats.maxFillFanout.toNat
  widest : stats.maxFillFanout.toNat ≤ stats.generatedFillCount.toNat
  priceTime : mode = .priceTime →
    stats.generatedFillCount = stats.eligibleOrdersExamined

/-- The counters after some samples, which are few enough for the counters not
to wrap around. -/
structure Counted (mode : MatchingMode) (count : Nat) (stats : TrialStats) :
    Prop extends Balanced mode stats where
  total : stats.orderCount + stats.cancelCount = count
  examined : stats.restingOrdersExamined.toNat ≤ count * 2 ^ 32

theorem tick_toNat {happens : Bool} {count : UInt64}
    (room : count.toNat + 1 < 2 ^ 64) :
    (tick happens count).toNat = count.toNat + happens.toNat := by
  cases happens with
  | false => rfl
  | true =>
      change (count + 1).toNat = count.toNat + 1
      rw [UInt64.toNat_add]
      exact Nat.mod_eq_of_lt room

theorem add_toNat {total : UInt64} {part : UInt32}
    (room : total.toNat + part.toNat < 2 ^ 64) :
    (total + part.toUInt64).toNat = total.toNat + part.toNat := by
  rw [UInt64.toNat_add, UInt32.toNat_toUInt64]
  exact Nat.mod_eq_of_lt room

theorem max_toNat (left right : UInt64) :
    (max left right).toNat = max left.toNat right.toNat := by
  change (if left ≤ right then right else left).toNat = _
  split
  next below => exact (Nat.max_eq_right below).symm
  next above =>
    exact (Nat.max_eq_left (Nat.le_of_lt (UInt64.not_le.mp above))).symm

theorem Counted.count {count : Nat} (counted : Counted mode count stats)
    (few : count < 2 ^ 32) (balanced : sample.Balanced mode) :
    Counted mode (count + 1) (stats.count sample) := by
  obtain ⟨⟨orders, partly, sweeps, parts, served, crossing, fanout, widest,
    priceTime⟩, total, examined⟩ := counted
  obtain ⟨sampleParts, sampleServed, samplePriceTime⟩ := balanced
  rw [TrialStats.count]
  split
  next cancels =>
    exact ⟨⟨orders, partly, sweeps, parts, served, crossing, fanout, widest,
      priceTime⟩, congrArg (· + 1) total, examined.trans
        (Nat.mul_le_mul_right _ (Nat.le_succ count))⟩
  next =>
    have size := sample.restingOrdersExamined.toNat_lt
    have crossed := @tick_toNat (0 < sample.fillsGenerated)
      stats.crossingOrderCount (by omega)
    have uncrossed := @tick_toNat (¬ 0 < sample.fillsGenerated)
      stats.nonCrossingOrderCount (by omega)
    have partial_ := @tick_toNat
      (0 < sample.fillsGenerated ∧ 0 < sample.remainingQty)
      stats.partialFillCount (by omega)
    have swept := @tick_toNat (1 < sample.levelsConsumed)
      stats.multiLevelSweepCount (by omega)
    have resting := @add_toNat stats.restingOrdersExamined
      sample.restingOrdersExamined (by omega)
    have eligible := @add_toNat stats.eligibleOrdersExamined
      sample.eligibleOrdersExamined (by omega)
    have skips := @add_toNat stats.selfTradeSkipCount
      sample.selfTradeSkips (by omega)
    have fills := @add_toNat stats.generatedFillCount
      sample.fillsGenerated (by omega)
    have max := max_toNat stats.maxFillFanout sample.fillsGenerated.toUInt64
    rw [UInt32.toNat_toUInt64] at max
    -- An order trades or does not, and only one that trades is filled partly.
    obtain ⟨one, partly_le, filled, unfilled⟩ :
        (decide (0 < sample.fillsGenerated)).toNat +
            (decide (¬ 0 < sample.fillsGenerated)).toNat = 1 ∧
          (decide (0 < sample.fillsGenerated ∧
            0 < sample.remainingQty)).toNat ≤
            (decide (0 < sample.fillsGenerated)).toNat ∧
          (decide (0 < sample.fillsGenerated)).toNat ≤
            sample.fillsGenerated.toNat ∧
          (sample.fillsGenerated.toNat = 0 ∨
            (decide (0 < sample.fillsGenerated)).toNat = 1) := by
      by_cases trades : 0 < sample.fillsGenerated
      · have positive := UInt32.lt_iff_toNat_lt.mp trades
        simp only [trades, decide_true, Bool.toNat_true, not_true_eq_false,
          decide_false, Bool.toNat_false, Bool.toNat_le]
        exact ⟨trivial, trivial, positive, .inr trivial⟩
      · have none : sample.fillsGenerated.toNat = 0 :=
          Nat.eq_zero_of_not_pos
            fun positive => trades (UInt32.lt_iff_toNat_lt.mpr positive)
        simp [trades, none]
    have sweep := Bool.toNat_le (decide (1 < sample.levelsConsumed))
    refine ⟨⟨?_, ?_, ?_, ?_, ?_, ?_, ?_, ?_, ?_⟩, ?_, ?_⟩
    case refine_9 =>
      intro isPriceTime
      dsimp only
      rw [priceTime isPriceTime, samplePriceTime isPriceTime]
    case refine_7 =>
      dsimp only
      rw [fills, crossed, max, Nat.add_mul]
      refine Nat.add_le_add ?_ ?_
      · exact fanout.trans (Nat.mul_le_mul_left _ (Nat.le_max_left _ _))
      · rcases unfilled with none | one
        · exact none.le.trans (Nat.zero_le _)
        · rw [one, Nat.one_mul]
          exact Nat.le_max_right _ _
    all_goals
      dsimp only
      omega

theorem Counted.foldl {samples : List LatencySample} {count : Nat}
    (counted : Counted mode count stats)
    (few : count + samples.length ≤ 2 ^ 32)
    (balanced : ∀ sample ∈ samples, sample.Balanced mode) :
    Counted mode (count + samples.length)
      (samples.foldl TrialStats.count stats) := by
  induction samples generalizing stats count with
  | nil => exact counted
  | cons sample rest induction =>
      rw [List.length_cons] at few
      have next := induction
        (counted.count (by omega) (balanced sample List.mem_cons_self))
        (by omega)
        (fun other member => balanced other (List.mem_cons_of_mem _ member))
      rw [List.length_cons, Nat.add_comm rest.length, ← Nat.add_assoc]
      exact next

theorem start_counted (mode : MatchingMode)
    (droppedEvents maxScheduleDriftNs poolExhaustionDelta : UInt64) :
    Counted mode 0
      { droppedEvents, maxScheduleDriftNs, poolExhaustionDelta } where
  orders := rfl
  partly := le_rfl
  sweeps := le_rfl
  parts := rfl
  served := le_rfl
  crossing := le_rfl
  fanout := Nat.zero_le _
  widest := le_rfl
  priceTime _ := rfl
  total := rfl
  examined := Nat.zero_le _

theorem Counted.stateHash {count : Nat} (counted : Counted mode count stats)
    (stateHash : UInt64) : Counted mode count { stats with stateHash } := by
  obtain ⟨⟨orders, partly, sweeps, parts, served, crossing, fanout, widest,
    priceTime⟩, total, examined⟩ := counted
  exact ⟨⟨orders, partly, sweeps, parts, served, crossing, fanout, widest,
    priceTime⟩, total, examined⟩

end TrialStats

theorem computeTrialStats_counted {samples : List LatencySample}
    (few : samples.length ≤ 2 ^ 32)
    (balanced : ∀ sample ∈ samples, sample.Balanced mode)
    (bids asks : Nat) (dropped drift exhausted : UInt64) :
    TrialStats.Counted mode samples.length
      (computeTrialStats samples bids asks dropped drift exhausted) := by
  have counted := (TrialStats.start_counted mode dropped drift
    exhausted).foldl (by omega) balanced
  rw [Nat.zero_add] at counted
  rw [computeTrialStats]
  exact counted.stateHash _

namespace Benchmark

variable {config : BenchmarkConfig}
variable {state : Benchmark sizes size} {history : BenchmarkHistory}
variable {report : BenchmarkReport}

/-- The counters of every trial hang together, whether it has given up on
events or not, and every event of the measured phase is counted once. -/
theorem trials_balanced (small : Countable config)
    (few : config.measuredIterations ≤ 2 ^ 32)
    (reachable : (reportedBenchmark config mode sizes size).Reachable
      ((state, history), report)) :
    ∀ trial ∈ report.trials, trial.stats.Balanced mode ∧
      trial.stats.orderCount + trial.stats.cancelCount +
        trial.stats.droppedEvents.toNat = config.measuredIterations := by
  have finishes : @Finishes sizes config mode size (Metered mode)
      fun trial => trial.stats.Balanced mode ∧
        trial.stats.orderCount + trial.stats.cancelCount +
          trial.stats.droppedEvents.toNat = config.measuredIterations := by
    intro state history report counted ends metered
    obtain ⟨_, samples, _⟩ := metered
    have length : ((state.context.sinks state.trial).samples.take
        counted).length = counted := by
      rw [ends.collected.samples, List.length_map, ends.collected.count,
        ← ends.collected.messages, List.length_map]
    have events : (config.replay .measured).last -
        (config.replay .measured).first = config.measuredIterations :=
      Nat.add_sub_cancel_left ..
    have pushed := ends.measured.counted
    rw [← ends.collected.count, events] at pushed
    have totals := @computeTrialStats_counted mode
      ((state.context.sinks state.trial).samples.take counted)
      (length.le.trans (ends.few.trans few)) (by
        intro sample member
        rw [ends.collected.samples] at member
        obtain ⟨entry, listed, rfl⟩ := List.mem_map.mp member
        refine samples entry ?_
        have further := Nat.add_sub_cancel' ends.stored.base
        rw [← further, ← List.drop_drop] at listed
        exact List.mem_of_mem_drop listed)
      state.context.matcher.book.bidLevelCount
      state.context.matcher.book.askLevelCount
      report.measuredResult.dropped report.measuredResult.maxDriftNs
      (report.poolDelta state.context.matcher.book)
    refine ⟨totals.toBalanced, ?_⟩
    dsimp only
    rw [totals.total, length, (computeTrialStats_arguments _ _ _ _ _ _).1]
    exact pushed
  exact (trials_induction small (Metered.kept mode size) finishes
    reachable).trials

/-- The short benchmark after both trials. -/
theorem trials_balanced_short :
    ∃ (state : Benchmark configSizes 4) (history : BenchmarkHistory)
        (report : BenchmarkReport),
      (reportedBenchmark shortBenchmark .priceTime configSizes 4).Reachable
        ((state, history), report) ∧
      report.trials.length = 2 ∧
      ∀ trial ∈ report.trials, trial.stats.Balanced .priceTime ∧
        trial.stats.orderCount + trial.stats.cancelCount +
          trial.stats.droppedEvents.toNat =
            shortBenchmark.measuredIterations := by
  obtain ⟨_, _, _, report, reachable, length, _⟩ := shortBenchmark_trials
  exact ⟨_, _, report, reachable, length,
    trials_balanced shortBenchmark_countable (by decide) reachable⟩

end Benchmark

end Hydra
