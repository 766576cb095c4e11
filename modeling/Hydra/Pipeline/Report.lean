import Hydra.Harness.Fingerprint
import Hydra.Pipeline.Phases
import Hydra.Pipeline.Trials

/-!
# The report of a benchmark

What `run_benchmark` makes of the samples of its trials: the counters of
`compute_trial_stats` with their fingerprint, the comparison of the
fingerprints, and the reasons for which a result is reported as invalid.

Left out are the quantities that are floating-point numbers, and the arena of
the price maps.
-/

namespace Hydra

variable {sizes : PoolSizes} {size : Nat}

def OrderBook.bidLevelCount (book : OrderBook sizes) : Nat :=
  book.bids.entries.length

def OrderBook.askLevelCount (book : OrderBook sizes) : Nat :=
  book.asks.entries.length

/-- The counters that are reported for a trial. -/
structure TrialStats where
  orderCount : Nat := 0
  cancelCount : Nat := 0
  crossingOrderCount : UInt64 := 0
  nonCrossingOrderCount : UInt64 := 0
  partialFillCount : UInt64 := 0
  multiLevelSweepCount : UInt64 := 0
  selfTradeSkipCount : UInt64 := 0
  restingOrdersExamined : UInt64 := 0
  eligibleOrdersExamined : UInt64 := 0
  generatedFillCount : UInt64 := 0
  maxFillFanout : UInt64 := 0
  droppedEvents : UInt64 := 0
  maxScheduleDriftNs : UInt64 := 0
  poolExhaustionDelta : UInt64 := 0
  stateHash : UInt64 := 0
  deriving DecidableEq

namespace TrialStats

/-- One more of what is counted, if there is one. -/
def tick (happens : Bool) (count : UInt64) : UInt64 :=
  if happens then count + 1 else count

/-- The body of the loop over the samples. -/
def count (stats : TrialStats) (sample : LatencySample) : TrialStats :=
  if sample.isCancel then
    { stats with cancelCount := stats.cancelCount + 1 }
  else
    { stats with
      orderCount := stats.orderCount + 1
      crossingOrderCount :=
        tick (0 < sample.fillsGenerated) stats.crossingOrderCount
      partialFillCount :=
        tick (0 < sample.fillsGenerated ∧ 0 < sample.remainingQty)
          stats.partialFillCount
      nonCrossingOrderCount :=
        tick (¬ 0 < sample.fillsGenerated) stats.nonCrossingOrderCount
      multiLevelSweepCount :=
        tick (1 < sample.levelsConsumed) stats.multiLevelSweepCount
      selfTradeSkipCount :=
        stats.selfTradeSkipCount + sample.selfTradeSkips.toUInt64
      restingOrdersExamined :=
        stats.restingOrdersExamined + sample.restingOrdersExamined.toUInt64
      eligibleOrdersExamined :=
        stats.eligibleOrdersExamined + sample.eligibleOrdersExamined.toUInt64
      generatedFillCount :=
        stats.generatedFillCount + sample.fillsGenerated.toUInt64
      maxFillFanout :=
        max stats.maxFillFanout sample.fillsGenerated.toUInt64 }

/-- The values of the fingerprint, in the order of the folding. -/
def outcomes (stats : TrialStats) (finalBidLevels finalAskLevels : Nat) :
    List UInt64 :=
  [.ofNat finalBidLevels, .ofNat finalAskLevels, stats.crossingOrderCount,
    stats.nonCrossingOrderCount, stats.partialFillCount,
    stats.multiLevelSweepCount, stats.selfTradeSkipCount,
    stats.restingOrdersExamined, stats.eligibleOrdersExamined,
    stats.generatedFillCount, stats.maxFillFanout, .ofNat stats.orderCount,
    .ofNat stats.cancelCount]

end TrialStats

/-- `compute_trial_stats`, from the samples of a trial. -/
def computeTrialStats (samples : List LatencySample)
    (finalBidLevels finalAskLevels : Nat)
    (droppedEvents maxScheduleDriftNs poolExhaustionDelta : UInt64) :
    TrialStats :=
  let counted := samples.foldl TrialStats.count
    { droppedEvents, maxScheduleDriftNs, poolExhaustionDelta }
  { counted with
    stateHash := (counted.outcomes finalBidLevels finalAskLevels).foldl fold
      fnvOffsetBasis }

theorem TrialStats.foldl_count (samples : List LatencySample)
    (stats : TrialStats) :
    let counted := samples.foldl count stats
    counted.droppedEvents = stats.droppedEvents ∧
      counted.maxScheduleDriftNs = stats.maxScheduleDriftNs ∧
      counted.poolExhaustionDelta = stats.poolExhaustionDelta := by
  induction samples generalizing stats with
  | nil => exact ⟨rfl, rfl, rfl⟩
  | cons sample rest induction =>
      obtain ⟨dropped, drift, exhausted⟩ := induction (stats.count sample)
      have kept : (stats.count sample).droppedEvents = stats.droppedEvents ∧
          (stats.count sample).maxScheduleDriftNs =
            stats.maxScheduleDriftNs ∧
          (stats.count sample).poolExhaustionDelta =
            stats.poolExhaustionDelta := by
        rw [count]
        split <;> exact ⟨rfl, rfl, rfl⟩
      exact ⟨dropped.trans kept.1, drift.trans kept.2.1,
        exhausted.trans kept.2.2⟩

theorem computeTrialStats_arguments (samples : List LatencySample)
    (bids asks : Nat) (dropped drift exhausted : UInt64) :
    let stats := computeTrialStats samples bids asks dropped drift exhausted
    stats.droppedEvents = dropped ∧ stats.maxScheduleDriftNs = drift ∧
      stats.poolExhaustionDelta = exhausted := by
  rw [computeTrialStats]
  exact TrialStats.foldl_count samples _

/-- The counters of a trial, and the results of its two phases. -/
structure Trial where
  stats : TrialStats
  warmup : ReplayPhaseResult
  measured : ReplayPhaseResult

/-- Neither phase has given up on an event. -/
def Trial.Dropless (trial : Trial) : Prop :=
  trial.warmup.dropped = 0 ∧ trial.measured.dropped = 0

/-- What the trial loop has computed so far. -/
structure BenchmarkReport where
  totalDroppedEvents : UInt64 := 0
  maxScheduleDriftNs : UInt64 := 0
  orderPoolBefore : UInt64 := 0
  levelPoolBefore : UInt64 := 0
  warmupResult : ReplayPhaseResult := {}
  measuredResult : ReplayPhaseResult := {}
  trials : List Trial := []
  /-- How many messages were pushed before the trial. -/
  base : Nat := 0

namespace BenchmarkReport

/-- The pool counters that a trial starts from. -/
def begin (report : BenchmarkReport) (book : OrderBook sizes) (base : Nat) :
    BenchmarkReport :=
  { report with
    orderPoolBefore := book.orderPool.exhaustionCount
    levelPoolBefore := book.levelPool.exhaustionCount
    base }

/-- The result of a phase in the totals. -/
def phase (report : BenchmarkReport) (result : ReplayPhaseResult) :
    BenchmarkReport :=
  { report with
    totalDroppedEvents := report.totalDroppedEvents + result.dropped
    maxScheduleDriftNs := max report.maxScheduleDriftNs result.maxDriftNs }

def poolDelta (report : BenchmarkReport) (book : OrderBook sizes) : UInt64 :=
  (book.orderPool.exhaustionCount - report.orderPoolBefore) +
    (book.levelPool.exhaustionCount - report.levelPoolBefore)

/-- The end of a trial. -/
def add (report : BenchmarkReport) (samples : List LatencySample)
    (book : OrderBook sizes) : BenchmarkReport :=
  let stats := computeTrialStats samples book.bidLevelCount book.askLevelCount
    report.measuredResult.dropped report.measuredResult.maxDriftNs
    (report.poolDelta book)
  { report with
    trials := report.trials ++
      [{ stats
         warmup := report.warmupResult
         measured := report.measuredResult }] }

/-- What a step of the trial loop does to the report. -/
def record (before : Benchmark sizes size × BenchmarkHistory)
    (_ : BenchmarkEvent) (after : Benchmark sizes size × BenchmarkHistory)
    (report : BenchmarkReport) : BenchmarkReport :=
  match before.1.point, after.1.point with
  | .test, .replay .warmup _ | .resetLevelPool, .replay .warmup _ =>
      report.begin after.1.context.matcher.book after.2.pushed.length
  | .replay .warmup thread, .storeSink =>
      { report.phase thread.result with warmupResult := thread.result }
  | .replay .measured thread, .wait _ =>
      { report.phase thread.result with measuredResult := thread.result }
  | .assign pushed, .test =>
      report.add ((before.1.context.sinks before.1.trial).samples.take pushed)
        before.1.context.matcher.book
  | _, _ => report

def trialStats (report : BenchmarkReport) : List TrialStats :=
  report.trials.map Trial.stats

def stateHashes (report : BenchmarkReport) : List UInt64 :=
  report.trialStats.map TrialStats.stateHash

def totalPoolExhaustions (report : BenchmarkReport) : UInt64 :=
  report.trialStats.foldl
    (fun total stats => total + stats.poolExhaustionDelta) 0

end BenchmarkReport

/-- Whether all trials have the fingerprint of the first one. -/
def determinismPass : List UInt64 → Bool
  | [] => true
  | first :: rest => rest.all fun stateHash => stateHash == first

/-- Why a result is invalid.  `dirty` is the state of the working tree at build
time; the arena of the price maps is not modelled, so the count of its
fallbacks is an argument. -/
def invalidReasons (dirty allowDirty : Bool) (totalArenaFallbacks : UInt64)
    (report : BenchmarkReport) : List String :=
  (if dirty && !allowDirty then
    ["working tree dirty at build time (pass --allow-dirty " ++
      "to intentionally run against a dirty tree)"] else []) ++
  (if determinismPass report.stateHashes then [] else
    ["determinism check failed: state_hash differs across trials"]) ++
  (if 0 < report.totalDroppedEvents then
    ["dropped_events > 0 (" ++ toString report.totalDroppedEvents ++ ")"]
    else []) ++
  (if 0 < totalArenaFallbacks then
    ["arena_fallback_count > 0 (" ++ toString totalArenaFallbacks ++ ")"]
    else []) ++
  (if 0 < report.totalPoolExhaustions then
    ["pool_exhaustion_count > 0 (" ++ toString report.totalPoolExhaustions ++
      ")"] else [])

/-- The benchmark is reported as valid if there is no reason against it. -/
def overallValid (dirty allowDirty : Bool) (totalArenaFallbacks : UInt64)
    (report : BenchmarkReport) : Bool :=
  (invalidReasons dirty allowDirty totalArenaFallbacks report).isEmpty

/-- The runs of the benchmark that store no sink before the warm-up is worked
off, with their reports. -/
def reportedBenchmark (config : BenchmarkConfig) (mode : MatchingMode)
    (sizes : PoolSizes) (size : Nat) :
    Machine ((Benchmark sizes size × BenchmarkHistory) × BenchmarkReport)
      BenchmarkEvent :=
  Machine.withGhost
    ((benchmark config mode sizes size).guarded Benchmark.storesDrained)
    {} BenchmarkReport.record

end Hydra
