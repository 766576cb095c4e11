import Hydra.Pipeline.Induction
import Hydra.Runs.Capacity

/-!
# What the trials discard

The resets between the trials leave the exhaustion counters of the pools as
they are, so a trial reports by how much they have moved.  That is the number
of its messages of which something was to come to rest and was discarded, and
the plain loop discards as much.  So the verdict on a benchmark says whether
anything was given up, on the way to the engine or in it.
-/

namespace Hydra

variable {sizes : PoolSizes} {size : Nat}

theorem OrderBook.Counts.moved {shortage : Option Shortage}
    {book next : OrderBook sizes} (counts : Counts shortage book next)
    (pool : Shortage) :
    next.exhaustionCount pool =
      book.exhaustionCount pool + .ofNat (pool.count shortage) := by
  cases pool with
  | orders => exact counts.orders
  | levels => exact counts.levels

theorem Matcher.process_exhaustion {matcher : Matcher sizes} {order : Order}
    {result : Processed sizes} (wellFormed : matcher.book.WellFormed)
    (processed : matcher.process order = .ok result) (pool : Shortage) :
    result.matcher.book.exhaustionCount pool =
      matcher.book.exhaustionCount pool +
      .ofNat (pool.count (matcher.venue.shortage? sizes order.message)) := by
  have same := matcher.process_respond order
  rw [processed] at same
  cases answered : matcher.respond order.message with
  | error fault =>
      rw [answered] at same
      cases same
  | ok answer =>
      rw [answered] at same
      have next : result.matcher = answer.2 :=
        (Prod.mk.inj (Except.ok.inj same)).2
      rw [next]
      exact ((respond_exhaustion wellFormed order.message).returned
        answered).moved pool

namespace Venue

/-- How many of the messages of the queue meet a shortage of the pool. -/
def orderShortages (sizes : PoolSizes) (pool : Shortage) (venue : Venue)
    (orders : List Order) : Nat :=
  venue.shortages sizes pool (orders.map Order.message)

theorem orderShortages_concat (pool : Shortage) (venue : Venue)
    (orders : List Order) (order : Order) :
    venue.orderShortages sizes pool (orders ++ [order]) =
      venue.orderShortages sizes pool orders +
        pool.count ((venue.afterOrders sizes orders).shortage? sizes
          order.message) := by
  rw [orderShortages, List.map_append, shortages_append]
  rfl

/-- Messages that differ in their stamps only meet the same shortages. -/
theorem orderShortages_unstamped (mode : MatchingMode) (pool : Shortage)
    {orders others : List Order}
    (same : orders.map Order.unstamped = others.map Order.unstamped) :
    (start mode).orderShortages sizes pool orders =
      (start mode).orderShortages sizes pool others := by
  have unstamped : ∀ list : List Order,
      (start mode).orderShortages sizes pool (list.map Order.unstamped) =
        (start mode).orderShortages sizes pool list := by
    intro list
    have renames : (start mode).Renames Renaming.unstamped (start mode) :=
      empty_renames Renaming.unstamped mode
    have shortages := @Renames.shortages sizes _ _ _ renames pool
      (list.map Order.message) (fun message _ => message.pricedIn_univ)
    rw [orderShortages, orderShortages, ← shortages, List.map_map,
      List.map_map]
    congr 2
    funext order
    exact order.message_unstamped
  rw [← unstamped orders, same, unstamped others]

end Venue

/-- The counters have moved by the shortages of the messages that are applied
since the trial began. -/
def Depleted (mode : MatchingMode) : TrialProperty sizes :=
  fun before base matcher point sampled => ∀ pool,
    matcher.book.exhaustionCount pool = before pool +
      .ofNat ((Venue.start mode).orderShortages sizes pool
        (appliedSince base point sampled))

namespace Depleted

variable {mode : MatchingMode} {before : Shortage → UInt64} {base : Nat}
variable {matcher : Matcher sizes} {point nextPoint : MatchingPoint}
variable {sampled : List (Order × LatencySample)}

theorem silent (depleted : Depleted mode before base matcher point sampled)
    (called : nextPoint.called = point.called) :
    Depleted mode before base matcher nextPoint (sampled ++ []) := by
  intro pool
  have moved := depleted pool
  rw [appliedSince, ← called] at moved
  rw [List.append_nil]
  exact moved

theorem apply {order : Order} {times : CallTimes} {publishNs : UInt64}
    {stats : MatchStats} {result : Processed sizes}
    (depleted : Depleted mode before base matcher (.call order times) sampled)
    (tallied : Tallied mode base matcher (.call order times) sampled)
    (processed : matcher.process order = .ok result) :
    Depleted mode before base result.matcher
      (.readDone order times publishNs stats) sampled := by
  intro pool
  have earlier : appliedSince base (.call order times) sampled =
      (sampled.drop base).map Prod.fst := List.append_nil _
  have later : appliedSince base (.readDone order times publishNs stats)
      sampled = (sampled.drop base).map Prod.fst ++ [order] := rfl
  have venue := tallied.venue
  have moved := depleted pool
  rw [earlier] at venue moved
  rw [Matcher.process_exhaustion tallied.wellFormed processed, moved, later,
    Venue.orderShortages_concat, ← venue, UInt64.ofNat_add, UInt64.add_assoc]

theorem sample {order : Order} {times : CallTimes} {publishNs : UInt64}
    {stats : MatchStats} {made : LatencySample}
    (depleted : Depleted mode before base matcher
      (.readDone order times publishNs stats) sampled)
    (within : base ≤ sampled.length) :
    Depleted mode before base matcher (.loadSink made)
      (sampled ++ [(order, made)]) := by
  have applied : appliedSince base (.loadSink made)
      (sampled ++ [(order, made)]) =
        appliedSince base (.readDone order times publishNs stats) sampled := by
    rw [appliedSince, List.drop_append_of_le_length within, List.map_append,
      appliedSince]
    exact List.append_nil _
  intro pool
  rw [applied]
  exact depleted pool

theorem kept (mode : MatchingMode) (size : Nat) :
    (Depleted mode : TrialProperty sizes).Kept mode size where
  begin matcher point sampled uncalled := by
    intro pool
    have none : appliedSince sampled.length point sampled = [] := by
      rw [appliedSince, List.drop_length, uncalled]
      rfl
    rw [none]
    exact (UInt64.add_zero _).symm
  step tallied _ depleted taken := by
    cases taken with
    | exit | enter | again | giveUp | readStart | popNone | popSome | readEnd
    | readCall | noSink | loadSink | sinkFull | loadIndex | writeSample
    | storeIndex =>
        exact depleted.silent rfl
    | call readings processed =>
        exact (depleted.apply tallied processed).silent rfl
    | readDone nowNs => exact depleted.sample tallied.within

end Depleted

/-- How many remainders the plain loop discards over the events of a trial. -/
def BenchmarkConfig.discarded (config : BenchmarkConfig) (mode : MatchingMode)
    (sizes : PoolSizes) : Nat :=
  (Venue.start mode).discarded sizes
    ((messagesOf (config.replay .warmup).window ++
      messagesOf (config.replay .measured).window).map Order.message)

namespace Benchmark

variable {config : BenchmarkConfig} {mode : MatchingMode}
variable {state : Benchmark sizes size} {history : BenchmarkHistory}
variable {report : BenchmarkReport}

/-- A trial that gives up on no event moves the counters by what the plain
loop discards. -/
theorem poolDelta_of_depleted
    (depleted : Depleted mode report.exhaustionsBefore report.base
      state.context.matcher state.matching history.sampled)
    (same : (appliedSince report.base state.matching history.sampled).map
        Order.unstamped =
      (messagesOf (config.replay .warmup).window ++
        messagesOf (config.replay .measured).window).map Order.unstamped) :
    report.poolDelta state.context.matcher.book =
      .ofNat (config.discarded mode sizes) := by
  have moved : ∀ pool, state.context.matcher.book.exhaustionCount pool -
      report.exhaustionsBefore pool =
        .ofNat ((Venue.start mode).shortages sizes pool
          ((messagesOf (config.replay .warmup).window ++
            messagesOf (config.replay .measured).window).map
              Order.message)) := by
    intro pool
    rw [depleted pool, UInt64.add_comm, UInt64.add_sub_cancel,
      Venue.orderShortages_unstamped mode pool same]
    rfl
  have orders := moved .orders
  have levels := moved .levels
  change _ - report.orderPoolBefore = _ at orders
  change _ - report.levelPoolBefore = _ at levels
  rw [BenchmarkReport.poolDelta]
  change state.context.matcher.book.exhaustionCount .orders - _ +
    (state.context.matcher.book.exhaustionCount .levels - _) = _
  rw [orders, levels, BenchmarkConfig.discarded,
    Venue.discarded_eq Market.empty_sound, UInt64.ofNat_add]

theorem discarded (small : Countable config)
    {recorded : (Benchmark sizes size × BenchmarkHistory) × BenchmarkReport}
    (reachable :
      (reportedBenchmark config mode sizes size).Reachable recorded) :
    (∀ trial ∈ recorded.2.trials, trial.Dropless →
      trial.stats.poolExhaustionDelta = .ofNat (config.discarded mode sizes)) ∧
    recorded.2.trials.length = recorded.1.1.trial := by
  have finishes : @Finishes sizes config mode size (Depleted mode)
      fun trial => trial.Dropless → trial.stats.poolExhaustionDelta =
        .ofNat (config.discarded mode sizes) := by
    intro state history report counted ends depleted dropless
    refine (computeTrialStats_arguments _ _ _ _ _ _).2.2.trans ?_
    exact poolDelta_of_depleted depleted (applied_unstamped ends.stored
      ends.kept ends.drained ends.measured dropless.1 dropless.2)
  have maintained := trials_induction small (Depleted.kept mode size) finishes
    reachable
  exact ⟨maintained.trials, maintained.count⟩

theorem discarded_le (config : BenchmarkConfig) (mode : MatchingMode)
    (sizes : PoolSizes) : config.discarded mode sizes ≤ config.span := by
  have phase : ∀ phase, (messagesOf (config.replay phase).window).length ≤
      (config.replay phase).last - (config.replay phase).first := by
    intro phase
    rw [messagesOf, List.length_map, Replay.window]
    exact List.length_take_le ..
  have measured := phase .measured
  change _ ≤ config.warmupIterations + config.measuredIterations -
    config.warmupIterations at measured
  rw [Nat.add_sub_cancel_left] at measured
  refine (Venue.discarded_le _ _).trans ?_
  rw [List.length_map, List.length_append]
  exact Nat.add_le_add (phase .warmup) measured

theorem foldl_exhaustions {trials : List TrialStats} {count : Nat}
    (same : ∀ stats ∈ trials, stats.poolExhaustionDelta = .ofNat count)
    (total : UInt64) :
    trials.foldl (fun total stats => total + stats.poolExhaustionDelta) total =
      total + .ofNat (trials.length * count) := by
  induction trials generalizing total with
  | nil =>
      rw [List.foldl_nil, List.length_nil, Nat.zero_mul]
      exact (UInt64.add_zero total).symm
  | cons stats rest induction =>
      have later := induction
        fun other member => same other (List.mem_cons_of_mem _ member)
      rw [List.foldl_cons, later, same stats List.mem_cons_self,
        List.length_cons, Nat.succ_mul, Nat.add_comm, UInt64.ofNat_add,
        UInt64.add_assoc]

/-- The total of the exhaustions does not wrap around: it is what the plain loop
discards, once for each trial. -/
theorem totalPoolExhaustions_toNat (small : Countable config)
    (countable : config.trials * config.span < 2 ^ 64)
    (reachable : (reportedBenchmark config mode sizes size).Reachable
      ((state, history), report))
    (dropless : ∀ trial ∈ report.trials, trial.Dropless) :
    report.totalPoolExhaustions.toNat =
      report.trials.length * config.discarded mode sizes := by
  obtain ⟨deltas, count⟩ := discarded small reachable
  have total := @foldl_exhaustions report.trialStats _ (by
    intro stats member
    obtain ⟨trial, found, rfl⟩ := List.mem_map.mp member
    exact deltas trial found (dropless trial found)) 0
  rw [UInt64.zero_add, BenchmarkReport.trialStats, List.length_map] at total
  have few : report.trials.length * config.discarded mode sizes <
      UInt64.size := by
    have trials := (charged small reachable).trial
    calc report.trials.length * config.discarded mode sizes
        ≤ config.trials * config.span :=
          Nat.mul_le_mul (count.le.trans (Nat.le_of_add_right_le trials))
            (discarded_le config mode sizes)
      _ < 2 ^ 64 := countable
  rw [BenchmarkReport.totalPoolExhaustions, BenchmarkReport.trialStats, total,
    UInt64.toNat_ofNat_of_lt' few]

theorem totalPoolExhaustions_eq_zero (small : Countable config)
    (countable : config.trials * config.span < 2 ^ 64)
    (reachable : (reportedBenchmark config mode sizes size).Reachable
      ((state, history), report))
    (dropless : ∀ trial ∈ report.trials, trial.Dropless) :
    report.totalPoolExhaustions = 0 ↔
      (report.trials ≠ [] → config.discarded mode sizes = 0) := by
  have total := totalPoolExhaustions_toNat small countable reachable dropless
  rw [← UInt64.toNat_inj, total]
  change _ = 0 ↔ _
  rw [Nat.mul_eq_zero, List.length_eq_zero_iff, ne_eq, or_iff_not_imp_left]

theorem reason_eq_nil {condition : Prop} [Decidable condition]
    (reason : String) :
    (if condition then [reason] else []) = [] ↔ ¬ condition := by
  by_cases holds : condition <;> simp [holds]

theorem overallValid_iff (dirty allowDirty : Bool)
    (totalArenaFallbacks : UInt64) (report : BenchmarkReport) :
    overallValid dirty allowDirty totalArenaFallbacks report = true ↔
      (dirty = true → allowDirty = true) ∧
        determinismPass report.stateHashes = true ∧
        report.totalDroppedEvents = 0 ∧ totalArenaFallbacks = 0 ∧
        report.totalPoolExhaustions = 0 := by
  have none : ∀ count : UInt64, ¬ 0 < count ↔ count = 0 := by
    intro count
    rw [UInt64.not_lt, UInt64.le_zero_iff]
  have clean : ¬ (dirty && !allowDirty) = true ↔
      (dirty = true → allowDirty = true) := by
    cases dirty <;> cases allowDirty <;> simp
  have deterministic (reason : String) :
      (if determinismPass report.stateHashes = true then [] else [reason]) =
        [] ↔ determinismPass report.stateHashes = true := by
    cases determinismPass report.stateHashes <;> simp
  rw [overallValid, List.isEmpty_iff, invalidReasons]
  simp only [List.append_eq_nil_iff, reason_eq_nil, deterministic, clean, none,
    and_assoc]

/-- When the trials are over, the totals have not wrapped around, and a trial
that has given up on no event reports as many exhaustions as the plain loop
discards remainders.  The benchmark is reported as valid exactly when its
working tree was clean or allowed not to be, the arena was large enough, no
phase of a trial has given up on an event, and the plain loop discards nothing;
the check for determinism never fails alone. -/
theorem verdict_exact (small : Countable config)
    (countable : config.trials * config.span < 2 ^ 64)
    (reachable : (reportedBenchmark config mode sizes size).Reachable
      ((state, history), report))
    (finished : state.point = .done) :
    report.totalDroppedEvents.toNat = (report.trials.map Trial.lost).sum ∧
    (∀ trial ∈ report.trials, trial.Dropless →
      trial.stats.poolExhaustionDelta.toNat = config.discarded mode sizes) ∧
    ((∀ trial ∈ report.trials, trial.Dropless) →
      determinismPass report.stateHashes = true ∧
      report.totalPoolExhaustions.toNat =
        report.trials.length * config.discarded mode sizes) ∧
    ∀ dirty allowDirty totalArenaFallbacks,
      overallValid dirty allowDirty totalArenaFallbacks report = true ↔
        (dirty = true → allowDirty = true) ∧ totalArenaFallbacks = 0 ∧
          (∀ trial ∈ report.trials, trial.Dropless) ∧
          (report.trials ≠ [] → config.discarded mode sizes = 0) := by
  have between : report.pending state.point = 0 := by
    rw [finished]
    rfl
  have total := total_eq_zero_iff small countable reachable between
  refine ⟨?_, ?_, ?_, ?_⟩
  · rw [totalDroppedEvents_toNat small countable reachable,
      BenchmarkReport.lost, between, Nat.add_zero]
  · intro trial member dropless
    rw [(discarded small reachable).1 trial member dropless]
    exact UInt64.toNat_ofNat_of_lt'
      ((discarded_le config mode sizes).trans_lt small)
  · intro dropless
    exact ⟨(agree_of_dropless small reachable dropless).1,
      totalPoolExhaustions_toNat small countable reachable dropless⟩
  · intro dirty allowDirty totalArenaFallbacks
    rw [overallValid_iff]
    constructor
    · rintro ⟨clean, _, kept, arena, pools⟩
      have dropless := total.mp kept
      exact ⟨clean, arena, dropless, (totalPoolExhaustions_eq_zero small
        countable reachable dropless).mp pools⟩
    · rintro ⟨clean, arena, dropless, pools⟩
      exact ⟨clean, (agree_of_dropless small reachable dropless).1,
        total.mpr dropless, arena, (totalPoolExhaustions_eq_zero small
          countable reachable dropless).mpr pools⟩

/-- The short benchmark discards nothing, and is valid after both trials. -/
theorem verdict_exact_short :
    ∃ (state : Benchmark configSizes 4) (history : BenchmarkHistory)
        (report : BenchmarkReport),
      (reportedBenchmark shortBenchmark .priceTime configSizes 4).Reachable
        ((state, history), report) ∧
      state.point = .done ∧ report.trials.length = 2 ∧
      overallValid true true 0 report = true := by
  obtain ⟨_, _, _, report, reachable, length, dropless⟩ :=
    shortBenchmark_trials
  have finished := reported_step reachable
    (.finish rfl (Nat.lt_irrefl 2)) (by simp [storesDrained])
  obtain ⟨_, _, _, valid⟩ :=
    verdict_exact shortBenchmark_countable (by decide) finished rfl
  have kept : shortBenchmark.discarded .priceTime configSizes = 0 := by
    decide +kernel
  exact ⟨_, _, _, finished, rfl, length,
    (valid true true 0).mpr ⟨id, rfl, dropless, fun _ => kept⟩⟩

end Benchmark

end Hydra
