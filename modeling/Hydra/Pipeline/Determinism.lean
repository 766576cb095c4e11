import Hydra.Pipeline.Report

/-!
# Trials are sequential replays

Whatever the two threads of the benchmark do, a trial that gives up on no event
counts what the plain loop counts over the same events, from an empty book: the
queue keeps the order of the messages, the resets leave nothing of the trial
before, and no time stamp is ever read.  So the fingerprints of such trials
agree.
-/

namespace Hydra

variable {sizes : PoolSizes} {size : Nat}

/-- The message that is applied and has no sample yet. -/
def MatchingPoint.called : MatchingPoint → Option (Order × MatchStats)
  | readDone order _ _ stats => some (order, stats)
  | _ => none

theorem MatchingPoint.Idle.called {point : MatchingPoint}
    (idle : point.Idle) : point.called = none := by
  cases point with
  | loop | test | readStart | pop | exited => rfl
  | readEnd | readCall | call | readDone | loadSink | loadIndex
  | writeSample | storeIndex => exact absurd idle id

theorem Matcher.process_mode {matcher : Matcher sizes} {order : Order}
    {result : Processed sizes} (ran : matcher.process order = .ok result) :
    result.matcher.mode = matcher.mode := by
  rw [process] at ran
  split at ran
  next =>
    cases called : matcher.book.cancelOrder order.orderId with
    | error fault =>
        rw [called] at ran
        cases ran
    | ok answer =>
        rw [called] at ran
        cases ran
        rfl
  next =>
    split at ran
    next =>
      cases called : matcher.book.replace matcher.load order.orderId
          order.price order.qty with
      | error fault =>
          rw [called] at ran
          cases ran
      | ok answer =>
          rw [called] at ran
          cases ran
          rfl
    next =>
      cases called : matcher.book.matchOrder matcher.load order with
      | error fault =>
          rw [called] at ran
          cases ran
      | ok answer =>
          rw [called] at ran
          cases ran
          rfl

/-- The messages since `base` that are applied to the book. -/
def appliedSince (base : Nat) (point : MatchingPoint)
    (sampled : List (Order × LatencySample)) : List Order :=
  (sampled.drop base).map Prod.fst ++ (point.called.map Prod.fst).toList

/-- Their samples, the last of which may not be made yet. -/
def samplesSince (base : Nat) (point : MatchingPoint)
    (sampled : List (Order × LatencySample)) : List LatencySample :=
  (sampled.drop base).map (fun entry => entry.2.untimed) ++
    (point.called.map fun entry => entry.1.untimedSample entry.2).toList

/-- The book and the samples are those of the plain loop over the messages
since `base`, from an empty book. -/
structure Tallied (mode : MatchingMode) (base : Nat) (matcher : Matcher sizes)
    (point : MatchingPoint) (sampled : List (Order × LatencySample)) :
    Prop where
  within : base ≤ sampled.length
  wellFormed : matcher.book.WellFormed
  venue : matcher.venue =
    (Venue.start mode).afterOrders sizes (appliedSince base point sampled)
  samples : samplesSince base point sampled =
    (Venue.start mode).samples sizes (appliedSince base point sampled)

namespace Tallied

variable {mode : MatchingMode} {base : Nat} {matcher : Matcher sizes}
variable {context next : PipelineContext sizes size} {stopped : Bool}
variable {point nextPoint : MatchingPoint} {event : MatchingEvent}
variable {sampled : List (Order × LatencySample)}

theorem silent (tallied : Tallied mode base matcher point sampled)
    (called : nextPoint.called = point.called) :
    Tallied mode base matcher nextPoint (sampled ++ []) := by
  obtain ⟨within, wellFormed, venue, samples⟩ := tallied
  rw [appliedSince, ← called] at venue samples
  rw [samplesSince, ← called] at samples
  rw [List.append_nil]
  exact ⟨within, wellFormed, venue, samples⟩

theorem step (tallied : Tallied mode base context.matcher point sampled)
    (taken : MatchingPoint.Step stopped context point event next nextPoint) :
    Tallied mode base next.matcher nextPoint
      (sampled ++ (point.sampled nextPoint).toList) := by
  cases taken with
  | exit | enter | again | giveUp | readStart | popNone | popSome | readEnd
  | readCall | noSink | loadSink | sinkFull | loadIndex | writeSample
  | storeIndex =>
      exact tallied.silent rfl
  | @call order times result readings processed published =>
      obtain ⟨within, wellFormed, venue, samples⟩ := tallied
      obtain ⟨other, ran, nextFormed, nextVenue, stats⟩ :=
        Matcher.process_spec wellFormed order
      rw [processed] at ran
      cases ran
      change _ = (Venue.start mode).afterOrders sizes (_ ++ []) at venue
      change _ ++ [] = (Venue.start mode).samples sizes (_ ++ []) at samples
      rw [List.append_nil] at venue
      rw [List.append_nil, List.append_nil] at samples
      change Tallied mode base result.matcher _ (sampled ++ [])
      rw [List.append_nil]
      refine ⟨within, nextFormed, ?_, ?_⟩
      · change _ = (Venue.start mode).afterOrders sizes (_ ++ [order])
        rw [Venue.afterOrders_append, ← venue, nextVenue]
        rfl
      · change _ ++ [order.untimedSample result.stats] =
          (Venue.start mode).samples sizes (_ ++ [order])
        rw [Venue.samples_append, ← venue, samples, stats]
        rfl
  | @readDone order times publishNs stats nowNs =>
      obtain ⟨within, wellFormed, venue, samples⟩ := tallied
      let sample := latencySample order times publishNs stats nowNs
      have applied : appliedSince base (.loadSink sample)
          (sampled ++ [(order, sample)]) =
            appliedSince base (.readDone order times publishNs stats)
              sampled := by
        rw [appliedSince, List.drop_append_of_le_length within, List.map_append,
          appliedSince]
        exact List.append_nil _
      have made : samplesSince base (.loadSink sample)
          (sampled ++ [(order, sample)]) =
            samplesSince base (.readDone order times publishNs stats)
              sampled := by
        rw [samplesSince, List.drop_append_of_le_length within, List.map_append,
          samplesSince]
        refine (List.append_nil _).trans (congrArg (_ ++ [·]) ?_)
        exact latencySample_untimed order times publishNs stats nowNs
      refine ⟨?_, wellFormed, ?_, ?_⟩
      · rw [List.length_append]
        exact Nat.le_add_right_of_le within
      · exact venue.trans (congrArg _ applied.symm)
      · exact made.trans (samples.trans (congrArg _ applied.symm))

theorem of_empty (idle : point.Idle)
    (wellFormed : matcher.book.WellFormed)
    (venue : matcher.venue = Venue.start mode) :
    Tallied mode sampled.length matcher point sampled := by
  have called := idle.called
  refine ⟨le_rfl, wellFormed, ?_, ?_⟩
  · rw [appliedSince, List.drop_length, called]
    exact venue
  · rw [samplesSince, appliedSince, List.drop_length, called]
    rfl

end Tallied

namespace Benchmark

variable {config : BenchmarkConfig} {mode : MatchingMode}
variable {state next : Benchmark sizes size} {history : BenchmarkHistory}
variable {report : BenchmarkReport} {event : BenchmarkEvent}

/-- What the messages of a phase that is over have to do with its result. -/
structure Replayed (config : BenchmarkConfig) (phase : Phase)
    (result : ReplayPhaseResult) (messages : List Order) : Prop where
  /-- Events that are not pushed are counted as dropped. -/
  counted : messages.length + result.dropped.toNat =
    (config.replay phase).last - (config.replay phase).first
  /-- Without them the messages are those of the events. -/
  content : result.dropped = 0 → messages.map Order.unstamped =
    (messagesOf (config.replay phase).window).map Order.unstamped

/-- The warm-up of the trial is pushed, and the sink is stored. -/
structure Stored (config : BenchmarkConfig) (history : BenchmarkHistory)
    (report : BenchmarkReport) : Prop where
  base : report.base ≤ history.stored
  stored : history.stored ≤ history.pushed.length
  warmup : Replayed config .warmup report.warmupResult
    ((history.pushed.take history.stored).drop report.base)

/-- What is known about the messages of the trial where the trial loop
stands. -/
def Stands (config : BenchmarkConfig) (mode : MatchingMode)
    (state : Benchmark sizes size) (history : BenchmarkHistory)
    (report : BenchmarkReport) : TrialPoint → Prop
  | .test => state.trial = 0 → history.pushed = [] ∧
      Tallied mode 0 state.context.matcher state.matching history.sampled
  | .resetBook | .done => True
  | .resetOrderPool =>
      ∃ old : OrderBook sizes, state.context.matcher.book = old.reset
  | .resetLevelPool =>
      ∃ old : OrderBook sizes, state.context.matcher.book =
        { old.reset with orderPool := old.orderPool.reset }
  | .replay .warmup thread =>
      Tallied mode report.base state.context.matcher state.matching
          history.sampled ∧
        report.base ≤ history.pushed.length ∧
        ReplayThread.Replays (config.replay .warmup) thread
          (history.pushed.drop report.base)
  | .storeSink =>
      Tallied mode report.base state.context.matcher state.matching
          history.sampled ∧
        report.base ≤ history.pushed.length ∧
        Replayed config .warmup report.warmupResult
          (history.pushed.drop report.base)
  | .replay .measured thread =>
      Tallied mode report.base state.context.matcher state.matching
          history.sampled ∧
        Stored config history report ∧
        ReplayThread.Replays (config.replay .measured) thread
          (history.pushed.drop history.stored)
  | .wait _ | .clearSink _ | .assign _ =>
      Tallied mode report.base state.context.matcher state.matching
          history.sampled ∧
        Stored config history report ∧
        Replayed config .measured report.measuredResult
          (history.pushed.drop history.stored)

/-- The counters of the plain loop over the events of a trial. -/
def Sequential (config : BenchmarkConfig) (mode : MatchingMode)
    (sizes : PoolSizes) (stats : TrialStats) : Prop :=
  let warm := (Venue.start mode).afterOrders sizes
    (messagesOf (config.replay .warmup).window)
  let measured := messagesOf (config.replay .measured).window
  let final := (warm.afterOrders sizes measured).market
  stats = computeTrialStats (warm.samples sizes measured)
    (final.ladder .buy).entries.length (final.ladder .sell).entries.length
    0 stats.maxScheduleDriftNs stats.poolExhaustionDelta

/-- What holds at all times of a benchmark with its report. -/
structure Reported (config : BenchmarkConfig) (mode : MatchingMode)
    (state : Benchmark sizes size) (history : BenchmarkHistory)
    (report : BenchmarkReport) : Prop where
  unswitched : state.context.matcher.mode = mode
  stands : Stands config mode state history report state.point
  trials : ∀ trial ∈ report.trials, trial.Dropless →
    Sequential config mode sizes trial.stats

theorem Starts.reported (starts : Starts mode state) :
    Reported config mode state .start {} where
  unswitched := by
    rw [starts.matcher]
    rfl
  stands := by
    rw [starts.point]
    intro _
    refine ⟨rfl, ?_⟩
    have idle : state.matching.Idle := by
      rw [starts.matching]
      trivial
    rw [starts.matcher]
    exact @Tallied.of_empty sizes mode _ _ [] idle
      (Matcher.start_wellFormed mode) (Matcher.start_venue mode)
  trials := nofun

theorem Stands.matching {context : PipelineContext sizes size}
    {point : MatchingPoint} {taken : MatchingEvent} {stand : TrialPoint}
    (quiet : state.Exclusive → state.Drained) (at_stand : state.point = stand)
    (stands : Stands config mode state history report stand)
    (step : MatchingPoint.Step state.matchingStop state.context state.matching
      taken context point) :
    Stands config mode { state with context, matching := point }
      (history.record state (.matching taken)
        { state with context, matching := point }) report stand := by
  rw [Exclusive, at_stand] at quiet
  cases stand with
  | test =>
      intro first
      obtain ⟨unpushed, tallied⟩ := stands first
      exact ⟨unpushed, tallied.step step⟩
  | resetBook | done => trivial
  | resetOrderPool | resetLevelPool =>
      obtain ⟨empty, idle⟩ := quiet trivial
      obtain ⟨_, same, _⟩ := step.idle idle empty
      rw [same]
      exact stands
  | replay phase thread =>
      cases phase with
      | warmup => exact ⟨stands.1.step step, stands.2⟩
      | measured =>
          obtain ⟨tallied, stored, replays⟩ := stands
          exact ⟨tallied.step step, ⟨stored.1, stored.2, stored.3⟩, replays⟩
  | storeSink => exact ⟨stands.1.step step, stands.2⟩
  | wait | clearSink | assign =>
      obtain ⟨tallied, stored, measured⟩ := stands
      exact ⟨tallied.step step, ⟨stored.1, stored.2, stored.3⟩, measured⟩

theorem matching_mode {stopped : Bool}
    {context later : PipelineContext sizes size}
    {point nextPoint : MatchingPoint} {taken : MatchingEvent}
    (step : MatchingPoint.Step stopped context point taken later nextPoint) :
    later.matcher.mode = context.matcher.mode := by
  cases step with
  | call readings processed => exact Matcher.process_mode processed
  | exit | enter | again | giveUp | readStart | popNone | popSome | readEnd
  | readCall | readDone | noSink | loadSink | sinkFull | loadIndex
  | writeSample | storeIndex => rfl

/-- Nothing but times and totals of samples depends on their times. -/
theorem computeTrialStats_untimed (samples : List LatencySample)
    (bids asks : Nat) (dropped drift exhausted : UInt64) :
    computeTrialStats (samples.map LatencySample.untimed) bids asks dropped
        drift exhausted =
      computeTrialStats samples bids asks dropped drift exhausted := by
  rw [computeTrialStats, List.foldl_map]
  rfl

theorem bidLevelCount_eq (book : OrderBook sizes) :
    book.bidLevelCount = (book.view.ladder .buy).entries.length :=
  (List.length_map _).symm

theorem askLevelCount_eq (book : OrderBook sizes) :
    book.askLevelCount = (book.view.ladder .sell).entries.length :=
  (List.length_map _).symm

theorem samples_second {first second other last : List Order}
    (firstSame : first.map Order.unstamped = other.map Order.unstamped)
    (secondSame : second.map Order.unstamped = last.map Order.unstamped) :
    ((Venue.start mode).samples sizes (first ++ second)).drop first.length =
      ((Venue.start mode).afterOrders sizes other).samples sizes last := by
  have same : (first ++ second).map Order.unstamped =
      (other ++ last).map Order.unstamped := by
    rw [List.map_append, List.map_append, firstSame, secondSame]
  have lengths := congrArg List.length firstSame
  rw [List.length_map, List.length_map] at lengths
  obtain ⟨samples, _⟩ := @Venue.samples_unstamped sizes mode _ _ same
  rw [samples, lengths, Venue.samples_append,
    ← @Venue.length_samples sizes (Venue.start mode) other, List.drop_left]

theorem applied_of_drained (stored : Stored config history report)
    (kept : Kept config state history) (drained : state.Drained) :
    appliedSince report.base state.matching history.sampled =
      (history.pushed.take history.stored).drop report.base ++
        history.pushed.drop history.stored := by
  obtain ⟨empty, idle⟩ := drained
  have flow := kept.flow
  rw [empty, idle.nothing.1] at flow
  have pushed : history.pushed = history.sampled.map Prod.fst :=
    flow.trans (List.append_nil _)
  have split : history.pushed.drop report.base =
      (history.pushed.take history.stored).drop report.base ++
        history.pushed.drop history.stored := by
    rw [← List.drop_append_of_le_length, List.take_append_drop]
    rw [List.length_take, Nat.min_eq_left stored.stored]
    exact stored.base
  rw [appliedSince, idle.called, List.map_drop, ← pushed, split]
  exact List.append_nil _

/-- If none was dropped they are the messages of the events. -/
theorem applied_unstamped (stored : Stored config history report)
    (kept : Kept config state history) (drained : state.Drained)
    (measured : Replayed config .measured report.measuredResult
      (history.pushed.drop history.stored))
    (warmupKept : report.warmupResult.dropped = 0)
    (measuredKept : report.measuredResult.dropped = 0) :
    (appliedSince report.base state.matching history.sampled).map
        Order.unstamped =
      (messagesOf (config.replay .warmup).window ++
        messagesOf (config.replay .measured).window).map Order.unstamped := by
  rw [applied_of_drained stored kept drained, List.map_append,
    List.map_append, stored.warmup.content warmupKept,
    measured.content measuredKept]

theorem sequential_of_tallied {counted : Nat}
    (tallied : Tallied mode report.base state.context.matcher state.matching
      history.sampled)
    (stored : Stored config history report)
    (measured : Replayed config .measured report.measuredResult
      (history.pushed.drop history.stored))
    (kept : Kept config state history) (drained : state.Drained)
    (collected : Collected state history counted)
    (warmupKept : report.warmupResult.dropped = 0)
    (measuredKept : report.measuredResult.dropped = 0) :
    Sequential config mode sizes
      (computeTrialStats
        ((state.context.sinks state.trial).samples.take counted)
        state.context.matcher.book.bidLevelCount
        state.context.matcher.book.askLevelCount
        report.measuredResult.dropped report.measuredResult.maxDriftNs
        (report.poolDelta state.context.matcher.book)) := by
  obtain ⟨within, _, venue, samples⟩ := tallied
  have applied := applied_of_drained stored kept drained
  have same := applied_unstamped stored kept drained measured warmupKept
    measuredKept
  obtain ⟨_, levels⟩ := @Venue.samples_unstamped sizes mode _ _ same
  have length : ((history.pushed.take history.stored).drop
      report.base).length = history.stored - report.base := by
    rw [List.length_drop, List.length_take, Nat.min_eq_left stored.stored]
  rw [applied] at samples
  have taken : ((state.context.sinks state.trial).samples.take counted).map
        LatencySample.untimed =
      ((Venue.start mode).afterOrders sizes
        (messagesOf (config.replay .warmup).window)).samples sizes
        (messagesOf (config.replay .measured).window) := by
    rw [← samples_second (stored.warmup.content warmupKept)
      (measured.content measuredKept), ← samples, length, samplesSince,
      drained.2.called, collected.samples, List.map_map]
    change _ = (_ ++ []).drop _
    rw [List.append_nil, ← List.map_drop, List.drop_drop,
      Nat.add_sub_cancel' stored.base]
    rfl
  have view : state.context.matcher.book.view =
      ((Venue.start mode).afterOrders sizes _).market :=
    congrArg Venue.market venue
  rw [Sequential, ← Venue.afterOrders_append, ← taken,
    computeTrialStats_untimed, measuredKept, bidLevelCount_eq,
    askLevelCount_eq, view]
  obtain ⟨_, drift, exhausted⟩ := computeTrialStats_arguments
    ((state.context.sinks state.trial).samples.take counted)
    _ _ 0 report.measuredResult.maxDriftNs
    (report.poolDelta state.context.matcher.book)
  rw [drift, exhausted, ← levels .buy, ← levels .sell]

/-- A step that leaves the trial loop where it is leaves the report as it
is. -/
theorem record_same {before after : Benchmark sizes size × BenchmarkHistory}
    (same : after.1.point = before.1.point) :
    BenchmarkReport.record before event after report = report := by
  rw [BenchmarkReport.record, same]
  cases before.1.point with
  | replay phase thread => cases phase <;> rfl
  | test | resetBook | resetOrderPool | resetLevelPool | storeSink | wait
  | clearSink | assign | done => rfl

theorem record_phase {before after : Benchmark sizes size × BenchmarkHistory}
    {phase : Phase} {thread later : ReplayThread}
    (replaying : before.1.point = .replay phase thread)
    (still : after.1.point = .replay phase later) :
    BenchmarkReport.record before event after report = report := by
  rw [BenchmarkReport.record, replaying, still]
  cases phase <;> rfl

theorem resetAll_empty (mode : MatchingMode) (old : OrderBook sizes) :
    old.resetAll.WellFormed ∧
      Matcher.venue { book := old.resetAll, mode } = Venue.start mode := by
  rw [OrderBook.resetAll_eq]
  refine ⟨⟨_, OrderBook.empty_settled.recount _ _⟩, ?_⟩
  rw [Matcher.venue, OrderBook.view_recount, OrderBook.view_empty]
  rfl

/-- No phase has more events than a counter can count. -/
def Countable (config : BenchmarkConfig) : Prop :=
  config.warmupIterations + config.measuredIterations < 2 ^ 64

theorem Countable.phase (small : Countable config) (phase : Phase) :
    (config.replay phase).last - (config.replay phase).first < 2 ^ 64 := by
  rw [Countable] at small
  cases phase with
  | warmup =>
      change config.warmupIterations - 0 < 2 ^ 64
      omega
  | measured =>
      change config.warmupIterations + config.measuredIterations -
        config.warmupIterations < 2 ^ 64
      omega

theorem replayed_of_returned (small : Countable config) {phase : Phase}
    {thread : ReplayThread} {pushed : List Order}
    (replays : ReplayThread.Replays (config.replay phase) thread pushed)
    (returned : thread.point = .returned) :
    Replayed config phase thread.result pushed where
  counted := by
    have few := replays.few
    have dropped := replays.dropped
    rw [returned, ReplayThread.passed] at few dropped
    rw [dropped, UInt64.toNat_ofNat_of_lt', Nat.add_sub_cancel' few]
    exact lt_of_le_of_lt (Nat.sub_le _ _) (small.phase phase)
  content := replays.whole (small.phase phase) returned

theorem Stands.replay {phase : Phase} {thread next : ReplayThread}
    {queue : MutexQueue Order size} {event : IngestEvent}
    (stands : Stands config mode state history report (.replay phase thread))
    (taken : ReplayThread.Step (config.replay phase) thread event next) :
    Stands config mode
      { state with
        context := { state.context with queue }
        point := .replay phase next }
      (history.record state (.replay event) state) report
      (.replay phase next) := by
  have ordered := config.replay_ordered phase
  cases phase with
  | warmup =>
      obtain ⟨tallied, base, replays⟩ := stands
      refine ⟨tallied, ?_, ?_⟩
      · change report.base ≤ (history.pushed ++ event.pushed).length
        rw [List.length_append]
        exact Nat.le_add_right_of_le base
      · change ReplayThread.Replays _ _
          ((history.pushed ++ event.pushed).drop report.base)
        rw [List.drop_append_of_le_length base]
        exact taken.replays ordered replays
  | measured =>
      obtain ⟨tallied, ⟨base, stored, warmup⟩, replays⟩ := stands
      refine ⟨tallied, ⟨base, ?_, ?_⟩, ?_⟩
      · change history.stored ≤ (history.pushed ++ event.pushed).length
        rw [List.length_append]
        exact Nat.le_add_right_of_le stored
      · change Replayed _ _ _ (((history.pushed ++ event.pushed).take
          history.stored).drop report.base)
        rw [List.take_append_of_le_length stored]
        exact warmup
      · change ReplayThread.Replays _ _
          ((history.pushed ++ event.pushed).drop history.stored)
        rw [List.drop_append_of_le_length stored]
        exact taken.replays ordered replays

theorem Step.reported (small : Countable config)
    (taken : Step config state event next)
    (kept : Kept config state history) (drawn : Drawn config state history)
    (reported : Reported config mode state history report) :
    Reported config mode next (history.record state event next)
      (report.record (state, history) event
        (next, history.record state event next)) := by
  obtain ⟨unswitched, stands, trials⟩ := reported
  have quiet : state.Exclusive → state.Drained :=
    fun exclusive => drawn.quiet (kept.exclusive exclusive)
  cases taken with
  | finish testing | again testing | resetBook testing =>
      rw [BenchmarkReport.record, testing]
      first
        | exact ⟨unswitched, trivial, trials⟩
        | exact ⟨unswitched, ⟨_, rfl⟩, trials⟩
  | first testing more fresh =>
      rw [testing] at stands
      obtain ⟨unpushed, tallied⟩ := stands fresh
      rw [BenchmarkReport.record, testing]
      have base : history.pushed.length = 0 := by
        rw [unpushed]
        rfl
      refine ⟨unswitched, ⟨?_, le_rfl, ?_⟩, trials⟩
      · change Tallied mode history.pushed.length _ _ _
        rw [base]
        exact tallied
      · change ReplayThread.Replays _ _
          (history.pushed.drop history.pushed.length)
        rw [List.drop_length]
        exact ReplayThread.start_replays _
  | resetOrderPool resetting =>
      rw [resetting] at stands
      obtain ⟨old, book⟩ := stands
      rw [BenchmarkReport.record, resetting]
      refine ⟨unswitched, ⟨old, ?_⟩, trials⟩
      change { state.context.matcher.book with
        orderPool := state.context.matcher.book.orderPool.reset } = _
      rw [book]
      rfl
  | resetLevelPool resetting =>
      rw [resetting] at stands
      obtain ⟨old, book⟩ := stands
      rw [Exclusive, resetting] at quiet
      obtain ⟨empty, idle⟩ := quiet trivial
      rw [BenchmarkReport.record, resetting]
      have emptied : { state.context.matcher.book with
          levelPool := state.context.matcher.book.levelPool.reset } =
          old.resetAll := by
        rw [book]
        rfl
      have base : history.pushed.length = history.sampled.length := by
        rw [kept.flow, empty, idle.nothing.1]
        change (history.sampled.map Prod.fst ++ []).length = _
        rw [List.append_nil, List.length_map]
      obtain ⟨wellFormed, venue⟩ := resetAll_empty mode old
      refine ⟨unswitched, ⟨?_, le_rfl, ?_⟩, trials⟩
      · change Tallied mode history.pushed.length
          { book := { state.context.matcher.book with
              levelPool := state.context.matcher.book.levelPool.reset }
            mode := state.context.matcher.mode }
          state.matching history.sampled
        rw [base, emptied, unswitched]
        exact .of_empty idle wellFormed venue
      · change ReplayThread.Replays _ _
          (history.pushed.drop history.pushed.length)
        rw [List.drop_length]
        exact ReplayThread.start_replays _
  | @replay phase thread event next queue replaying taken acts =>
      rw [replaying] at stands
      rw [record_phase replaying rfl]
      exact ⟨unswitched, Stands.replay stands taken, trials⟩
  | warmedUp replaying returned =>
      rw [replaying] at stands
      obtain ⟨tallied, base, replays⟩ := stands
      rw [BenchmarkReport.record, replaying]
      exact ⟨unswitched, ⟨tallied, base,
        replayed_of_returned small replays returned⟩, trials⟩
  | storeSink storing =>
      rw [storing] at stands
      obtain ⟨tallied, base, warmup⟩ := stands
      rw [BenchmarkReport.record, storing]
      refine ⟨unswitched, ⟨tallied, ⟨base, le_rfl, ?_⟩, ?_⟩, trials⟩
      · change Replayed _ _ _ ((history.pushed.take
          history.pushed.length).drop report.base)
        rw [List.take_length]
        exact warmup
      · change ReplayThread.Replays _ _
          (history.pushed.drop history.pushed.length)
        rw [List.drop_length]
        exact ReplayThread.start_replays _
  | measured replaying returned =>
      rw [replaying] at stands
      obtain ⟨tallied, stored, replays⟩ := stands
      rw [BenchmarkReport.record, replaying]
      exact ⟨unswitched, ⟨tallied, ⟨stored.1, stored.2, stored.3⟩,
        replayed_of_returned small replays returned⟩, trials⟩
  | spin | stop =>
      rw [record_same]
      · exact ⟨unswitched, stands, trials⟩
      · rfl
  | waited waiting =>
      rw [waiting] at stands
      obtain ⟨tallied, stored, measured⟩ := stands
      rw [BenchmarkReport.record, waiting]
      exact ⟨unswitched, ⟨tallied, ⟨stored.1, stored.2, stored.3⟩, measured⟩,
        trials⟩
  | clearSink clearing =>
      rw [clearing] at stands
      rw [BenchmarkReport.record, clearing]
      exact ⟨unswitched, stands, trials⟩
  | @assign pushed assigning =>
      have sink := drawn.sink
      rw [assigning] at stands sink
      obtain ⟨tallied, stored, measured⟩ := stands
      rw [Exclusive, assigning] at quiet
      rw [BenchmarkReport.record, assigning]
      refine ⟨unswitched, fun impossible => absurd impossible ?_, ?_⟩
      · exact Nat.succ_ne_zero state.trial
      · intro trial member dropless
        rcases List.mem_append.mp member with earlier | last
        · exact trials trial earlier dropless
        · obtain rfl := List.mem_singleton.mp last
          exact sequential_of_tallied tallied stored measured kept
            (quiet trivial) sink.2 dropless.1 dropless.2
  | matching step =>
      rw [record_same]
      · exact ⟨(matching_mode step).trans unswitched,
          Stands.matching quiet rfl stands step, trials⟩
      · rfl

theorem reported (small : Countable config)
    {recorded : (Benchmark sizes size × BenchmarkHistory) × BenchmarkReport}
    (reachable :
      (reportedBenchmark config mode sizes size).Reachable recorded) :
    Reported config mode recorded.1.1 recorded.1.2 recorded.2 := by
  induction reachable with
  | initial starts =>
      obtain ⟨⟨starts, fresh⟩, unreported⟩ := starts
      rw [fresh, unreported]
      exact starts.reported
  | step earlier taken induction =>
      obtain ⟨⟨_, step, recorded⟩, noted⟩ := taken
      have guarded := earlier.of_withGhost
      have next := step.reported small (kept guarded.of_guarded)
        (drawn guarded) induction
      rw [noted, recorded]
      rw [← recorded] at next ⊢
      exact next

/-- A trial that gives up on no event reports what the plain loop counts over
the events of its window, after those of the warm-up, from an empty book. -/
theorem trials_sequential (small : Countable config)
    (reachable : (reportedBenchmark config mode sizes size).Reachable
      ((state, history), report)) :
    ∃ warm samples, ∃ middle final : Matcher sizes,
      (Matcher.start mode).measure
          (messagesOf (config.replay .warmup).window) = .ok (warm, middle) ∧
      middle.measure (messagesOf (config.replay .measured).window) =
        .ok (samples, final) ∧
      ∀ trial ∈ report.trials, trial.Dropless →
        trial.stats = computeTrialStats samples final.book.bidLevelCount
          final.book.askLevelCount 0 trial.stats.maxScheduleDriftNs
          trial.stats.poolExhaustionDelta := by
  obtain ⟨middle, warmed, middleFormed, middleVenue⟩ :=
    Matcher.measure_spec (@Matcher.start_wellFormed sizes mode)
      (messagesOf (config.replay .warmup).window)
  obtain ⟨final, measured, _, finalVenue⟩ :=
    Matcher.measure_spec middleFormed
      (messagesOf (config.replay .measured).window)
  have start : (Matcher.start mode : Matcher sizes).venue =
      Venue.start mode := Matcher.start_venue mode
  rw [start] at middleVenue
  rw [middleVenue] at measured finalVenue
  refine ⟨_, _, middle, final, warmed, measured, ?_⟩
  intro trial member dropless
  have sequential := (reported small reachable).trials trial member dropless
  have view : final.book.view = _ := congrArg Venue.market finalVenue
  rw [bidLevelCount_eq, askLevelCount_eq, view]
  exact sequential

section Session

variable {context later : PipelineContext sizes size}
variable {number : Nat} {records : List (List LatencySample)}

theorem reported_step
    (reachable : (reportedBenchmark config mode sizes size).Reachable
      ((state, history), report))
    (taken : Step config state event next)
    (permitted : storesDrained (state, history) event) :
    (reportedBenchmark config mode sizes size).Reachable
      ((next, history.record state event next),
        report.record (state, history) event
          (next, history.record state event next)) :=
  .step reachable ⟨⟨permitted, taken, rfl⟩, rfl⟩

theorem reported_phase {phase : Phase} {thread other : ReplayThread}
    {items last : List Order}
    (fills : ReplayThread.Fills size (config.replay phase) thread items other
      last)
    (reachable : (reportedBenchmark config mode sizes size).Reachable
      ((inTrial number records (context.withItems items)
        (.replay phase thread), history), report)) :
    ∃ after, (reportedBenchmark config mode sizes size).Reachable
        ((inTrial number records (context.withItems last)
          (.replay phase other), after), report) ∧
      after.sampled = history.sampled ∧ after.stored = history.stored := by
  have lifted : ∀ pair, Relation.ReflTransGen
      (ReplayThread.QueueStep (config.replay phase))
        (thread, ({ queue := items } : MutexQueue Order size)) pair →
      ∃ after, (reportedBenchmark config mode sizes size).Reachable
          ((inTrial number records { context with queue := pair.2 }
            (.replay phase pair.1), after), report) ∧
        after.sampled = history.sampled ∧
        after.stored = history.stored := by
    intro pair run
    induction run with
    | refl => exact ⟨history, reachable, rfl, rfl⟩
    | tail _ taken induction =>
        obtain ⟨after, earlier, sampled, stored⟩ := induction
        obtain ⟨event, taken, acts⟩ := taken
        have stepped := reported_step earlier (.replay rfl taken acts)
          (by simp [storesDrained])
        rw [record_phase rfl rfl] at stepped
        exact ⟨_, stepped, sampled, stored⟩
  exact lifted _ fills.run

theorem reported_serve {count : Nat} {point : TrialPoint}
    (serves : MatchingPoint.Serves context count later)
    (reachable : (reportedBenchmark config mode sizes size).Reachable
      ((inTrial number records context point, history), report)) :
    ∃ after, (reportedBenchmark config mode sizes size).Reachable
        ((inTrial number records later point, after), report) ∧
      after.pushed = history.pushed ∧ after.stored = history.stored := by
  have lifted : ∀ pair, Relation.ReflTransGen MatchingPoint.ContextStep
        (context, .loop) pair →
      ∃ after, (reportedBenchmark config mode sizes size).Reachable
          (({ inTrial number records pair.1 point with
            matching := pair.2 }, after), report) ∧
        after.pushed = history.pushed ∧ after.stored = history.stored := by
    intro pair run
    induction run with
    | refl => exact ⟨history, reachable, rfl, rfl⟩
    | tail _ taken induction =>
        obtain ⟨after, earlier, pushed, stored⟩ := induction
        obtain ⟨event, taken⟩ := taken
        have stepped := reported_step earlier (.matching taken)
          (by simp [storesDrained])
        rw [record_same] at stepped
        · exact ⟨_, stepped, pushed, stored⟩
        · rfl
  exact lifted _ serves.run

theorem fills_all {replay : Replay} (found : replay.last ≤ replay.events.length)
    (left : Nat) :
    ∀ (thread : ReplayThread) (index : Nat) (items : List Order),
      thread.point = .loop index → index + left = replay.last →
      items.length + left ≤ size →
      ∃ other last, ReplayThread.Fills size replay thread items other last ∧
        other.point = .returned ∧ last.length = items.length + left := by
  induction left with
  | zero =>
      intro thread index items looping reached _
      have finished := (ReplayThread.Fills.refl size replay thread items).after
        (.finish looping (by omega)) rfl
      exact ⟨_, items, finished, rfl, rfl⟩
  | succ left induction =>
      intro thread index items looping reached fits
      have within : index < replay.events.length := by omega
      obtain ⟨middle, some, first, at_loop, _, one, pushed⟩ :=
        ReplayThread.fills_event size looping (by omega)
          (List.getElem?_eq_getElem within) items
      have grown := pushed (by omega)
      obtain ⟨other, last, second, returned, length⟩ :=
        induction middle (index + 1) some at_loop (by omega) (by omega)
      exact ⟨other, last, first.trans second, returned, by omega⟩

theorem fills_whole {replay : Replay} (ordered : replay.first < replay.last)
    (found : replay.last ≤ replay.events.length)
    (fits : replay.last - replay.first ≤ size) :
    ∃ other last, ReplayThread.Fills size replay .start [] other last ∧
      other.point = .returned ∧
      last.length = replay.last - replay.first ∧
      other.onPush.length = replay.last - replay.first := by
  have within : replay.first < replay.events.length := by omega
  have begun := (ReplayThread.Fills.refl size replay .start []).after
    (.begin 0 rfl (List.getElem?_eq_getElem within)) rfl
  obtain ⟨other, last, fills, returned, length⟩ :=
    fills_all found (replay.last - replay.first)
      { ReplayThread.start with
        phaseStartNs := 0
        baseOffsetNs := replay.events[replay.first].arrivalOffsetNs
        point := .loop replay.first }
      replay.first [] rfl (Nat.add_sub_cancel' ordered.le)
      (by simpa using fits)
  have whole := begun.trans fills
  have pushes := whole.pushes
  rw [ReplayThread.pushes, returned] at pushes
  change other.onPush.length + 0 = 0 + last.length at pushes
  rw [List.length_nil, Nat.zero_add] at length
  exact ⟨other, last, whole, returned, length, by omega⟩

theorem dropped_of_whole {replay : Replay} {thread : ReplayThread}
    {pushed : List Order} (replays : ReplayThread.Replays replay thread pushed)
    (returned : thread.point = .returned)
    (whole : pushed.length = replay.last - replay.first) :
    thread.result.dropped = 0 := by
  have dropped := replays.dropped
  rw [returned, ReplayThread.passed, whole, Nat.sub_self] at dropped
  exact dropped

theorem proper_phase (proper : Proper config size) (phase : Phase) :
    (config.replay phase).first < (config.replay phase).last ∧
      (config.replay phase).last ≤ (config.replay phase).events.length := by
  cases phase with
  | warmup => exact ⟨proper.warmup, Nat.le_of_add_right_le proper.events⟩
  | measured =>
      exact ⟨Nat.lt_add_of_pos_right proper.measured, proper.events⟩

/-- The queue has room for all events of a phase. -/
def Roomy (config : BenchmarkConfig) (size : Nat) : Prop :=
  ∀ phase, (config.replay phase).last - (config.replay phase).first ≤ size

theorem reported_whole (proper : Proper config size)
    (roomy : Roomy config size) {phase : Phase}
    (empty : context.queue.queue = [])
    (reachable : (reportedBenchmark config mode sizes size).Reachable
      ((inTrial number records context (.replay phase .start), history),
        report)) :
    ∃ thread items after,
      (reportedBenchmark config mode sizes size).Reachable
        ((inTrial number records (context.withItems items)
          (.replay phase thread), after), report) ∧
      thread.point = .returned ∧
      items.length =
        (config.replay phase).last - (config.replay phase).first ∧
      thread.onPush.length = items.length ∧
      after.sampled = history.sampled ∧ after.stored = history.stored := by
  obtain ⟨ordered, found⟩ := proper_phase proper phase
  obtain ⟨thread, items, fills, returned, length, noted⟩ :=
    fills_whole ordered found (roomy phase)
  have still : context = context.withItems [] := by
    rw [PipelineContext.withItems, ← empty]
  rw [still] at reachable
  obtain ⟨after, reached, sampled, stored⟩ := reported_phase fills reachable
  exact ⟨thread, items, after, reached, returned, length,
    noted.trans length.symm, sampled, stored⟩

theorem pushed_length {point : TrialPoint}
    (reachable : (reportedBenchmark config mode sizes size).Reachable
      ((inTrial number records context point, history), report)) :
    history.pushed.length =
      history.sampled.length + context.queue.queue.length := by
  have flow := (kept reachable.of_withGhost.of_guarded).flow
  have length := congrArg List.length flow
  rw [List.length_append, List.length_map] at length
  exact length

/-- The warm-up of a trial can be over with nothing of it left and nothing
dropped. -/
theorem reach_warm (small : Countable config) (proper : Proper config size)
    (roomy : Roomy config size) (empty : context.queue.queue = [])
    (unstored : context.rawSamples = none)
    (started : (reportedBenchmark config mode sizes size).Reachable
      ((inTrial number records context (.replay .warmup .start), history),
        report)) :
    ∃ (later : PipelineContext sizes size) (after : BenchmarkHistory)
        (warmed : BenchmarkReport),
      (reportedBenchmark config mode sizes size).Reachable
        ((inTrial number records later .storeSink, after), warmed) ∧
      later.queue.queue = [] ∧ later.matcher.book.WellFormed ∧
      warmed.warmupResult.dropped = 0 ∧ warmed.trials = report.trials := by
  obtain ⟨tallied, base, replayed⟩ := (reported small started).stands
  obtain ⟨thread, items, first, pushed, returned, length, _, sampled, _⟩ :=
    reported_whole proper roomy empty started
  obtain ⟨talliedLater, _, replays⟩ := (reported small pushed).stands
  have before := pushed_length started
  have whole := pushed_length pushed
  have none := List.length_eq_zero_iff.mp (Nat.le_zero.mp replayed.few)
  have fresh : history.pushed.length = report.base := by
    have count := congrArg List.length none
    rw [List.length_drop] at count
    exact Nat.le_antisymm (Nat.sub_eq_zero_iff_le.mp count) base
  have dropped := dropped_of_whole replays returned (by
    rw [empty, fresh, List.length_nil, Nat.add_zero] at before
    rw [List.length_drop, whole, sampled, ← before]
    exact (Nat.add_sub_cancel_left ..).trans length)
  have storing := reported_step pushed (.warmedUp rfl returned)
    (by simp [storesDrained])
  have room : MatchingPoint.Room (context.withItems items) items.length := by
    intro sink member
    change sink ∈ context.rawSamples at member
    rw [unstored] at member
    cases member
  obtain ⟨later, serves⟩ := MatchingPoint.serves items.length le_rfl
    talliedLater.wellFormed room
  obtain ⟨last, reached, _, _⟩ := reported_serve serves storing
  refine ⟨later, last, _, reached, ?_, serves.wellFormed, dropped, rfl⟩
  rw [serves.queue]
  exact List.drop_length

/-- A trial can drop nothing, and end with nothing left in the queue. -/
theorem dropless_trial (small : Countable config)
    (proper : Proper config size) (roomy : Roomy config size)
    (empty : context.queue.queue = []) (unstored : context.rawSamples = none)
    (started : (reportedBenchmark config mode sizes size).Reachable
      ((inTrial number records context (.replay .warmup .start), history),
        report)) :
    ∃ (taken : List LatencySample) (later : PipelineContext sizes size)
        (after : BenchmarkHistory) (added : BenchmarkReport) (trial : Trial),
      (reportedBenchmark config mode sizes size).Reachable
        ((inTrial (number + 1) (records ++ [taken]) later .test, after),
          added) ∧
      later.queue.queue = [] ∧ later.rawSamples = none ∧
      added.trials = report.trials ++ [trial] ∧ trial.Dropless := by
  obtain ⟨middle, history, report, warm, drained, wellFormed, warmupKept,
    same⟩ := reach_warm small proper roomy empty unstored started
  have stored := reported_step warm (.storeSink rfl)
    (fun _ => ⟨drained, trivial⟩)
  obtain ⟨thread, items, after, pushed, returned, length, noted, sampled,
    base⟩ :=
    @reported_whole _ size config mode _ _
      (middle.withSink number config.measuredIterations) number records proper
      roomy .measured drained stored
  obtain ⟨_, _, replays⟩ := (reported small pushed).stands
  have before := pushed_length warm
  have whole := pushed_length pushed
  rw [sampled] at whole
  rw [drained] at before
  have measuredKept := dropped_of_whole replays returned (by
    rw [List.length_drop, base, whole, ← length]
    change history.sampled.length + items.length - history.pushed.length = _
    rw [before]
    exact Nat.add_sub_cancel_left ..)
  have waiting := reported_step pushed (.measured rfl returned)
    (by simp [storesDrained])
  let filled :=
    (middle.withSink number config.measuredIterations).withItems items
  have sink : filled.sinks number = .fresh config.measuredIterations :=
    middle.withSink_sinks number config.measuredIterations
  have room : MatchingPoint.Room filled items.length := by
    intro other member
    cases member
    rw [sink, length]
    exact ((Nat.zero_add _).trans (Nat.add_sub_cancel_left ..)).le
  obtain ⟨later, serves⟩ : ∃ later,
      MatchingPoint.Serves filled items.length later :=
    MatchingPoint.serves items.length le_rfl wellFormed room
  obtain ⟨served, reached, _, _⟩ := reported_serve serves waiting
  obtain ⟨recorded, _⟩ := serves.recorded number rfl
  have enough : ¬ (later.sinks number).writeIndex < thread.onPush.length := by
    rw [recorded, noted]
    exact Nat.not_lt_of_le (Nat.le_add_left _ _)
  have clearing := reported_step reached (.waited rfl enough)
    (by simp [storesDrained])
  have assigning := reported_step clearing (.clearSink rfl)
    (by simp [storesDrained])
  have last := reported_step assigning (.assign rfl) (by simp [storesDrained])
  refine ⟨_, { later with rawSamples := none }, _, _, _, last, ?_, rfl,
    congrArg (· ++ [_]) same, warmupKept, measuredKept⟩
  change later.queue.queue = []
  rw [serves.queue]
  exact List.drop_length

/-- So many trials can be over that have dropped nothing. -/
theorem exists_dropless (small : Countable config)
    (proper : Proper config size) (roomy : Roomy config size)
    (mode : MatchingMode) {count : Nat} (within : count ≤ config.trials) :
    ∃ (records : List (List LatencySample))
        (context : PipelineContext sizes size) (history : BenchmarkHistory)
        (report : BenchmarkReport),
      (reportedBenchmark config mode sizes size).Reachable
        ((inTrial count records context .test, history), report) ∧
      context.queue.queue = [] ∧ context.rawSamples = none ∧
      report.trials.length = count ∧
      ∀ trial ∈ report.trials, trial.Dropless := by
  induction count with
  | zero =>
      refine ⟨[], freshContext mode, .start, {},
        .initial ⟨⟨firstTrial_starts, rfl⟩, rfl⟩, rfl, rfl, rfl, ?_⟩
      intro trial member
      cases member
  | succ count induction =>
      obtain ⟨records, context, history, report, reachable, empty, unstored,
        length, dropless⟩ := induction (Nat.le_of_succ_le within)
      obtain ⟨fresh, begun, started, drained, cleared, unchanged⟩ :
          ∃ (fresh : PipelineContext sizes size) (begun : BenchmarkReport),
            (reportedBenchmark config mode sizes size).Reachable
              ((inTrial count records fresh (.replay .warmup .start), history),
                begun) ∧
            fresh.queue.queue = [] ∧ fresh.rawSamples = none ∧
            begun.trials = report.trials := by
        cases count with
        | zero =>
            have started := reported_step reachable (.first rfl within rfl)
              (by simp [storesDrained])
            exact ⟨_, _, started, empty, unstored, rfl⟩
        | succ previous =>
            have book := reported_step reachable
              (.again rfl within (Nat.succ_ne_zero previous))
              (by simp [storesDrained])
            have orders := reported_step book (.resetBook rfl)
              (by simp [storesDrained])
            have levels := reported_step orders (.resetOrderPool rfl)
              (by simp [storesDrained])
            have started := reported_step levels (.resetLevelPool rfl)
              (by simp [storesDrained])
            exact ⟨_, _, started, empty, unstored, rfl⟩
      obtain ⟨taken, later, after, added, trial, ended, left, none, trials,
        kept⟩ := dropless_trial small proper roomy drained cleared started
      refine ⟨_, later, after, added, ended, left, none, ?_, ?_⟩
      · rw [trials, unchanged, List.length_append, length]
        rfl
      · intro other member
        rw [trials, unchanged, List.mem_append, List.mem_singleton] at member
        rcases member with earlier | rfl
        · exact dropless other earlier
        · exact kept

end Session

/-- Two orders that trade, and then a replace, a new order without quantity and
a cancel. -/
def shortEvents : List DatasetEvent :=
  [{ type := .newOrder
     order := Pipeline.sessionSell
     cancelOrderId := 0
     arrivalOffsetNs := 0 },
    { type := .newOrder
      order := RxThread.order 2 100000 9 8
      cancelOrderId := 0
      arrivalOffsetNs := 1 },
    { type := .replace
      order := { (default : Order) with price := 100001, qty := 6 }
      cancelOrderId := 2
      arrivalOffsetNs := 2 },
    { type := .newOrder
      order := RxThread.order 3 100000 0 0
      cancelOrderId := 0
      arrivalOffsetNs := 3 },
    { type := .cancel
      order := default
      cancelOrderId := 2
      arrivalOffsetNs := 4 }]

/-- Two trials of five events each. -/
def shortBenchmark : BenchmarkConfig where
  events := shortEvents
  trials := 2
  warmupIterations := 2
  measuredIterations := 3

theorem shortBenchmark_proper : Proper shortBenchmark 4 where
  trials := Nat.two_pos
  warmup := Nat.two_pos
  measured := Nat.succ_pos 2
  events := le_rfl
  size := Nat.succ_pos 3

theorem shortBenchmark_countable : Countable shortBenchmark := by
  rw [Countable]
  decide

theorem shortBenchmark_roomy : Roomy shortBenchmark 4 := by
  intro phase
  cases phase <;> decide

/-- Both trials of the short benchmark are over and have dropped nothing. -/
theorem shortBenchmark_trials :
    ∃ (records : List (List LatencySample))
        (context : PipelineContext configSizes 4) (history : BenchmarkHistory)
        (report : BenchmarkReport),
      (reportedBenchmark shortBenchmark .priceTime configSizes 4).Reachable
        ((inTrial 2 records context .test, history), report) ∧
      report.trials.length = 2 ∧ ∀ trial ∈ report.trials, trial.Dropless := by
  have two : 2 ≤ shortBenchmark.trials := le_rfl
  obtain ⟨records, context, history, report, reachable, _, _, length,
    dropless⟩ :=
    @exists_dropless configSizes 4 _ shortBenchmark_countable
      shortBenchmark_proper shortBenchmark_roomy .priceTime _ two
  exact ⟨records, context, history, report, reachable, length, dropless⟩

/-- A run of the short benchmark whose trials drop nothing. -/
theorem trials_sequential_short :
    ∃ (state : Benchmark configSizes 4) (history : BenchmarkHistory)
        (report : BenchmarkReport),
      (reportedBenchmark shortBenchmark .priceTime configSizes 4).Reachable
        ((state, history), report) ∧
      report.trials.length = 2 ∧
      ∃ warm samples, ∃ middle final : Matcher configSizes,
        (Matcher.start .priceTime).measure
            (messagesOf (shortBenchmark.replay .warmup).window) =
          .ok (warm, middle) ∧
        middle.measure
            (messagesOf (shortBenchmark.replay .measured).window) =
          .ok (samples, final) ∧
        ∀ trial ∈ report.trials,
          trial.stats = computeTrialStats samples final.book.bidLevelCount
            final.book.askLevelCount 0 trial.stats.maxScheduleDriftNs
            trial.stats.poolExhaustionDelta := by
  obtain ⟨_, _, _, report, reachable, length, dropless⟩ :=
    shortBenchmark_trials
  obtain ⟨warm, samples, middle, final, warmed, measured, same⟩ :=
    trials_sequential shortBenchmark_countable reachable
  exact ⟨_, _, report, reachable, length, warm, samples, middle, final, warmed,
    measured, fun trial member => same trial member (dropless trial member)⟩

end Benchmark

end Hydra
