import Hydra.Pipeline.Alone
import Hydra.Pipeline.Samples

/-!
# One trial at a time

The wait for the sink is enough to keep the trials apart, provided that nothing
of the warm-up is left in the queue or in the hand of the matching thread when
the sink is stored.  Nothing in the trial loop sees to that, and every benchmark
has a run in which it does not hold: the samples of the warm-up are counted for
those of the measured phase, and the wait is over with messages left in the
queue.
-/

namespace Hydra

variable {sizes : PoolSizes} {size : Nat}

theorem BenchmarkConfig.replay_ordered (config : BenchmarkConfig)
    (phase : Phase) :
    (config.replay phase).first ≤ (config.replay phase).last := by
  cases phase with
  | warmup => exact Nat.zero_le _
  | measured => exact Nat.le_add_right _ _

/-- How many events the measured phase has pushed, where that is known. -/
def TrialPoint.Counted (config : BenchmarkConfig) (history : BenchmarkHistory) :
    TrialPoint → Prop
  | .replay .measured thread =>
      ReplayThread.Within (config.replay .measured)
          (thread.pushes (config.replay .measured)) thread.point ∧
        history.pushed.length =
          history.stored + thread.pushes (config.replay .measured)
  | .wait pushed | .clearSink pushed | .assign pushed =>
      pushed ≤ config.measuredIterations ∧
        history.pushed.length = history.stored + pushed
  | .test | .resetBook | .resetOrderPool | .resetLevelPool
  | .replay .warmup _ | .storeSink | .done => True

/-- The number of samples that a trial takes, after its wait. -/
def TrialPoint.sampleCount : TrialPoint → Option Nat
  | .clearSink counted | .assign counted => some counted
  | _ => none

namespace Benchmark

variable {config : BenchmarkConfig} {mode : MatchingMode}
variable {state next : Benchmark sizes size} {history : BenchmarkHistory}
variable {event : BenchmarkEvent}

/-- The points where the trial loop uses the book, the pools or the sink as if
it were alone. -/
def Exclusive (state : Benchmark sizes size) : Prop :=
  match state.point with
  | .test => state.trial ≠ 0
  | .resetBook | .resetOrderPool | .resetLevelPool | .clearSink _
  | .assign _ => True
  | .replay _ _ | .storeSink | .wait _ | .done => False

/-- What holds at all times, however the threads run. -/
structure Kept (config : BenchmarkConfig) (state : Benchmark sizes size)
    (history : BenchmarkHistory) : Prop where
  /-- Every pushed message has its sample or is on its way to it. -/
  flow : history.pushed = history.sampled.map Prod.fst ++
    (state.matching.unsampled.toList ++ state.context.queue.queue)
  counted : state.point.Counted config history
  /-- Exclusive use only begins after the wait. -/
  exclusive : state.Exclusive → history.waited = true

theorem Starts.kept (starts : Starts mode state) :
    Kept config state .start where
  flow := by
    rw [starts.matching, starts.queue]
    rfl
  counted := by
    rw [starts.point]
    trivial
  exclusive exclusive := by
    rw [Exclusive, starts.point] at exclusive
    exact absurd starts.trial exclusive

theorem Step.flow (taken : Step config state event next)
    (kept : Kept config state history) :
    (history.record state event next).pushed =
      (history.record state event next).sampled.map Prod.fst ++
        (next.matching.unsampled.toList ++ next.context.queue.queue) := by
  have flow := kept.flow
  cases taken with
  | replay replaying taken acts =>
      change history.pushed ++ _ = _ ++ (_ ++ _)
      rw [flow, acts.items, List.append_assoc, List.append_assoc]
      rfl
  | matching taken =>
      change history.pushed = (history.sampled ++ _).map Prod.fst ++ _
      rw [flow, taken.flow, List.map_append, List.append_assoc]
  | finish | first | again | resetBook | resetOrderPool | resetLevelPool =>
      exact flow
  | warmedUp | storeSink | measured | spin | waited | clearSink | assign
  | stop =>
      exact flow

theorem Step.counted (taken : Step config state event next)
    (kept : Kept config state history) :
    next.point.Counted config (history.record state event next) := by
  have counted := kept.counted
  cases taken with
  | finish | first | again | resetBook | resetOrderPool | resetLevelPool
  | warmedUp | assign =>
      trivial
  | @replay phase thread event next queue replaying taken acts =>
      rw [replaying] at counted
      cases phase with
      | warmup => trivial
      | measured =>
          refine ⟨taken.within (config.replay_ordered _) counted.1, ?_⟩
          change (history.pushed ++ event.pushed).length = history.stored + _
          rw [List.length_append, counted.2, taken.pushes, Nat.add_assoc]
  | storeSink => exact ⟨rfl, rfl⟩
  | @measured thread replaying returned =>
      rw [replaying] at counted
      obtain ⟨within, pushed⟩ := counted
      have pushes : thread.pushes (config.replay .measured) =
          thread.onPush.length := by
        rw [ReplayThread.pushes, returned]
        rfl
      rw [pushes] at within pushed
      have bound := within.bound (config.replay_ordered _)
      exact ⟨Nat.le_of_add_le_add_left bound, pushed⟩
  | spin | stop | matching => exact counted
  | waited waiting =>
      rw [waiting] at counted
      exact counted
  | clearSink clearing =>
      rw [clearing] at counted
      exact counted

theorem Step.exclusive (taken : Step config state event next)
    (kept : Kept config state history) (exclusive : next.Exclusive) :
    (history.record state event next).waited = true := by
  have waited := kept.exclusive
  cases taken with
  | finish | first | resetLevelPool | replay | warmedUp | storeSink
  | measured =>
      exact absurd exclusive id
  | again testing more used =>
      rw [Exclusive, testing] at waited
      exact waited used
  | resetBook at_point | resetOrderPool at_point | clearSink at_point
  | assign at_point =>
      rw [Exclusive, at_point] at waited
      exact waited trivial
  | waited => rfl
  | spin | stop | matching => exact waited exclusive

theorem Step.kept (taken : Step config state event next)
    (kept : Kept config state history) :
    Kept config next (history.record state event next) where
  flow := taken.flow kept
  counted := taken.counted kept
  exclusive := taken.exclusive kept

theorem kept
    (reachable :
      (benchmark config mode sizes size).Reachable (state, history)) :
    Kept config state history := by
  refine Machine.Reachable.ghost_invariant (Kept config) ?_ ?_ reachable
  · intro state starts
    exact starts.kept
  · intro state history event next held taken
    exact taken.kept held

/-- The queue is empty, and the matching thread is done with every message. -/
def Drained (state : Benchmark sizes size) : Prop :=
  state.context.queue.queue = [] ∧ state.matching.Idle

/-- The first `counted` samples of the sink are those of the messages that were
pushed since the sink was stored. -/
structure Collected (state : Benchmark sizes size)
    (history : BenchmarkHistory) (counted : Nat) : Prop where
  count : counted = (history.pushed.drop history.stored).length
  messages : (history.sampled.drop history.stored).map Prod.fst =
    history.pushed.drop history.stored
  samples : (state.context.sinks state.trial).samples.take counted =
    (history.sampled.drop history.stored).map Prod.snd

/-- The sink of the trial is stored, and has the samples since then. -/
structure Open (config : BenchmarkConfig) (state : Benchmark sizes size)
    (history : BenchmarkHistory) : Prop where
  rawSamples : state.context.rawSamples = some state.trial
  stored : history.stored ≤ history.sampled.length
  filled : SinkFilled state.context state.trial config.measuredIterations
    state.matching ((history.sampled.drop history.stored).map Prod.snd)

/-- No sink is stored or in use. -/
structure Closed (state : Benchmark sizes size) : Prop where
  rawSamples : state.context.rawSamples = none
  sink : state.matching.sink = none

/-- What is known about the sink where the trial loop stands. -/
def Sink (config : BenchmarkConfig) (state : Benchmark sizes size)
    (history : BenchmarkHistory) : TrialPoint → Prop
  | .test | .resetBook | .resetOrderPool | .resetLevelPool
  | .replay .warmup _ | .storeSink | .done => Closed state
  | .replay .measured _ | .wait _ => Open config state history
  | .clearSink counted => Collected state history counted
  | .assign counted => Closed state ∧ Collected state history counted

/-- What is known of the queue and the sink at every point of a trial. -/
structure Drawn (config : BenchmarkConfig) (state : Benchmark sizes size)
    (history : BenchmarkHistory) : Prop where
  quiet : history.waited = true → state.Drained
  sink : state.Sink config history state.point

theorem Starts.drawn (starts : Starts mode state) :
    Drawn config state .start where
  quiet := nofun
  sink := by
    rw [starts.point]
    refine ⟨starts.rawSamples, ?_⟩
    rw [starts.matching]
    rfl

/-- When the sink counts as many samples as the measured phase has pushed
messages, nothing is left of them anywhere else. -/
theorem Open.complete {counted : Nat} (opened : Open config state history)
    (kept : Kept config state history)
    (waiting : state.point = .wait counted)
    (enough : ¬ (state.context.sinks state.trial).writeIndex < counted) :
    state.Drained ∧ Collected state history counted := by
  obtain ⟨_, stored, filled⟩ := opened
  have flow := kept.flow
  have counts := kept.counted
  rw [waiting] at counts
  obtain ⟨_, pushed⟩ := counts
  have split := congrArg List.length flow
  rw [List.length_append, List.length_append, List.length_map] at split
  have recorded := filled.length
  rw [List.length_map, List.length_drop] at recorded
  have free : state.matching.unsampled = none := by
    cases held : state.matching.unsampled with
    | none => rfl
    | some order =>
        rw [held] at split
        change _ = _ + (1 + _) at split
        omega
  have empty : state.context.queue.queue = [] :=
    List.eq_nil_of_length_eq_zero (by omega)
  have settled : state.matching.pending = [] :=
    List.eq_nil_of_length_eq_zero (by omega)
  have unwritten : state.matching.written = 0 := by omega
  have drained : state.Drained :=
    ⟨empty, MatchingPoint.idle_of_nothing free settled unwritten⟩
  refine ⟨drained, ?_, ?_, ?_⟩
  · rw [List.length_drop]
    omega
  · rw [flow, free, empty]
    change _ = (history.sampled.map Prod.fst ++ []).drop history.stored
    rw [List.append_nil, List.map_drop]
  · have content := filled.content
    rw [settled, unwritten, List.append_nil] at content
    rw [← content]
    congr 1
    rw [free, empty] at split
    change _ = _ + 0 at split
    rw [settled, unwritten] at recorded
    change _ = _ + 0 + 0 at recorded
    omega

/-- A drained benchmark stays so until the next push. -/
theorem Step.quiet (taken : Step config state event next)
    (kept : Kept config state history) (drawn : Drawn config state history)
    (waited : (history.record state event next).waited = true) :
    next.Drained := by
  have quiet := drawn.quiet
  cases taken with
  | @replay phase thread event next queue replaying taken acts =>
      have both : history.waited = true ∧ event.pushed.isEmpty = true :=
        Bool.and_eq_true_iff.mp waited
      obtain ⟨empty, idle⟩ := quiet both.1
      refine ⟨?_, idle⟩
      rw [acts.items, empty, List.isEmpty_iff.mp both.2]
      rfl
  | @waited counted waiting enough =>
      have opened := drawn.sink
      rw [waiting] at opened
      exact (Open.complete opened kept waiting enough).1
  | matching taken =>
      obtain ⟨empty, idle⟩ := quiet waited
      obtain ⟨still, same, _⟩ := taken.idle idle empty
      exact ⟨same ▸ empty, still⟩
  | finish | first | again | resetBook | resetOrderPool | resetLevelPool =>
      exact quiet waited
  | warmedUp | storeSink | measured | spin | clearSink | assign | stop =>
      exact quiet waited

theorem Closed.matching {context : PipelineContext sizes size}
    {point : MatchingPoint} {taken : MatchingEvent} (closed : Closed state)
    (step : MatchingPoint.Step state.matchingStop state.context state.matching
      taken context point) :
    Closed { state with context, matching := point } where
  rawSamples := step.rawSamples.trans closed.rawSamples
  sink := step.unrecorded closed.rawSamples closed.sink

theorem Open.matching {context : PipelineContext sizes size}
    {point : MatchingPoint} {taken : MatchingEvent}
    (opened : Open config state history)
    (bounded : history.sampled.length ≤
      history.stored + config.measuredIterations)
    (step : MatchingPoint.Step state.matchingStop state.context state.matching
      taken context point) :
    Open config { state with context, matching := point }
      (history.record state (.matching taken)
        { state with context, matching := point }) := by
  obtain ⟨rawSamples, stored, filled⟩ := opened
  refine ⟨step.rawSamples.trans rawSamples, ?_, ?_⟩
  · change history.stored ≤ (history.sampled ++ _).length
    rw [List.length_append]
    omega
  · change SinkFilled _ _ _ _
      (((history.sampled ++ _).drop history.stored).map Prod.snd)
    rw [List.drop_append_of_le_length stored, List.map_append,
      ← Option.toList_map]
    refine filled.step rawSamples ?_ step
    rw [List.length_map, List.length_drop]
    omega

theorem Collected.matching {context : PipelineContext sizes size}
    {point : MatchingPoint} {taken : MatchingEvent} {counted : Nat}
    (collected : Collected state history counted) (drained : state.Drained)
    (step : MatchingPoint.Step state.matchingStop state.context state.matching
      taken context point) :
    Collected { state with context, matching := point }
      (history.record state (.matching taken)
        { state with context, matching := point }) counted := by
  obtain ⟨count, messages, samples⟩ := collected
  obtain ⟨_, same, unsampled⟩ := step.idle drained.2 drained.1
  have sampled : (history.record state (.matching taken)
      { state with context, matching := point }).sampled =
        history.sampled := by
    change history.sampled ++ (state.matching.sampled point).toList = _
    rw [unsampled]
    exact List.append_nil _
  refine ⟨count, ?_, ?_⟩
  · rw [sampled]
    exact messages
  · rw [sampled, same]
    exact samples

theorem Sink.matching {context : PipelineContext sizes size}
    {point : MatchingPoint} {taken : MatchingEvent} {stand : TrialPoint}
    (kept : Kept config state history)
    (quiet : state.Exclusive → state.Drained) (stands : state.point = stand)
    (sink : Sink config state history stand)
    (step : MatchingPoint.Step state.matchingStop state.context state.matching
      taken context point) :
    Sink config { state with context, matching := point }
      (history.record state (.matching taken)
        { state with context, matching := point }) stand := by
  have counts := kept.counted
  have flow := congrArg List.length kept.flow
  rw [List.length_append, List.length_map] at flow
  rw [Exclusive, stands] at quiet
  rw [stands] at counts
  cases stand with
  | test | resetBook | resetOrderPool | resetLevelPool | storeSink | done =>
      exact Closed.matching sink step
  | replay phase thread =>
      cases phase with
      | warmup => exact Closed.matching sink step
      | measured =>
          obtain ⟨within, pushed⟩ := counts
          have limit : thread.pushes (config.replay .measured) ≤
              config.measuredIterations :=
            Nat.le_of_add_le_add_left (within.bound (config.replay_ordered _))
          refine Open.matching sink ?_ step
          omega
  | wait counted =>
      obtain ⟨limit, pushed⟩ := counts
      refine Open.matching sink ?_ step
      omega
  | clearSink counted => exact Collected.matching sink (quiet trivial) step
  | assign counted =>
      exact ⟨sink.1.matching step,
        Collected.matching sink.2 (quiet trivial) step⟩

theorem Step.sink (taken : Step config state event next)
    (kept : Kept config state history) (drawn : Drawn config state history)
    (drained : event = .storeSink → state.Drained) :
    next.Sink config (history.record state event next) next.point := by
  have sink := drawn.sink
  have quiet : state.Exclusive → state.Drained :=
    fun exclusive => drawn.quiet (kept.exclusive exclusive)
  cases taken with
  | finish at_point | first at_point | again at_point | resetBook at_point
  | resetOrderPool at_point | resetLevelPool at_point | warmedUp at_point =>
      rw [at_point] at sink
      exact ⟨sink.rawSamples, sink.sink⟩
  | @replay phase thread event next queue replaying taken acts =>
      rw [replaying] at sink
      cases phase with
      | warmup => exact ⟨sink.rawSamples, sink.sink⟩
      | measured =>
          exact ⟨sink.rawSamples, sink.stored, sink.filled.of_sinks rfl⟩
  | storeSink =>
      obtain ⟨empty, idle⟩ := drained rfl
      have flow := kept.flow
      rw [empty, idle.nothing.1] at flow
      have all : history.sampled.length = history.pushed.length := by
        rw [flow]
        change _ = (history.sampled.map Prod.fst ++ []).length
        rw [List.append_nil, List.length_map]
      refine ⟨rfl, all.ge, ?_⟩
      change SinkFilled _ _ _ _
        ((history.sampled.drop history.pushed.length).map Prod.snd)
      rw [List.drop_eq_nil_of_le all.le]
      exact .fresh idle (Function.update_self ..)
  | measured at_point =>
      rw [at_point] at sink
      exact ⟨sink.rawSamples, sink.stored, sink.filled⟩
  | spin => exact sink
  | waited waiting enough =>
      rw [waiting] at sink
      obtain ⟨count, messages, samples⟩ :=
        (Open.complete sink kept waiting enough).2
      exact ⟨count, messages, samples⟩
  | clearSink clearing =>
      rw [clearing] at sink
      have idle : state.matching.Idle := by
        rw [Exclusive, clearing] at quiet
        exact (quiet trivial).2
      obtain ⟨_, _, _, unused, _⟩ := idle.nothing
      exact ⟨⟨rfl, unused⟩, sink.count, sink.messages, sink.samples⟩
  | assign assigning =>
      rw [assigning] at sink
      exact ⟨sink.1.rawSamples, sink.1.sink⟩
  | stop finished =>
      change Sink config _ _ state.point
      rw [finished] at sink ⊢
      exact ⟨sink.rawSamples, sink.sink⟩
  | matching taken =>
      exact Sink.matching kept quiet rfl sink taken

theorem Step.drawn (taken : Step config state event next)
    (kept : Kept config state history) (drawn : Drawn config state history)
    (drained : event = .storeSink → state.Drained) :
    Drawn config next (history.record state event next) where
  quiet := taken.quiet kept drawn
  sink := taken.sink kept drawn drained

/-- The sink is only stored when nothing of the warm-up is left. -/
def storesDrained (state : Benchmark sizes size × BenchmarkHistory)
    (event : BenchmarkEvent) : Prop :=
  event = .storeSink → state.1.Drained

theorem drawn {recorded : Benchmark sizes size × BenchmarkHistory}
    (reachable : ((benchmark config mode sizes size).guarded
      storesDrained).Reachable recorded) :
    Drawn config recorded.1 recorded.2 := by
  induction reachable with
  | initial starts =>
      obtain ⟨starts, fresh⟩ := starts
      rw [fresh]
      exact starts.drawn
  | step earlier taken induction =>
      obtain ⟨drained, taken, recorded⟩ := taken
      rw [recorded]
      exact taken.drawn (kept earlier.of_guarded) induction drained

/-- Trials are isolated: the samples that a trial takes are those of its own
messages, and between the wait and the next push the matching thread is idle
and the queue empty. -/
structure Isolated (state : Benchmark sizes size)
    (history : BenchmarkHistory) : Prop where
  collected : ∀ counted ∈ state.point.sampleCount,
    Collected state history counted
  exclusive : state.Exclusive → history.waited = true
  quiet : history.waited = true → state.Drained

/-- Trials are isolated in all runs that store no sink before the queue is
empty and the matching thread is done with every message. -/
theorem isolated
    (reachable : ((benchmark config mode sizes size).guarded
      storesDrained).Reachable (state, history)) :
    Isolated state history where
  collected counted member := by
    have sink := (drawn reachable).sink
    cases stands : state.point with
    | clearSink number =>
        rw [stands] at member sink
        cases member
        exact sink
    | assign number =>
        rw [stands] at member sink
        cases member
        exact sink.2
    | test | resetBook | resetOrderPool | resetLevelPool | replay | storeSink
    | wait | done =>
        rw [stands] at member
        cases member
  exclusive := (kept reachable.of_guarded).exclusive
  quiet := (drawn reachable).quiet

/-- A dataset that offers the same order all over again. -/
def sessionBenchmark : BenchmarkConfig :=
  .default (List.replicate 110000
    { type := .newOrder
      order := Pipeline.sessionSell
      cancelOrderId := 0
      arrivalOffsetNs := 0 })

theorem sessionBenchmark_proper :
    Proper sessionBenchmark spscCapacity where
  trials := by decide
  warmup := by decide
  measured := by decide
  events := List.length_replicate.ge
  size := by decide

/-- A session in which the matching thread is done with the warm-up before the
sink is stored, and with the measured messages before the wait. -/
theorem isolated_session :
    ∃ (state : Benchmark configSizes spscCapacity)
      (history : BenchmarkHistory) (counted : Nat),
      ((benchmark sessionBenchmark .priceTime configSizes
        spscCapacity).guarded storesDrained).Reachable (state, history) ∧
      state.point = .clearSink counted ∧ 0 < counted ∧
      Isolated state history := by
  have free : ∀ (recorded :
      Benchmark configSizes spscCapacity × BenchmarkHistory) event,
      event ≠ .storeSink → storesDrained recorded event :=
    fun _ _ plain storing => absurd storing plain
  obtain ⟨items, history, _, storing⟩ :=
    reach_storing sessionBenchmark_proper .priceTime free
  have unstored : MatchingPoint.Room
      ((freshContext .priceTime).withItems items :
        PipelineContext configSizes spscCapacity) items.length :=
    nofun
  obtain ⟨drained, serves⟩ := MatchingPoint.serves items.length le_rfl
    (Matcher.start_wellFormed .priceTime) unstored
  obtain ⟨history, storing⟩ :=
    reachable_run free storing (serve_run .storeSink serves)
  have empty : drained.queue.queue = [] :=
    serves.queue.trans List.drop_length
  obtain ⟨history, stored⟩ :=
    reach_stored storing (fun _ => ⟨empty, trivial⟩)
  obtain ⟨counted, later, history, pushed, _, _, reached⟩ :=
    reach_clearSink sessionBenchmark_proper free stored serves.wellFormed
  have room : drained.queue.queue.length < spscCapacity := by
    rw [empty]
    decide
  exact ⟨_, history, counted, reached, rfl, pushed room, isolated reached⟩

/-- Every benchmark has a run in which the wait of its first trial ends while
messages are still in the queue. -/
theorem overtaken (proper : Proper config size) (mode : MatchingMode)
    (sizes : PoolSizes) :
    ∃ (state : Benchmark sizes size) (history : BenchmarkHistory),
      (benchmark config mode sizes size).Reachable (state, history) ∧
        ¬ Isolated state history := by
  have free : ∀ (recorded : Benchmark sizes size × BenchmarkHistory) event,
      event ≠ BenchmarkEvent.storeSink → True :=
    fun _ _ _ => trivial
  obtain ⟨items, history, some, storing⟩ := reach_storing proper mode free
  obtain ⟨history, stored⟩ := reach_stored storing trivial
  obtain ⟨counted, later, history, _, left, waited, reached⟩ :=
    reach_clearSink proper free stored
      (Matcher.start_wellFormed mode)
  refine ⟨_, history, reached.of_guarded, ?_⟩
  intro apart
  -- As many messages are left as there were of the warm-up.
  have empty : later.queue.queue = [] := (apart.quiet waited).1
  rw [empty] at left
  exact some.ne left

/-- The trials of the benchmark are not isolated in all of its runs. -/
theorem warmup_overtakes :
    ¬ ∀ (state : Benchmark configSizes spscCapacity)
      (history : BenchmarkHistory),
      (benchmark sessionBenchmark .priceTime configSizes
        spscCapacity).Reachable (state, history) →
      Isolated state history := by
  intro always
  obtain ⟨state, history, reachable, mixed⟩ :=
    overtaken sessionBenchmark_proper .priceTime configSizes
  exact mixed (always state history reachable)

end Benchmark

end Hydra
