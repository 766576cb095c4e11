import Hydra.Pipeline.Producers

/-!
# The trials of the benchmark

The trial loop of `run_benchmark`, step by step, next to the matching thread.
A trial replays the warm-up events, publishes a fresh sink, replays the
measured events and waits until the sink counts as many samples as it has
pushed measured events; the next trial begins with resets of the book and its
pools.
-/

namespace Hydra

variable {sizes : PoolSizes} {size : Nat}

/-- The events of a dataset and the counts of a run. -/
structure BenchmarkConfig where
  events : List DatasetEvent
  trials : Nat
  warmupIterations : Nat
  measuredIterations : Nat

/-- `SPSC_CAPACITY`. -/
def spscCapacity : Nat := 65536

/-- `DEFAULT_TRIAL_COUNT` trials of the events of a dataset, with
`WARMUP_ITERATIONS` and `MEASURED_ITERATIONS`. -/
def BenchmarkConfig.default (events : List DatasetEvent) : BenchmarkConfig where
  events
  trials := 5
  warmupIterations := 10000
  measuredIterations := 100000

/-- The two calls of `replay_phase` in a trial. -/
inductive Phase where
  | warmup
  | measured

def BenchmarkConfig.replay (config : BenchmarkConfig) : Phase → Replay
  | .warmup =>
      { events := config.events
        first := 0
        last := config.warmupIterations }
  | .measured =>
      { events := config.events
        first := config.warmupIterations
        last := config.warmupIterations + config.measuredIterations }

/-- Where the trial loop stands.  `pushed` is the number of time stamps that
the measured phase has noted. -/
inductive TrialPoint where
  | test
  | resetBook
  | resetOrderPool
  | resetLevelPool
  | replay (phase : Phase) (thread : ReplayThread)
  | storeSink
  | wait (pushed : Nat)
  | clearSink (pushed : Nat)
  | assign (pushed : Nat)
  | done

/-- The trial loop, the phase that it may be in, and the matching thread. -/
structure Benchmark (sizes : PoolSizes) (size : Nat) where
  context : PipelineContext sizes size
  trial : Nat
  point : TrialPoint
  /-- The samples of the trials so far. -/
  records : List (List LatencySample)
  matching : MatchingPoint
  matchingStop : Bool

/-- A step of the trial loop, of a phase in it, or of the matching thread. -/
inductive BenchmarkEvent where
  | silent
  | replay (event : IngestEvent)
  | storeSink
  | waited
  | matching (event : MatchingEvent)

def PipelineContext.modifyBook (context : PipelineContext sizes size)
    (change : OrderBook sizes → OrderBook sizes) :
    PipelineContext sizes size :=
  { context with
    matcher := { context.matcher with book := change context.matcher.book } }

/-- The sink of a trial, as it is constructed. -/
def RawSampleSink.fresh (capacity : Nat) : RawSampleSink where
  samples := List.replicate capacity {}
  capacity
  writeIndex := 0

namespace Benchmark

/-- The steps of `run_benchmark` and of the matching thread.  The sink of a
trial has the number of the trial. -/
inductive Step (config : BenchmarkConfig) :
    Benchmark sizes size → BenchmarkEvent → Benchmark sizes size → Prop where
  | finish {state} (testing : state.point = .test)
      (last : ¬ state.trial < config.trials) :
      Step config state .silent { state with point := .done }
  | first {state} (testing : state.point = .test)
      (more : state.trial < config.trials) (fresh : state.trial = 0) :
      Step config state .silent
        { state with point := .replay .warmup .start }
  | again {state} (testing : state.point = .test)
      (more : state.trial < config.trials) (used : state.trial ≠ 0) :
      Step config state .silent { state with point := .resetBook }
  | resetBook {state} (resetting : state.point = .resetBook) :
      Step config state .silent
        { state with
          context := state.context.modifyBook OrderBook.reset
          point := .resetOrderPool }
  | resetOrderPool {state} (resetting : state.point = .resetOrderPool) :
      Step config state .silent
        { state with
          context := state.context.modifyBook fun book =>
            { book with orderPool := book.orderPool.reset }
          point := .resetLevelPool }
  | resetLevelPool {state} (resetting : state.point = .resetLevelPool) :
      Step config state .silent
        { state with
          context := state.context.modifyBook fun book =>
            { book with levelPool := book.levelPool.reset }
          point := .replay .warmup .start }
  | replay {state phase thread event next queue}
      (replaying : state.point = .replay phase thread)
      (taken : ReplayThread.Step (config.replay phase) thread event next)
      (acts : event.Acts state.context.queue queue) :
      Step config state (.replay event)
        { state with
          context := { state.context with queue }
          point := .replay phase next }
  | warmedUp {state thread}
      (replaying : state.point = .replay .warmup thread)
      (returned : thread.point = .returned) :
      Step config state .silent { state with point := .storeSink }
  | storeSink {state} (storing : state.point = .storeSink) :
      Step config state .storeSink
        { state with
          context :=
            { state.context with
              rawSamples := some state.trial
              sinks := Function.update state.context.sinks state.trial
                (.fresh config.measuredIterations) }
          point := .replay .measured .start }
  | measured {state thread}
      (replaying : state.point = .replay .measured thread)
      (returned : thread.point = .returned) :
      Step config state .silent
        { state with point := .wait thread.onPush.length }
  | spin {state pushed} (waiting : state.point = .wait pushed)
      (missing : (state.context.sinks state.trial).writeIndex < pushed) :
      Step config state .silent state
  | waited {state pushed} (waiting : state.point = .wait pushed)
      (counted : ¬ (state.context.sinks state.trial).writeIndex < pushed) :
      Step config state .waited { state with point := .clearSink pushed }
  | clearSink {state pushed} (clearing : state.point = .clearSink pushed) :
      Step config state .silent
        { state with
          context := { state.context with rawSamples := none }
          point := .assign pushed }
  | assign {state pushed} (assigning : state.point = .assign pushed) :
      Step config state .silent
        { state with
          records := state.records ++
            [(state.context.sinks state.trial).samples.take pushed]
          trial := state.trial + 1
          point := .test }
  | stop {state} (finished : state.point = .done) :
      Step config state .silent { state with matchingStop := true }
  | matching {state event context point}
      (taken : MatchingPoint.Step state.matchingStop state.context
        state.matching event context point) :
      Step config state (.matching event)
        { state with context, matching := point }

/-- Both threads are about to enter their loops, with nothing in the queue. -/
structure Starts (mode : MatchingMode) (state : Benchmark sizes size) :
    Prop where
  queue : state.context.queue = .empty
  matcher : state.context.matcher = .start mode
  rawSamples : state.context.rawSamples = none
  trial : state.trial = 0
  point : state.point = .test
  records : state.records = []
  matching : state.matching = .loop
  matchingStop : state.matchingStop = false

end Benchmark

/-- The message that a step of the matching thread makes a sample of. -/
def MatchingPoint.sampled :
    MatchingPoint → MatchingPoint → Option (Order × LatencySample)
  | readDone order _ _ _, loadSink sample => some (order, sample)
  | _, _ => none

/-- What has happened to the messages of the trial. -/
structure BenchmarkHistory where
  /-- All messages that were pushed. -/
  pushed : List Order
  /-- The messages that the matching thread was done with, and their samples. -/
  sampled : List (Order × LatencySample)
  /-- How many messages were pushed before the sink was stored. -/
  stored : Nat
  /-- The wait loop has been left, and nothing was pushed since. -/
  waited : Bool

namespace BenchmarkHistory

def start : BenchmarkHistory where
  pushed := []
  sampled := []
  stored := 0
  waited := false

def record (before : Benchmark sizes size) (event : BenchmarkEvent)
    (after : Benchmark sizes size) (history : BenchmarkHistory) :
    BenchmarkHistory :=
  match event with
  | .silent => history
  | .replay event =>
      { history with
        pushed := history.pushed ++ event.pushed
        waited := history.waited && event.pushed.isEmpty }
  | .storeSink => { history with stored := history.pushed.length }
  | .waited => { history with waited := true }
  | .matching _ =>
      { history with
        sampled := history.sampled ++
          (before.matching.sampled after.matching).toList }

end BenchmarkHistory

/-- The runs of the benchmark, with their history. -/
def benchmark (config : BenchmarkConfig) (mode : MatchingMode)
    (sizes : PoolSizes) (size : Nat) :
    Machine (Benchmark sizes size × BenchmarkHistory) BenchmarkEvent :=
  Machine.withGhost
    { initial := Benchmark.Starts mode
      step := Benchmark.Step config }
    .start BenchmarkHistory.record

end Hydra
