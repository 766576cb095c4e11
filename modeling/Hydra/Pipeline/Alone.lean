import Hydra.Pipeline.Benchmark
import Hydra.Pipeline.Counting
import Hydra.Pipeline.Sequential
import Mathlib.Logic.Relation

/-!
# One thread at a time

Runs in which one thread of the benchmark stands still while the other works: a
phase of the producer that pushes what the queue has room for, and a matching
thread that works off the first messages of the queue.  From them, the first
trial of any benchmark, with the matching thread working when it is asked to.
-/

namespace Hydra

variable {sizes : PoolSizes} {size : Nat}

namespace ReplayThread

variable {replay : Replay} {thread middle next : ReplayThread}
variable {items later last : List Order} {index : Nat} {event : DatasetEvent}
variable {order : Order}

/-- A step of the producer, with its effect on the queue. -/
def QueueStep (replay : Replay)
    (state next : ReplayThread × MutexQueue Order size) : Prop :=
  ∃ event : IngestEvent,
    Step replay state.1 event next.1 ∧ event.Acts state.2 next.2

/-- Alone, the producer gets from `thread` to `next`, and what it pushes makes
`later` of the `items` in a queue of at most `size`. -/
structure Fills (size : Nat) (replay : Replay) (thread : ReplayThread)
    (items : List Order) (next : ReplayThread) (later : List Order) :
    Prop where
  run : Relation.ReflTransGen (QueueStep replay)
    (thread, ({ queue := items } : MutexQueue Order size))
    (next, { queue := later })
  pushes : next.pushes replay + items.length =
    thread.pushes replay + later.length

theorem Fills.refl (size : Nat) (replay : Replay) (thread : ReplayThread)
    (items : List Order) : Fills size replay thread items thread items where
  run := .refl
  pushes := rfl

theorem Fills.trans (first : Fills size replay thread items middle later)
    (second : Fills size replay middle later next last) :
    Fills size replay thread items next last where
  run := first.run.trans second.run
  pushes := by
    have before := first.pushes
    have after := second.pushes
    omega

theorem Fills.after {event : IngestEvent}
    (fills : Fills size replay thread items middle later)
    (taken : Step replay middle event next)
    (acts : event.Acts ({ queue := later } : MutexQueue Order size)
      { queue := last }) :
    Fills size replay thread items next last where
  run := fills.run.tail ⟨event, taken, acts⟩
  pushes := by
    have before := fills.pushes
    have pushed := taken.pushes
    have length := congrArg List.length acts.items
    rw [List.length_append] at length
    change last.length = later.length + _ at length
    omega

/-- As long as the queue is full, a push is tried in vain until the order is
dropped. -/
theorem fills_refused (full : size ≤ items.length) (left : Nat) :
    ∀ (thread : ReplayThread) (attempt : Nat),
      thread.point = .test index event order attempt →
      kBoundedPushAttempts ≤ attempt + left →
      ∃ next, Fills size replay thread items next items ∧
        next.point = .loop (index + 1) := by
  have refuses : ({ queue := items } : MutexQueue Order size).push order =
      (false, { queue := items }) := by
    rw [MutexQueue.push, if_pos full]
  induction left with
  | zero =>
      intro thread attempt testing exhausted
      have dropped := (Fills.refl size replay thread items).after
        (.drop testing (Nat.not_lt_of_le exhausted)) rfl
      exact ⟨_, dropped, rfl⟩
  | succ left induction =>
      intro thread attempt testing enough
      by_cases again : attempt < kBoundedPushAttempts
      · have pushing := (Fills.refl size replay thread items).after
          (.again 0 testing again) rfl
        have refused := pushing.after (.refused rfl) refuses
        have enough : kBoundedPushAttempts ≤ attempt + 1 + left := by omega
        obtain ⟨next, fills, looping⟩ := induction { thread with
          point := .test index event order (attempt + 1) } _ rfl enough
        exact ⟨next, refused.trans fills, looping⟩
      · have dropped := (Fills.refl size replay thread items).after
          (.drop testing again) rfl
        exact ⟨_, dropped, rfl⟩

theorem fills_accepted (room : items.length < size)
    (testing : thread.point = .test index event order 0) :
    ∃ next, Fills size replay thread items next (items ++ [order]) ∧
      next.point = .loop (index + 1) := by
  have accepts : ({ queue := items } : MutexQueue Order size).push order =
      (true, { queue := items ++ [order] }) := by
    rw [MutexQueue.push, if_neg (Nat.not_le_of_lt room)]
  have pushing := (Fills.refl size replay thread items).after
    (.again 0 testing (by decide)) rfl
  have accepted := pushing.after (.accepted rfl) accepts
  have counted := accepted.after (.count 0 rfl) rfl
  exact ⟨_, counted.after (.onPush rfl) rfl, rfl⟩

theorem fills_prepared (size : Nat) (looping : thread.point = .loop index)
    (left : index < replay.last)
    (selected : replay.events[index]? = some event) (items : List Order) :
    ∃ next order, Fills size replay thread items next items ∧
      next.point = .test index event order 0 := by
  have pacing := (Fills.refl size replay thread items).after
    (.next looping left selected) rfl
  have stamping := pacing.after (.due _ rfl (UInt64.lt_irrefl _)) rfl
  exact ⟨_, _, stamping.after (.produce 0 rfl) rfl, rfl⟩

theorem fills_event (size : Nat) (looping : thread.point = .loop index)
    (left : index < replay.last)
    (selected : replay.events[index]? = some event) (items : List Order) :
    ∃ next later, Fills size replay thread items next later ∧
      next.point = .loop (index + 1) ∧ items.length ≤ later.length ∧
      later.length ≤ items.length + 1 ∧
      (items.length < size → items.length < later.length) := by
  obtain ⟨prepared, order, begins, testing⟩ :=
    fills_prepared size looping left selected items
  by_cases room : items.length < size
  · obtain ⟨next, fills, at_loop⟩ := fills_accepted room testing
    have longer : (items ++ [order]).length = items.length + 1 :=
      List.length_append
    exact ⟨next, _, begins.trans fills, at_loop, by omega, by omega, by omega⟩
  · obtain ⟨next, fills, at_loop⟩ := fills_refused (Nat.le_of_not_lt room)
      kBoundedPushAttempts prepared 0 testing (Nat.le_add_left _ _)
    exact ⟨next, items, begins.trans fills, at_loop, le_rfl, by omega,
      fun free => absurd free room⟩

theorem fills_rest (size : Nat) (found : replay.last ≤ replay.events.length)
    (left : Nat) :
    ∀ (thread : ReplayThread) (index : Nat) (items : List Order),
      thread.point = .loop index → index + left = replay.last →
      ∃ next later, Fills size replay thread items next later ∧
        next.point = .returned ∧ items.length ≤ later.length ∧
        later.length ≤ items.length + left ∧
        (0 < left → items.length < size → items.length < later.length) := by
  induction left with
  | zero =>
      intro thread index items looping reached
      have finished := (Fills.refl size replay thread items).after
        (.finish looping (by omega)) rfl
      exact ⟨_, items, finished, rfl, le_rfl, le_rfl, by omega⟩
  | succ left induction =>
      intro thread index items looping reached
      have within : index < replay.events.length := by omega
      obtain ⟨middle, some, first, at_loop, more, one, pushed⟩ :=
        fills_event size looping (by omega)
          (List.getElem?_eq_getElem within) items
      obtain ⟨next, later, second, returned, rest, bound, _⟩ :=
        induction middle (index + 1) some at_loop (by omega)
      refine ⟨next, later, first.trans second, returned, ?_, ?_, ?_⟩
      · omega
      · omega
      · intro _ room
        have grown := pushed room
        omega

theorem fills_phase (size : Nat) (ordered : replay.first < replay.last)
    (found : replay.last ≤ replay.events.length) (items : List Order) :
    ∃ next later, Fills size replay .start items next later ∧
      next.point = .returned ∧
      later.length ≤ items.length + (replay.last - replay.first) ∧
      (items.length < size → items.length < later.length) := by
  have within : replay.first < replay.events.length := by omega
  have begun := (Fills.refl size replay start items).after
    (.begin 0 rfl (List.getElem?_eq_getElem within)) rfl
  obtain ⟨next, later, fills, returned, _, bound, pushed⟩ :=
    fills_rest size found (replay.last - replay.first)
      { start with
        phaseStartNs := 0
        baseOffsetNs := replay.events[replay.first].arrivalOffsetNs
        point := .loop replay.first }
      replay.first items rfl (Nat.add_sub_cancel' ordered.le)
  exact ⟨next, later, begun.trans fills, returned, bound,
    pushed (Nat.sub_pos_of_lt ordered)⟩

end ReplayThread

namespace MatchingPoint

variable {context middle next : PipelineContext sizes size} {order : Order}
variable {count more : Nat}

/-- A step of the matching thread that is not asked to stop. -/
def ContextStep
    (state next : PipelineContext sizes size × MatchingPoint) : Prop :=
  ∃ event, Step false state.1 state.2 event next.1 next.2

theorem Step.after {event : MatchingEvent} {point nextPoint : MatchingPoint}
    {start : PipelineContext sizes size × MatchingPoint}
    (run : Relation.ReflTransGen ContextStep start (context, point))
    (taken : Step false context point event next nextPoint) :
    Relation.ReflTransGen ContextStep start (next, nextPoint) :=
  run.tail ⟨event, taken⟩

/-- There is room for `count` more samples in the sink that is stored, if
any. -/
def Room (context : PipelineContext sizes size) (count : Nat) : Prop :=
  ∀ sink ∈ context.rawSamples,
    (context.sinks sink).writeIndex + count ≤ (context.sinks sink).capacity

/-- Alone, the matching thread is done with `count` messages of the queue. -/
structure Serves (context : PipelineContext sizes size) (count : Nat)
    (next : PipelineContext sizes size) : Prop where
  run : Relation.ReflTransGen ContextStep (context, loop) (next, loop)
  queue : next.queue.queue = context.queue.queue.drop count
  wellFormed : next.matcher.book.WellFormed
  rawSamples : next.rawSamples = context.rawSamples
  recorded : ∀ sink ∈ context.rawSamples,
    (next.sinks sink).writeIndex = (context.sinks sink).writeIndex + count ∧
      (next.sinks sink).capacity = (context.sinks sink).capacity

theorem Serves.trans (first : Serves context count middle)
    (second : Serves middle more next) :
    Serves context (count + more) next where
  run := first.run.trans second.run
  queue := by
    rw [second.queue, first.queue, List.drop_drop]
  wellFormed := second.wellFormed
  rawSamples := second.rawSamples.trans first.rawSamples
  recorded sink stored := by
    obtain ⟨index, capacity⟩ := first.recorded sink stored
    obtain ⟨later, same⟩ :=
      second.recorded sink (first.rawSamples ▸ stored)
    rw [later, index, Nat.add_assoc]
    exact ⟨rfl, same.trans capacity⟩

theorem serves_call {rest : List Order}
    (waiting : context.queue.queue = order :: rest)
    (wellFormed : context.matcher.book.WellFormed) :
    ∃ (matcher : Matcher sizes) (sample : LatencySample),
      matcher.book.WellFormed ∧
      Relation.ReflTransGen ContextStep (context, loop)
        ({ context with queue := { queue := rest }, matcher },
          loadSink sample) := by
  have found : context.queue.pop.1 = some order := by
    rw [MutexQueue.pop, waiting]
  have left : context.queue.pop.2 = { queue := rest } := by
    rw [MutexQueue.pop, waiting]
  obtain ⟨result, processed, nextFormed, _⟩ :=
    Matcher.process_spec wellFormed order
  have popping := Step.after (Step.after (Step.after
    (.refl (a := (context, loop))) (.enter rfl)) (.again (by decide) rfl))
    (.readStart 0)
  have popped := Step.after popping (.popSome found)
  rw [left] at popped
  have calling := Step.after (Step.after popped (.readEnd 0)) (.readCall 0)
  have called := Step.after calling (.call
    (List.replicate result.emitted.length (0, 0)) processed
    List.length_replicate)
  exact ⟨result.matcher, _, nextFormed, Step.after called (.readDone 0)⟩

theorem serves_record (sample : LatencySample) (room : Room context 1) :
    ∃ sinks, Relation.ReflTransGen ContextStep (context, loadSink sample)
        ({ context with sinks }, loop) ∧
      ∀ sink ∈ context.rawSamples,
        (sinks sink).writeIndex = (context.sinks sink).writeIndex + 1 ∧
          (sinks sink).capacity = (context.sinks sink).capacity := by
  by_cases null : context.rawSamples = none
  · refine ⟨context.sinks, .single ⟨_, .noSink null⟩, ?_⟩
    intro sink member
    rw [null] at member
    cases member
  · obtain ⟨sink, stored⟩ := Option.ne_none_iff_exists'.mp null
    have writing := Step.after (Step.after
      (.refl (a := (context, loadSink sample))) (.loadSink stored))
      (.loadIndex (room sink stored))
    refine ⟨_, Step.after (Step.after writing .writeSample) .storeIndex, ?_⟩
    intro other member
    rw [stored] at member
    cases member
    rw [PipelineContext.modifySink_sinks, Function.update_self]
    exact ⟨rfl, rfl⟩

theorem serves_one {rest : List Order}
    (waiting : context.queue.queue = order :: rest)
    (wellFormed : context.matcher.book.WellFormed)
    (room : Room context 1) : ∃ next, Serves context 1 next := by
  obtain ⟨matcher, sample, nextFormed, called⟩ :=
    serves_call waiting wellFormed
  have later : Room ({ context with queue := { queue := rest }, matcher } :
      PipelineContext sizes size) 1 :=
    room
  obtain ⟨sinks, recorded, counted⟩ := serves_record sample later
  refine ⟨_, called.trans recorded, ?_, nextFormed, rfl, counted⟩
  rw [waiting]
  rfl

/-- The matching thread works off the first messages of the queue, while the
producer stands still. -/
theorem serves (count : Nat) :
    ∀ {context : PipelineContext sizes size},
      count ≤ context.queue.queue.length →
      context.matcher.book.WellFormed →
      Room context count → ∃ next, Serves context count next := by
  induction count with
  | zero =>
      intro context _ wellFormed _
      exact ⟨context, .refl, rfl, wellFormed, rfl, fun _ _ => ⟨rfl, rfl⟩⟩
  | succ count induction =>
      intro context enough wellFormed room
      have sole : Room context 1 := by
        intro sink stored
        have both := room sink stored
        omega
      cases waiting : context.queue.queue with
      | nil =>
          rw [waiting] at enough
          cases enough
      | cons order rest =>
          obtain ⟨middle, first⟩ := serves_one waiting wellFormed sole
          have fewer : count ≤ middle.queue.queue.length := by
            rw [first.queue, List.length_drop]
            omega
          have later : Room middle count := by
            intro sink stored
            have before : sink ∈ context.rawSamples := first.rawSamples ▸ stored
            obtain ⟨index, capacity⟩ := first.recorded sink before
            have both := room sink before
            omega
          obtain ⟨next, second⟩ := induction fewer first.wellFormed later
          have all := first.trans second
          rw [Nat.add_comm 1 count] at all
          exact ⟨next, all⟩

end MatchingPoint

/-- The context with a fresh sink for a trial. -/
def PipelineContext.withSink (context : PipelineContext sizes size)
    (trial capacity : Nat) : PipelineContext sizes size :=
  { context with
    rawSamples := some trial
    sinks := Function.update context.sinks trial (.fresh capacity) }

theorem PipelineContext.withSink_sinks (context : PipelineContext sizes size)
    (trial capacity : Nat) :
    (context.withSink trial capacity).sinks trial = .fresh capacity := by
  change Function.update context.sinks trial _ trial = _
  exact Function.update_self ..

/-- The context with `items` in the queue. -/
def PipelineContext.withItems
    (context : PipelineContext sizes size) (items : List Order) :
    PipelineContext sizes size :=
  { context with queue := { queue := items } }

namespace Benchmark

variable {config : BenchmarkConfig} {mode : MatchingMode}
variable {state next : Benchmark sizes size} {history : BenchmarkHistory}
variable {context later : PipelineContext sizes size} {point : TrialPoint}
variable {allowed : Benchmark sizes size × BenchmarkHistory →
  BenchmarkEvent → Prop}

/-- A step that stores no sink. -/
def PlainStep (config : BenchmarkConfig) (state next : Benchmark sizes size) :
    Prop :=
  ∃ event, event ≠ .storeSink ∧ Step config state event next

theorem reachable_step {event : BenchmarkEvent}
    (reachable : ((benchmark config mode sizes size).guarded
      allowed).Reachable (state, history))
    (permitted : allowed (state, history) event)
    (taken : Step config state event next) :
    ((benchmark config mode sizes size).guarded allowed).Reachable
      (next, history.record state event next) :=
  .step reachable ⟨permitted, taken, rfl⟩

/-- A run of plain steps goes on from any history, if only the store of a sink
is guarded. -/
theorem reachable_run
    (free : ∀ recorded event, event ≠ .storeSink → allowed recorded event)
    (reachable : ((benchmark config mode sizes size).guarded
      allowed).Reachable (state, history))
    (run : Relation.ReflTransGen (PlainStep config) state next) :
    ∃ history, ((benchmark config mode sizes size).guarded
      allowed).Reachable (next, history) := by
  induction run with
  | refl => exact ⟨history, reachable⟩
  | tail _ taken induction =>
      obtain ⟨history, earlier⟩ := induction
      obtain ⟨event, plain, taken⟩ := taken
      exact ⟨_, reachable_step earlier (free _ event plain) taken⟩

/-- The benchmark in a trial, with the matching thread between two messages. -/
def inTrial (trial : Nat) (records : List (List LatencySample))
    (context : PipelineContext sizes size) (point : TrialPoint) :
    Benchmark sizes size where
  context
  trial
  point
  records
  matching := .loop
  matchingStop := false

/-- The same in the first trial. -/
abbrev firstTrial (context : PipelineContext sizes size) (point : TrialPoint) :
    Benchmark sizes size :=
  inTrial 0 [] context point

/-- The context before the first trial. -/
def freshContext (mode : MatchingMode) : PipelineContext sizes size where
  queue := .empty
  matcher := .start mode
  rawSamples := none
  sinks _ := .fresh 0

theorem firstTrial_starts :
    Starts mode (firstTrial (freshContext mode : PipelineContext sizes size)
      .test) :=
  ⟨rfl, rfl, rfl, rfl, rfl, rfl, rfl, rfl⟩

theorem phase_run (phase : Phase)
    (ordered : (config.replay phase).first < (config.replay phase).last)
    (found : (config.replay phase).last ≤ (config.replay phase).events.length)
    (context : PipelineContext sizes size) :
    ∃ (thread : ReplayThread) (items : List Order),
      thread.point = .returned ∧
      thread.onPush.length + context.queue.queue.length = items.length ∧
      items.length ≤ context.queue.queue.length +
        ((config.replay phase).last - (config.replay phase).first) ∧
      (context.queue.queue.length < size →
        context.queue.queue.length < items.length) ∧
      Relation.ReflTransGen (PlainStep config)
        (firstTrial context (.replay phase .start))
        (firstTrial (context.withItems items) (.replay phase thread)) := by
  obtain ⟨thread, items, fills, returned, bound, pushed⟩ :=
    ReplayThread.fills_phase size ordered found context.queue.queue
  refine ⟨thread, items, returned, ?_, bound, pushed, ?_⟩
  · have pushes := fills.pushes
    rw [ReplayThread.pushes, returned] at pushes
    exact pushes.trans (Nat.zero_add _)
  · refine fills.run.lift
      (fun pair => firstTrial { context with queue := pair.2 }
        (.replay phase pair.1)) ?_
    intro before after taken
    obtain ⟨event, taken, acts⟩ := taken
    exact ⟨.replay event, by simp, .replay rfl taken acts⟩

/-- The matching thread works while the trial loop stands still. -/
theorem serve_run {count : Nat} (point : TrialPoint)
    (serves : MatchingPoint.Serves context count later) :
    Relation.ReflTransGen (PlainStep config) (firstTrial context point)
      (firstTrial later point) := by
  refine serves.run.lift
    (fun pair => { firstTrial pair.1 point with matching := pair.2 }) ?_
  intro before after taken
  obtain ⟨event, taken⟩ := taken
  exact ⟨.matching event, by simp, .matching taken⟩

/-- Sizes for which both phases have events, and all of them are there. -/
structure Proper (config : BenchmarkConfig) (size : Nat) : Prop where
  trials : 0 < config.trials
  warmup : 0 < config.warmupIterations
  measured : 0 < config.measuredIterations
  events : config.warmupIterations + config.measuredIterations ≤
    config.events.length
  size : 0 < size

/-- The warm-up can be over before the matching thread has popped a message. -/
theorem reach_storing (proper : Proper config size) (mode : MatchingMode)
    (free : ∀ recorded event, event ≠ .storeSink → allowed recorded event) :
    ∃ items history, 0 < items.length ∧
      ((benchmark config mode sizes size).guarded allowed).Reachable
        (firstTrial ((freshContext mode).withItems items) .storeSink,
          history) := by
  have found : (config.replay .warmup).last ≤
      (config.replay .warmup).events.length :=
    Nat.le_of_add_right_le proper.events
  obtain ⟨thread, items, returned, _, _, pushed, run⟩ := phase_run .warmup
    proper.warmup found (freshContext mode : PipelineContext sizes size)
  have started : ((benchmark config mode sizes size).guarded
      allowed).Reachable (firstTrial (freshContext mode) .test, .start) :=
    .initial ⟨firstTrial_starts, rfl⟩
  have enters : PlainStep config
      (firstTrial (freshContext mode : PipelineContext sizes size) .test)
      (firstTrial (freshContext mode) (.replay .warmup .start)) :=
    ⟨.silent, by simp, .first rfl proper.trials rfl⟩
  have leaves : PlainStep config
      (firstTrial ((freshContext mode).withItems items :
        PipelineContext sizes size) (.replay .warmup thread))
      (firstTrial ((freshContext mode).withItems items) .storeSink) :=
    ⟨.silent, by simp, .warmedUp rfl returned⟩
  obtain ⟨history, reached⟩ := reachable_run free started
    ((Relation.ReflTransGen.head enters run).tail leaves)
  exact ⟨items, history, pushed proper.size, reached⟩

theorem reach_stored
    (reachable : ((benchmark config mode sizes size).guarded
      allowed).Reachable (firstTrial context .storeSink, history))
    (permitted : allowed (firstTrial context .storeSink, history) .storeSink) :
    ∃ history, ((benchmark config mode sizes size).guarded allowed).Reachable
      (firstTrial (context.withSink 0 config.measuredIterations)
        (.replay .measured .start), history) :=
  ⟨_, reachable_step reachable permitted (.storeSink rfl)⟩

theorem reach_wait (proper : Proper config size)
    (free : ∀ recorded event, event ≠ .storeSink → allowed recorded event)
    (reachable : ((benchmark config mode sizes size).guarded
      allowed).Reachable
        (firstTrial context (.replay .measured .start), history)) :
    ∃ counted items history, counted ≤ config.measuredIterations ∧
      counted + context.queue.queue.length = items.length ∧
      (context.queue.queue.length < size → 0 < counted) ∧
      ((benchmark config mode sizes size).guarded allowed).Reachable
        (firstTrial (context.withItems items) (.wait counted), history) := by
  obtain ⟨thread, items, returned, noted, bound, pushed, run⟩ :=
    phase_run .measured (Nat.lt_add_of_pos_right proper.measured) proper.events
      context
  have counts : PlainStep config
      (firstTrial (context.withItems items) (.replay .measured thread))
      (firstTrial (context.withItems items) (.wait thread.onPush.length)) :=
    ⟨.silent, by simp, .measured rfl returned⟩
  obtain ⟨history, reached⟩ := reachable_run free reachable (run.tail counts)
  refine ⟨thread.onPush.length, items, history, ?_, noted, ?_, reached⟩
  · have whole : (config.replay .measured).last -
        (config.replay .measured).first = config.measuredIterations :=
      Nat.add_sub_cancel_left ..
    omega
  · intro room
    have more := pushed room
    omega

theorem reach_waited {counted : Nat}
    (free : ∀ recorded event, event ≠ .storeSink → allowed recorded event)
    (reachable : ((benchmark config mode sizes size).guarded
      allowed).Reachable (firstTrial context (.wait counted), history))
    (enough : ¬ (context.sinks 0).writeIndex < counted) :
    ∃ history : BenchmarkHistory, history.waited = true ∧
      ((benchmark config mode sizes size).guarded allowed).Reachable
        (firstTrial context (.clearSink counted), history) :=
  ⟨_, rfl, reachable_step reachable (free _ .waited (by simp))
    (.waited rfl enough)⟩

/-- The measured phase without the matching thread, and then as many samples
as it has pushed messages: the wait is over, with as many messages in the queue
as before the phase. -/
theorem reach_clearSink (proper : Proper config size)
    (free : ∀ recorded event, event ≠ .storeSink → allowed recorded event)
    (reachable : ((benchmark config mode sizes size).guarded
      allowed).Reachable
        (firstTrial (context.withSink 0 config.measuredIterations)
          (.replay .measured .start), history))
    (wellFormed : context.matcher.book.WellFormed) :
    ∃ (counted : Nat) (later : PipelineContext sizes size)
      (history : BenchmarkHistory),
      (context.queue.queue.length < size → 0 < counted) ∧
      later.queue.queue.length = context.queue.queue.length ∧
      history.waited = true ∧
      ((benchmark config mode sizes size).guarded allowed).Reachable
        (firstTrial later (.clearSink counted), history) := by
  obtain ⟨counted, items, history, bound, total, pushed, waiting⟩ :=
    reach_wait proper free reachable
  let stored := (context.withSink 0 config.measuredIterations).withItems items
  have sink : stored.sinks 0 = .fresh config.measuredIterations :=
    context.withSink_sinks 0 config.measuredIterations
  have room : MatchingPoint.Room stored counted := by
    intro number member
    cases member
    rw [sink]
    exact (Nat.zero_add _).trans_le bound
  have held : counted ≤ stored.queue.queue.length :=
    (Nat.le_add_right _ _).trans total.le
  obtain ⟨later, serves⟩ := MatchingPoint.serves counted held wellFormed room
  obtain ⟨recorded, _⟩ := serves.recorded 0 rfl
  have enough : ¬ (later.sinks 0).writeIndex < counted := by
    rw [recorded]
    exact Nat.not_lt_of_le (Nat.le_add_left _ _)
  have left : later.queue.queue.length = context.queue.queue.length := by
    rw [serves.queue, List.length_drop]
    exact Nat.sub_eq_of_eq_add' total.symm
  obtain ⟨history, served⟩ := reachable_run free waiting
    (serve_run (.wait counted) serves)
  obtain ⟨history, waited, reached⟩ := reach_waited free served enough
  exact ⟨counted, later, history, pushed, left, waited, reached⟩

end Benchmark

end Hydra
