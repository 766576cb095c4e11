import Hydra.Market.Shortage
import Hydra.Pipeline.Verdict

/-!
# Induction over trials

While a trial is going on, only the matching thread changes the book and adds
samples.  So what holds when a trial begins and is kept by the matching thread
holds until the end of the trial, and what follows from it there holds of all
trials that are reported.
-/

namespace Hydra

variable {sizes : PoolSizes} {size : Nat}

/-- How often the pool was exhausted. -/
def OrderBook.exhaustionCount (book : OrderBook sizes) : Shortage → UInt64
  | .orders => book.orderPool.exhaustionCount
  | .levels => book.levelPool.exhaustionCount

def BenchmarkReport.exhaustionsBefore (report : BenchmarkReport) :
    Shortage → UInt64
  | .orders => report.orderPoolBefore
  | .levels => report.levelPoolBefore

theorem BenchmarkReport.begin_exhaustionsBefore (report : BenchmarkReport)
    (book : OrderBook sizes) (base : Nat) :
    (report.begin book base).exhaustionsBefore = book.exhaustionCount := by
  funext pool
  cases pool <;> rfl

theorem MatchingPoint.called_of_unsampled {point : MatchingPoint}
    (unsampled : point.unsampled = none) : point.called = none := by
  cases point with
  | readDone => cases unsampled
  | _ => rfl

/-- Whether a trial uses the book. -/
def TrialPoint.Trading : TrialPoint → Prop
  | .replay _ _ | .storeSink | .wait _ | .clearSink _ | .assign _ => True
  | .test | .resetBook | .resetOrderPool | .resetLevelPool | .done => False

/-- What may be said about a trial that is going on: about the exhaustions
before it, the number of messages before it, the matcher, the matching thread
and all samples so far. -/
abbrev TrialProperty (sizes : PoolSizes) :=
  (Shortage → UInt64) → Nat → Matcher sizes → MatchingPoint →
    List (Order × LatencySample) → Prop

/-- The property holds when a trial begins, and the matching thread keeps
it. -/
structure TrialProperty.Kept (property : TrialProperty sizes)
    (mode : MatchingMode) (size : Nat) : Prop where
  begin : ∀ matcher point sampled, point.called = none →
    property matcher.book.exhaustionCount sampled.length matcher point sampled
  step : ∀ {before base stopped event}
    {context next : PipelineContext sizes size} {point nextPoint sampled},
    Tallied mode base context.matcher point sampled →
    context.matcher.mode = mode →
    property before base context.matcher point sampled →
    MatchingPoint.Step stopped context point event next nextPoint →
    property before base next.matcher nextPoint
      (sampled ++ (point.sampled nextPoint).toList)

namespace Benchmark

variable {config : BenchmarkConfig} {mode : MatchingMode}
variable {state next : Benchmark sizes size} {history : BenchmarkHistory}
variable {report : BenchmarkReport} {event : BenchmarkEvent}
variable {property : TrialProperty sizes} {conclusion : Trial → Prop}

theorem Stands.tallied {point : TrialPoint} (trading : point.Trading)
    (stands : Stands config mode state history report point) :
    Tallied mode report.base state.context.matcher state.matching
      history.sampled := by
  cases point with
  | replay phase thread => cases phase <;> exact stands.1
  | storeSink | wait | clearSink | assign => exact stands.1
  | test | resetBook | resetOrderPool | resetLevelPool | done =>
      exact absurd trading id

/-- The end of a trial: its sink is cleared, and no message is on its way. -/
structure Concludes (config : BenchmarkConfig) (mode : MatchingMode)
    (state : Benchmark sizes size) (history : BenchmarkHistory)
    (report : BenchmarkReport) (counted : Nat) : Prop where
  tallied : Tallied mode report.base state.context.matcher state.matching
    history.sampled
  stored : Stored config history report
  measured : Replayed config .measured report.measuredResult
    (history.pushed.drop history.stored)
  kept : Kept config state history
  drained : state.Drained
  collected : Collected state history counted
  few : counted ≤ config.measuredIterations

/-- The property holds of the trial that is going on, and the conclusion of
those that are over. -/
structure Inductive (property : TrialProperty sizes)
    (conclusion : Trial → Prop) (state : Benchmark sizes size)
    (history : BenchmarkHistory) (report : BenchmarkReport) : Prop where
  going : state.point.Trading → property report.exhaustionsBefore report.base
    state.context.matcher state.matching history.sampled
  trials : ∀ trial ∈ report.trials, conclusion trial
  count : report.trials.length = state.trial

/-- The conclusion follows from the property at the end of a trial. -/
def Finishes (config : BenchmarkConfig) (mode : MatchingMode) (size : Nat)
    (property : TrialProperty sizes) (conclusion : Trial → Prop) : Prop :=
  ∀ (state : Benchmark sizes size) (history : BenchmarkHistory)
      (report : BenchmarkReport) (counted : Nat),
    Concludes config mode state history report counted →
    property report.exhaustionsBefore report.base state.context.matcher
      state.matching history.sampled →
    conclusion
      { stats := computeTrialStats
          ((state.context.sinks state.trial).samples.take counted)
          state.context.matcher.book.bidLevelCount
          state.context.matcher.book.askLevelCount
          report.measuredResult.dropped report.measuredResult.maxDriftNs
          (report.poolDelta state.context.matcher.book)
        warmup := report.warmupResult
        measured := report.measuredResult }

theorem Inductive.begin (held : property.Kept mode size)
    (trials : ∀ trial ∈ report.trials, conclusion trial)
    (count : report.trials.length = next.trial)
    (uncalled : next.matching.called = none)
    (base : history.pushed.length = history.sampled.length) :
    Inductive property conclusion next history
      (report.begin next.context.matcher.book history.pushed.length) where
  going _ := by
    rw [report.begin_exhaustionsBefore]
    change property _ history.pushed.length _ _ _
    rw [base]
    exact held.begin _ _ _ uncalled
  trials := trials
  count := count

theorem Step.inductive (held : property.Kept mode size)
    (finishes : Finishes config mode size property conclusion)
    (taken : Step config state event next)
    (kept : Kept config state history) (drawn : Drawn config state history)
    (reported : Reported config mode state history report)
    (maintained : Inductive property conclusion state history report) :
    Inductive property conclusion next (history.record state event next)
      (report.record (state, history) event
        (next, history.record state event next)) := by
  obtain ⟨going, trials, count⟩ := maintained
  have stands := reported.stands
  have quiet : state.Exclusive → state.Drained :=
    fun exclusive => drawn.quiet (kept.exclusive exclusive)
  cases taken with
  | finish stand | again stand | resetBook stand | resetOrderPool stand =>
      rw [BenchmarkReport.record, stand]
      exact ⟨fun trading => absurd trading id, trials, count⟩
  | first testing more fresh =>
      rw [testing] at stands
      obtain ⟨unpushed, _⟩ := stands fresh
      have flow := kept.flow
      rw [unpushed] at flow
      obtain ⟨unsampled, rest⟩ := List.append_eq_nil_iff.mp flow.symm
      have held_none := (List.append_eq_nil_iff.mp rest).1
      rw [BenchmarkReport.record, testing]
      refine Inductive.begin held trials count ?_ ?_
      · exact MatchingPoint.called_of_unsampled
          (Option.toList_eq_nil_iff.mp held_none)
      · change history.pushed.length = history.sampled.length
        rw [unpushed, List.map_eq_nil_iff.mp unsampled]
        rfl
  | resetLevelPool resetting =>
      rw [Exclusive, resetting] at quiet
      obtain ⟨empty, idle⟩ := quiet trivial
      rw [BenchmarkReport.record, resetting]
      refine Inductive.begin held trials count idle.called ?_
      change history.pushed.length = history.sampled.length
      rw [kept.flow, empty, idle.nothing.1]
      change (history.sampled.map Prod.fst ++ []).length = _
      rw [List.append_nil, List.length_map]
  | @replay phase thread event other queue stand =>
      rw [stand] at going
      rw [record_phase stand rfl]
      exact ⟨fun _ => going trivial, trials, count⟩
  | @warmedUp thread stand | @measured thread stand =>
      rw [stand] at going
      rw [BenchmarkReport.record, stand]
      exact ⟨fun _ => going trivial, trials, count⟩
  | storeSink stand | waited stand | clearSink stand =>
      rw [stand] at going
      rw [BenchmarkReport.record, stand]
      exact ⟨fun _ => going trivial, trials, count⟩
  | spin | stop =>
      rw [record_same]
      · exact ⟨going, trials, count⟩
      · rfl
  | @assign pushed assigning =>
      have sink := drawn.sink
      have counts := kept.counted
      rw [Exclusive, assigning] at quiet
      rw [assigning] at going stands sink counts
      obtain ⟨tallied, stored, measured⟩ := stands
      rw [BenchmarkReport.record, assigning]
      refine ⟨fun trading => absurd trading id, ?_,
        List.length_append.trans (congrArg (· + 1) count)⟩
      intro trial member
      rcases List.mem_append.mp member with earlier | last
      · exact trials trial earlier
      · obtain rfl := List.mem_singleton.mp last
        exact finishes _ _ _ _
          ⟨tallied, stored, measured, kept, quiet trivial, sink.2, counts.1⟩
          (going trivial)
  | matching step =>
      rw [record_same]
      · refine ⟨fun trading => ?_, trials, count⟩
        exact held.step (stands.tallied trading) reported.unswitched
          (going trading) step
      · rfl

/-- What holds when a trial begins, is kept by the matching thread and leads to
the conclusion when the trial ends. -/
theorem trials_induction (small : Countable config)
    (held : property.Kept mode size)
    (finishes : Finishes config mode size property conclusion)
    {recorded : (Benchmark sizes size × BenchmarkHistory) × BenchmarkReport}
    (reachable :
      (reportedBenchmark config mode sizes size).Reachable recorded) :
    Inductive property conclusion recorded.1.1 recorded.1.2 recorded.2 := by
  induction reachable with
  | initial starts =>
      obtain ⟨⟨starts, fresh⟩, unreported⟩ := starts
      rw [unreported]
      refine ⟨fun trading => ?_, nofun, starts.trial.symm⟩
      rw [starts.point] at trading
      exact absurd trading id
  | step earlier taken induction =>
      obtain ⟨⟨_, step, recorded⟩, noted⟩ := taken
      have guarded := earlier.of_withGhost
      have next := step.inductive held finishes (kept guarded.of_guarded)
        (drawn guarded) (reported small earlier) induction
      rw [noted, recorded]
      rw [← recorded] at next ⊢
      exact next

end Benchmark

end Hydra
