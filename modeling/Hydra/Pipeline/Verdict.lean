import Hydra.Pipeline.Determinism

/-!
# The verdict on a benchmark

The total of the events that were given up is that of all phases, and does not
wrap around.  So if the total is zero, the trials agree in all of their
counters, and the check for determinism passes.
-/

namespace Hydra

variable {sizes : PoolSizes} {size : Nat}

/-- The events of a trial that were given up. -/
def Trial.lost (trial : Trial) : Nat :=
  trial.warmup.dropped.toNat + trial.measured.dropped.toNat

namespace BenchmarkReport

/-- The events that were given up in the phases of the trial so far. -/
def pending (report : BenchmarkReport) : TrialPoint → Nat
  | .storeSink | .replay .measured _ => report.warmupResult.dropped.toNat
  | .wait _ | .clearSink _ | .assign _ =>
      report.warmupResult.dropped.toNat + report.measuredResult.dropped.toNat
  | .test | .resetBook | .resetOrderPool | .resetLevelPool
  | .replay .warmup _ | .done => 0

def lost (report : BenchmarkReport) (point : TrialPoint) : Nat :=
  (report.trials.map Trial.lost).sum + report.pending point

end BenchmarkReport

namespace BenchmarkConfig

/-- The events of a trial. -/
def span (config : BenchmarkConfig) : Nat :=
  config.warmupIterations + config.measuredIterations

/-- The events of the phases of the trial that are over. -/
def behind (config : BenchmarkConfig) : TrialPoint → Nat
  | .storeSink | .replay .measured _ => config.warmupIterations
  | .wait _ | .clearSink _ | .assign _ => config.span
  | .test | .resetBook | .resetOrderPool | .resetLevelPool
  | .replay .warmup _ | .done => 0

end BenchmarkConfig

/-- Whether a trial is going on. -/
def TrialPoint.underway : TrialPoint → Nat
  | .test | .done => 0
  | .resetBook | .resetOrderPool | .resetLevelPool | .replay _ _ | .storeSink
  | .wait _ | .clearSink _ | .assign _ => 1

theorem BenchmarkConfig.behind_le (config : BenchmarkConfig)
    (point : TrialPoint) :
    config.behind point ≤ point.underway * config.span := by
  cases point with
  | replay phase thread =>
      cases phase with
      | warmup => exact Nat.zero_le _
      | measured => exact (Nat.le_add_right _ _).trans (Nat.one_mul _).ge
  | storeSink => exact (Nat.le_add_right _ _).trans (Nat.one_mul _).ge
  | wait | clearSink | assign => exact (Nat.one_mul _).ge
  | test | resetBook | resetOrderPool | resetLevelPool | done =>
      exact Nat.zero_le _

namespace Benchmark

variable {config : BenchmarkConfig} {mode : MatchingMode}
variable {state next : Benchmark sizes size} {history : BenchmarkHistory}
variable {report : BenchmarkReport} {event : BenchmarkEvent}

/-- The total is charged with the events of the phases that are over. -/
structure Charged (config : BenchmarkConfig) (state : Benchmark sizes size)
    (report : BenchmarkReport) : Prop where
  total : report.totalDroppedEvents = .ofNat (report.lost state.point)
  few : report.lost state.point ≤
    state.trial * config.span + config.behind state.point
  trial : state.trial + state.point.underway ≤ config.trials

theorem Starts.charged (starts : Starts mode state) :
    Charged config state {} where
  total := by
    rw [starts.point]
    rfl
  few := by
    rw [starts.point]
    exact Nat.zero_le _
  trial := by
    rw [starts.point, starts.trial]
    exact Nat.zero_le _

theorem Charged.keep (charged : Charged config state report)
    {other : BenchmarkReport}
    (total : other.totalDroppedEvents = report.totalDroppedEvents)
    (lost : other.lost next.point = report.lost state.point)
    (behind : config.behind next.point = config.behind state.point)
    (trial : next.trial = state.trial)
    (underway : state.trial + next.point.underway ≤ config.trials) :
    Charged config next other where
  total := by
    rw [total, lost]
    exact charged.total
  few := by
    rw [lost, trial, behind]
    exact charged.few
  trial := by
    rw [trial]
    exact underway

theorem phase_total {lost : Nat} {result : ReplayPhaseResult}
    (total : report.totalDroppedEvents = .ofNat lost) :
    (report.phase result).totalDroppedEvents =
      .ofNat (lost + result.dropped.toNat) := by
  change report.totalDroppedEvents + result.dropped = _
  rw [total, UInt64.ofNat_add, UInt64.ofNat_toNat]

theorem Step.charged (small : Countable config)
    (taken : Step config state event next)
    (stands : Stands config mode state history report state.point)
    (charged : Charged config state report) :
    Charged config next (report.record (state, history) event
      (next, history.record state event next)) := by
  have underway := charged.trial
  cases taken with
  | finish testing =>
      rw [testing] at underway
      rw [BenchmarkReport.record, testing]
      refine charged.keep rfl ?_ ?_ rfl underway <;> rw [testing] <;> rfl
  | first testing more | again testing more =>
      rw [BenchmarkReport.record, testing]
      refine charged.keep rfl ?_ ?_ rfl more <;> rw [testing] <;> rfl
  | resetBook stand | resetOrderPool stand | resetLevelPool stand
  | waited stand | clearSink stand | storeSink stand =>
      rw [stand] at underway
      rw [BenchmarkReport.record, stand]
      refine charged.keep rfl ?_ ?_ rfl underway <;> rw [stand] <;> rfl
  | @replay phase thread event other queue stand =>
      rw [stand] at underway
      rw [record_phase stand rfl]
      refine charged.keep rfl ?_ ?_ rfl underway <;> rw [stand] <;>
        cases phase <;> rfl
  | @warmedUp thread replaying returned =>
      obtain ⟨total, few, _⟩ := charged
      rw [replaying] at stands total few underway
      have counted := (replayed_of_returned small stands.2.2 returned).counted
      have bound := (Nat.le_add_left _ _).trans counted.le
      rw [BenchmarkReport.record, replaying]
      refine ⟨phase_total total, ?_, underway⟩
      exact Nat.add_le_add few bound
  | @measured thread replaying returned =>
      obtain ⟨total, few, _⟩ := charged
      rw [replaying] at stands total few underway
      have length : (config.replay .measured).last -
          (config.replay .measured).first = config.measuredIterations :=
        Nat.add_sub_cancel_left ..
      have counted := (replayed_of_returned small stands.2.2 returned).counted
      have bound := (Nat.le_add_left _ _).trans counted.le
      rw [length] at bound
      rw [BenchmarkReport.record, replaying]
      have sum : (report.trials.map Trial.lost).sum +
          (report.warmupResult.dropped.toNat + thread.result.dropped.toNat) =
          report.lost (.replay .measured thread) +
            thread.result.dropped.toNat :=
        (Nat.add_assoc ..).symm
      refine ⟨?_, ?_, underway⟩
      · exact (phase_total total).trans (congrArg UInt64.ofNat sum.symm)
      · exact sum.le.trans ((Nat.add_le_add few bound).trans
          (Nat.add_assoc ..).le)
  | spin | stop =>
      rw [record_same]
      · exact ⟨charged.total, charged.few, charged.trial⟩
      · rfl
  | @assign pushed assigning =>
      obtain ⟨total, few, _⟩ := charged
      rw [assigning] at total few underway
      rw [BenchmarkReport.record, assigning]
      have same (samples : List LatencySample) (book : OrderBook sizes) :
          (report.add samples book).lost .test =
            report.lost (.assign pushed) := by
        rw [BenchmarkReport.lost, BenchmarkReport.add, List.map_append,
          List.sum_append]
        rfl
      refine ⟨total.trans (congrArg UInt64.ofNat (same _ _).symm), ?_,
        underway⟩
      rw [same]
      exact few.trans (Nat.succ_mul _ _).ge
  | matching =>
      rw [record_same]
      · exact ⟨charged.total, charged.few, charged.trial⟩
      · rfl

theorem charged (small : Countable config)
    {recorded : (Benchmark sizes size × BenchmarkHistory) × BenchmarkReport}
    (reachable :
      (reportedBenchmark config mode sizes size).Reachable recorded) :
    Charged config recorded.1.1 recorded.2 := by
  induction reachable with
  | initial starts =>
      obtain ⟨⟨starts, _⟩, unreported⟩ := starts
      rw [unreported]
      exact starts.charged
  | step earlier taken induction =>
      obtain ⟨⟨_, step, recorded⟩, noted⟩ := taken
      have next := step.charged small (reported small earlier).stands induction
      rw [noted]
      rw [← recorded] at next
      exact next

/-- The total does not wrap around. -/
theorem totalDroppedEvents_toNat (small : Countable config)
    (countable : config.trials * config.span < 2 ^ 64)
    (reachable : (reportedBenchmark config mode sizes size).Reachable
      ((state, history), report)) :
    report.totalDroppedEvents.toNat = report.lost state.point := by
  obtain ⟨total, few, trials⟩ := charged small reachable
  have bound : report.lost state.point < UInt64.size := by
    calc report.lost state.point
        ≤ state.trial * config.span + config.behind state.point := few
      _ ≤ state.trial * config.span + state.point.underway * config.span :=
          Nat.add_le_add_left (config.behind_le state.point) _
      _ = (state.trial + state.point.underway) * config.span :=
          (Nat.add_mul ..).symm
      _ ≤ config.trials * config.span := Nat.mul_le_mul_right _ trials
      _ < 2 ^ 64 := countable
  rw [total, UInt64.toNat_ofNat_of_lt' bound]

theorem sum_lost_eq_zero {trials : List Trial} :
    (trials.map Trial.lost).sum = 0 ↔ ∀ trial ∈ trials, trial.Dropless := by
  rw [List.sum_eq_zero_iff_forall_eq_nat, List.forall_mem_map]
  apply forall₂_congr
  intro trial _
  rw [Trial.lost, Nat.add_eq_zero_iff, Trial.Dropless, ← UInt64.toNat_inj,
    ← UInt64.toNat_inj]
  rfl

/-- If the total is zero, no trial has given up on an event. -/
theorem dropless_of_total (small : Countable config)
    (countable : config.trials * config.span < 2 ^ 64)
    (reachable : (reportedBenchmark config mode sizes size).Reachable
      ((state, history), report))
    (kept : report.totalDroppedEvents = 0) :
    ∀ trial ∈ report.trials, trial.Dropless := by
  have total := totalDroppedEvents_toNat small countable reachable
  rw [kept] at total
  exact sum_lost_eq_zero.mp (Nat.add_eq_zero_iff.mp total.symm).1

/-- Between the trials the total is zero exactly if none has given up on an
event. -/
theorem total_eq_zero_iff (small : Countable config)
    (countable : config.trials * config.span < 2 ^ 64)
    (reachable : (reportedBenchmark config mode sizes size).Reachable
      ((state, history), report))
    (between : report.pending state.point = 0) :
    report.totalDroppedEvents = 0 ↔
      ∀ trial ∈ report.trials, trial.Dropless := by
  have total := totalDroppedEvents_toNat small countable reachable
  rw [BenchmarkReport.lost, between, Nat.add_zero] at total
  rw [← sum_lost_eq_zero, ← total]
  exact UInt64.toNat_inj.symm

end Benchmark

/-- The counters next to another drift and other exhaustions of the pools. -/
def TrialStats.besides (stats : TrialStats)
    (maxScheduleDriftNs poolExhaustionDelta : UInt64) : TrialStats :=
  { stats with maxScheduleDriftNs, poolExhaustionDelta }

theorem TrialStats.count_besides (stats : TrialStats) (sample : LatencySample)
    (drift exhausted : UInt64) :
    (stats.besides drift exhausted).count sample =
      (stats.count sample).besides drift exhausted := by
  rw [count, count]
  split <;> rfl

theorem TrialStats.foldl_besides (samples : List LatencySample)
    (stats : TrialStats) (drift exhausted : UInt64) :
    samples.foldl count (stats.besides drift exhausted) =
      (samples.foldl count stats).besides drift exhausted := by
  induction samples generalizing stats with
  | nil => rfl
  | cons sample rest induction =>
      rw [List.foldl_cons, List.foldl_cons, count_besides, induction]

/-- The counters with their fingerprint. -/
def TrialStats.hashed (stats : TrialStats) (bids asks : Nat) : TrialStats :=
  { stats with
    stateHash := (stats.outcomes bids asks).foldl fold fnvOffsetBasis }

theorem computeTrialStats_besides (samples : List LatencySample)
    (bids asks : Nat) (dropped drift exhausted : UInt64)
    (otherDrift otherExhausted : UInt64) :
    (computeTrialStats samples bids asks dropped drift exhausted).besides
        otherDrift otherExhausted =
      computeTrialStats samples bids asks dropped otherDrift
        otherExhausted := by
  have loop := TrialStats.foldl_besides samples
    { droppedEvents := dropped
      maxScheduleDriftNs := drift
      poolExhaustionDelta := exhausted } otherDrift otherExhausted
  exact (congrArg (TrialStats.hashed · bids asks) loop).symm

theorem determinismPass_of_same {hashes : List UInt64}
    (same : ∀ first ∈ hashes, ∀ second ∈ hashes, first = second) :
    determinismPass hashes = true := by
  cases hashes with
  | nil => rfl
  | cons head rest =>
      refine List.all_eq_true.mpr ?_
      intro stateHash member
      exact beq_iff_eq.mpr
        (same _ (List.mem_cons_of_mem _ member) _ List.mem_cons_self)

namespace Benchmark

variable {config : BenchmarkConfig} {mode : MatchingMode}
variable {state : Benchmark sizes size} {history : BenchmarkHistory}
variable {report : BenchmarkReport}

/-- Trials that drop nothing differ in nothing but their drift and what they
did to the pools. -/
theorem sequential_besides {first second : TrialStats}
    (firstSame : Sequential config mode sizes first)
    (secondSame : Sequential config mode sizes second) :
    first.besides second.maxScheduleDriftNs second.poolExhaustionDelta =
      second := by
  rw [Sequential] at firstSame secondSame
  conv_lhs => rw [firstSame]
  rw [computeTrialStats_besides, ← secondSame]

/-- Trials that give up on no event agree, and so the check passes. -/
theorem agree_of_dropless (small : Countable config)
    (reachable : (reportedBenchmark config mode sizes size).Reachable
      ((state, history), report))
    (dropless : ∀ trial ∈ report.trials, trial.Dropless) :
    determinismPass report.stateHashes = true ∧
      ∀ first ∈ report.trialStats, ∀ second ∈ report.trialStats,
        first.besides second.maxScheduleDriftNs second.poolExhaustionDelta =
          second := by
  have agree : ∀ first ∈ report.trialStats, ∀ second ∈ report.trialStats,
      first.besides second.maxScheduleDriftNs second.poolExhaustionDelta =
        second := by
    intro first firstMember second secondMember
    obtain ⟨trial, member, rfl⟩ := List.mem_map.mp firstMember
    obtain ⟨other, otherMember, rfl⟩ := List.mem_map.mp secondMember
    have trials := (reported small reachable).trials
    exact sequential_besides (trials trial member (dropless trial member))
      (trials other otherMember (dropless other otherMember))
  refine ⟨determinismPass_of_same ?_, agree⟩
  intro first firstMember second secondMember
  obtain ⟨stats, member, rfl⟩ := List.mem_map.mp firstMember
  obtain ⟨other, otherMember, rfl⟩ := List.mem_map.mp secondMember
  have same := agree stats member other otherMember
  exact (congrArg TrialStats.stateHash same : _)

/-- If the total of the events given up is zero, the check for determinism
passes, and the trials agree in all of their counters. -/
theorem determinism_of_total (small : Countable config)
    (countable : config.trials * config.span < 2 ^ 64)
    (reachable : (reportedBenchmark config mode sizes size).Reachable
      ((state, history), report))
    (kept : report.totalDroppedEvents = 0) :
    determinismPass report.stateHashes = true ∧
      ∀ first ∈ report.trialStats, ∀ second ∈ report.trialStats,
        first.besides second.maxScheduleDriftNs second.poolExhaustionDelta =
          second :=
  agree_of_dropless small reachable
    (dropless_of_total small countable reachable kept)

/-- A run of the short benchmark that gives up on no event. -/
theorem determinism_of_total_short :
    ∃ (state : Benchmark configSizes 4) (history : BenchmarkHistory)
        (report : BenchmarkReport),
      (reportedBenchmark shortBenchmark .priceTime configSizes 4).Reachable
        ((state, history), report) ∧
      report.totalDroppedEvents = 0 ∧ report.trials.length = 2 ∧
      determinismPass report.stateHashes = true ∧
      ∀ first ∈ report.trialStats, ∀ second ∈ report.trialStats,
        first.besides second.maxScheduleDriftNs second.poolExhaustionDelta =
          second := by
  obtain ⟨_, _, _, report, reachable, length, dropless⟩ :=
    shortBenchmark_trials
  have total : report.totalDroppedEvents = 0 :=
    (total_eq_zero_iff shortBenchmark_countable (by decide) reachable rfl).mpr
      dropless
  exact ⟨_, _, report, reachable, total, length,
    determinism_of_total shortBenchmark_countable (by decide) reachable total⟩

end Benchmark

end Hydra
