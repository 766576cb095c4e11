import Hydra.Runs.Stream
import Hydra.Spsc.Queue

/-!
# The matching thread

`matching_thread_fn`, step by step.  Between two steps the other threads may
run.  The queue is taken as linearizable: a call is one step on a bounded list,
as in the ablation.

The readings of the clock are labels of the steps, and nothing is assumed about
them here.
-/

namespace Hydra

variable {sizes : PoolSizes} {size : Nat}

/-- What is recorded for one message. -/
structure LatencySample where
  queueResidenceNs : UInt64 := 0
  queuePopNs : UInt64 := 0
  matchTimeNs : UInt64 := 0
  fillPublishNs : UInt64 := 0
  endToEndNs : UInt64 := 0
  fillsGenerated : UInt32 := 0
  levelsConsumed : UInt32 := 0
  restingOrdersExamined : UInt32 := 0
  eligibleOrdersExamined : UInt32 := 0
  selfTradeSkips : UInt32 := 0
  remainingQty : UInt32 := 0
  isCancel : Bool := false
  isReplace : Bool := false
  deriving DecidableEq

/-- An array of samples and the place of the next one. -/
structure RawSampleSink where
  samples : List LatencySample
  capacity : Nat
  writeIndex : Nat

/-- What the threads of the pipeline share.  `rawSamples` points to one of the
sinks. -/
structure PipelineContext (sizes : PoolSizes) (size : Nat) where
  queue : MutexQueue Order size
  matcher : Matcher sizes
  rawSamples : Option Nat
  sinks : Nat → RawSampleSink

def PipelineContext.modifySink (context : PipelineContext sizes size)
    (sink : Nat) (change : RawSampleSink → RawSampleSink) :
    PipelineContext sizes size :=
  { context with
    sinks := Function.update context.sinks sink (change (context.sinks sink)) }

@[simp]
theorem PipelineContext.modifySink_sinks (context : PipelineContext sizes size)
    (sink : Nat) (change : RawSampleSink → RawSampleSink) :
    (context.modifySink sink change).sinks sink =
      change (context.sinks sink) :=
  Function.update_self ..

def Order.isCancel (order : Order) : Bool :=
  order.eventTag = .newOrCancel ∧ order.qty = 0

def Order.isReplace (order : Order) : Bool :=
  order.eventTag = .replace

/-- What the call for a message returns. -/
structure Processed (sizes : PoolSizes) where
  matcher : Matcher sizes
  stats : MatchStats
  emitted : List (Emission sizes)

/-- The call that the matching thread makes for a message. -/
def Matcher.process (matcher : Matcher sizes) (order : Order) :
    Except Fault (Processed sizes) :=
  if order.isCancel then do
    let (_, book) ← matcher.book.cancelOrder order.orderId
    return { matcher := { matcher with book }, stats := {}, emitted := [] }
  else if order.isReplace then do
    let result ← matcher.book.replace matcher.load order.orderId order.price
      order.qty
    return {
      matcher := { matcher with book := result.book }
      stats := result.stats
      emitted := result.emitted }
  else do
    let result ← matcher.book.matchOrder matcher.load order
    return {
      matcher := { matcher with book := result.book }
      stats := result.stats
      emitted := result.emitted }

/-- The readings of the clock around the call for a message. -/
structure CallTimes where
  popStartNs : UInt64
  popEndNs : UInt64
  callStartNs : UInt64

/-- The time that the fill handler took; each call of it reads the clock
twice. -/
def fillPublishNs (readings : List (UInt64 × UInt64)) : UInt64 :=
  readings.foldl (fun total reading => total + (reading.2 - reading.1)) 0

/-- The sample that is recorded for a message. -/
def latencySample (order : Order) (times : CallTimes)
    (publishNs : UInt64) (stats : MatchStats) (callEndNs : UInt64) :
    LatencySample :=
  if order.isCancel then
    { queueResidenceNs := times.popStartNs - order.timestampNs
      queuePopNs := times.popEndNs - times.popStartNs
      matchTimeNs := callEndNs - times.callStartNs
      endToEndNs := callEndNs - order.timestampNs
      isCancel := true }
  else
    { queueResidenceNs := times.popStartNs - order.timestampNs
      queuePopNs := times.popEndNs - times.popStartNs
      matchTimeNs := (callEndNs - times.callStartNs) -
        stdMin publishNs (callEndNs - times.callStartNs)
      fillPublishNs := publishNs
      endToEndNs := callEndNs - order.timestampNs
      fillsGenerated := stats.fillsGenerated
      levelsConsumed := stats.levelsConsumed
      restingOrdersExamined := stats.restingOrdersExamined
      eligibleOrdersExamined := stats.eligibleOrdersExamined
      selfTradeSkips := stats.selfTradeSkips
      remainingQty := stats.remainingQty
      isReplace := order.isReplace }

def kBoundedSpinAttempts : Nat := 1000

/-- Where the thread stands. -/
inductive MatchingPoint where
  | loop
  | test (attempt : Nat)
  | readStart (attempt : Nat)
  | pop (attempt : Nat) (popStartNs : UInt64)
  | readEnd (order : Order) (popStartNs : UInt64)
  | readCall (order : Order) (popStartNs popEndNs : UInt64)
  | call (order : Order) (times : CallTimes)
  | readDone (order : Order) (times : CallTimes) (publishNs : UInt64)
      (stats : MatchStats)
  | loadSink (sample : LatencySample)
  | loadIndex (sink : Nat) (sample : LatencySample)
  | writeSample (sink : Nat) (sample : LatencySample) (index : Nat)
  | storeIndex (sink : Nat) (index : Nat)
  | exited

/-- The order that is popped and not yet applied. -/
def MatchingPoint.inHand : MatchingPoint → Option Order
  | readEnd order _ | readCall order _ _ | call order _ => some order
  | _ => none

/-- What a step of the matching thread does that others notice. -/
inductive MatchingEvent where
  | silent
  | readClock (nowNs : UInt64)
  | pop (result : Option Order)
  /-- A message is applied to the book. -/
  | call (order : Order) (readings : List (UInt64 × UInt64))

/-- The steps of `matching_thread_fn`; `stopped` is what its stop token
says. -/
inductive MatchingPoint.Step (stopped : Bool) :
    PipelineContext sizes size → MatchingPoint → MatchingEvent →
    PipelineContext sizes size → MatchingPoint → Prop where
  | exit {context} (stop : stopped = true) :
      Step stopped context .loop .silent context .exited
  | enter {context} (go : stopped = false) :
      Step stopped context .loop .silent context (.test 0)
  | again {context attempt} (left : attempt < kBoundedSpinAttempts)
      (go : stopped = false) :
      Step stopped context (.test attempt) .silent context
        (.readStart attempt)
  | giveUp {context attempt}
      (exhausted : ¬ (attempt < kBoundedSpinAttempts ∧ stopped = false)) :
      Step stopped context (.test attempt) .silent context .loop
  | readStart {context attempt} (nowNs : UInt64) :
      Step stopped context (.readStart attempt) (.readClock nowNs) context
        (.pop attempt nowNs)
  | popNone {context attempt popStartNs}
      (empty : context.queue.pop.1 = none) :
      Step stopped context (.pop attempt popStartNs) (.pop none)
        { context with queue := context.queue.pop.2 } (.test (attempt + 1))
  | popSome {context attempt popStartNs order}
      (found : context.queue.pop.1 = some order) :
      Step stopped context (.pop attempt popStartNs) (.pop (some order))
        { context with queue := context.queue.pop.2 }
        (.readEnd order popStartNs)
  | readEnd {context order popStartNs} (nowNs : UInt64) :
      Step stopped context (.readEnd order popStartNs) (.readClock nowNs)
        context (.readCall order popStartNs nowNs)
  | readCall {context order popStartNs popEndNs} (nowNs : UInt64) :
      Step stopped context (.readCall order popStartNs popEndNs)
        (.readClock nowNs) context
        (.call order { popStartNs, popEndNs, callStartNs := nowNs })
  | call {context order times result} (readings : List (UInt64 × UInt64))
      (processed : context.matcher.process order = .ok result)
      (published : readings.length = result.emitted.length) :
      Step stopped context (.call order times) (.call order readings)
        { context with matcher := result.matcher }
        (.readDone order times (fillPublishNs readings) result.stats)
  | readDone {context order times publishNs stats} (nowNs : UInt64) :
      Step stopped context (.readDone order times publishNs stats)
        (.readClock nowNs) context
        (.loadSink (latencySample order times publishNs stats nowNs))
  | noSink {context sample} (null : context.rawSamples = none) :
      Step stopped context (.loadSink sample) .silent context .loop
  | loadSink {context sample sink} (found : context.rawSamples = some sink) :
      Step stopped context (.loadSink sample) .silent context
        (.loadIndex sink sample)
  | sinkFull {context sink sample}
      (full : (context.sinks sink).capacity ≤ (context.sinks sink).writeIndex) :
      Step stopped context (.loadIndex sink sample) .silent context .loop
  | loadIndex {context sink sample}
      (room : (context.sinks sink).writeIndex < (context.sinks sink).capacity) :
      Step stopped context (.loadIndex sink sample) .silent context
        (.writeSample sink sample (context.sinks sink).writeIndex)
  | writeSample {context sink sample index} :
      Step stopped context (.writeSample sink sample index) .silent
        (context.modifySink sink fun record =>
          { record with samples := record.samples.set index sample })
        (.storeIndex sink index)
  | storeIndex {context sink index} :
      Step stopped context (.storeIndex sink index) .silent
        (context.modifySink sink fun record =>
          { record with writeIndex := index + 1 })
        .loop

/-- The message that an event applies to the book. -/
def MatchingEvent.applied : MatchingEvent → List Order
  | call order _ => [order]
  | _ => []

/-- The call of the matching thread is the one that `dispatch` names. -/
theorem Matcher.process_apply (matcher : Matcher sizes) (order : Order) :
    matcher.apply (dispatch order) =
      (matcher.process order).map fun result =>
        (result.matcher, result.emitted) := by
  rw [process, dispatch]
  by_cases cancels : order.eventTag = .newOrCancel ∧ order.qty = 0
  · have isCancel : order.isCancel = true := decide_eq_true cancels
    rw [if_pos isCancel, if_pos cancels, apply]
    cases matcher.book.cancelOrder order.orderId with
    | error fault => rfl
    | ok answer => rfl
  · have isCancel : ¬ order.isCancel = true := by
      intro isCancel
      exact cancels (of_decide_eq_true isCancel)
    rw [if_neg isCancel, if_neg cancels]
    by_cases replaces : order.eventTag = .replace
    · have isReplace : order.isReplace = true := decide_eq_true replaces
      rw [if_pos isReplace, if_pos replaces, apply]
      cases matcher.book.replace matcher.load order.orderId order.price
          order.qty with
      | error fault => rfl
      | ok answer => rfl
    · have isReplace : ¬ order.isReplace = true := by
        intro isReplace
        exact replaces (of_decide_eq_true isReplace)
      rw [if_neg isReplace, if_neg replaces, apply]
      cases matcher.book.matchOrder matcher.load order with
      | error fault => rfl
      | ok answer => rfl

/-- In a trading session the call for a message always returns. -/
theorem Matcher.process_total {matcher : Matcher sizes}
    (reachable : (trading sizes).Reachable matcher) (order : Order) :
    ∃ result, matcher.process order = .ok result := by
  have admitted := matcher.admits_of_trades (dispatch_trades order)
  obtain ⟨layout, settled⟩ := trading_wellFormed reachable
  obtain ⟨next, emitted, applied, _⟩ := apply_spec settled admitted
  rw [process_apply] at applied
  cases processed : matcher.process order with
  | error fault =>
      rw [processed] at applied
      cases applied
  | ok result => exact ⟨result, rfl⟩

section Steps

variable {stopped : Bool} {context next : PipelineContext sizes size}
variable {point nextPoint : MatchingPoint} {event : MatchingEvent}

/-- Messages move from the queue through the hand of the thread to the book. -/
theorem MatchingPoint.Step.waiting
    (taken : Step stopped context point event next nextPoint) :
    point.inHand.toList ++ context.queue.queue =
      event.applied ++ (nextPoint.inHand.toList ++ next.queue.queue) := by
  cases taken with
  | popNone empty =>
      have items := context.queue.pop_items
      rw [empty] at items
      exact items.symm
  | popSome found =>
      have items := context.queue.pop_items
      rw [found] at items
      exact items.symm
  | call => rfl
  | exit | enter | again | giveUp | readStart | readEnd | readCall => rfl
  | readDone | noSink | loadSink | sinkFull | loadIndex => rfl
  | writeSample | storeIndex => rfl

theorem MatchingPoint.Step.matcher
    (taken : Step stopped context point event next nextPoint) :
    context.matcher.run (event.applied.map dispatch) = .ok next.matcher := by
  cases taken with
  | call readings processed published =>
      change context.matcher.run [dispatch _] = _
      rw [Matcher.run, List.foldlM_cons, Matcher.process_apply, processed]
      rfl
  | popNone | popSome => rfl
  | exit | enter | again | giveUp | readStart | readEnd | readCall => rfl
  | readDone | noSink | loadSink | sinkFull | loadIndex => rfl
  | writeSample | storeIndex => rfl

/-- The thread can take a step until it has left its loop. -/
theorem MatchingPoint.exists_step (stopped : Bool)
    (reachable : (Matcher.trading sizes).Reachable context.matcher)
    (running : point ≠ .exited) :
    ∃ event next nextPoint,
      Step stopped context point event next nextPoint := by
  cases point with
  | loop =>
      cases stopped with
      | true => exact ⟨_, _, _, .exit rfl⟩
      | false => exact ⟨_, _, _, .enter rfl⟩
  | test attempt =>
      by_cases go : attempt < kBoundedSpinAttempts ∧ stopped = false
      · exact ⟨_, _, _, .again go.1 go.2⟩
      · exact ⟨_, _, _, .giveUp go⟩
  | readStart attempt => exact ⟨_, _, _, .readStart 0⟩
  | pop attempt popStartNs =>
      cases popped : context.queue.pop.1 with
      | none => exact ⟨_, _, _, .popNone popped⟩
      | some order => exact ⟨_, _, _, .popSome popped⟩
  | readEnd order popStartNs => exact ⟨_, _, _, .readEnd 0⟩
  | readCall order popStartNs popEndNs => exact ⟨_, _, _, .readCall 0⟩
  | call order times =>
      obtain ⟨result, processed⟩ := Matcher.process_total reachable order
      exact ⟨_, _, _, .call (List.replicate result.emitted.length (0, 0))
        processed List.length_replicate⟩
  | readDone order times publishNs stats => exact ⟨_, _, _, .readDone 0⟩
  | loadSink sample =>
      cases found : context.rawSamples with
      | none => exact ⟨_, _, _, .noSink found⟩
      | some sink => exact ⟨_, _, _, .loadSink found⟩
  | loadIndex sink sample =>
      by_cases room :
          (context.sinks sink).writeIndex < (context.sinks sink).capacity
      · exact ⟨_, _, _, .loadIndex room⟩
      · exact ⟨_, _, _, .sinkFull (Nat.le_of_not_lt room)⟩
  | writeSample sink sample index => exact ⟨_, _, _, .writeSample⟩
  | storeIndex sink index => exact ⟨_, _, _, .storeIndex⟩
  | exited => exact absurd rfl running

end Steps

end Hydra
