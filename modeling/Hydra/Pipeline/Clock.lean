import Hydra.Pipeline.Delivery
import Mathlib.Data.List.Chain

/-!
# Samples under a common clock

The readings of the clock in the steps of both threads are those of one clock
that never goes back.  Every difference that goes into a sample is then taken
of readings in their order, but for one: an attempt to pop may have started
before its order was stamped.
-/

namespace Hydra

variable {sizes : PoolSizes} {size : Nat} {Program : Type}

/-- An order is produced with its stamp, which is a reading. -/
def IngestEvent.readings : IngestEvent → List UInt64
  | readClock nowNs => [nowNs]
  | produce order => [order.timestampNs]
  | silent | push _ _ | drop => []

/-- The readings of the fill handler, one after the other. -/
def handlerReadings (readings : List (UInt64 × UInt64)) : List UInt64 :=
  readings.flatMap fun reading => [reading.1, reading.2]

def MatchingEvent.readings : MatchingEvent → List UInt64
  | readClock nowNs => [nowNs]
  | call _ readings => handlerReadings readings
  | silent | pop _ => []

def PipelineEvent.readings : PipelineEvent → List UInt64
  | producer event => event.readings
  | matching event => event.readings
  | stopProducer | stopMatching | storeSink _ => []

/-- The last reading of the clock, and those of the fill handler in the last
call on the matcher. -/
structure ClockRecord where
  nowNs : UInt64
  handler : List (UInt64 × UInt64)

namespace ClockRecord

def start : ClockRecord where
  nowNs := 0
  handler := []

def handlerAfter (record : ClockRecord) :
    PipelineEvent → List (UInt64 × UInt64)
  | .matching (.call _ readings) => readings
  | _ => record.handler

def add (record : ClockRecord) (event : PipelineEvent) : ClockRecord where
  nowNs := event.readings.getLastD record.nowNs
  handler := record.handlerAfter event

/-- The readings in the event are not before those of the record. -/
def Permits (record : ClockRecord) (event : PipelineEvent) : Prop :=
  (record.nowNs :: event.readings).IsChain (· ≤ ·)

end ClockRecord

instance (record : ClockRecord) (event : PipelineEvent) :
    Decidable (record.Permits event) :=
  inferInstanceAs (Decidable (List.IsChain _ _))

/-- The runs of a producer with the matching thread under one clock. -/
def clockedPipeline (thread : ProducerThread Program) (matcher : Matcher sizes)
    (size : Nat) :
    Machine (Pipeline Program sizes size × ClockRecord) PipelineEvent :=
  (Machine.withGhost
    { initial := Pipeline.Starts thread matcher
      step := Pipeline.Step thread }
    .start fun _ event _ record => record.add event).guarded
      fun state event => state.2.Permits event

theorem le_getLastD {nowNs : UInt64} {readings : List UInt64}
    (chain : (nowNs :: readings).IsChain (· ≤ ·)) :
    nowNs ≤ readings.getLastD nowNs := by
  induction readings generalizing nowNs with
  | nil => exact UInt64.le_refl _
  | cons reading readings induction =>
      obtain ⟨first, rest⟩ := List.isChain_cons_cons.mp chain
      rw [List.getLastD_cons]
      exact UInt64.le_trans first (induction rest)

theorem handler_ordered {nowNs : UInt64} {readings : List (UInt64 × UInt64)}
    (chain : (nowNs :: handlerReadings readings).IsChain (· ≤ ·)) :
    ∀ reading ∈ readings, reading.1 ≤ reading.2 := by
  induction readings generalizing nowNs with
  | nil => simp
  | cons reading readings induction =>
      have unfolded : handlerReadings (reading :: readings) =
          reading.1 :: reading.2 :: handlerReadings readings := rfl
      rw [unfolded] at chain
      obtain ⟨_, chain⟩ := List.isChain_cons_cons.mp chain
      obtain ⟨ends, chain⟩ := List.isChain_cons_cons.mp chain
      intro current member
      rcases List.mem_cons.mp member with rfl | later
      · exact ends
      · exact induction chain current later

theorem fillPublishNs_le {start nowNs total : UInt64}
    {readings : List (UInt64 × UInt64)}
    (chain : (nowNs :: handlerReadings readings).IsChain (· ≤ ·))
    (earlier : start.toNat + total.toNat ≤ nowNs.toNat) :
    start.toNat + (readings.foldl
        (fun total reading => total + (reading.2 - reading.1)) total).toNat ≤
      ((handlerReadings readings).getLastD nowNs).toNat := by
  induction readings generalizing nowNs total with
  | nil => exact earlier
  | cons reading readings induction =>
      have unfolded : handlerReadings (reading :: readings) =
          reading.1 :: reading.2 :: handlerReadings readings := rfl
      rw [unfolded] at chain ⊢
      obtain ⟨begins, chain⟩ := List.isChain_cons_cons.mp chain
      obtain ⟨ends, chain⟩ := List.isChain_cons_cons.mp chain
      rw [List.getLastD_cons, List.getLastD_cons, List.foldl_cons]
      apply induction chain
      have beginsNat := UInt64.le_iff_toNat_le.mp begins
      have endsNat := UInt64.le_iff_toNat_le.mp ends
      have bound := reading.2.toNat_lt
      rw [UInt64.toNat_add, UInt64.toNat_sub_of_le _ _ ends,
        Nat.mod_eq_of_lt (by omega)]
      omega

/-- The readings around a message, in their order. -/
structure CallTimes.InOrder (times : CallTimes) (order : Order) : Prop where
  popped : times.popStartNs ≤ times.popEndNs
  stamped : order.timestampNs ≤ times.popEndNs
  called : times.popEndNs ≤ times.callStartNs

/-- What the record says of the local variables of the thread. -/
def MatchingPoint.Timed (record : ClockRecord) : MatchingPoint → Prop
  | pop _ popStartNs => popStartNs ≤ record.nowNs
  | readEnd order popStartNs =>
      popStartNs ≤ record.nowNs ∧ order.timestampNs ≤ record.nowNs
  | readCall order popStartNs popEndNs =>
      popStartNs ≤ popEndNs ∧ order.timestampNs ≤ popEndNs ∧
        popEndNs ≤ record.nowNs
  | call order times =>
      times.InOrder order ∧ times.callStartNs ≤ record.nowNs
  | readDone order times publishNs _ =>
      times.InOrder order ∧ publishNs = fillPublishNs record.handler ∧
        (∀ reading ∈ record.handler, reading.1 ≤ reading.2) ∧
        times.callStartNs.toNat + publishNs.toNat ≤ record.nowNs.toNat
  | _ => True

/-- No stamp and no local variable is ahead of the clock. -/
structure Ticking (thread : ProducerThread Program)
    (state : Pipeline Program sizes size) (record : ClockRecord) : Prop where
  producer : ∀ order, thread.inHand state.producer = some order →
    order.timestampNs ≤ record.nowNs
  queue : ∀ order ∈ state.context.queue.queue,
    order.timestampNs ≤ record.nowNs
  matching : state.matching.Timed record

section Steps

variable {thread : ProducerThread Program} {matcher : Matcher sizes}
variable {state next : Pipeline Program sizes size}
variable {record : ClockRecord} {event : PipelineEvent}

theorem ClockRecord.le_add (permitted : record.Permits event) :
    record.nowNs ≤ (record.add event).nowNs :=
  le_getLastD permitted

theorem MatchingPoint.Timed.later {point : MatchingPoint} {after : ClockRecord}
    (timed : point.Timed record) (clock : record.nowNs ≤ after.nowNs)
    (handler : after.handler = record.handler) : point.Timed after := by
  cases point with
  | pop attempt popStartNs => exact UInt64.le_trans timed clock
  | readEnd order popStartNs =>
      exact ⟨UInt64.le_trans timed.1 clock, UInt64.le_trans timed.2 clock⟩
  | readCall order popStartNs popEndNs =>
      exact ⟨timed.1, timed.2.1, UInt64.le_trans timed.2.2 clock⟩
  | call order times =>
      exact ⟨timed.1, UInt64.le_trans timed.2 clock⟩
  | readDone order times publishNs stats =>
      obtain ⟨inOrder, published, ordered, fits⟩ := timed
      refine ⟨inOrder, ?_, ?_, ?_⟩
      · rw [handler]
        exact published
      · rw [handler]
        exact ordered
      · exact Nat.le_trans fits (UInt64.le_iff_toNat_le.mp clock)
  | loop | test | readStart | loadSink | loadIndex | writeSample
  | storeIndex | exited => trivial

theorem Ticking.producerStep {ingest : IngestEvent} {program : Program}
    {queue : MutexQueue Order size}
    (ticking : Ticking thread state record)
    (permitted : record.Permits (.producer ingest))
    (taken : thread.step state.producerStop state.producer ingest program)
    (acts : ingest.Acts state.context.queue queue) :
    Ticking thread
      { state with
        context := { state.context with queue }
        producer := program }
      (record.add (.producer ingest)) := by
  have clock := ClockRecord.le_add permitted
  have moves := thread.moves _ _ _ _ taken
  have items := acts.items
  refine ⟨?_, ?_, ticking.matching.later clock rfl⟩
  · intro order inHand
    change thread.inHand program = some order at inHand
    cases ingest with
    | silent | readClock nowNs =>
        have same : thread.inHand program = thread.inHand state.producer :=
          moves
        rw [same] at inHand
        exact UInt64.le_trans (ticking.producer order inHand) clock
    | produce produced =>
        obtain ⟨_, after⟩ := moves
        rw [after] at inHand
        obtain rfl := Option.some.inj inHand
        exact UInt64.le_refl _
    | push pushed accepted =>
        cases accepted with
        | true =>
            rw [moves.2] at inHand
            cases inHand
        | false =>
            obtain ⟨before, after⟩ := moves
            rw [after, ← before] at inHand
            exact UInt64.le_trans (ticking.producer order inHand) clock
    | drop =>
        rw [moves.2] at inHand
        cases inHand
  · intro order member
    change order ∈ queue.queue at member
    rw [items, List.mem_append] at member
    rcases member with waiting | pushed
    · exact UInt64.le_trans (ticking.queue order waiting) clock
    · cases ingest with
      | push item accepted =>
          cases accepted with
          | true =>
              obtain rfl : order = item := by
                simpa [IngestEvent.pushed] using pushed
              exact UInt64.le_trans (ticking.producer order moves.1) clock
          | false => cases pushed
      | silent | readClock | produce | drop => cases pushed

theorem MatchingPoint.Step.queue_subset {stopped : Bool}
    {context after : PipelineContext sizes size}
    {point nextPoint : MatchingPoint} {event : MatchingEvent}
    (taken : Step stopped context point event after nextPoint) :
    after.queue.queue ⊆ context.queue.queue := by
  cases taken with
  | popNone | popSome =>
      rw [← context.queue.pop_items]
      exact List.subset_append_right _ _
  | exit | enter | again | giveUp | readStart | readEnd | readCall | call
  | readDone | noSink | loadSink | sinkFull | loadIndex | writeSample
  | storeIndex => exact List.Subset.refl _

theorem Ticking.timed_step {matchingEvent : MatchingEvent}
    {context : PipelineContext sizes size} {point : MatchingPoint}
    (ticking : Ticking thread state record)
    (permitted : record.Permits (.matching matchingEvent))
    (taken : MatchingPoint.Step state.matchingStop state.context
      state.matching matchingEvent context point) :
    point.Timed (record.add (.matching matchingEvent)) := by
  obtain ⟨_, queue, timed⟩ := ticking
  have clock := ClockRecord.le_add permitted
  generalize state.matching = before at taken timed
  cases taken with
  | exit | enter | again | giveUp | popNone | noSink | loadSink | sinkFull
  | loadIndex | writeSample | storeIndex => trivial
  | readStart nowNs => exact UInt64.le_refl _
  | @popSome attempt popStartNs order found =>
      have items := state.context.queue.pop_items
      rw [found] at items
      have waiting : order ∈ state.context.queue.queue := by
        rw [← items]
        exact List.mem_append_left _ List.mem_cons_self
      exact ⟨timed, queue order waiting⟩
  | readEnd nowNs =>
      exact ⟨UInt64.le_trans timed.1 clock, UInt64.le_trans timed.2 clock,
        UInt64.le_refl _⟩
  | readCall nowNs =>
      exact ⟨⟨timed.1, timed.2.1, UInt64.le_trans timed.2.2 clock⟩,
        UInt64.le_refl _⟩
  | call readings processed published =>
      refine ⟨timed.1, rfl, ?_, ?_⟩
      · exact handler_ordered permitted
      · exact fillPublishNs_le permitted
          (by simpa using UInt64.le_iff_toNat_le.mp timed.2)
  | readDone nowNs => trivial

theorem Pipeline.Step.ticking (taken : Pipeline.Step thread state event next)
    (permitted : record.Permits event) (ticking : Ticking thread state record) :
    Ticking thread next (record.add event) := by
  have clock := ClockRecord.le_add permitted
  cases taken with
  | producer taken acts => exact ticking.producerStep permitted taken acts
  | matching taken =>
      refine ⟨?_, ?_, ticking.timed_step permitted taken⟩
      · intro order inHand
        exact UInt64.le_trans (ticking.producer order inHand) clock
      · intro order member
        exact UInt64.le_trans
          (ticking.queue order (taken.queue_subset member)) clock
  | stopProducer | stopMatching | storeSink =>
      exact ⟨ticking.producer, ticking.queue, ticking.matching⟩

theorem clockedPipeline_ticking
    (reachable : (clockedPipeline thread matcher size).Reachable
      (state, record)) :
    Ticking thread state record := by
  refine reachable.invariant (fun pair => Ticking thread pair.1 pair.2) ?_ ?_
  · intro pair initial
    obtain ⟨starts, record⟩ := initial
    refine ⟨?_, ?_, ?_⟩
    · intro order inHand
      rw [starts.producer, thread.start_inHand] at inHand
      cases inHand
    · intro order member
      rw [starts.queue] at member
      cases member
    · rw [starts.matching]
      trivial
  · intro pair event next ticking taken
    obtain ⟨permitted, stepped, recorded⟩ := taken
    rw [recorded]
    exact stepped.ticking permitted ticking

/-- The precondition of the steps: a pop that succeeds takes an order that was
stamped when its attempt read the clock. -/
def PopsStamped (state : Pipeline Program sizes size) :
    PipelineEvent → Prop
  | .matching (.pop (some order)) => ∀ attempt popStartNs,
      state.matching = .pop attempt popStartNs →
        order.timestampNs ≤ popStartNs
  | _ => True

/-- The runs in which every pop is in time. -/
def promptPipeline (thread : ProducerThread Program) (matcher : Matcher sizes)
    (size : Nat) :
    Machine (Pipeline Program sizes size × ClockRecord) PipelineEvent :=
  (clockedPipeline thread matcher size).guarded
    fun state event => PopsStamped state.1 event

/-- The order in hand was stamped when its attempt started. -/
def MatchingPoint.Prompt : MatchingPoint → Prop
  | readEnd order popStartNs => order.timestampNs ≤ popStartNs
  | readCall order popStartNs _ => order.timestampNs ≤ popStartNs
  | call order times => order.timestampNs ≤ times.popStartNs
  | readDone order times _ _ => order.timestampNs ≤ times.popStartNs
  | _ => True

theorem Pipeline.Step.prompt (taken : Pipeline.Step thread state event next)
    (allowed : PopsStamped state event) (prompt : state.matching.Prompt) :
    next.matching.Prompt := by
  cases taken with
  | producer | stopProducer | stopMatching | storeSink => exact prompt
  | @matching matchingEvent context point taken =>
      change point.Prompt
      generalize before : state.matching = current at taken prompt
      cases taken with
      | exit | enter | again | giveUp | readStart | popNone => trivial
      | popSome found => exact allowed _ _ before
      | readEnd | readCall | call => exact prompt
      | readDone | noSink | loadSink | sinkFull | loadIndex | writeSample
      | storeIndex => trivial

theorem promptPipeline_prompt
    (reachable : (promptPipeline thread matcher size).Reachable
      (state, record)) :
    state.matching.Prompt := by
  refine reachable.invariant (fun pair => pair.1.matching.Prompt) ?_ ?_
  · intro pair initial
    rw [initial.1.matching]
    trivial
  · intro pair event next prompt taken
    exact taken.2.2.1.prompt taken.1 prompt

end Steps

/-- The differences that a sample is computed from, larger reading first. -/
def sampleDifferences (order : Order) (times : CallTimes)
    (handler : List (UInt64 × UInt64)) (callEndNs : UInt64) :
    List (UInt64 × UInt64) :=
  [(times.popStartNs, order.timestampNs),
    (times.popEndNs, times.popStartNs),
    (callEndNs, times.callStartNs),
    (callEndNs, order.timestampNs),
    (callEndNs - times.callStartNs,
      stdMin (fillPublishNs handler) (callEndNs - times.callStartNs))] ++
    handler.map Prod.swap

/-- No difference of the sample wraps, and its parts fit together. -/
structure Measured (order : Order) (times : CallTimes)
    (handler : List (UInt64 × UInt64)) (callEndNs : UInt64)
    (sample : LatencySample) : Prop where
  differences : ∀ difference ∈
    sampleDifferences order times handler callEndNs,
      difference.2 ≤ difference.1
  queued : sample.queueResidenceNs.toNat + sample.queuePopNs.toNat ≤
    sample.endToEndNs.toNat
  matched : sample.matchTimeNs.toNat ≤ sample.endToEndNs.toNat
  published : sample.matchTimeNs.toNat + sample.fillPublishNs.toNat ≤
    callEndNs.toNat - times.callStartNs.toNat

theorem stdMin_le_right (left right : UInt64) : stdMin left right ≤ right := by
  rw [stdMin]
  split
  next => exact UInt64.le_refl _
  next notLess => exact UInt64.not_lt.mp notLess

/-- With all other readings in order, the sample of a message is right exactly
when its order was stamped before the pop started. -/
theorem measured_iff {order : Order} {times : CallTimes} {record : ClockRecord}
    {publishNs callEndNs : UInt64} {stats : MatchStats}
    (timed : (MatchingPoint.readDone order times publishNs stats).Timed record)
    (later : record.nowNs ≤ callEndNs) :
    Measured order times record.handler callEndNs
        (latencySample order times publishNs stats callEndNs) ↔
      order.timestampNs ≤ times.popStartNs := by
  obtain ⟨⟨popped, stamped, called⟩, published, ordered, fits⟩ := timed
  have laterNat := UInt64.le_iff_toNat_le.mp later
  have poppedNat := UInt64.le_iff_toNat_le.mp popped
  have stampedNat := UInt64.le_iff_toNat_le.mp stamped
  have calledNat := UInt64.le_iff_toNat_le.mp called
  have callLe : times.callStartNs ≤ callEndNs :=
    UInt64.le_iff_toNat_le.mpr (by omega)
  have stampLe : order.timestampNs ≤ callEndNs :=
    UInt64.le_iff_toNat_le.mpr (by omega)
  constructor
  · intro measured
    exact measured.differences (times.popStartNs, order.timestampNs)
      (by simp [sampleDifferences])
  · intro inTime
    have publishLe : publishNs ≤ callEndNs - times.callStartNs := by
      rw [UInt64.le_iff_toNat_le, UInt64.toNat_sub_of_le _ _ callLe]
      omega
    have minEq : stdMin publishNs (callEndNs - times.callStartNs) =
        publishNs := by
      rw [stdMin, if_neg]
      exact UInt64.not_lt.mpr publishLe
    have residence := UInt64.toNat_sub_of_le _ _ inTime
    have popTime := UInt64.toNat_sub_of_le _ _ popped
    have callTime := UInt64.toNat_sub_of_le _ _ callLe
    have endToEnd := UInt64.toNat_sub_of_le _ _ stampLe
    have matchTime := UInt64.toNat_sub_of_le _ _ publishLe
    have inTimeNat := UInt64.le_iff_toNat_le.mp inTime
    refine ⟨?_, ?_, ?_, ?_⟩
    · intro difference member
      simp only [sampleDifferences, List.cons_append, List.nil_append,
        List.mem_cons, List.mem_map] at member
      rcases member with rfl | rfl | rfl | rfl | rfl | ⟨reading, inHandler, rfl⟩
      · exact inTime
      · exact popped
      · exact callLe
      · exact stampLe
      · exact stdMin_le_right _ _
      · exact ordered reading inHandler
    · rw [latencySample]
      split <;> simp only <;> omega
    · rw [latencySample]
      split
      · simp only
        omega
      · simp only [minEq]
        omega
    · rw [latencySample]
      split
      · simp only [UInt64.toNat_zero]
        omega
      · simp only [minEq]
        omega

section Runs

variable {thread : ProducerThread Program} {matcher : Matcher sizes}
variable {state next : Pipeline Program sizes size}
variable {record : ClockRecord} {event : PipelineEvent}

/-- Under one clock a sample is right exactly when its order was stamped
before the attempt to pop it started; and in a run in which every pop is in
time all samples are right. -/
theorem latencySample_clocked (thread : ProducerThread Program)
    (matcher : Matcher sizes) (size : Nat) :
    (∀ state record order times publishNs stats callEndNs,
      (clockedPipeline thread matcher size).Reachable (state, record) →
      state.matching = .readDone order times publishNs stats →
      record.nowNs ≤ callEndNs →
      (Measured order times record.handler callEndNs
          (latencySample order times publishNs stats callEndNs) ↔
        order.timestampNs ≤ times.popStartNs)) ∧
    (∀ state record order times publishNs stats callEndNs,
      (promptPipeline thread matcher size).Reachable (state, record) →
      state.matching = .readDone order times publishNs stats →
      record.nowNs ≤ callEndNs →
      Measured order times record.handler callEndNs
        (latencySample order times publishNs stats callEndNs)) := by
  have exactly : ∀ {state record order times publishNs stats callEndNs},
      (clockedPipeline thread matcher size).Reachable (state, record) →
      state.matching = .readDone order times publishNs stats →
      record.nowNs ≤ callEndNs →
      (Measured order times record.handler callEndNs
          (latencySample order times publishNs stats callEndNs) ↔
        order.timestampNs ≤ times.popStartNs) := by
    intro state record order times publishNs stats callEndNs reachable
      finished later
    have timed := (clockedPipeline_ticking reachable).matching
    rw [finished] at timed
    exact measured_iff timed later
  constructor
  · intro state record order times publishNs stats callEndNs
    exact exactly
  · intro state record order times publishNs stats callEndNs reachable
      finished later
    have prompt := promptPipeline_prompt reachable
    rw [finished] at prompt
    exact (exactly reachable.of_guarded finished later).mpr prompt

theorem clocked_step
    (reachable : (clockedPipeline thread matcher size).Reachable
      (state, record)) (permitted : record.Permits event)
    (taken : Pipeline.Step thread state event next) :
    (clockedPipeline thread matcher size).Reachable
      (next, record.add event) :=
  .step reachable ⟨permitted, taken, rfl⟩

theorem prompt_step
    (reachable : (promptPipeline thread matcher size).Reachable
      (state, record)) (taken : Pipeline.Step thread state event next)
    (permitted : record.Permits event) (allowed : PopsStamped state event) :
    (promptPipeline thread matcher size).Reachable (next, record.add event) :=
  .step reachable ⟨allowed, permitted, taken, rfl⟩

end Runs

namespace Matcher

theorem process_alone : ∃ result,
    (start .priceTime : Matcher sessionSizes).process
        (RxThread.order 1 100000 1 7) = .ok result ∧ result.emitted = [] :=
  ⟨_, rfl, rfl⟩

/-- The thread reads the clock at 5 and waits for the queue; the order is
stamped at 7 and then popped by the same attempt. -/
theorem latencySample_wraps : ∃ state record publishNs stats,
    (clockedPipeline rxThread (start .priceTime : Matcher sessionSizes)
      4).Reachable (state, record) ∧
    state.matching = .readDone (RxThread.order 1 100000 1 7)
      { popStartNs := 5, popEndNs := 10, callStartNs := 11 } publishNs stats ∧
    record.nowNs ≤ 12 ∧
    ¬ Measured (RxThread.order 1 100000 1 7)
      { popStartNs := 5, popEndNs := 10, callStartNs := 11 } record.handler 12
      (latencySample (RxThread.order 1 100000 1 7)
        { popStartNs := 5, popEndNs := 10, callStartNs := 11 } publishNs stats
        12) := by
  have start : (clockedPipeline rxThread
      (start .priceTime : Matcher sessionSizes) 4).Reachable
      (Pipeline.quiet [] (start .priceTime) .start, .start) :=
    .initial ⟨⟨rfl, rfl, rfl, rfl⟩, rfl⟩
  have entered := clocked_step start (by decide) (.matching (.enter rfl))
  have tested := clocked_step entered (by decide)
    (.matching (.again (by decide) rfl))
  have waiting := clocked_step tested (by decide) (.matching (.readStart 5))
  have stamped := clocked_step waiting (by decide) (.producer
    (@RxThread.Step.produce false _ 100000 1 7 rfl rfl (by decide)
      (by decide)) rfl)
  have pushing := clocked_step stamped (by decide)
    (.producer (.attempt rfl (.again (by decide) rfl)) rfl)
  have pushed := clocked_step pushing (by decide)
    (.producer (.attempt rfl .accepted) rfl)
  have popped := clocked_step pushed (by decide) (.matching (.popSome rfl))
  have ended := clocked_step popped (by decide) (.matching (.readEnd 10))
  have calling := clocked_step ended (by decide) (.matching (.readCall 11))
  obtain ⟨result, processed, silent⟩ := process_alone
  have unpublished : ([] : List (UInt64 × UInt64)).length =
      result.emitted.length := by
    simp [silent]
  have called := clocked_step calling (by decide)
    (.matching (.call [] processed unpublished))
  refine ⟨_, _, _, _, called, rfl, by decide, ?_⟩
  intro measured
  have stampedFirst := measured.differences (5, 7) List.mem_cons_self
  revert stampedFirst
  decide

/-- Here the order waits in the queue when the attempt starts. -/
theorem latencySample_right : ∃ state record publishNs stats,
    (promptPipeline rxThread (start .priceTime : Matcher sessionSizes)
      4).Reachable (state, record) ∧
    state.matching = .readDone (RxThread.order 1 100000 1 7)
      { popStartNs := 9, popEndNs := 10, callStartNs := 11 } publishNs stats ∧
    Measured (RxThread.order 1 100000 1 7)
      { popStartNs := 9, popEndNs := 10, callStartNs := 11 } record.handler 12
      (latencySample (RxThread.order 1 100000 1 7)
        { popStartNs := 9, popEndNs := 10, callStartNs := 11 } publishNs stats
        12) := by
  have start : (promptPipeline rxThread
      (start .priceTime : Matcher sessionSizes) 4).Reachable
      (Pipeline.quiet [] (start .priceTime) .start, .start) :=
    .initial ⟨⟨rfl, rfl, rfl, rfl⟩, rfl⟩
  have stamped := prompt_step start (.producer
    (@RxThread.Step.produce false _ 100000 1 7 rfl rfl (by decide)
      (by decide)) rfl) (by decide) trivial
  have pushing := prompt_step stamped
    (.producer (.attempt rfl (.again (by decide) rfl)) rfl) (by decide) trivial
  have pushed := prompt_step pushing
    (.producer (.attempt rfl .accepted) rfl) (by decide) trivial
  have entered := prompt_step pushed (.matching (.enter rfl)) (by decide)
    trivial
  have tested := prompt_step entered (.matching (.again (by decide) rfl))
    (by decide) trivial
  have waiting := prompt_step tested (.matching (.readStart 9)) (by decide)
    trivial
  have popped := prompt_step waiting (.matching (.popSome rfl)) (by decide) (by
    intro attempt popStartNs standing
    obtain ⟨_, rfl⟩ := MatchingPoint.pop.inj standing
    decide)
  have ended := prompt_step popped (.matching (.readEnd 10)) (by decide)
    trivial
  have calling := prompt_step ended (.matching (.readCall 11)) (by decide)
    trivial
  obtain ⟨result, processed, silent⟩ := process_alone
  have unpublished : ([] : List (UInt64 × UInt64)).length =
      result.emitted.length := by
    simp [silent]
  have called := prompt_step calling
    (.matching (.call [] processed unpublished)) (by decide) trivial
  exact ⟨_, _, _, _, called, rfl,
    (latencySample_clocked rxThread _ 4).2 _ _ _ _ _ _ _ called rfl
      (by decide)⟩

end Matcher

end Hydra
