import Hydra.Pipeline.Producers

/-!
# From the producer to the book

Any producer together with the matching thread: the orders that are applied to
the book are a prefix of the orders that were pushed, in the order in which
they were produced, and no order is lost or counted twice.
-/

namespace Hydra

variable {sizes : PoolSizes} {size : Nat} {Program : Type}

/-- A producer and the matching thread, with what they share and their stop
tokens. -/
structure Pipeline (Program : Type) (sizes : PoolSizes) (size : Nat) where
  context : PipelineContext sizes size
  producer : Program
  matching : MatchingPoint
  producerStop : Bool
  matchingStop : Bool

/-- A step of one of the threads, or something from outside. -/
inductive PipelineEvent where
  | producer (event : IngestEvent)
  | matching (event : MatchingEvent)
  | stopProducer
  | stopMatching
  | storeSink (sink : Option Nat)

namespace Pipeline

/-- A step of one of the threads, or a stop request or a change of the sink
from outside. -/
inductive Step (thread : ProducerThread Program) :
    Pipeline Program sizes size → PipelineEvent →
    Pipeline Program sizes size → Prop where
  | producer {state event program queue}
      (taken : thread.step state.producerStop state.producer event program)
      (acts : event.Acts state.context.queue queue) :
      Step thread state (.producer event)
        { state with
          context := { state.context with queue }
          producer := program }
  | matching {state event context point}
      (taken : MatchingPoint.Step state.matchingStop state.context
        state.matching event context point) :
      Step thread state (.matching event)
        { state with context, matching := point }
  | stopProducer {state} :
      Step thread state .stopProducer { state with producerStop := true }
  | stopMatching {state} :
      Step thread state .stopMatching { state with matchingStop := true }
  | storeSink {state} (sink : Option Nat) :
      Step thread state (.storeSink sink)
        { state with context := { state.context with rawSamples := sink } }

/-- The threads start with an empty queue and the matcher `matcher`. -/
structure Starts (thread : ProducerThread Program) (matcher : Matcher sizes)
    (state : Pipeline Program sizes size) : Prop where
  queue : state.context.queue = .empty
  matcher : state.context.matcher = matcher
  producer : state.producer = thread.start
  matching : state.matching = .loop

end Pipeline

/-- What became of the orders so far. -/
structure Delivery where
  ingest : Handover.Record Order
  applied : List Order

namespace PipelineEvent

def handover : PipelineEvent → Handover.Event Order
  | producer event => event.handover
  | matching _ | stopProducer | stopMatching | storeSink _ => .silent

def applied : PipelineEvent → List Order
  | matching event => event.applied
  | producer _ | stopProducer | stopMatching | storeSink _ => []

end PipelineEvent

def Delivery.start : Delivery where
  ingest := .empty
  applied := []

def Delivery.record (delivery : Delivery) (event : PipelineEvent) :
    Delivery where
  ingest := delivery.ingest.add event.handover
  applied := delivery.applied ++ event.applied

/-- The runs of a producer with the matching thread, with what became of the
orders. -/
def pipeline (thread : ProducerThread Program) (matcher : Matcher sizes)
    (size : Nat) :
    Machine (Pipeline Program sizes size × Delivery) PipelineEvent :=
  Machine.withGhost
    { initial := Pipeline.Starts thread matcher
      step := Pipeline.Step thread }
    .start (fun _ event _ delivery => delivery.record event)

theorem pipeline_step {thread : ProducerThread Program}
    {matcher : Matcher sizes} {state next : Pipeline Program sizes size}
    {delivery : Delivery} {event : PipelineEvent}
    (reachable : (pipeline thread matcher size).Reachable (state, delivery))
    (taken : Pipeline.Step thread state event next) :
    (pipeline thread matcher size).Reachable (next, delivery.record event) :=
  .step reachable ⟨taken, rfl⟩

/-- What holds at all times of the orders that are applied. -/
structure Delivered (matcher : Matcher sizes)
    (state : Pipeline Program sizes size) (delivery : Delivery) : Prop where
  /-- The applied orders are the first ones of those that were pushed. -/
  applied : delivery.applied <+: delivery.ingest.passed.map Prod.snd
  /-- No order is pushed twice, and all are pushed as they were produced. -/
  ordered : (delivery.ingest.passed.map Prod.fst).Pairwise (· < ·)
  genuine : ∀ entry ∈ delivery.ingest.passed,
    delivery.ingest.taken[entry.1]? = some entry.2
  /-- The book is what the calls for the applied orders make of it. -/
  book : matcher.run (delivery.applied.map dispatch) =
    .ok state.context.matcher

namespace Pipeline

variable {thread : ProducerThread Program} {matcher : Matcher sizes}
variable {state next : Pipeline Program sizes size} {delivery : Delivery}
variable {event : PipelineEvent}

/-- What a producer and its record keep, the whole pipeline keeps. -/
theorem producer_invariant (property : Program → Handover.Record Order → Prop)
    (base : property thread.start .empty)
    (preserved : ∀ stopped program event next record,
      property program record → thread.step stopped program event next →
      property next (record.add event.handover))
    (reachable : (pipeline thread matcher size).Reachable (state, delivery)) :
    property state.producer delivery.ingest := by
  refine Machine.Reachable.invariant
    (fun recorded => property recorded.1.producer recorded.2.ingest)
    ?_ ?_ reachable
  · intro recorded start
    rw [start.2, start.1.producer]
    exact base
  · intro recorded event next held taken
    obtain ⟨state, delivery⟩ := recorded
    obtain ⟨next, later⟩ := next
    obtain ⟨step, record⟩ := taken
    obtain rfl : later = delivery.record event := record
    cases step with
    | producer taken acts => exact preserved _ _ _ _ _ held taken
    | matching | stopProducer | stopMatching | storeSink => exact held

/-- A producer keeps to the rules of handing over. -/
theorem consistent
    (reachable : (pipeline thread matcher size).Reachable (state, delivery)) :
    delivery.ingest.Consistent (thread.inHand state.producer) := by
  apply producer_invariant
    (fun program record => record.Consistent (thread.inHand program)) _ _
    reachable
  · rw [thread.start_inHand]
    exact Handover.Record.empty_consistent
  · intro stopped program event next record held taken
    exact held.add (thread.moves _ _ _ _ taken)

/-- The orders that are pushed and not yet applied. -/
def waiting (state : Pipeline Program sizes size) : List Order :=
  state.matching.inHand.toList ++ state.context.queue.queue

/-- Every pushed order has been applied or is still waiting. -/
theorem Step.flow (taken : Step thread state event next)
    (flow : delivery.ingest.passed.map Prod.snd =
      delivery.applied ++ state.waiting) :
    (delivery.record event).ingest.passed.map Prod.snd =
      (delivery.record event).applied ++ next.waiting := by
  cases taken with
  | producer taken acts =>
      refine (IngestEvent.handover_passed _ delivery.ingest).trans ?_
      change _ = (delivery.applied ++ []) ++
        (state.matching.inHand.toList ++ _)
      rw [flow, acts.items, waiting, List.append_nil, List.append_assoc,
        List.append_assoc]
  | matching taken =>
      change delivery.ingest.passed.map Prod.snd =
        (delivery.applied ++ _) ++ _
      rw [flow, waiting, taken.waiting, List.append_assoc]
      rfl
  | stopProducer | stopMatching | storeSink =>
      change delivery.ingest.passed.map Prod.snd =
        (delivery.applied ++ []) ++ state.waiting
      rw [flow, List.append_nil]

theorem Step.book (taken : Step thread state event next) :
    state.context.matcher.run (event.applied.map dispatch) =
      .ok next.context.matcher := by
  cases taken with
  | matching taken => exact taken.matcher
  | producer | stopProducer | stopMatching | storeSink => rfl

/-- Orders are applied as they were pushed, pushed as they were produced, and
the book is the result of applying them. -/
theorem delivered
    (reachable : (pipeline thread matcher size).Reachable (state, delivery)) :
    Delivered matcher state delivery := by
  have flow : delivery.ingest.passed.map Prod.snd =
        delivery.applied ++ state.waiting ∧
      matcher.run (delivery.applied.map dispatch) =
        .ok state.context.matcher := by
    refine Machine.Reachable.invariant
      (fun recorded =>
        recorded.2.ingest.passed.map Prod.snd =
          recorded.2.applied ++ recorded.1.waiting ∧
        matcher.run (recorded.2.applied.map dispatch) =
          .ok recorded.1.context.matcher) ?_ ?_ reachable
    · intro recorded start
      obtain ⟨starts, fresh⟩ := start
      rw [fresh, waiting, starts.matching, starts.queue, starts.matcher]
      exact ⟨rfl, rfl⟩
    · intro recorded event next held taken
      obtain ⟨step, record⟩ := taken
      rw [record]
      refine ⟨step.flow held.1, ?_⟩
      change
        matcher.run ((recorded.2.applied ++ event.applied).map dispatch) = _
      rw [List.map_append, Matcher.run, List.foldlM_append, ← Matcher.run,
        held.2]
      exact step.book
  have kept := consistent reachable
  constructor
  case applied =>
    rw [flow.1]
    exact List.prefix_append _ _
  case ordered => exact kept.ordered
  case genuine => exact kept.genuine
  case book => exact flow.2

/-- In a trading session the matching thread never gets stuck. -/
theorem matching_step
    (trading : (Matcher.trading sizes).Reachable matcher)
    (reachable : (pipeline thread matcher size).Reachable (state, delivery))
    (running : state.matching ≠ .exited) :
    ∃ event next, Step thread state (.matching event) next := by
  have trades : ∀ call ∈ delivery.applied.map dispatch, call.Trades := by
    intro call member
    obtain ⟨order, _, rfl⟩ := List.mem_map.mp member
    exact dispatch_trades order
  obtain ⟨current, ran, currentReachable⟩ := Matcher.run_spec trades trading
  rw [(delivered reachable).book] at ran
  cases ran
  obtain ⟨event, context, point, taken⟩ :=
    MatchingPoint.exists_step state.matchingStop currentReachable running
  exact ⟨event, _, .matching taken⟩

/-- A step of the producer applies nothing. -/
theorem after_producer {program : Program} {event : IngestEvent}
    {queue : MutexQueue Order size}
    (reachable : (pipeline thread matcher size).Reachable (state, delivery))
    (taken : thread.step state.producerStop state.producer event program)
    (acts : event.Acts state.context.queue queue) :
    (pipeline thread matcher size).Reachable
      ({ state with
          context := { state.context with queue }
          producer := program },
        { delivery with ingest := delivery.ingest.add event.handover }) := by
  have next := pipeline_step reachable (.producer taken acts)
  have same : delivery.applied ++ [] = delivery.applied := List.append_nil _
  change (pipeline thread matcher size).Reachable
    (_, ⟨_, delivery.applied ++ []⟩) at next
  rw [same] at next
  exact next

/-- A step of the matching thread that makes no call changes nothing in the
history. -/
theorem after_matching {event : MatchingEvent}
    {context : PipelineContext sizes size} {point : MatchingPoint}
    (reachable : (pipeline thread matcher size).Reachable (state, delivery))
    (taken : MatchingPoint.Step state.matchingStop state.context
      state.matching event context point)
    (unapplied : event.applied = []) :
    (pipeline thread matcher size).Reachable
      ({ state with context, matching := point }, delivery) := by
  have next := pipeline_step reachable (.matching taken)
  change (pipeline thread matcher size).Reachable
    (_, ⟨delivery.ingest, delivery.applied ++ event.applied⟩) at next
  rw [unapplied, List.append_nil] at next
  exact next

section Quiet

variable {current : Matcher sizes} {producer : Program}
variable {items : List Order} {order : Order}

/-- The matching thread is between two messages, no sink is stored, and nobody
is asked to stop. -/
def quiet (items : List Order) (matcher : Matcher sizes) (producer : Program) :
    Pipeline Program sizes size where
  context :=
    { queue := { queue := items }
      matcher
      rawSamples := none
      sinks := fun _ => { samples := [], capacity := 0, writeIndex := 0 } }
  producer
  matching := .loop
  producerStop := false
  matchingStop := false

theorem quiet_start :
    (pipeline thread matcher size).Reachable
      (quiet [] matcher thread.start, .start) :=
  .initial ⟨⟨rfl, rfl, rfl, rfl⟩, rfl⟩

theorem quiet_serves {result : Processed sizes}
    (reachable : (pipeline thread matcher size).Reachable
      (quiet (order :: items) current producer, delivery))
    (processed : current.process order = .ok result) :
    (pipeline thread matcher size).Reachable
      (quiet items result.matcher producer,
        { delivery with applied := delivery.applied ++ [order] }) := by
  have entered := after_matching reachable (.enter rfl) rfl
  have testing := after_matching entered (.again (by decide) rfl) rfl
  have popping := after_matching testing (.readStart 0) rfl
  have popped := after_matching popping (.popSome rfl) rfl
  have ended := after_matching popped (.readEnd 0) rfl
  have calling := after_matching ended (.readCall 0) rfl
  have called := pipeline_step calling (.matching
    (.call (List.replicate result.emitted.length (0, 0)) processed
      List.length_replicate))
  have done := after_matching called (.readDone 0) rfl
  exact after_matching done (.noSink rfl) rfl

end Quiet

end Pipeline

end Hydra
