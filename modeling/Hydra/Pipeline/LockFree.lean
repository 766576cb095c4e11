import Hydra.Pipeline.Counting
import Hydra.Spsc.Invariant

/-!
# The pipeline on the lock-free queue

The threads of the pipeline with the queue that they really share: a push and a
pop are the atomic steps of `SpscQueue`, the other threads run in between, an
order is copied word by word, and a call can be refused because of a counter
that is out of date.  The orders are delivered all the same.
-/

namespace Hydra

variable {sizes : PoolSizes} {width : Nat} {Word : Type} {capacity : Capacity}
variable {Program : Type}

/-- How an order lies in memory. -/
structure OrderLayout (width : Nat) (Word : Type) where
  words : Order → Words width Word
  order : Words width Word → Order
  order_words : ∀ placed, order (words placed) = placed

/-- The threads call the shared queue; the bounded list of their context is not
used. -/
structure LockFree (Program : Type) (sizes : PoolSizes) (width : Nat)
    (Word : Type) (capacity : Capacity) where
  threads : Pipeline Program sizes 0
  shared : SharedQueue width Word capacity

namespace PipelineEvent

/-- The event is a call of the queue. -/
def Calls : PipelineEvent → Prop
  | producer (.push _ _) | matching (.pop _) => True
  | producer (.silent) | producer (.readClock _) | producer (.produce _)
  | producer .drop | matching .silent | matching (.readClock _)
  | matching (.call _ _) | stopProducer | stopMatching | storeSink _ => False

/-- The thread of the event is not inside a call of the queue. -/
def Outside (shared : SharedQueue width Word capacity) : PipelineEvent → Prop
  | producer _ => shared.producer = .idle
  | matching _ => shared.consumer = .idle
  | stopProducer | stopMatching | storeSink _ => True

end PipelineEvent

/-- The event is inside of a call: not its first step and not its last one. -/
def QueueEvent.Inside : QueueEvent width Word → Prop
  | pushAdmit _ | pushWrite | popAdmit _ | popRead => True
  | pushStart | pushRefuse _ _ | pushDone _ | popStart | popRefuse _
  | popDone _ => False

namespace LockFree

/-- A step of one of the threads, inside of a call or outside.  Its label is
what the threads notice of it. -/
inductive Step (thread : ProducerThread Program)
    (layout : OrderLayout width Word) :
    LockFree Program sizes width Word capacity → Option PipelineEvent →
    LockFree Program sizes width Word capacity → Prop where
  | outside {state event threads}
      (taken : Pipeline.Step thread state.threads event threads)
      (apart : ¬ event.Calls) (outside : event.Outside state.shared) :
      Step thread layout state (some event) { state with threads }
  | pushStart {state order accepted program}
      (offers : thread.step state.threads.producerStop state.threads.producer
        (.push order accepted) program)
      (idle : state.shared.producer = .idle) :
      Step thread layout state none
        { state with
          shared :=
            { state.shared with
              producer := .loaded (layout.words order)
                state.shared.queue.tail } }
  | pushRefuse {state item head shared order program}
      (taken : SharedQueue.Step state.shared (.pushRefuse item head) shared)
      (refused : thread.step state.threads.producerStop state.threads.producer
        (.push order false) program) :
      Step thread layout state (some (.producer (.push order false)))
        { threads := { state.threads with producer := program }
          shared }
  | pushDone {state item shared order program}
      (taken : SharedQueue.Step state.shared (.pushDone item) shared)
      (accepted : thread.step state.threads.producerStop state.threads.producer
        (.push order true) program) :
      Step thread layout state (some (.producer (.push order true)))
        { threads := { state.threads with producer := program }
          shared }
  | popStart {state attempt popStartNs shared}
      (popping : state.threads.matching = .pop attempt popStartNs)
      (taken : SharedQueue.Step state.shared .popStart shared) :
      Step thread layout state none { state with shared }
  | popRefuse {state attempt popStartNs tail shared}
      (popping : state.threads.matching = .pop attempt popStartNs)
      (taken : SharedQueue.Step state.shared (.popRefuse tail) shared) :
      Step thread layout state (some (.matching (.pop none)))
        { threads := { state.threads with matching := .test (attempt + 1) }
          shared }
  | popDone {state attempt popStartNs item shared}
      (popping : state.threads.matching = .pop attempt popStartNs)
      (taken : SharedQueue.Step state.shared (.popDone item) shared) :
      Step thread layout state
        (some (.matching (.pop (some (layout.order item)))))
        { threads :=
            { state.threads with
              matching := .readEnd (layout.order item) popStartNs }
          shared }
  | inside {state event shared}
      (taken : SharedQueue.Step state.shared event shared)
      (inside : event.Inside) :
      Step thread layout state none { state with shared }

/-- The threads start with an empty queue. -/
structure Starts [Inhabited Word] (thread : ProducerThread Program)
    (matcher : Matcher sizes)
    (state : LockFree Program sizes width Word capacity) : Prop where
  threads : Pipeline.Starts thread matcher state.threads
  shared : state.shared = .initial

end LockFree

/-- What the threads notice of a step. -/
def Delivery.notice (delivery : Delivery) : Option PipelineEvent → Delivery
  | some event => delivery.record event
  | none => delivery

/-- The runs of a producer with the matching thread on the lock-free queue. -/
def lockFree [Inhabited Word] (thread : ProducerThread Program)
    (layout : OrderLayout width Word) (matcher : Matcher sizes)
    (capacity : Capacity) :
    Machine (LockFree Program sizes width Word capacity × Delivery)
      (Option PipelineEvent) :=
  Machine.withGhost
    { initial := LockFree.Starts thread matcher
      step := LockFree.Step thread layout }
    .start (fun _ event _ delivery => delivery.notice event)

/-- The item that is being pushed. -/
def Producer.item : Producer width Word → Option (Words width Word)
  | idle => none
  | loaded item _ | writing item _ _ => some item

section Shared

variable {shared next : SharedQueue width Word capacity}
variable {event : QueueEvent width Word}

/-- Only the first step of a push takes up an item. -/
theorem SharedQueue.Step.item (taken : SharedQueue.Step shared event next)
    (later : event ≠ .pushStart) :
    ∀ item ∈ next.producer.item, item ∈ shared.producer.item := by
  cases taken with
  | pushStart => exact absurd rfl later
  | pushRefuse | pushDone => nofun
  | pushAdmit at_producer | pushWrite at_producer =>
      rw [at_producer]
      exact fun _ member => member
  | popStart | popRefuse | popAdmit | popRead | popDone =>
      exact fun _ member => member

theorem SharedQueue.Step.pushed_item {item : Words width Word}
    (taken : SharedQueue.Step shared (.pushDone item) next) :
    item ∈ shared.producer.item := by
  cases taken with
  | pushDone writing =>
      rw [writing]
      rfl

theorem QueueEvent.Inside.moves (inside : event.Inside) :
    event.pushed = [] ∧ event.popped = [] ∧ event ≠ .pushStart := by
  cases event with
  | pushAdmit | pushWrite | popAdmit | popRead => exact ⟨rfl, rfl, nofun⟩
  | pushStart | pushRefuse | pushDone | popStart | popRefuse | popDone =>
      exact inside.elim

end Shared

/-- A step outside of the calls leaves the queue as it is. -/
theorem MatchingPoint.Step.apart {stopped : Bool} {size : Nat}
    {context next : PipelineContext sizes size}
    {point nextPoint : MatchingPoint} {event : MatchingEvent}
    (taken : Step stopped context point event next nextPoint)
    (apart : ¬ (PipelineEvent.matching event).Calls) :
    next.queue = context.queue ∧
      point.inHand.toList = event.applied ++ nextPoint.inHand.toList := by
  cases taken with
  | popNone | popSome => exact absurd trivial apart
  | exit | enter | again | giveUp | readStart | readEnd | readCall | call
  | readDone | noSink | loadSink | sinkFull | loadIndex | writeSample
  | storeIndex => exact ⟨rfl, rfl⟩

theorem Pipeline.Step.apart {thread : ProducerThread Program} {size : Nat}
    {state next : Pipeline Program sizes size} {event : PipelineEvent}
    (taken : Pipeline.Step thread state event next) (apart : ¬ event.Calls)
    (record : Handover.Record Order) :
    next.context.queue = state.context.queue ∧
      (record.add event.handover).passed = record.passed ∧
      state.matching.inHand.toList =
        event.applied ++ next.matching.inHand.toList := by
  cases taken with
  | @producer event _ _ taken acts =>
      cases event with
      | push => exact absurd trivial apart
      | silent | readClock | produce | drop => exact ⟨acts, rfl, rfl⟩
  | matching taken =>
      obtain ⟨queue, inHand⟩ := taken.apart apart
      exact ⟨queue, rfl, inHand⟩
  | stopProducer | stopMatching | storeSink => exact ⟨rfl, rfl, rfl⟩

theorem Pipeline.Step.consistent {thread : ProducerThread Program} {size : Nat}
    {state next : Pipeline Program sizes size} {event : PipelineEvent}
    {record : Handover.Record Order}
    (taken : Pipeline.Step thread state event next)
    (consistent : record.Consistent (thread.inHand state.producer)) :
    (record.add event.handover).Consistent (thread.inHand next.producer) := by
  cases taken with
  | producer taken acts => exact consistent.add (thread.moves _ _ _ _ taken)
  | matching | stopProducer | stopMatching | storeSink => exact consistent

namespace LockFree

variable {thread : ProducerThread Program} {layout : OrderLayout width Word}
variable {matcher : Matcher sizes}
variable {state next : LockFree Program sizes width Word capacity}
variable {delivery : Delivery} {event : Option PipelineEvent}

/-- What holds at all times, while the tail counter does not wrap.  `waiting`
are the items of the queue. -/
structure Carries (thread : ProducerThread Program)
    (layout : OrderLayout width Word) (matcher : Matcher sizes)
    (state : LockFree Program sizes width Word capacity) (delivery : Delivery)
    (first : Nat) (waiting : List (Words width Word)) : Prop where
  sound : state.shared.Sound first waiting
  place : first + waiting.length = delivery.ingest.passed.length
  flow : delivery.ingest.passed.map Prod.snd = delivery.applied ++
    (state.threads.matching.inHand.toList ++ waiting.map layout.order)
  unused : state.threads.context.queue.queue = []
  /-- The item that is being pushed is the order in the hand of the
  producer. -/
  offered : ∀ item ∈ state.shared.producer.item, ∃ order,
    thread.inHand state.threads.producer = some order ∧
      item = layout.words order
  consistent :
    delivery.ingest.Consistent (thread.inHand state.threads.producer)
  book : matcher.run (delivery.applied.map dispatch) =
    .ok state.threads.context.matcher

theorem Starts.carries [Inhabited Word] (starts : Starts thread matcher state) :
    Carries thread layout matcher state .start 0 [] := by
  obtain ⟨threads, shared⟩ := starts
  constructor
  case sound =>
    rw [shared]
    exact SharedQueue.initial_sound
  case place => rfl
  case flow =>
    rw [threads.matching]
    rfl
  case unused =>
    rw [threads.queue]
    rfl
  case offered =>
    rw [shared]
    nofun
  case consistent =>
    rw [threads.producer, thread.start_inHand]
    exact Handover.Record.empty_consistent
  case book =>
    rw [threads.matcher]
    rfl

section Steps

variable {first : Nat} {waiting : List (Words width Word)}

theorem Carries.outside {event : PipelineEvent}
    {threads : Pipeline Program sizes 0}
    (carries : Carries thread layout matcher state delivery first waiting)
    (taken : Pipeline.Step thread state.threads event threads)
    (apart : ¬ event.Calls) (outside : event.Outside state.shared) :
    Carries thread layout matcher { state with threads }
      (delivery.record event) first waiting := by
  obtain ⟨queue, passed, inHand⟩ := taken.apart apart delivery.ingest
  constructor
  case sound => exact carries.sound
  case place =>
    change _ = (delivery.ingest.add event.handover).passed.length
    rw [passed]
    exact carries.place
  case flow =>
    change (delivery.ingest.add event.handover).passed.map Prod.snd =
      (delivery.applied ++ event.applied) ++ _
    rw [passed, carries.flow, inHand, List.append_assoc, List.append_assoc]
  case unused =>
    change threads.context.queue.queue = []
    rw [queue]
    exact carries.unused
  case offered =>
    intro item pushing
    cases event with
    | producer event =>
        rw [show state.shared.producer = .idle from outside] at pushing
        cases pushing
    | matching | stopProducer | stopMatching | storeSink =>
        have same : threads.producer = state.threads.producer := by
          cases taken
          rfl
        change ∃ order, thread.inHand threads.producer = _ ∧ _
        rw [same]
        exact carries.offered item pushing
  case consistent => exact taken.consistent carries.consistent
  case book =>
    change matcher.run ((delivery.applied ++ event.applied).map dispatch) = _
    rw [List.map_append, Matcher.run, List.foldlM_append, ← Matcher.run,
      carries.book]
    exact taken.book

theorem offers_inHand {stopped accepted : Bool} {program next : Program}
    {order : Order}
    (offers : thread.step stopped program (.push order accepted) next) :
    thread.inHand program = some order := by
  have moves := thread.moves _ _ _ _ offers
  cases accepted with
  | false => exact moves.1
  | true => exact moves.1

theorem Carries.pushStart {order : Order} {accepted : Bool} {program : Program}
    (carries : Carries thread layout matcher state delivery first waiting)
    (offers : thread.step state.threads.producerStop state.threads.producer
      (.push order accepted) program) :
    Carries thread layout matcher
      { state with
        shared :=
          { state.shared with
            producer := .loaded (layout.words order) state.shared.queue.tail } }
      delivery first waiting :=
  { carries with
    sound := carries.sound.pushStart _
    offered := by
      intro item pushing
      cases pushing
      exact ⟨order, offers_inHand offers, rfl⟩ }

theorem Carries.pushRefuse {item : Words width Word} {head : UInt64}
    {shared : SharedQueue width Word capacity} {order : Order}
    {program : Program}
    (carries : Carries thread layout matcher state delivery first waiting)
    (small : delivery.ingest.passed.length < 2 ^ 64)
    (taken : SharedQueue.Step state.shared (.pushRefuse item head) shared)
    (refused : thread.step state.threads.producerStop state.threads.producer
      (.push order false) program) :
    Carries thread layout matcher
      { threads := { state.threads with producer := program }, shared }
      (delivery.record (.producer (.push order false))) first waiting := by
  obtain ⟨rest, same, sound⟩ := taken.sound carries.sound
    (carries.place.trans_lt small)
  obtain rfl : waiting = rest := (List.append_nil _).symm.trans same
  constructor
  case sound => exact sound
  case place => exact carries.place
  case flow =>
    change _ = (delivery.applied ++ []) ++ _
    rw [List.append_nil]
    exact carries.flow
  case unused => exact carries.unused
  case offered =>
    cases taken
    nofun
  case consistent =>
    exact carries.consistent.add (thread.moves _ _ _ _ refused)
  case book =>
    change matcher.run ((delivery.applied ++ []).map dispatch) = _
    rw [List.append_nil]
    exact carries.book

theorem Carries.pushDone {item : Words width Word}
    {shared : SharedQueue width Word capacity} {order : Order}
    {program : Program}
    (carries : Carries thread layout matcher state delivery first waiting)
    (small : delivery.ingest.passed.length < 2 ^ 64)
    (taken : SharedQueue.Step state.shared (.pushDone item) shared)
    (accepted : thread.step state.threads.producerStop state.threads.producer
      (.push order true) program) :
    Carries thread layout matcher
      { threads := { state.threads with producer := program }, shared }
      (delivery.record (.producer (.push order true))) first
      (waiting ++ [item]) := by
  obtain ⟨held, inHand, placed⟩ := carries.offered item taken.pushed_item
  obtain rfl : order = held :=
    Option.some.inj ((offers_inHand accepted).symm.trans inHand)
  obtain ⟨rest, same, sound⟩ := taken.sound carries.sound
    (carries.place.trans_lt small)
  obtain rfl : waiting ++ [item] = rest := same
  have passed := IngestEvent.handover_passed (.push order true) delivery.ingest
  constructor
  case sound => exact sound
  case place =>
    change _ = (delivery.ingest.passed ++ [_]).length
    rw [List.length_append, List.length_append, ← carries.place,
      ← Nat.add_assoc]
    rfl
  case flow =>
    change _ = (delivery.applied ++ []) ++ (_ ++ _)
    refine passed.trans ?_
    rw [carries.flow, List.map_append, List.append_nil, List.append_assoc,
      List.append_assoc, placed]
    change _ = _ ++ (_ ++ (_ ++ [layout.order (layout.words order)]))
    rw [layout.order_words]
    rfl
  case unused => exact carries.unused
  case offered =>
    cases taken
    nofun
  case consistent =>
    exact carries.consistent.add (thread.moves _ _ _ _ accepted)
  case book =>
    change matcher.run ((delivery.applied ++ []).map dispatch) = _
    rw [List.append_nil]
    exact carries.book

theorem Carries.within {event : QueueEvent width Word}
    {shared : SharedQueue width Word capacity}
    (carries : Carries thread layout matcher state delivery first waiting)
    (small : delivery.ingest.passed.length < 2 ^ 64)
    (taken : SharedQueue.Step state.shared event shared)
    (none : event.pushed = [] ∧ event.popped = [] ∧ event ≠ .pushStart) :
    Carries thread layout matcher { state with shared } delivery first
      waiting := by
  obtain ⟨pushed, popped, later⟩ := none
  obtain ⟨rest, same, sound⟩ := taken.sound carries.sound
    (carries.place.trans_lt small)
  rw [pushed, popped, List.append_nil] at same
  rw [popped] at sound
  obtain rfl : waiting = rest := same
  exact
    { carries with
      sound := sound
      offered := fun item pushing =>
        carries.offered item (taken.item later item pushing) }

theorem Carries.popRefuse {attempt : Nat} {popStartNs tail : UInt64}
    {shared : SharedQueue width Word capacity}
    (carries : Carries thread layout matcher state delivery first waiting)
    (small : delivery.ingest.passed.length < 2 ^ 64)
    (popping : state.threads.matching = .pop attempt popStartNs)
    (taken : SharedQueue.Step state.shared (.popRefuse tail) shared) :
    Carries thread layout matcher
      { threads := { state.threads with matching := .test (attempt + 1) }
        shared }
      (delivery.record (.matching (.pop none))) first waiting := by
  have within := carries.within small taken ⟨rfl, rfl, nofun⟩
  have flow := carries.flow
  rw [popping] at flow
  constructor
  case sound => exact within.sound
  case place => exact within.place
  case flow =>
    change _ = (delivery.applied ++ []) ++ _
    rw [List.append_nil]
    exact flow
  case unused => exact within.unused
  case offered => exact within.offered
  case consistent => exact within.consistent
  case book =>
    change matcher.run ((delivery.applied ++ []).map dispatch) = _
    rw [List.append_nil]
    exact within.book

theorem Carries.popDone {attempt : Nat} {popStartNs : UInt64}
    {item : Words width Word} {shared : SharedQueue width Word capacity}
    (carries : Carries thread layout matcher state delivery first waiting)
    (small : delivery.ingest.passed.length < 2 ^ 64)
    (popping : state.threads.matching = .pop attempt popStartNs)
    (taken : SharedQueue.Step state.shared (.popDone item) shared) :
    ∃ rest, waiting = item :: rest ∧ Carries thread layout matcher
      { threads :=
          { state.threads with
            matching := .readEnd (layout.order item) popStartNs }
        shared }
      (delivery.record (.matching (.pop (some (layout.order item)))))
      (first + 1) rest := by
  obtain ⟨rest, same, sound⟩ := taken.sound carries.sound
    (carries.place.trans_lt small)
  obtain rfl : waiting = item :: rest := (List.append_nil _).symm.trans same
  have flow := carries.flow
  rw [popping] at flow
  refine ⟨rest, rfl, ?_⟩
  constructor
  case sound => exact sound
  case place =>
    have place := carries.place
    rw [List.length_cons, ← Nat.add_assoc, Nat.add_right_comm] at place
    exact place
  case flow =>
    change _ = (delivery.applied ++ []) ++ _
    rw [List.append_nil]
    exact flow
  case unused => exact carries.unused
  case offered =>
    exact fun item pushing =>
      carries.offered item (taken.item nofun item pushing)
  case consistent => exact carries.consistent
  case book =>
    change matcher.run ((delivery.applied ++ []).map dispatch) = _
    rw [List.append_nil]
    exact carries.book

theorem notice_passed (delivery : Delivery) (event : Option PipelineEvent) :
    delivery.ingest.passed.length ≤
      (delivery.notice event).ingest.passed.length := by
  cases event with
  | none => exact le_rfl
  | some event =>
      cases event with
      | producer event =>
          have passed := congrArg List.length
            (event.handover_passed delivery.ingest)
          rw [List.length_append, List.length_map, List.length_map] at passed
          exact (Nat.le_add_right _ _).trans passed.ge
      | matching | stopProducer | stopMatching | storeSink => exact le_rfl

theorem Step.carries (taken : Step thread layout state event next)
    (carries : Carries thread layout matcher state delivery first waiting)
    (few : delivery.ingest.passed.length < 2 ^ 64) :
    ∃ later rest, Carries thread layout matcher next (delivery.notice event)
      later rest := by
  cases taken with
  | outside taken apart outside =>
      exact ⟨first, waiting, carries.outside taken apart outside⟩
  | pushStart offers idle =>
      exact ⟨first, waiting, carries.pushStart offers⟩
  | pushRefuse taken refused =>
      exact ⟨first, waiting, carries.pushRefuse few taken refused⟩
  | pushDone taken accepted =>
      exact ⟨first, _, carries.pushDone few taken accepted⟩
  | popStart popping taken =>
      exact ⟨first, waiting, carries.within few taken ⟨rfl, rfl, nofun⟩⟩
  | popRefuse popping taken =>
      exact ⟨first, waiting, carries.popRefuse few popping taken⟩
  | popDone popping taken =>
      obtain ⟨rest, _, next⟩ := carries.popDone few popping taken
      exact ⟨_, rest, next⟩
  | inside taken inside =>
      exact ⟨first, waiting, carries.within few taken inside.moves⟩

end Steps

/-- As long as the tail counter does not wrap, the queue holds the orders that
are passed on and not yet taken out. -/
theorem carries [Inhabited Word]
    (reachable : (lockFree thread layout matcher capacity).Reachable
      (state, delivery))
    (few : delivery.ingest.passed.length < 2 ^ 64) :
    ∃ first waiting,
      Carries thread layout matcher state delivery first waiting := by
  refine Machine.Reachable.ghost_invariant
    (fun state delivery => delivery.ingest.passed.length < 2 ^ 64 →
      ∃ first waiting,
        Carries thread layout matcher state delivery first waiting)
    ?_ ?_ reachable few
  · intro state starts _
    exact ⟨0, [], starts.carries⟩
  · intro state delivery event next held taken few
    have earlier := (notice_passed delivery event).trans_lt few
    obtain ⟨first, waiting, carries⟩ := held earlier
    exact taken.carries carries earlier

/-- However the threads interleave and whatever counters they see, the orders
are delivered: applied as they were pushed and untorn, pushed as they were
produced, and what is pushed and not yet applied is in the hand of the matching
thread or counted by the two counters. -/
theorem untorn_delivery [Inhabited Word]
    (reachable : (lockFree thread layout matcher capacity).Reachable
      (state, delivery))
    (few : delivery.ingest.passed.length < 2 ^ 64) :
    Delivered matcher state.threads delivery ∧
      delivery.ingest.Consistent (thread.inHand state.threads.producer) ∧
      ∃ waiting,
        delivery.ingest.passed.map Prod.snd = delivery.applied ++
          (state.threads.matching.inHand.toList ++ waiting) ∧
        (state.shared.queue.tail - state.shared.queue.head).toNat =
          waiting.length := by
  obtain ⟨first, waiting, carries⟩ := carries reachable few
  obtain ⟨_, head, tail⟩ := carries.sound.holds
  refine ⟨⟨?_, carries.consistent.ordered, carries.consistent.genuine,
    carries.book⟩, carries.consistent, waiting.map layout.order, carries.flow,
    ?_⟩
  · rw [carries.flow]
    exact List.prefix_append _ _
  · have whole : first + waiting.length < 2 ^ 64 :=
      carries.place.trans_lt few
    have begun : first < 2 ^ 64 := (Nat.le_add_right _ _).trans_lt whole
    have ordered : UInt64.ofNat first ≤
        UInt64.ofNat (first + waiting.length) := by
      rw [UInt64.le_iff_toNat_le, UInt64.toNat_ofNat_of_lt' begun,
        UInt64.toNat_ofNat_of_lt' whole]
      exact Nat.le_add_right _ _
    rw [head, tail, UInt64.toNat_sub_of_le _ _ ordered,
      UInt64.toNat_ofNat_of_lt' begun, UInt64.toNat_ofNat_of_lt' whole,
      List.length_map]
    exact Nat.add_sub_cancel_left ..

theorem lockFree_step [Inhabited Word]
    (reachable : (lockFree thread layout matcher capacity).Reachable
      (state, delivery))
    (taken : Step thread layout state event next) :
    (lockFree thread layout matcher capacity).Reachable
      (next, delivery.notice event) :=
  .step reachable ⟨taken, rfl⟩

/-- An order as two words: its price and quantity, and all the rest. -/
def splitOrder : OrderLayout 2 Order where
  words order word :=
    if word = 0 then
      { (default : Order) with price := order.price, qty := order.qty }
    else { order with price := 0, qty := 0 }
  order words :=
    { words 1 with price := (words 0).price, qty := (words 0).qty }
  order_words _ := rfl

/-- The words of the second order are written while those of the first one are
read. -/
theorem untorn_delivery_session :
    ∃ (state : LockFree RxThread Matcher.sessionSizes 2 Order
        ⟨1, by decide⟩) (delivery : Delivery),
      (lockFree rxThread splitOrder (.start .priceTime)
        ⟨1, by decide⟩).Reachable (state, delivery) ∧
      delivery.applied = [Pipeline.sessionSell] ∧
      state.threads.matching = .readEnd Pipeline.sessionBuy 12 ∧
      Delivered (.start .priceTime) state.threads delivery ∧
      delivery.ingest.passed.map Prod.snd =
        [Pipeline.sessionSell, Pipeline.sessionBuy] := by
  have start : (lockFree rxThread splitOrder (Matcher.start .priceTime :
        Matcher Matcher.sessionSizes) ⟨1, by decide⟩).Reachable
      ({ threads := Pipeline.quiet [] (.start .priceTime) .start
         shared := .initial }, .start) :=
    .initial ⟨⟨⟨rfl, rfl, rfl, rfl⟩, rfl⟩, rfl⟩
  -- The first order is pushed.
  have produced := lockFree_step start (.outside (.producer
    (@RxThread.Step.produce false _ 100000 5 7 rfl rfl (by decide) (by decide))
    rfl) (fun calls => calls) rfl)
  have testing := lockFree_step produced (.outside (.producer
    (.attempt rfl (.again (by decide) rfl)) rfl) (fun calls => calls) rfl)
  have pushing := lockFree_step testing (.pushStart
    (@RxThread.Step.attempt false _ _ _ _ _ rfl .accepted) rfl)
  have admitted := lockFree_step pushing (.inside
    (@SharedQueue.Step.pushAdmit _ _ _ _ _ _ 0 _ rfl rfl (Nat.le_refl 0)
      (by decide)) trivial)
  have written := lockFree_step (lockFree_step admitted
    (.inside (.pushWrite rfl (Finset.mem_univ 1)) trivial))
    (.inside (@SharedQueue.Step.pushWrite _ _ _ _ _ _ _ 0 rfl (by decide))
      trivial)
  have pushed := lockFree_step written (.pushDone
    (@SharedQueue.Step.pushDone _ _ _ _ _ 0 rfl)
    (@RxThread.Step.attempt false _ _ _ _ _ rfl .accepted))
  have first := lockFree_step pushed (.outside (.producer (.pushed rfl) rfl)
    (fun calls => calls) rfl)
  -- The second push begins, and so does the first pop.
  have produced := lockFree_step first (.outside (.producer
    (@RxThread.Step.produce false _ 100000 3 8 rfl rfl (by decide) (by decide))
    rfl) (fun calls => calls) rfl)
  have testing := lockFree_step produced (.outside (.producer
    (.attempt rfl (.again (by decide) rfl)) rfl) (fun calls => calls) rfl)
  have pushing := lockFree_step testing (.pushStart
    (@RxThread.Step.attempt false _ _ _ _ _ rfl .accepted) rfl)
  have entered := lockFree_step pushing (.outside (.matching (.enter rfl))
    (fun calls => calls) rfl)
  have again := lockFree_step entered (.outside
    (.matching (.again (by decide) rfl)) (fun calls => calls) rfl)
  have reading := lockFree_step again (.outside (.matching (.readStart 9))
    (fun calls => calls) rfl)
  have popping := lockFree_step reading (.popStart rfl
    (.popStart (fun _ => default) rfl))
  have ready := lockFree_step popping (.inside
    (@SharedQueue.Step.popAdmit _ _ _ _ _ _ 1 _ rfl rfl (Nat.zero_le 1)
      (by decide)) trivial)
  -- Their words are copied in turns.
  have read := lockFree_step ready (.inside
    (.popRead rfl (Finset.mem_univ 0)) trivial)
  have admitted := lockFree_step read (.inside
    (@SharedQueue.Step.pushAdmit _ _ _ _ _ _ 0 _ rfl rfl (Nat.le_refl 0)
      (by decide)) trivial)
  have written := lockFree_step admitted (.inside
    (.pushWrite rfl (Finset.mem_univ 0)) trivial)
  have read := lockFree_step written (.inside
    (@SharedQueue.Step.popRead _ _ _ _ _ _ _ 1 rfl (by decide)) trivial)
  have popped := lockFree_step read (.popDone rfl
    (@SharedQueue.Step.popDone _ _ _ _ _ 0 rfl))
  have written := lockFree_step popped (.inside
    (@SharedQueue.Step.pushWrite _ _ _ _ _ _ _ 1 rfl (by decide)) trivial)
  have pushed := lockFree_step written (.pushDone
    (@SharedQueue.Step.pushDone _ _ _ _ _ 1 rfl)
    (@RxThread.Step.attempt false _ _ _ _ _ rfl .accepted))
  -- The first order is applied, and the second one popped.
  have ended := lockFree_step pushed (.outside (.matching (.readEnd 10))
    (fun calls => calls) rfl)
  have calling := lockFree_step ended (.outside (.matching (.readCall 10))
    (fun calls => calls) rfl)
  have called := lockFree_step calling (.outside (.matching (.call [] rfl rfl))
    (fun calls => calls) rfl)
  have done := lockFree_step called (.outside (.matching (.readDone 11))
    (fun calls => calls) rfl)
  have looping := lockFree_step done (.outside (.matching (.noSink rfl))
    (fun calls => calls) rfl)
  have entered := lockFree_step looping (.outside (.matching (.enter rfl))
    (fun calls => calls) rfl)
  have again := lockFree_step entered (.outside
    (.matching (.again (by decide) rfl)) (fun calls => calls) rfl)
  have reading := lockFree_step again (.outside (.matching (.readStart 12))
    (fun calls => calls) rfl)
  have popping := lockFree_step reading (.popStart rfl
    (.popStart (fun _ => default) rfl))
  have ready := lockFree_step popping (.inside
    (@SharedQueue.Step.popAdmit _ _ _ _ _ _ 2 _ rfl rfl (Nat.le_succ 1)
      (by decide)) trivial)
  have read := lockFree_step (lockFree_step ready
    (.inside (.popRead rfl (Finset.mem_univ 1)) trivial))
    (.inside (@SharedQueue.Step.popRead _ _ _ _ _ _ _ 0 rfl (by decide))
      trivial)
  have popped := lockFree_step read (.popDone rfl
    (@SharedQueue.Step.popDone _ _ _ _ _ 1 rfl))
  obtain ⟨delivered, _⟩ := untorn_delivery popped (by decide)
  exact ⟨_, _, popped, rfl, rfl, delivered, rfl⟩

end LockFree

end Hydra
