import Hydra.Pipeline.Clock
import Hydra.Pipeline.Phases
import Mathlib.Order.Bounds.Basic

/-!
# The pace of a replay

`replay_phase` waits until an event is due before it stamps the order.  Under a
clock that never goes back no order reaches the book before its event is due,
and the drift of the phase is the longest delay of a stamp.
-/

namespace Hydra

variable {sizes : PoolSizes} {size : Nat} {Program : Type}

/-- The runs under one clock, with what became of the orders. -/
def recordedPipeline (thread : ProducerThread Program)
    (matcher : Matcher sizes) (size : Nat) :
    Machine ((Pipeline Program sizes size × ClockRecord) × Delivery)
      PipelineEvent :=
  Machine.withGhost (clockedPipeline thread matcher size) .start
    fun _ event _ delivery => delivery.record event

section Recorded

variable {thread : ProducerThread Program} {matcher : Matcher sizes}
variable {state next : Pipeline Program sizes size} {clock : ClockRecord}
variable {delivery : Delivery} {event : PipelineEvent}

theorem recorded_step
    (reachable : (recordedPipeline thread matcher size).Reachable
      ((state, clock), delivery)) (permitted : clock.Permits event)
    (taken : Pipeline.Step thread state event next) :
    (recordedPipeline thread matcher size).Reachable
      ((next, clock.add event), delivery.record event) :=
  .step reachable ⟨⟨permitted, taken, rfl⟩, rfl⟩

theorem recorded_pipeline
    (reachable : (recordedPipeline thread matcher size).Reachable
      ((state, clock), delivery)) :
    (pipeline thread matcher size).Reachable (state, delivery) := by
  apply Machine.Reachable.map
    (fun recorded : (Pipeline Program sizes size × ClockRecord) × Delivery =>
      (recorded.1.1, recorded.2)) _ _ reachable
  · intro recorded start
    exact ⟨start.1.1, start.2⟩
  · intro recorded event next _ held taken
    obtain ⟨⟨_, stepped, _⟩, delivered⟩ := taken
    exact .step held ⟨stepped, delivered⟩

/-- What a producer keeps with its own readings of the clock, and with those of
the matching thread, holds in all runs. -/
theorem recorded_invariant
    (property : Program → UInt64 → Handover.Record Order → Prop)
    (base : property thread.start 0 .empty)
    (later : ∀ program nowNs laterNs record, property program nowNs record →
      nowNs ≤ laterNs → property program laterNs record)
    (preserved : ∀ stopped program event next nowNs record,
      property program nowNs record → thread.step stopped program event next →
      (nowNs :: event.readings).IsChain (· ≤ ·) →
      property next (event.readings.getLastD nowNs)
        (record.add event.handover))
    (reachable : (recordedPipeline thread matcher size).Reachable
      ((state, clock), delivery)) :
    property state.producer clock.nowNs delivery.ingest := by
  apply Machine.Reachable.invariant
    (fun recorded : (Pipeline Program sizes size × ClockRecord) × Delivery =>
      property recorded.1.1.producer recorded.1.2.nowNs recorded.2.ingest)
    _ _ reachable
  · intro recorded start
    obtain ⟨⟨starts, clock⟩, fresh⟩ := start
    rw [fresh, clock, starts.producer]
    exact base
  · intro recorded event next held taken
    obtain ⟨⟨permitted, stepped, ticked⟩, delivered⟩ := taken
    obtain ⟨⟨state, clock⟩, delivery⟩ := recorded
    obtain ⟨⟨following, after⟩, record⟩ := next
    obtain rfl : after = clock.add event := ticked
    obtain rfl : record = delivery.record event := delivered
    cases stepped with
    | producer taken acts =>
        exact preserved _ _ _ _ _ _ held taken permitted
    | matching | stopProducer | stopMatching | storeSink =>
        exact later _ _ _ _ held (ClockRecord.le_add permitted)

end Recorded

namespace Replay

/-- The arrival of the first event of the phase. -/
def baseOffsetNs (replay : Replay) : UInt64 :=
  replay.events[replay.first]?.elim 0 DatasetEvent.arrivalOffsetNs

/-- When the event is due in a phase that has started at `phaseStartNs`. -/
def dueNs (replay : Replay) (phaseStartNs : UInt64) (event : DatasetEvent) :
    UInt64 :=
  phaseStartNs + (event.arrivalOffsetNs - replay.baseOffsetNs)

/-- How long after its due time the order of the event is stamped. -/
def delayNs (replay : Replay) (phaseStartNs : UInt64)
    (entry : DatasetEvent × Order) : UInt64 :=
  entry.2.timestampNs - replay.dueNs phaseStartNs entry.1

/-- The order is the message of the event, and not stamped before it is due. -/
structure Stamped (replay : Replay) (phaseStartNs : UInt64)
    (event : DatasetEvent) (order : Order) : Prop where
  message : order = encodeAsQueueOrder event order.timestampNs
  due : replay.dueNs phaseStartNs event ≤ order.timestampNs

/-- The orders are those of the first events of the phase, one for each, and
the longest delay of a stamp is `maxDriftNs`. -/
structure Paced (replay : Replay) (phaseStartNs maxDriftNs : UInt64)
    (orders : List Order) : Prop where
  within : orders.length ≤ replay.window.length
  stamped : ∀ entry ∈ replay.window.zip orders,
    replay.Stamped phaseStartNs entry.1 entry.2
  ascending : (orders.map Order.timestampNs).Pairwise (· ≤ ·)
  drift : IsGreatest
    {delay | delay = 0 ∨ delay ∈
      (replay.window.zip orders).map (replay.delayNs phaseStartNs)} maxDriftNs

theorem paced_nil (replay : Replay) (phaseStartNs : UInt64) :
    replay.Paced phaseStartNs 0 [] := by
  have alone : replay.window.zip ([] : List Order) = [] := List.zip_nil_right
  constructor
  case within => exact Nat.zero_le _
  case stamped =>
    intro entry member
    rw [alone] at member
    cases member
  case ascending => exact .nil
  case drift =>
    refine ⟨.inl rfl, ?_⟩
    rintro delay (rfl | member)
    · exact UInt64.le_refl _
    · rw [alone] at member
      cases member

theorem window_getElem? {replay : Replay} {index : Nat} {event : DatasetEvent}
    (above : replay.first ≤ index) (below : index < replay.last)
    (selected : replay.events[index]? = some event) :
    replay.window[index - replay.first]? = some event := by
  rw [window, List.getElem?_take_of_lt (by omega), List.getElem?_drop,
    Nat.add_sub_cancel' above, selected]

end Replay

theorem zip_concat {First Second : Type} {firsts : List First} {first : First}
    {seconds : List Second} (place : firsts[seconds.length]? = some first)
    (second : Second) :
    firsts.zip (seconds ++ [second]) =
      firsts.zip seconds ++ [(first, second)] := by
  induction seconds generalizing firsts with
  | nil =>
      cases firsts with
      | nil => cases place
      | cons head firsts =>
          obtain rfl := Option.some.inj place
          simp
  | cons earlier seconds induction =>
      cases firsts with
      | nil => cases place
      | cons head firsts =>
          rw [List.cons_append, List.zip_cons_cons, List.zip_cons_cons,
            induction place, List.cons_append]

theorem longest_concat {delays : List UInt64} {longest : UInt64}
    (greatest : IsGreatest {delay | delay = 0 ∨ delay ∈ delays} longest)
    (last : UInt64) :
    IsGreatest {delay | delay = 0 ∨ delay ∈ delays ++ [last]}
      (max longest last) := by
  obtain ⟨attained, bound⟩ := greatest
  have chosen : max longest last = if longest ≤ last then last else longest :=
    rfl
  have old : longest ≤ max longest last := by
    rw [chosen]
    split
    next below => exact below
    next => exact UInt64.le_refl _
  have new : last ≤ max longest last := by
    rw [chosen]
    split
    next => exact UInt64.le_refl _
    next above => exact UInt64.le_of_lt (UInt64.not_le.mp above)
  constructor
  · rw [chosen]
    split
    next => exact .inr (List.mem_append_right _ List.mem_cons_self)
    next => exact attained.imp_right (List.mem_append_left _)
  · rintro delay (rfl | member)
    · exact UInt64.le_trans (bound (.inl rfl)) old
    · rw [List.mem_append, List.mem_singleton] at member
      rcases member with before | rfl
      · exact UInt64.le_trans (bound (.inr before)) old
      · exact new

theorem encodeAsQueueOrder_timestampNs (event : DatasetEvent) (t1Ns : UInt64) :
    (encodeAsQueueOrder event t1Ns).timestampNs = t1Ns := by
  rw [encodeAsQueueOrder]
  cases event.type <;> rfl

namespace Replay

variable {replay : Replay} {phaseStartNs maxDriftNs : UInt64}
variable {orders : List Order}

theorem Paced.concat {event : DatasetEvent}
    (paced : replay.Paced phaseStartNs maxDriftNs orders)
    (place : replay.window[orders.length]? = some event) {t1Ns : UInt64}
    (due : replay.dueNs phaseStartNs event ≤ t1Ns)
    (past : ∀ order ∈ orders, order.timestampNs ≤ t1Ns) :
    replay.Paced phaseStartNs
      (max maxDriftNs (t1Ns - replay.dueNs phaseStartNs event))
      (orders ++ [encodeAsQueueOrder event t1Ns]) := by
  have stamp : (encodeAsQueueOrder event t1Ns).timestampNs = t1Ns :=
    encodeAsQueueOrder_timestampNs event t1Ns
  have entries := zip_concat place (encodeAsQueueOrder event t1Ns)
  obtain ⟨within, stamped, ascending, drift⟩ := paced
  constructor
  case within =>
    obtain ⟨below, _⟩ := List.getElem?_eq_some_iff.mp place
    rw [List.length_append]
    exact below
  case stamped =>
    intro entry member
    rw [entries, List.mem_append, List.mem_singleton] at member
    rcases member with before | rfl
    · exact stamped entry before
    · constructor
      · rw [stamp]
      · rw [stamp]
        exact due
  case ascending =>
    rw [List.map_append, List.pairwise_append]
    refine ⟨ascending, List.pairwise_singleton _ _, ?_⟩
    intro earlier member last new
    obtain ⟨order, inOrders, rfl⟩ := List.mem_map.mp member
    obtain rfl := List.mem_singleton.mp new
    rw [stamp]
    exact past order inOrders
  case drift =>
    have delays : (replay.window.zip
          (orders ++ [encodeAsQueueOrder event t1Ns])).map
            (replay.delayNs phaseStartNs) =
        (replay.window.zip orders).map (replay.delayNs phaseStartNs) ++
          [t1Ns - replay.dueNs phaseStartNs event] := by
      rw [entries, List.map_append, List.map_singleton, delayNs, stamp]
    rw [delays]
    exact longest_concat drift _

theorem Paced.stamped_of_taken {place : Nat} {order : Order}
    (paced : replay.Paced phaseStartNs maxDriftNs orders)
    (taken : orders[place]? = some order) :
    ∃ event ∈ replay.window, replay.Stamped phaseStartNs event order := by
  obtain ⟨below, rfl⟩ := List.getElem?_eq_some_iff.mp taken
  have inside : place < replay.window.length :=
    Nat.lt_of_lt_of_le below paced.within
  have both : place < (replay.window.zip orders).length := by
    rw [List.length_zip]
    exact Nat.lt_min.mpr ⟨inside, below⟩
  have stamped := paced.stamped _ (List.getElem_mem both)
  rw [List.getElem_zip] at stamped
  exact ⟨_, List.getElem_mem inside, stamped⟩

end Replay

namespace ReplayThread

variable {replay : Replay} {thread next : ReplayThread}
variable {event : IngestEvent} {nowNs laterNs : UInt64}
variable {record : Handover.Record Order}

/-- How many events the phase has made orders of. -/
def produced (replay : Replay) : ReplayPoint → Nat
  | .begin => 0
  | .loop index | .pace index _ _ | .stamp index _ _ => index - replay.first
  | .test index _ _ _ | .push index _ _ _ _ | .accepted index _ _
  | .pushed index _ => index + 1 - replay.first
  | .returned => replay.last - replay.first

/-- The phase waits for the due time of the event, and stamps it no earlier. -/
def Awaits (replay : Replay) (phaseStartNs nowNs : UInt64) :
    ReplayPoint → Prop
  | .pace _ event targetNs => targetNs = replay.dueNs phaseStartNs event
  | .stamp _ event targetNs =>
      targetNs = replay.dueNs phaseStartNs event ∧ targetNs ≤ nowNs
  | .begin | .loop _ | .test _ _ _ _ | .push _ _ _ _ _ | .accepted _ _ _
  | .pushed _ _ | .returned => True

/-- What holds at all times of a phase whose clock shows `nowNs`. -/
structure KeepsPace (replay : Replay) (thread : ReplayThread)
    (nowNs : UInt64) (record : Handover.Record Order) : Prop where
  replays : Replays replay thread (record.passed.map Prod.snd)
  paced : replay.Paced thread.phaseStartNs thread.result.maxDriftNs
    record.taken
  count : record.taken.length = produced replay thread.point
  past : ∀ order ∈ record.taken, order.timestampNs ≤ nowNs
  base : thread.point ≠ .begin → thread.baseOffsetNs = replay.baseOffsetNs
  awaits : Awaits replay thread.phaseStartNs nowNs thread.point

theorem start_keepsPace (replay : Replay) :
    KeepsPace replay start 0 .empty where
  replays := start_replays replay
  paced := replay.paced_nil 0
  count := rfl
  past _ member := absurd member List.not_mem_nil
  base moved := absurd rfl moved
  awaits := trivial

theorem Awaits.later {phaseStartNs : UInt64} {point : ReplayPoint}
    (awaits : Awaits replay phaseStartNs nowNs point)
    (clock : nowNs ≤ laterNs) : Awaits replay phaseStartNs laterNs point := by
  cases point with
  | stamp index event targetNs =>
      exact ⟨awaits.1, UInt64.le_trans awaits.2 clock⟩
  | pace => exact awaits
  | begin | loop | test | push | accepted | pushed | returned => trivial

theorem KeepsPace.later (pace : KeepsPace replay thread nowNs record)
    (clock : nowNs ≤ laterNs) : KeepsPace replay thread laterNs record where
  replays := pace.replays
  paced := pace.paced
  count := pace.count
  past order member := UInt64.le_trans (pace.past order member) clock
  base := pace.base
  awaits := pace.awaits.later clock

theorem KeepsPace.keep {result : ReplayPhaseResult}
    {onPush : List (Nat × DatasetEvent)} {point : ReplayPoint}
    {after : Handover.Record Order}
    (pace : KeepsPace replay thread nowNs record)
    (clock : nowNs ≤ laterNs) (begun : thread.point ≠ .begin)
    (replays : Replays replay { thread with result, onPush, point }
      (after.passed.map Prod.snd))
    (taken : after.taken = record.taken)
    (drift : result.maxDriftNs = thread.result.maxDriftNs)
    (count : produced replay point = produced replay thread.point)
    (awaits : Awaits replay thread.phaseStartNs laterNs point) :
    KeepsPace replay { thread with result, onPush, point } laterNs after := by
  constructor
  case replays => exact replays
  case paced =>
    rw [taken, drift]
    exact pace.paced
  case count =>
    rw [taken, count]
    exact pace.count
  case past =>
    intro order member
    rw [taken] at member
    exact UInt64.le_trans (pace.past order member) clock
  case base =>
    intro _
    exact pace.base begun
  case awaits => exact awaits

theorem drift_maxDriftNs (result : ReplayPhaseResult) {t1Ns targetNs : UInt64}
    (due : targetNs ≤ t1Ns) :
    (drift result t1Ns targetNs).maxDriftNs =
      max result.maxDriftNs (t1Ns - targetNs) := by
  rw [drift]
  split
  next => rfl
  next prompt =>
    obtain rfl : t1Ns = targetNs :=
      UInt64.le_antisymm (UInt64.not_lt.mp prompt) due
    have none : t1Ns - t1Ns = 0 := UInt64.sub_self t1Ns
    have chosen : max result.maxDriftNs 0 =
        if result.maxDriftNs ≤ 0 then 0 else result.maxDriftNs := rfl
    rw [none, chosen]
    split
    next zero => exact UInt64.le_antisymm zero UInt64.zero_le
    next => rfl

theorem Step.keepsPace (taken : Step replay thread event next)
    (ordered : replay.first ≤ replay.last)
    (chain : (nowNs :: event.readings).IsChain (· ≤ ·))
    (pace : KeepsPace replay thread nowNs record) :
    KeepsPace replay next (event.readings.getLastD nowNs)
      (record.add event.handover) := by
  have clock := le_getLastD chain
  have prepared := pace.replays.prepared
  have awaits := pace.awaits
  have replays : Replays replay next
      ((record.add event.handover).passed.map Prod.snd) := by
    rw [IngestEvent.handover_passed]
    exact taken.replays ordered pace.replays
  cases taken with
  | @begin first nowNs beginning selected =>
      -- Nothing has been produced yet, so the start of the phase may change.
      have count := pace.count
      rw [beginning] at count
      have none : record.taken = [] := List.eq_nil_of_length_eq_zero count
      have silent : thread.result.maxDriftNs = 0 := by
        obtain ⟨attained, _⟩ := pace.paced.drift
        rw [none, List.zip_nil_right] at attained
        rcases attained with zero | member
        · exact zero
        · cases member
      constructor
      case replays => exact replays
      case paced =>
        change replay.Paced nowNs thread.result.maxDriftNs record.taken
        rw [none, silent]
        exact replay.paced_nil nowNs
      case count =>
        change record.taken.length = replay.first - replay.first
        rw [none, Nat.sub_self]
        rfl
      case past =>
        intro order member
        change order ∈ record.taken at member
        rw [none] at member
        cases member
      case base =>
        intro _
        change first.arrivalOffsetNs = replay.baseOffsetNs
        rw [Replay.baseOffsetNs, selected]
        rfl
      case awaits => trivial
  | @next index event looping left selected =>
      have based := pace.base (by simp [looping])
      refine pace.keep clock (by simp [looping]) replays rfl rfl ?_ ?_
      · rw [looping]
        rfl
      · rw [based]
        rfl
  | finish looping exhausted =>
      rw [looping] at prepared
      refine pace.keep clock (by simp [looping]) replays rfl rfl ?_ trivial
      rw [looping, produced, produced, Nat.le_antisymm prepared.2
        (Nat.le_of_not_lt exhausted)]
  | wait => exact pace.later clock
  | due nowNs pacing late =>
      rw [pacing] at awaits
      refine pace.keep clock (by simp [pacing]) replays rfl rfl ?_
        ⟨awaits, UInt64.not_lt.mp late⟩
      rw [pacing]
      rfl
  | @produce index event targetNs t1Ns stamping =>
      rw [stamping] at prepared awaits
      obtain ⟨above, below, selected⟩ := prepared
      obtain ⟨rfl, reached⟩ := awaits
      have reading : (IngestEvent.produce
          (encodeAsQueueOrder event t1Ns)).readings.getLastD nowNs = t1Ns :=
        encodeAsQueueOrder_timestampNs event t1Ns
      rw [reading] at clock ⊢
      have due := UInt64.le_trans reached clock
      have count := pace.count
      rw [stamping, produced] at count
      have place : replay.window[record.taken.length]? = some event := by
        rw [count]
        exact Replay.window_getElem? above below selected
      constructor
      case replays => exact replays
      case paced =>
        have paced := pace.paced.concat place due
          fun order member => UInt64.le_trans (pace.past order member) clock
        rw [← drift_maxDriftNs _ due] at paced
        exact paced
      case count =>
        change (record.taken ++ [_]).length = index + 1 - replay.first
        rw [List.length_append, count, List.length_singleton]
        omega
      case past =>
        intro order member
        change order ∈ record.taken ++ [encodeAsQueueOrder event t1Ns] at member
        rcases List.mem_append.mp member with before | new
        · exact UInt64.le_trans (pace.past order before) clock
        · obtain rfl := List.mem_singleton.mp new
          rw [encodeAsQueueOrder_timestampNs]
          exact UInt64.le_refl _
      case base =>
        intro _
        exact pace.base (by simp [stamping])
      case awaits => trivial
  | again nowNs at_point | accepted at_point | refused at_point
  | count nowNs at_point =>
      refine pace.keep clock (by simp [at_point]) replays rfl rfl ?_ trivial
      rw [at_point]
      rfl
  | drop at_point | onPush at_point =>
      refine pace.keep clock (by simp [at_point]) replays rfl rfl ?_ trivial
      rw [at_point]
      rfl

end ReplayThread

/-- No order reaches the book before its event is due, and the drift of the
phase is the longest delay. -/
theorem replay_paced {replay : Replay} {matcher : Matcher sizes}
    {state : Pipeline ReplayThread sizes size} {clock : ClockRecord}
    {delivery : Delivery} (ordered : replay.first ≤ replay.last)
    (reachable : (recordedPipeline (replayThread replay) matcher
      size).Reachable ((state, clock), delivery)) :
    replay.Paced state.producer.phaseStartNs
      state.producer.result.maxDriftNs delivery.ingest.taken ∧
    (state.producer.point = .returned →
      delivery.ingest.taken.length = replay.window.length) ∧
    ∀ order ∈ delivery.applied, ∃ event ∈ replay.window,
      replay.Stamped state.producer.phaseStartNs event order ∧
      order.timestampNs ≤ clock.nowNs := by
  have pace : ReplayThread.KeepsPace replay state.producer clock.nowNs
      delivery.ingest := by
    apply recorded_invariant (ReplayThread.KeepsPace replay) _ _ _ reachable
    · exact ReplayThread.start_keepsPace replay
    · intro program nowNs laterNs record pace later
      exact pace.later later
    · intro _ program event next nowNs record pace taken chain
      exact ReplayThread.Step.keepsPace taken ordered chain pace
  refine ⟨pace.paced, ?_, ?_⟩
  · intro returned
    have count := pace.count
    rw [returned, ReplayThread.produced] at count
    have short : replay.window.length ≤ replay.last - replay.first :=
      List.length_take_le _ _
    have within := pace.paced.within
    omega
  · intro order member
    obtain ⟨applied, _, genuine, _⟩ :=
      Pipeline.delivered (recorded_pipeline reachable)
    obtain ⟨entry, passed, rfl⟩ := List.mem_map.mp (applied.subset member)
    have taken := genuine entry passed
    obtain ⟨event, inWindow, stamped⟩ := pace.paced.stamped_of_taken taken
    exact ⟨event, inWindow, stamped,
      pace.past _ (List.mem_of_getElem? taken)⟩

namespace Matcher

/-- A dataset of one order that arrives at 100. -/
def oneEvent : DatasetEvent where
  type := .newOrder
  order := RxThread.order 1 100000 1 0
  cancelOrderId := 0
  arrivalOffsetNs := 100

def oneReplay : Replay where
  events := [oneEvent]
  first := 0
  last := 1

/-- The phase starts at 4, so its order is due at 4.  It is stamped at 7. -/
theorem replay_paced_late : ∃ state clock delivery,
    (recordedPipeline (replayThread oneReplay)
      (start .priceTime : Matcher sessionSizes) 4).Reachable
      ((state, clock), delivery) ∧
    delivery.applied = [encodeAsQueueOrder oneEvent 7] ∧
    state.producer.result.maxDriftNs = 3 ∧
    oneReplay.Paced 4 3 delivery.ingest.taken := by
  have start : (recordedPipeline (replayThread oneReplay)
      (start .priceTime : Matcher sessionSizes) 4).Reachable
      ((Pipeline.quiet [] (start .priceTime) .start, .start), .start) :=
    .initial ⟨⟨⟨rfl, rfl, rfl, rfl⟩, rfl⟩, rfl⟩
  have begun := recorded_step start (by decide)
    (.producer (ReplayThread.Step.begin 4 rfl rfl) rfl)
  have paced := recorded_step begun (by decide)
    (.producer (ReplayThread.Step.next rfl (by decide) rfl) rfl)
  have due := recorded_step paced (by decide)
    (.producer (ReplayThread.Step.due 4 rfl (by decide)) rfl)
  have stamped := recorded_step due (by decide)
    (.producer (ReplayThread.Step.produce 7 rfl) rfl)
  have pushing := recorded_step stamped (by decide)
    (.producer (ReplayThread.Step.again 7 rfl (by decide)) rfl)
  have pushed := recorded_step pushing (by decide)
    (.producer (ReplayThread.Step.accepted rfl) rfl)
  have entered := recorded_step pushed (by decide) (.matching (.enter rfl))
  have tested := recorded_step entered (by decide)
    (.matching (.again (by decide) rfl))
  have waiting := recorded_step tested (by decide) (.matching (.readStart 9))
  have popped := recorded_step waiting (by decide) (.matching (.popSome rfl))
  have ended := recorded_step popped (by decide) (.matching (.readEnd 10))
  have calling := recorded_step ended (by decide) (.matching (.readCall 11))
  obtain ⟨result, processed, silent⟩ := process_alone
  have unpublished : ([] : List (UInt64 × UInt64)).length =
      result.emitted.length := by
    simp [silent]
  have called := recorded_step calling (by decide)
    (.matching (.call [] processed unpublished))
  exact ⟨_, _, _, called, rfl, rfl, (replay_paced (by decide) called).1⟩

end Matcher

end Hydra
