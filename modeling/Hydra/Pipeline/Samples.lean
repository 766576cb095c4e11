import Hydra.Pipeline.Benchmark

/-!
# From a message to its sample

What the matching thread does between the pop of a message and the count of its
sample.  Messages leave the queue in order, and as long as one sink is stored
and has room, their samples come to its front in that order.
-/

namespace Hydra

variable {sizes : PoolSizes} {size : Nat}

namespace MatchingPoint

/-- The message that is popped and has no sample yet. -/
def unsampled : MatchingPoint → Option Order
  | readEnd order _ | readCall order _ _ | call order _
  | readDone order _ _ _ => some order
  | _ => none

/-- The sample that is made and not yet written. -/
def pending : MatchingPoint → List LatencySample
  | loadSink sample | loadIndex _ sample | writeSample _ sample _ => [sample]
  | _ => []

/-- How many samples are written and not yet counted. -/
def written : MatchingPoint → Nat
  | storeIndex _ _ => 1
  | _ => 0

/-- The sink whose `record` is running. -/
def sink : MatchingPoint → Option Nat
  | loadIndex sink _ | writeSample sink _ _ | storeIndex sink _ => some sink
  | _ => none

/-- The index that `record` has loaded. -/
def index : MatchingPoint → Option Nat
  | writeSample _ _ index | storeIndex _ index => some index
  | _ => none

/-- The thread is outside of the book and of `record`, with no message in
hand. -/
def Idle : MatchingPoint → Prop
  | loop | test _ | readStart _ | pop _ _ | exited => True
  | _ => False

theorem idle_of_nothing {point : MatchingPoint}
    (unsampled : point.unsampled = none) (pending : point.pending = [])
    (written : point.written = 0) : point.Idle := by
  cases point with
  | loop | test | readStart | pop | exited => trivial
  | readEnd | readCall | call | readDone => cases unsampled
  | loadSink | loadIndex | writeSample => cases pending
  | storeIndex => cases written

theorem Idle.nothing {point : MatchingPoint} (idle : point.Idle) :
    point.unsampled = none ∧ point.pending = [] ∧ point.written = 0 ∧
      point.sink = none ∧ point.index = none := by
  cases point with
  | loop | test | readStart | pop | exited => exact ⟨rfl, rfl, rfl, rfl, rfl⟩
  | readEnd | readCall | call | readDone | loadSink | loadIndex
  | writeSample | storeIndex => exact absurd idle id

section Steps

variable {stopped : Bool} {context next : PipelineContext sizes size}
variable {point nextPoint : MatchingPoint} {event : MatchingEvent}

/-- Messages leave the queue in order, and each gets one sample. -/
theorem Step.flow
    (taken : Step stopped context point event next nextPoint) :
    point.unsampled.toList ++ context.queue.queue =
      ((point.sampled nextPoint).toList.map Prod.fst) ++
        (nextPoint.unsampled.toList ++ next.queue.queue) := by
  cases taken with
  | popNone empty =>
      have items := context.queue.pop_items
      rw [empty] at items
      exact items.symm
  | popSome found =>
      have items := context.queue.pop_items
      rw [found] at items
      exact items.symm
  | readDone => rfl
  | exit | enter | again | giveUp | readStart | readEnd | readCall => rfl
  | call | noSink | loadSink | sinkFull | loadIndex => rfl
  | writeSample | storeIndex => rfl

theorem Step.idle
    (taken : Step stopped context point event next nextPoint)
    (idle : point.Idle) (empty : context.queue.queue = []) :
    nextPoint.Idle ∧ next = context ∧ point.sampled nextPoint = none := by
  cases taken with
  | exit | enter | again | giveUp | readStart => exact ⟨trivial, rfl, rfl⟩
  | popNone =>
      refine ⟨trivial, ?_, rfl⟩
      rw [MutexQueue.pop, empty]
  | popSome found =>
      rw [MutexQueue.pop, empty] at found
      cases found
  | readEnd | readCall | call | readDone => exact absurd idle id
  | noSink | loadSink | sinkFull | loadIndex => exact absurd idle id
  | writeSample | storeIndex => exact absurd idle id

theorem Step.unrecorded
    (taken : Step stopped context point event next nextPoint)
    (null : context.rawSamples = none) (free : point.sink = none) :
    nextPoint.sink = none := by
  cases taken with
  | exit | enter | again | giveUp | readStart | readEnd | readCall => rfl
  | popNone | popSome | call | readDone | noSink | sinkFull => rfl
  | loadSink found =>
      rw [null] at found
      cases found
  | loadIndex | writeSample => cases free
  | storeIndex => rfl

theorem Step.rawSamples
    (taken : Step stopped context point event next nextPoint) :
    next.rawSamples = context.rawSamples := by
  cases taken with
  | popNone | popSome | call | writeSample | storeIndex => rfl
  | exit | enter | again | giveUp | readStart | readEnd | readCall => rfl
  | readDone | noSink | loadSink | sinkFull | loadIndex => rfl

end Steps

end MatchingPoint

/-- The thread has put `samples` to the front of a sink for `limit` samples, or
is about to put the last of them there. -/
structure SinkFilled (context : PipelineContext sizes size) (sink limit : Nat)
    (point : MatchingPoint) (samples : List LatencySample) : Prop where
  content : (context.sinks sink).samples.take
      ((context.sinks sink).writeIndex + point.written) ++ point.pending =
    samples
  within : (context.sinks sink).writeIndex + point.written ≤
    (context.sinks sink).samples.length
  size : (context.sinks sink).samples.length = limit
  capacity : (context.sinks sink).capacity = limit
  sole : ∀ used ∈ point.sink, used = sink
  current : ∀ index ∈ point.index, index = (context.sinks sink).writeIndex

namespace SinkFilled

variable {context next : PipelineContext sizes size} {sink limit : Nat}
variable {point nextPoint : MatchingPoint} {samples : List LatencySample}
variable {stopped : Bool} {event : MatchingEvent}

theorem length (filled : SinkFilled context sink limit point samples) :
    samples.length =
      (context.sinks sink).writeIndex + point.written +
        point.pending.length := by
  rw [← filled.content, List.length_append, List.length_take,
    Nat.min_eq_left filled.within]

theorem of_sinks (filled : SinkFilled context sink limit point samples)
    (same : next.sinks = context.sinks) :
    SinkFilled next sink limit point samples := by
  obtain ⟨content, within, size, capacity, sole, current⟩ := filled
  rw [← same] at content within size capacity current
  exact ⟨content, within, size, capacity, sole, current⟩

/-- A fresh sink is filled with nothing, while the thread records nothing. -/
theorem fresh (idle : point.Idle)
    (stored : context.sinks sink = .fresh limit) :
    SinkFilled context sink limit point [] := by
  obtain ⟨_, pending, written, unused, unindexed⟩ := idle.nothing
  refine ⟨?_, ?_, ?_, ?_, ?_, ?_⟩
  · rw [written, pending, stored]
    rfl
  · rw [written, stored]
    exact Nat.zero_le _
  · rw [stored]
    exact List.length_replicate
  · rw [stored]
    rfl
  · rw [unused]
    nofun
  · rw [unindexed]
    nofun

/-- The array after a write at `index`, up to that write. -/
theorem take_write {records : List LatencySample} {index : Nat}
    (small : index < records.length) (sample : LatencySample) :
    (records.set index sample).take (index + 1) =
      records.take index ++ [sample] := by
  have still : index < (records.set index sample).length := by
    rw [List.length_set]
    exact small
  rw [List.take_succ_eq_append_getElem still, List.getElem_set_self,
    List.take_set_of_le (Nat.le_refl index)]

/-- A step of the thread adds the sample that it makes, while the sink is
stored and not overfull. -/
theorem step (filled : SinkFilled context sink limit point samples)
    (stored : context.rawSamples = some sink)
    (room : samples.length ≤ limit)
    (taken : MatchingPoint.Step stopped context point event next nextPoint) :
    SinkFilled next sink limit nextPoint
      (samples ++ ((point.sampled nextPoint).map Prod.snd).toList) := by
  have length := filled.length
  obtain ⟨content, within, size, capacity, sole, current⟩ := filled
  cases taken with
  | exit | enter | again | giveUp | readStart | popNone | popSome | readEnd
  | readCall | call =>
      exact ⟨content.trans (List.append_nil _).symm, within, size, capacity,
        nofun, nofun⟩
  | readDone nowNs =>
      refine ⟨?_, within, size, capacity, nofun, nofun⟩
      rw [← content]
      exact congrArg (· ++ _) (List.append_nil _).symm
  | noSink null =>
      rw [stored] at null
      cases null
  | @loadSink sample used found =>
      refine ⟨content.trans (List.append_nil _).symm, within, size, capacity,
        ?_, nofun⟩
      intro other member
      rw [stored] at found
      cases found
      cases member
      rfl
  | @sinkFull used sample full =>
      obtain rfl : used = sink := sole used rfl
      change samples.length = (context.sinks used).writeIndex + 1 at length
      omega
  | @loadIndex used sample space =>
      obtain rfl : used = sink := sole used rfl
      refine ⟨content.trans (List.append_nil _).symm, within, size, capacity,
        sole, ?_⟩
      intro index member
      cases member
      rfl
  | @writeSample used sample index =>
      obtain rfl : used = sink := sole used rfl
      obtain rfl := current index rfl
      change samples.length = (context.sinks used).writeIndex + 1 at length
      have small : (context.sinks used).writeIndex <
          (context.sinks used).samples.length := by
        omega
      refine ⟨?_, ?_, ?_, ?_, sole, ?_⟩
      · rw [PipelineContext.modifySink_sinks]
        change (List.set _ _ _).take ((context.sinks used).writeIndex + 1) ++
          [] = samples ++ []
        rw [take_write small, ← content]
        rfl
      · rw [PipelineContext.modifySink_sinks]
        change (context.sinks used).writeIndex + 1 ≤ (List.set _ _ _).length
        rw [List.length_set]
        exact small
      · rw [PipelineContext.modifySink_sinks]
        exact List.length_set.trans size
      · rw [PipelineContext.modifySink_sinks]
        exact capacity
      · rw [PipelineContext.modifySink_sinks]
        exact current
  | @storeIndex used index =>
      obtain rfl : used = sink := sole used rfl
      obtain rfl := current index rfl
      refine ⟨?_, ?_, ?_, ?_, nofun, nofun⟩
      · rw [PipelineContext.modifySink_sinks]
        exact content.trans (List.append_nil _).symm
      · rw [PipelineContext.modifySink_sinks]
        exact within
      · rw [PipelineContext.modifySink_sinks]
        exact size
      · rw [PipelineContext.modifySink_sinks]
        exact capacity

end SinkFilled

end Hydra
