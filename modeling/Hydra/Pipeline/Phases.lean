import Hydra.Pipeline.Counting
import Hydra.Pipeline.Sequential

/-!
# What a phase pushes

`replay_phase` pushes the messages of its events in order, and counts those
that it gives up on.  A phase that counts none has pushed the message of every
event; they are the same in all phases but for their time stamps.
-/

namespace Hydra

/-- The messages of the events, as they are at time zero. -/
def messagesOf (events : List DatasetEvent) : List Order :=
  events.map fun event => encodeAsQueueOrder event 0

/-- The events of a phase. -/
def Replay.window (replay : Replay) : List DatasetEvent :=
  (replay.events.drop replay.first).take (replay.last - replay.first)

namespace ReplayThread

variable {replay : Replay} {thread next : ReplayThread}
variable {event : IngestEvent} {pushed : List Order}

/-- How many events the phase is done with. -/
def passed (replay : Replay) : ReplayPoint → Nat
  | .begin => 0
  | .loop index | .pace index _ _ | .stamp index _ _ | .test index _ _ _
  | .push index _ _ _ _ => index - replay.first
  | .accepted index _ _ | .pushed index _ => index + 1 - replay.first
  | .returned => replay.last - replay.first

/-- The index is one of the phase, and the order in hand is the message of the
event there. -/
def Prepared (replay : Replay) : ReplayPoint → Prop
  | .begin | .returned => True
  | .loop index => replay.first ≤ index ∧ index ≤ replay.last
  | .pace index event _ | .stamp index event _ =>
      replay.first ≤ index ∧ index < replay.last ∧
        replay.events[index]? = some event
  | .test index event order _ | .push index event order _ _ =>
      replay.first ≤ index ∧ index < replay.last ∧
        replay.events[index]? = some event ∧
        order.unstamped = (encodeAsQueueOrder event 0).unstamped
  | .accepted index _ _ | .pushed index _ =>
      replay.first ≤ index ∧ index < replay.last

/-- The phase has pushed `pushed` so far. -/
structure Replays (replay : Replay) (thread : ReplayThread)
    (pushed : List Order) : Prop where
  prepared : Prepared replay thread.point
  few : pushed.length ≤ passed replay thread.point
  dropped : thread.result.dropped =
    .ofNat (passed replay thread.point - pushed.length)
  content : pushed.length = passed replay thread.point →
    pushed.map Order.unstamped =
      (messagesOf ((replay.events.drop replay.first).take pushed.length)).map
        Order.unstamped

theorem start_replays (replay : Replay) : Replays replay start [] where
  prepared := trivial
  few := le_rfl
  dropped := rfl
  content _ := rfl

/-- A step that pushes nothing and is done with no further event. -/
theorem Replays.keep (replays : Replays replay thread pushed)
    (prepared : Prepared replay next.point)
    (count : passed replay next.point = passed replay thread.point)
    (dropped : next.result.dropped = thread.result.dropped) :
    Replays replay next (pushed ++ []) := by
  rw [List.append_nil]
  constructor
  case prepared => exact prepared
  case few =>
    rw [count]
    exact replays.few
  case dropped =>
    rw [dropped, count]
    exact replays.dropped
  case content =>
    intro whole
    exact replays.content (whole.trans count)

theorem Step.replays (taken : Step replay thread event next)
    (ordered : replay.first ≤ replay.last)
    (replays : Replays replay thread pushed) :
    Replays replay next (pushed ++ event.pushed) := by
  have prepared := replays.prepared
  have few := replays.few
  have dropped := replays.dropped
  have content := replays.content
  cases taken with
  | begin nowNs beginning =>
      refine replays.keep ⟨le_rfl, ordered⟩ ?_ rfl
      rw [beginning]
      exact Nat.sub_self _
  | next looping left selected =>
      rw [looping] at prepared
      refine replays.keep ⟨prepared.1, left, selected⟩ ?_ rfl
      rw [looping]
      rfl
  | finish looping exhausted =>
      rw [looping] at prepared
      refine replays.keep trivial ?_ rfl
      obtain ⟨_, within⟩ := prepared
      rw [looping, passed, passed, Nat.le_antisymm within
        (Nat.le_of_not_lt exhausted)]
  | wait => exact replays.keep prepared rfl rfl
  | due nowNs pacing late =>
      rw [pacing] at prepared
      refine replays.keep prepared ?_ rfl
      rw [pacing]
      rfl
  | produce t1Ns stamping =>
      rw [stamping] at prepared
      obtain ⟨above, below, selected⟩ := prepared
      refine replays.keep ⟨above, below, selected,
        encodeAsQueueOrder_unstamped _ _⟩ ?_ (drift_dropped _ _ _)
      rw [stamping]
      rfl
  | again nowNs testing left =>
      rw [testing] at prepared
      refine replays.keep prepared ?_ rfl
      rw [testing]
      rfl
  | refused pushing =>
      rw [pushing] at prepared
      refine replays.keep prepared ?_ rfl
      rw [pushing]
      rfl
  | count nowNs accepted =>
      rw [accepted] at prepared
      refine replays.keep prepared ?_ rfl
      rw [accepted]
      rfl
  | onPush at_point =>
      rw [at_point] at prepared
      refine replays.keep ⟨Nat.le_succ_of_le prepared.1, prepared.2⟩ ?_ rfl
      rw [at_point]
      rfl
  | @drop index event order attempt testing exhausted =>
      rw [testing] at prepared few dropped
      obtain ⟨above, below, _⟩ := prepared
      rw [passed] at few dropped
      have further : index + 1 - replay.first = index - replay.first + 1 := by
        omega
      constructor
      case prepared => exact ⟨Nat.le_succ_of_le above, below⟩
      case few =>
        change (pushed ++ []).length ≤ index + 1 - replay.first
        rw [List.append_nil]
        omega
      case dropped =>
        change thread.result.dropped + 1 =
          .ofNat (index + 1 - replay.first - (pushed ++ []).length)
        rw [List.append_nil, dropped, further, Nat.sub_add_comm few,
          UInt64.ofNat_add]
        rfl
      case content =>
        intro whole
        change (pushed ++ []).length = index + 1 - replay.first at whole
        rw [List.append_nil] at whole
        omega
  | @accepted index event order attempt pushStartNs pushing =>
      rw [pushing] at prepared few dropped content
      obtain ⟨above, below, selected, message⟩ := prepared
      rw [passed] at few dropped content
      have further : index + 1 - replay.first = index - replay.first + 1 := by
        omega
      have longer : (pushed ++ [order]).length = pushed.length + 1 :=
        List.length_append
      constructor
      case prepared => exact ⟨above, below⟩
      case few =>
        change (pushed ++ [order]).length ≤ index + 1 - replay.first
        omega
      case dropped =>
        change thread.result.dropped =
          .ofNat (index + 1 - replay.first - (pushed ++ [order]).length)
        rw [dropped, longer, further, Nat.add_sub_add_right]
      case content =>
        intro whole
        change (pushed ++ [order]).length = index + 1 - replay.first at whole
        have count : pushed.length = index - replay.first := by omega
        have place : (replay.events.drop replay.first)[pushed.length]? =
            some event := by
          rw [List.getElem?_drop, count, Nat.add_sub_cancel' above, selected]
        change (pushed ++ [order]).map _ = (messagesOf
          ((replay.events.drop replay.first).take
            (pushed ++ [order]).length)).map _
        rw [longer, List.take_add_one, place, messagesOf, List.map_append,
          List.map_append, List.map_append, content count, messagesOf]
        exact congrArg (_ ++ [·]) message

/-- A phase that has dropped nothing has pushed all of its messages. -/
theorem Replays.whole (replays : Replays replay thread pushed)
    (small : replay.last - replay.first < 2 ^ 64)
    (returned : thread.point = .returned)
    (kept : thread.result.dropped = 0) :
    pushed.map Order.unstamped =
      (messagesOf replay.window).map Order.unstamped := by
  obtain ⟨_, few, dropped, content⟩ := replays
  rw [returned, passed] at few dropped content
  rw [kept] at dropped
  have fits : replay.last - replay.first - pushed.length < UInt64.size :=
    lt_of_le_of_lt (Nat.sub_le _ _) small
  have none := congrArg UInt64.toNat dropped
  rw [UInt64.toNat_ofNat_of_lt' fits] at none
  have all : pushed.length = replay.last - replay.first := by
    change 0 = _ at none
    omega
  rw [content all, all, Replay.window]

end ReplayThread

end Hydra
