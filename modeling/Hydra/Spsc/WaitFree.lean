import Hydra.Spsc.Invariant
import Mathlib.Data.Finset.Card
import Mathlib.Data.Fintype.Card

/-!
# Calls that end, and calls that fail

A call of the queue takes a bounded number of steps of its own thread, and none
of them waits for the other thread, wherever that one stands.  A call fails if
the other thread has not come far enough by the last time that it was looked
at, even if it has come far enough by now.
-/

namespace Hydra

variable {width : Nat} {Word : Type} {capacity : Capacity}

/-- How many steps the call has left at most. -/
def Producer.left : Producer width Word → Nat
  | idle => 0
  | loaded _ _ => width + 2
  | writing _ _ pending => pending.card + 1

def Consumer.left : Consumer width Word → Nat
  | idle => 0
  | loaded _ _ => width + 2
  | copying _ _ pending => pending.card + 1

theorem Producer.left_write {item : Words width Word} {tail : UInt64}
    {pending : Finset (Fin width)} {word : Fin width} (left : word ∈ pending) :
    (Producer.writing item tail (pending.erase word)).left + 1 =
      (Producer.writing item tail pending).left :=
  congrArg Nat.succ (Finset.card_erase_add_one left)

theorem Consumer.left_read {out other : Words width Word} {head : UInt64}
    {pending : Finset (Fin width)} {word : Fin width} (left : word ∈ pending) :
    (Consumer.copying out head (pending.erase word)).left + 1 =
      (Consumer.copying other head pending).left :=
  congrArg Nat.succ (Finset.card_erase_add_one left)

theorem Producer.left_admit (item : Words width Word) (tail : UInt64) :
    (Producer.writing item tail Finset.univ).left + 1 =
      (Producer.loaded item tail).left := by
  rw [left, left, Finset.card_univ, Fintype.card_fin]

theorem Consumer.left_admit (out : Words width Word) (head : UInt64) :
    (Consumer.copying out head Finset.univ).left + 1 =
      (Consumer.loaded out head).left := by
  rw [left, left, Finset.card_univ, Fintype.card_fin]

namespace SharedQueue

/-- How many steps the call of a thread has left at most; none if it is not
inside a call. -/
def left (state : SharedQueue width Word capacity) : QueueThread → Nat
  | .producer => state.producer.left
  | .consumer => state.consumer.left

end SharedQueue

/-- How many steps a thread has taken in its last call. -/
def QueueEvent.pace (event : QueueEvent width Word)
    (steps : QueueThread → Nat) : QueueThread → Nat
  | .producer =>
      match event with
      | pushStart => 1
      | pushRefuse _ _ | pushAdmit _ | pushWrite | pushDone _ =>
          steps .producer + 1
      | popStart | popRefuse _ | popAdmit _ | popRead | popDone _ =>
          steps .producer
  | .consumer =>
      match event with
      | popStart => 1
      | popRefuse _ | popAdmit _ | popRead | popDone _ => steps .consumer + 1
      | pushStart | pushRefuse _ _ | pushAdmit _ | pushWrite | pushDone _ =>
          steps .consumer

namespace SharedQueue

/-- The threads, with the numbers of their steps. -/
def paced (width : Nat) (Word : Type) [Inhabited Word]
    (capacity : Capacity) :
    Machine (SharedQueue width Word capacity × (QueueThread → Nat))
      (QueueEvent width Word) :=
  (SharedQueue.machine width Word capacity).withGhost (fun _ => 0)
    fun _ event _ steps => event.pace steps

variable {state next : SharedQueue width Word capacity}
variable {event : QueueEvent width Word} {steps : QueueThread → Nat}

/-- The values that the threads have seen are among those that were stored. -/
def Seen (state : SharedQueue width Word capacity) : Prop :=
  state.headSeen < state.heads.length ∧ state.tailSeen < state.tails.length

theorem Step.seen (taken : Step state event next) (seen : state.Seen) :
    next.Seen := by
  obtain ⟨heads, tails⟩ := seen
  cases taken with
  | pushRefuse loaded published | pushAdmit loaded published =>
      exact ⟨(List.getElem?_eq_some_iff.mp published).1, tails⟩
  | popRefuse loaded published | popAdmit loaded published =>
      exact ⟨heads, (List.getElem?_eq_some_iff.mp published).1⟩
  | pushDone =>
      refine ⟨heads, ?_⟩
      rw [List.length_append]
      exact Nat.lt_add_right 1 tails
  | popDone =>
      refine ⟨?_, tails⟩
      rw [List.length_append]
      exact Nat.lt_add_right 1 heads
  | pushStart | pushWrite | popStart | popRead => exact ⟨heads, tails⟩

theorem seen [Inhabited Word]
    (reachable : (SharedQueue.machine width Word capacity).Reachable state) :
    state.Seen := by
  refine Machine.Reachable.invariant Seen ?_ ?_ reachable
  · rintro _ rfl
    exact ⟨Nat.one_pos, Nat.one_pos⟩
  · intro state event next held taken
    exact taken.seen held

/-- No call has more steps than these. -/
def limit (width : Nat) : Nat := width + 3

/-- A step of a call leaves fewer of them, and a step of the other thread as
many as before. -/
theorem Step.left (taken : Step state event next) (thread : QueueThread) :
    (event.thread ≠ thread ∧ next.left thread = state.left thread) ∨
      (event.thread = thread ∧
        (event.Starts ∧ next.left thread = width + 2 ∨
          ¬ event.Starts ∧ next.left thread < state.left thread)) := by
  cases taken with
  | pushStart =>
      cases thread with
      | producer => exact .inr ⟨rfl, .inl ⟨trivial, rfl⟩⟩
      | consumer => exact .inl ⟨nofun, rfl⟩
  | popStart =>
      cases thread with
      | producer => exact .inl ⟨nofun, rfl⟩
      | consumer => exact .inr ⟨rfl, .inl ⟨trivial, rfl⟩⟩
  | pushRefuse loaded =>
      cases thread with
      | producer =>
          refine .inr ⟨rfl, .inr ⟨id, ?_⟩⟩
          rw [SharedQueue.left, SharedQueue.left, loaded]
          exact Nat.succ_pos _
      | consumer => exact .inl ⟨nofun, rfl⟩
  | pushAdmit loaded =>
      cases thread with
      | producer =>
          refine .inr ⟨rfl, .inr ⟨id, ?_⟩⟩
          rw [SharedQueue.left, SharedQueue.left, loaded]
          exact (Producer.left_admit _ _).le
      | consumer => exact .inl ⟨nofun, rfl⟩
  | pushWrite writing left =>
      cases thread with
      | producer =>
          refine .inr ⟨rfl, .inr ⟨id, ?_⟩⟩
          rw [SharedQueue.left, SharedQueue.left, writing]
          exact (Producer.left_write left).le
      | consumer => exact .inl ⟨nofun, rfl⟩
  | pushDone writing =>
      cases thread with
      | producer =>
          refine .inr ⟨rfl, .inr ⟨id, ?_⟩⟩
          rw [SharedQueue.left, SharedQueue.left, writing]
          exact Nat.succ_pos _
      | consumer => exact .inl ⟨nofun, rfl⟩
  | popRefuse loaded =>
      cases thread with
      | producer => exact .inl ⟨nofun, rfl⟩
      | consumer =>
          refine .inr ⟨rfl, .inr ⟨id, ?_⟩⟩
          rw [SharedQueue.left, SharedQueue.left, loaded]
          exact Nat.succ_pos _
  | popAdmit loaded =>
      cases thread with
      | producer => exact .inl ⟨nofun, rfl⟩
      | consumer =>
          refine .inr ⟨rfl, .inr ⟨id, ?_⟩⟩
          rw [SharedQueue.left, SharedQueue.left, loaded]
          exact (Consumer.left_admit _ _).le
  | popRead copying left =>
      cases thread with
      | producer => exact .inl ⟨nofun, rfl⟩
      | consumer =>
          refine .inr ⟨rfl, .inr ⟨id, ?_⟩⟩
          rw [SharedQueue.left, SharedQueue.left, copying]
          exact (Consumer.left_read left).le
  | popDone copying =>
      cases thread with
      | producer => exact .inl ⟨nofun, rfl⟩
      | consumer =>
          refine .inr ⟨rfl, .inr ⟨id, ?_⟩⟩
          rw [SharedQueue.left, SharedQueue.left, copying]
          exact Nat.succ_pos _

end SharedQueue

namespace QueueEvent

variable {event : QueueEvent width Word} {steps : QueueThread → Nat}
variable {thread : QueueThread}

theorem pace_other (other : event.thread ≠ thread) :
    event.pace steps thread = steps thread := by
  cases thread <;> cases event <;> first | rfl | exact absurd rfl other

theorem pace_start (own : event.thread = thread) (starts : event.Starts) :
    event.pace steps thread = 1 := by
  cases thread <;> cases event <;>
    first | rfl | exact starts.elim | exact absurd own nofun

theorem pace_own (own : event.thread = thread) (later : ¬ event.Starts) :
    event.pace steps thread = steps thread + 1 := by
  cases thread <;> cases event <;>
    first | rfl | exact absurd trivial later | exact absurd own nofun

end QueueEvent

namespace SharedQueue

variable {state next : SharedQueue width Word capacity}
variable {event : QueueEvent width Word} {steps : QueueThread → Nat}

theorem Step.pace (taken : Step state event next)
    (within : ∀ thread, steps thread + state.left thread ≤ limit width)
    (thread : QueueThread) :
    event.pace steps thread + next.left thread ≤ limit width := by
  have earlier := within thread
  rcases taken.left thread with ⟨other, same⟩ | ⟨own, ⟨starts, all⟩ |
    ⟨later, fewer⟩⟩
  · rw [QueueEvent.pace_other other, same]
    exact earlier
  · rw [QueueEvent.pace_start own starts, all, limit]
    omega
  · rw [QueueEvent.pace_own own later]
    omega

theorem exists_step (seen : state.Seen) {thread : QueueThread}
    (inside : state.left thread ≠ 0) :
    ∃ event next, Step state event next ∧ event.thread = thread ∧
      ¬ event.Starts := by
  obtain ⟨heads, tails⟩ := seen
  cases thread with
  | producer =>
      cases at_producer : state.producer with
      | idle =>
          rw [left, at_producer] at inside
          exact absurd rfl inside
      | loaded item tail =>
          have published := List.getElem?_eq_getElem heads
          by_cases room : tail - state.heads[state.headSeen] < capacity.word
          · exact ⟨_, _, .pushAdmit at_producer published le_rfl room, rfl, id⟩
          · exact ⟨_, _, .pushRefuse at_producer published le_rfl room, rfl, id⟩
      | writing item tail pending =>
          rcases pending.eq_empty_or_nonempty with rfl | ⟨word, left⟩
          · exact ⟨_, _, .pushDone at_producer, rfl, id⟩
          · exact ⟨_, _, .pushWrite at_producer left, rfl, id⟩
  | consumer =>
      cases at_consumer : state.consumer with
      | idle =>
          rw [left, at_consumer] at inside
          exact absurd rfl inside
      | loaded out head =>
          have published := List.getElem?_eq_getElem tails
          by_cases ready : head < state.tails[state.tailSeen]
          · exact ⟨_, _, .popAdmit at_consumer published le_rfl ready, rfl, id⟩
          · exact ⟨_, _, .popRefuse at_consumer published le_rfl ready, rfl, id⟩
      | copying out head pending =>
          rcases pending.eq_empty_or_nonempty with rfl | ⟨word, left⟩
          · exact ⟨_, _, .popDone at_consumer, rfl, id⟩
          · exact ⟨_, _, .popRead at_consumer left, rfl, id⟩

/-- The queue is wait-free: in no run does a call take more than `width + 3`
steps of its own thread, a thread inside a call can take the next step of it
wherever the other thread stands, and no step of the other one puts it back. -/
theorem wait_free [Inhabited Word]
    (reachable : (paced width Word capacity).Reachable (state, steps))
    (thread : QueueThread) :
    steps thread + state.left thread ≤ width + 3 ∧
      (state.left thread ≠ 0 → ∃ event next, Step state event next ∧
        event.thread = thread ∧ ¬ event.Starts) ∧
      ∀ event next, Step state event next → event.thread ≠ thread →
        next.left thread = state.left thread := by
  have within : ∀ thread, steps thread + state.left thread ≤ limit width := by
    refine Machine.Reachable.ghost_invariant
      (fun state steps =>
        ∀ thread, steps thread + state.left thread ≤ limit width)
      ?_ ?_ reachable
    · rintro _ rfl
      intro thread
      cases thread <;> exact Nat.zero_le _
    · intro state steps event next held taken
      exact taken.pace held
  have seen := SharedQueue.seen reachable.of_withGhost
  refine ⟨within thread, exists_step seen, ?_⟩
  intro event next taken other
  rcases taken.left thread with ⟨_, same⟩ | ⟨own, _⟩
  · exact same
  · exact absurd own other

theorem paced_step [Inhabited Word]
    (reachable : (paced width Word capacity).Reachable (state, steps))
    (taken : Step state event next) :
    (paced width Word capacity).Reachable (next, event.pace steps) :=
  .step reachable ⟨taken, rfl⟩

/-- A push and a pop have both begun. -/
theorem wait_free_meeting :
    ∃ (state : SharedQueue 1 Nat ⟨1, by decide⟩) (steps : QueueThread → Nat),
      (paced 1 Nat ⟨1, by decide⟩).Reachable (state, steps) ∧
      state.left .producer ≠ 0 ∧ state.left .consumer ≠ 0 ∧
      ∃ event next, Step state event next ∧ event.thread = .consumer ∧
        ¬ event.Starts := by
  have start : (paced 1 Nat ⟨1, by decide⟩).Reachable
      (initial, fun _ => 0) := .initial ⟨rfl, rfl⟩
  have pushing := paced_step start (.pushStart (fun _ => 7) rfl)
  have popping := paced_step pushing (.popStart (fun _ => 0) rfl)
  exact ⟨_, _, popping, nofun, nofun,
    (wait_free popping .consumer).2.1 nofun⟩

theorem counters_get {position place : Nat} {counter : UInt64} :
    (counters position)[place]? = some counter ↔
      place ≤ position ∧ counter = .ofNat place := by
  rw [counters, List.getElem?_map, Option.map_eq_some_iff]
  constructor
  · rintro ⟨value, found, rfl⟩
    obtain ⟨inside, same⟩ := List.getElem?_eq_some_iff.mp found
    rw [List.length_range] at inside
    rw [List.getElem_range] at same
    exact ⟨Nat.le_of_lt_succ inside, congrArg _ same.symm⟩
  · rintro ⟨within, rfl⟩
    exact ⟨place, List.getElem?_range (Nat.lt_succ_of_le within), rfl⟩

section Refusals

variable {first : Nat} {item out : Words width Word} {head tail : UInt64}
variable {waiting : List (Words width Word)}

/-- A push can fail if the queue was full at the place that the producer has
last seen. -/
theorem Sound.refuses_iff (sound : state.Sound first waiting)
    (seen : state.Seen) (small : first + waiting.length < 2 ^ 64)
    (loaded : state.producer = .loaded item tail) :
    (∃ head next, Step state (.pushRefuse item head) next) ↔
      state.headSeen + capacity.size ≤ first + waiting.length := by
  have current := sound.producer
  rw [loaded] at current
  have tailEq : tail = .ofNat (first + waiting.length) :=
    Eq.trans current sound.holds.tail
  have headsSeen := seen.1
  rw [sound.heads, counters, List.length_map, List.length_range] at headsSeen
  have full : ∀ place ≤ first, ¬ tail - UInt64.ofNat place < capacity.word ↔
      place + capacity.size ≤ first + waiting.length := by
    intro place within
    rw [tailEq, counter_sub_lt (by omega) small]
    exact Nat.not_lt
  constructor
  · rintro ⟨head, next, taken⟩
    cases taken with
    | pushRefuse at_producer published fresh refused =>
        rw [loaded] at at_producer
        cases at_producer
        rw [sound.heads] at published
        obtain ⟨within, rfl⟩ := counters_get.mp published
        exact (Nat.add_le_add_right fresh _).trans
          ((full _ within).mp refused)
  · intro reached
    have within : state.headSeen ≤ first := Nat.le_of_lt_succ headsSeen
    have published : state.heads[state.headSeen]? =
        some (UInt64.ofNat state.headSeen) := by
      rw [sound.heads]
      exact counters_get.mpr ⟨within, rfl⟩
    exact ⟨_, _, .pushRefuse loaded published le_rfl
      ((full _ within).mpr reached)⟩

/-- A push can go on if the queue is not full. -/
theorem Sound.admits_iff (sound : state.Sound first waiting)
    (seen : state.Seen) (small : first + waiting.length < 2 ^ 64)
    (loaded : state.producer = .loaded item tail) :
    (∃ head next, Step state (.pushAdmit head) next) ↔
      waiting.length < capacity.size := by
  have current := sound.producer
  rw [loaded] at current
  have tailEq : tail = state.queue.tail := current
  have headsSeen := seen.1
  rw [sound.heads, counters, List.length_map, List.length_range] at headsSeen
  constructor
  · rintro ⟨head, next, taken⟩
    cases taken with
    | pushAdmit at_producer published fresh room =>
        rw [loaded] at at_producer
        cases at_producer
        rw [tailEq] at room
        exact sound.free small published room
  · intro free
    have published : state.heads[first]? = some (UInt64.ofNat first) := by
      rw [sound.heads]
      exact counters_get.mpr ⟨le_rfl, rfl⟩
    refine ⟨_, _, .pushAdmit loaded published
      (Nat.le_of_lt_succ headsSeen) ?_⟩
    rw [tailEq, sound.holds.tail, counter_sub_lt (by omega) small]
    omega

/-- A pop can fail if the queue was empty at the place that the consumer has
last seen. -/
theorem Sound.starves_iff (sound : state.Sound first waiting)
    (seen : state.Seen) (small : first + waiting.length < 2 ^ 64)
    (loaded : state.consumer = .loaded out head) :
    (∃ tail next, Step state (.popRefuse tail) next) ↔
      state.tailSeen ≤ first := by
  have current := sound.consumer
  rw [loaded] at current
  have headEq : head = .ofNat first := Eq.trans current sound.holds.head
  have tailsSeen := seen.2
  rw [sound.tails, counters, List.length_map, List.length_range] at tailsSeen
  have empty : ∀ place ≤ first + waiting.length,
      ¬ head < UInt64.ofNat place ↔ place ≤ first := by
    intro place within
    rw [headEq, counter_lt (by omega) (by omega)]
    exact Nat.not_lt
  constructor
  · rintro ⟨tail, next, taken⟩
    cases taken with
    | popRefuse at_consumer published fresh refused =>
        rw [sound.tails] at published
        obtain ⟨within, rfl⟩ := counters_get.mp published
        rw [loaded] at at_consumer
        cases at_consumer
        exact fresh.trans ((empty _ within).mp refused)
  · intro reached
    have within : state.tailSeen ≤ first + waiting.length :=
      Nat.le_of_lt_succ tailsSeen
    have published : state.tails[state.tailSeen]? =
        some (UInt64.ofNat state.tailSeen) := by
      rw [sound.tails]
      exact counters_get.mpr ⟨within, rfl⟩
    exact ⟨_, _, .popRefuse loaded published le_rfl
      ((empty _ within).mpr reached)⟩

theorem Sound.feeds_iff (sound : state.Sound first waiting)
    (seen : state.Seen) (small : first + waiting.length < 2 ^ 64)
    (loaded : state.consumer = .loaded out head) :
    (∃ tail next, Step state (.popAdmit tail) next) ↔ waiting ≠ [] := by
  have current := sound.consumer
  rw [loaded] at current
  have headEq : head = state.queue.head := current
  have tailsSeen := seen.2
  rw [sound.tails, counters, List.length_map, List.length_range] at tailsSeen
  constructor
  · rintro ⟨tail, next, taken⟩
    cases taken with
    | popAdmit at_consumer published fresh ready =>
        rw [loaded] at at_consumer
        cases at_consumer
        rw [headEq] at ready
        obtain ⟨item, rest, rfl⟩ := sound.nonempty small published ready
        exact List.cons_ne_nil item rest
  · intro holds
    have occupied := List.length_pos_iff.mpr holds
    have published : state.tails[first + waiting.length]? =
        some (UInt64.ofNat (first + waiting.length)) := by
      rw [sound.tails]
      exact counters_get.mpr ⟨le_rfl, rfl⟩
    refine ⟨_, _, .popAdmit loaded published
      (Nat.le_of_lt_succ tailsSeen) ?_⟩
    rw [headEq, sound.holds.head, counter_lt (by omega) small]
    omega

end Refusals

/-- When a call fails, and when it goes on.  The producer acts on the number of
pops that it has seen, or on a later one, and the consumer on that of the
pushes; so a push can fail although there is room, and a pop although there is
an item, until they look again. -/
theorem refusals_exact [Inhabited Word] {history : QueueHistory width Word}
    (reachable :
      (recorded width Word capacity).Reachable (state, history))
    (few : history.pushed.length < 2 ^ 64) :
    state.headSeen ≤ history.popped.length ∧
      state.tailSeen ≤ history.pushed.length ∧
      (∀ item tail, state.producer = .loaded item tail →
        ((∃ head next, Step state (.pushRefuse item head) next) ↔
          state.headSeen + capacity.size ≤ history.pushed.length) ∧
        ((∃ head next, Step state (.pushAdmit head) next) ↔
          history.pushed.length < history.popped.length + capacity.size)) ∧
      ∀ out head, state.consumer = .loaded out head →
        ((∃ tail next, Step state (.popRefuse tail) next) ↔
          state.tailSeen ≤ history.popped.length) ∧
        ((∃ tail next, Step state (.popAdmit tail) next) ↔
          history.popped.length < history.pushed.length) := by
  obtain ⟨waiting, accounted, sound⟩ := recorded_sound reachable few
  have seen := SharedQueue.seen reachable.of_withGhost
  rw [accounted, List.length_append] at few ⊢
  have seenHeads := seen.1
  have seenTails := seen.2
  rw [sound.heads, counters, List.length_map, List.length_range] at seenHeads
  rw [sound.tails, counters, List.length_map, List.length_range] at seenTails
  refine ⟨Nat.le_of_lt_succ seenHeads, Nat.le_of_lt_succ seenTails, ?_, ?_⟩
  · intro item tail loaded
    refine ⟨sound.refuses_iff seen few loaded, ?_⟩
    rw [sound.admits_iff seen few loaded, Nat.add_lt_add_iff_left]
  · intro out head loaded
    refine ⟨sound.starves_iff seen few loaded, ?_⟩
    rw [sound.feeds_iff seen few loaded, ← List.length_pos_iff]
    omega

/-- In a queue with one slot, the only item has been popped, and the producer,
which has not looked since, can still be refused. -/
theorem refusals_exact_stale :
    ∃ (state : SharedQueue 1 Nat ⟨0, by decide⟩) (history : QueueHistory 1 Nat),
      (recorded 1 Nat ⟨0, by decide⟩).Reachable (state, history) ∧
      history.pushed.length = 1 ∧ history.popped.length = 1 ∧
      (∃ head next, Step state (.pushRefuse (fun _ => 8) head) next) ∧
      ∃ head next, Step state (.pushAdmit head) next := by
  have start : (recorded 1 Nat ⟨0, by decide⟩).Reachable
      (initial, .start) := .initial ⟨rfl, rfl⟩
  have loaded := recorded_step start (.pushStart (fun _ => 7) rfl)
  have admitted := recorded_step loaded
    (@Step.pushAdmit _ _ _ _ _ _ 0 _ rfl rfl (Nat.le_refl 0) (by decide))
  have written := recorded_step admitted
    (.pushWrite rfl (Finset.mem_univ 0))
  have done := recorded_step written (@Step.pushDone _ _ _ _ (fun _ => 7) 0 rfl)
  have popping := recorded_step done (.popStart (fun _ => 0) rfl)
  have copying := recorded_step popping
    (@Step.popAdmit _ _ _ _ _ _ 1 _ rfl rfl (Nat.zero_le 1) (by decide))
  have copied := recorded_step copying (.popRead rfl (Finset.mem_univ 0))
  have popped := recorded_step copied (@Step.popDone _ _ _ _ _ 0 rfl)
  have second := recorded_step popped (.pushStart (fun _ => 8) rfl)
  obtain ⟨_, _, pushes, _⟩ := refusals_exact second (by decide)
  obtain ⟨refuses, admits⟩ := pushes (fun _ => 8) 1 rfl
  exact ⟨_, _, second, rfl, rfl, refuses.mpr (by decide),
    admits.mpr (by decide)⟩

end SharedQueue

end Hydra
