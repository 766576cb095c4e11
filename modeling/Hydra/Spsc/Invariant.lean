import Hydra.Spsc.Shared

/-!
# What the two threads can rely on

The producer owns the slot behind the items, the consumer the first item, and
a counter that is older than the current one is still safe to act on.
-/

namespace Hydra

variable {width : Nat} {Word : Type} {capacity : Capacity}

/-- The values that a counter has had before it reached `position`. -/
def counters (position : Nat) : List UInt64 :=
  (List.range (position + 1)).map .ofNat

theorem counters_succ (position : Nat) :
    counters (position + 1) =
      counters position ++ [.ofNat (position + 1)] := by
  rw [counters, List.range_succ, List.map_append]
  rfl

theorem counters_published {position place : Nat} {counter : UInt64}
    (published : (counters position)[place]? = some counter) :
    ∃ earlier, earlier ≤ position ∧ counter = .ofNat earlier := by
  have member := List.mem_of_getElem? published
  obtain ⟨earlier, inside, equality⟩ := List.mem_map.mp member
  exact ⟨earlier, Nat.le_of_lt_succ (List.mem_range.mp inside),
    equality.symm⟩

/-- What the producer knows, with `waiting` items in the queue.  While it
writes, the slot behind these items is its own. -/
def Producer.Sound (queue : SpscQueue (Words width Word) capacity)
    (waiting : Nat) : Producer width Word → Prop
  | idle => True
  | loaded _ tail => tail = queue.tail
  | writing item tail pending =>
      tail = queue.tail ∧ waiting < capacity.size ∧
        ∀ word, word ∉ pending →
          queue.buffer (capacity.slotOf queue.tail) word = item word

/-- What the consumer knows.  While it copies, the first item stays where it
is. -/
def Consumer.Sound (head : UInt64) (waiting : List (Words width Word)) :
    Consumer width Word → Prop
  | idle => True
  | loaded _ loadedHead => loadedHead = head
  | copying out loadedHead pending =>
      loadedHead = head ∧ ∃ item rest, waiting = item :: rest ∧
        ∀ word, word ∉ pending → out word = item word

/-- The queue holds the items that are pushed and not yet popped. -/
structure SharedQueue.Sound (state : SharedQueue width Word capacity)
    (first : Nat) (waiting : List (Words width Word)) : Prop where
  holds : state.queue.Holds first waiting
  tails : state.tails = counters (first + waiting.length)
  heads : state.heads = counters first
  producer : state.producer.Sound state.queue waiting.length
  consumer : state.consumer.Sound state.queue.head waiting

section Steps

variable {state next : SharedQueue width Word capacity} {first : Nat}
variable {item out : Words width Word} {waiting : List (Words width Word)}
variable {head tail : UInt64} {place : Nat} {word : Fin width}
variable {pending : Finset (Fin width)}

/-- However old the head is that the producer has loaded, a slot is free. -/
theorem SharedQueue.Sound.free (sound : state.Sound first waiting)
    (small : first + waiting.length < 2 ^ 64)
    (published : state.heads[place]? = some head)
    (room : state.queue.tail - head < capacity.word) :
    waiting.length < capacity.size := by
  rw [sound.heads] at published
  obtain ⟨earlier, before, rfl⟩ := counters_published published
  rw [sound.holds.tail, counter_sub_lt (by omega) small] at room
  omega

/-- However old the tail is that the consumer has loaded, an item is there. -/
theorem SharedQueue.Sound.nonempty (sound : state.Sound first waiting)
    (small : first + waiting.length < 2 ^ 64)
    (published : state.tails[place]? = some tail)
    (ready : state.queue.head < tail) :
    ∃ item rest, waiting = item :: rest := by
  rw [sound.tails] at published
  obtain ⟨earlier, before, rfl⟩ := counters_published published
  rw [sound.holds.head, counter_lt (by omega) (by omega)] at ready
  cases waiting with
  | nil =>
      rw [List.length_nil] at before
      omega
  | cons item rest => exact ⟨item, rest, rfl⟩

theorem SharedQueue.Sound.pushStart (sound : state.Sound first waiting)
    (item : Words width Word) :
    SharedQueue.Sound
      { state with producer := .loaded item state.queue.tail }
      first waiting where
  holds := sound.holds
  tails := sound.tails
  heads := sound.heads
  producer := rfl
  consumer := sound.consumer

theorem SharedQueue.Sound.pushRefuse (sound : state.Sound first waiting)
    (place : Nat) :
    SharedQueue.Sound { state with headSeen := place, producer := .idle }
      first waiting where
  holds := sound.holds
  tails := sound.tails
  heads := sound.heads
  producer := trivial
  consumer := sound.consumer

theorem SharedQueue.Sound.pushAdmit (sound : state.Sound first waiting)
    (small : first + waiting.length < 2 ^ 64)
    (loaded : state.producer = .loaded item tail)
    (published : state.heads[place]? = some head)
    (room : tail - head < capacity.word) :
    SharedQueue.Sound
      { state with
        headSeen := place
        producer := .writing item tail Finset.univ }
      first waiting where
  holds := sound.holds
  tails := sound.tails
  heads := sound.heads
  producer := by
    have producer := sound.producer
    rw [loaded] at producer
    have current : tail = state.queue.tail := producer
    subst current
    refine ⟨rfl, sound.free small published room, ?_⟩
    intro word written
    exact absurd (Finset.mem_univ word) written
  consumer := sound.consumer

theorem SharedQueue.Sound.pushWrite (sound : state.Sound first waiting)
    (small : first + waiting.length < 2 ^ 64)
    (writing : state.producer = .writing item tail pending) :
    SharedQueue.Sound
      { state with
        queue := state.queue.writeWord (capacity.slotOf tail) word (item word)
        producer := .writing item tail (pending.erase word) }
      first waiting := by
  have producer := sound.producer
  rw [writing] at producer
  obtain ⟨current, free, written⟩ := producer
  subst current
  constructor
  case holds => exact sound.holds.overwrite free small _
  case tails => exact sound.tails
  case heads => exact sound.heads
  case consumer => exact sound.consumer
  case producer =>
    refine ⟨rfl, free, ?_⟩
    intro other absent
    change (state.queue.writeWord (capacity.slotOf state.queue.tail) word
      (item word)).buffer (capacity.slotOf state.queue.tail) other = item other
    by_cases same : other = word
    · rw [same, SpscQueue.writeWord_self]
    · rw [SpscQueue.writeWord_of_ne _ _ _ same]
      apply written
      intro member
      exact absent (Finset.mem_erase.mpr ⟨same, member⟩)

theorem SharedQueue.Sound.pushDone (sound : state.Sound first waiting)
    (small : first + waiting.length < 2 ^ 64)
    (writing : state.producer = .writing item tail ∅) :
    SharedQueue.Sound
      { state with
        queue := { state.queue with tail := tail + 1 }
        tails := state.tails ++ [tail + 1]
        producer := .idle }
      first (waiting ++ [item]) := by
  have producer := sound.producer
  rw [writing] at producer
  obtain ⟨current, free, written⟩ := producer
  subst current
  have stored : state.queue.buffer (capacity.slotOf state.queue.tail) = item :=
    funext (fun word => written word (Finset.notMem_empty word))
  constructor
  case holds => exact sound.holds.publish free small stored
  case tails =>
    change state.tails ++ [state.queue.tail + 1] = _
    rw [sound.tails, sound.holds.tail, counter_succ, List.length_append,
      ← counters_succ]
    rfl
  case heads => exact sound.heads
  case producer => trivial
  case consumer =>
    have consumer := sound.consumer
    change state.consumer.Sound state.queue.head (waiting ++ [item])
    cases at_consumer : state.consumer with
    | idle => trivial
    | loaded out head =>
        rw [at_consumer] at consumer
        exact consumer
    | copying out head pending =>
        rw [at_consumer] at consumer
        obtain ⟨current, front, rest, rfl, copied⟩ := consumer
        exact ⟨current, front, rest ++ [item], rfl, copied⟩

theorem SharedQueue.Sound.popStart (sound : state.Sound first waiting)
    (out : Words width Word) :
    SharedQueue.Sound
      { state with consumer := .loaded out state.queue.head }
      first waiting where
  holds := sound.holds
  tails := sound.tails
  heads := sound.heads
  producer := sound.producer
  consumer := rfl

theorem SharedQueue.Sound.popRefuse (sound : state.Sound first waiting)
    (place : Nat) :
    SharedQueue.Sound { state with tailSeen := place, consumer := .idle }
      first waiting where
  holds := sound.holds
  tails := sound.tails
  heads := sound.heads
  producer := sound.producer
  consumer := trivial

theorem SharedQueue.Sound.popAdmit (sound : state.Sound first waiting)
    (small : first + waiting.length < 2 ^ 64)
    (loaded : state.consumer = .loaded out head)
    (published : state.tails[place]? = some tail)
    (ready : head < tail) :
    SharedQueue.Sound
      { state with
        tailSeen := place
        consumer := .copying out head Finset.univ }
      first waiting where
  holds := sound.holds
  tails := sound.tails
  heads := sound.heads
  producer := sound.producer
  consumer := by
    have consumer := sound.consumer
    rw [loaded] at consumer
    have current : head = state.queue.head := consumer
    subst current
    obtain ⟨item, rest, equality⟩ := sound.nonempty small published ready
    refine ⟨rfl, item, rest, equality, ?_⟩
    intro word copied
    exact absurd (Finset.mem_univ word) copied

theorem SharedQueue.Sound.popRead (sound : state.Sound first waiting)
    (small : first + waiting.length < 2 ^ 64)
    (copying : state.consumer = .copying out head pending) :
    SharedQueue.Sound
      { state with
        consumer := .copying
          (Function.update out word
            (state.queue.buffer (capacity.slotOf head) word))
          head (pending.erase word) }
      first waiting where
  holds := sound.holds
  tails := sound.tails
  heads := sound.heads
  producer := sound.producer
  consumer := by
    have consumer := sound.consumer
    rw [copying] at consumer
    obtain ⟨current, item, rest, rfl, copied⟩ := consumer
    subst current
    refine ⟨rfl, item, rest, rfl, ?_⟩
    intro other absent
    by_cases same : other = word
    · rw [same, Function.update_self, sound.holds.front (by omega)]
    · rw [Function.update_of_ne same]
      apply copied
      intro member
      exact absent (Finset.mem_erase.mpr ⟨same, member⟩)

theorem SharedQueue.Sound.popDone (sound : state.Sound first waiting)
    (copying : state.consumer = .copying out head ∅) :
    ∃ rest, waiting = out :: rest ∧
      SharedQueue.Sound
        { state with
          queue := { state.queue with head := head + 1 }
          heads := state.heads ++ [head + 1]
          consumer := .idle }
        (first + 1) rest := by
  have consumer := sound.consumer
  rw [copying] at consumer
  obtain ⟨current, item, rest, rfl, copied⟩ := consumer
  subst current
  have whole : out = item :=
    funext (fun word => copied word (Finset.notMem_empty word))
  subst whole
  refine ⟨rest, rfl, ?_⟩
  constructor
  case holds => exact sound.holds.release
  case tails =>
    have position : first + (out :: rest).length =
        first + 1 + rest.length := by
      rw [List.length_cons]
      omega
    change state.tails = _
    rw [sound.tails, position]
  case heads =>
    change state.heads ++ [state.queue.head + 1] = _
    rw [sound.heads, sound.holds.head, counter_succ, ← counters_succ]
  case producer =>
    have producer := sound.producer
    cases at_producer : state.producer with
    | idle => trivial
    | loaded item tail =>
        rw [at_producer] at producer
        exact producer
    | writing item tail pending =>
        rw [at_producer] at producer
        obtain ⟨current, free, written⟩ := producer
        exact ⟨current, Nat.lt_of_succ_lt free, written⟩
  case consumer => trivial

end Steps

/-- A step moves items into the queue and out of it, in order. -/
theorem SharedQueue.Step.sound {state next : SharedQueue width Word capacity}
    {event : QueueEvent width Word} {first : Nat}
    {waiting : List (Words width Word)}
    (taken : SharedQueue.Step state event next)
    (sound : state.Sound first waiting)
    (small : first + waiting.length < 2 ^ 64) :
    ∃ rest, waiting ++ event.pushed = event.popped ++ rest ∧
      next.Sound (first + event.popped.length) rest := by
  cases taken with
  | pushStart item idle =>
      exact ⟨waiting, List.append_nil _, sound.pushStart item⟩
  | pushRefuse loaded published fresh full =>
      exact ⟨waiting, List.append_nil _, sound.pushRefuse _⟩
  | pushAdmit loaded published fresh room =>
      exact ⟨waiting, List.append_nil _,
        sound.pushAdmit small loaded published room⟩
  | pushWrite writing left =>
      exact ⟨waiting, List.append_nil _, sound.pushWrite small writing⟩
  | @pushDone item tail writing =>
      exact ⟨waiting ++ [item], rfl, sound.pushDone small writing⟩
  | popStart out idle =>
      exact ⟨waiting, List.append_nil _, sound.popStart out⟩
  | popRefuse loaded published fresh empty =>
      exact ⟨waiting, List.append_nil _, sound.popRefuse _⟩
  | popAdmit loaded published fresh ready =>
      exact ⟨waiting, List.append_nil _,
        sound.popAdmit small loaded published ready⟩
  | popRead copying left =>
      exact ⟨waiting, List.append_nil _, sound.popRead small copying⟩
  | popDone copying =>
      obtain ⟨rest, rfl, next⟩ := sound.popDone copying
      exact ⟨rest, List.append_nil _, next⟩

section Runs

variable [Inhabited Word]
variable {state : SharedQueue width Word capacity}
variable {history : QueueHistory width Word}

theorem SharedQueue.initial_sound :
    (SharedQueue.initial : SharedQueue width Word capacity).Sound 0 [] where
  holds := SpscQueue.empty_holds
  tails := rfl
  heads := rfl
  producer := trivial
  consumer := trivial

/-- While the tail counter does not wrap, the queue holds what has been pushed
and not yet popped. -/
theorem SharedQueue.recorded_sound
    (reachable :
      (SharedQueue.recorded width Word capacity).Reachable (state, history))
    (few : history.pushed.length < 2 ^ 64) :
    ∃ waiting, history.pushed = history.popped ++ waiting ∧
      state.Sound history.popped.length waiting := by
  refine Machine.Reachable.invariant
    (fun recorded => recorded.2.pushed.length < 2 ^ 64 →
      ∃ waiting, recorded.2.pushed = recorded.2.popped ++ waiting ∧
        recorded.1.Sound recorded.2.popped.length waiting)
    ?_ ?_ reachable few
  · intro recorded start few
    obtain ⟨fresh, empty⟩ := start
    refine ⟨[], ?_, ?_⟩
    · rw [empty]
      rfl
    · rw [show recorded.1 = SharedQueue.initial from fresh, empty]
      exact initial_sound
  · intro recorded event next held taken few
    obtain ⟨step, record⟩ := taken
    rw [record] at few ⊢
    have small : recorded.2.pushed.length < 2 ^ 64 := by
      apply Nat.lt_of_le_of_lt _ few
      exact (List.prefix_append _ _).length_le
    obtain ⟨waiting, accounted, sound⟩ := held small
    rw [accounted, List.length_append] at small
    obtain ⟨rest, moved, sound⟩ := step.sound sound small
    refine ⟨rest, ?_, ?_⟩
    · change recorded.2.pushed ++ event.pushed =
        recorded.2.popped ++ event.popped ++ rest
      rw [accounted, List.append_assoc, moved, List.append_assoc]
    · change next.1.Sound (recorded.2.popped ++ event.popped).length rest
      rw [List.length_append]
      exact sound

end Runs

end Hydra
