import Hydra.Library.Machine
import Hydra.Spsc.Queue
import Mathlib.Data.Finset.Basic
import Mathlib.Data.Fintype.Basic

/-!
# The queue, shared by two threads

One thread pushes and another one pops.  A call is split into its atomic steps:
the load of the own counter, the load of the other counter, the accesses to the
slot and the store of the own counter.  An item is copied word by word, in any
order, so that a torn item could be seen.  A load of the other counter returns
any value that the other thread has published, but none older than one that
the loading thread has seen.
-/

namespace Hydra

/-- An item as its machine words. -/
abbrev Words (width : Nat) (Word : Type) := Fin width → Word

variable {width : Nat} {Word : Type} {capacity : Capacity}

/-- The progress of the producer through `push`. -/
inductive Producer (width : Nat) (Word : Type) where
  | idle
  | loaded (item : Words width Word) (tail : UInt64)
  /-- `pending` are the words that are not yet written. -/
  | writing (item : Words width Word) (tail : UInt64)
      (pending : Finset (Fin width))

/-- The progress of the consumer through `pop`. -/
inductive Consumer (width : Nat) (Word : Type) where
  | idle
  | loaded (out : Words width Word) (head : UInt64)
  /-- `pending` are the words that are not yet read. -/
  | copying (out : Words width Word) (head : UInt64)
      (pending : Finset (Fin width))

/-- The queue and the progress of its two threads. -/
structure SharedQueue (width : Nat) (Word : Type) (capacity : Capacity) where
  queue : SpscQueue (Words width Word) capacity
  /-- The values of the tail counter, in the order of their stores. -/
  tails : List UInt64
  /-- The values of the head counter, in the order of their stores. -/
  heads : List UInt64
  /-- The place in `tails` of the last value that the consumer has seen. -/
  tailSeen : Nat
  /-- The place in `heads` of the last value that the producer has seen. -/
  headSeen : Nat
  producer : Producer width Word
  consumer : Consumer width Word

/-- The atomic steps of both calls, with what the threads see in them. -/
inductive QueueEvent (width : Nat) (Word : Type) where
  | pushStart
  | pushRefuse (item : Words width Word) (head : UInt64)
  | pushAdmit (head : UInt64)
  | pushWrite
  | pushDone (item : Words width Word)
  | popStart
  | popRefuse (tail : UInt64)
  | popAdmit (tail : UInt64)
  | popRead
  | popDone (item : Words width Word)

/-- One word of a slot is written. -/
def SpscQueue.writeWord (queue : SpscQueue (Words width Word) capacity)
    (slot : Fin capacity.size) (word : Fin width) (value : Word) :
    SpscQueue (Words width Word) capacity :=
  { queue with
    buffer := Function.update queue.buffer slot
      (Function.update (queue.buffer slot) word value) }

theorem SpscQueue.writeWord_self
    (queue : SpscQueue (Words width Word) capacity)
    (slot : Fin capacity.size) (word : Fin width) (value : Word) :
    (queue.writeWord slot word value).buffer slot word = value := by
  change Function.update queue.buffer slot _ slot word = value
  rw [Function.update_self, Function.update_self]

theorem SpscQueue.writeWord_of_ne
    (queue : SpscQueue (Words width Word) capacity)
    (slot : Fin capacity.size) {word other : Fin width} (value : Word)
    (differs : other ≠ word) :
    (queue.writeWord slot word value).buffer slot other =
      queue.buffer slot other := by
  change Function.update queue.buffer slot _ slot other = _
  rw [Function.update_self, Function.update_of_ne differs]

namespace SharedQueue

def initial [Inhabited Word] : SharedQueue width Word capacity where
  queue := .empty
  tails := [0]
  heads := [0]
  tailSeen := 0
  headSeen := 0
  producer := .idle
  consumer := .idle

/-- The atomic steps of `push` and `pop`.  A load of the other counter returns
the value at some `place` in the list of its stores, but none before the last
one that the thread has seen. -/
inductive Step : SharedQueue width Word capacity → QueueEvent width Word →
    SharedQueue width Word capacity → Prop where
  | pushStart {state} (item : Words width Word)
      (idle : state.producer = .idle) :
      Step state .pushStart
        { state with producer := .loaded item state.queue.tail }
  | pushRefuse {state item tail place head}
      (loaded : state.producer = .loaded item tail)
      (published : state.heads[place]? = some head)
      (fresh : state.headSeen ≤ place)
      (full : ¬ tail - head < capacity.word) :
      Step state (.pushRefuse item head)
        { state with headSeen := place, producer := .idle }
  | pushAdmit {state item tail place head}
      (loaded : state.producer = .loaded item tail)
      (published : state.heads[place]? = some head)
      (fresh : state.headSeen ≤ place)
      (room : tail - head < capacity.word) :
      Step state (.pushAdmit head)
        { state with
          headSeen := place
          producer := .writing item tail Finset.univ }
  | pushWrite {state item tail pending word}
      (writing : state.producer = .writing item tail pending)
      (left : word ∈ pending) :
      Step state .pushWrite
        { state with
          queue :=
            state.queue.writeWord (capacity.slotOf tail) word (item word)
          producer := .writing item tail (pending.erase word) }
  | pushDone {state item tail}
      (writing : state.producer = .writing item tail ∅) :
      Step state (.pushDone item)
        { state with
          queue := { state.queue with tail := tail + 1 }
          tails := state.tails ++ [tail + 1]
          producer := .idle }
  -- `out` is the caller's variable, whatever it holds before the call.
  | popStart {state} (out : Words width Word)
      (idle : state.consumer = .idle) :
      Step state .popStart
        { state with consumer := .loaded out state.queue.head }
  | popRefuse {state out head place tail}
      (loaded : state.consumer = .loaded out head)
      (published : state.tails[place]? = some tail)
      (fresh : state.tailSeen ≤ place)
      (empty : ¬ head < tail) :
      Step state (.popRefuse tail)
        { state with tailSeen := place, consumer := .idle }
  | popAdmit {state out head place tail}
      (loaded : state.consumer = .loaded out head)
      (published : state.tails[place]? = some tail)
      (fresh : state.tailSeen ≤ place)
      (ready : head < tail) :
      Step state (.popAdmit tail)
        { state with
          tailSeen := place
          consumer := .copying out head Finset.univ }
  | popRead {state out head pending word}
      (copying : state.consumer = .copying out head pending)
      (left : word ∈ pending) :
      Step state .popRead
        { state with
          consumer := .copying
            (Function.update out word
              (state.queue.buffer (capacity.slotOf head) word))
            head (pending.erase word) }
  | popDone {state out head}
      (copying : state.consumer = .copying out head ∅) :
      Step state (.popDone out)
        { state with
          queue := { state.queue with head := head + 1 }
          heads := state.heads ++ [head + 1]
          consumer := .idle }

def machine (width : Nat) (Word : Type) [Inhabited Word]
    (capacity : Capacity) :
    Machine (SharedQueue width Word capacity) (QueueEvent width Word) where
  initial state := state = initial
  step := Step

end SharedQueue

/-- The two threads of the queue. -/
inductive QueueThread where
  | producer
  | consumer

namespace QueueEvent

def thread : QueueEvent width Word → QueueThread
  | pushStart | pushRefuse _ _ | pushAdmit _ | pushWrite | pushDone _ =>
      .producer
  | popStart | popRefuse _ | popAdmit _ | popRead | popDone _ => .consumer

/-- The first step of a call. -/
def Starts : QueueEvent width Word → Prop
  | pushStart | popStart => True
  | _ => False

/-- The last step of a call that returns `false`. -/
def Fails : QueueEvent width Word → Prop
  | pushRefuse _ _ | popRefuse _ => True
  | _ => False

/-- The item of a `push` that returns `true`. -/
def pushed : QueueEvent width Word → List (Words width Word)
  | pushDone item => [item]
  | _ => []

/-- The item of a `pop` that returns `true`. -/
def popped : QueueEvent width Word → List (Words width Word)
  | popDone item => [item]
  | _ => []

end QueueEvent

/-- The items that were pushed and popped so far. -/
structure QueueHistory (width : Nat) (Word : Type) where
  pushed : List (Words width Word)
  popped : List (Words width Word)
  /-- Whether the thread has changed the queue in its last call. -/
  Changed : QueueThread → Prop

namespace QueueHistory

def start : QueueHistory width Word where
  pushed := []
  popped := []
  Changed _ := False

def record (state : SharedQueue width Word capacity)
    (event : QueueEvent width Word) (next : SharedQueue width Word capacity)
    (history : QueueHistory width Word) : QueueHistory width Word where
  pushed := history.pushed ++ event.pushed
  popped := history.popped ++ event.popped
  Changed thread :=
    (event.thread = thread ∧ next.queue ≠ state.queue) ∨
      (¬ (event.thread = thread ∧ event.Starts) ∧ history.Changed thread)

end QueueHistory

/-- The threads together with what they have pushed and popped. -/
def SharedQueue.recorded (width : Nat) (Word : Type) [Inhabited Word]
    (capacity : Capacity) :
    Machine (SharedQueue width Word capacity × QueueHistory width Word)
      (QueueEvent width Word) :=
  (SharedQueue.machine width Word capacity).withGhost .start .record

theorem SharedQueue.recorded_step [Inhabited Word]
    {state next : SharedQueue width Word capacity}
    {history : QueueHistory width Word} {event : QueueEvent width Word}
    (reachable :
      (SharedQueue.recorded width Word capacity).Reachable (state, history))
    (taken : SharedQueue.Step state event next) :
    (SharedQueue.recorded width Word capacity).Reachable
      (next, .record state event next history) :=
  .step reachable ⟨taken, rfl⟩

end Hydra
