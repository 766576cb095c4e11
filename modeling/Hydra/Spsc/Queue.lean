import Hydra.Library.Ring
import Mathlib.Algebra.Ring.Nat
import Mathlib.Data.Nat.Bits

/-!
# The queue, called by one thread at a time

`SpscQueue` with its 64-bit counters, and the queue of the ablation, a bounded
list behind a mutex.  As long as the tail counter does not wrap, the two give
the same answers to every sequence of calls.
-/

namespace Hydra

/-- The template parameter of the queue: a power of two that fits into 64
bits. -/
structure Capacity where
  log : Nat
  log_lt : log < 64

namespace Capacity

variable (capacity : Capacity)

def size : Nat := 2 ^ capacity.log

theorem size_pos : 0 < capacity.size := Nat.two_pow_pos _

instance : NeZero capacity.size := ⟨Nat.ne_of_gt capacity.size_pos⟩

theorem size_lt : capacity.size < 2 ^ 64 :=
  Nat.pow_lt_pow_right (by decide) capacity.log_lt

/-- The capacity as a counter. -/
def word : UInt64 := .ofNat capacity.size

/-- `kMask`. -/
def mask : UInt64 := capacity.word - 1

theorem word_toNat : capacity.word.toNat = capacity.size :=
  UInt64.toNat_ofNat_of_lt' capacity.size_lt

theorem and_mask (counter : UInt64) :
    (counter &&& capacity.mask).toNat = counter.toNat % capacity.size := by
  have one_le : 1 ≤ capacity.word := by
    rw [UInt64.le_iff_toNat_le, word_toNat]
    exact capacity.size_pos
  have maskEq : capacity.mask.toNat = 2 ^ capacity.log - 1 := by
    rw [mask, UInt64.toNat_sub_of_le _ _ one_le, word_toNat]
    rfl
  rw [UInt64.toNat_and, maskEq, Nat.and_two_pow_sub_one_eq_mod]
  rfl

/-- The slot that a counter points to. -/
def slotOf (counter : UInt64) : Fin capacity.size :=
  ⟨(counter &&& capacity.mask).toNat, by
    rw [and_mask]
    exact Nat.mod_lt _ capacity.size_pos⟩

theorem slotOf_ofNat {position : Nat} (small : position < 2 ^ 64) :
    capacity.slotOf (.ofNat position) = Fin.ofNat capacity.size position := by
  apply Fin.ext
  change (UInt64.ofNat position &&& capacity.mask).toNat = _
  rw [and_mask, UInt64.toNat_ofNat_of_lt' small]
  rfl

end Capacity

variable {Item : Type} {capacity : Capacity}

/-- A ring of slots, with the numbers of pushes and of pops so far. -/
structure SpscQueue (Item : Type) (capacity : Capacity) where
  buffer : Fin capacity.size → Item
  tail : UInt64
  head : UInt64

namespace SpscQueue

/-- The constructed queue. -/
def empty [Inhabited Item] : SpscQueue Item capacity where
  buffer _ := default
  tail := 0
  head := 0

def push (queue : SpscQueue Item capacity) (item : Item) :
    Bool × SpscQueue Item capacity :=
  if queue.tail - queue.head < capacity.word then
    (true,
      { queue with
        buffer := Function.update queue.buffer (capacity.slotOf queue.tail) item
        tail := queue.tail + 1 })
  else
    (false, queue)

def pop (queue : SpscQueue Item capacity) :
    Option Item × SpscQueue Item capacity :=
  if queue.head < queue.tail then
    (some (queue.buffer (capacity.slotOf queue.head)),
      { queue with head := queue.head + 1 })
  else
    (none, queue)

end SpscQueue

/-- The queue of the ablation: a `std::queue` behind a mutex, of at most `size`
items. -/
structure MutexQueue (Item : Type) (size : Nat) where
  queue : List Item

namespace MutexQueue

variable {size : Nat}

def empty : MutexQueue Item size where
  queue := []

def push (queue : MutexQueue Item size) (item : Item) :
    Bool × MutexQueue Item size :=
  if size ≤ queue.queue.length then (false, queue)
  else (true, { queue := queue.queue ++ [item] })

def pop (queue : MutexQueue Item size) : Option Item × MutexQueue Item size :=
  match queue.queue with
  | [] => (none, queue)
  | item :: rest => (some item, { queue := rest })

theorem pop_items (queue : MutexQueue Item size) :
    queue.pop.1.toList ++ queue.pop.2.queue = queue.queue := by
  cases items : queue.queue with
  | nil =>
      rw [pop, items]
      exact items
  | cons item rest =>
      rw [pop, items]
      rfl

end MutexQueue

/-- The queue holds `items`, at the positions from `first` on. -/
structure SpscQueue.Holds (queue : SpscQueue Item capacity) (first : Nat)
    (items : List Item) : Prop where
  window : Ring.Window queue.buffer first items
  head : queue.head = .ofNat first
  tail : queue.tail = .ofNat (first + items.length)

section Counters

variable {head tail : Nat}

/-- The distance of two counters, as the producer computes it. -/
theorem counter_sub_lt (ordered : head ≤ tail) (small : tail < 2 ^ 64) :
    UInt64.ofNat tail - UInt64.ofNat head < capacity.word ↔
      tail < head + capacity.size := by
  have tailEq : (UInt64.ofNat tail).toNat = tail :=
    UInt64.toNat_ofNat_of_lt' small
  have headEq : (UInt64.ofNat head).toNat = head :=
    UInt64.toNat_ofNat_of_lt' (Nat.lt_of_le_of_lt ordered small)
  have fits : UInt64.ofNat head ≤ UInt64.ofNat tail := by
    rw [UInt64.le_iff_toNat_le, tailEq, headEq]
    exact ordered
  rw [UInt64.lt_iff_toNat_lt, UInt64.toNat_sub_of_le _ _ fits, tailEq, headEq,
    Capacity.word_toNat]
  omega

/-- The comparison of two counters, as the consumer makes it. -/
theorem counter_lt (headSmall : head < 2 ^ 64) (tailSmall : tail < 2 ^ 64) :
    UInt64.ofNat head < UInt64.ofNat tail ↔ head < tail := by
  rw [UInt64.lt_iff_toNat_lt, UInt64.toNat_ofNat_of_lt' headSmall,
    UInt64.toNat_ofNat_of_lt' tailSmall]

theorem counter_succ (position : Nat) :
    UInt64.ofNat position + 1 = .ofNat (position + 1) := by
  rw [UInt64.ofNat_add]
  rfl

end Counters

namespace SpscQueue

variable {queue : SpscQueue Item capacity} {first : Nat}
variable {item : Item} {items : List Item}

theorem empty_holds [Inhabited Item] :
    (empty : SpscQueue Item capacity).Holds 0 [] where
  window := .nil _ _
  head := rfl
  tail := rfl

/-- The slot behind the items is free to be written. -/
theorem Holds.overwrite (holds : queue.Holds first items)
    (free : items.length < capacity.size)
    (small : first + items.length < 2 ^ 64) (item : Item) :
    SpscQueue.Holds
      { queue with
        buffer :=
          Function.update queue.buffer (capacity.slotOf queue.tail) item }
      first items where
  window := by
    rw [holds.tail, capacity.slotOf_ofNat small]
    apply holds.window.congr free
    intro slot differs
    exact Function.update_of_ne differs ..
  head := holds.head
  tail := holds.tail

theorem Holds.publish (holds : queue.Holds first items)
    (free : items.length < capacity.size)
    (small : first + items.length < 2 ^ 64)
    (written : queue.buffer (capacity.slotOf queue.tail) = item) :
    SpscQueue.Holds { queue with tail := queue.tail + 1 } first
      (items ++ [item]) where
  window := by
    rw [holds.tail, capacity.slotOf_ofNat small] at written
    exact holds.window.append free written
  head := holds.head
  tail := by
    change queue.tail + 1 = _
    rw [holds.tail, counter_succ, List.length_append]
    rfl

theorem Holds.release (holds : queue.Holds first (item :: items)) :
    SpscQueue.Holds { queue with head := queue.head + 1 } (first + 1)
      items where
  window := holds.window.tail
  head := by
    change queue.head + 1 = _
    rw [holds.head, counter_succ]
  tail := by
    change queue.tail = _
    rw [holds.tail, List.length_cons]
    congr 1
    omega

theorem Holds.front (holds : queue.Holds first (item :: items))
    (small : first < 2 ^ 64) :
    queue.buffer (capacity.slotOf queue.head) = item := by
  rw [holds.head, capacity.slotOf_ofNat small]
  exact holds.window.head

/-- What a push does to a queue whose counters have not wrapped. -/
theorem Holds.push (holds : queue.Holds first items)
    (small : first + items.length < 2 ^ 64) (item : Item) :
    (items.length < capacity.size ∧ (queue.push item).1 = true ∧
      (queue.push item).2.Holds first (items ++ [item])) ∨
    (capacity.size ≤ items.length ∧ queue.push item = (false, queue)) := by
  have room : queue.tail - queue.head < capacity.word ↔
      items.length < capacity.size := by
    rw [holds.tail, holds.head, counter_sub_lt (Nat.le_add_right _ _) small]
    omega
  by_cases free : items.length < capacity.size
  · refine .inl ⟨free, ?_, ?_⟩
    · rw [SpscQueue.push, if_pos (room.mpr free)]
    · rw [SpscQueue.push, if_pos (room.mpr free)]
      apply (holds.overwrite free small item).publish free small
      exact Function.update_self ..
  · refine .inr ⟨Nat.le_of_not_lt free, ?_⟩
    rw [SpscQueue.push, if_neg (fun less => free (room.mp less))]

/-- What a pop does to a queue whose counters have not wrapped. -/
theorem Holds.pop (holds : queue.Holds first items)
    (small : first + items.length < 2 ^ 64) :
    (items = [] ∧ queue.pop = (none, queue)) ∨
    ∃ item rest, items = item :: rest ∧ queue.pop.1 = some item ∧
      queue.pop.2.Holds (first + 1) rest := by
  have ready : queue.head < queue.tail ↔ 0 < items.length := by
    rw [holds.tail, holds.head, counter_lt (by omega) small]
    omega
  cases items with
  | nil =>
      refine .inl ⟨rfl, ?_⟩
      rw [SpscQueue.pop, if_neg (fun less =>
        Nat.lt_irrefl 0 (ready.mp less))]
  | cons item rest =>
      have less := ready.mpr (Nat.succ_pos _)
      refine .inr ⟨item, rest, rfl, ?_, ?_⟩
      · rw [SpscQueue.pop, if_pos less, holds.front (by omega)]
      · rw [SpscQueue.pop, if_pos less]
        exact holds.release

end SpscQueue

/-- A call of the queue. -/
inductive QueueCall (Item : Type) where
  | push (item : Item)
  | pop

/-- What a call of the queue returns. -/
inductive QueueReply (Item : Type) where
  | pushed (success : Bool)
  | popped (result : Option Item)

def QueueCall.pushes : QueueCall Item → Nat
  | push _ => 1
  | pop => 0

def SpscQueue.answer (queue : SpscQueue Item capacity) :
    QueueCall Item → QueueReply Item × SpscQueue Item capacity
  | .push item => (.pushed (queue.push item).1, (queue.push item).2)
  | .pop => (.popped queue.pop.1, queue.pop.2)

def MutexQueue.answer {size : Nat} (queue : MutexQueue Item size) :
    QueueCall Item → QueueReply Item × MutexQueue Item size
  | .push item => (.pushed (queue.push item).1, (queue.push item).2)
  | .pop => (.popped queue.pop.1, queue.pop.2)

/-- The answers of a queue to a sequence of calls. -/
def replies {Queue : Type}
    (answer : Queue → QueueCall Item → QueueReply Item × Queue) :
    Queue → List (QueueCall Item) → List (QueueReply Item)
  | _, [] => []
  | queue, call :: calls =>
      (answer queue call).1 :: replies answer (answer queue call).2 calls

/-- The queue after a sequence of calls. -/
def queueAfter {Queue : Type}
    (answer : Queue → QueueCall Item → QueueReply Item × Queue)
    (queue : Queue) (calls : List (QueueCall Item)) : Queue :=
  calls.foldl (fun queue call => (answer queue call).2) queue

theorem queueAfter_concat {Queue : Type}
    (answer : Queue → QueueCall Item → QueueReply Item × Queue)
    (queue : Queue) (calls : List (QueueCall Item)) (call : QueueCall Item) :
    queueAfter answer queue (calls ++ [call]) =
      (answer (queueAfter answer queue calls) call).2 :=
  List.foldl_concat ..

theorem replies_concat {Queue : Type}
    (answer : Queue → QueueCall Item → QueueReply Item × Queue)
    (queue : Queue) (calls : List (QueueCall Item)) (call : QueueCall Item) :
    replies answer queue (calls ++ [call]) =
      replies answer queue calls ++
        [(answer (queueAfter answer queue calls) call).1] := by
  induction calls generalizing queue with
  | nil => rfl
  | cons first calls induction =>
      rw [List.cons_append, replies, induction, replies, List.cons_append]
      rfl

/-- A queue and a list with the same items answer alike. -/
theorem SpscQueue.Holds.replies_eq {queue : SpscQueue Item capacity}
    {first : Nat} {items : List Item} (holds : queue.Holds first items)
    {calls : List (QueueCall Item)}
    (few : first + items.length + (calls.map QueueCall.pushes).sum < 2 ^ 64) :
    replies SpscQueue.answer queue calls =
      replies MutexQueue.answer
        ({ queue := items } : MutexQueue Item capacity.size) calls := by
  induction calls generalizing queue first items with
  | nil => rfl
  | cons call calls induction =>
      rw [List.map_cons, List.sum_cons] at few
      rw [replies, replies]
      cases call with
      | push item =>
          have few : first + items.length +
              (1 + (calls.map QueueCall.pushes).sum) < 2 ^ 64 := few
          rw [SpscQueue.answer, MutexQueue.answer]
          rcases holds.push (by omega) item with ⟨room, success, next⟩ |
            ⟨full, refused⟩
          · have later := induction next (by
              rw [List.length_append, List.length_singleton]
              omega)
            rw [success, later, MutexQueue.push,
              if_neg (Nat.not_le.mpr room)]
          · have later := induction holds (by omega)
            rw [refused, later, MutexQueue.push, if_pos full]
      | pop =>
          have few : first + items.length +
              (0 + (calls.map QueueCall.pushes).sum) < 2 ^ 64 := few
          rw [SpscQueue.answer, MutexQueue.answer]
          rcases holds.pop (by omega) with ⟨rfl, none_left⟩ |
            ⟨item, rest, rfl, popped, next⟩
          · have later := induction holds (by omega)
            rw [none_left, later]
            rfl
          · have later := induction next (by
              rw [List.length_cons] at few
              omega)
            rw [popped, later]
            rfl

end Hydra
