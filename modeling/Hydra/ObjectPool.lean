import Hydra.Types
import Mathlib.Data.List.Basic
import Mathlib.Data.List.Nodup
import Mathlib.Logic.Function.Basic

/-!
# Fixed-capacity object pools

A pool is a slab of slots and the head of a free list that is threaded through
the unused slots: a slot holds either an object or the link to the next free
slot, never both.  Reading or writing an object through a free slot, and
following the free list through an object, are faults.

`FreeList pool free` says that the free list consists of the slots `free`, in
that order, and that every other slot holds an object.
-/

namespace Hydra

/-- The errors that the modelled code must never reach. -/
inductive Fault where
  /-- An object was accessed through a slot that is on the free list. -/
  | releasedSlot
  /-- The free list ran into a slot that holds an object. -/
  | corruptFreeList
  /-- A null pointer was dereferenced. -/
  | nullPointer
  /-- A traversal did not end within the capacity of its pool. -/
  | outOfFuel
  deriving DecidableEq, Repr

@[simp] theorem ok_bind {α β : Type} (value : α)
    (next : α → Except Fault β) : (Except.ok value >>= next) = next value := rfl

/-- The storage of one object, shared with the link of the free list. -/
inductive Slot (Object : Type) (capacity : Nat) where
  | object (value : Object)
  | free (next : Option (Fin capacity))

/-- A slab of slots and the head of the list of free ones. -/
structure ObjectPool (Object : Type) (capacity : Nat) where
  slab : Fin capacity → Slot Object capacity
  freeHead : Option (Fin capacity)
  exhaustionCount : UInt64

namespace ObjectPool

variable {Object : Type} {capacity : Nat}

/-- Every slot links to the following one; the last ends the list. -/
def chainedSlab : Fin capacity → Slot Object capacity := fun slot =>
  .free (if inside : slot.val + 1 < capacity then some ⟨slot.val + 1, inside⟩
    else none)

def firstSlot : Option (Fin capacity) :=
  if positive : 0 < capacity then some ⟨0, positive⟩ else none

/-- The constructed pool: every slot is free. -/
def fresh : ObjectPool Object capacity where
  slab := chainedSlab
  freeHead := firstSlot
  exhaustionCount := 0

/-- The overload of `acquire` whose arguments construct the object. -/
def acquireWith (pool : ObjectPool Object capacity) (value : Object) :
    Except Fault (Option (Fin capacity) × ObjectPool Object capacity) :=
  match pool.freeHead with
  | none =>
      .ok (none, { pool with exhaustionCount := pool.exhaustionCount + 1 })
  | some slot =>
      match pool.slab slot with
      | .free next =>
          .ok (some slot,
            { pool with
              slab := Function.update pool.slab slot (.object value)
              freeHead := next })
      | .object _ => .error .corruptFreeList

/-- The overload that constructs a default object. -/
def acquire [Inhabited Object] (pool : ObjectPool Object capacity) :
    Except Fault (Option (Fin capacity) × ObjectPool Object capacity) :=
  pool.acquireWith default

/-- The slot goes back to the head of the free list. -/
def release (pool : ObjectPool Object capacity) (slot : Fin capacity) :
    Except Fault (ObjectPool Object capacity) :=
  match pool.slab slot with
  | .object _ =>
      .ok { pool with
            slab := Function.update pool.slab slot (.free pool.freeHead)
            freeHead := some slot }
  | .free _ => .error .releasedSlot

/-- Every slot becomes free again; the exhaustion count stays. -/
def reset (pool : ObjectPool Object capacity) :
    ObjectPool Object capacity :=
  { pool with slab := chainedSlab, freeHead := firstSlot }

/-- The object in a slot, if the slot is in use. -/
def object? (pool : ObjectPool Object capacity) (slot : Fin capacity) :
    Option Object :=
  match pool.slab slot with
  | .object value => some value
  | .free _ => none

def read (pool : ObjectPool Object capacity) (slot : Fin capacity) :
    Except Fault Object :=
  match pool.slab slot with
  | .object value => .ok value
  | .free _ => .error .releasedSlot

/-- The pool with an object stored in a slot. -/
def set (pool : ObjectPool Object capacity) (slot : Fin capacity)
    (value : Object) : ObjectPool Object capacity :=
  { pool with slab := Function.update pool.slab slot (.object value) }

def modify (pool : ObjectPool Object capacity) (slot : Fin capacity)
    (change : Object → Object) : Except Fault (ObjectPool Object capacity) :=
  match pool.slab slot with
  | .object value => .ok (pool.set slot (change value))
  | .free _ => .error .releasedSlot

section Objects

variable {pool : ObjectPool Object capacity} {slot other : Fin capacity}
variable {value : Object}

theorem object?_eq_some :
    pool.object? slot = some value ↔ pool.slab slot = .object value := by
  unfold object?
  split <;> simp_all

theorem read_eq (stored : pool.object? slot = some value) :
    pool.read slot = .ok value := by
  rw [object?_eq_some] at stored
  simp [read, stored]

theorem modify_eq (stored : pool.object? slot = some value)
    (change : Object → Object) :
    pool.modify slot change = .ok (pool.set slot (change value)) := by
  rw [object?_eq_some] at stored
  simp [modify, stored]

theorem object?_set (pool : ObjectPool Object capacity) (slot : Fin capacity)
    (value : Object) :
    (pool.set slot value).object? =
      Function.update pool.object? slot (some value) := by
  funext current
  by_cases same : current = slot
  · subst same
    simp [object?, set]
  · simp [object?, set, Function.update_of_ne same]

@[simp] theorem object?_set_self :
    (pool.set slot value).object? slot = some value := by
  simp [object?_set]

theorem object?_set_of_ne (differs : other ≠ slot) :
    (pool.set slot value).object? other = pool.object? other := by
  simp [object?_set, Function.update_of_ne differs]

@[simp] theorem set_freeHead :
    (pool.set slot value).freeHead = pool.freeHead := rfl

@[simp] theorem set_exhaustionCount :
    (pool.set slot value).exhaustionCount = pool.exhaustionCount := rfl

end Objects

/-- The free list is `free`, and exactly the other slots hold objects. -/
structure FreeList (pool : ObjectPool Object capacity)
    (free : List (Fin capacity)) : Prop where
  nodup : free.Nodup
  head : pool.freeHead = free.head?
  linked : ∀ front slot back, free = front ++ slot :: back →
    pool.slab slot = .free back.head?
  live : ∀ slot, slot ∉ free → ∃ value, pool.object? slot = some value

namespace FreeList

variable {pool : ObjectPool Object capacity} {slot : Fin capacity}
variable {free : List (Fin capacity)}

theorem not_mem_of_object {value : Object} (freeList : FreeList pool free)
    (stored : pool.object? slot = some value) : slot ∉ free := by
  intro member
  obtain ⟨front, back, split⟩ := List.append_of_mem member
  rw [object?_eq_some, freeList.linked front slot back split] at stored
  cases stored

theorem set (freeList : FreeList pool free) (used : slot ∉ free)
    (value : Object) : FreeList (pool.set slot value) free where
  nodup := freeList.nodup
  head := freeList.head
  linked front current back split := by
    have differs : current ≠ slot := by
      rintro rfl
      exact used (by simp [split])
    change Function.update pool.slab slot _ current = _
    rw [Function.update_of_ne differs]
    exact freeList.linked front current back split
  live current outside := by
    by_cases same : current = slot
    · exact ⟨value, same ▸ object?_set_self⟩
    · rw [object?_set_of_ne same]
      exact freeList.live current outside

theorem fresh : FreeList (fresh : ObjectPool Object capacity)
    (List.finRange capacity) where
  nodup := List.nodup_finRange capacity
  head := by
    cases capacity with
    | zero => rfl
    | succ capacity => simp [ObjectPool.fresh, firstSlot, List.finRange_succ]
  linked front slot back split := by
    have slotAt : (List.finRange capacity)[front.length]? = some slot := by
      simp [split]
    have nextAt : (List.finRange capacity)[front.length + 1]? = back.head? := by
      cases back <;> simp [split]
    have slotEq : slot.val = front.length := by
      simp only [List.getElem?_eq_some_iff] at slotAt
      obtain ⟨_, slotAt⟩ := slotAt
      simp [← slotAt]
    change Slot.free _ = _
    rw [← nextAt, slotEq]
    by_cases inside : front.length + 1 < capacity
    · simp [inside]
    · simp [inside]
  live slot outside := absurd (List.mem_finRange slot) outside

section Acquire

theorem acquireWith_nil (freeList : FreeList pool []) (value : Object) :
    pool.acquireWith value =
      .ok (none,
        { pool with exhaustionCount := pool.exhaustionCount + 1 }) := by
  have head : pool.freeHead = none := freeList.head
  simp [acquireWith, head]

theorem acquireWith_cons (freeList : FreeList pool (slot :: free))
    (value : Object) :
    ∃ taken, pool.acquireWith value = .ok (some slot, taken) ∧
      FreeList taken free ∧
      taken.object? = Function.update pool.object? slot (some value) ∧
      taken.exhaustionCount = pool.exhaustionCount := by
  have head : pool.freeHead = some slot := freeList.head
  have stored := freeList.linked [] slot free rfl
  obtain ⟨fresh, nodup⟩ := List.nodup_cons.mp freeList.nodup
  let taken : ObjectPool Object capacity :=
    { pool with
      slab := Function.update pool.slab slot (.object value)
      freeHead := free.head? }
  have objects : taken.object? =
      Function.update pool.object? slot (some value) := by
    exact object?_set pool slot value
  refine ⟨taken, by simp [acquireWith, head, stored, taken], ?_, objects, rfl⟩
  refine ⟨nodup, rfl, ?_, ?_⟩
  · intro front current back split
    have differs : current ≠ slot := by
      rintro rfl
      exact fresh (by simp [split])
    change Function.update pool.slab slot _ current = _
    rw [Function.update_of_ne differs]
    exact freeList.linked (slot :: front) current back (by simp [split])
  · intro current outside
    rw [objects]
    by_cases same : current = slot
    · exact ⟨value, by simp [same]⟩
    · rw [Function.update_of_ne same]
      exact freeList.live current (by simp [same, outside])

variable [Inhabited Object]

theorem acquire_nil (freeList : FreeList pool []) :
    pool.acquire =
      .ok (none,
        { pool with exhaustionCount := pool.exhaustionCount + 1 }) :=
  freeList.acquireWith_nil default

theorem acquire_cons (freeList : FreeList pool (slot :: free)) :
    ∃ taken, pool.acquire = .ok (some slot, taken) ∧
      FreeList taken free ∧
      taken.object? = Function.update pool.object? slot (some default) ∧
      taken.exhaustionCount = pool.exhaustionCount :=
  freeList.acquireWith_cons default

end Acquire

theorem release {value : Object} (freeList : FreeList pool free)
    (stored : pool.object? slot = some value) :
    ∃ released, pool.release slot = .ok released ∧
      FreeList released (slot :: free) ∧
      released.object? = Function.update pool.object? slot none ∧
      released.exhaustionCount = pool.exhaustionCount := by
  have used := freeList.not_mem_of_object stored
  have slabEq := object?_eq_some.mp stored
  let released : ObjectPool Object capacity :=
    { pool with
      slab := Function.update pool.slab slot (.free pool.freeHead)
      freeHead := some slot }
  have objects : released.object? =
      Function.update pool.object? slot none := by
    funext current
    by_cases same : current = slot
    · subst same
      simp [object?, released]
    · simp [object?, released, Function.update_of_ne same]
  refine ⟨released, by simp [ObjectPool.release, slabEq, released], ?_,
    objects, rfl⟩
  refine ⟨List.nodup_cons.mpr ⟨used, freeList.nodup⟩, rfl, ?_, ?_⟩
  · intro front current back split
    cases front with
    | nil =>
        obtain ⟨rfl, rfl⟩ : slot = current ∧ free = back := by simpa using split
        change Function.update pool.slab slot _ slot = _
        rw [Function.update_self, freeList.head]
    | cons head front =>
        obtain ⟨_, freeEq⟩ : slot = head ∧
            free = front ++ current :: back := by simpa using split
        have differs : current ≠ slot := by
          rintro rfl
          exact used (by simp [freeEq])
        change Function.update pool.slab slot _ current = _
        rw [Function.update_of_ne differs]
        exact freeList.linked front current back freeEq
  · intro current outside
    rw [List.mem_cons, not_or] at outside
    obtain ⟨differs, outside⟩ := outside
    rw [objects, Function.update_of_ne differs]
    exact freeList.live current outside

end FreeList

end ObjectPool

end Hydra
