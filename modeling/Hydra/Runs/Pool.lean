import Hydra.Book.Undo
import Hydra.Library.Machine

/-!
# The calls to a pool

A client of a pool acquires slots, stores objects in the slots that it holds,
releases them, and resets the pool, in any order.  Beside the pool a session
keeps what the client knows: the slots that it holds, and how many of its
acquisitions have failed.

In every session the free list consists of exactly the slots that are not held,
so that the pool hands out each slot once, fails only when every slot is held,
and hands out the slot released last.
-/

namespace Hydra

/-- A pool, the slots that its client holds, and the acquisitions that have
failed. -/
structure PoolSession (Object : Type) (capacity : Nat) where
  pool : ObjectPool Object capacity
  acquired : List (Fin capacity)
  failures : Nat

/-- A call of the pool, or a write to a slot that is held. -/
inductive PoolCall (Object : Type) (capacity : Nat) where
  /-- An acquisition, with the object that its arguments construct if it has
  arguments. -/
  | acquire (arguments : Option Object)
  | store (slot : Fin capacity) (value : Object)
  | release (slot : Fin capacity)
  | reset

namespace ObjectPool

variable {Object : Type} {capacity : Nat} [Inhabited Object]

/-- The two overloads of `acquire`. -/
def acquireAs (pool : ObjectPool Object capacity)
    (arguments : Option Object) :
    Except Fault (Option (Fin capacity) × ObjectPool Object capacity) :=
  match arguments with
  | none => pool.acquire
  | some value => pool.acquireWith value

/-- So many acquisitions in a row, with what they return. -/
def acquireTimes : Nat → ObjectPool Object capacity →
    Except Fault (List (Option (Fin capacity)) × ObjectPool Object capacity)
  | 0, pool => .ok ([], pool)
  | count + 1, pool =>
      pool.acquire >>= fun first =>
        acquireTimes count first.2 >>= fun rest =>
          .ok (first.1 :: rest.1, rest.2)

/-- Following the links from a pointer visits the slots, in this order, and
ends with a null pointer. -/
inductive Follows (pool : ObjectPool Object capacity) :
    Option (Fin capacity) → List (Fin capacity) → Prop where
  | done : Follows pool none []
  | next {slot : Fin capacity} {link : Option (Fin capacity)}
      {rest : List (Fin capacity)} :
      pool.slab slot = .free link → Follows pool link rest →
      Follows pool (some slot) (slot :: rest)

end ObjectPool

namespace PoolSession

variable {Object : Type} {capacity : Nat}

/-- What the client knows after an acquisition. -/
def obtained (session : PoolSession Object capacity)
    (result : Option (Fin capacity)) (pool : ObjectPool Object capacity) :
    PoolSession Object capacity :=
  match result with
  | some slot =>
      { session with pool := pool, acquired := slot :: session.acquired }
  | none => { session with pool := pool, failures := session.failures + 1 }

/-- One call; a client stores and releases only through slots that it
holds. -/
inductive Step [Inhabited Object] : PoolSession Object capacity →
    PoolCall Object capacity → PoolSession Object capacity → Prop where
  | acquire {session : PoolSession Object capacity}
      {arguments : Option Object} {result : Option (Fin capacity)}
      {pool : ObjectPool Object capacity} :
      session.pool.acquireAs arguments = .ok (result, pool) →
      Step session (.acquire arguments) (session.obtained result pool)
  | store {session : PoolSession Object capacity} {slot : Fin capacity}
      {value : Object} :
      slot ∈ session.acquired →
      Step session (.store slot value)
        { session with pool := session.pool.set slot value }
  | release {session : PoolSession Object capacity} {slot : Fin capacity}
      {pool : ObjectPool Object capacity} :
      slot ∈ session.acquired →
      session.pool.release slot = .ok pool →
      Step session (.release slot)
        { session with
          pool := pool
          acquired := session.acquired.erase slot }
  | reset {session : PoolSession Object capacity} :
      Step session .reset
        { session with pool := session.pool.reset, acquired := [] }

/-- A constructed pool and its client. -/
def start (Object : Type) (capacity : Nat) : PoolSession Object capacity where
  pool := .fresh
  acquired := []
  failures := 0

def machine (Object : Type) (capacity : Nat) [Inhabited Object] :
    Machine (PoolSession Object capacity) (PoolCall Object capacity) where
  initial session := session = start Object capacity
  step := Step

end PoolSession

namespace ObjectPool

variable {Object : Type} {capacity : Nat} {pool : ObjectPool Object capacity}
variable {slot : Fin capacity} {free : List (Fin capacity)}

theorem FreeList.reset (pool : ObjectPool Object capacity) :
    FreeList pool.reset (List.finRange capacity) := by
  have fresh : FreeList (ObjectPool.fresh : ObjectPool Object capacity)
      (List.finRange capacity) := .fresh
  exact ⟨fresh.nodup, fresh.head, fresh.linked, fresh.live⟩

/-- The links of the free list end after its last slot. -/
theorem FreeList.follows (freeList : FreeList pool free) :
    pool.Follows pool.freeHead free := by
  have suffixes : ∀ front back, free = front ++ back →
      pool.Follows back.head? back := by
    intro front back
    induction back generalizing front with
    | nil =>
        intro _
        exact .done
    | cons slot back induction =>
        intro split
        exact .next (freeList.linked front slot back split)
          (induction (front ++ [slot]) (by simp [split]))
  rw [freeList.head]
  exact suffixes [] free rfl

variable [Inhabited Object]

theorem acquireAs_eq (pool : ObjectPool Object capacity)
    (arguments : Option Object) :
    pool.acquireAs arguments =
      pool.acquireWith (arguments.getD default) := by
  cases arguments <;> rfl

/-- As many acquisitions as there are free slots hand all of them out. -/
theorem FreeList.acquireTimes (freeList : FreeList pool free) :
    ∃ last, ObjectPool.acquireTimes free.length pool =
        .ok (free.map some, last) ∧ FreeList last [] := by
  induction free generalizing pool with
  | nil => exact ⟨pool, rfl, freeList⟩
  | cons slot free induction =>
      obtain ⟨taken, acquired, remaining, _, _⟩ := freeList.acquire_cons
      obtain ⟨last, others, exhausted⟩ := induction remaining
      refine ⟨last, ?_, exhausted⟩
      rw [List.length_cons, ObjectPool.acquireTimes, acquired, ok_bind, others,
        ok_bind, List.map_cons]

end ObjectPool

namespace PoolSession

variable {Object : Type} {capacity : Nat}
variable {session : PoolSession Object capacity} {free : List (Fin capacity)}

/-- The free list is `free` and consists of the slots that are not held. -/
structure Splits (session : PoolSession Object capacity)
    (free : List (Fin capacity)) : Prop where
  freeList : session.pool.FreeList free
  distinct : session.acquired.Nodup
  exact : ∀ slot, slot ∈ free ↔ slot ∉ session.acquired
  counted : session.pool.exhaustionCount = UInt64.ofNat session.failures

namespace Splits

theorem fresh : (start Object capacity).Splits (List.finRange capacity) where
  freeList := .fresh
  distinct := List.nodup_nil
  exact slot := by simp [start]
  counted := rfl

theorem object_of_acquired (splits : session.Splits free)
    {slot : Fin capacity} (held : slot ∈ session.acquired) :
    ∃ value, session.pool.object? slot = some value :=
  splits.freeList.live slot fun member => (splits.exact slot).mp member held

theorem length_add (splits : session.Splits free) :
    free.length + session.acquired.length = capacity := by
  have disjoint : (free ++ session.acquired).Nodup :=
    splits.freeList.nodup.append splits.distinct fun slot member =>
      (splits.exact slot).mp member
  have covers : ∀ slot, slot ∈ free ++ session.acquired := by
    intro slot
    rw [List.mem_append, splits.exact]
    exact (Decidable.em (slot ∈ session.acquired)).symm
  have same : (free ++ session.acquired).Perm (List.finRange capacity) :=
    (List.perm_ext_iff_of_nodup disjoint (List.nodup_finRange capacity)).mpr
      fun slot => by simp only [covers, List.mem_finRange]
  simpa using same.length_eq

theorem release (splits : session.Splits free) {slot : Fin capacity}
    (held : slot ∈ session.acquired) :
    ∃ pool, session.pool.release slot = .ok pool ∧
      Splits
        { session with
          pool := pool
          acquired := session.acquired.erase slot } (slot :: free) := by
  obtain ⟨value, stored⟩ := splits.object_of_acquired held
  obtain ⟨pool, released, freeList, _, count⟩ :=
    splits.freeList.release stored
  refine ⟨pool, released, freeList, splits.distinct.erase slot, ?_,
    count.trans splits.counted⟩
  intro other
  rw [List.mem_cons, splits.exact, splits.distinct.mem_erase_iff]
  by_cases same : other = slot <;> simp [same]

section Steps

variable [Inhabited Object]

theorem acquire (splits : session.Splits free) (arguments : Option Object) :
    ∃ pool, session.pool.acquireAs arguments = .ok (free.head?, pool) ∧
      (session.obtained free.head? pool).Splits free.tail := by
  rw [ObjectPool.acquireAs_eq]
  cases free with
  | nil =>
      refine ⟨_, splits.freeList.acquireWith_nil _, ?_, splits.distinct,
        splits.exact, ?_⟩
      · exact ⟨splits.freeList.nodup, splits.freeList.head,
          splits.freeList.linked, splits.freeList.live⟩
      · change session.pool.exhaustionCount + 1 =
          UInt64.ofNat (session.failures + 1)
        rw [splits.counted, UInt64.ofNat_add]
        rfl
  | cons slot free =>
      obtain ⟨pool, acquired, freeList, _, count⟩ :=
        splits.freeList.acquireWith_cons (arguments.getD default)
      have outside : slot ∉ session.acquired :=
        (splits.exact slot).mp List.mem_cons_self
      have fresh : slot ∉ free :=
        (List.nodup_cons.mp splits.freeList.nodup).1
      refine ⟨pool, acquired, freeList,
        List.nodup_cons.mpr ⟨outside, splits.distinct⟩, ?_,
        count.trans splits.counted⟩
      intro other
      change other ∈ free ↔ other ∉ slot :: session.acquired
      rw [List.mem_cons, not_or, ← splits.exact, List.mem_cons]
      by_cases same : other = slot
      · simp [same, fresh]
      · simp [same]

theorem step {call : PoolCall Object capacity}
    {next : PoolSession Object capacity} (splits : session.Splits free)
    (taken : session.Step call next) : ∃ free, next.Splits free := by
  cases taken with
  | acquire called =>
      obtain ⟨pool, acquired, kept⟩ := splits.acquire ‹Option Object›
      rw [called, Except.ok.injEq, Prod.mk.injEq] at acquired
      obtain ⟨rfl, rfl⟩ := acquired
      exact ⟨_, kept⟩
  | store held =>
      have outside := fun member => (splits.exact _).mp member held
      exact ⟨free, splits.freeList.set outside _, splits.distinct,
        splits.exact, splits.counted⟩
  | release held called =>
      obtain ⟨pool, released, kept⟩ := splits.release held
      rw [called, Except.ok.injEq] at released
      subst released
      exact ⟨_, kept⟩
  | reset =>
      exact ⟨_, .reset _, List.nodup_nil, by simp, splits.counted⟩

end Steps

end Splits

variable [Inhabited Object]

theorem reachable_splits
    (reachable : (machine Object capacity).Reachable session) :
    ∃ free, session.Splits free := by
  refine Machine.Reachable.invariant
    (fun session => ∃ free, session.Splits free) ?_ ?_ reachable
  · rintro _ rfl
    exact ⟨_, .fresh⟩
  · intro session call next splits taken
    obtain ⟨free, splits⟩ := splits
    exact splits.step taken

/-- A pool that hands out exactly the slots that are not held. -/
structure Allocates (session : PoolSession Object capacity) : Prop where
  distinct : session.acquired.Nodup
  /-- No call faults, and a slot that is handed out was not held. -/
  acquires : ∀ arguments, ∃ result pool,
    session.pool.acquireAs arguments = .ok (result, pool) ∧
      (∀ slot, result = some slot → slot ∉ session.acquired) ∧
      (result = none ↔ session.acquired.length = capacity)
  /-- The failed acquisitions are counted, in a 64-bit counter. -/
  counts : session.pool.exhaustionCount.toNat = session.failures % 2 ^ 64
  /-- The free list visits every slot that is not held, once, and ends. -/
  follows : ∃ free, session.pool.Follows session.pool.freeHead free ∧
    free.Nodup ∧ ∀ slot, slot ∈ free ↔ slot ∉ session.acquired
  /-- The slot released last is the next one acquired. -/
  releases : ∀ slot ∈ session.acquired, ∃ released,
    session.pool.release slot = .ok released ∧
      released.freeSlots = slot :: session.pool.freeSlots ∧
      ∀ arguments, ∃ taken,
        released.acquireAs arguments = .ok (some slot, taken) ∧
          taken.freeSlots = session.pool.freeSlots
  /-- After a reset all slots can be acquired, each once. -/
  resets : ∃ last, ObjectPool.acquireTimes capacity session.pool.reset =
      .ok ((List.finRange capacity).map some, last) ∧ last.freeHead = none

theorem Splits.allocates (splits : session.Splits free) :
    session.Allocates where
  distinct := splits.distinct
  acquires arguments := by
    obtain ⟨pool, acquired, _⟩ := splits.acquire arguments
    have total := splits.length_add
    refine ⟨free.head?, pool, acquired, ?_, ?_⟩
    · intro slot first
      exact (splits.exact slot).mp (List.mem_of_head? first)
    · rw [List.head?_eq_none_iff, ← List.length_eq_zero_iff]
      omega
  counts := by
    rw [splits.counted, UInt64.toNat_ofNat']
  follows := ⟨free, splits.freeList.follows, splits.freeList.nodup,
    splits.exact⟩
  releases slot held := by
    obtain ⟨released, done, kept⟩ := splits.release held
    have before := splits.freeList.freeSlots_eq
    refine ⟨released, done, ?_, ?_⟩
    · rw [before]
      exact kept.freeList.freeSlots_eq
    · intro arguments
      obtain ⟨taken, acquired, after⟩ := kept.acquire arguments
      refine ⟨taken, acquired, ?_⟩
      rw [before]
      exact after.freeList.freeSlots_eq
  resets := by
    obtain ⟨last, acquired, exhausted⟩ :=
      (ObjectPool.FreeList.reset session.pool).acquireTimes
    rw [List.length_finRange] at acquired
    exact ⟨last, acquired, exhausted.head⟩

/-- Whatever its client has called, a pool is an exact allocator. -/
theorem calls_allocate
    (reachable : (machine Object capacity).Reachable session) :
    session.Allocates := by
  obtain ⟨free, splits⟩ := reachable_splits reachable
  exact splits.allocates

/-- A pool of one slot, with that slot held. -/
theorem calls_allocate_held :
    ∃ session : PoolSession Unit 1, session.acquired = [0] ∧
      session.Allocates := by
  obtain ⟨pool, acquired, _⟩ :=
    (Splits.fresh : Splits (start Unit 1) _).acquire none
  exact ⟨_, rfl, calls_allocate (.step (.initial rfl) (.acquire acquired))⟩

/-- The slot of a pool of one slot is held while any number of further
acquisitions fail. -/
theorem exists_failures (failures : Nat) :
    ∃ session : PoolSession Unit 1, (machine Unit 1).Reachable session ∧
      session.acquired.length = 1 ∧ session.failures = failures := by
  induction failures with
  | zero =>
      obtain ⟨pool, acquired, _⟩ :=
        (Splits.fresh : Splits (start Unit 1) _).acquire none
      exact ⟨_, .step (.initial rfl) (.acquire acquired), rfl, rfl⟩
  | succ failures induction =>
      obtain ⟨session, reachable, held, failed⟩ := induction
      obtain ⟨free, splits⟩ := reachable_splits reachable
      have total := splits.length_add
      obtain rfl : free = [] := List.length_eq_zero_iff.mp (by omega)
      obtain ⟨pool, acquired, _⟩ := splits.acquire none
      refine ⟨_, .step reachable (.acquire acquired), held, ?_⟩
      exact congrArg (· + 1) failed

/-- After 2^64 failed acquisitions the counter is back at zero. -/
theorem counter_wraps :
    ∃ session : PoolSession Unit 1, (machine Unit 1).Reachable session ∧
      session.failures = 2 ^ 64 ∧ session.pool.exhaustionCount.toNat = 0 := by
  obtain ⟨session, reachable, _, failed⟩ := exists_failures (2 ^ 64)
  obtain ⟨free, splits⟩ := reachable_splits reachable
  refine ⟨session, reachable, failed, ?_⟩
  rw [splits.counted, failed, UInt64.toNat_ofNat', Nat.mod_self]

end PoolSession

end Hydra
