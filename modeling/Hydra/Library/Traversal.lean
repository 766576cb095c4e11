import Mathlib.Data.List.Infix
import Mathlib.Data.List.Nodup

/-!
# Loops along links

A traversal goes from slot to slot.  At each one it reads the link to the next
slot and then does its work, which may release the slot that it stands on;
after that it goes on at the link, or it has ended before it did anything.
`run` executes a traversal and `turns` lists what it did on the way.

Both are followed along the list of slots that the links spell out: an
invariant that every turn passes on to the rest of the slots shows that the
traversal ends, that it comes to no slot twice, and that every link that it
holds still leads to a live slot after the work.
-/

/-- One loop.  `work` ends the loop with `none`, and else gives the link to go
on at and the state after the work. -/
structure Traversal (Fault Slot State : Type) where
  outOfFuel : Fault
  work : Slot → State → Except Fault (Option (Option Slot × State))

namespace Traversal

variable {Fault Slot State View : Type}

/-- What happened at one slot. -/
structure Turn (Slot State : Type) where
  slot : Slot
  next : Option Slot
  before : State
  after : State

def run (loop : Traversal Fault Slot State) :
    Nat → Option Slot → State → Except Fault State
  | 0, _, _ => .error loop.outOfFuel
  | _ + 1, none, state => .ok state
  | fuel + 1, some slot, state =>
      match loop.work slot state with
      | .error fault => .error fault
      | .ok none => .ok state
      | .ok (some (next, after)) => loop.run fuel next after

def turns (loop : Traversal Fault Slot State) :
    Nat → Option Slot → State → List (Turn Slot State)
  | 0, _, _ => []
  | _ + 1, none, _ => []
  | fuel + 1, some slot, state =>
      match loop.work slot state with
      | .error _ => []
      | .ok none => []
      | .ok (some (next, after)) =>
          { slot, next, before := state, after } :: loop.turns fuel next after

/-- Every turn passes the invariant on.  It speaks of the slots that are still
ahead, and of the state. -/
def Passes (loop : Traversal Fault Slot State)
    (inv : List Slot → State → Prop) : Prop :=
  ∀ slot rest state, inv (slot :: rest) state →
    loop.work slot state = .ok none ∨
      ∃ after, loop.work slot state = .ok (some (rest.head?, after)) ∧
        inv rest after

/-- The traversal ends without a fault and comes to no slot twice; the slot of
a turn is live before the work, and the link that it holds is live after it. -/
structure Orderly (loop : Traversal Fault Slot State)
    (live : State → Slot → Prop) (fuel : Nat) (current : Option Slot)
    (state : State) : Prop where
  ends : ∃ final, loop.run fuel current state = .ok final
  once : ((loop.turns fuel current state).map Turn.slot).Nodup
  live_before : ∀ turn ∈ loop.turns fuel current state,
    live turn.before turn.slot
  live_after : ∀ turn ∈ loop.turns fuel current state,
    ∀ slot, turn.next = some slot → live turn.after slot

section Equations

variable {loop : Traversal Fault Slot State} {slot : Slot} {state : State}

theorem run_stop (fuel : Nat) (stops : loop.work slot state = .ok none) :
    loop.run (fuel + 1) (some slot) state = .ok state := by
  simp [run, stops]

theorem turns_stop (fuel : Nat) (stops : loop.work slot state = .ok none) :
    loop.turns (fuel + 1) (some slot) state = [] := by
  simp [turns, stops]

theorem run_turn (fuel : Nat) {next : Option Slot} {after : State}
    (works : loop.work slot state = .ok (some (next, after))) :
    loop.run (fuel + 1) (some slot) state = loop.run fuel next after := by
  simp [run, works]

theorem turns_turn (fuel : Nat) {next : Option Slot} {after : State}
    (works : loop.work slot state = .ok (some (next, after))) :
    loop.turns (fuel + 1) (some slot) state =
      { slot, next, before := state, after } :: loop.turns fuel next after := by
  simp [turns, works]

/-- A loop with the equations of the traversal is its run. -/
theorem eq_run {other : Nat → Option Slot → State → Except Fault State}
    (exhausted : ∀ current state,
      other 0 current state = .error loop.outOfFuel)
    (ended : ∀ fuel state, other (fuel + 1) none state = .ok state)
    (turned : ∀ fuel slot state, other (fuel + 1) (some slot) state =
      loop.work slot state >>= fun outcome =>
        outcome.elim (.ok state) fun onward => other fuel onward.1 onward.2)
    (fuel : Nat) (current : Option Slot) (state : State) :
    other fuel current state = loop.run fuel current state := by
  induction fuel generalizing current state with
  | zero => exact exhausted current state
  | succ fuel induction =>
      cases current with
      | none => exact ended fuel state
      | some slot =>
          rw [turned, run]
          cases loop.work slot state with
          | error fault => rfl
          | ok outcome =>
              cases outcome with
              | none => rfl
              | some onward => exact induction onward.1 onward.2

/-- Every listed turn is one of the loop. -/
theorem work_of_mem_turns {turn : Turn Slot State} {fuel : Nat}
    {current : Option Slot} (member : turn ∈ loop.turns fuel current state) :
    loop.work turn.slot turn.before = .ok (some (turn.next, turn.after)) := by
  induction fuel generalizing current state with
  | zero => simp [turns] at member
  | succ fuel induction =>
      cases current with
      | none => simp [turns] at member
      | some slot =>
          rw [turns] at member
          split at member
          next => simp at member
          next => simp at member
          next next after works =>
            rcases List.mem_cons.mp member with rfl | later
            · exact works
            · exact induction later

end Equations

section Along

variable {loop : Traversal Fault Slot State}

variable {inv : List Slot → State → Prop}

/-- A traversal that passes an invariant on ends. -/
theorem run_along (passes : loop.Passes inv)
    {slots : List Slot} {state : State} {fuel : Nat}
    (enough : slots.length < fuel) (start : inv slots state) :
    ∃ final left, loop.run fuel slots.head? state = .ok final ∧
      inv left final := by
  induction slots generalizing state fuel with
  | nil =>
      obtain ⟨fuel, rfl⟩ := Nat.exists_eq_succ_of_ne_zero (Nat.ne_of_gt enough)
      exact ⟨state, [], rfl, start⟩
  | cons slot rest induction =>
      obtain ⟨fuel, rfl⟩ := Nat.exists_eq_succ_of_ne_zero
        (Nat.ne_of_gt (Nat.zero_lt_of_lt enough))
      rcases passes slot rest state start with
        stops | ⟨after, works, kept⟩
      · exact ⟨state, slot :: rest, run_stop fuel stops, start⟩
      · obtain ⟨final, left, ran, ends⟩ :=
          induction (Nat.lt_of_succ_lt_succ enough) kept
        exact ⟨final, left, (run_turn fuel works).trans ran, ends⟩

/-- The slots that a traversal comes to are the first ones, and each turn
passes the invariant on. -/
theorem turns_along (passes : loop.Passes inv)
    {slots : List Slot} {state : State} {fuel : Nat}
    (start : inv slots state) :
    (loop.turns fuel slots.head? state).map Turn.slot <+: slots ∧
      ∀ turn ∈ loop.turns fuel slots.head? state, ∃ rest,
        inv (turn.slot :: rest) turn.before ∧ turn.next = rest.head? ∧
          inv rest turn.after := by
  induction slots generalizing state fuel with
  | nil => cases fuel <;> simp [turns]
  | cons slot rest induction =>
      cases fuel with
      | zero => simp [turns]
      | succ fuel =>
          rw [List.head?_cons]
          rcases passes slot rest state start with
            stops | ⟨after, works, kept⟩
          · simp [turns_stop fuel stops]
          · obtain ⟨first, passed⟩ := @induction after fuel kept
            rw [turns_turn fuel works]
            constructor
            · exact (List.prefix_cons_inj slot).mpr first
            · intro turn member
              rcases List.mem_cons.mp member with rfl | later
              · exact ⟨rest, start, rfl, kept⟩
              · exact passed turn later

theorem orderly_along {live : State → Slot → Prop}
    (passes : loop.Passes inv)
    (alive : ∀ {slot rest state}, inv (slot :: rest) state → live state slot)
    {slots : List Slot} {state : State} {fuel : Nat}
    (enough : slots.length < fuel) (distinct : slots.Nodup)
    (start : inv slots state) :
    loop.Orderly live fuel slots.head? state := by
  obtain ⟨final, _, ran, _⟩ := run_along passes enough start
  obtain ⟨first, passed⟩ := @turns_along _ _ _ loop inv passes slots state fuel
    start
  refine ⟨⟨final, ran⟩, distinct.sublist first.sublist, ?_, ?_⟩
  · intro turn member
    obtain ⟨rest, here, _⟩ := passed turn member
    exact alive here
  · intro turn member slot next
    obtain ⟨rest, _, link, kept⟩ := passed turn member
    rw [next] at link
    cases rest with
    | nil => cases link
    | cons ahead rest =>
        obtain rfl := Option.some.inj link
        exact alive kept

/-- What is seen of the turns of a traversal, when it can be told from the
slots ahead. -/
theorem map_turns_along {inv : List Slot → State → List View → Prop}
    {observe : Turn Slot State → View}
    (ends : ∀ {state seen}, inv [] state seen → seen = [])
    (step : ∀ {slot rest state seen}, inv (slot :: rest) state seen →
      (loop.work slot state = .ok none ∧ seen = []) ∨
        ∃ after later,
          loop.work slot state = .ok (some (rest.head?, after)) ∧
          seen = observe { slot, next := rest.head?, before := state, after } ::
            later ∧
          inv rest after later)
    {slots : List Slot} {state : State} {seen : List View} {fuel : Nat}
    (enough : slots.length < fuel) (start : inv slots state seen) :
    (loop.turns fuel slots.head? state).map observe = seen := by
  induction slots generalizing state seen fuel with
  | nil =>
      obtain ⟨fuel, rfl⟩ := Nat.exists_eq_succ_of_ne_zero (Nat.ne_of_gt enough)
      rw [ends start]
      rfl
  | cons slot rest induction =>
      obtain ⟨fuel, rfl⟩ := Nat.exists_eq_succ_of_ne_zero
        (Nat.ne_of_gt (Nat.zero_lt_of_lt enough))
      rw [List.head?_cons]
      rcases step start with ⟨stops, rfl⟩ | ⟨after, later, works, rfl, kept⟩
      · rw [turns_stop fuel stops]
        rfl
      · rw [turns_turn fuel works, List.map_cons,
          induction (Nat.lt_of_succ_lt_succ enough) kept]

end Along

end Traversal
