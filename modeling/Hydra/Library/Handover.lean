import Mathlib.Data.List.Range
import Mathlib.Data.List.Perm.Basic

/-!
# Handing items over

A source takes one item after the other.  It offers the item in its hand until
the item is accepted, or drops it.  A source that keeps to this has passed on or
dropped every item exactly once, and the items that it has passed on are in the
order in which it took them.
-/

namespace Handover

variable {Item : Type*}

/-- What a source does with the item in its hand. -/
inductive Event (Item : Type*) where
  | silent
  | take (item : Item)
  | offer (item : Item) (accepted : Bool)
  | drop

/-- The item in the hand of the source, before and after an event. -/
def Event.Moves : Event Item → Option Item → Option Item → Prop
  | silent, before, after => after = before
  | take item, before, after => before = none ∧ after = some item
  | offer item true, before, after => before = some item ∧ after = none
  | offer item false, before, after => before = some item ∧ after = some item
  | drop, before, after => before.isSome ∧ after = none

/-- What has happened to the items.  They are numbered in the order in which
they were taken. -/
structure Record (Item : Type*) where
  taken : List Item
  passed : List (Nat × Item)
  dropped : List Nat

namespace Record

def empty : Record Item where
  taken := []
  passed := []
  dropped := []

/-- Only the item that was taken last can be passed on or dropped. -/
def add (record : Record Item) : Event Item → Record Item
  | .silent => record
  | .take item => { record with taken := record.taken ++ [item] }
  | .offer item true =>
      { record with
        passed := record.passed ++ [(record.taken.length - 1, item)] }
  | .offer _ false => record
  | .drop =>
      { record with dropped := record.dropped ++ [record.taken.length - 1] }

/-- Every item has been passed on or dropped, and only once. -/
def Complete (record : Record Item) : Prop :=
  (record.passed.map Prod.fst ++ record.dropped).Perm
    (List.range record.taken.length)

theorem Complete.total {record : Record Item} (complete : record.Complete) :
    record.taken.length = record.passed.length + record.dropped.length := by
  have lengths := List.Perm.length_eq complete
  rw [List.length_range, List.length_append, List.length_map] at lengths
  exact lengths.symm

/-- The items that were passed on are items that were taken, in their order;
and every item but the one in hand has been passed on or dropped. -/
structure Consistent (record : Record Item) (inHand : Option Item) : Prop where
  ordered : (record.passed.map Prod.fst).Pairwise (· < ·)
  genuine : ∀ entry ∈ record.passed,
    record.taken[entry.1]? = some entry.2
  settled : ∃ earlier, record.taken = earlier ++ inHand.toList ∧
    (record.passed.map Prod.fst ++ record.dropped).Perm
      (List.range earlier.length)

theorem empty_consistent : (empty : Record Item).Consistent none where
  ordered := .nil
  genuine _ member := absurd member List.not_mem_nil
  settled := ⟨[], rfl, .refl _⟩

variable {record : Record Item} {item : Item}

theorem Consistent.complete (consistent : record.Consistent none) :
    record.Complete := by
  obtain ⟨earlier, taken, settled⟩ := consistent.settled
  rw [Option.toList_none, List.append_nil] at taken
  rw [Complete, taken]
  exact settled

theorem Consistent.take (consistent : record.Consistent none) (item : Item) :
    (record.add (.take item)).Consistent (some item) where
  ordered := consistent.ordered
  genuine entry member := by
    have before := consistent.genuine entry member
    change (record.taken ++ [item])[entry.1]? = some entry.2
    rw [List.getElem?_append_left (List.getElem?_eq_some_iff.mp before).1]
    exact before
  settled := ⟨record.taken, rfl, consistent.complete⟩

/-- The number of the item in hand is larger than that of any item that has
been passed on. -/
theorem Consistent.fresh (consistent : record.Consistent (some item)) :
    ∃ earlier, record.taken = earlier ++ [item] ∧
      record.taken.length - 1 = earlier.length ∧
      (record.passed.map Prod.fst ++ record.dropped).Perm
        (List.range earlier.length) ∧
      ∀ number ∈ record.passed.map Prod.fst, number < earlier.length := by
  obtain ⟨earlier, taken, settled⟩ := consistent.settled
  refine ⟨earlier, taken, ?_, settled, ?_⟩
  · rw [taken, List.length_append]
    rfl
  · intro number member
    apply List.mem_range.mp
    exact settled.subset (List.mem_append_left _ member)

theorem Consistent.pass (consistent : record.Consistent (some item)) :
    (record.add (.offer item true)).Consistent none := by
  obtain ⟨earlier, taken, last, settled, below⟩ := consistent.fresh
  have passed : (record.add (.offer item true)).passed =
      record.passed ++ [(earlier.length, item)] := by
    rw [← last]
    rfl
  constructor
  case ordered =>
    rw [passed, List.map_append]
    apply List.pairwise_append.mpr
    refine ⟨consistent.ordered, List.pairwise_singleton _ _, ?_⟩
    intro number member next new
    obtain rfl := List.mem_singleton.mp new
    exact below number member
  case genuine =>
    intro entry member
    rw [passed] at member
    rcases List.mem_append.mp member with before | new
    · exact consistent.genuine entry before
    · obtain rfl := List.mem_singleton.mp new
      change record.taken[earlier.length]? = some item
      rw [taken]
      exact List.getElem?_concat_length
  case settled =>
    refine ⟨record.taken, (List.append_nil _).symm, ?_⟩
    rw [passed, taken, List.map_append, List.length_append,
      List.length_singleton, List.range_succ, List.append_assoc]
    apply List.Perm.trans _ (settled.append_right _)
    rw [List.append_assoc]
    exact List.perm_append_comm.append_left _

theorem Consistent.drop (consistent : record.Consistent (some item)) :
    (record.add .drop).Consistent none := by
  obtain ⟨earlier, taken, last, settled, _⟩ := consistent.fresh
  constructor
  case ordered => exact consistent.ordered
  case genuine => exact consistent.genuine
  case settled =>
    refine ⟨record.taken, (List.append_nil _).symm, ?_⟩
    change (record.passed.map Prod.fst ++
      (record.dropped ++ [record.taken.length - 1])).Perm _
    rw [last, taken, List.length_append, List.length_singleton,
      List.range_succ, ← List.append_assoc]
    exact settled.append_right _

theorem Consistent.add {event : Event Item} {before after : Option Item}
    (consistent : record.Consistent before)
    (moves : event.Moves before after) :
    (record.add event).Consistent after := by
  cases event with
  | silent =>
      obtain rfl : after = before := moves
      exact consistent
  | take item =>
      obtain ⟨rfl, rfl⟩ := moves
      exact consistent.take item
  | offer item accepted =>
      cases accepted with
      | true =>
          obtain ⟨rfl, rfl⟩ := moves
          exact consistent.pass
      | false =>
          obtain ⟨rfl, rfl⟩ := moves
          exact consistent
  | drop =>
      obtain ⟨held, rfl⟩ := moves
      obtain ⟨item, rfl⟩ := Option.isSome_iff_exists.mp held
      exact consistent.drop

end Record

end Handover
