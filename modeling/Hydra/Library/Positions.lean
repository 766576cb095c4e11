import Mathlib.Data.List.Basic

/-!
# The first and the last position of a value

The searches of a string from either end.  A list that contains a value is cut
at its first and at its last occurrence in exactly one way, and the searches
return the places of the cuts.
-/

namespace Positions

variable {Item : Type*} [DecidableEq Item]

def findLastOf (value : Item) : List Item → Option Nat
  | [] => none
  | item :: items =>
      match findLastOf value items with
      | some position => some (position + 1)
      | none => if item = value then some 0 else none

/-- The first position of a value from `start` on. -/
def findFrom (value : Item) (start : Nat) (items : List Item) : Option Nat :=
  ((items.drop start).findIdx? (· = value)).map (· + start)

variable {value : Item} {items front back : List Item}

theorem findLastOf_of_not_mem (absent : value ∉ items) :
    findLastOf value items = none := by
  induction items with
  | nil => rfl
  | cons item items induction =>
      rw [List.mem_cons, not_or] at absent
      rw [findLastOf, induction absent.2]
      exact if_neg (Ne.symm absent.1)

theorem findLastOf_split (last : value ∉ back) :
    findLastOf value (front ++ value :: back) = some front.length := by
  induction front with
  | nil =>
      rw [List.nil_append, findLastOf, findLastOf_of_not_mem last]
      exact if_pos rfl
  | cons item front induction =>
      rw [List.cons_append, findLastOf, induction, List.length_cons]

theorem exists_last (member : value ∈ items) :
    ∃ front back, items = front ++ value :: back ∧ value ∉ back := by
  induction items with
  | nil => cases member
  | cons item items induction =>
      by_cases later : value ∈ items
      · obtain ⟨front, back, rfl, last⟩ := induction later
        exact ⟨item :: front, back, rfl, last⟩
      · rcases List.mem_cons.mp member with rfl | inside
        · exact ⟨[], items, rfl, later⟩
        · exact absurd inside later

theorem findIdx?_of_not_mem (absent : value ∉ items) :
    items.findIdx? (· = value) = none := by
  rw [List.findIdx?_eq_none_iff]
  intro item member
  rw [decide_eq_false_iff_not]
  rintro rfl
  exact absent member

theorem findFrom_of_not_mem {start : Nat}
    (absent : value ∉ items.drop start) :
    findFrom value start items = none := by
  rw [findFrom, findIdx?_of_not_mem absent, Option.map_none]

theorem findFrom_split {start : Nat} (first : value ∉ front.drop start)
    (long : start ≤ front.length) :
    findFrom value start (front ++ value :: back) = some front.length := by
  rw [findFrom, List.drop_append_of_le_length long, List.findIdx?_append,
    findIdx?_of_not_mem first, List.findIdx?_cons, List.length_drop]
  simp [Nat.sub_add_cancel long]

/-- The list is cut at the position that the search returns. -/
theorem take_append_of_findFrom {start position : Nat}
    (found : findFrom value start items = some position) :
    items.take position ++ value :: items.drop (position + 1) = items := by
  obtain ⟨offset, located, rfl⟩ := Option.map_eq_some_iff.mp found
  obtain ⟨inside, same, _⟩ := List.findIdx?_eq_some_iff_getElem.mp located
  rw [List.length_drop] at inside
  have bound : offset + start < items.length := by omega
  have here : items[offset + start] = value := by
    simpa [List.getElem_drop, Nat.add_comm] using same
  rw [← here, ← List.drop_eq_getElem_cons bound, List.take_append_drop]

end Positions
