import Mathlib.Algebra.BigOperators.Group.List.Basic
import Mathlib.Data.List.Perm.Subperm
import Mathlib.Data.Nat.Basic
import Mathlib.Tactic.Ring

/-!
# Sharing an amount among sized items

An allocation is a list of grants, each an item with the quantity it receives.
Two ways to share an amount among items of bounded size are developed here:

* `greedy` serves the items in order, each up to its size;
* `proportional` gives every item the floor of its proportional share, hands
  the rounding residual first to the first item of maximal size, and then tops
  up the remaining items in order, each up to its headroom.

Both hand out exactly the smaller of the amount and the total size, and no
grant exceeds the size of its item.
-/

namespace Allocation

variable {Item Image : Type*} (size : Item → Nat)

/-- The quantity handed out by a list of grants. -/
def total (grants : List (Item × Nat)) : Nat :=
  (grants.map Prod.snd).sum

@[simp] theorem total_nil : total ([] : List (Item × Nat)) = 0 := rfl

@[simp] theorem total_cons (grant : Item × Nat) (grants : List (Item × Nat)) :
    total (grant :: grants) = grant.2 + total grants := by
  simp [total]

@[simp] theorem total_append (left right : List (Item × Nat)) :
    total (left ++ right) = total left + total right := by
  simp [total]

/-- Dropping the empty grants does not change what is handed out. -/
@[simp] theorem total_filter_pos (grants : List (Item × Nat)) :
    total (grants.filter fun grant => decide (0 < grant.2)) = total grants := by
  induction grants with
  | nil => rfl
  | cons grant grants induction =>
      by_cases positive : 0 < grant.2
      · simp [positive, induction]
      · simp [induction, Nat.eq_zero_of_not_pos positive]

/-- The total size of the items. -/
def demand (items : List Item) : Nat := (items.map size).sum

@[simp] theorem demand_nil : demand size [] = 0 := rfl

@[simp] theorem demand_cons (item : Item) (items : List Item) :
    demand size (item :: items) = size item + demand size items := by
  simp [demand]

@[simp] theorem demand_append (left right : List Item) :
    demand size (left ++ right) = demand size left + demand size right := by
  simp [demand]

theorem size_le_demand {item : Item} {items : List Item}
    (member : item ∈ items) : size item ≤ demand size items := by
  obtain ⟨front, back, rfl⟩ := List.append_of_mem member
  simp only [demand_append, demand_cons]
  omega

/-- Serve the items in order until the amount is used up. -/
def greedy : Nat → List Item → List (Item × Nat)
  | _, [] => []
  | amount, item :: items =>
      if amount = 0 then []
      else
        (item, min amount (size item)) ::
          greedy (amount - min amount (size item)) items

@[simp] theorem greedy_nil (amount : Nat) :
    greedy size amount [] = [] := rfl

@[simp] theorem greedy_zero (items : List Item) :
    greedy size 0 items = [] := by
  cases items <;> simp [greedy]

theorem greedy_cons {amount : Nat} (positive : amount ≠ 0) (item : Item)
    (items : List Item) :
    greedy size amount (item :: items) =
      (item, min amount (size item)) ::
        greedy size (amount - min amount (size item)) items := by
  rw [greedy, if_neg positive]

theorem total_greedy (amount : Nat) (items : List Item) :
    total (greedy size amount items) = min amount (demand size items) := by
  induction items generalizing amount with
  | nil => simp
  | cons item items induction =>
      by_cases empty : amount = 0
      · simp [empty]
      · rw [greedy_cons size empty, total_cons, induction, demand_cons]
        omega

theorem greedy_append (amount : Nat) (left right : List Item) :
    greedy size amount (left ++ right) =
      greedy size amount left ++
        greedy size (amount - total (greedy size amount left)) right := by
  induction left generalizing amount with
  | nil => simp
  | cons item left induction =>
      by_cases empty : amount = 0
      · simp [empty]
      · rw [List.cons_append, greedy_cons size empty, greedy_cons size empty,
          induction, total_cons, List.cons_append, Nat.sub_sub]

theorem mem_greedy {amount : Nat} {items : List Item} {grant : Item × Nat}
    (member : grant ∈ greedy size amount items) :
    grant.1 ∈ items ∧ grant.2 ≤ size grant.1 ∧
      (0 < size grant.1 → 0 < grant.2) := by
  induction items generalizing amount with
  | nil => simp at member
  | cons item items induction =>
      by_cases empty : amount = 0
      · simp [empty] at member
      · rw [greedy_cons size empty] at member
        rcases List.mem_cons.mp member with rfl | later
        · have served : 0 < size item → 0 < min amount (size item) := by
            omega
          exact ⟨List.mem_cons_self, Nat.min_le_right _ _, served⟩
        · obtain ⟨listed, bounded, served⟩ := induction later
          exact ⟨List.mem_cons_of_mem _ listed, bounded, served⟩

theorem greedy_items (amount : Nat) (items : List Item) :
    (greedy size amount items).map Prod.fst <+: items := by
  induction items generalizing amount with
  | nil => simp
  | cons item items induction =>
      by_cases empty : amount = 0
      · simp [empty]
      · rw [greedy_cons size empty, List.map_cons]
        exact (List.prefix_cons_inj item).mpr (induction _)

theorem greedy_map (change : Image → Item) (amount : Nat)
    (items : List Image) :
    greedy size amount (items.map change) =
      (greedy (size ∘ change) amount items).map (Prod.map change id) := by
  induction items generalizing amount with
  | nil => rfl
  | cons item items induction =>
      by_cases empty : amount = 0
      · simp [empty]
      · rw [List.map_cons, greedy_cons size empty,
          greedy_cons (size ∘ change) empty, induction]
        rfl

section Parts

variable (cut : Item → Nat → Item)

/-- What a greedy allocation leaves of the items, where `cut` takes a quantity
from an item. -/
def leftover : Nat → List Item → List Item
  | _, [] => []
  | amount, item :: items =>
      if size item ≤ amount then leftover (amount - size item) items
      else cut item amount :: items

/-- The quantity handed out to the items of a kind. -/
def granted (kind : Item → Bool) (grants : List (Item × Nat)) : Nat :=
  total (grants.filter fun grant => kind grant.1)

theorem granted_greedy_cons (kind : Item → Bool) (amount : Nat) (item : Item)
    (items : List Item) :
    granted kind (greedy size amount (item :: items)) =
      (if kind item then min amount (size item) else 0) +
        granted kind (greedy size (amount - min amount (size item)) items) := by
  by_cases empty : amount = 0
  · simp [empty, granted]
  · rw [greedy_cons size empty, granted, List.filter_cons]
    split <;> simp [granted]

section Cut

variable {size cut}

theorem demand_leftover
    (cutSize : ∀ item amount, amount ≤ size item →
      size (cut item amount) = size item - amount)
    (amount : Nat) (items : List Item) :
    demand size (leftover size cut amount items) =
      demand size items - amount := by
  induction items generalizing amount with
  | nil => simp [leftover]
  | cons item items induction =>
      rw [leftover, demand_cons]
      by_cases small : size item ≤ amount
      · rw [if_pos small, induction]
        omega
      · rw [if_neg small, demand_cons, cutSize item amount (by omega)]
        omega

/-- Serving an amount in two parts, the second from what the first leaves,
gives every kind of items what serving it at once gives. -/
theorem granted_greedy_add
    (cutSize : ∀ item amount, amount ≤ size item →
      size (cut item amount) = size item - amount) {kind : Item → Bool}
    (cutKind : ∀ item amount, kind (cut item amount) = kind item)
    (first second : Nat) (items : List Item) :
    granted kind (greedy size (first + second) items) =
      granted kind (greedy size first items) +
        granted kind (greedy size second
          (leftover size cut first items)) := by
  induction items generalizing first with
  | nil => simp [leftover, granted]
  | cons item items induction =>
      rw [granted_greedy_cons, granted_greedy_cons, leftover]
      by_cases small : size item ≤ first
      · -- The first part goes past the item.
        have whole : first + second - min (first + second) (size item) =
            first - size item + second := by omega
        have part : first - min first (size item) = first - size item := by
          omega
        rw [if_pos small, whole, part, induction,
          Nat.min_eq_right small, Nat.min_eq_right (by omega)]
        omega
      · -- The first part ends inside the item, where the second one begins.
        have inside : size (cut item first) = size item - first :=
          cutSize item first (by omega)
        have rest : first + second - min (first + second) (size item) =
            second - min second (size item - first) := by omega
        have part : first - min first (size item) = 0 := by omega
        rw [if_neg small, granted_greedy_cons, inside, cutKind, rest, part,
          greedy_zero]
        simp only [granted, List.filter_nil, total_nil]
        split <;> omega

end Cut

end Parts

/-- The rounded-down proportional share of an item of size `quantity`. -/
def share (amount whole quantity : Nat) : Nat := amount * quantity / whole

theorem share_le {amount whole : Nat} (bounded : amount ≤ whole)
    (quantity : Nat) : share amount whole quantity ≤ quantity := by
  apply Nat.div_le_of_le_mul
  exact Nat.mul_le_mul_right quantity bounded

/-- What the rounded-down shares of the items add up to. -/
def floors (amount whole : Nat) (items : List Item) : Nat :=
  demand (fun item => share amount whole (size item)) items

theorem mul_floors_le (amount whole : Nat) (items : List Item) :
    whole * floors size amount whole items ≤ amount * demand size items := by
  induction items with
  | nil => simp [floors]
  | cons item items induction =>
      have head : whole * share amount whole (size item) ≤
          amount * size item := Nat.mul_div_le _ _
      simp only [floors, demand_cons, Nat.mul_add] at induction ⊢
      omega

/-- The rounded-down shares never exceed the shared amount. -/
theorem floors_le (amount : Nat) {items : List Item}
    (positive : 0 < demand size items) :
    floors size amount (demand size items) items ≤ amount := by
  have bound := mul_floors_le size amount (demand size items) items
  rw [Nat.mul_comm amount] at bound
  exact Nat.le_of_mul_le_mul_left bound positive

/-- The items in front of the first item of maximal size, that item, and the
items behind it. -/
def splitLargest : List Item → Option (List Item × Item × List Item)
  | [] => none
  | item :: items =>
      match splitLargest items with
      | none => some ([], item, [])
      | some (front, largest, back) =>
          if size item < size largest then some (item :: front, largest, back)
          else some ([], item, items)

theorem splitLargest_eq_none {items : List Item} :
    splitLargest size items = none ↔ items = [] := by
  cases items with
  | nil => simp [splitLargest]
  | cons item items =>
      simp only [splitLargest, reduceCtorEq, iff_false]
      split
      · simp
      · split <;> simp

theorem splitLargest_spec {items front back : List Item} {largest : Item}
    (found : splitLargest size items = some (front, largest, back)) :
    items = front ++ largest :: back ∧
      (∀ item ∈ front, size item < size largest) ∧
      ∀ item ∈ back, size item ≤ size largest := by
  induction items generalizing front largest back with
  | nil => simp [splitLargest] at found
  | cons item items induction =>
      rw [splitLargest] at found
      split at found
      next missing =>
        obtain ⟨rfl, rfl, rfl⟩ : [] = front ∧ item = largest ∧ [] = back := by
          simpa using found
        rw [splitLargest_eq_none] at missing
        simp [missing]
      next restFront best restBack restFound =>
        obtain ⟨split, frontSmaller, backSmaller⟩ := induction restFound
        split at found
        next smaller =>
          obtain ⟨rfl, rfl, rfl⟩ : item :: restFront = front ∧
              best = largest ∧ restBack = back := by simpa using found
          refine ⟨by simp [split], ?_, backSmaller⟩
          simpa using ⟨smaller, frontSmaller⟩
        next larger =>
          obtain ⟨rfl, rfl, rfl⟩ : [] = front ∧ item = largest ∧
              items = back := by simpa using found
          refine ⟨rfl, by simp, ?_⟩
          intro other member
          rw [split] at member
          rcases List.mem_append.mp member with inFront | inBack
          · have := frontSmaller other inFront
            omega
          · rcases List.mem_cons.mp inBack with rfl | later
            · omega
            · have := backSmaller other later
              omega

/-- The split is determined by the maximality of its item. -/
theorem splitLargest_eq {front back : List Item} {largest : Item}
    (frontSmaller : ∀ item ∈ front, size item < size largest)
    (backSmaller : ∀ item ∈ back, size item ≤ size largest) :
    splitLargest size (front ++ largest :: back) =
      some (front, largest, back) := by
  induction front with
  | nil =>
      rw [List.nil_append, splitLargest]
      split
      next missing =>
        rw [splitLargest_eq_none] at missing
        rw [missing]
      next restFront best restBack found =>
        have best_le : size best ≤ size largest :=
          backSmaller best (by rw [(splitLargest_spec size found).1]; simp)
        rw [if_neg (by omega)]
  | cons item front induction =>
      have smaller := frontSmaller item List.mem_cons_self
      have rest := induction fun other member =>
        frontSmaller other (List.mem_cons_of_mem _ member)
      simp [splitLargest, rest, smaller]

/-- A further item is the largest only if it exceeds all others. -/
theorem splitLargest_append_singleton (items : List Item) (item : Item) :
    splitLargest size (items ++ [item]) =
      match splitLargest size items with
      | none => some ([], item, [])
      | some (front, largest, back) =>
          if size largest < size item then some (items, item, [])
          else some (front, largest, back ++ [item]) := by
  cases found : splitLargest size items with
  | none =>
      rw [splitLargest_eq_none] at found
      subst found
      rfl
  | some parts =>
      obtain ⟨front, largest, back⟩ := parts
      obtain ⟨split, frontSmaller, backSmaller⟩ := splitLargest_spec size found
      by_cases larger : size largest < size item
      · have smaller : ∀ other ∈ items, size other < size item := by
          intro other member
          rw [split] at member
          rcases List.mem_append.mp member with inFront | inBack
          · exact (frontSmaller other inFront).trans larger
          · rcases List.mem_cons.mp inBack with rfl | later
            · exact larger
            · exact (backSmaller other later).trans_lt larger
        simp only [larger, if_true]
        exact splitLargest_eq size smaller (by simp)
      · simp only [larger, if_false]
        rw [split, List.append_assoc, List.cons_append]
        apply splitLargest_eq size frontSmaller
        intro other member
        rcases List.mem_append.mp member with inBack | last
        · exact backSmaller other inBack
        · rw [List.mem_singleton.mp last]
          exact Nat.le_of_not_lt larger

/-- Give every item its rounded-down share, and as much of the residual as
still fits, in order. -/
def topUp (amount whole : Nat) : Nat → List Item → List (Item × Nat)
  | _, [] => []
  | residual, item :: items =>
      let floor := share amount whole (size item)
      let extra := min residual (size item - floor)
      (item, floor + extra) :: topUp amount whole (residual - extra) items

/-- Proportional shares rounded down; the residual goes to the first largest
item and then, in order, to the others.  The largest item is served last. -/
def proportional (amount : Nat) (items : List Item) : List (Item × Nat) :=
  match splitLargest size items with
  | none => []
  | some (front, largest, back) =>
      let whole := demand size items
      let residual := amount - floors size amount whole items
      let floor := share amount whole (size largest)
      let extra := min residual (size largest - floor)
      topUp size amount whole (residual - extra) (front ++ back) ++
        [(largest, floor + extra)]

section Laws

variable {amount whole : Nat}

/-- The room left in the items above their rounded-down shares. -/
def headroom (amount whole : Nat) (items : List Item) : Nat :=
  demand (fun item => size item - share amount whole (size item)) items

theorem floors_add_headroom (bounded : amount ≤ whole) (items : List Item) :
    floors size amount whole items + headroom size amount whole items =
      demand size items := by
  induction items with
  | nil => rfl
  | cons item items induction =>
      have fits := share_le bounded (size item)
      simp only [floors, headroom, demand_cons] at induction ⊢
      omega

theorem total_topUp (residual : Nat) (items : List Item) :
    total (topUp size amount whole residual items) =
      floors size amount whole items +
        min residual (headroom size amount whole items) := by
  induction items generalizing residual with
  | nil => simp [topUp, floors, headroom]
  | cons item items induction =>
      simp only [topUp, total_cons, induction, floors, headroom, demand_cons]
      omega

theorem mem_topUp {residual : Nat} {items : List Item} {grant : Item × Nat}
    (bounded : amount ≤ whole)
    (member : grant ∈ topUp size amount whole residual items) :
    grant.1 ∈ items ∧ share amount whole (size grant.1) ≤ grant.2 ∧
      grant.2 ≤ size grant.1 := by
  induction items generalizing residual with
  | nil => simp [topUp] at member
  | cons item items induction =>
      rw [topUp] at member
      rcases List.mem_cons.mp member with rfl | later
      · have fits := share_le bounded (size item)
        exact ⟨List.mem_cons_self, by simp, by simp; omega⟩
      · obtain ⟨listed, bounds⟩ := induction later
        exact ⟨List.mem_cons_of_mem _ listed, bounds⟩

@[simp] theorem topUp_items (residual : Nat) (items : List Item) :
    (topUp size amount whole residual items).map Prod.fst = items := by
  induction items generalizing residual with
  | nil => rfl
  | cons item items induction => simp [topUp, induction]

theorem topUp_map (change : Image → Item) (residual : Nat)
    (items : List Image) :
    topUp size amount whole residual (items.map change) =
      (topUp (size ∘ change) amount whole residual items).map
        (Prod.map change id) := by
  induction items generalizing residual with
  | nil => rfl
  | cons item items induction => simp [topUp, induction]

end Laws

theorem demand_split {front back : List Item} {largest : Item} :
    demand size (front ++ largest :: back) =
      demand size (front ++ back) + size largest := by
  simp only [demand_append, demand_cons]
  omega

/-- The residual always fits into the headroom of the items, so a proportional
allocation hands out its whole amount. -/
theorem total_proportional {amount : Nat} {items : List Item}
    (bounded : amount ≤ demand size items) :
    total (proportional size amount items) = amount := by
  rw [proportional]
  split
  next missing =>
    rw [splitLargest_eq_none] at missing
    subst missing
    exact (Nat.le_zero.mp bounded).symm
  next front largest back found =>
    have split := (splitLargest_spec size found).1
    have room := floors_add_headroom size bounded items
    have spent : floors size amount (demand size items) items ≤ amount := by
      by_cases positive : 0 < demand size items
      · exact floors_le size amount positive
      · omega
    have fits := share_le bounded (size largest)
    have floorsSplit : floors size amount (demand size items) items =
        floors size amount (demand size items) (front ++ back) +
          share amount (demand size items) (size largest) := by
      rw [floors, congrArg (demand _) split, demand_split]
      rfl
    have headroomSplit : headroom size amount (demand size items) items =
        headroom size amount (demand size items) (front ++ back) +
          (size largest - share amount (demand size items) (size largest)) := by
      rw [headroom, congrArg (demand _) split, demand_split]
      rfl
    simp only [total_append, total_topUp, total_cons, total_nil]
    omega

theorem mem_proportional {amount : Nat} {items : List Item}
    {grant : Item × Nat} (bounded : amount ≤ demand size items)
    (member : grant ∈ proportional size amount items) :
    grant.1 ∈ items ∧
      share amount (demand size items) (size grant.1) ≤ grant.2 ∧
      grant.2 ≤ size grant.1 := by
  rw [proportional] at member
  split at member
  next => simp at member
  next front largest back found =>
    have split := (splitLargest_spec size found).1
    rcases List.mem_append.mp member with others | last
    · obtain ⟨listed, bounds⟩ := mem_topUp size bounded others
      refine ⟨?_, bounds⟩
      rw [split]
      rcases List.mem_append.mp listed with inFront | inBack
      · exact List.mem_append_left _ inFront
      · exact List.mem_append_right _ (List.mem_cons_of_mem _ inBack)
    · rw [List.mem_singleton] at last
      have fits := share_le bounded (size largest)
      subst last
      exact ⟨by rw [split]; simp, Nat.le_add_right _ _, by simp; omega⟩

theorem proportional_items (amount : Nat) (items : List Item) :
    ((proportional size amount items).map Prod.fst).Perm items := by
  rw [proportional]
  split
  next missing =>
    rw [splitLargest_eq_none] at missing
    simp [missing]
  next front largest back found =>
    rw [(splitLargest_spec size found).1, List.map_append, topUp_items,
      List.append_assoc]
    exact (List.perm_append_singleton largest back).append_left front

theorem splitLargest_map (change : Image → Item) (items : List Image) :
    splitLargest size (items.map change) =
      (splitLargest (size ∘ change) items).map fun found =>
        (found.1.map change, change found.2.1, found.2.2.map change) := by
  induction items with
  | nil => rfl
  | cons item items induction =>
      simp only [List.map_cons, splitLargest, induction]
      cases splitLargest (size ∘ change) items with
      | none => rfl
      | some found =>
          simp only [Option.map_some, Function.comp_apply]
          split <;> rfl

theorem demand_map (change : Image → Item) (items : List Image) :
    demand size (items.map change) = demand (size ∘ change) items := by
  simp [demand]

theorem floors_map (change : Image → Item) (amount whole : Nat)
    (items : List Image) :
    floors size amount whole (items.map change) =
      floors (size ∘ change) amount whole items := by
  simp [floors, demand, Function.comp_def]

theorem proportional_map (change : Image → Item) (amount : Nat)
    (items : List Image) :
    proportional size amount (items.map change) =
      (proportional (size ∘ change) amount items).map
        (Prod.map change id) := by
  rw [proportional, splitLargest_map, proportional]
  cases splitLargest (size ∘ change) items with
  | none => rfl
  | some found =>
      simp [demand_map, floors_map, ← topUp_map, List.map_append]

section Exhausted

variable {grants : List (Item × Nat)}

theorem total_le_demand (bounded : ∀ grant ∈ grants, grant.2 ≤ size grant.1) :
    total grants ≤ demand size (grants.map Prod.fst) := by
  induction grants with
  | nil => exact Nat.le_refl 0
  | cons grant rest induction =>
      have fits := bounded grant List.mem_cons_self
      have restFits := induction fun other member =>
        bounded other (List.mem_cons_of_mem _ member)
      rw [total_cons, List.map_cons, demand_cons]
      omega

theorem eq_size_of_total (bounded : ∀ grant ∈ grants, grant.2 ≤ size grant.1)
    (full : demand size (grants.map Prod.fst) ≤ total grants)
    {grant : Item × Nat} (member : grant ∈ grants) :
    grant.2 = size grant.1 := by
  obtain ⟨front, back, rfl⟩ := List.append_of_mem member
  have frontFits := total_le_demand size fun other listed =>
    bounded other (List.mem_append_left _ listed)
  have backFits := total_le_demand size fun other listed =>
    bounded other (List.mem_append_right _ (List.mem_cons_of_mem _ listed))
  have fits := bounded grant member
  simp only [List.map_append, List.map_cons, demand_append, demand_cons,
    total_append, total_cons] at full
  omega

/-- Grants that hand out the whole demand of some items serve every item
completely. -/
theorem served_of_total {items : List Item}
    (listed : List.Subperm (grants.map Prod.fst) items)
    (bounded : ∀ grant ∈ grants, grant.2 ≤ size grant.1)
    (full : demand size items ≤ total grants) {item : Item}
    (member : item ∈ items) (positive : 0 < size item) :
    (item, size item) ∈ grants := by
  obtain ⟨served, servedPerm, sublist⟩ := listed
  obtain ⟨rest, split⟩ := sublist.exists_perm_append
  have perm := split.trans (servedPerm.append_right rest)
  have whole : demand size items =
      demand size (grants.map Prod.fst) + demand size rest := by
    rw [← demand_append]
    exact (perm.map size).sum_nat
  have fits := total_le_demand size bounded
  rcases List.mem_append.mp (perm.subset member) with granted | missed
  · obtain ⟨grant, grantMember, rfl⟩ := List.mem_map.mp granted
    have sized := eq_size_of_total size bounded (by omega) grantMember
    rw [← sized]
    exact grantMember
  · have left := size_le_demand size missed
    omega

end Exhausted

end Allocation
