import Hydra.Market.Matching
import Mathlib.Data.List.Perm.Subperm

/-!
# What a sweep grants

Prices along a ladder get worse, so the levels that cross an incoming order
are the front of the ladder.  A sweep of either mode therefore hands out the
smaller of the order's quantity and the quantity of the resting orders that
can trade with it, and a price-time sweep is one greedy allocation over them.
-/

namespace Hydra

open Allocation

/-- Whether a resting order can trade with the incoming one. -/
def matchable (incoming order : Order) : Bool :=
  crosses order.price incoming && tradable incoming order

/-- The orders of a ladder that can trade with the incoming one. -/
def matchables (incoming : Order) (entries : List (Int64 × List Order)) :
    List Order :=
  (entries.flatMap Prod.snd).filter (matchable incoming)

/-- The entries are sorted, best price first, and hold orders at their
prices. -/
structure Tiered (side : Side) (entries : List (Int64 × List Order)) :
    Prop where
  sorted : entries.Pairwise fun left right => side.better left.1 right.1
  placed : ∀ {price queue order}, (price, queue) ∈ entries → order ∈ queue →
    order.price = price

section Crossing

variable {incoming : Order} {left right : Int64}

theorem crosses_iff {price : Int64} {incoming : Order} :
    crosses price incoming = true ↔
      match incoming.side with
      | .buy => price.toInt ≤ incoming.price.toInt
      | .sell => incoming.price.toInt ≤ price.toInt := by
  rw [crosses]
  cases incoming.side with
  | buy => simp [Int64.le_iff_toInt_le]
  | sell => simp [Int64.le_iff_toInt_le]

theorem crosses_of_better
    (better : incoming.side.opposite.better left right)
    (worse : crosses right incoming = true) :
    crosses left incoming = true := by
  rw [crosses_iff] at worse ⊢
  rw [Side.better_iff] at better
  cases sideEq : incoming.side with
  | buy =>
      simp only [sideEq, Side.opposite] at better worse ⊢
      omega
  | sell =>
      simp only [sideEq, Side.opposite] at better worse ⊢
      omega

end Crossing

section Tiers

variable {mode : MatchingMode} {incoming : Order} {amount : Nat}
variable {side : Side} {price : Int64} {queue : List Order}
variable {entries rest : List (Int64 × List Order)}

theorem Tiered.tail (tiered : Tiered side ((price, queue) :: rest)) :
    Tiered side rest where
  sorted := (List.pairwise_cons.mp tiered.sorted).2
  placed listed member := tiered.placed (List.mem_cons_of_mem _ listed) member

theorem Tiered.matchables_eq_nil
    (tiered : Tiered incoming.side.opposite ((price, queue) :: rest))
    (apart : crosses price incoming = false) :
    matchables incoming ((price, queue) :: rest) = [] := by
  apply List.filter_eq_nil_iff.mpr
  intro order member
  obtain ⟨entry, listed, queued⟩ := List.mem_flatMap.mp member
  have priceEq : order.price = entry.1 := tiered.placed listed queued
  have entryApart : crosses entry.1 incoming = false := by
    rcases List.mem_cons.mp listed with rfl | later
    · exact apart
    · rw [Bool.eq_false_iff]
      intro crossing
      have better := (List.pairwise_cons.mp tiered.sorted).1 entry later
      rw [crosses_of_better better crossing] at apart
      cases apart
  simp [matchable, priceEq, entryApart]

theorem Tiered.matchables_cons
    (tiered : Tiered side ((price, queue) :: rest))
    (crossing : crosses price incoming = true) :
    matchables incoming ((price, queue) :: rest) =
      eligible incoming queue ++ matchables incoming rest := by
  rw [matchables, List.flatMap_cons, List.filter_append]
  congr 1
  apply List.filter_congr
  intro order member
  rw [matchable, tiered.placed List.mem_cons_self member, crossing,
    Bool.true_and]

/-- What a sweep does at the best level of its ladder. -/
theorem Tiered.sweepLadder_cons (mode : MatchingMode) (amount : Nat)
    (tiered : Tiered incoming.side.opposite ((price, queue) :: rest)) :
    (sweepLadder mode incoming amount ((price, queue) :: rest) = [] ∧
      (amount = 0 ∨ matchables incoming ((price, queue) :: rest) = [])) ∨
    (sweepLadder mode incoming amount ((price, queue) :: rest) =
        levelVisit mode incoming amount queue ::
          sweepLadder mode incoming
            (amount - total (levelVisit mode incoming amount queue).grants)
            rest ∧
      matchables incoming ((price, queue) :: rest) =
        eligible incoming queue ++ matchables incoming rest) := by
  by_cases continues : amount ≠ 0 ∧ crosses price incoming = true
  · refine .inr ⟨?_, tiered.matchables_cons continues.2⟩
    rw [sweepLadder, if_pos continues]
  · refine .inl ⟨?_, ?_⟩
    · rw [sweepLadder, if_neg continues]
    · by_cases exhausted : amount = 0
      · exact .inl exhausted
      · have apart : crosses price incoming = false := by
          rw [Bool.eq_false_iff]
          intro crossing
          exact continues ⟨exhausted, crossing⟩
        exact .inr (tiered.matchables_eq_nil apart)

/-- A sweep hands out all that is asked for or all that can trade. -/
theorem total_sweepLadder (tiered : Tiered incoming.side.opposite entries) :
    total (allGrants (sweepLadder mode incoming amount entries)) =
      min amount (demand Order.size (matchables incoming entries)) := by
  induction entries generalizing amount with
  | nil => simp [sweepLadder, allGrants, matchables]
  | cons entry rest induction =>
      rcases tiered.sweepLadder_cons mode amount with
        ⟨stops, nothing⟩ | ⟨visits, split⟩
      · rw [stops]
        rcases nothing with exhausted | none_left
        · simp [allGrants, exhausted]
        · simp [allGrants, none_left]
      · rw [visits, split, allGrants, List.flatMap_cons, total_append]
        change _ + total (allGrants _) = _
        rw [induction tiered.tail, total_levelVisit, demand_append]
        omega

theorem grants_priceTime (tiered : Tiered incoming.side.opposite entries) :
    allGrants (sweepLadder .priceTime incoming amount entries) =
      greedy Order.size amount (matchables incoming entries) := by
  induction entries generalizing amount with
  | nil => rfl
  | cons entry rest induction =>
      rcases tiered.sweepLadder_cons .priceTime amount with
        ⟨stops, nothing⟩ | ⟨visits, split⟩
      · rw [stops]
        rcases nothing with exhausted | none_left
        · rw [exhausted, greedy_zero]
          rfl
        · rw [none_left]
          rfl
      · rw [visits, split, greedy_append, allGrants, List.flatMap_cons]
        change _ ++ allGrants _ = _
        rw [induction tiered.tail]
        rfl

end Tiers

section Items

variable {mode : MatchingMode} {incoming : Order} {amount : Nat}
variable {queue : List Order} {entries : List (Int64 × List Order)}

/-- No order of a level receives two grants. -/
theorem items_levelVisit :
    List.Subperm
      ((levelVisit mode incoming amount queue).grants.map Prod.fst)
      (eligible incoming queue) := by
  cases mode with
  | priceTime => exact (greedy_items _ _ _).sublist.subperm
  | proRata =>
      let orders := eligible incoming queue
      let shares := proportional Order.size
        (min amount (demand Order.size orders)) orders
      have kept : (shares.filter fun grant => decide (0 < grant.2)).Sublist
          shares := List.filter_sublist
      have shared : (shares.map Prod.fst).Perm orders :=
        proportional_items Order.size _ _
      exact (kept.map Prod.fst).subperm.trans shared.subperm

theorem items_sweepLadder (tiered : Tiered incoming.side.opposite entries) :
    List.Subperm
      ((allGrants (sweepLadder mode incoming amount entries)).map Prod.fst)
      (matchables incoming entries) := by
  induction entries generalizing amount with
  | nil => exact List.nil_subperm
  | cons entry rest induction =>
      rcases tiered.sweepLadder_cons mode amount with
        ⟨stops, _⟩ | ⟨visits, split⟩
      · rw [stops]
        exact List.nil_subperm
      · rw [visits, split, allGrants, List.flatMap_cons, List.map_append]
        exact List.Subperm.append items_levelVisit (induction tiered.tail)

theorem bounds_sweepLadder {grant : Grant}
    (member : grant ∈ allGrants (sweepLadder mode incoming amount entries)) :
    grant.2 ≤ grant.1.size ∧ (0 < grant.1.size → 0 < grant.2) := by
  induction entries generalizing amount with
  | nil => simp [sweepLadder, allGrants] at member
  | cons entry rest induction =>
      rw [sweepLadder] at member
      split at member
      next =>
        rw [allGrants, List.flatMap_cons] at member
        rcases List.mem_append.mp member with here | later
        · exact (mem_levelVisit here).2.2
        · exact induction later
      next => simp [allGrants] at member

end Items

namespace Market

variable {market : Market} {mode : MatchingMode} {incoming : Order}

/-- The resting orders that can trade with the incoming one: best price first,
then oldest first. -/
def matchable (market : Market) (incoming : Order) : List Order :=
  (market.orders incoming.side.opposite).filter (Hydra.matchable incoming)

theorem mem_matchable {order : Order} :
    order ∈ market.matchable incoming ↔
      order ∈ market.orders incoming.side.opposite ∧
        crosses order.price incoming = true ∧
        tradable incoming order = true := by
  rw [matchable, List.mem_filter, Hydra.matchable, Bool.and_eq_true]

theorem Valid.tiered (valid : market.Valid) (side : Side) :
    Tiered side (market.ladder side).entries where
  sorted := (market.ladder side).sorted
  placed listed member := (valid.placed listed member).1

theorem total_sweep (valid : market.Valid) (mode : MatchingMode)
    (incoming : Order) :
    total (allGrants (market.sweep mode incoming)) =
      min incoming.size (demand Order.size (market.matchable incoming)) :=
  total_sweepLadder (valid.tiered _)

theorem sweep_priceTime (valid : market.Valid) (incoming : Order) :
    allGrants (market.sweep .priceTime incoming) =
      greedy Order.size incoming.size (market.matchable incoming) :=
  grants_priceTime (valid.tiered _)

theorem items_sweep (valid : market.Valid) :
    List.Subperm ((allGrants (market.sweep mode incoming)).map Prod.fst)
      (market.matchable incoming) :=
  items_sweepLadder (valid.tiered _)

/-- Where the order of a grant rests, and how much of it is taken. -/
theorem mem_sweep (valid : market.Valid) {grant : Grant}
    (member : grant ∈ allGrants (market.sweep mode incoming)) :
    market.Rests grant.1 ∧ grant.1.side = incoming.side.opposite ∧
      crosses grant.1.price incoming = true ∧
      tradable incoming grant.1 = true ∧
      grant.2 ≤ grant.1.size ∧ (0 < grant.1.size → 0 < grant.2) := by
  have listed := (items_sweep valid).subset (List.mem_map_of_mem member)
  obtain ⟨rests, crossing, trades⟩ := mem_matchable.mp listed
  obtain ⟨rests, sideEq⟩ := valid.mem_orders_iff.mp rests
  exact ⟨rests, sideEq, crossing, trades, bounds_sweepLadder member⟩

/-- No order gives more than it has. -/
theorem sweep_bounded (valid : market.Valid) :
    ∀ grant ∈ allGrants (market.sweep mode incoming),
      grant.2 ≤ grant.1.size := by
  intro grant member
  exact (mem_sweep valid member).2.2.2.2.1

end Market

end Hydra
