import Hydra.Match.Fill
import Hydra.Match.Turns

/-!
# The loop over the levels

Both sweeps share the loop that walks a price map from its best entry.  It
reads the successor of a level before it works on the level, which may be
unlisted and released meanwhile; the entries behind it stay.  `LevelSpec` is
what the loop needs to know of the work at one level.
-/

namespace Hydra

open Allocation

variable {sizes : PoolSizes}

namespace Sweep

/-- The visit of a level is what the sweep did between two states. -/
def Made (visit : Visit) (dryRun : Bool) (incoming : Order)
    (placed : Order → Prop) (sweep next : Sweep sizes) : Prop :=
  Progress dryRun incoming placed
    (.charge incoming visit.visited visit.grants) visit.grants sweep next

/-- What both allocation modes have to show of their work at one level. -/
def LevelSpec (dryRun : Bool) (incoming : Order) (mode : MatchingMode)
    (atLevel : LevelSlot sizes → Sweep sizes → Except Fault (Sweep sizes)) :
    Prop :=
  ∀ {sweep : Sweep sizes} {layout : Layout sizes} {side : Side}
    {price : Int64} {level : LevelSlot sizes}
    {before after : List (Int64 × LevelSlot sizes)},
    sweep.book.Settled layout →
    (sweep.book.priceMap side).entries = before ++ (price, level) :: after →
    0 < sweep.remaining.toNat →
    ∃ next nextLayout, atLevel level sweep = .ok next ∧
      LevelState sweep.book layout side price level before after next.book
        nextLayout ∧
      Made (levelVisit mode incoming sweep.remaining.toNat
        ((layout.queue level).map sweep.book.payload)) dryRun incoming
        (atPlace side price) sweep next

/-- The maker rested on the opposite side, at a price within the limit. -/
def withinLimit (incoming maker : Order) : Prop :=
  maker.side = incoming.side.opposite ∧ crosses maker.price incoming = true

/-- The visits are what the sweep did between two states. -/
def MadeAll (visits : List Visit) (dryRun : Bool) (incoming : Order)
    (sweep next : Sweep sizes) : Prop :=
  Progress dryRun incoming (withinLimit incoming)
    (MatchStats.chargeVisits incoming visits) (allGrants visits) sweep next

variable {layout : Layout sizes} {sweep : Sweep sizes}
variable {incoming : Order} {mode : MatchingMode}
variable {before rest : List (Int64 × LevelSlot sizes)}

theorem nextLevel_eq {price : Int64} {level : LevelSlot sizes}
    {book : OrderBook sizes}
    (split : (book.priceMap incoming.side.opposite).entries =
      before ++ (price, level) :: rest) :
    (if incoming.side = .buy then book.nextAskLevel price
      else book.nextBidLevel price) = rest.head?.map Prod.snd := by
  cases sideEq : incoming.side with
  | buy =>
      rw [sideEq] at split
      exact SortedMap.after?_of_split split
  | sell =>
      rw [sideEq] at split
      exact SortedMap.after?_of_split split

/-- The levels ahead of a sweep with their orders, as the market shows them. -/
def ladderAhead (layout : Layout sizes) (book : OrderBook sizes)
    (rest : List (Int64 × LevelSlot sizes)) : List (Int64 × List Order) :=
  rest.map fun entry => (entry.1, (layout.queue entry.2).map book.payload)

theorem levelLoop_ahead {dryRun : Bool}
    {atLevel : LevelSlot sizes → Sweep sizes → Except Fault (Sweep sizes)}
    (spec : LevelSpec dryRun incoming mode atLevel)
    (settled : sweep.book.Settled layout) {price : Int64}
    {level : LevelSlot sizes}
    (split : (sweep.book.priceMap incoming.side.opposite).entries =
      before ++ (price, level) :: rest) :
    ((levelLoop dryRun incoming atLevel).work level sweep = .ok none ∧
      sweepLadder mode incoming sweep.remaining.toNat
        (ladderAhead layout sweep.book ((price, level) :: rest)) = []) ∨
    ∃ middle middleLayout middleBefore,
      let visit := levelVisit mode incoming sweep.remaining.toNat
        ((layout.queue level).map sweep.book.payload)
      (levelLoop dryRun incoming atLevel).work level sweep =
        .ok (some ((rest.map Prod.snd).head?, middle)) ∧
      crosses price incoming = true ∧
      middle.book.Settled middleLayout ∧
      (middle.book.priceMap incoming.side.opposite).entries =
        middleBefore ++ rest ∧
      sweepLadder mode incoming sweep.remaining.toNat
          (ladderAhead layout sweep.book ((price, level) :: rest)) =
        visit :: sweepLadder mode incoming middle.remaining.toNat
          (ladderAhead middleLayout middle.book rest) ∧
      Progress dryRun incoming (withinLimit incoming)
        (fun stats => stats.chargeVisit incoming visit) visit.grants sweep
        middle := by
  have listed := OrderBook.listed_of_split split
  have read := ObjectPool.read_eq (settled.record listed)
  rw [levelLoop, ladderAhead, List.map_cons, sweepLadder]
  by_cases remains : 0 < sweep.remaining
  · have remainsNat : 0 < sweep.remaining.toNat :=
      UInt32.lt_iff_toNat_lt.mp remains
    by_cases reaches : crosses price incoming = true
    · let counted : Sweep sizes :=
        { sweep with stats := sweep.stats.commit dryRun .countLevel }
      have counting : Progress dryRun incoming (withinLimit incoming)
          .countLevel [] sweep counted :=
        Progress.counting incoming _ _ sweep
      have countedSettled : counted.book.Settled layout := settled
      obtain ⟨middle, middleLayout, run, state, made⟩ :=
        spec countedSettled split remainsNat
      obtain ⟨here, _, middleSplit⟩ := state.entries
      have middleRemaining : middle.remaining.toNat =
          sweep.remaining.toNat - total
            (levelVisit mode incoming sweep.remaining.toNat
              ((layout.queue level).map sweep.book.payload)).grants := by
        have balance : middle.remaining.toNat + total
            (levelVisit mode incoming sweep.remaining.toNat
              ((layout.queue level).map sweep.book.payload)).grants =
            sweep.remaining.toNat := made.remaining
        omega
      have inside : ∀ maker, atPlace incoming.side.opposite price maker →
          withinLimit incoming maker := by
        intro maker placed
        exact ⟨placed.1, placed.2.symm ▸ reaches⟩
      refine .inr ⟨middle, middleLayout, _, ?_, reaches, state.settled,
        middleSplit, ?_, ?_⟩
      · dsimp only
        rw [if_pos remains, read, ok_bind]
        simp only [OrderBook.levelRecord, reaches, if_true, nextLevel_eq split]
        rw [show atLevel level _ = Except.ok middle from run, ok_bind,
          List.head?_map]
        rfl
      · rw [if_pos ⟨Nat.ne_of_gt remainsNat, reaches⟩, middleRemaining,
          ladderAhead, state.after_orders fun entry member =>
            List.mem_append_right _ member]
      · apply (counting.trans (made.mono inside)).recount
        intro stats
        rfl
    · refine .inl ⟨?_, if_neg fun both => reaches both.2⟩
      dsimp only
      rw [if_pos remains, read, ok_bind, if_neg]
      · rfl
      · simpa [OrderBook.levelRecord] using reaches
  · have empty : sweep.remaining.toNat = 0 := by
      rw [UInt32.lt_iff_toNat_lt] at remains
      exact Nat.eq_zero_of_not_pos remains
    refine .inl ⟨if_neg remains, if_neg fun both => both.1 empty⟩

theorem sweepLevels_spec {dryRun : Bool}
    {atLevel : LevelSlot sizes → Sweep sizes → Except Fault (Sweep sizes)}
    (spec : LevelSpec dryRun incoming mode atLevel) {fuel : Nat}
    (enough : rest.length < fuel) (settled : sweep.book.Settled layout)
    (split : (sweep.book.priceMap incoming.side.opposite).entries =
      before ++ rest) :
    ∃ next, sweepLevels dryRun incoming atLevel fuel
        (rest.map Prod.snd).head? sweep = .ok next ∧
      next.book.WellFormed ∧
      MadeAll (sweepLadder mode incoming sweep.remaining.toNat
        (ladderAhead layout sweep.book rest)) dryRun incoming sweep next := by
  rw [sweepLevels_run]
  induction rest generalizing fuel sweep layout before with
  | nil =>
      obtain ⟨fuel, rfl⟩ := Nat.exists_eq_succ_of_ne_zero (Nat.ne_of_gt enough)
      refine ⟨sweep, rfl, ⟨layout, settled⟩, ?_⟩
      exact Progress.refl _ _ _ _
  | cons entry rest induction =>
      obtain ⟨price, level⟩ := entry
      obtain ⟨fuel, rfl⟩ := Nat.exists_eq_succ_of_ne_zero
        (Nat.ne_of_gt (Nat.zero_lt_of_lt enough))
      rw [List.map_cons, List.head?_cons]
      rcases levelLoop_ahead spec settled split with
        ⟨stops, nothing⟩ |
        ⟨middle, middleLayout, _, works, _, middleSettled, middleSplit, visits,
          first⟩
      · rw [nothing]
        exact ⟨sweep, Traversal.run_stop fuel stops, ⟨layout, settled⟩,
          Progress.refl _ _ _ _⟩
      · obtain ⟨next, restRun, wellFormed, restMade⟩ :=
          induction (Nat.lt_of_succ_lt_succ enough) middleSettled middleSplit
        refine ⟨next, (Traversal.run_turn fuel works).trans restRun,
          wellFormed, ?_⟩
        rw [visits]
        exact first.trans restMade

/-- The best level of the opposite side, as the source reads it. -/
theorem bestOpposite_eq (book : OrderBook sizes) (incoming : Order) :
    bestOpposite book incoming =
      (book.priceMap incoming.side.opposite).entries.head?.map Prod.snd := by
  cases sideEq : incoming.side with
  | buy =>
      rw [bestOpposite, sideEq]
      rfl
  | sell =>
      rw [bestOpposite, sideEq]
      rfl

theorem entries_length_le (settled : sweep.book.Settled layout) (side : Side) :
    (sweep.book.priceMap side).entries.length ≤ sizes.levels := by
  have count := settled.levelCount_le
  have shown : (sweep.book.view.ladder side).entries.length =
      (sweep.book.priceMap side).entries.length := by
    rw [settled.view_entries, List.length_map]
  rw [Market.levelCount] at count
  cases side <;> omega

/-- A whole sweep of either mode is the sweep of the market. -/
theorem sweep_spec {dryRun : Bool}
    {atLevel : LevelSlot sizes → Sweep sizes → Except Fault (Sweep sizes)}
    (spec : LevelSpec dryRun incoming mode atLevel)
    {book : OrderBook sizes} (settled : book.Settled layout) :
    ∃ next, sweepLevels dryRun incoming atLevel (sizes.levels + 1)
        (bestOpposite book incoming) (.start book incoming) = .ok next ∧
      next.book.WellFormed ∧
      MadeAll (book.view.sweep mode incoming) dryRun incoming
        (.start book incoming) next := by
  have startSettled : (Sweep.start book incoming).book.Settled layout := settled
  have enough := entries_length_le startSettled incoming.side.opposite
  rw [bestOpposite_eq, ← List.head?_map, Market.sweep, settled.view_entries]
  exact sweepLevels_spec spec (Nat.lt_succ_of_le enough) startSettled
    (List.nil_append _).symm

end Sweep

end Hydra
