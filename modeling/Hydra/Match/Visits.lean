import Hydra.Market.Statistics
import Hydra.Match.Orderly

/-!
# What a committing sweep visits

The turns of the loops tell which levels a sweep works on, and which orders it
comes to at each of them.  They are the visits that the market's sweep lists;
every visited level is one of the opposite side that crosses the incoming
order, and none is visited twice.
-/

namespace Hydra

open Allocation

variable {sizes : PoolSizes}

namespace Sweep

/-- The orders that the sweep of a mode comes to at one level. -/
def visitedAt (mode : MatchingMode) (incoming : Order)
    (level : LevelSlot sizes) (sweep : Sweep sizes) : List Order :=
  match sweep.book.levelPool.read level with
  | .error _ => []
  | .ok record =>
      match mode with
      | .priceTime =>
          ((orderLoop false incoming level).turns (sizes.orders + 1)
            record.head sweep).map fun turn =>
              turn.before.book.payload turn.slot
      | .proRata =>
          ((scanLoop false incoming sweep.book).turns (sizes.orders + 1)
            record.head
            { eligibleTotal := 0
              largest := none
              stats := sweep.stats }).map fun turn =>
                sweep.book.payload turn.slot

/-- The orders that a turn of the loop over the levels comes to. -/
def visitedIn (mode : MatchingMode) (incoming : Order)
    (turn : Traversal.Turn (LevelSlot sizes) (Sweep sizes)) : List Order :=
  visitedAt mode incoming turn.slot
    { turn.before with stats := turn.before.stats.countLevel }

end Sweep

namespace OrderBook

/-- The turns of the loop over the levels. -/
def levelTurns (book : OrderBook sizes) (mode : MatchingMode)
    (incoming : Order) :
    List (Traversal.Turn (LevelSlot sizes) (Sweep sizes)) :=
  (Sweep.levelLoop false incoming (Sweep.atLevel mode false incoming)).turns
    (sizes.levels + 1) (Sweep.bestOpposite book incoming) (.start book incoming)

def visitedLevels (book : OrderBook sizes) (mode : MatchingMode)
    (incoming : Order) : List (LevelSlot sizes) :=
  (book.levelTurns mode incoming).map Traversal.Turn.slot

def visited (book : OrderBook sizes) (mode : MatchingMode)
    (incoming : Order) : List Order :=
  (book.levelTurns mode incoming).flatMap (Sweep.visitedIn mode incoming)

end OrderBook

namespace Sweep

variable {layout : Layout sizes} {sweep : Sweep sizes} {side : Side}
variable {price : Int64} {level : LevelSlot sizes} {mode : MatchingMode}
variable {before after : List (Int64 × LevelSlot sizes)}

theorem orderLoop_visits (incoming : Order)
    (settled : sweep.book.Settled layout)
    (split : (sweep.book.priceMap side).entries =
      before ++ (price, level) :: after) :
    ((orderLoop false incoming level).turns (sizes.orders + 1)
        (layout.queue level).head? sweep).map
        (fun turn => turn.before.book.payload turn.slot) =
      visitedOrders incoming sweep.remaining.toNat
        ((layout.queue level).map sweep.book.payload) := by
  let inv : List (OrderSlot sizes) → Sweep sizes → List Order → Prop :=
    fun slots state seen =>
      Ahead sweep.book layout side price level before after slots state.book ∧
        seen = visitedOrders incoming state.remaining.toNat
          (slots.map state.book.payload)
  have ends : ∀ {state seen}, inv [] state seen → seen = [] := by
    intro state seen ahead
    exact ahead.2
  apply @Traversal.map_turns_along _ _ _ _ _ inv _ ends
  · intro slot rest state seen ahead
    obtain ⟨stateAhead, rfl⟩ := ahead
    by_cases remains : 0 < state.remaining
    · have positive : state.remaining.toNat ≠ 0 :=
        Nat.ne_of_gt (UInt32.lt_iff_toNat_lt.mp remains)
      obtain ⟨next, works, nextAhead, samePayload, progress⟩ :=
        orderLoop_ahead false incoming stateAhead remains
      have left : next.remaining.toNat = state.remaining.toNat -
          total (orderGrants incoming state.remaining.toNat
            (state.book.payload slot)) := by
        have counted := progress.remaining
        omega
      refine .inr ⟨next, _, works, ?_, nextAhead, rfl⟩
      rw [List.map_cons, visitedOrders_cons positive, left, samePayload]
      rfl
    · have empty : state.remaining.toNat = 0 := by
        rw [UInt32.lt_iff_toNat_lt] at remains
        exact Nat.eq_zero_of_not_pos remains
      refine .inl ⟨if_neg remains, ?_⟩
      rw [empty, visitedOrders_zero]
  · exact Nat.lt_succ_of_le (settled.queue_length_le level)
  · exact ⟨ahead_level settled split, rfl⟩

theorem scanLoop_visits (incoming : Order) {book : OrderBook sizes}
    (settled : book.Settled layout) (level : LevelSlot sizes)
    (stats : MatchStats) :
    ((scanLoop false incoming book).turns (sizes.orders + 1)
        (layout.queue level).head?
        { eligibleTotal := 0, largest := none, stats }).map
        (fun turn => book.payload turn.slot) =
      (layout.queue level).map book.payload := by
  let inv : List (OrderSlot sizes) → LevelScan sizes → List Order → Prop :=
    fun slots scan seen =>
      (∃ front, layout.queue level = front ++ slots ∧
        Scanned book incoming front scan) ∧ seen = slots.map book.payload
  have ends : ∀ {scan seen}, inv [] scan seen → seen = [] := by
    intro scan seen ahead
    exact ahead.2
  apply @Traversal.map_turns_along _ _ _ _ _ inv _ ends
  · intro slot rest scan seen ahead
    obtain ⟨⟨front, split, scanned⟩, rfl⟩ := ahead
    obtain ⟨next, works, nextScanned, _⟩ :=
      scanLoop_ahead false incoming settled split scanned
    exact .inr ⟨next, _, works, rfl,
      ⟨front ++ [slot], by simp [split], nextScanned⟩, rfl⟩
  · exact Nat.lt_succ_of_le (settled.queue_length_le level)
  · exact ⟨⟨[], (List.nil_append _).symm, rfl, rfl⟩, rfl⟩

theorem visitedAt_eq (mode : MatchingMode) (incoming : Order)
    (settled : sweep.book.Settled layout)
    (split : (sweep.book.priceMap side).entries =
      before ++ (price, level) :: after) :
    visitedAt mode incoming level sweep =
      (levelVisit mode incoming sweep.remaining.toNat
        ((layout.queue level).map sweep.book.payload)).visited := by
  have listed := OrderBook.listed_of_split split
  rw [visitedAt, ObjectPool.read_eq (settled.record listed)]
  cases mode with
  | priceTime => exact orderLoop_visits incoming settled split
  | proRata => exact scanLoop_visits incoming settled level sweep.stats

end Sweep

namespace OrderBook

variable {book : OrderBook sizes} {layout : Layout sizes}

/-- The levels that a sweep comes to have the orders that it visits there. -/
theorem levelTurns_visited (mode : MatchingMode) (incoming : Order)
    (settled : book.Settled layout) :
    (book.levelTurns mode incoming).map (Sweep.visitedIn mode incoming) =
      (book.view.sweep mode incoming).map Visit.visited := by
  let inv : List (LevelSlot sizes) → Sweep sizes → List (List Order) → Prop :=
    fun slots sweep seen => ∃ layout before rest,
      sweep.book.Settled layout ∧
      (sweep.book.priceMap incoming.side.opposite).entries = before ++ rest ∧
      slots = rest.map Prod.snd ∧
      seen = (sweepLadder mode incoming sweep.remaining.toNat
        (Sweep.ladderAhead layout sweep.book rest)).map Visit.visited
  have ends : ∀ {sweep seen}, inv [] sweep seen → seen = [] := by
    intro sweep seen ahead
    obtain ⟨_, _, rest, _, _, noSlots, rfl⟩ := ahead
    obtain rfl := List.map_eq_nil_iff.mp noSlots.symm
    rfl
  have startSettled : (Sweep.start book incoming).book.Settled layout := settled
  rw [levelTurns, Sweep.bestOpposite_eq, ← List.head?_map]
  apply @Traversal.map_turns_along _ _ _ _ _ inv _ ends
  · intro slot slots sweep seen ahead
    obtain ⟨layout, before, left, settled, split, slotsEq, rfl⟩ := ahead
    obtain ⟨⟨price, level⟩, rest, rfl, rfl, rfl⟩ :=
      List.map_eq_cons_iff.mp slotsEq.symm
    rcases Sweep.levelLoop_ahead (Sweep.atLevel_spec mode false incoming)
        settled split with
      ⟨stops, nothing⟩ | ⟨middle, middleLayout, middleBefore, works, _,
        middleSettled, middleSplit, visits, _⟩
    · refine .inl ⟨stops, ?_⟩
      rw [nothing]
      rfl
    · let counted : Sweep sizes :=
        { sweep with stats := sweep.stats.countLevel }
      have countedSettled : counted.book.Settled layout := settled
      refine .inr ⟨middle, _, works, ?_, middleLayout, middleBefore, rest,
        middleSettled, middleSplit, rfl, rfl⟩
      rw [visits, List.map_cons]
      congr 1
      exact (Sweep.visitedAt_eq mode incoming countedSettled split).symm
  · rw [List.length_map]
    exact Nat.lt_succ_of_le (Sweep.entries_length_le startSettled _)
  · refine ⟨layout, [], _, startSettled, (List.nil_append _).symm, rfl, ?_⟩
    rw [Market.sweep, settled.view_entries]
    rfl

theorem visited_eq (mode : MatchingMode) (incoming : Order)
    (settled : book.Settled layout) :
    book.visited mode incoming = book.view.visited mode incoming := by
  rw [visited, List.flatMap_def, levelTurns_visited mode incoming settled,
    ← List.flatMap_def]
  rfl

theorem visitedLevels_length (mode : MatchingMode) (incoming : Order)
    (settled : book.Settled layout) :
    (book.visitedLevels mode incoming).length =
      (book.view.sweep mode incoming).length := by
  have lengths := congrArg List.length
    (levelTurns_visited mode incoming settled)
  rwa [List.length_map, List.length_map, ← @List.length_map _ _ _
    Traversal.Turn.slot] at lengths

theorem visitedLevels_nodup (mode : MatchingMode) (incoming : Order)
    (settled : book.Settled layout) :
    (book.visitedLevels mode incoming).Nodup :=
  (sweeps_orderly ⟨layout, settled⟩ mode false incoming).levels.once

/-- Every visited level is one of the opposite side and crosses the order. -/
theorem visitedLevels_cross (mode : MatchingMode) (incoming : Order)
    (settled : book.Settled layout) {level : LevelSlot sizes}
    (member : level ∈ book.visitedLevels mode incoming) :
    ∃ price, book.Listed incoming.side.opposite price level ∧
      crosses price incoming = true := by
  obtain ⟨turn, turned, rfl⟩ := List.mem_map.mp member
  have works := Traversal.work_of_mem_turns turned
  rw [levelTurns, Sweep.bestOpposite_eq, ← List.head?_map] at turned
  obtain ⟨slots, ahead, _⟩ := (Traversal.turns_along
    (Sweep.levelLoop_passes mode false incoming
      (book.priceMap incoming.side.opposite).entries)
    (levelsAhead_start incoming settled)).2 turn turned
  obtain ⟨turnLayout, before, left, turnSettled, split, slotsEq, suffix⟩ :=
    ahead
  obtain ⟨⟨price, level⟩, rest, rfl, levelEq, _⟩ :=
    List.map_eq_cons_iff.mp slotsEq.symm
  obtain rfl : level = turn.slot := levelEq
  refine ⟨price, suffix.subset List.mem_cons_self, ?_⟩
  rcases Sweep.levelLoop_ahead (Sweep.atLevel_spec mode false incoming)
      turnSettled split with
    ⟨stops, _⟩ | ⟨middle, _, _, _, reaches, _⟩
  · rw [stops] at works
    cases works
  · exact reaches

end OrderBook

end Hydra
