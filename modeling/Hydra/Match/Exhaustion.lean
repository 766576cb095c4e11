import Hydra.Book.Exact
import Hydra.Book.Undo
import Hydra.Market.Shortage
import Hydra.Match.Refinement

/-!
# What the exhaustion counters count

No sweep moves the exhaustion counters: cancellations and fills only give slots
back.  A call counts one exhaustion when what is left of its order finds no
slot, and none otherwise.
-/

namespace Hydra

open Allocation

variable {sizes : PoolSizes}

namespace Sweep

variable (sweep : Sweep sizes) (incoming : Order) (dryRun : Bool)
variable (level : LevelSlot sizes) (resting : OrderSlot sizes)

/-- The sweep has not moved the counters. -/
def SameCounts (sweep next : Sweep sizes) : Prop :=
  sweep.book.SameCounts next.book

theorem SameCounts.refl : sweep.SameCounts sweep :=
  OrderBook.SameCounts.refl sweep.book

theorem dropFilled_counts (node : RestingOrder sizes) :
    Ensures (sweep.dropFilled node) sweep.SameCounts := by
  apply Ensures.ite
  · apply (sweep.book.cancelOrder_counts node.orderId).bind
    intro cancelled same
    exact .ok same
  · exact .ok (.refl sweep)

theorem applyFill_counts (fillQty : UInt32) :
    Ensures (sweep.applyFill resting level fillQty incoming)
      sweep.SameCounts := by
  apply Ensures.step
  intro node
  apply (sweep.book.modifyOrder_counts resting _).bind
  intro filled filledSame
  apply (filled.modifyLevel_counts level _).bind
  intro counted countedSame
  apply Ensures.step
  intro left
  apply (dropFilled_counts _ left).weaken
  intro next dropped
  exact (filledSame.trans countedSame).trans dropped

theorem sweepLevels_counts
    {atLevel : LevelSlot sizes → Sweep sizes → Except Fault (Sweep sizes)}
    (step : ∀ level (sweep : Sweep sizes),
      Ensures (atLevel level sweep) sweep.SameCounts)
    (fuel : Nat) (current : Option (LevelSlot sizes)) :
    Ensures (sweepLevels dryRun incoming atLevel fuel current sweep)
      sweep.SameCounts := by
  induction fuel generalizing current sweep with
  | zero => exact .error _ _
  | succ fuel induction =>
      cases current with
      | none => exact .ok (.refl sweep)
      | some level =>
          apply Ensures.ite
          · apply Ensures.step
            intro record
            apply Ensures.ite
            · apply (step level _).bind
              intro visited same
              apply (induction visited _).weaken
              intro next later
              exact same.trans later
            · exact .ok (.refl sweep)
          · exact .ok (.refl sweep)

theorem visitOrder_counts :
    Ensures (visitOrder dryRun incoming level resting sweep)
      sweep.SameCounts := by
  apply Ensures.step
  intro node
  apply Ensures.ite
  · exact .ok (.refl sweep)
  · cases dryRun with
    | false => exact applyFill_counts _ incoming level resting _
    | true => exact .ok (.refl sweep)

theorem visitOrders_counts (fuel : Nat) (current : Option (OrderSlot sizes)) :
    Ensures (visitOrders dryRun incoming level fuel current sweep)
      sweep.SameCounts := by
  induction fuel generalizing current sweep with
  | zero => exact .error _ _
  | succ fuel induction =>
      cases current with
      | none => exact .ok (.refl sweep)
      | some resting =>
          apply Ensures.ite
          · apply Ensures.step
            intro node
            apply (visitOrder_counts sweep incoming dryRun level resting).bind
            intro visited same
            apply (induction visited _).weaken
            intro next later
            exact same.trans later
          · exact .ok (.refl sweep)

theorem sweepPriceTime_counts :
    Ensures (sweepPriceTime dryRun incoming sweep) sweep.SameCounts := by
  apply sweepLevels_counts
  intro level sweep
  apply Ensures.step
  intro record
  exact visitOrders_counts sweep incoming dryRun level _ _

theorem applyShares_counts (levelFillQty : UInt32) (eligibleTotal : UInt64)
    (largest : OrderSlot sizes) (fuel : Nat)
    (current : Option (OrderSlot sizes)) (residual : UInt32) :
    Ensures (applyShares incoming level levelFillQty eligibleTotal largest fuel
      current residual sweep) sweep.SameCounts := by
  induction fuel generalizing current residual sweep with
  | zero => exact .error _ _
  | succ fuel induction =>
      cases current with
      | none => exact .ok (.refl sweep)
      | some resting =>
          apply Ensures.step
          intro node
          apply Ensures.ite
          · exact induction sweep _ _
          · apply Ensures.ite
            · apply (applyFill_counts sweep incoming level resting _).bind
              intro filled same
              apply (induction filled _ _).weaken
              intro next later
              exact same.trans later
            · exact induction sweep _ _

theorem fillLevel_counts (fifoHead : Option (OrderSlot sizes))
    (levelFillQty : UInt32) (eligibleTotal : UInt64)
    (largest : Option (OrderSlot sizes)) :
    Ensures (fillLevel incoming level fifoHead levelFillQty eligibleTotal
      largest sweep) sweep.SameCounts := by
  apply Ensures.step
  intro totalFloor
  cases largest with
  | none => exact .error _ _
  | some largest =>
      apply Ensures.step
      intro node
      apply (applyShares_counts sweep incoming level _ _ _ _ _ _).bind
      intro shared same
      apply Ensures.ite
      · apply (applyFill_counts shared incoming level largest _).weaken
        intro next later
        exact same.trans later
      · exact .ok same

theorem proRataAtLevel_counts :
    Ensures (proRataAtLevel dryRun incoming level sweep) sweep.SameCounts := by
  apply Ensures.step
  intro record
  apply Ensures.step
  intro scan
  apply Ensures.ite
  · exact .ok (.refl sweep)
  · cases dryRun with
    | false => exact fillLevel_counts _ incoming level _ _ _ _
    | true => exact .ok (.refl sweep)

theorem proRataSweep_counts :
    Ensures (proRataSweep dryRun incoming sweep) sweep.SameCounts := by
  apply sweepLevels_counts
  intro level sweep
  exact proRataAtLevel_counts sweep incoming dryRun level

end Sweep

/-- One more if it is this pool that is short. -/
def Shortage.count (pool : Shortage) (shortage : Option Shortage) : Nat :=
  if shortage = some pool then 1 else 0

namespace OrderBook

/-- The counters have moved by the shortage. -/
structure Counts (shortage : Option Shortage) (book next : OrderBook sizes) :
    Prop where
  orders : next.orderPool.exhaustionCount =
    book.orderPool.exhaustionCount + .ofNat (Shortage.orders.count shortage)
  levels : next.levelPool.exhaustionCount =
    book.levelPool.exhaustionCount + .ofNat (Shortage.levels.count shortage)

variable {book next last : OrderBook sizes} {layout : Layout sizes}
variable {shortage : Option Shortage} {incoming : Order}

theorem SameCounts.counts (same : SameCounts book next) :
    Counts none book next where
  orders := same.orders.trans (UInt64.add_zero _).symm
  levels := same.levels.trans (UInt64.add_zero _).symm

theorem Counts.after (same : SameCounts book next)
    (counts : Counts shortage next last) : Counts shortage book last where
  orders := by
    rw [← same.orders]
    exact counts.orders
  levels := by
    rw [← same.levels]
    exact counts.levels

theorem addOrder_exhaustion (settled : book.Settled layout)
    (absent : book.view.find? incoming.orderId = none) :
    Ensures (book.addOrder incoming) fun result =>
      Counts (book.view.shortage? sizes incoming) book result.2 := by
  have unfound : book.findOrder incoming.orderId = none := by
    have found := settled.find?_view incoming.orderId
    rw [absent] at found
    exact Option.map_eq_none_iff.mp found.symm
  have refuses := refuses_iff settled incoming
  rw [Market.Accepts, and_iff_right absent] at refuses
  by_cases room : book.view.HasRoom sizes incoming
  · rw [Market.shortage?_eq_none.mpr room]
    obtain ⟨added, next, run, isAdded, _⟩ := addOrder_spec settled incoming
    rw [decide_eq_true ⟨absent, room⟩] at isAdded
    have same := (book.addOrder_counts incoming).returned run
    rw [run]
    exact .ok (same (Option.isSome_iff_ne_none.mp isAdded)).counts
  · rw [addOrder_refused settled (refuses.mpr room)]
    refine .ok ?_
    have full : book.orderPool.freeSlots = [] ↔
        ¬ book.view.orderCount < sizes.orders := by
      rw [settled.orders_free.freeSlots_eq]
      exact settled.freeOrders_eq_nil.trans Nat.not_lt.symm
    rw [countRefusal, if_neg (not_not.mpr unfound), Market.shortage?,
      if_neg room]
    by_cases spare : book.view.orderCount < sizes.orders
    · rw [if_neg fun empty => full.mp empty spare, if_pos spare]
      exact ⟨rfl, rfl⟩
    · rw [if_pos (full.mpr spare), if_neg spare]
      exact ⟨rfl, rfl⟩

theorem sweepMode_counts (book : OrderBook sizes) (mode : MatchingMode)
    (dryRun : Bool) (incoming : Order) :
    Ensures (book.sweepMode mode dryRun incoming) fun next =>
      SameCounts book next.book := by
  cases mode with
  | priceTime =>
      exact Sweep.sweepPriceTime_counts (.start book incoming) incoming dryRun
  | proRata =>
      exact Sweep.proRataSweep_counts (.start book incoming) incoming dryRun

/-- What is left of an order counts the shortage that it meets. -/
theorem restRemainder_exhaustion (settled : book.Settled layout)
    (absent : book.view.find? incoming.orderId = none) (remaining : UInt32) :
    Ensures (book.restRemainder incoming remaining) fun next =>
      Counts (if incoming.tif = .gtc ∧ 0 < remaining ∧
          book.view.blocks incoming = false then
        book.view.shortage? sizes { incoming with qty := remaining }
      else none) book next := by
  rw [restRemainder]
  by_cases rests : incoming.tif = .gtc ∧ 0 < remaining
  · rw [if_pos rests, wouldRestCrossed_spec incoming settled]
    cases blocks : book.view.blocks incoming with
    | true =>
        rw [if_neg (by simp)]
        exact .ok (SameCounts.refl book).counts
    | false =>
        rw [if_pos ⟨rests.1, rests.2, rfl⟩]
        apply (@addOrder_exhaustion _ book layout
          { incoming with qty := remaining } settled absent).bind
        intro added counts
        exact .ok counts
  · rw [if_neg rests, if_neg fun all => rests ⟨all.1, all.2.1⟩]
    exact .ok (SameCounts.refl book).counts

theorem commitMatch_exhaustion (settled : book.Settled layout)
    {mode : MatchingMode} (accepted : ¬ book.view.Rejects mode incoming) :
    Ensures (book.commitMatch mode incoming) fun result =>
      Counts (book.view.matchShortage? sizes mode incoming) book
        result.book := by
  obtain ⟨swept, run, ⟨sweptLayout, sweptSettled⟩, made⟩ :=
    sweepMode_spec mode false incoming settled
  have same := (book.sweepMode_counts mode false incoming).returned run
  have view : swept.book.view = book.view.traded mode incoming := by
    have view := made.view
    rw [if_neg Bool.false_ne_true] at view
    exact view
  have absent : swept.book.view.find? incoming.orderId = none := by
    rw [view]
    exact (Market.changed_applyFills settled.view_valid _).find?_none
      settled.view_valid (not_not.mp fun present => accepted (.inl present))
  have remaining : swept.remaining = UInt32.ofNat (incoming.size -
      total (allGrants (book.view.sweep mode incoming))) := by
    have balance : swept.remaining.toNat +
        total (allGrants (book.view.sweep mode incoming)) = incoming.size :=
      made.remaining
    rw [← balance, Nat.add_sub_cancel, UInt32.ofNat_toNat]
  have positive : 0 < swept.remaining ↔ 0 < incoming.size -
      total (allGrants (book.view.sweep mode incoming)) := by
    have balance : swept.remaining.toNat +
        total (allGrants (book.view.sweep mode incoming)) = incoming.size :=
      made.remaining
    rw [UInt32.lt_iff_toNat_lt, ← balance, Nat.add_sub_cancel]
    rfl
  have shortage : book.view.matchShortage? sizes mode incoming =
      if incoming.tif = .gtc ∧ 0 < swept.remaining ∧
          swept.book.view.blocks incoming = false then
        swept.book.view.shortage? sizes
          { incoming with qty := swept.remaining }
      else none := by
    rw [Market.matchShortage?, Market.leftover?, view, ← remaining]
    by_cases rests : incoming.tif = .gtc ∧ 0 < swept.remaining ∧
        (book.view.traded mode incoming).blocks incoming = false
    · obtain ⟨patient, remains, unblocked⟩ := rests
      rw [if_pos ⟨accepted, patient, positive.mp remains, unblocked⟩,
        if_pos ⟨patient, remains, unblocked⟩]
      rfl
    · rw [if_neg, if_neg rests]
      · rfl
      · intro all
        obtain ⟨_, patient, remains, unblocked⟩ := all
        exact rests ⟨patient, positive.mpr remains, unblocked⟩
  rw [commitMatch, run, shortage]
  apply (restRemainder_exhaustion sweptSettled absent swept.remaining).bind
  intro rested counts
  exact .ok (counts.after same)

theorem matchOrder_exhaustion (settled : book.Settled layout)
    (load : Nat → MatchingMode) (incoming : Order) :
    Ensures (book.matchOrder load incoming) fun result =>
      Counts (book.view.matchShortage? sizes (load 0) incoming) book
        result.book := by
  rw [matchOrder_eq load incoming settled]
  by_cases rejects : book.view.Rejects (load 0) incoming
  · rw [if_pos rejects, Market.matchShortage?, Market.leftover?,
      if_neg fun all => all.1 rejects]
    exact .ok (SameCounts.refl book).counts
  · rw [if_neg rejects]
    exact commitMatch_exhaustion settled rejects

theorem replaceOrderInPlace_counts (book : OrderBook sizes) (orderId : UInt64)
    (newQty : UInt32) :
    Ensures (book.replaceOrderInPlace orderId newQty) fun result =>
      SameCounts book result.2 := by
  rw [replaceOrderInPlace]
  cases book.orderIndex orderId with
  | none => exact .ok (SameCounts.refl book)
  | some entry =>
      apply Ensures.step
      intro node
      apply (book.modifyOrder_counts entry.order _).bind
      intro resized resizedSame
      apply (resized.modifyLevel_counts entry.level _).bind
      intro counted countedSame
      exact .ok (resizedSame.trans countedSame)

theorem replace_exhaustion (settled : book.Settled layout)
    (load : Nat → MatchingMode) (orderId : UInt64) (newPrice : Int64)
    (newQty : UInt32) :
    Ensures (book.replace load orderId newPrice newQty) fun result =>
      Counts (book.view.replaceShortage? sizes (load 0) orderId newPrice
        newQty) book result.book := by
  have found := settled.find?_view orderId
  rw [Market.replaceShortage?]
  cases indexed : book.orderIndex orderId with
  | none =>
      have absent : book.findOrder orderId = none := by
        rw [findOrder, indexed]
        rfl
      rw [absent] at found
      rw [found, replace, absent]
      exact .ok (SameCounts.refl book).counts
  | some entry =>
      obtain ⟨side, price, front, back, listed, split, sameId⟩ :=
        settled.locate indexed
      have member : entry.order ∈ layout.queue entry.level := by simp [split]
      obtain ⟨node, stored, nodeEq⟩ := settled.queued_node member
      have present : book.findOrder orderId = some entry.order := by
        rw [findOrder, indexed]
        rfl
      rw [present, Option.map_some, nodeEq] at found
      rw [found, replace, present]
      dsimp only
      rw [ObjectPool.read_eq stored, ok_bind]
      obtain ⟨cancelled, run, ⟨cancelLayout, cancelSettled⟩, cancelView⟩ :=
        cancelOrder_spec settled orderId
      have same := (book.cancelOrder_counts orderId).returned run
      by_cases zero : newQty = 0
      · rw [if_pos zero, if_pos (.inl zero), run]
        exact .ok same.counts
      · rw [if_neg zero]
        by_cases inPlace : newPrice = node.price ∧ newQty ≤ node.qty
        · rw [if_pos inPlace, if_pos (.inr inPlace)]
          apply (book.replaceOrderInPlace_counts orderId newQty).bind
          intro resized resizedSame
          exact .ok resizedSame.counts
        · rw [if_neg inPlace, if_neg (fun keeps => keeps.elim zero inPlace),
            run, ← cancelView]
          apply (matchOrder_exhaustion cancelSettled load
            (Market.reentry node.toOrder newPrice newQty)).weaken
          intro result counts
          exact counts.after same

end OrderBook

end Hydra
