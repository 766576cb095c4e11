import Hydra.Book.Picture
import Hydra.Market.InPlace
import Hydra.Runs.Replacing

/-!
# Replacements at an unchanged price in a trading session

The logical book after such a replacement is the one before with one order
requeued.  What the in-place path does differs from cancelling the order and
matching it again in the place of the order only.
-/

namespace Hydra

variable {sizes : PoolSizes}

/-- The level with one of its orders requeued: its total follows the quantity
of the order, and nothing else changes. -/
def LevelPicture.requeue (existing : Order) (newQty : UInt32)
    (level : LevelPicture) : LevelPicture :=
  if level.orders.any
      (fun order => decide (order.orderId = existing.orderId)) then
    { level with
      totalQty := level.totalQty - existing.qty.toUInt64 + newQty.toUInt64
      orders := Hydra.requeue existing newQty level.orders }
  else level

/-- Only the level of the order changes. -/
def Picture.requeue (existing : Order) (newQty : UInt32) (picture : Picture) :
    Picture where
  levels side :=
    (picture.levels side).map
      (Option.map (LevelPicture.requeue existing newQty))
  indexed := picture.indexed

section Requeue

variable {existing : Order} {newQty : UInt32} {queue : List Order}

theorem mem_requeue_ids {orderId : UInt64} :
    (∃ order ∈ requeue existing newQty queue, order.orderId = orderId) ↔
      ∃ order ∈ queue, order.orderId = orderId := by
  rw [requeue]
  split
  next present =>
    simp only [List.any_eq_true, decide_eq_true_eq] at present
    split
    next shrinks =>
      simp only [List.mem_map, exists_exists_and_eq_and]
      apply exists_congr
      intro order
      apply and_congr_right
      intro _
      split <;> rfl
    next grows =>
      constructor
      · intro found
        obtain ⟨order, member, rfl⟩ := found
        rcases List.mem_append.mp member with kept | last
        · exact ⟨order, (List.mem_filter.mp kept).1, rfl⟩
        · rw [List.mem_singleton.mp last]
          exact present
      · intro found
        obtain ⟨order, member, rfl⟩ := found
        by_cases same : order.orderId = existing.orderId
        · exact ⟨_, List.mem_append_right _ (List.mem_singleton_self _),
            same.symm⟩
        · refine ⟨order, List.mem_append_left _ ?_, rfl⟩
          rw [List.mem_filter]
          exact ⟨member, decide_eq_true same⟩
  next => rfl

theorem totalQty_requeue {front back : List Order}
    (others : ∀ order ∈ front ++ back, order.orderId ≠ existing.orderId) :
    UInt64.ofNat ((requeue existing newQty
        (front ++ existing :: back)).map Order.size).sum =
      UInt64.ofNat ((front ++ existing :: back).map Order.size).sum -
        existing.qty.toUInt64 + newQty.toUInt64 := by
  have word : ∀ qty : UInt32, UInt64.ofNat qty.toNat = qty.toUInt64 := by
    intro qty
    apply UInt64.toNat_inj.mp
    simp
  have before : ((front ++ existing :: back).map Order.size).sum =
      ((front ++ back).map Order.size).sum + existing.qty.toNat := by
    simp only [List.map_append, List.map_cons, List.sum_append, List.sum_cons,
      Order.size]
    omega
  have after : ((requeue existing newQty
      (front ++ existing :: back)).map Order.size).sum =
      ((front ++ back).map Order.size).sum + newQty.toNat := by
    rw [requeue_split others]
    split
    · simp only [List.map_append, List.map_cons, List.sum_append,
        List.sum_cons, Order.size]
      omega
    · simp only [List.map_append, List.map_cons, List.map_nil,
        List.sum_append, List.sum_cons, List.sum_nil, Order.size,
        Market.reentry]
      omega
  rw [before, after, UInt64.ofNat_add, UInt64.ofNat_add, word, word]
  grind

end Requeue

namespace Market

variable {market : Market} {existing : Order} {newQty : UInt32}

theorem Valid.isSome_find? (valid : market.Valid) (orderId : UInt64) :
    (market.find? orderId).isSome = true ↔ ∃ side price,
      ∃ order ∈ market.queueAt side price, order.orderId = orderId := by
  rw [Option.isSome_iff_exists]
  simp only [valid.find?_eq_some_iff, valid.mem_queueAt_iff]
  constructor
  · intro found
    obtain ⟨order, rests, same⟩ := found
    exact ⟨_, _, order, ⟨rests, rfl, rfl⟩, same⟩
  · intro found
    obtain ⟨_, _, order, queued, same⟩ := found
    exact ⟨order, queued.1, same⟩

theorem Valid.indexed_eq {other : Market} (valid : market.Valid)
    (otherValid : other.Valid)
    (perms : ∀ side price,
      (other.queueAt side price).Perm (market.queueAt side price)) :
    other.picture.indexed = market.picture.indexed := by
  funext orderId
  rw [picture, picture, Bool.eq_iff_iff, otherValid.isSome_find?,
    valid.isSome_find?]
  simp only [(perms _ _).mem_iff]

theorem levelPicture_requeue (valid : market.Valid)
    (rests : market.Rests existing) {side : Side}
    {entry : Int64 × List Order}
    (member : entry ∈ (market.ladder side).entries) :
    levelPicture (entry.1, requeue existing newQty entry.2) =
      (levelPicture entry).map (LevelPicture.requeue existing newQty) := by
  have listed : (entry.1, entry.2) ∈ (market.ladder side).entries := member
  have queueEq := queueAt_eq listed
  rw [levelPicture, levelPicture, Option.map_some, LevelPicture.requeue]
  rcases valid.queue_cases rests side entry.1 with
    ⟨_, _, front, back, split, others⟩ | ⟨_, absent⟩
  · rw [queueEq] at split
    dsimp only
    rw [split, if_pos (by simp), totalQty_requeue others]
    have sameLength : (requeue existing newQty
        (front ++ existing :: back)).length =
        (front ++ existing :: back).length := by
      rw [requeue_split others]
      split
      · simp
      · simp
    rw [sameLength]
  · rw [queueEq] at absent
    dsimp only
    rw [requeue_absent absent, if_neg (by simpa using absent)]

theorem picture_requeued (valid : market.Valid)
    (rests : market.Rests existing) :
    (market.requeued existing newQty).picture =
      market.picture.requeue existing newQty := by
  have nextValid := @requeued_valid market existing newQty valid
  have queues := @queueAt_requeued market existing newQty valid rests
  have ladders : ∀ side,
      ((market.requeued existing newQty).ladder side).mapValues id =
        (market.ladder side).mapValues (requeue existing newQty) := by
    intro side
    apply valid.ladder_mapped nextValid
    · intro price
      rw [queues, requeue_eq_nil]
    · intro price
      exact queues side price
  rw [picture, Picture.requeue]
  congr 1
  · funext side
    have entriesEq := congrArg SortedMap.entries (ladders side)
    rw [SortedMap.mapValues_entries, SortedMap.mapValues_entries] at entriesEq
    simp only [id_eq, Prod.mk.eta, List.map_id'] at entriesEq
    rw [entriesEq, picture, List.map_map, List.map_map]
    apply List.map_congr_left
    intro entry member
    exact levelPicture_requeue valid rests member
  · funext orderId
    rw [picture, Bool.eq_iff_iff, nextValid.isSome_find?, valid.isSome_find?]
    simp only [queues, mem_requeue_ids]

end Market

namespace Matcher

variable {matcher : Matcher sizes}

/-- A replacement at the price at which the order rests fills nothing, and
requeues the order; a smaller quantity gives, but for the place of the order,
what cancelling and matching it again would give. -/
theorem replace_same_price (reachable : (trading sizes).Reachable matcher)
    (load : Nat → MatchingMode) {orderId : UInt64} {slot : OrderSlot sizes}
    (rests : matcher.book.findOrder orderId = some slot) {newQty : UInt32}
    (positive : newQty ≠ 0) :
    ∃ result, matcher.book.replace load orderId
        (matcher.book.payload slot).price newQty = .ok result ∧
      result.emitted = [] ∧
      result.book.picture = matcher.book.picture.requeue
        (matcher.book.payload slot) newQty ∧
      (newQty ≤ (matcher.book.payload slot).qty →
        ∃ cancelled rematched,
          matcher.book.cancelOrder orderId = .ok (true, cancelled) ∧
          cancelled.matchOrder load
              { matcher.book.payload slot with qty := newQty } =
            .ok rematched ∧
          rematched.emitted = [] ∧
          rematched.book.picture.indexed = result.book.picture.indexed ∧
          ∀ side, rematched.book.picture.contents side =
            result.book.picture.contents side) := by
  obtain ⟨layout, settled⟩ := trading_wellFormed reachable
  have sound := trading_sound reachable
  obtain ⟨entry, indexed, rfl⟩ := Option.map_eq_some_iff.mp rests
  have sameId := ((settled.index orderId entry).mp indexed).2
  generalize existingEq : matcher.book.payload entry.order = existing
    at sameId
  have found : matcher.book.view.find? existing.orderId = some existing := by
    rw [sameId, settled.find?_view, rests, Option.map_some, existingEq]
  obtain ⟨restsView, _⟩ := sound.find?_eq_some_iff.mp found
  obtain ⟨marketEq, noFills⟩ := @Market.replace_samePrice sizes
    matcher.book.view existing newQty sound (load 0) found
    settled.orderCount_le settled.levelCount_le positive
  obtain ⟨result, run, ⟨nextLayout, nextSettled⟩, viewEq, fillsEq, _⟩ :=
    OrderBook.replace_spec load orderId existing.price newQty settled
  rw [← sameId] at viewEq fillsEq
  rw [noFills] at fillsEq
  have resultPicture : result.book.picture =
      matcher.book.picture.requeue existing newQty := by
    rw [nextSettled.picture_eq, settled.picture_eq, viewEq, marketEq,
      Market.picture_requeued sound.toValid restsView]
  refine ⟨result, run, List.map_eq_nil_iff.mp fillsEq, resultPicture, ?_⟩
  intro shrinks
  obtain ⟨cancelled, cancelRun, ⟨cancelLayout, cancelSettled⟩, cancelView⟩ :=
    OrderBook.cancelOrder_spec settled orderId
  have foundId := found
  rw [sameId] at foundId
  rw [foundId] at cancelRun
  rw [← sameId] at cancelView
  obtain ⟨rematched, rematchRun, showing⟩ := OrderBook.matchOrder_spec load
    { existing with qty := newQty } cancelSettled
  obtain ⟨lastLayout, lastSettled⟩ := showing.wellFormed
  obtain ⟨rematchMarket, rematchFills⟩ := @Market.rematch_samePrice sizes
    matcher.book.view existing newQty sound (load 0) restsView
    settled.orderCount_le settled.levelCount_le positive existing.eventTag
  have lastFills := showing.fills
  have lastView := showing.view
  rw [cancelView, rematchFills] at lastFills
  rw [cancelView, rematchMarket] at lastView
  have resultView := viewEq.trans marketEq
  have nextValid := @Market.requeued_valid matcher.book.view existing newQty
    sound.toValid
  have lastValid : ((matcher.book.view.cancel existing.orderId).insert
      { existing with qty := newQty }).Valid :=
    Market.Valid.insert (sound.toValid.cancel existing.orderId)
      (Market.find?_cancel sound.toValid existing.orderId)
  have perms := Market.requeued_perm sound.toValid restsView shrinks
  refine ⟨cancelled, rematched, cancelRun, rematchRun,
    List.map_eq_nil_iff.mp lastFills, ?_, ?_⟩
  · rw [lastSettled.picture_eq, nextSettled.picture_eq, lastView, resultView]
    exact nextValid.indexed_eq lastValid fun side price =>
      (perms side price).symm
  · rw [lastSettled.picture_eq, nextSettled.picture_eq, lastView, resultView]
    exact nextValid.contents_eq lastValid fun side price =>
      (perms side price).symm

theorem replace_same_price_session :
    ∃ slot, session.book.findOrder 1 = some slot ∧
      ∃ result, session.book.replace session.load 1
          (session.book.payload slot).price 4 = .ok result ∧
        result.emitted = [] ∧
        result.book.picture = session.book.picture.requeue
          (session.book.payload slot) 4 ∧
        (4 ≤ (session.book.payload slot).qty →
          ∃ cancelled rematched,
            session.book.cancelOrder 1 = .ok (true, cancelled) ∧
            cancelled.matchOrder session.load
                { session.book.payload slot with qty := 4 } =
              .ok rematched ∧
            rematched.emitted = [] ∧
            rematched.book.picture.indexed = result.book.picture.indexed ∧
            ∀ side, rematched.book.picture.contents side =
              result.book.picture.contents side) :=
  ⟨_, rfl, replace_same_price session_reachable session.load rfl (by decide)⟩

end Matcher

end Hydra
