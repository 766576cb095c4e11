import Hydra.Market.Replacing

/-!
# Replacements at an unchanged price

On a sound market nothing crosses a price at which an order rests.  A
replacement at the old price therefore meets nobody, and there is always room
for the order where it was; all that can happen is that the order changes its
quantity and its place in the queue.
-/

namespace Hydra

open Allocation

/-- The queue after a replacement of one of its orders at the old price: the
order keeps its place unless its quantity grows. -/
def requeue (existing : Order) (newQty : UInt32) (queue : List Order) :
    List Order :=
  if queue.any (fun order => decide (order.orderId = existing.orderId)) then
    if newQty ≤ existing.qty then
      queue.map fun order =>
        if order.orderId = existing.orderId then { order with qty := newQty }
        else order
    else
      queue.filter (fun order => decide (order.orderId ≠ existing.orderId)) ++
        [Market.reentry existing existing.price newQty]
  else queue

section Requeue

variable {existing : Order} {newQty : UInt32} {queue front back : List Order}

theorem requeue_absent
    (absent : ∀ order ∈ queue, order.orderId ≠ existing.orderId) :
    requeue existing newQty queue = queue := by
  rw [requeue, if_neg]
  simpa using absent

theorem filter_split
    (others : ∀ order ∈ front ++ back, order.orderId ≠ existing.orderId) :
    (front ++ existing :: back).filter
      (fun order => decide (order.orderId ≠ existing.orderId)) =
        front ++ back := by
  have kept := List.filter_eq_self (l := front ++ back)
    (p := fun order => decide (order.orderId ≠ existing.orderId))
  rw [List.filter_append] at kept
  rw [List.filter_append, List.filter_cons_of_neg (by simp)]
  apply kept.mpr
  intro order member
  simpa using others order member

theorem requeue_split
    (others : ∀ order ∈ front ++ back, order.orderId ≠ existing.orderId) :
    requeue existing newQty (front ++ existing :: back) =
      if newQty ≤ existing.qty then
        front ++ { existing with qty := newQty } :: back
      else
        front ++ back ++ [Market.reentry existing existing.price newQty] := by
  have unchanged : ∀ part : List Order, (∀ order ∈ part,
      order.orderId ≠ existing.orderId) → (part.map fun order =>
        if order.orderId = existing.orderId then { order with qty := newQty }
        else order) = part := by
    intro part apart
    apply (List.map_congr_left _).trans (List.map_id part)
    intro order member
    exact if_neg (apart order member)
  rw [requeue, if_pos (by simp), filter_split others, List.map_append,
    List.map_cons, if_pos rfl, unchanged front, unchanged back]
  · intro order member
    exact others order (List.mem_append_right front member)
  · intro order member
    exact others order (List.mem_append_left back member)

theorem requeue_eq_nil : requeue existing newQty queue = [] ↔ queue = [] := by
  rw [requeue]
  split
  next present =>
    have nonempty : queue ≠ [] := by
      rintro rfl
      simp at present
    split <;> simp [nonempty]
  next => rfl

end Requeue

namespace Market

variable {sizes : PoolSizes} {market : Market} {existing : Order}
variable {newQty : UInt32} {side : Side} {price : Int64}

theorem Sound.unblocked (sound : market.Sound)
    (rests : market.Rests existing) : market.blocks existing = false := by
  cases blocked : market.blocks existing with
  | false => rfl
  | true =>
      obtain ⟨price, best, crossing⟩ := blocks_eq_true.mp blocked
      obtain ⟨order, member, rfl⟩ := sound.best?_order best
      have own : existing ∈ market.orders existing.side := rests
      rw [crosses_iff] at crossing
      cases sideEq : existing.side with
      | buy =>
          rw [sideEq] at own member crossing
          have ordered := sound.uncrossed own member
          rw [Int64.lt_iff_toInt_lt] at ordered
          dsimp only at crossing
          omega
      | sell =>
          rw [sideEq] at own member crossing
          have ordered := sound.uncrossed member own
          rw [Int64.lt_iff_toInt_lt] at ordered
          dsimp only at crossing
          omega

/-- An order that is taken out and matched again at its old price comes to
rest, whatever its new quantity. -/
theorem rematch_samePrice (sound : market.Sound) (mode : MatchingMode)
    (rests : market.Rests existing)
    (fewOrders : market.orderCount ≤ sizes.orders)
    (fewLevels : market.levelCount ≤ sizes.levels) (positive : newQty ≠ 0)
    (eventTag : OrderEventTag) :
    let incoming : Order := { existing with qty := newQty, eventTag }
    let outcome := (market.cancel existing.orderId).matchOrder sizes mode
      incoming
    outcome.market = (market.cancel existing.orderId).insert incoming ∧
      outcome.fills = [] := by
  intro incoming outcome
  have cancelSound := sound.changed (changed_cancel market existing.orderId)
  have blockless := @blocks_cancel market existing existing.price newQty
    sound.toValid rests
  have unblocked : (market.cancel existing.orderId).blocks
      (reentry existing existing.price newQty) = false :=
    blockless.trans (sound.unblocked rests)
  have same := swept_unblocked cancelSound mode unblocked
  have room := @hasRoom_swept sizes market existing existing.price newQty sound
    mode rests fewOrders fewLevels
  rw [same] at room
  have someQty : 0 < newQty := UInt32.pos_iff_ne_zero.mpr positive
  have oldPatient := sound.patient rests
  exact matchOrder_rests cancelSound mode
    (find?_cancel sound.toValid existing.orderId) oldPatient someQty unblocked
    ((room unblocked).mpr (not_strands_samePrice sound.toValid rests))

/-- The market after a replacement at the old price. -/
def requeued (market : Market) (existing : Order) (newQty : UInt32) : Market :=
  if newQty ≤ existing.qty then market.setQty existing.orderId newQty
  else (market.cancel existing.orderId).insert
    (reentry existing existing.price newQty)

theorem replace_samePrice (sound : market.Sound) (mode : MatchingMode)
    (found : market.find? existing.orderId = some existing)
    (fewOrders : market.orderCount ≤ sizes.orders)
    (fewLevels : market.levelCount ≤ sizes.levels) (positive : newQty ≠ 0) :
    let outcome := market.replace sizes mode existing.orderId existing.price
      newQty
    outcome.market = market.requeued existing newQty ∧ outcome.fills = [] := by
  intro outcome
  obtain ⟨rests, _⟩ := sound.find?_eq_some_iff.mp found
  by_cases shrinks : newQty ≤ existing.qty
  · have inPlace : outcome = _ := replace_inPlace mode found positive
      ⟨rfl, shrinks⟩
    rw [inPlace, requeued, if_pos shrinks]
    exact ⟨rfl, rfl⟩
  · have moving : outcome = _ := replace_moving mode found positive
      (fun keeps => shrinks keeps.2)
    rw [moving, requeued, if_neg shrinks]
    exact rematch_samePrice sound mode rests fewOrders fewLevels positive
      .newOrCancel

theorem requeued_valid (valid : market.Valid) :
    (market.requeued existing newQty).Valid := by
  rw [requeued]
  split
  · exact valid.setQty existing.orderId newQty
  · exact Valid.insert (valid.cancel existing.orderId)
      (find?_cancel valid existing.orderId)

/-- Where the order is in the queues. -/
theorem Valid.queue_cases (valid : market.Valid)
    (rests : market.Rests existing) (side : Side) (price : Int64) :
    (side = existing.side ∧ price = existing.price ∧ ∃ front back,
      market.queueAt side price = front ++ existing :: back ∧
      ∀ order ∈ front ++ back, order.orderId ≠ existing.orderId) ∨
    ((side ≠ existing.side ∨ price ≠ existing.price) ∧
      ∀ order ∈ market.queueAt side price,
        order.orderId ≠ existing.orderId) := by
  by_cases here : side = existing.side ∧ price = existing.price
  · obtain ⟨rfl, rfl⟩ := here
    obtain ⟨queue, listed, member⟩ :=
      mem_queueAt.mp (valid.mem_queueAt_iff.mpr ⟨rests, rfl, rfl⟩)
    obtain ⟨front, back, rfl⟩ := List.append_of_mem member
    refine .inl ⟨rfl, rfl, front, back, queueAt_eq listed, ?_⟩
    intro order other same
    have distinct := valid.queue_ids_nodup listed
    rw [List.map_append, List.map_cons, List.nodup_middle, List.nodup_cons,
      ← List.map_append] at distinct
    exact distinct.1 (same ▸ List.mem_map_of_mem other)
  · refine .inr ⟨by tauto, ?_⟩
    intro order queued same
    obtain ⟨orderRests, rfl, rfl⟩ := valid.mem_queueAt_iff.mp queued
    obtain rfl := valid.id_unique orderRests rests same
    exact here ⟨rfl, rfl⟩

theorem queueAt_alter_split {front back : List Order}
    {change : Order → Option Order}
    (split : market.queueAt side price = front ++ existing :: back)
    (others : ∀ order ∈ front ++ back, order.orderId ≠ existing.orderId) :
    (market.alter existing.orderId change).queueAt side price =
      front ++ (change existing).toList ++ back := by
  have fixed : ∀ order ∈ front ++ back,
      (if order.orderId = existing.orderId then change order
        else some order) = some order := by
    intro order member
    exact if_neg (others order member)
  rw [queueAt_alter, split, List.filterMap_append, List.filterMap_cons,
    if_pos rfl,
    filterMap_fixed fun order member =>
      fixed order (List.mem_append_left _ member),
    filterMap_fixed fun order member =>
      fixed order (List.mem_append_right _ member)]
  cases change existing <;> simp

theorem queueAt_requeued (valid : market.Valid)
    (rests : market.Rests existing) (side : Side) (price : Int64) :
    (market.requeued existing newQty).queueAt side price =
      requeue existing newQty (market.queueAt side price) := by
  rcases valid.queue_cases rests side price with
    ⟨rfl, rfl, front, back, split, others⟩ | ⟨elsewhere, absent⟩
  · rw [split, requeue_split others, requeued]
    by_cases shrinks : newQty ≤ existing.qty
    · rw [if_pos shrinks, if_pos shrinks, setQty,
        queueAt_alter_split split others]
      simp
    · rw [if_neg shrinks, if_neg shrinks]
      have inserted : ((market.cancel existing.orderId).insert
          (reentry existing existing.price newQty)).queueAt existing.side
          existing.price =
          (market.cancel existing.orderId).queueAt existing.side
            existing.price ++ [reentry existing existing.price newQty] :=
        queueAt_insert_self
      rw [inserted, cancel, queueAt_alter_split split others]
      simp
  · have unaltered : ∀ change : Order → Option Order,
        (market.alter existing.orderId change).queueAt side price =
          market.queueAt side price := by
      intro change
      rw [queueAt_alter, filterMap_fixed]
      intro order queued
      exact if_neg (absent order queued)
    rw [requeue_absent absent, requeued]
    split
    · exact unaltered _
    · apply Eq.trans (queueAt_insert_of_ne _)
      · exact unaltered _
      · exact elsewhere

theorem requeued_perm (valid : market.Valid) (rests : market.Rests existing)
    (shrinks : newQty ≤ existing.qty) (side : Side) (price : Int64) :
    ((market.requeued existing newQty).queueAt side price).Perm
      (((market.cancel existing.orderId).insert
        { existing with qty := newQty }).queueAt side price) := by
  rw [queueAt_requeued valid rests]
  rcases valid.queue_cases rests side price with
    ⟨rfl, rfl, front, back, split, others⟩ | ⟨elsewhere, absent⟩
  · have inserted : ((market.cancel existing.orderId).insert
        { existing with qty := newQty }).queueAt existing.side existing.price =
        (market.cancel existing.orderId).queueAt existing.side
          existing.price ++ [{ existing with qty := newQty }] :=
      queueAt_insert_self
    rw [split, requeue_split others, if_pos shrinks, inserted, cancel,
      queueAt_alter_split split others]
    simp only [Option.toList_none, List.append_nil]
    exact List.perm_middle.trans (List.perm_append_singleton _ _).symm
  · have inserted : ((market.cancel existing.orderId).insert
        { existing with qty := newQty }).queueAt side price =
        (market.cancel existing.orderId).queueAt side price :=
      queueAt_insert_of_ne elsewhere
    rw [requeue_absent absent, inserted, cancel, queueAt_alter,
      filterMap_fixed]
    intro order queued
    exact if_neg (absent order queued)

end Market

end Hydra
