import Hydra.Market.Commuting
import Hydra.Market.Modes

/-!
# Replacements that lose an order

A replacement that moves an order cancels it first and matches it again.  Its
remainder finds room unless there is no level slot for its new price, and that
happens in one situation only: every level slot is in use, the order leaves its
level to others, and the sweep has nothing to visit.
-/

namespace Hydra

open Allocation

/-- The quantity that the fills report. -/
def Outcome.filled (outcome : Outcome) : Nat :=
  (outcome.fills.map fun fill => fill.qty.toNat).sum

namespace Market

variable {sizes : PoolSizes} {market : Market} {incoming existing : Order}
variable {newPrice : Int64} {newQty : UInt32}

/-- The market after the fills of a sweep. -/
def swept (mode : MatchingMode) (incoming : Order) (market : Market) : Market :=
  market.revise (afterFills ((allGrants (market.sweep mode incoming)).map
    (fillEvent incoming)))

theorem swept_changed (sound : market.Sound) (mode : MatchingMode) :
    market.Changed (market.swept mode incoming) := by
  obtain ⟨sweptEq, changed⟩ := sweep_changed sound mode incoming
  rw [sweptEq] at changed
  exact changed

/-- A sweep of an order that is not filled leaves nothing that could trade. -/
theorem drained (sound : market.Sound) {mode : MatchingMode}
    (short : total (allGrants (market.sweep mode incoming)) < incoming.size)
    {order : Order} (candidate : order ∈ market.matchable incoming) :
    afterFills ((allGrants (market.sweep mode incoming)).map
      (fillEvent incoming)) order = none := by
  have rests := (sound.mem_orders_iff.mp (mem_matchable.mp candidate).1).1
  have bounded := @sweep_bounded market mode incoming sound.toValid
  have whole : demand Order.size (market.matchable incoming) ≤
      total (allGrants (market.sweep mode incoming)) := by
    rw [total_sweep sound.toValid] at short ⊢
    omega
  have served := served_of_total Order.size (items_sweep sound.toValid)
    bounded whole candidate (sound.size_pos rests)
  rw [afterFills_eq_none, taken_fillEvents bounded
    (grants_distinct mode incoming sound.toValid) served]

theorem rests_swept {mode : MatchingMode} {order : Order} {side : Side}
    (member : order ∈ (market.swept mode incoming).orders side) :
    ∃ old ∈ market.orders side,
      afterFills ((allGrants (market.sweep mode incoming)).map
        (fillEvent incoming)) old = some order ∧
      order = { old with qty := order.qty } := by
  obtain ⟨old, oldMember, kept⟩ := mem_orders_revise.mp member
  refine ⟨old, oldMember, kept, ?_⟩
  rw [afterFills] at kept
  split at kept
  next => cases kept
  next =>
    obtain rfl := Option.some.inj kept
    rfl

/-- What still crosses an order that was not filled is its client's own. -/
theorem swept_own (sound : market.Sound) {mode : MatchingMode}
    (short : total (allGrants (market.sweep mode incoming)) < incoming.size)
    {order : Order}
    (member : order ∈
      (market.swept mode incoming).orders incoming.side.opposite)
    (crossing : crosses order.price incoming = true) :
    order.clientId = incoming.clientId := by
  obtain ⟨old, oldMember, kept, terms⟩ := rests_swept member
  rw [terms] at crossing ⊢
  by_contra differs
  have trades : tradable incoming old = true := by
    have differs : old.clientId ≠ incoming.clientId := differs
    simp [tradable, OrderBook.isSelfTrade, differs]
  have candidate := mem_matchable.mpr ⟨oldMember, crossing, trades⟩
  rw [drained sound short candidate] at kept
  cases kept

theorem swept_own_queue (sound : market.Sound) {mode : MatchingMode}
    (short : total (allGrants (market.sweep mode incoming)) < incoming.size)
    {price : Int64} (crossing : crosses price incoming = true) :
    ∀ order ∈ (market.swept mode incoming).queueAt incoming.side.opposite
      price, order.clientId = incoming.clientId := by
  have sweptValid : (market.swept mode incoming).Valid :=
    (swept_changed sound mode).valid sound.toValid
  intro order queued
  obtain ⟨queue, listed, member⟩ := mem_queueAt.mp queued
  apply swept_own sound short (mem_orders.mpr ⟨_, _, listed, member⟩)
  rw [(sweptValid.placed listed member).1]
  exact crossing

theorem blocks_eq_true : market.blocks incoming = true ↔
    ∃ price, market.best? incoming.side.opposite = some price ∧
      crosses price incoming = true := by
  rw [blocks]
  cases market.best? incoming.side.opposite <;> simp

theorem blocks_best?_eq_none
    (unlisted : market.best? incoming.side.opposite = none) :
    market.blocks incoming = false := by
  rw [blocks, unlisted]

theorem sweep_unblocked (mode : MatchingMode)
    (unblocked : market.blocks incoming = false) :
    market.sweep mode incoming = [] := by
  rw [blocks, best?] at unblocked
  rw [sweep]
  cases entries : (market.ladder incoming.side.opposite).entries with
  | nil => rfl
  | cons entry rest =>
      rw [entries] at unblocked
      rw [sweepLadder, if_neg]
      simpa using fun _ => unblocked

theorem swept_unblocked (sound : market.Sound) (mode : MatchingMode)
    (unblocked : market.blocks incoming = false) :
    market.swept mode incoming = market := by
  rw [swept, sweep_unblocked mode unblocked]
  apply Eq.trans _ (revise_some sound.toValid)
  apply revise_congr
  intro side order member
  obtain ⟨rests, _⟩ := sound.mem_orders_iff.mp member
  exact afterFills_untouched (sound.size_pos rests) rfl

/-- A level that a revision drops is missed in the count of levels. -/
theorem listed_of_levelCount {change : Order → Option Order}
    (same : market.levelCount ≤ (market.revise change).levelCount)
    {side : Side} {price : Int64}
    (listed : ((market.ladder side).find? price).isSome = true) :
    (((market.revise change).ladder side).find? price).isSome = true := by
  cases kept : ((market.revise change).ladder side).find? price with
  | some queue => rfl
  | none =>
      have fewer := levelCount_revise_lt listed kept
      omega

theorem levelCount_revise_eq {change : Order → Option Order}
    (kept : ∀ side, ∀ entry ∈ (market.ladder side).entries,
      entry.2.filterMap change ≠ []) :
    (market.revise change).levelCount = market.levelCount := by
  have sameLength : ∀ side,
      ((market.revise change).ladder side).entries.length =
      (market.ladder side).entries.length := by
    intro side
    apply List.filterMap_length_eq_length.mpr
    intro entry member
    have revised : reviseQueue change entry.2 =
        some (entry.2.filterMap change) :=
      reviseQueue_eq_some.mpr ⟨rfl, kept side entry member⟩
    simp [revised]
  rw [levelCount, levelCount, sameLength, sameLength]

/-- The order shares its level with others. -/
def Shares (market : Market) (order : Order) : Prop :=
  1 < (market.queueAt order.side order.price).length

theorem levelCount_cancel (valid : market.Valid)
    (rests : market.Rests existing) (shares : market.Shares existing) :
    (market.cancel existing.orderId).levelCount = market.levelCount := by
  apply levelCount_revise_eq
  intro side entry member
  have listed : (entry.1, entry.2) ∈ (market.ladder side).entries := member
  have distinct := valid.queue_ids_nodup listed
  have other : ∃ order ∈ entry.2, order.orderId ≠ existing.orderId := by
    by_contra none_other
    push Not at none_other
    obtain ⟨order, queued⟩ := List.exists_mem_of_ne_nil _
      (valid.populated listed)
    have orderRests : market.Rests order ∧ order.side = side ∧
        order.price = entry.1 := by
      apply valid.mem_queueAt_iff.mp
      rw [queueAt_eq listed]
      exact queued
    obtain ⟨orderRests, rfl, samePrice⟩ := orderRests
    obtain rfl := valid.id_unique orderRests rests (none_other order queued)
    rw [Shares, samePrice, queueAt_eq listed] at shares
    obtain ⟨first, rest, split⟩ := List.exists_cons_of_ne_nil
      (valid.populated listed)
    cases rest with
    | nil => simp [split] at shares
    | cons second rest =>
        rw [split] at distinct none_other
        have firstId := none_other first (by simp)
        have secondId := none_other second (by simp)
        simp [firstId, secondId] at distinct
  obtain ⟨order, queued, differs⟩ := other
  apply List.ne_nil_of_mem (a := order)
  rw [List.mem_filterMap]
  exact ⟨order, queued, if_neg differs⟩

theorem shares_of_listed (valid : market.Valid)
    (rests : market.Rests existing)
    (kept : (((market.cancel existing.orderId).ladder existing.side).find?
      existing.price).isSome = true) : market.Shares existing := by
  obtain ⟨queue, stored⟩ := Option.isSome_iff_exists.mp kept
  have listed := SortedMap.find?_eq_some_iff.mp stored
  obtain ⟨oldQueue, oldListed, keptEq, populated⟩ := mem_revise.mp listed
  have member : existing ∈ oldQueue := by
    rw [← queueAt_eq oldListed]
    exact valid.mem_queueAt_iff.mpr ⟨rests, rfl, rfl⟩
  rw [Shares, queueAt_eq oldListed]
  obtain ⟨front, back, rfl⟩ := List.append_of_mem member
  by_contra alone
  have alone : front = [] ∧ back = [] := by
    simp only [List.length_append, List.length_cons] at alone
    constructor
    · exact List.eq_nil_of_length_eq_zero (by omega)
    · exact List.eq_nil_of_length_eq_zero (by omega)
  apply populated
  rw [← keptEq, alone.1, alone.2]
  simp

/-- Every level slot is in use, the order shares its level, and there is
neither a level at the new price on its side nor one on the other side that
crosses it. -/
structure Strands (sizes : PoolSizes) (market : Market) (existing : Order)
    (newPrice : Int64) : Prop where
  full : sizes.levels ≤ market.levelCount
  shares : market.Shares existing
  unlisted : (market.ladder existing.side).find? newPrice = none
  unblocked : market.blocks { existing with price := newPrice } = false

theorem ladder_cancel_of_ne (valid : market.Valid)
    (rests : market.Rests existing) {side : Side}
    (differs : side ≠ existing.side) :
    (market.cancel existing.orderId).ladder side = market.ladder side :=
  ladder_alter_of_ne valid rests differs _

/-- The cancelled order is on the other side of what blocks it. -/
theorem blocks_cancel (valid : market.Valid) (rests : market.Rests existing) :
    (market.cancel existing.orderId).blocks
        (reentry existing newPrice newQty) =
      market.blocks { existing with price := newPrice } := by
  have opposed := ladder_cancel_of_ne valid rests existing.side.opposite_ne
  simp only [blocks, best?, reentry, opposed]
  rfl

theorem orderCount_revise_lt {change : Order → Option Order}
    (rests : market.Rests existing) (gone : change existing = none) :
    (market.revise change).orderCount < market.orderCount := by
  have fewer : ((market.revise change).orders existing.side).length <
      (market.orders existing.side).length := by
    rw [orders_revise]
    apply Nat.lt_of_le_of_ne (List.length_filterMap_le _ _)
    intro same
    have kept := List.filterMap_length_eq_length.mp same existing rests
    simp [gone] at kept
  have others : ∀ side, ((market.revise change).orders side).length ≤
      (market.orders side).length := by
    intro side
    rw [orders_revise]
    exact List.length_filterMap_le _ _
  have buys := others .buy
  have sells := others .sell
  rw [orderCount, orderCount]
  cases sideEq : existing.side with
  | buy =>
      rw [sideEq] at fewer
      omega
  | sell =>
      rw [sideEq] at fewer
      omega

theorem best?_listed {side : Side} {price : Int64}
    (best : market.best? side = some price) :
    ((market.ladder side).find? price).isSome = true := by
  rw [best?] at best
  obtain ⟨entry, first, rfl⟩ := Option.map_eq_some_iff.mp best
  apply SortedMap.mem_keys.mp
  exact List.mem_map_of_mem (List.mem_of_head? first)

theorem listed_of_revise {change : Order → Option Order} {side : Side}
    {price : Int64}
    (kept : (((market.revise change).ladder side).find? price).isSome = true) :
    ((market.ladder side).find? price).isSome = true := by
  obtain ⟨queue, stored⟩ := Option.isSome_iff_exists.mp kept
  obtain ⟨old, listed, _⟩ :=
    mem_revise.mp (SortedMap.find?_eq_some_iff.mp stored)
  rw [SortedMap.find?_eq_some_iff.mpr listed]
  rfl

theorem price_listed (valid : market.Valid) (rests : market.Rests existing) :
    ((market.ladder existing.side).find? existing.price).isSome = true := by
  obtain ⟨queue, listed, _⟩ :=
    mem_queueAt.mp (valid.mem_queueAt_iff.mpr ⟨rests, rfl, rfl⟩)
  rw [SortedMap.find?_eq_some_iff.mpr listed]
  rfl

theorem not_strands_samePrice (valid : market.Valid)
    (rests : market.Rests existing) :
    ¬ market.Strands sizes existing existing.price := by
  intro strands
  have listed := price_listed valid rests
  rw [strands.unlisted] at listed
  cases listed

theorem Strands.noRoom (strands : market.Strands sizes existing newPrice)
    (sound : market.Sound) (mode : MatchingMode)
    (rests : market.Rests existing) :
    ¬ ((market.cancel existing.orderId).swept mode
        (reentry existing newPrice newQty)).HasRoom sizes
        (reentry existing newPrice newQty) := by
  have cancelSound := sound.changed (changed_cancel market existing.orderId)
  have blockless : (market.cancel existing.orderId).blocks
      (reentry existing newPrice newQty) = false := by
    rw [blocks_cancel sound.toValid rests]
    exact strands.unblocked
  rw [swept_unblocked cancelSound mode blockless]
  intro room
  rcases room.2 with kept | spare
  · have listed : ((market.ladder existing.side).find? newPrice).isSome =
        true := listed_of_revise kept
    rw [strands.unlisted] at listed
    cases listed
  · have full := strands.full
    rw [levelCount_cancel sound.toValid rests strands.shares] at spare
    omega

/-- A sweep that keeps every level leaves a level that blocks the order. -/
theorem unblocked_of_swept (sound : market.Sound) {mode : MatchingMode}
    (kept : market.levelCount ≤ (market.swept mode incoming).levelCount)
    (unblocked : (market.swept mode incoming).blocks incoming = false) :
    market.blocks incoming = false := by
  cases blocked : market.blocks incoming with
  | false => rfl
  | true =>
      obtain ⟨price, best, crossing⟩ := blocks_eq_true.mp blocked
      obtain ⟨queue, stored⟩ := Option.isSome_iff_exists.mp
        (listed_of_levelCount kept (best?_listed best))
      have sweptValid : (market.swept mode incoming).Valid :=
        (swept_changed sound mode).valid sound.toValid
      have listed := SortedMap.find?_eq_some_iff.mp stored
      obtain ⟨order, queued⟩ :=
        List.exists_mem_of_ne_nil _ (sweptValid.populated listed)
      have apart := sweptValid.blocks_eq_false unblocked
        (mem_orders.mpr ⟨_, _, listed, queued⟩)
      rw [(sweptValid.placed listed queued).1, crossing] at apart
      cases apart

/-- What finds no room and is not blocked is stranded. -/
theorem strands_of_noRoom (sound : market.Sound) (mode : MatchingMode)
    (rests : market.Rests existing)
    (fewOrders : market.orderCount ≤ sizes.orders)
    (fewLevels : market.levelCount ≤ sizes.levels)
    (unblocked : ((market.cancel existing.orderId).swept mode
      (reentry existing newPrice newQty)).blocks
      (reentry existing newPrice newQty) = false)
    (noRoom : ¬ ((market.cancel existing.orderId).swept mode
      (reentry existing newPrice newQty)).HasRoom sizes
      (reentry existing newPrice newQty)) :
    market.Strands sizes existing newPrice := by
  have cancelSound := sound.changed (changed_cancel market existing.orderId)
  have ownSide : ((market.cancel existing.orderId).swept mode (reentry existing
      newPrice newQty)).ladder existing.side =
      (market.cancel existing.orderId).ladder existing.side :=
    ladder_afterFills cancelSound (makers_sweep mode cancelSound)
  have roomForOrder : ((market.cancel existing.orderId).swept mode
      (reentry existing newPrice newQty)).orderCount < sizes.orders := by
    have cancelLt : (market.cancel existing.orderId).orderCount <
        market.orderCount := orderCount_revise_lt rests (if_pos rfl)
    exact Nat.lt_of_le_of_lt (orderCount_revise_le _ _)
      (Nat.lt_of_lt_of_le cancelLt fewOrders)
  have noPrice : ((market.cancel existing.orderId).ladder
      existing.side).find? newPrice = none := by
    by_contra listed
    rw [← ownSide] at listed
    exact noRoom ⟨roomForOrder, .inl (Option.isSome_iff_ne_none.mpr listed)⟩
  have noSlot : sizes.levels ≤ ((market.cancel existing.orderId).swept mode
      (reentry existing newPrice newQty)).levelCount := by
    by_contra spare
    exact noRoom ⟨roomForOrder, .inr (Nat.lt_of_not_le spare)⟩
  -- Neither the cancellation nor the sweep can have freed a level.
  have sweptLe : ((market.cancel existing.orderId).swept mode
      (reentry existing newPrice newQty)).levelCount ≤
      (market.cancel existing.orderId).levelCount :=
    levelCount_revise_le _ _
  have cancelLe : (market.cancel existing.orderId).levelCount ≤
      market.levelCount := levelCount_revise_le _ _
  have keptByCancel : ∀ {price},
      ((market.ladder existing.side).find? price).isSome = true →
      (((market.cancel existing.orderId).ladder existing.side).find?
        price).isSome = true := by
    intro price listed
    have same : market.levelCount ≤
        (market.cancel existing.orderId).levelCount := by omega
    exact listed_of_levelCount same listed
  constructor
  case full => omega
  case shares =>
    exact shares_of_listed sound.toValid rests
      (keptByCancel (price_listed sound.toValid rests))
  case unlisted =>
    by_contra listed
    have kept := keptByCancel (Option.isSome_iff_ne_none.mpr listed)
    rw [noPrice] at kept
    cases kept
  case unblocked =>
    rw [← @blocks_cancel market existing newPrice newQty sound.toValid rests]
    exact unblocked_of_swept cancelSound (by omega) unblocked

/-- What the remainder of a replacement that is not blocked needs room for is
there, but for one situation. -/
theorem hasRoom_swept (sound : market.Sound) (mode : MatchingMode)
    (rests : market.Rests existing)
    (fewOrders : market.orderCount ≤ sizes.orders)
    (fewLevels : market.levelCount ≤ sizes.levels)
    (unblocked : ((market.cancel existing.orderId).swept mode
      (reentry existing newPrice newQty)).blocks
      (reentry existing newPrice newQty) = false) :
    ((market.cancel existing.orderId).swept mode
        (reentry existing newPrice newQty)).HasRoom sizes
        (reentry existing newPrice newQty) ↔
      ¬ market.Strands sizes existing newPrice := by
  constructor
  · intro room strands
    exact strands.noRoom sound mode rests room
  · intro notStranded
    by_contra noRoom
    exact notStranded
      (strands_of_noRoom sound mode rests fewOrders fewLevels unblocked noRoom)

/-- The order rests at its new price with what was not filled, it was filled,
what was left of it was discarded in front of orders of its own client, or it
was stranded. -/
inductive Fate (sizes : PoolSizes) (market : Market) (existing : Order)
    (newPrice : Int64) (newQty : UInt32) (outcome : Outcome) : Prop where
  | rests (order : Order) :
      ¬ market.Strands sizes existing newPrice →
      outcome.market.find? existing.orderId = some order →
      order.price = newPrice → order.side = existing.side →
      order.clientId = existing.clientId → order.tif = existing.tif →
      0 < order.size → outcome.filled + order.size = newQty.toNat →
      Fate sizes market existing newPrice newQty outcome
  | filled :
      ¬ market.Strands sizes existing newPrice →
      outcome.market.find? existing.orderId = none →
      outcome.filled = newQty.toNat →
      Fate sizes market existing newPrice newQty outcome
  | discarded (price : Int64) :
      ¬ market.Strands sizes existing newPrice →
      outcome.market.find? existing.orderId = none →
      outcome.filled < newQty.toNat →
      outcome.market.best? existing.side.opposite = some price →
      crosses price { existing with price := newPrice } = true →
      (∀ order ∈ outcome.market.queueAt existing.side.opposite price,
        order.clientId = existing.clientId) →
      Fate sizes market existing newPrice newQty outcome
  | stranded :
      market.Strands sizes existing newPrice →
      outcome.market.find? existing.orderId = none →
      outcome.filled = 0 →
      outcome.market.blocks { existing with price := newPrice } = false →
      Fate sizes market existing newPrice newQty outcome

/-- Matching a patient order whose id is new: its fills are those of the sweep,
and its remainder rests on the swept market if it may and can. -/
theorem matchOrder_patient (sound : market.Sound) (mode : MatchingMode)
    (absent : market.find? incoming.orderId = none)
    (patient : incoming.tif = .gtc) :
    let outcome := market.matchOrder sizes mode incoming
    let remaining := outcome.stats.remainingQty
    let swept := market.swept mode incoming
    outcome.filled + remaining.toNat = incoming.size ∧
      remaining.toNat =
        incoming.size - total (allGrants (market.sweep mode incoming)) ∧
      outcome.market =
        if 0 < remaining ∧ swept.blocks incoming = false ∧
            swept.HasRoom sizes incoming then
          swept.insert { incoming with qty := remaining }
        else swept := by
  have accepted : ¬ market.Rejects mode incoming := by
    simp [Rejects, absent, patient]
  have balances := @commitMatch_balances sizes market incoming mode sound absent
  dsimp only
  rw [matchOrder, if_neg accepted]
  refine ⟨balances.conserved, ?_, ?_⟩
  · apply UInt32.toNat_ofNat_of_lt'
    exact Nat.lt_of_le_of_lt (Nat.sub_le _ _) incoming.qty.toNat_lt
  · have marketEq := balances.market
    dsimp only at marketEq
    rw [marketEq]
    simp only [patient, true_and]
    rfl

theorem matchOrder_rests (sound : market.Sound) (mode : MatchingMode)
    (absent : market.find? incoming.orderId = none)
    (patient : incoming.tif = .gtc) (positive : 0 < incoming.qty)
    (unblocked : market.blocks incoming = false)
    (room : market.HasRoom sizes incoming) :
    (market.matchOrder sizes mode incoming).market = market.insert incoming ∧
      (market.matchOrder sizes mode incoming).fills = [] := by
  obtain ⟨_, left, marketEq⟩ :=
    @matchOrder_patient sizes market incoming sound mode absent patient
  have accepted : ¬ market.Rejects mode incoming := by
    simp [Rejects, absent, patient]
  have nothing := sweep_unblocked mode unblocked
  rw [nothing] at left
  have whole : (market.matchOrder sizes mode incoming).stats.remainingQty =
      incoming.qty := UInt32.toNat_inj.mp left
  constructor
  · rw [marketEq, swept_unblocked sound mode unblocked, whole,
      if_pos ⟨positive, unblocked, room⟩]
  · rw [matchOrder, if_neg accepted, commitMatch, nothing]
    rfl

/-- A replacement in place keeps the order. -/
theorem replace_inPlace (mode : MatchingMode)
    (found : market.find? existing.orderId = some existing)
    (positive : newQty ≠ 0) (keeps : KeepsPriority existing newPrice newQty) :
    market.replace sizes mode existing.orderId newPrice newQty =
      { market := market.setQty existing.orderId newQty
        fills := []
        stats := {} } := by
  rw [replace, found]
  dsimp only
  exact (if_neg positive).trans (if_pos keeps)

theorem replace_moving (mode : MatchingMode)
    (found : market.find? existing.orderId = some existing)
    (positive : newQty ≠ 0)
    (moves : ¬ KeepsPriority existing newPrice newQty) :
    market.replace sizes mode existing.orderId newPrice newQty =
      (market.cancel existing.orderId).matchOrder sizes mode
        (reentry existing newPrice newQty) := by
  rw [replace, found]
  dsimp only
  exact (if_neg positive).trans (if_neg moves)

theorem find?_setQty (valid : market.Valid) (rests : market.Rests existing) :
    (market.setQty existing.orderId newQty).find? existing.orderId =
      some { existing with qty := newQty } := by
  apply (valid.setQty existing.orderId newQty).find?_eq_some_iff.mpr
  refine ⟨?_, rfl⟩
  rw [setQty, alter, rests_revise (keepsPlace_alter (keepsPlace_setQty newQty))]
  exact ⟨existing, rests, if_pos rfl⟩

theorem fate_reentry (sound : market.Sound) (mode : MatchingMode)
    (rests : market.Rests existing)
    (fewOrders : market.orderCount ≤ sizes.orders)
    (fewLevels : market.levelCount ≤ sizes.levels) :
    market.Fate sizes existing newPrice newQty
      ((market.cancel existing.orderId).matchOrder sizes mode
        (reentry existing newPrice newQty)) := by
  have cancelSound := sound.changed (changed_cancel market existing.orderId)
  have absent : (market.cancel existing.orderId).find?
      (reentry existing newPrice newQty).orderId = none :=
    find?_cancel sound.toValid existing.orderId
  have oldPatient := sound.patient rests
  have patient : (reentry existing newPrice newQty).tif = .gtc := oldPatient
  obtain ⟨conserved, left, marketEq⟩ :=
    @matchOrder_patient sizes _ _ cancelSound mode absent patient
  have room := @hasRoom_swept sizes market existing newPrice newQty sound mode
    rests fewOrders fewLevels
  have sameBlocks := @blocks_cancel market existing newPrice newQty
    sound.toValid rests
  generalize (market.cancel existing.orderId).matchOrder sizes mode
    (reentry existing newPrice newQty) = outcome at conserved left marketEq ⊢
  generalize market.cancel existing.orderId = cancelled
    at cancelSound absent left marketEq room sameBlocks
  change _ = newQty.toNat at conserved
  have changed := @swept_changed cancelled (reentry existing newPrice newQty)
    cancelSound mode
  have sweptSound := cancelSound.changed changed
  have sweptAbsent := changed.find?_none cancelSound.toValid absent
  by_cases strands : market.Strands sizes existing newPrice
  · have unblocked : cancelled.blocks (reentry existing newPrice newQty) =
        false := sameBlocks.trans strands.unblocked
    have nothing := sweep_unblocked mode unblocked
    have same := swept_unblocked cancelSound mode unblocked
    rw [nothing] at left
    rw [same] at room marketEq sweptAbsent
    rw [if_neg (fun all => (room unblocked).mp all.2.2 strands)] at marketEq
    refine .stranded strands ?_ ?_ ?_
    · rw [marketEq]
      exact sweptAbsent
    · change outcome.stats.remainingQty.toNat = newQty.toNat - 0 at left
      omega
    · rw [marketEq]
      exact unblocked
  · by_cases all_filled : outcome.stats.remainingQty = 0
    · rw [all_filled] at conserved marketEq
      rw [if_neg (by simp)] at marketEq
      refine .filled strands ?_ ?_
      · rw [marketEq]
        exact sweptAbsent
      · simpa using conserved
    · have someLeft : 0 < outcome.stats.remainingQty.toNat :=
        UInt32.lt_iff_toNat_lt.mp (UInt32.pos_iff_ne_zero.mpr all_filled)
      cases blocked : (cancelled.swept mode
          (reentry existing newPrice newQty)).blocks
          (reentry existing newPrice newQty) with
      | true =>
          rw [if_neg (by simp [blocked])] at marketEq
          obtain ⟨price, best, crossing⟩ := blocks_eq_true.mp blocked
          refine .discarded price strands ?_ (by omega) ?_ crossing ?_
          · rw [marketEq]
            exact sweptAbsent
          · rw [marketEq]
            exact best
          · rw [marketEq]
            exact swept_own_queue cancelSound (by omega) crossing
      | false =>
          have fits := (room blocked).mpr strands
          rw [if_pos ⟨UInt32.lt_iff_toNat_lt.mpr someLeft, blocked, fits⟩]
            at marketEq
          let rested : Order := { reentry existing newPrice newQty with
            qty := outcome.stats.remainingQty }
          have inserted : ((cancelled.swept mode (reentry existing newPrice
              newQty)).insert rested).Valid :=
            Valid.insert sweptSound.toValid sweptAbsent
          refine .rests rested strands ?_ rfl rfl rfl rfl someLeft conserved
          rw [marketEq]
          apply inserted.find?_eq_some_iff.mpr
          exact ⟨rests_insert.mpr (.inr rfl), rfl⟩

theorem replace_fate (sound : market.Sound) (mode : MatchingMode)
    (found : market.find? existing.orderId = some existing)
    (fewOrders : market.orderCount ≤ sizes.orders)
    (fewLevels : market.levelCount ≤ sizes.levels) (positive : newQty ≠ 0) :
    market.Fate sizes existing newPrice newQty
      (market.replace sizes mode existing.orderId newPrice newQty) := by
  obtain ⟨rests, _⟩ := sound.find?_eq_some_iff.mp found
  have someQty : 0 < newQty.toNat :=
    UInt32.lt_iff_toNat_lt.mp (UInt32.pos_iff_ne_zero.mpr positive)
  by_cases keeps : KeepsPriority existing newPrice newQty
  · rw [replace_inPlace mode found positive keeps]
    have notStranded : ¬ market.Strands sizes existing newPrice := by
      rw [keeps.1]
      exact not_strands_samePrice sound.toValid rests
    apply Fate.rests { existing with qty := newQty } notStranded
      (find?_setQty sound.toValid rests) keeps.1.symm rfl rfl rfl someQty
    exact Nat.zero_add _
  · rw [replace_moving mode found positive keeps]
    exact fate_reentry sound mode rests fewOrders fewLevels

end Market

end Hydra
