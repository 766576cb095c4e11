import Hydra.Market.Trading

/-!
# What matching reports

On a sound market the outcome of matching is balanced: the fills and the
remaining quantity add up to the incoming order, and the market afterwards is
the one before with the fills taken off and, perhaps, the remainder added.
-/

namespace Hydra

open Allocation

/-- The outcome of matching an order agrees with its own fills. -/
structure Outcome.Balances (sizes : PoolSizes) (market : Market)
    (incoming : Order) (outcome : Outcome) : Prop where
  conserved : (outcome.fills.map fun fill => fill.qty.toNat).sum +
    outcome.stats.remainingQty.toNat = incoming.qty.toNat
  makers : ∀ fill ∈ outcome.fills, ∃ maker, market.Rests maker ∧
    maker.side = incoming.side.opposite ∧ maker.orderId = fill.makerOrderId
  covered : ∀ order, market.Rests order →
    taken outcome.fills order.orderId ≤ order.size
  untouched : ∀ order, market.Rests order →
    (∀ fill ∈ outcome.fills, fill.makerOrderId ≠ order.orderId) →
    afterFills outcome.fills order = some order
  queues : ∀ side price,
    (market.revise (afterFills outcome.fills)).queueAt side price =
      (market.queueAt side price).filterMap (afterFills outcome.fills)
  ownSide : (market.revise (afterFills outcome.fills)).ladder incoming.side =
    market.ladder incoming.side
  market : let swept := market.revise (afterFills outcome.fills)
    outcome.market =
      if incoming.tif = .gtc ∧ 0 < outcome.stats.remainingQty ∧
          swept.blocks incoming = false ∧ swept.HasRoom sizes incoming then
        swept.insert { incoming with qty := outcome.stats.remainingQty }
      else swept

namespace Market

variable {sizes : PoolSizes} {market : Market} {incoming : Order}
variable {fills : List FillEvent}

theorem untouched_afterFills (sound : market.Sound) {order : Order}
    (rests : market.Rests order)
    (unnamed : ∀ fill ∈ fills, fill.makerOrderId ≠ order.orderId) :
    afterFills fills order = some order :=
  afterFills_untouched (sound.size_pos rests) (taken_eq_zero unnamed)

theorem ladder_afterFills (sound : market.Sound)
    (makers : ∀ fill ∈ fills, ∃ maker, market.Rests maker ∧
      maker.side = incoming.side.opposite ∧
      maker.orderId = fill.makerOrderId) :
    (market.revise (afterFills fills)).ladder incoming.side =
      market.ladder incoming.side := by
  apply ladder_revise_fixed sound.toValid
  intro order member
  obtain ⟨rests, sideEq⟩ := sound.mem_orders_iff.mp member
  apply untouched_afterFills sound rests
  intro fill filled same
  obtain ⟨maker, makerRests, makerSide, makerId⟩ := makers fill filled
  have sameOrder := sound.id_unique makerRests rests (makerId.trans same)
  rw [sameOrder, sideEq] at makerSide
  exact incoming.side.opposite_ne makerSide.symm

/-- Every fill of a sweep names an order of the opposite side. -/
theorem makers_sweep (mode : MatchingMode) (sound : market.Sound) :
    ∀ fill ∈ (allGrants (market.sweep mode incoming)).map
        (fillEvent incoming),
      ∃ maker, market.Rests maker ∧
        maker.side = incoming.side.opposite ∧
        maker.orderId = fill.makerOrderId := by
  intro fill filled
  obtain ⟨grant, member, rfl⟩ := List.mem_map.mp filled
  obtain ⟨rests, sideEq, _⟩ := mem_sweep sound.toValid member
  exact ⟨grant.1, rests, sideEq, rfl⟩

theorem rest_eq (sizes : PoolSizes) (remaining : UInt32)
    (absent : market.find? incoming.orderId = none) :
    market.rest sizes incoming remaining.toNat =
      if incoming.tif = .gtc ∧ 0 < remaining ∧
          market.blocks incoming = false ∧ market.HasRoom sizes incoming then
        market.insert { incoming with qty := remaining }
      else market := by
  have word : UInt32.ofNat remaining.toNat = remaining := UInt32.ofNat_toNat
  have positive : 0 < remaining ↔ 0 < remaining.toNat :=
    UInt32.lt_iff_toNat_lt
  have accepts : market.Accepts sizes { incoming with qty := remaining } ↔
      market.HasRoom sizes incoming :=
    and_iff_right absent
  rw [rest, add, word]
  by_cases rests : incoming.tif = .gtc ∧ 0 < remaining.toNat ∧
      market.blocks incoming = false
  · rw [if_pos rests]
    by_cases room : market.HasRoom sizes incoming
    · rw [if_pos (accepts.mpr room),
        if_pos ⟨rests.1, positive.mpr rests.2.1, rests.2.2, room⟩]
    · rw [if_neg (fun accepted => room (accepts.mp accepted)),
        if_neg (fun all => room all.2.2.2)]
  · rw [if_neg rests, if_neg]
    intro all
    exact rests ⟨all.1, positive.mp all.2.1, all.2.2.1⟩

theorem reject_balances (sound : market.Sound) (fok : incoming.tif = .fok) :
    (market.reject incoming).Balances sizes market incoming where
  conserved := Nat.zero_add _
  makers fill filled := by cases filled
  covered order _ := Nat.zero_le _
  untouched _ rests unnamed := untouched_afterFills sound rests unnamed
  queues _ _ := queueAt_revise
  ownSide := by
    apply ladder_afterFills sound
    intro fill filled
    cases filled
  market := by
    have unchanged : market.revise (afterFills []) = market := by
      apply Eq.trans _ (revise_some sound.toValid)
      apply revise_congr
      intro side order member
      obtain ⟨rests, _⟩ := sound.mem_orders_iff.mp member
      exact afterFills_untouched (sound.size_pos rests) rfl
    intro swept
    rw [if_neg (by simp [fok])]
    exact unchanged.symm

theorem commitMatch_balances (mode : MatchingMode) (sound : market.Sound)
    (absent : market.find? incoming.orderId = none) :
    (market.commitMatch sizes mode incoming).Balances sizes market
      incoming := by
  have bounded := @sweep_bounded market mode incoming sound.toValid
  have makers := @makers_sweep market incoming mode sound
  have covered : ∀ order, market.Rests order → taken
      ((allGrants (market.sweep mode incoming)).map (fillEvent incoming))
      order.orderId ≤ order.size := by
    intro order rests
    exact taken_sweep_le mode incoming sound.toValid rests
  have fits : total (allGrants (market.sweep mode incoming)) ≤
      incoming.size := by
    rw [total_sweep sound.toValid]
    exact Nat.min_le_left _ _
  have left :
      (market.commitMatch sizes mode incoming).stats.remainingQty.toNat =
      incoming.size - total (allGrants (market.sweep mode incoming)) := by
    apply UInt32.toNat_ofNat_of_lt'
    exact Nat.lt_of_le_of_lt (Nat.sub_le _ _) incoming.qty.toNat_lt
  constructor
  case conserved =>
    rw [left]
    change (((allGrants (market.sweep mode incoming)).map
      (fillEvent incoming)).map _).sum + _ = incoming.size
    rw [sum_fillEvents bounded]
    omega
  case makers => exact makers
  case covered => exact covered
  case untouched =>
    intro order rests unnamed
    exact untouched_afterFills sound rests unnamed
  case queues =>
    intro side price
    exact queueAt_revise
  case ownSide => exact ladder_afterFills sound makers
  case market =>
    intro swept
    have sweptEq : market.applyFills
        ((allGrants (market.sweep mode incoming)).map (fillEvent incoming)) =
        swept :=
      applyFills_eq sound.toValid (fun _ rests => sound.size_pos rests) covered
    have sweptAbsent : swept.find? incoming.orderId = none := by
      rw [← sweptEq]
      exact (changed_applyFills sound.toValid _).find?_none sound.toValid
        absent
    rw [← rest_eq sizes _ sweptAbsent, left, ← sweptEq]
    rfl

/-- Matching an order whose id does not rest is balanced. -/
theorem matchOrder_balances (mode : MatchingMode) (sound : market.Sound)
    (absent : market.find? incoming.orderId = none) :
    (market.matchOrder sizes mode incoming).Balances sizes market
      incoming := by
  rw [matchOrder]
  split
  next rejects =>
    rcases rejects with resting | short
    · exact absurd absent resting
    · exact reject_balances sound short.1
  next => exact commitMatch_balances mode sound absent

/-- A fill-or-kill order is refused exactly when too little can trade with
it, whatever the mode. -/
theorem rejects_iff (mode : MatchingMode) (valid : market.Valid)
    (absent : market.find? incoming.orderId = none) :
    market.Rejects mode incoming ↔ incoming.tif = .fok ∧
      demand Order.size (market.matchable incoming) < incoming.size := by
  rw [Rejects, total_sweep valid, absent]
  constructor
  · intro rejects
    rcases rejects with impossible | short
    · exact absurd rfl impossible
    · exact ⟨short.1, by omega⟩
  · intro short
    exact .inr ⟨short.1, by omega⟩

theorem commitMatch_filled (mode : MatchingMode) (valid : market.Valid)
    (enough : incoming.size ≤
      demand Order.size (market.matchable incoming)) :
    (market.commitMatch sizes mode incoming).stats.remainingQty = 0 := by
  have all : total (allGrants (market.sweep mode incoming)) =
      incoming.size := by
    rw [total_sweep valid]
    exact Nat.min_eq_left enough
  change UInt32.ofNat (incoming.size - total _) = 0
  rw [all, Nat.sub_self]
  rfl

end Market

end Hydra
