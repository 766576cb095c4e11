import Hydra.Market.Ledger
import Hydra.Market.Trading

/-!
# Changes of different orders commute

An order that joins the market and leaves it again has no part in what happens
to the other orders in between: its insertion and its cancellation commute with
every change of an order with another id.
-/

namespace Hydra

namespace Market

variable {market : Market} {order : Order} {orderId : UInt64}
variable {change : Order → Option Order}

/-- A ladder is read off its queues. -/
theorem Valid.find?_eq (valid : market.Valid) (side : Side) (price : Int64) :
    (market.ladder side).find? price =
      if market.queueAt side price = [] then none
      else some (market.queueAt side price) := by
  rw [queueAt]
  cases stored : (market.ladder side).find? price with
  | none => simp
  | some queue =>
      have populated := valid.populated (SortedMap.find?_eq_some_iff.mp stored)
      simp [populated]

theorem Valid.ext_queueAt {other : Market} (valid : market.Valid)
    (otherValid : other.Valid)
    (queues : ∀ side price,
      market.queueAt side price = other.queueAt side price) :
    market = other := by
  apply ext
  intro side
  apply SortedMap.ext_find?
  intro price
  rw [valid.find?_eq, otherValid.find?_eq, queues]

theorem Valid.alter (valid : market.Valid) (keeps : KeepsPlace change)
    (orderId : UInt64) : (market.alter orderId change).Valid :=
  valid.revise (keepsPlace_alter keeps)

theorem queueAt_alter {side : Side} {price : Int64} :
    (market.alter orderId change).queueAt side price =
      (market.queueAt side price).filterMap fun order =>
        if order.orderId = orderId then change order else some order :=
  queueAt_revise

theorem Valid.find?_alter_of_ne (valid : market.Valid)
    (keeps : KeepsPlace change) {other : UInt64} (differs : other ≠ orderId) :
    (market.alter orderId change).find? other = market.find? other := by
  apply Option.ext
  intro found
  rw [(valid.alter keeps orderId).find?_eq_some_iff, valid.find?_eq_some_iff,
    Market.alter, rests_revise (keepsPlace_alter keeps)]
  constructor
  · intro rests
    obtain ⟨⟨old, oldRests, changed⟩, rfl⟩ := rests
    split at changed
    next same =>
      exact absurd ((keeps old found changed).2.2.trans same) differs
    next =>
      obtain rfl := Option.some.inj changed
      exact ⟨oldRests, rfl⟩
  · intro rests
    obtain ⟨rests, rfl⟩ := rests
    exact ⟨⟨found, rests, if_neg differs⟩, rfl⟩

theorem alter_comm {later : Order → Option Order} {other : UInt64}
    (keeps : KeepsPlace change) (laterKeeps : KeepsPlace later)
    (differs : other ≠ orderId) :
    (market.alter orderId change).alter other later =
      (market.alter other later).alter orderId change := by
  rw [alter, alter, alter, alter, revise_revise, revise_revise]
  congr 1
  funext order
  by_cases first : order.orderId = orderId
  · have second : order.orderId ≠ other := by
      intro same
      exact differs (same.symm.trans first)
    cases changed : change order with
    | none => simp [first, changed, Ne.symm differs]
    | some next =>
        have nextId := (keeps order next changed).2.2
        simp [first, changed, nextId, Ne.symm differs]
  · by_cases second : order.orderId = other
    · cases changed : later order with
      | none => simp [second, changed, differs]
      | some next =>
          have nextId := (laterKeeps order next changed).2.2
          simp [second, changed, nextId, differs]
    · simp [first, second]

theorem Valid.insert_absent (valid : market.Valid) (keeps : KeepsPlace change)
    (fresh : market.find? order.orderId = none)
    (differs : order.orderId ≠ orderId) :
    (market.alter orderId change).find? order.orderId = none := by
  rw [valid.find?_alter_of_ne keeps differs, fresh]

/-- A new order finds its place before or after a change of another one. -/
theorem Valid.alter_insert (valid : market.Valid) (keeps : KeepsPlace change)
    (fresh : market.find? order.orderId = none)
    (differs : order.orderId ≠ orderId) :
    (market.insert order).alter orderId change =
      (market.alter orderId change).insert order := by
  apply ((valid.insert fresh).alter keeps orderId).ext_queueAt
    ((valid.alter keeps orderId).insert
      (valid.insert_absent keeps fresh differs))
  intro side price
  rw [queueAt_alter]
  by_cases here : side = order.side ∧ price = order.price
  · obtain ⟨rfl, rfl⟩ := here
    simp [queueAt_insert_self, queueAt_alter, differs]
  · have elsewhere : side ≠ order.side ∨ price ≠ order.price := by tauto
    rw [queueAt_insert_of_ne elsewhere, queueAt_insert_of_ne elsewhere,
      queueAt_alter]

/-- A new order leaves nothing behind. -/
theorem Valid.cancel_insert (valid : market.Valid)
    (fresh : market.find? order.orderId = none) :
    (market.insert order).cancel order.orderId = market := by
  apply ((valid.insert fresh).cancel order.orderId).ext_queueAt valid
  intro side price
  have others : ∀ other ∈ market.queueAt side price,
      (if other.orderId = order.orderId then none else some other) =
        some other := by
    intro other member
    have rests := (valid.mem_queueAt_iff.mp member).1
    rw [if_neg (valid.find?_eq_none_iff.mp fresh other rests)]
  rw [Market.cancel, queueAt_alter]
  by_cases here : side = order.side ∧ price = order.price
  · obtain ⟨rfl, rfl⟩ := here
    rw [queueAt_insert_self, List.filterMap_append, filterMap_fixed others]
    simp
  · have elsewhere : side ≠ order.side ∨ price ≠ order.price := by tauto
    rw [queueAt_insert_of_ne elsewhere, filterMap_fixed others]

theorem orderCount_revise_le (market : Market)
    (change : Order → Option Order) :
    (market.revise change).orderCount ≤ market.orderCount := by
  rw [orderCount, orderCount, orders_revise, orders_revise]
  exact Nat.add_le_add (List.length_filterMap_le _ _)
    (List.length_filterMap_le _ _)

theorem levels_revise_le (market : Market) (change : Order → Option Order)
    (side : Side) :
    ((market.revise change).ladder side).entries.length ≤
      (market.ladder side).entries.length :=
  List.length_filterMap_le _ _

theorem levelCount_revise_le (market : Market)
    (change : Order → Option Order) :
    (market.revise change).levelCount ≤ market.levelCount :=
  Nat.add_le_add (market.levels_revise_le change .buy)
    (market.levels_revise_le change .sell)

theorem orderCount_insert (market : Market) (order : Order) :
    (market.insert order).orderCount = market.orderCount + 1 := by
  have own : ((market.insert order).orders order.side).length =
      (market.orders order.side).length + 1 := orders_insert_perm.length_eq
  rw [orderCount, orderCount]
  cases sideEq : order.side with
  | buy =>
      have other : Side.sell ≠ order.side := by simp [sideEq]
      rw [sideEq] at own
      rw [orders_insert_of_ne other]
      omega
  | sell =>
      have other : Side.buy ≠ order.side := by simp [sideEq]
      rw [sideEq] at own
      rw [orders_insert_of_ne other]
      omega

/-- A new order needs a new level exactly when its price is not listed. -/
theorem levelCount_insert (market : Market) (order : Order) :
    (market.insert order).levelCount = market.levelCount +
      if (market.ladder order.side).find? order.price = none then 1 else 0 := by
  have own : ((market.insert order).ladder order.side).entries.length =
      (market.ladder order.side).entries.length +
        if (market.ladder order.side).find? order.price = none then 1
        else 0 := by
    rw [insert_ladder_self]
    cases found : (market.ladder order.side).find? order.price with
    | none =>
        obtain ⟨front, back, split, inserted⟩ :=
          SortedMap.emplace_split found [order]
        rw [SortedMap.upsert_of_absent found, split]
        simp only [Option.getD_none, List.nil_append, inserted,
          List.length_append, List.length_cons, if_true]
        omega
    | some queue =>
        obtain ⟨front, back, split⟩ :=
          List.append_of_mem (SortedMap.find?_eq_some_iff.mp found)
        rw [SortedMap.upsert_of_split split, split]
        simp
  rw [levelCount, levelCount]
  cases sideEq : order.side with
  | buy =>
      have other : Side.sell ≠ order.side := by simp [sideEq]
      rw [sideEq] at own
      rw [insert_ladder_of_ne other]
      omega
  | sell =>
      have other : Side.buy ≠ order.side := by simp [sideEq]
      rw [sideEq] at own
      rw [insert_ladder_of_ne other]
      omega

/-- A level that disappears makes room for another one. -/
theorem levelCount_revise_lt {side : Side} {price : Int64}
    (listed : ((market.ladder side).find? price).isSome = true)
    (gone : ((market.revise change).ladder side).find? price = none) :
    (market.revise change).levelCount < market.levelCount := by
  obtain ⟨queue, stored⟩ := Option.isSome_iff_exists.mp listed
  have fewer : ((market.revise change).ladder side).entries.length <
      (market.ladder side).entries.length := by
    apply Nat.lt_of_le_of_ne (market.levels_revise_le change side)
    intro same
    have kept := List.filterMap_length_eq_length.mp same (price, queue)
      (SortedMap.find?_eq_some_iff.mp stored)
    have dropped := SortedMap.find?_filterMap (market.ladder side)
      (reviseQueue change) price
    change ((market.ladder side).filterMap (reviseQueue change)).find? price =
      none at gone
    rw [gone, stored, Option.bind_some] at dropped
    simp [← dropped] at kept
  have buys := market.levels_revise_le change .buy
  have sells := market.levels_revise_le change .sell
  rw [levelCount, levelCount]
  cases side with
  | buy => exact Nat.add_lt_add_of_lt_of_le fewer sells
  | sell => exact Nat.add_lt_add_of_le_of_lt buys fewer

/-- Where there is room for an order, there is room when another one has
left. -/
theorem HasRoom.revise {sizes : PoolSizes} (room : market.HasRoom sizes order)
    (fits : market.levelCount ≤ sizes.levels)
    (change : Order → Option Order) :
    (market.revise change).HasRoom sizes order := by
  obtain ⟨orders, levels⟩ := room
  refine ⟨Nat.lt_of_le_of_lt (market.orderCount_revise_le change) orders, ?_⟩
  cases kept : ((market.revise change).ladder order.side).find? order.price with
  | some queue => simp
  | none =>
      right
      rcases levels with listed | spare
      · exact Nat.lt_of_lt_of_le (levelCount_revise_lt listed kept) fits
      · exact Nat.lt_of_le_of_lt (market.levelCount_revise_le change) spare

end Market

end Hydra
