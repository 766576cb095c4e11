import Hydra.Library.SortedMap
import Hydra.Types
import Mathlib.Data.List.Nodup

/-!
# The abstract market

What an order book is for, without its heap: on each side a ladder of prices,
best first, and at each price the queue of the resting orders, oldest first.

Every change of resting orders is a `revise`: a partial function on orders,
where an order that it maps to `none` leaves the market and a level without
orders disappears.
-/

namespace Hydra

/-- What a fill of `taken` leaves of an order. -/
def Order.afterFill (taken : UInt32) (order : Order) : Option Order :=
  if order.qty - taken = 0 then none
  else some { order with qty := order.qty - taken }

/-- The resting orders of both sides: the queue of every price, best price
first. -/
structure Market where
  ladder : (side : Side) → SortedMap side.better (List Order)

namespace Market

@[ext] theorem ext {left right : Market}
    (ladders : ∀ side, left.ladder side = right.ladder side) :
    left = right := by
  cases left
  cases right
  congr
  funext side
  exact ladders side

/-- The market without orders. -/
def empty : Market where
  ladder _ := .empty

/-- The resting orders of a side: best price first, then oldest first. -/
def orders (market : Market) (side : Side) : List Order :=
  (market.ladder side).entries.flatMap Prod.snd

def queueAt (market : Market) (side : Side) (price : Int64) : List Order :=
  ((market.ladder side).find? price).getD []

/-- The best price of a side. -/
def best? (market : Market) (side : Side) : Option Int64 :=
  (market.ladder side).entries.head?.map Prod.fst

def find? (market : Market) (orderId : UInt64) : Option Order :=
  (market.orders .buy ++ market.orders .sell).find? fun order =>
    decide (order.orderId = orderId)

def orderCount (market : Market) : Nat :=
  (market.orders .buy).length + (market.orders .sell).length

def levelCount (market : Market) : Nat :=
  (market.ladder .buy).entries.length + (market.ladder .sell).entries.length

/-- The orders that a partial function keeps, unless there are none. -/
def reviseQueue (change : Order → Option Order) (queue : List Order) :
    Option (List Order) :=
  match queue.filterMap change with
  | [] => none
  | order :: rest => some (order :: rest)

def revise (market : Market) (change : Order → Option Order) : Market where
  ladder side := (market.ladder side).filterMap (reviseQueue change)

/-- Change the order with the given id. -/
def alter (market : Market) (orderId : UInt64)
    (change : Order → Option Order) : Market :=
  market.revise fun order =>
    if order.orderId = orderId then change order else some order

def cancel (market : Market) (orderId : UInt64) : Market :=
  market.alter orderId fun _ => none

def setQty (market : Market) (orderId : UInt64) (qty : UInt32) : Market :=
  market.alter orderId fun order => some { order with qty }

/-- Take a filled quantity from its maker, which leaves when nothing of it
remains. -/
def applyFill (market : Market) (fill : FillEvent) : Market :=
  market.alter fill.makerOrderId (Order.afterFill fill.qty)

def applyFills (market : Market) (fills : List FillEvent) : Market :=
  fills.foldl applyFill market

/-- The order joins the end of the queue at its price. -/
def insert (market : Market) (order : Order) : Market where
  ladder := Function.update market.ladder order.side
    ((market.ladder order.side).upsert order.price fun queue =>
      queue.getD [] ++ [order])

/-- The pools of the given sizes can supply the slots of one more order. -/
def HasRoom (sizes : PoolSizes) (market : Market) (order : Order) : Prop :=
  market.orderCount < sizes.orders ∧
    (((market.ladder order.side).find? order.price).isSome ∨
      market.levelCount < sizes.levels)

instance (sizes : PoolSizes) (market : Market) (order : Order) :
    Decidable (market.HasRoom sizes order) :=
  inferInstanceAs (Decidable (_ ∧ (_ ∨ _)))

/-- An order is added when its id is new and there is room for it. -/
def Accepts (sizes : PoolSizes) (market : Market) (order : Order) : Prop :=
  market.find? order.orderId = none ∧ market.HasRoom sizes order

instance (sizes : PoolSizes) (market : Market) (order : Order) :
    Decidable (market.Accepts sizes order) :=
  inferInstanceAs (Decidable (_ ∧ _))

def add (sizes : PoolSizes) (market : Market) (order : Order) : Market :=
  if market.Accepts sizes order then market.insert order else market

/-- Every level has orders, every order lies at its own side and price, and no
two orders have the same id. -/
structure Valid (market : Market) : Prop where
  populated : ∀ {side price queue},
    (price, queue) ∈ (market.ladder side).entries → queue ≠ []
  placed : ∀ {side price queue order},
    (price, queue) ∈ (market.ladder side).entries → order ∈ queue →
    order.price = price ∧ order.side = side
  ids_nodup : ((market.orders .buy ++ market.orders .sell).map
    Order.orderId).Nodup

/-- The order rests in the market. -/
def Rests (market : Market) (order : Order) : Prop :=
  order ∈ market.orders order.side

section Orders

variable {market : Market} {side : Side} {order : Order} {price : Int64}

theorem mem_orders : order ∈ market.orders side ↔
    ∃ price queue, (price, queue) ∈ (market.ladder side).entries ∧
      order ∈ queue := by
  simp [orders, List.mem_flatMap]

theorem queueAt_eq {queue : List Order}
    (listed : (price, queue) ∈ (market.ladder side).entries) :
    market.queueAt side price = queue := by
  rw [queueAt, SortedMap.find?_eq_some_iff.mpr listed, Option.getD_some]

theorem mem_queueAt : order ∈ market.queueAt side price ↔
    ∃ queue, (price, queue) ∈ (market.ladder side).entries ∧
      order ∈ queue := by
  simp only [queueAt, ← SortedMap.find?_eq_some_iff]
  cases (market.ladder side).find? price <;> simp

theorem Valid.mem_orders_iff (valid : market.Valid) :
    order ∈ market.orders side ↔ market.Rests order ∧ order.side = side := by
  constructor
  · intro member
    obtain ⟨price, queue, listed, queued⟩ := mem_orders.mp member
    obtain ⟨_, rfl⟩ := valid.placed listed queued
    exact ⟨member, rfl⟩
  · intro member
    obtain ⟨rests, rfl⟩ := member
    exact rests

theorem Valid.mem_queueAt_iff (valid : market.Valid) :
    order ∈ market.queueAt side price ↔
      market.Rests order ∧ order.side = side ∧ order.price = price := by
  rw [mem_queueAt]
  constructor
  · intro queued
    obtain ⟨queue, listed, member⟩ := queued
    obtain ⟨rfl, rfl⟩ := valid.placed listed member
    exact ⟨mem_orders.mpr ⟨_, _, listed, member⟩, rfl, rfl⟩
  · intro rests
    obtain ⟨rests, rfl, rfl⟩ := rests
    obtain ⟨price, queue, listed, member⟩ := mem_orders.mp rests
    rw [(valid.placed listed member).1]
    exact ⟨queue, listed, member⟩

theorem Valid.mem_all (valid : market.Valid) :
    order ∈ market.orders .buy ++ market.orders .sell ↔
      market.Rests order := by
  rw [List.mem_append, valid.mem_orders_iff, valid.mem_orders_iff]
  cases order.side <;> simp

theorem Valid.id_unique (valid : market.Valid) {other : Order}
    (rests : market.Rests order) (otherRests : market.Rests other)
    (same : order.orderId = other.orderId) : order = other :=
  List.inj_on_of_nodup_map valid.ids_nodup (valid.mem_all.mpr rests)
    (valid.mem_all.mpr otherRests) same

theorem Valid.find?_eq_some_iff (valid : market.Valid) {orderId : UInt64} :
    market.find? orderId = some order ↔
      market.Rests order ∧ order.orderId = orderId := by
  constructor
  · intro found
    have sameId := List.find?_some found
    simp only [decide_eq_true_eq] at sameId
    exact ⟨valid.mem_all.mp (List.mem_of_find?_eq_some found), sameId⟩
  · intro rests
    obtain ⟨rests, rfl⟩ := rests
    cases found : market.find? order.orderId with
    | none =>
        have missing := List.find?_eq_none.mp found order
          (valid.mem_all.mpr rests)
        simp at missing
    | some other =>
        have sameId := List.find?_some found
        simp only [decide_eq_true_eq] at sameId
        have otherRests := valid.mem_all.mp (List.mem_of_find?_eq_some found)
        rw [valid.id_unique otherRests rests sameId]

theorem Valid.find?_eq_none_iff (valid : market.Valid) {orderId : UInt64} :
    market.find? orderId = none ↔
      ∀ order, market.Rests order → order.orderId ≠ orderId := by
  rw [Option.eq_none_iff_forall_ne_some]
  simp only [ne_eq, valid.find?_eq_some_iff, not_and]

theorem empty_valid : empty.Valid where
  populated listed := by simp [empty] at listed
  placed listed := by simp [empty] at listed
  ids_nodup := by simp [orders, empty]

end Orders

section Revise

variable {market : Market} {side : Side} {price : Int64}
variable {change : Order → Option Order}

theorem reviseQueue_eq_some {queue kept : List Order} :
    reviseQueue change queue = some kept ↔
      queue.filterMap change = kept ∧ kept ≠ [] := by
  rw [reviseQueue]
  split
  next empty =>
    rw [empty]
    constructor
    · intro impossible
      cases impossible
    · intro same
      exact absurd same.1.symm same.2
  next order rest populated =>
    rw [populated, Option.some.injEq]
    constructor
    · intro same
      exact ⟨same, same ▸ List.cons_ne_nil _ _⟩
    · intro same
      exact same.1

theorem mem_revise {kept : List Order} :
    (price, kept) ∈ ((market.revise change).ladder side).entries ↔
      ∃ queue, (price, queue) ∈ (market.ladder side).entries ∧
        queue.filterMap change = kept ∧ kept ≠ [] := by
  change _ ∈ ((market.ladder side).filterMap _).entries ↔ _
  simp only [SortedMap.mem_filterMap, reviseQueue_eq_some]

theorem queueAt_revise :
    (market.revise change).queueAt side price =
      (market.queueAt side price).filterMap change := by
  change (((market.ladder side).filterMap _).find? price).getD [] = _
  rw [SortedMap.find?_filterMap, queueAt]
  cases (market.ladder side).find? price with
  | none => rfl
  | some queue =>
      simp only [Option.bind_some, reviseQueue, Option.getD_some]
      split
      next empty => simp [empty]
      next populated => simp [populated]

theorem orders_revise :
    (market.revise change).orders side =
      (market.orders side).filterMap change := by
  change List.flatMap _ ((market.ladder side).entries.filterMap _) =
    (List.flatMap _ (market.ladder side).entries).filterMap change
  induction (market.ladder side).entries with
  | nil => rfl
  | cons entry rest induction =>
      rw [List.flatMap_cons, List.filterMap_append, ← induction,
        List.filterMap_cons, reviseQueue]
      split
      next empty =>
        split at empty
        next none_kept => simp [none_kept]
        next => cases empty
      next kept =>
        split at kept
        next => cases kept
        next populated =>
          cases kept
          simp [populated]

theorem revise_revise (after : Order → Option Order) :
    (market.revise change).revise after =
      market.revise fun order => (change order).bind after := by
  apply ext
  intro side
  apply SortedMap.ext
  change ((market.ladder side).entries.filterMap _).filterMap _ =
    (market.ladder side).entries.filterMap _
  rw [List.filterMap_filterMap]
  congr 1
  funext entry
  have composed : reviseQueue (fun order => (change order).bind after) entry.2 =
      (reviseQueue change entry.2).bind (reviseQueue after) := by
    simp only [reviseQueue, ← List.filterMap_filterMap]
    cases entry.2.filterMap change <;> rfl
  rw [composed]
  cases reviseQueue change entry.2 <;> rfl

theorem filterMap_fixed {queue : List Order}
    (fixed : ∀ order ∈ queue, change order = some order) :
    queue.filterMap change = queue := by
  induction queue with
  | nil => rfl
  | cons order rest induction =>
      rw [List.filterMap_cons, fixed order List.mem_cons_self, induction]
      intro other member
      exact fixed other (List.mem_cons_of_mem _ member)

theorem reviseQueue_fixed {queue : List Order} (populated : queue ≠ [])
    (fixed : ∀ order ∈ queue, change order = some order) :
    reviseQueue change queue = some queue :=
  reviseQueue_eq_some.mpr ⟨filterMap_fixed fixed, populated⟩

theorem reviseEntries_fixed {entries : List (Int64 × List Order)}
    (fixed : ∀ entry ∈ entries, entry.2 ≠ [] ∧
      ∀ order ∈ entry.2, change order = some order) :
    (entries.filterMap fun entry =>
      (reviseQueue change entry.2).map fun kept => (entry.1, kept)) =
      entries := by
  induction entries with
  | nil => rfl
  | cons entry rest induction =>
      obtain ⟨populated, ordersFixed⟩ := fixed entry List.mem_cons_self
      rw [List.filterMap_cons, reviseQueue_fixed populated ordersFixed,
        Option.map_some, induction]
      intro other member
      exact fixed other (List.mem_cons_of_mem _ member)

theorem ladder_revise_fixed (valid : market.Valid)
    (fixed : ∀ order ∈ market.orders side, change order = some order) :
    (market.revise change).ladder side = market.ladder side := by
  apply SortedMap.ext
  apply reviseEntries_fixed
  intro entry member
  refine ⟨valid.populated member, ?_⟩
  intro order queued
  exact fixed order (mem_orders.mpr ⟨_, _, member, queued⟩)

/-- A revision that only concerns the orders of one level. -/
theorem ladder_revise_split (valid : market.Valid)
    {front back : List (Int64 × List Order)} {queue : List Order}
    (split : (market.ladder side).entries = front ++ (price, queue) :: back)
    (fixed : ∀ entry ∈ front ++ back, ∀ order ∈ entry.2,
      change order = some order) :
    ((market.revise change).ladder side).entries =
      front ++ (reviseQueue change queue).toList.map (price, ·) ++ back := by
  have others : ∀ entry ∈ front ++ back, entry.2 ≠ [] ∧
      ∀ order ∈ entry.2, change order = some order := by
    intro entry member
    have listed : (entry.1, entry.2) ∈ (market.ladder side).entries := by
      rw [split]
      rw [List.mem_append] at member ⊢
      rw [List.mem_cons]
      tauto
    exact ⟨valid.populated listed, fixed entry member⟩
  change (market.ladder side).entries.filterMap _ = _
  rw [split, List.filterMap_append, List.filterMap_cons,
    reviseEntries_fixed fun entry member =>
      others entry (List.mem_append_left _ member),
    reviseEntries_fixed fun entry member =>
      others entry (List.mem_append_right _ member)]
  cases reviseQueue change queue <;> simp

end Revise

/-- The change keeps what decides where an order is. -/
def KeepsPlace (change : Order → Option Order) : Prop :=
  ∀ order next, change order = some next →
    next.price = order.price ∧ next.side = order.side ∧
      next.orderId = order.orderId

section ValidRevise

variable {market : Market} {side : Side}
variable {change : Order → Option Order} {orderId : UInt64}

theorem mem_orders_revise {order : Order} :
    order ∈ (market.revise change).orders side ↔
      ∃ old ∈ market.orders side, change old = some order := by
  rw [orders_revise, List.mem_filterMap]

theorem rests_revise (keeps : KeepsPlace change) {order : Order} :
    (market.revise change).Rests order ↔
      ∃ old, market.Rests old ∧ change old = some order := by
  rw [Rests, mem_orders_revise]
  constructor
  · intro found
    obtain ⟨old, member, changed⟩ := found
    rw [(keeps old order changed).2.1] at member
    exact ⟨old, member, changed⟩
  · intro found
    obtain ⟨old, member, changed⟩ := found
    rw [Rests, ← (keeps old order changed).2.1] at member
    exact ⟨old, member, changed⟩

theorem ids_filterMap (keeps : KeepsPlace change) (orders : List Order) :
    ((orders.filterMap change).map Order.orderId).Sublist
      (orders.map Order.orderId) := by
  induction orders with
  | nil => exact .slnil
  | cons order rest induction =>
      rw [List.filterMap_cons, List.map_cons]
      cases changed : change order with
      | none => exact induction.cons _
      | some next =>
          simp only [List.map_cons, (keeps order next changed).2.2]
          exact induction.cons_cons _

theorem Valid.revise (valid : market.Valid) (keeps : KeepsPlace change) :
    (market.revise change).Valid where
  populated listed := by
    obtain ⟨_, _, _, populated⟩ := mem_revise.mp listed
    exact populated
  placed listed member := by
    obtain ⟨queue, old, rfl, _⟩ := mem_revise.mp listed
    obtain ⟨oldOrder, oldMember, changed⟩ := List.mem_filterMap.mp member
    obtain ⟨samePrice, sameSide, _⟩ := keeps _ _ changed
    rw [samePrice, sameSide]
    exact valid.placed old oldMember
  ids_nodup := by
    rw [orders_revise, orders_revise, ← List.filterMap_append]
    exact valid.ids_nodup.sublist (ids_filterMap keeps _)

theorem keepsPlace_alter (keeps : KeepsPlace change) :
    KeepsPlace fun order =>
      if order.orderId = orderId then change order else some order := by
  intro order next changed
  dsimp only at changed
  split at changed
  next => exact keeps order next changed
  next =>
    cases changed
    exact ⟨rfl, rfl, rfl⟩

theorem keepsPlace_cancel : KeepsPlace fun _ => none := by
  intro order next changed
  cases changed

theorem keepsPlace_setQty (qty : UInt32) :
    KeepsPlace fun order => some { order with qty } := by
  intro order next changed
  cases changed
  exact ⟨rfl, rfl, rfl⟩

theorem keepsPlace_afterFill (taken : UInt32) :
    KeepsPlace (Order.afterFill taken) := by
  intro order next changed
  rw [Order.afterFill] at changed
  split at changed
  next => cases changed
  next =>
    cases changed
    exact ⟨rfl, rfl, rfl⟩

theorem Valid.cancel (valid : market.Valid) (orderId : UInt64) :
    (market.cancel orderId).Valid :=
  valid.revise (keepsPlace_alter keepsPlace_cancel)

theorem Valid.setQty (valid : market.Valid) (orderId : UInt64) (qty : UInt32) :
    (market.setQty orderId qty).Valid :=
  valid.revise (keepsPlace_alter (keepsPlace_setQty qty))

theorem Valid.applyFill (valid : market.Valid) (fill : FillEvent) :
    (market.applyFill fill).Valid :=
  valid.revise (keepsPlace_alter (keepsPlace_afterFill fill.qty))

theorem Valid.applyFills (valid : market.Valid) (fills : List FillEvent) :
    (market.applyFills fills).Valid := by
  induction fills generalizing market with
  | nil => exact valid
  | cons fill rest induction => exact induction (valid.applyFill fill)

theorem alter_absent (valid : market.Valid)
    (absent : market.find? orderId = none)
    (change : Order → Option Order) : market.alter orderId change = market := by
  apply ext
  intro side
  apply ladder_revise_fixed valid
  intro order member
  obtain ⟨rests, _⟩ := valid.mem_orders_iff.mp member
  rw [if_neg (valid.find?_eq_none_iff.mp absent order rests)]

theorem ladder_alter_of_ne (valid : market.Valid) {order : Order}
    (rests : market.Rests order) (differs : side ≠ order.side)
    (change : Order → Option Order) :
    (market.alter order.orderId change).ladder side = market.ladder side := by
  apply ladder_revise_fixed valid
  intro other member
  obtain ⟨otherRests, rfl⟩ := valid.mem_orders_iff.mp member
  rw [if_neg]
  intro same
  exact differs (valid.id_unique otherRests rests same ▸ rfl)

end ValidRevise

section Insert

variable {market : Market} {order : Order}

@[simp] theorem insert_ladder_self :
    (market.insert order).ladder order.side =
      (market.ladder order.side).upsert order.price fun queue =>
        queue.getD [] ++ [order] := by
  simp [insert]

theorem insert_ladder_of_ne {side : Side} (differs : side ≠ order.side) :
    (market.insert order).ladder side = market.ladder side := by
  simp [insert, Function.update_of_ne differs]

theorem queueAt_insert_self :
    (market.insert order).queueAt order.side order.price =
      market.queueAt order.side order.price ++ [order] := by
  rw [queueAt, insert_ladder_self, SortedMap.find?_upsert_self]
  rfl

theorem queueAt_insert_of_ne {side : Side} {price : Int64}
    (differs : side ≠ order.side ∨ price ≠ order.price) :
    (market.insert order).queueAt side price = market.queueAt side price := by
  by_cases same : side = order.side
  · subst same
    have otherPrice : price ≠ order.price := by simpa using differs
    rw [queueAt, queueAt, insert_ladder_self,
      SortedMap.find?_upsert_of_ne _ otherPrice]
  · rw [queueAt, queueAt, insert_ladder_of_ne same]

/-- An insertion adds exactly the new order to its side. -/
theorem orders_insert_perm :
    ((market.insert order).orders order.side).Perm
      (order :: market.orders order.side) := by
  rw [orders, insert_ladder_self]
  cases found : (market.ladder order.side).find? order.price with
  | none =>
      obtain ⟨front, back, split, inserted⟩ :=
        SortedMap.emplace_split found [order]
      rw [SortedMap.upsert_of_absent found, orders, split]
      simp only [Option.getD_none, List.nil_append, inserted,
        List.flatMap_append, List.flatMap_cons, List.singleton_append]
      exact List.perm_middle
  | some queue =>
      rw [SortedMap.find?_eq_some_iff] at found
      obtain ⟨front, back, split⟩ := List.append_of_mem found
      rw [SortedMap.upsert_of_split split, orders, split]
      simp only [List.flatMap_append, List.flatMap_cons, Option.getD_some,
        ← List.append_assoc]
      rw [List.append_assoc]
      exact List.perm_middle

theorem orders_insert_of_ne {side : Side} (differs : side ≠ order.side) :
    (market.insert order).orders side = market.orders side := by
  rw [orders, insert_ladder_of_ne differs, orders]

theorem mem_orders_insert {side : Side} {other : Order} :
    other ∈ (market.insert order).orders side ↔
      other ∈ market.orders side ∨ (other = order ∧ side = order.side) := by
  by_cases same : side = order.side
  · subst same
    rw [orders_insert_perm.mem_iff, List.mem_cons]
    simp [or_comm]
  · rw [orders_insert_of_ne same]
    simp [same]

theorem rests_insert {other : Order} :
    (market.insert order).Rests other ↔
      market.Rests other ∨ other = order := by
  rw [Rests, mem_orders_insert, Rests]
  constructor
  · intro member
    rcases member with old | ⟨fresh, _⟩
    · exact .inl old
    · exact .inr fresh
  · intro rests
    rcases rests with old | rfl
    · exact .inl old
    · exact .inr ⟨rfl, rfl⟩

theorem Valid.insert (valid : market.Valid)
    (absent : market.find? order.orderId = none) :
    (market.insert order).Valid where
  populated := by
    intro side price queue listed
    by_cases same : side = order.side
    · subst same
      rw [insert_ladder_self, SortedMap.mem_upsert] at listed
      rcases listed with ⟨_, old⟩ | fresh
      · exact valid.populated old
      · rw [(Prod.mk.inj fresh).2]
        simp
    · rw [insert_ladder_of_ne same] at listed
      exact valid.populated listed
  placed := by
    intro side price queue other listed member
    by_cases same : side = order.side
    · subst same
      rw [insert_ladder_self, SortedMap.mem_upsert] at listed
      rcases listed with ⟨_, old⟩ | fresh
      · exact valid.placed old member
      · obtain ⟨rfl, rfl⟩ := Prod.mk.inj fresh
        rcases List.mem_append.mp member with old | last
        · exact (valid.mem_queueAt_iff.mp old).2.symm
        · rw [List.mem_singleton.mp last]
          exact ⟨rfl, rfl⟩
    · rw [insert_ladder_of_ne same] at listed
      exact valid.placed listed member
  ids_nodup := by
    have perm : ((market.insert order).orders .buy ++
        (market.insert order).orders .sell).Perm
        (order :: (market.orders .buy ++ market.orders .sell)) := by
      have inserted : ((market.insert order).orders order.side).Perm
          (order :: market.orders order.side) := orders_insert_perm
      cases sideEq : order.side with
      | buy =>
          have other : Side.sell ≠ order.side := by simp [sideEq]
          rw [sideEq] at inserted
          rw [orders_insert_of_ne other]
          exact inserted.append_right _
      | sell =>
          have other : Side.buy ≠ order.side := by simp [sideEq]
          rw [sideEq] at inserted
          rw [orders_insert_of_ne other]
          exact (inserted.append_left _).trans List.perm_middle
    rw [(perm.map Order.orderId).nodup_iff, List.map_cons, List.nodup_cons]
    refine ⟨?_, valid.ids_nodup⟩
    intro member
    obtain ⟨other, otherMember, sameId⟩ := List.mem_map.mp member
    exact valid.find?_eq_none_iff.mp absent other
      (valid.mem_all.mp otherMember) sameId

end Insert

end Market

end Hydra
