import Hydra.Dataset.Generator
import Mathlib.Data.List.GetD
import Mathlib.Data.List.Nodup

/-!
# Generated datasets are consistent

What the events of a dataset say about orders: which were issued, which were
cancelled, and which still rest.  In every round, whatever is drawn, the
generator's `resting_ids_` are the orders that rest according to the events, so
that cancels and replaces name orders that rest.
-/

namespace Hydra

def newOrders (events : List DatasetEvent) : List Order :=
  (events.filter (·.type = .newOrder)).map (·.order)

def cancelledIds (events : List DatasetEvent) : List UInt64 :=
  (events.filter (·.type = .cancel)).map (·.cancelOrderId)

/-- The order was issued to stay in the book and has not been cancelled. -/
def RestsAfter (events : List DatasetEvent) (id : UInt64) : Prop :=
  (∃ order ∈ newOrders events, order.tif = .gtc ∧ order.orderId = id) ∧
    id ∉ cancelledIds events

/-- Every cancel and every replace names an order that rests then. -/
def NamesResting (events : List DatasetEvent) : Prop :=
  ∀ front event back, events = front ++ event :: back →
    event.type ≠ .newOrder → RestsAfter front event.cancelOrderId

/-- The ids are 1, 2, 3 and so on. -/
def Numbered (orders : List Order) : Prop :=
  orders.map (·.orderId) =
    (List.range orders.length).map fun index => UInt64.ofNat (index + 1)

/-- The fields of an issued order are in the ranges of the configuration. -/
structure DatasetConfig.Issues (config : DatasetConfig) (order : Order) :
    Prop where
  side : order.side.toByte ≤ Side.sell.toByte
  tif : order.tif.toByte ≤ TimeInForce.fok.toByte
  minQty : config.minQty ≤ order.qty
  maxQty : order.qty ≤ config.maxQty
  firstClient : 1 ≤ order.clientId
  lastClient : order.clientId ≤ config.clientIdCount

section Events

variable {events : List DatasetEvent} {event : DatasetEvent} {id : UInt64}

theorem newOrders_append (front back : List DatasetEvent) :
    newOrders (front ++ back) = newOrders front ++ newOrders back := by
  simp only [newOrders, List.filter_append, List.map_append]

theorem length_newOrders_le (events : List DatasetEvent) :
    (newOrders events).length ≤ events.length := by
  rw [newOrders, List.length_map]
  exact List.length_filter_le _ _

theorem newOrders_concat (isNew : event.type = .newOrder) :
    newOrders (events ++ [event]) = newOrders events ++ [event.order] := by
  simp [newOrders, isNew]

theorem newOrders_concat_of_ne (notNew : event.type ≠ .newOrder) :
    newOrders (events ++ [event]) = newOrders events := by
  simp [newOrders, notNew]

theorem cancelledIds_concat (isCancel : event.type = .cancel) :
    cancelledIds (events ++ [event]) =
      cancelledIds events ++ [event.cancelOrderId] := by
  simp [cancelledIds, isCancel]

theorem cancelledIds_concat_of_ne (notCancel : event.type ≠ .cancel) :
    cancelledIds (events ++ [event]) = cancelledIds events := by
  simp [cancelledIds, notCancel]

theorem namesResting_concat (named : NamesResting events)
    (rests : event.type ≠ .newOrder → RestsAfter events event.cancelOrderId) :
    NamesResting (events ++ [event]) := by
  intro front other back split notNew
  rcases List.eq_nil_or_concat back with rfl | ⟨later, last, rfl⟩
  · obtain ⟨rfl, same⟩ := List.append_inj' split rfl
    obtain rfl : event = other := by simpa using same
    exact rests notNew
  · have whole : events ++ [event] = (front ++ other :: later) ++ [last] := by
      rw [split, List.concat_eq_append, List.append_assoc, List.cons_append]
    obtain ⟨same, _⟩ := List.append_inj' whole rfl
    exact named front other later same notNew

theorem mem_cancelledIds (named : NamesResting events)
    (cancelled : id ∈ cancelledIds events) :
    ∃ order ∈ newOrders events, order.orderId = id := by
  obtain ⟨event, member, rfl⟩ := List.mem_map.mp cancelled
  obtain ⟨inside, isCancel⟩ := List.mem_filter.mp member
  obtain ⟨front, back, rfl⟩ := List.append_of_mem inside
  have notNew : event.type ≠ .newOrder := by
    rw [of_decide_eq_true isCancel]
    decide
  obtain ⟨⟨order, issued, _, same⟩, _⟩ := named front event back rfl notNew
  refine ⟨order, ?_, same⟩
  rw [newOrders_append]
  exact List.mem_append_left _ issued

theorem restsAfter_cancel (isCancel : event.type = .cancel) :
    RestsAfter (events ++ [event]) id ↔
      RestsAfter events id ∧ id ≠ event.cancelOrderId := by
  have notNew : event.type ≠ .newOrder := by
    rw [isCancel]
    decide
  rw [RestsAfter, RestsAfter, newOrders_concat_of_ne notNew,
    cancelledIds_concat isCancel, List.mem_append, List.mem_singleton, not_or,
    and_assoc]

theorem restsAfter_replace (isReplace : event.type = .replace) :
    RestsAfter (events ++ [event]) id ↔ RestsAfter events id := by
  have notNew : event.type ≠ .newOrder := by
    rw [isReplace]
    decide
  have notCancel : event.type ≠ .cancel := by
    rw [isReplace]
    decide
  rw [RestsAfter, RestsAfter, newOrders_concat_of_ne notNew,
    cancelledIds_concat_of_ne notCancel]

theorem restsAfter_newOrder (isNew : event.type = .newOrder)
    (fresh : event.order.orderId ∉ cancelledIds events) :
    RestsAfter (events ++ [event]) id ↔ RestsAfter events id ∨
      (event.order.tif = .gtc ∧ event.order.orderId = id) := by
  have notCancel : event.type ≠ .cancel := by
    rw [isNew]
    decide
  rw [RestsAfter, RestsAfter, newOrders_concat isNew,
    cancelledIds_concat_of_ne notCancel]
  constructor
  · rintro ⟨⟨order, member, gtc, same⟩, kept⟩
    rcases List.mem_append.mp member with before | isLast
    · exact .inl ⟨⟨order, before, gtc, same⟩, kept⟩
    · obtain rfl := List.mem_singleton.mp isLast
      exact .inr ⟨gtc, same⟩
  · rintro (⟨⟨order, before, gtc, same⟩, kept⟩ | ⟨gtc, rfl⟩)
    · exact ⟨⟨order, List.mem_append_left _ before, gtc, same⟩, kept⟩
    · refine ⟨⟨event.order, ?_, gtc, rfl⟩, fresh⟩
      exact List.mem_append_right _ (List.mem_singleton_self _)

theorem fresh_of_numbered {orders : List Order} (numbered : Numbered orders)
    (few : orders.length + 1 < 2 ^ 64) :
    ∀ order ∈ orders, order.orderId ≠ UInt64.ofNat (orders.length + 1) := by
  intro order member same
  have listed : order.orderId ∈ orders.map (·.orderId) :=
    List.mem_map_of_mem member
  rw [numbered, List.mem_map] at listed
  obtain ⟨index, inside, number⟩ := listed
  rw [List.mem_range] at inside
  rw [← number, ← UInt64.toNat_inj, UInt64.toNat_ofNat', UInt64.toNat_ofNat']
    at same
  omega

theorem Numbered.of_append {front back : List Order}
    (numbered : Numbered (front ++ back)) : Numbered front := by
  rw [Numbered, List.map_append, List.length_append, List.range_add,
    List.map_append] at numbered
  exact (List.append_inj numbered (by simp)).1

theorem numbered_concat {orders : List Order} {order : Order} :
    Numbered (orders ++ [order]) ↔
      Numbered orders ∧ order.orderId = UInt64.ofNat (orders.length + 1) := by
  rw [Numbered, Numbered, List.map_append, List.length_append,
    List.length_singleton, List.range_succ, List.map_append, List.map_singleton,
    List.map_singleton]
  constructor
  · intro whole
    obtain ⟨front, last⟩ := List.append_inj' whole rfl
    exact ⟨front, List.singleton_inj.mp last⟩
  · intro ⟨front, last⟩
    rw [front, last]

end Events

namespace GeneratorState

variable {float : FloatingPoint} {config : DatasetConfig}
variable {draws : RandomDraws float.Double} {state : GeneratorState}

theorem restingIndex_lt (resting : state.restingIds ≠ []) :
    state.restingIndex float draws < state.restingIds.length := by
  have positive := List.length_pos_iff.mpr resting
  obtain ⟨low, high⟩ := draws.integer_mem state.drawn 0
    (state.restingIds.length - 1) (by omega)
  rw [restingIndex]
  omega

variable (draws) in
theorem quantity_mem (checked : config.Checked float) (drawn : Nat) :
    config.minQty ≤ quantity float config draws drawn ∧
      quantity float config draws drawn ≤ config.maxQty := by
  have ordered := UInt32.le_iff_toNat_le.mp checked.maxQty
  have small := config.maxQty.toNat_lt
  obtain ⟨low, high⟩ := draws.integer_mem drawn config.minQty.toNat
    config.maxQty.toNat (by omega)
  rw [UInt32.le_iff_toNat_le, UInt32.le_iff_toNat_le, quantity,
    UInt32.toNat_ofNat']
  omega

theorem getD_cons_dropLast_perm {ids : List UInt64} (nonempty : ids ≠ []) :
    (ids.getD (ids.length - 1) 0 :: ids.dropLast).Perm ids := by
  have last : ids.getD (ids.length - 1) 0 = ids.getLast nonempty := by
    have inside : ids.length - 1 < ids.length :=
      Nat.sub_lt (List.length_pos_iff.mpr nonempty) Nat.one_pos
    rw [List.getD_eq_getElem ids 0 inside, List.getLast_eq_getElem]
  have whole := List.dropLast_append_getLast nonempty
  rw [last]
  conv_rhs => rw [← whole]
  exact (List.perm_append_singleton _ _).symm

theorem removeResting_perm {ids : List UInt64} {idx : Nat}
    (inside : idx < ids.length) :
    (ids.getD idx 0 :: removeResting ids idx).Perm ids := by
  have nonempty : ids ≠ [] := List.length_pos_iff.mp (by omega)
  rw [removeResting]
  by_cases isLast : idx = ids.length - 1
  · rw [if_neg (by simpa using isLast), isLast]
    exact getD_cons_dropLast_perm nonempty
  · rw [if_pos isLast]
    have movedNonempty : ids.set idx (ids.getD (ids.length - 1) 0) ≠ [] := by
      simpa using nonempty
    have moved := getD_cons_dropLast_perm movedNonempty
    have kept : (ids.set idx (ids.getD (ids.length - 1) 0)).getD
        (ids.length - 1) 0 = ids.getD (ids.length - 1) 0 := by
      simp [List.getD, isLast]
    rw [List.length_set, kept] at moved
    have others := (moved.trans
      (List.set_perm_cons_eraseIdx inside _)).cons_inv
    rw [List.getD_eq_getElem ids 0 inside]
    exact (others.cons _).trans (List.getElem_cons_eraseIdx_perm inside)

/-- The state in which the kind of the event has been chosen. -/
def arrived (float : FloatingPoint) (draws : RandomDraws float.Double)
    (state : GeneratorState) : GeneratorState :=
  ((state.advance float draws).dispatch float draws).2

theorem arrived_eq (float : FloatingPoint)
    (draws : RandomDraws float.Double) (state : GeneratorState) :
    ∃ drawn, state.arrived float draws =
      { state.advance float draws with drawn := drawn } := by
  rw [arrived, dispatch]
  split
  · exact ⟨_, rfl⟩
  · exact ⟨_, rfl⟩

theorem client_mem {count : UInt64} (positive : 0 < count) (id : UInt64) :
    1 ≤ 1 + id % count ∧ 1 + id % count ≤ count := by
  have some_clients : 0 < count.toNat := UInt64.lt_iff_toNat_lt.mp positive
  have small : count.toNat < 2 ^ 64 := count.toNat_lt
  have rest : id.toNat % count.toNat < count.toNat :=
    Nat.mod_lt _ some_clients
  have value : (1 + id % count).toNat = 1 + id.toNat % count.toNat := by
    rw [UInt64.toNat_add, UInt64.toNat_mod]
    exact Nat.mod_eq_of_lt (by change 1 + _ < _; omega)
  rw [UInt64.le_iff_toNat_le, UInt64.le_iff_toNat_le, value]
  change 1 ≤ _ ∧ _
  omega

theorem newOrderRound_issues (checked : config.Checked float)
    (draws : RandomDraws float.Double) (state : GeneratorState) :
    ∃ event : DatasetEvent,
      (state.newOrderRound float config draws).events =
        state.events ++ [event] ∧
      event.type = .newOrder ∧
      event.order.orderId = state.nextOrderId ∧
      config.Issues event.order ∧
      (state.newOrderRound float config draws).restingIds =
        if event.order.tif = .gtc then state.restingIds ++ [state.nextOrderId]
        else state.restingIds := by
  refine ⟨_, rfl, rfl, rfl, ?_, rfl⟩
  obtain ⟨minQty, maxQty⟩ :=
    quantity_mem draws checked (state.drawn + 2)
  obtain ⟨firstClient, lastClient⟩ :=
    client_mem checked.clients state.nextOrderId
  exact ⟨Side.toByte_le _, TimeInForce.toByte_le _, minQty, maxQty,
    firstClient, lastClient⟩

variable (draws) in
/-- A round adds a cancel or a replace of a resting order, or a new order. -/
theorem round_cases (checked : config.Checked float)
    (state : GeneratorState) :
    let arrived := state.arrived float draws
    let next := state.round float config draws
    (state.restingIds ≠ [] ∧ next = arrived.cancelRound float draws) ∨
      (state.restingIds ≠ [] ∧
        next = arrived.replaceRound float config draws) ∨
      next = arrived.newOrderRound float config draws := by
  intro arrived next
  by_cases resting : state.restingIds = []
  · right
    right
    have advanced : (state.advance float draws).restingIds = [] := resting
    have chosen : ((state.advance float draws).dispatch float draws).1 =
        float.one := by
      rw [dispatch, if_pos advanced]
    change state.round float config draws = _
    rw [round]
    simp only [chosen, checked.noCancel, checked.noReplace]
    rfl
  · change (_ ∧ state.round float config draws = _) ∨
      (_ ∧ state.round float config draws = _) ∨
      state.round float config draws = _
    simp only [round]
    split
    · exact .inl ⟨resting, rfl⟩
    · split
      · exact .inr (.inl ⟨resting, rfl⟩)
      · exact .inr (.inr rfl)

/-- The state after so many rounds, and what its events say. -/
structure Consistent (config : DatasetConfig) (rounds : Nat)
    (state : GeneratorState) : Prop where
  length : state.events.length = rounds
  next : state.nextOrderId =
    UInt64.ofNat ((newOrders state.events).length + 1)
  numbered : Numbered (newOrders state.events)
  issued : ∀ order ∈ newOrders state.events, config.Issues order
  named : NamesResting state.events
  cancelled : (cancelledIds state.events).Nodup
  distinct : state.restingIds.Nodup
  resting : ∀ id, id ∈ state.restingIds ↔ RestsAfter state.events id

theorem consistent_start : Consistent config 0 (start config) where
  length := rfl
  next := rfl
  numbered := rfl
  issued order member := by cases member
  named front event back split := by
    cases front <;> cases split
  cancelled := List.nodup_nil
  distinct := List.nodup_nil
  resting id := by simp [start, RestsAfter, newOrders]

namespace Consistent

variable {rounds : Nat}

variable (float draws) in
theorem arrived (consistent : Consistent config rounds state) :
    Consistent config rounds (state.arrived float draws) := by
  obtain ⟨drawn, arrivedEq⟩ := arrived_eq float draws state
  rw [arrivedEq]
  exact ⟨consistent.length, consistent.next, consistent.numbered,
    consistent.issued, consistent.named, consistent.cancelled,
    consistent.distinct, consistent.resting⟩

variable (float draws) in
theorem named_rests (consistent : Consistent config rounds state)
    (resting : state.restingIds ≠ []) :
    RestsAfter state.events
      (state.restingIds.getD (state.restingIndex float draws) 0) := by
  have inside : state.restingIndex float draws < state.restingIds.length :=
    restingIndex_lt resting
  rw [← consistent.resting, List.getD_eq_getElem _ 0 inside]
  exact List.getElem_mem inside

/-- What a cancel and a replace have in common. -/
theorem concat (consistent : Consistent config rounds state)
    {next : GeneratorState} {event : DatasetEvent}
    (events : next.events = state.events ++ [event])
    (sameId : next.nextOrderId = state.nextOrderId)
    (notNew : event.type ≠ .newOrder)
    (rests : RestsAfter state.events event.cancelOrderId)
    (cancelled : (cancelledIds next.events).Nodup)
    (distinct : next.restingIds.Nodup)
    (resting : ∀ id, id ∈ next.restingIds ↔ RestsAfter next.events id) :
    Consistent config (rounds + 1) next := by
  have sameOrders : newOrders next.events = newOrders state.events := by
    rw [events, newOrders_concat_of_ne notNew]
  refine ⟨?_, ?_, ?_, ?_, ?_, cancelled, distinct, resting⟩
  · rw [events, List.length_append, consistent.length, List.length_singleton]
  · rw [sameId, sameOrders, consistent.next]
  · rw [sameOrders]
    exact consistent.numbered
  · rw [sameOrders]
    exact consistent.issued
  · rw [events]
    exact namesResting_concat consistent.named fun _ => rests

theorem cancelRound (consistent : Consistent config rounds state)
    (resting : state.restingIds ≠ []) :
    Consistent config (rounds + 1) (state.cancelRound float draws) := by
  have inside : state.restingIndex float draws < state.restingIds.length :=
    restingIndex_lt resting
  have rests := consistent.named_rests float draws resting
  have same := removeResting_perm inside
  obtain ⟨removed, distinct⟩ :=
    List.nodup_cons.mp (same.nodup_iff.mpr consistent.distinct)
  refine consistent.concat rfl rfl (by simp) rests ?_ distinct ?_
  · change (cancelledIds (state.events ++ [_])).Nodup
    rw [cancelledIds_concat rfl, ← List.concat_eq_append]
    exact consistent.cancelled.concat rests.2
  · intro id
    change id ∈ removeResting _ _ ↔ RestsAfter (state.events ++ [_]) id
    rw [restsAfter_cancel rfl, ← consistent.resting, ← same.mem_iff,
      List.mem_cons]
    constructor
    · intro stays
      refine ⟨.inr stays, ?_⟩
      rintro rfl
      exact removed stays
    · rintro ⟨named | stays, differs⟩
      · exact absurd named differs
      · exact stays

theorem replaceRound (consistent : Consistent config rounds state)
    (resting : state.restingIds ≠ []) :
    Consistent config (rounds + 1)
      (state.replaceRound float config draws) := by
  have rests := consistent.named_rests float draws resting
  refine consistent.concat rfl rfl (by simp) rests ?_ consistent.distinct ?_
  · change (cancelledIds (state.events ++ [_])).Nodup
    rw [cancelledIds_concat_of_ne (by simp)]
    exact consistent.cancelled
  · intro id
    change id ∈ state.restingIds ↔ RestsAfter (state.events ++ [_]) id
    rw [restsAfter_replace rfl, consistent.resting]

theorem newOrderRound (checked : config.Checked float)
    (consistent : Consistent config rounds state)
    (few : rounds + 1 < 2 ^ 64) :
    Consistent config (rounds + 1)
      (state.newOrderRound float config draws) := by
  have count := length_newOrders_le state.events
  rw [consistent.length] at count
  have unused := fresh_of_numbered consistent.numbered (by omega)
  rw [← consistent.next] at unused
  have neverCancelled : state.nextOrderId ∉ cancelledIds state.events := by
    intro cancelled
    obtain ⟨order, issued, same⟩ :=
      mem_cancelledIds consistent.named cancelled
    exact unused order issued same
  have notResting : state.nextOrderId ∉ state.restingIds := by
    rw [consistent.resting]
    rintro ⟨⟨order, issued, _, same⟩, _⟩
    exact unused order issued same
  obtain ⟨event, events, isNew, number, issues, resting⟩ :=
    newOrderRound_issues checked draws state
  let next := state.newOrderRound float config draws
  have orders : newOrders next.events =
      newOrders state.events ++ [event.order] := by
    rw [events, newOrders_concat isNew]
  have cancelled : cancelledIds next.events = cancelledIds state.events := by
    rw [events, cancelledIds_concat_of_ne (by rw [isNew]; decide)]
  refine ⟨?_, ?_, ?_, ?_, ?_, ?_, ?_, ?_⟩
  · change next.events.length = _
    rw [events, List.length_append, consistent.length, List.length_singleton]
  · change state.nextOrderId + 1 =
      UInt64.ofNat ((newOrders next.events).length + 1)
    rw [orders, List.length_append, List.length_singleton, consistent.next]
    exact (UInt64.ofNat_add ((newOrders state.events).length + 1) 1).symm
  · change Numbered (newOrders next.events)
    rw [orders]
    exact numbered_concat.mpr
      ⟨consistent.numbered, number.trans consistent.next⟩
  · change ∀ order ∈ newOrders next.events, _
    rw [orders]
    intro order member
    rcases List.mem_append.mp member with before | isLast
    · exact consistent.issued order before
    · rw [List.mem_singleton.mp isLast]
      exact issues
  · change NamesResting next.events
    rw [events]
    exact namesResting_concat consistent.named fun notNew => absurd isNew notNew
  · change (cancelledIds next.events).Nodup
    rw [cancelled]
    exact consistent.cancelled
  · change next.restingIds.Nodup
    rw [resting]
    split
    · rw [← List.concat_eq_append]
      exact consistent.distinct.concat notResting
    · exact consistent.distinct
  · intro id
    change id ∈ next.restingIds ↔ RestsAfter next.events id
    rw [events, restsAfter_newOrder isNew (number ▸ neverCancelled), number,
      ← consistent.resting, resting]
    split
    · rename_i gtc
      rw [List.mem_append, List.mem_singleton, eq_comm (a := id)]
      simp [gtc]
    · rename_i notGtc
      simp [notGtc]

theorem round (checked : config.Checked float)
    (consistent : Consistent config rounds state)
    (few : rounds + 1 < 2 ^ 64) :
    Consistent config (rounds + 1) (state.round float config draws) := by
  have arrived := consistent.arrived float draws
  have sameIds : (state.arrived float draws).restingIds =
      state.restingIds := by
    obtain ⟨drawn, arrivedEq⟩ := arrived_eq float draws state
    rw [arrivedEq]
    rfl
  rcases round_cases draws checked state with
    ⟨resting, next⟩ | ⟨resting, next⟩ | next
  · rw [next]
    exact arrived.cancelRound (sameIds ▸ resting)
  · rw [next]
    exact arrived.replaceRound (sameIds ▸ resting)
  · rw [next]
    exact arrived.newOrderRound checked few

end Consistent

theorem consistent_afterRounds (checked : config.Checked float)
    (draws : RandomDraws float.Double) {rounds : Nat}
    (few : rounds < 2 ^ 64) :
    Consistent config rounds (afterRounds float config draws rounds) := by
  induction rounds with
  | zero => exact consistent_start
  | succ rounds induction =>
      exact (induction (by omega)).round checked few

/-- The sum of the steps so far. -/
def elapsed (state : GeneratorState) : Nat :=
  (state.steps.map UInt64.toNat).sum

/-- While the clock has not wrapped around, the events are in its order. -/
structure Timed (state : GeneratorState) : Prop where
  clock : state.arrivalOffsetNs.toNat = state.elapsed
  ordered : (state.events.map (·.arrivalOffsetNs)).Pairwise (· ≤ ·)
  past : ∀ event ∈ state.events, event.arrivalOffsetNs ≤ state.arrivalOffsetNs

theorem round_clock (checked : config.Checked float)
    (draws : RandomDraws float.Double) (state : GeneratorState) :
    ∃ step event, (state.round float config draws).steps =
        state.steps ++ [step] ∧
      (state.round float config draws).arrivalOffsetNs =
        state.arrivalOffsetNs + step ∧
      (state.round float config draws).events = state.events ++ [event] ∧
      event.arrivalOffsetNs = state.arrivalOffsetNs + step := by
  obtain ⟨drawn, arrivedEq⟩ := arrived_eq float draws state
  rcases round_cases draws checked state with
    ⟨_, next⟩ | ⟨_, next⟩ | next
  all_goals
    rw [next, arrivedEq]
    exact ⟨_, _, rfl, rfl, rfl, rfl⟩

theorem elapsed_round {step : UInt64} {next : GeneratorState}
    (steps : next.steps = state.steps ++ [step]) :
    next.elapsed = state.elapsed + step.toNat := by
  rw [elapsed, steps, List.map_append, List.sum_append, elapsed]
  simp

theorem timed_afterRounds (checked : config.Checked float)
    (draws : RandomDraws float.Double) (rounds : Nat)
    (fits : (afterRounds float config draws rounds).elapsed < 2 ^ 64) :
    (afterRounds float config draws rounds).Timed := by
  induction rounds with
  | zero => exact ⟨rfl, .nil, by simp [afterRounds, start]⟩
  | succ rounds induction =>
      rw [afterRounds] at fits ⊢
      obtain ⟨step, event, steps, clock, events, stamp⟩ :=
        round_clock checked draws (afterRounds float config draws rounds)
      rw [elapsed_round steps] at fits
      obtain ⟨before, ordered, past⟩ := induction (by omega)
      have sum : ((afterRounds float config draws rounds).arrivalOffsetNs +
          step).toNat = (afterRounds float config draws rounds).elapsed +
            step.toNat := by
        rw [UInt64.toNat_add, before]
        exact Nat.mod_eq_of_lt fits
      have later : (afterRounds float config draws rounds).arrivalOffsetNs ≤
          (afterRounds float config draws rounds).arrivalOffsetNs + step := by
        rw [UInt64.le_iff_toNat_le, sum, before]
        omega
      refine ⟨?_, ?_, ?_⟩
      · rw [clock, elapsed_round steps, sum]
      · rw [events, List.map_append, List.pairwise_append]
        refine ⟨ordered, List.pairwise_singleton _ _, ?_⟩
        intro earlier member last isLast
        obtain ⟨other, inside, rfl⟩ := List.mem_map.mp member
        obtain rfl : last = event.arrivalOffsetNs := by simpa using isLast
        rw [stamp]
        exact UInt64.le_trans (past other inside) later
      · rw [events, clock]
        intro other member
        rcases List.mem_append.mp member with inside | isLast
        · exact UInt64.le_trans (past other inside) later
        · rw [List.mem_singleton.mp isLast, stamp]
          exact UInt64.le_refl _

theorem events_afterRounds (checked : config.Checked float)
    (draws : RandomDraws float.Double) (rounds more : Nat) :
    ∃ later, (afterRounds float config draws (rounds + more)).events =
      (afterRounds float config draws rounds).events ++ later := by
  induction more with
  | zero => exact ⟨[], (List.append_nil _).symm⟩
  | succ more induction =>
      obtain ⟨later, split⟩ := induction
      obtain ⟨_, event, _, _, events, _⟩ := round_clock checked draws
        (afterRounds float config draws (rounds + more))
      refine ⟨later ++ [event], ?_⟩
      rw [Nat.add_succ, afterRounds, events, split, List.append_assoc]

end GeneratorState

section Generate

open GeneratorState

variable {float : FloatingPoint} {config : DatasetConfig}

theorem generated_consistent (checked : config.Checked float)
    (draws : RandomDraws float.Double) :
    Consistent config config.orderCount.toNat
      (generated float config draws) :=
  consistent_afterRounds checked draws config.orderCount.toNat_lt

/-- In every round the resting ids are those that rest according to the events
so far. -/
theorem restingIds_exact (checked : config.Checked float)
    (draws : RandomDraws float.Double) {rounds : Nat}
    (inside : rounds ≤ config.orderCount.toNat) :
    (afterRounds float config draws rounds).restingIds.Nodup ∧
      ∀ id, id ∈ (afterRounds float config draws rounds).restingIds ↔
        RestsAfter ((generated float config draws).events.take rounds) id := by
  have small := config.orderCount.toNat_lt
  have consistent : Consistent config rounds _ :=
    consistent_afterRounds checked draws (by omega)
  obtain ⟨later, split⟩ := events_afterRounds checked draws rounds
    (config.orderCount.toNat - rounds)
  rw [Nat.add_sub_cancel' inside] at split
  have soFar : (generated float config draws).events.take rounds =
      (afterRounds float config draws rounds).events := by
    rw [generated, split, List.take_left' consistent.length]
  refine ⟨consistent.distinct, fun id => ?_⟩
  rw [soFar]
  exact consistent.resting id

end Generate

end Hydra
