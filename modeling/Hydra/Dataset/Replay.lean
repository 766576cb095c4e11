import Hydra.Book.Operations
import Hydra.Dataset.Generated
import Hydra.Market.Trading

/-!
# Replaying generated datasets

A replay adds the orders that are to stay in the book and cancels what the
events cancel, on an order book with pools of any size.  As long as the book
takes every order that is added, the orders that rest in it are those that rest
according to the events, so that no cancel and no replace meets an unknown id.
-/

namespace Hydra

namespace Market

variable {market : Market} {id : UInt64}

theorem find?_insert_iff (valid : market.Valid) {order : Order}
    (absent : market.find? order.orderId = none) :
    (market.insert order).find? id ≠ none ↔
      market.find? id ≠ none ∨ order.orderId = id := by
  rw [Ne, Ne, (valid.insert absent).find?_eq_none_iff, valid.find?_eq_none_iff]
  simp only [rests_insert]
  constructor
  · intro held
    by_contra neither
    rw [not_or, not_not] at neither
    refine held fun other rests => ?_
    rcases rests with before | rfl
    · exact neither.1 other before
    · exact neither.2
  · rintro (held | same) none_rests
    · exact held fun other rests => none_rests other (.inl rests)
    · exact none_rests order (.inr rfl) same

theorem find?_cancel_iff (valid : market.Valid) (cancelled : UInt64) :
    (market.cancel cancelled).find? id ≠ none ↔
      market.find? id ≠ none ∧ id ≠ cancelled := by
  have stays : ∀ order, (market.cancel cancelled).Rests order ↔
      market.Rests order ∧ order.orderId ≠ cancelled := by
    intro order
    refine (rests_revise (keepsPlace_alter keepsPlace_cancel)).trans ?_
    constructor
    · rintro ⟨old, rests, kept⟩
      split at kept
      · cases kept
      · rename_i other
        obtain rfl := Option.some.inj kept
        exact ⟨rests, other⟩
    · rintro ⟨rests, other⟩
      exact ⟨order, rests, if_neg other⟩
  rw [Ne, Ne, (valid.cancel cancelled).find?_eq_none_iff,
    valid.find?_eq_none_iff]
  simp only [stays]
  constructor
  · intro held
    constructor
    · exact fun none_rests => held fun order rests => none_rests order rests.1
    · rintro rfl
      exact held fun order rests => rests.2
  · rintro ⟨held, other⟩ none_rests
    refine held fun order rests same => ?_
    subst same
    exact none_rests order ⟨rests, other⟩ rfl

end Market

/-- The books that a replay of events can end with, every added order being
taken. -/
inductive Replayed (sizes : PoolSizes) :
    List DatasetEvent → OrderBook sizes → Prop where
  | start : Replayed sizes [] .empty
  | add {events : List DatasetEvent} {event : DatasetEvent}
      {book next : OrderBook sizes} {slot : OrderSlot sizes} :
      Replayed sizes events book → event.type = .newOrder →
      event.order.tif = .gtc →
      book.addOrder event.order = .ok (some slot, next) →
      Replayed sizes (events ++ [event]) next
  | pass {events : List DatasetEvent} {event : DatasetEvent}
      {book : OrderBook sizes} :
      Replayed sizes events book → event.type = .newOrder →
      event.order.tif ≠ .gtc → Replayed sizes (events ++ [event]) book
  | cancel {events : List DatasetEvent} {event : DatasetEvent}
      {book next : OrderBook sizes} {found : Bool} :
      Replayed sizes events book → event.type = .cancel →
      book.cancelOrder event.cancelOrderId = .ok (found, next) →
      Replayed sizes (events ++ [event]) next
  | replace {events : List DatasetEvent} {event : DatasetEvent}
      {book : OrderBook sizes} :
      Replayed sizes events book → event.type = .replace →
      Replayed sizes (events ++ [event]) book

/-- What makes a dataset replayable. -/
structure SelfConsistent (events : List DatasetEvent) : Prop where
  named : NamesResting events
  numbered : Numbered (newOrders events)
  few : events.length < 2 ^ 64

section Replay

variable {sizes : PoolSizes} {events front back : List DatasetEvent}
variable {event : DatasetEvent} {book : OrderBook sizes}

theorem SelfConsistent.of_append (consistent : SelfConsistent (front ++ back)) :
    SelfConsistent front where
  named before event after split notNew := by
    refine consistent.named before event (after ++ back) ?_ notNew
    rw [split, List.append_assoc, List.cons_append]
  numbered := by
    have whole := consistent.numbered
    rw [newOrders_append] at whole
    exact whole.of_append
  few := by
    have whole := consistent.few
    rw [List.length_append] at whole
    omega

theorem SelfConsistent.not_cancelled
    (consistent : SelfConsistent (events ++ [event]))
    (isNew : event.type = .newOrder) :
    event.order.orderId ∉ cancelledIds events := by
  intro cancelled
  have before := consistent.of_append
  obtain ⟨order, issued, same⟩ := mem_cancelledIds before.named cancelled
  have count := length_newOrders_le events
  have few := consistent.few
  rw [List.length_append, List.length_singleton] at few
  have whole := consistent.numbered
  rw [newOrders_concat isNew] at whole
  exact fresh_of_numbered before.numbered (by omega) order issued
    (same.trans (numbered_concat.mp whole).2)

/-- The book holds the orders that rest according to the events. -/
theorem Replayed.holds (replayed : Replayed sizes events book)
    (consistent : SelfConsistent events) :
    book.WellFormed ∧
      ∀ id, book.view.find? id ≠ none ↔ RestsAfter events id := by
  induction replayed with
  | start =>
      refine ⟨⟨_, OrderBook.empty_settled⟩, fun id => ?_⟩
      have absent : Market.empty.find? id = none :=
        Market.empty_valid.find?_eq_none_iff.mpr fun order rests => by
          simp [Market.Rests, Market.orders, Market.empty] at rests
      rw [OrderBook.view_empty]
      simp [absent, RestsAfter, newOrders]
  | @add events event book next slot _ isNew gtc added induction =>
      obtain ⟨⟨layout, settled⟩, holds⟩ := induction consistent.of_append
      obtain ⟨result, after, run, accepts, wellFormed, viewEq⟩ :=
        OrderBook.addOrder_spec settled event.order
      rw [added, Except.ok.injEq, Prod.mk.injEq] at run
      obtain ⟨rfl, rfl⟩ := run
      have accepted : book.view.Accepts sizes event.order :=
        of_decide_eq_true accepts.symm
      refine ⟨wellFormed, fun id => ?_⟩
      rw [viewEq, Market.add, if_pos accepted,
        Market.find?_insert_iff settled.view_valid accepted.1, holds,
        restsAfter_newOrder isNew (consistent.not_cancelled isNew)]
      simp [gtc]
  | @pass events event book _ isNew notGtc induction =>
      obtain ⟨wellFormed, holds⟩ := induction consistent.of_append
      refine ⟨wellFormed, fun id => ?_⟩
      rw [holds, restsAfter_newOrder isNew (consistent.not_cancelled isNew)]
      simp [notGtc]
  | @cancel events event book next found _ isCancel ran induction =>
      obtain ⟨⟨layout, settled⟩, holds⟩ := induction consistent.of_append
      obtain ⟨after, run, wellFormed, viewEq⟩ :=
        OrderBook.cancelOrder_spec settled event.cancelOrderId
      rw [ran, Except.ok.injEq, Prod.mk.injEq] at run
      obtain ⟨rfl, rfl⟩ := run
      refine ⟨wellFormed, fun id => ?_⟩
      rw [viewEq, Market.find?_cancel_iff settled.view_valid, holds,
        restsAfter_cancel isCancel]
  | @replace events event book _ isReplace induction =>
      obtain ⟨wellFormed, holds⟩ := induction consistent.of_append
      refine ⟨wellFormed, fun id => ?_⟩
      rw [holds, restsAfter_replace isReplace]

/-- No cancel and no replace meets an unknown id. -/
theorem Replayed.finds (replayed : Replayed sizes front book)
    (consistent : SelfConsistent (front ++ event :: back))
    (notNew : event.type ≠ .newOrder) :
    book.findOrder event.cancelOrderId ≠ none ∧
      ∃ next, book.cancelOrder event.cancelOrderId = .ok (true, next) := by
  have rests := consistent.named front event back rfl notNew
  obtain ⟨⟨layout, settled⟩, holds⟩ := replayed.holds consistent.of_append
  have found := (holds event.cancelOrderId).mpr rests
  obtain ⟨next, cancelled, _⟩ :=
    OrderBook.cancelOrder_spec settled event.cancelOrderId
  have isSome : (book.view.find? event.cancelOrderId).isSome = true :=
    Option.isSome_iff_ne_none.mpr found
  rw [isSome] at cancelled
  refine ⟨fun absent => found ?_, next, cancelled⟩
  rw [settled.find?_view, absent, Option.map_none]

end Replay

section Generate

variable {float : FloatingPoint} {config : DatasetConfig}

theorem generate_selfConsistent (checked : config.Checked float)
    {draws : RandomDraws float.Double} {events : List DatasetEvent}
    (returned : (generate float config draws).result = .ok events) :
    SelfConsistent events := by
  obtain ⟨_, rfl⟩ := generate_throws.of_ok returned
  have consistent := generated_consistent checked draws
  refine ⟨consistent.named, consistent.numbered, ?_⟩
  rw [consistent.length]
  exact config.orderCount.toNat_lt

/-- The generator returns if the events have room in a vector, and whatever is
drawn then, the dataset of an accepted configuration is consistent. -/
theorem generate_consistent (accepted : config.Accepted float)
    (draws : RandomDraws float.Double) :
    ((∃ events, (generate float config draws).result = .ok events) ↔
      config.orderCount.toNat ≤ DatasetEvent.maxSize) ∧
    ∀ events, (generate float config draws).result = .ok events →
      events.length = config.orderCount.toNat ∧
      Numbered (newOrders events) ∧
      (∀ order ∈ newOrders events, config.Issues order) ∧
      NamesResting events ∧
      (cancelledIds events).Nodup ∧
      (∀ rounds ≤ config.orderCount.toNat,
        (GeneratorState.afterRounds float config draws
          rounds).restingIds.Nodup ∧
        ∀ id,
          id ∈ (GeneratorState.afterRounds float config draws
            rounds).restingIds ↔
          RestsAfter (events.take rounds) id) ∧
      ((generated float config draws).elapsed < 2 ^ 64 →
        (events.map (·.arrivalOffsetNs)).Pairwise (· ≤ ·)) ∧
      ∀ sizes front event back (book : OrderBook sizes),
        events = front ++ event :: back →
        Replayed sizes front book → event.type ≠ .newOrder →
        book.findOrder event.cancelOrderId ≠ none ∧
          ∃ next, book.cancelOrder event.cancelOrderId = .ok (true, next) := by
  have checked := accepted.checked
  have consistent := generated_consistent checked draws
  constructor
  · constructor
    · intro ⟨events, returned⟩
      exact (generate_throws.of_ok returned).1
    · intro fits
      exact ⟨_, generate_throws.accepts fits⟩
  · intro events returned
    have whole := generate_selfConsistent checked returned
    obtain ⟨_, rfl⟩ := generate_throws.of_ok returned
    refine ⟨consistent.length, consistent.numbered, consistent.issued,
      consistent.named, consistent.cancelled, ?_, ?_, ?_⟩
    · intro rounds inside
      exact restingIds_exact checked draws inside
    · intro fits
      exact (GeneratorState.timed_afterRounds checked draws _ fits).ordered
    · intro sizes front event back book split replayed notNew
      rw [split] at whole
      exact replayed.finds whole notNew

/-- Three events; a cancel for every draw below a quarter, and a replace up to
three quarters. -/
def mixedConfig : DatasetConfig :=
  { steadyConfig with
    orderCount := 3
    cancelRatio := 0x3FD0000000000000
    replaceRatio := 0x3FE0000000000000 }

theorem mixedConfig_accepted : mixedConfig.Accepted finiteDoubles :=
  (constructGenerator_throws finiteDoubles mixedConfig).accepts
    (by decide +kernel)

/-- The second event is drawn as a replace, the third one as a cancel. -/
def mixedDraws : RandomDraws finiteDoubles.Double :=
  { RandomDraws.lowest finiteDoubles.zero with
    unit := fun drawn =>
      if drawn < 10 then finiteDoubles.half else finiteDoubles.zero }

theorem generate_consistent_mixed : ∃ events,
    (generate finiteDoubles mixedConfig mixedDraws).result = .ok events ∧
      events.map (fun event => (event.type, event.cancelOrderId)) =
        [(.newOrder, 0), (.replace, 1), (.cancel, 1)] ∧
      NamesResting events ∧ (cancelledIds events).Nodup := by
  obtain ⟨returns, consistent⟩ :=
    generate_consistent mixedConfig_accepted mixedDraws
  obtain ⟨events, returned⟩ := returns.mpr (by decide)
  have same := (generate_throws.of_ok returned).2
  obtain ⟨_, _, _, named, distinct, _⟩ := consistent events returned
  refine ⟨events, returned, ?_, named, distinct⟩
  rw [same]
  decide +kernel

/-- More events than a vector can hold. -/
def longConfig : DatasetConfig :=
  { steadyConfig with orderCount := 36028797018963968 }

/-- The configuration is accepted, and its spread is not negative; but the
generator returns no events, whatever is drawn. -/
theorem longConfig_throws :
    longConfig.Accepted finiteDoubles ∧ 0 ≤ longConfig.priceSpreadTicks ∧
      ∀ draws, ¬ ∃ events,
        (generate finiteDoubles longConfig draws).result = .ok events ∧
          events.length = longConfig.orderCount.toNat := by
  refine ⟨(constructGenerator_throws finiteDoubles longConfig).accepts
    (by decide +kernel), by decide, ?_⟩
  intro draws ⟨events, returned, _⟩
  obtain ⟨fits, _⟩ := generate_throws.of_ok returned
  exact absurd fits (by decide)

end Generate

end Hydra
