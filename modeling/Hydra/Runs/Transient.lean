import Hydra.Book.Exact
import Hydra.Book.Picture
import Hydra.Market.Commuting
import Hydra.Runs.Calls

/-!
# Orders that come and go

Calls on the book answer, and the answers are those of the market.  A run of
calls with an order that is added before and cancelled afterwards shadows the
run without the order: the same answers, and markets that differ by that order
only, as long as no pool runs out of slots.
-/

namespace Hydra

variable {sizes : PoolSizes}

/-- A call directly on the book. -/
inductive BookCall where
  | addOrder (incoming : Order)
  | cancelOrder (orderId : UInt64)
  | replaceOrderInPlace (orderId : UInt64) (newQty : UInt32)

/-- The id that a call is about. -/
def BookCall.orderId : BookCall → UInt64
  | addOrder incoming => incoming.orderId
  | cancelOrder orderId => orderId
  | replaceOrderInPlace orderId _ => orderId

/-- What a call returns: the order behind the returned pointer, or a flag. -/
inductive BookReply where
  | added (order : Option Order)
  | found (found : Bool)

namespace OrderBook

/-- The reply to a call, and the book after it. -/
def answer (book : OrderBook sizes) :
    BookCall → Except Fault (BookReply × OrderBook sizes)
  | .addOrder incoming => do
      let (added, book) ← book.addOrder incoming
      return (.added (added.map book.payload), book)
  | .cancelOrder orderId => do
      let (found, book) ← book.cancelOrder orderId
      return (.found found, book)
  | .replaceOrderInPlace orderId newQty => do
      let (found, book) ← book.replaceOrderInPlace orderId newQty
      return (.found found, book)

/-- The replies to a sequence of calls, and the book after all of them. -/
def answers (book : OrderBook sizes) :
    List BookCall → Except Fault (List BookReply × OrderBook sizes)
  | [] => .ok ([], book)
  | call :: rest => do
      let (reply, book) ← book.answer call
      let (replies, book) ← book.answers rest
      return (reply :: replies, book)

/-- No pool is exhausted by the call, and a replacement does not grow. -/
def Smooth (book : OrderBook sizes) : BookCall → Prop
  | .addOrder incoming =>
      book.findOrder incoming.orderId = none → ¬ book.Refuses incoming
  | .cancelOrder _ => True
  | .replaceOrderInPlace orderId newQty =>
      ∀ slot, book.findOrder orderId = some slot →
        newQty ≤ (book.payload slot).qty

/-- Every call of the sequence is smooth when its turn comes. -/
def RunsSmoothly (book : OrderBook sizes) : List BookCall → Prop
  | [] => True
  | call :: rest => book.Smooth call ∧
      ∀ reply next, book.answer call = .ok (reply, next) →
        next.RunsSmoothly rest

end OrderBook

namespace Market

/-- The market after a call. -/
def answered (sizes : PoolSizes) (market : Market) : BookCall → Market
  | .addOrder incoming => market.add sizes incoming
  | .cancelOrder orderId => market.cancel orderId
  | .replaceOrderInPlace orderId newQty => market.setQty orderId newQty

def reply (sizes : PoolSizes) (market : Market) : BookCall → BookReply
  | .addOrder incoming =>
      .added (if market.Accepts sizes incoming then some incoming else none)
  | .cancelOrder orderId => .found (market.find? orderId).isSome
  | .replaceOrderInPlace orderId _ => .found (market.find? orderId).isSome

/-- A new order finds room unless its id rests; a replacement shrinks. -/
def Smooth (sizes : PoolSizes) (market : Market) : BookCall → Prop
  | .addOrder incoming =>
      market.find? incoming.orderId = none → market.HasRoom sizes incoming
  | .cancelOrder _ => True
  | .replaceOrderInPlace orderId newQty =>
      ∀ order, market.find? orderId = some order → newQty ≤ order.qty

end Market

namespace OrderBook

variable {book : OrderBook sizes} {layout : Layout sizes}

theorem Settled.smooth (settled : book.Settled layout) {call : BookCall}
    (smooth : book.Smooth call) : book.view.Smooth sizes call := by
  cases call with
  | addOrder incoming =>
      intro absent
      have unindexed := settled.index_eq_none.mpr absent
      have accepted := smooth ((book.findOrder_eq_none _).mpr unindexed)
      rw [refuses_iff settled, not_not] at accepted
      exact accepted.2
  | cancelOrder orderId => trivial
  | replaceOrderInPlace orderId newQty =>
      intro order found
      rw [settled.find?_view] at found
      obtain ⟨slot, present, rfl⟩ := Option.map_eq_some_iff.mp found
      exact smooth slot present

theorem answer_spec (settled : book.Settled layout) {call : BookCall}
    (smooth : book.view.Smooth sizes call) :
    ∃ next, book.answer call = .ok (book.view.reply sizes call, next) ∧
      next.WellFormed ∧ next.view = book.view.answered sizes call := by
  cases call with
  | addOrder incoming =>
      by_cases accepted : book.view.Accepts sizes incoming
      · obtain ⟨slot, level, next, nextLayout, run, joined⟩ :=
          addOrder_joined settled accepted
        have payloadSlot : next.payload slot = incoming := by
          rw [joined.payload, Function.update_self]
        refine ⟨next, ?_, ⟨nextLayout, joined.settled⟩, ?_⟩
        · rw [answer, run, Market.reply, if_pos accepted, ← payloadSlot]
          rfl
        · rw [joined.view_eq settled, Market.answered, Market.add,
            if_pos accepted]
      · have refuses := (refuses_iff settled incoming).mpr accepted
        refine ⟨book.countRefusal incoming, ?_,
          ⟨layout, settled.countRefusal incoming⟩, ?_⟩
        · rw [answer, addOrder_refused settled refuses, Market.reply,
            if_neg accepted]
          rfl
        · rw [countRefusal_view, Market.answered, Market.add, if_neg accepted]
  | cancelOrder orderId =>
      obtain ⟨next, run, wellFormed, viewEq⟩ := cancelOrder_spec settled orderId
      refine ⟨next, ?_, wellFormed, viewEq⟩
      rw [answer, run]
      rfl
  | replaceOrderInPlace orderId newQty =>
      have shrinks : ∀ order, book.view.find? orderId = some order →
          newQty.toNat ≤ order.qty.toNat := by
        intro order found
        exact UInt32.le_iff_toNat_le.mp (smooth order found)
      obtain ⟨next, run, wellFormed, viewEq⟩ :=
        replaceOrderInPlace_spec settled orderId shrinks
      refine ⟨next, ?_, wellFormed, viewEq⟩
      rw [answer, run]
      rfl

end OrderBook

namespace Market

variable {market : Market} {order : Order} {call : BookCall}

theorem answered_cancel (valid : market.Valid)
    (fits : market.levelCount ≤ sizes.levels)
    (differs : call.orderId ≠ order.orderId)
    (smooth : market.Smooth sizes call) :
    (market.cancel order.orderId).Smooth sizes call ∧
      (market.cancel order.orderId).reply sizes call =
        market.reply sizes call ∧
      (market.cancel order.orderId).answered sizes call =
        (market.answered sizes call).cancel order.orderId := by
  have sameFind : (market.cancel order.orderId).find? call.orderId =
      market.find? call.orderId :=
    valid.find?_alter_of_ne keepsPlace_cancel differs
  cases call with
  | addOrder incoming =>
      change (market.cancel order.orderId).find? incoming.orderId =
        market.find? incoming.orderId at sameFind
      have roomKept : market.HasRoom sizes incoming →
          (market.cancel order.orderId).HasRoom sizes incoming := by
        intro room
        exact room.revise fits _
      refine ⟨?_, ?_, ?_⟩
      · intro absent
        rw [sameFind] at absent
        exact roomKept (smooth absent)
      · by_cases absent : market.find? incoming.orderId = none
        · simp [reply, Accepts, sameFind, absent, smooth absent,
            roomKept (smooth absent)]
        · simp [reply, Accepts, sameFind, absent]
      · by_cases absent : market.find? incoming.orderId = none
        · have inserted := valid.alter_insert keepsPlace_cancel absent differs
          simp only [answered, add, Accepts, sameFind, absent, smooth absent,
            roomKept (smooth absent), and_self, if_true]
          exact inserted.symm
        · simp [answered, add, Accepts, sameFind, absent]
  | cancelOrder orderId =>
      refine ⟨trivial, ?_, ?_⟩
      · exact congrArg (fun found => BookReply.found found.isSome) sameFind
      · exact alter_comm keepsPlace_cancel keepsPlace_cancel differs
  | replaceOrderInPlace orderId newQty =>
      refine ⟨?_, ?_, ?_⟩
      · intro found stored
        exact smooth found (sameFind.symm.trans stored)
      · exact congrArg (fun found => BookReply.found found.isSome) sameFind
      · exact alter_comm keepsPlace_cancel (keepsPlace_setQty newQty) differs

theorem find?_answered (valid : market.Valid)
    (differs : call.orderId ≠ order.orderId) :
    (market.answered sizes call).find? order.orderId =
      market.find? order.orderId := by
  cases call with
  | addOrder incoming =>
      rw [answered, add]
      split
      next accepted =>
        apply Option.ext
        intro found
        rw [(valid.insert accepted.1).find?_eq_some_iff,
          valid.find?_eq_some_iff, rests_insert]
        constructor
        · intro rests
          obtain ⟨old | rfl, same⟩ := rests
          · exact ⟨old, same⟩
          · exact absurd same differs
        · intro rests
          exact ⟨.inl rests.1, rests.2⟩
      next => rfl
  | cancelOrder orderId =>
      exact valid.find?_alter_of_ne keepsPlace_cancel (Ne.symm differs)
  | replaceOrderInPlace orderId newQty =>
      exact valid.find?_alter_of_ne (keepsPlace_setQty newQty)
        (Ne.symm differs)

end Market

namespace OrderBook

/-- The second book is the first one without the order. -/
structure Shadows (order : Order) (book alone : OrderBook sizes) : Prop where
  wellFormed : book.WellFormed
  aloneWellFormed : alone.WellFormed
  present : book.view.find? order.orderId = some order
  view : alone.view = book.view.cancel order.orderId

variable {order : Order} {book alone : OrderBook sizes}

/-- One call has the same reply with and without the order. -/
theorem Shadows.answer (shadows : Shadows order book alone)
    {call : BookCall} (differs : call.orderId ≠ order.orderId)
    (smooth : book.Smooth call) :
    ∃ reply next nextAlone, book.answer call = .ok (reply, next) ∧
      alone.answer call = .ok (reply, nextAlone) ∧
      Shadows order next nextAlone := by
  obtain ⟨layout, settled⟩ := shadows.wellFormed
  obtain ⟨aloneLayout, aloneSettled⟩ := shadows.aloneWellFormed
  have fits : book.view.levelCount ≤ sizes.levels := by
    have count := settled.levelCount_eq
    omega
  have viewSmooth := settled.smooth smooth
  obtain ⟨aloneSmooth, sameReply, sameView⟩ := Market.answered_cancel
    settled.view_valid fits differs viewSmooth
  rw [← shadows.view] at aloneSmooth sameReply sameView
  obtain ⟨next, run, wellFormed, viewEq⟩ := answer_spec settled viewSmooth
  obtain ⟨nextAlone, aloneRun, aloneWellFormed, aloneViewEq⟩ :=
    answer_spec aloneSettled aloneSmooth
  rw [sameReply] at aloneRun
  refine ⟨_, next, nextAlone, run, aloneRun, wellFormed, aloneWellFormed, ?_,
    ?_⟩
  · rw [viewEq, Market.find?_answered settled.view_valid differs,
      shadows.present]
  · rw [aloneViewEq, sameView, viewEq]

theorem Shadows.answers {calls : List BookCall}
    (shadows : Shadows order book alone)
    (differ : ∀ call ∈ calls, call.orderId ≠ order.orderId)
    (smooth : book.RunsSmoothly calls) :
    ∃ replies last lastAlone, book.answers calls = .ok (replies, last) ∧
      alone.answers calls = .ok (replies, lastAlone) ∧
      Shadows order last lastAlone := by
  induction calls generalizing book alone with
  | nil => exact ⟨[], book, alone, rfl, rfl, shadows⟩
  | cons call rest induction =>
      obtain ⟨callSmooth, restSmooth⟩ := smooth
      obtain ⟨reply, next, nextAlone, run, aloneRun, nextShadows⟩ :=
        shadows.answer (differ call List.mem_cons_self) callSmooth
      obtain ⟨replies, last, lastAlone, runs, aloneRuns, lastShadows⟩ :=
        induction nextShadows
          (fun other member => differ other (List.mem_cons_of_mem _ member))
          (restSmooth reply next run)
      refine ⟨reply :: replies, last, lastAlone, ?_, ?_, lastShadows⟩
      · rw [OrderBook.answers, run, ok_bind]
        simp only [runs]
        rfl
      · rw [OrderBook.answers, aloneRun, ok_bind]
        simp only [aloneRuns]
        rfl

theorem Shadows.cancelOrder (shadows : Shadows order book alone) :
    ∃ restored, book.cancelOrder order.orderId = .ok (true, restored) ∧
      restored.picture = alone.picture := by
  obtain ⟨layout, settled⟩ := shadows.wellFormed
  obtain ⟨aloneLayout, aloneSettled⟩ := shadows.aloneWellFormed
  obtain ⟨restored, run, ⟨restoredLayout, restoredSettled⟩, viewEq⟩ :=
    cancelOrder_spec settled order.orderId
  rw [shadows.present] at run
  refine ⟨restored, run, ?_⟩
  rw [restoredSettled.picture_eq, aloneSettled.picture_eq, viewEq,
    shadows.view]

end OrderBook

namespace Matcher

variable {matcher : Matcher sizes}

/-- An order that is added before a sequence of calls on other ids and
cancelled after it changes neither a reply nor the logical book that is left;
without calls in between the book is restored exactly. -/
theorem transient_order (reachable : (calls sizes).Reachable matcher)
    {order : Order} {calls : List BookCall}
    (fresh : matcher.book.findOrder order.orderId = none)
    (differ : ∀ call ∈ calls, call.orderId ≠ order.orderId)
    (smooth : matcher.book.RunsSmoothly (.addOrder order :: calls)) :
    ∃ slot added replies used restored alone,
      matcher.book.addOrder order = .ok (some slot, added) ∧
      added.answers calls = .ok (replies, used) ∧
      used.cancelOrder order.orderId = .ok (true, restored) ∧
      matcher.book.answers calls = .ok (replies, alone) ∧
      restored.picture = alone.picture ∧
      (calls = [] → restored = matcher.book) := by
  obtain ⟨layout, settled⟩ := reachable_wellFormed reachable
  obtain ⟨addSmooth, restSmooth⟩ := smooth
  have accepted : matcher.book.view.Accepts sizes order := by
    have notRefused := addSmooth fresh
    rw [OrderBook.refuses_iff settled, not_not] at notRefused
    exact notRefused
  obtain ⟨slot, level, added, addedLayout, addRun, joined⟩ :=
    OrderBook.addOrder_joined settled accepted
  have addedView := joined.view_eq settled
  have addedSmooth : added.RunsSmoothly calls := by
    apply restSmooth (.added (some (added.payload slot))) added
    rw [OrderBook.answer, addRun]
    rfl
  have shadows : OrderBook.Shadows order added matcher.book := by
    refine ⟨⟨addedLayout, joined.settled⟩, ⟨layout, settled⟩, ?_, ?_⟩
    · rw [joined.settled.view_valid.find?_eq_some_iff, addedView,
        Market.rests_insert]
      exact ⟨.inr rfl, rfl⟩
    · rw [addedView, settled.view_valid.cancel_insert accepted.1]
  obtain ⟨replies, used, alone, usedRun, aloneRun, lastShadows⟩ :=
    shadows.answers differ addedSmooth
  obtain ⟨restored, cancelRun, samePicture⟩ := lastShadows.cancelOrder
  refine ⟨slot, added, replies, used, restored, alone, addRun, usedRun,
    cancelRun, aloneRun, samePicture, ?_⟩
  rintro rfl
  obtain ⟨_, rfl⟩ := Prod.mk.inj (Except.ok.inj usedRun)
  have counts := (matcher.book.addOrder_counts order).returned addRun (by simp)
  rw [joined.cancelled settled counts] at cancelRun
  exact (Prod.mk.inj (Except.ok.inj cancelRun)).2.symm

/-- A fourth order passes through while one of the others is cancelled. -/
theorem transient_order_session :
    ∃ slot added replies used restored alone,
      session.book.addOrder (sessionOrder 4 40 .sell 9) =
        .ok (some slot, added) ∧
      added.answers [.cancelOrder 1] = .ok (replies, used) ∧
      used.cancelOrder 4 = .ok (true, restored) ∧
      session.book.answers [.cancelOrder 1] = .ok (replies, alone) ∧
      restored.picture = alone.picture ∧
      (([.cancelOrder 1] : List BookCall) = [] → restored = session.book) :=
  transient_order session_reachable.of_restrict rfl
    (by simp [BookCall.orderId, sessionOrder])
    ⟨fun _ => by unfold OrderBook.Refuses; decide,
      fun _ _ _ => ⟨trivial, fun _ _ _ => trivial⟩⟩

end Matcher

end Hydra
