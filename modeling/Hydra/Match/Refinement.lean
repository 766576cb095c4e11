import Hydra.Match.ProRata

/-!
# The matcher refines the market

`matchOrder` and `replace` run without a fault on every well-formed book, and
their results are those of the functions of the same names on the market that
the book shows.  The mode is loaded once, so that a concurrent store cannot
change it in the middle of a call.
-/

namespace Hydra

open Allocation

variable {sizes : PoolSizes}

/-- The result of a call shows the outcome on the market, and all of its fills
were legal when they were reported. -/
structure MatchResult.Shows (incoming : Order) (result : MatchResult sizes)
    (outcome : Outcome) : Prop where
  wellFormed : result.book.WellFormed
  view : result.book.view = outcome.market
  fills : result.emitted.map Emission.event = outcome.fills
  stats : result.stats = outcome.stats
  legal : ∀ emission ∈ result.emitted,
    emission.Legal incoming (Sweep.withinLimit incoming)

namespace OrderBook

variable {book : OrderBook sizes} {layout : Layout sizes}

theorem sweepMode_spec (mode : MatchingMode) (dryRun : Bool) (incoming : Order)
    (settled : book.Settled layout) :
    ∃ next, book.sweepMode mode dryRun incoming = .ok next ∧
      next.book.WellFormed ∧
      Sweep.MadeAll (book.view.sweep mode incoming) dryRun incoming
        (.start book incoming) next := by
  cases mode with
  | priceTime =>
      exact Sweep.sweep_spec (Sweep.priceTimeAtLevel_spec dryRun incoming)
        settled
  | proRata =>
      exact Sweep.sweep_spec (Sweep.proRataAtLevel_spec dryRun incoming)
        settled

/-- What a sweep of the book can fill at all. -/
def filledQty (mode : MatchingMode) (incoming : Order)
    (book : OrderBook sizes) : Nat :=
  total (allGrants (book.view.sweep mode incoming))

/-- The availability pass computes what the committing pass fills. -/
theorem available_spec (mode : MatchingMode) (incoming : Order)
    (settled : book.Settled layout) :
    ∃ available, book.available mode incoming = .ok available ∧
      available.toNat = book.filledQty mode incoming := by
  obtain ⟨next, run, _, made⟩ := sweepMode_spec mode true incoming settled
  have balance : next.remaining.toNat + book.filledQty mode incoming =
      incoming.qty.toNat := made.remaining
  have fits : next.remaining ≤ incoming.qty := by
    rw [UInt32.le_iff_toNat_le]
    omega
  refine ⟨incoming.qty - next.remaining, ?_, ?_⟩
  · cases mode with
    | priceTime =>
        change Sweep.sweepPriceTime true incoming _ = _ at run
        rw [OrderBook.available, availablePriceTime, run]
        rfl
    | proRata =>
        change Sweep.proRataSweep true incoming _ = _ at run
        rw [OrderBook.available, availableProRata, run]
        rfl
  · rw [UInt32.toNat_sub_of_le _ _ fits]
    omega

theorem best?_view (settled : book.Settled layout) (side : Side) :
    book.view.best? side =
      (book.priceMap side).entries.head?.map Prod.fst := by
  rw [Market.best?, settled.view_entries, List.head?_map, Option.map_map]
  rfl

theorem wouldRestCrossed_spec (incoming : Order)
    (settled : book.Settled layout) :
    book.wouldRestCrossed incoming = .ok (book.view.blocks incoming) := by
  rw [wouldRestCrossed, Sweep.bestOpposite_eq, Market.blocks,
    best?_view settled]
  cases entriesEq : (book.priceMap incoming.side.opposite).entries with
  | nil => rfl
  | cons entry rest =>
      have listed : book.Listed incoming.side.opposite entry.1 entry.2 := by
        rw [Listed, entriesEq]
        exact List.mem_cons_self
      change (book.levelPool.read entry.2 >>= _) = _
      rw [ObjectPool.read_eq (settled.record listed), ok_bind]
      rfl

theorem restRemainder_spec (incoming : Order) (remaining : UInt32)
    (settled : book.Settled layout) :
    ∃ next, book.restRemainder incoming remaining = .ok next ∧
      next.WellFormed ∧
      next.view = book.view.rest sizes incoming remaining.toNat := by
  have qtyEq : UInt32.ofNat remaining.toNat = remaining :=
    UInt32.toNat_inj.mp (by simp)
  have remainsIff : 0 < remaining ↔ 0 < remaining.toNat :=
    UInt32.lt_iff_toNat_lt
  rw [Market.rest, qtyEq]
  by_cases rests : incoming.tif = .gtc ∧ 0 < remaining
  · have crossed := wouldRestCrossed_spec incoming settled
    obtain ⟨added, next, run, _, wellFormed, viewEq⟩ :=
      addOrder_spec settled { incoming with qty := remaining }
    cases blocks : book.view.blocks incoming with
    | true =>
        refine ⟨book, ?_, ⟨layout, settled⟩, ?_⟩
        · rw [restRemainder, if_pos rests, crossed, ok_bind, if_pos blocks]
          rfl
        · rw [if_neg (by simp)]
    | false =>
        refine ⟨next, ?_, wellFormed, ?_⟩
        · rw [restRemainder, if_pos rests, crossed, ok_bind,
            if_neg (by simp [blocks]), run]
          rfl
        · rw [if_pos ⟨rests.1, remainsIff.mp rests.2, rfl⟩, viewEq]
  · refine ⟨book, ?_, ⟨layout, settled⟩, ?_⟩
    · rw [restRemainder, if_neg rests]
    · rw [if_neg]
      intro all
      exact rests ⟨all.1, remainsIff.mpr all.2.1⟩

theorem rejected_shows (incoming : Order) (settled : book.Settled layout) :
    (book.rejected incoming).Shows incoming (book.view.reject incoming) where
  wellFormed := ⟨layout, settled⟩
  view := rfl
  fills := rfl
  stats := rfl
  legal emission member := by simp [rejected] at member

theorem commitMatch_spec (mode : MatchingMode) (incoming : Order)
    (settled : book.Settled layout) :
    ∃ result, book.commitMatch mode incoming = .ok result ∧
      result.Shows incoming
        (book.view.commitMatch sizes mode incoming) := by
  obtain ⟨swept, run, ⟨sweptLayout, sweptSettled⟩, made⟩ :=
    sweepMode_spec mode false incoming settled
  obtain ⟨next, restRun, wellFormed, viewEq⟩ :=
    restRemainder_spec incoming swept.remaining sweptSettled
  obtain ⟨emitted, emittedEq, legal, events⟩ := made.emitted
  have emittedAll : swept.emitted = emitted := emittedEq
  have balance : swept.remaining.toNat +
      total (allGrants (book.view.sweep mode incoming)) = incoming.size :=
    made.remaining
  have left : swept.remaining.toNat = incoming.size -
      total (allGrants (book.view.sweep mode incoming)) := by omega
  have leftWord : swept.remaining = UInt32.ofNat (incoming.size -
      total (allGrants (book.view.sweep mode incoming))) := by
    rw [← left]
    apply UInt32.toNat_inj.mp
    simp
  have sweptView := made.view
  rw [if_neg Bool.false_ne_true] at sweptView
  have sweptStats := made.stats
  rw [if_neg Bool.false_ne_true] at sweptStats
  rw [if_neg Bool.false_ne_true] at events
  let result : MatchResult sizes :=
    { book := next
      stats := { swept.stats with remainingQty := swept.remaining }
      emitted := swept.emitted }
  refine ⟨result, ?_, wellFormed, ?_, ?_, ?_, ?_⟩
  · rw [commitMatch, run, ok_bind, restRun]
    rfl
  · change next.view = _
    rw [viewEq, sweptView, left]
    rfl
  · change swept.emitted.map Emission.event = _
    rw [emittedAll, events]
    rfl
  · change { swept.stats with remainingQty := swept.remaining } = _
    rw [sweptStats, leftWord]
    rfl
  · change ∀ emission ∈ swept.emitted, _
    rw [emittedAll]
    exact legal

/-- What `matchOrder` decides before it touches the book. -/
theorem matchOrder_eq (load : Nat → MatchingMode) (incoming : Order)
    (settled : book.Settled layout) :
    book.matchOrder load incoming =
      if book.view.Rejects (load 0) incoming then .ok (book.rejected incoming)
      else book.commitMatch (load 0) incoming := by
  have found := settled.find?_view incoming.orderId
  cases present : book.findOrder incoming.orderId with
  | some slot =>
      rw [present] at found
      have refused : book.view.Rejects (load 0) incoming :=
        .inl (by simp [found])
      rw [matchOrder, present, if_pos refused]
  | none =>
      rw [present] at found
      have fresh : ¬ book.view.find? incoming.orderId ≠ none := by simp [found]
      rw [matchOrder, present]
      dsimp only
      by_cases fok : incoming.tif = .fok
      · obtain ⟨available, run, availableEq⟩ :=
          available_spec (load 0) incoming settled
        have short : available < incoming.qty ↔
            total (allGrants (book.view.sweep (load 0) incoming)) <
              incoming.size := by
          rw [UInt32.lt_iff_toNat_lt, availableEq]
          exact Iff.rfl
        rw [if_pos fok, run, ok_bind]
        by_cases reject : available < incoming.qty
        · rw [if_pos reject, if_pos (.inr ⟨fok, short.mp reject⟩)]
          rfl
        · rw [if_neg reject, if_neg]
          intro rejects
          rcases rejects with resting | unavailable
          · exact fresh resting
          · exact reject (short.mpr unavailable.2)
      · rw [if_neg fok, if_neg]
        intro rejects
        rcases rejects with resting | unavailable
        · exact fresh resting
        · exact fok unavailable.1

/-- `matchOrder` refines matching on the market. -/
theorem matchOrder_spec (load : Nat → MatchingMode) (incoming : Order)
    (settled : book.Settled layout) :
    ∃ result, book.matchOrder load incoming = .ok result ∧
      result.Shows incoming
        (book.view.matchOrder sizes (load 0) incoming) := by
  rw [matchOrder_eq load incoming settled, Market.matchOrder]
  by_cases rejects : book.view.Rejects (load 0) incoming
  · rw [if_pos rejects, if_pos rejects]
    exact ⟨_, rfl, rejected_shows incoming settled⟩
  · rw [if_neg rejects, if_neg rejects]
    exact commitMatch_spec (load 0) incoming settled

theorem replace_spec (load : Nat → MatchingMode) (orderId : UInt64)
    (newPrice : Int64) (newQty : UInt32) (settled : book.Settled layout) :
    ∃ result, book.replace load orderId newPrice newQty = .ok result ∧
      result.book.WellFormed ∧
      result.book.view = (book.view.replace sizes (load 0) orderId newPrice
        newQty).market ∧
      result.emitted.map Emission.event = (book.view.replace sizes (load 0)
        orderId newPrice newQty).fills ∧
      result.stats = (book.view.replace sizes (load 0) orderId newPrice
        newQty).stats ∧
      ∀ emission ∈ result.emitted, ∃ existing,
        book.view.find? orderId = some existing ∧
        emission.Legal (Market.reentry existing newPrice newQty)
          (Sweep.withinLimit (Market.reentry existing newPrice newQty)) := by
  have found := settled.find?_view orderId
  rw [Market.replace]
  cases indexed : book.orderIndex orderId with
  | none =>
      have absent : book.findOrder orderId = none := by
        rw [findOrder, indexed]
        rfl
      rw [absent] at found
      rw [found]
      refine ⟨{ book, stats := {}, emitted := [] }, ?_, ⟨layout, settled⟩, rfl,
        rfl, rfl, by simp⟩
      rw [replace, absent]
  | some entry =>
      obtain ⟨side, price, front, back, listed, split, sameId⟩ :=
        settled.locate indexed
      have member : entry.order ∈ layout.queue entry.level := by simp [split]
      obtain ⟨node, stored, nodeEq⟩ := settled.queued_node member
      have present : book.findOrder orderId = some entry.order := by
        rw [findOrder, indexed]
        rfl
      rw [present, Option.map_some, nodeEq] at found
      rw [found]
      dsimp only
      rw [replace, present]
      change ∃ result, (book.orderPool.read entry.order >>= _) = _ ∧ _
      rw [ObjectPool.read_eq stored, ok_bind]
      obtain ⟨cancelled, cancelRun, ⟨cancelLayout, cancelSettled⟩,
        cancelView⟩ :=
        cancelOrder_spec settled orderId
      by_cases zero : newQty = 0
      · rw [if_pos zero, if_pos zero, cancelRun, ok_bind]
        exact ⟨_, rfl, ⟨cancelLayout, cancelSettled⟩, cancelView, rfl, rfl,
          by simp⟩
      · rw [if_neg zero, if_neg zero]
        by_cases inPlace : newPrice = node.price ∧ newQty ≤ node.qty
        · have shrinks : ∀ order, book.view.find? orderId = some order →
              newQty.toNat ≤ order.qty.toNat := by
            intro order orderFound
            rw [found] at orderFound
            rw [← Option.some.inj orderFound]
            exact UInt32.le_iff_toNat_le.mp inPlace.2
          obtain ⟨next, run, wellFormed, viewEq⟩ :=
            replaceOrderInPlace_spec settled orderId shrinks
          rw [if_pos inPlace, if_pos inPlace, run, ok_bind]
          exact ⟨_, rfl, wellFormed, viewEq, rfl, rfl, by simp⟩
        · obtain ⟨result, run, showing⟩ := matchOrder_spec load
            (Market.reentry node.toOrder newPrice newQty) cancelSettled
          rw [cancelView] at showing
          rw [if_neg inPlace, if_neg inPlace, cancelRun, ok_bind]
          refine ⟨result, run, showing.wellFormed, showing.view, showing.fills,
            showing.stats, ?_⟩
          intro emission emissionMember
          exact ⟨node.toOrder, rfl, showing.legal emission emissionMember⟩

end OrderBook

end Hydra
