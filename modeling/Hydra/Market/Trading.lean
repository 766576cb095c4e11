import Hydra.Market.Ledger

/-!
# What a trade does to a market

Whatever is matched, cancelled or replaced, the orders that were resting keep
their terms and their places; they only change their quantities or leave.  At
most one order arrives, behind all others at its price.  `Changed` and `Moves`
say this once, and the invariants of trading follow from it:  a market in which
only good-till-cancelled orders rest, with positive quantities and uncrossed,
stays such a market.
-/

namespace Hydra

open Allocation

/-- The change keeps all terms of an order except for its quantity, which does
not become zero. -/
def KeepsTerms (change : Order → Option Order) : Prop :=
  ∀ order next, change order = some next →
    ∃ qty, next = { order with qty } ∧ (0 < order.qty → 0 < qty)

section KeepsTerms

variable {change after : Order → Option Order}

theorem KeepsTerms.keepsPlace (keeps : KeepsTerms change) :
    Market.KeepsPlace change := by
  intro order next changed
  obtain ⟨qty, rfl, _⟩ := keeps order next changed
  exact ⟨rfl, rfl, rfl⟩

theorem keepsTerms_some : KeepsTerms some := by
  intro order next changed
  obtain rfl := Option.some.inj changed
  exact ⟨order.qty, rfl, id⟩

theorem KeepsTerms.bind (keeps : KeepsTerms change)
    (afterKeeps : KeepsTerms after) :
    KeepsTerms fun order => (change order).bind after := by
  intro order next changed
  obtain ⟨middle, first, second⟩ := Option.bind_eq_some_iff.mp changed
  obtain ⟨qty, rfl, positive⟩ := keeps order middle first
  obtain ⟨nextQty, rfl, nextPositive⟩ := afterKeeps _ next second
  exact ⟨nextQty, rfl, fun given => nextPositive (positive given)⟩

theorem KeepsTerms.alter (keeps : KeepsTerms change) (orderId : UInt64) :
    KeepsTerms fun order =>
      if order.orderId = orderId then change order else some order := by
  intro order next changed
  dsimp only at changed
  split at changed
  next => exact keeps order next changed
  next => exact keepsTerms_some order next changed

theorem keepsTerms_none : KeepsTerms fun _ => none := by
  intro order next changed
  cases changed

theorem keepsTerms_setQty {qty : UInt32} (positive : 0 < qty) :
    KeepsTerms fun order => some { order with qty } := by
  intro order next changed
  obtain rfl := Option.some.inj changed
  exact ⟨qty, rfl, fun _ => positive⟩

theorem keepsTerms_afterFill (taken : UInt32) :
    KeepsTerms (Order.afterFill taken) := by
  intro order next changed
  rw [Order.afterFill] at changed
  split at changed
  next => cases changed
  next remains =>
    obtain rfl := Option.some.inj changed
    refine ⟨order.qty - taken, rfl, ?_⟩
    intro _
    exact UInt32.pos_iff_ne_zero.mpr remains

end KeepsTerms

namespace Market

/-- Resting orders changed their quantities or left; none arrived. -/
def Changed (market next : Market) : Prop :=
  ∃ change, KeepsTerms change ∧ next = market.revise change

section Changed

variable {market middle next : Market}

theorem Changed.refl (valid : market.Valid) : market.Changed market :=
  ⟨some, keepsTerms_some, (revise_some valid).symm⟩

theorem Changed.trans (first : market.Changed middle)
    (second : middle.Changed next) : market.Changed next := by
  obtain ⟨change, keeps, rfl⟩ := first
  obtain ⟨after, afterKeeps, rfl⟩ := second
  exact ⟨_, keeps.bind afterKeeps, revise_revise after⟩

theorem changed_cancel (market : Market) (orderId : UInt64) :
    market.Changed (market.cancel orderId) :=
  ⟨_, keepsTerms_none.alter orderId, rfl⟩

theorem changed_setQty (market : Market) (orderId : UInt64) {qty : UInt32}
    (positive : 0 < qty) : market.Changed (market.setQty orderId qty) :=
  ⟨_, (keepsTerms_setQty positive).alter orderId, rfl⟩

theorem changed_applyFills (valid : market.Valid) (fills : List FillEvent) :
    market.Changed (market.applyFills fills) := by
  induction fills generalizing market with
  | nil => exact .refl valid
  | cons fill rest induction =>
      have first : market.Changed (market.applyFill fill) :=
        ⟨_, (keepsTerms_afterFill fill.qty).alter fill.makerOrderId, rfl⟩
      exact first.trans (induction (valid.applyFill fill))

theorem Changed.valid (changed : market.Changed next) (valid : market.Valid) :
    next.Valid := by
  obtain ⟨change, keeps, rfl⟩ := changed
  exact valid.revise keeps.keepsPlace

/-- Every order that rests after a change rested before it, with the same
terms. -/
theorem Changed.rests (changed : market.Changed next) {order : Order}
    (rests : next.Rests order) :
    ∃ old, market.Rests old ∧ order = { old with qty := order.qty } ∧
      (0 < old.qty → 0 < order.qty) := by
  obtain ⟨change, keeps, rfl⟩ := changed
  obtain ⟨old, oldRests, changed⟩ := (rests_revise keeps.keepsPlace).mp rests
  obtain ⟨qty, rfl, positive⟩ := keeps old order changed
  exact ⟨old, oldRests, rfl, positive⟩

theorem Changed.find?_none (changed : market.Changed next)
    (valid : market.Valid) {orderId : UInt64}
    (absent : market.find? orderId = none) : next.find? orderId = none := by
  apply (changed.valid valid).find?_eq_none_iff.mpr
  intro order rests
  obtain ⟨old, oldRests, terms, _⟩ := changed.rests rests
  rw [terms]
  exact valid.find?_eq_none_iff.mp absent old oldRests

theorem find?_cancel (valid : market.Valid) (orderId : UInt64) :
    (market.cancel orderId).find? orderId = none := by
  apply (valid.cancel orderId).find?_eq_none_iff.mpr
  intro order rests
  obtain ⟨old, _, changed⟩ :=
    (rests_revise (keepsPlace_alter keepsPlace_cancel)).mp rests
  split at changed
  next => cases changed
  next other =>
    obtain rfl := Option.some.inj changed
    exact other

end Changed

section Best

variable {market : Market} {side : Side} {price : Int64}

/-- The best price of a side is the price of one of its orders. -/
theorem Valid.best?_order (valid : market.Valid)
    (best : market.best? side = some price) :
    ∃ order ∈ market.orders side, order.price = price := by
  obtain ⟨entry, first, rfl⟩ := Option.map_eq_some_iff.mp best
  have listed : (entry.1, entry.2) ∈ (market.ladder side).entries :=
    List.mem_of_head? first
  obtain ⟨order, queued⟩ := List.exists_mem_of_ne_nil _
    (valid.populated listed)
  refine ⟨order, mem_orders.mpr ⟨_, _, listed, queued⟩, ?_⟩
  exact (valid.placed listed queued).1

/-- A market blocks an order exactly when one of the opposite orders crosses
it. -/
theorem Valid.blocks_eq_false (valid : market.Valid) {incoming : Order}
    (unblocked : market.blocks incoming = false) {order : Order}
    (rests : order ∈ market.orders incoming.side.opposite) :
    crosses order.price incoming = false := by
  obtain ⟨price, queue, listed, queued⟩ := mem_orders.mp rests
  rw [(valid.placed listed queued).1]
  rw [blocks, best?] at unblocked
  have sorted := (market.ladder incoming.side.opposite).sorted
  cases entriesEq : (market.ladder incoming.side.opposite).entries with
  | nil =>
      rw [entriesEq] at listed
      cases listed
  | cons entry rest =>
      rw [entriesEq] at unblocked listed sorted
      simp only [List.head?_cons, Option.map_some] at unblocked
      rcases List.mem_cons.mp listed with first | later
      · rw [← first] at unblocked
        exact unblocked
      · rw [Bool.eq_false_iff]
        intro crossing
        have better := (List.pairwise_cons.mp sorted).1 _ later
        rw [crosses_of_better better crossing] at unblocked
        cases unblocked

end Best

/-- What matching an order does to the market: orders change or leave, and
what remains of the order may come to rest. -/
inductive Moves (incoming : Order) (market : Market) : Market → Prop where
  | settled {next : Market} : market.Changed next → Moves incoming market next
  | arrived {swept : Market} {qty : UInt32} :
      market.Changed swept → swept.find? incoming.orderId = none →
      incoming.tif = .gtc → 0 < qty → swept.blocks incoming = false →
      Moves incoming market (swept.insert { incoming with qty })

section Moves

variable {sizes : PoolSizes} {market middle next : Market} {incoming : Order}

theorem Moves.after (changed : market.Changed middle)
    (moves : Moves incoming middle next) : Moves incoming market next := by
  cases moves with
  | settled later => exact .settled (changed.trans later)
  | arrived later absent patient positive unblocked =>
      exact .arrived (changed.trans later) absent patient positive unblocked

/-- Of an order that must not rest nothing does. -/
theorem Moves.changed (moves : Moves incoming market next)
    (impatient : incoming.tif ≠ .gtc) : market.Changed next := by
  cases moves with
  | settled changed => exact changed
  | arrived _ _ patient _ _ => exact absurd patient impatient

theorem rest_moves (valid : market.Valid) {remaining : Nat}
    (fits : remaining ≤ incoming.size) :
    Moves incoming market (market.rest sizes incoming remaining) := by
  rw [rest]
  split
  next rests =>
    obtain ⟨patient, positive, unblocked⟩ := rests
    rw [add]
    split
    next accepted =>
      have word : remaining < 2 ^ 32 :=
        Nat.lt_of_le_of_lt fits incoming.qty.toNat_lt
      have positiveWord : 0 < UInt32.ofNat remaining := by
        rw [UInt32.lt_iff_toNat_lt, UInt32.toNat_ofNat_of_lt' word]
        exact positive
      exact @Moves.arrived incoming market market (.ofNat remaining)
        (.refl valid) accepted.1 patient positiveWord unblocked
    next => exact .settled (.refl valid)
  next => exact .settled (.refl valid)

theorem matchOrder_moves (mode : MatchingMode) (incoming : Order)
    (valid : market.Valid) :
    Moves incoming market (market.matchOrder sizes mode incoming).market := by
  rw [matchOrder]
  split
  next => exact .settled (.refl valid)
  next =>
    have swept := changed_applyFills valid
      ((allGrants (market.sweep mode incoming)).map (fillEvent incoming))
    apply Moves.after swept
    apply rest_moves (swept.valid valid)
    exact Nat.sub_le _ _

/-- The order with the given id can take the new terms without losing its
place. -/
def KeepsPriority (existing : Order) (newPrice : Int64) (newQty : UInt32) :
    Prop :=
  newPrice = existing.price ∧ newQty ≤ existing.qty

instance (existing : Order) (newPrice : Int64) (newQty : UInt32) :
    Decidable (KeepsPriority existing newPrice newQty) :=
  inferInstanceAs (Decidable (_ ∧ _))

/-- What a replacement does: it changes a resting order at its place or takes
it out, or it takes the order out and matches it again. -/
theorem replace_moves (mode : MatchingMode) (orderId : UInt64)
    (newPrice : Int64) (newQty : UInt32) (valid : market.Valid) :
    (market.Changed
        (market.replace sizes mode orderId newPrice newQty).market ∧
      ∀ existing, market.find? orderId = some existing →
        KeepsPriority existing newPrice newQty ∨
        (market.replace sizes mode orderId newPrice newQty).market.find?
          orderId = none) ∨
    ∃ existing, market.find? orderId = some existing ∧
      ¬ KeepsPriority existing newPrice newQty ∧
      Moves (reentry existing newPrice newQty) (market.cancel orderId)
        (market.replace sizes mode orderId newPrice newQty).market := by
  rw [replace]
  cases found : market.find? orderId with
  | none => exact .inl ⟨.refl valid, by simp⟩
  | some existing =>
      dsimp only
      by_cases zero : newQty = 0
      · rw [if_pos zero]
        refine .inl ⟨changed_cancel market orderId, ?_⟩
        intro _ _
        exact .inr (find?_cancel valid orderId)
      · rw [if_neg zero]
        by_cases keeps : newPrice = existing.price ∧ newQty ≤ existing.qty
        · rw [if_pos keeps]
          have positive : 0 < newQty := by
            rw [UInt32.lt_iff_toNat_lt]
            apply Nat.pos_of_ne_zero
            intro empty
            exact zero (UInt32.toNat_inj.mp empty)
          refine .inl ⟨changed_setQty market orderId positive, ?_⟩
          intro other same
          rw [← Option.some.inj same]
          exact .inl keeps
        · rw [if_neg keeps]
          exact .inr ⟨existing, rfl, keeps,
            matchOrder_moves mode _ (valid.cancel orderId)⟩

end Moves

/-- The states that trading keeps a market in. -/
structure Sound (market : Market) : Prop extends Valid market where
  positive : ∀ {order}, market.Rests order → 0 < order.qty
  patient : ∀ {order}, market.Rests order → order.tif = .gtc
  uncrossed : ∀ {bid ask}, bid ∈ market.orders .buy →
    ask ∈ market.orders .sell → bid.price < ask.price

section Sound

variable {sizes : PoolSizes} {market next : Market} {incoming : Order}

theorem empty_sound : empty.Sound where
  toValid := empty_valid
  positive rests := by
    have impossible : _ ∈ empty.orders _ := rests
    simp [orders, empty] at impossible
  patient rests := by
    have impossible : _ ∈ empty.orders _ := rests
    simp [orders, empty] at impossible
  uncrossed member := by simp [orders, empty] at member

theorem Sound.size_pos (sound : market.Sound) {order : Order}
    (rests : market.Rests order) : 0 < order.size :=
  UInt32.lt_iff_toNat_lt.mp (sound.positive rests)

theorem Sound.changed (sound : market.Sound) (changed : market.Changed next) :
    next.Sound where
  toValid := changed.valid sound.toValid
  positive rests := by
    obtain ⟨old, oldRests, _, positive⟩ := changed.rests rests
    exact positive (sound.positive oldRests)
  patient rests := by
    obtain ⟨old, oldRests, terms, _⟩ := changed.rests rests
    have oldPatient := sound.patient oldRests
    rw [terms]
    exact oldPatient
  uncrossed bidMember askMember := by
    have valid := changed.valid sound.toValid
    obtain ⟨bidRests, bidSide⟩ := valid.mem_orders_iff.mp bidMember
    obtain ⟨askRests, askSide⟩ := valid.mem_orders_iff.mp askMember
    obtain ⟨oldBid, oldBidRests, bidTerms, _⟩ := changed.rests bidRests
    obtain ⟨oldAsk, oldAskRests, askTerms, _⟩ := changed.rests askRests
    rw [bidTerms] at bidSide ⊢
    rw [askTerms] at askSide ⊢
    have oldBidMember : oldBid ∈ market.orders .buy :=
      sound.mem_orders_iff.mpr ⟨oldBidRests, bidSide⟩
    have oldAskMember : oldAsk ∈ market.orders .sell :=
      sound.mem_orders_iff.mpr ⟨oldAskRests, askSide⟩
    have ordered : oldBid.price < oldAsk.price :=
      sound.uncrossed oldBidMember oldAskMember
    exact ordered

/-- An order that nothing on the other side crosses may come to rest. -/
theorem Sound.insert (sound : market.Sound) {qty : UInt32}
    (absent : market.find? incoming.orderId = none)
    (patient : incoming.tif = .gtc) (positive : 0 < qty)
    (unblocked : market.blocks incoming = false) :
    (market.insert { incoming with qty }).Sound where
  toValid := Valid.insert sound.toValid absent
  positive rests := by
    rcases rests_insert.mp rests with old | rfl
    · exact sound.positive old
    · exact positive
  patient rests := by
    rcases rests_insert.mp rests with old | rfl
    · exact sound.patient old
    · exact patient
  uncrossed := by
    intro bid ask bidMember askMember
    have apart : ∀ order ∈ market.orders incoming.side.opposite,
        ¬ crosses order.price incoming = true := by
      intro order rests
      rw [sound.blocks_eq_false unblocked rests]
      exact Bool.false_ne_true
    rw [mem_orders_insert] at bidMember askMember
    rw [Int64.lt_iff_toInt_lt]
    rcases bidMember with oldBid | ⟨rfl, buys⟩
    · rcases askMember with oldAsk | ⟨rfl, sells⟩
      · exact Int64.lt_iff_toInt_lt.mp (sound.uncrossed oldBid oldAsk)
      · have sells : .sell = incoming.side := sells
        have fresh := apart bid (by rw [← sells]; exact oldBid)
        rw [crosses_iff, ← sells] at fresh
        exact Int.not_le.mp fresh
    · rcases askMember with oldAsk | ⟨rfl, sells⟩
      · have buys : .buy = incoming.side := buys
        have fresh := apart ask (by rw [← buys]; exact oldAsk)
        rw [crosses_iff, ← buys] at fresh
        exact Int.not_le.mp fresh
      · rw [← buys] at sells
        cases sells

theorem Sound.moves (sound : market.Sound)
    (moves : Moves incoming market next) : next.Sound := by
  cases moves with
  | settled changed => exact sound.changed changed
  | arrived changed absent patient positive unblocked =>
      exact (sound.changed changed).insert absent patient positive unblocked

theorem Sound.matchOrder (sound : market.Sound) (mode : MatchingMode)
    (incoming : Order) :
    (market.matchOrder sizes mode incoming).market.Sound :=
  sound.moves (matchOrder_moves mode incoming sound.toValid)

theorem Sound.replace (sound : market.Sound) (mode : MatchingMode)
    (orderId : UInt64) (newPrice : Int64) (newQty : UInt32) :
    (market.replace sizes mode orderId newPrice newQty).market.Sound := by
  rcases @replace_moves sizes market mode orderId newPrice newQty sound.toValid
    with ⟨changed, _⟩ | ⟨existing, _, _, moves⟩
  · exact sound.changed changed
  · exact (sound.changed (changed_cancel market orderId)).moves moves

end Sound

end Market

end Hydra
