import Hydra.Market.Commuting
import Hydra.Market.Renaming
import Hydra.Market.Trading
import Mathlib.Data.Finset.Card

/-!
# Shortages

What is left of a good-till-cancelled order comes to rest unless one of the
pools is exhausted.  When the ids of all orders that may rest are few, and so
are their prices, no pool ever is: ids tell resting orders apart, and in a
market that is not crossed prices tell levels apart, whatever their side.
-/

namespace Hydra

open Allocation

/-- The pool that has no slot left. -/
inductive Shortage where
  | orders
  | levels
  deriving DecidableEq

namespace Market

variable {sizes : PoolSizes} {market next : Market} {incoming order : Order}
variable {mode : MatchingMode}

/-- The market after the fills of an order. -/
def traded (mode : MatchingMode) (incoming : Order) (market : Market) :
    Market :=
  market.applyFills ((allGrants (market.sweep mode incoming)).map
    (fillEvent incoming))

/-- What is left of an order after its fills, if it is to come to rest. -/
def leftover? (mode : MatchingMode) (incoming : Order) (market : Market) :
    Option Order :=
  let remaining :=
    incoming.size - total (allGrants (market.sweep mode incoming))
  if ¬ market.Rejects mode incoming ∧ incoming.tif = .gtc ∧ 0 < remaining ∧
      (market.traded mode incoming).blocks incoming = false then
    some { incoming with qty := .ofNat remaining }
  else none

/-- The pool that cannot supply the slot for an order. -/
def shortage? (sizes : PoolSizes) (market : Market) (order : Order) :
    Option Shortage :=
  if market.HasRoom sizes order then none
  else if market.orderCount < sizes.orders then some .levels
  else some .orders

theorem shortage?_eq_none :
    market.shortage? sizes order = none ↔ market.HasRoom sizes order := by
  rw [shortage?]
  split
  next room => exact iff_of_true rfl room
  next full =>
    refine iff_of_false ?_ full
    split <;> exact Option.some_ne_none _

/-- The shortage that an order meets in a match. -/
def matchShortage? (sizes : PoolSizes) (mode : MatchingMode) (incoming : Order)
    (market : Market) : Option Shortage :=
  (market.leftover? mode incoming).bind fun order =>
    (market.traded mode incoming).shortage? sizes order

/-- The shortage that a replaced order meets when it is matched again. -/
def replaceShortage? (sizes : PoolSizes) (mode : MatchingMode)
    (orderId : UInt64) (newPrice : Int64) (newQty : UInt32)
    (market : Market) : Option Shortage :=
  match market.find? orderId with
  | none => none
  | some existing =>
      if newQty = 0 ∨ KeepsPriority existing newPrice newQty then none
      else
        (market.cancel orderId).matchShortage? sizes mode
          (reentry existing newPrice newQty)

/-- What is known about what is left of an order. -/
structure Leaves (mode : MatchingMode) (incoming : Order) (market : Market)
    (order : Order) : Prop where
  terms : order = { incoming with qty := order.qty }
  patient : incoming.tif = .gtc
  positive : 0 < order.qty
  absent : (market.traded mode incoming).find? order.orderId = none
  unblocked : (market.traded mode incoming).blocks order = false

theorem leaves_of_leftover? (valid : market.Valid)
    (left : market.leftover? mode incoming = some order) :
    market.Leaves mode incoming order := by
  rw [leftover?] at left
  split at left
  next rests =>
    obtain ⟨accepted, patient, remains, unblocked⟩ := rests
    cases left
    have fresh : market.find? incoming.orderId = none :=
      not_not.mp fun present => accepted (.inl present)
    have word : incoming.size - total (allGrants (market.sweep mode incoming)) <
        2 ^ 32 :=
      lt_of_le_of_lt (Nat.sub_le _ _) incoming.qty.toNat_lt
    constructor
    case terms => rfl
    case patient => exact patient
    case positive =>
      rw [UInt32.lt_iff_toNat_lt, UInt32.toNat_ofNat_of_lt' word]
      exact remains
    case absent => exact (changed_applyFills valid _).find?_none valid fresh
    case unblocked => exact unblocked
  next => cases left

/-- A match is its fills, and what is left is added. -/
theorem matchOrder_leftover (valid : market.Valid) (sizes : PoolSizes)
    (mode : MatchingMode) (incoming : Order) :
    (market.matchOrder sizes mode incoming).market =
      match market.leftover? mode incoming with
      | none =>
          if market.Rejects mode incoming then market
          else market.traded mode incoming
      | some order =>
          if (market.traded mode incoming).HasRoom sizes order then
            (market.traded mode incoming).insert order
          else market.traded mode incoming := by
  rw [matchOrder, leftover?]
  by_cases rejects : market.Rejects mode incoming
  · rw [if_pos rejects, if_neg (fun all => all.1 rejects)]
    exact (if_pos rejects).symm
  · rw [if_neg rejects]
    change Market.rest sizes (market.traded mode incoming) _ _ = _
    rw [Market.rest]
    by_cases rests : incoming.tif = .gtc ∧
        0 < incoming.size - total (allGrants (market.sweep mode incoming)) ∧
        (market.traded mode incoming).blocks incoming = false
    · have left : market.leftover? mode incoming = some _ :=
        if_pos ⟨rejects, rests⟩
      have absent := (leaves_of_leftover? valid left).absent
      rw [if_pos rests, if_pos ⟨rejects, rests⟩]
      dsimp only
      rw [add]
      by_cases room : (market.traded mode incoming).HasRoom sizes
          { incoming with
            qty := .ofNat (incoming.size -
              total (allGrants (market.sweep mode incoming))) }
      · rw [if_pos ⟨absent, room⟩, if_pos room]
      · rw [if_neg fun accepts => room accepts.2, if_neg room]
    · rw [if_neg rests, if_neg fun all => rests all.2]
      exact (if_neg rejects).symm

/-- What is left of an order is discarded exactly when a pool is short. -/
theorem discarded_iff (valid : market.Valid) (sizes : PoolSizes)
    (left : market.leftover? mode incoming = some order) :
    (market.matchOrder sizes mode incoming).market.find? order.orderId =
        none ↔
      (market.traded mode incoming).shortage? sizes order ≠ none := by
  have absent := (leaves_of_leftover? valid left).absent
  have traded := (changed_applyFills valid ((allGrants
    (market.sweep mode incoming)).map (fillEvent incoming))).valid valid
  have after := matchOrder_leftover valid sizes mode incoming
  rw [left] at after
  dsimp only at after
  rw [after, ne_eq, shortage?_eq_none]
  by_cases room : (market.traded mode incoming).HasRoom sizes order
  · rw [if_pos room]
    have found : ((market.traded mode incoming).insert order).find?
        order.orderId = some order :=
      (Valid.insert traded absent).find?_eq_some_iff.mpr
        ⟨rests_insert.mpr (.inr rfl), rfl⟩
    rw [found]
    simp [room]
  · rw [if_neg room]
    exact iff_of_true absent room

section Renamed

variable {names : Renaming} {renamed : Market}

theorem Renames.traded (renames : market.Renames names renamed)
    (valid : market.Valid) (priced : market.PricedIn names.prices)
    (limit : incoming.price ∈ names.prices) :
    (market.traded mode incoming).Renames names
      (renamed.traded mode (names.order incoming)) := by
  rw [Market.traded, Market.traded, renames.sweep valid priced limit,
    names.allGrants_map, names.fillEvents_map]
  exact renames.applyFills _

theorem Renames.leftover? (renames : market.Renames names renamed)
    (valid : market.Valid) (priced : market.PricedIn names.prices)
    (limit : incoming.price ∈ names.prices) :
    renamed.leftover? mode (names.order incoming) =
      (market.leftover? mode incoming).map names.order := by
  have changed := changed_applyFills valid
    ((allGrants (market.sweep mode incoming)).map (fillEvent incoming))
  have traded := @Renames.traded _ _ mode _ _ renames valid priced limit
  have blocks := @Renames.blocks _ _ _ incoming traded (changed.valid valid)
    (priced.changed changed) limit
  have rejects := @Renames.rejects mode _ _ _ _ renames valid priced limit
  have remaining : (names.order incoming).size -
      total (allGrants (renamed.sweep mode (names.order incoming))) =
      incoming.size - total (allGrants (market.sweep mode incoming)) := by
    rw [renames.sweep valid priced limit, names.allGrants_map,
      names.total_map]
    rfl
  have patient : (names.order incoming).tif = incoming.tif := rfl
  simp only [Market.leftover?, remaining, blocks, rejects, patient]
  rw [apply_ite (Option.map names.order)]
  rfl

theorem Renames.shortage? (renames : market.Renames names renamed)
    (valid : market.Valid) (priced : market.PricedIn names.prices)
    (limit : order.price ∈ names.prices) :
    renamed.shortage? sizes (names.order order) =
      market.shortage? sizes order := by
  have room := @Renames.hasRoom _ _ _ _ sizes renames valid priced limit
  rw [Market.shortage?, Market.shortage?, renames.orderCount]
  by_cases has : market.HasRoom sizes order
  · rw [if_pos has, if_pos (room.mpr has)]
  · rw [if_neg has, if_neg fun other => has (room.mp other)]

theorem Renames.matchShortage? (renames : market.Renames names renamed)
    (valid : market.Valid) (priced : market.PricedIn names.prices)
    (limit : incoming.price ∈ names.prices) :
    renamed.matchShortage? sizes mode (names.order incoming) =
      market.matchShortage? sizes mode incoming := by
  have traded := @Renames.traded _ _ mode _ _ renames valid priced limit
  have changed := changed_applyFills valid
    ((allGrants (market.sweep mode incoming)).map (fillEvent incoming))
  rw [Market.matchShortage?, renames.leftover? valid priced limit,
    Market.matchShortage?, Option.bind_map]
  apply Option.bind_congr
  intro order left
  apply traded.shortage? (changed.valid valid) (priced.changed changed)
  rw [(leaves_of_leftover? valid left).terms]
  exact limit

theorem Renames.replaceShortage? (renames : market.Renames names renamed)
    (valid : market.Valid) (priced : market.PricedIn names.prices)
    (orderId : UInt64) {newPrice : Int64}
    (limit : newPrice ∈ names.prices) (newQty : UInt32) :
    renamed.replaceShortage? sizes mode (names.orderId orderId)
        (names.price newPrice) newQty =
      market.replaceShortage? sizes mode orderId newPrice newQty := by
  rw [Market.replaceShortage?, Market.replaceShortage?, renames.find?]
  cases found : market.find? orderId with
  | none => rfl
  | some existing =>
      have rests := (valid.find?_eq_some_iff.mp found).1
      have keeps : KeepsPriority (names.order existing)
          (names.price newPrice) newQty ↔
          KeepsPriority existing newPrice newQty :=
        and_congr_left fun _ => names.price_eq limit (priced existing rests)
      have cancelled := renames.cancel orderId
      have changed := changed_cancel market orderId
      have again := @Renames.matchShortage? sizes _ (reentry existing newPrice
        newQty) mode _ _ cancelled (valid.cancel orderId)
        (priced.changed changed) limit
      dsimp only [Option.map_some]
      by_cases kept : newQty = 0 ∨ KeepsPriority existing newPrice newQty
      · rw [if_pos kept, if_pos (kept.imp_right keeps.mpr)]
      · rw [if_neg kept, if_neg fun other => kept (other.imp_right keeps.mp)]
        exact again

end Renamed

/-- All orders that rest have one of the ids and one of the prices. -/
structure Confined (ids : Set UInt64) (prices : Set Int64)
    (market : Market) : Prop where
  named : ∀ order, market.Rests order → order.orderId ∈ ids
  priced : ∀ order, market.Rests order → order.price ∈ prices

variable {ids : Finset UInt64} {prices : Finset Int64}

theorem empty_confined (ids : Set UInt64) (prices : Set Int64) :
    empty.Confined ids prices where
  named order rests := by
    have impossible : order ∈ empty.orders order.side := rests
    simp [orders, empty] at impossible
  priced order rests := by
    have impossible : order ∈ empty.orders order.side := rests
    simp [orders, empty] at impossible

theorem Confined.changed {ids : Set UInt64} {prices : Set Int64}
    (confined : market.Confined ids prices) (changed : market.Changed next) :
    next.Confined ids prices where
  named order rests := by
    obtain ⟨old, oldRests, terms, _⟩ := changed.rests rests
    rw [terms]
    exact confined.named old oldRests
  priced order rests := by
    obtain ⟨old, oldRests, terms, _⟩ := changed.rests rests
    rw [terms]
    exact confined.priced old oldRests

theorem Confined.moves {ids : Set UInt64} {prices : Set Int64}
    (confined : market.Confined ids prices)
    (moves : Moves incoming market next)
    (named : incoming.tif = .gtc → incoming.orderId ∈ ids)
    (priced : incoming.tif = .gtc → incoming.price ∈ prices) :
    next.Confined ids prices := by
  cases moves with
  | settled changed => exact confined.changed changed
  | arrived changed absent patient positive unblocked =>
      have swept := confined.changed changed
      constructor
      case named =>
        intro order rests
        rcases rests_insert.mp rests with old | rfl
        · exact swept.named order old
        · exact named patient
      case priced =>
        intro order rests
        rcases rests_insert.mp rests with old | rfl
        · exact swept.priced order old
        · exact priced patient

theorem length_lt_card {Element : Type} [DecidableEq Element]
    {elements : List Element} {few : Finset Element} {element : Element}
    (nodup : elements.Nodup) (covered : ∀ other ∈ elements, other ∈ few)
    (member : element ∈ few) (missing : element ∉ elements) :
    elements.length < few.card := by
  rw [← List.toFinset_card_of_nodup nodup]
  apply Finset.card_lt_card
  rw [Finset.ssubset_iff_of_subset]
  · exact ⟨element, member, fun listed => missing (List.mem_toFinset.mp listed)⟩
  · intro other listed
    exact covered other (List.mem_toFinset.mp listed)

/-- As long as one of the ids does not rest there is a slot for its order. -/
theorem Confined.orderCount_lt {prices : Set Int64}
    (confined : market.Confined ids prices) (valid : market.Valid)
    {orderId : UInt64} (member : orderId ∈ ids)
    (absent : market.find? orderId = none) : market.orderCount < ids.card := by
  have length : ((market.orders .buy ++ market.orders .sell).map
      Order.orderId).length = market.orderCount := by
    rw [List.length_map, List.length_append, orderCount]
  rw [← length]
  refine length_lt_card valid.ids_nodup ?_ member ?_
  · intro other listed
    obtain ⟨order, rests, rfl⟩ := List.mem_map.mp listed
    exact confined.named order (valid.mem_all.mp rests)
  · intro listed
    obtain ⟨order, rests, same⟩ := List.mem_map.mp listed
    exact valid.find?_eq_none_iff.mp absent order (valid.mem_all.mp rests) same

/-- The prices of the levels of a side. -/
def listedPrices (market : Market) (side : Side) : List Int64 :=
  (market.ladder side).entries.map Prod.fst

theorem Valid.mem_listedPrices (valid : market.Valid) {side : Side}
    {price : Int64} :
    price ∈ market.listedPrices side ↔
      ∃ order ∈ market.orders side, order.price = price := by
  rw [listedPrices, List.mem_map]
  constructor
  · intro listed
    obtain ⟨entry, member, rfl⟩ := listed
    obtain ⟨order, queued⟩ :=
      List.exists_mem_of_ne_nil _ (valid.populated member)
    exact ⟨order, mem_orders.mpr ⟨_, _, member, queued⟩,
      (valid.placed member queued).1⟩
  · intro rests
    obtain ⟨order, member, rfl⟩ := rests
    obtain ⟨price, queue, listed, queued⟩ := mem_orders.mp member
    exact ⟨(price, queue), listed, (valid.placed listed queued).1.symm⟩

theorem Sound.listedPrices_nodup (sound : market.Sound) :
    (market.listedPrices .buy ++ market.listedPrices .sell).Nodup := by
  have sides : ∀ side, (market.listedPrices side).Nodup := by
    intro side
    refine (SortedMap.keys_sorted (market.ladder side)).imp ?_
    intro left right better same
    rw [same] at better
    exact Std.Irrefl.irrefl right better
  refine List.nodup_append.mpr ⟨sides .buy, sides .sell, ?_⟩
  intro price bought other sold same
  obtain ⟨bid, bidMember, rfl⟩ := sound.mem_listedPrices.mp bought
  obtain ⟨ask, askMember, rfl⟩ := sound.mem_listedPrices.mp sold
  have apart := sound.uncrossed bidMember askMember
  rw [same] at apart
  exact Int64.lt_irrefl apart

theorem Sound.price_unlisted (sound : market.Sound)
    (unblocked : market.blocks order = false) :
    order.price ∉ market.listedPrices order.side.opposite := by
  intro listed
  obtain ⟨other, member, same⟩ := sound.mem_listedPrices.mp listed
  have apart := sound.blocks_eq_false unblocked member
  have crossing : crosses other.price order = true := by
    rw [crosses_iff, same]
    cases order.side <;> exact Int.le_refl _
  rw [apart] at crossing
  cases crossing

theorem Confined.levelCount_lt {ids : Set UInt64}
    (confined : market.Confined ids prices) (sound : market.Sound)
    (member : order.price ∈ prices) (unblocked : market.blocks order = false)
    (unlisted : order.price ∉ market.listedPrices order.side) :
    market.levelCount < prices.card := by
  have length : (market.listedPrices .buy ++ market.listedPrices .sell).length =
      market.levelCount := by
    rw [List.length_append, listedPrices, listedPrices, List.length_map,
      List.length_map, levelCount]
  have far := sound.price_unlisted unblocked
  rw [← length]
  refine length_lt_card sound.listedPrices_nodup ?_ member ?_
  · intro price listed
    have rests : ∃ side, ∃ order ∈ market.orders side, order.price = price := by
      rcases List.mem_append.mp listed with bought | sold
      · exact ⟨.buy, sound.mem_listedPrices.mp bought⟩
      · exact ⟨.sell, sound.mem_listedPrices.mp sold⟩
    obtain ⟨side, order, rests, rfl⟩ := rests
    exact confined.priced order (sound.mem_orders_iff.mp rests).1
  · intro listed
    cases sideEq : order.side with
    | buy =>
        rw [sideEq] at unlisted far
        exact (List.mem_append.mp listed).elim unlisted far
    | sell =>
        rw [sideEq] at unlisted far
        exact (List.mem_append.mp listed).elim far unlisted

/-- What is left of an order with one of the ids finds a free order slot. -/
theorem Confined.no_orders {prices : Set Int64}
    (confined : market.Confined ids prices) (valid : market.Valid)
    (enough : ids.card ≤ sizes.orders) (member : order.orderId ∈ ids)
    (absent : market.find? order.orderId = none) :
    market.shortage? sizes order ≠ some .orders := by
  have spare := (confined.orderCount_lt valid member absent).trans_le enough
  rw [shortage?, if_pos spare]
  split <;> simp

/-- What is left of an order with one of the prices finds a free level. -/
theorem Confined.no_levels {ids : Set UInt64}
    (confined : market.Confined ids prices) (sound : market.Sound)
    (enough : prices.card ≤ sizes.levels) (member : order.price ∈ prices)
    (unblocked : market.blocks order = false) :
    market.shortage? sizes order ≠ some .levels := by
  have levels : ((market.ladder order.side).find? order.price).isSome ∨
      market.levelCount < sizes.levels := by
    by_cases listed : order.price ∈ market.listedPrices order.side
    · exact .inl (SortedMap.mem_keys.mp listed)
    · exact .inr ((confined.levelCount_lt sound member unblocked
        listed).trans_le enough)
  rw [shortage?]
  by_cases spare : market.orderCount < sizes.orders
  · rw [if_pos ⟨spare, levels⟩]
    simp
  · rw [if_neg fun room => spare room.1, if_neg spare]
    simp

theorem Confined.match_no_orders {prices : Set Int64}
    (confined : market.Confined ids prices) (sound : market.Sound)
    (enough : ids.card ≤ sizes.orders)
    (named : incoming.tif = .gtc → incoming.orderId ∈ ids) :
    market.matchShortage? sizes mode incoming ≠ some .orders := by
  rw [matchShortage?]
  cases left : market.leftover? mode incoming with
  | none => simp
  | some order =>
      obtain ⟨terms, patient, _, absent, _⟩ :=
        leaves_of_leftover? sound.toValid left
      have swept := changed_applyFills sound.toValid ((allGrants
        (market.sweep mode incoming)).map (fillEvent incoming))
      have member : order.orderId ∈ ids := by
        rw [terms]
        exact named patient
      exact (confined.changed swept).no_orders (swept.valid sound.toValid)
        enough member absent

theorem Confined.match_no_levels {ids : Set UInt64}
    (confined : market.Confined ids prices) (sound : market.Sound)
    (enough : prices.card ≤ sizes.levels)
    (priced : incoming.tif = .gtc → incoming.price ∈ prices) :
    market.matchShortage? sizes mode incoming ≠ some .levels := by
  rw [matchShortage?]
  cases left : market.leftover? mode incoming with
  | none => simp
  | some order =>
      obtain ⟨terms, patient, _, _, unblocked⟩ :=
        leaves_of_leftover? sound.toValid left
      have swept := changed_applyFills sound.toValid ((allGrants
        (market.sweep mode incoming)).map (fillEvent incoming))
      have member : order.price ∈ prices := by
        rw [terms]
        exact priced patient
      exact (confined.changed swept).no_levels (sound.changed swept) enough
        member unblocked

end Market

end Hydra
