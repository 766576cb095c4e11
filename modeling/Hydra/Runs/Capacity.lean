import Hydra.Match.Exhaustion
import Hydra.Runs.Mirror
import Hydra.Runs.Renaming

/-!
# Exhaustions over whole runs

The exhaustion counters of the pools count the messages of which something was
to come to rest and was discarded, and nothing else.  When the ids of the
orders that may rest are no more than there are order slots, and their prices
no more than there are levels, nothing is ever discarded.
-/

namespace Hydra

variable {sizes : PoolSizes}

/-- Orders that may rest have one of the ids and one of the prices. -/
def Message.Within (ids : Set UInt64) (prices : Set Int64) : Message → Prop
  | new incoming =>
      incoming.tif = .gtc → incoming.orderId ∈ ids ∧ incoming.price ∈ prices
  | replace _ newPrice _ => newPrice ∈ prices
  | cancel _ | setMode _ => True

namespace Venue

variable {venue : Venue} {message : Message}

/-- What is to come to rest after a message. -/
def leftover? (venue : Venue) : Message → Option Order
  | .new incoming => venue.market.leftover? venue.mode incoming
  | .replace orderId newPrice newQty =>
      match venue.market.find? orderId with
      | none => none
      | some existing =>
          if newQty = 0 ∨ Market.KeepsPriority existing newPrice newQty then
            none
          else
            (venue.market.cancel orderId).leftover? venue.mode
              (Market.reentry existing newPrice newQty)
  | .cancel _ | .setMode _ => none

/-- The shortage that a message meets. -/
def shortage? (sizes : PoolSizes) (venue : Venue) :
    Message → Option Shortage
  | .new incoming => venue.market.matchShortage? sizes venue.mode incoming
  | .replace orderId newPrice newQty =>
      venue.market.replaceShortage? sizes venue.mode orderId newPrice newQty
  | .cancel _ | .setMode _ => none

/-- Something is to come to rest after the message and does not. -/
def Discards (sizes : PoolSizes) (venue : Venue) (message : Message) : Prop :=
  ∃ order ∈ venue.leftover? message,
    (venue.after sizes message.call).market.find? order.orderId = none

instance (sizes : PoolSizes) (venue : Venue) (message : Message) :
    Decidable (venue.Discards sizes message) :=
  inferInstanceAs (Decidable (∃ order ∈ _, _))

/-- How many of the messages something is discarded of. -/
def discarded (sizes : PoolSizes) (venue : Venue) : List Message → Nat
  | [] => 0
  | message :: rest =>
      (if venue.Discards sizes message then 1 else 0) +
        discarded sizes (venue.after sizes message.call) rest

/-- How many of the messages meet a shortage of the pool. -/
def shortages (sizes : PoolSizes) (pool : Shortage) (venue : Venue) :
    List Message → Nat
  | [] => 0
  | message :: rest =>
      pool.count (venue.shortage? sizes message) +
        shortages sizes pool (venue.after sizes message.call) rest

theorem discards_iff (valid : venue.market.Valid) :
    venue.Discards sizes message ↔ venue.shortage? sizes message ≠ none := by
  have discarded_match : ∀ {market : Market} {mode : MatchingMode}
      {incoming : Order}, market.Valid →
      ((∃ order ∈ market.leftover? mode incoming,
          (market.matchOrder sizes mode incoming).market.find? order.orderId =
            none) ↔
        market.matchShortage? sizes mode incoming ≠ none) := by
    intro market mode incoming valid
    rw [Market.matchShortage?]
    cases left : market.leftover? mode incoming with
    | none => simp
    | some order => simp [Market.discarded_iff valid sizes left]
  cases message with
  | cancel | setMode => simp [Discards, leftover?, shortage?]
  | new incoming => exact discarded_match valid
  | replace orderId newPrice newQty =>
      rw [Discards, leftover?, shortage?, Market.replaceShortage?]
      change (∃ order : Order, order ∈ _ ∧ (Market.replace sizes venue.mode
        orderId newPrice newQty venue.market).market.find? order.orderId =
          none) ↔ _
      rw [Market.replace]
      cases found : venue.market.find? orderId with
      | none => simp
      | some existing =>
          dsimp only
          by_cases keeps : newQty = 0 ∨
              Market.KeepsPriority existing newPrice newQty
          · rw [if_pos keeps, if_pos keeps]
            simp
          · have inPlace : ¬ (newPrice = existing.price ∧
                newQty ≤ existing.qty) :=
              fun held => keeps (.inr held)
            rw [if_neg keeps, if_neg keeps,
              if_neg fun zero => keeps (.inl zero), if_neg inPlace]
            exact discarded_match (valid.cancel orderId)

theorem discarded_eq (sound : venue.market.Sound) (messages : List Message) :
    venue.discarded sizes messages =
      venue.shortages sizes .orders messages +
        venue.shortages sizes .levels messages := by
  induction messages generalizing venue with
  | nil => rfl
  | cons message rest induction =>
      have one : (if venue.Discards sizes message then 1 else 0) =
          Shortage.orders.count (venue.shortage? sizes message) +
            Shortage.levels.count (venue.shortage? sizes message) := by
        have discards := @discards_iff sizes venue message sound.toValid
        cases shortage : venue.shortage? sizes message with
        | none =>
            rw [if_neg fun lost => discards.mp lost shortage]
            rfl
        | some pool =>
            rw [if_pos (discards.mpr (by simp [shortage]))]
            cases pool <;> rfl
      rw [discarded, shortages, shortages, one,
        induction (after_sound sound message.call_trades)]
      omega

theorem shortages_append (pool : Shortage) (venue : Venue)
    (first second : List Message) :
    venue.shortages sizes pool (first ++ second) =
      venue.shortages sizes pool first +
        (venue.afterAll sizes first).shortages sizes pool second := by
  induction first generalizing venue with
  | nil => exact (Nat.zero_add _).symm
  | cons message rest induction =>
      rw [List.cons_append, shortages, induction, shortages, Nat.add_assoc]
      rfl

theorem discarded_le (venue : Venue) (messages : List Message) :
    venue.discarded sizes messages ≤ messages.length := by
  induction messages generalizing venue with
  | nil => exact le_rfl
  | cons message rest induction =>
      have more := induction (venue.after sizes message.call)
      rw [discarded, List.length_cons]
      split <;> omega

section Renamed

variable {names : Renaming} {renamed : Venue}

theorem Renames.shortage? (renames : venue.Renames names renamed)
    (priced : message.PricedIn names.prices) :
    renamed.shortage? sizes (names.message message) =
      venue.shortage? sizes message := by
  have valid := renames.sound.toValid
  have mode := renames.mode
  cases message with
  | new incoming =>
      change renamed.market.matchShortage? sizes renamed.mode _ = _
      rw [mode]
      exact renames.market.matchShortage? valid renames.priced priced
  | replace orderId newPrice newQty =>
      change renamed.market.replaceShortage? sizes renamed.mode _ _ _ = _
      rw [mode]
      exact renames.market.replaceShortage? valid renames.priced orderId priced
        newQty
  | cancel | setMode => rfl

/-- Renamed messages meet the same shortages. -/
theorem Renames.shortages (renames : venue.Renames names renamed)
    (pool : Shortage) {messages : List Message}
    (priced : ∀ message ∈ messages, message.PricedIn names.prices) :
    renamed.shortages sizes pool (messages.map names.message) =
      venue.shortages sizes pool messages := by
  induction messages generalizing venue renamed with
  | nil => rfl
  | cons message rest induction =>
      have first := priced message List.mem_cons_self
      have later := induction (@Renames.after sizes _ _ _ _ renames first)
        fun other member => priced other (List.mem_cons_of_mem _ member)
      rw [List.map_cons, Venue.shortages, Venue.shortages, later,
        renames.shortage? first]

end Renamed

end Venue

namespace Matcher

variable {matcher : Matcher sizes}

theorem respond_exhaustion (wellFormed : matcher.book.WellFormed)
    (message : Message) :
    Ensures (matcher.respond message) fun answer =>
      OrderBook.Counts (matcher.venue.shortage? sizes message) matcher.book
        answer.2.book := by
  obtain ⟨layout, settled⟩ := wellFormed
  cases message with
  | new incoming =>
      apply (OrderBook.matchOrder_exhaustion settled matcher.load incoming).bind
      intro result counts
      exact .ok counts
  | cancel orderId =>
      apply (matcher.book.cancelOrder_counts orderId).bind
      intro cancelled same
      exact .ok same.counts
  | replace orderId newPrice newQty =>
      apply (OrderBook.replace_exhaustion settled matcher.load orderId newPrice
        newQty).bind
      intro result counts
      exact .ok counts
  | setMode mode => exact .ok (OrderBook.SameCounts.refl _).counts

/-- The counters count the shortages. -/
theorem replay_shortages (wellFormed : matcher.book.WellFormed)
    (messages : List Message) :
    ∃ final,
      matcher.replay messages =
        .ok (matcher.venue.responses sizes messages, final) ∧
      final.book.orderPool.exhaustionCount =
        matcher.book.orderPool.exhaustionCount +
          .ofNat (matcher.venue.shortages sizes .orders messages) ∧
      final.book.levelPool.exhaustionCount =
        matcher.book.levelPool.exhaustionCount +
          .ofNat (matcher.venue.shortages sizes .levels messages) := by
  induction messages generalizing matcher with
  | nil =>
      exact ⟨matcher, rfl, (UInt64.add_zero _).symm, (UInt64.add_zero _).symm⟩
  | cons message rest induction =>
      obtain ⟨next, answered, nextFormed, nextVenue⟩ :=
        respond_spec wellFormed message
      have counts := (respond_exhaustion wellFormed message).returned answered
      obtain ⟨final, replayed, orders, levels⟩ := induction nextFormed
      rw [nextVenue] at replayed orders levels
      refine ⟨final, ?_, ?_, ?_⟩
      · rw [replay, answered, ok_bind]
        change (next.replay rest >>= _) = _
        rw [replayed]
        rfl
      · rw [orders, counts.orders, Venue.shortages, UInt64.ofNat_add,
          UInt64.add_assoc]
      · rw [levels, counts.levels, Venue.shortages, UInt64.ofNat_add,
          UInt64.add_assoc]

/-- The counter of a pool counts the messages that meet a shortage of it, up
to its 64 bits.  Something is discarded of a message exactly if it meets a
shortage, and never of both pools. -/
theorem replay_exhaustions (sizes : PoolSizes) (mode : MatchingMode)
    (messages : List Message) :
    ∃ responses, ∃ final : Matcher sizes,
      (start mode).replay messages = .ok (responses, final) ∧
      final.book.orderPool.exhaustionCount =
        .ofNat (Venue.shortages sizes .orders { market := .empty, mode }
          messages) ∧
      final.book.levelPool.exhaustionCount =
        .ofNat (Venue.shortages sizes .levels { market := .empty, mode }
          messages) ∧
      Venue.discarded sizes { market := .empty, mode } messages =
        Venue.shortages sizes .orders { market := .empty, mode } messages +
          Venue.shortages sizes .levels { market := .empty, mode }
            messages := by
  obtain ⟨final, replayed, orders, levels⟩ :=
    replay_shortages (@start_wellFormed sizes mode) messages
  have sound : (Venue.mk .empty mode).market.Sound := Market.empty_sound
  refine ⟨_, final, replayed, ?_, ?_, Venue.discarded_eq sound messages⟩
  · rw [orders, start_venue]
    exact UInt64.zero_add _
  · rw [levels, start_venue]
    exact UInt64.zero_add _

end Matcher

namespace Venue

variable {venue : Venue} {message : Message}

theorem after_confined {ids : Set UInt64} {prices : Set Int64}
    (sound : venue.market.Sound)
    (confined : venue.market.Confined ids prices)
    (within : message.Within ids prices) :
    (venue.after sizes message.call).market.Confined ids prices := by
  cases message with
  | new incoming =>
      exact confined.moves
        (Market.matchOrder_moves venue.mode incoming sound.toValid)
        (fun patient => (within patient).1) (fun patient => (within patient).2)
  | cancel orderId =>
      exact confined.changed (Market.changed_cancel venue.market orderId)
  | replace orderId newPrice newQty =>
      rcases @Market.replace_moves sizes venue.market venue.mode orderId
        newPrice newQty sound.toValid with ⟨changed, _⟩ |
        ⟨existing, found, _, moves⟩
      · exact confined.changed changed
      · have rests := (sound.find?_eq_some_iff.mp found).1
        have cancelled := Market.changed_cancel venue.market orderId
        exact (confined.changed cancelled).moves moves
          (fun _ => confined.named existing rests) (fun _ => within)
  | setMode mode => exact confined

theorem shortages_eq_zero {ids : Set UInt64} {prices : Set Int64}
    {pool : Shortage}
    (spared : ∀ {market : Market} {mode : MatchingMode} {incoming : Order},
      market.Sound → market.Confined ids prices →
      (Message.new incoming).Within ids prices →
      market.matchShortage? sizes mode incoming ≠ some pool)
    {messages : List Message}
    (within : ∀ message ∈ messages, message.Within ids prices)
    (sound : venue.market.Sound)
    (confined : venue.market.Confined ids prices) :
    venue.shortages sizes pool messages = 0 := by
  induction messages generalizing venue with
  | nil => rfl
  | cons message rest induction =>
      have first := within message List.mem_cons_self
      have enough : venue.shortage? sizes message ≠ some pool := by
        cases message with
        | new incoming => exact spared sound confined first
        | cancel | setMode => simp [shortage?]
        | replace orderId newPrice newQty =>
            rw [shortage?, Market.replaceShortage?]
            cases found : venue.market.find? orderId with
            | none => simp
            | some existing =>
                have rests := (sound.find?_eq_some_iff.mp found).1
                have cancelled := Market.changed_cancel venue.market orderId
                dsimp only
                split
                next => simp
                next =>
                  exact spared (sound.changed cancelled)
                    (confined.changed cancelled)
                    fun _ => ⟨confined.named existing rests, first⟩
      rw [shortages, Shortage.count, if_neg enough, Nat.zero_add]
      exact induction
        (fun other member => within other (List.mem_cons_of_mem _ member))
        (after_sound sound message.call_trades)
        (after_confined sound confined first)

/-- As many order slots as ids are enough. -/
theorem shortages_orders {ids : Finset UInt64} {prices : Set Int64}
    (enough : ids.card ≤ sizes.orders) {messages : List Message}
    (within : ∀ message ∈ messages, message.Within ids prices)
    (sound : venue.market.Sound)
    (confined : venue.market.Confined ids prices) :
    venue.shortages sizes .orders messages = 0 :=
  shortages_eq_zero (fun sound confined first =>
    confined.match_no_orders sound enough fun patient => (first patient).1)
    within sound confined

/-- As many levels as prices are enough. -/
theorem shortages_levels {ids : Set UInt64} {prices : Finset Int64}
    (enough : prices.card ≤ sizes.levels) {messages : List Message}
    (within : ∀ message ∈ messages, message.Within ids prices)
    (sound : venue.market.Sound)
    (confined : venue.market.Confined ids prices) :
    venue.shortages sizes .levels messages = 0 :=
  shortages_eq_zero (fun sound confined first =>
    confined.match_no_levels sound enough fun patient => (first patient).2)
    within sound confined

end Venue

namespace Matcher

/-- With as many order slots as ids and as many levels as prices no pool is
ever exhausted, and everything that is to come to rest does. -/
theorem replay_capacity (sizes : PoolSizes) (mode : MatchingMode)
    {ids : Finset UInt64} {prices : Finset Int64}
    (slots : ids.card ≤ sizes.orders) (levels : prices.card ≤ sizes.levels)
    {messages : List Message}
    (within : ∀ message ∈ messages, message.Within ids prices) :
    ∃ responses, ∃ final : Matcher sizes,
      (start mode).replay messages = .ok (responses, final) ∧
      final.book.orderPool.exhaustionCount = 0 ∧
      final.book.levelPool.exhaustionCount = 0 ∧
      Venue.discarded sizes { market := .empty, mode } messages = 0 := by
  have sound : (Venue.mk .empty mode).market.Sound := Market.empty_sound
  have confined : (Venue.mk .empty mode).market.Confined ids prices :=
    Market.empty_confined _ _
  have no_orders := @Venue.shortages_orders sizes _ ids prices slots messages
    within sound confined
  have no_levels := @Venue.shortages_levels sizes _ ids prices levels messages
    within sound confined
  obtain ⟨final, replayed, orderCount, levelCount⟩ :=
    replay_shortages (@start_wellFormed sizes mode) messages
  rw [start_venue, no_orders] at orderCount
  rw [start_venue, no_levels] at levelCount
  refine ⟨_, final, replayed, orderCount, levelCount, ?_⟩
  rw [Venue.discarded_eq sound, no_orders, no_levels]

/-- Three ids and two prices, as many as there are slots. -/
theorem replay_capacity_session :
    ∃ responses, ∃ final : Matcher sessionSizes,
      (start .priceTime).replay sessionMessages = .ok (responses, final) ∧
      final.book.orderPool.exhaustionCount = 0 ∧
      final.book.levelPool.exhaustionCount = 0 ∧
      Venue.discarded sessionSizes { market := .empty, mode := .priceTime }
        sessionMessages = 0 :=
  @replay_capacity sessionSizes .priceTime {1, 2, 3} {100, 101} le_rfl le_rfl
    sessionMessages (by
      intro message member
      simp only [sessionMessages, List.mem_cons, List.not_mem_nil, or_false]
        at member
      rcases member with rfl | rfl | rfl | rfl <;>
        simp [Message.Within, sessionOrder])

end Matcher

end Hydra
