import Hydra.Market.Renaming
import Hydra.Runs.Mirror

/-!
# Renamed runs

The engine reads ids only to compare them, prices only to order them, and time
stamps and client tags not at all.  So renamed messages get the renamed
responses and lead to the renamed book; and messages that differ in their
stamps and tags only are answered alike, which is what a comparison of trials
rests on.
-/

namespace Hydra

variable {sizes : PoolSizes}

namespace Renaming

def message (names : Renaming) : Message → Message
  | .new incoming => .new (names.order incoming)
  | .cancel orderId => .cancel (names.orderId orderId)
  | .replace orderId newPrice newQty =>
      .replace (names.orderId orderId) (names.price newPrice) newQty
  | .setMode mode => .setMode mode

def response (names : Renaming) (response : Response) : Response :=
  { response with fills := response.fills.map names.fill }

end Renaming

/-- The price of the message, if it has one, is of the set. -/
def Message.PricedIn (prices : Set Int64) : Message → Prop
  | .new incoming => incoming.price ∈ prices
  | .replace _ newPrice _ => newPrice ∈ prices
  | _ => True

namespace Venue

/-- The states of a run and of the renamed run. -/
structure Renames (names : Renaming) (venue renamed : Venue) : Prop where
  market : venue.market.Renames names renamed.market
  mode : renamed.mode = venue.mode
  sound : venue.market.Sound
  priced : venue.market.PricedIn names.prices

variable {names : Renaming} {venue renamed : Venue} {message : Message}

theorem Renames.outcome (renames : venue.Renames names renamed)
    (priced : message.PricedIn names.prices) :
    (venue.outcome sizes message.call).Renames names
      (renamed.outcome sizes (names.message message).call) := by
  have valid := renames.sound.toValid
  cases message with
  | new incoming =>
      change Outcome.Renames _ _ (renamed.market.matchOrder _ renamed.mode _)
      rw [renames.mode]
      exact renames.market.matchOrder valid renames.priced priced
  | cancel orderId => exact ⟨renames.market.cancel orderId, rfl, rfl⟩
  | replace orderId newPrice newQty =>
      change Outcome.Renames _ _
        (renamed.market.replace _ renamed.mode _ _ _)
      rw [renames.mode]
      exact renames.market.replace valid renames.priced orderId priced newQty
  | setMode mode => exact ⟨renames.market, rfl, rfl⟩

theorem Renames.respond (renames : venue.Renames names renamed)
    (priced : message.PricedIn names.prices) :
    renamed.respond sizes (names.message message) =
      names.response (venue.respond sizes message) := by
  have outcome := @Renames.outcome sizes _ _ _ _ renames priced
  have reply : renamed.reply sizes (names.message message) =
      venue.reply sizes message := by
    cases message with
    | new incoming => exact congrArg Reply.stats outcome.stats
    | replace orderId newPrice newQty =>
        exact congrArg Reply.stats outcome.stats
    | cancel orderId =>
        change Reply.found
          (renamed.market.find? (names.orderId orderId)).isSome = _
        rw [renames.market.find?, Option.isSome_map]
        rfl
    | setMode mode => rfl
  rw [Venue.respond, reply, outcome.fills]
  rfl

theorem after_pricedIn {prices : Set Int64} (sound : venue.market.Sound)
    (kept : venue.market.PricedIn prices) (priced : message.PricedIn prices) :
    (venue.after sizes message.call).market.PricedIn prices := by
  cases message with
  | new incoming =>
      exact kept.moves priced
        (Market.matchOrder_moves venue.mode incoming sound.toValid)
  | cancel orderId =>
      exact kept.changed (Market.changed_cancel venue.market orderId)
  | replace orderId newPrice newQty =>
      rcases @Market.replace_moves sizes _ venue.mode orderId newPrice newQty
          sound.toValid with ⟨changed, _⟩ | ⟨existing, _, _, moves⟩
      · exact kept.changed changed
      · have cancelled :=
          kept.changed (Market.changed_cancel venue.market orderId)
        have limit :
            (Market.reentry existing newPrice newQty).price ∈ prices := priced
        exact cancelled.moves limit moves
  | setMode mode => exact kept

theorem Renames.after (renames : venue.Renames names renamed)
    (priced : message.PricedIn names.prices) :
    (venue.after sizes message.call).Renames names
      (renamed.after sizes (names.message message).call) where
  market := (renames.outcome priced).market
  mode := by
    cases message with
    | setMode mode => rfl
    | _ => exact renames.mode
  sound := after_sound renames.sound message.call_trades
  priced := after_pricedIn renames.sound renames.priced priced

theorem Renames.responses (renames : venue.Renames names renamed)
    {messages : List Message}
    (priced : ∀ message ∈ messages, message.PricedIn names.prices) :
    renamed.responses sizes (messages.map names.message) =
        (venue.responses sizes messages).map names.response ∧
      (venue.afterAll sizes messages).Renames names
        (renamed.afterAll sizes (messages.map names.message)) := by
  induction messages generalizing venue renamed with
  | nil => exact ⟨rfl, renames⟩
  | cons message rest induction =>
      have first := priced message List.mem_cons_self
      obtain ⟨responses, after⟩ := induction (renames.after first)
        fun other member => priced other (List.mem_cons_of_mem _ member)
      refine ⟨?_, after⟩
      rw [List.map_cons, Venue.responses, Venue.responses, List.map_cons,
        responses, renames.respond first]

theorem empty_renames (names : Renaming) (mode : MatchingMode) :
    Renames names { market := .empty, mode } { market := .empty, mode } where
  market := Market.empty_renames names
  mode := rfl
  sound := Market.empty_sound
  priced order rests := by
    have impossible : order ∈ Market.empty.orders order.side := rests
    simp [Market.orders, Market.empty] at impossible

end Venue

namespace Matcher

/-- Renamed messages get renamed responses and lead to the renamed book. -/
theorem replay_renamed (sizes : PoolSizes) (mode : MatchingMode)
    (names : Renaming) {messages : List Message}
    (priced : ∀ message ∈ messages, message.PricedIn names.prices) :
    ∃ responses, ∃ final renamed : Matcher sizes,
      (start mode).replay messages = .ok (responses, final) ∧
      (start mode).replay (messages.map names.message) =
        .ok (responses.map names.response, renamed) ∧
      renamed.mode = final.mode ∧
      ∀ side, (renamed.book.view.ladder side).entries =
        (final.book.view.ladder side).entries.map
          (Prod.map names.price (List.map names.order)) := by
  obtain ⟨final, ran, _, finalVenue⟩ :=
    replay_spec (@start_wellFormed sizes mode) messages
  obtain ⟨renamed, renamedRan, _, renamedVenue⟩ :=
    replay_spec (@start_wellFormed sizes mode) (messages.map names.message)
  obtain ⟨responses, renames⟩ :=
    @Venue.Renames.responses sizes _ _ _ (Venue.empty_renames names mode)
      messages priced
  rw [start_venue] at ran finalVenue renamedRan renamedVenue
  rw [← finalVenue, ← renamedVenue] at renames
  rw [responses] at renamedRan
  exact ⟨_, final, renamed, ran, renamedRan, renames.mode, renames.market⟩

/-- Everything moved: later ids, prices that are higher by `ticks`, and no
stamps.  The moved prices must not overflow. -/
def movedUp (ticks : Int64) : Renaming where
  orderId orderId := orderId + 100
  clientId clientId := clientId + 7
  price price := price + ticks
  timestampNs _ := 0
  clientTag tag := tag
  prices := { price | (price + ticks).toInt = price.toInt + ticks.toInt }
  orderId_injective _ _ := (UInt64.add_left_inj _).mp
  clientId_injective _ _ := (UInt64.add_left_inj _).mp
  price_lt {left right} leftKept rightKept := by
    rw [Int64.lt_iff_toInt_lt, Int64.lt_iff_toInt_lt, leftKept, rightKept]
    omega

theorem replay_renamed_session :
    ∃ responses, ∃ final renamed : Matcher sessionSizes,
      (start .priceTime).replay sessionMessages = .ok (responses, final) ∧
      (start .priceTime).replay
          (sessionMessages.map (movedUp 50).message) =
        .ok (responses.map (movedUp 50).response, renamed) ∧
      renamed.mode = final.mode ∧
      ∀ side, (renamed.book.view.ladder side).entries =
        (final.book.view.ladder side).entries.map
          (Prod.map (movedUp 50).price (List.map (movedUp 50).order)) :=
  replay_renamed sessionSizes .priceTime (movedUp 50) (by
    intro message member
    simp only [sessionMessages, List.mem_cons, List.not_mem_nil, or_false]
      at member
    rcases member with rfl | rfl | rfl | rfl <;> rfl)

end Matcher

/-- Without time stamp and client tag. -/
def Renaming.unstamped : Renaming where
  orderId := id
  clientId := id
  price := id
  timestampNs _ := 0
  clientTag _ := Vector.replicate 32 0
  prices := Set.univ
  orderId_injective := Function.injective_id
  clientId_injective := Function.injective_id
  price_lt _ _ := Iff.rfl

theorem Message.pricedIn_univ (message : Message) :
    message.PricedIn Set.univ := by
  cases message <;> trivial

end Hydra
