import Hydra.Market.Mirror
import Hydra.Runs.Messages

/-!
# Mirrored runs

Every operation is written twice, once for each side.  That the two versions
do the same is said at once for all of them: the mirrored messages get the
mirrored responses and lead to the mirrored book.
-/

namespace Hydra

variable {sizes : PoolSizes}

def Message.mirror : Message → Message
  | new incoming => .new incoming.mirror
  | cancel orderId => .cancel orderId
  | replace orderId newPrice newQty => .replace orderId (-newPrice) newQty
  | setMode mode => .setMode mode

/-- The price of the message, if it has one, can be negated. -/
def Message.Negatable : Message → Prop
  | new incoming => Hydra.Negatable incoming.price
  | replace _ newPrice _ => Hydra.Negatable newPrice
  | _ => True

def Response.mirror (response : Response) : Response :=
  { response with fills := response.fills.map FillEvent.mirror }

namespace Venue

/-- The states of a run and of the mirrored run. -/
structure Mirrors (venue mirrored : Venue) : Prop where
  market : venue.market.Mirrors mirrored.market
  mode : mirrored.mode = venue.mode
  sound : venue.market.Sound
  mirroredSound : mirrored.market.Sound
  negatable : venue.market.AllNegatable

variable {venue mirrored : Venue} {message : Message}

theorem Mirrors.outcome (mirrors : venue.Mirrors mirrored)
    (negatable : message.Negatable) :
    (venue.outcome sizes message.call).Mirrors
      (mirrored.outcome sizes message.mirror.call) := by
  have valid := mirrors.sound.toValid
  have otherValid := mirrors.mirroredSound.toValid
  cases message with
  | new incoming =>
      change Outcome.Mirrors _ (mirrored.market.matchOrder _ mirrored.mode _)
      rw [mirrors.mode]
      exact mirrors.market.matchOrder valid otherValid mirrors.negatable
        negatable
  | cancel orderId => exact ⟨mirrors.market.cancel orderId, rfl, rfl⟩
  | replace orderId newPrice newQty =>
      change Outcome.Mirrors _
        (mirrored.market.replace _ mirrored.mode _ _ _)
      rw [mirrors.mode]
      exact mirrors.market.replace valid otherValid mirrors.negatable orderId
        negatable newQty
  | setMode mode => exact ⟨mirrors.market, rfl, rfl⟩

theorem Mirrors.respond (mirrors : venue.Mirrors mirrored)
    (negatable : message.Negatable) :
    mirrored.respond sizes message.mirror =
      (venue.respond sizes message).mirror := by
  have outcome := @Mirrors.outcome sizes _ _ _ mirrors negatable
  have reply : mirrored.reply sizes message.mirror =
      venue.reply sizes message := by
    cases message with
    | new incoming => exact congrArg Reply.stats outcome.stats
    | replace orderId newPrice newQty =>
        exact congrArg Reply.stats outcome.stats
    | cancel orderId =>
        change Reply.found (mirrored.market.find? orderId).isSome = _
        rw [mirrors.market.find? mirrors.sound.toValid
          mirrors.mirroredSound.toValid, Option.isSome_map]
        rfl
    | setMode mode => rfl
  rw [Venue.respond, reply, outcome.fills]
  rfl

theorem after_allNegatable (sound : venue.market.Sound)
    (all : venue.market.AllNegatable) (negatable : message.Negatable) :
    (venue.after sizes message.call).market.AllNegatable := by
  cases message with
  | new incoming =>
      exact all.moves negatable
        (Market.matchOrder_moves venue.mode incoming sound.toValid)
  | cancel orderId =>
      exact all.changed (Market.changed_cancel venue.market orderId)
  | replace orderId newPrice newQty =>
      rcases @Market.replace_moves sizes _ venue.mode orderId newPrice newQty
          sound.toValid with ⟨changed, _⟩ | ⟨existing, _, _, moves⟩
      · exact all.changed changed
      · have cancelled :=
          all.changed (Market.changed_cancel venue.market orderId)
        have limit : Hydra.Negatable
            (Market.reentry existing newPrice newQty).price := negatable
        exact cancelled.moves limit moves
  | setMode mode => exact all

theorem Mirrors.after (mirrors : venue.Mirrors mirrored)
    (negatable : message.Negatable) :
    (venue.after sizes message.call).Mirrors
      (mirrored.after sizes message.mirror.call) where
  market := (mirrors.outcome negatable).market
  mode := by
    cases message with
    | setMode mode => rfl
    | _ => exact mirrors.mode
  sound := after_sound mirrors.sound message.call_trades
  mirroredSound := after_sound mirrors.mirroredSound message.mirror.call_trades
  negatable := after_allNegatable mirrors.sound mirrors.negatable negatable

theorem Mirrors.responses (mirrors : venue.Mirrors mirrored)
    {messages : List Message}
    (negatable : ∀ message ∈ messages, message.Negatable) :
    mirrored.responses sizes (messages.map Message.mirror) =
        (venue.responses sizes messages).map Response.mirror ∧
      (venue.afterAll sizes messages).Mirrors
        (mirrored.afterAll sizes (messages.map Message.mirror)) := by
  induction messages generalizing venue mirrored with
  | nil => exact ⟨rfl, mirrors⟩
  | cons message rest induction =>
      have first := negatable message List.mem_cons_self
      obtain ⟨responses, after⟩ := induction (mirrors.after first)
        fun other member => negatable other (List.mem_cons_of_mem _ member)
      refine ⟨?_, after⟩
      rw [List.map_cons, Venue.responses, Venue.responses, List.map_cons,
        responses, mirrors.respond first]

theorem empty_mirrors (mode : MatchingMode) :
    Mirrors { market := .empty, mode } { market := .empty, mode } where
  market := Market.empty_mirrors
  mode := rfl
  sound := Market.empty_sound
  mirroredSound := Market.empty_sound
  negatable order rests := by
    have impossible : order ∈ Market.empty.orders order.side := rests
    simp [Market.orders, Market.empty] at impossible

end Venue

namespace Matcher

/-- Mirrored messages get mirrored responses and lead to the mirrored book. -/
theorem replay_mirror (sizes : PoolSizes) (mode : MatchingMode)
    {messages : List Message}
    (negatable : ∀ message ∈ messages, message.Negatable) :
    ∃ responses, ∃ final mirrored : Matcher sizes,
      (start mode).replay messages = .ok (responses, final) ∧
      (start mode).replay (messages.map Message.mirror) =
        .ok (responses.map Response.mirror, mirrored) ∧
      mirrored.mode = final.mode ∧
      mirrored.book.bestBid = final.book.bestAsk.map (fun price => -price) ∧
      mirrored.book.bestAsk = final.book.bestBid.map (fun price => -price) ∧
      ∀ side, (mirrored.book.view.ladder side).entries =
        (final.book.view.ladder side.opposite).entries.map fun entry =>
          (-entry.1, entry.2.map Order.mirror) := by
  obtain ⟨final, ran, ⟨finalLayout, finalSettled⟩, finalVenue⟩ :=
    replay_spec (@start_wellFormed sizes mode) messages
  obtain ⟨mirrored, mirrorRan, ⟨mirrorLayout, mirrorSettled⟩, mirrorVenue⟩ :=
    replay_spec (@start_wellFormed sizes mode) (messages.map Message.mirror)
  obtain ⟨responses, mirrors⟩ :=
    @Venue.Mirrors.responses sizes _ _ (Venue.empty_mirrors mode) messages
      negatable
  rw [start_venue] at ran finalVenue mirrorRan mirrorVenue
  rw [← finalVenue, ← mirrorVenue] at mirrors
  rw [responses] at mirrorRan
  have best := mirrors.market.best?
  have ask := best .sell
  have bid := best .buy
  change mirrored.book.view.best? _ =
    (final.book.view.best? _).map _ at ask bid
  rw [OrderBook.best?_view mirrorSettled,
    OrderBook.best?_view finalSettled] at ask bid
  exact ⟨_, final, mirrored, ran, mirrorRan, mirrors.mode, bid, ask,
    mirrors.market⟩

/-- Two sellers, a buyer who takes part of the first, and a replacement. -/
def sessionMessages : List Message :=
  [.new (sessionOrder 1 10 .sell 5), .new (sessionOrder 2 20 .sell 4),
    .new (sessionOrder 3 30 .buy 2), .replace 2 101 4]

theorem replay_mirror_session :
    ∃ responses, ∃ final mirrored : Matcher sessionSizes,
      (start .proRata).replay sessionMessages = .ok (responses, final) ∧
      (start .proRata).replay (sessionMessages.map Message.mirror) =
        .ok (responses.map Response.mirror, mirrored) ∧
      mirrored.mode = final.mode ∧
      mirrored.book.bestBid = final.book.bestAsk.map (fun price => -price) ∧
      mirrored.book.bestAsk = final.book.bestBid.map (fun price => -price) ∧
      ∀ side, (mirrored.book.view.ladder side).entries =
        (final.book.view.ladder side.opposite).entries.map fun entry =>
          (-entry.1, entry.2.map Order.mirror) :=
  replay_mirror sessionSizes .proRata (by
    simp [sessionMessages, Message.Negatable, Hydra.Negatable, sessionOrder]
    decide)

end Matcher

end Hydra
