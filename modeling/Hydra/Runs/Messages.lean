import Hydra.Runs.Calls

/-!
# Messages and responses

A message is a call of a trading session with its arguments, and the response
to it is what the caller gets to see: the returned value and the reported
fills.  A replay of messages is a function of the venue, as far as responses
and the market are concerned.
-/

namespace Hydra

variable {sizes : PoolSizes}

/-- A message to the engine. -/
inductive Message where
  | new (incoming : Order)
  | cancel (orderId : UInt64)
  | replace (orderId : UInt64) (newPrice : Int64) (newQty : UInt32)
  | setMode (mode : MatchingMode)

def Message.call : Message → Call
  | new incoming => .matchOrder incoming
  | cancel orderId => .cancelOrder orderId
  | replace orderId newPrice newQty => .replace orderId newPrice newQty
  | setMode mode => .setMode mode

theorem Message.call_trades (message : Message) : message.call.Trades := by
  cases message <;> trivial

/-- The returned value of a call. -/
inductive Reply where
  | stats (stats : MatchStats)
  | found (found : Bool)
  | done
  deriving DecidableEq

/-- What the sender of a message sees of it: the reply, and the reported
fills. -/
structure Response where
  reply : Reply
  fills : List FillEvent
  deriving DecidableEq

def MatchResult.response (result : MatchResult sizes) : Response where
  reply := .stats result.stats
  fills := result.emitted.map Emission.event

namespace Matcher

/-- The response to a message, and the matcher after it. -/
def respond (matcher : Matcher sizes) :
    Message → Except Fault (Response × Matcher sizes)
  | .new incoming => do
      let result ← matcher.book.matchOrder matcher.load incoming
      return (result.response, { matcher with book := result.book })
  | .cancel orderId => do
      let (found, book) ← matcher.book.cancelOrder orderId
      return ({ reply := .found found, fills := [] }, { matcher with book })
  | .replace orderId newPrice newQty => do
      let result ← matcher.book.replace matcher.load orderId newPrice newQty
      return (result.response, { matcher with book := result.book })
  | .setMode mode => .ok ({ reply := .done, fills := [] }, matcher.setMode mode)

/-- The responses to a list of messages, and the matcher after them. -/
def replay (matcher : Matcher sizes) :
    List Message → Except Fault (List Response × Matcher sizes)
  | [] => .ok ([], matcher)
  | message :: rest => do
      let (response, next) ← matcher.respond message
      let (responses, final) ← next.replay rest
      return (response :: responses, final)

/-- A response is what a caller sees of the call. -/
theorem respond_apply (matcher : Matcher sizes) (message : Message) :
    (matcher.respond message).map (fun answer =>
        (answer.2, answer.1.fills)) =
      (matcher.apply message.call).map fun applied =>
        (applied.1, applied.2.map Emission.event) := by
  cases message with
  | new incoming =>
      rw [respond, Message.call, apply]
      cases matcher.book.matchOrder matcher.load incoming <;> rfl
  | cancel orderId =>
      rw [respond, Message.call, apply]
      cases matcher.book.cancelOrder orderId <;> rfl
  | replace orderId newPrice newQty =>
      rw [respond, Message.call, apply]
      cases matcher.book.replace matcher.load orderId newPrice newQty <;> rfl
  | setMode mode => rfl

end Matcher

namespace Venue

def reply (sizes : PoolSizes) (venue : Venue) (message : Message) : Reply :=
  match message with
  | .new _ | .replace _ _ _ => .stats (venue.outcome sizes message.call).stats
  | .cancel orderId => .found (venue.market.find? orderId).isSome
  | .setMode _ => .done

def respond (sizes : PoolSizes) (venue : Venue) (message : Message) :
    Response where
  reply := venue.reply sizes message
  fills := (venue.outcome sizes message.call).fills

/-- The responses to a list of messages. -/
def responses (sizes : PoolSizes) (venue : Venue) :
    List Message → List Response
  | [] => []
  | message :: rest =>
      venue.respond sizes message ::
        responses sizes (venue.after sizes message.call) rest

/-- The venue after a list of messages. -/
def afterAll (sizes : PoolSizes) (venue : Venue) (messages : List Message) :
    Venue :=
  messages.foldl (fun venue message => venue.after sizes message.call) venue

end Venue

namespace Matcher

variable {matcher : Matcher sizes}

/-- Every message is answered, as the venue answers it. -/
theorem respond_spec (wellFormed : matcher.book.WellFormed)
    (message : Message) :
    ∃ next,
      matcher.respond message =
        .ok (matcher.venue.respond sizes message, next) ∧
      next.book.WellFormed ∧
      next.venue = matcher.venue.after sizes message.call := by
  obtain ⟨layout, settled⟩ := wellFormed
  cases message with
  | new incoming =>
      obtain ⟨result, ran, showing⟩ :=
        OrderBook.matchOrder_spec matcher.load incoming settled
      refine ⟨{ matcher with book := result.book }, ?_, showing.wellFormed, ?_⟩
      · rw [respond, ran, ok_bind, MatchResult.response, showing.stats,
          showing.fills]
        rfl
      · rw [venue, showing.view]
        rfl
  | cancel orderId =>
      obtain ⟨book, ran, wellFormed, viewEq⟩ :=
        OrderBook.cancelOrder_spec settled orderId
      refine ⟨{ matcher with book }, ?_, wellFormed, ?_⟩
      · rw [respond, ran]
        rfl
      · rw [venue, viewEq]
        rfl
  | replace orderId newPrice newQty =>
      obtain ⟨result, ran, wellFormed, viewEq, fillsEq, statsEq, _⟩ :=
        OrderBook.replace_spec matcher.load orderId newPrice newQty settled
      refine ⟨{ matcher with book := result.book }, ?_, wellFormed, ?_⟩
      · rw [respond, ran, ok_bind, MatchResult.response, statsEq, fillsEq]
        rfl
      · rw [venue, viewEq]
        rfl
  | setMode mode =>
      exact ⟨matcher.setMode mode, rfl, ⟨layout, settled⟩, rfl⟩

/-- Every list of messages is answered to its end. -/
theorem replay_spec (wellFormed : matcher.book.WellFormed)
    (messages : List Message) :
    ∃ final,
      matcher.replay messages =
        .ok (matcher.venue.responses sizes messages, final) ∧
      final.book.WellFormed ∧
      final.venue = matcher.venue.afterAll sizes messages := by
  induction messages generalizing matcher with
  | nil => exact ⟨matcher, rfl, wellFormed, rfl⟩
  | cons message rest induction =>
      obtain ⟨next, answered, nextFormed, nextVenue⟩ :=
        respond_spec wellFormed message
      obtain ⟨final, replayed, finalFormed, finalVenue⟩ :=
        induction nextFormed
      rw [nextVenue] at replayed finalVenue
      refine ⟨final, ?_, finalFormed, finalVenue⟩
      rw [replay, answered, ok_bind]
      change (next.replay rest >>= _) = _
      rw [replayed]
      rfl

theorem start_wellFormed (mode : MatchingMode) :
    (start mode : Matcher sizes).book.WellFormed :=
  ⟨_, OrderBook.empty_settled⟩

theorem start_venue (mode : MatchingMode) :
    (start mode : Matcher sizes).venue = { market := .empty, mode } := by
  rw [venue]
  change Venue.mk (OrderBook.empty : OrderBook sizes).view mode = _
  rw [OrderBook.view_empty]

end Matcher

end Hydra
