import Hydra.Dataset.File
import Mathlib.Data.List.Perm.Basic

/-!
# Generating datasets

The constructor of `DatasetGenerator` and `generate`, for an arbitrary random
stream: every draw is an arbitrary value in the range of its distribution.  The
ratios of a configuration are floating-point numbers; what the generator does
with them (additions, comparisons, the conversion of seconds) is a parameter.

The state keeps, beside what the generator keeps, two histories: the integer
operations that C++ defines only under a condition, and the steps between the
arrivals.  `round_cases` says everything that one round of the loop can do.
-/

namespace Hydra

/-- What the generator needs of `double`. -/
structure FloatingPoint where
  Double : Type
  ofBits : UInt64 → Double
  add : Double → Double → Double
  less : Double → Double → Bool
  lessEq : Double → Double → Bool
  zero : Double
  half : Double
  one : Double
  /-- `static_cast<uint64_t>(seconds * 1e9)` -/
  nanoseconds : Double → UInt64
  /-- `std::to_string` -/
  toText : Double → String

/-- A random stream.  The draw of an integer distribution depends on the number
of draws before it and lies between the bounds if they are in order. -/
structure RandomDraws (Double : Type) where
  integer : Nat → Int → Int → Int
  unit : Nat → Double
  interArrival : Nat → Double
  integer_mem : ∀ drawn low high, low ≤ high →
    low ≤ integer drawn low high ∧ integer drawn low high ≤ high

namespace RandomDraws

variable {Double : Type}

/-- Every integer draw is the lower bound. -/
def lowest (value : Double) : RandomDraws Double where
  integer _ low _ := low
  unit _ := value
  interArrival _ := value
  integer_mem _ low _ ordered := ⟨Int.le_refl low, ordered⟩

/-- Every integer draw is the upper bound. -/
def highest (value : Double) : RandomDraws Double where
  integer _ _ high := high
  unit _ := value
  interArrival _ := value
  integer_mem _ _ high ordered := ⟨ordered, Int.le_refl high⟩

end RandomDraws

/-- The finite numbers of the format, in units of its smallest positive one;
sums are not rounded. -/
def finiteDoubles : FloatingPoint where
  Double := Int
  ofBits bits :=
    let exponent := bits.toNat / 2 ^ 52 % 2 ^ 11
    let fraction := bits.toNat % 2 ^ 52
    let magnitude : Nat :=
      if exponent = 0 then fraction
      else (2 ^ 52 + fraction) * 2 ^ (exponent - 1)
    if bits.toNat < 2 ^ 63 then magnitude else -magnitude
  add left right := left + right
  less left right := decide (left < right)
  lessEq left right := decide (left ≤ right)
  zero := 0
  half := (2 ^ 1073 : Nat)
  one := (2 ^ 1074 : Nat)
  nanoseconds seconds := .ofNat (seconds * 10 ^ 9 / (2 ^ 1074 : Nat)).toNat
  toText value := toString value

/-- The integer operations that are defined only under a condition. -/
inductive IntegerOperation where
  | negate (value : Int64)
  | distribution (low high : Int)
  | add (left right : Int64)

/-- The range of `int64_t`. -/
def FitsInt64 (value : Int) : Prop := -2 ^ 63 ≤ value ∧ value < 2 ^ 63

instance (value : Int) : Decidable (FitsInt64 value) :=
  inferInstanceAs (Decidable (_ ∧ _))

def IntegerOperation.Defined : IntegerOperation → Prop
  | negate value => FitsInt64 (-value.toInt)
  | distribution low high => low ≤ high
  | add left right => FitsInt64 (left.toInt + right.toInt)

section Constructor

variable (float : FloatingPoint)

/-- `DatasetGenerator(cfg)`, up to the members that it sets. -/
def constructGenerator (config : DatasetConfig) :
    Except RuntimeError Unit := do
  let iocRatio := float.ofBits config.iocRatio
  let fokRatio := float.ofBits config.fokRatio
  let cancelRatio := float.ofBits config.cancelRatio
  let replaceRatio := float.ofBits config.replaceRatio
  throwIf (float.less float.one (float.add iocRatio fokRatio))
    ("DatasetConfig: ioc_ratio + fok_ratio must be <= 1.0 (got " ++
      float.toText iocRatio ++ " + " ++ float.toText fokRatio ++ ")")
  throwIf (float.less iocRatio float.zero ∨ float.less fokRatio float.zero ∨
      float.less cancelRatio float.zero ∨ float.less float.one cancelRatio ∨
      float.less replaceRatio float.zero)
    ("DatasetConfig: ioc_ratio/fok_ratio/cancel_ratio/replace_ratio must " ++
      "be non-negative, and cancel_ratio must additionally be <= 1.0")
  throwIf (float.less float.one (float.add cancelRatio replaceRatio))
    ("DatasetConfig: cancel_ratio + replace_ratio must be <= 1.0 (got " ++
      float.toText cancelRatio ++ " + " ++ float.toText replaceRatio ++ ")")
  throwIf (config.minQty = 0 ∨ config.maxQty < config.minQty)
    "DatasetConfig: require 0 < min_qty <= max_qty"
  throwIf (float.lessEq (float.ofBits config.arrivalRateHz) float.zero)
    "DatasetConfig: arrival_rate_hz must be > 0"
  throwIf (config.clientIdCount = 0)
    "DatasetConfig: client_id_count must be > 0"

/-- The constructor does not throw. -/
def DatasetConfig.Accepted (config : DatasetConfig) : Prop :=
  constructGenerator float config = .ok ()

end Constructor

/-- The generator inside `generate`, with the events so far. -/
structure GeneratorState where
  drawn : Nat
  nextOrderId : UInt64
  restingIds : List UInt64
  arrivalOffsetNs : UInt64
  events : List DatasetEvent
  operations : List IntegerOperation
  steps : List UInt64

/-- `remove_resting`: the last id takes the place of the removed one. -/
def removeResting (restingIds : List UInt64) (idx : Nat) : List UInt64 :=
  let last := restingIds.length - 1
  (if idx ≠ last then restingIds.set idx (restingIds.getD last 0)
    else restingIds).dropLast

namespace GeneratorState

section Code

variable (float : FloatingPoint) (config : DatasetConfig)
variable (draws : RandomDraws float.Double)

/-- `generate` from the reserved vector up to its loop. -/
def start : GeneratorState where
  drawn := 0
  nextOrderId := 1
  restingIds := []
  arrivalOffsetNs := 0
  events := []
  operations :=
    [.negate config.priceSpreadTicks,
      .distribution (-config.priceSpreadTicks).toInt
        config.priceSpreadTicks.toInt,
      .distribution config.minQty.toNat config.maxQty.toNat]
  steps := []

/-- `price_offset_dist(rng_)` -/
def priceOffset (drawn : Nat) : Int64 :=
  .ofInt (draws.integer drawn (-config.priceSpreadTicks).toInt
    config.priceSpreadTicks.toInt)

/-- `qty_dist(rng_)` -/
def quantity (drawn : Nat) : UInt32 :=
  .ofNat (draws.integer drawn config.minQty.toNat config.maxQty.toNat).toNat

/-- The index of a resting id. -/
def restingIndex (state : GeneratorState) : Nat :=
  (draws.integer state.drawn 0 (state.restingIds.length - 1)).toNat

def cancelRound (state : GeneratorState) : GeneratorState :=
  let idx := state.restingIndex float draws
  { state with
    drawn := state.drawn + 1
    restingIds := removeResting state.restingIds idx
    events := state.events ++
      [{ type := .cancel
         order := default
         cancelOrderId := state.restingIds.getD idx 0
         arrivalOffsetNs := state.arrivalOffsetNs }]
    operations := state.operations ++
      [.distribution 0 (state.restingIds.length - 1)] }

def replaceRound (state : GeneratorState) : GeneratorState :=
  let idx := state.restingIndex float draws
  let offset := priceOffset float config draws (state.drawn + 1)
  let qty := quantity float config draws (state.drawn + 2)
  { state with
    drawn := state.drawn + 3
    events := state.events ++
      [{ type := .replace
         order := { (default : Order) with
           price := config.midPrice + offset
           qty := qty }
         cancelOrderId := state.restingIds.getD idx 0
         arrivalOffsetNs := state.arrivalOffsetNs }]
    operations := state.operations ++
      [.distribution 0 (state.restingIds.length - 1),
        .add config.midPrice offset] }

/-- The time in force that a draw stands for. -/
def chooseTif (u : float.Double) : TimeInForce :=
  let iocRatio := float.ofBits config.iocRatio
  let fokRatio := float.ofBits config.fokRatio
  if float.less u iocRatio then .ioc
  else if float.less u (float.add iocRatio fokRatio) then .fok
  else .gtc

def newOrderRound (state : GeneratorState) : GeneratorState :=
  let offset := priceOffset float config draws (state.drawn + 1)
  let tif := chooseTif float config (draws.unit (state.drawn + 3))
  let order : Order :=
    { (default : Order) with
      orderId := state.nextOrderId
      side := if float.less (draws.unit state.drawn) float.half then .buy
        else .sell
      price := config.midPrice + offset
      qty := quantity float config draws (state.drawn + 2)
      timestampNs := state.arrivalOffsetNs
      clientId := 1 + state.nextOrderId % config.clientIdCount
      tif := tif }
  { state with
    drawn := state.drawn + 4
    nextOrderId := state.nextOrderId + 1
    restingIds :=
      if tif = .gtc then state.restingIds ++ [order.orderId]
      else state.restingIds
    events := state.events ++
      [{ type := .newOrder
         order := order
         cancelOrderId := 0
         arrivalOffsetNs := state.arrivalOffsetNs }]
    operations := state.operations ++ [.add config.midPrice offset] }

/-- The arrival of the next event. -/
def advance (state : GeneratorState) : GeneratorState :=
  let step := float.nanoseconds (draws.interArrival state.drawn)
  { state with
    drawn := state.drawn + 1
    arrivalOffsetNs := state.arrivalOffsetNs + step
    steps := state.steps ++ [step] }

/-- The draw that chooses the kind of the event; nothing is drawn while no
order rests. -/
def dispatch (state : GeneratorState) : float.Double × GeneratorState :=
  if state.restingIds = [] then (float.one, state)
  else (draws.unit state.drawn, { state with drawn := state.drawn + 1 })

/-- One round of the loop. -/
def round (state : GeneratorState) : GeneratorState :=
  let dispatched := (state.advance float draws).dispatch float draws
  let cancelRatio := float.ofBits config.cancelRatio
  let replaceRatio := float.ofBits config.replaceRatio
  if float.less dispatched.1 cancelRatio then
    dispatched.2.cancelRound float draws
  else if float.less dispatched.1 (float.add cancelRatio replaceRatio) then
    dispatched.2.replaceRound float config draws
  else dispatched.2.newOrderRound float config draws

/-- The state after so many rounds. -/
def afterRounds : Nat → GeneratorState
  | 0 => start config
  | rounds + 1 => (afterRounds rounds).round float config draws

end Code

end GeneratorState

/-- `events.max_size()`.  An event is as large as its record, and no object is
larger than `PTRDIFF_MAX`. -/
def DatasetEvent.maxSize : Nat := (2 ^ 63 - 1) / DatasetRecord.size

/-- `events.reserve(count)`, which throws a `std::length_error`.  The memory is
taken to be there otherwise. -/
def reserveEvents (count : Nat) : Except RuntimeError Unit :=
  throwIf (DatasetEvent.maxSize < count) "vector::reserve"

/-- The state at the end of the loop, in a fresh generator. -/
def generated (float : FloatingPoint) (config : DatasetConfig)
    (draws : RandomDraws float.Double) : GeneratorState :=
  GeneratorState.afterRounds float config draws config.orderCount.toNat

/-- What a call of `generate` has done with integers, and what it returns or
throws. -/
structure Generation where
  operations : List IntegerOperation
  result : Except RuntimeError (List DatasetEvent)

/-- `generate`, called on a fresh generator. -/
def generate (float : FloatingPoint) (config : DatasetConfig)
    (draws : RandomDraws float.Double) : Generation :=
  match reserveEvents config.orderCount.toNat with
  | .error message => { operations := [], result := .error message }
  | .ok () =>
      let final := generated float config draws
      { operations := final.operations, result := .ok final.events }

section Reserve

variable {float : FloatingPoint} {config : DatasetConfig}
variable {draws : RandomDraws float.Double}

theorem generate_reserved
    (fits : config.orderCount.toNat ≤ DatasetEvent.maxSize) :
    generate float config draws =
      { operations := (generated float config draws).operations
        result := .ok (generated float config draws).events } := by
  have reserved : reserveEvents config.orderCount.toNat = .ok () := by
    rw [reserveEvents, throwIf, if_neg (Nat.not_lt.mpr fits)]
  rw [generate, reserved]

theorem generate_tooLong
    (tooLong : DatasetEvent.maxSize < config.orderCount.toNat) :
    generate float config draws =
      { operations := [], result := .error "vector::reserve" } := by
  have thrown : reserveEvents config.orderCount.toNat =
      .error "vector::reserve" := by
    rw [reserveEvents, throwIf, if_pos tooLong]
  rw [generate, thrown]

theorem generate_throws :
    Throws (generate float config draws).result
      (config.orderCount.toNat ≤ DatasetEvent.maxSize)
      (generated float config draws).events where
  accepts fits := by
    rw [generate_reserved fits]
  rejects tooLong := by
    rw [generate_tooLong (Nat.not_le.mp tooLong)]
    exact ⟨_, trivial, rfl⟩

end Reserve

section Accepted

open Checks

variable {float : FloatingPoint} {config : DatasetConfig}

theorem constructGenerator_throws (float : FloatingPoint)
    (config : DatasetConfig) :
    Throws (constructGenerator float config)
      (¬ float.less float.one (float.add (float.ofBits config.iocRatio)
          (float.ofBits config.fokRatio)) ∧
        ¬ (float.less (float.ofBits config.iocRatio) float.zero ∨
          float.less (float.ofBits config.fokRatio) float.zero ∨
          float.less (float.ofBits config.cancelRatio) float.zero ∨
          float.less float.one (float.ofBits config.cancelRatio) ∨
          float.less (float.ofBits config.replaceRatio) float.zero) ∧
        ¬ float.less float.one (float.add (float.ofBits config.cancelRatio)
          (float.ofBits config.replaceRatio)) ∧
        ¬ (config.minQty = 0 ∨ config.maxQty < config.minQty) ∧
        ¬ float.lessEq (float.ofBits config.arrivalRateHz) float.zero ∧
        ¬ config.clientIdCount = 0) () := by
  rw [constructGenerator]
  apply Throws.throwIf
  intro _
  apply Throws.throwIf
  intro _
  apply Throws.throwIf
  intro _
  apply Throws.throwIf
  intro _
  apply Throws.throwIf
  intro _
  exact Decides.final trivial

/-- What `generate` needs of the checks. -/
structure DatasetConfig.Checked (float : FloatingPoint)
    (config : DatasetConfig) : Prop where
  noCancel : float.less float.one (float.ofBits config.cancelRatio) = false
  noReplace : float.less float.one (float.add (float.ofBits config.cancelRatio)
    (float.ofBits config.replaceRatio)) = false
  minQty : 0 < config.minQty
  maxQty : config.minQty ≤ config.maxQty
  clients : 0 < config.clientIdCount

theorem DatasetConfig.Accepted.checked (accepted : config.Accepted float) :
    config.Checked float := by
  obtain ⟨⟨_, ratios, sum, quantities, _, clients⟩, _⟩ :=
    (constructGenerator_throws float config).of_ok accepted
  simp only [not_or, Bool.not_eq_true] at ratios sum quantities
  exact ⟨ratios.2.2.2.1, sum, UInt32.pos_iff_ne_zero.mpr quantities.1,
    UInt32.not_lt.mp quantities.2, UInt64.pos_iff_ne_zero.mpr clients⟩

/-- One order a second, and all ratios zero. -/
def steadyConfig : DatasetConfig :=
  { sampleConfig with arrivalRateHz := 0x3FF0000000000000 }

theorem steadyConfig_accepted : steadyConfig.Accepted finiteDoubles :=
  (constructGenerator_throws finiteDoubles steadyConfig).accepts
    (by decide +kernel)

end Accepted

end Hydra
