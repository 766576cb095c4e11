import Hydra.Dataset.Generated

/-!
# The prices of generated datasets

The integer operations of `generate` are all defined, for every random stream,
exactly if the spread is not negative and the prices that it allows are in the
range of `int64_t`.  The constructor checks neither.
-/

namespace Hydra

section Arithmetic

variable {left right : Int64}

theorem toInt_add_of_fits (fits : FitsInt64 (left.toInt + right.toInt)) :
    (left + right).toInt = left.toInt + right.toInt := by
  obtain ⟨low, high⟩ := fits
  rw [Int64.toInt_add]
  exact Int.bmod_eq_of_le (by omega) (by omega)

theorem toInt_neg_of_fits (fits : FitsInt64 (-left.toInt)) :
    (-left).toInt = -left.toInt := by
  obtain ⟨low, high⟩ := fits
  rw [Int64.toInt_neg]
  exact Int.bmod_eq_of_le (by omega) (by omega)

theorem toInt_ofInt_of_between {value : Int} (low : left.toInt ≤ value)
    (high : value ≤ right.toInt) : (Int64.ofInt value).toInt = value :=
  Int64.toInt_ofInt_of_le (Int.le_trans left.le_toInt low)
    (Int.lt_of_le_of_lt high right.toInt_lt)

end Arithmetic

/-- The price is no further from the middle than the spread. -/
def DatasetConfig.Allows (config : DatasetConfig) (price : Int64) : Prop :=
  config.midPrice.toInt - config.priceSpreadTicks.toInt ≤ price.toInt ∧
    price.toInt ≤ config.midPrice.toInt + config.priceSpreadTicks.toInt

/-- Everything that `generate` does with integers is defined, and the prices
that it draws are allowed. -/
def WellDefined (float : FloatingPoint) (config : DatasetConfig)
    (draws : RandomDraws float.Double) : Prop :=
  (∀ operation ∈ (generate float config draws).operations,
    operation.Defined) ∧
  ∀ events, (generate float config draws).result = .ok events →
    ∀ event ∈ events, event.type ≠ .cancel → config.Allows event.order.price

/-- All prices that the spread allows are in the range of `int64_t`. -/
structure DatasetConfig.InRange (config : DatasetConfig) : Prop where
  lowest : FitsInt64 (config.midPrice.toInt - config.priceSpreadTicks.toInt)
  highest : FitsInt64 (config.midPrice.toInt + config.priceSpreadTicks.toInt)

namespace GeneratorState

variable {float : FloatingPoint} {config : DatasetConfig}
variable {draws : RandomDraws float.Double} {state : GeneratorState}

variable (draws) in
theorem operations_round (checked : config.Checked float)
    (state : GeneratorState) :
    ∃ later, (state.round float config draws).operations =
      state.operations ++ later := by
  obtain ⟨drawn, arrivedEq⟩ := arrived_eq float draws state
  rcases round_cases draws checked state with
    ⟨_, next⟩ | ⟨_, next⟩ | next
  all_goals
    rw [next, arrivedEq]
    exact ⟨_, rfl⟩

variable (draws) in
theorem operations_afterRounds (checked : config.Checked float)
    {operation : IntegerOperation} (rounds more : Nat)
    (done : operation ∈ (afterRounds float config draws rounds).operations) :
    operation ∈
      (afterRounds float config draws (rounds + more)).operations := by
  induction more with
  | zero => exact done
  | succ more induction =>
      obtain ⟨later, operations⟩ := operations_round draws checked
        (afterRounds float config draws (rounds + more))
      rw [Nat.add_succ, afterRounds, operations]
      exact List.mem_append_left later induction

theorem first_operation (checked : config.Checked float)
    (draws : RandomDraws float.Double) :
    ∃ drawn, IntegerOperation.add config.midPrice
        (priceOffset float config draws drawn) ∈
      (afterRounds float config draws 1).operations := by
  obtain ⟨drawn, arrivedEq⟩ := arrived_eq float draws (start config)
  rcases round_cases draws checked (start config) with
    ⟨resting, _⟩ | ⟨resting, _⟩ | next
  · exact absurd rfl resting
  · exact absurd rfl resting
  · refine ⟨drawn + 1, ?_⟩
    rw [afterRounds, afterRounds, next, arrivedEq]
    exact List.mem_append_right _ (List.mem_singleton_self _)

theorem fits_neg (spread : 0 ≤ config.priceSpreadTicks) :
    FitsInt64 (-config.priceSpreadTicks.toInt) := by
  have positive : (0 : Int) ≤ config.priceSpreadTicks.toInt :=
    Int64.le_iff_toInt_le.mp spread
  have small := config.priceSpreadTicks.toInt_lt
  exact ⟨by omega, by omega⟩

theorem priceOffset_lowest (value : float.Double) (drawn : Nat) :
    priceOffset float config (.lowest value) drawn =
      -config.priceSpreadTicks :=
  Int64.ofInt_toInt _

theorem priceOffset_highest (value : float.Double) (drawn : Nat) :
    priceOffset float config (.highest value) drawn =
      config.priceSpreadTicks :=
  Int64.ofInt_toInt _

theorem priceOffset_mem (spread : 0 ≤ config.priceSpreadTicks)
    (draws : RandomDraws float.Double) (drawn : Nat) :
    -config.priceSpreadTicks.toInt ≤
        (priceOffset float config draws drawn).toInt ∧
      (priceOffset float config draws drawn).toInt ≤
        config.priceSpreadTicks.toInt := by
  have positive : (0 : Int) ≤ config.priceSpreadTicks.toInt :=
    Int64.le_iff_toInt_le.mp spread
  have negated := toInt_neg_of_fits (fits_neg spread)
  obtain ⟨low, high⟩ := draws.integer_mem drawn
    (-config.priceSpreadTicks).toInt config.priceSpreadTicks.toInt (by omega)
  rw [priceOffset, toInt_ofInt_of_between low high]
  omega

theorem price_allowed (spread : 0 ≤ config.priceSpreadTicks)
    (inRange : config.InRange) (draws : RandomDraws float.Double)
    (drawn : Nat) :
    (IntegerOperation.add config.midPrice
        (priceOffset float config draws drawn)).Defined ∧
      config.Allows (config.midPrice +
        priceOffset float config draws drawn) := by
  obtain ⟨low, high⟩ := priceOffset_mem spread draws drawn
  obtain ⟨⟨lowest, _⟩, _, highest⟩ := inRange
  have fits : FitsInt64 (config.midPrice.toInt +
      (priceOffset float config draws drawn).toInt) := by
    constructor <;> omega
  refine ⟨fits, ?_⟩
  rw [DatasetConfig.Allows, toInt_add_of_fits fits]
  omega

/-- What was done so far is defined, and the prices so far are allowed. -/
structure Defined (config : DatasetConfig) (state : GeneratorState) : Prop where
  operations : ∀ operation ∈ state.operations, operation.Defined
  prices : ∀ event ∈ state.events, event.type ≠ .cancel →
    config.Allows event.order.price

theorem Defined.concat (defined : Defined config state)
    {next : GeneratorState} {later : List IntegerOperation}
    {event : DatasetEvent}
    (operations : next.operations = state.operations ++ later)
    (events : next.events = state.events ++ [event])
    (laterDefined : ∀ operation ∈ later, operation.Defined)
    (allowed : event.type ≠ .cancel → config.Allows event.order.price) :
    Defined config next := by
  constructor
  · rw [operations]
    exact List.forall_mem_append.mpr ⟨defined.operations, laterDefined⟩
  · rw [events]
    refine List.forall_mem_append.mpr ⟨defined.prices, ?_⟩
    exact List.forall_mem_singleton.mpr allowed

theorem defined_start (checked : config.Checked float)
    (spread : 0 ≤ config.priceSpreadTicks) : Defined config (start config) := by
  have positive : (0 : Int) ≤ config.priceSpreadTicks.toInt :=
    Int64.le_iff_toInt_le.mp spread
  have fits := fits_neg spread
  have ordered : (-config.priceSpreadTicks).toInt ≤
      config.priceSpreadTicks.toInt := by
    rw [toInt_neg_of_fits fits]
    omega
  have quantities : (config.minQty.toNat : Int) ≤ config.maxQty.toNat :=
    Int.ofNat_le.mpr (UInt32.le_iff_toNat_le.mp checked.maxQty)
  constructor
  · simp only [start, List.forall_mem_cons]
    exact ⟨fits, ordered, quantities, by simp⟩
  · intro event member
    cases member

theorem defined_round (checked : config.Checked float)
    (spread : 0 ≤ config.priceSpreadTicks) (inRange : config.InRange)
    (defined : Defined config state) :
    Defined config (state.round float config draws) := by
  obtain ⟨drawn, arrivedEq⟩ := arrived_eq float draws state
  have allowed := fun drawn => price_allowed spread inRange draws drawn
  have indices : state.restingIds ≠ [] →
      (IntegerOperation.distribution 0
        (state.restingIds.length - 1)).Defined := by
    intro resting
    have positive := List.length_pos_iff.mpr resting
    change (0 : Int) ≤ state.restingIds.length - 1
    omega
  rcases round_cases draws checked state with
    ⟨resting, next⟩ | ⟨resting, next⟩ | next
  · rw [next, arrivedEq]
    refine defined.concat rfl rfl ?_ fun notCancel => absurd rfl notCancel
    exact List.forall_mem_singleton.mpr (indices resting)
  · rw [next, arrivedEq]
    refine defined.concat rfl rfl ?_ fun _ => (allowed _).2
    exact List.forall_mem_cons.mpr
      ⟨indices resting, List.forall_mem_singleton.mpr (allowed _).1⟩
  · rw [next, arrivedEq]
    refine defined.concat rfl rfl ?_ fun _ => (allowed _).2
    exact List.forall_mem_singleton.mpr (allowed _).1

theorem defined_afterRounds (checked : config.Checked float)
    (spread : 0 ≤ config.priceSpreadTicks) {rounds : Nat}
    (inRange : rounds ≠ 0 → config.InRange)
    (draws : RandomDraws float.Double) :
    Defined config (afterRounds float config draws rounds) := by
  induction rounds with
  | zero => exact defined_start checked spread
  | succ rounds induction =>
      have here := inRange (Nat.succ_ne_zero rounds)
      exact defined_round checked spread here (induction fun _ => here)

end GeneratorState

open GeneratorState

section Prices

variable {float : FloatingPoint} {config : DatasetConfig}

theorem spread_of_wellDefined (checked : config.Checked float)
    (fits : config.orderCount.toNat ≤ DatasetEvent.maxSize)
    {draws : RandomDraws float.Double}
    (wellDefined : WellDefined float config draws) :
    0 ≤ config.priceSpreadTicks := by
  rw [WellDefined, generate_reserved fits] at wellDefined
  have atStart : ∀ operation ∈ (start config).operations,
      operation.Defined := by
    intro operation member
    refine wellDefined.1 operation ?_
    have done := operations_afterRounds draws checked 0
      config.orderCount.toNat member
    rwa [Nat.zero_add] at done
  simp only [start, List.forall_mem_cons] at atStart
  obtain ⟨fits, ordered, _⟩ := atStart
  have ordered' : (-config.priceSpreadTicks).toInt ≤
      config.priceSpreadTicks.toInt := ordered
  rw [toInt_neg_of_fits fits] at ordered'
  rw [Int64.le_iff_toInt_le]
  change (0 : Int) ≤ _
  omega

theorem inRange_of_wellDefined (checked : config.Checked float)
    (fits : config.orderCount.toNat ≤ DatasetEvent.maxSize)
    (some_orders : config.orderCount ≠ 0)
    (wellDefined : ∀ draws, WellDefined float config draws) :
    config.InRange := by
  have spread := spread_of_wellDefined checked fits
    (wellDefined (.lowest float.zero))
  have added : ∀ draws, ∃ drawn, (IntegerOperation.add config.midPrice
      (priceOffset float config draws drawn)).Defined := by
    intro draws
    have defined := wellDefined draws
    rw [WellDefined, generate_reserved fits] at defined
    obtain ⟨drawn, done⟩ := first_operation checked draws
    refine ⟨drawn, defined.1 _ ?_⟩
    have count : 1 + (config.orderCount.toNat - 1) =
        config.orderCount.toNat := by
      have positive : config.orderCount.toNat ≠ 0 := by
        intro none_left
        exact some_orders (UInt64.toNat_inj.mp none_left)
      omega
    have final := operations_afterRounds draws checked 1
      (config.orderCount.toNat - 1) done
    rwa [count] at final
  constructor
  · obtain ⟨drawn, defined⟩ := added (.lowest float.zero)
    have offset : (priceOffset float config (.lowest float.zero) drawn).toInt =
        -config.priceSpreadTicks.toInt := by
      rw [priceOffset_lowest, toInt_neg_of_fits (fits_neg spread)]
    rw [IntegerOperation.Defined, offset] at defined
    exact defined
  · obtain ⟨drawn, defined⟩ := added (.highest float.zero)
    rw [priceOffset_highest] at defined
    exact defined

theorem wellDefined_of_tooLong
    (tooLong : DatasetEvent.maxSize < config.orderCount.toNat)
    (draws : RandomDraws float.Double) : WellDefined float config draws := by
  rw [WellDefined, generate_tooLong tooLong]
  constructor
  · intro operation member
    cases member
  · intro events returned
    cases returned

theorem wellDefined_of_inRange (checked : config.Checked float)
    (spread : 0 ≤ config.priceSpreadTicks)
    (inRange : config.orderCount = 0 ∨ config.InRange)
    (draws : RandomDraws float.Double) : WellDefined float config draws := by
  by_cases fits : config.orderCount.toNat ≤ DatasetEvent.maxSize
  · have defined : Defined config (generated float config draws) := by
      refine defined_afterRounds checked spread (fun some_rounds => ?_) draws
      refine inRange.resolve_left ?_
      intro empty
      rw [empty] at some_rounds
      exact some_rounds rfl
    rw [WellDefined, generate_reserved fits]
    refine ⟨defined.operations, ?_⟩
    intro events returned
    obtain rfl := Except.ok.inj returned
    exact defined.prices
  · exact wellDefined_of_tooLong (Nat.not_le.mp fits) draws

/-- For an accepted configuration everything is defined, whatever is drawn, if
and only if the reservation throws, or the spread is not negative and, unless
the dataset is empty, all prices that it allows are in range. -/
theorem prices_wellDefined_iff (accepted : config.Accepted float) :
    (∀ draws, WellDefined float config draws) ↔
      DatasetEvent.maxSize < config.orderCount.toNat ∨
        0 ≤ config.priceSpreadTicks ∧
          (config.orderCount = 0 ∨ config.InRange) := by
  have checked := accepted.checked
  constructor
  · intro wellDefined
    by_cases fits : config.orderCount.toNat ≤ DatasetEvent.maxSize
    · refine .inr ⟨spread_of_wellDefined checked fits
        (wellDefined (.lowest float.zero)), ?_⟩
      by_cases empty : config.orderCount = 0
      · exact .inl empty
      · exact .inr (inRange_of_wellDefined checked fits empty wellDefined)
    · exact .inl (Nat.not_le.mp fits)
  · rintro (tooLong | ⟨spread, inRange⟩) draws
    · exact wellDefined_of_tooLong tooLong draws
    · exact wellDefined_of_inRange checked spread inRange draws

theorem prices_wellDefined_steady :
    steadyConfig.InRange ∧
      ∀ draws, WellDefined finiteDoubles steadyConfig draws := by
  have inRange : steadyConfig.InRange := ⟨by decide, by decide⟩
  exact ⟨inRange, (prices_wellDefined_iff steadyConfig_accepted).mpr
    (.inr ⟨by decide, .inr inRange⟩)⟩

/-- The bounds of the offsets are in the wrong order. -/
def crossedConfig : DatasetConfig :=
  { steadyConfig with priceSpreadTicks := -1 }

theorem crossedConfig_accepted : crossedConfig.Accepted finiteDoubles :=
  (constructGenerator_throws finiteDoubles crossedConfig).accepts
    (by decide +kernel)

/-- A negative spread is accepted, and nothing that is drawn then is
defined. -/
theorem negativeSpread_undefined :
    crossedConfig.Accepted finiteDoubles ∧
      ∀ draws, ¬ WellDefined finiteDoubles crossedConfig draws := by
  refine ⟨crossedConfig_accepted, fun draws wellDefined => ?_⟩
  exact absurd
    (spread_of_wellDefined crossedConfig_accepted.checked (by decide)
      wellDefined)
    (by decide)

end Prices

end Hydra
