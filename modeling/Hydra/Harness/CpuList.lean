import Hydra.Library.Decimal
import Hydra.Library.Positions
import Mathlib.Data.List.Forall2
import Mathlib.Data.List.TakeWhile

/-!
# Parsing CPU lists

The preflight checks of a benchmark read lists of CPUs, such as `2-4,7`, from
files of the kernel.  A token between commas is a number or an inclusive run of
numbers; tokens that are neither are skipped.  `Means` says what a list means
without saying how it is parsed.

The loop over a run counts in an `int` and increments it once after the last
value, so that a run that ends with the greatest `int` overflows.
-/

namespace Hydra

open Ascii Positions

/-- An operation that C++ leaves undefined. -/
inductive CpuListFault where
  /-- An `int` was incremented beyond its greatest value. -/
  | signedOverflow
  deriving DecidableEq, Repr

def intMin : Int := -2147483648
def intMax : Int := 2147483647

/-- `std::stoi` of a sign and digits, or nothing for its exception. -/
def stoi (s : List UInt8) : Option Int :=
  let value : Int :=
    match s with
    | [] => 0
    | first :: digits =>
        if first = minus then -(Decimal.horner digits)
        else if first = plus then Decimal.horner digits
        else Decimal.horner s
  if intMin ≤ value ∧ value ≤ intMax then some value else none

def toInt (s : List UInt8) : Option Int :=
  if s = [] then none
  else
    let neg := s.head? = some minus ∨ s.head? = some plus
    let digits := if neg then s.drop 1 else s
    if digits = [] then none
    else if digits.all isDigit then stoi s
    else none

/-- The loop over a run, from `c` on. -/
def pushRun (hi c : Int) (result : List Int) :
    Except CpuListFault (List Int) :=
  if c ≤ hi then
    if c = intMax then .error .signedOverflow
    else pushRun hi (c + 1) (result ++ [c])
  else .ok result
termination_by (hi + 1 - c).toNat
decreasing_by omega

/-- One round of the loop over the tokens. -/
def parseToken (token : List UInt8) (result : List Int) :
    Except CpuListFault (List Int) :=
  if token = [] then .ok result
  else
    match findFrom minus 1 token with
    | none =>
        match toInt token with
        | some v => .ok (result ++ [v])
        | none => .ok result
    | some dash =>
        match toInt (token.take dash), toInt (token.drop (dash + 1)) with
        | some lo, some hi =>
            if lo ≤ hi then pushRun hi lo result else .ok result
        | _, _ => .ok result

/-- The loop over the tokens; `stream` is what `getline` has left. -/
def parseTokens (stream : List UInt8) (result : List Int) :
    Except CpuListFault (List Int) :=
  if stream = [] then .ok result
  else
    match parseToken (stream.takeWhile (· ≠ comma)) result with
    | .error fault => .error fault
    | .ok result => parseTokens (stream.dropWhile (· ≠ comma)).tail result
termination_by stream.length
decreasing_by
  have shorter := (List.dropWhile_sublist (· ≠ comma) (l := stream)).length_le
  have positive := List.length_pos_iff.mpr ‹stream ≠ []›
  rw [List.length_tail]
  omega

/-- `parse_cpu_list`: the processors of a list such as `0-3,8`. -/
def parseCpuList (list : List UInt8) : Except CpuListFault (List Int) :=
  parseTokens list []

/-- A signed decimal in the range of `int`. -/
def IsInt (text : List UInt8) (value : Int) : Prop :=
  Decimal.Signed text value ∧ intMin ≤ value ∧ value ≤ intMax

def IsRun (token : List UInt8) (low high : Int) : Prop :=
  ∃ lo hi, token = lo ++ minus :: hi ∧ IsInt lo low ∧ IsInt hi high

/-- The values from `low` to `high`, both included, each once. -/
def ascendingRun (low high : Int) : List Int :=
  (List.range (high + 1 - low).toNat).map fun offset : Nat => low + offset

/-- The processors that a part of the list names. -/
inductive TokenMeans : List UInt8 → List Int → Prop where
  | value {token : List UInt8} {value : Int} :
      IsInt token value → TokenMeans token [value]
  | run {token : List UInt8} {low high : Int} :
      IsRun token low high → low ≤ high →
      TokenMeans token (ascendingRun low high)
  | nothing {token : List UInt8} :
      (∀ value, ¬ IsInt token value) →
      (∀ low high, IsRun token low high → ¬ low ≤ high) →
      TokenMeans token []

/-- The meanings of the tokens, one after the other. -/
def Means (list : List UInt8) (values : List Int) : Prop :=
  ∃ parts, List.Forall₂ TokenMeans (list.splitOn comma) parts ∧
    values = parts.flatten

/-- A run up to the greatest `int`. -/
def EndsAtMax (token : List UInt8) : Prop := ∃ low, IsRun token low intMax

section Numbers

variable {text digits : List UInt8} {value : Int}

/-- The checks of `toInt` on the digits and of `stoi` on the value. -/
theorem checked_eq_some_iff {number : Int} :
    (if digits = [] then none
      else if digits.all isDigit then
        if intMin ≤ number ∧ number ≤ intMax then some number else none
      else none) = some value ↔
      (digits ≠ [] ∧ (∀ byte ∈ digits, isDigit byte) ∧ value = number) ∧
        intMin ≤ value ∧ value ≤ intMax := by
  by_cases empty : digits = []
  · simp [empty]
  · rw [if_neg empty, ← List.all_eq_true]
    by_cases clean : digits.all isDigit
    · rw [if_pos clean]
      by_cases inRange : intMin ≤ number ∧ number ≤ intMax
      · rw [if_pos inRange, Option.some.injEq]
        constructor
        · rintro rfl
          exact ⟨⟨empty, clean, rfl⟩, inRange⟩
        · rintro ⟨⟨_, _, rfl⟩, _⟩
          rfl
      · rw [if_neg inRange]
        constructor
        · intro impossible
          cases impossible
        · rintro ⟨⟨_, _, rfl⟩, within⟩
          exact absurd within inRange
    · rw [if_neg clean]
      constructor
      · intro impossible
        cases impossible
      · rintro ⟨⟨_, digits, _⟩, _⟩
        exact absurd digits clean

theorem toInt_eq_some_iff : toInt text = some value ↔ IsInt text value := by
  cases text with
  | nil =>
      constructor
      · intro impossible
        cases impossible
      · rintro ⟨signed, _⟩
        exact absurd rfl signed.ne_nil
  | cons first digits =>
      rw [toInt, if_neg (List.cons_ne_nil _ _), IsInt]
      by_cases negative : first = minus
      · subst negative
        rw [Decimal.signed_minus_iff, ← checked_eq_some_iff]
        simp [stoi]
      · by_cases positive : first = plus
        · subst positive
          rw [Decimal.signed_plus_iff, ← checked_eq_some_iff]
          simp [stoi, negative]
        · rw [Decimal.signed_unsigned_iff negative positive,
            ← checked_eq_some_iff]
          simp [stoi, negative, positive]

theorem isInt_unique {other : Int} (isInt : IsInt text value)
    (isInt' : IsInt text other) : value = other := by
  rw [← toInt_eq_some_iff] at isInt isInt'
  exact Option.some.inj (isInt.symm.trans isInt')

end Numbers

section Runs

variable {token : List UInt8} {low high value : Int} {dash : Nat}

theorem ascendingRun_of_le (ordered : low ≤ high) :
    ascendingRun low high = low :: ascendingRun (low + 1) high := by
  have count : (high + 1 - low).toNat = (high + 1 - (low + 1)).toNat + 1 := by
    omega
  rw [ascendingRun, ascendingRun, count, List.range_succ_eq_map, List.map_cons,
    List.map_map]
  congr 1
  · simp
  · refine List.map_congr_left fun offset _ => ?_
    simp only [Function.comp_apply, Nat.succ_eq_add_one, Nat.cast_add,
      Nat.cast_one]
    omega

theorem ascendingRun_of_lt (descending : high < low) :
    ascendingRun low high = [] := by
  have count : (high + 1 - low).toNat = 0 := by omega
  rw [ascendingRun, count]
  rfl

theorem pushRun_eq (bounded : high < intMax) (low : Int)
    (result : List Int) :
    pushRun high low result = .ok (result ++ ascendingRun low high) := by
  induction size : (high + 1 - low).toNat generalizing low result with
  | zero =>
      have descending : high < low := by omega
      rw [pushRun, if_neg (by omega), ascendingRun_of_lt descending,
        List.append_nil]
  | succ size induction =>
      have ordered : low ≤ high := by omega
      rw [pushRun, if_pos ordered, if_neg (by omega),
        induction (low + 1) _ (by omega), ascendingRun_of_le ordered,
        List.append_assoc, List.singleton_append]

theorem pushRun_overflow (ordered : low ≤ intMax) (result : List Int) :
    pushRun intMax low result = .error .signedOverflow := by
  induction size : (intMax - low).toNat generalizing low result with
  | zero =>
      have last : low = intMax := by omega
      rw [pushRun, if_pos ordered, if_pos last]
  | succ size induction =>
      have before : low ≠ intMax := by omega
      rw [pushRun, if_pos ordered, if_neg before]
      exact induction (by omega) _ (by omega)

theorem findFrom_of_isInt (isInt : IsInt token value) :
    findFrom minus 1 token = none := by
  refine findFrom_of_not_mem ?_
  rw [List.drop_one]
  exact isInt.1.minus_not_mem_tail

theorem isRun_iff (found : findFrom minus 1 token = some dash) :
    IsRun token low high ↔ toInt (token.take dash) = some low ∧
      toInt (token.drop (dash + 1)) = some high := by
  simp only [toInt_eq_some_iff]
  constructor
  · rintro ⟨lo, hi, rfl, isLow, isHigh⟩
    have first : minus ∉ lo.drop 1 := by
      rw [List.drop_one]
      exact isLow.1.minus_not_mem_tail
    have long : 1 ≤ lo.length := List.length_pos_iff.mpr isLow.1.ne_nil
    rw [findFrom_split first long, Option.some.injEq] at found
    subst found
    rw [List.take_left, List.drop_length_add_append]
    exact ⟨isLow, isHigh⟩
  · rintro ⟨isLow, isHigh⟩
    exact ⟨_, _, (take_append_of_findFrom found).symm, isLow, isHigh⟩

theorem exists_dash (isRun : IsRun token low high) :
    ∃ dash, findFrom minus 1 token = some dash := by
  obtain ⟨lo, hi, rfl, isLow, _⟩ := isRun
  refine ⟨lo.length, findFrom_split ?_ ?_⟩
  · rw [List.drop_one]
    exact isLow.1.minus_not_mem_tail
  · exact List.length_pos_iff.mpr isLow.1.ne_nil

theorem not_isInt_of_isRun (isRun : IsRun token low high) (value : Int) :
    ¬ IsInt token value := by
  intro isInt
  obtain ⟨dash, found⟩ := exists_dash isRun
  rw [findFrom_of_isInt isInt] at found
  cases found

theorem isRun_unique {low' high' : Int} (isRun : IsRun token low high)
    (isRun' : IsRun token low' high') : low = low' ∧ high = high' := by
  obtain ⟨dash, found⟩ := exists_dash isRun
  obtain ⟨lower, upper⟩ := (isRun_iff found).mp isRun
  obtain ⟨lower', upper'⟩ := (isRun_iff found).mp isRun'
  exact ⟨Option.some.inj (lower.symm.trans lower'),
    Option.some.inj (upper.symm.trans upper')⟩

theorem IsRun.low_le_max (isRun : IsRun token low high) : low ≤ intMax := by
  obtain ⟨_, _, _, isLow, _⟩ := isRun
  exact isLow.2.2

end Runs

section Tokens

variable {token : List UInt8} {values others : List Int}

theorem tokenMeans_unique (means : TokenMeans token values)
    (means' : TokenMeans token others) : values = others := by
  cases means with
  | value isInt =>
      cases means' with
      | value isInt' => rw [isInt_unique isInt isInt']
      | run isRun _ => exact absurd isInt (not_isInt_of_isRun isRun _)
      | nothing noInt _ => exact absurd isInt (noInt _)
  | run isRun ordered =>
      cases means' with
      | value isInt => exact absurd isInt (not_isInt_of_isRun isRun _)
      | run isRun' _ =>
          obtain ⟨rfl, rfl⟩ := isRun_unique isRun isRun'
          rfl
      | nothing _ noRun => exact absurd ordered (noRun _ _ isRun)
  | nothing noInt noRun =>
      cases means' with
      | value isInt => exact absurd isInt (noInt _)
      | run isRun ordered => exact absurd ordered (noRun _ _ isRun)
      | nothing => rfl

theorem tokenMeans_nil : TokenMeans [] [] := by
  refine .nothing ?_ ?_
  · rintro value ⟨signed, _⟩
    exact signed.ne_nil rfl
  · rintro low high ⟨lo, hi, split, _⟩
    cases lo <;> cases split

theorem parseToken_overflow (ends : EndsAtMax token) (result : List Int) :
    parseToken token result = .error .signedOverflow := by
  obtain ⟨low, isRun⟩ := ends
  obtain ⟨dash, found⟩ := exists_dash isRun
  have nonempty : token ≠ [] := by
    rintro rfl
    cases found
  obtain ⟨lower, upper⟩ := (isRun_iff found).mp isRun
  have ordered := isRun.low_le_max
  rw [parseToken, if_neg nonempty, found]
  simp only [lower, upper, if_pos ordered]
  exact pushRun_overflow ordered result

theorem parseToken_number (nonempty : token ≠ [])
    (found : findFrom minus 1 token = none) :
    ∃ values, TokenMeans token values ∧
      ∀ result, parseToken token result = .ok (result ++ values) := by
  have noRun : ∀ low high, ¬ IsRun token low high := by
    intro low high isRun
    obtain ⟨dash, elsewhere⟩ := exists_dash isRun
    rw [found] at elsewhere
    cases elsewhere
  cases number : toInt token with
  | none =>
      refine ⟨[], .nothing ?_ ?_, fun result => ?_⟩
      · intro value isInt
        rw [← toInt_eq_some_iff, number] at isInt
        cases isInt
      · exact fun low high isRun => absurd isRun (noRun low high)
      · rw [parseToken, if_neg nonempty, found]
        simp only [number, List.append_nil]
  | some value =>
      refine ⟨[value], .value (toInt_eq_some_iff.mp number), fun result => ?_⟩
      rw [parseToken, if_neg nonempty, found]
      simp only [number]

theorem parseToken_run {dash : Nat} (bounded : ¬ EndsAtMax token)
    (nonempty : token ≠ []) (found : findFrom minus 1 token = some dash) :
    ∃ values, TokenMeans token values ∧
      ∀ result, parseToken token result = .ok (result ++ values) := by
  have noInt : ∀ value, ¬ IsInt token value := by
    intro value isInt
    rw [findFrom_of_isInt isInt] at found
    cases found
  cases lower : toInt (token.take dash) with
  | none =>
      refine ⟨[], .nothing noInt fun low high isRun => ?_, fun result => ?_⟩
      · rw [isRun_iff found, lower] at isRun
        cases isRun.1
      · rw [parseToken, if_neg nonempty, found]
        simp only [lower, List.append_nil]
  | some low =>
      cases upper : toInt (token.drop (dash + 1)) with
      | none =>
          refine ⟨[], .nothing noInt fun _ _ isRun => ?_, fun result => ?_⟩
          · rw [isRun_iff found, upper] at isRun
            cases isRun.2
          · rw [parseToken, if_neg nonempty, found]
            simp only [lower, upper, List.append_nil]
      | some high =>
          have isRun : IsRun token low high :=
            (isRun_iff found).mpr ⟨lower, upper⟩
          have parsed : ∀ result, parseToken token result =
              if low ≤ high then pushRun high low result else .ok result := by
            intro result
            rw [parseToken, if_neg nonempty, found]
            simp only [lower, upper]
          by_cases ordered : low ≤ high
          · have notMax : high ≠ intMax := by
              rintro rfl
              exact bounded ⟨low, isRun⟩
            have atMost := (toInt_eq_some_iff.mp upper).2.2
            refine ⟨_, .run isRun ordered, fun result => ?_⟩
            rw [parsed, if_pos ordered]
            exact pushRun_eq (by omega) low result
          · refine ⟨[], .nothing noInt fun _ _ isRun' => ?_, fun result => ?_⟩
            · obtain ⟨rfl, rfl⟩ := isRun_unique isRun isRun'
              exact ordered
            · rw [parsed, if_neg ordered, List.append_nil]

theorem parseToken_means (bounded : ¬ EndsAtMax token) :
    ∃ values, TokenMeans token values ∧
      ∀ result, parseToken token result = .ok (result ++ values) := by
  by_cases empty : token = []
  · refine ⟨[], empty ▸ tokenMeans_nil, fun result => ?_⟩
    rw [parseToken, if_pos empty, List.append_nil]
  · cases found : findFrom minus 1 token with
    | none => exact parseToken_number empty found
    | some dash => exact parseToken_run bounded empty found

end Tokens

section Lists

variable {list token rest : List UInt8} {tokens : List (List UInt8)}
variable {values others : List Int} {parts parts' : List (List Int)}

theorem getline_clean (first : comma ∉ token) :
    ∀ byte ∈ token, decide (byte ≠ comma) := by
  intro byte member
  rw [decide_eq_true_eq]
  rintro rfl
  exact first member

theorem parseTokens_split (first : comma ∉ token) (rest : List UInt8)
    (result : List Int) :
    parseTokens (token ++ comma :: rest) result =
      parseToken token result >>= parseTokens rest := by
  have clean := getline_clean first
  have taken : (token ++ comma :: rest).takeWhile (· ≠ comma) = token := by
    rw [List.takeWhile_append_of_pos clean]
    simp
  have left : (token ++ comma :: rest).dropWhile (· ≠ comma) =
      comma :: rest := by
    rw [List.dropWhile_append_of_pos clean]
    simp
  have nonempty : token ++ comma :: rest ≠ [] := by simp
  rw [parseTokens, if_neg nonempty, taken, left]
  cases parseToken token result <;> rfl

theorem parseTokens_last (last : comma ∉ token) (result : List Int) :
    parseTokens token result = parseToken token result := by
  have clean := getline_clean last
  by_cases empty : token = []
  · rw [parseTokens, if_pos empty, parseToken, if_pos empty]
  · rw [parseTokens, if_neg empty, List.takeWhile_eq_self_iff.mpr clean,
      List.dropWhile_eq_nil_iff.mpr clean]
    cases parseToken token result with
    | error => rfl
    | ok result => simp [parseTokens]

theorem parseTokens_eq (stream : List UInt8) (result : List Int) :
    parseTokens stream result =
      (stream.splitOn comma).foldlM
        (fun result token => parseToken token result) result := by
  induction length : stream.length using Nat.strong_induction_on
    generalizing stream result with
  | _ size induction =>
      by_cases separated : comma ∈ stream
      · obtain ⟨token, rest, rfl, first⟩ :=
          List.eq_append_cons_of_mem separated
        have shorter : rest.length < size := by
          rw [← length, List.length_append, List.length_cons]
          omega
        rw [parseTokens_split first,
          List.splitOn_append_cons_self_of_not_mem first, List.foldlM_cons]
        cases parseToken token result with
        | error => rfl
        | ok result => exact induction _ shorter rest result rfl
      · rw [parseTokens_last separated, List.splitOn_eq_singleton separated,
          List.foldlM_cons]
        cases parseToken stream result <;> rfl

theorem foldlM_overflow (ends : ∃ token ∈ tokens, EndsAtMax token)
    (result : List Int) :
    tokens.foldlM (fun result token => parseToken token result) result =
      .error .signedOverflow := by
  induction tokens generalizing result with
  | nil =>
      obtain ⟨token, member, _⟩ := ends
      cases member
  | cons token tokens induction =>
      rw [List.foldlM_cons]
      by_cases here : EndsAtMax token
      · rw [parseToken_overflow here]
        rfl
      · obtain ⟨values, _, parsed⟩ := parseToken_means here
        obtain ⟨other, member, later⟩ := ends
        rw [parsed]
        refine induction ⟨other, ?_, later⟩ _
        rcases List.mem_cons.mp member with rfl | inside
        · exact absurd later here
        · exact inside

theorem foldlM_means (bounded : ∀ token ∈ tokens, ¬ EndsAtMax token) :
    ∃ parts, List.Forall₂ TokenMeans tokens parts ∧ ∀ result,
      tokens.foldlM (fun result token => parseToken token result) result =
        .ok (result ++ parts.flatten) := by
  induction tokens with
  | nil => exact ⟨[], .nil, fun result => by simp [pure, Except.pure]⟩
  | cons token tokens induction =>
      obtain ⟨first, later⟩ := List.forall_mem_cons.mp bounded
      obtain ⟨values, means, parsed⟩ := parseToken_means first
      obtain ⟨parts, laterMeans, laterParsed⟩ := induction later
      refine ⟨values :: parts, .cons means laterMeans, fun result => ?_⟩
      rw [List.foldlM_cons, parsed]
      change List.foldlM _ (result ++ values) tokens = _
      rw [laterParsed, List.append_assoc, List.flatten_cons]

theorem forall₂_unique (means : List.Forall₂ TokenMeans tokens parts)
    (means' : List.Forall₂ TokenMeans tokens parts') : parts = parts' := by
  induction means generalizing parts' with
  | nil =>
      cases means'
      rfl
  | cons first _ induction =>
      cases means' with
      | cons first' later' =>
          rw [tokenMeans_unique first first', induction later']

/-- Parsing returns the one meaning of the list if and only if no token is a
run up to the greatest `int`. -/
theorem parseCpuList_exact_iff (list : List UInt8) :
    (∃ values, parseCpuList list = .ok values ∧
      ∀ others, Means list others ↔ others = values) ↔
      ∀ token ∈ list.splitOn comma, ¬ EndsAtMax token := by
  rw [parseCpuList, parseTokens_eq]
  constructor
  · rintro ⟨values, parsed, _⟩ token member ends
    rw [foldlM_overflow ⟨token, member, ends⟩] at parsed
    cases parsed
  · intro bounded
    obtain ⟨parts, means, parsed⟩ := foldlM_means bounded
    refine ⟨parts.flatten, parsed [], fun others => ?_⟩
    constructor
    · rintro ⟨parts', means', rfl⟩
      rw [forall₂_unique means means']
    · rintro rfl
      exact ⟨parts, means, rfl⟩

end Lists

/-- `2147483647` -/
def intMaxText : List UInt8 :=
  [0x32, 0x31, 0x34, 0x37, 0x34, 0x38, 0x33, 0x36, 0x34, 0x37]

/-- The run from the greatest `int` to itself means that number, and
overflows. -/
theorem parseCpuList_overflows :
    Means (intMaxText ++ minus :: intMaxText) [intMax] ∧
      parseCpuList (intMaxText ++ minus :: intMaxText) =
        .error .signedOverflow := by
  have isInt : IsInt intMaxText intMax :=
    toInt_eq_some_iff.mp (by decide)
  have isRun : IsRun (intMaxText ++ minus :: intMaxText) intMax intMax :=
    ⟨_, _, rfl, isInt, isInt⟩
  have whole : (intMaxText ++ minus :: intMaxText).splitOn comma =
      [intMaxText ++ minus :: intMaxText] :=
    List.splitOn_eq_singleton (by decide)
  constructor
  · refine ⟨[ascendingRun intMax intMax], ?_, by decide⟩
    rw [whole]
    exact .cons (.run isRun le_rfl) .nil
  · rw [parseCpuList, parseTokens_eq, whole]
    exact foldlM_overflow ⟨_, List.mem_cons_self, intMax, isRun⟩ []

end Hydra
