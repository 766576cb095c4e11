import Hydra.Library.Table
import Hydra.Pipeline.Matching

/-!
# The raw samples of a benchmark

`write_raw_csv` writes all samples of all trials into one table.  Nothing is
lost: whoever knows how many trials there were reads back every sample of every
trial, in order and with its time.
-/

namespace Hydra

open Ascii Decimal

/-- The samples of a trial, each with the time at which its event was pushed. -/
structure TrialRecord where
  samples : List LatencySample
  timestampsUnix : List Int64
  /-- The samples are cut to as many as there are times. -/
  length_eq : samples.length = timestampsUnix.length

@[ext] theorem TrialRecord.ext {left right : TrialRecord}
    (samples : left.samples = right.samples)
    (times : left.timestampsUnix = right.timestampsUnix) : left = right := by
  cases left
  cases right
  cases samples
  cases times
  rfl

def rawColumns : List (List UInt8) :=
  ["trial", "iteration", "queue_residence_ns", "queue_pop_ns", "match_time_ns",
    "fill_publish_ns", "end_to_end_ns", "fills_generated", "levels_consumed",
    "resting_orders_examined", "eligible_orders_examined", "self_trade_skips",
    "remaining_qty", "timestamp_unix", "is_cancel", "is_replace"].map ofString

def flag (value : Bool) : List UInt8 := print (if value then 1 else 0)

def rawFields (t i : Nat) (s : LatencySample) (timestampUnix : Int64) :
    List (List UInt8) :=
  [print t, print i, print s.queueResidenceNs.toNat, print s.queuePopNs.toNat,
    print s.matchTimeNs.toNat, print s.fillPublishNs.toNat,
    print s.endToEndNs.toNat, print s.fillsGenerated.toNat,
    print s.levelsConsumed.toNat, print s.restingOrdersExamined.toNat,
    print s.eligibleOrdersExamined.toNat, print s.selfTradeSkips.toNat,
    print s.remainingQty.toNat, printInt timestampUnix.toInt,
    flag s.isCancel, flag s.isReplace]

/-- The rows of trial `t` from sample `i` on. -/
def trialRows (t : Nat) :
    Nat → List LatencySample → List Int64 → List (List (List UInt8))
  | i, s :: samples, timestampUnix :: timestampsUnix =>
      rawFields t i s timestampUnix ::
        trialRows t (i + 1) samples timestampsUnix
  | _, _, _ => []

/-- The rows of the trials from trial `t` on. -/
def rawRows : Nat → List TrialRecord → List (List (List UInt8))
  | _, [] => []
  | t, rec :: trials =>
      trialRows t 0 rec.samples rec.timestampsUnix ++ rawRows (t + 1) trials

/-- `write_raw_csv`. -/
def rawCsv (trials : List TrialRecord) : List UInt8 :=
  Csv.table ((rawColumns :: rawRows 0 trials).map Csv.line)

/-- A row of the table: a sample and where it belongs. -/
structure RawRow where
  trial : Nat
  iteration : Nat
  sample : LatencySample
  timestampUnix : Int64

def readFlag? (field : List UInt8) : Option Bool :=
  (read? field).bind fun value =>
    if value = 1 then some true else if value = 0 then some false else none

def readRow? : List (List UInt8) → Option RawRow
  | [trial, iteration, queueResidence, queuePop, matchTime, fillPublish,
      endToEnd, fills, levels, resting, eligible, selfTrades, remaining,
      timestampUnix, isCancel, isReplace] => do
      return {
        trial := ← read? trial
        iteration := ← read? iteration
        sample :=
          { queueResidenceNs := .ofNat (← read? queueResidence)
            queuePopNs := .ofNat (← read? queuePop)
            matchTimeNs := .ofNat (← read? matchTime)
            fillPublishNs := .ofNat (← read? fillPublish)
            endToEndNs := .ofNat (← read? endToEnd)
            fillsGenerated := .ofNat (← read? fills)
            levelsConsumed := .ofNat (← read? levels)
            restingOrdersExamined := .ofNat (← read? resting)
            eligibleOrdersExamined := .ofNat (← read? eligible)
            selfTradeSkips := .ofNat (← read? selfTrades)
            remainingQty := .ofNat (← read? remaining)
            isCancel := ← readFlag? isCancel
            isReplace := ← readFlag? isReplace }
        timestampUnix := .ofInt (← readInt? timestampUnix) }
  | _ => none

def trialOf (rows : List RawRow) (trial : Nat) : TrialRecord :=
  let own := rows.filter fun row => decide (row.trial = trial)
  { samples := own.map RawRow.sample
    timestampsUnix := own.map RawRow.timestampUnix
    length_eq := by rw [List.length_map, List.length_map] }

/-- The trials of a file, if there are `count` of them. -/
def readRawCsv (count : Nat) (bytes : List UInt8) : Option (List TrialRecord) :=
  (Csv.readTable bytes).bind fun records =>
    (records.tail.mapM readRow?).map fun rows =>
      (List.range count).map (trialOf rows)

section Rows

variable {t i : Nat} {s : LatencySample} {timestampUnix : Int64}

theorem readFlag?_flag (value : Bool) :
    readFlag? (flag value) = some value := by
  rw [readFlag?, flag, read?_print]
  cases value <;> rfl

theorem readRow?_rawFields (t i : Nat) (s : LatencySample)
    (timestampUnix : Int64) :
    readRow? (rawFields t i s timestampUnix) =
      some { trial := t, iteration := i, sample := s, timestampUnix } := by
  simp [readRow?, rawFields, read?_print, readInt?_printInt, readFlag?_flag]

theorem isField_rawFields :
    ∀ field ∈ rawFields t i s timestampUnix, Csv.IsField field field := by
  intro field member
  simp only [rawFields, flag, List.mem_cons, List.not_mem_nil, or_false]
    at member
  rcases member with rfl | rfl | rfl | rfl | rfl | rfl | rfl | rfl | rfl | rfl |
    rfl | rfl | rfl | rfl | rfl | rfl
  all_goals first
    | exact Csv.isField_print _
    | exact Csv.isField_printInt _

theorem isField_rawColumns : ∀ field ∈ rawColumns, Csv.IsField field field := by
  -- The kernel evaluates the names; the elaborator would run out of depth.
  have clean : ∀ field ∈ rawColumns, ∀ byte ∈ field, ¬ Csv.Special byte := by
    decide +kernel
  exact fun field member => .plain (clean field member)

theorem isRecord_plain {fields : List (List UInt8)} (some_field : fields ≠ [])
    (plain : ∀ field ∈ fields, Csv.IsField field field) :
    Csv.IsRecord (Csv.line fields) fields := by
  obtain ⟨first, others, rfl⟩ := List.exists_cons_of_ne_nil some_field
  obtain ⟨isFirst, rest⟩ := List.forall_mem_cons.mp plain
  apply Csv.isRecord_line isFirst
  rw [List.forall₂_same]
  exact rest

end Rows

namespace RawRow

def fields (row : RawRow) : List (List UInt8) :=
  rawFields row.trial row.iteration row.sample row.timestampUnix

/-- The rows of trial `t` from sample `i` on, before they are printed. -/
def ofTrial (t : Nat) : Nat → List LatencySample → List Int64 → List RawRow
  | i, sample :: samples, timestampUnix :: timestampsUnix =>
      { trial := t, iteration := i, sample, timestampUnix } ::
        ofTrial t (i + 1) samples timestampsUnix
  | _, _, _ => []

/-- The rows of the trials from trial `t` on. -/
def ofTrials : Nat → List TrialRecord → List RawRow
  | _, [] => []
  | t, rec :: trials =>
      ofTrial t 0 rec.samples rec.timestampsUnix ++ ofTrials (t + 1) trials

end RawRow

section Trials

variable {t i trial : Nat} {samples : List LatencySample}
variable {timestampsUnix : List Int64} {trials : List TrialRecord}

theorem trialRows_eq (t i : Nat) (samples : List LatencySample)
    (timestampsUnix : List Int64) :
    trialRows t i samples timestampsUnix =
      (RawRow.ofTrial t i samples timestampsUnix).map RawRow.fields := by
  induction samples generalizing i timestampsUnix with
  | nil => rfl
  | cons sample samples induction =>
      cases timestampsUnix with
      | nil => rfl
      | cons timestampUnix timestampsUnix =>
          rw [trialRows, induction]
          rfl

theorem rawRows_eq (t : Nat) (trials : List TrialRecord) :
    rawRows t trials = (RawRow.ofTrials t trials).map RawRow.fields := by
  induction trials generalizing t with
  | nil => rfl
  | cons rec trials induction =>
      rw [rawRows, trialRows_eq, induction, RawRow.ofTrials, List.map_append]

theorem mapM_readRow? (rows : List RawRow) :
    (rows.map RawRow.fields).mapM readRow? = some rows := by
  induction rows with
  | nil => rfl
  | cons row rows induction =>
      rw [List.map_cons, List.mapM_cons, RawRow.fields, readRow?_rawFields,
        induction]
      rfl

theorem ofTrial_samples (length_eq : samples.length = timestampsUnix.length) :
    (RawRow.ofTrial t i samples timestampsUnix).map RawRow.sample = samples ∧
      (RawRow.ofTrial t i samples timestampsUnix).map RawRow.timestampUnix =
        timestampsUnix := by
  induction samples generalizing i timestampsUnix with
  | nil =>
      rw [List.length_nil] at length_eq
      rw [List.eq_nil_of_length_eq_zero length_eq.symm]
      exact ⟨rfl, rfl⟩
  | cons sample samples induction =>
      cases timestampsUnix with
      | nil => cases length_eq
      | cons timestampUnix timestampsUnix =>
          obtain ⟨own, times⟩ := @induction (i + 1) timestampsUnix
            (Nat.succ_inj.mp length_eq)
          rw [RawRow.ofTrial, List.map_cons, List.map_cons, own, times]
          exact ⟨rfl, rfl⟩

theorem trial_of_mem_ofTrial {row : RawRow}
    (member : row ∈ RawRow.ofTrial t i samples timestampsUnix) :
    row.trial = t := by
  induction samples generalizing i timestampsUnix with
  | nil => cases member
  | cons sample samples induction =>
      cases timestampsUnix with
      | nil => cases member
      | cons timestampUnix timestampsUnix =>
          rcases List.mem_cons.mp member with rfl | next
          · rfl
          · exact induction next

theorem filter_ofTrial (t i trial : Nat) (samples : List LatencySample)
    (timestampsUnix : List Int64) :
    (RawRow.ofTrial t i samples timestampsUnix).filter
        (fun row => decide (row.trial = trial)) =
      if t = trial then RawRow.ofTrial t i samples timestampsUnix else [] := by
  split
  next same =>
    rw [List.filter_eq_self]
    intro row member
    exact decide_eq_true ((trial_of_mem_ofTrial member).trans same)
  next other =>
    rw [List.filter_eq_nil_iff]
    intro row member
    rw [trial_of_mem_ofTrial member, decide_eq_true_iff]
    exact other

theorem filter_ofTrials_lt (before : trial < t) :
    (RawRow.ofTrials t trials).filter
      (fun row => decide (row.trial = trial)) = [] := by
  induction trials generalizing t with
  | nil => rfl
  | cons rec trials induction =>
      rw [RawRow.ofTrials, List.filter_append, filter_ofTrial,
        if_neg (Nat.ne_of_gt before), induction (Nat.lt_succ_of_lt before)]
      rfl

theorem trialOf_ofTrials {rec : TrialRecord} {k : Nat}
    (found : trials[k]? = some rec) :
    trialOf (RawRow.ofTrials t trials) (t + k) = rec := by
  have rows : (RawRow.ofTrials t trials).filter
      (fun row => decide (row.trial = t + k)) =
        RawRow.ofTrial (t + k) 0 rec.samples rec.timestampsUnix := by
    induction trials generalizing t k with
    | nil => cases found
    | cons first trials induction =>
        rw [RawRow.ofTrials, List.filter_append, filter_ofTrial]
        cases k with
        | zero =>
            cases found
            rw [Nat.add_zero, if_pos rfl,
              filter_ofTrials_lt (Nat.lt_add_one t), List.append_nil]
        | succ k =>
            have later := @induction (t + 1) k found
            rw [Nat.add_assoc, Nat.add_comm 1] at later
            rw [if_neg (by omega), later]
            rfl
  obtain ⟨own, times⟩ := @ofTrial_samples (t + k) 0 rec.samples
    rec.timestampsUnix rec.length_eq
  ext1
  · exact (congrArg (List.map RawRow.sample) rows).trans own
  · exact (congrArg (List.map RawRow.timestampUnix) rows).trans times

theorem length_ofTrials (t : Nat) (trials : List TrialRecord) :
    (RawRow.ofTrials t trials).length =
      (trials.map fun rec => rec.samples.length).sum := by
  induction trials generalizing t with
  | nil => rfl
  | cons rec trials induction =>
      have own := congrArg List.length
        (@ofTrial_samples t 0 rec.samples rec.timestampsUnix rec.length_eq).1
      rw [List.length_map] at own
      rw [RawRow.ofTrials, List.length_append, own, induction, List.map_cons,
        List.sum_cons]

end Trials

theorem readTable_rawCsv (trials : List TrialRecord) :
    Csv.readTable (rawCsv trials) = some (rawColumns :: rawRows 0 trials) := by
  apply Csv.readTable_table
  rw [List.forall₂_map_left_iff, List.forall₂_same]
  intro fields member
  rcases List.mem_cons.mp member with rfl | row
  · exact isRecord_plain (List.cons_ne_nil _ _) isField_rawColumns
  · rw [rawRows_eq] at row
    obtain ⟨entry, _, rfl⟩ := List.mem_map.mp row
    exact isRecord_plain (List.cons_ne_nil _ _) isField_rawFields

/-- The file is a table with one row for each sample, as wide as its header,
and all the trials are read back from it. -/
theorem rawCsv_lossless (trials : List TrialRecord) :
    (∃ rows, Csv.readTable (rawCsv trials) = some (rawColumns :: rows) ∧
      rows.length = (trials.map fun rec => rec.samples.length).sum ∧
      ∀ row ∈ rows, row.length = rawColumns.length) ∧
    readRawCsv trials.length (rawCsv trials) = some trials := by
  have table := readTable_rawCsv trials
  constructor
  · refine ⟨rawRows 0 trials, table, ?_, ?_⟩
    · rw [rawRows_eq, List.length_map, length_ofTrials]
    · intro row member
      rw [rawRows_eq] at member
      obtain ⟨entry, _, rfl⟩ := List.mem_map.mp member
      rfl
  · rw [readRawCsv, table, Option.bind_some, List.tail_cons, rawRows_eq,
      mapM_readRow?, Option.map_some, Option.some.injEq]
    apply List.ext_getElem?
    intro k
    rw [List.getElem?_map]
    by_cases inside : k < trials.length
    · rw [List.getElem?_range inside, Option.map_some,
        List.getElem?_eq_getElem inside]
      have found := List.getElem?_eq_getElem inside
      have read := @trialOf_ofTrials 0 trials _ k found
      rw [Nat.zero_add] at read
      rw [read]
    · rw [List.getElem?_eq_none (Nat.le_of_not_lt inside),
        List.getElem?_eq_none]
      · rfl
      · rw [List.length_range]
        exact Nat.le_of_not_lt inside

end Hydra
