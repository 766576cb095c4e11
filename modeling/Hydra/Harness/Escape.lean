import Hydra.Library.Csv
import Hydra.Library.Json

/-!
# Escaping in the reports of a benchmark

`csvEscape` makes a field of the summary out of any string, `jsonEscape` the
inside of a string literal of the metadata.  Both lose nothing: whatever bytes
the strings hold, a row is read back as the fields that it was written from,
and a literal as the string.
-/

namespace Hydra

open Ascii

/-- Quote the field if it has to be quoted; every quote in it is doubled. -/
def csvEscape (s : List UInt8) : List UInt8 :=
  if s.findIdx? (· ∈ [comma, quote, lineFeed, carriageReturn]) = none then s
  else
    let doubled := s.flatMap fun c => if c = quote then [quote, c] else [c]
    quote :: (doubled ++ [quote])

/-- One round of the loop; control characters are printed with `\u%04x`. -/
def jsonEscapeByte (c : UInt8) : List UInt8 :=
  if c = quote then [backslash, quote]
  else if c = backslash then [backslash, backslash]
  else if c = lineFeed then [backslash, 0x6E]
  else if c = carriageReturn then [backslash, 0x72]
  else if c = tab then [backslash, 0x74]
  else if c < 0x20 then backslash :: 0x75 :: Json.hexDigits4 c.toNat
  else [c]

/-- `json_escape`: the bytes of a text, as they stand between quotes. -/
def jsonEscape (s : List UInt8) : List UInt8 := s.flatMap jsonEscapeByte

/-- The fields of a row with commas between them. -/
def csvRow (fields : List (List UInt8)) : List UInt8 :=
  List.intercalate [comma] (fields.map csvEscape)

theorem flatMap_doubled (s : List UInt8) :
    (s.flatMap fun c => if c = quote then [quote, c] else [c]) =
      Csv.doubleQuotes s := by
  induction s with
  | nil => rfl
  | cons c s induction =>
      rw [List.flatMap_cons, induction, Csv.doubleQuotes]
      by_cases quoted : c = quote
      · rw [if_pos quoted, if_pos quoted, quoted]
        rfl
      · rw [if_neg quoted, if_neg quoted]
        rfl

theorem csvEscape_isField (s : List UInt8) :
    Csv.IsField (csvEscape s) s := by
  rw [csvEscape]
  split
  · rename_i clean
    refine .plain fun byte member special => ?_
    have outside := List.findIdx?_eq_none_iff.mp clean byte member
    rcases special with rfl | rfl | rfl | rfl <;> cases outside
  · rw [flatMap_doubled]
    exact .quoted s

theorem csvRow_isRecord (first : List UInt8) (others : List (List UInt8)) :
    Csv.IsRecord (csvRow (first :: others)) (first :: others) := by
  induction others generalizing first with
  | nil =>
      have single : csvRow [first] = csvEscape first := by
        simp [csvRow, List.intercalate]
      rw [single]
      exact .last (csvEscape_isField first)
  | cons second others induction =>
      have split : csvRow (first :: second :: others) =
          csvEscape first ++ comma :: csvRow (second :: others) := by
        simp [csvRow, List.intercalate]
      rw [split]
      exact .more (csvEscape_isField first) (induction second)

section Literals

variable {c : UInt8} {text rest : List UInt8}

theorem control_codePoint {value : Nat} (control : value < 0x20) :
    Json.codePoint value = [UInt8.ofNat value] := by
  have checked : ∀ value < 0x20,
      Json.codePoint value = [UInt8.ofNat value] := by
    decide
  exact checked value control

theorem isSome_hexValue? {digit : Nat} (small : digit < 16) :
    (hexValue? (hexDigit digit)).isSome := by
  rw [hexValue?_hexDigit small]
  rfl

theorem hexDigits4_digits (value : Nat) :
    ∀ digit ∈ Json.hexDigits4 value, (hexValue? digit).isSome := by
  intro digit member
  have small : ∀ number : Nat, number % 16 < 16 := fun number =>
    Nat.mod_lt number (by decide)
  simp only [Json.hexDigits4, List.mem_cons, List.not_mem_nil, or_false]
    at member
  rcases member with rfl | rfl | rfl | rfl <;>
    exact isSome_hexValue? (small _)

theorem jsonEscapeByte_cases (c : UInt8) :
    (∃ mark, jsonEscapeByte c = [backslash, mark] ∧
      Json.escaped? mark = some c) ∨
    (c < 0x20 ∧ jsonEscapeByte c =
      backslash :: Json.unitMark :: Json.hexDigits4 c.toNat) ∨
    (Json.Unescaped c ∧ jsonEscapeByte c = [c]) := by
  rw [jsonEscapeByte]
  split
  · rename_i same
    subst same
    exact .inl ⟨quote, rfl, rfl⟩
  · split
    · rename_i same
      subst same
      exact .inl ⟨backslash, rfl, rfl⟩
    · split
      · rename_i same
        subst same
        exact .inl ⟨0x6E, rfl, rfl⟩
      · split
        · rename_i same
          subst same
          exact .inl ⟨0x72, rfl, rfl⟩
        · split
          · rename_i same
            subst same
            exact .inl ⟨0x74, rfl, rfl⟩
          · split
            · rename_i control
              exact .inr (.inl ⟨control, rfl⟩)
            · rename_i notQuote notBackslash _ _ _ printable
              exact .inr (.inr
                ⟨⟨UInt8.not_lt.mp printable, notQuote, notBackslash⟩, rfl⟩)

theorem isText_escapeByte (c : UInt8) (isText : Json.IsText text) :
    Json.IsText (jsonEscapeByte c ++ text) := by
  rcases jsonEscapeByte_cases c with
    ⟨mark, escaped, standsFor⟩ | ⟨_, escaped⟩ | ⟨unescaped, escaped⟩
  · rw [escaped]
    exact .pair (by rw [standsFor]; rfl) isText
  · rw [escaped]
    exact .unit rfl (hexDigits4_digits c.toNat) isText
  · rw [escaped]
    exact .plain unescaped isText

theorem scan_escapeByte (c : UInt8) (rest : List UInt8) :
    Json.scan .text (jsonEscapeByte c ++ rest) =
      (Json.scan .text rest).map (Json.prepend [c]) := by
  rcases jsonEscapeByte_cases c with
    ⟨mark, escaped, standsFor⟩ | ⟨control, escaped⟩ | ⟨unescaped, escaped⟩
  · rw [escaped]
    exact Json.scan_pair standsFor rest
  · have value : c.toNat < 0x20 := UInt8.lt_iff_toNat_lt.mp control
    rw [escaped]
    refine (Json.scan_unit (by omega) rest).trans ?_
    rw [control_codePoint value, UInt8.ofNat_toNat]
  · rw [escaped]
    exact Json.scan_plain unescaped rest

theorem jsonEscape_isText (s : List UInt8) : Json.IsText (jsonEscape s) := by
  induction s with
  | nil => exact .nil
  | cons c s induction => exact isText_escapeByte c induction

theorem scan_jsonEscape (s rest : List UInt8) :
    Json.scan .text (jsonEscape s ++ quote :: rest) = some (s, rest) := by
  induction s with
  | nil => rfl
  | cons c s induction =>
      have split : jsonEscape (c :: s) ++ quote :: rest =
          jsonEscapeByte c ++ (jsonEscape s ++ quote :: rest) := by
        rw [jsonEscape, List.flatMap_cons, List.append_assoc, jsonEscape]
      rw [split, scan_escapeByte, induction]
      rfl

end Literals

/-- Whatever the strings contain, a row of the summary is read back as its
fields and a literal of the metadata as its string, and what follows them is
what was written behind them. -/
theorem escape_lossless :
    (∀ first others,
      Csv.readRecord (csvRow (first :: others)) = some (first :: others, []) ∧
      ∀ rest, Csv.readRecord (csvRow (first :: others) ++ lineFeed :: rest) =
        some (first :: others, rest)) ∧
    ∀ s, Json.IsText (jsonEscape s) ∧
      (∀ byte ∈ jsonEscape s, 0x20 ≤ byte) ∧
      ∀ rest, Json.readString (quote :: (jsonEscape s ++ quote :: rest)) =
        some (s, rest) := by
  refine ⟨fun first others => ?_, fun s => ?_⟩
  · have isRecord := csvRow_isRecord first others
    exact ⟨Csv.readRecord_end isRecord, Csv.readRecord_line isRecord⟩
  · have isText := jsonEscape_isText s
    exact ⟨isText, isText.printable, scan_jsonEscape s⟩

end Hydra
