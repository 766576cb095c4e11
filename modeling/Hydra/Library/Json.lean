import Hydra.Library.Ascii

/-!
# Strings of JSON texts

The strings of RFC 8259 on bytes.  `IsText` is the grammar of what stands
between the quotation marks: bytes that need no escape, pairs of a reverse
solidus and one of eight characters, and `\u` with four hexadecimal digits.

The reader decodes the escapes while it looks for the closing quotation mark.
A `\u` escape stands for a UTF-16 code unit, a pair of surrogates for the one
code point that they encode; the reader writes code points in UTF-8 and refuses
a surrogate without its partner.
-/

namespace Json

open Ascii

/-- The `u` of an escape with a code unit. -/
def unitMark : UInt8 := 0x75

/-- The byte that stands for an escape of two characters. -/
def escaped? (byte : UInt8) : Option UInt8 :=
  if byte = quote ∨ byte = backslash ∨ byte = slash then some byte
  else if byte = 0x62 then some 0x08
  else if byte = 0x66 then some 0x0C
  else if byte = 0x6E then some lineFeed
  else if byte = 0x72 then some carriageReturn
  else if byte = 0x74 then some tab
  else none

/-- A byte that needs no escape. -/
def Unescaped (byte : UInt8) : Prop :=
  0x20 ≤ byte ∧ byte ≠ quote ∧ byte ≠ backslash

instance (byte : UInt8) : Decidable (Unescaped byte) :=
  inferInstanceAs (Decidable (_ ∧ _))

/-- What may stand between two quotation marks. -/
inductive IsText : List UInt8 → Prop where
  | nil : IsText []
  | plain {byte : UInt8} {text : List UInt8} :
      Unescaped byte → IsText text → IsText (byte :: text)
  | pair {byte : UInt8} {text : List UInt8} :
      (escaped? byte).isSome → IsText text →
      IsText (backslash :: byte :: text)
  | unit {digits text : List UInt8} :
      digits.length = 4 → (∀ digit ∈ digits, (hexValue? digit).isSome) →
      IsText text → IsText (backslash :: unitMark :: (digits ++ text))

/-- Where the decoder stands in a string. -/
inductive Place where
  | text
  | escape
  /-- Inside a code unit: the digits that are missing after the next one, and
  the value of those before it. -/
  | unit (missing value : Nat)
  /-- After the first of two surrogates. -/
  | paired (first : Nat)
  | pairedEscape (first : Nat)
  | pairedUnit (first missing value : Nat)

/-- What the decoder does at a byte. -/
inductive Action where
  | emit (bytes : List UInt8) (next : Place)
  | close

/-- The UTF-8 image of a code point. -/
def codePoint (value : Nat) : List UInt8 :=
  String.utf8EncodeChar (Char.ofNat value)

/-- The code unit is complete. -/
def endUnit (value : Nat) : Option Action :=
  if 0xD800 ≤ value ∧ value < 0xDC00 then some (.emit [] (.paired value))
  else if 0xDC00 ≤ value ∧ value < 0xE000 then none
  else some (.emit (codePoint value) .text)

/-- The second code unit of a pair is complete. -/
def endPair (first value : Nat) : Option Action :=
  if 0xDC00 ≤ value ∧ value < 0xE000 then
    some (.emit (codePoint
      (0x10000 + (first - 0xD800) * 0x400 + (value - 0xDC00))) .text)
  else none

def step : Place → UInt8 → Option Action
  | .text, byte =>
      if byte = quote then some .close
      else if byte = backslash then some (.emit [] .escape)
      else if byte < 0x20 then none
      else some (.emit [byte] .text)
  | .escape, byte =>
      if byte = unitMark then some (.emit [] (.unit 3 0))
      else (escaped? byte).map fun meant => .emit [meant] .text
  | .unit missing value, byte =>
      (hexValue? byte).bind fun digit =>
        if missing = 0 then endUnit (value * 16 + digit)
        else some (.emit [] (.unit (missing - 1) (value * 16 + digit)))
  | .paired first, byte =>
      if byte = backslash then some (.emit [] (.pairedEscape first)) else none
  | .pairedEscape first, byte =>
      if byte = unitMark then some (.emit [] (.pairedUnit first 3 0)) else none
  | .pairedUnit first missing value, byte =>
      (hexValue? byte).bind fun digit =>
        if missing = 0 then endPair first (value * 16 + digit)
        else some
          (.emit [] (.pairedUnit first (missing - 1) (value * 16 + digit)))

/-- Decoded text in front of what was read. -/
def prepend (front : List UInt8) (read : List UInt8 × List UInt8) :
    List UInt8 × List UInt8 :=
  (front ++ read.1, read.2)

/-- The decoded text up to the closing quotation mark, and what follows it. -/
def scan : Place → List UInt8 → Option (List UInt8 × List UInt8)
  | _, [] => none
  | place, byte :: bytes =>
      match step place byte with
      | none => none
      | some (.emit out next) => (scan next bytes).map (prepend out)
      | some .close => some ([], bytes)

/-- Read a string literal from its opening quotation mark. -/
def readString : List UInt8 → Option (List UInt8 × List UInt8)
  | [] => none
  | byte :: bytes => if byte = quote then scan .text bytes else none

variable {byte meant : UInt8} {bytes text : List UInt8}

theorem printable_escaped (isSome : (escaped? byte).isSome) : 0x20 ≤ byte := by
  by_contra low
  have differs : ∀ other : UInt8, 0x20 ≤ other → byte ≠ other := by
    rintro other large rfl
    exact low large
  simp [escaped?, quote, backslash, slash, differs] at isSome

theorem printable_hexDigit (isSome : (hexValue? byte).isSome) :
    0x20 ≤ byte := by
  rw [hexValue?] at isSome
  split at isSome
  · rename_i decimal
    rw [isDigit, Bool.and_eq_true, decide_eq_true_eq] at decimal
    exact UInt8.le_trans (by decide) decimal.1
  · split at isSome
    · rename_i lower
      exact UInt8.le_trans (by decide) lower.1
    · split at isSome
      · rename_i upper
        exact UInt8.le_trans (by decide) upper.1
      · cases isSome

theorem IsText.printable (isText : IsText text) :
    ∀ byte ∈ text, 0x20 ≤ byte := by
  induction isText with
  | nil => simp
  | plain unescaped _ induction =>
      exact List.forall_mem_cons.mpr ⟨unescaped.1, induction⟩
  | pair isSome _ induction =>
      refine List.forall_mem_cons.mpr ⟨by decide, ?_⟩
      exact List.forall_mem_cons.mpr ⟨printable_escaped isSome, induction⟩
  | unit _ digits _ induction =>
      refine List.forall_mem_cons.mpr ⟨by decide, ?_⟩
      refine List.forall_mem_cons.mpr ⟨by decide, ?_⟩
      intro byte member
      rcases List.mem_append.mp member with digit | later
      · exact printable_hexDigit (digits byte digit)
      · exact induction byte later

theorem map_prepend_prepend (front back : List UInt8)
    (read : Option (List UInt8 × List UInt8)) :
    (read.map (prepend back)).map (prepend front) =
      read.map (prepend (front ++ back)) := by
  cases read <;> simp [prepend]

theorem scan_emit {place next : Place} {out : List UInt8}
    (emitted : step place byte = some (.emit out next))
    (bytes : List UInt8) :
    scan place (byte :: bytes) = (scan next bytes).map (prepend out) := by
  rw [scan, emitted]

theorem scan_plain (unescaped : Unescaped byte) (bytes : List UInt8) :
    scan .text (byte :: bytes) =
      (scan .text bytes).map (prepend [byte]) := by
  obtain ⟨large, notQuote, notBackslash⟩ := unescaped
  refine scan_emit ?_ bytes
  rw [step, if_neg notQuote, if_neg notBackslash,
    if_neg (UInt8.not_lt.mpr large)]

theorem scan_pair (standsFor : escaped? byte = some meant)
    (bytes : List UInt8) :
    scan .text (backslash :: byte :: bytes) =
      (scan .text bytes).map (prepend [meant]) := by
  have notUnit : byte ≠ unitMark := by
    rintro rfl
    cases standsFor
  have opened : step .text backslash = some (.emit [] .escape) := rfl
  have pair : step .escape byte = some (.emit [meant] .text) := by
    rw [step, if_neg notUnit, standsFor, Option.map_some]
  rw [scan_emit opened, scan_emit pair, map_prepend_prepend, List.nil_append]

/-- Four hexadecimal digits. -/
def hexDigits4 (value : Nat) : List UInt8 :=
  [hexDigit (value / 4096 % 16), hexDigit (value / 256 % 16),
    hexDigit (value / 16 % 16), hexDigit (value % 16)]

theorem step_unit {digit : Nat} (small : digit < 16) (missing value : Nat) :
    step (.unit (missing + 1) value) (hexDigit digit) =
      some (.emit [] (.unit missing (value * 16 + digit))) := by
  rw [step, hexValue?_hexDigit small]
  rfl

theorem step_lastDigit {digit : Nat} (small : digit < 16) (value : Nat) :
    step (.unit 0 value) (hexDigit digit) = endUnit (value * 16 + digit) := by
  rw [step, hexValue?_hexDigit small]
  rfl

theorem scan_unit {value : Nat} (small : value < 0xD800)
    (bytes : List UInt8) :
    scan .text (backslash :: unitMark :: (hexDigits4 value ++ bytes)) =
      (scan .text bytes).map (prepend (codePoint value)) := by
  have digit : ∀ number : Nat, number % 16 < 16 := fun number =>
    Nat.mod_lt number (by decide)
  have opened : step .text backslash = some (.emit [] .escape) := rfl
  have marked : step .escape unitMark = some (.emit [] (.unit 3 0)) := rfl
  have total : (((0 * 16 + value / 4096 % 16) * 16 + value / 256 % 16) * 16 +
      value / 16 % 16) * 16 + value % 16 = value := by
    omega
  have complete : endUnit value = some (.emit (codePoint value) .text) := by
    rw [endUnit, if_neg (by omega), if_neg (by omega)]
  have last := step_lastDigit (digit value)
    (((0 * 16 + value / 4096 % 16) * 16 + value / 256 % 16) * 16 +
      value / 16 % 16)
  rw [total, complete] at last
  rw [scan_emit opened, scan_emit marked]
  change ((scan (.unit 3 0) (hexDigit _ :: hexDigit _ :: hexDigit _ ::
    hexDigit _ :: bytes)).map _).map _ = _
  rw [scan_emit (step_unit (digit _) 2 _), scan_emit (step_unit (digit _) 1 _),
    scan_emit (step_unit (digit _) 0 _), scan_emit last]
  simp only [map_prepend_prepend, List.nil_append]

end Json
