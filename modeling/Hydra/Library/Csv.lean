import Hydra.Library.Ascii

/-!
# Records of comma-separated values

The grammar of RFC 4180 on bytes: a record is a sequence of fields between
commas, and a field is either text without quotes, commas and line breaks, or
quoted, with every quote in it doubled.  The reader goes over the bytes once
and returns the fields of the first record with what follows its line break,
which may be CR LF or LF alone; it refuses what the grammar does not derive
(a quote inside an unquoted field, text after a closing quote, a quoted field
that is not closed).

Whatever the grammar derives is read back.
-/

namespace Csv

open Ascii

/-- A byte that may stand only in quoted fields. -/
def Special (byte : UInt8) : Prop :=
  byte = quote ∨ byte = comma ∨ byte = lineFeed ∨ byte = carriageReturn

instance (byte : UInt8) : Decidable (Special byte) :=
  inferInstanceAs (Decidable (_ ∨ _))

/-- Every quote twice. -/
def doubleQuotes : List UInt8 → List UInt8
  | [] => []
  | byte :: bytes =>
      if byte = quote then quote :: quote :: doubleQuotes bytes
      else byte :: doubleQuotes bytes

/-- The images of a field. -/
inductive IsField : List UInt8 → List UInt8 → Prop where
  | plain {field : List UInt8} :
      (∀ byte ∈ field, ¬ Special byte) → IsField field field
  | quoted (field : List UInt8) :
      IsField (quote :: (doubleQuotes field ++ [quote])) field

/-- The lines that hold a record. -/
inductive IsRecord : List UInt8 → List (List UInt8) → Prop where
  | last {image field : List UInt8} :
      IsField image field → IsRecord image [field]
  | more {image field line : List UInt8} {fields : List (List UInt8)} :
      IsField image field → IsRecord line fields →
      IsRecord (image ++ comma :: line) (field :: fields)

/-- Where the reader stands. -/
inductive Place where
  | start
  | plain
  | quoted
  /-- After a quote in a quoted field, which may be the first of two. -/
  | closed
  /-- After a carriage return that a line feed must follow. -/
  | carriage
  deriving DecidableEq

/-- What the reader does with a byte. -/
inductive Action where
  | keep (next : Place)
  | skip (next : Place)
  | separate
  | finish

/-- The bytes that end a field. -/
def boundary (byte : UInt8) : Option Action :=
  if byte = comma then some .separate
  else if byte = lineFeed then some .finish
  else if byte = carriageReturn then some (.skip .carriage)
  else none

def plainStep (byte : UInt8) : Option Action :=
  if byte = quote then none else (boundary byte).or (some (.keep .plain))

def step : Place → UInt8 → Option Action
  | .start, byte =>
      if byte = quote then some (.skip .quoted) else plainStep byte
  | .plain, byte => plainStep byte
  | .quoted, byte =>
      if byte = quote then some (.skip .closed) else some (.keep .quoted)
  | .closed, byte =>
      if byte = quote then some (.keep .quoted) else boundary byte
  | .carriage, byte => if byte = lineFeed then some .finish else none

/-- The text in front of the first field that was read. -/
def prepend (front : List UInt8)
    (read : List (List UInt8) × List UInt8) :
    List (List UInt8) × List UInt8 :=
  (read.1.modifyHead (front ++ ·), read.2)

/-- The fields from a place on, the current one first, and what follows the
record. -/
def scan : Place → List UInt8 → Option (List (List UInt8) × List UInt8)
  | place, [] =>
      if place = .quoted ∨ place = .carriage then none else some ([[]], [])
  | place, byte :: bytes =>
      match step place byte with
      | none => none
      | some (.keep next) => (scan next bytes).map (prepend [byte])
      | some (.skip next) => scan next bytes
      | some .separate =>
          (scan .start bytes).map fun read => ([] :: read.1, read.2)
      | some .finish => some ([[]], bytes)

/-- The fields of the first record, and what follows it. -/
def readRecord (bytes : List UInt8) :
    Option (List (List UInt8) × List UInt8) :=
  scan .start bytes

variable {place : Place} {byte : UInt8} {bytes tail rest : List UInt8}
variable {front back field image line : List UInt8}
variable {fields : List (List UInt8)}

theorem prepend_prepend (front back : List UInt8)
    (read : List (List UInt8) × List UInt8) :
    prepend front (prepend back read) = prepend (front ++ back) read := by
  simp [prepend, Function.comp_def, List.append_assoc]

theorem map_prepend_prepend (front back : List UInt8)
    (read : Option (List (List UInt8) × List UInt8)) :
    (read.map (prepend back)).map (prepend front) =
      read.map (prepend (front ++ back)) := by
  cases read with
  | none => rfl
  | some read => simp [prepend_prepend]

theorem map_prepend_nil (read : Option (List (List UInt8) × List UInt8)) :
    read.map (prepend []) = read := by
  cases read with
  | none => rfl
  | some read =>
      obtain ⟨fields, rest⟩ := read
      cases fields <;> simp [prepend]

theorem scan_keep {next : Place} (kept : step place byte = some (.keep next))
    (bytes : List UInt8) :
    scan place (byte :: bytes) = (scan next bytes).map (prepend [byte]) := by
  rw [scan, kept]

theorem scan_skip {next : Place} (skipped : step place byte = some (.skip next))
    (bytes : List UInt8) :
    scan place (byte :: bytes) = scan next bytes := by
  rw [scan, skipped]

theorem scan_quoted (field tail : List UInt8) :
    scan .quoted (doubleQuotes field ++ quote :: tail) =
      (scan .closed tail).map (prepend field) := by
  induction field with
  | nil => rw [map_prepend_nil]; exact scan_skip rfl tail
  | cons byte field induction =>
      by_cases quoted : byte = quote
      · subst quoted
        have kept : step .closed quote = some (.keep .quoted) := rfl
        rw [doubleQuotes, if_pos rfl, List.cons_append, List.cons_append,
          scan_skip rfl, scan_keep kept, induction, map_prepend_prepend]
        rfl
      · have kept : step .quoted byte = some (.keep .quoted) := if_neg quoted
        rw [doubleQuotes, if_neg quoted, List.cons_append, scan_keep kept,
          induction, map_prepend_prepend]
        rfl

/-- The field ends here: at the end of the text, or at a byte that ends
fields. -/
def Ends (tail : List UInt8) : Prop :=
  ∀ byte ∈ tail.head?, (boundary byte).isSome

theorem ends_nil : Ends [] := by
  intro byte member
  cases member

theorem ends_cons (ended : (boundary byte).isSome) : Ends (byte :: tail) := by
  intro other member
  cases Option.some.inj member
  exact ended

/-- Where a field ends it does not matter whether it was quoted. -/
theorem scan_ends (ends : Ends tail) :
    scan .start tail = scan .closed tail ∧
      scan .plain tail = scan .closed tail := by
  cases tail with
  | nil => exact ⟨rfl, rfl⟩
  | cons byte tail =>
      have boundary_some := ends byte rfl
      have unquoted : byte ≠ quote := by
        rintro rfl
        cases boundary_some
      obtain ⟨action, ended⟩ := Option.isSome_iff_exists.mp boundary_some
      have plainEq : plainStep byte = boundary byte := by
        rw [plainStep, if_neg unquoted, ended, Option.some_or]
      have startEq : step .start byte = step .closed byte := by
        rw [step, step, if_neg unquoted, if_neg unquoted, plainEq]
      have plainEq' : step .plain byte = step .closed byte := by
        rw [step, step, if_neg unquoted, plainEq]
      rw [scan, scan, scan, startEq, plainEq']
      exact ⟨rfl, rfl⟩

theorem plainStep_of_not_special (plain : ¬ Special byte) :
    plainStep byte = some (.keep .plain) := by
  simp only [Special, not_or] at plain
  obtain ⟨unquoted, noComma, noLineFeed, noCarriage⟩ := plain
  rw [plainStep, if_neg unquoted, boundary, if_neg noComma, if_neg noLineFeed,
    if_neg noCarriage, Option.none_or]

theorem scan_plain (plain : ∀ byte ∈ field, ¬ Special byte)
    (ends : Ends tail) :
    scan .plain (field ++ tail) =
      (scan .closed tail).map (prepend field) := by
  induction field with
  | nil => rw [map_prepend_nil]; exact (scan_ends ends).2
  | cons byte field induction =>
      obtain ⟨first, others⟩ := List.forall_mem_cons.mp plain
      have kept : step .plain byte = some (.keep .plain) :=
        plainStep_of_not_special first
      rw [List.cons_append, scan_keep kept, induction others,
        map_prepend_prepend]
      rfl

theorem scan_field (isField : IsField image field) (ends : Ends tail) :
    scan .start (image ++ tail) =
      (scan .closed tail).map (prepend field) := by
  cases isField with
  | quoted field =>
      rw [List.cons_append, scan_skip rfl, List.append_assoc]
      exact scan_quoted field tail
  | plain plain =>
      cases field with
      | nil => rw [map_prepend_nil]; exact (scan_ends ends).1
      | cons byte field =>
          obtain ⟨first, others⟩ := List.forall_mem_cons.mp plain
          have unquoted : byte ≠ quote := fun same => first (.inl same)
          have kept : step .start byte = some (.keep .plain) := by
            rw [step, if_neg unquoted, plainStep_of_not_special first]
          rw [List.cons_append, scan_keep kept, scan_plain others ends,
            map_prepend_prepend]
          rfl

theorem scan_record (record : IsRecord line fields) (ends : Ends tail)
    (ended : scan .closed tail = some ([[]], rest)) :
    scan .start (line ++ tail) = some (fields, rest) := by
  induction record with
  | last isField =>
      rw [scan_field isField ends, ended]
      simp [prepend]
  | @more image field line fields isField _ induction =>
      have separated : scan .closed (comma :: (line ++ tail)) =
          some ([] :: fields, rest) := by
        rw [scan]
        change (scan .start (line ++ tail)).map _ = _
        rw [induction, Option.map_some]
      rw [List.append_assoc, List.cons_append,
        scan_field isField (ends_cons rfl), separated]
      simp [prepend]

/-- A line of the grammar is read back at the end of a text. -/
theorem readRecord_end (record : IsRecord line fields) :
    readRecord line = some (fields, []) := by
  have read := scan_record record ends_nil rfl
  rwa [List.append_nil] at read

theorem readRecord_line (record : IsRecord line fields) (rest : List UInt8) :
    readRecord (line ++ lineFeed :: rest) = some (fields, rest) :=
  scan_record record (ends_cons rfl) rfl

end Csv
