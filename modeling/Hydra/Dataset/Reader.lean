import Hydra.Dataset.Image
import Hydra.Library.Records
import Hydra.Wire.Format

/-!
# Reading datasets of one layout

A build has its own layout of a dataset record, and with it a reader of its own.
The readers differ in nothing but the layout: the header, the checks and the
texts of the errors are the same.
-/

namespace Hydra

open Bytes Checks

/-- `HYDRALOB`. -/
def kMagic : Vector UInt8 8 :=
  #v[0x48, 0x59, 0x44, 0x52, 0x41, 0x4C, 0x4F, 0x42]

def kFormatVersion : UInt32 := 3

/-- The text of a `std::runtime_error`. -/
abbrev RuntimeError : Type := String

def throwIf (condition : Prop) [Decidable condition] (message : String) :
    Except RuntimeError Unit :=
  if condition then .error message else .ok ()

/-- The call returns the value on the condition, and throws otherwise. -/
abbrev Throws {Value : Type} (run : Except RuntimeError Value)
    (condition : Prop) (value : Value) : Prop :=
  Decides (fun _ => True) run condition value

theorem Throws.throwIf {Value : Type} {test condition : Prop}
    [Decidable test] {message : String}
    {next : Unit → Except RuntimeError Value} {value : Value}
    (rest : ¬ test → Throws (next ()) condition value) :
    Throws (throwIf test message >>= next) (¬ test ∧ condition) value :=
  Decides.guard trivial rest

/-- The header of a dataset of the current format. -/
def DatasetFileHeader.current (config : DatasetConfig) (eventCount : Nat) :
    DatasetFileHeader where
  magic := kMagic
  formatVersion := kFormatVersion
  reserved0 := 0
  eventCount := .ofNat eventCount
  config := config

/-- The header of a file. -/
def headerOf (bytes : List UInt8) : DatasetFileHeader :=
  DatasetFileHeader.codec.decode (bytes.take DatasetFileHeader.size)

/-- The bytes behind the header. -/
def recordBytes (bytes : List UInt8) : List UInt8 :=
  bytes.drop DatasetFileHeader.size

section Header

variable (header : DatasetFileHeader) (records : List UInt8)

theorem headerOf_append :
    headerOf (DatasetFileHeader.codec.encode header ++ records) = header := by
  rw [headerOf, List.take_left' (DatasetFileHeader.length_encode _),
    Codec.decode_encode]

theorem recordBytes_append :
    recordBytes (DatasetFileHeader.codec.encode header ++ records) =
      records := by
  rw [recordBytes, List.drop_left' (DatasetFileHeader.length_encode _)]

end Header

/-- What the header of a file says that is readable with records of a size. -/
structure HeaderFor (recordSize : Nat) (bytes : List UInt8) : Prop where
  room : DatasetFileHeader.size ≤ bytes.length
  magic : (headerOf bytes).magic = kMagic
  version : (headerOf bytes).formatVersion = kFormatVersion
  count : (headerOf bytes).eventCount.toNat ≤
    (bytes.length - DatasetFileHeader.size) / recordSize

/-- `read_from_file` up to its loop; gives the header and the bytes behind
it. -/
def openRecords (recordSize : Nat) (path : String)
    (file : Option (List UInt8)) :
    Except RuntimeError (DatasetFileHeader × List UInt8) :=
  match file with
  | none =>
      .error ("DatasetGenerator::read_from_file: cannot open '" ++ path ++ "'")
  | some bytes => do
      throwIf (bytes.length < DatasetFileHeader.size)
        ("DatasetGenerator::read_from_file: truncated header in '" ++ path ++
          "'")
      let header :=
        DatasetFileHeader.codec.decode (bytes.take DatasetFileHeader.size)
      throwIf (header.magic ≠ kMagic)
        ("DatasetGenerator::read_from_file: bad magic in '" ++ path ++
          "' (not a HYDRA-LOB dataset file)")
      throwIf (header.formatVersion ≠ kFormatVersion)
        ("DatasetGenerator::read_from_file: format_version mismatch in '" ++
          path ++ "' (file=" ++ toString header.formatVersion ++ ", reader=" ++
          toString kFormatVersion ++ ")")
      let headerEnd := DatasetFileHeader.size
      let fileEnd := bytes.length
      throwIf (fileEnd < headerEnd)
        ("DatasetGenerator::read_from_file: cannot size '" ++ path ++ "'")
      let availableBytes := fileEnd - headerEnd
      let maxRecords := availableBytes / recordSize
      throwIf (maxRecords < header.eventCount.toNat)
        ("DatasetGenerator::read_from_file: header event_count (" ++
          toString header.eventCount ++ ") exceeds what the file holds (" ++
          toString maxRecords ++ " records) in '" ++ path ++ "'")
      return (header, bytes.drop DatasetFileHeader.size)

theorem openRecords_throws (recordSize : Nat) (path : String)
    (bytes : List UInt8) :
    Throws (openRecords recordSize path (some bytes))
      (HeaderFor recordSize bytes) (headerOf bytes, recordBytes bytes) := by
  rw [openRecords]
  apply Decides.congr
  · apply Throws.throwIf
    intro _
    apply Throws.throwIf
    intro _
    apply Throws.throwIf
    intro _
    apply Throws.throwIf
    intro _
    apply Throws.throwIf
    intro _
    exact .ok
  · constructor
    · intro readable
      exact ⟨Nat.not_lt.mpr readable.room, not_not.mpr readable.magic,
        not_not.mpr readable.version, Nat.not_lt.mpr readable.room,
        Nat.not_lt.mpr readable.count, trivial⟩
    · intro ⟨room, magic, version, _, count, _⟩
      exact
        { room := Nat.le_of_not_lt room
          magic := not_not.mp magic
          version := not_not.mp version
          count := Nat.le_of_not_lt count }

/-- A layout of a record, and where it keeps what the reader looks at. -/
structure RecordLayout (Record Event : Type) where
  codec : Codec Record
  eventType : Record → UInt8
  side : Record → UInt8
  tif : Record → UInt8
  event : Record → Event

/-- How many records are reserved, and what the call returns or throws. -/
structure Reading (Event : Type) where
  reserved : Nat
  result : Except RuntimeError (List Event)

namespace RecordLayout

variable {Record Event : Type} (layout : RecordLayout Record Event)

/-- The bytes of a file with the records behind the header. -/
def write (config : DatasetConfig) (records : List Record) : List UInt8 :=
  DatasetFileHeader.codec.encode (.current config records.length) ++
    Records.writeAll layout.codec records

def truncatedRecord (path : String) (index : Nat) : RuntimeError :=
  "DatasetGenerator::read_from_file: truncated record " ++ toString index ++
    " in '" ++ path ++ "'"

/-- What the loop of `read_from_file` tests about a record. -/
def checkRecord (path : String) (index : Nat) (record : Record) :
    Except RuntimeError Unit := do
  throwIf (layout.eventType record > EventType.replace.toByte)
    ("DatasetGenerator::read_from_file: invalid event_type " ++
      toString (layout.eventType record) ++ " in record " ++ toString index ++
      " of '" ++ path ++ "'")
  throwIf (layout.eventType record = EventType.newOrder.toByte ∧
      (layout.side record > Side.sell.toByte ∨
        layout.tif record > TimeInForce.fok.toByte))
    ("DatasetGenerator::read_from_file: invalid side/tif in record " ++
      toString index ++ " of '" ++ path ++ "'")

def readRecords (path : String) :
    Nat → Nat → List UInt8 → Except RuntimeError (List Event) :=
  Records.readAll layout.codec (truncatedRecord path) (layout.checkRecord path)
    layout.event

def readFromFile (path : String) (file : Option (List UInt8)) :
    Reading Event :=
  match openRecords layout.codec.width path file with
  | .error message => { reserved := 0, result := .error message }
  | .ok (header, bytes) =>
      { reserved := header.eventCount.toNat
        result := layout.readRecords path header.eventCount.toNat 0 bytes }

/-- The enumerators of a record are in range, as far as its event uses them. -/
structure Valid (record : Record) : Prop where
  type : layout.eventType record ≤ EventType.replace.toByte
  order : layout.eventType record = EventType.newOrder.toByte →
    layout.side record ≤ Side.sell.toByte ∧
      layout.tif record ≤ TimeInForce.fok.toByte

/-- A file that can be read. -/
structure Readable (bytes : List UInt8) : Prop extends
    HeaderFor layout.codec.width bytes where
  records : ∀ index, index < (headerOf bytes).eventCount.toNat →
    layout.Valid (Records.recordAt layout.codec (recordBytes bytes) index)

variable {layout}

theorem Valid.ofType {record : Record} {type : EventType}
    (written : layout.eventType record = type.toByte)
    (order : type = .newOrder →
      layout.side record ≤ Side.sell.toByte ∧
        layout.tif record ≤ TimeInForce.fok.toByte) : layout.Valid record where
  type := by
    rw [written]
    exact type.toByte_le
  order newOrder := by
    rw [written] at newOrder
    apply order
    rw [← EventType.ofByte_toByte type]
    exact congrArg EventType.ofByte newOrder

theorem valid_iff {record : Record} :
    layout.Valid record ↔
      ¬ (layout.eventType record > EventType.replace.toByte ∨
        layout.eventType record = EventType.newOrder.toByte ∧
          (layout.side record > Side.sell.toByte ∨
            layout.tif record > TimeInForce.fok.toByte)) := by
  simp only [gt_iff_lt, not_or, not_and, UInt8.not_lt]
  exact ⟨fun valid => ⟨valid.type, valid.order⟩,
    fun held => ⟨held.1, held.2⟩⟩

theorem checkRecord_throws (path : String) (index : Nat) (record : Record) :
    Throws (layout.checkRecord path index record) (layout.Valid record) () := by
  rw [checkRecord]
  apply Decides.congr
  · apply Throws.throwIf
    intro _
    exact Decides.final trivial
  · rw [valid_iff, not_or]

theorem readRecords_throws (path : String) (count index : Nat)
    (bytes : List UInt8) :
    Throws (layout.readRecords path count index bytes)
      (Records.Holds layout.codec layout.Valid bytes count)
      (Records.valuesOf layout.codec layout.event bytes count) :=
  Records.readAll_decides layout.codec (fun _ => trivial)
    (checkRecord_throws path) count index bytes

theorem readFromFile_header {path : String} {bytes : List UInt8}
    (readable : HeaderFor layout.codec.width bytes) :
    layout.readFromFile path (some bytes) =
      { reserved := (headerOf bytes).eventCount.toNat
        result := layout.readRecords path (headerOf bytes).eventCount.toNat 0
          (recordBytes bytes) } := by
  rw [readFromFile, (openRecords_throws _ path bytes).accepts readable]

theorem readFromFile_throws (positive : 0 < layout.codec.width) (path : String)
    (bytes : List UInt8) :
    Throws (layout.readFromFile path (some bytes)).result
      (layout.Readable bytes)
      (Records.valuesOf layout.codec layout.event (recordBytes bytes)
        (headerOf bytes).eventCount.toNat) := by
  by_cases header : HeaderFor layout.codec.width bytes
  · rw [readFromFile_header header]
    apply (readRecords_throws path _ 0 _).congr
    constructor
    · intro readable
      refine ⟨?_, readable.records⟩
      rw [recordBytes, List.length_drop]
      exact (Nat.le_div_iff_mul_le positive).mp readable.count
    · intro readable
      exact { header with records := readable.valid }
  · obtain ⟨message, _, thrown⟩ :=
      (openRecords_throws _ path bytes).rejects header
    rw [readFromFile, thrown]
    exact
      { accepts := fun readable => absurd readable.toHeaderFor header
        rejects := fun _ => ⟨message, trivial, rfl⟩ }

/-- More records are reserved than the file has room for in no case. -/
theorem reserved_le (path : String) (bytes : List UInt8) :
    (layout.readFromFile path (some bytes)).reserved ≤
      (bytes.length - DatasetFileHeader.size) / layout.codec.width := by
  by_cases header : HeaderFor layout.codec.width bytes
  · rw [readFromFile_header header]
    exact header.count
  · obtain ⟨message, _, thrown⟩ :=
      (openRecords_throws _ path bytes).rejects header
    rw [readFromFile, thrown]
    exact Nat.zero_le _

section Written

variable {config : DatasetConfig} {records : List Record}

theorem length_write :
    (layout.write config records).length =
      DatasetFileHeader.size + records.length * layout.codec.width := by
  rw [write, List.length_append, DatasetFileHeader.length_encode,
    Records.length_writeAll]

theorem headerOf_write :
    headerOf (layout.write config records) =
      .current config records.length :=
  headerOf_append _ _

theorem recordBytes_write :
    recordBytes (layout.write config records) =
      Records.writeAll layout.codec records :=
  recordBytes_append _ _

theorem count_write (fits : records.length < 2 ^ 64) :
    (headerOf (layout.write config records)).eventCount.toNat =
      records.length := by
  rw [headerOf_write]
  exact UInt64.toNat_ofNat_of_lt' fits

/-- The header is readable if the records fit into the size that the reader
gives them. -/
theorem headerFor_write {recordSize : Nat} (fits : records.length < 2 ^ 64) :
    HeaderFor recordSize (layout.write config records) ↔
      records.length ≤ records.length * layout.codec.width / recordSize := by
  constructor
  · intro readable
    have count := readable.count
    rw [count_write fits, length_write, Nat.add_sub_cancel_left] at count
    exact count
  · intro room
    constructor
    · rw [length_write]
      exact Nat.le_add_right _ _
    · rw [headerOf_write]
      rfl
    · rw [headerOf_write]
      rfl
    · rw [count_write fits, length_write, Nat.add_sub_cancel_left]
      exact room

theorem readFromFile_write {path : String} (positive : 0 < layout.codec.width)
    (fits : records.length < 2 ^ 64)
    (valid : ∀ record ∈ records, layout.Valid record) :
    (layout.readFromFile path (some (layout.write config records))).result =
      .ok (records.map layout.event) := by
  have header : HeaderFor layout.codec.width (layout.write config records) := by
    rw [headerFor_write fits, Nat.mul_div_cancel _ positive]
  have readable : layout.Readable (layout.write config records) := by
    refine { header with records := ?_ }
    intro index inside
    rw [count_write fits] at inside
    rw [recordBytes_write, Records.recordAt_writeAll _ inside]
    exact valid _ (List.getElem_mem inside)
  rw [(readFromFile_throws positive path _).accepts readable, count_write fits,
    recordBytes_write, Records.valuesOf_writeAll]

end Written

end RecordLayout

end Hydra
