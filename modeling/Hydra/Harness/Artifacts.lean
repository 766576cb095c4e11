import Hydra.Library.Ascii
import Hydra.Library.Positions

/-!
# Where the artifacts of a benchmark land

A benchmark writes its summary to the output path and derives two more paths
from it: that of the raw samples, with `.raw` in front of the last dot, and
that of the metadata, with everything from the last dot on replaced.  Both look
for the last dot in the whole path, not in the name of the file.
-/

namespace Hydra

open Ascii Positions

/-- Insert the suffix before the last dot, or append it. -/
def derivePath (base suffix : List UInt8) : List UInt8 :=
  match findLastOf dot base with
  | none => base ++ suffix
  | some position => base.take position ++ suffix ++ base.drop position

/-- `.raw` -/
def rawSuffix : List UInt8 := [dot, 0x72, 0x61, 0x77]

/-- `.meta.json` -/
def metaSuffix : List UInt8 :=
  [dot, 0x6D, 0x65, 0x74, 0x61, dot, 0x6A, 0x73, 0x6F, 0x6E]

def rawCsvPath (outputPath : List UInt8) : List UInt8 :=
  derivePath outputPath rawSuffix

/-- The output path up to its last dot, if it has one, and `.meta.json`. -/
def metaJsonPath (outputPath : List UInt8) : List UInt8 :=
  (match findLastOf dot outputPath with
    | none => outputPath
    | some position => outputPath.take position) ++ metaSuffix

/-- The last component of a path. -/
def basenameOf (path : List UInt8) : List UInt8 :=
  match findLastOf slash path with
  | none => path
  | some position => path.drop (position + 1)

/-- The path up to and including its last slash. -/
def directoryOf (path : List UInt8) : List UInt8 :=
  match findLastOf slash path with
  | none => []
  | some position => path.take (position + 1)

/-- The artifacts of a run are three files in one directory. -/
def Together (outputPath : List UInt8) : Prop :=
  directoryOf (rawCsvPath outputPath) = directoryOf outputPath ∧
    directoryOf (metaJsonPath outputPath) = directoryOf outputPath ∧
    rawCsvPath outputPath ≠ outputPath ∧
    metaJsonPath outputPath ≠ outputPath ∧
    rawCsvPath outputPath ≠ metaJsonPath outputPath

instance (outputPath : List UInt8) : Decidable (Together outputPath) :=
  inferInstanceAs (Decidable (_ ∧ _))

variable {path front back directory name suffix : List UInt8}

theorem derivePath_of_not_mem (absent : dot ∉ path) (suffix : List UInt8) :
    derivePath path suffix = path ++ suffix := by
  rw [derivePath, findLastOf_of_not_mem absent]

theorem derivePath_split (last : dot ∉ back) (front suffix : List UInt8) :
    derivePath (front ++ dot :: back) suffix =
      front ++ suffix ++ dot :: back := by
  rw [derivePath, findLastOf_split last]
  simp

theorem metaJsonPath_of_not_mem (absent : dot ∉ path) :
    metaJsonPath path = path ++ metaSuffix := by
  rw [metaJsonPath, findLastOf_of_not_mem absent]

theorem metaJsonPath_split (last : dot ∉ back) (front : List UInt8) :
    metaJsonPath (front ++ dot :: back) = front ++ metaSuffix := by
  rw [metaJsonPath, findLastOf_split last]
  simp

/-- A directory is empty or ends with a slash. -/
def IsDirectory (directory : List UInt8) : Prop :=
  ∀ byte ∈ directory.getLast?, byte = slash

theorem isDirectory_concat (front : List UInt8) :
    IsDirectory (front ++ [slash]) := by
  simp [IsDirectory]

theorem directoryOf_append (isDirectory : IsDirectory directory)
    (plain : slash ∉ name) : directoryOf (directory ++ name) = directory := by
  rcases List.eq_nil_or_concat directory with rfl | ⟨front, last, rfl⟩
  · rw [List.nil_append, directoryOf, findLastOf_of_not_mem plain]
  · obtain rfl : last = slash := isDirectory last (by simp)
    have position : findLastOf slash (front ++ slash :: name) =
        some front.length := findLastOf_split plain
    rw [List.concat_eq_append, List.append_assoc, List.singleton_append,
      directoryOf, position]
    exact List.take_length_add_append 1

theorem exists_components (path : List UInt8) :
    ∃ directory, IsDirectory directory ∧ slash ∉ basenameOf path ∧
      path = directory ++ basenameOf path := by
  by_cases nested : slash ∈ path
  · obtain ⟨front, back, rfl, last⟩ := exists_last nested
    have name : basenameOf (front ++ slash :: back) = back := by
      rw [basenameOf, findLastOf_split last]
      simp
    refine ⟨front ++ [slash], isDirectory_concat front, ?_, ?_⟩
    · rwa [name]
    · simp [name]
  · have name : basenameOf path = path := by
      rw [basenameOf, findLastOf_of_not_mem nested]
    exact ⟨[], by simp [IsDirectory], by rwa [name],
      by rw [name, List.nil_append]⟩

theorem together_of_not_mem (absent : dot ∉ path) : Together path := by
  obtain ⟨directory, isDirectory, plain, split⟩ := exists_components path
  have raw : rawCsvPath path = path ++ rawSuffix :=
    derivePath_of_not_mem absent rawSuffix
  have metadata : metaJsonPath path = path ++ metaSuffix :=
    metaJsonPath_of_not_mem absent
  have sameDirectory : ∀ suffix, slash ∉ suffix →
      directoryOf (path ++ suffix) = directoryOf path := by
    intro suffix clean
    rw [split, List.append_assoc, directoryOf_append isDirectory plain]
    refine directoryOf_append isDirectory fun member => ?_
    exact (List.mem_append.mp member).elim plain clean
  rw [Together, raw, metadata]
  refine ⟨sameDirectory _ (by decide), sameDirectory _ (by decide), ?_, ?_, ?_⟩
  · simp [rawSuffix]
  · simp [metaSuffix]
  · simp [rawSuffix, metaSuffix]

theorem together_of_name (extended : dot ∈ basenameOf path) :
    Together path := by
  obtain ⟨directory, isDirectory, plain, split⟩ := exists_components path
  obtain ⟨stem, extension, name, last⟩ := exists_last extended
  rw [name] at plain split
  obtain ⟨stemPlain, extensionPlain⟩ :
      slash ∉ stem ∧ slash ∉ dot :: extension := by
    rw [List.mem_append, not_or] at plain
    exact plain
  have whole : path = (directory ++ stem) ++ dot :: extension := by
    rw [split, List.append_assoc]
  have raw : rawCsvPath path =
      directory ++ (stem ++ rawSuffix ++ dot :: extension) := by
    rw [whole, rawCsvPath, derivePath_split last]
    simp only [List.append_assoc]
  have metadata : metaJsonPath path = directory ++ (stem ++ metaSuffix) := by
    rw [whole, metaJsonPath_split last, List.append_assoc]
  have sameDirectory : ∀ name, slash ∉ name →
      directoryOf (directory ++ name) = directoryOf path := by
    intro name clean
    rw [split, directoryOf_append isDirectory plain,
      directoryOf_append isDirectory clean]
  rw [Together, raw, metadata]
  refine ⟨sameDirectory _ ?_, sameDirectory _ ?_, ?_, ?_, ?_⟩
  · simp only [List.mem_append, not_or]
    exact ⟨⟨stemPlain, by decide⟩, extensionPlain⟩
  · rw [List.mem_append, not_or]
    exact ⟨stemPlain, by decide⟩
  · intro same
    have longer := congrArg List.length (same.trans split)
    simp only [List.length_append, List.length_cons, rawSuffix] at longer
    omega
  · -- the metadata would be the summary only if a dot followed the last one
    rw [split]
    intro same
    have ending : metaSuffix = dot :: extension := by
      simpa using same
    refine last ?_
    rw [← (List.cons.inj ending).2]
    decide
  · simp [rawSuffix, metaSuffix]

theorem apart_of_directory (dotted : dot ∈ path)
    (bare : dot ∉ basenameOf path) : ¬ Together path := by
  obtain ⟨directory, isDirectory, plain, split⟩ := exists_components path
  have inside : dot ∈ directory := by
    rw [split, List.mem_append] at dotted
    exact dotted.resolve_right bare
  obtain ⟨front, back, rfl, last⟩ := exists_last inside
  have lastInPath : dot ∉ back ++ basenameOf path := by
    rw [List.mem_append, not_or]
    exact ⟨last, bare⟩
  have whole : path = front ++ dot :: (back ++ basenameOf path) := by
    rw [← List.cons_append, ← List.append_assoc, ← split]
  have raw : rawCsvPath path =
      (front ++ rawSuffix ++ dot :: back) ++ basenameOf path := by
    conv_lhs => rw [whole]
    rw [rawCsvPath, derivePath_split lastInPath]
    simp only [List.append_assoc, List.cons_append]
  have isElsewhere : IsDirectory (front ++ rawSuffix ++ dot :: back) := by
    simpa [IsDirectory, List.getLast?_append] using isDirectory
  have original : directoryOf path = front ++ dot :: back := by
    conv_lhs => rw [split]
    exact directoryOf_append isDirectory plain
  intro together
  have moved := together.1
  rw [raw, directoryOf_append isElsewhere plain, original] at moved
  have longer := congrArg List.length moved
  simp only [List.length_append, List.length_cons, rawSuffix] at longer
  omega

/-- The artifacts land next to each other if and only if the path has no dot
or the name of the file has one. -/
theorem artifacts_together_iff (outputPath : List UInt8) :
    Together outputPath ↔
      dot ∉ outputPath ∨ dot ∈ basenameOf outputPath := by
  constructor
  · intro together
    by_contra neither
    rw [not_or, not_not] at neither
    exact apart_of_directory neither.1 neither.2 together
  · rintro (absent | extended)
    · exact together_of_not_mem absent
    · exact together_of_name extended

/-- The raw samples of `./bench` would go to a file in `.raw./`. -/
theorem artifacts_astray :
    ∃ outputPath, basenameOf outputPath ≠ [] ∧ ¬ Together outputPath :=
  ⟨[dot, slash, 0x62, 0x65, 0x6E, 0x63, 0x68], by decide, by decide⟩

end Hydra
