import Mathlib.Data.List.Basic
import Mathlib.Order.Defs.Unbundled

/-!
# Ordered maps as sorted association lists

`SortedMap before Value` is an association list whose keys are strictly
increasing for `before`; the order is a field, so an unsorted map cannot be
built.  The operations are those of an ordered container with unique keys:
lookup, first entry, successor of a key, insertion of an absent key, erasure.

Every law is stated on a *split* of the entries,
`front ++ (key, value) :: back`: a traversal that stands on one entry has
exactly this shape.
-/

/-- Finite maps with unique keys, listed in increasing `before` order. -/
@[ext]
structure SortedMap {Key : Type*} (before : Key → Key → Prop)
    (Value : Type*) where
  entries : List (Key × Value)
  sorted : entries.Pairwise fun left right => before left.1 right.1

namespace SortedMap

variable {Key Value Image : Type*} {before : Key → Key → Prop}

def empty : SortedMap before Value := ⟨[], .nil⟩

/-- The value stored under a key. -/
def find? [DecidableEq Key] (map : SortedMap before Value) (key : Key) :
    Option Value :=
  (map.entries.find? fun entry => decide (entry.1 = key)).map Prod.snd

/-- The value of the first entry. -/
def first? (map : SortedMap before Value) : Option Value :=
  map.entries.head?.map Prod.snd

/-- The entry that follows the one with the given key. -/
def successor? [DecidableEq Key] (key : Key) :
    List (Key × Value) → Option (Key × Value)
  | [] => none
  | entry :: rest =>
      if entry.1 = key then rest.head? else successor? key rest

/-- The value of the entry that follows a key, if the key is present. -/
def after? [DecidableEq Key] (map : SortedMap before Value) (key : Key) :
    Option Value :=
  (successor? key map.entries).map Prod.snd

/-- Insertion of a new key at its place; an existing key is left alone. -/
def insertEntry (before : Key → Key → Prop) [DecidableRel before] (key : Key)
    (value : Value) : List (Key × Value) → List (Key × Value)
  | [] => [(key, value)]
  | entry :: rest =>
      if before key entry.1 then (key, value) :: entry :: rest
      else if before entry.1 key then entry :: insertEntry before key value rest
      else entry :: rest

theorem mem_insertEntry [DecidableRel before] {key : Key} {value : Value}
    {entry : Key × Value} {entries : List (Key × Value)}
    (member : entry ∈ insertEntry before key value entries) :
    entry = (key, value) ∨ entry ∈ entries := by
  induction entries with
  | nil => simpa [insertEntry] using member
  | cons head rest induction =>
      rw [insertEntry] at member
      split at member
      · simpa using member
      · split at member
        · rcases List.mem_cons.mp member with here | later
          · exact .inr (here ▸ List.mem_cons_self)
          · rcases induction later with fresh | old
            · exact .inl fresh
            · exact .inr (List.mem_cons_of_mem _ old)
        · exact .inr member

theorem insertEntry_sorted [DecidableRel before] [IsTrans Key before]
    (key : Key) (value : Value) {entries : List (Key × Value)}
    (sorted : entries.Pairwise fun left right => before left.1 right.1) :
    (insertEntry before key value entries).Pairwise
      fun left right => before left.1 right.1 := by
  induction entries with
  | nil => simp [insertEntry]
  | cons head rest induction =>
      obtain ⟨headBefore, restSorted⟩ := List.pairwise_cons.mp sorted
      rw [insertEntry]
      split
      next keyBefore =>
        refine List.pairwise_cons.mpr ⟨?_, sorted⟩
        intro entry member
        rcases List.mem_cons.mp member with here | later
        · exact here ▸ keyBefore
        · exact Trans.trans keyBefore (headBefore entry later)
      next =>
        split
        next headBeforeKey =>
          refine List.pairwise_cons.mpr ⟨?_, induction restSorted⟩
          intro entry member
          rcases mem_insertEntry member with fresh | old
          · exact fresh ▸ headBeforeKey
          · exact headBefore entry old
        next => exact sorted

def emplace [DecidableRel before] [IsTrans Key before]
    (map : SortedMap before Value) (key : Key) (value : Value) :
    SortedMap before Value :=
  ⟨insertEntry before key value map.entries,
    insertEntry_sorted key value map.sorted⟩

def erase [DecidableEq Key] (map : SortedMap before Value) (key : Key) :
    SortedMap before Value :=
  ⟨map.entries.filter fun entry => decide (entry.1 ≠ key),
    map.sorted.sublist List.filter_sublist⟩

/-- Store another value under a key that is present. -/
def replace [DecidableEq Key] (map : SortedMap before Value) (key : Key)
    (value : Value) : SortedMap before Value where
  entries := map.entries.map fun entry =>
    (entry.1, if entry.1 = key then value else entry.2)
  sorted := by
    rw [List.pairwise_map]
    exact map.sorted

/-- Store the changed value of an entry; `none` stands for an absent key. -/
def upsert [DecidableEq Key] [DecidableRel before] [IsTrans Key before]
    (map : SortedMap before Value) (key : Key)
    (change : Option Value → Value) : SortedMap before Value :=
  match map.find? key with
  | none => map.emplace key (change none)
  | some value => map.replace key (change (some value))

/-- Apply a partial function to every value and drop the undefined ones. -/
def filterMap (change : Value → Option Image) (map : SortedMap before Value) :
    SortedMap before Image where
  entries := map.entries.filterMap fun entry =>
    (change entry.2).map fun image => (entry.1, image)
  sorted := by
    rw [List.pairwise_filterMap]
    refine map.sorted.imp ?_
    intro left right ordered leftImage leftEq rightImage rightEq
    simp only [Option.map_eq_some_iff] at leftEq rightEq
    obtain ⟨_, _, rfl⟩ := leftEq
    obtain ⟨_, _, rfl⟩ := rightEq
    exact ordered

/-- Apply a function to every value. -/
def mapValues (change : Value → Image) (map : SortedMap before Value) :
    SortedMap before Image where
  entries := map.entries.map fun entry => (entry.1, change entry.2)
  sorted := by
    rw [List.pairwise_map]
    exact map.sorted

@[simp] theorem empty_entries :
    (empty : SortedMap before Value).entries = [] := rfl

@[simp] theorem mapValues_entries (change : Value → Image)
    (map : SortedMap before Value) :
    (map.mapValues change).entries =
      map.entries.map fun entry => (entry.1, change entry.2) := rfl

section Splits

variable {map : SortedMap before Value} {key : Key} {value : Value}
variable {front back : List (Key × Value)}

theorem front_before (split : map.entries = front ++ (key, value) :: back)
    {entry : Key × Value} (member : entry ∈ front) : before entry.1 key := by
  have sorted := map.sorted
  rw [split, List.pairwise_append] at sorted
  exact sorted.2.2 entry member (key, value) List.mem_cons_self

theorem before_back (split : map.entries = front ++ (key, value) :: back)
    {entry : Key × Value} (member : entry ∈ back) : before key entry.1 := by
  have sorted := map.sorted
  rw [split, List.pairwise_append, List.pairwise_cons] at sorted
  exact sorted.2.1.1 entry member

variable [Std.Irrefl before]

theorem front_ne (split : map.entries = front ++ (key, value) :: back)
    {entry : Key × Value} (member : entry ∈ front) : entry.1 ≠ key := by
  intro same
  exact Std.Irrefl.irrefl (r := before) key (same ▸ front_before split member)

theorem back_ne (split : map.entries = front ++ (key, value) :: back)
    {entry : Key × Value} (member : entry ∈ back) : entry.1 ≠ key := by
  intro same
  exact Std.Irrefl.irrefl (r := before) key (same ▸ before_back split member)

variable [DecidableEq Key]

theorem find?_of_split (split : map.entries = front ++ (key, value) :: back) :
    map.find? key = some value := by
  have skipped : front.find? (fun entry => decide (entry.1 = key)) = none := by
    rw [List.find?_eq_none]
    intro entry member
    simpa using front_ne split member
  simp [find?, split, List.find?_append, skipped]

theorem after?_of_split (split : map.entries = front ++ (key, value) :: back) :
    map.after? key = back.head?.map Prod.snd := by
  have skip : ∀ {entries : List (Key × Value)},
      (∀ entry ∈ entries, entry.1 ≠ key) →
      successor? key (entries ++ (key, value) :: back) = back.head? := by
    intro entries differ
    induction entries with
    | nil => simp [successor?]
    | cons head rest induction =>
        have headDiffers : head.1 ≠ key := differ head List.mem_cons_self
        simp only [List.cons_append, successor?, headDiffers, if_false]
        exact induction fun entry member =>
          differ entry (List.mem_cons_of_mem _ member)
  rw [after?, split, skip fun entry member => front_ne split member]

theorem erase_of_split (split : map.entries = front ++ (key, value) :: back) :
    (map.erase key).entries = front ++ back := by
  have keepFront : front.filter (fun entry => decide (entry.1 ≠ key)) =
      front := by
    rw [List.filter_eq_self]
    intro entry member
    simpa using front_ne split member
  have keepBack : back.filter (fun entry => decide (entry.1 ≠ key)) =
      back := by
    rw [List.filter_eq_self]
    intro entry member
    simpa using back_ne split member
  change map.entries.filter (fun entry => decide (entry.1 ≠ key)) = _
  rw [split, List.filter_append, List.filter_cons_of_neg (by simp),
    keepFront, keepBack]

theorem replace_of_split (split : map.entries = front ++ (key, value) :: back)
    (other : Value) :
    (map.replace key other).entries = front ++ (key, other) :: back := by
  have keepFront : front.map (fun entry =>
      (entry.1, if entry.1 = key then other else entry.2)) = front := by
    apply (List.map_congr_left _).trans (List.map_id front)
    intro entry member
    rw [if_neg (front_ne split member)]
    rfl
  have keepBack : back.map (fun entry =>
      (entry.1, if entry.1 = key then other else entry.2)) = back := by
    apply (List.map_congr_left _).trans (List.map_id back)
    intro entry member
    rw [if_neg (back_ne split member)]
    rfl
  change map.entries.map _ = _
  rw [split, List.map_append, List.map_cons, keepFront, keepBack, if_pos rfl]

end Splits

section Lookup

variable [DecidableEq Key] [Std.Irrefl before]
variable {map : SortedMap before Value} {key : Key} {value : Value}

theorem find?_eq_some_iff :
    map.find? key = some value ↔ (key, value) ∈ map.entries := by
  constructor
  · intro found
    simp only [find?, Option.map_eq_some_iff] at found
    obtain ⟨⟨_, _⟩, found, rfl⟩ := found
    have sameKey := List.find?_some found
    simp only [decide_eq_true_eq] at sameKey
    exact sameKey ▸ List.mem_of_find?_eq_some found
  · intro member
    obtain ⟨front, back, split⟩ := List.append_of_mem member
    exact find?_of_split split

theorem find?_eq_none_iff :
    map.find? key = none ↔ ∀ value, (key, value) ∉ map.entries := by
  rw [Option.eq_none_iff_forall_ne_some]
  exact forall_congr' fun value => not_congr find?_eq_some_iff

theorem find?_congr {Other : Type*} {other : SortedMap before Other}
    {key : Key} {change : Value → Option Other}
    (stored : ∀ image, (key, image) ∈ other.entries ↔
      ∃ value, (key, value) ∈ map.entries ∧ change value = some image) :
    other.find? key = (map.find? key).bind change := by
  apply Option.ext
  intro image
  rw [find?_eq_some_iff, stored, Option.bind_eq_some_iff]
  apply exists_congr
  intro value
  rw [find?_eq_some_iff]

omit [DecidableEq Key] [Std.Irrefl before] in
theorem mem_filterMap {change : Value → Option Image} {image : Image} :
    (key, image) ∈ (map.filterMap change).entries ↔
      ∃ value, (key, value) ∈ map.entries ∧ change value = some image := by
  change (key, image) ∈ map.entries.filterMap _ ↔ _
  simp only [List.mem_filterMap, Option.map_eq_some_iff, Prod.mk.injEq]
  constructor
  · intro found
    obtain ⟨⟨_, value⟩, member, _, changed, rfl, rfl⟩ := found
    exact ⟨value, member, changed⟩
  · intro found
    obtain ⟨value, member, changed⟩ := found
    exact ⟨(key, value), member, image, changed, rfl, rfl⟩

theorem find?_filterMap (map : SortedMap before Value)
    (change : Value → Option Image) (key : Key) :
    (map.filterMap change).find? key = (map.find? key).bind change :=
  find?_congr fun _ => mem_filterMap

theorem find?_mapValues (map : SortedMap before Value) (change : Value → Image)
    (key : Key) :
    (map.mapValues change).find? key = (map.find? key).map change := by
  have stored : ∀ image, (key, image) ∈ (map.mapValues change).entries ↔
      ∃ value, (key, value) ∈ map.entries ∧
        some (change value) = some image := by
    intro image
    simp only [mapValues_entries, List.mem_map, Prod.mk.injEq, Prod.exists,
      Option.some.injEq]
    constructor
    · intro found
      obtain ⟨_, value, member, rfl, rfl⟩ := found
      exact ⟨value, member, rfl⟩
    · intro found
      obtain ⟨value, member, rfl⟩ := found
      exact ⟨key, value, member, rfl, rfl⟩
  rw [find?_congr stored]
  cases map.find? key <;> rfl

omit [DecidableEq Key] [Std.Irrefl before] in
theorem keys_sorted (map : SortedMap before Value) :
    (map.entries.map Prod.fst).Pairwise before :=
  List.pairwise_map.mpr map.sorted

theorem mem_keys :
    key ∈ map.entries.map Prod.fst ↔ (map.find? key).isSome = true := by
  rw [Option.isSome_iff_exists, List.mem_map]
  simp only [find?_eq_some_iff]
  constructor
  · intro listed
    obtain ⟨entry, member, rfl⟩ := listed
    exact ⟨entry.2, member⟩
  · intro found
    obtain ⟨value, member⟩ := found
    exact ⟨(key, value), member, rfl⟩

theorem keys_eq [Std.Asymm before] {Other : Type*}
    {other : SortedMap before Other}
    (same : ∀ key, (map.find? key).isSome = (other.find? key).isSome) :
    map.entries.map Prod.fst = other.entries.map Prod.fst := by
  have differ : ∀ {left right : Key}, before left right → left ≠ right := by
    intro left right ordered equal
    rw [equal] at ordered
    exact Std.Irrefl.irrefl right ordered
  apply List.Perm.eq_of_pairwise _ map.keys_sorted other.keys_sorted
  · apply (List.perm_ext_iff_of_nodup (map.keys_sorted.imp differ)
      (other.keys_sorted.imp differ)).mpr
    intro key
    rw [mem_keys, mem_keys, same]
  · intro left right _ _ ordered reversed
    exact absurd reversed (Std.Asymm.asymm _ _ ordered)

theorem ext_find? [Std.Asymm before] {other : SortedMap before Value}
    (same : ∀ key, map.find? key = other.find? key) : map = other := by
  have distinct : ∀ stored : SortedMap before Value, stored.entries.Nodup := by
    intro stored
    apply stored.sorted.imp
    intro left right ordered equal
    rw [equal] at ordered
    exact Std.Irrefl.irrefl right.1 ordered
  apply SortedMap.ext
  apply List.Perm.eq_of_pairwise _ map.sorted other.sorted
  · apply (List.perm_ext_iff_of_nodup (distinct map) (distinct other)).mpr
    intro entry
    change (entry.1, entry.2) ∈ map.entries ↔ (entry.1, entry.2) ∈ other.entries
    rw [← find?_eq_some_iff, ← find?_eq_some_iff, same]
  · intro left right _ _ ordered reversed
    exact absurd reversed (Std.Asymm.asymm _ _ ordered)

end Lookup

section Insertion

variable [DecidableRel before] [IsStrictTotalOrder Key before]
variable {map : SortedMap before Value} {key : Key}

/-- An absent key is inserted between the entries before it and those after
it, which all keep their places. -/
theorem emplace_split [DecidableEq Key] (absent : map.find? key = none)
    (value : Value) :
    ∃ front back, map.entries = front ++ back ∧
      (map.emplace key value).entries = front ++ (key, value) :: back := by
  have differ : ∀ entry ∈ map.entries, entry.1 ≠ key := by
    intro entry member same
    exact find?_eq_none_iff.mp absent entry.2 (same ▸ member)
  change ∃ front back, map.entries = front ++ back ∧
    insertEntry before key value map.entries = front ++ (key, value) :: back
  generalize map.entries = entries at differ
  induction entries with
  | nil => exact ⟨[], [], rfl, rfl⟩
  | cons head rest induction =>
      by_cases keyBefore : before key head.1
      · exact ⟨[], head :: rest, rfl, by simp [insertEntry, keyBefore]⟩
      · have headBefore : before head.1 key := by
          by_contra headAfter
          exact differ head List.mem_cons_self
            (Std.Trichotomous.trichotomous (r := before) _ _ headAfter
              keyBefore)
        obtain ⟨front, back, split, inserted⟩ := induction
          fun entry member => differ entry (List.mem_cons_of_mem _ member)
        refine ⟨head :: front, back, by simp [split], ?_⟩
        simp [insertEntry, keyBefore, headBefore, inserted]

theorem mapValues_emplace (change : Value → Image)
    (map : SortedMap before Value) (key : Key) (value : Value) :
    (map.emplace key value).mapValues change =
      (map.mapValues change).emplace key (change value) := by
  apply SortedMap.ext
  change (insertEntry before key value map.entries).map _ =
    insertEntry before key (change value) (map.entries.map _)
  induction map.entries with
  | nil => rfl
  | cons head rest induction =>
      simp only [insertEntry, List.map_cons]
      split
      · rfl
      · split
        · simp [induction]
        · rfl

theorem mem_emplace [DecidableEq Key] (absent : map.find? key = none)
    {value : Value} {entry : Key × Value} :
    entry ∈ (map.emplace key value).entries ↔
      entry ∈ map.entries ∨ entry = (key, value) := by
  obtain ⟨front, back, split, inserted⟩ := emplace_split absent value
  rw [inserted, split]
  simp only [List.mem_append, List.mem_cons]
  tauto

/-- Erasing a key that was absent undoes its insertion. -/
theorem erase_emplace [DecidableEq Key] (absent : map.find? key = none)
    (value : Value) : (map.emplace key value).erase key = map := by
  obtain ⟨front, back, split, inserted⟩ := emplace_split absent value
  apply SortedMap.ext
  rw [erase_of_split inserted, split]

theorem upsert_of_split [DecidableEq Key] {value : Value}
    {front back : List (Key × Value)}
    (split : map.entries = front ++ (key, value) :: back)
    (change : Option Value → Value) :
    (map.upsert key change).entries =
      front ++ (key, change (some value)) :: back := by
  rw [upsert, find?_of_split split]
  exact replace_of_split split _

theorem upsert_of_absent [DecidableEq Key] (absent : map.find? key = none)
    (change : Option Value → Value) :
    map.upsert key change = map.emplace key (change none) := by
  rw [upsert, absent]

theorem mem_upsert [DecidableEq Key] {change : Option Value → Value}
    {entry : Key × Value} :
    entry ∈ (map.upsert key change).entries ↔
      (entry.1 ≠ key ∧ entry ∈ map.entries) ∨
        entry = (key, change (map.find? key)) := by
  cases found : map.find? key with
  | none =>
      rw [upsert_of_absent found, mem_emplace found]
      constructor
      · intro member
        rcases member with old | fresh
        · refine .inl ⟨?_, old⟩
          intro same
          exact find?_eq_none_iff.mp found entry.2 (same ▸ old)
        · exact .inr fresh
      · intro member
        rcases member with ⟨_, old⟩ | fresh
        · exact .inl old
        · exact .inr fresh
  | some value =>
      rw [find?_eq_some_iff] at found
      obtain ⟨front, back, split⟩ := List.append_of_mem found
      rw [upsert_of_split split, split]
      simp only [List.mem_append, List.mem_cons]
      constructor
      · intro member
        rcases member with before | here | after
        · exact .inl ⟨front_ne split before, .inl before⟩
        · exact .inr here
        · exact .inl ⟨back_ne split after, .inr (.inr after)⟩
      · intro member
        rcases member with ⟨differs, before | here | after⟩ | here
        · exact .inl before
        · exact absurd (congrArg Prod.fst here) differs
        · exact .inr (.inr after)
        · exact .inr (.inl here)

theorem find?_upsert_self [DecidableEq Key] (map : SortedMap before Value)
    (key : Key) (change : Option Value → Value) :
    (map.upsert key change).find? key = some (change (map.find? key)) := by
  rw [find?_eq_some_iff, mem_upsert]
  exact .inr rfl

theorem find?_upsert_of_ne [DecidableEq Key] (map : SortedMap before Value)
    {other : Key} (differs : other ≠ key) (change : Option Value → Value) :
    (map.upsert key change).find? other = map.find? other := by
  have stored : ∀ image, (other, image) ∈ (map.upsert key change).entries ↔
      ∃ value, (other, value) ∈ map.entries ∧ some value = some image := by
    intro image
    rw [mem_upsert]
    simp [differs]
  rw [find?_congr stored]
  simp

end Insertion

section Relabelling

variable {Label : Type*} {beforeLabel : Label → Label → Prop}
variable [DecidableEq Key] [DecidableEq Label]
variable {map : SortedMap before Value} {other : SortedMap beforeLabel Image}
variable {label : Key → Label} {image : Value → Image}

/-- The other map holds the same entries under other labels. -/
def Relabels (label : Key → Label) (image : Value → Image)
    (map : SortedMap before Value) (other : SortedMap beforeLabel Image) :
    Prop :=
  other.entries = map.entries.map (Prod.map label image)

/-- A key is found under its label, if no other key has this label. -/
theorem Relabels.find? (relabels : map.Relabels label image other) {key : Key}
    (apart : ∀ entry ∈ map.entries, label entry.1 = label key ↔ entry.1 = key) :
    other.find? (label key) = (map.find? key).map image := by
  rw [SortedMap.find?, relabels, SortedMap.find?]
  generalize map.entries = entries at apart
  induction entries with
  | nil => rfl
  | cons entry rest induction =>
      have later := induction fun other member =>
        apart other (List.mem_cons_of_mem _ member)
      have first := apart entry List.mem_cons_self
      rw [List.map_cons, List.find?_cons, List.find?_cons]
      by_cases same : entry.1 = key
      · simp [same]
      · have differs : label entry.1 ≠ label key :=
          fun equal => same (first.mp equal)
        simpa [same, differs] using later

omit [DecidableEq Key] [DecidableEq Label] in
theorem Relabels.filterMap (relabels : map.Relabels label image other)
    {Kept KeptImage : Type*} {keptImage : Kept → KeptImage}
    {change : Value → Option Kept} {otherChange : Image → Option KeptImage}
    (changes : ∀ value,
      otherChange (image value) = (change value).map keptImage) :
    (map.filterMap change).Relabels label keptImage
      (other.filterMap otherChange) := by
  change other.entries.filterMap _ = (map.entries.filterMap _).map _
  rw [relabels, List.filterMap_map, List.map_filterMap]
  congr 1
  funext entry
  simp only [Function.comp_apply, Prod.map, changes, Option.map_map]
  rfl

section Ordered

variable [DecidableRel before] [IsTrans Key before]
variable [DecidableRel beforeLabel] [IsTrans Label beforeLabel]

omit [DecidableEq Key] [DecidableEq Label] [IsTrans Key before]
  [IsTrans Label beforeLabel] in
theorem insertEntry_map {key : Key} {value : Value}
    {entries : List (Key × Value)}
    (ordered : ∀ entry ∈ entries,
      (beforeLabel (label key) (label entry.1) ↔ before key entry.1) ∧
      (beforeLabel (label entry.1) (label key) ↔ before entry.1 key)) :
    insertEntry beforeLabel (label key) (image value)
        (entries.map (Prod.map label image)) =
      (insertEntry before key value entries).map (Prod.map label image) := by
  induction entries with
  | nil => rfl
  | cons entry rest induction =>
      obtain ⟨first, second⟩ := ordered entry List.mem_cons_self
      have later := induction fun other member =>
        ordered other (List.mem_cons_of_mem _ member)
      rw [List.map_cons, insertEntry, insertEntry, later]
      change (if beforeLabel (label key) (label entry.1) then _
        else if beforeLabel (label entry.1) (label key) then _ else _) = _
      simp only [first, second]
      split
      next => rfl
      next => split <;> rfl

/-- Storing under a label is storing under its key, if labels are ordered as
their keys are. -/
theorem Relabels.upsert (relabels : map.Relabels label image other)
    {key : Key}
    (apart : ∀ entry ∈ map.entries, label entry.1 = label key ↔ entry.1 = key)
    (ordered : ∀ entry ∈ map.entries,
      (beforeLabel (label key) (label entry.1) ↔ before key entry.1) ∧
      (beforeLabel (label entry.1) (label key) ↔ before entry.1 key))
    {change : Option Value → Value} {otherChange : Option Image → Image}
    (changes : ∀ found,
      otherChange (Option.map image found) = image (change found)) :
    (map.upsert key change).Relabels label image
      (other.upsert (label key) otherChange) := by
  have found := relabels.find? apart
  rw [Relabels, SortedMap.upsert, SortedMap.upsert, found]
  cases map.find? key with
  | none =>
      change insertEntry beforeLabel (label key) (otherChange none)
        other.entries = _
      have fresh := changes none
      rw [Option.map_none] at fresh
      rw [fresh, relabels, insertEntry_map ordered]
      rfl
  | some value =>
      have changed := changes (some value)
      rw [Option.map_some] at changed
      change other.entries.map _ = (map.entries.map _).map _
      rw [relabels, List.map_map, List.map_map]
      apply List.map_congr_left
      intro entry listed
      have same := apart entry listed
      simp only [Function.comp_apply, Prod.map, same, changed]
      split <;> rfl

end Ordered

end Relabelling

end SortedMap
