import Mathlib.Data.List.Basic
import Mathlib.Logic.Function.Basic

/-!
# Fingerprints

A fingerprint folds items, one after the other, into a hash.  When no step of
the folding forgets its hash or its item, a change of a single item always
shows, however many items follow.  Reading the items in chunks makes no
difference.
-/

namespace Fingerprint

variable {Hash Item : Type*} {step : Hash → Item → Hash}

/-- A step of the folding forgets nothing. -/
structure Sharp (step : Hash → Item → Hash) : Prop where
  hash_injective : ∀ item, Function.Injective fun hash => step hash item
  item_injective : ∀ hash, Function.Injective (step hash)

theorem Sharp.foldl_injective (sharp : Sharp step) (items : List Item) :
    Function.Injective fun hash => items.foldl step hash := by
  induction items with
  | nil => exact Function.injective_id
  | cons item rest induction =>
      exact induction.comp (sharp.hash_injective item)

/-- What follows a change does not hide it. -/
theorem Sharp.foldl_append_inj (sharp : Sharp step) {hash : Hash}
    {front left right : List Item} (back : List Item) :
    (front ++ left ++ back).foldl step hash =
        (front ++ right ++ back).foldl step hash ↔
      left.foldl step (front.foldl step hash) =
        right.foldl step (front.foldl step hash) := by
  rw [List.foldl_append, List.foldl_append, List.foldl_append,
    List.foldl_append]
  exact (sharp.foldl_injective back).eq_iff

/-- Folding what successive reads of up to `limit` items return, until a read
comes back short. -/
def foldChunks (step : Hash → Item → Hash) (limit : Nat)
    (positive : 0 < limit) (hash : Hash) (items : List Item) : Hash :=
  if (items.take limit).length < limit then
    (items.take limit).foldl step hash
  else
    foldChunks step limit positive ((items.take limit).foldl step hash)
      (items.drop limit)
termination_by items.length
decreasing_by
  rw [List.length_drop]
  rw [List.length_take] at *
  omega

theorem foldChunks_eq (limit : Nat) (positive : 0 < limit) (hash : Hash)
    (items : List Item) :
    foldChunks step limit positive hash items = items.foldl step hash := by
  induction hash, items using foldChunks.induct step limit positive with
  | case1 hash items short =>
      rw [List.length_take] at short
      have whole : items.take limit = items :=
        List.take_of_length_le (by omega)
      rw [foldChunks, whole, if_pos]
      omega
  | case2 hash items full induction =>
      rw [foldChunks, if_neg full, induction, ← List.foldl_append,
        List.take_append_drop]

end Fingerprint
