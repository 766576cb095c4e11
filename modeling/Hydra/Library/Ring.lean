import Mathlib.Algebra.Ring.Nat
import Mathlib.Data.List.Basic
import Mathlib.Logic.Function.Basic

/-!
# Ring buffers

A buffer of `size` slots holds the items of a window of consecutive positions;
position `p` lives in slot `p % size`.  Positions never wrap: they count all
items that have ever been written.
-/

namespace Ring

variable {Item : Type*} {size : Nat} [NeZero size]
variable {buffer other : Fin size → Item} {first : Nat}
variable {item : Item} {items : List Item}

/-- Positions that are less than one turn apart live in different slots. -/
theorem ofNat_ne {left right : Nat} (later : left < right)
    (near : right < left + size) :
    Fin.ofNat size left ≠ Fin.ofNat size right := by
  intro same
  have sameMod : left % size = right % size := congrArg Fin.val same
  have gap : (right - left) % size = 0 :=
    Nat.sub_mod_eq_zero_of_mod_eq sameMod.symm
  rw [Nat.mod_eq_of_lt (by omega)] at gap
  omega

/-- The buffer holds the items at the positions from `first` on. -/
structure Window (buffer : Fin size → Item) (first : Nat)
    (items : List Item) : Prop where
  fits : items.length ≤ size
  stored : ∀ index (inside : index < items.length),
    buffer (Fin.ofNat size (first + index)) = items[index]

theorem Window.nil (buffer : Fin size → Item) (first : Nat) :
    Window buffer first [] where
  fits := Nat.zero_le _
  stored index inside := absurd inside (Nat.not_lt_zero index)

/-- The slot behind a window that is not full holds none of its items. -/
theorem Window.slot_ne (free : items.length < size) {index : Nat}
    (inside : index < items.length) :
    Fin.ofNat size (first + index) ≠
      Fin.ofNat size (first + items.length) := by
  apply ofNat_ne
  · omega
  · omega

/-- Only the slots of the window matter. -/
theorem Window.congr (window : Window buffer first items)
    (free : items.length < size)
    (agree : ∀ slot, slot ≠ Fin.ofNat size (first + items.length) →
      other slot = buffer slot) : Window other first items where
  fits := window.fits
  stored index inside := by
    rw [agree _ (slot_ne free inside)]
    exact window.stored index inside

/-- The window grows by the item in the slot behind it. -/
theorem Window.append (window : Window buffer first items)
    (free : items.length < size)
    (written : buffer (Fin.ofNat size (first + items.length)) = item) :
    Window buffer first (items ++ [item]) where
  fits := by
    rw [List.length_append]
    exact free
  stored index inside := by
    rw [List.length_append, List.length_singleton] at inside
    by_cases old : index < items.length
    · rw [List.getElem_append_left old]
      exact window.stored index old
    · obtain rfl : index = items.length := by omega
      rw [written, List.getElem_concat_length rfl]

theorem Window.head (window : Window buffer first (item :: items)) :
    buffer (Fin.ofNat size first) = item := by
  have stored := window.stored 0 (Nat.succ_pos _)
  rw [Nat.add_zero] at stored
  exact stored

theorem Window.tail (window : Window buffer first (item :: items)) :
    Window buffer (first + 1) items where
  fits := Nat.le_of_succ_le window.fits
  stored index inside := by
    have stored := window.stored (index + 1) (Nat.succ_lt_succ inside)
    have position : first + 1 + index = first + (index + 1) := by omega
    rw [position, stored, List.getElem_cons_succ]

end Ring
