import Hydra.Book.View
import Hydra.Market.Commuting
import Mathlib.Algebra.BigOperators.Group.Multiset.Basic

/-!
# The logical book

What can be seen of a book without its slots: the levels of both sides with
their records and their orders, and the keys of the index.  It is determined by
the market that the book shows.
-/

namespace Hydra

variable {sizes : PoolSizes}

/-- A level without the slots that it is stored in: its key in the price map,
its record, and its orders from head to tail. -/
structure LevelPicture where
  key : Int64
  price : Int64
  totalQty : UInt64
  orderCount : UInt32
  orders : List Order

/-- The logical book: the levels of both sides and the keys of the index. -/
structure Picture where
  levels : Side → List (Option LevelPicture)
  indexed : UInt64 → Bool

/-- What a level holds, whatever the places of its orders. -/
structure LevelContents where
  key : Int64
  price : Int64
  totalQty : UInt64
  orderCount : UInt32
  orders : Multiset Order

def LevelPicture.contents (level : LevelPicture) : LevelContents where
  key := level.key
  price := level.price
  totalQty := level.totalQty
  orderCount := level.orderCount
  orders := level.orders

/-- The levels of a side without the places of their orders. -/
def Picture.contents (picture : Picture) (side : Side) :
    List (Option LevelContents) :=
  (picture.levels side).map (Option.map LevelPicture.contents)

namespace OrderBook

def levelPicture (book : OrderBook sizes)
    (entry : Int64 × LevelSlot sizes) : Option LevelPicture :=
  (book.levelPool.object? entry.2).map fun record =>
    { key := entry.1
      price := record.price
      totalQty := record.totalQty
      orderCount := record.orderCount
      orders := book.queueOrders entry.2 }

def picture (book : OrderBook sizes) : Picture where
  levels side := (book.priceMap side).entries.map book.levelPicture
  indexed orderId := (book.orderIndex orderId).isSome

end OrderBook

namespace Market

def levelPicture (entry : Int64 × List Order) : Option LevelPicture :=
  some
    { key := entry.1
      price := entry.1
      totalQty := .ofNat (entry.2.map Order.size).sum
      orderCount := .ofNat entry.2.length
      orders := entry.2 }

def picture (market : Market) : Picture where
  levels side := (market.ladder side).entries.map levelPicture
  indexed orderId := (market.find? orderId).isSome

end Market

/-- The logical book is what the market shows. -/
theorem OrderBook.Settled.picture_eq {book : OrderBook sizes}
    {layout : Layout sizes} (settled : book.Settled layout) :
    book.picture = book.view.picture := by
  rw [OrderBook.picture, Market.picture]
  congr 1
  · funext side
    rw [settled.view_entries, List.map_map]
    apply List.map_congr_left
    intro entry member
    rw [OrderBook.levelPicture, settled.record member, Option.map_some,
      settled.queueOrders_eq member]
    simp only [Function.comp_apply, Market.levelPicture, List.length_map,
      List.map_map]
    rfl
  · funext orderId
    rw [settled.find?_view, OrderBook.findOrder]
    simp

namespace Market

variable {market other : Market}

theorem Valid.ladder_mapped {Image : Type} (valid : market.Valid)
    (otherValid : other.Valid) {side : Side}
    {image otherImage : List Order → Image}
    (empties : ∀ price, other.queueAt side price = [] ↔
      market.queueAt side price = [])
    (images : ∀ price, otherImage (other.queueAt side price) =
      image (market.queueAt side price)) :
    (other.ladder side).mapValues otherImage =
      (market.ladder side).mapValues image := by
  apply SortedMap.ext_find?
  intro price
  rw [SortedMap.find?_mapValues, SortedMap.find?_mapValues, valid.find?_eq,
    otherValid.find?_eq]
  by_cases empty : market.queueAt side price = []
  · rw [if_pos empty, if_pos ((empties price).mpr empty)]
    rfl
  · rw [if_neg empty, if_neg (mt (empties price).mp empty), Option.map_some,
      Option.map_some, images]

/-- Markets whose queues are permutations of each other have the same
contents. -/
theorem Valid.contents_eq (valid : market.Valid) (otherValid : other.Valid)
    (perms : ∀ side price,
      (other.queueAt side price).Perm (market.queueAt side price))
    (side : Side) : other.picture.contents side =
      market.picture.contents side := by
  let contents (entry : Int64 × Multiset Order) : Option LevelContents :=
    some
      { key := entry.1
        price := entry.1
        totalQty := .ofNat (entry.2.map Order.size).sum
        orderCount := .ofNat entry.2.card
        orders := entry.2 }
  have shown : ∀ current : Market, current.picture.contents side =
      (((current.ladder side).mapValues fun queue : List Order =>
        (queue : Multiset Order)).entries).map contents := by
    intro current
    rw [Picture.contents, picture, SortedMap.mapValues_entries, List.map_map,
      List.map_map]
    apply List.map_congr_left
    intro entry _
    simp [contents, levelPicture, LevelPicture.contents]
  have sameLadder : (other.ladder side).mapValues (fun queue : List Order =>
      (queue : Multiset Order)) =
      (market.ladder side).mapValues fun queue : List Order =>
        (queue : Multiset Order) := by
    apply valid.ladder_mapped otherValid
    · intro price
      rw [← List.length_eq_zero_iff, (perms side price).length_eq,
        List.length_eq_zero_iff]
    · intro price
      exact Multiset.coe_eq_coe.mpr (perms side price)
  rw [shown, shown, sameLadder]

end Market

end Hydra
