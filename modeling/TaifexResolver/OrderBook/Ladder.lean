import TaifexResolver.Message

/-!
# Five-level books

The book of one product: four ladders of five levels, the shifting loops that
insert and erase a level, and the application of an I081 entry.
-/

namespace TaifexResolver

/-- `TAIFEX_BOOK_DEPTH`. -/
abbrev taifexBookDepth : Nat := 5

/-- One price level of a ladder. -/
structure OrderBookLevel where
  valid : Bool := false
  priceSign : UInt8 := '0'.toUInt8
  price : UInt64 := 0
  quantity : UInt32 := 0
  deriving DecidableEq

/-- `std::array<OrderBookLevel, TAIFEX_BOOK_DEPTH>`. -/
abbrev Ladder := Vector OrderBookLevel taifexBookDepth

/-- A ladder with every level empty. -/
def Ladder.empty : Ladder := Vector.replicate taifexBookDepth {}

/-- The book of one product, as delivered to callbacks. -/
structure OrderBook where
  prodId : ProdIdText := Vector.replicate 21 0
  lastProdMsgSeq : UInt32 := 0
  isStale : Bool := true
  hasSnapshot : Bool := false
  infoTime : TimeText := Vector.replicate 16 0
  bids : Ladder := Ladder.empty
  asks : Ladder := Ladder.empty
  derivedBids : Ladder := Ladder.empty
  derivedAsks : Ladder := Ladder.empty
  deriving DecidableEq

/-- The four ladders of a book. -/
inductive Side
  | bids
  | asks
  | derivedBids
  | derivedAsks
  deriving DecidableEq

/-- The ladder an entry type addresses, if it addresses one. -/
def sideLadder (entryType : UInt8) : Option Side :=
  if entryType = '0'.toUInt8 then some .bids
  else if entryType = '1'.toUInt8 then some .asks
  else if entryType = 'E'.toUInt8 then some .derivedBids
  else if entryType = 'F'.toUInt8 then some .derivedAsks
  else none

/-- The array index of a one-based wire level, when the level is in range. -/
def levelIndex (priceLevel : UInt8) : Option (Fin taifexBookDepth) :=
  if inRange : 1 ≤ priceLevel.toNat ∧ priceLevel.toNat ≤ taifexBookDepth then
    some ⟨priceLevel.toNat - 1, by omega⟩
  else none

namespace OrderBook

/-- The array a side names. -/
def ladder (book : OrderBook) : Side → Ladder
  | .bids => book.bids
  | .asks => book.asks
  | .derivedBids => book.derivedBids
  | .derivedAsks => book.derivedAsks

/-- Overwrite the array a side names. -/
def setLadder (book : OrderBook) (side : Side) (ladder : Ladder) : OrderBook :=
  match side with
  | .bids => { book with bids := ladder }
  | .asks => { book with asks := ladder }
  | .derivedBids => { book with derivedBids := ladder }
  | .derivedAsks => { book with derivedAsks := ladder }

/-- The copy of a book that is handed out, stamped with a stale flag. -/
def stamp (book : OrderBook) (isStale : Bool) : OrderBook :=
  { book with isStale := isStale }

@[simp] theorem isStale_stamp (book : OrderBook) (isStale : Bool) :
    (book.stamp isStale).isStale = isStale := rfl

@[simp] theorem prodId_stamp (book : OrderBook) (isStale : Bool) :
    (book.stamp isStale).prodId = book.prodId := rfl

@[simp] theorem lastProdMsgSeq_stamp (book : OrderBook) (isStale : Bool) :
    (book.stamp isStale).lastProdMsgSeq = book.lastProdMsgSeq := rfl

@[simp] theorem hasSnapshot_stamp (book : OrderBook) (isStale : Bool) :
    (book.stamp isStale).hasSnapshot = book.hasSnapshot := rfl

@[simp] theorem infoTime_stamp (book : OrderBook) (isStale : Bool) :
    (book.stamp isStale).infoTime = book.infoTime := rfl

@[simp] theorem ladder_stamp (book : OrderBook) (isStale : Bool) :
    (book.stamp isStale).ladder = book.ladder := rfl

end OrderBook

/-! ## Applying an increment -/

namespace Ladder

/-- `for (int i = TAIFEX_BOOK_DEPTH - 1; i > idx; --i) ladder[i] = ladder[i - 1];`
from a given value of `i`. -/
def shiftDown (idx : Nat) :
    (i : Nat) → i < taifexBookDepth → Ladder → Ladder
  | 0, _, ladder => ladder
  | i + 1, inRange, ladder =>
      if idx < i + 1 then
        shiftDown idx i (by omega) (ladder.set (i + 1) ladder[i])
      else ladder

/-- `for (int i = idx; i < TAIFEX_BOOK_DEPTH - 1; ++i) ladder[i] = ladder[i + 1];`
with the number of iterations left. -/
def shiftUp :
    (left i : Nat) → i + left = taifexBookDepth - 1 → Ladder → Ladder
  | 0, _, _, ladder => ladder
  | left + 1, i, inRange, ladder =>
      have next : i + 1 < taifexBookDepth := by
        simp only [taifexBookDepth] at *
        omega
      shiftUp left (i + 1) (by omega) (ladder.set i ladder[i + 1])

end Ladder

/-- The level an I081 entry writes. -/
def MDEntry.level (entry : MDEntry) : OrderBookLevel where
  valid := true
  priceSign := entry.priceSign
  price := entry.price
  quantity := entry.quantity

/-- The level a snapshot entry writes. -/
def SnapshotEntry.level (entry : SnapshotEntry) : OrderBookLevel where
  valid := true
  priceSign := entry.priceSign
  price := entry.price
  quantity := entry.quantity

/-- The `update_action` switch of `apply_entry`, on one ladder. -/
def Ladder.update
    (ladder : Ladder)
    (idx : Fin taifexBookDepth)
    (entry : MDEntry) : Ladder :=
  if entry.updateAction = '0'.toUInt8 then
    -- New: lower levels shift down, level 5 falls off.
    (Ladder.shiftDown idx (taifexBookDepth - 1) (by decide) ladder).set
      idx entry.level
  else if entry.updateAction = '1'.toUInt8 then
    ladder.set idx entry.level
  else if entry.updateAction = '2'.toUInt8 then
    -- Delete: lower levels shift up, level 5 becomes empty.
    (Ladder.shiftUp (taifexBookDepth - 1 - idx) idx (by omega) ladder).set
      (taifexBookDepth - 1) {}
  else if entry.updateAction = '5'.toUInt8 then
    -- Overlay: price 0 and quantity 0 clear the level.
    if entry.price = 0 ∧ entry.quantity = 0 then ladder.set idx {}
    else ladder.set idx entry.level
  else ladder

namespace OrderBook

/-- `OrderBookManager::apply_entry`. -/
def applyEntry (book : OrderBook) (entry : MDEntry) : OrderBook :=
  match sideLadder entry.entryType with
  | none => book
  | some side =>
      match levelIndex entry.priceLevel with
      | none => book
      | some idx =>
          book.setLadder side ((book.ladder side).update idx entry)

/-- Place one snapshot entry, as the loop of `adopt_snapshot_locked` does. -/
def placeEntry (book : OrderBook) (entry : SnapshotEntry) : OrderBook :=
  match sideLadder entry.entryType with
  | none => book
  | some side =>
      match levelIndex entry.priceLevel with
      | none => book
      | some idx =>
          book.setLadder side ((book.ladder side).set idx entry.level)

/-- The four `fill(OrderBookLevel{})` calls of `adopt_snapshot_locked`. -/
def clearLadders (book : OrderBook) : OrderBook :=
  { book with
    bids := Ladder.empty
    asks := Ladder.empty
    derivedBids := Ladder.empty
    derivedAsks := Ladder.empty }

end OrderBook
end TaifexResolver
