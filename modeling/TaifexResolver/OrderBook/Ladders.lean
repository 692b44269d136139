import TaifexResolver.OrderBook.Ladder
import Mathlib.Data.Fintype.Basic
import Mathlib.Logic.Function.Basic

/-!
# Books as families of ladders

The contents of a book are its four ladders.  This module reads `apply_entry`
and the placement loop of a snapshot as operations on the family of ladders
alone, and proves that a book without ghost levels is rebuilt exactly by placing
its valid levels, in any order, on empty ladders.
-/

namespace TaifexResolver

/-- The wire type byte of a side. -/
def Side.entryType : Side → UInt8
  | .bids => '0'.toUInt8
  | .asks => '1'.toUInt8
  | .derivedBids => 'E'.toUInt8
  | .derivedAsks => 'F'.toUInt8

theorem sideLadder_eq_some_iff {entryType : UInt8} {side : Side} :
    sideLadder entryType = some side ↔ entryType = side.entryType := by
  constructor
  · intro found
    unfold sideLadder at found
    split_ifs at found with bids asks derivedBids derivedAsks
    all_goals cases found
    · exact bids
    · exact asks
    · exact derivedBids
    · exact derivedAsks
  · rintro rfl
    cases side <;> decide

theorem Side.entryType_injective : Function.Injective Side.entryType := by
  intro side other same
  have found := sideLadder_eq_some_iff.mpr same
  rw [sideLadder_eq_some_iff.mpr rfl] at found
  exact Option.some.inj found

theorem levelIndex_eq_some_iff {priceLevel : UInt8} {idx : Fin taifexBookDepth} :
    levelIndex priceLevel = some idx ↔ priceLevel.toNat = idx + 1 := by
  unfold levelIndex
  split
  · simp only [Option.some.injEq, Fin.ext_iff]
    omega
  · have bound := idx.isLt
    simp only [reduceCtorEq, false_iff]
    omega

/-- The contents of a book, side by side. -/
abbrev Ladders := Side → Ladder

/-- A place in a book. -/
abbrev Slot := Side × Fin taifexBookDepth

/-- The slot an entry type and a wire level address, if they address one. -/
def slotOf (entryType priceLevel : UInt8) : Option Slot :=
  (sideLadder entryType).bind fun side =>
    (levelIndex priceLevel).map fun idx => (side, idx)

/-- A slot is addressed by the type byte of its side and its level, counted from one. -/
theorem slotOf_eq_some_iff {entryType priceLevel : UInt8} {slot : Slot} :
    slotOf entryType priceLevel = some slot ↔
      entryType = slot.1.entryType ∧ priceLevel.toNat = slot.2 + 1 := by
  simp only [slotOf, Option.bind_eq_some_iff, Option.map_eq_some_iff,
    sideLadder_eq_some_iff, levelIndex_eq_some_iff]
  constructor
  · rintro ⟨side, named, idx, level, rfl⟩
    exact ⟨named, level⟩
  · rintro ⟨named, level⟩
    exact ⟨slot.1, named, slot.2, level, rfl⟩

/-- The slot a snapshot entry addresses. -/
def SnapshotEntry.slot (entry : SnapshotEntry) : Option Slot :=
  slotOf entry.entryType entry.priceLevel

/-- The slot an increment entry addresses. -/
def MDEntry.slot (entry : MDEntry) : Option Slot :=
  slotOf entry.entryType entry.priceLevel

namespace Ladders

/-- Four empty ladders. -/
def empty : Ladders := fun _ => Ladder.empty

/-- The level at a slot. -/
def cell (ladders : Ladders) (slot : Slot) : OrderBookLevel :=
  (ladders slot.1)[slot.2]

theorem ext_cell
    {first second : Ladders}
    (agree : ∀ slot, first.cell slot = second.cell slot) :
    first = second := by
  funext side
  apply Vector.ext
  intro idx inRange
  exact agree (side, ⟨idx, inRange⟩)

@[simp] theorem cell_empty (slot : Slot) : empty.cell slot = {} := by
  simp [cell, empty, Ladder.empty]

/-- Apply an increment entry. -/
def applyEntry (ladders : Ladders) (entry : MDEntry) : Ladders :=
  match entry.slot with
  | none => ladders
  | some (side, idx) =>
      Function.update ladders side ((ladders side).update idx entry)

/-- Place a snapshot entry. -/
def placeEntry (ladders : Ladders) (entry : SnapshotEntry) : Ladders :=
  match entry.slot with
  | none => ladders
  | some (side, idx) =>
      Function.update ladders side ((ladders side).set idx entry.level idx.isLt)

end Ladders

/-! ## The book operations are the ladder operations -/

namespace OrderBook

/-- Overwrite the contents of a book. -/
def withLadders (book : OrderBook) (ladders : Ladders) : OrderBook :=
  { book with
    bids := ladders .bids
    asks := ladders .asks
    derivedBids := ladders .derivedBids
    derivedAsks := ladders .derivedAsks }

@[simp] theorem ladder_withLadders (book : OrderBook) (ladders : Ladders) :
    (book.withLadders ladders).ladder = ladders := by
  funext side
  cases side <;> rfl

@[simp] theorem withLadders_withLadders
    (book : OrderBook)
    (first second : Ladders) :
    (book.withLadders first).withLadders second = book.withLadders second := rfl

@[simp] theorem withLadders_ladder (book : OrderBook) :
    book.withLadders book.ladder = book := rfl

theorem setLadder_eq_withLadders (book : OrderBook) (side : Side) (ladder : Ladder) :
    book.setLadder side ladder =
      book.withLadders (Function.update book.ladder side ladder) := by
  cases side <;> rfl

/-- `apply_entry` touches nothing but the ladders. -/
theorem applyEntry_eq_withLadders (book : OrderBook) (entry : MDEntry) :
    book.applyEntry entry =
      book.withLadders (Ladders.applyEntry book.ladder entry) := by
  unfold applyEntry Ladders.applyEntry MDEntry.slot slotOf
  cases sideLadder entry.entryType with
  | none => rfl
  | some side =>
      cases levelIndex entry.priceLevel with
      | none => rfl
      | some idx => exact setLadder_eq_withLadders book side _

theorem placeEntry_eq_withLadders (book : OrderBook) (entry : SnapshotEntry) :
    book.placeEntry entry =
      book.withLadders (Ladders.placeEntry book.ladder entry) := by
  unfold placeEntry Ladders.placeEntry SnapshotEntry.slot slotOf
  cases sideLadder entry.entryType with
  | none => rfl
  | some side =>
      cases levelIndex entry.priceLevel with
      | none => rfl
      | some idx => exact setLadder_eq_withLadders book side _

theorem foldl_applyEntry_eq_withLadders (book : OrderBook) (entries : List MDEntry) :
    entries.foldl applyEntry book =
      book.withLadders (entries.foldl Ladders.applyEntry book.ladder) := by
  induction entries generalizing book with
  | nil => rfl
  | cons entry rest inductionHypothesis =>
      rw [List.foldl_cons, List.foldl_cons, inductionHypothesis,
        applyEntry_eq_withLadders, withLadders_withLadders, ladder_withLadders]

theorem foldl_placeEntry_eq_withLadders
    (book : OrderBook)
    (entries : List SnapshotEntry) :
    entries.foldl placeEntry book =
      book.withLadders (entries.foldl Ladders.placeEntry book.ladder) := by
  induction entries generalizing book with
  | nil => rfl
  | cons entry rest inductionHypothesis =>
      rw [List.foldl_cons, List.foldl_cons, inductionHypothesis,
        placeEntry_eq_withLadders, withLadders_withLadders, ladder_withLadders]

theorem ladder_foldl_applyEntry (book : OrderBook) (entries : List MDEntry) :
    (entries.foldl applyEntry book).ladder =
      entries.foldl Ladders.applyEntry book.ladder := by
  rw [foldl_applyEntry_eq_withLadders, ladder_withLadders]

theorem ladder_foldl_placeEntry (book : OrderBook) (entries : List SnapshotEntry) :
    (entries.foldl placeEntry book).ladder =
      entries.foldl Ladders.placeEntry book.ladder := by
  rw [foldl_placeEntry_eq_withLadders, ladder_withLadders]

@[simp] theorem ladder_clearLadders (book : OrderBook) :
    book.clearLadders.ladder = Ladders.empty := by
  funext side
  cases side <;> rfl

end OrderBook

/-! ## Books without ghost levels -/

namespace Ladder

/-- A ladder in which a level that is not valid is the default level. -/
def Canonical (ladder : Ladder) : Prop :=
  ∀ level ∈ ladder, level.valid = false → level = {}

theorem canonical_empty : Ladder.empty.Canonical := by
  intro level member _
  exact (Vector.mem_replicate.mp member).2

/-- Writing a valid or default level keeps a ladder canonical. -/
theorem Canonical.set
    {ladder : Ladder}
    (canonical : ladder.Canonical)
    (idx : Nat)
    (inRange : idx < taifexBookDepth)
    {level : OrderBookLevel}
    (levelCanonical : level.valid = false → level = {}) :
    Ladder.Canonical (ladder.set idx level) := by
  intro other member invalid
  rcases Vector.mem_or_eq_of_mem_set member with old | rfl
  · exact canonical other old invalid
  · exact levelCanonical invalid

theorem Canonical.shiftDown
    {ladder : Ladder}
    (canonical : ladder.Canonical)
    (idx i : Nat)
    (inRange : i < taifexBookDepth) :
    (Ladder.shiftDown idx i inRange ladder).Canonical := by
  induction i generalizing ladder with
  | zero => exact canonical
  | succ i inductionHypothesis =>
      unfold Ladder.shiftDown
      split
      · apply inductionHypothesis
        apply canonical.set
        exact canonical _ (Vector.getElem_mem _)
      · exact canonical

theorem Canonical.shiftUp
    {ladder : Ladder}
    (canonical : ladder.Canonical)
    (left i : Nat)
    (total : i + left = taifexBookDepth - 1) :
    (Ladder.shiftUp left i total ladder).Canonical := by
  induction left generalizing ladder i with
  | zero => exact canonical
  | succ left inductionHypothesis =>
      unfold Ladder.shiftUp
      apply inductionHypothesis
      apply canonical.set
      exact canonical _ (Vector.getElem_mem _)

/-- Every update action keeps a ladder canonical. -/
theorem Canonical.update
    {ladder : Ladder}
    (canonical : ladder.Canonical)
    (idx : Fin taifexBookDepth)
    (entry : MDEntry) :
    (ladder.update idx entry).Canonical := by
  have written : entry.level.valid = false → entry.level = {} := by
    intro invalid
    cases invalid
  unfold Ladder.update
  split_ifs
  · exact (canonical.shiftDown _ _ _).set _ _ written
  · exact canonical.set _ _ written
  · exact (canonical.shiftUp _ _ _).set _ _ fun _ => rfl
  · exact canonical.set _ _ fun _ => rfl
  · exact canonical.set _ _ written
  · exact canonical

end Ladder

namespace Ladders

/-- Every side is canonical. -/
def Canonical (ladders : Ladders) : Prop :=
  ∀ side, (ladders side).Canonical

theorem canonical_empty : empty.Canonical := fun _ => Ladder.canonical_empty

theorem Canonical.update
    {ladders : Ladders}
    (canonical : ladders.Canonical)
    (side : Side)
    {ladder : Ladder}
    (ladderCanonical : ladder.Canonical) :
    Canonical (Function.update ladders side ladder) := by
  intro other
  by_cases same : other = side
  · subst same
    rwa [Function.update_self]
  · rw [Function.update_of_ne same]
    exact canonical other

theorem Canonical.applyEntry
    {ladders : Ladders}
    (canonical : ladders.Canonical)
    (entry : MDEntry) :
    (ladders.applyEntry entry).Canonical := by
  unfold Ladders.applyEntry
  split
  · exact canonical
  · exact canonical.update _ ((canonical _).update _ entry)

theorem Canonical.placeEntry
    {ladders : Ladders}
    (canonical : ladders.Canonical)
    (entry : SnapshotEntry) :
    (ladders.placeEntry entry).Canonical := by
  unfold Ladders.placeEntry
  split
  · exact canonical
  · refine canonical.update _ ((canonical _).set _ _ fun invalid => ?_)
    cases invalid

theorem Canonical.foldl_applyEntry
    {ladders : Ladders}
    (canonical : ladders.Canonical)
    (entries : List MDEntry) :
    Canonical (entries.foldl Ladders.applyEntry ladders) := by
  induction entries generalizing ladders with
  | nil => exact canonical
  | cons entry rest inductionHypothesis =>
      exact inductionHypothesis (canonical.applyEntry entry)

theorem Canonical.foldl_placeEntry
    {ladders : Ladders}
    (canonical : ladders.Canonical)
    (entries : List SnapshotEntry) :
    Canonical (entries.foldl Ladders.placeEntry ladders) := by
  induction entries generalizing ladders with
  | nil => exact canonical
  | cons entry rest inductionHypothesis =>
      exact inductionHypothesis (canonical.placeEntry entry)

/-! ## Listing and rebuilding -/

/-- Placing an entry writes its slot and no other. -/
theorem cell_placeEntry
    (ladders : Ladders)
    (entry : SnapshotEntry)
    (slot : Slot) :
    (ladders.placeEntry entry).cell slot =
      if entry.slot = some slot then entry.level else ladders.cell slot := by
  obtain ⟨side, idx⟩ := slot
  unfold placeEntry
  split
  · next nowhere => simp [nowhere]
  · next target position somewhere =>
      rw [somewhere]
      by_cases sameSide : side = target
      · subst sameSide
        by_cases sameIdx : position = idx
        · subst sameIdx
          simp [cell]
        · have different : position.val ≠ idx.val := fun equal =>
            sameIdx (Fin.ext equal)
          simp [cell, sameIdx, Vector.getElem_set_ne _ _ different]
      · have different : ¬target = side := fun equal => sameSide equal.symm
        simp [cell, Function.update_of_ne sameSide, different]

/-- After placing a list of entries, a slot holds the last entry that addressed
it. -/
theorem cell_foldl_placeEntry
    (ladders : Ladders)
    (entries : List SnapshotEntry)
    (slot : Slot) :
    Ladders.cell (entries.foldl placeEntry ladders) slot =
      ((entries.filter fun entry => entry.slot = some slot).getLast?.map
        SnapshotEntry.level).getD (ladders.cell slot) := by
  induction entries using List.reverseRecOn with
  | nil => rfl
  | append_singleton entries entry inductionHypothesis =>
      rw [List.foldl_append, List.foldl_cons, List.foldl_nil, cell_placeEntry,
        inductionHypothesis, List.filter_append]
      by_cases addressed : entry.slot = some slot
      · simp [addressed]
      · simp [addressed]

end Ladders

/-- The level of an index fits into its byte. -/
theorem toNat_ofNat_level (idx : Fin taifexBookDepth) :
    (UInt8.ofNat (idx + 1)).toNat = idx + 1 := by
  revert idx
  decide

/-- The snapshot entry that announces a level at a slot. -/
def OrderBookLevel.entryAt (level : OrderBookLevel) (slot : Slot) : SnapshotEntry where
  entryType := slot.1.entryType
  priceSign := level.priceSign
  price := level.price
  quantity := level.quantity
  priceLevel := UInt8.ofNat (slot.2 + 1)

theorem OrderBookLevel.slot_entryAt (level : OrderBookLevel) (slot : Slot) :
    (level.entryAt slot).slot = some slot :=
  slotOf_eq_some_iff.mpr ⟨rfl, toNat_ofNat_level slot.2⟩

/-- Every slot of a book, once. -/
def allSlots : List Slot :=
  [Side.bids, .asks, .derivedBids, .derivedAsks].flatMap fun side =>
    (List.finRange taifexBookDepth).map fun idx => (side, idx)

theorem mem_allSlots (slot : Slot) : slot ∈ allSlots := by
  obtain ⟨side, idx⟩ := slot
  cases side <;> revert idx <;> decide

theorem nodup_allSlots : allSlots.Nodup := by decide

namespace Ladders

/-- One entry for each valid level. -/
def listing (ladders : Ladders) : List SnapshotEntry :=
  allSlots.filterMap fun slot =>
    if (ladders.cell slot).valid then some ((ladders.cell slot).entryAt slot)
    else none

/-- A list of entries that announces exactly the valid levels of a book, each
once, in any order. -/
def ListedBy (ladders : Ladders) (entries : List SnapshotEntry) : Prop :=
  entries.Perm ladders.listing

instance (ladders : Ladders) (entries : List SnapshotEntry) :
    Decidable (ladders.ListedBy entries) :=
  inferInstanceAs (Decidable (List.Perm _ _))

private theorem filter_filterMap_slots
    (ladders : Ladders)
    (slots : List Slot)
    (distinct : slots.Nodup)
    (slot : Slot) :
    (slots.filterMap fun other =>
        if (ladders.cell other).valid then
          some ((ladders.cell other).entryAt other) else none).filter
        (fun entry => entry.slot = some slot) =
      if slot ∈ slots ∧ (ladders.cell slot).valid = true then
        [(ladders.cell slot).entryAt slot] else [] := by
  induction slots with
  | nil => rfl
  | cons head rest inductionHypothesis =>
      have headFresh : head ∉ rest := (List.nodup_cons.mp distinct).1
      have tailOutput := inductionHypothesis (List.nodup_cons.mp distinct).2
      by_cases valid : (ladders.cell head).valid = true
      · simp only [List.filterMap_cons, if_pos valid, List.filter_cons,
          OrderBookLevel.slot_entryAt, Option.some.injEq, tailOutput]
        by_cases same : head = slot
        · subst same
          simp [headFresh, valid]
        · simp [same, Ne.symm same]
      · simp only [List.filterMap_cons, if_neg valid, tailOutput]
        by_cases same : head = slot
        · subst same
          simp [headFresh, valid]
        · simp [Ne.symm same]

/-- The listing has exactly one entry for a valid level and none for another. -/
theorem filter_listing (ladders : Ladders) (slot : Slot) :
    ladders.listing.filter (fun entry => entry.slot = some slot) =
      if (ladders.cell slot).valid = true then
        [(ladders.cell slot).entryAt slot] else [] := by
  rw [listing, filter_filterMap_slots ladders allSlots nodup_allSlots]
  simp [mem_allSlots]

/-- Placing a listing of a canonical book on empty ladders rebuilds the book. -/
theorem foldl_placeEntry_of_listedBy
    {ladders : Ladders}
    (canonical : ladders.Canonical)
    {entries : List SnapshotEntry}
    (listed : ladders.ListedBy entries) :
    entries.foldl placeEntry empty = ladders := by
  apply ext_cell
  intro slot
  have perm := List.Perm.filter (fun entry => decide (entry.slot = some slot)) listed
  rw [filter_listing] at perm
  rw [cell_foldl_placeEntry, cell_empty]
  by_cases valid : (ladders.cell slot).valid = true
  · rw [if_pos valid] at perm
    rw [List.perm_singleton.mp perm]
    simp only [List.getLast?_singleton, Option.map_some, Option.getD_some]
    generalize ladders.cell slot = level at valid
    cases level
    simp only at valid
    subst valid
    rfl
  · rw [if_neg valid] at perm
    rw [List.perm_nil.mp perm]
    have invalid : (ladders.cell slot).valid = false := by simpa using valid
    exact (canonical slot.1 _ (Vector.getElem_mem _) invalid).symm

end Ladders
end TaifexResolver
