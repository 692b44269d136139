import TaifexResolver.Foundation.Window
import TaifexResolver.OrderBook.LadderEdits

/-!
# Five levels of an unbounded side

The exchange keeps every price level of a side and discloses the best five.  It
announces what happens to the disclosed ones through increment entries, as in the
manual's worked examples.  A ladder that shows the first five levels of a side
keeps showing them.
-/

namespace TaifexResolver

/-- A price level of the exchange. -/
structure PriceLevel where
  sign : UInt8
  price : UInt64
  quantity : UInt32
  deriving DecidableEq

/-- The level a ladder shows for a price level. -/
def PriceLevel.level (item : PriceLevel) : OrderBookLevel where
  valid := true
  priceSign := item.sign
  price := item.price
  quantity := item.quantity

/-- Every price level of one side, best first. -/
abbrev BookSide := List PriceLevel

/-- What happens to a side: a level appears, changes or disappears.  The entry
that announces a deletion may carry any content. -/
inductive SideOperation
  | insert (idx : Nat) (item : PriceLevel)
  | rewrite (idx : Nat) (item : PriceLevel)
  | delete (idx : Nat) (carried : PriceLevel)
  deriving DecidableEq

namespace SideOperation

/-- The side after an operation. -/
def applyTo (levels : BookSide) : SideOperation → BookSide
  | .insert idx item => levels.insertIdx idx item
  | .rewrite idx item => levels.set idx item
  | .delete idx _ => levels.eraseIdx idx

/-- An operation at a position that the side has. -/
def Legal (levels : BookSide) : SideOperation → Prop
  | .insert idx _ => idx ≤ levels.length
  | .rewrite idx _ => idx < levels.length
  | .delete idx _ => idx < levels.length

instance (levels : BookSide) (operation : SideOperation) :
    Decidable (operation.Legal levels) := by
  cases operation <;> unfold Legal <;> infer_instance

/-- The increment entry for a price level at a position. -/
def entry
    (side : Side)
    (action : UInt8)
    (idx : Nat)
    (item : PriceLevel) : MDEntry where
  updateAction := action
  entryType := side.entryType
  priceSign := item.sign
  price := item.price
  quantity := item.quantity
  priceLevel := UInt8.ofNat (idx + 1)

/-- The entries that announce an operation: New, Change or Delete at a position
among the first five, and after Delete a New at level five for the sixth level,
when there is one. -/
def announce (side : Side) (levels : BookSide) : SideOperation → List MDEntry
  | .insert idx item =>
      if idx < taifexBookDepth then [entry side '0'.toUInt8 idx item] else []
  | .rewrite idx item =>
      if idx < taifexBookDepth then [entry side '1'.toUInt8 idx item] else []
  | .delete idx carried =>
      if idx < taifexBookDepth then
        entry side '2'.toUInt8 idx carried ::
          (levels[taifexBookDepth]?.map
            (entry side '0'.toUInt8 (taifexBookDepth - 1))).toList
      else []

end SideOperation

namespace BookSide

/-- The side after some operations. -/
def after (levels : BookSide) (operations : List SideOperation) : BookSide :=
  operations.foldl SideOperation.applyTo levels

/-- Operations that are legal one after the other. -/
def LegalRun (levels : BookSide) : List SideOperation → Prop
  | [] => True
  | operation :: rest =>
      operation.Legal levels ∧ LegalRun (operation.applyTo levels) rest

instance decidableLegalRun (levels : BookSide) :
    (operations : List SideOperation) → Decidable (levels.LegalRun operations)
  | [] => inferInstanceAs (Decidable True)
  | operation :: rest =>
      have := decidableLegalRun (operation.applyTo levels) rest
      inferInstanceAs (Decidable (_ ∧ _))

/-- The entries that announce some operations, in order. -/
def announcements
    (side : Side)
    (levels : BookSide) : List SideOperation → List MDEntry
  | [] => []
  | operation :: rest =>
      operation.announce side levels ++
        announcements side (operation.applyTo levels) rest

/-- The five levels that are disclosed, empty ones after the end of the side. -/
def disclosed (levels : BookSide) : List OrderBookLevel :=
  (levels.map PriceLevel.level).takeD taifexBookDepth {}

end BookSide

/-! ## One operation -/

namespace SideOperation

/-- The entry for a position among the first five announces its edit to its side. -/
theorem editOn_entry_self
    (side : Side)
    (action : UInt8)
    (idx : Fin taifexBookDepth)
    (item : PriceLevel) :
    (entry side action idx item).editOn side = (entry side action idx item).editAt idx := by
  have addressed : (entry side action idx item).slot = some (side, idx) :=
    slotOf_eq_some_iff.mpr ⟨rfl, toNat_ofNat_level idx⟩
  rw [MDEntry.editOn_of_slot addressed, if_pos rfl]

/-- An entry announces nothing to the other sides. -/
theorem editOn_entry_other
    {side other : Side}
    (different : side ≠ other)
    (action : UInt8)
    (idx : Nat)
    (item : PriceLevel) :
    (entry side action idx item).editOn other = none := by
  rw [MDEntry.editOn, dif_neg]
  rintro ⟨named, _⟩
  exact different (Side.entryType_injective named)

end SideOperation

namespace BookSide

variable {levels : BookSide} {idx : Nat}

theorem disclosed_insertIdx
    (item : PriceLevel)
    (inRange : idx ≤ levels.length)
    (shown : idx < taifexBookDepth) :
    disclosed (levels.insertIdx idx item) =
      (levels.disclosed.insertIdx idx item.level).take taifexBookDepth := by
  rw [disclosed, List.map_insertIdx]
  exact takeD_insertIdx _ (by simpa using inRange) shown

theorem disclosed_set
    (item : PriceLevel)
    (inRange : idx < levels.length) :
    disclosed (levels.set idx item) = levels.disclosed.set idx item.level := by
  rw [disclosed, List.map_set]
  exact takeD_set _ (by simpa using inRange)

/-- A disclosed level that disappears makes room for the sixth one. -/
theorem disclosed_eraseIdx (shown : idx < taifexBookDepth) :
    disclosed (levels.eraseIdx idx) =
      levels.disclosed.eraseIdx idx ++
        [(levels[taifexBookDepth]?.map PriceLevel.level).getD {}] := by
  rw [disclosed, ← List.eraseIdx_map, takeD_eraseIdx shown, List.getD_eq_getElem?_getD,
    List.getElem?_map]
  rfl

/-- Nothing that happens behind the fifth level is disclosed. -/
theorem disclosed_edit_of_le (item : PriceLevel) (hidden : taifexBookDepth ≤ idx) :
    disclosed (levels.insertIdx idx item) = levels.disclosed ∧
      disclosed (levels.set idx item) = levels.disclosed ∧
      disclosed (levels.eraseIdx idx) = levels.disclosed := by
  unfold disclosed
  rw [List.map_insertIdx, List.map_set, ← List.eraseIdx_map]
  exact takeD_edit_of_le item.level hidden

/-- Step lemma: the entries that announce an operation edit the disclosed levels
as the operation edits the side. -/
theorem disclosed_applyTo
    (side : Side)
    {operation : SideOperation}
    (legal : operation.Legal levels) :
    ((operation.announce side levels).filterMap (MDEntry.editOn side)).foldl
        LadderEdit.apply levels.disclosed =
      (operation.applyTo levels).disclosed := by
  cases operation with
  | insert idx item =>
      simp only [SideOperation.announce]
      split
      · next shown =>
          have edited := SideOperation.editOn_entry_self side '0'.toUInt8 ⟨idx, shown⟩ item
          rw [List.filterMap_cons_some edited]
          exact (disclosed_insertIdx item legal shown).symm
      · next hidden =>
          exact (disclosed_edit_of_le item (Nat.le_of_not_lt hidden)).1.symm
  | rewrite idx item =>
      simp only [SideOperation.announce]
      split
      · next shown =>
          have edited := SideOperation.editOn_entry_self side '1'.toUInt8 ⟨idx, shown⟩ item
          rw [List.filterMap_cons_some edited]
          exact (disclosed_set item legal).symm
      · next hidden =>
          exact (disclosed_edit_of_le item (Nat.le_of_not_lt hidden)).2.1.symm
  | delete idx carried =>
      simp only [SideOperation.announce]
      split
      · next shown =>
          have erased := SideOperation.editOn_entry_self side '2'.toUInt8 ⟨idx, shown⟩ carried
          have refilled : disclosed (levels.eraseIdx idx) = _ := disclosed_eraseIdx shown
          rw [List.filterMap_cons_some erased, SideOperation.applyTo, refilled]
          cases sixth : levels[taifexBookDepth]? with
          | none => rfl
          | some item =>
              have inserted := SideOperation.editOn_entry_self side '0'.toUInt8
                ⟨taifexBookDepth - 1, by decide⟩ item
              have four : (levels.disclosed.eraseIdx idx).length = taifexBookDepth - 1 := by
                rw [List.length_eraseIdx_of_lt] <;> simp [disclosed, shown]
              have replaced := take_insertIdx_concat (levels.disclosed.eraseIdx idx)
                {} item.level
              rw [four] at replaced
              rw [Option.map_some, Option.toList_some, List.filterMap_cons_some inserted]
              exact replaced
      · next hidden =>
          exact (disclosed_edit_of_le carried (Nat.le_of_not_lt hidden)).2.2.symm

/-- Run lemma: the announcements of legal operations keep the disclosed levels up
to date. -/
theorem disclosed_after
    (side : Side)
    {operations : List SideOperation}
    (legal : levels.LegalRun operations) :
    ((levels.announcements side operations).filterMap (MDEntry.editOn side)).foldl
        LadderEdit.apply levels.disclosed =
      (levels.after operations).disclosed := by
  induction operations generalizing levels with
  | nil => rfl
  | cons operation rest inductionHypothesis =>
      obtain ⟨now, later⟩ := legal
      rw [announcements, List.filterMap_append, List.foldl_append,
        disclosed_applyTo side now]
      exact inductionHypothesis later

end BookSide

/-- The entries that announce an operation address no other side. -/
theorem SideOperation.editOn_announce
    {side other : Side}
    (different : side ≠ other)
    (levels : BookSide)
    (operation : SideOperation) :
    ∀ announced ∈ operation.announce side levels, announced.editOn other = none := by
  intro announced member
  cases operation with
  | insert idx item | rewrite idx item =>
      simp only [announce] at member
      split at member
      · rw [List.mem_singleton.mp member]
        exact editOn_entry_other different _ _ _
      · cases member
  | delete idx carried =>
      simp only [announce] at member
      split at member
      · rcases List.mem_cons.mp member with rfl | refill
        · exact editOn_entry_other different _ _ _
        · obtain ⟨item, _, rfl⟩ := Option.map_eq_some_iff.mp (Option.mem_toList.mp refill)
          exact editOn_entry_other different _ _ _
      · cases member

theorem BookSide.editOn_announcements
    {side other : Side}
    (different : side ≠ other)
    (levels : BookSide)
    (operations : List SideOperation) :
    (levels.announcements side operations).filterMap (MDEntry.editOn other) = [] := by
  induction operations generalizing levels with
  | nil => rfl
  | cons operation rest inductionHypothesis =>
      rw [announcements, List.filterMap_append, inductionHypothesis, List.append_nil]
      exact List.filterMap_eq_nil_iff.mpr
        (SideOperation.editOn_announce different levels operation)

/-- The five-level ladder simulates an unbounded side.  If a ladder holds the first
five levels of a side and empty ones after its end, then after the announcements of
any legal operations it holds the first five levels of the side they leave, and the
other ladders are unchanged. -/
theorem five_level_ladder_simulates_side
    (side : Side)
    (levels : BookSide)
    (operations : List SideOperation)
    (legal : levels.LegalRun operations)
    (book : OrderBook)
    (shows : (book.ladder side).toList = levels.disclosed) :
    let updated :=
      (levels.announcements side operations).foldl OrderBook.applyEntry book
    (updated.ladder side).toList = (levels.after operations).disclosed ∧
      ∀ other, other ≠ side → updated.ladder other = book.ladder other := by
  intro updated
  have sides : ∀ any, (updated.ladder any).toList =
      ((levels.announcements side operations).filterMap (MDEntry.editOn any)).foldl
        LadderEdit.apply (book.ladder any).toList := by
    intro any
    rw [show updated.ladder = _ from OrderBook.ladder_foldl_applyEntry book _]
    exact Ladders.toList_foldl_applyEntry book.ladder _ any
  refine ⟨?_, fun other different => ?_⟩
  · rw [sides side, shows]
    exact BookSide.disclosed_after side legal
  · have untouched := sides other
    rw [BookSide.editOn_announcements (Ne.symm different)] at untouched
    exact Vector.toList_inj.mp untouched

/-- A side of five levels that grows to six at the top and then loses its third
level, so that the fifth one falls off and comes back. -/
theorem five_level_ladder_simulates_side_refilled :
    let item (price : UInt64) : PriceLevel := { sign := '0'.toUInt8, price, quantity := 1 }
    let levels : BookSide := [item 50, item 40, item 30, item 20, item 10]
    let operations : List SideOperation := [.insert 0 (item 60), .delete 2 (item 40)]
    let book : OrderBook :=
      { bids := #v[(item 50).level, (item 40).level, (item 30).level, (item 20).level,
          (item 10).level] }
    let updated := (levels.announcements .bids operations).foldl OrderBook.applyEntry book
    updated.bids.toList = (levels.after operations).disclosed ∧
      (levels.after operations).disclosed =
        [item 60, item 50, item 30, item 20, item 10].map PriceLevel.level := by
  intro item levels operations book updated
  have simulated := five_level_ladder_simulates_side .bids levels operations (by decide)
    book (by decide)
  exact ⟨simulated.1, by decide⟩

end TaifexResolver
