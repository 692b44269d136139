import Mathlib.Data.List.InsertIdx
import TaifexResolver.OrderBook.Builders
import TaifexResolver.OrderBook.Tracking

/-!
# Increments as list edits

The shifting loops of `apply_entry` insert into and erase from the list of a
side's levels.  An increment batch is therefore, side by side, a fold of list
edits over the entries that announce one for the side.
-/

namespace TaifexResolver

/-- An edit of the levels of one side. -/
inductive LadderEdit
  | insert (idx : Fin taifexBookDepth) (level : OrderBookLevel)
  | replace (idx : Fin taifexBookDepth) (level : OrderBookLevel)
  | erase (idx : Fin taifexBookDepth)
  | clear (idx : Fin taifexBookDepth)
  deriving DecidableEq

/-- The levels after an edit: an insertion lets the last level fall off, an
erasure appends an empty one. -/
def LadderEdit.apply
    (levels : List OrderBookLevel) : LadderEdit → List OrderBookLevel
  | .insert idx level => (levels.insertIdx idx level).take taifexBookDepth
  | .replace idx level => levels.set idx level
  | .erase idx => levels.eraseIdx idx ++ [{}]
  | .clear idx => levels.set idx {}

namespace MDEntry

/-- The edit an entry announces at an index by its update action, if it has one. -/
def editAt (entry : MDEntry) (idx : Fin taifexBookDepth) : Option LadderEdit :=
  if entry.updateAction = '0'.toUInt8 then some (.insert idx entry.level)
  else if entry.updateAction = '1'.toUInt8 then some (.replace idx entry.level)
  else if entry.updateAction = '2'.toUInt8 then some (.erase idx)
  else if entry.updateAction = '5'.toUInt8 then
    if entry.price = 0 ∧ entry.quantity = 0 then some (.clear idx)
    else some (.replace idx entry.level)
  else none

/-- The edit an entry announces for a side: its type is the side's, its level one of
the first five and its action known. -/
def editOn (side : Side) (entry : MDEntry) : Option LadderEdit :=
  if addressed : entry.entryType = side.entryType ∧
      1 ≤ entry.priceLevel.toNat ∧ entry.priceLevel.toNat ≤ taifexBookDepth then
    entry.editAt ⟨entry.priceLevel.toNat - 1, by omega⟩
  else none

/-- An entry announces its edit for the side of its slot. -/
theorem editOn_of_slot
    {entry : MDEntry}
    {slot : Slot}
    (addressed : entry.slot = some slot)
    (side : Side) :
    entry.editOn side = if slot.1 = side then entry.editAt slot.2 else none := by
  obtain ⟨typed, level⟩ := slotOf_eq_some_iff.mp addressed
  have bound := slot.2.isLt
  by_cases same : slot.1 = side
  · rw [if_pos same, editOn, dif_pos ⟨by rw [typed, same], by omega, by omega⟩]
    congr 1
    exact Fin.ext (by simp only; omega)
  · rw [if_neg same, editOn, dif_neg]
    rintro ⟨other, _⟩
    exact same (Side.entryType_injective (typed.symm.trans other))

/-- An entry without a slot announces nothing. -/
theorem editOn_of_slot_none
    {entry : MDEntry}
    (skipped : entry.slot = none)
    (side : Side) :
    entry.editOn side = none := by
  rw [editOn, dif_neg]
  rintro ⟨typed, lower, upper⟩
  have addressed : entry.slot = some (side, ⟨entry.priceLevel.toNat - 1, by omega⟩) :=
    slotOf_eq_some_iff.mpr ⟨typed, by simp only; omega⟩
  rw [skipped] at addressed
  cases addressed

end MDEntry

/-! ## The loops -/

namespace Ladder

/-- After shifting down, every level behind the index is the one before it. -/
theorem getElem_shiftDown
    (idx i : Nat)
    (inRange : i < taifexBookDepth)
    (ladder : Ladder)
    (position : Nat)
    (inside : position < taifexBookDepth) :
    (shiftDown idx i inRange ladder)[position] =
      if idx < position ∧ position ≤ i then ladder[position - 1]
      else ladder[position] := by
  induction i generalizing ladder with
  | zero =>
      have unmoved : ¬(idx < position ∧ position ≤ 0) := by omega
      rw [if_neg unmoved]
      rfl
  | succ i inductionHypothesis =>
      unfold shiftDown
      split
      · rw [inductionHypothesis]
        by_cases moved : idx < position ∧ position ≤ i
        · have movedNext : idx < position ∧ position ≤ i + 1 := by omega
          rw [if_pos moved, if_pos movedNext, Vector.getElem_set_ne _ _ (by omega)]
        · rw [if_neg moved]
          by_cases last : position = i + 1
          · subst last
            have movedNext : idx < i + 1 ∧ i + 1 ≤ i + 1 := by omega
            rw [if_pos movedNext, Vector.getElem_set_self]
            rfl
          · have unmoved : ¬(idx < position ∧ position ≤ i + 1) := by omega
            rw [if_neg unmoved, Vector.getElem_set_ne _ _ (Ne.symm last)]
      · have unmoved : ¬(idx < position ∧ position ≤ i + 1) := by omega
        rw [if_neg unmoved]

/-- After shifting up, every level from the index on, but the last, is the one
after it. -/
theorem getElem_shiftUp
    (left i : Nat)
    (total : i + left = taifexBookDepth - 1)
    (ladder : Ladder)
    (position : Nat)
    (inside : position < taifexBookDepth) :
    (shiftUp left i total ladder)[position] =
      if later : i ≤ position ∧ position + 1 < taifexBookDepth then
        ladder[position + 1]
      else ladder[position] := by
  induction left generalizing ladder i with
  | zero =>
      have unmoved : ¬(i ≤ position ∧ position + 1 < taifexBookDepth) := by omega
      rw [dif_neg unmoved]
      rfl
  | succ left inductionHypothesis =>
      unfold shiftUp
      rw [inductionHypothesis]
      by_cases moved : i + 1 ≤ position ∧ position + 1 < taifexBookDepth
      · have movedToo : i ≤ position ∧ position + 1 < taifexBookDepth := by omega
        rw [dif_pos moved, dif_pos movedToo, Vector.getElem_set_ne _ _ (by omega)]
      · rw [dif_neg moved]
        by_cases first : position = i
        · subst first
          have movedNow : position ≤ position ∧
              position + 1 < taifexBookDepth := by
            simp only [taifexBookDepth] at total ⊢
            omega
          rw [dif_pos movedNow, Vector.getElem_set_self]
        · have unmoved : ¬(i ≤ position ∧ position + 1 < taifexBookDepth) := by omega
          rw [dif_neg unmoved, Vector.getElem_set_ne _ _ (Ne.symm first)]

/-- New is insertion, and the last level falls off. -/
theorem toList_shiftDown_set
    (inRange : taifexBookDepth - 1 < taifexBookDepth)
    (ladder : Ladder)
    (idx : Fin taifexBookDepth)
    (level : OrderBookLevel) :
    ((shiftDown idx (taifexBookDepth - 1) inRange ladder).set idx level idx.isLt).toList =
      (ladder.toList.insertIdx idx level).take taifexBookDepth := by
  refine List.ext_getElem ?_ fun position inside _ => ?_
  · simp [List.length_insertIdx, idx.isLt.le]
  · rw [Vector.length_toList] at inside
    rw [List.getElem_take, List.getElem_insertIdx, Vector.getElem_toList,
      Vector.getElem_set]
    rcases Nat.lt_trichotomy position idx with before | same | after
    · have unmoved : ¬(idx.val < position ∧ position ≤ taifexBookDepth - 1) := by omega
      rw [if_neg (by omega), dif_pos before, getElem_shiftDown, if_neg unmoved,
        Vector.getElem_toList]
    · rw [if_pos same.symm, dif_neg (by omega), dif_pos same]
    · have moved : idx.val < position ∧ position ≤ taifexBookDepth - 1 := by omega
      rw [if_neg (by omega), dif_neg (by omega), dif_neg (by omega), getElem_shiftDown,
        if_pos moved, Vector.getElem_toList]

/-- Delete is erasure, and an empty level comes last. -/
theorem toList_shiftUp_set
    (inRange : taifexBookDepth - 1 < taifexBookDepth)
    (ladder : Ladder)
    (idx : Fin taifexBookDepth)
    (total : idx + (taifexBookDepth - 1 - idx) = taifexBookDepth - 1) :
    ((shiftUp (taifexBookDepth - 1 - idx) idx total ladder).set
        (taifexBookDepth - 1) {} inRange).toList =
      ladder.toList.eraseIdx idx ++ [({} : OrderBookLevel)] := by
  have shortened : (ladder.toList.eraseIdx idx).length = taifexBookDepth - 1 := by
    simp [List.length_eraseIdx]
  apply List.ext_getElem (by simp [shortened])
  intro position inside _
  rw [Vector.length_toList] at inside
  rw [Vector.getElem_toList, Vector.getElem_set]
  by_cases last : position = taifexBookDepth - 1
  · rw [if_pos last.symm, List.getElem_append_right (by omega)]
    simp
  · rw [if_neg (Ne.symm last), List.getElem_append_left (by omega), getElem_shiftUp,
      List.getElem_eraseIdx]
    by_cases before : position < idx
    · rw [dif_pos before, dif_neg (by omega), Vector.getElem_toList]
    · have moved : idx.val ≤ position ∧ position + 1 < taifexBookDepth := by omega
      rw [dif_neg before, dif_pos moved, Vector.getElem_toList]

/-- The update action of an entry is the edit it announces. -/
theorem toList_update
    (ladder : Ladder)
    (idx : Fin taifexBookDepth)
    (entry : MDEntry) :
    (ladder.update idx entry).toList =
      (entry.editAt idx).elim ladder.toList (LadderEdit.apply ladder.toList) := by
  unfold update MDEntry.editAt
  split_ifs with new change delete overlay cleared
  · exact toList_shiftDown_set _ ladder idx entry.level
  · exact Vector.toList_set idx.isLt
  · exact toList_shiftUp_set _ ladder idx _
  · exact Vector.toList_set idx.isLt
  · exact Vector.toList_set idx.isLt
  · rfl

end Ladder

/-! ## Batches -/

namespace Ladders

/-- An entry edits the side it addresses and no other. -/
theorem toList_applyEntry (ladders : Ladders) (entry : MDEntry) (side : Side) :
    (ladders.applyEntry entry side).toList =
      (entry.editOn side).elim (ladders side).toList
        (LadderEdit.apply (ladders side).toList) := by
  unfold applyEntry
  cases addressed : entry.slot with
  | none => rw [MDEntry.editOn_of_slot_none addressed, Option.elim_none]
  | some slot =>
      obtain ⟨target, idx⟩ := slot
      rw [MDEntry.editOn_of_slot addressed]
      by_cases same : target = side
      · subst same
        simpa using (ladders target).toList_update idx entry
      · simp [same, Function.update_of_ne (Ne.symm same)]

/-- Run lemma: a batch folds its edits over each side. -/
theorem toList_foldl_applyEntry
    (ladders : Ladders)
    (entries : List MDEntry)
    (side : Side) :
    ((entries.foldl applyEntry ladders) side).toList =
      (entries.filterMap (MDEntry.editOn side)).foldl LadderEdit.apply
        (ladders side).toList := by
  induction entries generalizing ladders with
  | nil => rfl
  | cons entry rest inductionHypothesis =>
      rw [List.foldl_cons, inductionHypothesis, toList_applyEntry]
      cases announced : entry.editOn side with
      | none =>
          rw [List.filterMap_cons_none announced]
          rfl
      | some edit =>
          rw [List.filterMap_cons_some announced]
          rfl

end Ladders

namespace OrderBook

/-- Two books with the same levels on each side differ at most outside them. -/
theorem withLadders_congr
    {book : OrderBook}
    {first second : Ladders}
    (same : ∀ side, (first side).toList = (second side).toList) :
    book.withLadders first = book.withLadders second := by
  have equal : first = second := funext fun side => Vector.toList_inj.mp (same side)
  rw [equal]

/-- An entry without an edit for any side is skipped. -/
theorem applyEntry_of_no_edit
    (book : OrderBook)
    {entry : MDEntry}
    (skipped : ∀ side, entry.editOn side = none) :
    book.applyEntry entry = book := by
  rw [applyEntry_eq_withLadders]
  refine (withLadders_congr fun side => ?_).trans (withLadders_ladder book)
  rw [Ladders.toList_applyEntry, skipped side]
  rfl

end OrderBook

/-- The ladders of every reachable product have no ghost levels. -/
theorem OrderBookManager.canonical_final
    {manager : OrderBookManager}
    (blank : manager.Blank)
    (steps : List Step)
    {key : ProdKey}
    {st : ProductState}
    (reached : (OrderBookManager.step.final manager steps).productAt key = some st) :
    Ladders.Canonical st.book.ladder := by
  refine product_invariant (fun _ => True)
    (fun st : ProductState => Ladders.Canonical st.book.ladder)
    (fun prodId => ?_) (fun _ prodId message st _ _ _ canonical => ?_)
    (fun _ canonical => canonical) blank (fun _ _ => trivial) reached
  · intro side
    cases side <;> exact Ladder.canonical_empty
  · by_cases accepted : message.Accepted st
    · rw [(ProductMessage.body_accepted prodId accepted).2.2.2.1]
      cases message with
      | track seq => exact canonical
      | increment seq entries infoTime => exact canonical.foldl_applyEntry entries
      | snapshot seq entries infoTime =>
          exact Ladders.canonical_empty.foldl_placeEntry entries
    · rw [ProductMessage.body_refused prodId accepted]
      exact canonical

/-- An increment batch acts on each side as a fold of list edits.  On any book,
holes included, a batch folds over each side the edits that its entries announce
for that side, in order; an entry that announces none is skipped, and batches
with the same edits on each side give the same book.  In a reachable manager an
accepted I081 applies its batch to the live book, and no reachable book holds a
level that is neither valid nor the default. -/
theorem increment_batch_folds_edits
    (manager : OrderBookManager)
    (blank : manager.Blank)
    (steps : List Step) :
    (∀ (book : OrderBook) (entries : List MDEntry) (side : Side),
      ((entries.foldl OrderBook.applyEntry book).ladder side).toList =
        (entries.filterMap (MDEntry.editOn side)).foldl LadderEdit.apply
          (book.ladder side).toList) ∧
    (∀ (book : OrderBook) (entry : MDEntry),
      (∀ side, entry.editOn side = none) → book.applyEntry entry = book) ∧
    (∀ (book : OrderBook) (first second : List MDEntry),
      (∀ side, (first.filter fun entry => (entry.editOn side).isSome) =
        second.filter fun entry => (entry.editOn side).isSome) →
      first.foldl OrderBook.applyEntry book =
        second.foldl OrderBook.applyEntry book) ∧
    (∀ (pkt : I081Packet) (before : ProductState),
      (OrderBookManager.step.final manager steps).getOrCreateLocked pkt.prodId =
        before →
      (before.trackSeqLocked pkt.prodMsgSeq).2 = true →
      ∃ after,
        ((OrderBookManager.step.final manager steps).step (.i081 pkt)).1.productAt
          pkt.prodId.key = some after ∧
        after.book.ladder =
          (pkt.entries.foldl OrderBook.applyEntry before.book).ladder) ∧
    (∀ key st,
      (OrderBookManager.step.final manager steps).productAt key = some st →
      ∀ side, ∀ level ∈ st.book.ladder side, level.valid = false → level = {}) := by
  refine ⟨fun book entries side => ?_, fun book entry skipped => ?_,
    fun book first second same => ?_, fun pkt before found new => ?_,
    fun key st reached => ?_⟩
  · rw [OrderBook.ladder_foldl_applyEntry]
    exact Ladders.toList_foldl_applyEntry book.ladder entries side
  · exact book.applyEntry_of_no_edit skipped
  · rw [OrderBook.foldl_applyEntry_eq_withLadders,
      OrderBook.foldl_applyEntry_eq_withLadders]
    apply OrderBook.withLadders_congr
    intro side
    have edits : ∀ entries : List MDEntry,
        (entries.filter fun entry => (entry.editOn side).isSome).filterMap
          (MDEntry.editOn side) = entries.filterMap (MDEntry.editOn side) := by
      intro entries
      rw [List.filterMap_filter]
      apply List.filterMap_congr
      intro entry _
      cases entry.editOn side <;> rfl
    rw [Ladders.toList_foldl_applyEntry, Ladders.toList_foldl_applyEntry,
      ← edits first, ← edits second, same side]
  · refine ⟨_, OrderBookManager.productAt_step_own _ rfl, ?_⟩
    have accepted : (ProductMessage.increment pkt.prodMsgSeq pkt.entries
        pkt.header.infoTime).Accepted before :=
      (ProductMessage.accepted_iff_new rfl before).mpr new
    rw [found, (ProductMessage.body_accepted pkt.prodId accepted).2.2.2.1,
      OrderBook.ladder_foldl_applyEntry]
    rfl
  · exact OrderBookManager.canonical_final blank steps reached

/-- Entries of different sides commute, and an entry of unknown action is
skipped. -/
theorem increment_batch_folds_edits_reordered :
    let bid := Builders.makeEntry '0' '0' 10315 4 1
    let better := Builders.makeEntry '0' '0' 10316 2 1
    let ask := Builders.makeEntry '0' '1' 10320 7 1
    let unknown := Builders.makeEntry '9' '0' 10317 1 1
    [bid, unknown, ask, better].foldl OrderBook.applyEntry {} =
      [ask, bid, better].foldl OrderBook.applyEntry {} := by
  intro bid better ask unknown
  apply (increment_batch_folds_edits {} OrderBookManager.blank_new []).2.2.1 {} _ _
  intro side
  cases side <;> decide

end TaifexResolver
