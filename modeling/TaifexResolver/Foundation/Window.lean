import Mathlib.Data.List.InsertIdx
import Mathlib.Data.List.TakeDrop

/-!
# Windows on a list

A window of a fixed size shows the first items of a list and a filler after its
end: `List.takeD`.  Inserting, overwriting or erasing an item in sight does the
same to the window, where the last item falls off or the next one comes into
sight; what happens out of sight is not seen.
-/

namespace TaifexResolver

variable {α : Type} {size idx : Nat} {items : List α} {filler : α}

/-- A window depends on the items in sight only. -/
theorem takeD_congr
    {first second : List α}
    (same : first.take size = second.take size) :
    first.takeD size filler = second.takeD size filler := by
  induction size generalizing first second with
  | zero => rfl
  | succ size inductionHypothesis =>
      cases first with
      | nil =>
          cases second with
          | nil => rfl
          | cons head rest => simp at same
      | cons head rest =>
          cases second with
          | nil => simp at same
          | cons other rest =>
              obtain ⟨rfl, tail⟩ := List.cons_eq_cons.mp same
              exact congrArg (head :: ·) (inductionHypothesis tail)

/-- A window shows items and fillers. -/
theorem mem_takeD
    {item : α}
    (member : item ∈ items.takeD size filler) :
    item ∈ items ∨ item = filler := by
  induction size generalizing items with
  | zero => cases member
  | succ size inductionHypothesis =>
      cases items with
      | nil =>
          rcases List.mem_cons.mp member with shown | later
          · exact Or.inr shown
          · exact inductionHypothesis later
      | cons head rest =>
          rcases List.mem_cons.mp member with rfl | later
          · exact Or.inl List.mem_cons_self
          · exact (inductionHypothesis later).imp (List.mem_cons_of_mem head) id

/-- A larger window shows one more item. -/
theorem takeD_succ_eq_concat (size : Nat) (items : List α) (filler : α) :
    items.takeD (size + 1) filler =
      items.takeD size filler ++ [items.getD size filler] := by
  induction size generalizing items with
  | zero => cases items <;> rfl
  | succ size inductionHypothesis =>
      cases items with
      | nil => exact congrArg (filler :: ·) (inductionHypothesis [])
      | cons head rest => exact congrArg (head :: ·) (inductionHypothesis rest)

/-- A smaller window is the front of a larger one. -/
theorem take_takeD_succ (size : Nat) (items : List α) (filler : α) :
    (items.takeD (size + 1) filler).take size = items.takeD size filler := by
  rw [takeD_succ_eq_concat]
  exact List.take_left' (List.takeD_length size items filler)

/-- An item inserted in sight pushes the last one out of sight. -/
theorem takeD_insertIdx
    (item : α)
    (inRange : idx ≤ items.length)
    (inSight : idx < size) :
    (items.insertIdx idx item).takeD size filler =
      ((items.takeD size filler).insertIdx idx item).take size := by
  induction size generalizing items idx with
  | zero => omega
  | succ size inductionHypothesis =>
      cases idx with
      | zero => exact congrArg (item :: ·) (take_takeD_succ size items filler).symm
      | succ idx =>
          cases items with
          | nil => simp at inRange
          | cons head rest =>
              have tail := inductionHypothesis (Nat.le_of_succ_le_succ inRange)
                (Nat.lt_of_succ_lt_succ inSight)
              exact congrArg (head :: ·) tail

/-- An item overwritten in sight is overwritten in the window. -/
theorem takeD_set
    (item : α)
    (inRange : idx < items.length) :
    (items.set idx item).takeD size filler =
      (items.takeD size filler).set idx item := by
  induction size generalizing items idx with
  | zero => rfl
  | succ size inductionHypothesis =>
      cases items with
      | nil => simp at inRange
      | cons head rest =>
          cases idx with
          | zero => rfl
          | succ idx =>
              have tail := inductionHypothesis (Nat.lt_of_succ_lt_succ inRange)
              exact congrArg (head :: ·) tail

/-- Erasing an item in sight brings the next one, or the filler, into sight. -/
theorem takeD_eraseIdx (inSight : idx < size) :
    (items.eraseIdx idx).takeD size filler =
      (items.takeD size filler).eraseIdx idx ++ [items.getD size filler] := by
  induction size generalizing items idx with
  | zero => omega
  | succ size inductionHypothesis =>
      cases idx with
      | zero =>
          cases items with
          | nil => exact takeD_succ_eq_concat size [] filler
          | cons head rest => exact takeD_succ_eq_concat size rest filler
      | succ idx =>
          have inSightRest := Nat.lt_of_succ_lt_succ inSight
          cases items with
          | nil =>
              exact congrArg (filler :: ·) (@inductionHypothesis idx [] inSightRest)
          | cons head rest =>
              exact congrArg (head :: ·) (inductionHypothesis inSightRest)

/-- An item inserted at the edge takes the place of the last one. -/
theorem take_insertIdx_concat (items : List α) (last item : α) :
    ((items ++ [last]).insertIdx items.length item).take (items.length + 1) =
      items ++ [item] := by
  induction items with
  | nil => rfl
  | cons head rest inductionHypothesis =>
      exact congrArg (head :: ·) inductionHypothesis

/-- Nothing that happens out of sight is seen. -/
theorem takeD_edit_of_le (item : α) (outOfSight : size ≤ idx) :
    (items.insertIdx idx item).takeD size filler = items.takeD size filler ∧
      (items.set idx item).takeD size filler = items.takeD size filler ∧
      (items.eraseIdx idx).takeD size filler = items.takeD size filler :=
  ⟨takeD_congr (List.take_insertIdx_eq_take_of_le items item size idx outOfSight),
    takeD_congr (List.take_set_of_le outOfSight),
    takeD_congr (List.take_eraseIdx_eq_take_of_le items size idx outOfSight)⟩

end TaifexResolver
