import Mathlib.Data.Nat.Count

/-!
# Numbered substreams

A stream numbers its items consecutively.  A substream picks some of the
positions and numbers its own items consecutively as well, from an offset on.
An observer who knows the serial of a substream item and the position it was
sent at can compare the two numberings.
-/

namespace TaifexResolver

/-- A choice of positions of a stream, with the number of substream items that
precede the stream. -/
structure Substream where
  own : Nat → Bool
  offset : Nat

namespace Substream

variable (substream : Substream)

/-- The serial of the latest substream item at or before a position. -/
def serialAt (position : Nat) : Nat :=
  substream.offset + Nat.count (fun other => substream.own other) (position + 1)

variable {substream}

theorem serialAt_mono {first second : Nat} (le : first ≤ second) :
    substream.serialAt first ≤ substream.serialAt second :=
  Nat.add_le_add_left (Nat.count_monotone _ (Nat.succ_le_succ le)) _

/-- An own item has a larger serial than everything before it. -/
theorem serialAt_lt_of_own
    {first second : Nat}
    (own : substream.own second = true)
    (less : first < second) :
    substream.serialAt first < substream.serialAt second := by
  apply Nat.add_lt_add_left
  calc
    Nat.count (fun other => substream.own other) (first + 1)
      ≤ Nat.count (fun other => substream.own other) second :=
        Nat.count_monotone _ less
    _ < Nat.count (fun other => substream.own other) (second + 1) :=
        Nat.count_strict_mono own (Nat.lt_succ_self second)

/-- An own item never carries serial zero. -/
theorem serialAt_pos_of_own {position : Nat} (own : substream.own position = true) :
    1 ≤ substream.serialAt position := by
  have counted : Nat.count (fun other => substream.own other) position <
      Nat.count (fun other => substream.own other) (position + 1) :=
    Nat.count_strict_mono own (Nat.lt_succ_self position)
  unfold serialAt
  omega

/-- Own positions are ordered as their serials are. -/
theorem le_of_serialAt_le
    {first second : Nat}
    (own : substream.own first = true)
    (le : substream.serialAt first ≤ substream.serialAt second) :
    first ≤ second := by
  by_contra greater
  have less := serialAt_lt_of_own own (Nat.lt_of_not_le greater)
  omega

theorem eq_of_serialAt_eq
    {first second : Nat}
    (ownFirst : substream.own first = true)
    (ownSecond : substream.own second = true)
    (equal : substream.serialAt first = substream.serialAt second) :
    first = second :=
  Nat.le_antisymm (le_of_serialAt_le ownFirst equal.le)
    (le_of_serialAt_le ownSecond equal.ge)

/-- Between two positions, the serial grows by the own items in between. -/
theorem serialAt_add (position distance : Nat) :
    substream.serialAt (position + distance) =
      substream.serialAt position +
        Nat.count (fun step => substream.own (position + 1 + step)) distance := by
  unfold serialAt
  rw [show position + distance + 1 = position + 1 + distance by omega,
    Nat.count_add, Nat.add_assoc]

/-- The serial stands still as long as no own item is sent. -/
theorem serialAt_eq_of_none
    {first second : Nat}
    (le : first ≤ second)
    (none : ∀ position, first < position → position ≤ second →
      substream.own position = false) :
    substream.serialAt second = substream.serialAt first := by
  obtain ⟨distance, rfl⟩ := Nat.exists_eq_add_of_le le
  rw [serialAt_add, Nat.count_iff_forall_not.mpr, Nat.add_zero]
  intro step less
  simp [none (first + 1 + step) (by omega) (by omega)]

end Substream
end TaifexResolver
