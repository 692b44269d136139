import Mathlib.Logic.Function.Basic

/-!
# Checksums that detect a single change

A fold detects the change of any single item when the operation it iterates is
injective in the item and in the accumulator.
-/

namespace TaifexResolver

variable {α β : Type} {combine : β → α → β}

/-- Folding the same items keeps different accumulators different. -/
theorem foldl_injective
    (inAccumulator : ∀ item, Function.Injective fun total => combine total item)
    (items : List α) :
    Function.Injective fun total => items.foldl combine total := by
  induction items with
  | nil => exact Function.injective_id
  | cons item rest inductionHypothesis =>
      intro first second same
      exact inAccumulator item (inductionHypothesis same)

/-- Lists that differ in one item have different checksums. -/
theorem foldl_ne_of_single_change
    (inAccumulator : ∀ item, Function.Injective fun total => combine total item)
    (inItem : ∀ total, Function.Injective (combine total))
    (before after : List α)
    {item changed : α}
    (differ : item ≠ changed)
    (start : β) :
    (before ++ item :: after).foldl combine start ≠
      (before ++ changed :: after).foldl combine start := by
  rw [List.foldl_append, List.foldl_append, List.foldl_cons, List.foldl_cons]
  intro same
  exact differ (inItem _ (foldl_injective inAccumulator after same))

end TaifexResolver
