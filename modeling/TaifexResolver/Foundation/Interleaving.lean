import TaifexResolver.Foundation.Execution

/-!
# Two threads on one machine

The steps of two threads reach a machine in some order that respects the order of
each thread.  An invariant that names what is left of the first thread holds in
every reachable state once each thread's steps keep it.
-/

namespace TaifexResolver

/-- A list that merges two lists, keeping the order of each. -/
inductive Interleaving {α : Type} : List α → List α → List α → Prop
  | nil : Interleaving [] [] []
  | left
      {item : α}
      {first second merged : List α} :
      Interleaving first second merged →
      Interleaving (item :: first) second (item :: merged)
  | right
      {item : α}
      {first second merged : List α} :
      Interleaving first second merged →
      Interleaving first (item :: second) (item :: merged)

namespace Interleaving

variable {σ ε δ : Type}

/-- Invariant rule for two threads.  The invariant names the steps the first
thread has left; the second thread only makes allowed steps. -/
theorem invariant_final
    {machine : Machine σ ε δ}
    {allowed : ε → Prop}
    (invariant : List ε → σ → Prop)
    (first_preserves : ∀ event rest state, invariant (event :: rest) state →
      invariant rest (machine state event).1)
    (second_preserves : ∀ event rest state, allowed event → invariant rest state →
      invariant rest (machine state event).1)
    {first second merged : List ε}
    (interleaving : Interleaving first second merged)
    (allAllowed : ∀ event ∈ second, allowed event)
    {start : σ}
    (initial : invariant first start) :
    invariant [] (machine.final start merged) ∧
      ∀ before after, merged = before ++ after →
        ∃ left, invariant left (machine.final start before) := by
  induction interleaving generalizing start with
  | nil =>
      refine ⟨initial, fun before after split => ⟨[], ?_⟩⟩
      obtain ⟨rfl, _⟩ := List.append_eq_nil_iff.mp split.symm
      exact initial
  | @left event first second merged _ inductionHypothesis =>
      obtain ⟨finished, reachable⟩ := inductionHypothesis allAllowed
        (first_preserves event first start initial)
      refine ⟨finished, fun before after split => ?_⟩
      cases before with
      | nil => exact ⟨_, initial⟩
      | cons head before =>
          obtain ⟨rfl, rest⟩ := List.cons_eq_cons.mp split
          exact reachable before after rest
  | @right event first second merged _ inductionHypothesis =>
      obtain ⟨finished, reachable⟩ := inductionHypothesis
        (fun later member => allAllowed later (List.mem_cons_of_mem _ member))
        (second_preserves event first start (allAllowed event (by simp)) initial)
      refine ⟨finished, fun before after split => ?_⟩
      cases before with
      | nil => exact ⟨_, initial⟩
      | cons head before =>
          obtain ⟨rfl, rest⟩ := List.cons_eq_cons.mp split
          exact reachable before after rest

theorem mem
    {α : Type}
    {first second merged : List α}
    (interleaving : Interleaving first second merged)
    {item : α}
    (member : item ∈ merged) :
    item ∈ first ∨ item ∈ second := by
  induction interleaving with
  | nil => exact Or.inl member
  | left _ inductionHypothesis =>
      rcases List.mem_cons.mp member with rfl | later
      · exact Or.inl List.mem_cons_self
      · exact (inductionHypothesis later).imp (List.mem_cons_of_mem _) id
  | right _ inductionHypothesis =>
      rcases List.mem_cons.mp member with rfl | later
      · exact Or.inr List.mem_cons_self
      · exact (inductionHypothesis later).imp id (List.mem_cons_of_mem _)

theorem append_left
    {α : Type}
    {first second merged : List α}
    (interleaving : Interleaving first second merged)
    (items : List α) :
    Interleaving (items ++ first) second (items ++ merged) := by
  induction items with
  | nil => exact interleaving
  | cons item rest inductionHypothesis => exact inductionHypothesis.left

theorem append_right
    {α : Type}
    {first second merged : List α}
    (interleaving : Interleaving first second merged)
    (items : List α) :
    Interleaving first (items ++ second) (items ++ merged) := by
  induction items with
  | nil => exact interleaving
  | cons item rest inductionHypothesis => exact inductionHypothesis.right

/-- Where a merge is cut, the two lists are cut as well. -/
theorem split
    {α : Type}
    {first second before after : List α}
    (interleaving : Interleaving first second (before ++ after)) :
    ∃ firstDone firstLeft secondDone secondLeft,
      first = firstDone ++ firstLeft ∧ second = secondDone ++ secondLeft ∧
        Interleaving firstDone secondDone before ∧
          Interleaving firstLeft secondLeft after := by
  induction before generalizing first second with
  | nil => exact ⟨[], first, [], second, rfl, rfl, .nil, interleaving⟩
  | cons item before inductionHypothesis =>
      cases interleaving with
      | left rest =>
          obtain ⟨firstDone, firstLeft, secondDone, secondLeft, rfl, rfl, done, left⟩ :=
            inductionHypothesis rest
          exact ⟨item :: firstDone, firstLeft, secondDone, secondLeft, rfl, rfl,
            done.left, left⟩
      | right rest =>
          obtain ⟨firstDone, firstLeft, secondDone, secondLeft, rfl, rfl, done, left⟩ :=
            inductionHypothesis rest
          exact ⟨firstDone, firstLeft, item :: secondDone, secondLeft, rfl, rfl,
            done.right, left⟩

/-- What items hold merges what those with a first tag and those with a second tag
hold, when items with other tags hold nothing. -/
theorem flatMap_of_tags
    {α β θ : Type}
    [DecidableEq θ]
    {tag : β → θ}
    {first second : θ}
    (different : first ≠ second)
    (value : β → List α)
    {items : List β}
    (silent : ∀ item ∈ items, tag item ≠ first → tag item ≠ second → value item = []) :
    Interleaving
      ((items.filter fun item => tag item = first).flatMap value)
      ((items.filter fun item => tag item = second).flatMap value)
      (items.flatMap value) := by
  induction items with
  | nil => exact .nil
  | cons item rest inductionHypothesis =>
      obtain ⟨silentHead, silentRest⟩ := List.forall_mem_cons.mp silent
      have merged := inductionHypothesis silentRest
      by_cases isFirst : tag item = first
      · simpa [isFirst, different] using merged.append_left (value item)
      by_cases isSecond : tag item = second
      · simpa [isSecond, Ne.symm different] using merged.append_right (value item)
      · simpa [isFirst, isSecond, silentHead isFirst isSecond] using merged

end Interleaving
end TaifexResolver
