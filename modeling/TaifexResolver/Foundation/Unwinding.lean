import TaifexResolver.Foundation.Execution

/-!
# Two runs that look alike

An observer sees part of the state, through a relation between states that look
alike to it, and part of the output.  If the events it sees keep two states alike
with the same observable output, and the other events change nothing it sees,
then two runs with the same visible events are indistinguishable.
-/

namespace TaifexResolver
namespace Machine

variable {σ ε δ ω : Type}

/-- The unwinding conditions for an observer. -/
structure Unwinding
    (machine : Machine σ ε δ)
    (visible : ε → Bool)
    (alike : σ → σ → Prop)
    (observe : List δ → List ω) : Prop where
  nothing : observe [] = []
  append : ∀ first second, observe (first ++ second) = observe first ++ observe second
  consistent : ∀ one other event, visible event = true → alike one other →
    alike (machine one event).1 (machine other event).1 ∧
      observe (machine one event).2 = observe (machine other event).2
  respect : ∀ one other event, visible event = false → alike one other →
    alike (machine one event).1 other ∧ observe (machine one event).2 = []

namespace Unwinding

variable {machine : Machine σ ε δ} {visible : ε → Bool} {alike : σ → σ → Prop}
  {observe : List δ → List ω}

/-- Purging the invisible events of a run is not seen. -/
theorem purge
    (unwinding : Unwinding machine visible alike observe)
    {one other : σ}
    (start : alike one other)
    (events : List ε) :
    alike (machine.final one events) (machine.final other (events.filter visible)) ∧
      observe (machine.output one events) =
        observe (machine.output other (events.filter visible)) := by
  induction events generalizing one other with
  | nil => exact ⟨start, rfl⟩
  | cons event rest inductionHypothesis =>
      rw [final_cons, output_cons, unwinding.append]
      cases seen : visible event with
      | true =>
          obtain ⟨next, same⟩ := unwinding.consistent one other event seen start
          obtain ⟨final, output⟩ := inductionHypothesis next
          rw [List.filter_cons_of_pos seen, final_cons, output_cons, unwinding.append,
            same, output]
          exact ⟨final, rfl⟩
      | false =>
          obtain ⟨next, silent⟩ := unwinding.respect one other event seen start
          obtain ⟨final, output⟩ := inductionHypothesis next
          rw [List.filter_cons_of_neg (by simp [seen]), silent, List.nil_append, output]
          exact ⟨final, rfl⟩

/-- Noninterference: runs with the same visible events look alike. -/
theorem noninterference
    (unwinding : Unwinding machine visible alike observe)
    (symmetric : ∀ {one other}, alike one other → alike other one)
    (transitive : ∀ {one other third}, alike one other → alike other third →
      alike one third)
    {one other : σ}
    (start : alike one other)
    {first second : List ε}
    (same : first.filter visible = second.filter visible) :
    alike (machine.final one first) (machine.final other second) ∧
      observe (machine.output one first) = observe (machine.output other second) := by
  have reflexive : alike other other := transitive (symmetric start) start
  obtain ⟨firstFinal, firstOutput⟩ := unwinding.purge start first
  obtain ⟨secondFinal, secondOutput⟩ := unwinding.purge reflexive second
  rw [same] at firstFinal firstOutput
  exact ⟨transitive firstFinal (symmetric secondFinal),
    firstOutput.trans secondOutput.symm⟩

end Unwinding

/-- A relation that every event keeps is kept by a run. -/
theorem lockstep
    {machine : Machine σ ε δ}
    (alike : σ → σ → Prop)
    (kept : ∀ one other event, alike one other →
      alike (machine one event).1 (machine other event).1)
    {one other : σ}
    (start : alike one other)
    (events : List ε) :
    alike (machine.final one events) (machine.final other events) := by
  induction events generalizing one other with
  | nil => exact start
  | cons event rest inductionHypothesis =>
      exact inductionHypothesis (kept one other event start)

end Machine
end TaifexResolver
