import Mathlib.Data.List.DropRight
import Mathlib.Data.List.Induction

/-!
# Runs of a machine with output

A machine consumes one event at a time, moving to a new state and emitting a
list of outputs.  A run consumes a list of events in order.  Since every prefix
of a list of events is again a list of events, a statement about the final state
of every run is a statement about every reachable state.
-/

namespace TaifexResolver

/-- One step of a machine: the next state and what the step emits. -/
abbrev Machine (σ ε δ : Type) := σ → ε → σ × List δ

namespace Machine

variable {σ ε δ : Type}

/-- Consume a list of events in order, collecting the output. -/
def run (machine : Machine σ ε δ) (start : σ) : List ε → σ × List δ
  | [] => (start, [])
  | event :: rest =>
      let stepped := machine start event
      let finished := run machine stepped.1 rest
      (finished.1, stepped.2 ++ finished.2)

/-- State reached by a run. -/
def final (machine : Machine σ ε δ) (start : σ) (events : List ε) : σ :=
  (machine.run start events).1

/-- Everything a run emits, in order. -/
def output (machine : Machine σ ε δ) (start : σ) (events : List ε) : List δ :=
  (machine.run start events).2

variable {machine : Machine σ ε δ}

@[simp] theorem final_nil (start : σ) : machine.final start [] = start := rfl

@[simp] theorem output_nil (start : σ) : machine.output start [] = [] := rfl

theorem final_cons (start : σ) (event : ε) (rest : List ε) :
    machine.final start (event :: rest) =
      machine.final (machine start event).1 rest := rfl

theorem output_cons (start : σ) (event : ε) (rest : List ε) :
    machine.output start (event :: rest) =
      (machine start event).2 ++ machine.output (machine start event).1 rest :=
  rfl

theorem final_append (start : σ) (first second : List ε) :
    machine.final start (first ++ second) =
      machine.final (machine.final start first) second := by
  induction first generalizing start with
  | nil => rfl
  | cons event rest inductionHypothesis =>
      exact inductionHypothesis (machine start event).1

theorem output_append (start : σ) (first second : List ε) :
    machine.output start (first ++ second) =
      machine.output start first ++
        machine.output (machine.final start first) second := by
  induction first generalizing start with
  | nil => rfl
  | cons event rest inductionHypothesis =>
      rw [List.cons_append, output_cons, output_cons, final_cons,
        inductionHypothesis, List.append_assoc]

/-- The last step of a run, for induction from the end. -/
theorem final_concat (start : σ) (events : List ε) (last : ε) :
    machine.final start (events ++ [last]) =
      (machine (machine.final start events) last).1 := by
  rw [final_append]
  rfl

theorem output_concat (start : σ) (events : List ε) (last : ε) :
    machine.output start (events ++ [last]) =
      machine.output start events ++
        (machine (machine.final start events) last).2 := by
  rw [output_append]
  simp [output_cons]

/-- Refinement rule: a machine whose every step is a run of a finer machine runs
as the finer machine does. -/
theorem run_refined
    {α : Type}
    {coarse : Machine σ α δ}
    {expand : α → List ε}
    (refined : ∀ state event, coarse state event = machine.run state (expand event))
    (start : σ)
    (events : List α) :
    coarse.run start events = machine.run start (events.flatMap expand) := by
  induction events generalizing start with
  | nil => rfl
  | cons event rest inductionHypothesis =>
      have expanded : machine.run start (expand event ++ rest.flatMap expand) =
          (machine.final (machine.final start (expand event)) (rest.flatMap expand),
            machine.output start (expand event) ++
              machine.output (machine.final start (expand event))
                (rest.flatMap expand)) :=
        Prod.ext (final_append start _ _) (output_append start _ _)
      rw [List.flatMap_cons, expanded, run, refined, inductionHypothesis]
      rfl

/-- Invariant rule for a state predicate under a condition on the events. -/
theorem invariant_run
    {allowed : ε → Prop}
    (invariant : σ → Prop)
    (preserved : ∀ state event, allowed event → invariant state →
      invariant (machine state event).1)
    {start : σ}
    (initial : invariant start)
    {events : List ε}
    (allAllowed : ∀ event ∈ events, allowed event) :
    invariant (machine.final start events) := by
  induction events generalizing start with
  | nil => exact initial
  | cons event rest inductionHypothesis =>
      rw [final_cons]
      exact inductionHypothesis
        (preserved start event (allAllowed event (by simp)) initial)
        fun later member => allAllowed later (by simp [member])

/-- Every output of a run is emitted by one of its steps, from the state the
events before it lead to. -/
theorem mem_output_iff
    {start : σ}
    {events : List ε}
    {item : δ} :
    item ∈ machine.output start events ↔
      ∃ before event after, events = before ++ event :: after ∧
        item ∈ (machine (machine.final start before) event).2 := by
  induction events generalizing start with
  | nil => simp
  | cons event rest inductionHypothesis =>
      rw [output_cons, List.mem_append, inductionHypothesis]
      constructor
      · rintro (now | ⟨before, later, after, rfl, member⟩)
        · exact ⟨[], event, rest, rfl, now⟩
        · exact ⟨event :: before, later, after, rfl, member⟩
      · rintro ⟨before, later, after, split, member⟩
        cases before with
        | nil =>
            obtain ⟨rfl, rfl⟩ := List.cons_eq_cons.mp split
            exact Or.inl member
        | cons first before =>
            obtain ⟨rfl, rfl⟩ := List.cons_eq_cons.mp split
            exact Or.inr ⟨before, later, after, rfl, member⟩

end Machine

/-! ## Properties of every prefix -/

/-- Criterion rule: when an invariant implies a property, survives the safe events
and makes every unsafe event break the property, then every prefix has the property
exactly when every event is safe where it stands. -/
theorem forall_prefix_iff_safe
    {ε : Type}
    {events : List ε}
    {invariant property : List ε → Prop}
    {safe : List ε → ε → Prop}
    (initial : invariant [])
    (sound : ∀ before, invariant before → property before)
    (preserved : ∀ before last after, events = before ++ last :: after →
      invariant before → safe before last → invariant (before ++ [last]))
    (necessary : ∀ before last after, events = before ++ last :: after →
      invariant before → property (before ++ [last]) → safe before last) :
    (∀ before after, events = before ++ after → property before) ↔
      ∀ before last after, events = before ++ last :: after → safe before last := by
  have invariants
      (allSafe : ∀ before last after, events = before ++ last :: after →
        invariant before → safe before last)
      (before : List ε) :
      ∀ after, events = before ++ after → invariant before := by
    induction before using List.reverseRecOn with
    | nil => exact fun _ _ => initial
    | append_singleton before last inductionHypothesis =>
        intro after split
        rw [List.append_assoc] at split
        have held := inductionHypothesis _ split
        exact preserved before last after split held
          (allSafe before last after split held)
  constructor
  · intro holds
    have necessarily : ∀ before last after, events = before ++ last :: after →
        invariant before → safe before last := by
      intro before last after split held
      exact necessary before last after split held
        (holds (before ++ [last]) after (by simp [split]))
    intro before last after split
    exact necessarily before last after split (invariants necessarily before _ split)
  · intro allSafe before after split
    exact sound before
      (invariants (fun before last after split _ => allSafe before last after split)
        before after split)

/-! ## Since the last stop -/

section Since

variable {ε : Type} {stops : ε → Bool}

/-- The events after the last one that stops. -/
def since (stops : ε → Bool) (events : List ε) : List ε :=
  events.rtakeWhile fun event => !stops event

@[simp] theorem since_nil : since stops [] = [] := rfl

theorem since_concat (events : List ε) (last : ε) :
    since stops (events ++ [last]) =
      if stops last then [] else since stops events ++ [last] := by
  rw [since, List.rtakeWhile_concat]
  cases stops last <;> rfl

theorem mem_of_mem_since
    {events : List ε}
    {event : ε}
    (member : event ∈ since stops events) :
    event ∈ events :=
  List.IsSuffix.subset (List.rtakeWhile_suffix _ events) member

theorem not_stops_of_mem_since
    {events : List ε}
    {event : ε}
    (member : event ∈ since stops events) :
    stops event = false := by
  simpa using List.mem_rtakeWhile_imp member

/-- The events since the last stop come after nothing or after a stop. -/
theorem exists_since (events : List ε) :
    ∃ before, events = before ++ since stops events ∧
      (before = [] ∨ ∃ early last, before = early ++ [last] ∧ stops last = true) := by
  induction events using List.reverseRecOn with
  | nil => exact ⟨[], rfl, Or.inl rfl⟩
  | append_singleton events last inductionHypothesis =>
      rw [since_concat]
      cases stopped : stops last with
      | true => exact ⟨events ++ [last], by simp, Or.inr ⟨events, last, rfl, stopped⟩⟩
      | false =>
          obtain ⟨before, split, ending⟩ := inductionHypothesis
          refine ⟨before, ?_, ending⟩
          rw [if_neg Bool.false_ne_true, ← List.append_assoc, ← split]

end Since
end TaifexResolver
