import TaifexResolver.Foundation.Execution

/-!
# Routines

A routine is code that runs on a shared state one instruction at a time.  An
instruction reads the state, changes it, emits some items and chooses what
follows, so a routine may be stopped between any two of its instructions.  Run
without interruption, a routine is a step of a machine.
-/

namespace TaifexResolver

/-- Code on a shared state `σ` that emits items of type `δ` and returns an `α`. -/
inductive Routine (σ δ α : Type)
  | result (value : α)
  | instruction
      (effect : σ → σ)
      (emitted : σ → List δ)
      (next : σ → Routine σ δ α)

namespace Routine

variable {σ δ α β ι : Type}

/-- Run a routine without interruption: the state it leaves, what it emits and what
it returns. -/
def run : Routine σ δ α → σ → σ × List δ × α
  | .result value, state => (state, [], value)
  | .instruction effect emitted next, state =>
      let rest := (next state).run (effect state)
      (rest.1, emitted state ++ rest.2.1, rest.2.2)

/-- One routine after another. -/
def bind : Routine σ δ α → (α → Routine σ δ β) → Routine σ δ β
  | .result value, continuation => continuation value
  | .instruction effect emitted next, continuation =>
      .instruction effect emitted fun state => (next state).bind continuation

instance : Monad (Routine σ δ) where
  pure := .result
  bind := .bind

/-- Read the state. -/
def read (view : σ → α) : Routine σ δ α :=
  .instruction id (fun _ => []) fun state => .result (view state)

/-- Change the state. -/
def modify (effect : σ → σ) : Routine σ δ Unit :=
  .instruction effect (fun _ => []) fun _ => .result ()

/-- Emit some items. -/
def emit (emitted : σ → List δ) : Routine σ δ Unit :=
  .instruction id emitted fun _ => .result ()

@[simp] theorem run_pure (value : α) (state : σ) :
    (pure value : Routine σ δ α).run state = (state, [], value) := rfl

@[simp] theorem run_read (view : σ → α) (state : σ) :
    (read view : Routine σ δ α).run state = (state, [], view state) := rfl

@[simp] theorem run_modify (effect : σ → σ) (state : σ) :
    (modify effect : Routine σ δ Unit).run state = (effect state, [], ()) := rfl

@[simp] theorem run_emit (emitted : σ → List δ) (state : σ) :
    (emit emitted : Routine σ δ Unit).run state = (state, emitted state, ()) :=
  congrArg (fun items => (state, items, ())) (List.append_nil (emitted state))

/-- A sequence runs its first part, then its second part from where that ended. -/
@[simp] theorem run_bind
    (routine : Routine σ δ α)
    (continuation : α → Routine σ δ β)
    (state : σ) :
    (routine >>= continuation).run state =
      let first := routine.run state
      let second := (continuation first.2.2).run first.1
      (second.1, first.2.1 ++ second.2.1, second.2.2) := by
  change (routine.bind continuation).run state = _
  induction routine generalizing state with
  | result value => rfl
  | instruction effect emitted next inductionHypothesis =>
      simp only [bind, run, inductionHypothesis, List.append_assoc]

/-- The machine that runs a whole routine for each event. -/
def atomically (body : ι → Routine σ δ α) : Machine σ ι (List δ × α) :=
  fun state event =>
    let finished := (body event).run state
    (finished.1, [finished.2])

/-- A loop over a list. -/
def forEach (body : ι → Routine σ δ Unit) : List ι → Routine σ δ Unit
  | [] => pure ()
  | item :: rest => do
      body item
      forEach body rest

end Routine
end TaifexResolver
