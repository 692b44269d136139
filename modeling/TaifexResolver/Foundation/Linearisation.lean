import TaifexResolver.Foundation.MonitorLocks

/-!
# Critical sections are atomic

However the instructions of the threads are mixed, the state of a monitor is the
state its committed sections lead to when each is run without interruption, one
after the other in the order of their commits, and each returned and emitted what
it returns and emits there.
-/

namespace TaifexResolver
namespace Monitor

variable {σ κ δ ρ ι θ : Type}

/-- The sections committed so far, in order. -/
def Config.labels (config : Config σ κ δ ρ ι θ) : List κ :=
  config.committed.map Commit.label

/-- What the committed sections emitted and returned, in order. -/
def Config.outcomes (config : Config σ κ δ ρ ι θ) : List (List δ × ρ) :=
  config.committed.map fun commit => (commit.collected, commit.value)

/-- The sections of a monitor as steps of a machine. -/
def sequential (monitor : Monitor σ κ δ ρ ι θ) : Machine σ κ (List δ × ρ) :=
  Routine.atomically monitor.body

/-- Every section emits and returns once. -/
theorem length_output_sequential
    (monitor : Monitor σ κ δ ρ ι θ)
    (shared : σ)
    (labels : List κ) :
    (monitor.sequential.output shared labels).length = labels.length := by
  induction labels generalizing shared with
  | nil => rfl
  | cons label rest inductionHypothesis =>
      rw [Machine.output_cons, List.length_append, inductionHypothesis,
        List.length_cons, Nat.add_comm]
      rfl

/-- A state that the sequential machine explains. -/
structure Linearised
    (monitor : Monitor σ κ δ ρ ι θ)
    (shared : σ)
    (config : Config σ κ δ ρ ι θ) : Prop where
  outcomes : monitor.sequential.output shared config.labels = config.outcomes
  idle : config.mutex = none →
    config.shared = monitor.sequential.final shared config.labels
  busy : ∀ thread label code collected below,
    config.stack thread = .critical label code collected :: below →
    (monitor.body label).run (monitor.sequential.final shared config.labels) =
      ((code.run config.shared).1, collected ++ (code.run config.shared).2.1,
        (code.run config.shared).2.2)

namespace Linearised

variable
  {monitor : Monitor σ κ δ ρ ι θ}
  {shared : σ}
  {config : Config σ κ δ ρ ι θ}

/-- The actions performed are not looked at. -/
theorem perform
    (linearised : Linearised monitor shared config)
    (performed : List (θ × ι)) :
    Linearised monitor shared { config with performed := performed } :=
  ⟨linearised.outcomes, linearised.idle, linearised.busy⟩

variable [DecidableEq θ]

/-- A move outside every critical section. -/
theorem moveTo
    (linearised : Linearised monitor shared config)
    {thread : θ}
    {frames : List (Frame σ κ δ ρ ι θ)}
    (outside : activity frames ≠ .critical) :
    Linearised monitor shared (config.moveTo thread frames) := by
  refine ⟨linearised.outcomes, linearised.idle, ?_⟩
  intro other label code collected below top
  rw [Config.stack_moveTo] at top
  by_cases same : other = thread
  · rw [same, Function.update_self] at top
    simp [top, activity] at outside
  · rw [Function.update_of_ne same] at top
    exact linearised.busy other label code collected below top

/-- A thread takes the mutex and is at the start of a section. -/
theorem lock
    (linearised : Linearised monitor shared config)
    (discipline : LockDiscipline config)
    (free : config.mutex = none)
    (thread : θ)
    (label : κ)
    (rest : List (Frame σ κ δ ρ ι θ)) :
    Linearised monitor shared
      { config.moveTo thread (.critical label (monitor.body label) [] :: rest) with
        mutex := some thread } := by
  refine ⟨linearised.outcomes, fun impossible => (by cases impossible), ?_⟩
  intro other entered code collected below top
  rw [Config.stack_moveTo] at top
  by_cases same : other = thread
  · rw [same, Function.update_self] at top
    injection top with entering _
    injection entering with labels codes items
    subst labels codes items
    change (monitor.body label).run
      (monitor.sequential.final shared config.labels) =
        (monitor.body label).run config.shared
    rw [linearised.idle free]
  · rw [Function.update_of_ne same] at top
    have owned := (discipline.owner other).mpr (by rw [top]; rfl)
    rw [free] at owned
    cases owned

/-- A thread runs one instruction of its section. -/
theorem execute
    (linearised : Linearised monitor shared config)
    (discipline : LockDiscipline config)
    {thread : θ}
    {label : κ}
    {effect : σ → σ}
    {emitted : σ → List δ}
    {next : σ → Routine σ δ ρ}
    {collected : List δ}
    {below : List (Frame σ κ δ ρ ι θ)}
    (top : config.stack thread =
      .critical label (.instruction effect emitted next) collected :: below) :
    Linearised monitor shared
      { config.moveTo thread
          (.critical label (next config.shared)
            (collected ++ emitted config.shared) :: below) with
        shared := effect config.shared } := by
  have inside : activity (config.stack thread) = .critical := by rw [top]; rfl
  refine ⟨linearised.outcomes, fun free => ?_, ?_⟩
  · rw [Config.mutex_moveTo, (discipline.owner thread).mpr inside] at free
    cases free
  · intro other entered code items rest newTop
    rw [Config.stack_moveTo] at newTop
    by_cases same : other = thread
    · rw [same, Function.update_self] at newTop
      injection newTop with running _
      injection running with labels codes emissions
      subst labels codes emissions
      have before := linearised.busy thread label _ collected below top
      rw [Routine.run, ← List.append_assoc] at before
      exact before
    · rw [Function.update_of_ne same] at newTop
      exact absurd (discipline.unique (by rw [newTop]; rfl) inside) same

/-- A thread ends its section: the whole section takes effect here. -/
theorem unlock
    (linearised : Linearised monitor shared config)
    (discipline : LockDiscipline config)
    {thread : θ}
    {label : κ}
    {value : ρ}
    {collected : List δ}
    {below : List (Frame σ κ δ ρ ι θ)}
    (top : config.stack thread = .critical label (.result value) collected :: below) :
    Linearised monitor shared
      { config.moveTo thread (.acting (monitor.actions collected) :: below) with
        mutex := none
        committed := config.committed ++ [⟨thread, label, collected, value⟩] } := by
  have inside : activity (config.stack thread) = .critical := by rw [top]; rfl
  have finished := linearised.busy thread label _ collected below top
  rw [Routine.run, List.append_nil] at finished
  have stepped : monitor.sequential
      (monitor.sequential.final shared config.labels) label =
        (config.shared, [(collected, value)]) := by
    exact congrArg (fun outcome => (outcome.1, [outcome.2])) finished
  refine ⟨?_, fun _ => ?_, ?_⟩
  · simp only [Config.labels, Config.outcomes, List.map_append, List.map_cons,
      List.map_nil]
    rw [Machine.output_concat]
    change monitor.sequential.output shared config.labels ++
      (monitor.sequential (monitor.sequential.final shared config.labels) label).2 = _
    rw [linearised.outcomes, stepped]
    rfl
  · simp only [Config.labels, List.map_append, List.map_cons, List.map_nil]
    rw [Machine.final_concat]
    change config.shared =
      (monitor.sequential (monitor.sequential.final shared config.labels) label).1
    rw [stepped]
  · intro other entered code items rest newTop
    rw [Config.stack_moveTo] at newTop
    by_cases same : other = thread
    · rw [same, Function.update_self] at newTop
      injection newTop with impossible _
      cases impossible
    · rw [Function.update_of_ne same] at newTop
      exact absurd (discipline.unique (by rw [newTop]; rfl) inside) same

end Linearised

variable [DecidableEq θ]

/-- Step lemma: a move keeps the state explained. -/
theorem Linearised.move
    {monitor : Monitor σ κ δ ρ ι θ}
    {shared : σ}
    {config after : Config σ κ δ ρ ι θ}
    {thread : θ}
    (linearised : Linearised monitor shared config)
    (discipline : LockDiscipline config)
    (move : Move monitor config thread after) :
    Linearised monitor shared after := by
  have stacked := discipline.stacked thread
  cases move with
  | call top | wait top => exact linearised.moveTo (by simp [activity])
  | joined top done =>
      rw [top] at stacked
      exact linearised.moveTo (by rw [stacked.1]; simp)
  | leave top =>
      rw [top] at stacked
      rcases stacked.1 with finished | acting
      · exact linearised.moveTo (by rw [finished]; simp)
      · exact linearised.moveTo (by rw [acting]; simp)
  | lock top free => exact linearised.lock discipline free _ _ _
  | «return» top =>
      rw [top] at stacked
      exact linearised.moveTo (by rw [stacked.1]; simp)
  | execute top => exact linearised.execute discipline top
  | unlock top => exact linearised.unlock discipline top
  | act top reacts => exact (linearised.moveTo (by simp [activity])).perform _
  | acted top =>
      rw [top] at stacked
      exact linearised.moveTo (by rw [stacked.1]; simp)

/-- Run lemma: every reachable state is explained by its committed sections. -/
theorem Reachable.linearised
    {monitor : Monitor σ κ δ ρ ι θ}
    {shared : σ}
    {interpreted : θ → Bool}
    {program : θ → List (Request θ κ)}
    {config : Config σ κ δ ρ ι θ}
    (reachable : Reachable monitor (start shared interpreted program) config) :
    Linearised monitor shared config := by
  apply reachable.invariant_of_discipline (Linearised monitor shared)
  · refine ⟨rfl, fun _ => rfl, ?_⟩
    intro thread label code collected below top
    injection top with impossible _
    cases impossible
  · intro config owner linearised
    exact ⟨linearised.outcomes, linearised.idle, linearised.busy⟩
  · intro config thread after discipline linearised move
    exact linearised.move discipline move

/-- The section at each place of the commits emitted and returned what it does from
the state that the sections committed before it lead to. -/
theorem Reachable.explained_at
    {monitor : Monitor σ κ δ ρ ι θ}
    {shared : σ}
    {interpreted : θ → Bool}
    {program : θ → List (Request θ κ)}
    {config : Config σ κ δ ρ ι θ}
    (reachable : Reachable monitor (start shared interpreted program) config)
    {earlier later : List (Commit κ δ ρ θ)}
    {commit : Commit κ δ ρ θ}
    (split : config.committed = earlier ++ commit :: later) :
    (monitor.sequential
        (monitor.sequential.final shared (earlier.map Commit.label)) commit.label).2 =
      [(commit.collected, commit.value)] := by
  have outcomes := reachable.linearised.outcomes
  rw [Config.labels, Config.outcomes, split] at outcomes
  simp only [List.map_append, List.map_cons, Machine.output_append,
    Machine.output_cons] at outcomes
  have aligned := (List.append_inj outcomes (by
    rw [length_output_sequential, List.length_map, List.length_map])).2
  exact congrArg (fun item => [item]) (List.cons.inj aligned).1

/-- Each committed section is explained at some place of the labels. -/
theorem Reachable.explained
    {monitor : Monitor σ κ δ ρ ι θ}
    {shared : σ}
    {interpreted : θ → Bool}
    {program : θ → List (Request θ κ)}
    {config : Config σ κ δ ρ ι θ}
    (reachable : Reachable monitor (start shared interpreted program) config)
    {commit : Commit κ δ ρ θ}
    (committed : commit ∈ config.committed) :
    ∃ before after, config.labels = before ++ commit.label :: after ∧
      (monitor.sequential (monitor.sequential.final shared before) commit.label).2 =
        [(commit.collected, commit.value)] := by
  obtain ⟨earlier, later, split⟩ := List.append_of_mem committed
  refine ⟨earlier.map Commit.label, later.map Commit.label, ?_,
    reachable.explained_at split⟩
  rw [Config.labels, split, List.map_append, List.map_cons]

/-- Whatever happens next, the sections committed so far stay the first ones. -/
theorem Reachable.committed_prefix
    {monitor : Monitor σ κ δ ρ ι θ}
    {first last : Config σ κ δ ρ ι θ}
    (reachable : Reachable monitor first last) :
    first.committed <+: last.committed := by
  apply reachable.invariant_of_moves (fun config => first.committed <+: config.committed)
    (List.prefix_refl _) (fun _ _ kept => kept)
  intro config thread after kept move
  cases move with
  | unlock top => exact kept.trans (List.prefix_append _ _)
  | call | wait | joined | leave | lock | «return» | execute | act | acted => exact kept

end Monitor
end TaifexResolver
