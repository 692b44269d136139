import TaifexResolver.Foundation.MonitorLocks
import Mathlib.Logic.Relation

/-!
# A monitor never deadlocks

A thread waits for the mutex, for the interpreter's lock or for another thread to
finish.  When a thread only waits for the end of threads of lower rank, and gives
the interpreter's lock back while it does, the threads never wait for each other in
a circle, and as long as one has something left to do the system can move forward.
-/

namespace TaifexResolver
namespace Monitor

variable {σ κ δ ρ ι θ : Type}

/-! ## What user code asks for -/

/-- An activation that comes from allowed requests. -/
def Frame.Obeys (allowed : Request θ κ → Prop) : Frame σ κ δ ρ ι θ → Prop
  | .user _ requests => ∀ request ∈ requests, allowed request
  | .method releases _ => ∃ labels, allowed (.enter releases labels)
  | .joining releases other => allowed (.join releases other)
  | _ => True

section Obedience

variable [DecidableEq θ]

/-- Step lemma: a move leaves activations that come from allowed requests. -/
theorem Move.obeys
    {monitor : Monitor σ κ δ ρ ι θ}
    {config after : Config σ κ δ ρ ι θ}
    {thread : θ}
    {allowed : Request θ κ → Prop}
    (move : Move monitor config thread after)
    (reactions : ∀ action, ∀ requests ∈ monitor.reactions thread action,
      ∀ request ∈ requests, allowed request)
    (obeys : ∀ frame ∈ config.stack thread, frame.Obeys allowed) :
    ∃ frames, after.stack = Function.update config.stack thread frames ∧
      ∀ frame ∈ frames, frame.Obeys allowed := by
  cases move with
  | @call interpreted releases labels requests below top =>
      rw [top] at obeys
      have asked := obeys _ List.mem_cons_self
      refine ⟨_, rfl, fun frame member => ?_⟩
      rcases List.mem_cons.mp member with rfl | member
      · exact ⟨labels, asked _ List.mem_cons_self⟩
      · rcases List.mem_cons.mp member with rfl | member
        · exact fun request later => asked request (List.mem_cons_of_mem _ later)
        · exact obeys frame (List.mem_cons_of_mem _ member)
  | @wait interpreted releases other requests below top =>
      rw [top] at obeys
      have asked := obeys _ List.mem_cons_self
      refine ⟨_, rfl, fun frame member => ?_⟩
      rcases List.mem_cons.mp member with rfl | member
      · exact asked _ List.mem_cons_self
      · rcases List.mem_cons.mp member with rfl | member
        · exact fun request later => asked request (List.mem_cons_of_mem _ later)
        · exact obeys frame (List.mem_cons_of_mem _ member)
  | joined top | leave top | «return» top | acted top =>
      rw [top] at obeys
      exact ⟨_, rfl, fun frame member => obeys frame (List.mem_cons_of_mem _ member)⟩
  | @lock releases label labels below top free =>
      rw [top] at obeys
      refine ⟨_, rfl, fun frame member => ?_⟩
      have asked := obeys (.method releases (label :: labels)) List.mem_cons_self
      rcases List.mem_cons.mp member with rfl | member
      · trivial
      · rcases List.mem_cons.mp member with rfl | member
        · exact asked
        · exact obeys frame (List.mem_cons_of_mem _ member)
  | execute top | unlock top =>
      rw [top] at obeys
      refine ⟨_, rfl, fun frame member => ?_⟩
      rcases List.mem_cons.mp member with rfl | member
      · trivial
      · exact obeys frame (List.mem_cons_of_mem _ member)
  | @act action pending requests below top reacts =>
      rw [top] at obeys
      refine ⟨_, rfl, fun frame member => ?_⟩
      rcases List.mem_cons.mp member with rfl | member
      · exact reactions action requests reacts
      · rcases List.mem_cons.mp member with rfl | member
        · trivial
        · exact obeys frame (List.mem_cons_of_mem _ member)

/-- Run lemma: every activation of a reachable state comes from an allowed
request. -/
theorem Reachable.obeys
    {monitor : Monitor σ κ δ ρ ι θ}
    {shared : σ}
    {interpreted : θ → Bool}
    {program : θ → List (Request θ κ)}
    {config : Config σ κ δ ρ ι θ}
    {allowed : θ → Request θ κ → Prop}
    (reachable : Reachable monitor (start shared interpreted program) config)
    (lawful : Lawful monitor program allowed) :
    ∀ thread, ∀ frame ∈ config.stack thread, frame.Obeys (allowed thread) := by
  apply reachable.invariant_of_moves fun config =>
    ∀ thread, ∀ frame ∈ config.stack thread, frame.Obeys (allowed thread)
  · intro thread frame member
    rw [List.mem_singleton.mp member]
    exact lawful.program thread
  · exact fun _ _ held => held
  · intro config mover after held move thread
    obtain ⟨frames, stack, obeys⟩ := move.obeys (lawful.reactions mover) (held mover)
    rw [stack]
    by_cases same : thread = mover
    · subst same
      rw [Function.update_self]
      exact obeys
    · rw [Function.update_of_ne same]
      exact held thread

end Obedience

/-! ## Who waits for whom -/

/-- A thread waits for another. -/
inductive WaitsFor (config : Config σ κ δ ρ ι θ) (thread other : θ) : Prop
  | mutex
      {releases : Bool}
      {label : κ}
      {labels : List κ}
      {below : List (Frame σ κ δ ρ ι θ)} :
      config.stack thread = .method releases (label :: labels) :: below →
      config.mutex = some other →
      WaitsFor config thread other
  | interpreter :
      needsInterpreter (config.stack thread) = true →
      config.interpreter = some other →
      thread ≠ other →
      WaitsFor config thread other
  | finish
      {releases : Bool}
      {below : List (Frame σ κ δ ρ ι θ)} :
      config.stack thread = .joining releases other :: below →
      config.stack other ≠ [] →
      WaitsFor config thread other

/-- A thread that another waits for has something left to do. -/
theorem WaitsFor.unfinished
    {config : Config σ κ δ ρ ι θ}
    {thread other : θ}
    (waits : WaitsFor config thread other)
    (discipline : LockDiscipline config) :
    config.stack other ≠ [] := by
  intro finished
  cases waits with
  | mutex top owned =>
      have inside := (discipline.owner other).mp owned
      rw [finished] at inside
      cases inside
  | interpreter needed owned different =>
      have needs := discipline.holder other owned
      rw [finished] at needs
      cases needs
  | finish top unfinished => exact unfinished finished

/-- A request gives the interpreter's lock back for its time. -/
def Releases : Request θ κ → Prop
  | .enter releases _ => releases = true
  | .join releases _ => releases = true

/-- A request to wait for a thread gives the interpreter's lock back, and names a
thread of lower rank. -/
def JoinsBelow (rank : θ → Nat) (thread : θ) : Request θ κ → Prop
  | .enter _ _ => True
  | .join releases other => releases = true ∧ rank other < rank thread

variable [DecidableEq θ]

/-- How far a thread is from being able to move: a critical section waits for
nothing, and the owner of the interpreter's lock at most for the mutex. -/
def level (rank : θ → Nat) (config : Config σ κ δ ρ ι θ) (thread : θ) : Nat :=
  if activity (config.stack thread) = .critical then 0
  else if config.interpreter = some thread then 1
  else 2 + rank thread

/-- A thread only waits for threads of lower level. -/
theorem WaitsFor.level_lt
    {rank : θ → Nat}
    {config : Config σ κ δ ρ ι θ}
    {thread other : θ}
    (waits : WaitsFor config thread other)
    (discipline : LockDiscipline config)
    (joins : ∀ thread, ∀ frame ∈ config.stack thread,
      frame.Obeys (JoinsBelow rank thread)) :
    level rank config other < level rank config thread := by
  cases waits with
  | mutex top owned =>
      have inside := (discipline.owner other).mp owned
      have outside : activity (config.stack thread) ≠ .critical := by
        rw [top]
        simp [activity]
      rw [level, if_pos inside, level, if_neg outside]
      split <;> omega
  | interpreter needed owned different =>
      have notOwner : config.interpreter ≠ some thread := by
        rw [owned]
        exact fun equal => different (Option.some.inj equal).symm
      have outside : activity (config.stack thread) ≠ .critical := fun inside =>
        notOwner (discipline.critical inside needed)
      rw [level, level, if_neg outside, if_neg notOwner, if_pos owned]
      split <;> omega
  | @finish releases below top unfinished =>
      obtain ⟨gives, lower⟩ : releases = true ∧ rank other < rank thread := by
        have obeys := joins thread (.joining releases other) (by rw [top]; simp)
        exact obeys
      have outside : activity (config.stack thread) ≠ .critical := by
        rw [top]
        simp [activity]
      have notOwner : config.interpreter ≠ some thread := by
        intro owned
        have needed := discipline.holder thread owned
        rw [top] at needed
        simp [needsInterpreter, gives] at needed
      rw [level, level, if_neg outside, if_neg notOwner]
      split
      · omega
      · split <;> omega

/-- A thread with something left to do that waits for nobody can move forward. -/
theorem advance_of_not_waiting
    {monitor : Monitor σ κ δ ρ ι θ}
    {config : Config σ κ δ ρ ι θ}
    (reacts : ∀ thread action, (monitor.reactions thread action).Nonempty)
    {thread : θ}
    (unfinished : config.stack thread ≠ [])
    (free : ∀ other, ¬WaitsFor config thread other) :
    ∃ after, Advance monitor config after := by
  by_cases needed : needsInterpreter (config.stack thread) = true ∧
      config.interpreter = none
  · exact ⟨_, .take needed.1 needed.2⟩
  have allowed : needsInterpreter (config.stack thread) = true →
      config.interpreter = some thread := by
    intro needs
    cases owned : config.interpreter with
    | none => exact absurd ⟨needs, owned⟩ needed
    | some other =>
        by_contra different
        exact free other (.interpreter needs owned fun same => different (by rw [same]))
  suffices moves : ∃ after, Move monitor config thread after by
    obtain ⟨after, move⟩ := moves
    exact ⟨after, .move allowed move⟩
  cases top : config.stack thread with
  | nil => exact absurd top unfinished
  | cons frame below =>
      cases frame with
      | user interpreted requests =>
          cases requests with
          | nil => exact ⟨_, .leave top⟩
          | cons request requests =>
              cases request with
              | enter releases labels => exact ⟨_, .call top⟩
              | join releases other => exact ⟨_, .wait top⟩
      | method releases labels =>
          cases labels with
          | nil => exact ⟨_, .return top⟩
          | cons label labels =>
              cases held : config.mutex with
              | none => exact ⟨_, .lock top held⟩
              | some other => exact absurd (.mutex top held) (free other)
      | critical label code collected =>
          cases code with
          | result value => exact ⟨_, .unlock top⟩
          | instruction effect emitted next => exact ⟨_, .execute top⟩
      | acting pending =>
          cases pending with
          | nil => exact ⟨_, .acted top⟩
          | cons action pending =>
              obtain ⟨requests, reaction⟩ := reacts thread action
              exact ⟨_, .act top reaction⟩
      | joining releases other =>
          by_cases done : config.stack other = []
          · exact ⟨_, .joined top done⟩
          · exact absurd (.finish top done) (free other)

section Runs

variable
  {monitor : Monitor σ κ δ ρ ι θ}
  {shared : σ}
  {interpreted : θ → Bool}
  {program : θ → List (Request θ κ)}
  {config : Config σ κ δ ρ ι θ}
  {rank : θ → Nat}

/-- No circle of threads ever waits for itself. -/
theorem Reachable.acyclic
    (reachable : Reachable monitor (start shared interpreted program) config)
    (lawful : Lawful monitor program (JoinsBelow rank))
    (thread : θ) :
    ¬Relation.TransGen (WaitsFor config) thread thread := by
  have descends : ∀ other, Relation.TransGen (WaitsFor config) thread other →
      level rank config other < level rank config thread := by
    intro other waits
    induction waits with
    | single waits =>
        exact waits.level_lt reachable.discipline (reachable.obeys lawful)
    | tail _ waits lower =>
        exact (waits.level_lt reachable.discipline (reachable.obeys lawful)).trans lower
  exact fun circle => lt_irrefl _ (descends thread circle)

/-- A system with something left to do can move forward. -/
theorem Reachable.advances
    (reachable : Reachable monitor (start shared interpreted program) config)
    (lawful : Lawful monitor program (JoinsBelow rank))
    (reacts : ∀ thread action, (monitor.reactions thread action).Nonempty)
    {thread : θ}
    (unfinished : config.stack thread ≠ []) :
    ∃ after, Advance monitor config after := by
  -- Follow the waiting threads down to one that waits for nobody.
  induction lower : level rank config thread using Nat.strong_induction_on
    generalizing thread with
  | h height inductionHypothesis =>
      by_cases waiting : ∃ other, WaitsFor config thread other
      · obtain ⟨other, waits⟩ := waiting
        have below := waits.level_lt reachable.discipline (reachable.obeys lawful)
        rw [lower] at below
        exact inductionHypothesis _ below (waits.unfinished reachable.discipline) rfl
      · push Not at waiting
        exact advance_of_not_waiting reacts unfinished waiting

/-- When every request gives the interpreter's lock back for its time, its owner
stands in user code: nobody waits for the mutex while holding it. -/
theorem Reachable.owner_in_user_code
    (reachable : Reachable monitor (start shared interpreted program) config)
    (lawful : Lawful monitor program fun _ => Releases)
    {thread : θ}
    (owned : config.interpreter = some thread) :
    activity (config.stack thread) = .user := by
  have needed := reachable.discipline.holder thread owned
  have stacked := reachable.discipline.stacked thread
  have obeys := reachable.obeys lawful thread
  have released : ∀ below : List (Frame σ κ δ ρ ι θ), activity below = .method →
      (∀ frame ∈ below, frame.Obeys Releases) → needsInterpreter below = false := by
    intro below method lawfully
    cases below with
    | nil => cases method
    | cons frame rest =>
        cases frame with
        | method releases labels =>
            obtain ⟨_, gives⟩ := lawfully _ List.mem_cons_self
            have gave : releases = true := gives
            simp [needsInterpreter, gave]
        | user | critical | acting | joining => cases method
  cases top : config.stack thread with
  | nil =>
      rw [top] at needed
      cases needed
  | cons frame below =>
      rw [top] at needed stacked obeys
      have lower : ∀ frame ∈ below, frame.Obeys Releases := fun frame member =>
        obeys frame (List.mem_cons_of_mem _ member)
      cases frame with
      | user interpreted requests => rfl
      | method releases labels =>
          rw [released _ rfl obeys] at needed
          cases needed
      | critical label code collected =>
          rw [needsInterpreter, released below stacked.1 lower] at needed
          cases needed
      | acting pending =>
          rw [needsInterpreter, released below stacked.1 lower] at needed
          cases needed
      | joining releases other =>
          have gives : releases = true := obeys _ List.mem_cons_self
          simp [needsInterpreter, gives] at needed

end Runs
end Monitor
end TaifexResolver
