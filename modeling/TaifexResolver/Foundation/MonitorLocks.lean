import TaifexResolver.Foundation.Monitor

/-!
# Who holds the locks of a monitor

A thread holds the mutex exactly while its newest activation is a critical section.
A thread that needs the interpreter's lock and does not have it stands in user
code, so no thread ever waits for that lock inside a method.
-/

namespace TaifexResolver
namespace Monitor

variable {σ κ δ ρ ι θ : Type}

/-- What a thread is doing. -/
inductive Activity
  | finished
  | user
  | method
  | critical
  | acting
  | joining
  deriving DecidableEq

/-- The activity of the newest activation of a stack. -/
def activity : List (Frame σ κ δ ρ ι θ) → Activity
  | [] => .finished
  | .user _ _ :: _ => .user
  | .method _ _ :: _ => .method
  | .critical _ _ _ :: _ => .critical
  | .acting _ :: _ => .acting
  | .joining _ _ :: _ => .joining

/-- Whether an activation can stand directly above another. -/
def Frame.Fits : Frame σ κ δ ρ ι θ → Activity → Prop
  | .user _ _, below => below = .finished ∨ below = .acting
  | .method _ _, below => below = .user
  | .critical _ _ _, below => below = .method
  | .acting _, below => below = .method
  | .joining _ _, below => below = .user

/-- Every activation of a stack fits the one below it. -/
def WellStacked : List (Frame σ κ δ ρ ι θ) → Prop
  | [] => True
  | frame :: below => frame.Fits (activity below) ∧ WellStacked below

/-- The rule that every reachable state keeps for the two locks. -/
structure LockDiscipline (config : Config σ κ δ ρ ι θ) : Prop where
  stacked : ∀ thread, WellStacked (config.stack thread)
  owner : ∀ thread, config.mutex = some thread ↔
    activity (config.stack thread) = .critical
  waiting : ∀ thread, needsInterpreter (config.stack thread) = true →
    activity (config.stack thread) = .user ∨ config.interpreter = some thread
  holder : ∀ thread, config.interpreter = some thread →
    needsInterpreter (config.stack thread) = true

/-- A thread in a critical section has every lock it needs. -/
theorem LockDiscipline.critical
    {config : Config σ κ δ ρ ι θ}
    (discipline : LockDiscipline config)
    {thread : θ}
    (inside : activity (config.stack thread) = .critical)
    (needed : needsInterpreter (config.stack thread) = true) :
    config.interpreter = some thread := by
  rcases discipline.waiting thread needed with user | owned
  · rw [inside] at user
    cases user
  · exact owned

/-- At most one thread is in a critical section. -/
theorem LockDiscipline.unique
    {config : Config σ κ δ ρ ι θ}
    (discipline : LockDiscipline config)
    {first second : θ}
    (firstInside : activity (config.stack first) = .critical)
    (secondInside : activity (config.stack second) = .critical) :
    first = second := by
  have owned := (discipline.owner first).mpr firstInside
  rw [(discipline.owner second).mpr secondInside] at owned
  exact (Option.some.inj owned).symm

/-! ## Effect of a move -/

/-- How the mutex follows the activity of the thread that moves. -/
inductive MutexMove (thread : θ) : Activity → Activity → Option θ → Option θ → Prop
  | outside
      {before after : Activity}
      (owner : Option θ) :
      before ≠ .critical → after ≠ .critical →
      MutexMove thread before after owner owner
  | inside (owner : Option θ) : MutexMove thread .critical .critical owner owner
  | lock
      {before : Activity} :
      before ≠ .critical →
      MutexMove thread before .critical none (some thread)
  | unlock
      {after : Activity}
      (owner : Option θ) :
      after ≠ .critical →
      MutexMove thread .critical after owner none

variable [DecidableEq θ]

/-- What a move does to the stacks and the locks. -/
structure MoveEffect
    (config : Config σ κ δ ρ ι θ)
    (thread : θ)
    (frames : List (Frame σ κ δ ρ ι θ))
    (after : Config σ κ δ ρ ι θ) : Prop where
  stack : after.stack = Function.update config.stack thread frames
  interpreter : after.interpreter =
    if needsInterpreter (config.stack thread) && !needsInterpreter frames then none
    else config.interpreter
  stacked : WellStacked frames
  mutex : MutexMove thread (activity (config.stack thread)) (activity frames)
    config.mutex after.mutex
  needs : needsInterpreter frames = true →
    needsInterpreter (config.stack thread) = true ∨ activity frames = .user

/-- Inversion: the effect of every move, on a well-formed stack. -/
theorem Move.effect
    {monitor : Monitor σ κ δ ρ ι θ}
    {config after : Config σ κ δ ρ ι θ}
    {thread : θ}
    (move : Move monitor config thread after)
    (stacked : WellStacked (config.stack thread)) :
    ∃ frames, MoveEffect config thread frames after := by
  cases move with
  | @call interpreted releases labels requests below top =>
      rw [top] at stacked
      refine ⟨_, rfl, rfl, ⟨rfl, stacked⟩, ?_, ?_⟩
      · rw [top]
        exact .outside _ (by simp [activity]) (by simp [activity])
      · intro needed
        rw [top]
        simp only [needsInterpreter, Bool.and_eq_true] at needed ⊢
        exact Or.inl needed.2
  | @wait interpreted releases other requests below top =>
      rw [top] at stacked
      refine ⟨_, rfl, rfl, ⟨rfl, stacked⟩, ?_, ?_⟩
      · rw [top]
        exact .outside _ (by simp [activity]) (by simp [activity])
      · intro needed
        rw [top]
        simp only [needsInterpreter, Bool.and_eq_true] at needed ⊢
        exact Or.inl needed.2
  | @joined releases other below top done =>
      rw [top] at stacked
      have resumed : activity below = .user := stacked.1
      refine ⟨_, rfl, rfl, stacked.2, ?_, fun _ => Or.inr resumed⟩
      rw [top, resumed]
      exact .outside _ (by simp [activity]) (by simp)
  | @leave interpreted below top =>
      rw [top] at stacked
      have resumed : activity below ≠ .critical := by
        rcases stacked.1 with finished | acting
        · simp [finished]
        · simp [acting]
      refine ⟨_, rfl, rfl, stacked.2, ?_, ?_⟩
      · rw [top]
        exact .outside _ (by simp [activity]) resumed
      · intro needed
        rw [top]
        simp [needsInterpreter, needed]
  | @lock releases label labels below top free =>
      rw [top] at stacked
      refine ⟨_, rfl, rfl, ⟨rfl, stacked⟩, ?_, ?_⟩
      · rw [top, free]
        exact .lock (by simp [activity])
      · intro needed
        rw [top]
        exact Or.inl needed
  | @«return» releases below top =>
      rw [top] at stacked
      have resumed : activity below = .user := stacked.1
      refine ⟨_, rfl, rfl, stacked.2, ?_, fun _ => Or.inr resumed⟩
      rw [top, resumed]
      exact .outside _ (by simp [activity]) (by simp)
  | @execute label effect emitted next collected below top =>
      rw [top] at stacked
      refine ⟨_, rfl, rfl, stacked, ?_, ?_⟩
      · rw [top]
        exact .inside _
      · intro needed
        rw [top]
        exact Or.inl needed
  | @unlock label value collected below top =>
      rw [top] at stacked
      refine ⟨_, rfl, rfl, stacked, ?_, ?_⟩
      · rw [top]
        exact .unlock _ (by simp [activity])
      · intro needed
        rw [top]
        exact Or.inl needed
  | @act action pending requests below top reacts =>
      rw [top] at stacked
      refine ⟨_, rfl, rfl, ⟨Or.inr rfl, stacked⟩, ?_, fun _ => Or.inr rfl⟩
      rw [top]
      exact .outside _ (by simp [activity]) (by simp [activity])
  | @acted below top =>
      rw [top] at stacked
      have resumed : activity below = .method := stacked.1
      refine ⟨_, rfl, rfl, stacked.2, ?_, ?_⟩
      · rw [top, resumed]
        exact .outside _ (by simp [activity]) (by simp)
      · intro needed
        rw [top]
        exact Or.inl needed

/-- The mutex after a move belongs to the thread in a critical section. -/
private theorem owner_of_effect
    {config after : Config σ κ δ ρ ι θ}
    {thread : θ}
    {frames : List (Frame σ κ δ ρ ι θ)}
    (effect : MoveEffect config thread frames after)
    (owner : ∀ thread, config.mutex = some thread ↔
      activity (config.stack thread) = .critical)
    (other : θ) :
    after.mutex = some other ↔ activity (after.stack other) = .critical := by
  have mine := owner thread
  have theirs := owner other
  have mutex := effect.mutex
  rw [effect.stack]
  by_cases same : other = thread
  · subst same
    rw [Function.update_self]
    generalize activity (config.stack other) = before at theirs mutex
    generalize activity frames = now at mutex ⊢
    generalize config.mutex = held at theirs mutex
    generalize after.mutex = next at mutex ⊢
    cases mutex with
    | outside _ left entered =>
        rw [theirs]
        exact iff_of_false left entered
    | inside => exact theirs
    | lock => simp
    | unlock _ left => simp [left]
  · rw [Function.update_of_ne same]
    generalize activity (config.stack thread) = before at mine mutex
    generalize activity frames = now at mutex
    generalize config.mutex = held at mine theirs mutex
    generalize after.mutex = next at mutex ⊢
    cases mutex with
    | outside | inside => exact theirs
    | lock notInside =>
        rw [← theirs]
        simp [Ne.symm same]
    | unlock =>
        rw [← theirs, mine.mpr rfl]
        simp [Ne.symm same]

/-- Step lemma: a move keeps the discipline. -/
theorem LockDiscipline.move
    {monitor : Monitor σ κ δ ρ ι θ}
    {config after : Config σ κ δ ρ ι θ}
    {thread : θ}
    (discipline : LockDiscipline config)
    (allowed : needsInterpreter (config.stack thread) = true →
      config.interpreter = some thread)
    (move : Move monitor config thread after) :
    LockDiscipline after := by
  obtain ⟨frames, effect⟩ := move.effect (discipline.stacked thread)
  have elsewhere : ∀ other, other ≠ thread →
      after.stack other = config.stack other := by
    intro other different
    rw [effect.stack, Function.update_of_ne different]
  have own : after.stack thread = frames := by
    rw [effect.stack, Function.update_self]
  refine ⟨fun other => ?_, owner_of_effect effect discipline.owner, fun other needed => ?_,
    fun other owned => ?_⟩
  · by_cases same : other = thread
    · rw [same, own]
      exact effect.stacked
    · rw [elsewhere other same]
      exact discipline.stacked other
  · by_cases same : other = thread
    · rw [same, own] at needed ⊢
      rcases effect.needs needed with before | user
      · apply Or.inr
        rw [effect.interpreter, needed, Bool.not_true, Bool.and_false]
        exact allowed before
      · exact Or.inl user
    · rw [elsewhere other same] at needed ⊢
      rcases discipline.waiting other needed with user | owned
      · exact Or.inl user
      · apply Or.inr
        rw [effect.interpreter]
        split
        · next gives =>
            rw [Bool.and_eq_true] at gives
            rw [allowed gives.1] at owned
            exact absurd (Option.some.inj owned).symm same
        · exact owned
  · rw [effect.interpreter] at owned
    split at owned
    · cases owned
    · next keeps =>
        have needed := discipline.holder other owned
        by_cases same : other = thread
        · rw [same] at needed
          rw [same, own]
          simpa [needed] using keeps
        · rw [elsewhere other same]
          exact needed

/-- Run lemma: every reachable state keeps the discipline. -/
theorem Reachable.discipline
    {monitor : Monitor σ κ δ ρ ι θ}
    {shared : σ}
    {interpreted : θ → Bool}
    {program : θ → List (Request θ κ)}
    {config : Config σ κ δ ρ ι θ}
    (reachable : Reachable monitor (start shared interpreted program) config) :
    LockDiscipline config := by
  apply reachable.invariant LockDiscipline
  · exact ⟨fun _ => ⟨Or.inl rfl, trivial⟩, fun _ => by simp [start, activity],
      fun _ _ => Or.inl rfl, fun _ owned => by simp [start] at owned⟩
  · intro config thread after discipline allowed move
    exact discipline.move allowed move
  · intro config thread discipline free needed
    refine ⟨discipline.stacked, discipline.owner, fun other needs => ?_,
      fun other owned => ?_⟩
    · rcases discipline.waiting other needs with user | owned
      · exact Or.inl user
      · rw [free] at owned
        cases owned
    · rw [← Option.some.inj owned]
      exact needed
  · intro config thread interpreted requests below discipline owned top
    refine ⟨discipline.stacked, discipline.owner, fun other needs => ?_,
      fun other impossible => by cases impossible⟩
    rcases discipline.waiting other needs with user | owns
    · exact Or.inl user
    · apply Or.inl
      rw [owned] at owns
      rw [← Option.some.inj owns, top]
      rfl

/-- Invariant rule that may use the discipline of the state before a move, for what
does not read the interpreter's lock. -/
theorem Reachable.invariant_of_discipline
    {monitor : Monitor σ κ δ ρ ι θ}
    {shared : σ}
    {interpreted : θ → Bool}
    {program : θ → List (Request θ κ)}
    {config : Config σ κ δ ρ ι θ}
    (reachable : Reachable monitor (start shared interpreted program) config)
    (holds : Config σ κ δ ρ ι θ → Prop)
    (initial : holds (start shared interpreted program))
    (blind : ∀ config owner, holds config → holds { config with interpreter := owner })
    (moved : ∀ config thread after, LockDiscipline config → holds config →
      Move monitor config thread after → holds after) :
    holds config := by
  induction reachable with
  | refl => exact initial
  | @tail config after before step held =>
      have discipline : LockDiscipline config := Reachable.discipline before
      cases step with
      | advance forward =>
          cases forward with
          | @move thread _ _ move => exact moved config thread after discipline held move
          | @take thread _ _ => exact blind config (some thread) held
      | release => exact blind config none held

end Monitor
end TaifexResolver
