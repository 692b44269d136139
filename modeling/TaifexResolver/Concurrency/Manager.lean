import TaifexResolver.Concurrency.Atomicity
import TaifexResolver.Foundation.MonitorOrder
import TaifexResolver.Foundation.MonitorProgress
import TaifexResolver.Foundation.MonitorSchedule
import TaifexResolver.OrderBook.Builders

/-!
# The manager among threads

Any number of threads call the manager: receive threads, and threads of the user.
A method is a list of accesses to the state, each under the mutex; the deliveries
collected in one are fired after its unlock, and a callback may call the manager
again.  Some callbacks and some threads run in the Python interpreter and hold its
lock while they do.
-/

namespace TaifexResolver

/-- What a thread does with a callback: invoke it with a copy of a book, or let go of
a reference to it, which may destroy it. -/
inductive CallbackAction
  | invoke (callback : CallbackPtr) (book : OrderBook)
  | drop (callback : CallbackPtr)
  deriving DecidableEq

/-- The callback an action runs code of. -/
def CallbackAction.callback : CallbackAction → CallbackPtr
  | .invoke callback _ => callback
  | .drop callback => callback

/-- The invocation that an action is, if it is one. -/
def CallbackAction.invocation : CallbackAction → Option (CallbackPtr × OrderBook)
  | .invoke callback book => some (callback, book)
  | .drop _ => none

theorem OrderBookManager.fire_append (first second : List Delivery) :
    fire (first ++ second) = fire first ++ fire second :=
  List.flatMap_append

namespace Aftermath

/-- The delivery that is left to be fired, if one is. -/
def delivery : Aftermath → Option Delivery
  | .deliver delivery => some delivery
  | .drop _ => none

/-- What `fire` does for one delivery. -/
def invocations : Aftermath → List CallbackAction
  | .deliver delivery =>
      delivery.callbacks.map fun callback => .invoke callback delivery.book
  | .drop _ => []

/-- The references that go out of scope when the method returns. -/
def references : Aftermath → List CallbackAction
  | .deliver delivery => delivery.callbacks.map .drop
  | .drop callback => [.drop callback]

/-- What a method does after the unlock of one of its critical sections. -/
def actions (collected : List Aftermath) : List CallbackAction :=
  collected.flatMap invocations ++ collected.flatMap references

/-- The invocations among the actions are those of `fire`. -/
theorem filterMap_actions (collected : List Aftermath) :
    (actions collected).filterMap CallbackAction.invocation =
      OrderBookManager.fire (collected.filterMap delivery) := by
  have dropped : (collected.flatMap references).filterMap
      CallbackAction.invocation = [] := by
    rw [List.filterMap_eq_nil_iff]
    intro action member
    obtain ⟨item, _, made⟩ := List.mem_flatMap.mp member
    cases item with
    | deliver delivery =>
        obtain ⟨callback, _, rfl⟩ := List.mem_map.mp made
        rfl
    | drop callback =>
        rw [List.mem_singleton.mp made]
        rfl
  rw [actions, List.filterMap_append, dropped, List.append_nil]
  induction collected with
  | nil => rfl
  | cons item rest inductionHypothesis =>
      rw [List.flatMap_cons, List.filterMap_append, inductionHypothesis]
      · cases item with
        | deliver delivery =>
            simp [invocations, Aftermath.delivery, OrderBookManager.fire,
              List.filterMap_map, Function.comp_def, CallbackAction.invocation]
        | drop callback => rfl
      · rw [List.flatMap_cons, List.filterMap_append, List.append_eq_nil_iff] at dropped
        exact dropped.2

end Aftermath

/-- The user's side: which callbacks run in the interpreter, and what a callback may
ask of the manager when a thread runs it. -/
structure Listeners (θ : Type) where
  interpreted : CallbackPtr → Bool
  reactions : θ → CallbackAction → Set (List (Monitor.Request θ Access))

namespace OrderBookManager

/-- The manager and its mutex. -/
def monitor
    {θ : Type}
    (listeners : Listeners θ) :
    Monitor OrderBookManager Access Aftermath Answer CallbackAction θ where
  body := Code.access
  actions := Aftermath.actions
  interpreted := fun action => listeners.interpreted action.callback
  reactions := listeners.reactions

/-- The manager as a machine over accesses. -/
def accessing : Machine OrderBookManager Access (List Aftermath × Answer) :=
  fun manager accessed =>
    ((manager.perform accessed).1, [(manager.perform accessed).2])

theorem sequential_monitor {θ : Type} (listeners : Listeners θ) :
    (monitor listeners).sequential = accessing := by
  funext manager accessed
  change (((Code.access accessed).run manager).1, [((Code.access accessed).run manager).2]) =
    accessing manager accessed
  rw [Code.run_access]
  rfl

end OrderBookManager

/-! ## Two threads -/

namespace TwoThreads

/-- A wildcard callback of the interpreter that asks for the book again. -/
def react : Bool → CallbackAction → List (Monitor.Request Bool Access)
  | _, .invoke _ _ => [.enter true [.getBook Builders.kProd]]
  | _, .drop _ => []

def listeners : Listeners Bool where
  interpreted := fun callback => callback = 7
  reactions := fun thread action => {react thread action}

/-- A receive thread with two messages, and a Python thread that asks for the book
and waits for the receive thread to finish. -/
def program : Bool → List (Monitor.Request Bool Access)
  | true =>
      [.enter true [.operate (.feed (.i081 (Builders.makeI081 Builders.kProd 1
          [Builders.makeEntry '0' '0' 10315 4 1] 1)))],
        .enter true [.operate (.feed (.i024 (Builders.makeI024 Builders.kProd 3 3)))]]
  | false => [.enter true [.getBook Builders.kProd], .join true true]

/-- The state a schedule leads to. -/
def after (schedule : List Bool) :
    Monitor.Config OrderBookManager Access Aftermath Answer CallbackAction Bool :=
  Monitor.play (OrderBookManager.monitor listeners) react
    (Monitor.start (OrderBookManager.registerCallbackAll {} 7) (fun thread => !thread)
      program)
    schedule

theorem reachable (schedule : List Bool) :
    (OrderBookManager.monitor listeners).Reachable
      (Monitor.start (OrderBookManager.registerCallbackAll {} 7) (fun thread => !thread)
        program)
      (after schedule) :=
  Monitor.reachable_play (fun _ _ => rfl) _ _

/-- The receive thread inside its first access, with the Python thread waiting for
the mutex. -/
def inside : List Bool := [true, false, false, true, false, true, true, true]

/-- Both threads to their ends. -/
def whole : List Bool :=
  inside ++ List.replicate 9 true ++ [false, false] ++ List.replicate 20 true ++
    List.replicate 20 false ++ List.replicate 60 true ++ List.replicate 10 false

theorem lawful :
    (OrderBookManager.monitor listeners).Lawful program
      (Monitor.JoinsBelow fun thread => if thread then 0 else 1) := by
  refine ⟨fun thread request member => ?_, fun thread action requests reacts request
    member => ?_⟩
  · cases thread with
    | true =>
        simp only [program, List.mem_cons, List.not_mem_nil, or_false] at member
        rcases member with rfl | rfl <;> trivial
    | false =>
        simp only [program, List.mem_cons, List.not_mem_nil, or_false] at member
        rcases member with rfl | rfl
        · trivial
        · exact ⟨rfl, Nat.zero_lt_one⟩
  · obtain rfl : requests = react thread action := reacts
    cases action with
    | invoke callback book =>
        rw [List.mem_singleton.mp member]
        trivial
    | drop callback => cases member

/-- The threads only make allowed accesses when their programs and the callback do. -/
theorem lawful_of_accesses
    {allowed : Access → Prop}
    (received : ∀ thread, ∀ request ∈ program thread, ∀ accessed ∈ request.labels,
      allowed accessed)
    (asked : allowed (.getBook Builders.kProd)) :
    (OrderBookManager.monitor listeners).Lawful program
      fun _ request => ∀ accessed ∈ request.labels, allowed accessed := by
  refine ⟨received, fun thread action requests reacts request member => ?_⟩
  obtain rfl : requests = react thread action := reacts
  cases action with
  | invoke callback book =>
      rw [List.mem_singleton.mp member]
      exact List.forall_mem_singleton.mpr asked
  | drop callback => cases member

end TwoThreads

/-! ## Any threads -/

section Threads

variable
  {θ : Type}
  [DecidableEq θ]
  {listeners : Listeners θ}
  {interpreted : θ → Bool}
  {program : θ → List (Monitor.Request θ Access)}
  {manager : OrderBookManager}
  {config : Monitor.Config OrderBookManager Access Aftermath Answer CallbackAction θ}

/-- The accesses of the manager are atomic.  However the instructions of any number
of threads are mixed, including those of callbacks that call the manager again, the
accesses that have ended took effect one after the other in the order in which they
ended: each collected the deliveries and returned the answer it would collect and
return in the sequential run of that order, and while no thread is inside the mutex
the manager is in the state that run ends in.  A thread inside the mutex will, when
it is done, have done exactly what its access does from that state.  The accesses of
a thread whose callbacks do not call the manager end in the order of its program. -/
theorem accesses_are_atomic
    (reachable : (OrderBookManager.monitor listeners).Reachable
      (Monitor.start manager interpreted program) config) :
    OrderBookManager.accessing.output manager config.labels = config.outcomes ∧
    (config.mutex = none →
      config.shared = OrderBookManager.accessing.final manager config.labels) ∧
    (∀ thread accessed code collected below,
      config.stack thread = .critical accessed code collected :: below →
      (OrderBookManager.accessing.final manager config.labels).perform accessed =
        ((code.run config.shared).1, collected ++ (code.run config.shared).2.1,
          (code.run config.shared).2.2)) ∧
    (∀ thread, (OrderBookManager.monitor listeners).Quiet thread →
      config.labelsOf thread ++ Monitor.remaining (config.stack thread) =
        (program thread).flatMap Monitor.Request.labels) := by
  have linearised := reachable.linearised
  refine ⟨?_, fun free => ?_, ?_, fun thread quiet => reachable.program_order quiet⟩
  · rw [← linearised.outcomes, OrderBookManager.sequential_monitor]
  · rw [linearised.idle free, OrderBookManager.sequential_monitor]
  · intro thread accessed code collected below top
    have busy := linearised.busy thread accessed code collected below top
    rw [OrderBookManager.sequential_monitor] at busy
    rw [← busy, ← OrderBookManager.Code.run_access]
    rfl

end Threads

/-- While the receive thread is inside, it owns the mutex; when both threads have ended,
their three accesses and the two of the callbacks took effect, one by one. -/
theorem accesses_are_atomic_mixed :
    (TwoThreads.after TwoThreads.inside).mutex = some true ∧
    (TwoThreads.after TwoThreads.whole).committed.length = 5 ∧
    OrderBookManager.accessing.output (OrderBookManager.registerCallbackAll {} 7)
      (TwoThreads.after TwoThreads.whole).labels =
        (TwoThreads.after TwoThreads.whole).outcomes :=
  ⟨by decide +kernel, by decide +kernel,
    (accesses_are_atomic (TwoThreads.reachable TwoThreads.whole)).1⟩

section Threads

variable
  {θ : Type}
  [DecidableEq θ]
  {listeners : Listeners θ}
  {interpreted : θ → Bool}
  {program : θ → List (Monitor.Request θ Access)}
  {manager : OrderBookManager}
  {config : Monitor.Config OrderBookManager Access Aftermath Answer CallbackAction θ}

/-- The deliveries that a thread has collected, in order. -/
def deliveriesOf
    (config : Monitor.Config OrderBookManager Access Aftermath Answer CallbackAction θ)
    (thread : θ) : List Delivery :=
  (config.committed.filter fun commit => commit.thread = thread).flatMap
    fun commit => commit.collected.filterMap Aftermath.delivery

/-- The invocations a thread has made, in order. -/
def invocationsOf
    (config : Monitor.Config OrderBookManager Access Aftermath Answer CallbackAction θ)
    (thread : θ) : List (CallbackPtr × OrderBook) :=
  (config.performedBy thread).filterMap CallbackAction.invocation

/-- The invocations that the accesses of a thread leave behind are those of `fire`. -/
theorem filterMap_actionsOf
    (listeners : Listeners θ)
    (config : Monitor.Config OrderBookManager Access Aftermath Answer CallbackAction θ)
    (thread : θ) :
    (config.actionsOf (OrderBookManager.monitor listeners) thread).filterMap
      CallbackAction.invocation = OrderBookManager.fire (deliveriesOf config thread) := by
  rw [Monitor.Config.actionsOf, deliveriesOf]
  generalize config.committed.filter (fun commit => commit.thread = thread) = commits
  induction commits with
  | nil => rfl
  | cons commit rest inductionHypothesis =>
      rw [List.flatMap_cons, List.filterMap_append, inductionHypothesis,
        List.flatMap_cons, OrderBookManager.fire_append]
      exact congrArg (· ++ _) (Aftermath.filterMap_actions commit.collected)

/-- Every callback is invoked exactly once for each delivery it is registered for,
by the thread that collected the delivery, whatever the other threads and the
callbacks themselves do in between, and every reference is let go exactly once.
What a thread has done after its unlocks and what it has left to do are together
what its accesses left behind.  Callbacks return normally here: one that throws would
end `fire`.  When it has finished, its invocations are those of
`fire` on its deliveries, each as often as there; on a thread whose callbacks do not
call the manager they are made in that order. -/
theorem callbacks_invoked_exactly_once
    (reachable : (OrderBookManager.monitor listeners).Reachable
      (Monitor.start manager interpreted program) config)
    (thread : θ) :
    (config.performedBy thread ++ Monitor.pending (config.stack thread)).Perm
      (config.actionsOf (OrderBookManager.monitor listeners) thread) ∧
    (config.stack thread = [] →
      (invocationsOf config thread).Perm
        (OrderBookManager.fire (deliveriesOf config thread))) ∧
    ((OrderBookManager.monitor listeners).Quiet thread →
      invocationsOf config thread ++
          (Monitor.pending (config.stack thread)).filterMap CallbackAction.invocation =
        OrderBookManager.fire (deliveriesOf config thread)) := by
  have exactly := reachable.performed_perm thread
  have fired := filterMap_actionsOf listeners config thread
  refine ⟨exactly, fun finished => ?_, fun quiet => ?_⟩
  · rw [finished] at exactly
    rw [← fired, invocationsOf]
    exact ((List.append_nil _).symm ▸ exactly).filterMap _
  · rw [← fired, invocationsOf, ← List.filterMap_append,
      reachable.performed_in_order quiet]

/-- User code runs outside the mutex.  A thread owns the mutex exactly while it is
inside the code of an access, so a callback is never invoked, and never destroyed,
by a thread that holds it; and a thread inside never has to wait for the
interpreter's lock, whether it was called with that lock held or not.  Where every
call gives that lock back for its time, its owner stands in user code: it neither
holds the mutex nor waits for it. -/
theorem callbacks_run_outside_the_mutex
    (reachable : (OrderBookManager.monitor listeners).Reachable
      (Monitor.start manager interpreted program) config) :
    (∀ thread, config.mutex = some thread ↔
      Monitor.activity (config.stack thread) = .critical) ∧
    (∀ thread action after,
      (OrderBookManager.monitor listeners).Move config thread after →
      after.performed = config.performed ++ [(thread, action)] →
      config.mutex ≠ some thread) ∧
    (∀ thread, config.mutex = some thread →
      Monitor.needsInterpreter (config.stack thread) = true →
      config.interpreter = some thread) ∧
    ((OrderBookManager.monitor listeners).Lawful program (fun _ => Monitor.Releases) →
      ∀ thread, config.interpreter = some thread →
        Monitor.activity (config.stack thread) = .user) := by
  have discipline := reachable.discipline
  refine ⟨discipline.owner, fun thread action after move performs owned => ?_,
    fun thread owned needed => ?_, fun lawful thread owned =>
      reachable.owner_in_user_code lawful owned⟩
  · have inside := (discipline.owner thread).mp owned
    cases move with
    | act top _ =>
        rw [top] at inside
        cases inside
    | call | wait | joined | leave | lock | «return» | execute | unlock | acted =>
        simp at performs
  · exact discipline.critical ((discipline.owner thread).mp owned) needed

/-- The threads never deadlock, neither on the mutex nor on the interpreter's lock
nor at the end of the receive threads.  Let every request to join a thread give the
interpreter's lock back for its time, as `end_loop` does when Python calls it, and name
a thread of lower rank, so that no thread waits for its own end; the calls of the
manager may give the lock back, as its methods do, or keep it, as `process_datagram`
does when Python calls it.  Then no circle of threads waits for each other in any
reachable state, and as long as a thread has something left to do the system can move
forward.  The destructor of a parser joins with the lock held when the interpreter runs
it, and is not such a request. -/
theorem threads_never_deadlock
    (reachable : (OrderBookManager.monitor listeners).Reachable
      (Monitor.start manager interpreted program) config)
    {rank : θ → Nat}
    (lawful : (OrderBookManager.monitor listeners).Lawful program
      (Monitor.JoinsBelow rank))
    (reacts : ∀ thread action, (listeners.reactions thread action).Nonempty) :
    (∀ thread, ¬Relation.TransGen (Monitor.WaitsFor config) thread thread) ∧
    ((∃ thread, config.stack thread ≠ []) →
      ∃ after, (OrderBookManager.monitor listeners).Advance config after) := by
  refine ⟨fun thread => reachable.acyclic lawful thread, ?_⟩
  rintro ⟨thread, unfinished⟩
  exact reachable.advances lawful reacts unfinished

end Threads

/-- The two deliveries of the receive thread were fired once each, although the
callback called the manager in between. -/
theorem callbacks_invoked_exactly_once_mixed :
    (invocationsOf (TwoThreads.after TwoThreads.whole) true).length = 2 ∧
    (invocationsOf (TwoThreads.after TwoThreads.whole) true).Perm
      (OrderBookManager.fire (deliveriesOf (TwoThreads.after TwoThreads.whole) true)) :=
  ⟨by decide +kernel,
    (callbacks_invoked_exactly_once (TwoThreads.reachable TwoThreads.whole) true).2.1
      (List.isEmpty_iff.mp (by decide +kernel))⟩

/-- The Python thread waits for the mutex without the interpreter's lock. -/
theorem callbacks_run_outside_the_mutex_mixed :
    Monitor.activity ((TwoThreads.after TwoThreads.inside).stack true) = .critical ∧
    Monitor.activity ((TwoThreads.after TwoThreads.inside).stack false) = .method ∧
    (TwoThreads.after TwoThreads.inside).interpreter = none :=
  ⟨((callbacks_run_outside_the_mutex (TwoThreads.reachable TwoThreads.inside)).1 true).mp
    (by decide +kernel), by decide +kernel, by decide +kernel⟩

/-- The system moves forward although the Python thread waits. -/
theorem threads_never_deadlock_mixed :
    ∃ next, (OrderBookManager.monitor TwoThreads.listeners).Advance
      (TwoThreads.after TwoThreads.inside) next := by
  refine (threads_never_deadlock (TwoThreads.reachable TwoThreads.inside)
    TwoThreads.lawful (fun thread action => ⟨_, rfl⟩)).2 ⟨true, fun finished => ?_⟩
  have inside : ((TwoThreads.after TwoThreads.inside).stack true).isEmpty = false := by
    decide +kernel
  rw [finished] at inside
  cases inside

/-- A thread that joins with the interpreter's lock held waits for a receive thread that
needs this lock for a callback. -/
example :
    let stuck := Monitor.play (OrderBookManager.monitor TwoThreads.listeners)
      TwoThreads.react
      (Monitor.start (OrderBookManager.registerCallbackAll {} 7) (fun thread => !thread)
        fun thread => if thread then TwoThreads.program true else [.join false true])
      ([false, false] ++ List.replicate 20 true)
    Monitor.activity (stuck.stack false) = .joining ∧
      stuck.interpreter = some false ∧
      Monitor.needsInterpreter (stuck.stack true) = true := by
  decide +kernel

end TaifexResolver
