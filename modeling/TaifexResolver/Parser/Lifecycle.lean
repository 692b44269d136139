import TaifexResolver.Parser.LoopStep

/-!
# Starting and stopping the receive loop

However the steps of the two threads are mixed and whatever the kernel answers, a call of
`end_loop` returns, lets at most one more datagram in, and leaves no socket open, provided
it does not come just before the receiver makes one.  The controller shuts the socket down
before it closes it, so the receiver cannot be left waiting for a datagram.
-/

namespace TaifexResolver
namespace TaifexParser
namespace Loop

/-! ## The socket of the receiver -/

/-- The socket of `sockfd` is open, and not shut down. -/
def Serves (loop : Loop) : Prop :=
  ∃ number, loop.sockfd = some number ∧ loop.sockets number = .open

/-- The receiver has its socket to itself: the controller has not shut it down. -/
def Owns (loop : Loop) : Prop :=
  match loop.receiver with
  | none | some .socket => True
  | some .checkSocket =>
      ∀ number, loop.sockfd = some number → loop.sockets number = .open
  | some (.recvfrom descriptor) => descriptor = loop.sockfd ∧ loop.Serves
  | some .bind | some .checkRunning | some .load | some .process => loop.Serves

/-- The receiver cannot wait any more: no socket it calls, or is about to call,
`recvfrom` with makes it wait. -/
def Quenched (loop : Loop) : Prop :=
  match loop.receiver with
  | some .load =>
      ∀ number, loop.sockfd = some number → (loop.sockets number).waits = false
  | some (.recvfrom descriptor) =>
      ∀ number, descriptor = some number → (loop.sockets number).waits = false
  | _ => True

/-- Step lemma: the receiver keeps its socket. -/
theorem Owns.receiverMove
    {loop after : Loop}
    {answer : KernelAnswer}
    (owns : loop.Owns)
    (move : loop.ReceiverMove answer after) :
    after.Owns := by
  cases move with
  | makes stands _ =>
      intro number same
      cases same
      exact Function.update_self ..
  | fails stands =>
      intro number same
      cases same
  | holds stands held =>
      obtain ⟨number, own⟩ := Option.ne_none_iff_exists'.mp held
      simp only [Owns, stands] at owns
      exact ⟨number, own, owns number own⟩
  | binds stands _ | enters stands _ | repeats stands =>
      simp only [Owns, stands] at owns
      exact owns
  | loads stands =>
      simp only [Owns, stands] at owns
      exact ⟨rfl, owns⟩
  | takes stands | skips stands =>
      simp only [Owns, stands] at owns
      exact owns.2
  | givesUp | unbound | leaves | breaks => trivial

/-- Step lemma: once `running` is clear, a receiver that cannot wait does not come to
wait again. -/
theorem Quenched.receiverMove
    {loop after : Loop}
    {answer : KernelAnswer}
    (quenched : loop.Quenched)
    (cleared : loop.running = false)
    (move : loop.ReceiverMove answer after) :
    after.Quenched := by
  cases move with
  | enters _ runs =>
      rw [cleared] at runs
      cases runs
  | loads stands =>
      simp only [Quenched, stands] at quenched
      exact quenched
  | makes | fails | holds | givesUp | binds | unbound | leaves | takes | skips | repeats
  | breaks => trivial

/-- Shutting its socket down wakes the receiver. -/
theorem Owns.quenched_shutdown
    {loop : Loop}
    (owns : loop.Owns) :
    Quenched { loop with sockets := loop.changeSocket .afterShutdown, controller := .close } := by
  have woken : loop.Serves → ∀ number, loop.sockfd = some number →
      (loop.changeSocket .afterShutdown number).waits = false := by
    rintro ⟨own, held, isOpen⟩ number same
    cases held.symm.trans same
    rw [changeSocket_apply, if_pos held, isOpen]
    rfl
  simp only [Owns] at owns
  simp only [Quenched]
  split
  · next stands =>
      rw [stands] at owns
      exact woken owns
  · next descriptor stands =>
      rw [stands] at owns
      intro number called
      exact woken owns.2 number (owns.1.symm.trans called)
  · trivial

/-- Without a socket the receiver is not inside the loop. -/
theorem Owns.quenched_none
    {loop : Loop}
    (owns : loop.Owns)
    (noneHeld : loop.sockfd = none) :
    Quenched { loop with controller := .checkThread } := by
  simp only [Owns] at owns
  simp only [Quenched]
  split
  · next stands =>
      intro number held
      cases noneHeld.symm.trans held
  · next descriptor stands =>
      rw [stands] at owns
      intro number called
      cases noneHeld.symm.trans (owns.1.symm.trans called)
  · trivial

/-- Closing a socket that was shut down makes nobody wait. -/
theorem Quenched.close
    {loop : Loop}
    (quenched : loop.Quenched) :
    Quenched { loop with sockets := loop.changeSocket .afterClose, controller := .forget } := by
  have same : ∀ number,
      (loop.changeSocket .afterClose number).waits = (loop.sockets number).waits := by
    intro number
    rw [changeSocket_apply]
    split
    · exact SocketState.waits_afterClose _
    · rfl
  simp only [Quenched, same] at quenched ⊢
  exact quenched

theorem Quenched.forget
    {loop : Loop}
    (quenched : loop.Quenched) :
    Quenched { loop with sockfd := none, controller := .checkThread } := by
  simp only [Quenched] at quenched ⊢
  split
  · intro number held
    cases held
  · next descriptor stands =>
      rw [stands] at quenched
      exact quenched
  · trivial

/-! ## The invariant of the two threads -/

/-- What holds while the controller is at an instruction. -/
def Phase (loop : Loop) : Prop :=
  match loop.controller with
  | .idle | .checkStarted | .stop =>
      (loop.running = true ∨ loop.recvThread = false) ∧ loop.Owns
  | .announce => loop.running = false ∧ loop.recvThread = false
  | .spawn => loop.running = true ∧ loop.recvThread = false
  | .checkSocket | .shutdown => loop.running = false ∧ loop.Owns
  | .close | .forget | .checkThread | .join => loop.running = false ∧ loop.Quenched

/-- The invariant of the two threads. -/
structure Sound (loop : Loop) : Prop where
  alive : loop.receiver ≠ none → loop.recvThread = true
  phase : loop.Phase

theorem sound_start : Sound {} :=
  ⟨fun alive => absurd rfl alive, Or.inr rfl, trivial⟩

namespace Sound

variable {loop after : Loop}

/-- Without a joinable thread there is no receiver. -/
theorem receiver_none (sound : Sound loop) (joined : loop.recvThread = false) :
    loop.receiver = none := by
  by_contra alive
  exact Bool.noConfusion (joined.symm.trans (sound.alive alive))

/-- Step lemma for the controller. -/
theorem controllerMove (sound : Sound loop) (move : loop.ControllerMove after) :
    Sound after := by
  obtain ⟨alive, phase⟩ := sound
  cases move with
  | declines stands runs =>
      simp only [Phase, stands] at phase
      exact ⟨alive, phase⟩
  | begins stands still =>
      simp only [Phase, stands] at phase
      refine ⟨alive, still, phase.1.resolve_left ?_⟩
      exact Bool.eq_false_iff.mp still
  | announces stands =>
      simp only [Phase, stands] at phase
      exact ⟨alive, rfl, phase.2⟩
  | spawns stands free =>
      simp only [Phase, stands] at phase
      exact ⟨fun _ => rfl, Or.inl phase.1, trivial⟩
  | stops stands =>
      simp only [Phase, stands] at phase
      exact ⟨alive, rfl, phase.2⟩
  | findsNone stands noneHeld =>
      simp only [Phase, stands] at phase
      exact ⟨alive, phase.1, phase.2.quenched_none noneHeld⟩
  | findsSocket stands held =>
      simp only [Phase, stands] at phase
      exact ⟨alive, phase⟩
  | shutsDown stands =>
      simp only [Phase, stands] at phase
      exact ⟨alive, phase.1, phase.2.quenched_shutdown⟩
  | closes stands =>
      simp only [Phase, stands] at phase
      exact ⟨alive, phase.1, phase.2.close⟩
  | forgets stands =>
      simp only [Phase, stands] at phase
      exact ⟨alive, phase.1, phase.2.forget⟩
  | findsThread stands joinable =>
      simp only [Phase, stands] at phase
      exact ⟨alive, phase⟩
  | findsNoThread stands ended =>
      have silent := receiver_none ⟨alive, phase⟩ ended
      exact ⟨alive, Or.inr ended, by simp only [Owns, silent]⟩
  | joins stands ended =>
      exact ⟨fun living => absurd ended living, Or.inr rfl, by simp only [Owns, ended]⟩

/-- Step lemma for the receiver. -/
theorem receiverMove
    {answer : KernelAnswer}
    (sound : Sound loop)
    (move : loop.ReceiverMove answer after) :
    Sound after := by
  obtain ⟨running, recvThread, controller⟩ := move.shared
  have phase := sound.phase
  refine ⟨fun _ => recvThread.trans (sound.alive move.alive), ?_⟩
  simp only [Phase, running, recvThread, controller] at phase ⊢
  cases point : loop.controller with
  | idle | checkStarted | stop | checkSocket | shutdown =>
      rw [point] at phase
      exact ⟨phase.1, phase.2.receiverMove move⟩
  | announce | spawn =>
      rw [point] at phase
      exact phase
  | close | forget | checkThread | join =>
      rw [point] at phase
      exact ⟨phase.1, phase.2.receiverMove phase.1 move⟩

/-- Step lemma. -/
theorem step
    {event : LoopEvent}
    (sound : Sound loop)
    (stepped : loop.step event = some after) :
    Sound after := by
  cases event with
  | startLoop | endLoop =>
      simp only [Loop.step, Option.ite_none_right_eq_some, Option.some.injEq] at stepped
      obtain ⟨idle, rfl⟩ := stepped
      have phase := sound.phase
      simp only [Phase, idle] at phase
      exact ⟨sound.alive, phase⟩
  | controller => exact sound.controllerMove (controllerMove_of_step stepped)
  | receiver answer => exact sound.receiverMove (receiverMove_of_step stepped)

/-- Run lemma. -/
theorem run
    {events : List LoopEvent}
    (sound : Sound loop)
    (ran : loop.run events = some after) :
    Sound after := by
  induction events generalizing loop with
  | nil => exact Option.some.inj ran ▸ sound
  | cons event rest inductionHypothesis =>
      obtain ⟨next, stepped, ran⟩ := Option.bind_eq_some_iff.mp ran
      exact inductionHypothesis (sound.step stepped) ran

end Sound

/-! ## The end of the receiver -/

/-- How many instructions the receiver has left once `running` is clear. -/
def remaining (loop : Loop) : Nat :=
  match loop.receiver with
  | none => 0
  | some .checkRunning => 1
  | some .bind | some .process => 2
  | some .checkSocket | some (.recvfrom _) => 3
  | some .socket | some .load => 4

/-- How many datagrams the receiver still takes once `running` is clear. -/
def allowance (loop : Loop) : Nat :=
  match loop.receiver with
  | some .load | some (.recvfrom _) => 1
  | _ => 0

/-- Without the flag every step of the receiver brings it nearer to its end, and every
datagram is taken off the allowance. -/
theorem ReceiverMove.nearer
    {loop after : Loop}
    {answer : KernelAnswer}
    (move : loop.ReceiverMove answer after)
    (cleared : loop.running = false) :
    after.remaining < loop.remaining ∧
      after.allowance + (if answer = .datagram then 1 else 0) ≤ loop.allowance := by
  cases move with
  | enters _ runs =>
      rw [cleared] at runs
      cases runs
  | makes stands _ | fails stands | holds stands _ | givesUp stands _ | binds stands _
  | unbound stands | leaves stands _ | loads stands | takes stands | skips stands
  | repeats stands | breaks stands =>
      simp [remaining, allowance, stands]

end Loop

/-- The controller is in `start_loop`. -/
def ControllerPoint.Starts : ControllerPoint → Prop
  | .checkStarted | .announce | .spawn => True
  | _ => False

/-- The event is an instruction of the receiver. -/
def LoopEvent.isReceiver : LoopEvent → Bool
  | .receiver _ => true
  | _ => false

namespace Loop

/-- `end_loop` has cleared the flag, and `start_loop` has not been called since. -/
structure Halted (loop : Loop) : Prop where
  cleared : loop.running = false
  notStarting : ¬loop.controller.Starts

/-- The controller leaves a halted loop halted, and the receiver where it is. -/
theorem Halted.controllerMove
    {loop after : Loop}
    (halted : loop.Halted)
    (move : loop.ControllerMove after) :
    after.Halted ∧ after.receiver = loop.receiver := by
  obtain ⟨cleared, notStarting⟩ := halted
  cases move with
  | declines stands _ | begins stands _ | announces stands | spawns stands _ =>
      rw [stands] at notStarting
      exact absurd trivial notStarting
  | stops => exact ⟨⟨rfl, id⟩, rfl⟩
  | findsNone | findsSocket | shutsDown | closes | forgets | findsThread | findsNoThread
  | joins => exact ⟨⟨cleared, id⟩, rfl⟩

/-- Step lemma for a loop that is halted. -/
theorem Halted.step
    {loop after : Loop}
    {event : LoopEvent}
    (halted : loop.Halted)
    (noStart : event ≠ .startLoop)
    (stepped : loop.step event = some after) :
    after.Halted ∧
      after.remaining + (if event.isReceiver then 1 else 0) ≤ loop.remaining ∧
      after.allowance + (if event = .receiver .datagram then 1 else 0) ≤ loop.allowance := by
  cases event with
  | startLoop => exact absurd rfl noStart
  | endLoop =>
      simp only [Loop.step, Option.ite_none_right_eq_some, Option.some.injEq] at stepped
      obtain ⟨idle, rfl⟩ := stepped
      exact ⟨⟨halted.cleared, id⟩, by simp [remaining, LoopEvent.isReceiver], by simp [allowance]⟩
  | controller =>
      obtain ⟨stillHalted, same⟩ :=
        halted.controllerMove (controllerMove_of_step stepped)
      exact ⟨stillHalted, by simp [remaining, LoopEvent.isReceiver, same],
        by simp [allowance, same]⟩
  | receiver answer =>
      have move := receiverMove_of_step stepped
      obtain ⟨running, _, controller⟩ := move.shared
      obtain ⟨instruction, datagram⟩ := move.nearer halted.cleared
      refine ⟨⟨running.trans halted.cleared, controller ▸ halted.notStarting⟩, ?_, ?_⟩
      · exact instruction
      · simpa using datagram

/-- Run lemma for a loop that is halted. -/
theorem Halted.run
    {loop after : Loop}
    {events : List LoopEvent}
    (halted : loop.Halted)
    (noStart : .startLoop ∉ events)
    (ran : loop.run events = some after) :
    after.Halted ∧
      after.remaining + events.countP LoopEvent.isReceiver ≤ loop.remaining ∧
      after.allowance + events.count (.receiver .datagram) ≤ loop.allowance := by
  induction events generalizing loop with
  | nil =>
      cases ran
      exact ⟨halted, Nat.le_refl _, Nat.le_refl _⟩
  | cons event rest inductionHypothesis =>
      obtain ⟨next, stepped, ran⟩ := Option.bind_eq_some_iff.mp ran
      have ⟨first, later⟩ := not_or.mp (mt List.mem_cons.mpr noStart)
      obtain ⟨stillHalted, instruction, datagram⟩ := halted.step (Ne.symm first) stepped
      obtain ⟨finallyHalted, instructions, datagrams⟩ :=
        inductionHypothesis stillHalted later ran
      refine ⟨finallyHalted, ?_, ?_⟩
      · rw [List.countP_cons]
        omega
      · simp only [List.count_cons, beq_iff_eq]
        omega

theorem allowance_le (loop : Loop) : loop.allowance ≤ 1 := by
  unfold allowance
  split <;> omega

/-- Once `end_loop` has returned there is no receiver. -/
theorem Sound.ended
    {loop : Loop}
    (sound : Sound loop)
    (halted : loop.Halted)
    (idle : loop.controller = .idle) :
    loop.recvThread = false ∧ loop.receiver = none := by
  have phase := sound.phase
  simp only [Phase, idle] at phase
  have joined := phase.1.resolve_left (Bool.eq_false_iff.mp halted.cleared)
  exact ⟨joined, sound.receiver_none joined⟩

end Loop

/-- Started, and stopped while the receiver waits for a datagram. -/
def stoppedInRecvfrom : List LoopEvent :=
  [.startLoop, .controller, .controller, .controller,
    .receiver (.descriptor 3), .receiver .success, .receiver .success, .receiver .success,
    .receiver .success, .endLoop, .controller]

/-- A last datagram, and the end of both threads. -/
def lastDatagram : List LoopEvent :=
  [.controller, .receiver .datagram, .controller, .receiver .success, .controller,
    .controller, .controller, .receiver .success, .controller]

/-- From the moment `end_loop` clears the flag until `start_loop` is called again at most
one datagram comes in, and none from the moment `end_loop` has returned.  Then the parser
can be started again: the old thread is not joinable any more. -/
theorem end_loop_silences
    {before events : List LoopEvent}
    {stopped after : Loop}
    (ran : Loop.run {} before = some stopped)
    (halted : stopped.Halted)
    (continued : stopped.run events = some after)
    (noStart : .startLoop ∉ events) :
    events.count (.receiver .datagram) ≤ 1 ∧
      (stopped.controller = .idle →
        (∀ answer, .receiver answer ∉ events) ∧
        ∃ again, stopped.run [.startLoop, .controller, .controller, .controller] = some again ∧
          again.running = true ∧ again.receiver = some .socket) := by
  have sound := Loop.sound_start.run ran
  obtain ⟨stillHalted, instructions, datagrams⟩ := halted.run noStart continued
  refine ⟨by have := stopped.allowance_le; omega, fun idle => ?_⟩
  obtain ⟨joined, ended⟩ := sound.ended halted idle
  constructor
  · intro answer member
    have none_left : stopped.remaining = 0 := by rw [Loop.remaining, ended]
    have positive : 0 < events.countP LoopEvent.isReceiver :=
      List.countP_pos_iff.mpr ⟨_, member, rfl⟩
    omega
  · simp [Loop.run, Loop.step, Loop.controllerStep, idle, halted.cleared, joined]

theorem end_loop_silences_in_recvfrom :
    ∃ stopped after, Loop.run {} (stoppedInRecvfrom ++ lastDatagram) = some stopped ∧
      stopped.controller = .idle ∧
      stopped.run [.endLoop, .controller] = some after ∧
      [LoopEvent.endLoop, .controller].count (.receiver .datagram) ≤ 1 ∧
      (stopped.controller = .idle →
        (∀ answer, LoopEvent.receiver answer ∉ [LoopEvent.endLoop, .controller]) ∧
        ∃ again, stopped.run [.startLoop, .controller, .controller, .controller] = some again ∧
          again.running = true ∧ again.receiver = some .socket) :=
  ⟨_, _, rfl, rfl, rfl,
    end_loop_silences
      (show Loop.run {} (stoppedInRecvfrom ++ lastDatagram) = some _ from rfl) ⟨rfl, id⟩ rfl
      (by decide)⟩

/-! ## The socket -/

namespace Loop

/-- Should the controller look for a socket now, then it is not just about to be made. -/
def InTime (loop : Loop) (event : LoopEvent) : Prop :=
  event = .controller → loop.controller = .checkSocket → loop.receiver ≠ some .socket

/-- What holds of `sockfd` while the controller is at an instruction. -/
def TidyPhase (loop : Loop) : Prop :=
  match loop.controller with
  | .idle | .checkStarted | .announce | .spawn | .stop | .checkSocket =>
      loop.recvThread = false → loop.sockfd = none
  | .shutdown | .close => loop.sockfd ≠ none
  | .forget => loop.sockfd ≠ none ∧ ∀ number, (loop.sockets number).isOpen = false
  | .checkThread | .join => loop.sockfd = none ∧ loop.receiver ≠ some .socket

/-- No socket is open but the one of `sockfd`, and that one only while there is a thread
to serve it or to close it. -/
structure Tidy (loop : Loop) : Prop where
  owner : ∀ number, (loop.sockets number).isOpen = true → loop.sockfd = some number
  making : loop.receiver = some .socket → loop.sockfd = none
  phase : loop.TidyPhase

theorem tidy_start : Tidy {} where
  owner := fun _ isOpen => by cases isOpen
  making := fun _ => rfl
  phase := fun _ => rfl

/-- No other socket is open after a call on the one of `sockfd`. -/
theorem owner_changeSocket
    {loop : Loop}
    (owner : ∀ number, (loop.sockets number).isOpen = true → loop.sockfd = some number)
    (change : SocketState → SocketState)
    (number : Nat)
    (isOpen : (loop.changeSocket change number).isOpen = true) :
    loop.sockfd = some number := by
  rw [changeSocket_apply] at isOpen
  split at isOpen
  · next held => exact held
  · exact owner number isOpen

namespace Tidy

variable {loop after : Loop}

/-- Step lemma for the controller. -/
theorem controllerMove
    (tidy : Tidy loop)
    (inTime : loop.controller = .checkSocket → loop.receiver ≠ some .socket)
    (move : loop.ControllerMove after) :
    Tidy after := by
  obtain ⟨owner, making, phase⟩ := tidy
  cases move with
  | declines stands _ | begins stands _ | announces stands | stops stands =>
      simp only [TidyPhase, stands] at phase
      exact ⟨owner, making, phase⟩
  | spawns stands free =>
      simp only [TidyPhase, stands] at phase
      exact ⟨owner, fun _ => phase free, fun _ => phase free⟩
  | findsNone stands noneHeld => exact ⟨owner, making, noneHeld, inTime stands⟩
  | findsSocket stands held => exact ⟨owner, making, held⟩
  | shutsDown stands =>
      simp only [TidyPhase, stands] at phase
      exact ⟨owner_changeSocket owner _, making, phase⟩
  | closes stands =>
      simp only [TidyPhase, stands] at phase
      refine ⟨owner_changeSocket owner _, making, phase, fun number => ?_⟩
      simp only [changeSocket_apply]
      split
      · exact SocketState.isOpen_afterClose _
      · next notHeld => exact Bool.eq_false_iff.mpr (mt (owner number) notHeld)
  | forgets stands =>
      simp only [TidyPhase, stands] at phase
      obtain ⟨held, closed⟩ := phase
      refine ⟨fun number isOpen => ?_, fun _ => rfl, rfl, mt making held⟩
      cases (closed number).symm.trans isOpen
  | findsThread stands _ =>
      simp only [TidyPhase, stands] at phase
      exact ⟨owner, making, phase⟩
  | findsNoThread stands _ | joins stands _ =>
      simp only [TidyPhase, stands] at phase
      exact ⟨owner, making, fun _ => phase.1⟩

/-- Before the receiver makes its socket the controller is not at work on it. -/
theorem phase_of_making
    (tidy : Tidy loop)
    (sound : Sound loop)
    (stands : loop.receiver = some .socket)
    (recvThread : after.recvThread = loop.recvThread)
    (controller : after.controller = loop.controller) :
    after.TidyPhase := by
  have noneHeld := tidy.making stands
  have joinable := sound.alive (by rw [stands]; exact Option.some_ne_none _)
  have phase := tidy.phase
  simp only [TidyPhase, controller, recvThread] at phase ⊢
  cases point : loop.controller with
  | idle | checkStarted | announce | spawn | stop | checkSocket =>
      intro joined
      cases joinable.symm.trans joined
  | shutdown | close =>
      rw [point] at phase
      exact absurd noneHeld phase
  | forget =>
      rw [point] at phase
      exact absurd noneHeld phase.1
  | checkThread | join =>
      rw [point] at phase
      exact absurd stands phase.2

/-- The receiver may go on behind the making of its socket. -/
theorem advanced
    {receiver : Option ReceiverPoint}
    (tidy : Tidy loop)
    (notMaking : receiver ≠ some .socket) :
    Tidy { loop with receiver } := by
  refine ⟨tidy.owner, fun making => absurd making notMaking, ?_⟩
  have phase := tidy.phase
  simp only [TidyPhase] at phase ⊢
  cases point : loop.controller with
  | checkThread | join =>
      rw [point] at phase
      exact ⟨phase.1, notMaking⟩
  | idle | checkStarted | announce | spawn | stop | checkSocket | shutdown | close
  | forget =>
      rw [point] at phase
      exact phase

/-- Step lemma for the receiver. -/
theorem receiverMove
    {answer : KernelAnswer}
    (tidy : Tidy loop)
    (sound : Sound loop)
    (move : loop.ReceiverMove answer after) :
    Tidy after := by
  cases move with
  | @makes number stands _ =>
      refine ⟨fun other isOpen => ?_, fun making => ?_,
        tidy.phase_of_making sound stands rfl rfl⟩
      · by_cases same : other = number
        · rw [same]
        · simp only [Function.update_of_ne same] at isOpen
          cases (tidy.making stands).symm.trans (tidy.owner other isOpen)
      · cases making
  | fails stands =>
      refine ⟨fun number isOpen => ?_, fun _ => rfl,
        tidy.phase_of_making sound stands rfl rfl⟩
      exact (tidy.making stands).symm.trans (tidy.owner number isOpen)
  | holds | givesUp | binds | unbound | enters | leaves | loads | takes | skips | repeats
  | breaks =>
      exact tidy.advanced (by simp)

/-- Step lemma. -/
theorem step
    {event : LoopEvent}
    (tidy : Tidy loop)
    (sound : Sound loop)
    (inTime : loop.InTime event)
    (stepped : loop.step event = some after) :
    Tidy after := by
  cases event with
  | startLoop | endLoop =>
      simp only [Loop.step, Option.ite_none_right_eq_some, Option.some.injEq] at stepped
      obtain ⟨idle, rfl⟩ := stepped
      have phase := tidy.phase
      simp only [TidyPhase, idle] at phase
      exact ⟨tidy.owner, tidy.making, phase⟩
  | controller => exact tidy.controllerMove (inTime rfl) (controllerMove_of_step stepped)
  | receiver answer => exact tidy.receiverMove sound (receiverMove_of_step stepped)

end Tidy

/-- Run lemma. -/
theorem Tidy.run
    {loop after : Loop}
    {events : List LoopEvent}
    (tidy : Tidy loop)
    (sound : Sound loop)
    (inTime : ∀ before event rest reached, events = before ++ event :: rest →
      loop.run before = some reached → reached.InTime event)
    (ran : loop.run events = some after) :
    Tidy after := by
  induction events generalizing loop with
  | nil => exact Option.some.inj ran ▸ tidy
  | cons event rest inductionHypothesis =>
      obtain ⟨next, stepped, ran⟩ := Option.bind_eq_some_iff.mp ran
      have now : loop.InTime event := inTime [] event rest loop rfl rfl
      refine inductionHypothesis (tidy.step sound now stepped) (sound.step stepped)
        (fun before later others reached split prefixRan => ?_) ran
      exact inTime (event :: before) later others reached (by rw [split]; rfl)
        (Option.bind_eq_some_iff.mpr ⟨next, stepped, prefixRan⟩)

end Loop

/-- `end_loop` closes the socket, whatever the kernel answered and however the receiver
came to its end, provided no call of `end_loop` ever looks for the socket just before the
receiver makes it. -/
theorem end_loop_closes_the_socket
    {events : List LoopEvent}
    {stopped : Loop}
    (ran : Loop.run {} events = some stopped)
    (inTime : ∀ before event rest reached, events = before ++ event :: rest →
      Loop.run {} before = some reached → reached.InTime event)
    (halted : stopped.Halted)
    (idle : stopped.controller = .idle) :
    stopped.sockfd = none ∧ ∀ number, (stopped.sockets number).isOpen = false := by
  have sound := Loop.sound_start.run ran
  have tidy := Loop.tidy_start.run Loop.sound_start inTime ran
  have phase := tidy.phase
  simp only [Loop.TidyPhase, idle] at phase
  have noneHeld := phase (sound.ended halted idle).1
  refine ⟨noneHeld, fun number => Bool.eq_false_iff.mpr fun isOpen => ?_⟩
  exact Option.some_ne_none number ((tidy.owner number isOpen).symm.trans noneHeld)

theorem end_loop_closes_the_socket_in_recvfrom :
    ∃ stopped, Loop.run {} (stoppedInRecvfrom ++ lastDatagram) = some stopped ∧
      stopped.sockfd = none ∧ ∀ number, (stopped.sockets number).isOpen = false := by
  refine ⟨_, rfl, end_loop_closes_the_socket
    (show Loop.run {} (stoppedInRecvfrom ++ lastDatagram) = some _ from rfl)
    (fun before event rest reached split ran _ looks => ?_) ⟨rfl, id⟩ rfl⟩
  have looked : ∀ length : Fin 20,
      ((Loop.run {} ((stoppedInRecvfrom ++ lastDatagram).take length)).all fun loop =>
        loop.controller ≠ .checkSocket ∨ loop.receiver ≠ some .socket) = true := by
    decide
  have short : before.length < 20 := by
    have lengths := congrArg List.length split
    simp only [stoppedInRecvfrom, lastDatagram, List.length_append, List.length_cons,
      List.length_nil] at lengths
    omega
  have checked := looked ⟨before.length, short⟩
  rw [split, List.take_left, ran] at checked
  simpa [looks] using checked

/-- Otherwise the socket is left open: the receiver makes it when `end_loop` waits to
join, and serves nobody with it. -/
example :
    (Loop.run {} [.startLoop, .controller, .controller, .controller, .endLoop, .controller,
      .controller, .receiver (.descriptor 3), .receiver .success, .receiver .success,
      .receiver .success, .controller, .controller]).map
      (fun stopped => (stopped.controller, stopped.receiver, stopped.sockets 3)) =
    some (.idle, none, .open) := by
  decide

end TaifexParser
end TaifexResolver
