import Mathlib.Logic.Function.Basic

/-!
# The steps of the receive loop and its controller

`start_loop` and `end_loop` run on the thread that controls the parser, `receive_loop`
on a thread of its own.  They share the atomic flag `running` and the descriptor
`sockfd`.  The controller makes the receiver stop by clearing the flag and by shutting
down and closing whatever socket it finds, and then joins it.

Every access to the shared variables and every call of the kernel is a step of its own,
and the steps of the two threads are taken in any order.  The descriptor is read and
written as if it were atomic, and a number that was closed is not given to another file
of the process while the receiver holds it.  The calls of `process_datagram` return, and no
callback starts or ends the loop of its own parser.
-/

namespace TaifexResolver
namespace TaifexParser

/-- What the kernel has under a descriptor. -/
inductive SocketState
  | closed
  | open
  /-- Open, but shut down. -/
  | shut
  /-- Closed without having been shut down: a call that waits in it goes on waiting. -/
  | abandoned
  deriving DecidableEq

namespace SocketState

/-- A socket after `shutdown`. -/
def afterShutdown : SocketState → SocketState
  | .open => .shut
  | other => other

/-- A socket after `close`. -/
def afterClose : SocketState → SocketState
  | .open => .abandoned
  | .shut => .closed
  | other => other

/-- Whether the descriptor can be used, or given to another socket. -/
def isOpen : SocketState → Bool
  | .open | .shut => true
  | .closed | .abandoned => false

/-- Whether a call of `recvfrom` may wait for ever. -/
def waits : SocketState → Bool
  | .open | .abandoned => true
  | .closed | .shut => false

@[simp] theorem waits_afterClose (socket : SocketState) :
    socket.afterClose.waits = socket.waits := by
  cases socket <;> rfl

@[simp] theorem isOpen_afterClose (socket : SocketState) :
    socket.afterClose.isOpen = false := by
  cases socket <;> rfl

end SocketState

/-- The next instruction of the controller. -/
inductive ControllerPoint
  /-- Outside the parser. -/
  | idle
  /-- `if (running) return;` -/
  | checkStarted
  /-- `running = true; set_callbacks(...);` -/
  | announce
  /-- `recv_thread = std::thread(...);` -/
  | spawn
  /-- `running = false;` -/
  | stop
  /-- `if (sockfd != -1)` -/
  | checkSocket
  /-- `shutdown(sockfd, SHUT_RDWR);` -/
  | shutdown
  /-- `close(sockfd);` -/
  | close
  /-- `sockfd = -1;` -/
  | forget
  /-- `if (recv_thread.joinable())` -/
  | checkThread
  /-- `recv_thread.join();` -/
  | join
  deriving DecidableEq

/-- The next instruction of the receiver. -/
inductive ReceiverPoint
  /-- `sockfd = socket(AF_INET, SOCK_DGRAM, 0);` -/
  | socket
  /-- `if (sockfd < 0) return;` -/
  | checkSocket
  /-- The options of the socket, then `bind(sockfd, ...)`. -/
  | bind
  /-- `while (running)` -/
  | checkRunning
  /-- The first argument of `recvfrom`. -/
  | load
  /-- `recvfrom`, called with a descriptor. -/
  | recvfrom (descriptor : Option Nat)
  /-- `process_datagram(buffer, len);` -/
  | process
  deriving DecidableEq

/-- What the kernel makes of a call. -/
inductive KernelAnswer
  /-- A new descriptor. -/
  | descriptor (number : Nat)
  | success
  /-- `recvfrom` returned a positive length. -/
  | datagram
  /-- `recvfrom` returned zero. -/
  | nothing
  | error
  deriving DecidableEq

/-- The two threads and what they share. -/
structure Loop where
  running : Bool := false
  /-- No descriptor is `-1`. -/
  sockfd : Option Nat := none
  /-- Whether `recv_thread` is joinable. -/
  recvThread : Bool := false
  controller : ControllerPoint := .idle
  /-- A receiver that has ended, or has not been started, is at no instruction. -/
  receiver : Option ReceiverPoint := none
  sockets : Nat → SocketState := fun _ => .closed

namespace Loop

/-- The sockets after a call that changes the one of `sockfd`; a call on `-1` changes
none. -/
def changeSocket (loop : Loop) (change : SocketState → SocketState) : Nat → SocketState :=
  match loop.sockfd with
  | none => loop.sockets
  | some number => Function.update loop.sockets number (change (loop.sockets number))

/-- Whether `sockfd` is a descriptor of an open socket. -/
def hasSocket (loop : Loop) : Bool :=
  match loop.sockfd with
  | none => false
  | some number => (loop.sockets number).isOpen

/-- One step of the controller.  A join waits for the receiver to end.  To assign to a
`std::thread` that is still joinable would end the process. -/
def controllerStep (loop : Loop) : Option Loop :=
  match loop.controller with
  | .idle => none
  | .checkStarted =>
      some { loop with controller := if loop.running then .idle else .announce }
  | .announce => some { loop with running := true, controller := .spawn }
  | .spawn =>
      if loop.recvThread then none
      else some { loop with recvThread := true, receiver := some .socket, controller := .idle }
  | .stop => some { loop with running := false, controller := .checkSocket }
  | .checkSocket =>
      some { loop with controller := if loop.sockfd = none then .checkThread else .shutdown }
  | .shutdown =>
      some { loop with sockets := loop.changeSocket .afterShutdown, controller := .close }
  | .close =>
      some { loop with sockets := loop.changeSocket .afterClose, controller := .forget }
  | .forget => some { loop with sockfd := none, controller := .checkThread }
  | .checkThread =>
      some { loop with controller := if loop.recvThread then .join else .idle }
  | .join =>
      if loop.receiver = none then some { loop with recvThread := false, controller := .idle }
      else none

/-- One step of the receiver, with the answer of the kernel where it makes a call. -/
def receiverStep (loop : Loop) (answer : KernelAnswer) : Option Loop :=
  match loop.receiver, answer with
  | none, _ => none
  | some .socket, .descriptor number =>
      if (loop.sockets number).isOpen then none
      else
        some { loop with
          sockfd := some number
          sockets := Function.update loop.sockets number .open
          receiver := some .checkSocket }
  | some .socket, .error =>
      some { loop with sockfd := none, receiver := some .checkSocket }
  | some .checkSocket, .success =>
      some { loop with receiver := if loop.sockfd = none then none else some .bind }
  | some .bind, .success =>
      if loop.hasSocket then some { loop with receiver := some .checkRunning } else none
  | some .bind, .error => some { loop with receiver := none }
  | some .checkRunning, .success =>
      some { loop with receiver := if loop.running then some .load else none }
  | some .load, .success => some { loop with receiver := some (.recvfrom loop.sockfd) }
  | some (.recvfrom (some _)), .datagram => some { loop with receiver := some .process }
  | some (.recvfrom (some _)), .nothing => some { loop with receiver := some .checkRunning }
  | some (.recvfrom _), .error => some { loop with receiver := none }
  | some .process, .success => some { loop with receiver := some .checkRunning }
  | some _, _ => none

end Loop

/-- What happens next: a call by the user, or a step of one of the threads. -/
inductive LoopEvent
  | startLoop
  | endLoop
  | controller
  | receiver (answer : KernelAnswer)
  deriving DecidableEq

namespace Loop

/-- The controller makes one call at a time. -/
def step (loop : Loop) : LoopEvent → Option Loop
  | .startLoop =>
      if loop.controller = .idle then some { loop with controller := .checkStarted } else none
  | .endLoop =>
      if loop.controller = .idle then some { loop with controller := .stop } else none
  | .controller => loop.controllerStep
  | .receiver answer => loop.receiverStep answer

/-- Some events after each other, when all of them can happen. -/
def run (loop : Loop) : List LoopEvent → Option Loop
  | [] => some loop
  | event :: rest => (loop.step event).bind fun after => after.run rest

/-- A call on `sockfd` changes the socket of this number only. -/
theorem changeSocket_apply
    (loop : Loop)
    (change : SocketState → SocketState)
    (number : Nat) :
    loop.changeSocket change number =
      if loop.sockfd = some number then change (loop.sockets number)
      else loop.sockets number := by
  cases held : loop.sockfd with
  | none => simp [changeSocket, held]
  | some own =>
      simp only [changeSocket, held, Function.update_apply, Option.some.injEq]
      by_cases same : number = own
      · simp [same]
      · simp [same, Ne.symm same]

/-! ## What one step can do -/

/-- What the controller can do in a step, and when. -/
inductive ControllerMove (loop : Loop) : Loop → Prop
  | declines :
      loop.controller = .checkStarted →
      loop.running = true →
      ControllerMove loop { loop with controller := .idle }
  | begins :
      loop.controller = .checkStarted →
      loop.running = false →
      ControllerMove loop { loop with controller := .announce }
  | announces :
      loop.controller = .announce →
      ControllerMove loop { loop with running := true, controller := .spawn }
  | spawns :
      loop.controller = .spawn →
      loop.recvThread = false →
      ControllerMove loop
        { loop with recvThread := true, receiver := some .socket, controller := .idle }
  | stops :
      loop.controller = .stop →
      ControllerMove loop { loop with running := false, controller := .checkSocket }
  | findsNone :
      loop.controller = .checkSocket →
      loop.sockfd = none →
      ControllerMove loop { loop with controller := .checkThread }
  | findsSocket :
      loop.controller = .checkSocket →
      loop.sockfd ≠ none →
      ControllerMove loop { loop with controller := .shutdown }
  | shutsDown :
      loop.controller = .shutdown →
      ControllerMove loop
        { loop with sockets := loop.changeSocket .afterShutdown, controller := .close }
  | closes :
      loop.controller = .close →
      ControllerMove loop
        { loop with sockets := loop.changeSocket .afterClose, controller := .forget }
  | forgets :
      loop.controller = .forget →
      ControllerMove loop { loop with sockfd := none, controller := .checkThread }
  | findsThread :
      loop.controller = .checkThread →
      loop.recvThread = true →
      ControllerMove loop { loop with controller := .join }
  | findsNoThread :
      loop.controller = .checkThread →
      loop.recvThread = false →
      ControllerMove loop { loop with controller := .idle }
  | joins :
      loop.controller = .join →
      loop.receiver = none →
      ControllerMove loop { loop with recvThread := false, controller := .idle }

/-- What the receiver can do in a step, and when. -/
inductive ReceiverMove (loop : Loop) : KernelAnswer → Loop → Prop
  | makes {number : Nat} :
      loop.receiver = some .socket →
      (loop.sockets number).isOpen = false →
      ReceiverMove loop (.descriptor number)
        { loop with
          sockfd := some number
          sockets := Function.update loop.sockets number .open
          receiver := some .checkSocket }
  | fails :
      loop.receiver = some .socket →
      ReceiverMove loop .error { loop with sockfd := none, receiver := some .checkSocket }
  | holds :
      loop.receiver = some .checkSocket →
      loop.sockfd ≠ none →
      ReceiverMove loop .success { loop with receiver := some .bind }
  | givesUp :
      loop.receiver = some .checkSocket →
      loop.sockfd = none →
      ReceiverMove loop .success { loop with receiver := none }
  | binds :
      loop.receiver = some .bind →
      loop.hasSocket = true →
      ReceiverMove loop .success { loop with receiver := some .checkRunning }
  | unbound :
      loop.receiver = some .bind →
      ReceiverMove loop .error { loop with receiver := none }
  | enters :
      loop.receiver = some .checkRunning →
      loop.running = true →
      ReceiverMove loop .success { loop with receiver := some .load }
  | leaves :
      loop.receiver = some .checkRunning →
      loop.running = false →
      ReceiverMove loop .success { loop with receiver := none }
  | loads :
      loop.receiver = some .load →
      ReceiverMove loop .success { loop with receiver := some (.recvfrom loop.sockfd) }
  | takes {number : Nat} :
      loop.receiver = some (.recvfrom (some number)) →
      ReceiverMove loop .datagram { loop with receiver := some .process }
  | skips {number : Nat} :
      loop.receiver = some (.recvfrom (some number)) →
      ReceiverMove loop .nothing { loop with receiver := some .checkRunning }
  | repeats :
      loop.receiver = some .process →
      ReceiverMove loop .success { loop with receiver := some .checkRunning }
  | breaks {descriptor : Option Nat} :
      loop.receiver = some (.recvfrom descriptor) →
      ReceiverMove loop .error { loop with receiver := none }

/-- Inversion of a step of the controller, by its next instruction. -/
theorem controllerMove_of_step
    {loop after : Loop}
    (stepped : loop.controllerStep = some after) :
    loop.ControllerMove after := by
  cases stands : loop.controller with
  | idle => simp [controllerStep, stands] at stepped
  | checkStarted =>
      simp only [controllerStep, stands, Option.some.injEq] at stepped
      subst stepped
      split
      · next runs => exact .declines stands runs
      · next still => exact .begins stands (Bool.eq_false_iff.mpr still)
  | announce =>
      simp only [controllerStep, stands, Option.some.injEq] at stepped
      exact stepped ▸ .announces stands
  | spawn =>
      simp only [controllerStep, stands, Option.ite_none_left_eq_some,
        Option.some.injEq] at stepped
      obtain ⟨free, rfl⟩ := stepped
      exact .spawns stands (Bool.eq_false_iff.mpr free)
  | stop =>
      simp only [controllerStep, stands, Option.some.injEq] at stepped
      exact stepped ▸ .stops stands
  | checkSocket =>
      simp only [controllerStep, stands, Option.some.injEq] at stepped
      subst stepped
      split
      · next noneHeld => exact .findsNone stands noneHeld
      · next held => exact .findsSocket stands held
  | shutdown =>
      simp only [controllerStep, stands, Option.some.injEq] at stepped
      exact stepped ▸ .shutsDown stands
  | close =>
      simp only [controllerStep, stands, Option.some.injEq] at stepped
      exact stepped ▸ .closes stands
  | forget =>
      simp only [controllerStep, stands, Option.some.injEq] at stepped
      exact stepped ▸ .forgets stands
  | checkThread =>
      simp only [controllerStep, stands, Option.some.injEq] at stepped
      subst stepped
      split
      · next joinable => exact .findsThread stands joinable
      · next joined => exact .findsNoThread stands (Bool.eq_false_iff.mpr joined)
  | join =>
      simp only [controllerStep, stands, Option.ite_none_right_eq_some,
        Option.some.injEq] at stepped
      obtain ⟨ended, rfl⟩ := stepped
      exact .joins stands ended

/-- Inversion of a step of the receiver, by its next instruction and the answer. -/
theorem receiverMove_of_step
    {loop after : Loop}
    {answer : KernelAnswer}
    (stepped : loop.receiverStep answer = some after) :
    loop.ReceiverMove answer after := by
  rcases stands : loop.receiver with _ | point
  · simp [receiverStep, stands] at stepped
  cases point with
  | socket =>
      cases answer with
      | descriptor number =>
          simp only [receiverStep, stands, Option.ite_none_left_eq_some,
            Option.some.injEq] at stepped
          obtain ⟨free, rfl⟩ := stepped
          exact .makes stands (Bool.eq_false_iff.mpr free)
      | error =>
          simp only [receiverStep, stands, Option.some.injEq] at stepped
          exact stepped ▸ .fails stands
      | success | datagram | nothing => simp [receiverStep, stands] at stepped
  | checkSocket =>
      cases answer with
      | success =>
          simp only [receiverStep, stands, Option.some.injEq] at stepped
          subst stepped
          split
          · next noneHeld => exact .givesUp stands noneHeld
          · next held => exact .holds stands held
      | descriptor number | datagram | nothing | error =>
          simp [receiverStep, stands] at stepped
  | bind =>
      cases answer with
      | success =>
          simp only [receiverStep, stands, Option.ite_none_right_eq_some,
            Option.some.injEq] at stepped
          obtain ⟨held, rfl⟩ := stepped
          exact .binds stands held
      | error =>
          simp only [receiverStep, stands, Option.some.injEq] at stepped
          exact stepped ▸ .unbound stands
      | descriptor number | datagram | nothing => simp [receiverStep, stands] at stepped
  | checkRunning =>
      cases answer with
      | success =>
          simp only [receiverStep, stands, Option.some.injEq] at stepped
          subst stepped
          split
          · next runs => exact .enters stands runs
          · next cleared => exact .leaves stands (Bool.eq_false_iff.mpr cleared)
      | descriptor number | datagram | nothing | error =>
          simp [receiverStep, stands] at stepped
  | load =>
      cases answer with
      | success =>
          simp only [receiverStep, stands, Option.some.injEq] at stepped
          exact stepped ▸ .loads stands
      | descriptor number | datagram | nothing | error =>
          simp [receiverStep, stands] at stepped
  | recvfrom descriptor =>
      rcases descriptor with _ | number
      · cases answer with
        | error =>
            simp only [receiverStep, stands, Option.some.injEq] at stepped
            exact stepped ▸ .breaks stands
        | descriptor number | success | datagram | nothing =>
            simp [receiverStep, stands] at stepped
      · cases answer with
        | datagram =>
            simp only [receiverStep, stands, Option.some.injEq] at stepped
            exact stepped ▸ .takes stands
        | nothing =>
            simp only [receiverStep, stands, Option.some.injEq] at stepped
            exact stepped ▸ .skips stands
        | error =>
            simp only [receiverStep, stands, Option.some.injEq] at stepped
            exact stepped ▸ .breaks stands
        | descriptor other | success => simp [receiverStep, stands] at stepped
  | process =>
      cases answer with
      | success =>
          simp only [receiverStep, stands, Option.some.injEq] at stepped
          exact stepped ▸ .repeats stands
      | descriptor number | datagram | nothing | error =>
          simp [receiverStep, stands] at stepped

namespace ReceiverMove

variable {loop after : Loop} {answer : KernelAnswer}

/-- Only a receiver that has not ended moves. -/
theorem alive (move : loop.ReceiverMove answer after) : loop.receiver ≠ none := by
  cases move with
  | makes stands _ | fails stands | holds stands _ | givesUp stands _ | binds stands _
  | unbound stands | enters stands _ | leaves stands _ | loads stands | takes stands
  | skips stands | repeats stands | breaks stands =>
      rw [stands]
      exact Option.some_ne_none _

/-- The receiver leaves what is the controller's. -/
theorem shared (move : loop.ReceiverMove answer after) :
    after.running = loop.running ∧ after.recvThread = loop.recvThread ∧
      after.controller = loop.controller := by
  cases move <;> exact ⟨rfl, rfl, rfl⟩

end ReceiverMove

end Loop
end TaifexParser
end TaifexResolver
