import TaifexResolver.Concurrency.Visibility
import TaifexResolver.Exchange.Convergence
import TaifexResolver.Parser.Drive
import TaifexResolver.Parser.Receive

/-!
# From two sockets to the callbacks

Two receive threads run the receive loop of a parser each, one on the realtime channel
and one on the snapshot channel, and share a manager.  Other threads, and the callbacks
on every thread, only register, unregister and ask.  Whatever the threads mix, the
callbacks and the askers only see the exchange's book.
-/

namespace TaifexResolver

/-- The call of a method of the manager, with its critical sections. -/
def feeding {θ : Type} (steps : List Step) : Monitor.Request θ Access :=
  .enter false (steps.map fun step => .operate (.feed step))

theorem steps_feeding {θ : Type} (steps : List Step) :
    (feeding steps : Monitor.Request θ Access).labels.flatMap Access.steps = steps := by
  change (steps.map fun step => Access.operate (.feed step)).flatMap Access.steps = steps
  rw [List.flatMap_map]
  exact List.flatMap_singleton' steps

/-- A request that feeds the manager nothing. -/
def Monitor.Request.Asks {θ : Type} (request : Monitor.Request θ Access) : Prop :=
  ∀ accessed ∈ request.labels, accessed.steps = []

instance {θ : Type} (request : Monitor.Request θ Access) : Decidable request.Asks :=
  inferInstanceAs (Decidable (∀ accessed ∈ request.labels, accessed.steps = []))

/-- A request that only asks has no feed step. -/
theorem Monitor.Request.Asks.steps
    {θ : Type}
    {request : Monitor.Request θ Access}
    (asks : request.Asks) :
    request.labels.flatMap Access.steps = [] :=
  List.flatMap_eq_nil_iff.mpr asks

/-- What a thread asks of the manager for a call of the parser.  A raw callback is the
user's, and may ask for anything, each time anew, as long as it feeds nothing. -/
inductive Call.Requests {θ : Type} : Call → List (Monitor.Request θ Access) → Prop
  | onHeader {received : Header} :
      Requests (.onHeader received) [feeding [.header received]]
  | feed {pkt : Packet} :
      Requests (.feed pkt) [feeding pkt.steps]
  | callback {pkt : Packet} {requests : List (Monitor.Request θ Access)} :
      (∀ request ∈ requests, request.Asks) →
      Requests (.callback pkt) requests

/-- The feed steps asked for are those of the call. -/
theorem Call.Requests.steps
    {θ : Type}
    {call : Call}
    {requests : List (Monitor.Request θ Access)}
    (asked : call.Requests requests) :
    (requests.flatMap Monitor.Request.labels).flatMap Access.steps = call.steps := by
  rw [List.flatMap_assoc]
  cases asked with
  | onHeader | feed =>
      rw [List.flatMap_cons, List.flatMap_nil, List.append_nil]
      exact steps_feeding _
  | callback asks =>
      exact List.flatMap_eq_nil_iff.mpr fun request member => (asks request member).steps

/-- A receive thread: a parser with the manager attached, and what the passes of the
receive loop find.  The datagrams that arrive carry some well-formed messages, packed in
any way that fits the buffer. -/
structure ReceiveThread (messages : List WireMessage) where
  parser : TaifexParser
  attached : parser.bookMgr = true
  wellFormed : ∀ message ∈ messages, message.WellFormed
  groups : List (List WireMessage)
  packing : groups.flatten = messages
  fits : ∀ group ∈ groups,
    (group.flatMap WireMessage.encode).length ≤ TaifexParser.bufferSize
  receptions : List TaifexParser.Reception
  packed : TaifexParser.payloads receptions =
    groups.map fun group => group.flatMap WireMessage.encode
  buffer : TaifexParser.Buffer

namespace ReceiveThread

variable {θ : Type} {messages : List WireMessage} (thread : ReceiveThread messages)

/-- The calls that the receive loop makes. -/
def calls : List Call :=
  thread.parser.receiveLoop thread.buffer thread.receptions

/-- A program is what the thread asks of the manager, call by call. -/
def Runs (program : List (Monitor.Request θ Access)) : Prop :=
  ∃ asked, List.Forall₂ Call.Requests thread.calls asked ∧ program = asked.flatten

/-- The loop makes the calls of every message. -/
theorem calls_eq : thread.calls = messages.flatMap thread.parser.callsFor := by
  have wellFormed : ∀ group ∈ thread.groups, ∀ message ∈ group, message.WellFormed := by
    intro group listed message member
    refine thread.wellFormed message ?_
    rw [← thread.packing]
    exact List.mem_flatten.mpr ⟨group, listed, member⟩
  rw [calls, thread.parser.receiveLoop_messages wellFormed thread.fits thread.packed,
    thread.packing]

/-- Run lemma: the feed steps asked for are those of the calls. -/
theorem steps_asked
    {calls : List Call}
    {asked : List (List (Monitor.Request θ Access))}
    (serves : List.Forall₂ Call.Requests calls asked) :
    (asked.flatten.flatMap Monitor.Request.labels).flatMap Access.steps =
      calls.flatMap Call.steps := by
  induction serves with
  | nil => rfl
  | cons first _ inductionHypothesis =>
      rw [List.flatten_cons, List.flatMap_append, List.flatMap_append, first.steps,
        inductionHypothesis, List.flatMap_cons]

variable {thread}

/-- The feed steps of the thread are those of its messages. -/
theorem Runs.steps
    {program : List (Monitor.Request θ Access)}
    (runs : thread.Runs program) :
    (program.flatMap Monitor.Request.labels).flatMap Access.steps =
      messages.flatMap WireMessage.steps := by
  obtain ⟨asked, serves, rfl⟩ := runs
  rw [steps_asked serves, calls_eq, List.flatMap_assoc]
  congr 1
  funext message
  exact TaifexParser.steps_callsFor thread.attached message

end ReceiveThread

/-- The message on the wire. -/
def RealtimeMessage.wire : RealtimeMessage → WireMessage
  | .i024 pkt => .packet (.i024 pkt)
  | .i025 pkt => .packet (.i025 pkt)
  | .i081 pkt => .packet (.i081 pkt)
  | .i083 pkt => .packet (.i083 pkt)
  | .heartbeat received => .headerOnly received
  | .undecoded received => .headerOnly received

theorem RealtimeMessage.steps_wire (message : RealtimeMessage) :
    message.wire.steps = message.steps := by
  cases message <;> rfl

/-- The message on the wire. -/
def I084Packet.wire (pkt : I084Packet) : WireMessage := .packet (.i084 pkt)

section Threads

variable
  {θ : Type}
  {listeners : Listeners θ}
  {interpreted : θ → Bool}
  {program : θ → List (Monitor.Request θ Access)}
  {manager : OrderBookManager}
  {config : Monitor.Config OrderBookManager Access Aftermath Answer CallbackAction θ}
  {history : ExchangeHistory}
  {key : ProdKey}
  {channel : UInt16}
  {messages : List RealtimeMessage}
  {packets : List I084Packet}

/-- The threads of a process: two that receive, and others that ask. -/
structure ReceiveThreads
    (listeners : Listeners θ)
    (program : θ → List (Monitor.Request θ Access))
    (realtime snapshot : θ)
    (messages : List RealtimeMessage)
    (packets : List I084Packet) : Prop where
  different : realtime ≠ snapshot
  realtimeFeed : ∃ thread : ReceiveThread (messages.map RealtimeMessage.wire),
    thread.Runs (program realtime)
  snapshotFeed : ∃ thread : ReceiveThread (packets.map I084Packet.wire),
    thread.Runs (program snapshot)
  others : ∀ thread, thread ≠ realtime → thread ≠ snapshot →
    ∀ request ∈ program thread, request.Asks
  callbacks : ∀ thread action, ∀ requests ∈ listeners.reactions thread action,
    ∀ request ∈ requests, request.Asks

namespace ReceiveThreads

variable {realtime snapshot : θ}

/-- No callback feeds the manager. -/
theorem silent
    (threads : ReceiveThreads listeners program realtime snapshot messages packets)
    (thread : θ)
    (action : CallbackAction) :
    ∀ requests ∈ (OrderBookManager.monitor listeners).reactions thread action,
      (requests.flatMap Monitor.Request.labels).flatMap Access.steps = [] := by
  intro requests reacts
  rw [List.flatMap_assoc, List.flatMap_eq_nil_iff]
  exact fun request asked =>
    (threads.callbacks thread action requests reacts request asked).steps

variable [DecidableEq θ]

/-- What the realtime thread has fed and what it has left are its messages. -/
theorem fed_realtime
    (threads : ReceiveThreads listeners program realtime snapshot messages packets)
    (reachable : (OrderBookManager.monitor listeners).Reachable
      (Monitor.start manager interpreted program) config) :
    (config.labelsOf realtime).flatMap Access.steps ++
        (Monitor.remaining (config.stack realtime)).flatMap Access.steps =
      messages.flatMap RealtimeMessage.steps := by
  obtain ⟨thread, runs⟩ := threads.realtimeFeed
  rw [reachable.counted_in_order Access.steps (threads.silent realtime), runs.steps,
    List.flatMap_map]
  exact congrArg (List.flatMap · messages) (funext RealtimeMessage.steps_wire)

/-- What the snapshot thread has fed and what it has left are its packets. -/
theorem fed_snapshot
    (threads : ReceiveThreads listeners program realtime snapshot messages packets)
    (reachable : (OrderBookManager.monitor listeners).Reachable
      (Monitor.start manager interpreted program) config) :
    (config.labelsOf snapshot).flatMap Access.steps ++
        (Monitor.remaining (config.stack snapshot)).flatMap Access.steps =
      packets.flatMap I084Packet.steps := by
  obtain ⟨thread, runs⟩ := threads.snapshotFeed
  rw [reachable.counted_in_order Access.steps (threads.silent snapshot), runs.steps,
    List.flatMap_map]
  rfl

/-- What has been fed merges what the two receive threads have fed. -/
theorem merged
    (threads : ReceiveThreads listeners program realtime snapshot messages packets)
    (reachable : (OrderBookManager.monitor listeners).Reachable
      (Monitor.start manager interpreted program) config) :
    Interleaving ((config.labelsOf realtime).flatMap Access.steps)
      ((config.labelsOf snapshot).flatMap Access.steps)
      (config.labels.flatMap Access.steps) := by
  refine config.interleaving Access.steps threads.different ?_
  refine reachable.legal (fun thread accessed => thread ≠ realtime → thread ≠ snapshot →
    accessed.steps = []) ⟨?_, ?_⟩
  · intro thread request asked accessed labelled notRealtime notSnapshot
    exact threads.others thread notRealtime notSnapshot request asked accessed labelled
  · intro thread action requests reacts request asked accessed labelled _ _
    exact threads.callbacks thread action requests reacts request asked accessed labelled

/-- Run lemma: the two feeds' invariant holds before every access that has ended. -/
theorem twoFeeds
    (threads : ReceiveThreads listeners program realtime snapshot messages packets)
    (delivers : DeliversAll history key channel none 0 messages)
    (onCarousel : ∀ pkt ∈ packets, pkt.OnCarousel history key channel)
    (blank : manager.Blank)
    (reachable : (OrderBookManager.monitor listeners).Reachable
      (Monitor.start manager interpreted program) config) :
    TwoFeeds history key channel
      ((Monitor.remaining (config.stack realtime)).flatMap Access.steps)
      (OrderBookManager.step.final manager (config.labels.flatMap Access.steps)) ∧
    ∀ before after, config.labels = before ++ after → ∃ left,
      TwoFeeds history key channel left
        (OrderBookManager.step.final manager (before.flatMap Access.steps)) := by
  have allowed : ∀ step ∈ (config.labelsOf snapshot).flatMap Access.steps,
      step.FromCarousel history key channel := by
    intro step member
    have listed := List.mem_append_left
      ((Monitor.remaining (config.stack snapshot)).flatMap Access.steps) member
    rw [threads.fed_snapshot reachable] at listed
    obtain ⟨pkt, sent, made⟩ := List.mem_flatMap.mp listed
    exact (onCarousel pkt sent).fromCarousel step made
  generalize left : (Monitor.remaining (config.stack realtime)).flatMap Access.steps = rest
  have start : TwoFeeds history key channel
      ((config.labelsOf realtime).flatMap Access.steps ++ rest) manager := by
    rw [← left, threads.fed_realtime reachable]
    exact ⟨none, 0, delivers.remaining, Converging.blank blank⟩
  obtain ⟨final, earlier⟩ := (threads.merged reachable).invariant_final
    (fun left manager => TwoFeeds history key channel (left ++ rest) manager)
    (fun step left _ => TwoFeeds.realtime step (left ++ rest))
    (fun step left _ => TwoFeeds.carousel step (left ++ rest)) allowed start
  refine ⟨final, fun before after split => ?_⟩
  obtain ⟨toCome, feeds⟩ := earlier (before.flatMap Access.steps)
    (after.flatMap Access.steps) (by rw [split, List.flatMap_append])
  exact ⟨_, feeds⟩

/-- Nothing that has been fed resets the manager. -/
theorem not_reset
    (threads : ReceiveThreads listeners program realtime snapshot messages packets)
    (delivers : DeliversAll history key channel none 0 messages)
    (onCarousel : ∀ pkt ∈ packets, pkt.OnCarousel history key channel)
    (reachable : (OrderBookManager.monitor listeners).Reachable
      (Monitor.start manager interpreted program) config) :
    ∀ accessed ∈ config.labels, ∀ fed ∈ accessed.steps, fed.isReset = false := by
  have ofRealtime : ∀ fed ∈ (config.labelsOf realtime).flatMap Access.steps,
      fed.isReset = false := by
    intro fed member
    refine delivers.remaining.not_reset fed ?_
    rw [← threads.fed_realtime reachable]
    exact List.mem_append_left _ member
  have ofSnapshot : ∀ fed ∈ (config.labelsOf snapshot).flatMap Access.steps,
      fed.isReset = false := by
    intro fed member
    have listed := List.mem_append_left
      ((Monitor.remaining (config.stack snapshot)).flatMap Access.steps) member
    rw [threads.fed_snapshot reachable] at listed
    obtain ⟨pkt, sent, made⟩ := List.mem_flatMap.mp listed
    exact ((onCarousel pkt sent).fromCarousel fed made).not_reset
  intro accessed labelled fed isStep
  have member : fed ∈ config.labels.flatMap Access.steps :=
    List.mem_flatMap.mpr ⟨accessed, labelled, isStep⟩
  rcases (threads.merged reachable).mem member with realtimeFed | snapshotFed
  · exact ofRealtime fed realtimeFed
  · exact ofSnapshot fed snapshotFed

end ReceiveThreads

/-- From the datagrams of two sockets to the callbacks.  Let the datagrams of one
receive thread carry every message of a realtime channel in order, and those of
another truthful snapshot blocks on another channel, both packed in any way that fits
the buffer of the receive loop; let the other threads, and all callbacks on all threads,
only register, unregister and ask, as they like.  However the instructions of all threads are mixed, every copy of the product
that a callback is invoked with, and every book of the product that `get_book`
returns, is fresh and is the exchange's book after its serial.  When the realtime
thread has finished and no thread is inside the mutex, the product carries the
exchange's last book, wherever the other threads are. -/
theorem receive_threads_converge
    [DecidableEq θ]
    {realtime snapshot : θ}
    (threads : ReceiveThreads listeners program realtime snapshot messages packets)
    (delivers : DeliversAll history key channel none 0 messages)
    (onCarousel : ∀ pkt ∈ packets, pkt.OnCarousel history key channel)
    (blank : manager.Blank)
    (reachable : (OrderBookManager.monitor listeners).Reachable
      (Monitor.start manager interpreted program) config) :
    (∀ book, Seen config book → book.prodId.key = key →
      book.isStale = false ∧
        book.ladder = (history.bookAfter book.lastProdMsgSeq.toNat).ladder) ∧
    (config.stack realtime = [] → config.mutex = none → 0 < history.length →
      ∃ st, config.shared.productAt key = some st ∧ st.isStale = false ∧
        st.lastSerial = history.length ∧
        st.book.ladder = (history.bookAfter history.length).ladder) := by
  obtain ⟨final, earlier⟩ := threads.twoFeeds delivers onCarousel blank reachable
  refine ⟨fun book seen addressed => ?_, fun finished free positive => ?_⟩
  · obtain ⟨before, after, st, split, found, copy⟩ := seen.stamped blank.keyed reachable
      (threads.not_reset delivers onCarousel reachable)
    obtain ⟨left, _, _, _, converging⟩ := earlier before after split
    rw [addressed, (OrderBookManager.sameBooks_accessing manager before).productAt] at found
    obtain ⟨fresh, _, sound⟩ := converging.product st found
    rw [copy]
    exact ⟨fresh, sound.ladders (Or.inl (st.isStale_eq_false_iff.mp fresh).1)⟩
  · rw [finished] at final
    rw [reachable.linearised.idle free, OrderBookManager.sequential_monitor,
      (OrderBookManager.sameBooks_accessing manager config.labels).productAt]
    obtain ⟨absent, complete⟩ := final.finished
    cases found : (OrderBookManager.step.final manager
        (config.labels.flatMap Access.steps)).productAt key with
    | none =>
        have empty := absent found
        omega
    | some st => exact ⟨st, rfl, final.fresh found, complete st found⟩

end Threads

namespace TwoSockets

open Builders

/-- A header that fits in front of a body. -/
def header (kind : Char) (channelId bodyLen : UInt16) : Header :=
  { makeHeader kind 1 channelId with
    infoTime := TaifexParser.sampleTrade.header.infoTime
    bodyLen := bodyLen }

/-- The one message of the product. -/
def increment : I081Packet :=
  { makeI081 kProd 1 [makeEntry '0' '0' 10315 4 1] 1 with
    header := header 'A' kRtChannel 39 }

/-- The carousel with the book after it. -/
def refresh : I084Packet :=
  { makeI084 [makeI084Product kProd 1 [makeSnapshotEntry '0' 10315 4 1]] 1 with
    header := header 'C' kSnapChannel 40 }

theorem increment_wellFormed : WireMessage.WellFormed (.packet (.i081 increment)) := by
  refine ⟨⟨by decide, by decide, ⟨fun _ => 7, rfl⟩, by decide, by decide, by decide +kernel,
    by decide +kernel⟩, rfl, by decide +kernel, rfl, by decide, ?_⟩
  exact List.forall_mem_singleton.mpr
    ⟨by decide, by decide, by decide, by decide, by decide, by decide⟩

theorem refresh_wellFormed : refresh.wire.WellFormed := by
  refine ⟨⟨by decide, by decide, ⟨fun _ => 7, rfl⟩, by decide, by decide, by decide +kernel,
    by decide +kernel⟩, rfl, .orders rfl rfl rfl (by decide) ?_⟩
  refine List.forall_mem_singleton.mpr ⟨by decide +kernel, rfl, by decide, ?_⟩
  exact List.forall_mem_singleton.mpr ⟨by decide, by decide, by decide, by decide, by decide⟩

/-- A receive thread whose socket delivers one message, with a raw callback for
increments. -/
def receiving
    (message : WireMessage)
    (wellFormed : message.WellFormed)
    (fits : message.encode.length ≤ TaifexParser.bufferSize) :
    ReceiveThread [message] where
  parser :=
    { bookMgr := true, onI024 := false, onI025 := false, onI081 := true
      onI083 := false, onI084 := false }
  attached := rfl
  wellFormed := List.forall_mem_singleton.mpr wellFormed
  groups := [[message]]
  packing := rfl
  fits := by
    rw [List.forall_mem_singleton, List.flatMap_singleton]
    exact fits
  receptions := [.arrived ([message].flatMap WireMessage.encode) fun _ => 7]
  packed := rfl
  buffer := Vector.replicate TaifexParser.bufferSize 7

/-- A callback that asks for the book again. -/
def react : CallbackAction → List (Monitor.Request (Fin 3) Access)
  | .invoke _ _ => [.enter true [.getBook kProd]]
  | .drop _ => []

def listeners : Listeners (Fin 3) where
  interpreted := fun callback => callback = 7
  reactions := fun _ action => {react action}

/-- The two receive threads, of which one asks for the book in its raw callback, and
one that asks for it twice. -/
def program : Fin 3 → List (Monitor.Request (Fin 3) Access)
  | 0 =>
      [feeding [.header increment.header], feeding [.i081 increment],
        .enter true [.getBook kProd]]
  | 1 => [feeding [.header refresh.header], feeding refresh.blocks]
  | 2 => [.enter true [.getBook kProd], .enter true [.getBook kProd]]

theorem threads :
    ReceiveThreads listeners program 0 1 [.i081 increment] [refresh] where
  different := by decide
  realtimeFeed := by
    refine ⟨receiving _ increment_wellFormed (by decide +kernel),
      [[feeding [.header increment.header]], [feeding [.i081 increment]],
        [.enter true [.getBook kProd]]], ?_, rfl⟩
    rw [ReceiveThread.calls_eq]
    exact .cons .onHeader (.cons .feed
      (.cons (.callback (List.forall_mem_singleton.mpr (by decide))) .nil))
  snapshotFeed := by
    refine ⟨receiving _ refresh_wellFormed (by decide +kernel),
      [[feeding [.header refresh.header]], [feeding refresh.blocks]], ?_, rfl⟩
    rw [ReceiveThread.calls_eq]
    exact .cons .onHeader (.cons .feed .nil)
  others := by decide
  callbacks := by
    intro thread action requests reacts request member
    obtain rfl : requests = react action := reacts
    cases action with
    | invoke callback book =>
        rw [List.mem_singleton.mp member]
        exact List.forall_mem_singleton.mpr rfl
    | drop callback => cases member

/-- The threads take turns, instruction by instruction, to their ends. -/
def whole : List (Fin 3) := (List.replicate 120 [0, 1, 2]).flatten

def after (schedule : List (Fin 3)) :
    Monitor.Config OrderBookManager Access Aftermath Answer CallbackAction (Fin 3) :=
  Monitor.play (OrderBookManager.monitor listeners) (fun _ => react)
    (Monitor.start (OrderBookManager.registerCallbackAll {} 7) (fun thread => thread = 2)
      program)
    schedule

theorem onCarousel : ∀ pkt ∈ [refresh],
    pkt.OnCarousel [.i081 [makeEntry '0' '0' 10315 4 1]] kProd kRtChannel :=
  List.forall_mem_singleton.mpr ⟨by decide, by decide, fun _ => by decide⟩

end TwoSockets

/-- Both threads feed the manager at the same time, while a third asks. -/
theorem receive_threads_converge_mixed :
    ∃ st, (TwoSockets.after TwoSockets.whole).shared.productAt Builders.kProd = some st ∧
      st.isStale = false ∧ st.lastSerial = 1 ∧
      st.book.ladder =
        (ExchangeHistory.bookAfter [.i081 [Builders.makeEntry '0' '0' 10315 4 1]] 1).ladder :=
  (receive_threads_converge TwoSockets.threads (by decide) TwoSockets.onCarousel
    ⟨rfl, rfl⟩ (Monitor.reachable_play (fun _ _ => rfl) _ TwoSockets.whole)).2
    (List.isEmpty_iff.mp (by decide +kernel)) (by decide +kernel) (by decide)

end TaifexResolver
