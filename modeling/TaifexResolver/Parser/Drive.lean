import TaifexResolver.OrderBook.Step
import TaifexResolver.Parser.Packing

/-!
# The manager behind the parser

The calls of a parser reach the manager as critical sections.  A parser with a
manager attached therefore drives it, datagram by datagram, through the steps of
the messages it decodes, and what holds of every run of the manager holds of it.
-/

namespace TaifexResolver

namespace OrderBookManager

/-- What a call of the parser makes the manager do.  A raw callback goes to the
parser's own listener. -/
def serve : Machine OrderBookManager Call Delivery := fun manager call =>
  match call with
  | .onHeader received => manager.onHeader received
  | .feed (.i024 pkt) => manager.onI024 pkt
  | .feed (.i025 pkt) => manager.onI025 pkt
  | .feed (.i081 pkt) => manager.onI081 pkt
  | .feed (.i083 pkt) => manager.onI083 pkt
  | .feed (.i084 pkt) => manager.onI084 pkt
  | .callback _ => (manager, [])

end OrderBookManager

/-- The critical sections of a typed feed. -/
def Packet.steps : Packet → List Step
  | .i024 pkt => [.i024 pkt]
  | .i025 pkt => [.i025 pkt]
  | .i081 pkt => [.i081 pkt]
  | .i083 pkt => [.i083 pkt]
  | .i084 pkt => pkt.blocks

/-- The critical sections of a call. -/
def Call.steps : Call → List Step
  | .onHeader received => [.header received]
  | .feed pkt => pkt.steps
  | .callback _ => []

/-- The critical sections a message asks for. -/
def WireMessage.steps : WireMessage → List Step
  | .packet pkt => .header pkt.header :: pkt.steps
  | .headerOnly received => [.header received]

namespace OrderBookManager

/-- A call runs its critical sections. -/
theorem serve_eq_run (manager : OrderBookManager) (call : Call) :
    manager.serve call = OrderBookManager.step.run manager call.steps := by
  have single : ∀ step : Step, manager.step step =
      OrderBookManager.step.run manager [step] := fun step =>
    Prod.ext rfl (List.append_nil _).symm
  cases call with
  | onHeader received => exact single (.header received)
  | callback pkt => rfl
  | feed pkt =>
      cases pkt with
      | i024 pkt => exact single (.i024 pkt)
      | i025 pkt => exact single (.i025 pkt)
      | i081 pkt => exact single (.i081 pkt)
      | i083 pkt => exact single (.i083 pkt)
      | i084 pkt => exact manager.onI084_eq_run pkt

end OrderBookManager

namespace TaifexParser

/-- The calls for a message are its critical sections, when a manager is
attached. -/
theorem steps_callsFor
    {parser : TaifexParser}
    (attached : parser.bookMgr = true)
    (message : WireMessage) :
    (parser.callsFor message).flatMap Call.steps = message.steps := by
  cases message with
  | headerOnly received =>
      rw [callsFor, if_pos attached]
      rfl
  | packet pkt =>
      rw [callsFor, if_pos attached]
      split
      · exact congrArg (Step.header pkt.header :: ·) (List.append_nil pkt.steps)
      · exact congrArg (Step.header pkt.header :: ·) (List.append_nil pkt.steps)

/-- A parser of well-formed messages, however packed, takes the manager through
exactly their critical sections, with the deliveries these make. -/
theorem serve_processDatagrams
    {parser : TaifexParser}
    (attached : parser.bookMgr = true)
    (groups : List (List WireMessage))
    (wellFormed : ∀ group ∈ groups, ∀ message ∈ group, message.WellFormed)
    (datagrams : List Datagram)
    (carried : List.Forall₂ Datagram.Carries datagrams groups)
    (manager : OrderBookManager) :
    OrderBookManager.serve.run manager (parser.processDatagrams datagrams) =
      OrderBookManager.step.run manager
        (groups.flatten.flatMap WireMessage.steps) := by
  rw [Machine.run_refined OrderBookManager.serve_eq_run,
    parser.processDatagrams_messages wellFormed carried, List.flatMap_assoc]
  congr 2
  funext message
  exact steps_callsFor attached message

end TaifexParser
end TaifexResolver
