import TaifexResolver.Parser.Decode

/-!
# From datagrams to calls

`process_datagram` cuts a datagram at its terminators, and `process_raw_data`
checks, decodes and dispatches one segment.  The effects of the parser are the
calls it makes, in order: the manager's `on_header` and typed feeds, and the
registered raw callbacks.  Beside them each run returns the indices it read.
-/

namespace TaifexResolver

/-- A decoded packet. -/
inductive Packet
  | i024 (pkt : I024Packet)
  | i025 (pkt : I025Packet)
  | i081 (pkt : I081Packet)
  | i083 (pkt : I083Packet)
  | i084 (pkt : I084Packet)
  deriving DecidableEq

/-- A call the parser makes. -/
inductive Call
  | onHeader (header : Header)
  | feed (pkt : Packet)
  | callback (pkt : Packet)
  deriving DecidableEq

/-- Whether a call is a typed feed or a raw callback. -/
def Call.isTyped : Call → Bool
  | .onHeader _ => false
  | .feed _ => true
  | .callback _ => true

/-- What is attached to a parser: a manager, and a raw callback for each type. -/
structure TaifexParser where
  bookMgr : Bool
  onI024 : Bool
  onI025 : Bool
  onI081 : Bool
  onI083 : Bool
  onI084 : Bool

/-- What processing one segment does. -/
structure Outcome where
  calls : List Call := []
  /-- What the handler returned, if one ran. -/
  handled : Option Bool := none
  /-- The indices read, in order, relative to the segment. -/
  reads : List Nat := []

/-- A part of a datagram that is handed to `process_raw_data`. -/
structure Segment where
  start : Nat
  length : Nat
  deriving DecidableEq

namespace TaifexParser

variable (parser : TaifexParser)

/-- Whether a raw callback is registered for a packet's type. -/
def registered : Packet → Bool
  | .i024 _ => parser.onI024
  | .i025 _ => parser.onI025
  | .i081 _ => parser.onI081
  | .i083 _ => parser.onI083
  | .i084 _ => parser.onI084

/-- `if (book_mgr_) book_mgr_->on_header(header);`. -/
def notify (received : Header) : List Call :=
  if parser.bookMgr then [.onHeader received] else []

/-- The typed feed, then the raw callback. -/
def deliver (pkt : Packet) : List Call :=
  (if parser.bookMgr then [.feed pkt] else []) ++
    if parser.registered pkt then [.callback pkt] else []

/-! ## Handlers -/

/-- A handler that decodes the body at index 19 and delivers the packet. -/
def handle {α : Type} (data : Memory) (decoder : Decoder α) (wrap : α → Packet) :
    Outcome :=
  let body := decoder.decode data 19
  { calls := parser.deliver (wrap body.value)
    handled := some true
    reads := body.reads }

/-- `handle_i024`. -/
def handleI024 (data : Memory) (header : Header) : Outcome :=
  parser.handle data (i024Packet header) .i024

/-- `handle_i025`, which checks the segment's length first. -/
def handleI025 (data : Memory) (length : Nat) (header : Header) : Outcome :=
  if length < 19 + 43 + 3 then { handled := some false }
  else parser.handle data (i025Packet header) .i025

/-- `handle_i081`. -/
def handleI081 (data : Memory) (header : Header) : Outcome :=
  parser.handle data (i081Packet header) .i081

/-- `handle_i083`. -/
def handleI083 (data : Memory) (header : Header) : Outcome :=
  parser.handle data (i083Packet header) .i083

/-- `handle_i084`. -/
def handleI084 (data : Memory) (header : Header) : Outcome :=
  parser.handle data (i084Packet header) .i084

/-- The switch over the message kind. -/
def dispatch (data : Memory) (length : Nat) (header : Header) : Outcome :=
  if header.messageKind = 'D'.toUInt8 then parser.handleI024 data header
  else if header.messageKind = 'E'.toUInt8 then parser.handleI025 data length header
  else if header.messageKind = 'A'.toUInt8 then parser.handleI081 data header
  else if header.messageKind = 'B'.toUInt8 then parser.handleI083 data header
  else if header.messageKind = 'C'.toUInt8 then parser.handleI084 data header
  else {}

/-- The message kinds that the switch has a handler for. -/
def decodedKinds : List UInt8 := ['A', 'B', 'C', 'D', 'E'].map Char.toUInt8

/-- A kind without a handler makes no further call. -/
theorem dispatch_undecoded
    {received : Header}
    (undecoded : received.messageKind ∉ decodedKinds)
    (data : Memory)
    (length : Nat) :
    parser.dispatch data length received = {} := by
  simp only [decodedKinds, List.map_cons, List.map_nil, List.mem_cons,
    List.not_mem_nil, or_false, not_or] at undecoded
  obtain ⟨notI081, notI083, notI084, notI024, notI025⟩ := undecoded
  rw [dispatch, if_neg notI024, if_neg notI025, if_neg notI081, if_neg notI083,
    if_neg notI084]

/-! ## Segments -/

/-- `verify_checksum`: whether the exclusive or of bytes 1 to `len - 4` is byte
`len - 3`, and the indices read. -/
def verifyChecksum (data : Memory) (len : Nat) : Bool × List Nat :=
  if len < 4 then (false, [])
  else
    let calculatedXor := (data.slice 1 (len - 4)).foldl (· ^^^ ·) 0
    (calculatedXor = data (len - 3), List.range' 1 (len - 4) ++ [len - 3])

/-- `ESC_CODE`. -/
def escCode : UInt8 := 0x1B

/-- `process_raw_data`. -/
def processRawData (data : Memory) (length : Nat) : Outcome :=
  if length < 20 then {}
  else if data 0 ≠ escCode then { reads := [0] }
  else
    let checked := verifyChecksum data length
    if checked.1 = false then { reads := 0 :: checked.2 }
    else
      let header := TaifexParser.header.decode data 1
      let outcome := parser.dispatch data length header.value
      { calls := parser.notify header.value ++ outcome.calls
        handled := outcome.handled
        reads := 0 :: checked.2 ++ header.reads ++ outcome.reads }

/-- A segment that passes the checks of `process_raw_data`. -/
def Accepted (data : Memory) (length : Nat) : Prop :=
  20 ≤ length ∧ data 0 = escCode ∧ (verifyChecksum data length).1 = true

instance (data : Memory) (length : Nat) : Decidable (Accepted data length) :=
  inferInstanceAs (Decidable (_ ∧ _))

/-- A segment that passes the checks is announced and dispatched. -/
theorem processRawData_accepted
    {data : Memory}
    {length : Nat}
    (accepted : Accepted data length) :
    let received := (header.decode data 1).value
    let outcome := parser.dispatch data length received
    parser.processRawData data length =
      { calls := parser.notify received ++ outcome.calls
        handled := outcome.handled
        reads := 0 :: (verifyChecksum data length).2 ++ List.range' 1 18 ++
          outcome.reads } := by
  obtain ⟨atLeast, escaped, checked⟩ := accepted
  have reads : (header.decode data 1).reads = List.range' 1 18 :=
    header.contiguous data 1
  simp only [processRawData, if_neg (Nat.not_lt_of_le atLeast),
    if_neg (not_not.mpr escaped), checked, Bool.true_eq_false, if_false, reads]

/-- The loop of `process_datagram` from `i` on, with its remaining passes: the
segments that end at a terminator. -/
def segmentsFrom (data : Memory) : Nat → Nat → Nat → List Segment
  | 0, _, _ => []
  | remaining + 1, i, startPos =>
      if data i = 0x0D ∧ data (i + 1) = 0x0A then
        { start := startPos, length := i + 2 - startPos } ::
          segmentsFrom data remaining (i + 1) (i + 2)
      else segmentsFrom data remaining (i + 1) startPos

/-- The segments of a datagram. -/
def segments (data : Memory) (len : Nat) : List Segment :=
  if len < 2 then [] else segmentsFrom data (len - 1) 0 0

/-- `process_datagram`: the calls made for each segment, in order. -/
def processDatagram (data : Memory) (len : Nat) : List Call :=
  (segments data len).flatMap fun segment =>
    (parser.processRawData (data.advance segment.start) segment.length).calls

end TaifexParser
end TaifexResolver
