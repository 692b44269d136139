import TaifexResolver.Parser.Packing

/-!
# The receive loop

`receive_loop` reads one datagram after another into one buffer of 4096 bytes and
processes the bytes received.  Behind them the buffer still holds what earlier
datagrams left there.  The loop behaves as if each datagram had a memory of its own,
as in file mode, as long as the parser only reads the bytes received.
-/

namespace TaifexResolver
namespace TaifexParser

open Decoder

/-! ## Locality of the parser -/

section Fields

theorem bcd_isLocal (len : Nat) : IsLocal (bcd len) := (IsLocal.block len).map _

theorem prodId_isLocal : IsLocal prodId := (IsLocal.block 20).map _

theorem bcdTime_isLocal : IsLocal bcdTime := (IsLocal.block 6).map _

theorem header_isLocal : IsLocal header :=
  .bind .byte fun _ => .bind .byte fun _ => .bind bcdTime_isLocal fun _ =>
    .bind (bcd_isLocal 2) fun _ => .bind (bcd_isLocal 5) fun _ =>
    .bind (bcd_isLocal 1) fun _ => .bind (bcd_isLocal 2) fun _ => .pure _

theorem matchData_isLocal : IsLocal matchData :=
  .bind .byte fun _ => .bind (bcd_isLocal 5) fun _ => .bind (bcd_isLocal 2) fun _ => .pure _

theorem mdEntry_isLocal : IsLocal mdEntry :=
  .bind .byte fun _ => .bind .byte fun _ => .bind .byte fun _ =>
    .bind (bcd_isLocal 5) fun _ => .bind (bcd_isLocal 4) fun _ =>
    .bind (bcd_isLocal 1) fun _ => .pure _

theorem snapshotEntry_isLocal : IsLocal snapshotEntry :=
  .bind .byte fun _ => .bind .byte fun _ => .bind (bcd_isLocal 5) fun _ =>
    .bind (bcd_isLocal 4) fun _ => .bind (bcd_isLocal 1) fun _ => .pure _

theorem i084Product_isLocal : IsLocal i084Product :=
  .bind prodId_isLocal fun _ => .bind (bcd_isLocal 5) fun _ =>
    .bind (bcd_isLocal 1) fun _ => .bind (snapshotEntry_isLocal.times _) fun _ => .pure _

theorem i024Packet_isLocal (header : Header) : IsLocal (i024Packet header) :=
  .bind prodId_isLocal fun _ => .bind (bcd_isLocal 5) fun _ => .bind .byte fun _ =>
    .bind bcdTime_isLocal fun _ => .bind .byte fun _ => .bind (bcd_isLocal 5) fun _ =>
    .bind (bcd_isLocal 4) fun _ => .bind .byte fun _ =>
    .bind (matchData_isLocal.times _) fun _ => .bind (bcd_isLocal 4) fun _ =>
    .bind (bcd_isLocal 4) fun _ => .bind (bcd_isLocal 4) fun _ => .pure _

theorem i025Packet_isLocal (header : Header) : IsLocal (i025Packet header) :=
  .bind prodId_isLocal fun _ => .bind (bcd_isLocal 5) fun _ => .bind .byte fun _ =>
    .bind (bcd_isLocal 5) fun _ => .bind .byte fun _ => .bind (bcd_isLocal 5) fun _ =>
    .bind bcdTime_isLocal fun _ => .pure _

theorem i081Packet_isLocal (header : Header) : IsLocal (i081Packet header) :=
  .bind prodId_isLocal fun _ => .bind (bcd_isLocal 5) fun _ =>
    .bind (bcd_isLocal 1) fun _ => .bind (mdEntry_isLocal.times _) fun _ => .pure _

theorem i083Packet_isLocal (header : Header) : IsLocal (i083Packet header) :=
  .bind prodId_isLocal fun _ => .bind (bcd_isLocal 5) fun _ => .bind .byte fun _ =>
    .bind (bcd_isLocal 1) fun _ => .bind (snapshotEntry_isLocal.times _) fun _ => .pure _

theorem i084Packet_isLocal (header : Header) : IsLocal (i084Packet header) := by
  refine .bind .byte fun messageType => ?_
  unfold i084Body
  split
  · exact .bind (bcd_isLocal 5) fun _ => .pure _
  · split
    · exact .bind (bcd_isLocal 1) fun _ => .bind (i084Product_isLocal.times _) fun _ =>
        .pure _
    · exact .pure _

end Fields

variable (parser : TaifexParser) {data other : Memory}

theorem handle_congr
    {α : Type}
    {decoder : Decoder α}
    (isLocal : IsLocal decoder)
    (wrap : α → Packet)
    (agree : ∀ idx ∈ (parser.handle data decoder wrap).reads, data idx = other idx) :
    parser.handle data decoder wrap = parser.handle other decoder wrap := by
  rw [handle, handle, isLocal data other 19 agree]

/-- A handler's calls and reads depend only on the bytes it reads. -/
theorem dispatch_congr
    (length : Nat)
    (received : Header)
    (agree : ∀ idx ∈ (parser.dispatch data length received).reads,
      data idx = other idx) :
    parser.dispatch data length received = parser.dispatch other length received := by
  unfold dispatch at agree ⊢
  split
  · next isI024 =>
      rw [if_pos isI024] at agree
      exact parser.handle_congr (i024Packet_isLocal received) _ agree
  split
  · next notI024 isI025 =>
      rw [if_neg notI024, if_pos isI025] at agree
      unfold handleI025 at agree ⊢
      split
      · rfl
      · next fits =>
          rw [if_neg fits] at agree
          exact parser.handle_congr (i025Packet_isLocal received) _ agree
  split
  · next notI024 notI025 isI081 =>
      rw [if_neg notI024, if_neg notI025, if_pos isI081] at agree
      exact parser.handle_congr (i081Packet_isLocal received) _ agree
  split
  · next notI024 notI025 notI081 isI083 =>
      rw [if_neg notI024, if_neg notI025, if_neg notI081, if_pos isI083] at agree
      exact parser.handle_congr (i083Packet_isLocal received) _ agree
  split
  · next notI024 notI025 notI081 notI083 isI084 =>
      rw [if_neg notI024, if_neg notI025, if_neg notI081, if_neg notI083,
        if_pos isI084] at agree
      exact parser.handle_congr (i084Packet_isLocal received) _ agree
  · rfl

theorem verifyChecksum_congr
    (len : Nat)
    (agree : ∀ idx ∈ (verifyChecksum data len).2, data idx = other idx) :
    verifyChecksum data len = verifyChecksum other len := by
  unfold verifyChecksum at agree ⊢
  split
  · rfl
  · next atLeast =>
      rw [if_neg atLeast] at agree
      have covered : data.slice 1 (len - 4) = other.slice 1 (len - 4) :=
        Memory.slice_congr fun idx atLeastOne below => agree idx
          (List.mem_append_left _ (List.mem_range'_1.mpr ⟨atLeastOne, below⟩))
      have checksum : data (len - 3) = other (len - 3) :=
        agree (len - 3) (List.mem_append_right _ List.mem_cons_self)
      rw [covered, checksum]

/-- Processing a segment depends only on the bytes it reads. -/
theorem processRawData_congr
    (length : Nat)
    (agree : ∀ idx ∈ (parser.processRawData data length).reads, data idx = other idx) :
    parser.processRawData data length = parser.processRawData other length := by
  by_cases short : length < 20
  · rw [processRawData, processRawData, if_pos short, if_pos short]
  rw [processRawData, if_neg short] at agree
  rw [processRawData, processRawData, if_neg short, if_neg short]
  by_cases unescaped : data 0 ≠ escCode
  · rw [if_pos unescaped] at agree
    rw [← agree 0 List.mem_cons_self, if_pos unescaped, if_pos unescaped]
  rw [if_neg unescaped] at agree
  by_cases mismatch : (verifyChecksum data length).1 = false
  · simp only [if_pos mismatch] at agree
    have first := agree 0 List.mem_cons_self
    have checked := verifyChecksum_congr length fun idx read =>
      agree idx (List.mem_cons_of_mem 0 read)
    rw [if_neg unescaped, ← first, if_neg unescaped]
    simp only [← checked, if_pos mismatch]
  · simp only [if_neg mismatch] at agree
    have first := agree 0 List.mem_cons_self
    have checked : verifyChecksum data length = verifyChecksum other length :=
      verifyChecksum_congr length fun idx read => agree idx
        (List.mem_cons_of_mem 0 (List.mem_append_left _ (List.mem_append_left _ read)))
    have received : header.decode data 1 = header.decode other 1 :=
      header_isLocal data other 1 fun idx read => agree idx
        (List.mem_cons_of_mem 0 (List.mem_append_left _ (List.mem_append_right _ read)))
    have dispatched := parser.dispatch_congr length (header.decode data 1).value
      fun idx read => agree idx
        (List.mem_cons_of_mem 0 (List.mem_append_right _ read))
    rw [if_neg unescaped, ← first, if_neg unescaped]
    simp only [← checked, if_neg mismatch, ← received, ← dispatched]

/-- Two memories that begin with the same bytes are cut into the same segments. -/
theorem segments_congr
    {bytes : List UInt8}
    (held : data.Holds 0 bytes)
    (otherHeld : other.Holds 0 bytes) :
    segments data bytes.length = segments other bytes.length := by
  obtain ⟨frames, tail, cut⟩ := exists_cut (0x0D : UInt8) 0x0A bytes
  rw [segments_cut cut held, segments_cut cut otherHeld]

/-- Frames lie where they were laid out. -/
theorem frameLayout_within
    {start : Nat}
    {frames : List (List UInt8)}
    {segment : Segment}
    (listed : segment ∈ frameLayout start frames) :
    segment.start + segment.length ≤
      start + (frames.flatMap (closeRecord 0x0D 0x0A)).length := by
  induction frames generalizing start with
  | nil => cases listed
  | cons frame rest inductionHypothesis =>
      rw [List.flatMap_cons, List.length_append, length_closeRecord]
      rcases List.mem_cons.mp listed with rfl | later
      · simp only
        omega
      · have within := inductionHypothesis later
        omega

/-- A parser that reads each segment in bounds makes the same calls wherever the
datagram lies and whatever follows it. -/
theorem processDatagram_congr
    {bytes : List UInt8}
    (held : data.Holds 0 bytes)
    (otherHeld : other.Holds 0 bytes)
    (inBounds : ∀ segment ∈ segments data bytes.length,
      ∀ idx ∈ (parser.processRawData (data.advance segment.start) segment.length).reads,
        idx < segment.length) :
    parser.processDatagram data bytes.length =
      parser.processDatagram other bytes.length := by
  rw [processDatagram, processDatagram, ← segments_congr held otherHeld]
  refine List.flatMap_congr fun segment listed => ?_
  have within : segment.start + segment.length ≤ bytes.length := by
    obtain ⟨frames, tail, cut⟩ := exists_cut (0x0D : UInt8) 0x0A bytes
    rw [segments_cut cut held] at listed
    have inFrames := frameLayout_within listed
    rw [cut.covers, List.length_append]
    omega
  rw [parser.processRawData_congr segment.length fun idx read => ?_]
  have below := inBounds segment listed idx read
  exact Memory.agree_of_holds held otherHeld (by omega)

/-! ## The loop -/

/-- The size of `buffer`. -/
def bufferSize : Nat := 4096

/-- `uint8_t buffer[4096]`. -/
abbrev Buffer := Vector UInt8 bufferSize

/-- The buffer after `recvfrom`: the start of the payload, as much as fits, over what
was there. -/
def Buffer.receive (buffer : Buffer) (payload : List UInt8) : Buffer :=
  Vector.ofFn fun idx => payload.getD idx buffer[idx]

/-- What a pointer to the buffer reads: behind the buffer lies arbitrary memory. -/
def Buffer.memory (buffer : Buffer) (beyond : Memory) : Memory := fun idx =>
  if inside : idx < bufferSize then buffer[idx] else beyond idx

/-- What one pass of the loop finds. -/
inductive Reception
  /-- `running` is false. -/
  | stopped
  /-- `recvfrom` returns a negative length. -/
  | failed
  /-- A datagram, and what lies behind the buffer while it is processed. -/
  | arrived (payload : List UInt8) (beyond : Memory)

/-- The loop of `receive_loop`, until it ends or waits for a datagram. -/
def receiveLoop : Buffer → List Reception → List Call
  | _, [] => []
  | _, .stopped :: _ => []
  | _, .failed :: _ => []
  | buffer, .arrived payload beyond :: rest =>
      let received := buffer.receive payload
      let len := min payload.length bufferSize
      (if 0 < len then parser.processDatagram (received.memory beyond) len else []) ++
        receiveLoop received rest

/-- The payloads that arrive before the loop ends. -/
def payloads : List Reception → List (List UInt8)
  | [] => []
  | .stopped :: _ => []
  | .failed :: _ => []
  | .arrived payload _ :: rest => payload :: payloads rest

/-- The buffer begins with what was received. -/
theorem holds_receive (buffer : Buffer) (payload : List UInt8) (beyond : Memory) :
    ((buffer.receive payload).memory beyond).Holds 0 (payload.take bufferSize) := by
  refine List.ext_getElem (by simp) fun idx _ inside => ?_
  rw [List.length_take, Nat.lt_min] at inside
  simp [Memory.slice, Buffer.memory, Buffer.receive, inside.1, inside.2, List.getD]

/-- One pass of the loop processes what was received. -/
theorem receiveLoop_arrived
    (buffer : Buffer)
    (payload : List UInt8)
    (beyond : Memory)
    (rest : List Reception) :
    parser.receiveLoop buffer (.arrived payload beyond :: rest) =
      parser.processDatagram ((buffer.receive payload).memory beyond)
          (payload.take bufferSize).length ++
        parser.receiveLoop (buffer.receive payload) rest := by
  rw [receiveLoop, List.length_take, Nat.min_comm]
  split
  · rfl
  · next empty =>
      rw [Nat.eq_zero_of_not_pos empty]
      rfl

/-- Loop rule: what holds of one datagram in a buffer with any contents holds of the
loop. -/
theorem receiveLoop_eq
    (callsOf : List UInt8 → List Call)
    {receptions : List Reception}
    (single : ∀ payload ∈ payloads receptions, ∀ data : Memory,
      data.Holds 0 (payload.take bufferSize) →
      parser.processDatagram data (payload.take bufferSize).length = callsOf payload)
    (buffer : Buffer) :
    parser.receiveLoop buffer receptions = (payloads receptions).flatMap callsOf := by
  induction receptions generalizing buffer with
  | nil => rfl
  | cons reception rest inductionHypothesis =>
      cases reception with
      | stopped | failed => rfl
      | arrived payload beyond =>
          obtain ⟨now, later⟩ := List.forall_mem_cons.mp single
          rw [receiveLoop_arrived, inductionHypothesis later,
            now _ (holds_receive buffer payload beyond)]
          rfl

/-- A datagram whose segments, with zeros behind it, are read within their lengths. -/
def ReadsInBounds (bytes : List UInt8) : Prop :=
  ∀ segment ∈ segments (Memory.ofBytes bytes) bytes.length,
    ∀ idx ∈ (parser.processRawData ((Memory.ofBytes bytes).advance segment.start)
      segment.length).reads, idx < segment.length

instance (bytes : List UInt8) : Decidable (parser.ReadsInBounds bytes) := by
  unfold ReadsInBounds
  infer_instance

/-- Stale bytes do not leak from one datagram into the next.  Whatever the buffer and
the memory behind it hold, before the loop and during it, live mode makes the calls of
file mode: those made for each datagram in a memory of its own, cut to the buffer's
size.  Only datagrams whose segments are read in bounds may arrive. -/
theorem receive_loop_isolates_datagrams
    (receptions : List Reception)
    (inBounds : ∀ payload ∈ payloads receptions,
      parser.ReadsInBounds (payload.take bufferSize))
    (buffer : Buffer)
    (files : List UInt8 → Memory)
    (held : ∀ payload ∈ payloads receptions,
      (files payload).Holds 0 (payload.take bufferSize)) :
    parser.receiveLoop buffer receptions =
      parser.processDatagrams ((payloads receptions).map fun payload =>
        { data := files payload, len := (payload.take bufferSize).length }) := by
  rw [processDatagrams, List.flatMap_map]
  refine parser.receiveLoop_eq _ (fun payload arrives data received => ?_) buffer
  have zeros := Memory.holds_ofBytes (payload.take bufferSize)
  rw [← parser.processDatagram_congr zeros received (inBounds payload arrives)]
  exact parser.processDatagram_congr zeros (held payload arrives) (inBounds payload arrives)

/-- A heartbeat, then the same one cut short, with the first one still in the
buffer. -/
theorem receive_loop_isolates_datagrams_cut_short :
    let parser : TaifexParser :=
      { bookMgr := true, onI024 := false, onI025 := false, onI081 := false
        onI083 := false, onI084 := false }
    let heartbeat : List UInt8 :=
      [0x1B, 0x32, 0x31, 0x13, 0x15, 0x35, 0x12, 0x34, 0x56, 0x00, 0x01,
        0x00, 0x00, 0x00, 0x00, 0x02, 0x01, 0x00, 0x00, 0x42, 0x0D, 0x0A]
    let receptions : List Reception :=
      [.arrived heartbeat fun _ => 7, .arrived (heartbeat.take 21) fun _ => 0x0A, .stopped]
    parser.receiveLoop (Vector.replicate bufferSize 0) receptions =
      parser.processDatagrams ((payloads receptions).map fun payload =>
        { data := Memory.ofBytes (payload.take bufferSize)
          len := (payload.take bufferSize).length }) := by
  intro parser heartbeat receptions
  exact parser.receive_loop_isolates_datagrams receptions (by decide +kernel) _
    (fun payload => Memory.ofBytes (payload.take bufferSize))
    fun payload _ => Memory.holds_ofBytes _

/-- The messages that fit into some room, up to the first that does not. -/
def fitting : Nat → List WireMessage → List WireMessage
  | _, [] => []
  | room, message :: rest =>
      if message.encode.length ≤ room then
        message :: fitting (room - message.encode.length) rest
      else []

theorem fitting_subset (room : Nat) (messages : List WireMessage) :
    ∀ message ∈ fitting room messages, message ∈ messages := by
  induction messages generalizing room with
  | nil => exact fun _ member => member
  | cons first rest inductionHypothesis =>
      intro message member
      rw [fitting] at member
      split at member
      · rcases List.mem_cons.mp member with rfl | later
        · exact List.mem_cons_self
        · exact List.mem_cons_of_mem _ (inductionHypothesis _ message later)
      · cases member

/-- Messages fit when their bytes do. -/
theorem fitting_of_length_le
    {room : Nat}
    {messages : List WireMessage}
    (fits : (messages.flatMap WireMessage.encode).length ≤ room) :
    fitting room messages = messages := by
  induction messages generalizing room with
  | nil => rfl
  | cons message rest inductionHypothesis =>
      rw [List.flatMap_cons, List.length_append] at fits
      rw [fitting, if_pos (by omega), inductionHypothesis (by omega)]

/-- A datagram of well-formed messages that is cut off is cut at the ends of those that
fit: what is left of the next one holds no terminator. -/
theorem cut_fitting
    {messages : List WireMessage}
    (wellFormed : ∀ message ∈ messages, message.WellFormed)
    (room : Nat) :
    ∃ tail, Cut 0x0D 0x0A ((messages.flatMap WireMessage.encode).take room)
      ((fitting room messages).map WireMessage.frame) tail := by
  induction messages generalizing room with
  | nil => exact ⟨[], ⟨by simp [fitting], by simp [fitting], .nil⟩⟩
  | cons message rest inductionHypothesis =>
      obtain ⟨wellFormedHead, wellFormedRest⟩ := List.forall_mem_cons.mp wellFormed
      rw [List.flatMap_cons, List.take_append, fitting]
      split
      · next fits =>
          obtain ⟨tail, cut⟩ := inductionHypothesis wellFormedRest
            (room - message.encode.length)
          have head := cut_messages (List.forall_mem_singleton.mpr wellFormedHead)
          rw [List.flatMap_singleton] at head
          rw [List.take_of_length_le fits]
          exact ⟨tail, head.append cut⟩
      · next cutOff =>
          have shorter : room - message.encode.length = 0 := by omega
          rw [shorter, List.take_zero, List.append_nil]
          refine ⟨_, rfl, by simp, ?_⟩
          have spelled : message.encode = (message.frame ++ [0x0D]) ++ [0x0A] := by
            rw [WireMessage.encode, List.append_assoc]
            rfl
          rw [spelled, List.length_append] at cutOff
          rw [spelled, List.take_append_of_le_length (by simp at cutOff ⊢; omega)]
          exact (WireMessage.terminatorFree_frame wellFormedHead).take room

/-- A datagram that is cut off makes the calls of the messages that fit. -/
theorem processDatagram_fitting
    {messages : List WireMessage}
    (wellFormed : ∀ message ∈ messages, message.WellFormed)
    {room : Nat}
    (held : data.Holds 0 ((messages.flatMap WireMessage.encode).take room)) :
    parser.processDatagram data ((messages.flatMap WireMessage.encode).take room).length =
      (fitting room messages).flatMap parser.callsFor := by
  obtain ⟨tail, cut⟩ := cut_fitting wellFormed room
  have fittingFormed : ∀ message ∈ fitting room messages, message.WellFormed :=
    fun message member => wellFormed message (fitting_subset room messages message member)
  have fittingHeld : data.Holds 0 ((fitting room messages).flatMap WireMessage.encode) := by
    have covered := held
    rw [cut.covers, List.flatMap_map] at covered
    exact (Memory.holds_append.mp covered).1
  rw [processDatagram, segments_cut cut held, frameLayout_frames,
    parser.calls_layout fittingFormed fittingHeld]

/-- Of each datagram the loop makes the calls of the messages that fit. -/
theorem receiveLoop_fitting
    {groups : List (List WireMessage)}
    (wellFormed : ∀ group ∈ groups, ∀ message ∈ group, message.WellFormed)
    {receptions : List Reception}
    (packed : payloads receptions =
      groups.map fun group => group.flatMap WireMessage.encode)
    (buffer : Buffer) :
    parser.receiveLoop buffer receptions =
      (groups.flatMap (fitting bufferSize)).flatMap parser.callsFor := by
  have ofGroup : ∀ group ∈ groups, ∀ data : Memory,
      data.Holds 0 ((group.flatMap WireMessage.encode).take bufferSize) →
      parser.processDatagram data
          ((group.flatMap WireMessage.encode).take bufferSize).length =
        (fitting bufferSize group).flatMap parser.callsFor :=
    fun group listed data held => parser.processDatagram_fitting (wellFormed group listed) held
  rw [parser.receiveLoop_eq (fun payload =>
    parser.processDatagram (Memory.ofBytes (payload.take bufferSize))
      (payload.take bufferSize).length), packed, List.flatMap_map, List.flatMap_assoc]
  · exact List.flatMap_congr fun group listed =>
      ofGroup group listed _ (Memory.holds_ofBytes _)
  · intro payload arrives data held
    rw [packed] at arrives
    obtain ⟨group, listed, rfl⟩ := List.mem_map.mp arrives
    rw [ofGroup group listed data held, ofGroup group listed _ (Memory.holds_ofBytes _)]

/-- When all datagrams fit, the loop makes the calls of every message. -/
theorem receiveLoop_messages
    {groups : List (List WireMessage)}
    (wellFormed : ∀ group ∈ groups, ∀ message ∈ group, message.WellFormed)
    (fits : ∀ group ∈ groups, (group.flatMap WireMessage.encode).length ≤ bufferSize)
    {receptions : List Reception}
    (packed : payloads receptions =
      groups.map fun group => group.flatMap WireMessage.encode)
    (buffer : Buffer) :
    parser.receiveLoop buffer receptions = groups.flatten.flatMap parser.callsFor := by
  rw [parser.receiveLoop_fitting wellFormed packed, ← List.flatMap_id]
  refine congrArg (List.flatMap parser.callsFor) (List.flatMap_congr fun group listed => ?_)
  exact fitting_of_length_le (fits group listed)

/-- Live mode delivers what fits into the buffer.  However well-formed messages are
packed into datagrams, and whatever the buffer holds, the loop makes the calls of the
messages of each datagram up to the first that does not fit, and none for that one or
those behind it; when all datagrams fit, it makes the calls of every message, once and
in order. -/
theorem receive_loop_delivers_what_fits
    (groups : List (List WireMessage))
    (wellFormed : ∀ group ∈ groups, ∀ message ∈ group, message.WellFormed)
    (receptions : List Reception)
    (packed : payloads receptions =
      groups.map fun group => group.flatMap WireMessage.encode)
    (buffer : Buffer) :
    parser.receiveLoop buffer receptions =
        (groups.flatMap (fitting bufferSize)).flatMap parser.callsFor ∧
      ((∀ group ∈ groups, (group.flatMap WireMessage.encode).length ≤ bufferSize) →
        parser.receiveLoop buffer receptions = groups.flatten.flatMap parser.callsFor) :=
  ⟨parser.receiveLoop_fitting wellFormed packed buffer,
    fun fits => parser.receiveLoop_messages wellFormed fits packed buffer⟩

/-- A heartbeat of 22 bytes. -/
def sampleHeartbeat : Header :=
  { sampleTrade.header with messageKind := '1'.toUInt8, bodyLen := 0 }

theorem sampleHeartbeat_wellFormed : (WireMessage.headerOnly sampleHeartbeat).WellFormed :=
  ⟨⟨by decide, by decide, ⟨fun _ => 7, rfl⟩, by decide, by decide, by decide, by decide⟩,
    by decide⟩

/-- Of 187 heartbeats in one datagram the last one does not fit. -/
theorem receive_loop_delivers_what_fits_heartbeats :
    let parser : TaifexParser :=
      { bookMgr := true, onI024 := false, onI025 := false, onI081 := false
        onI083 := false, onI084 := false }
    let group := List.replicate 187 (WireMessage.headerOnly sampleHeartbeat)
    parser.receiveLoop (Vector.replicate bufferSize 0)
        [.arrived (group.flatMap WireMessage.encode) fun _ => 7] =
      List.replicate 186 (.onHeader sampleHeartbeat) := by
  intro parser group
  have wellFormed : ∀ message ∈ group, message.WellFormed := by
    intro message member
    rw [List.eq_of_mem_replicate member]
    exact sampleHeartbeat_wellFormed
  have delivered := (parser.receive_loop_delivers_what_fits [group]
    (List.forall_mem_singleton.mpr wellFormed)
    [.arrived (group.flatMap WireMessage.encode) fun _ => 7] rfl
    (Vector.replicate bufferSize 0)).1
  rw [delivered]
  decide +kernel

end TaifexParser
end TaifexResolver
