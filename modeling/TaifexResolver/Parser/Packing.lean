import TaifexResolver.Parser.RoundTrip
import TaifexResolver.Parser.Segments

/-!
# Any packing of messages into datagrams

No well-formed message contains the terminator before its end: decimal and text
fields hold neither of its bytes, and the two bytes that may hold anything, the
display item and the checksum, stand between bytes that cannot complete it.
Hence `process_datagram` cuts a datagram of messages where the messages end, and
calls the manager and the callbacks with what was encoded.
-/

namespace TaifexResolver

/-- Bytes that hold neither byte of the terminator. -/
def Plain (bytes : List UInt8) : Prop := ∀ byte ∈ bytes, byte ≠ 0x0D ∧ byte ≠ 0x0A

namespace Plain

theorem nil : Plain [] := fun _ member => absurd member List.not_mem_nil

theorem printable {byte : UInt8} (isPrintable : IsPrintable byte) : Plain [byte] := by
  intro item member
  rw [List.mem_singleton.mp member]
  constructor
  all_goals
    rintro rfl
    revert isPrintable
    decide

theorem append
    {first second : List UInt8}
    (firstPlain : Plain first)
    (secondPlain : Plain second) :
    Plain (first ++ second) := by
  intro byte member
  rcases List.mem_append.mp member with inFirst | inSecond
  · exact firstPlain byte inFirst
  · exact secondPlain byte inSecond

theorem field
    {bytes : List UInt8}
    {fields : List (List UInt8)}
    (head : Plain bytes)
    (tail : Plain fields.flatten) :
    Plain (bytes :: fields).flatten :=
  head.append tail

theorem flatMap
    {α : Type}
    {encode : α → List UInt8}
    {values : List α}
    (each : ∀ value ∈ values, Plain (encode value)) :
    Plain (values.flatMap encode) := by
  intro byte member
  obtain ⟨value, listed, encoded⟩ := List.mem_flatMap.mp member
  exact each value listed byte encoded

/-- The lower digit of a BCD byte is at most nine. -/
theorem packBcd (nbytes value : Nat) : Plain (packBcd nbytes value) := by
  induction nbytes generalizing value with
  | zero => exact nil
  | succ nbytes inductionHypothesis =>
      apply (inductionHypothesis (value / 100)).append
      intro byte member
      have small := Nat.mod_lt value (by decide : 0 < 100)
      have packed := TaifexParser.toNat_bcdByte small
      rw [List.mem_singleton.mp member]
      constructor
      all_goals
        intro equal
        rw [equal] at packed
        simp only [UInt8.reduceToNat] at packed
        omega

theorem packDigits (tens units : Fin 10) :
    Plain [TaifexResolver.packDigits (digitByte tens) (digitByte units)] := by
  have ordinary :
      TaifexResolver.packDigits (digitByte tens) (digitByte units) ≠ 0x0D ∧
      TaifexResolver.packDigits (digitByte tens) (digitByte units) ≠ 0x0A := by
    revert tens units
    decide
  exact List.forall_mem_singleton.mpr ordinary

theorem time
    {time : TimeText}
    (wellFormed : time.WellFormed) :
    Plain time.encode := by
  obtain ⟨digits, rfl⟩ := wellFormed
  exact .append (packDigits _ _) (.append (packDigits _ _) (.append
    (packDigits _ _) (.append (packDigits _ _) (.append (packDigits _ _)
      (packDigits _ _)))))

theorem prodId
    {prodId : ProdIdText}
    (wellFormed : prodId.WellFormed) :
    Plain prodId.encode :=
  fun byte member => printable (wellFormed.1 byte member) byte (by simp)

theorem matchData
    {match_ : MatchData}
    (wellFormed : match_.WellFormed) :
    Plain match_.encode :=
  .field (printable wellFormed.priceSign)
    (.field (packBcd _ _) (.field (packBcd _ _) nil))

theorem mdEntry
    {entry : MDEntry}
    (wellFormed : entry.WellFormed) :
    Plain entry.encode :=
  .field (printable wellFormed.updateAction)
    (.field (printable wellFormed.entryType)
      (.field (printable wellFormed.priceSign)
        (.field (packBcd _ _) (.field (packBcd _ _) (.field (packBcd _ _) nil)))))

theorem snapshotEntry
    {entry : SnapshotEntry}
    (wellFormed : entry.WellFormed) :
    Plain entry.encode :=
  .field (printable wellFormed.entryType)
    (.field (printable wellFormed.priceSign)
      (.field (packBcd _ _) (.field (packBcd _ _) (.field (packBcd _ _) nil))))

theorem i084Product
    {prod : I084Product}
    (wellFormed : prod.WellFormed) :
    Plain prod.encode :=
  .field (prodId wellFormed.prodId) (.field (packBcd _ _) (.field (packBcd _ _)
    (.field (flatMap fun entry member =>
      snapshotEntry (wellFormed.entries entry member)) nil)))

theorem header
    {received : Header}
    {bodyLength : Nat}
    (wellFormed : received.WellFormed bodyLength) :
    Plain received.encode :=
  .field (printable wellFormed.transmissionCode)
    (.field (printable wellFormed.messageKind)
      (.field (time wellFormed.infoTime) (.field (packBcd _ _)
        (.field (packBcd _ _) (.field (packBcd _ _) (.field (packBcd _ _) nil))))))

end Plain

/-! ## No message ends early -/

theorem Plain.isSealed {bytes : List UInt8} (plain : Plain bytes) :
    Sealed 0x0D 0x0A bytes :=
  .of_forall_ne fun byte member => (plain byte member).1

/-- One arbitrary byte in front of plain bytes. -/
theorem Plain.sealed_cons
    {bytes : List UInt8}
    (plain : Plain bytes)
    (nonempty : bytes ≠ [])
    (byte : UInt8) :
    Sealed 0x0D 0x0A (byte :: bytes) := by
  cases bytes with
  | nil => exact absurd rfl nonempty
  | cons next rest => exact plain.isSealed.cons byte (plain next (by simp)).2

theorem I024Packet.sealed_body
    {pkt : I024Packet}
    (wellFormed : pkt.WellFormed) :
    Sealed 0x0D 0x0A pkt.body := by
  have front : Plain [pkt.prodId.encode, packBcd 5 pkt.prodMsgSeq.toNat,
      [pkt.calculatedFlag], pkt.matchTime.encode, [pkt.firstPriceSign],
      packBcd 5 pkt.firstPrice.toNat,
      packBcd 4 pkt.firstQuantity.toNat].flatten :=
    .field (.prodId wellFormed.prodId) (.field (.packBcd _ _)
      (.field (.printable wellFormed.calculatedFlag)
        (.field (.time wellFormed.matchTime)
          (.field (.printable wellFormed.firstPriceSign)
            (.field (.packBcd _ _) (.field (.packBcd _ _) .nil))))))
  have back : Plain [pkt.consecutiveMatches.flatMap MatchData.encode,
      packBcd 4 pkt.totalQty.toNat, packBcd 4 pkt.buyCnt.toNat,
      packBcd 4 pkt.sellCnt.toNat].flatten :=
    .field (.flatMap fun match_ member =>
      .matchData (wellFormed.consecutiveMatches match_ member))
      (.field (.packBcd _ _) (.field (.packBcd _ _) (.field (.packBcd _ _) .nil)))
  have nonempty : [pkt.consecutiveMatches.flatMap MatchData.encode,
      packBcd 4 pkt.totalQty.toNat, packBcd 4 pkt.buyCnt.toNat,
      packBcd 4 pkt.sellCnt.toNat].flatten ≠ [] := by
    simp [packBcd]
  have parts := front.isSealed.append (back.sealed_cons nonempty pkt.displayItem)
  simpa [body] using parts

theorem Packet.sealed_body
    {pkt : Packet}
    (wellFormed : pkt.WellFormed) :
    Sealed 0x0D 0x0A pkt.body := by
  cases pkt with
  | i024 pkt => exact I024Packet.sealed_body wellFormed
  | i025 pkt =>
      have fits : pkt.WellFormed := wellFormed
      exact Plain.isSealed (.field (.prodId fits.prodId) (.field (.packBcd _ _)
        (.field (.printable fits.dayHighPriceSign) (.field (.packBcd _ _)
          (.field (.printable fits.dayLowPriceSign) (.field (.packBcd _ _)
            (.field (.time fits.showTime) .nil)))))))
  | i081 pkt =>
      have fits : pkt.WellFormed := wellFormed
      exact Plain.isSealed (.field (.prodId fits.prodId) (.field (.packBcd _ _)
        (.field (.packBcd _ _) (.field (.flatMap fun entry member =>
          .mdEntry (fits.entries entry member)) .nil))))
  | i083 pkt =>
      have fits : pkt.WellFormed := wellFormed
      exact Plain.isSealed (.field (.prodId fits.prodId) (.field (.packBcd _ _)
        (.field (.printable fits.calculatedFlag) (.field (.packBcd _ _)
          (.field (.flatMap fun entry member =>
            .snapshotEntry (fits.entries entry member)) .nil)))))
  | i084 pkt =>
      apply Plain.isSealed
      change Plain pkt.body
      unfold I084Packet.body
      cases show pkt.WellFormed from wellFormed with
      | refresh messageType _ _ =>
          have printable : IsPrintable pkt.messageType := by
            rcases messageType with kind | kind <;> rw [kind] <;> decide
          split
          · next orders =>
              rcases messageType with kind | kind <;>
                exact absurd (kind.symm.trans orders) (by decide)
          · exact .field (.printable printable) (.field (.packBcd _ _) .nil)
      | orders messageType _ _ _ products =>
          rw [if_pos messageType, messageType]
          exact .field (.printable (by decide)) (.field (.packBcd _ _)
            (.field (.flatMap fun prod member =>
              .i084Product (products prod member)) .nil))

namespace WireMessage

variable {message : WireMessage}

/-- A well-formed message holds the terminator only at its end. -/
theorem terminatorFree_frame (wellFormed : message.WellFormed) :
    TerminatorFree 0x0D 0x0A (message.frame ++ [0x0D]) := by
  have bodySealed : Sealed 0x0D 0x0A message.body := by
    cases message with
    | packet pkt => exact Packet.sealed_body wellFormed.2.2
    | headerOnly received => exact Plain.nil.isSealed
  have escaped : Sealed 0x0D 0x0A [TaifexParser.escCode] :=
    .of_forall_ne (List.forall_mem_singleton.mpr (by decide))
  have covered := (escaped.append (Plain.header wellFormed.1).isSealed).append
    bodySealed
  have closed := covered.free_append_pair (by decide)
    (calculateChecksum message.content)
  simpa [frame, content] using closed

end WireMessage

/-! ## Cutting a datagram -/

namespace TaifexParser

/-- The segments of consecutive messages. -/
def layout : Nat → List WireMessage → List Segment
  | _, [] => []
  | start, message :: rest =>
      { start, length := message.encode.length } ::
        layout (start + message.encode.length) rest

/-- The frames of some messages, laid out in order. -/
theorem frameLayout_frames (start : Nat) (messages : List WireMessage) :
    frameLayout start (messages.map WireMessage.frame) = layout start messages := by
  induction messages generalizing start with
  | nil => rfl
  | cons message rest inductionHypothesis =>
      have size : message.encode.length = message.frame.length + 2 := by
        rw [WireMessage.encode, List.length_append]
        rfl
      rw [List.map_cons, frameLayout, inductionHypothesis, layout, size]

/-- A datagram of well-formed messages is cut where they end. -/
theorem cut_messages
    {messages : List WireMessage}
    (wellFormed : ∀ message ∈ messages, message.WellFormed) :
    Cut 0x0D 0x0A (messages.flatMap WireMessage.encode)
      (messages.map WireMessage.frame) [] := by
  refine ⟨?_, ?_, .nil⟩
  · rw [List.append_nil, List.flatMap_map]
    rfl
  · intro frame member
    obtain ⟨message, among, rfl⟩ := List.mem_map.mp member
    exact WireMessage.terminatorFree_frame (wellFormed message among)

/-- `process_datagram` hands each message of a datagram over on its own. -/
theorem segments_messages
    {data : Memory}
    {messages : List WireMessage}
    (wellFormed : ∀ message ∈ messages, message.WellFormed)
    (held : data.Holds 0 (messages.flatMap WireMessage.encode)) :
    segments data (messages.flatMap WireMessage.encode).length =
      layout 0 messages :=
  (segments_cut (cut_messages wellFormed) held).trans (frameLayout_frames 0 messages)

/-! ## Processing a message -/

variable (parser : TaifexParser)

/-- The calls a message asks for.  To a manager, if one is attached, the header is
announced and then the packet is fed; after that the packet goes to the raw callback of
its kind, if one is registered. -/
def callsFor : WireMessage → List Call
  | .packet pkt =>
      (if parser.bookMgr then [.onHeader pkt.header, .feed pkt] else []) ++
        if parser.registered pkt then [.callback pkt] else []
  | .headerOnly received =>
      if parser.bookMgr then [.onHeader received] else []

/-- A packet is announced before it is fed and handed on. -/
theorem callsFor_packet (pkt : Packet) :
    parser.callsFor (.packet pkt) = parser.notify pkt.header ++ parser.deliver pkt := by
  rw [callsFor, notify, deliver]
  by_cases attached : parser.bookMgr = true
  · simp only [if_pos attached, List.cons_append, List.nil_append]
  · simp only [if_neg attached, List.nil_append]

theorem callsFor_headerOnly (received : Header) :
    parser.callsFor (.headerOnly received) = parser.notify received := rfl

/-- The checksum of an encoded message is verified. -/
theorem verifyChecksum_encode
    {data : Memory}
    {message : WireMessage}
    (held : data.Holds 0 message.encode) :
    (verifyChecksum data message.encode.length).1 = true := by
  obtain ⟨frameHeld, _⟩ := Memory.holds_append.mp held
  obtain ⟨covered, checksum⟩ := Memory.holds_append.mp frameHeld
  have contentHeld : data.slice 1 message.content.length = message.content :=
    (Memory.holds_cons.mp covered).2
  have checksumHeld := (Memory.holds_cons.mp checksum).1
  have size : message.encode.length = message.content.length + 4 := by
    simp [WireMessage.encode, WireMessage.frame]
  rw [verifyChecksum, if_neg (by omega), size, Nat.add_sub_cancel, contentHeld]
  rw [List.length_cons, Nat.zero_add] at checksumHeld
  simp only [decide_eq_true_eq]
  exact checksumHeld.symm

theorem length_header (received : Header) : received.encode.length = 18 := by
  simp [Header.encode, TimeText.encode]

theorem length_encode (message : WireMessage) :
    message.encode.length = message.body.length + 22 := by
  simp only [WireMessage.encode, WireMessage.frame, WireMessage.content,
    List.length_append, List.length_cons, List.length_nil, length_header]
  omega

theorem accepted_encode
    {data : Memory}
    {message : WireMessage}
    (held : data.Holds 0 message.encode) :
    Accepted data message.encode.length := by
  refine ⟨?_, (Memory.holds_cons.mp held).1, verifyChecksum_encode held⟩
  rw [length_encode]
  omega

/-- A handler delivers what its decoder yields. -/
theorem calls_handle
    {α : Type}
    {data : Memory}
    {decoder : Decoder α}
    {bytes : List UInt8}
    {value : α}
    (decodes : decoder.Decodes bytes value)
    (held : data.Holds 19 bytes)
    (wrap : α → Packet) :
    (parser.handle data decoder wrap).calls = parser.deliver (wrap value) := by
  rw [handle, (decodes data 19 held).1]

/-- The handler of a packet's kind delivers the packet. -/
theorem calls_dispatch
    {data : Memory}
    {pkt : Packet}
    (kind : pkt.header.messageKind = pkt.kind)
    (wellFormed : pkt.WellFormed)
    (held : data.Holds 19 pkt.body) :
    (parser.dispatch data (pkt.body.length + 22) pkt.header).calls =
      parser.deliver pkt := by
  rw [dispatch, kind]
  cases pkt with
  | i024 pkt => exact parser.calls_handle (decodes_i024Packet wellFormed) held .i024
  | i025 pkt =>
      have size : pkt.body.length = 43 := by
        simp [I025Packet.body, ProdIdText.encode, TimeText.encode]
      have longEnough : ¬pkt.body.length + 22 < 19 + 43 + 3 := by omega
      change (parser.handleI025 data (pkt.body.length + 22) pkt.header).calls = _
      rw [handleI025, if_neg longEnough]
      exact parser.calls_handle (decodes_i025Packet wellFormed) held .i025
  | i081 pkt => exact parser.calls_handle (decodes_i081Packet wellFormed) held .i081
  | i083 pkt => exact parser.calls_handle (decodes_i083Packet wellFormed) held .i083
  | i084 pkt => exact parser.calls_handle (decodes_i084Packet wellFormed) held .i084

/-- `process_raw_data` on an encoded message makes exactly its calls. -/
theorem calls_processRawData
    {data : Memory}
    {message : WireMessage}
    (wellFormed : message.WellFormed)
    (held : data.Holds 0 message.encode) :
    (parser.processRawData data message.encode.length).calls =
      parser.callsFor message := by
  obtain ⟨frameHeld, _⟩ := Memory.holds_append.mp held
  obtain ⟨covered, _⟩ := Memory.holds_append.mp frameHeld
  obtain ⟨headerHeld, bodyHeld⟩ :=
    Memory.holds_append.mp (Memory.holds_cons.mp covered).2
  have decoded : (header.decode data 1).value = message.header :=
    (decodes_header wellFormed.1 data 1 headerHeld).1
  rw [length_header] at bodyHeld
  rw [parser.processRawData_accepted (accepted_encode held), decoded, length_encode]
  cases message with
  | packet pkt =>
      rw [callsFor_packet]
      exact congrArg (parser.notify pkt.header ++ ·)
        (parser.calls_dispatch wellFormed.2.1 wellFormed.2.2 bodyHeld)
  | headerOnly received =>
      have undecoded : received.messageKind ∉ decodedKinds := wellFormed.2
      rw [callsFor_headerOnly]
      change parser.notify received ++
        (parser.dispatch data _ received).calls = parser.notify received
      rw [parser.dispatch_undecoded undecoded, List.append_nil]

/-- Run lemma: the segments of consecutive messages make the messages' calls. -/
theorem calls_layout
    {data : Memory}
    {messages : List WireMessage}
    (wellFormed : ∀ message ∈ messages, message.WellFormed)
    {start : Nat}
    (held : data.Holds start (messages.flatMap WireMessage.encode)) :
    ((layout start messages).flatMap fun segment =>
      (parser.processRawData (data.advance segment.start) segment.length).calls) =
      messages.flatMap parser.callsFor := by
  induction messages generalizing start with
  | nil => rfl
  | cons message rest inductionHypothesis =>
      rw [List.flatMap_cons] at held
      obtain ⟨headHeld, restHeld⟩ := Memory.holds_append.mp held
      have head := parser.calls_processRawData (wellFormed message (by simp))
        (Memory.holds_advance.mpr (by rwa [Nat.add_zero]))
      rw [layout, List.flatMap_cons, List.flatMap_cons, head,
        inductionHypothesis (fun later member =>
          wellFormed later (List.mem_cons_of_mem _ member)) restHeld]

end TaifexParser

/-- A received datagram: the memory it was received into, and its length. -/
structure Datagram where
  data : Memory
  len : Nat

/-- Whether a datagram is the concatenation of some encoded messages. -/
structure Datagram.Carries
    (datagram : Datagram)
    (messages : List WireMessage) : Prop where
  held : datagram.data.Holds 0 (messages.flatMap WireMessage.encode)
  len : datagram.len = (messages.flatMap WireMessage.encode).length

namespace TaifexParser

variable (parser : TaifexParser)

/-- `process_datagram` on one datagram after another. -/
def processDatagrams (datagrams : List Datagram) : List Call :=
  datagrams.flatMap fun datagram =>
    parser.processDatagram datagram.data datagram.len

theorem processDatagram_messages
    {datagram : Datagram}
    {messages : List WireMessage}
    (wellFormed : ∀ message ∈ messages, message.WellFormed)
    (carries : datagram.Carries messages) :
    parser.processDatagram datagram.data datagram.len =
      messages.flatMap parser.callsFor := by
  rw [processDatagram, carries.len, segments_messages wellFormed carries.held,
    parser.calls_layout wellFormed carries.held]

/-- Run lemma: one datagram after another. -/
theorem processDatagrams_messages
    {groups : List (List WireMessage)}
    (wellFormed : ∀ group ∈ groups, ∀ message ∈ group, message.WellFormed)
    {datagrams : List Datagram}
    (carried : List.Forall₂ Datagram.Carries datagrams groups) :
    parser.processDatagrams datagrams =
      groups.flatten.flatMap parser.callsFor := by
  induction carried with
  | nil => rfl
  | @cons datagram group datagrams groups carries _ inductionHypothesis =>
      obtain ⟨groupFits, restFits⟩ := List.forall_mem_cons.mp wellFormed
      rw [processDatagrams, List.flatMap_cons, ← processDatagrams,
        parser.processDatagram_messages groupFits carries,
        inductionHypothesis restFits, List.flatten_cons, List.flatMap_append]

/-- Decoding undoes encoding, whatever the packing.  However a list of
well-formed messages is cut into consecutive groups, processing one datagram for
each group makes, for each message in order and once, the call of `on_header`
with its header and, if it is a packet, the typed feed and then the raw callback
with the packet; and no other call. -/
theorem decode_encode_any_packing
    (messages : List WireMessage)
    (wellFormed : ∀ message ∈ messages, message.WellFormed)
    (groups : List (List WireMessage))
    (packing : groups.flatten = messages)
    (datagrams : List Datagram)
    (carried : List.Forall₂ Datagram.Carries datagrams groups) :
    parser.processDatagrams datagrams = messages.flatMap parser.callsFor := by
  subst packing
  refine parser.processDatagrams_messages (fun group listed message member => ?_)
    carried
  exact wellFormed message (List.mem_flatten.mpr ⟨group, listed, member⟩)

/-- A trade whose display item, thirteen, is the first byte of the terminator. -/
def sampleTrade : I024Packet where
  header := {
    transmissionCode := '2'.toUInt8
    messageKind := 'D'.toUInt8
    infoTime := TimeText.ofDigits fun _ => 7
    channelId := 1
    channelSeq := 4294967295
    versionNo := 1
    bodyLen := 159 }
  prodId := (Vector.replicate 20 'X'.toUInt8).push 0
  prodMsgSeq := 123
  calculatedFlag := '0'.toUInt8
  matchTime := TimeText.ofDigits fun _ => 5
  firstPriceSign := '-'.toUInt8
  firstPrice := 12000500
  firstQuantity := 10
  displayItem := 0x0D
  consecutiveMatches := List.replicate 13
    { priceSign := '0'.toUInt8, price := 12000450, quantity := 5 }
  totalQty := 15
  buyCnt := 2
  sellCnt := 2

theorem sampleTrade_wellFormed : sampleTrade.WellFormed where
  prodId := by
    refine ⟨fun byte member => ?_, rfl⟩
    rw [show byte = 'X'.toUInt8 by simpa [sampleTrade, ProdIdText.encode] using member]
    decide
  calculatedFlag := by decide
  matchTime := ⟨fun _ => 5, rfl⟩
  firstPriceSign := by decide
  firstPrice := by decide
  firstQuantity := by decide
  displayItem := by decide
  consecutiveMatches := by
    intro match_ listed
    rw [List.eq_of_mem_replicate listed]
    exact ⟨by decide, by decide, by decide⟩
  totalQty := by decide
  buyCnt := by decide
  sellCnt := by decide

/-- The trade and a heartbeat, in one datagram. -/
theorem decode_encode_any_packing_trade :
    let parser : TaifexParser :=
      { bookMgr := true, onI024 := true, onI025 := false, onI081 := false
        onI083 := false, onI084 := false }
    let heartbeat := { sampleTrade.header with
      messageKind := '1'.toUInt8, bodyLen := 0 }
    let messages := [.packet (.i024 sampleTrade), .headerOnly heartbeat]
    let bytes := messages.flatMap WireMessage.encode
    parser.processDatagrams [{ data := Memory.ofBytes bytes, len := bytes.length }] =
      [.onHeader sampleTrade.header, .feed (.i024 sampleTrade),
        .callback (.i024 sampleTrade), .onHeader heartbeat] := by
  intro parser heartbeat messages bytes
  have bodyLength : sampleTrade.body.length = 159 := by
    simp [sampleTrade, I024Packet.body, ProdIdText.encode, TimeText.encode,
      MatchData.encode, List.replicate]
  have tradeFits : WireMessage.WellFormed (.packet (.i024 sampleTrade)) := by
    refine ⟨⟨by decide, by decide, ⟨fun _ => 7, rfl⟩, by decide, by decide,
      bodyLength.symm, ?_⟩, rfl, sampleTrade_wellFormed⟩
    exact Nat.le_trans (Nat.le_of_eq bodyLength) (by decide)
  have heartbeatFits : WireMessage.WellFormed (.headerOnly heartbeat) :=
    ⟨⟨by decide, by decide, ⟨fun _ => 7, rfl⟩, by decide, by decide, by decide,
      by decide⟩, by decide⟩
  have calls := parser.decode_encode_any_packing messages
    (List.forall_mem_cons.mpr ⟨tradeFits, List.forall_mem_singleton.mpr heartbeatFits⟩)
    [messages] (List.append_nil messages)
    [{ data := Memory.ofBytes bytes, len := bytes.length }]
    (.cons ⟨Memory.holds_ofBytes bytes, rfl⟩ .nil)
  exact calls

end TaifexParser
end TaifexResolver
