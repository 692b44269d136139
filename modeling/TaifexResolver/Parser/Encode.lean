import Mathlib.Algebra.Group.Nat.Defs
import TaifexResolver.Parser.Process

/-!
# Encoding messages

The wire format as `TAIFEX_mocker.py` builds it, with every field taken from the
packet: `_bcd`, `_prod`, the entry builders, the bodies of the five message types
and `_build_packet`.  A message is well formed when its fields fit the format.
-/

namespace TaifexResolver

/-! ## Fields -/

/-- One byte of `_bcd`: two decimal digits. -/
def bcdByte (pair : Nat) : UInt8 := UInt8.ofNat (pair / 10 * 16 + pair % 10)

/-- `_bcd`: pack a number across `nbytes` bytes, two digits each. -/
def packBcd : Nat → Nat → List UInt8
  | 0, _ => []
  | nbytes + 1, value => packBcd nbytes (value / 100) ++ [bcdByte (value % 100)]

/-- The ASCII byte of a decimal digit. -/
def digitByte (digit : Fin 10) : UInt8 := '0'.toUInt8 + UInt8.ofNat digit

/-- A printable ASCII byte. -/
def IsPrintable (byte : UInt8) : Prop := 0x20 ≤ byte.toNat ∧ byte.toNat ≤ 0x7E

instance (byte : UInt8) : Decidable (IsPrintable byte) :=
  inferInstanceAs (Decidable (_ ∧ _))

/-- The BCD byte of two ASCII digits. -/
def packDigits (high low : UInt8) : UInt8 :=
  ((high - '0'.toUInt8) <<< 4) ||| (low - '0'.toUInt8)

namespace TimeText

/-- The six BCD bytes of a time. -/
def encode (time : TimeText) : List UInt8 :=
  [packDigits time[0] time[1], packDigits time[3] time[4],
    packDigits time[6] time[7], packDigits time[9] time[10],
    packDigits time[11] time[12], packDigits time[13] time[14]]

/-- The text `HH:MM:SS.uuuuuu` of twelve digits. -/
def ofDigits (digits : Fin 12 → Fin 10) : TimeText :=
  let digit := fun idx => digitByte (digits idx)
  #v[digit 0, digit 1, ':'.toUInt8, digit 2, digit 3, ':'.toUInt8,
    digit 4, digit 5, '.'.toUInt8, digit 6, digit 7, digit 8, digit 9,
    digit 10, digit 11, 0]

def WellFormed (time : TimeText) : Prop := ∃ digits, time = ofDigits digits

end TimeText

namespace ProdIdText

/-- `_prod`: the twenty bytes of a product id. -/
def encode (prodId : ProdIdText) : List UInt8 := prodId.pop.toList

/-- Twenty printable bytes and the terminating NUL. -/
def WellFormed (prodId : ProdIdText) : Prop :=
  (∀ byte ∈ prodId.encode, IsPrintable byte) ∧ prodId.back = 0

instance (prodId : ProdIdText) : Decidable prodId.WellFormed :=
  inferInstanceAs (Decidable (_ ∧ _))

end ProdIdText

/-! ## Entries -/

namespace MatchData

/-- One repeated match of an I024. -/
def encode (match_ : MatchData) : List UInt8 :=
  [[match_.priceSign], packBcd 5 match_.price.toNat,
    packBcd 2 match_.quantity.toNat].flatten

structure WellFormed (match_ : MatchData) : Prop where
  priceSign : IsPrintable match_.priceSign
  price : match_.price.toNat < 10 ^ 10
  quantity : match_.quantity.toNat < 10 ^ 4

end MatchData

namespace MDEntry

/-- `_md_entry_i081`. -/
def encode (entry : MDEntry) : List UInt8 :=
  [[entry.updateAction], [entry.entryType], [entry.priceSign],
    packBcd 5 entry.price.toNat, packBcd 4 entry.quantity.toNat,
    packBcd 1 entry.priceLevel.toNat].flatten

structure WellFormed (entry : MDEntry) : Prop where
  updateAction : IsPrintable entry.updateAction
  entryType : IsPrintable entry.entryType
  priceSign : IsPrintable entry.priceSign
  price : entry.price.toNat < 10 ^ 10
  quantity : entry.quantity.toNat < 10 ^ 8
  priceLevel : entry.priceLevel.toNat < 10 ^ 2

end MDEntry

namespace SnapshotEntry

/-- `_md_entry`. -/
def encode (entry : SnapshotEntry) : List UInt8 :=
  [[entry.entryType], [entry.priceSign], packBcd 5 entry.price.toNat,
    packBcd 4 entry.quantity.toNat, packBcd 1 entry.priceLevel.toNat].flatten

structure WellFormed (entry : SnapshotEntry) : Prop where
  entryType : IsPrintable entry.entryType
  priceSign : IsPrintable entry.priceSign
  price : entry.price.toNat < 10 ^ 10
  quantity : entry.quantity.toNat < 10 ^ 8
  priceLevel : entry.priceLevel.toNat < 10 ^ 2

end SnapshotEntry

namespace I084Product

/-- One product block of `build_i084_o`. -/
def encode (prod : I084Product) : List UInt8 :=
  [prod.prodId.encode, packBcd 5 prod.lastProdMsgSeq.toNat,
    packBcd 1 prod.noMdEntries.toNat,
    prod.entries.flatMap SnapshotEntry.encode].flatten

structure WellFormed (prod : I084Product) : Prop where
  prodId : prod.prodId.WellFormed
  noMdEntries : prod.noMdEntries.toNat = prod.entries.length
  atMost : prod.entries.length ≤ 99
  entries : ∀ entry ∈ prod.entries, entry.WellFormed

end I084Product

/-! ## Bodies -/

namespace I024Packet

/-- The body of `build_i024`, with the repeated matches of the layout. -/
def body (pkt : I024Packet) : List UInt8 :=
  [pkt.prodId.encode, packBcd 5 pkt.prodMsgSeq.toNat, [pkt.calculatedFlag],
    pkt.matchTime.encode, [pkt.firstPriceSign], packBcd 5 pkt.firstPrice.toNat,
    packBcd 4 pkt.firstQuantity.toNat, [pkt.displayItem],
    pkt.consecutiveMatches.flatMap MatchData.encode,
    packBcd 4 pkt.totalQty.toNat, packBcd 4 pkt.buyCnt.toNat,
    packBcd 4 pkt.sellCnt.toNat].flatten

structure WellFormed (pkt : I024Packet) : Prop where
  prodId : pkt.prodId.WellFormed
  calculatedFlag : IsPrintable pkt.calculatedFlag
  matchTime : pkt.matchTime.WellFormed
  firstPriceSign : IsPrintable pkt.firstPriceSign
  firstPrice : pkt.firstPrice.toNat < 10 ^ 10
  firstQuantity : pkt.firstQuantity.toNat < 10 ^ 8
  displayItem : (pkt.displayItem &&& 0x7F).toNat = pkt.consecutiveMatches.length
  consecutiveMatches : ∀ match_ ∈ pkt.consecutiveMatches, match_.WellFormed
  totalQty : pkt.totalQty.toNat < 10 ^ 8
  buyCnt : pkt.buyCnt.toNat < 10 ^ 8
  sellCnt : pkt.sellCnt.toNat < 10 ^ 8

end I024Packet

namespace I025Packet

/-- The body of `build_i025`. -/
def body (pkt : I025Packet) : List UInt8 :=
  [pkt.prodId.encode, packBcd 5 pkt.prodMsgSeq.toNat, [pkt.dayHighPriceSign],
    packBcd 5 pkt.dayHighPrice.toNat, [pkt.dayLowPriceSign],
    packBcd 5 pkt.dayLowPrice.toNat, pkt.showTime.encode].flatten

structure WellFormed (pkt : I025Packet) : Prop where
  prodId : pkt.prodId.WellFormed
  dayHighPriceSign : IsPrintable pkt.dayHighPriceSign
  dayHighPrice : pkt.dayHighPrice.toNat < 10 ^ 10
  dayLowPriceSign : IsPrintable pkt.dayLowPriceSign
  dayLowPrice : pkt.dayLowPrice.toNat < 10 ^ 10
  showTime : pkt.showTime.WellFormed

end I025Packet

namespace I081Packet

/-- The body of `build_i081`. -/
def body (pkt : I081Packet) : List UInt8 :=
  [pkt.prodId.encode, packBcd 5 pkt.prodMsgSeq.toNat,
    packBcd 1 pkt.noMdEntries.toNat, pkt.entries.flatMap MDEntry.encode].flatten

structure WellFormed (pkt : I081Packet) : Prop where
  prodId : pkt.prodId.WellFormed
  noMdEntries : pkt.noMdEntries.toNat = pkt.entries.length
  atMost : pkt.entries.length ≤ 99
  entries : ∀ entry ∈ pkt.entries, entry.WellFormed

end I081Packet

namespace I083Packet

/-- The body of `build_i083`. -/
def body (pkt : I083Packet) : List UInt8 :=
  [pkt.prodId.encode, packBcd 5 pkt.prodMsgSeq.toNat, [pkt.calculatedFlag],
    packBcd 1 pkt.noMdEntries.toNat,
    pkt.entries.flatMap SnapshotEntry.encode].flatten

structure WellFormed (pkt : I083Packet) : Prop where
  prodId : pkt.prodId.WellFormed
  calculatedFlag : IsPrintable pkt.calculatedFlag
  noMdEntries : pkt.noMdEntries.toNat = pkt.entries.length
  atMost : pkt.entries.length ≤ 99
  entries : ∀ entry ∈ pkt.entries, entry.WellFormed

end I083Packet

namespace I084Packet

/-- The bodies of `build_i084_a`, `build_i084_z` and `build_i084_o`. -/
def body (pkt : I084Packet) : List UInt8 :=
  if pkt.messageType = 'O'.toUInt8 then
    [[pkt.messageType], packBcd 1 pkt.noEntries.toNat,
      pkt.products.flatMap I084Product.encode].flatten
  else [[pkt.messageType], packBcd 5 pkt.lastSeq.toNat].flatten

/-- Refresh begin, refresh complete, or order data. -/
inductive WellFormed (pkt : I084Packet) : Prop
  | refresh
      (messageType : pkt.messageType = 'A'.toUInt8 ∨ pkt.messageType = 'Z'.toUInt8)
      (noEntries : pkt.noEntries = 0)
      (products : pkt.products = [])
  | orders
      (messageType : pkt.messageType = 'O'.toUInt8)
      (lastSeq : pkt.lastSeq = 0)
      (noEntries : pkt.noEntries.toNat = pkt.products.length)
      (atMost : pkt.products.length ≤ 99)
      (products : ∀ prod ∈ pkt.products, prod.WellFormed)

end I084Packet

namespace Packet

def header : Packet → Header
  | .i024 pkt => pkt.header
  | .i025 pkt => pkt.header
  | .i081 pkt => pkt.header
  | .i083 pkt => pkt.header
  | .i084 pkt => pkt.header

/-- The message kind of a packet's type. -/
def kind : Packet → UInt8
  | .i024 _ => 'D'.toUInt8
  | .i025 _ => 'E'.toUInt8
  | .i081 _ => 'A'.toUInt8
  | .i083 _ => 'B'.toUInt8
  | .i084 _ => 'C'.toUInt8

def body : Packet → List UInt8
  | .i024 pkt => pkt.body
  | .i025 pkt => pkt.body
  | .i081 pkt => pkt.body
  | .i083 pkt => pkt.body
  | .i084 pkt => pkt.body

def WellFormed : Packet → Prop
  | .i024 pkt => pkt.WellFormed
  | .i025 pkt => pkt.WellFormed
  | .i081 pkt => pkt.WellFormed
  | .i083 pkt => pkt.WellFormed
  | .i084 pkt => pkt.WellFormed

end Packet

/-! ## Messages -/

/-- The eighteen header bytes of `_build_packet`. -/
def Header.encode (header : Header) : List UInt8 :=
  [[header.transmissionCode], [header.messageKind], header.infoTime.encode,
    packBcd 2 header.channelId.toNat, packBcd 5 header.channelSeq.toNat,
    packBcd 1 header.versionNo.toNat, packBcd 2 header.bodyLen.toNat].flatten

/-- A header whose fields fit, in front of a body of a given length. -/
structure Header.WellFormed (header : Header) (bodyLength : Nat) : Prop where
  transmissionCode : IsPrintable header.transmissionCode
  messageKind : IsPrintable header.messageKind
  infoTime : header.infoTime.WellFormed
  channelId : header.channelId.toNat < 10 ^ 4
  versionNo : header.versionNo.toNat < 10 ^ 2
  bodyLen : header.bodyLen.toNat = bodyLength
  atMost : bodyLength ≤ 9999

/-- A message on the wire: a packet of a decoded kind, or a header alone. -/
inductive WireMessage
  | packet (pkt : Packet)
  | headerOnly (received : Header)

namespace WireMessage

def header : WireMessage → Header
  | .packet pkt => pkt.header
  | .headerOnly received => received

def body : WireMessage → List UInt8
  | .packet pkt => pkt.body
  | .headerOnly _ => []

/-- `calculate_checksum`. -/
def calculateChecksum (data : List UInt8) : UInt8 := data.foldl (· ^^^ ·) 0

/-- Header and body, which the checksum covers. -/
def content (message : WireMessage) : List UInt8 :=
  message.header.encode ++ message.body

/-- `_build_packet`: everything before the terminal code. -/
def frame (message : WireMessage) : List UInt8 :=
  TaifexParser.escCode :: message.content ++ [calculateChecksum message.content]

/-- `_build_packet`. -/
def encode (message : WireMessage) : List UInt8 :=
  message.frame ++ [0x0D, 0x0A]

/-- A message of the supported format: a packet under its own kind, or a header
of a kind that is not decoded. -/
def WellFormed (message : WireMessage) : Prop :=
  message.header.WellFormed message.body.length ∧
    match message with
    | .packet pkt => pkt.header.messageKind = pkt.kind ∧ pkt.WellFormed
    | .headerOnly received =>
        received.messageKind ∉ TaifexParser.decodedKinds

end WireMessage
end TaifexResolver
