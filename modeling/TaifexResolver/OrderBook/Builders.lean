import TaifexResolver.Exchange.History

/-!
# Packet builders

The builders of the unit tests: a packet is its serial, its content and the
channel sequence its header carries, on a realtime or a snapshot channel.
-/

namespace TaifexResolver
namespace Builders

/-- `kProd`, the code `TXFG6`. -/
def kProd : List UInt8 := ['T', 'X', 'F', 'G', '6'].map Char.toUInt8

/-- A second product, the code `BBB`. -/
def otherProd : List UInt8 := ['B', 'B', 'B'].map Char.toUInt8

/-- `kRtChannel`. -/
def kRtChannel : UInt16 := 1

/-- `kSnapChannel`. -/
def kSnapChannel : UInt16 := 9

/-- `set_prod`: pad with spaces to twenty bytes. -/
def setProd (prod : List UInt8) : ProdIdText :=
  Vector.ofFn fun idx => if idx.val = 20 then 0 else prod.getD idx ' '.toUInt8

/-- `make_header`. -/
def makeHeader (kind : Char) (channelSeq : UInt32) (channelId : UInt16) : Header where
  transmissionCode := '2'.toUInt8
  messageKind := kind.toUInt8
  infoTime := Vector.replicate 16 0
  channelId := channelId
  channelSeq := channelSeq
  versionNo := 1
  bodyLen := 0

/-- `make_entry`. -/
def makeEntry
    (action type : Char)
    (price : UInt64)
    (quantity : UInt32)
    (level : UInt8) : MDEntry where
  updateAction := action.toUInt8
  entryType := type.toUInt8
  priceSign := '0'.toUInt8
  price := price
  quantity := quantity
  priceLevel := level

/-- `make_snapshot_entry`. -/
def makeSnapshotEntry
    (type : Char)
    (price : UInt64)
    (quantity : UInt32)
    (level : UInt8) : SnapshotEntry where
  entryType := type.toUInt8
  priceSign := '0'.toUInt8
  price := price
  quantity := quantity
  priceLevel := level

/-- `make_i024`. -/
def makeI024 (prod : List UInt8) (seq channelSeq : UInt32) : I024Packet where
  header := makeHeader 'D' channelSeq kRtChannel
  prodId := setProd prod
  prodMsgSeq := seq
  calculatedFlag := '0'.toUInt8
  matchTime := Vector.replicate 16 0
  firstPriceSign := 0
  firstPrice := 0
  firstQuantity := 0
  displayItem := 0
  consecutiveMatches := []
  totalQty := 0
  buyCnt := 0
  sellCnt := 0

/-- `make_i081`. -/
def makeI081
    (prod : List UInt8)
    (seq : UInt32)
    (entries : List MDEntry)
    (channelSeq : UInt32) : I081Packet where
  header := makeHeader 'A' channelSeq kRtChannel
  prodId := setProd prod
  prodMsgSeq := seq
  noMdEntries := entries.length.toUInt8
  entries := entries

/-- `make_i083`. -/
def makeI083
    (prod : List UInt8)
    (seq : UInt32)
    (entries : List SnapshotEntry)
    (channelSeq : UInt32)
    (calculatedFlag : Char) : I083Packet where
  header := makeHeader 'B' channelSeq kRtChannel
  prodId := setProd prod
  prodMsgSeq := seq
  calculatedFlag := calculatedFlag.toUInt8
  noMdEntries := entries.length.toUInt8
  entries := entries

/-- One product block of `make_i084_o_multi`. -/
def makeI084Product
    (prod : List UInt8)
    (lastProdMsgSeq : UInt32)
    (entries : List SnapshotEntry) : I084Product where
  prodId := setProd prod
  lastProdMsgSeq := lastProdMsgSeq
  noMdEntries := entries.length.toUInt8
  entries := entries

/-- `make_i084_o_multi`. -/
def makeI084 (products : List I084Product) (channelSeq : UInt32) : I084Packet where
  header := makeHeader 'C' channelSeq kSnapChannel
  messageType := 'O'.toUInt8
  lastSeq := 0
  noEntries := products.length.toUInt8
  products := products

/-- `feed`: the header of a packet, then its typed feed. -/
def feedI024 (pkt : I024Packet) : List Step := [.header pkt.header, .i024 pkt]

/-- `feed` for an I081. -/
def feedI081 (pkt : I081Packet) : List Step := [.header pkt.header, .i081 pkt]

/-- `feed` for an I083. -/
def feedI083 (pkt : I083Packet) : List Step := [.header pkt.header, .i083 pkt]

/-- `feed` for a single-product I084 `'O'` on the snapshot channel. -/
def feedI084 (channelSeq : UInt32) (prod : I084Product) : List Step :=
  let header := makeHeader 'C' channelSeq kSnapChannel
  [.header header, .i084Product header prod]

end Builders
end TaifexResolver
