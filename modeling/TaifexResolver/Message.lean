/-!
# Decoded messages

The packet structures of `parser.h`.  Every `char` field keeps its byte, every
integer field keeps its C++ width, and a fixed `char` array is a vector of that
many bytes.
-/

namespace TaifexResolver

/-- `char prod_id[21]`: twenty wire bytes and a terminating NUL. -/
abbrev ProdIdText := Vector UInt8 21

/-- `char info_time[16]`: `HH:MM:SS.uuuuuu` and a terminating NUL. -/
abbrev TimeText := Vector UInt8 16

/-- The common header of every message. -/
structure Header where
  transmissionCode : UInt8
  /-- `'A'`: I081, `'B'`: I083, `'C'`: I084, `'D'`: I024, `'E'`: I025,
  `'1'`: I001 heartbeat, `'2'`: I002 sequence reset. -/
  messageKind : UInt8
  infoTime : TimeText
  channelId : UInt16
  channelSeq : UInt32
  versionNo : UInt8
  bodyLen : UInt16
  deriving DecidableEq

/-- An I081 entry, which carries the update action. -/
structure MDEntry where
  updateAction : UInt8
  entryType : UInt8
  priceSign : UInt8
  price : UInt64
  quantity : UInt32
  priceLevel : UInt8
  deriving DecidableEq

/-- An I083 or I084 `'O'` entry, which carries no update action. -/
structure SnapshotEntry where
  entryType : UInt8
  priceSign : UInt8
  price : UInt64
  quantity : UInt32
  priceLevel : UInt8
  deriving DecidableEq

/-- One repeated match of an I024. -/
structure MatchData where
  priceSign : UInt8
  price : UInt64
  quantity : UInt16
  deriving DecidableEq

/-- I024: a trade. -/
structure I024Packet where
  header : Header
  prodId : ProdIdText
  prodMsgSeq : UInt32
  calculatedFlag : UInt8
  matchTime : TimeText
  firstPriceSign : UInt8
  firstPrice : UInt64
  firstQuantity : UInt32
  displayItem : UInt8
  consecutiveMatches : List MatchData
  totalQty : UInt32
  buyCnt : UInt32
  sellCnt : UInt32
  deriving DecidableEq

/-- I025: intraday high and low prices. -/
structure I025Packet where
  header : Header
  prodId : ProdIdText
  prodMsgSeq : UInt32
  dayHighPriceSign : UInt8
  dayHighPrice : UInt64
  dayLowPriceSign : UInt8
  dayLowPrice : UInt64
  showTime : TimeText
  deriving DecidableEq

/-- I081: an incremental order book update. -/
structure I081Packet where
  header : Header
  prodId : ProdIdText
  prodMsgSeq : UInt32
  noMdEntries : UInt8
  entries : List MDEntry
  deriving DecidableEq

/-- I083: an order book snapshot, or a trial book when the calculated flag is
`'1'`. -/
structure I083Packet where
  header : Header
  prodId : ProdIdText
  prodMsgSeq : UInt32
  calculatedFlag : UInt8
  noMdEntries : UInt8
  entries : List SnapshotEntry
  deriving DecidableEq

/-- One product block of an I084 `'O'`. -/
structure I084Product where
  prodId : ProdIdText
  lastProdMsgSeq : UInt32
  noMdEntries : UInt8
  entries : List SnapshotEntry
  deriving DecidableEq

/-- I084: one packet of the snapshot carousel. -/
structure I084Packet where
  header : Header
  /-- `'A'` and `'Z'` carry `lastSeq`, `'O'` carries the product blocks. -/
  messageType : UInt8
  lastSeq : UInt32
  noEntries : UInt8
  products : List I084Product
  deriving DecidableEq

end TaifexResolver
