import TaifexResolver.Foundation.Cursor
import TaifexResolver.Message

/-!
# Decoding one message

The field readers of `TaifexParser` and the part of each handler that fills its
packet.  A body is read from index 19 of its segment on; every reader moves the
offset past what it read.
-/

namespace TaifexResolver
namespace TaifexParser

open Decoder

/-- `byte >> 4`. -/
def highNibble (byte : UInt8) : UInt8 := byte >>> 4

/-- `byte & 0x0F`. -/
def lowNibble (byte : UInt8) : UInt8 := byte &&& 0x0F

/-- `bcd_to_uint`: two digits a byte, the higher one first.  A nibble above nine
counts as its value. -/
def bcdToUint (bcd : List UInt8) : UInt64 :=
  bcd.foldl (fun (result : UInt64) (byte : UInt8) =>
    result * 100 + (highNibble byte).toUInt64 * 10 + (lowNibble byte).toUInt64) 0

/-- One digit of `%02x`. -/
def hexDigit (nibble : UInt8) : UInt8 :=
  if nibble < 10 then '0'.toUInt8 + nibble else 'a'.toUInt8 + (nibble - 10)

/-- `format_bcd_time_to_char` with microseconds: `HH:MM:SS.uuuuuu`. -/
def formatBcdTimeToChar (bcd : Vector UInt8 6) : TimeText :=
  let high := fun byte => hexDigit (highNibble byte)
  let low := fun byte => hexDigit (lowNibble byte)
  #v[high bcd[0], low bcd[0], ':'.toUInt8, high bcd[1], low bcd[1], ':'.toUInt8,
    high bcd[2], low bcd[2], '.'.toUInt8, high bcd[3], low bcd[3],
    high bcd[4], low bcd[4], high bcd[5], low bcd[5], 0]

/-! ## Fields -/

/-- `bcd_to_uint(data + offset, len)`. -/
def bcd (len : Nat) : Decoder UInt64 := do
  return bcdToUint (← block len).toList

/-- `memcpy(prod_id, data + offset, 20); prod_id[20] = '\0';`. -/
def prodId : Decoder ProdIdText := do
  return (← block 20).push 0

/-- `format_bcd_time_to_char(data + offset, …, true)`. -/
def bcdTime : Decoder TimeText := do
  return formatBcdTimeToChar (← block 6)

/-- The common header, at indices 1 to 18. -/
def header : Decoder Header := do
  let transmissionCode ← byte
  let messageKind ← byte
  let infoTime ← bcdTime
  let channelId ← bcd 2
  let channelSeq ← bcd 5
  let versionNo ← bcd 1
  let bodyLen ← bcd 2
  return {
    transmissionCode, messageKind, infoTime
    channelId := channelId.toUInt16
    channelSeq := channelSeq.toUInt32
    versionNo := versionNo.toUInt8
    bodyLen := bodyLen.toUInt16 }

/-- One pass of the loop of `handle_i024`. -/
def matchData : Decoder MatchData := do
  let priceSign ← byte
  let price ← bcd 5
  let quantity ← bcd 2
  return { priceSign, price, quantity := quantity.toUInt16 }

/-- One pass of the loop of `handle_i081`. -/
def mdEntry : Decoder MDEntry := do
  let updateAction ← byte
  let entryType ← byte
  let priceSign ← byte
  let price ← bcd 5
  let quantity ← bcd 4
  let priceLevel ← bcd 1
  return {
    updateAction, entryType, priceSign, price
    quantity := quantity.toUInt32
    priceLevel := priceLevel.toUInt8 }

/-- One pass of the loop of `handle_i083`, and of the inner loop of
`handle_i084`. -/
def snapshotEntry : Decoder SnapshotEntry := do
  let entryType ← byte
  let priceSign ← byte
  let price ← bcd 5
  let quantity ← bcd 4
  let priceLevel ← bcd 1
  return {
    entryType, priceSign, price
    quantity := quantity.toUInt32
    priceLevel := priceLevel.toUInt8 }

/-- One pass of the outer loop of `handle_i084`. -/
def i084Product : Decoder I084Product := do
  let prodId ← prodId
  let lastProdMsgSeq ← bcd 5
  let noMdEntries ← bcd 1
  let entries ← times noMdEntries.toUInt8.toNat snapshotEntry
  return {
    prodId, entries
    lastProdMsgSeq := lastProdMsgSeq.toUInt32
    noMdEntries := noMdEntries.toUInt8 }

/-! ## Bodies -/

/-- The packet of `handle_i024`; the seven low bits of the display item count
the repeated matches. -/
def i024Packet (header : Header) : Decoder I024Packet := do
  let prodId ← prodId
  let prodMsgSeq ← bcd 5
  let calculatedFlag ← byte
  let matchTime ← bcdTime
  let firstPriceSign ← byte
  let firstPrice ← bcd 5
  let firstQuantity ← bcd 4
  let displayItem ← byte
  let consecutiveMatches ← times (displayItem &&& 0x7F).toNat matchData
  let totalQty ← bcd 4
  let buyCnt ← bcd 4
  let sellCnt ← bcd 4
  return {
    header, prodId, calculatedFlag, matchTime, firstPriceSign, firstPrice
    displayItem, consecutiveMatches
    prodMsgSeq := prodMsgSeq.toUInt32
    firstQuantity := firstQuantity.toUInt32
    totalQty := totalQty.toUInt32
    buyCnt := buyCnt.toUInt32
    sellCnt := sellCnt.toUInt32 }

/-- The packet of `handle_i025`. -/
def i025Packet (header : Header) : Decoder I025Packet := do
  let prodId ← prodId
  let prodMsgSeq ← bcd 5
  let dayHighPriceSign ← byte
  let dayHighPrice ← bcd 5
  let dayLowPriceSign ← byte
  let dayLowPrice ← bcd 5
  let showTime ← bcdTime
  return {
    header, prodId, dayHighPriceSign, dayHighPrice, dayLowPriceSign, dayLowPrice
    showTime
    prodMsgSeq := prodMsgSeq.toUInt32 }

/-- The packet of `handle_i081`. -/
def i081Packet (header : Header) : Decoder I081Packet := do
  let prodId ← prodId
  let prodMsgSeq ← bcd 5
  let noMdEntries ← bcd 1
  let entries ← times noMdEntries.toUInt8.toNat mdEntry
  return {
    header, prodId, entries
    prodMsgSeq := prodMsgSeq.toUInt32
    noMdEntries := noMdEntries.toUInt8 }

/-- The packet of `handle_i083`. -/
def i083Packet (header : Header) : Decoder I083Packet := do
  let prodId ← prodId
  let prodMsgSeq ← bcd 5
  let calculatedFlag ← byte
  let noMdEntries ← bcd 1
  let entries ← times noMdEntries.toUInt8.toNat snapshotEntry
  return {
    header, prodId, calculatedFlag, entries
    prodMsgSeq := prodMsgSeq.toUInt32
    noMdEntries := noMdEntries.toUInt8 }

/-- The switch of `handle_i084`: a message type other than `'A'`, `'Z'` and `'O'`
has no body that is read. -/
def i084Body (header : Header) (messageType : UInt8) : Decoder I084Packet :=
  if messageType = 'A'.toUInt8 ∨ messageType = 'Z'.toUInt8 then do
    let lastSeq ← bcd 5
    return {
      header, messageType
      lastSeq := lastSeq.toUInt32
      noEntries := 0
      products := [] }
  else if messageType = 'O'.toUInt8 then do
    let noEntries ← bcd 1
    let products ← times noEntries.toUInt8.toNat i084Product
    return {
      header, messageType, products
      lastSeq := 0
      noEntries := noEntries.toUInt8 }
  else
    return { header, messageType, lastSeq := 0, noEntries := 0, products := [] }

/-- The packet of `handle_i084`. -/
def i084Packet (header : Header) : Decoder I084Packet := do
  let messageType ← byte
  i084Body header messageType

end TaifexParser
end TaifexResolver
