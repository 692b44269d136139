import TaifexResolver.Foundation.Execution
import TaifexResolver.Foundation.UnorderedMap
import TaifexResolver.OrderBook.Ladder
import Mathlib.Data.List.DropRight

/-!
# The order book manager

The state of `OrderBookManager` and its methods.  Each critical section under
the mutex is one function from the state to the next state and the deliveries
collected in it; `fire` lists the callback invocations made after unlock.
-/

namespace TaifexResolver

/-- A trimmed product id, the key of the product and callback maps. -/
abbrev ProdKey := List UInt8

/-- The identity of a registered `std::shared_ptr<BookCallback>`. -/
abbrev CallbackPtr := Nat

/-- `trim_prod_id`: at most twenty bytes up to the first NUL, less the trailing
spaces. -/
def trimProdId (prodId : List UInt8) : ProdKey :=
  ((prodId.take 20).takeWhile (· ≠ 0)).rdropWhile (· = ' '.toUInt8)

/-- The key of a product id field. -/
abbrev ProdIdText.key (prodId : ProdIdText) : ProdKey := trimProdId prodId.toList

/-- `memcpy(dst, src, 20); dst[20] = '\0';`. -/
def copyProdId (prodId : ProdIdText) : ProdIdText := prodId.set 20 0

/-- Per-product state. -/
structure ProductState where
  book : OrderBook := {}
  synced : Bool := false
  suspect : Bool := false
  deriving DecidableEq

/-- Per-channel state. -/
structure ChannelState where
  lastSeq : UInt32 := 0
  isSnapshotChannel : Bool := false
  deriving DecidableEq

/-- One delivery event: the single book copy and every callback it goes to. -/
structure Delivery where
  book : OrderBook
  callbacks : List CallbackPtr
  deriving DecidableEq

/-- The state guarded by the mutex. -/
structure OrderBookManager where
  products : UnorderedMap ProdKey ProductState := ∅
  channels : UnorderedMap UInt16 ChannelState := ∅
  callbacks : UnorderedMap ProdKey (List CallbackPtr) := ∅
  wildcardCallbacks : List CallbackPtr := []

namespace ProductState

/-- The delivered flag, `!synced || suspect`. -/
def isStale (st : ProductState) : Bool := !st.synced || st.suspect

/-- Overwrite the serial of the last message. -/
def withSeq (st : ProductState) (seq : UInt32) : ProductState :=
  { st with book := { st.book with lastProdMsgSeq := seq } }

/-- `track_seq_locked`: the next state, and whether the message is new. -/
def trackSeqLocked (st : ProductState) (seq : UInt32) : ProductState × Bool :=
  if st.book.lastProdMsgSeq = 0 then
    ({ st.withSeq seq with synced := seq = 1, suspect := false }, true)
  else if seq ≤ st.book.lastProdMsgSeq then (st, false)
  else if seq = st.book.lastProdMsgSeq + 1 then
    ({ st.withSeq seq with suspect := false }, true)
  else ({ st.withSeq seq with synced := false, suspect := false }, true)

/-- `adopt_snapshot_locked`. -/
def adoptSnapshotLocked
    (st : ProductState)
    (prodId : ProdIdText)
    (seq : UInt32)
    (entries : List SnapshotEntry)
    (infoTime : TimeText) : ProductState where
  book :=
    { entries.foldl OrderBook.placeEntry st.book.clearLadders with
      prodId := copyProdId prodId
      infoTime := infoTime
      lastProdMsgSeq := seq
      hasSnapshot := true }
  synced := true
  suspect := false

/-! The bodies of the feed methods between `get_or_create_locked` and
`collect_delivery_locked`: the next product state, and the stale flag to deliver
when the body reaches the delivery. -/

/-- Body shared by `on_i024`, `on_i025` and the trial branch of `on_i083`. -/
def trackOnly (seq : UInt32) (st : ProductState) : ProductState × Option Bool :=
  let tracked := st.trackSeqLocked seq
  if tracked.2 = false then (tracked.1, none)
  else if tracked.1.isStale = st.isStale then (tracked.1, none)
  else (tracked.1, some tracked.1.isStale)

/-- Body of `on_i081`. -/
def applyIncrement
    (seq : UInt32)
    (entries : List MDEntry)
    (infoTime : TimeText)
    (st : ProductState) : ProductState × Option Bool :=
  let tracked := st.trackSeqLocked seq
  if tracked.2 = false then (tracked.1, none)
  else
    let applied := { tracked.1 with
      book := { entries.foldl OrderBook.applyEntry tracked.1.book with
        infoTime := infoTime } }
    (applied, some applied.isStale)

/-- Body of the normal branch of `on_i083` and of one block of `on_i084`. -/
def offerSnapshot
    (prodId : ProdIdText)
    (seq : UInt32)
    (entries : List SnapshotEntry)
    (infoTime : TimeText)
    (st : ProductState) : ProductState × Option Bool :=
  if st.book.lastProdMsgSeq ≠ 0 ∧ seq < st.book.lastProdMsgSeq then (st, none)
  else (st.adoptSnapshotLocked prodId seq entries infoTime, some false)

end ProductState

namespace OrderBookManager

/-- `get_or_create_locked`, without the store: a missing product starts as the
default state carrying the raw id.  Every caller stores the state it ends with,
also where it returns early. -/
def getOrCreateLocked
    (manager : OrderBookManager)
    (prodId : ProdIdText) : ProductState :=
  (manager.products.lookup prodId.key).getD
    { book := { prodId := copyProdId prodId } }

/-- `collect_delivery_locked`: nothing is appended, and no copy made, when no
callback is registered for the product. -/
def collectDeliveryLocked
    (manager : OrderBookManager)
    (key : ProdKey)
    (liveBook : OrderBook)
    (isStale : Bool) : List Delivery :=
  let productCallbacks := (manager.callbacks.lookup key).getD []
  if productCallbacks = [] ∧ manager.wildcardCallbacks = [] then []
  else
    [{ book := liveBook.stamp isStale
       callbacks := productCallbacks ++ manager.wildcardCallbacks }]

/-- Deliver a stale copy of every book that is currently trusted. -/
def collectTrusted (manager : OrderBookManager) : List Delivery :=
  manager.products.entries.flatMap fun entry =>
    if entry.2.suspect || !entry.2.synced then []
    else manager.collectDeliveryLocked entry.1 entry.2.book true

/-- `collect_reset_locked`. -/
def collectResetLocked
    (manager : OrderBookManager) : OrderBookManager × List Delivery :=
  ({ manager with products := ∅, channels := ∅ }, manager.collectTrusted)

/-- The sweep of `on_header`: every trusted book becomes suspect. -/
def sweepSuspect
    (manager : OrderBookManager) : OrderBookManager × List Delivery :=
  ({ manager with
      products := manager.products.mapVals fun _ st =>
        if st.suspect || !st.synced then st else { st with suspect := true } },
    manager.collectTrusted)

/-- `fire`: the callback invocations of a list of deliveries, in order, each of which
returns normally. -/
def fire (deliveries : List Delivery) : List (CallbackPtr × OrderBook) :=
  deliveries.flatMap fun delivery =>
    delivery.callbacks.map fun callback => (callback, delivery.book)

/-! ## Feed methods -/

/-- `on_header`. -/
def onHeader
    (manager : OrderBookManager)
    (header : Header) : OrderBookManager × List Delivery :=
  if header.messageKind = '2'.toUInt8 then manager.collectResetLocked
  else
    match manager.channels.lookup header.channelId with
    | none =>
        ({ manager with
            channels := manager.channels.insert header.channelId
              { lastSeq := header.channelSeq
                isSnapshotChannel := header.messageKind = 'C'.toUInt8 } }, [])
    | some found =>
        let channel : ChannelState :=
          if header.messageKind = 'C'.toUInt8 then
            { found with isSnapshotChannel := true }
          else found
        let seq := header.channelSeq
        if header.messageKind ≠ '1'.toUInt8 ∧ seq ≤ channel.lastSeq then
          ({ manager with
              channels := manager.channels.insert header.channelId channel }, [])
        else
          let gap : Bool :=
            if header.messageKind = '1'.toUInt8 then channel.lastSeq < seq
            else seq ≠ channel.lastSeq + 1
          let advanced : ChannelState := { channel with
            lastSeq := if channel.lastSeq < seq then seq else channel.lastSeq }
          let tracked := { manager with
            channels := manager.channels.insert header.channelId advanced }
          if !gap || advanced.isSnapshotChannel then (tracked, [])
          else tracked.sweepSuspect

/-- The critical section every typed feed runs: find or create the product, run
the body, store the result and collect the delivery the body asked for. -/
def feedProduct
    (manager : OrderBookManager)
    (prodId : ProdIdText)
    (body : ProductState → ProductState × Option Bool) :
    OrderBookManager × List Delivery :=
  let outcome := body (manager.getOrCreateLocked prodId)
  let stored := { manager with
    products := manager.products.insert prodId.key outcome.1 }
  match outcome.2 with
  | none => (stored, [])
  | some isStale =>
      (stored, stored.collectDeliveryLocked prodId.key outcome.1.book isStale)

/-- `on_i024`. -/
def onI024 (manager : OrderBookManager) (pkt : I024Packet) :=
  manager.feedProduct pkt.prodId (ProductState.trackOnly pkt.prodMsgSeq)

/-- `on_i025`. -/
def onI025 (manager : OrderBookManager) (pkt : I025Packet) :=
  manager.feedProduct pkt.prodId (ProductState.trackOnly pkt.prodMsgSeq)

/-- `on_i081`. -/
def onI081 (manager : OrderBookManager) (pkt : I081Packet) :=
  manager.feedProduct pkt.prodId
    (ProductState.applyIncrement pkt.prodMsgSeq pkt.entries pkt.header.infoTime)

/-- `on_i083`: a trial book only consumes its serial. -/
def onI083 (manager : OrderBookManager) (pkt : I083Packet) :=
  if pkt.calculatedFlag = '1'.toUInt8 then
    manager.feedProduct pkt.prodId (ProductState.trackOnly pkt.prodMsgSeq)
  else
    manager.feedProduct pkt.prodId
      (ProductState.offerSnapshot pkt.prodId pkt.prodMsgSeq pkt.entries
        pkt.header.infoTime)

/-- One iteration of the loop of `on_i084`, a critical section of its own. -/
def onI084Product
    (manager : OrderBookManager)
    (header : Header)
    (prod : I084Product) :=
  manager.feedProduct prod.prodId
    (ProductState.offerSnapshot prod.prodId prod.lastProdMsgSeq prod.entries
      header.infoTime)

/-- `on_i084`: only an `'O'` packet carries book data, block by block. -/
def onI084
    (manager : OrderBookManager)
    (pkt : I084Packet) : OrderBookManager × List Delivery :=
  if pkt.messageType = 'O'.toUInt8 then
    Machine.run (fun state prod => onI084Product state pkt.header prod)
      manager pkt.products
  else (manager, [])

/-! ## Registration and introspection -/

/-- `register_callback`. -/
def registerCallback
    (manager : OrderBookManager)
    (prodId : List UInt8)
    (callback : CallbackPtr) : OrderBookManager :=
  let key := trimProdId prodId
  { manager with
    callbacks := manager.callbacks.insert key
      ((manager.callbacks.lookup key).getD [] ++ [callback]) }

/-- `register_callback_all`. -/
def registerCallbackAll
    (manager : OrderBookManager)
    (callback : CallbackPtr) : OrderBookManager :=
  { manager with wildcardCallbacks := manager.wildcardCallbacks ++ [callback] }

/-- `unregister_callbacks`. -/
def unregisterCallbacks
    (manager : OrderBookManager)
    (prodId : List UInt8) : OrderBookManager :=
  { manager with callbacks := manager.callbacks.erase (trimProdId prodId) }

/-- `unregister_all_callbacks`. -/
def unregisterAllCallbacks (manager : OrderBookManager) : OrderBookManager :=
  { manager with callbacks := ∅, wildcardCallbacks := [] }

/-- `get_book`: a copy stamped with the derived stale flag. -/
def getBook
    (manager : OrderBookManager)
    (prodId : List UInt8) : Option OrderBook :=
  (manager.products.lookup (trimProdId prodId)).map fun st =>
    st.book.stamp st.isStale

/-- `product_ids`. -/
def productIds (manager : OrderBookManager) : List ProdKey :=
  manager.products.keys

/-- `reset`. -/
def reset (manager : OrderBookManager) : OrderBookManager × List Delivery :=
  manager.collectResetLocked

end OrderBookManager
end TaifexResolver
