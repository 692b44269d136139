import TaifexResolver.Foundation.Routine
import TaifexResolver.OrderBook.Operation

/-!
# The critical sections, instruction by instruction

Each method of the manager takes the mutex, runs some code on the shared maps and
gives the mutex back.  This module writes that code as routines: every write to a
product or a channel tracker, every loop iteration and every snapshot copy is an
instruction of its own.  Run without interruption, each routine does what the
manager's model says in one step.
-/

namespace TaifexResolver

/-- One time under the mutex: an operation, or a copy of part of the state. -/
inductive Access
  | operate (operation : Operation)
  | getBook (prodId : List UInt8)
  | productIds
  deriving DecidableEq

/-- What an access returns to its caller. -/
inductive Answer
  | nothing
  | book (found : Option OrderBook)
  | ids (keys : List ProdKey)
  deriving DecidableEq

/-- What an access leaves to be done after the unlock: fire a delivery, or let go of
a callback that was unregistered. -/
inductive Aftermath
  | deliver (delivery : Delivery)
  | drop (callback : CallbackPtr)
  deriving DecidableEq

namespace OrderBookManager
namespace Code

/-- Code that runs under the mutex. -/
abbrev Locked (α : Type) := Routine OrderBookManager Aftermath α

open Routine

/-- `ProductState& st`, read. -/
def product (key : ProdKey) : Locked ProductState :=
  read fun manager => (manager.products.lookup key).getD {}

/-- `ProductState& st`, written. -/
def writeProduct
    (key : ProdKey)
    (write : ProductState → ProductState) : Locked Unit :=
  modify fun manager =>
    { manager with products := manager.products.adjust key write }

/-- Write to the book of a product. -/
def writeBook (key : ProdKey) (write : OrderBook → OrderBook) : Locked Unit :=
  writeProduct key fun st => { st with book := write st.book }

/-- `ChannelState& ch`, written. -/
def writeChannel
    (channel : UInt16)
    (write : ChannelState → ChannelState) : Locked Unit :=
  modify fun manager =>
    { manager with
      channels := manager.channels.insert channel
        (write ((manager.channels.lookup channel).getD {})) }

/-- `get_or_create_locked`: the key of the product found or created. -/
def getOrCreateLocked (prodId : ProdIdText) : Locked ProdKey := do
  modify fun manager =>
    { manager with
      products := manager.products.insert prodId.key
        (manager.getOrCreateLocked prodId) }
  return prodId.key

/-- `track_seq_locked`. -/
def trackSeqLocked (key : ProdKey) (seq : UInt32) : Locked Bool := do
  let st ← product key
  if st.book.lastProdMsgSeq = 0 then
    writeProduct key fun st => { st with synced := seq = 1 }
    writeProduct key fun st => { st with suspect := false }
    writeProduct key fun st => st.withSeq seq
    return true
  else if seq ≤ st.book.lastProdMsgSeq then
    return false
  else if seq = st.book.lastProdMsgSeq + 1 then
    writeProduct key fun st => { st with suspect := false }
    writeProduct key fun st => st.withSeq seq
    return true
  else
    writeProduct key fun st => { st with synced := false }
    writeProduct key fun st => { st with suspect := false }
    writeProduct key fun st => st.withSeq seq
    return true

/-- `adopt_snapshot_locked`. -/
def adoptSnapshotLocked
    (key : ProdKey)
    (prodId : ProdIdText)
    (seq : UInt32)
    (entries : List SnapshotEntry)
    (infoTime : TimeText) : Locked Unit := do
  writeBook key fun book => { book with bids := Ladder.empty }
  writeBook key fun book => { book with asks := Ladder.empty }
  writeBook key fun book => { book with derivedBids := Ladder.empty }
  writeBook key fun book => { book with derivedAsks := Ladder.empty }
  forEach (fun entry => writeBook key fun book => book.placeEntry entry) entries
  writeBook key fun book => { book with prodId := copyProdId prodId }
  writeBook key fun book => { book with infoTime := infoTime }
  writeBook key fun book => { book with lastProdMsgSeq := seq }
  writeBook key fun book => { book with hasSnapshot := true }
  writeProduct key fun st => { st with synced := true }
  writeProduct key fun st => { st with suspect := false }

/-- `collect_delivery_locked`. -/
def collectDeliveryLocked (key : ProdKey) (isStale : Bool) : Locked Unit := do
  let st ← product key
  emit fun manager =>
    (manager.collectDeliveryLocked key st.book isStale).map .deliver

/-- One iteration of the loop of `collect_reset_locked`. -/
def collectTrusted (key : ProdKey) : Locked Unit := do
  let st ← product key
  if st.suspect || !st.synced then return ()
  collectDeliveryLocked key true

/-- `collect_reset_locked`. -/
def collectResetLocked : Locked Unit := do
  let keys ← read fun manager => manager.products.keys
  forEach collectTrusted keys
  modify fun manager => { manager with products := ∅ }
  modify fun manager => { manager with channels := ∅ }

/-- One iteration of the loop of `on_header`. -/
def markSuspect (key : ProdKey) : Locked Unit := do
  let st ← product key
  if st.suspect || !st.synced then return ()
  writeProduct key fun st => { st with suspect := true }
  collectDeliveryLocked key true

/-- The loop of `on_header` that marks every trusted book. -/
def sweepSuspect : Locked Unit := do
  let keys ← read fun manager => manager.products.keys
  forEach markSuspect keys

/-- `on_header`. -/
def onHeader (header : Header) : Locked Unit := do
  if header.messageKind = '2'.toUInt8 then
    collectResetLocked
  else
    let found ← read fun manager => manager.channels.lookup header.channelId
    match found with
    | none =>
        modify fun manager =>
          { manager with
            channels := manager.channels.insert header.channelId
              { lastSeq := header.channelSeq
                isSnapshotChannel := header.messageKind = 'C'.toUInt8 } }
    | some _ =>
        writeChannel header.channelId fun channel =>
          if header.messageKind = 'C'.toUInt8 then
            { channel with isSnapshotChannel := true }
          else channel
        let channel ← read fun manager =>
          (manager.channels.lookup header.channelId).getD {}
        let seq := header.channelSeq
        if header.messageKind ≠ '1'.toUInt8 ∧ seq ≤ channel.lastSeq then
          return ()
        let gap : Bool :=
          if header.messageKind = '1'.toUInt8 then channel.lastSeq < seq
          else seq ≠ channel.lastSeq + 1
        writeChannel header.channelId fun channel =>
          { channel with
            lastSeq := if channel.lastSeq < seq then seq else channel.lastSeq }
        if !gap || channel.isSnapshotChannel then
          return ()
        sweepSuspect

/-- `on_i024`, `on_i025` and the trial branch of `on_i083`. -/
def trackOnly (prodId : ProdIdText) (seq : UInt32) : Locked Unit := do
  let key ← getOrCreateLocked prodId
  let before ← product key
  let isNew ← trackSeqLocked key seq
  if isNew = false then
    return ()
  let after ← product key
  if after.isStale = before.isStale then
    return ()
  collectDeliveryLocked key after.isStale

/-- `on_i081`. -/
def onI081 (pkt : I081Packet) : Locked Unit := do
  let key ← getOrCreateLocked pkt.prodId
  let isNew ← trackSeqLocked key pkt.prodMsgSeq
  if isNew = false then
    return ()
  forEach (fun entry => writeBook key fun book => book.applyEntry entry) pkt.entries
  writeBook key fun book => { book with infoTime := pkt.header.infoTime }
  let st ← product key
  collectDeliveryLocked key st.isStale

/-- The normal branch of `on_i083`, and one iteration of `on_i084`. -/
def offerSnapshot
    (prodId : ProdIdText)
    (seq : UInt32)
    (entries : List SnapshotEntry)
    (infoTime : TimeText) : Locked Unit := do
  let key ← getOrCreateLocked prodId
  let st ← product key
  if st.book.lastProdMsgSeq ≠ 0 ∧ seq < st.book.lastProdMsgSeq then
    return ()
  adoptSnapshotLocked key prodId seq entries infoTime
  collectDeliveryLocked key false

/-- `on_i083`. -/
def onI083 (pkt : I083Packet) : Locked Unit :=
  if pkt.calculatedFlag = '1'.toUInt8 then trackOnly pkt.prodId pkt.prodMsgSeq
  else offerSnapshot pkt.prodId pkt.prodMsgSeq pkt.entries pkt.header.infoTime

/-- The code of one critical section of a feed. -/
def step : Step → Locked Unit
  | .header header => onHeader header
  | .i024 pkt => trackOnly pkt.prodId pkt.prodMsgSeq
  | .i025 pkt => trackOnly pkt.prodId pkt.prodMsgSeq
  | .i081 pkt => onI081 pkt
  | .i083 pkt => onI083 pkt
  | .i084Product header prod =>
      offerSnapshot prod.prodId prod.lastProdMsgSeq prod.entries header.infoTime
  | .reset => collectResetLocked

/-! ## Registration and introspection -/

/-- `register_callback`: `callbacks_[key]`, then `push_back`. -/
def registerCallback (prodId : List UInt8) (callback : CallbackPtr) : Locked Unit := do
  modify fun manager =>
    { manager with
      callbacks := manager.callbacks.insert (trimProdId prodId)
        ((manager.callbacks.lookup (trimProdId prodId)).getD []) }
  modify fun manager =>
    { manager with
      callbacks := manager.callbacks.insert (trimProdId prodId)
        ((manager.callbacks.lookup (trimProdId prodId)).getD [] ++ [callback]) }

/-- `register_callback_all`. -/
def registerCallbackAll (callback : CallbackPtr) : Locked Unit :=
  modify fun manager =>
    { manager with wildcardCallbacks := manager.wildcardCallbacks ++ [callback] }

/-- `unregister_callbacks`: the callbacks moved out die after the unlock. -/
def unregisterCallbacks (prodId : List UInt8) : Locked Unit := do
  let found ← read fun manager => manager.callbacks.lookup (trimProdId prodId)
  match found with
  | none => return ()
  | some removed =>
      modify fun manager =>
        { manager with callbacks := manager.callbacks.erase (trimProdId prodId) }
      emit fun _ => removed.map .drop

/-- `unregister_all_callbacks`: the locals die in reverse order of declaration. -/
def unregisterAllCallbacks : Locked Unit := do
  let removed ← read fun manager => manager.callbacks
  modify fun manager => { manager with callbacks := ∅ }
  let removedWildcard ← read fun manager => manager.wildcardCallbacks
  modify fun manager => { manager with wildcardCallbacks := [] }
  emit fun _ =>
    (removedWildcard ++ removed.entries.flatMap fun entry => entry.2).map .drop

/-- The code of every critical section of the manager. -/
def access : Access → Locked Answer
  | .operate (.feed fed) => do
      step fed
      return .nothing
  | .operate (.registerCallback prodId callback) => do
      registerCallback prodId callback
      return .nothing
  | .operate (.registerCallbackAll callback) => do
      registerCallbackAll callback
      return .nothing
  | .operate (.unregisterCallbacks prodId) => do
      unregisterCallbacks prodId
      return .nothing
  | .operate .unregisterAllCallbacks => do
      unregisterAllCallbacks
      return .nothing
  | .getBook prodId => do
      let found ← read fun manager => manager.products.lookup (trimProdId prodId)
      return .book (found.map fun st => st.book.stamp st.isStale)
  | .productIds => do
      let keys ← read fun manager => manager.products.keys
      return .ids keys

end Code
end OrderBookManager
end TaifexResolver
