import TaifexResolver.Concurrency.Sections

/-!
# The code of a critical section is its step

Run without interruption, the code of every critical section takes the manager to
the state its model gives, collects the same deliveries and returns the same
answer.
-/

namespace TaifexResolver

namespace OrderBookManager

/-- A manager with the state of one product stored. -/
def withProduct
    (manager : OrderBookManager)
    (key : ProdKey)
    (st : ProductState) : OrderBookManager :=
  { manager with products := manager.products.insert key st }

namespace Code

open Routine

/-! ## Code on one product -/

section Product

variable (manager : OrderBookManager) (key : ProdKey) (st : ProductState)

@[simp] theorem run_product :
    (product key).run (manager.withProduct key st) =
      (manager.withProduct key st, [], st) := by
  simp [product, withProduct]

@[simp] theorem run_writeProduct (write : ProductState → ProductState) :
    (writeProduct key write).run (manager.withProduct key st) =
      (manager.withProduct key (write st), [], ()) := by
  simp [writeProduct, withProduct, UnorderedMap.adjust_insert]

@[simp] theorem run_writeBook (write : OrderBook → OrderBook) :
    (writeBook key write).run (manager.withProduct key st) =
      (manager.withProduct key { st with book := write st.book }, [], ()) :=
  run_writeProduct manager key st _

@[simp] theorem run_getOrCreateLocked (prodId : ProdIdText) :
    (getOrCreateLocked prodId).run manager =
      (manager.withProduct prodId.key (manager.getOrCreateLocked prodId), [],
        prodId.key) := by
  simp [getOrCreateLocked, withProduct]

@[simp] theorem run_collectDeliveryLocked (isStale : Bool) :
    (collectDeliveryLocked key isStale).run (manager.withProduct key st) =
      (manager.withProduct key st,
        ((manager.withProduct key st).collectDeliveryLocked key st.book isStale).map
          .deliver, ()) := by
  simp [collectDeliveryLocked]

@[simp] theorem run_trackSeqLocked (seq : UInt32) :
    (trackSeqLocked key seq).run (manager.withProduct key st) =
      (manager.withProduct key (st.trackSeqLocked seq).1, [],
        (st.trackSeqLocked seq).2) := by
  rw [trackSeqLocked, ProductState.trackSeqLocked, run_bind, run_product]
  by_cases first : st.book.lastProdMsgSeq = 0
  · simp [first, ProductState.withSeq]
  by_cases old : seq ≤ st.book.lastProdMsgSeq
  · simp [first, old]
  by_cases next : seq = st.book.lastProdMsgSeq + 1
  · simp only [if_neg first, if_neg old, if_pos next]
    simp [ProductState.withSeq]
  · simp only [if_neg first, if_neg old, if_neg next]
    simp [ProductState.withSeq]

/-- A loop over the entries of a message folds them into the book. -/
theorem run_forEach_writeBook
    {α : Type}
    (write : α → OrderBook → OrderBook)
    (entries : List α) :
    (forEach (fun entry => writeBook key (write entry)) entries).run
        (manager.withProduct key st) =
      (manager.withProduct key
        { st with book := entries.foldl (fun book entry => write entry book) st.book },
        [], ()) := by
  induction entries generalizing st with
  | nil => rfl
  | cons entry rest inductionHypothesis =>
      rw [forEach, run_bind, run_writeBook]
      simp only [inductionHypothesis]
      rfl

@[simp] theorem run_adoptSnapshotLocked
    (prodId : ProdIdText)
    (seq : UInt32)
    (entries : List SnapshotEntry)
    (infoTime : TimeText) :
    (adoptSnapshotLocked key prodId seq entries infoTime).run
        (manager.withProduct key st) =
      (manager.withProduct key
        (st.adoptSnapshotLocked prodId seq entries infoTime), [], ()) := by
  simp [adoptSnapshotLocked, run_forEach_writeBook,
    ProductState.adoptSnapshotLocked, OrderBook.clearLadders]

end Product

/-- A feed's critical section collects what its body asks for. -/
theorem feedProduct_eq
    (manager : OrderBookManager)
    (prodId : ProdIdText)
    (body : ProductState → ProductState × Option Bool) :
    let outcome := body (manager.getOrCreateLocked prodId)
    let stored := manager.withProduct prodId.key outcome.1
    manager.feedProduct prodId body =
      (stored, (outcome.2.map fun isStale =>
        stored.collectDeliveryLocked prodId.key outcome.1.book isStale).getD []) := by
  simp only [feedProduct, withProduct]
  cases (body (manager.getOrCreateLocked prodId)).2 <;> rfl

theorem run_trackOnly
    (manager : OrderBookManager)
    (prodId : ProdIdText)
    (seq : UInt32) :
    (trackOnly prodId seq).run manager =
      ((manager.feedProduct prodId (ProductState.trackOnly seq)).1,
        (manager.feedProduct prodId (ProductState.trackOnly seq)).2.map .deliver, ()) := by
  rw [feedProduct_eq]
  generalize found : manager.getOrCreateLocked prodId = st
  simp only [trackOnly, run_bind, run_getOrCreateLocked, found, run_product,
    run_trackSeqLocked, ProductState.trackOnly]
  by_cases old : (st.trackSeqLocked seq).2 = false
  · simp [old]
  by_cases unchanged : (st.trackSeqLocked seq).1.isStale = st.isStale
  · simp [old, unchanged]
  · simp [old, unchanged]

theorem run_onI081 (manager : OrderBookManager) (pkt : I081Packet) :
    (onI081 pkt).run manager =
      ((manager.onI081 pkt).1, (manager.onI081 pkt).2.map .deliver, ()) := by
  rw [OrderBookManager.onI081, feedProduct_eq]
  simp only [onI081, run_bind, run_getOrCreateLocked, run_trackSeqLocked,
    ProductState.applyIncrement]
  split_ifs
  · simp
  · simp [run_forEach_writeBook]

theorem run_offerSnapshot
    (manager : OrderBookManager)
    (prodId : ProdIdText)
    (seq : UInt32)
    (entries : List SnapshotEntry)
    (infoTime : TimeText) :
    let body := ProductState.offerSnapshot prodId seq entries infoTime
    (offerSnapshot prodId seq entries infoTime).run manager =
      ((manager.feedProduct prodId body).1,
        (manager.feedProduct prodId body).2.map .deliver, ()) := by
  intro body
  rw [feedProduct_eq]
  simp only [offerSnapshot, run_bind, run_getOrCreateLocked, run_product, body,
    ProductState.offerSnapshot]
  split_ifs <;> simp

end Code

/-! ## Loops over the products -/

/-- What the sweep does to a product. -/
def marked (st : ProductState) : ProductState :=
  if st.suspect || !st.synced then st else { st with suspect := true }

/-- The stale copy a loop over the products collects at one of them. -/
def trustedAt (manager : OrderBookManager) (key : ProdKey) : List Delivery :=
  ((manager.products.lookup key).map fun st =>
    if st.suspect || !st.synced then []
    else manager.collectDeliveryLocked key st.book true).getD []

/-- A loop over the keys of all products collects a copy of every trusted book. -/
theorem flatMap_trustedAt (manager : OrderBookManager) :
    manager.products.keys.flatMap manager.trustedAt = manager.collectTrusted := by
  rw [AList.keys, List.keys, List.flatMap_map, collectTrusted]
  apply List.flatMap_congr
  intro entry member
  rw [trustedAt, manager.products.lookup_of_mem_entries member]
  rfl

namespace Code

open Routine

theorem run_collectTrusted (manager : OrderBookManager) (key : ProdKey) :
    (collectTrusted key).run manager =
      (manager, (manager.trustedAt key).map .deliver, ()) := by
  rw [collectTrusted, trustedAt]
  cases found : manager.products.lookup key with
  | none => simp [product, found]
  | some st =>
      have current : (product key).run manager = (manager, [], st) := by
        simp [product, found]
      rw [run_bind, current, Option.map_some, Option.getD_some]
      by_cases stale : (st.suspect || !st.synced) = true
      · simp only [if_pos stale]
        rfl
      · simp only [if_neg stale, collectDeliveryLocked, run_bind, current, run_emit]
        rfl

theorem run_collectResetLocked (manager : OrderBookManager) :
    collectResetLocked.run manager =
      (manager.collectResetLocked.1,
        manager.collectResetLocked.2.map .deliver, ()) := by
  have loop : ∀ keys : List ProdKey, (forEach collectTrusted keys).run manager =
      (manager, (keys.flatMap manager.trustedAt).map .deliver, ()) := by
    intro keys
    induction keys with
    | nil => rfl
    | cons key rest inductionHypothesis =>
        rw [forEach, run_bind, run_collectTrusted]
        simp only [inductionHypothesis, List.flatMap_cons, List.map_append]
  simp only [collectResetLocked, run_bind, run_read, loop, run_modify,
    flatMap_trustedAt]
  simp [OrderBookManager.collectResetLocked]

/-- One iteration of the sweep rewrites its product in place. -/
theorem run_markSuspect (manager : OrderBookManager) (key : ProdKey) :
    (markSuspect key).run manager =
      ({ manager with products := manager.products.adjust key marked },
        (manager.trustedAt key).map .deliver, ()) := by
  have kept (unchanged : ∀ st, manager.products.lookup key = some st → marked st = st) :
      manager.products.adjust key marked = manager.products := by
    apply UnorderedMap.mapVals_self
    intro other st found
    split
    · next same =>
        rw [same] at found
        exact unchanged st found
    · rfl
  rw [markSuspect, trustedAt]
  cases found : manager.products.lookup key with
  | none =>
      rw [kept (fun st impossible => by rw [found] at impossible; cases impossible)]
      simp [product, found]
  | some st =>
      have current : (product key).run manager = (manager, [], st) := by
        simp [product, found]
      rw [run_bind, current, Option.map_some, Option.getD_some]
      by_cases stale : (st.suspect || !st.synced) = true
      · rw [kept]
        · simp only [if_pos stale]
          rfl
        · intro other same
          rw [found] at same
          obtain rfl := Option.some.inj same
          rw [marked, if_pos stale]
      · have written : manager.products.adjust key marked =
            manager.products.adjust key fun st => { st with suspect := true } := by
          apply UnorderedMap.mapVals_congr
          intro other value present
          split
          · next same =>
              rw [same, found] at present
              obtain rfl := Option.some.inj present
              rw [marked, if_neg stale]
          · rfl
        rw [written]
        simp only [if_neg stale]
        simp [product, found, writeProduct, collectDeliveryLocked,
          UnorderedMap.lookup_adjust, OrderBookManager.collectDeliveryLocked]

theorem run_sweepSuspect (manager : OrderBookManager) :
    sweepSuspect.run manager =
      (manager.sweepSuspect.1, manager.sweepSuspect.2.map .deliver, ()) := by
  have loop : ∀ keys : List ProdKey, keys.Nodup → ∀ manager : OrderBookManager,
      (forEach markSuspect keys).run manager =
      ({ manager with
          products := manager.products.mapVals fun key st =>
            if key ∈ keys then marked st else st },
        (keys.flatMap manager.trustedAt).map .deliver, ()) := by
    intro keys distinct
    induction keys with
    | nil =>
        intro manager
        simp only [List.not_mem_nil, if_false]
        rw [UnorderedMap.mapVals_self fun _ _ _ => rfl]
        rfl
    | cons key rest inductionHypothesis =>
        intro manager
        obtain ⟨fresh, restDistinct⟩ := List.nodup_cons.mp distinct
        have restCopies : rest.flatMap
            ({ manager with
              products := manager.products.adjust key marked } :
                OrderBookManager).trustedAt = rest.flatMap manager.trustedAt := by
          apply List.flatMap_congr
          intro other member
          have different : other ≠ key := fun same => fresh (same ▸ member)
          simp only [trustedAt, UnorderedMap.lookup_adjust, if_neg different,
            Option.map_id']
          rfl
        rw [forEach, run_bind, run_markSuspect]
        simp only [inductionHypothesis restDistinct, restCopies]
        rw [UnorderedMap.adjust, UnorderedMap.mapVals_mapVals, List.flatMap_cons,
          List.map_append]
        congr 3
        funext other value
        by_cases same : other = key
        · simp [same, fresh]
        · simp [same]
  rw [sweepSuspect, run_bind, run_read]
  simp only [loop manager.products.keys manager.products.keys_nodup, flatMap_trustedAt]
  simp only [OrderBookManager.sweepSuspect, List.nil_append]
  congr 2
  apply UnorderedMap.mapVals_congr
  intro key st found
  rw [if_pos (AList.mem_keys.mp (AList.lookup_isSome.mp (by rw [found]; rfl)))]
  rfl

theorem run_onHeader (manager : OrderBookManager) (header : Header) :
    (onHeader header).run manager =
      ((manager.onHeader header).1, (manager.onHeader header).2.map .deliver, ()) := by
  rw [onHeader, OrderBookManager.onHeader]
  by_cases reset : header.messageKind = '2'.toUInt8
  · rw [if_pos reset, if_pos reset, run_collectResetLocked]
  rw [if_neg reset, if_neg reset]
  cases found : manager.channels.lookup header.channelId with
  | none => simp [found]
  | some channel =>
      simp only [run_bind, run_read, found, writeChannel, run_modify, Option.getD_some,
        AList.lookup_insert]
      generalize flagged : (if header.messageKind = 'C'.toUInt8 then
        { channel with isSnapshotChannel := true } else channel : ChannelState) = current
      by_cases old : header.messageKind ≠ '1'.toUInt8 ∧
          header.channelSeq ≤ current.lastSeq
      · simp only [if_pos old, run_pure]
        rfl
      simp only [if_neg old, run_bind, run_modify, AList.lookup_insert,
        Option.getD_some, AList.insert_insert]
      generalize gap : (if header.messageKind = '1'.toUInt8 then
          decide (current.lastSeq < header.channelSeq)
        else decide (header.channelSeq ≠ current.lastSeq + 1)) = gapped
      by_cases quiet : (!gapped || current.isSnapshotChannel) = true
      · simp only [if_pos quiet, run_pure]
        rfl
      · simp only [if_neg quiet, run_sweepSuspect]
        rfl

/-! ## Every critical section -/

theorem run_step (manager : OrderBookManager) (fed : Step) :
    (step fed).run manager =
      ((manager.step fed).1, (manager.step fed).2.map .deliver, ()) := by
  cases fed with
  | header header => exact run_onHeader manager header
  | i024 pkt | i025 pkt => exact run_trackOnly manager _ _
  | i081 pkt => exact run_onI081 manager pkt
  | i083 pkt =>
      rw [step, onI083, OrderBookManager.step, OrderBookManager.onI083]
      by_cases trial : pkt.calculatedFlag = '1'.toUInt8
      · rw [if_pos trial, if_pos trial]
        exact run_trackOnly manager _ _
      · rw [if_neg trial, if_neg trial]
        exact run_offerSnapshot manager _ _ _ _
  | i084Product header prod => exact run_offerSnapshot manager _ _ _ _
  | reset => exact run_collectResetLocked manager

end Code

/-- The callbacks that an operation unregisters, in the order they are let go. -/
def released (manager : OrderBookManager) : Operation → List CallbackPtr
  | .unregisterCallbacks prodId =>
      (manager.callbacks.lookup (trimProdId prodId)).getD []
  | .unregisterAllCallbacks =>
      manager.wildcardCallbacks ++ manager.callbacks.entries.flatMap fun entry => entry.2
  | _ => []

/-- What an access does, in one step. -/
def perform
    (manager : OrderBookManager) :
    Access → OrderBookManager × List Aftermath × Answer
  | .operate operation =>
      ((manager.operate operation).1,
        (manager.operate operation).2.map .deliver ++
          (manager.released operation).map .drop,
        .nothing)
  | .getBook prodId => (manager, [], .book (manager.getBook prodId))
  | .productIds => (manager, [], .ids manager.productIds)

namespace Code

/-- The code of every critical section, run without interruption, is its step. -/
theorem run_access (manager : OrderBookManager) (accessed : Access) :
    (access accessed).run manager = manager.perform accessed := by
  cases accessed with
  | getBook prodId => simp [access, perform, getBook]
  | productIds => simp [access, perform, OrderBookManager.productIds]
  | operate operation =>
      cases operation with
      | feed fed => simp [access, perform, run_step, operate, released]
      | registerCallback prodId callback =>
          simp [access, perform, registerCallback, operate, released,
            OrderBookManager.registerCallback]
      | registerCallbackAll callback =>
          simp [access, perform, registerCallbackAll, operate, released,
            OrderBookManager.registerCallbackAll]
      | unregisterCallbacks prodId =>
          cases found : manager.callbacks.lookup (trimProdId prodId) with
          | none =>
              have absent : manager.callbacks.erase (trimProdId prodId) =
                  manager.callbacks := by
                apply AList.ext
                exact List.kerase_of_notMem_keys
                  (AList.mem_keys.not.mp (AList.lookup_eq_none.mp found))
              simp [access, perform, unregisterCallbacks, found, operate, released,
                OrderBookManager.unregisterCallbacks, absent]
          | some removed =>
              simp [access, perform, unregisterCallbacks, found, operate, released,
                OrderBookManager.unregisterCallbacks]
      | unregisterAllCallbacks =>
          simp [access, perform, unregisterAllCallbacks, operate, released,
            OrderBookManager.unregisterAllCallbacks]

end Code
end OrderBookManager
end TaifexResolver
