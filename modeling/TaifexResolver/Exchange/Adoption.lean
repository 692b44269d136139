import TaifexResolver.Delivery.Isolation
import TaifexResolver.OrderBook.Builders
import TaifexResolver.OrderBook.LadderEdits

/-!
# Adopting a snapshot

Adoption forgets.  The state it leaves is a function of the snapshot: neither the
content and the flags it finds nor the order of the entries show in it, and a list
of the valid levels of a reachable book rebuilds the book.
-/

namespace TaifexResolver

/-- The product state a snapshot stands for. -/
def ProductState.ofSnapshot
    (prodId : ProdIdText)
    (seq : UInt32)
    (infoTime : TimeText)
    (ladders : Ladders) : ProductState where
  book := OrderBook.withLadders
    { prodId := copyProdId prodId
      lastProdMsgSeq := seq
      hasSnapshot := true
      infoTime := infoTime } ladders
  synced := true
  suspect := false

/-! ## The flag of the stored book -/

namespace ProductState

@[simp] theorem bookFlag_trackSeqLocked (st : ProductState) (seq : UInt32) :
    (st.trackSeqLocked seq).1.book.isStale = st.book.isStale := by
  unfold trackSeqLocked
  split_ifs <;> rfl

/-- Adoption leaves the state the snapshot stands for, when the stored flag has its
default. -/
theorem adoptSnapshotLocked_eq_ofSnapshot
    {st : ProductState}
    (flag : st.book.isStale = true)
    (prodId : ProdIdText)
    (seq : UInt32)
    (entries : List SnapshotEntry)
    (infoTime : TimeText) :
    st.adoptSnapshotLocked prodId seq entries infoTime =
      ofSnapshot prodId seq infoTime (entries.foldl Ladders.placeEntry Ladders.empty) := by
  rw [adoptSnapshotLocked_eq, flag]
  rfl

end ProductState

/-- No message touches the flag of the stored book: only copies are stamped. -/
theorem ProductMessage.bookFlag_body
    (message : ProductMessage)
    (prodId : ProdIdText)
    (st : ProductState) :
    (message.body prodId st).1.book.isStale = st.book.isStale := by
  cases message with
  | track seq =>
      simp only [body, ProductState.trackOnly]
      split_ifs <;> exact st.bookFlag_trackSeqLocked seq
  | increment seq entries infoTime =>
      simp only [body, ProductState.applyIncrement]
      split_ifs
      · exact st.bookFlag_trackSeqLocked seq
      · rw [OrderBook.foldl_applyEntry_eq_withLadders]
        exact st.bookFlag_trackSeqLocked seq
  | snapshot seq entries infoTime =>
      simp only [body, ProductState.offerSnapshot]
      split_ifs
      · rfl
      · simp only [ProductState.adoptSnapshotLocked,
          OrderBook.foldl_placeEntry_eq_withLadders]
        rfl

namespace OrderBookManager

/-- The stored books of every reachable manager keep the default flag. -/
theorem bookFlag_final
    {manager : OrderBookManager}
    (blank : manager.Blank)
    (steps : List Step)
    {key : ProdKey}
    {st : ProductState}
    (reached : (step.final manager steps).productAt key = some st) :
    st.book.isStale = true :=
  product_invariant (fun _ => True) (fun st => st.book.isStale = true)
    (fun _ => rfl)
    (fun _ prodId message st _ _ _ flag => (message.bookFlag_body prodId st).trans flag)
    (fun _ flag => flag) blank (fun _ _ => trivial) reached

/-- Whether the product of a snapshot takes it: its last serial, if it has been seen
at all, does not exceed the serial of the snapshot. -/
def Accepts (manager : OrderBookManager) (prodId : ProdIdText) (seq : UInt32) : Prop :=
  ∀ st, manager.productAt prodId.key = some st → st.book.lastProdMsgSeq ≤ seq

/-- An accepted snapshot leaves the state it stands for. -/
theorem productAt_step_snapshot
    {manager : OrderBookManager}
    (blank : manager.Blank)
    (steps : List Step)
    {offer : Step}
    {prodId : ProdIdText}
    {seq : UInt32}
    {entries : List SnapshotEntry}
    {infoTime : TimeText}
    (carries : offer.message = some (prodId, .snapshot seq entries infoTime))
    (accepts : (step.final manager steps).Accepts prodId seq) :
    ((step.final manager steps).step offer).1.productAt prodId.key =
      some (ProductState.ofSnapshot prodId seq infoTime
        (entries.foldl Ladders.placeEntry Ladders.empty)) := by
  rw [productAt_step_own _ carries, getOrCreateLocked_eq]
  congr 1
  cases seen : (step.final manager steps).productAt prodId.key with
  | none =>
      have accepted : (ProductMessage.snapshot seq entries infoTime).Accepted
          (ProductAction.newborn prodId) := Or.inl rfl
      simp only [Option.getD_none, ProductMessage.body,
        ProductMessage.offerSnapshot_accepted prodId entries infoTime accepted]
      exact ProductState.adoptSnapshotLocked_eq_ofSnapshot rfl prodId seq entries infoTime
  | some st =>
      have accepted : (ProductMessage.snapshot seq entries infoTime).Accepted st :=
        Or.inr (UInt32.le_iff_toNat_le.mp (accepts st seen))
      simp only [Option.getD_some, ProductMessage.body,
        ProductMessage.offerSnapshot_accepted prodId entries infoTime accepted]
      exact ProductState.adoptSnapshotLocked_eq_ofSnapshot (bookFlag_final blank steps seen)
        prodId seq entries infoTime

/-- Steps that carry the same message do the same. -/
theorem step_congr_message
    (manager : OrderBookManager)
    {first second : Step}
    {carried : ProdIdText × ProductMessage}
    (firstCarries : first.message = some carried)
    (secondCarries : second.message = some carried) :
    manager.step first = manager.step second := by
  rw [manager.step_of_message firstCarries, manager.step_of_message secondCarries]

end OrderBookManager

/-! ## Listings among garbage -/

/-- Whether an entry announces a level of a book: its type is that of a side and its
level one of the first five. -/
def SnapshotEntry.Announces (entry : SnapshotEntry) : Prop :=
  entry.entryType ∈ [Side.bids, .asks, .derivedBids, .derivedAsks].map Side.entryType ∧
    1 ≤ entry.priceLevel.toNat ∧ entry.priceLevel.toNat ≤ taifexBookDepth

instance (entry : SnapshotEntry) : Decidable entry.Announces :=
  inferInstanceAs (Decidable (_ ∧ _))

theorem SnapshotEntry.announces_iff (entry : SnapshotEntry) :
    entry.Announces ↔ ∃ slot, entry.slot = some slot := by
  simp only [slot, slotOf_eq_some_iff]
  constructor
  · rintro ⟨named, lower, upper⟩
    obtain ⟨side, _, same⟩ := List.mem_map.mp named
    exact ⟨(side, ⟨entry.priceLevel.toNat - 1, by omega⟩), same.symm, by simp only; omega⟩
  · rintro ⟨⟨side, idx⟩, typed, level⟩
    have bound := idx.isLt
    refine ⟨List.mem_map.mpr ⟨side, ?_, typed.symm⟩, by omega, by omega⟩
    cases side <;> decide

namespace Ladders

/-- A list that announces exactly the valid levels of a book, each once, in any
order, among entries of unknown type or level. -/
def ListedAmong (ladders : Ladders) (entries : List SnapshotEntry) : Prop :=
  ladders.ListedBy (entries.filter fun entry => entry.Announces)

instance (ladders : Ladders) (entries : List SnapshotEntry) :
    Decidable (ladders.ListedAmong entries) :=
  inferInstanceAs (Decidable (Ladders.ListedBy _ _))

/-- Entries that announce no level are skipped. -/
theorem foldl_placeEntry_filter (ladders : Ladders) (entries : List SnapshotEntry) :
    (entries.filter fun entry => entry.Announces).foldl placeEntry ladders =
      entries.foldl placeEntry ladders := by
  induction entries generalizing ladders with
  | nil => rfl
  | cons entry rest inductionHypothesis =>
      rw [List.foldl_cons, ← inductionHypothesis]
      by_cases announces : entry.Announces
      · rw [List.filter_cons_of_pos (by simpa using announces), List.foldl_cons]
      · have skipped : ladders.placeEntry entry = ladders := by
          have unaddressed : entry.slot = none :=
            Option.eq_none_iff_forall_ne_some.mpr
              (not_exists.mp (mt entry.announces_iff.mpr announces))
          simp only [placeEntry, unaddressed]
        rw [List.filter_cons_of_neg (by simpa using announces), skipped]

/-- Placing a listing among garbage on empty ladders rebuilds the book. -/
theorem foldl_placeEntry_of_listedAmong
    {ladders : Ladders}
    (canonical : ladders.Canonical)
    {entries : List SnapshotEntry}
    (listed : ladders.ListedAmong entries) :
    entries.foldl placeEntry empty = ladders :=
  (foldl_placeEntry_filter empty entries).symm.trans
    (foldl_placeEntry_of_listedBy canonical listed)

end Ladders

/-- Adoption rebuilds a book and erases history.  A normal I083 and a block of an
I084 with the same product id, serial, entries and header time do the same.  A
snapshot that a reachable product accepts leaves a state that depends on the snapshot
only; if it lists, in any order and among garbage, the valid levels of a reachable
book, it leaves the ladders of that book.  Two reachable managers with the same
trackers that accept the same snapshot keep the same state of the product under
every common continuation. -/
theorem snapshot_adoption_erases_history
    {manager : OrderBookManager}
    (blank : manager.Blank)
    (steps : List Step)
    {offer : Step}
    {prodId : ProdIdText}
    {seq : UInt32}
    {entries : List SnapshotEntry}
    {infoTime : TimeText}
    (carries : offer.message = some (prodId, .snapshot seq entries infoTime))
    (accepts : (OrderBookManager.step.final manager steps).Accepts prodId seq) :
    let adopted := ((OrderBookManager.step.final manager steps).step offer).1
    (∀ (pkt : I083Packet) (header : Header) (prod : I084Product),
      pkt.calculatedFlag ≠ '1'.toUInt8 → pkt.prodId = prod.prodId →
      pkt.prodMsgSeq = prod.lastProdMsgSeq → pkt.entries = prod.entries →
      pkt.header.infoTime = header.infoTime →
      ∀ state : OrderBookManager, state.onI083 pkt = state.onI084Product header prod) ∧
    adopted.productAt prodId.key =
      some (ProductState.ofSnapshot prodId seq infoTime
        (entries.foldl Ladders.placeEntry Ladders.empty)) ∧
    (∀ (source : OrderBookManager) (history : List Step) (key : ProdKey)
        (found : ProductState),
      source.Blank →
      (OrderBookManager.step.final source history).productAt key = some found →
      Ladders.ListedAmong found.book.ladder entries →
      adopted.productAt prodId.key =
        some (ProductState.ofSnapshot prodId seq infoTime found.book.ladder)) ∧
    ∀ (other : OrderBookManager) (otherSteps : List Step) (sameOffer : Step),
      other.Blank →
      sameOffer.message = offer.message →
      (OrderBookManager.step.final other otherSteps).Accepts prodId seq →
      (∀ channel, (OrderBookManager.step.final manager steps).channelAt channel =
        (OrderBookManager.step.final other otherSteps).channelAt channel) →
      ∀ continuation,
        SameProduct prodId.key
          (OrderBookManager.step.final adopted continuation)
          (OrderBookManager.step.final
            ((OrderBookManager.step.final other otherSteps).step sameOffer).1
            continuation) := by
  intro adopted
  have state := OrderBookManager.productAt_step_snapshot blank steps carries accepts
  refine ⟨fun pkt header prod normal sameId sameSeq sameEntries sameTime manager => ?_,
    state, fun source history key found sourceBlank reached listed => ?_,
    fun other otherSteps sameOffer otherBlank same otherAccepts channels => ?_⟩
  · have carried : (Step.i083 pkt).message = (Step.i084Product header prod).message := by
      simp only [Step.message, if_neg normal, sameId, sameSeq, sameEntries, sameTime]
    change manager.step (.i083 pkt) = manager.step (.i084Product header prod)
    exact manager.step_congr_message carried rfl
  · rw [← Ladders.foldl_placeEntry_of_listedAmong
      (OrderBookManager.canonical_final sourceBlank history reached) listed]
    exact state
  · refine SameProduct.final ⟨?_, fun channel => ?_⟩
    · exact state.trans (OrderBookManager.productAt_step_snapshot otherBlank otherSteps
        (same.trans carries) otherAccepts).symm
    · rw [OrderBookManager.channelAt_step_of_message _ carries,
        OrderBookManager.channelAt_step_of_message _ (same.trans carries)]
      exact channels channel

/-- A product with a gap and one never seen adopt a shuffled listing with garbage,
one from an I083 and one from an I084, and agree from then on. -/
theorem snapshot_adoption_erases_history_shuffled :
    let bid := Builders.makeEntry '0' '0' 10315 4 1
    let ask := Builders.makeEntry '0' '1' 10320 7 1
    let source := OrderBookManager.step.final {}
      [.i081 (Builders.makeI081 Builders.kProd 1 [bid, ask] 1)]
    let gapped := OrderBookManager.step.final {}
      [.i081 (Builders.makeI081 Builders.kProd 2 [bid] 1)]
    let entries :=
      [Builders.makeSnapshotEntry '1' 10320 7 1, Builders.makeSnapshotEntry '9' 1 1 1,
        Builders.makeSnapshotEntry '0' 10315 4 1, Builders.makeSnapshotEntry '0' 1 1 6]
    let offer : Step := .i083 (Builders.makeI083 Builders.kProd 3 entries 2 '0')
    let sameOffer : Step := .i084Product (Builders.makeHeader 'C' 1 Builders.kSnapChannel)
      (Builders.makeI084Product Builders.kProd 3 entries)
    let unseen : OrderBookManager := {}
    let key := (Builders.setProd Builders.kProd).key
    ((gapped.step offer).1.productAt key).map (fun st => st.book.ladder) =
        (source.productAt key).map (fun st => st.book.ladder) ∧
      ∀ continuation, SameProduct key
        (OrderBookManager.step.final (gapped.step offer).1 continuation)
        (OrderBookManager.step.final (unseen.step sameOffer).1 continuation) := by
  intro bid ask source gapped entries offer sameOffer unseen key
  have accepts : gapped.Accepts (Builders.setProd Builders.kProd) 3 := by
    intro st seen
    obtain rfl := Option.some.inj seen
    decide
  have carries : offer.message =
      some (Builders.setProd Builders.kProd, .snapshot 3 entries (Vector.replicate 16 0)) :=
    rfl
  obtain ⟨_, _, rebuilds, converges⟩ :=
    snapshot_adoption_erases_history OrderBookManager.blank_new _ carries accepts
  refine ⟨?_, ?_⟩
  · obtain ⟨found, reached, listed⟩ : ∃ found, source.productAt key = some found ∧
        Ladders.ListedAmong found.book.ladder entries := ⟨_, rfl, by decide⟩
    have rebuilt := rebuilds {} _ key found OrderBookManager.blank_new reached listed
    rw [reached]
    apply (congrArg _ rebuilt).trans
    exact congrArg some (OrderBook.ladder_withLadders _ _)
  · exact converges unseen [] sameOffer OrderBookManager.blank_new rfl
      (fun st seen => nomatch seen) fun channel => rfl

end TaifexResolver
