import TaifexResolver.OrderBook.Ladders
import TaifexResolver.OrderBook.Step

/-!
# The manager as seen by one product

A step reaches a product in one of four ways: it feeds the product a message,
it sweeps it as suspect, it clears it, or it leaves it alone.  `ProductAction`
names these, and the theorems below say that the manager's product map, its
channel map and its deliveries evolve, product by product, as the actions say.
Every later invariant about one product rests on them.
-/

namespace TaifexResolver

/-- What one step does to one product. -/
inductive ProductAction
  | keep
  | feed (prodId : ProdIdText) (message : ProductMessage)
  | suspect
  | clear

namespace ProductAction

/-- The state a product is created in. -/
def newborn (prodId : ProdIdText) : ProductState where
  book := { prodId := copyProdId prodId }

/-- The product state after an action. -/
def apply : ProductAction → Option ProductState → Option ProductState
  | .keep, found => found
  | .feed prodId message, found =>
      some (message.body prodId (found.getD (newborn prodId))).1
  | .suspect, found =>
      found.map fun st =>
        if st.suspect || !st.synced then st else { st with suspect := true }
  | .clear, _ => none

/-- A sweep raises the suspicion of exactly the products with a proven chain. -/
theorem apply_suspect (found : Option ProductState) :
    suspect.apply found =
      found.map fun st => { st with suspect := st.suspect || st.synced } := by
  simp only [apply]
  congr 1
  funext st
  obtain ⟨book, synced, suspect⟩ := st
  cases suspect <;> cases synced <;> rfl

/-- The book copies an action delivers, when somebody listens. -/
def copies : ProductAction → Option ProductState → List OrderBook
  | .keep, _ => []
  | .feed prodId message, found =>
      let outcome := message.body prodId (found.getD (newborn prodId))
      outcome.2.toList.map outcome.1.book.stamp
  | .suspect, found | .clear, found =>
      (found.filter fun st => !st.isStale).toList.map fun st =>
        st.book.stamp true

@[simp] theorem copies_clear_none : clear.copies none = [] := rfl

@[simp] theorem copies_clear_some (st : ProductState) :
    clear.copies (some st) =
      if st.isStale then [] else [st.book.stamp true] := by
  cases stale : st.isStale <;> simp [copies, Option.filter, stale]

end ProductAction

namespace OrderBookManager

/-- Whether a delivery for a product reaches anybody. -/
def HasListener (manager : OrderBookManager) (key : ProdKey) : Prop :=
  (manager.callbacks.lookup key).getD [] ≠ [] ∨ manager.wildcardCallbacks ≠ []

instance (manager : OrderBookManager) (key : ProdKey) :
    Decidable (manager.HasListener key) :=
  inferInstanceAs (Decidable (_ ∨ _))

/-- Every stored book carries a raw id that trims to its key. -/
def Keyed (manager : OrderBookManager) : Prop :=
  ∀ key st, manager.productAt key = some st → st.book.prodId.key = key

end OrderBookManager

/-- What a step does to the product with a given key. -/
def Step.actionOn
    (key : ProdKey)
    (manager : OrderBookManager)
    (step : Step) : ProductAction :=
  match step.message with
  | some (prodId, message) =>
      if prodId.key = key then .feed prodId message else .keep
  | none =>
      if step.isReset then .clear
      else
        match step with
        | .header received =>
            if ChannelState.RevealsGap
                (manager.channelAt received.channelId) received then .suspect
            else .keep
        | _ => .keep

/-- The book copies among some deliveries that belong to one product. -/
def copiesFor (key : ProdKey) (deliveries : List Delivery) : List OrderBook :=
  (deliveries.map Delivery.book).filter fun book => book.prodId.key = key

@[simp] theorem copiesFor_nil (key : ProdKey) : copiesFor key [] = [] := rfl

@[simp] theorem copiesFor_append (key : ProdKey) (first second : List Delivery) :
    copiesFor key (first ++ second) = copiesFor key first ++ copiesFor key second := by
  simp [copiesFor]

theorem mem_copiesFor {key : ProdKey} {deliveries : List Delivery} {book : OrderBook} :
    book ∈ copiesFor key deliveries ↔
      (∃ delivery ∈ deliveries, delivery.book = book) ∧ book.prodId.key = key := by
  simp [copiesFor]

/-! ## The raw product id is kept -/

@[simp] theorem key_copyProdId (prodId : ProdIdText) :
    (copyProdId prodId).key = prodId.key := by
  simp only [ProdIdText.key, copyProdId, trimProdId, Vector.toList_set]
  rw [List.take_set_of_le (Nat.le_refl 20)]

namespace ProductState

@[simp] theorem prodId_trackSeqLocked (st : ProductState) (seq : UInt32) :
    (st.trackSeqLocked seq).1.book.prodId = st.book.prodId := by
  unfold trackSeqLocked
  split_ifs <;> rfl

theorem prodId_trackOnly (st : ProductState) (seq : UInt32) :
    (st.trackOnly seq).1.book.prodId = st.book.prodId := by
  simp only [trackOnly]
  split_ifs <;> exact prodId_trackSeqLocked st seq

theorem prodId_applyIncrement
    (st : ProductState)
    (seq : UInt32)
    (entries : List MDEntry)
    (infoTime : TimeText) :
    (st.applyIncrement seq entries infoTime).1.book.prodId = st.book.prodId := by
  simp only [applyIncrement]
  split_ifs
  · exact prodId_trackSeqLocked st seq
  · rw [OrderBook.foldl_applyEntry_eq_withLadders]
    exact prodId_trackSeqLocked st seq

end ProductState

/-- A message leaves its product's raw id trimming to the product's key. -/
theorem ProductMessage.key_body
    (message : ProductMessage)
    (prodId : ProdIdText)
    (st : ProductState)
    (keyed : st.book.prodId.key = prodId.key) :
    (message.body prodId st).1.book.prodId.key = prodId.key := by
  cases message with
  | track seq =>
      rw [ProductMessage.body, ProductState.prodId_trackOnly]
      exact keyed
  | increment seq entries infoTime =>
      rw [ProductMessage.body, ProductState.prodId_applyIncrement]
      exact keyed
  | snapshot seq entries infoTime =>
      simp only [ProductMessage.body, ProductState.offerSnapshot]
      split_ifs
      · exact keyed
      · exact key_copyProdId prodId

namespace OrderBookManager

/-! ## States -/

theorem getOrCreateLocked_eq (manager : OrderBookManager) (prodId : ProdIdText) :
    manager.getOrCreateLocked prodId =
      (manager.productAt prodId.key).getD (ProductAction.newborn prodId) := rfl

theorem feedProduct_fst
    (manager : OrderBookManager)
    (prodId : ProdIdText)
    (body : ProductState → ProductState × Option Bool) :
    (manager.feedProduct prodId body).1 =
      { manager with
        products := manager.products.insert prodId.key
          (body (manager.getOrCreateLocked prodId)).1 } := by
  simp only [feedProduct]
  split <;> rfl

theorem productAt_feedProduct
    (manager : OrderBookManager)
    (prodId : ProdIdText)
    (message : ProductMessage)
    (key : ProdKey) :
    (manager.feedProduct prodId (message.body prodId)).1.productAt key =
      (if prodId.key = key then ProductAction.feed prodId message else .keep).apply
        (manager.productAt key) := by
  rw [feedProduct_fst]
  by_cases same : prodId.key = key
  · subst same
    rw [if_pos rfl]
    exact AList.lookup_insert _
  · rw [if_neg same]
    exact AList.lookup_insert_ne (Ne.symm same)

/-- The product map evolves product by product as the actions say. -/
theorem productAt_step
    (manager : OrderBookManager)
    (step : Step)
    (key : ProdKey) :
    (manager.step step).1.productAt key =
      (step.actionOn key manager).apply (manager.productAt key) := by
  rcases step.kinds with
    ⟨prodId, message, carried, _⟩ | ⟨silent, resets⟩ | ⟨received, rfl, notReset⟩
  · rw [step_of_message manager carried, productAt_feedProduct]
    simp only [Step.actionOn, carried]
  · rw [step_of_isReset manager resets]
    simp only [Step.actionOn, silent, if_pos resets]
    rfl
  · simp only [OrderBookManager.step, onHeader_eq manager notReset,
      Step.actionOn, Step.message, Step.isReset, decide_eq_true_eq,
      if_neg notReset]
    by_cases reveals : ChannelState.RevealsGap
        (manager.channelAt received.channelId) received
    · rw [if_pos reveals, if_pos reveals]
      exact UnorderedMap.lookup_mapVals _ _ _
    · rw [if_neg reveals, if_neg reveals]
      rfl

/-- A message runs its body on the product it is addressed to. -/
theorem productAt_step_own
    (manager : OrderBookManager)
    {step : Step}
    {prodId : ProdIdText}
    {message : ProductMessage}
    (carries : step.message = some (prodId, message)) :
    (manager.step step).1.productAt prodId.key =
      some (message.body prodId (manager.getOrCreateLocked prodId)).1 := by
  rw [productAt_step]
  simp only [Step.actionOn, carries, if_true]
  rfl

/-- A message leaves the products it is not addressed to alone. -/
theorem productAt_step_other
    (manager : OrderBookManager)
    {step : Step}
    {prodId : ProdIdText}
    {message : ProductMessage}
    (carries : step.message = some (prodId, message))
    {key : ProdKey}
    (different : prodId.key ≠ key) :
    (manager.step step).1.productAt key = manager.productAt key := by
  rw [productAt_step]
  simp only [Step.actionOn, carries, if_neg different]
  rfl

/-- A header that reveals no gap leaves every product alone. -/
theorem productAt_step_quiet_header
    (manager : OrderBookManager)
    {received : Header}
    (notReset : received.messageKind ≠ '2'.toUInt8)
    (quiet : ¬ChannelState.RevealsGap
      (manager.channelAt received.channelId) received)
    (key : ProdKey) :
    (manager.step (.header received)).1.productAt key = manager.productAt key := by
  rw [productAt_step]
  simp only [Step.actionOn, Step.message, Step.isReset, decide_eq_true_eq,
    if_neg notReset, if_neg quiet]
  rfl

/-- Typed messages leave the channel trackers alone. -/
theorem channelAt_step_of_message
    (manager : OrderBookManager)
    {step : Step}
    {prodId : ProdIdText}
    {message : ProductMessage}
    (carries : step.message = some (prodId, message))
    (channel : UInt16) :
    (manager.step step).1.channelAt channel = manager.channelAt channel := by
  rw [step_of_message manager carries, feedProduct_fst]
  rfl

/-- A header advances the tracker of its own channel and no other. -/
theorem channelAt_step_header
    (manager : OrderBookManager)
    {received : Header}
    (notReset : received.messageKind ≠ '2'.toUInt8)
    (channel : UInt16) :
    (manager.step (.header received)).1.channelAt channel =
      if received.channelId = channel then
        some (ChannelState.advance (manager.channelAt channel) received)
      else manager.channelAt channel := by
  have stored :
      (manager.step (.header received)).1.channels =
        manager.channels.insert received.channelId
          (ChannelState.advance
            (manager.channelAt received.channelId) received) := by
    simp only [OrderBookManager.step, onHeader_eq manager notReset]
    split <;> rfl
  rw [channelAt, stored]
  by_cases same : received.channelId = channel
  · subst same
    rw [if_pos rfl]
    exact AList.lookup_insert _
  · rw [if_neg same]
    exact AList.lookup_insert_ne (Ne.symm same)

/-! ## Registrations and keys are invariant -/

theorem callbacks_step (manager : OrderBookManager) (step : Step) :
    (manager.step step).1.callbacks = manager.callbacks ∧
      (manager.step step).1.wildcardCallbacks = manager.wildcardCallbacks := by
  rcases step.kinds with
    ⟨prodId, message, carried, _⟩ | ⟨_, resets⟩ | ⟨received, rfl, notReset⟩
  · rw [step_of_message manager carried, feedProduct_fst]
    exact ⟨rfl, rfl⟩
  · rw [step_of_isReset manager resets]
    exact ⟨rfl, rfl⟩
  · simp only [OrderBookManager.step, onHeader_eq manager notReset]
    split <;> exact ⟨rfl, rfl⟩

theorem hasListener_step
    (manager : OrderBookManager)
    (step : Step)
    (key : ProdKey) :
    (manager.step step).1.HasListener key ↔ manager.HasListener key := by
  rw [HasListener, HasListener, (callbacks_step manager step).1,
    (callbacks_step manager step).2]

end OrderBookManager

/-- The only message a step feeds a product is addressed to that product. -/
theorem Step.key_of_actionOn_feed
    {key : ProdKey}
    {manager : OrderBookManager}
    {step : Step}
    {prodId : ProdIdText}
    {message : ProductMessage}
    (feeds : step.actionOn key manager = .feed prodId message) :
    step.message = some (prodId, message) ∧ prodId.key = key := by
  unfold actionOn at feeds
  split at feeds
  · next carriedId carriedMessage carried =>
      split at feeds
      · next same =>
          cases feeds
          exact ⟨carried, same⟩
      · cases feeds
  · repeat' split at feeds
    all_goals cases feeds

/-- Only a reset clears a product. -/
theorem Step.isReset_of_actionOn_clear
    {key : ProdKey}
    {manager : OrderBookManager}
    {step : Step}
    (clears : step.actionOn key manager = .clear) :
    step.isReset = true := by
  unfold actionOn at clears
  split at clears
  · split at clears <;> cases clears
  · split at clears
    · assumption
    · repeat' split at clears
      all_goals cases clears

/-- An action keeps the raw id trimming to the key of the product it reaches. -/
theorem ProductAction.key_apply
    {key : ProdKey}
    {action : ProductAction}
    {found : Option ProductState}
    (addressed : ∀ prodId message, action = .feed prodId message →
      prodId.key = key)
    (keyed : ∀ st, found = some st → st.book.prodId.key = key)
    {st : ProductState}
    (result : action.apply found = some st) :
    st.book.prodId.key = key := by
  cases action with
  | keep => exact keyed st result
  | clear => cases result
  | suspect =>
      simp only [apply, Option.map_eq_some_iff] at result
      obtain ⟨before, present, rfl⟩ := result
      have beforeKey := keyed before present
      split
      · exact beforeKey
      · exact beforeKey
  | feed prodId message =>
      have same := addressed prodId message rfl
      simp only [apply, Option.some.injEq] at result
      subst result
      rw [← same]
      apply message.key_body
      cases found with
      | none => exact key_copyProdId prodId
      | some before => exact (keyed before rfl).trans same.symm

namespace OrderBookManager

theorem keyed_step
    (manager : OrderBookManager)
    (step : Step)
    (keyed : manager.Keyed) :
    (manager.step step).1.Keyed := by
  intro key st found
  rw [productAt_step] at found
  exact ProductAction.key_apply
    (fun _ _ feeds => (Step.key_of_actionOn_feed feeds).2)
    (keyed key) found

/-! ## Deliveries -/

theorem not_hasListener_iff (manager : OrderBookManager) (key : ProdKey) :
    ¬manager.HasListener key ↔
      (manager.callbacks.lookup key).getD [] = [] ∧
        manager.wildcardCallbacks = [] := by
  simp [HasListener]

theorem copiesFor_collectDeliveryLocked
    (manager : OrderBookManager)
    {owner : ProdKey}
    {book : OrderBook}
    (keyed : book.prodId.key = owner)
    (isStale : Bool)
    (key : ProdKey) :
    copiesFor key (manager.collectDeliveryLocked owner book isStale) =
      if owner = key ∧ manager.HasListener key then
        [book.stamp isStale] else [] := by
  simp only [collectDeliveryLocked]
  split
  · next nobody =>
      have silent : ¬(owner = key ∧ manager.HasListener key) := by
        rintro ⟨rfl, listening⟩
        exact (not_hasListener_iff manager owner).mpr nobody listening
      rw [if_neg silent, copiesFor_nil]
  · next somebody =>
      have listening : manager.HasListener owner := by
        by_contra silent
        exact somebody ((not_hasListener_iff manager owner).mp silent)
      by_cases same : owner = key
      · subst same
        simp [copiesFor, keyed, listening]
      · simp [copiesFor, keyed, same]

theorem copiesFor_flatMap
    {α : Type}
    (key : ProdKey)
    (items : List α)
    (produce : α → List Delivery) :
    copiesFor key (items.flatMap produce) =
      items.flatMap fun item => copiesFor key (produce item) := by
  induction items with
  | nil => rfl
  | cons item rest inductionHypothesis =>
      rw [List.flatMap_cons, List.flatMap_cons, copiesFor_append,
        inductionHypothesis]

/-- The sweep and the reset deliver to each product the one stale copy of its
book, when it was trusted and somebody listens. -/
theorem copiesFor_collectTrusted
    (manager : OrderBookManager)
    (keyed : manager.Keyed)
    (key : ProdKey) :
    copiesFor key manager.collectTrusted =
      if manager.HasListener key then
        ProductAction.clear.copies (manager.productAt key) else [] := by
  let produce (owner : ProdKey) (st : ProductState) : List OrderBook :=
    copiesFor key
      (if st.suspect || !st.synced then []
      else manager.collectDeliveryLocked owner st.book true)
  have produced : ∀ owner st, manager.productAt owner = some st →
      produce owner st =
        if owner = key ∧ manager.HasListener key ∧ st.isStale = false then
          [st.book.stamp true] else [] := by
    intro owner st found
    simp only [produce]
    split
    · next stale =>
        have staleFlag : st.isStale = true := by
          rw [ProductState.isStale, Bool.or_comm]
          exact stale
        simp [staleFlag]
    · next trusted =>
        have freshFlag : st.isStale = false := by
          rw [ProductState.isStale, Bool.or_comm]
          exact Bool.eq_false_iff.mpr trusted
        rw [copiesFor_collectDeliveryLocked manager (keyed owner st found)]
        simp [freshFlag]
  have silent : ∀ owner st, manager.products.lookup owner = some st →
      owner ≠ key → produce owner st = [] := by
    intro owner st found different
    rw [produced owner st found]
    simp [different]
  rw [collectTrusted, copiesFor_flatMap]
  refine (UnorderedMap.flatMap_entries_of_single_key manager.products key
    produce silent).trans ?_
  cases found : manager.productAt key with
  | none =>
      rw [productAt] at found
      simp [found, ProductAction.copies]
  | some st =>
      have output := produced key st found
      rw [productAt] at found
      rw [found]
      simp only [Option.map_some, Option.getD_some, output,
        ProductAction.copies_clear_some]
      cases stale : st.isStale <;> simp

/-- A keyed manager with a listener delivers, for each product, exactly the
copies its action makes; without a listener it delivers none. -/
theorem copiesFor_step
    (manager : OrderBookManager)
    (step : Step)
    (keyed : manager.Keyed)
    (key : ProdKey) :
    copiesFor key (manager.step step).2 =
      if manager.HasListener key then
        (step.actionOn key manager).copies (manager.productAt key) else [] := by
  rcases step.kinds with
    ⟨prodId, message, carried, _⟩ | ⟨silent, resets⟩ | ⟨received, rfl, notReset⟩
  · rw [step_of_message manager carried]
    simp only [Step.actionOn, carried, feedProduct, getOrCreateLocked_eq]
    generalize outcomeEq : message.body prodId
      ((manager.productAt prodId.key).getD (ProductAction.newborn prodId)) = outcome
    have outcomeKeyed : outcome.1.book.prodId.key = prodId.key := by
      rw [← outcomeEq]
      apply message.key_body
      cases found : manager.productAt prodId.key with
      | none => exact key_copyProdId prodId
      | some st => exact keyed _ st found
    by_cases same : prodId.key = key
    · subst same
      simp only [if_true, ProductAction.copies, outcomeEq]
      cases notify : outcome.2 with
      | none => simp
      | some isStale =>
          simp only [copiesFor_collectDeliveryLocked _ outcomeKeyed]
          simp [HasListener]
    · simp only [if_neg same, ProductAction.copies, ite_self]
      cases notify : outcome.2 with
      | none => rfl
      | some isStale =>
          simp only [copiesFor_collectDeliveryLocked _ outcomeKeyed]
          simp [same]
  · rw [step_of_isReset manager resets]
    simp only [Step.actionOn, silent, if_pos resets]
    exact copiesFor_collectTrusted manager keyed key
  · simp only [OrderBookManager.step, onHeader_eq manager notReset,
      Step.actionOn, Step.message, Step.isReset, decide_eq_true_eq,
      if_neg notReset]
    by_cases reveals : ChannelState.RevealsGap
        (manager.channelAt received.channelId) received
    · rw [if_pos reveals, if_pos reveals]
      exact copiesFor_collectTrusted
        { manager with channels := _ } keyed key
    · rw [if_neg reveals, if_neg reveals]
      simp [ProductAction.copies]

end OrderBookManager
end TaifexResolver
