import TaifexResolver.OrderBook.Builders
import TaifexResolver.OrderBook.Tracking

/-!
# A subscriber's last delivery mirrors the live book

A subscriber knows a product only through the copies delivered to it.  Its last
copy carries the live stale flag after every step, agrees with the live book
whenever that book is fresh, and agrees with its ladders at all times as long as
no reset separates them.
-/

namespace TaifexResolver

/-- The flag of the last copy; a subscriber without any copy trusts nothing. -/
def lastFlag (copies : List OrderBook) : Bool :=
  (copies.getLast?.map OrderBook.isStale).getD true

/-- The ladders of the last copy, empty before the first one. -/
def lastLadders (copies : List OrderBook) : Ladders :=
  (copies.getLast?.map OrderBook.ladder).getD Ladders.empty

/-- The live stale flag; an absent product counts as stale. -/
def liveFlag (found : Option ProductState) : Bool :=
  (found.map ProductState.isStale).getD true

/-- The agreement of two books on what a subscriber trades on. -/
structure SameContent (copy live : OrderBook) : Prop where
  ladder : copy.ladder = live.ladder
  hasSnapshot : copy.hasSnapshot = live.hasSnapshot
  infoTime : copy.infoTime = live.infoTime

theorem sameContent_stamp (book : OrderBook) (isStale : Bool) :
    SameContent (book.stamp isStale) book := ⟨rfl, rfl, rfl⟩

@[simp] theorem lastFlag_nil : lastFlag [] = true := rfl

@[simp] theorem lastFlag_concat (copies : List OrderBook) (copy : OrderBook) :
    lastFlag (copies ++ [copy]) = copy.isStale := by
  simp [lastFlag]

@[simp] theorem lastLadders_concat (copies : List OrderBook) (copy : OrderBook) :
    lastLadders (copies ++ [copy]) = copy.ladder := by
  simp [lastLadders]

/-! ## One action -/

/-- The invariant between the copies delivered so far and the live product. -/
structure Mirrors (copies : List OrderBook) (found : Option ProductState) : Prop where
  flag : lastFlag copies = liveFlag found
  content : ∀ st, found = some st → st.isStale = false →
    ∃ copy, copies.getLast? = some copy ∧ SameContent copy st.book

/-- The invariant on the ladders while no reset has come between. -/
structure Follows (copies : List OrderBook) (found : Option ProductState) : Prop where
  absent : found = none → copies = []
  ladders : ∀ st, found = some st → lastLadders copies = st.book.ladder

/-- Delivering a copy of the state just stored establishes the mirror. -/
theorem mirrors_concat_stamp (copies : List OrderBook) (st : ProductState) :
    Mirrors (copies ++ [st.book.stamp st.isStale]) (some st) := by
  refine ⟨by simp [liveFlag], fun live equal _ => ?_⟩
  cases equal
  exact ⟨_, List.getLast?_concat, sameContent_stamp _ _⟩

/-- A message that is not delivered leaves flag and content as they were. -/
theorem ProductMessage.undelivered
    {message : ProductMessage}
    {prodId : ProdIdText}
    {st : ProductState}
    (silent : (message.body prodId st).2 = none) :
    (message.body prodId st).1.isStale = st.isStale ∧
      SameContent st.book (message.body prodId st).1.book := by
  by_cases accepted : message.Accepted st
  · obtain ⟨_, _, _, ladders, hasSnapshot, infoTime, notified⟩ :=
      body_accepted prodId accepted
    rw [silent] at notified
    split at notified
    · next moved =>
        cases message with
        | track seq =>
            exact ⟨moved.2, ladders.symm, by simpa [isSnapshot] using hasSnapshot.symm,
              infoTime.symm⟩
        | increment seq entries infoTime | snapshot seq entries infoTime =>
            cases moved.1
    · cases notified
  · rw [body_refused prodId accepted]
    exact ⟨rfl, rfl, rfl, rfl⟩

theorem Mirrors.feed
    {copies : List OrderBook}
    {found : Option ProductState}
    (prodId : ProdIdText)
    (message : ProductMessage)
    (mirrors : Mirrors copies found) :
    Mirrors (copies ++ (ProductAction.feed prodId message).copies found)
      ((ProductAction.feed prodId message).apply found) := by
  simp only [ProductAction.copies, ProductAction.apply]
  -- An absent product is stale, exactly like the newborn that stands for it.
  have flagNow : lastFlag copies =
      (found.getD (ProductAction.newborn prodId)).isStale := by
    rw [mirrors.flag]
    cases found <;> rfl
  cases notified : (message.body prodId
      (found.getD (ProductAction.newborn prodId))).2 with
  | none =>
      obtain ⟨flagKept, contentKept⟩ := ProductMessage.undelivered notified
      refine ⟨?_, fun st equal fresh => ?_⟩
      · simp [liveFlag, flagKept, flagNow]
      · cases equal
        rw [flagKept] at fresh
        cases found with
        | none => cases fresh
        | some before =>
            obtain ⟨copy, last, same⟩ := mirrors.content before rfl fresh
            refine ⟨copy, by simpa using last, ?_⟩
            exact ⟨same.ladder.trans contentKept.ladder,
              same.hasSnapshot.trans contentKept.hasSnapshot,
              same.infoTime.trans contentKept.infoTime⟩
  | some isStale =>
      rw [← ProductMessage.notify_eq_isStale notified]
      exact mirrors_concat_stamp copies _

/-- A trusted product is delivered stale when it loses trust or is cleared. -/
theorem lastFlag_append_clear
    {copies : List OrderBook}
    {found : Option ProductState}
    (mirrors : Mirrors copies found) :
    lastFlag (copies ++ ProductAction.clear.copies found) = true := by
  cases found with
  | none => simpa [liveFlag] using mirrors.flag
  | some st =>
      cases stale : st.isStale with
      | true => simpa [liveFlag, stale] using mirrors.flag
      | false => simp [stale]

/-- Step lemma of the mirror. -/
theorem Mirrors.action
    {copies : List OrderBook}
    {found : Option ProductState}
    (action : ProductAction)
    (mirrors : Mirrors copies found) :
    Mirrors (copies ++ action.copies found) (action.apply found) := by
  cases action with
  | keep => simpa [ProductAction.copies, ProductAction.apply] using mirrors
  | feed prodId message => exact mirrors.feed prodId message
  | clear =>
      refine ⟨lastFlag_append_clear mirrors, ?_⟩
      intro st equal
      cases equal
  | suspect =>
      have staleAfter : ∀ st, ProductAction.suspect.apply found = some st →
          st.isStale = true := by
        intro st result
        rw [ProductAction.apply_suspect] at result
        obtain ⟨before, _, rfl⟩ := Option.map_eq_some_iff.mp result
        cases before.synced <;> simp [ProductState.isStale]
      refine ⟨(lastFlag_append_clear mirrors).trans ?_, fun st result fresh => ?_⟩
      · cases result : ProductAction.suspect.apply found with
        | none => rfl
        | some st => exact (staleAfter st result).symm
      · rw [staleAfter st result] at fresh
        cases fresh

/-- Step lemma of the ladders, for every action but clearing. -/
theorem Follows.action
    {copies : List OrderBook}
    {found : Option ProductState}
    (action : ProductAction)
    (notClear : action ≠ .clear)
    (follows : Follows copies found) :
    Follows (copies ++ action.copies found) (action.apply found) := by
  cases action with
  | keep => simpa [ProductAction.copies, ProductAction.apply] using follows
  | clear => exact absurd rfl notClear
  | suspect =>
      cases found with
      | none => simpa [ProductAction.copies, ProductAction.apply] using follows
      | some st =>
          refine ⟨fun impossible => ?_, fun after result => ?_⟩
          · rw [ProductAction.apply_suspect] at impossible
            cases impossible
          · rw [ProductAction.apply_suspect] at result
            cases result
            have before := follows.ladders st rfl
            change lastLadders (copies ++ ProductAction.clear.copies (some st)) =
              st.book.ladder
            rw [ProductAction.copies_clear_some]
            split
            · rw [List.append_nil]
              exact before
            · simp
  | feed prodId message =>
      simp only [ProductAction.copies, ProductAction.apply]
      have laddersNow : lastLadders copies =
          (found.getD (ProductAction.newborn prodId)).book.ladder := by
        cases found with
        | none =>
            rw [follows.absent rfl]
            funext side
            cases side <;> rfl
        | some st => exact follows.ladders st rfl
      refine ⟨?_, fun after result => ?_⟩
      · intro impossible
        cases impossible
      cases result
      cases notified : (message.body prodId
          (found.getD (ProductAction.newborn prodId))).2 with
      | none =>
          simpa [laddersNow] using (ProductMessage.undelivered notified).2.ladder
      | some isStale => simp

/-! ## Runs -/

/-- A step that carries a message for a product. -/
def Step.AddressedTo (key : ProdKey) (step : Step) : Prop :=
  ∃ prodId message, step.message = some (prodId, message) ∧ prodId.key = key

/-- Every reset of a run comes before the product is first seen. -/
def NoResetSinceSeen (key : ProdKey) (steps : List Step) : Prop :=
  ∀ before last after, steps = before ++ last :: after →
    last.isReset = true → ∀ step ∈ before, ¬step.AddressedTo key

namespace OrderBookManager

variable {manager : OrderBookManager} {key : ProdKey}

/-- The copies a run delivers for a product with a listener are the copies its
actions make. -/
theorem copiesFor_output_concat
    (keyed : manager.Keyed)
    (listened : manager.HasListener key)
    (steps : List Step)
    (last : Step) :
    copiesFor key (step.output manager (steps ++ [last])) =
      copiesFor key (step.output manager steps) ++
        (last.actionOn key (step.final manager steps)).copies
          ((step.final manager steps).productAt key) := by
  have listenedStill : (step.final manager steps).HasListener key :=
    Machine.invariant_run (fun manager => manager.HasListener key)
      (fun state event (_ : True) listened =>
        (hasListener_step state event key).mpr listened)
      listened fun _ _ => trivial
  rw [Machine.output_concat, copiesFor_append,
    copiesFor_step _ last (keyed_final keyed steps), if_pos listenedStill]

/-- Run lemma of the mirror. -/
theorem mirrors_final
    (blank : manager.Blank)
    (listened : manager.HasListener key)
    (steps : List Step) :
    Mirrors (copiesFor key (step.output manager steps))
      ((step.final manager steps).productAt key) := by
  induction steps using List.reverseRecOn with
  | nil =>
      rw [Machine.final_nil, Machine.output_nil, blank.productAt]
      refine ⟨rfl, ?_⟩
      intro st found
      cases found
  | append_singleton steps last inductionHypothesis =>
      rw [Machine.final_concat, productAt_step,
        copiesFor_output_concat blank.keyed listened]
      exact inductionHypothesis.action _

/-- A product no step is addressed to stays absent, and nothing is delivered
for it. -/
theorem unseen_final
    (blank : manager.Blank)
    (listened : manager.HasListener key)
    {steps : List Step}
    (unseen : ∀ step ∈ steps, ¬step.AddressedTo key) :
    (step.final manager steps).productAt key = none ∧
      copiesFor key (step.output manager steps) = [] := by
  induction steps using List.reverseRecOn with
  | nil => exact ⟨blank.productAt key, rfl⟩
  | append_singleton steps last inductionHypothesis =>
      obtain ⟨absent, silent⟩ := inductionHypothesis fun step member =>
        unseen step (List.mem_append_left _ member)
      rw [Machine.final_concat, productAt_step,
        copiesFor_output_concat blank.keyed listened, absent, silent]
      cases action : last.actionOn key (step.final manager steps) with
      | keep | suspect | clear => exact ⟨rfl, rfl⟩
      | feed prodId message =>
          obtain ⟨carries, same⟩ := Step.key_of_actionOn_feed action
          exact absurd ⟨prodId, message, carries, same⟩ (unseen last (by simp))

/-- Run lemma of the ladders. -/
theorem follows_final
    (blank : manager.Blank)
    (listened : manager.HasListener key)
    {steps : List Step}
    (noResetSinceSeen : NoResetSinceSeen key steps) :
    Follows (copiesFor key (step.output manager steps))
      ((step.final manager steps).productAt key) := by
  induction steps using List.reverseRecOn with
  | nil =>
      rw [Machine.final_nil, Machine.output_nil, blank.productAt]
      refine ⟨fun _ => rfl, ?_⟩
      intro st found
      cases found
  | append_singleton steps last inductionHypothesis =>
      rw [Machine.final_concat, productAt_step,
        copiesFor_output_concat blank.keyed listened]
      by_cases clears : last.actionOn key (step.final manager steps) = .clear
      · have unseen := noResetSinceSeen steps last [] rfl
          (Step.isReset_of_actionOn_clear clears)
        obtain ⟨absent, silent⟩ := unseen_final blank listened unseen
        rw [clears, absent, silent]
        refine ⟨fun _ => rfl, ?_⟩
        intro st found
        cases found
      · refine (inductionHypothesis ?_).action _ clears
        intro before clearing after split
        exact noResetSinceSeen before clearing (after ++ [last]) (by simp [split])

/-! ## The copies one callback receives -/

/-- Whether a callback is registered for a product, by id or as a wildcard. -/
def Listens
    (manager : OrderBookManager)
    (callback : CallbackPtr)
    (key : ProdKey) : Prop :=
  callback ∈ (manager.callbacks.lookup key).getD [] ∨
    callback ∈ manager.wildcardCallbacks

instance (callback : CallbackPtr) : Decidable (manager.Listens callback key) :=
  inferInstanceAs (Decidable (_ ∨ _))

theorem Listens.hasListener
    {callback : CallbackPtr}
    (listens : manager.Listens callback key) :
    manager.HasListener key :=
  listens.imp List.ne_nil_of_mem List.ne_nil_of_mem

theorem mem_collectDeliveryLocked
    {owner : ProdKey}
    {book : OrderBook}
    {isStale : Bool}
    {delivery : Delivery}
    (member : delivery ∈ manager.collectDeliveryLocked owner book isStale) :
    delivery.book = book.stamp isStale ∧
      delivery.callbacks =
        (manager.callbacks.lookup owner).getD [] ++ manager.wildcardCallbacks := by
  simp only [collectDeliveryLocked] at member
  split at member
  · cases member
  · cases List.mem_singleton.mp member
    exact ⟨rfl, rfl⟩

/-- Every delivery of a step goes to everybody registered for its product. -/
theorem callbacks_of_mem_step
    (keyed : manager.Keyed)
    {last : Step}
    {delivery : Delivery}
    (delivered : delivery ∈ (manager.step last).2) :
    delivery.callbacks =
      (manager.callbacks.lookup delivery.book.prodId.key).getD [] ++
        manager.wildcardCallbacks := by
  have trusted : ∀ tracked : OrderBookManager,
      tracked.products = manager.products →
      tracked.callbacks = manager.callbacks →
      tracked.wildcardCallbacks = manager.wildcardCallbacks →
      delivery ∈ tracked.collectTrusted →
      delivery.callbacks =
        (manager.callbacks.lookup delivery.book.prodId.key).getD [] ++
          manager.wildcardCallbacks := by
    intro tracked sameProducts sameCallbacks sameWildcards member
    obtain ⟨entry, stored, produced⟩ := List.mem_flatMap.mp member
    split at produced
    · cases produced
    · obtain ⟨bookEq, callbacksEq⟩ := mem_collectDeliveryLocked produced
      rw [sameProducts] at stored
      have entryKey := keyed entry.1 entry.2
        (UnorderedMap.lookup_of_mem_entries manager.products stored)
      rw [callbacksEq, bookEq, OrderBook.prodId_stamp, entryKey, sameCallbacks,
        sameWildcards]
  rcases last.kinds with
    ⟨prodId, message, carries, _⟩ | ⟨_, resets⟩ | ⟨received, rfl, notReset⟩
  · rw [step_of_message manager carries] at delivered
    simp only [feedProduct] at delivered
    split at delivered
    · cases delivered
    · obtain ⟨bookEq, callbacksEq⟩ := mem_collectDeliveryLocked delivered
      have bookKey : ((message.body prodId
          (manager.getOrCreateLocked prodId)).1.book.prodId).key = prodId.key := by
        apply message.key_body
        rw [getOrCreateLocked_eq]
        cases found : manager.productAt prodId.key with
        | none => exact key_copyProdId prodId
        | some st => exact keyed _ st found
      rw [callbacksEq, bookEq, OrderBook.prodId_stamp, bookKey]
  · rw [step_of_isReset manager resets] at delivered
    exact trusted manager rfl rfl rfl delivered
  · simp only [OrderBookManager.step, onHeader_eq manager notReset] at delivered
    split at delivered
    · exact trusted _ rfl rfl rfl delivered
    · cases delivered

end OrderBookManager

/-- The book copies of a product that a callback receives, one for each delivery
that names it. -/
def deliveredTo
    (callback : CallbackPtr)
    (key : ProdKey)
    (deliveries : List Delivery) : List OrderBook :=
  (deliveries.filter fun delivery =>
    callback ∈ delivery.callbacks ∧ delivery.book.prodId.key = key).map
      Delivery.book

namespace OrderBookManager

variable {manager : OrderBookManager} {key : ProdKey}

/-- A registered callback receives every copy of its product. -/
theorem deliveredTo_step
    (keyed : manager.Keyed)
    {callback : CallbackPtr}
    (listens : manager.Listens callback key)
    (last : Step) :
    deliveredTo callback key (manager.step last).2 =
      copiesFor key (manager.step last).2 := by
  have receives : ∀ delivery ∈ (manager.step last).2,
      (callback ∈ delivery.callbacks ∧ delivery.book.prodId.key = key ↔
        delivery.book.prodId.key = key) := by
    intro delivery delivered
    apply and_iff_right_of_imp
    intro same
    rw [callbacks_of_mem_step keyed delivered, same]
    exact List.mem_append.mpr listens
  rw [deliveredTo, copiesFor, List.filter_map]
  congr 1
  apply List.filter_congr
  intro delivery delivered
  simp [receives delivery delivered]

theorem deliveredTo_append
    (callback : CallbackPtr)
    (first second : List Delivery) :
    deliveredTo callback key (first ++ second) =
      deliveredTo callback key first ++ deliveredTo callback key second := by
  simp [deliveredTo]

theorem listens_final
    {callback : CallbackPtr}
    (listens : manager.Listens callback key)
    (steps : List Step) :
    (step.final manager steps).Listens callback key := by
  refine Machine.invariant_run (fun state : OrderBookManager => state.Listens callback key)
    (fun state event (_ : True) listening => ?_) listens fun _ _ => trivial
  rw [Listens, (callbacks_step state event).1, (callbacks_step state event).2]
  exact listening

/-- Run lemma: a registered callback receives every copy of its product. -/
theorem deliveredTo_output
    (keyed : manager.Keyed)
    {callback : CallbackPtr}
    (listens : manager.Listens callback key)
    (steps : List Step) :
    deliveredTo callback key (step.output manager steps) =
      copiesFor key (step.output manager steps) := by
  induction steps using List.reverseRecOn with
  | nil => rfl
  | append_singleton steps last inductionHypothesis =>
      rw [Machine.output_concat, deliveredTo_append, copiesFor_append,
        inductionHypothesis,
        deliveredTo_step (keyed_final keyed steps) (listens_final listens steps)]

end OrderBookManager

/-! ## The contract -/

/-- The step feeds the product an increment that is accepted, or a snapshot that is
adopted. -/
def Step.UpdatesBook
    (step : Step)
    (key : ProdKey)
    (manager : OrderBookManager) : Prop :=
  ∃ prodId message, step.message = some (prodId, message) ∧ prodId.key = key ∧
    message.isTrack = false ∧
    message.Accepted (manager.getOrCreateLocked prodId)

/-- A copy flips the flag, unless the action that makes it is an accepted increment or
an adopted snapshot. -/
theorem Mirrors.flips
    {copies : List OrderBook}
    {found : Option ProductState}
    {action : ProductAction}
    (noUpdate : ∀ prodId message, action = .feed prodId message →
      message.Accepted (found.getD (ProductAction.newborn prodId)) →
      message.isTrack = true)
    (mirrors : Mirrors copies found)
    {copy : OrderBook}
    (made : copy ∈ action.copies found) :
    copy.isStale ≠ lastFlag copies := by
  have clearFlips : copy ∈ ProductAction.clear.copies found →
      copy.isStale ≠ lastFlag copies := by
    intro cleared
    rw [mirrors.flag]
    cases found with
    | none => cases cleared
    | some st =>
        rw [ProductAction.copies_clear_some] at cleared
        split at cleared
        · cases cleared
        · next trusted =>
            cases List.mem_singleton.mp cleared
            simpa [liveFlag] using trusted
  cases action with
  | keep => cases made
  | suspect => exact clearFlips made
  | clear => exact clearFlips made
  | feed prodId message =>
      simp only [ProductAction.copies, List.mem_map, Option.mem_toList] at made
      obtain ⟨isStale, notified, rfl⟩ := made
      have flagNow : lastFlag copies =
          (found.getD (ProductAction.newborn prodId)).isStale := by
        rw [mirrors.flag]
        cases found <;> rfl
      rw [OrderBook.isStale_stamp, flagNow]
      intro unchanged
      by_cases accepted : message.Accepted
          (found.getD (ProductAction.newborn prodId))
      · have outcome := (ProductMessage.body_accepted prodId accepted).2.2.2.2.2.2
        have flagAfter := ProductMessage.notify_eq_isStale notified
        have tracks := noUpdate prodId message rfl accepted
        rw [if_pos ⟨tracks, flagAfter.trans unchanged⟩, notified] at outcome
        cases outcome
      · rw [ProductMessage.body_refused prodId accepted] at notified
        cases notified

/-- An action makes at most one copy. -/
theorem ProductAction.length_copies_le
    (action : ProductAction)
    (found : Option ProductState) :
    (action.copies found).length ≤ 1 := by
  cases action with
  | keep => exact Nat.zero_le 1
  | feed prodId message =>
      simp only [copies, List.length_map]
      exact Option.length_toList_le
  | suspect | clear =>
      simp only [copies, List.length_map]
      exact Option.length_toList_le

/-- What the last step of a run delivers to a listening callback. -/
theorem OrderBookManager.deliveredTo_last
    {manager : OrderBookManager}
    (blank : manager.Blank)
    {callback : CallbackPtr}
    {key : ProdKey}
    (listens : manager.Listens callback key)
    (before : List Step)
    (last : Step) :
    let reached := OrderBookManager.step.final manager before
    deliveredTo callback key (reached.step last).2 =
      (last.actionOn key reached).copies (reached.productAt key) := by
  intro reached
  have keyedBefore := keyed_final blank.keyed before
  have listensBefore := listens_final listens before
  rw [deliveredTo_step keyedBefore listensBefore last,
    copiesFor_step _ last keyedBefore, if_pos listensBefore.hasListener]

/-- A subscriber's last delivery mirrors the live book.  Register a callback for
a product, or for all products, before the first feed.  After every step of
every run, the flag of the last copy delivered to it is the live flag, where
nothing delivered and an absent product count as stale; while the product is
fresh the last copy has its ladders, snapshot flag and information time; with no
reset since the product was first seen, it has its ladders also while stale.
Every step delivers at most one copy, and this copy flips the flag unless the step
feeds the product an increment that is accepted or a snapshot that is adopted. -/
theorem last_delivery_mirrors_live_book
    (callback : CallbackPtr)
    (prodId : List UInt8)
    (manager : OrderBookManager)
    (blank : manager.Blank)
    (listens : manager.Listens callback (trimProdId prodId))
    (steps : List Step) :
    let key := trimProdId prodId
    let live := OrderBookManager.step.final manager steps
    let copies := deliveredTo callback key (OrderBookManager.step.output manager steps)
    lastFlag copies = ((live.getBook prodId).map OrderBook.isStale).getD true ∧
      (∀ book, live.getBook prodId = some book → book.isStale = false →
        ∃ copy, copies.getLast? = some copy ∧ SameContent copy book) ∧
      (NoResetSinceSeen key steps → ∀ book, live.getBook prodId = some book →
        lastLadders copies = book.ladder) ∧
      (∀ before last after, steps = before ++ last :: after →
        let reached := OrderBookManager.step.final manager before
        let earlier :=
          deliveredTo callback key (OrderBookManager.step.output manager before)
        let delivered := deliveredTo callback key (reached.step last).2
        delivered.length ≤ 1 ∧
          (¬last.UpdatesBook key reached →
            ∀ copy ∈ delivered, copy.isStale ≠ lastFlag earlier)) := by
  intro key live copies
  have listened := listens.hasListener
  have mirrors := OrderBookManager.mirrors_final blank listened steps
  have copiesEq : copies = copiesFor key (OrderBookManager.step.output manager steps) :=
    OrderBookManager.deliveredTo_output blank.keyed listens steps
  have bookEq : live.getBook prodId =
      (live.productAt key).map fun st => st.book.stamp st.isStale := rfl
  rw [← copiesEq] at mirrors
  refine ⟨?_, fun book found fresh => ?_, fun noReset book found => ?_,
    fun before last after split => ?_⟩
  · rw [mirrors.flag, bookEq, Option.map_map]
    rfl
  · rw [bookEq] at found
    obtain ⟨st, present, rfl⟩ := Option.map_eq_some_iff.mp found
    obtain ⟨copy, lastCopy, same⟩ := mirrors.content st present fresh
    exact ⟨copy, lastCopy, same.ladder, same.hasSnapshot, same.infoTime⟩
  · rw [bookEq] at found
    obtain ⟨st, present, rfl⟩ := Option.map_eq_some_iff.mp found
    have follows := OrderBookManager.follows_final blank listened noReset
    rw [← copiesEq] at follows
    exact follows.ladders st present
  · intro reached earlier delivered
    have mirrorsBefore := OrderBookManager.mirrors_final blank listened before
    have earlierEq := OrderBookManager.deliveredTo_output blank.keyed listens before
    rw [show delivered = _ from OrderBookManager.deliveredTo_last blank listens before last]
    refine ⟨ProductAction.length_copies_le _ _, fun noUpdate copy made => ?_⟩
    rw [← earlierEq] at mirrorsBefore
    refine mirrorsBefore.flips (fun fedId message feeds accepted => ?_) made
    obtain ⟨carries, same⟩ := Step.key_of_actionOn_feed feeds
    rw [← same, ← OrderBookManager.getOrCreateLocked_eq] at accepted
    by_contra content
    exact noUpdate ⟨fedId, message, carries, same, Bool.eq_false_iff.mpr content, accepted⟩

/-- A subscriber of one product that receives an update and then a reset: the
second copy tells it that the book is dead. -/
theorem last_delivery_mirrors_live_book_reset :
    let manager := OrderBookManager.registerCallback {} Builders.kProd 7
    let steps :=
      Builders.feedI081 (Builders.makeI081 Builders.kProd 1
        [Builders.makeEntry '0' '0' 10315 4 1] 1) ++ [.reset]
    let copies := deliveredTo 7 (trimProdId Builders.kProd)
      (OrderBookManager.step.output manager steps)
    copies.length = 2 ∧
      lastFlag copies =
        (((OrderBookManager.step.final manager steps).getBook Builders.kProd).map
          OrderBook.isStale).getD true := by
  intro manager steps copies
  have contract := last_delivery_mirrors_live_book 7 Builders.kProd manager
    ⟨rfl, rfl⟩ (by decide) steps
  exact ⟨by decide, contract.1⟩

end TaifexResolver
