import TaifexResolver.Delivery.Routing
import TaifexResolver.Foundation.Unwinding

/-!
# Products do not interfere

What a product is, what its channels' trackers are and what is delivered for it
depend on the headers, the resets, the registrations and its own messages only.
Messages of other products are invisible to it, although a header sweeps all
products at once.
-/

namespace TaifexResolver

/-- Two managers with the same state of one product and the same trackers. -/
structure SameProduct (key : ProdKey) (one other : OrderBookManager) : Prop where
  product : one.productAt key = other.productAt key
  channels : ∀ channel, one.channelAt channel = other.channelAt channel

namespace SameProduct

variable {key : ProdKey} {one other third : OrderBookManager}

theorem symm (same : SameProduct key one other) : SameProduct key other one :=
  ⟨same.product.symm, fun channel => (same.channels channel).symm⟩

theorem trans
    (former : SameProduct key one other)
    (latter : SameProduct key other third) :
    SameProduct key one third :=
  ⟨former.product.trans latter.product,
    fun channel => (former.channels channel).trans (latter.channels channel)⟩

/-- A step does the same to the product in both. -/
theorem actionOn (same : SameProduct key one other) (step : Step) :
    step.actionOn key one = step.actionOn key other := by
  unfold Step.actionOn
  split
  · rfl
  · cases step <;> simp only [same.channels]

/-- Step lemma: a step keeps two managers the same for a product. -/
theorem step (same : SameProduct key one other) (step : Step) :
    SameProduct key (one.step step).1 (other.step step).1 := by
  refine ⟨?_, fun channel => ?_⟩
  · rw [OrderBookManager.productAt_step, OrderBookManager.productAt_step,
      same.actionOn, same.product]
  · rcases step.kinds with
      ⟨prodId, message, carries, _⟩ | ⟨_, resets⟩ | ⟨received, rfl, notReset⟩
    · rw [one.channelAt_step_of_message carries, other.channelAt_step_of_message carries]
      exact same.channels channel
    · rw [one.step_of_isReset resets, other.step_of_isReset resets]
      rfl
    · rw [one.channelAt_step_header notReset, other.channelAt_step_header notReset,
        same.channels channel]

/-- Run lemma: so does every run. -/
theorem final (same : SameProduct key one other) (steps : List Step) :
    SameProduct key (OrderBookManager.step.final one steps)
      (OrderBookManager.step.final other steps) :=
  Machine.lockstep (SameProduct key) (fun _ _ event alike => alike.step event) same steps

/-- A message of another product changes nothing the product depends on. -/
theorem of_message
    (manager : OrderBookManager)
    {step : Step}
    {prodId : ProdIdText}
    {message : ProductMessage}
    (carries : step.message = some (prodId, message))
    (different : prodId.key ≠ key) :
    SameProduct key (manager.step step).1 manager :=
  ⟨manager.productAt_step_other carries different,
    fun channel => manager.channelAt_step_of_message carries channel⟩

end SameProduct

/-! ## What is delivered for a product -/

@[simp] theorem deliveriesFor_append (key : ProdKey) (first second : List Delivery) :
    deliveriesFor key (first ++ second) =
      deliveriesFor key first ++ deliveriesFor key second := by
  simp [deliveriesFor]

/-- Two managers that look alike to the subscribers of a product. -/
structure Alike (key : ProdKey) (one other : OrderBookManager) : Prop where
  same : SameProduct key one other
  callbacks : one.callbacksFor key = other.callbacksFor key
  wildcards : one.wildcardCallbacks = other.wildcardCallbacks
  keyed : one.Keyed ∧ other.Keyed

namespace Alike

variable {key : ProdKey} {one other third : OrderBookManager}

theorem symm (alike : Alike key one other) : Alike key other one :=
  ⟨alike.same.symm, alike.callbacks.symm, alike.wildcards.symm, alike.keyed.symm⟩

theorem trans (former : Alike key one other) (latter : Alike key other third) :
    Alike key one third :=
  ⟨former.same.trans latter.same, former.callbacks.trans latter.callbacks,
    former.wildcards.trans latter.wildcards, former.keyed.1, latter.keyed.2⟩

theorem start : Alike key {} {} :=
  ⟨⟨rfl, fun _ => rfl⟩, rfl, rfl, OrderBookManager.blank_new.keyed,
    OrderBookManager.blank_new.keyed⟩

theorem hasListener (alike : Alike key one other) :
    one.HasListener key ↔ other.HasListener key := by
  have callbacks := alike.callbacks
  unfold OrderBookManager.callbacksFor at callbacks
  rw [OrderBookManager.HasListener, OrderBookManager.HasListener, callbacks,
    alike.wildcards]

/-- Step lemma: an operation keeps two managers alike. -/
theorem operate (alike : Alike key one other) (operation : Operation) :
    Alike key (one.operate operation).1 (other.operate operation).1 := by
  refine ⟨?_, ?_, ?_, ?_⟩
  · cases operation with
    | feed step => exact alike.same.step step
    | registerCallback prodId callback | registerCallbackAll callback
    | unregisterCallbacks prodId | unregisterAllCallbacks =>
        exact ⟨alike.same.product, alike.same.channels⟩
  · rw [one.callbacksFor_operate, other.callbacksFor_operate, alike.callbacks]
  · rw [one.wildcardCallbacks_operate, other.wildcardCallbacks_operate, alike.wildcards]
  · exact ⟨OrderBookManager.keyed_operate operation alike.keyed.1,
      OrderBookManager.keyed_operate operation alike.keyed.2⟩

/-- Managers that look alike deliver the same for the product. -/
theorem deliveriesFor_operate (alike : Alike key one other) (operation : Operation) :
    deliveriesFor key (one.operate operation).2 =
      deliveriesFor key (other.operate operation).2 := by
  cases operation with
  | feed step =>
      change deliveriesFor key (one.step step).2 = deliveriesFor key (other.step step).2
      rw [OrderBookManager.deliveriesFor_step alike.keyed.1,
        OrderBookManager.deliveriesFor_step alike.keyed.2,
        alike.same.actionOn, alike.same.product, alike.callbacks, alike.wildcards]
      simp only [alike.hasListener]
  | registerCallback prodId callback | registerCallbackAll callback
  | unregisterCallbacks prodId | unregisterAllCallbacks => rfl

end Alike

/-- Whether an operation concerns a product: it is not a message of another one. -/
def Operation.concerns (key : ProdKey) (operation : Operation) : Bool :=
  operation.wireId.all fun wireId => wireId.key = key

/-- An operation that does not concern a product is a message of another one. -/
theorem Operation.message_of_not_concerns
    {key : ProdKey}
    {operation : Operation}
    (hidden : operation.concerns key = false) :
    ∃ step prodId message, operation = .feed step ∧
      step.message = some (prodId, message) ∧ prodId.key ≠ key := by
  cases operation with
  | feed step =>
      cases carries : step.message with
      | none => simp [concerns, wireId, carries] at hidden
      | some carried =>
          refine ⟨step, carried.1, carried.2, rfl, carries, ?_⟩
          simpa [concerns, wireId, carries] using hidden
  | registerCallback prodId callback | registerCallbackAll callback
  | unregisterCallbacks prodId | unregisterAllCallbacks => cases hidden

/-- The subscribers of a product observe nothing of the messages of others. -/
theorem unwinding_product (key : ProdKey) :
    Machine.Unwinding OrderBookManager.operate (Operation.concerns key) (Alike key)
      (deliveriesFor key) where
  nothing := rfl
  append := deliveriesFor_append key
  consistent := fun _ _ operation _ alike =>
    ⟨alike.operate operation, alike.deliveriesFor_operate operation⟩
  respect := by
    intro one other operation hidden alike
    obtain ⟨step, prodId, message, rfl, carries, different⟩ :=
      Operation.message_of_not_concerns hidden
    have own : SameProduct key (one.step step).1 one := .of_message one carries different
    obtain ⟨callbacks, wildcards⟩ := one.callbacks_step step
    refine ⟨⟨own.trans alike.same, ?_, wildcards.trans alike.wildcards,
      one.keyed_step step alike.keyed.1, alike.keyed.2⟩, ?_⟩
    · rw [← alike.callbacks]
      exact congrArg (fun table => (AList.lookup key table).getD []) callbacks
    · apply (OrderBookManager.deliveriesFor_step alike.keyed.1 step key).trans
      simp only [Step.actionOn, carries, if_neg different]
      exact ite_self _

/-! ## Callbacks of one product -/

/-- The copies a callback is invoked with, in order. -/
def copiesTo (callback : CallbackPtr) (deliveries : List Delivery) : List OrderBook :=
  ((OrderBookManager.fire deliveries).filter fun call => call.1 = callback).map Prod.snd

/-- A callback that some operations register for one product only. -/
def RegisteredOnlyFor
    (key : ProdKey)
    (callback : CallbackPtr)
    (operations : List Operation) : Prop :=
  ∀ operation ∈ operations, operation.registersAll ≠ some callback ∧
    ∀ other, operation.registers other = some callback → other = key

/-- Deliveries that do not name a callback do not invoke it. -/
theorem copiesTo_filter
    {callback : CallbackPtr}
    {deliveries : List Delivery}
    (shown : Delivery → Bool)
    (named : ∀ delivery ∈ deliveries, callback ∈ delivery.callbacks →
      shown delivery = true) :
    copiesTo callback deliveries = copiesTo callback (deliveries.filter shown) := by
  induction deliveries with
  | nil => rfl
  | cons delivery rest inductionHypothesis =>
      have tail := inductionHypothesis fun later member =>
        named later (List.mem_cons_of_mem _ member)
      have split : ∀ first second, copiesTo callback (first ++ second) =
          copiesTo callback first ++ copiesTo callback second := by
        intro first second
        simp [copiesTo, OrderBookManager.fire]
      cases kept : shown delivery with
      | true =>
          rw [List.filter_cons_of_pos kept, ← List.singleton_append, split, tail,
            ← split, List.singleton_append]
      | false =>
          have silent : copiesTo callback [delivery] = [] := by
            have absent : callback ∉ delivery.callbacks := fun member => by
              rw [named delivery (by simp) member] at kept
              cases kept
            simp only [copiesTo, OrderBookManager.fire, List.flatMap_singleton,
              List.filter_map, List.map_map, List.map_eq_nil_iff]
            refine List.filter_eq_nil_iff.mpr fun named member same => absent ?_
            exact of_decide_eq_true same ▸ member
          rw [List.filter_cons_of_neg (by simp [kept]), ← List.singleton_append, split,
            silent, tail, List.nil_append]

/-- A callback registered for one product only is invoked with its copies only. -/
theorem copiesTo_output
    {key : ProdKey}
    {callback : CallbackPtr}
    {operations : List Operation}
    (only : RegisteredOnlyFor key callback operations) :
    copiesTo callback (OrderBookManager.operate.output {} operations) =
      copiesTo callback
        (deliveriesFor key (OrderBookManager.operate.output {} operations)) := by
  apply copiesTo_filter
  intro delivery delivered names
  obtain ⟨before, last, after, rfl, emitted⟩ := Machine.mem_output_iff.mp delivered
  have onlyBefore : RegisteredOnlyFor key callback before :=
    fun operation member => only operation (List.mem_append_left _ member)
  obtain ⟨byId, wildcards⟩ := OrderBookManager.registrations_final before
  cases last with
  | feed step =>
      obtain ⟨_, callbacks⟩ := OrderBookManager.delivery_of_step
        (OrderBookManager.keyed_operations before) emitted
      rw [callbacks, byId, wildcards] at names
      rcases List.mem_append.mp names with named | wildcard
      · obtain ⟨operation, recent, registers⟩ := List.mem_filterMap.mp named
        exact decide_eq_true
          ((onlyBefore operation (mem_of_mem_since recent)).2 _ registers)
      · obtain ⟨operation, recent, registers⟩ := List.mem_filterMap.mp wildcard
        exact absurd registers (onlyBefore operation (mem_of_mem_since recent)).1
  | registerCallback prodId callback | registerCallbackAll callback
  | unregisterCallbacks prodId | unregisterAllCallbacks => cases emitted

/-! ## Messages of different products commute -/

/-- Two managers with the same contents, whatever the order of their products. -/
structure Equivalent (one other : OrderBookManager) : Prop where
  products : ∀ key, one.productAt key = other.productAt key
  channels : ∀ channel, one.channelAt channel = other.channelAt channel
  callbacks : one.callbacks = other.callbacks
  wildcards : one.wildcardCallbacks = other.wildcardCallbacks

namespace Equivalent

variable {one other third : OrderBookManager}

theorem refl (manager : OrderBookManager) : Equivalent manager manager :=
  ⟨fun _ => rfl, fun _ => rfl, rfl, rfl⟩

theorem trans (former : Equivalent one other) (latter : Equivalent other third) :
    Equivalent one third :=
  ⟨fun key => (former.products key).trans (latter.products key),
    fun channel => (former.channels channel).trans (latter.channels channel),
    former.callbacks.trans latter.callbacks, former.wildcards.trans latter.wildcards⟩

/-- Step lemma: a step keeps two managers equivalent. -/
theorem step (equivalent : Equivalent one other) (step : Step) :
    Equivalent (one.step step).1 (other.step step).1 := by
  have same : ∀ key, SameProduct key (one.step step).1 (other.step step).1 :=
    fun key => SameProduct.step ⟨equivalent.products key, equivalent.channels⟩ step
  obtain ⟨oneCallbacks, oneWildcards⟩ := one.callbacks_step step
  obtain ⟨otherCallbacks, otherWildcards⟩ := other.callbacks_step step
  exact ⟨fun key => (same key).product, (same []).channels,
    oneCallbacks.trans (equivalent.callbacks.trans otherCallbacks.symm),
    oneWildcards.trans (equivalent.wildcards.trans otherWildcards.symm)⟩

end Equivalent

/-- What a message delivers depends on its product and the registrations only. -/
theorem deliveries_of_message
    {one other : OrderBookManager}
    {step : Step}
    {prodId : ProdIdText}
    {message : ProductMessage}
    (carries : step.message = some (prodId, message))
    (product : one.productAt prodId.key = other.productAt prodId.key)
    (callbacks : one.callbacks = other.callbacks)
    (wildcards : one.wildcardCallbacks = other.wildcardCallbacks) :
    (one.step step).2 = (other.step step).2 := by
  have outcome : message.body prodId (one.getOrCreateLocked prodId) =
      message.body prodId (other.getOrCreateLocked prodId) := by
    rw [one.getOrCreateLocked_eq, other.getOrCreateLocked_eq, product]
  rw [one.step_of_message carries, other.step_of_message carries]
  simp only [OrderBookManager.feedProduct, outcome]
  split
  · rfl
  · simp only [OrderBookManager.collectDeliveryLocked, callbacks, wildcards]

/-- Messages of different products commute: the contents and what each of them
delivers do not depend on their order. -/
theorem messages_commute
    (manager : OrderBookManager)
    {first second : Step}
    {firstId secondId : ProdIdText}
    {firstSaid secondSaid : ProductMessage}
    (firstCarries : first.message = some (firstId, firstSaid))
    (secondCarries : second.message = some (secondId, secondSaid))
    (different : firstId.key ≠ secondId.key) :
    Equivalent ((manager.step first).1.step second).1
        ((manager.step second).1.step first).1 ∧
      ((manager.step first).1.step second).2 = (manager.step second).2 ∧
      ((manager.step second).1.step first).2 = (manager.step first).2 := by
  obtain ⟨firstCallbacks, firstWildcards⟩ := manager.callbacks_step first
  obtain ⟨secondCallbacks, secondWildcards⟩ := manager.callbacks_step second
  obtain ⟨firstLast, firstLastWildcards⟩ :=
    (manager.step second).1.callbacks_step first
  obtain ⟨secondLast, secondLastWildcards⟩ :=
    (manager.step first).1.callbacks_step second
  have same : ∀ key, SameProduct key ((manager.step first).1.step second).1
      ((manager.step second).1.step first).1 := by
    intro key
    by_cases own : secondId.key = key
    · have hidden : firstId.key ≠ key := fun equal => different (equal.trans own.symm)
      have early : SameProduct key ((manager.step first).1.step second).1
          (manager.step second).1 :=
        (SameProduct.of_message manager firstCarries hidden).step second
      exact early.trans (SameProduct.of_message _ firstCarries hidden).symm
    · have late : SameProduct key ((manager.step second).1.step first).1
          (manager.step first).1 :=
        (SameProduct.of_message manager secondCarries own).step first
      exact (SameProduct.of_message _ secondCarries own).trans late.symm
  refine ⟨⟨fun key => (same key).product, (same []).channels, ?_, ?_⟩, ?_, ?_⟩
  · rw [firstLast, secondLast, firstCallbacks, secondCallbacks]
  · rw [firstLastWildcards, secondLastWildcards, firstWildcards, secondWildcards]
  · exact deliveries_of_message secondCarries
      (manager.productAt_step_other firstCarries different) firstCallbacks firstWildcards
  · exact deliveries_of_message firstCarries
      (manager.productAt_step_other secondCarries (Ne.symm different))
      secondCallbacks secondWildcards

/-! ## Blocks of a packet -/

/-- A packet acts as its blocks, each in a packet of its own. -/
theorem onI084_eq_single_blocks (manager : OrderBookManager) (pkt : I084Packet) :
    manager.onI084 pkt =
      Machine.run OrderBookManager.onI084 manager
        (pkt.products.map fun prod => { pkt with noEntries := 1, products := [prod] }) := by
  rw [Machine.run_refined OrderBookManager.onI084_eq_run, manager.onI084_eq_run,
    List.flatMap_map]
  congr 1
  unfold I084Packet.blocks
  split
  · simp [List.map_eq_flatMap]
  · simp

/-- A refused message leaves the contents as they were, and delivers nothing. -/
theorem refused_message
    {manager : OrderBookManager}
    {step : Step}
    {prodId : ProdIdText}
    {message : ProductMessage}
    (carries : step.message = some (prodId, message))
    {st : ProductState}
    (live : manager.productAt prodId.key = some st)
    (refused : ¬message.Accepted st) :
    Equivalent (manager.step step).1 manager ∧ (manager.step step).2 = [] := by
  have untouched : message.body prodId (manager.getOrCreateLocked prodId) = (st, none) := by
    rw [manager.getOrCreateLocked_eq, live]
    exact ProductMessage.body_refused prodId refused
  obtain ⟨callbacks, wildcards⟩ := manager.callbacks_step step
  refine ⟨⟨fun key => ?_, manager.channelAt_step_of_message carries, callbacks, wildcards⟩,
    ?_⟩
  · by_cases same : prodId.key = key
    · subst same
      rw [manager.productAt_step_own carries, untouched, live]
    · exact manager.productAt_step_other carries same
  · rw [manager.step_of_message carries]
    simp only [OrderBookManager.feedProduct, untouched]

/-- Equivalent managers deliver the same for the blocks of a packet. -/
theorem unwinding_blocks (header : Header) :
    Machine.Unwinding
      (fun manager prod => OrderBookManager.onI084Product manager header prod)
      (fun _ => true) Equivalent id where
  nothing := rfl
  append := fun _ _ => rfl
  consistent := by
    intro one other prod _ equivalent
    have carries : (Step.i084Product header prod).message = some (prod.prodId, _) := rfl
    exact ⟨equivalent.step (.i084Product header prod),
      deliveries_of_message carries (equivalent.products _) equivalent.callbacks
        equivalent.wildcards⟩
  respect := fun _ _ _ hidden => nomatch hidden

/-- Without a block that is ignored where it stands, a packet leaves equivalent
contents and delivers the same. -/
theorem onI084_without_ignored
    {manager : OrderBookManager}
    {pkt : I084Packet}
    {early late : List I084Product}
    {ignored : I084Product}
    {st : ProductState}
    (live : (manager.onI084 { pkt with products := early }).1.productAt
      ignored.prodId.key = some st)
    (older : st.book.lastProdMsgSeq ≠ 0 ∧
      ignored.lastProdMsgSeq < st.book.lastProdMsgSeq) :
    Equivalent (manager.onI084 { pkt with products := early ++ ignored :: late }).1
        (manager.onI084 { pkt with products := early ++ late }).1 ∧
      (manager.onI084 { pkt with products := early ++ ignored :: late }).2 =
        (manager.onI084 { pkt with products := early ++ late }).2 := by
  by_cases content : pkt.messageType = 'O'.toUInt8
  · simp only [OrderBookManager.onI084, if_pos content] at live ⊢
    generalize blocksEq : (fun state prod =>
      OrderBookManager.onI084Product state pkt.header prod) = blocks at live ⊢
    have refused : ¬(ProductMessage.snapshot ignored.lastProdMsgSeq ignored.entries
        pkt.header.infoTime).Accepted st := by
      have less := UInt32.lt_iff_toNat_lt.mp older.2
      rintro (zero | notOlder)
      · exact older.1 (st.lastProdMsgSeq_eq_zero_iff.mpr zero)
      · exact Nat.not_le.mpr less notOlder
    obtain ⟨same, silent⟩ : Equivalent
        (blocks (Machine.final blocks manager early) ignored).1
          (Machine.final blocks manager early) ∧
        (blocks (Machine.final blocks manager early) ignored).2 = [] := by
      subst blocksEq
      have carries : (Step.i084Product pkt.header ignored).message =
          some (ignored.prodId, .snapshot ignored.lastProdMsgSeq ignored.entries
            pkt.header.infoTime) := rfl
      exact refused_message carries live refused
    have unwinding : Machine.Unwinding blocks (fun _ => true) Equivalent id :=
      blocksEq ▸ unwinding_blocks pkt.header
    obtain ⟨final, output⟩ := unwinding.purge same late
    rw [List.filter_true] at final output
    change Equivalent (Machine.final blocks manager _) (Machine.final blocks manager _) ∧
      Machine.output blocks manager _ = Machine.output blocks manager _
    rw [Machine.final_append, Machine.final_append, Machine.output_append,
      Machine.output_append, Machine.final_cons, Machine.output_cons, silent]
    exact ⟨final, congrArg _ output⟩
  · simp only [OrderBookManager.onI084, if_neg content]
    exact ⟨.refl manager, trivial⟩

/-- Products do not interfere.  In two runs of registrations, headers, resets and
messages from a new manager that differ only in the messages of other products,
a product ends in the same state, the trackers are the same, the same copies are
delivered for it to the same callbacks, and a callback registered for it only is
invoked with the same copies.  Messages of different products commute.  A packet of
the carousel acts as its blocks in packets of their own, and a block that is ignored
may as well be left out. -/
theorem products_do_not_interfere (key : ProdKey) :
    (∀ first second : List Operation,
      first.filter (Operation.concerns key) = second.filter (Operation.concerns key) →
      let one := OrderBookManager.operate.run {} first
      let other := OrderBookManager.operate.run {} second
      one.1.productAt key = other.1.productAt key ∧
        (∀ channel, one.1.channelAt channel = other.1.channelAt channel) ∧
        deliveriesFor key one.2 = deliveriesFor key other.2 ∧
        ∀ callback, RegisteredOnlyFor key callback first →
          copiesTo callback one.2 = copiesTo callback other.2) ∧
    (∀ (manager : OrderBookManager) (first second : Step) (firstId secondId : ProdIdText)
        (firstSaid secondSaid : ProductMessage),
      first.message = some (firstId, firstSaid) →
      second.message = some (secondId, secondSaid) → firstId.key ≠ secondId.key →
      Equivalent ((manager.step first).1.step second).1
          ((manager.step second).1.step first).1 ∧
        ((manager.step first).1.step second).2 = (manager.step second).2 ∧
        ((manager.step second).1.step first).2 = (manager.step first).2) ∧
    (∀ (manager : OrderBookManager) (pkt : I084Packet),
      manager.onI084 pkt =
        Machine.run OrderBookManager.onI084 manager
          (pkt.products.map fun prod => { pkt with noEntries := 1, products := [prod] })) ∧
    (∀ (manager : OrderBookManager) (pkt : I084Packet) (early late : List I084Product)
        (ignored : I084Product) (st : ProductState),
      (manager.onI084 { pkt with products := early }).1.productAt ignored.prodId.key =
        some st →
      st.book.lastProdMsgSeq ≠ 0 ∧ ignored.lastProdMsgSeq < st.book.lastProdMsgSeq →
      Equivalent (manager.onI084 { pkt with products := early ++ ignored :: late }).1
          (manager.onI084 { pkt with products := early ++ late }).1 ∧
        (manager.onI084 { pkt with products := early ++ ignored :: late }).2 =
          (manager.onI084 { pkt with products := early ++ late }).2) := by
  refine ⟨fun first second same => ?_,
    fun manager first second _ _ _ _ firstCarries secondCarries different =>
      messages_commute manager firstCarries secondCarries different,
    onI084_eq_single_blocks,
    fun manager pkt early late ignored st live older =>
      onI084_without_ignored live older⟩
  obtain ⟨alike, deliveries⟩ := (unwinding_product key).noninterference Alike.symm
    Alike.trans Alike.start same
  refine ⟨alike.same.product, alike.same.channels, deliveries, fun callback only => ?_⟩
  have onlyToo : RegisteredOnlyFor key callback second := by
    intro operation member
    cases concerned : operation.concerns key with
    | true =>
        apply only operation
        have kept : operation ∈ second.filter (Operation.concerns key) :=
          List.mem_filter.mpr ⟨member, concerned⟩
        rw [← same] at kept
        exact (List.mem_filter.mp kept).1
    | false =>
        obtain ⟨step, _, _, rfl, _⟩ := Operation.message_of_not_concerns concerned
        exact ⟨by simp [Operation.registersAll], by simp [Operation.registers]⟩
  exact (copiesTo_output only).trans
    ((congrArg (copiesTo callback) deliveries).trans (copiesTo_output onlyToo).symm)

/-- Updates of another product around its own are invisible to the callback of a
product and commute with it, and an old block in a packet does nothing. -/
theorem products_do_not_interfere_busy :
    let own : Step := .i081 (Builders.makeI081 Builders.kProd 1 [] 1)
    let foreign : Step := .i081 (Builders.makeI081 Builders.otherProd 5 [] 2)
    let quiet : List Operation := [.registerCallback Builders.kProd 7, .feed own]
    let busy : List Operation :=
      [.registerCallback Builders.kProd 7, .feed foreign, .feed own, .feed foreign]
    let current := Builders.makeI084Product Builders.kProd 4 []
    let old := Builders.makeI084Product Builders.kProd 3 []
    let other := Builders.makeI084Product Builders.otherProd 2 []
    let pkt := Builders.makeI084 [current, old, other] 1
    let manager : OrderBookManager := {}
    copiesTo 7 (OrderBookManager.operate.run manager busy).2 =
        copiesTo 7 (OrderBookManager.operate.run manager quiet).2 ∧
      Equivalent ((manager.step own).1.step foreign).1
        ((manager.step foreign).1.step own).1 ∧
      Equivalent (manager.onI084 pkt).1
        (manager.onI084 { pkt with products := [current, other] }).1 := by
  intro own foreign quiet busy current old other pkt manager
  obtain ⟨runs, commute, _, ignored⟩ :=
    products_do_not_interfere (Builders.setProd Builders.kProd).key
  refine ⟨(runs busy quiet (by decide)).2.2.2 7 (fun operation member => ?_), ?_, ?_⟩
  · rcases List.mem_cons.mp member with rfl | feeds
    · refine ⟨by decide, fun other registers => ?_⟩
      simp only [Operation.registers, Option.ite_none_right_eq_some] at registers
      exact registers.1.symm.trans (by decide)
    · simp only [List.mem_cons, List.not_mem_nil, or_false] at feeds
      rcases feeds with rfl | rfl | rfl
      all_goals
        refine ⟨by decide, fun other registers => ?_⟩
        cases registers
  · exact (commute manager own foreign _ _ _ _ rfl rfl (by decide)).1
  · exact (ignored manager pkt [current] [other] old _ rfl (by decide)).1

end TaifexResolver
