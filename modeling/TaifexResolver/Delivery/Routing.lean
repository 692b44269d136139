import TaifexResolver.Delivery.Mirror
import TaifexResolver.OrderBook.Operation

/-!
# Who receives a copy

Registrations, wire ids and lookups meet in the trimmed product id.  A delivery
for a product goes to the callbacks that are registered under any id with the
same trimmed form and to those registered for all products, once for each
registration and in the order of the registrations.
-/

namespace TaifexResolver

/-- The deliveries of a product. -/
def deliveriesFor (key : ProdKey) (deliveries : List Delivery) : List Delivery :=
  deliveries.filter fun delivery => delivery.book.prodId.key = key

/-- A copy that an action makes is a copy of the product it finds or leaves. -/
theorem ProductAction.copy_of_product
    {action : ProductAction}
    {found : Option ProductState}
    {copy : OrderBook}
    (made : copy ∈ action.copies found) :
    ∃ st, (found = some st ∨ action.apply found = some st) ∧
      copy = st.book.stamp copy.isStale := by
  cases action with
  | keep => cases made
  | feed prodId message =>
      simp only [copies, List.mem_map] at made
      obtain ⟨isStale, _, rfl⟩ := made
      exact ⟨_, Or.inr rfl, rfl⟩
  | suspect | clear =>
      simp only [copies, List.mem_map, Option.mem_toList, Option.filter_eq_some_iff] at made
      obtain ⟨st, ⟨present, _⟩, rfl⟩ := made
      exact ⟨st, Or.inl present, rfl⟩

namespace OrderBookManager

variable {manager : OrderBookManager}

/-- Step lemma: a delivery of a step is a copy of a product, found before the step
or left by it, and goes to everybody registered for that product. -/
theorem delivery_of_step
    (keyed : manager.Keyed)
    {step : Step}
    {delivery : Delivery}
    (delivered : delivery ∈ (manager.step step).2) :
    let key := delivery.book.prodId.key
    (∃ st, (manager.productAt key = some st ∨
        (manager.step step).1.productAt key = some st) ∧
      delivery.book = st.book.stamp delivery.book.isStale) ∧
    delivery.callbacks = manager.callbacksFor key ++ manager.wildcardCallbacks := by
  intro key
  refine ⟨?_, callbacks_of_mem_step keyed delivered⟩
  have copied : delivery.book ∈ copiesFor key (manager.step step).2 :=
    mem_copiesFor.mpr ⟨⟨delivery, delivered, rfl⟩, rfl⟩
  rw [copiesFor_step _ step keyed] at copied
  split at copied
  · rw [productAt_step]
    exact ProductAction.copy_of_product copied
  · cases copied

/-- The deliveries of a step for a product are the copies its action makes, to
everybody registered for it. -/
theorem deliveriesFor_step
    (keyed : manager.Keyed)
    (step : Step)
    (key : ProdKey) :
    deliveriesFor key (manager.step step).2 =
      if manager.HasListener key then
        ((step.actionOn key manager).copies (manager.productAt key)).map fun book =>
          { book, callbacks := manager.callbacksFor key ++ manager.wildcardCallbacks }
      else [] := by
  have addressed : deliveriesFor key (manager.step step).2 =
      (copiesFor key (manager.step step).2).map fun book =>
        { book, callbacks := manager.callbacksFor key ++ manager.wildcardCallbacks } := by
    rw [copiesFor, List.filter_map, List.map_map, deliveriesFor]
    refine (List.map_id _).symm.trans (List.map_congr_left fun delivery member => ?_)
    obtain ⟨delivered, same⟩ := List.mem_filter.mp member
    obtain ⟨_, callbacks⟩ := delivery_of_step keyed delivered
    rw [of_decide_eq_true same] at callbacks
    rw [← callbacks]
    rfl
  rw [addressed, copiesFor_step _ step keyed]
  split <;> rfl

/-- Step lemma: the product of a delivery was fed since the last reset, or is fed
by the step. -/
theorem fed_of_delivery
    (operations : List Operation)
    {step : Step}
    {key : ProdKey}
    {st : ProductState}
    (live : (operate.final {} operations).productAt key = some st ∨
      ((operate.final {} operations).step step).1.productAt key = some st) :
    ∃ wireId ∈ recentWireIds operations ++ (Operation.feed step).wireId.toList,
      wireId.key = key := by
  have seen : ((operate.final {} operations).productAt key).isSome = true ∨
      ∃ wireId ∈ (Operation.feed step).wireId, wireId.key = key := by
    rcases live with before | after
    · exact Or.inl (by rw [before]; rfl)
    · exact ((isSome_productAt_step _ step key).mp (by rw [after]; rfl)).2
  rcases seen with before | ⟨wireId, now, same⟩
  · obtain ⟨wireId, recent, same⟩ := (isSome_productAt_final operations key).mp before
    exact ⟨wireId, List.mem_append_left _ recent, same⟩
  · exact ⟨wireId, List.mem_append_right _ (Option.mem_toList.mpr now), same⟩

end OrderBookManager

/-- Callback routing is exact.  After any registrations, unregistrations and feeds,
every delivery of the next operation belongs to a product fed since the last reset,
of which it carries a copy.  It invokes, each once and with that copy, the callbacks
registered under the trimmed form of the id under which the product was first fed
and not unregistered since, in order, then the callbacks registered for all
products, in order, and no others; the delivered id trims to the same key.  A lookup
finds a product exactly when an id with the same trimmed form was fed since the last
reset.  And no delivery is missing: as long as any callback is registered for a product,
each copy that a feed makes of it is delivered once. -/
theorem callback_routing_exact (operations : List Operation) :
    let reached := OrderBookManager.operate.final {} operations
    (∀ last, ∀ delivery ∈ (reached.operate last).2,
      ∃ wireId,
        (recentWireIds operations ++ last.wireId.toList).find?
          (fun other => other.key = wireId.key) = some wireId ∧
        OrderBookManager.fire [delivery] =
          (liveCallbacks wireId.key operations ++ liveWildcards operations).map
            (fun callback => (callback, delivery.book)) ∧
        delivery.book.prodId.key = wireId.key ∧
        ∃ st, (reached.productAt wireId.key = some st ∨
            (reached.operate last).1.productAt wireId.key = some st) ∧
          delivery.book = st.book.stamp delivery.book.isStale) ∧
    (∀ prodId, (reached.getBook prodId).isSome = true ↔
      ∃ wireId ∈ recentWireIds operations, trimProdId prodId = wireId.key) ∧
    (∀ prodId book, reached.getBook prodId = some book →
      book.prodId.key = trimProdId prodId) ∧
    (∀ step key, liveCallbacks key operations ++ liveWildcards operations ≠ [] →
      deliveriesFor key (reached.operate (.feed step)).2 =
        ((step.actionOn key reached).copies (reached.productAt key)).map fun book =>
          { book
            callbacks := liveCallbacks key operations ++ liveWildcards operations }) := by
  intro reached
  have keyed := OrderBookManager.keyed_operations operations
  obtain ⟨byId, wildcards⟩ := OrderBookManager.registrations_final operations
  refine ⟨fun last delivery delivered => ?_, fun prodId => ?_,
    fun prodId book found => ?_, fun step key live => ?_⟩
  · cases last with
    | feed step =>
        obtain ⟨⟨st, live, copy⟩, callbacks⟩ :=
          OrderBookManager.delivery_of_step keyed delivered
        obtain ⟨fed, member, same⟩ := OrderBookManager.fed_of_delivery operations live
        have known : ((recentWireIds operations ++ (Operation.feed step).wireId.toList).find?
            fun other => other.key = delivery.book.prodId.key).isSome = true :=
          List.find?_isSome.mpr ⟨fed, member, decide_eq_true same⟩
        obtain ⟨wireId, first⟩ := Option.isSome_iff_exists.mp known
        have key : wireId.key = delivery.book.prodId.key := by
          simpa using List.find?_some first
        rw [← key] at first live callbacks
        refine ⟨wireId, first, ?_, key.symm, st, live, copy⟩
        rw [byId, wildcards] at callbacks
        rw [OrderBookManager.fire, List.flatMap_singleton, callbacks]
    | registerCallback prodId callback | registerCallbackAll callback
    | unregisterCallbacks prodId | unregisterAllCallbacks => cases delivered
  · rw [OrderBookManager.getBook, Option.isSome_map]
    apply (OrderBookManager.isSome_productAt_final operations _).trans
    exact exists_congr fun wireId => and_congr_right fun _ => eq_comm
  · rw [OrderBookManager.getBook] at found
    obtain ⟨st, present, rfl⟩ := Option.map_eq_some_iff.mp found
    exact keyed _ st present
  · rw [← byId, ← wildcards] at live ⊢
    have listened : reached.HasListener key := by
      simpa [OrderBookManager.HasListener, OrderBookManager.callbacksFor,
        or_iff_not_imp_left] using live
    exact (OrderBookManager.deliveriesFor_step keyed step key).trans (if_pos listened)

/-- An update under the padded wire form reaches the trimmed and the padded
registrations of the code, in order, then the wildcard, and nobody who unregistered
or registered for another code. -/
theorem callback_routing_exact_padded :
    let padded := Builders.kProd ++ [' '.toUInt8, ' '.toUInt8]
    let operations : List Operation :=
      [.registerCallback Builders.kProd 3, .registerCallbackAll 9,
        .unregisterCallbacks padded, .registerCallback padded 8,
        .registerCallback Builders.otherProd 5, .registerCallback Builders.kProd 7]
    let last : Operation := .feed (.i081 (Builders.makeI081 Builders.kProd 1 [] 1))
    let deliveries :=
      (OrderBookManager.operate (OrderBookManager.operate.final {} operations) last).2
    deliveries.length = 1 ∧
      ∀ delivery ∈ deliveries, OrderBookManager.fire [delivery] =
        [(8, delivery.book), (7, delivery.book), (9, delivery.book)] := by
  intro padded operations last deliveries
  refine ⟨by decide, fun delivery delivered => ?_⟩
  obtain ⟨wireId, first, fired, _⟩ :=
    (callback_routing_exact operations).1 last delivery delivered
  have only : wireId = Builders.setProd Builders.kProd :=
    List.mem_singleton.mp (List.mem_of_find?_eq_some first)
  subst only
  rw [fired]
  have live : liveCallbacks (Builders.setProd Builders.kProd).key operations ++
      liveWildcards operations = [8, 7, 9] := by decide
  rw [live]
  rfl

end TaifexResolver
