import TaifexResolver.OrderBook.Tracking

/-!
# Registrations beside feeds

Callbacks come and go while the feeds run.  An operation is a critical section of
a feed or a change of the registrations; this module turns the manager into a
machine over operations and says which callbacks it holds, from the operations
alone.
-/

namespace TaifexResolver

/-- One critical section of the manager, registrations included. -/
inductive Operation
  | feed (step : Step)
  | registerCallback (prodId : List UInt8) (callback : CallbackPtr)
  | registerCallbackAll (callback : CallbackPtr)
  | unregisterCallbacks (prodId : List UInt8)
  | unregisterAllCallbacks
  deriving DecidableEq

namespace OrderBookManager

/-- Run one operation. -/
def operate : Machine OrderBookManager Operation Delivery := fun manager operation =>
  match operation with
  | .feed step => manager.step step
  | .registerCallback prodId callback => (manager.registerCallback prodId callback, [])
  | .registerCallbackAll callback => (manager.registerCallbackAll callback, [])
  | .unregisterCallbacks prodId => (manager.unregisterCallbacks prodId, [])
  | .unregisterAllCallbacks => (manager.unregisterAllCallbacks, [])

/-- The callbacks registered for a product, in order. -/
def callbacksFor (manager : OrderBookManager) (key : ProdKey) : List CallbackPtr :=
  (manager.callbacks.lookup key).getD []

theorem keyed_operate
    {manager : OrderBookManager}
    (operation : Operation)
    (keyed : manager.Keyed) :
    (manager.operate operation).1.Keyed := by
  cases operation with
  | feed step => exact keyed_step manager step keyed
  | registerCallback prodId callback | registerCallbackAll callback
  | unregisterCallbacks prodId | unregisterAllCallbacks => exact keyed

theorem keyed_operations (operations : List Operation) :
    (operate.final {} operations).Keyed :=
  Machine.invariant_run Keyed (fun _ operation (_ : True) keyed =>
    keyed_operate operation keyed) blank_new.keyed fun _ _ => trivial

end OrderBookManager

/-! ## Live registrations -/

namespace Operation

/-- The callback an operation registers for a product. -/
def registers (key : ProdKey) : Operation → Option CallbackPtr
  | .registerCallback prodId callback =>
      if trimProdId prodId = key then some callback else none
  | _ => none

/-- Whether an operation unregisters the callbacks of a product. -/
def unregisters (key : ProdKey) : Operation → Bool
  | .unregisterCallbacks prodId => trimProdId prodId = key
  | .unregisterAllCallbacks => true
  | _ => false

/-- The callback an operation registers for all products. -/
def registersAll : Operation → Option CallbackPtr
  | .registerCallbackAll callback => some callback
  | _ => none

/-- Whether an operation unregisters the callbacks for all products. -/
def unregistersAll : Operation → Bool
  | .unregisterAllCallbacks => true
  | _ => false

end Operation

/-- The callbacks registered for a product by some operations and not unregistered
since, in the order of their registrations. -/
def liveCallbacks (key : ProdKey) (operations : List Operation) : List CallbackPtr :=
  (since (Operation.unregisters key) operations).filterMap (Operation.registers key)

/-- The callbacks registered for all products and not unregistered since, in
order. -/
def liveWildcards (operations : List Operation) : List CallbackPtr :=
  (since Operation.unregistersAll operations).filterMap Operation.registersAll

theorem liveCallbacks_concat
    (key : ProdKey)
    (operations : List Operation)
    (last : Operation) :
    liveCallbacks key (operations ++ [last]) =
      if last.unregisters key then []
      else liveCallbacks key operations ++ (last.registers key).toList := by
  rw [liveCallbacks, since_concat]
  split
  · rfl
  · rw [List.filterMap_append]
    cases registered : last.registers key <;> simp [liveCallbacks, registered]

theorem liveWildcards_concat (operations : List Operation) (last : Operation) :
    liveWildcards (operations ++ [last]) =
      if last.unregistersAll then []
      else liveWildcards operations ++ last.registersAll.toList := by
  rw [liveWildcards, since_concat]
  split
  · rfl
  · rw [List.filterMap_append]
    cases registered : last.registersAll <;> simp [liveWildcards, registered]

namespace OrderBookManager

/-- Step lemma: how an operation changes the registrations. -/
theorem callbacksFor_operate
    (manager : OrderBookManager)
    (operation : Operation)
    (key : ProdKey) :
    (manager.operate operation).1.callbacksFor key =
      if operation.unregisters key then []
      else manager.callbacksFor key ++ (operation.registers key).toList := by
  cases operation with
  | feed step =>
      change (manager.step step).1.callbacksFor key = manager.callbacksFor key ++ []
      rw [callbacksFor, (callbacks_step manager step).1, List.append_nil]
      rfl
  | registerCallback prodId callback =>
      by_cases same : trimProdId prodId = key
      · subst same
        simp [operate, callbacksFor, registerCallback, Operation.unregisters,
          Operation.registers]
      · simp [operate, callbacksFor, registerCallback, Operation.unregisters,
          Operation.registers, same, AList.lookup_insert_ne (Ne.symm same)]
  | unregisterCallbacks prodId =>
      by_cases same : trimProdId prodId = key
      · subst same
        simp [operate, callbacksFor, unregisterCallbacks, Operation.unregisters]
      · simp [operate, callbacksFor, unregisterCallbacks, Operation.unregisters,
          Operation.registers, same, AList.lookup_erase_ne (Ne.symm same)]
  | registerCallbackAll callback => exact (List.append_nil _).symm
  | unregisterAllCallbacks => rfl

theorem wildcardCallbacks_operate
    (manager : OrderBookManager)
    (operation : Operation) :
    (manager.operate operation).1.wildcardCallbacks =
      if operation.unregistersAll then []
      else manager.wildcardCallbacks ++ operation.registersAll.toList := by
  cases operation with
  | feed step =>
      change (manager.step step).1.wildcardCallbacks = manager.wildcardCallbacks ++ []
      rw [(callbacks_step manager step).2, List.append_nil]
  | registerCallback prodId callback | unregisterCallbacks prodId =>
      exact (List.append_nil _).symm
  | registerCallbackAll callback => rfl
  | unregisterAllCallbacks => rfl

/-- Run lemma: the registrations a manager holds are the live ones. -/
theorem registrations_final (operations : List Operation) :
    (∀ key, (operate.final {} operations).callbacksFor key =
      liveCallbacks key operations) ∧
    (operate.final {} operations).wildcardCallbacks = liveWildcards operations := by
  induction operations using List.reverseRecOn with
  | nil => exact ⟨fun _ => rfl, rfl⟩
  | append_singleton operations last inductionHypothesis =>
      obtain ⟨byId, wildcards⟩ := inductionHypothesis
      refine ⟨fun key => ?_, ?_⟩
      · rw [Machine.final_concat, callbacksFor_operate, liveCallbacks_concat, byId]
      · rw [Machine.final_concat, wildcardCallbacks_operate, liveWildcards_concat,
          wildcards]

end OrderBookManager

/-! ## Products seen -/

/-- Whether an operation clears the products. -/
def Operation.resets : Operation → Bool
  | .feed step => step.isReset
  | _ => false

/-- The raw product id an operation carries a message for. -/
def Operation.wireId : Operation → Option ProdIdText
  | .feed step => step.message.map Prod.fst
  | _ => none

/-- The raw ids under which products were fed since the last reset, in order. -/
def recentWireIds (operations : List Operation) : List ProdIdText :=
  (since Operation.resets operations).filterMap Operation.wireId

theorem recentWireIds_concat (operations : List Operation) (last : Operation) :
    recentWireIds (operations ++ [last]) =
      if last.resets then [] else recentWireIds operations ++ last.wireId.toList := by
  rw [recentWireIds, since_concat]
  split
  · rfl
  · rw [List.filterMap_append]
    cases carried : last.wireId <;> simp [recentWireIds, carried]

namespace OrderBookManager

/-- A step creates the product it is addressed to, and a reset clears all. -/
theorem isSome_productAt_step
    (manager : OrderBookManager)
    (step : Step)
    (key : ProdKey) :
    ((manager.step step).1.productAt key).isSome = true ↔
      step.isReset = false ∧
        ((manager.productAt key).isSome = true ∨
          ∃ wireId ∈ step.message.map Prod.fst, wireId.key = key) := by
  rcases step.kinds with
    ⟨prodId, message, carries, notReset⟩ | ⟨silent, resets⟩ | ⟨received, rfl, notReset⟩
  · by_cases same : prodId.key = key
    · subst same
      rw [manager.productAt_step_own carries]
      simp [carries, notReset]
    · rw [manager.productAt_step_other carries same]
      simp [carries, notReset, same]
  · rw [productAt_step]
    simp [Step.actionOn, silent, resets, ProductAction.apply]
  · have kept : Step.isReset (.header received) = false := by
      simpa [Step.isReset] using notReset
    rw [productAt_step]
    simp only [Step.actionOn, Step.message, kept, Bool.false_eq_true, if_false]
    split <;> simp [ProductAction.apply]

/-- Step lemma: which products an operation leaves. -/
theorem isSome_productAt_operate
    (manager : OrderBookManager)
    (operation : Operation)
    (key : ProdKey) :
    ((manager.operate operation).1.productAt key).isSome = true ↔
      operation.resets = false ∧
        ((manager.productAt key).isSome = true ∨
          ∃ wireId ∈ operation.wireId, wireId.key = key) := by
  cases operation with
  | feed step => exact manager.isSome_productAt_step step key
  | registerCallback prodId callback | registerCallbackAll callback
  | unregisterCallbacks prodId | unregisterAllCallbacks =>
      simp only [Operation.resets, Operation.wireId, true_and, Option.not_mem_none,
        false_and, exists_false, or_false]
      exact Iff.rfl

/-- Run lemma: a manager holds the products fed since the last reset. -/
theorem isSome_productAt_final (operations : List Operation) (key : ProdKey) :
    ((operate.final {} operations).productAt key).isSome = true ↔
      ∃ wireId ∈ recentWireIds operations, wireId.key = key := by
  induction operations using List.reverseRecOn with
  | nil =>
      rw [Machine.final_nil, blank_new.productAt]
      simp [recentWireIds]
  | append_singleton operations last inductionHypothesis =>
      rw [Machine.final_concat, isSome_productAt_operate, inductionHypothesis,
        recentWireIds_concat]
      cases last.resets with
      | true => simp
      | false => simp [or_and_right, exists_or]

end OrderBookManager
end TaifexResolver
