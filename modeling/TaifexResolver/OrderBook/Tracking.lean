import TaifexResolver.OrderBook.Ladders
import TaifexResolver.OrderBook.ProductView

/-!
# What a message does to a product

The specification of the feed bodies.  A message is either refused, and then it
changes nothing, or accepted, and then it overwrites the last serial, clears the
suspicion, and decides `synced` from the serial alone.  The sentinel case of a
product whose last serial is zero is folded into these statements.
-/

namespace TaifexResolver

namespace ProductState

/-- Value of the last serial, zero for a product that saw no message. -/
def lastSerial (st : ProductState) : Nat := st.book.lastProdMsgSeq.toNat

theorem lastProdMsgSeq_eq_zero_iff (st : ProductState) :
    st.book.lastProdMsgSeq = 0 ↔ st.lastSerial = 0 := by
  rw [lastSerial, ← UInt32.toNat_inj, UInt32.toNat_zero]

@[simp] theorem isStale_eq_false_iff (st : ProductState) :
    st.isStale = false ↔ st.synced = true ∧ st.suspect = false := by
  simp [isStale]

/-- The four cases of `track_seq_locked`. -/
theorem trackSeqLocked_cases (st : ProductState) (seq : UInt32) :
    (st.lastSerial = 0 ∧
      st.trackSeqLocked seq =
        ({ st.withSeq seq with synced := seq = 1, suspect := false }, true)) ∨
    (st.lastSerial ≠ 0 ∧ seq.toNat ≤ st.lastSerial ∧
      st.trackSeqLocked seq = (st, false)) ∨
    (st.lastSerial ≠ 0 ∧ seq.toNat = st.lastSerial + 1 ∧
      st.trackSeqLocked seq =
        ({ st.withSeq seq with suspect := false }, true)) ∨
    (st.lastSerial ≠ 0 ∧ st.lastSerial + 1 < seq.toNat ∧
      st.trackSeqLocked seq =
        ({ st.withSeq seq with synced := false, suspect := false }, true)) := by
  by_cases first : st.lastSerial = 0
  · refine Or.inl ⟨first, ?_⟩
    rw [trackSeqLocked, if_pos (st.lastProdMsgSeq_eq_zero_iff.mpr first)]
  · have known : ¬st.book.lastProdMsgSeq = 0 :=
      mt st.lastProdMsgSeq_eq_zero_iff.mp first
    apply Or.inr
    by_cases old : seq ≤ st.book.lastProdMsgSeq
    · refine Or.inl ⟨first, UInt32.le_iff_toNat_le.mp old, ?_⟩
      rw [trackSeqLocked, if_neg known, if_pos old]
    · have newer : st.lastSerial < seq.toNat :=
        Nat.lt_of_not_le (mt UInt32.le_iff_toNat_le.mpr old)
      apply Or.inr
      by_cases next : seq = st.book.lastProdMsgSeq + 1
      · refine Or.inl ⟨first, (eq_add_one_iff_toNat newer).mp next, ?_⟩
        rw [trackSeqLocked, if_neg known, if_neg old, if_pos next]
      · have skipped : seq.toNat ≠ st.lastSerial + 1 :=
          mt (eq_add_one_iff_toNat newer).mpr next
        refine Or.inr ⟨first, by omega, ?_⟩
        rw [trackSeqLocked, if_neg known, if_neg old, if_neg next]

end ProductState

namespace ProductMessage

/-- Whether a product takes a message: a snapshot may repeat the last serial,
anything else must exceed it, and a product whose last serial is zero takes
everything. -/
def Accepted (message : ProductMessage) (st : ProductState) : Prop :=
  st.lastSerial = 0 ∨
    (if message.isSnapshot then st.lastSerial ≤ message.serial.toNat
    else st.lastSerial < message.serial.toNat)

instance (message : ProductMessage) (st : ProductState) :
    Decidable (message.Accepted st) :=
  inferInstanceAs (Decidable (_ ∨ _))

/-- The `synced` flag an accepted message leaves. -/
def syncedAfter (message : ProductMessage) (st : ProductState) : Bool :=
  message.isSnapshot ||
    if st.lastSerial = 0 then message.serial.toNat = 1
    else message.serial.toNat = st.lastSerial + 1 && st.synced

/-- The ladders an accepted message leaves. -/
def laddersAfter (message : ProductMessage) (ladders : Ladders) : Ladders :=
  match message with
  | .track _ => ladders
  | .increment _ entries _ => entries.foldl Ladders.applyEntry ladders
  | .snapshot _ entries _ => entries.foldl Ladders.placeEntry Ladders.empty

/-- The information time an accepted message leaves. -/
def infoTimeAfter (message : ProductMessage) (infoTime : TimeText) : TimeText :=
  match message with
  | .track _ => infoTime
  | .increment _ _ received => received
  | .snapshot _ _ received => received

/-- Whether a message only moves the serial. -/
def isTrack : ProductMessage → Bool
  | .track _ => true
  | _ => false

end ProductMessage

namespace ProductState

/-- `track_seq_locked` on a message that the product refuses. -/
theorem trackSeqLocked_refused
    {st : ProductState}
    {seq : UInt32}
    (refused : ¬(st.lastSerial = 0 ∨ st.lastSerial < seq.toNat)) :
    st.trackSeqLocked seq = (st, false) := by
  rcases st.trackSeqLocked_cases seq with
    ⟨first, _⟩ | ⟨_, _, result⟩ | ⟨_, next, _⟩ | ⟨_, later, _⟩
  · exact absurd (Or.inl first) refused
  · exact result
  · exact absurd (Or.inr (by omega)) refused
  · exact absurd (Or.inr (by omega)) refused

/-- `track_seq_locked` on a message that the product accepts. -/
theorem trackSeqLocked_accepted
    {st : ProductState}
    {seq : UInt32}
    (accepted : st.lastSerial = 0 ∨ st.lastSerial < seq.toNat) :
    st.trackSeqLocked seq =
      ({ st.withSeq seq with
          synced := if st.lastSerial = 0 then seq.toNat = 1
            else seq.toNat = st.lastSerial + 1 && st.synced
          suspect := false }, true) := by
  have oneIff : seq = 1 ↔ seq.toNat = 1 := by
    rw [← UInt32.toNat_inj, UInt32.toNat_one]
  rcases st.trackSeqLocked_cases seq with
    ⟨first, result⟩ | ⟨known, old, _⟩ | ⟨known, next, result⟩ |
      ⟨known, later, result⟩
  · simp only [result, if_pos first, oneIff]
  · exact absurd accepted (by omega)
  · simp only [result, if_neg known, next, decide_true, Bool.true_and]
    rfl
  · have skipped : ¬seq.toNat = st.lastSerial + 1 := by omega
    simp only [result, if_neg known, skipped, decide_false, Bool.false_and]

/-- Every field of an adopted book, but the flag that only copies use, comes from
the snapshot. -/
theorem adoptSnapshotLocked_eq
    (st : ProductState)
    (prodId : ProdIdText)
    (seq : UInt32)
    (entries : List SnapshotEntry)
    (infoTime : TimeText) :
    st.adoptSnapshotLocked prodId seq entries infoTime =
      { book := OrderBook.withLadders
          { prodId := copyProdId prodId
            lastProdMsgSeq := seq
            isStale := st.book.isStale
            hasSnapshot := true
            infoTime := infoTime }
          (entries.foldl Ladders.placeEntry Ladders.empty)
        synced := true
        suspect := false } := by
  rw [adoptSnapshotLocked, OrderBook.foldl_placeEntry_eq_withLadders,
    OrderBook.ladder_clearLadders]
  rfl

end ProductState

namespace ProductMessage

/-- A refused message changes nothing and delivers nothing. -/
theorem body_refused
    {message : ProductMessage}
    {st : ProductState}
    (prodId : ProdIdText)
    (refused : ¬message.Accepted st) :
    message.body prodId st = (st, none) := by
  cases message with
  | track seq =>
      have tracked : st.trackSeqLocked seq = (st, false) :=
        ProductState.trackSeqLocked_refused refused
      simp only [body, ProductState.trackOnly, tracked, if_true]
  | increment seq entries infoTime =>
      have tracked : st.trackSeqLocked seq = (st, false) :=
        ProductState.trackSeqLocked_refused refused
      simp only [body, ProductState.applyIncrement, tracked, if_true]
  | snapshot seq entries infoTime =>
      have older : st.book.lastProdMsgSeq ≠ 0 ∧
          seq < st.book.lastProdMsgSeq := by
        simp only [Accepted, isSnapshot, if_true, serial, not_or, not_le] at refused
        refine ⟨mt st.lastProdMsgSeq_eq_zero_iff.mp refused.1, ?_⟩
        exact UInt32.lt_iff_toNat_lt.mpr refused.2
      simp only [body, ProductState.offerSnapshot, if_pos older]

/-- A message that a product accepts as a snapshot is adopted. -/
theorem offerSnapshot_accepted
    {st : ProductState}
    {seq : UInt32}
    (prodId : ProdIdText)
    (entries : List SnapshotEntry)
    (infoTime : TimeText)
    (accepted : (snapshot seq entries infoTime).Accepted st) :
    st.offerSnapshot prodId seq entries infoTime =
      (st.adoptSnapshotLocked prodId seq entries infoTime, some false) := by
  have notOlder : ¬(st.book.lastProdMsgSeq ≠ 0 ∧
      seq < st.book.lastProdMsgSeq) := by
    rintro ⟨known, older⟩
    have less := UInt32.lt_iff_toNat_lt.mp older
    rcases accepted with first | notOlder
    · exact known (st.lastProdMsgSeq_eq_zero_iff.mpr first)
    · simp only [isSnapshot, if_true, serial, ProductState.lastSerial] at notOlder
      omega
  rw [ProductState.offerSnapshot, if_neg notOlder]

/-- A message other than a snapshot is accepted when `track_seq_locked` finds it
new. -/
theorem accepted_iff_new
    {message : ProductMessage}
    (notSnapshot : message.isSnapshot = false)
    (st : ProductState) :
    message.Accepted st ↔ (st.trackSeqLocked message.serial).2 = true := by
  have spelled : message.Accepted st ↔
      st.lastSerial = 0 ∨ st.lastSerial < message.serial.toNat := by
    simp [Accepted, notSnapshot]
  rw [spelled]
  constructor
  · intro accepted
    rw [ProductState.trackSeqLocked_accepted accepted]
  · intro new
    by_contra refused
    rw [ProductState.trackSeqLocked_refused refused] at new
    cases new

/-- The state an accepted message leaves, and the flag it delivers: a message
that only moves the serial is delivered exactly when the flag flips. -/
theorem body_accepted
    {message : ProductMessage}
    {st : ProductState}
    (prodId : ProdIdText)
    (accepted : message.Accepted st) :
    let after := (message.body prodId st).1
    after.lastSerial = message.serial.toNat ∧
      after.synced = message.syncedAfter st ∧
      after.suspect = false ∧
      after.book.ladder = message.laddersAfter st.book.ladder ∧
      after.book.hasSnapshot = (st.book.hasSnapshot || message.isSnapshot) ∧
      after.book.infoTime = message.infoTimeAfter st.book.infoTime ∧
      (message.body prodId st).2 =
        if message.isTrack ∧ after.isStale = st.isStale then none
        else some after.isStale := by
  cases message with
  | track seq =>
      have tracked := ProductState.trackSeqLocked_accepted
        (show st.lastSerial = 0 ∨ st.lastSerial < seq.toNat from accepted)
      generalize afterEq : ({ st.withSeq seq with
        synced := if st.lastSerial = 0 then seq.toNat = 1
          else seq.toNat = st.lastSerial + 1 && st.synced
        suspect := false } : ProductState) = after at tracked
      have outcome : (track seq).body prodId st =
          (after, if after.isStale = st.isStale then none
            else some after.isStale) := by
        simp only [body, ProductState.trackOnly, tracked, Bool.true_eq_false,
          if_false]
        split <;> rfl
      simp only [outcome, isTrack, true_and]
      subst afterEq
      exact ⟨rfl, rfl, rfl, rfl, (Bool.or_false _).symm, rfl, trivial⟩
  | increment seq entries infoTime =>
      have tracked := ProductState.trackSeqLocked_accepted
        (show st.lastSerial = 0 ∨ st.lastSerial < seq.toNat from accepted)
      simp only [body, ProductState.applyIncrement, tracked,
        Bool.true_eq_false, if_false]
      simp only [OrderBook.foldl_applyEntry_eq_withLadders]
      refine ⟨rfl, rfl, trivial, ?_, (Bool.or_false _).symm, rfl, by simp [isTrack]⟩
      exact OrderBook.ladder_withLadders (st.withSeq seq).book _
  | snapshot seq entries infoTime =>
      simp only [body, offerSnapshot_accepted prodId entries infoTime accepted]
      refine ⟨rfl, rfl, rfl, ?_, (Bool.or_true _).symm, rfl, ?_⟩
      · apply (OrderBook.ladder_foldl_placeEntry _ entries).trans
        rw [OrderBook.ladder_clearLadders]
        rfl
      · simp [isTrack, ProductState.adoptSnapshotLocked, ProductState.isStale]

/-- A chain that is unbroken after an accepted message other than a snapshot
was unbroken, or empty, at the serial just before. -/
theorem chain_of_syncedAfter
    {message : ProductMessage}
    {st : ProductState}
    (notSnapshot : message.isSnapshot = false)
    (synced : message.syncedAfter st = true) :
    message.serial.toNat = st.lastSerial + 1 ∧
      (st.synced = true ∨ st.lastSerial = 0) := by
  simp only [syncedAfter, notSnapshot, Bool.false_or] at synced
  split at synced
  · next first =>
      rw [decide_eq_true_eq] at synced
      exact ⟨by omega, Or.inr first⟩
  · rw [Bool.and_eq_true, decide_eq_true_eq] at synced
    exact ⟨synced.1, Or.inl synced.2⟩

/-- The flag a feed body delivers is the stale flag of the state it leaves. -/
theorem notify_eq_isStale
    {message : ProductMessage}
    {prodId : ProdIdText}
    {st : ProductState}
    {isStale : Bool}
    (notified : (message.body prodId st).2 = some isStale) :
    (message.body prodId st).1.isStale = isStale := by
  by_cases accepted : message.Accepted st
  · have outcome := (body_accepted prodId accepted).2.2.2.2.2.2
    rw [outcome] at notified
    split at notified
    · cases notified
    · exact Option.some.inj notified
  · rw [body_refused prodId accepted] at notified
    cases notified

/-- The last serial covers the message just fed and never decreases. -/
theorem lastSerial_body
    (message : ProductMessage)
    (prodId : ProdIdText)
    (st : ProductState) :
    message.serial.toNat ≤ (message.body prodId st).1.lastSerial ∧
      st.lastSerial ≤ (message.body prodId st).1.lastSerial := by
  by_cases accepted : message.Accepted st
  · rw [(body_accepted prodId accepted).1]
    refine ⟨le_rfl, ?_⟩
    rcases accepted with zero | larger
    · omega
    · split at larger <;> omega
  · rw [body_refused prodId accepted]
    refine ⟨?_, le_rfl⟩
    change message.serial.toNat ≤ st.lastSerial
    unfold Accepted at accepted
    split at accepted <;> omega

/-- A contiguous message or a snapshot keeps a fresh product fresh, and makes a
newborn one fresh. -/
theorem isStale_body_eq_false
    {message : ProductMessage}
    {st : ProductState}
    (prodId : ProdIdText)
    (fresh : st.isStale = false ∨ st.lastSerial = 0)
    (positive : message.isSnapshot = false → 1 ≤ message.serial.toNat)
    (contiguous : message.isSnapshot = false →
      message.serial.toNat ≤ st.lastSerial + 1) :
    (message.body prodId st).1.isStale = false := by
  by_cases accepted : message.Accepted st
  · obtain ⟨_, syncedOutcome, suspectOutcome, _⟩ := body_accepted prodId accepted
    rw [ProductState.isStale_eq_false_iff, syncedOutcome, suspectOutcome]
    refine ⟨?_, rfl⟩
    cases kind : message.isSnapshot with
    | true => simp [syncedAfter, kind]
    | false =>
        have atLeast := positive kind
        have atMost := contiguous kind
        rw [Accepted, kind] at accepted
        have next : message.serial.toNat = st.lastSerial + 1 := by
          rcases accepted with zero | larger
          · omega
          · change st.lastSerial < message.serial.toNat at larger
            omega
        by_cases zero : st.lastSerial = 0
        · simp [ProductMessage.syncedAfter, zero, next]
        · have synced := (st.isStale_eq_false_iff.mp (fresh.resolve_right zero)).1
          simp [ProductMessage.syncedAfter, zero, next, synced]
  · rw [body_refused prodId accepted]
    refine fresh.resolve_right fun zero => accepted (Or.inl zero)

end ProductMessage

namespace ProductAction

/-- A copy delivered as fresh is a copy of the trusted state the action
leaves. -/
theorem fresh_copy
    {action : ProductAction}
    {found : Option ProductState}
    {copy : OrderBook}
    (delivered : copy ∈ action.copies found)
    (fresh : copy.isStale = false) :
    ∃ st, action.apply found = some st ∧ st.isStale = false ∧
      copy = st.book.stamp false := by
  cases action with
  | keep => simp [copies] at delivered
  | feed prodId message =>
      simp only [copies, List.mem_map, Option.mem_toList] at delivered
      obtain ⟨isStale, notified, rfl⟩ := delivered
      rw [OrderBook.isStale_stamp] at fresh
      subst fresh
      exact ⟨_, rfl, ProductMessage.notify_eq_isStale notified, rfl⟩
  | suspect | clear =>
      simp only [copies, List.mem_map] at delivered
      obtain ⟨st, _, rfl⟩ := delivered
      cases fresh

end ProductAction

namespace OrderBookManager

/-- A manager that has seen no header and no message since it was built or
reset; callbacks may be registered. -/
structure Blank (manager : OrderBookManager) : Prop where
  products : manager.products = ∅
  channels : manager.channels = ∅

theorem blank_new : Blank {} := ⟨rfl, rfl⟩

/-- A reset leaves a blank manager. -/
theorem blank_of_isReset
    (manager : OrderBookManager)
    {step : Step}
    (resets : step.isReset = true) :
    (manager.step step).1.Blank := by
  rw [manager.step_of_isReset resets]
  exact ⟨rfl, rfl⟩

namespace Blank

variable {manager : OrderBookManager}

theorem productAt (blank : manager.Blank) (key : ProdKey) :
    manager.productAt key = none := by
  rw [OrderBookManager.productAt, blank.products]
  rfl

theorem channelAt (blank : manager.Blank) (channel : UInt16) :
    manager.channelAt channel = none := by
  rw [OrderBookManager.channelAt, blank.channels]
  rfl

theorem keyed (blank : manager.Blank) : manager.Keyed := by
  intro key st found
  rw [blank.productAt] at found
  cases found

end Blank

theorem keyed_final
    {manager : OrderBookManager}
    (keyed : manager.Keyed)
    (steps : List Step) :
    (step.final manager steps).Keyed :=
  Machine.invariant_run Keyed
    (fun state event (_ : True) => keyed_step state event) keyed
    fun _ _ => trivial

/-- Invariant rule for one product: what holds of a newborn product and survives
the messages of the allowed steps and the sweep holds of the product in every
state reached from a blank manager. -/
theorem product_invariant
    (allowed : Step → Prop)
    {key : ProdKey}
    (invariant : ProductState → Prop)
    (newborn : ∀ prodId, invariant (ProductAction.newborn prodId))
    (fed : ∀ step prodId message st, allowed step →
      step.message = some (prodId, message) → prodId.key = key → invariant st →
      invariant (message.body prodId st).1)
    (swept : ∀ st, invariant st → invariant { st with suspect := true })
    {manager : OrderBookManager}
    (blank : manager.Blank)
    {steps : List Step}
    (allAllowed : ∀ step ∈ steps, allowed step)
    {st : ProductState}
    (reached : (step.final manager steps).productAt key = some st) :
    invariant st := by
  refine Machine.invariant_run
    (fun state : OrderBookManager => ∀ st, state.productAt key = some st → invariant st)
    (fun state last isAllowed held st found => ?_) (fun st found => ?_) allAllowed
    st reached
  · rw [productAt_step] at found
    cases action : last.actionOn key state with
    | keep =>
        rw [action] at found
        exact held st found
    | clear =>
        rw [action] at found
        cases found
    | suspect =>
        rw [action] at found
        obtain ⟨before, present, rfl⟩ := Option.map_eq_some_iff.mp found
        have heldBefore := held before present
        split
        · exact heldBefore
        · exact swept before heldBefore
    | feed prodId message =>
        obtain ⟨carries, same⟩ := Step.key_of_actionOn_feed action
        rw [action] at found
        cases found
        apply fed last prodId message _ isAllowed carries same
        cases present : state.productAt key with
        | none => exact newborn prodId
        | some before => exact held before present
  · rw [blank.productAt] at found
    cases found

/-- A copy delivered as fresh during a run is a copy of the trusted product
state reached at that moment. -/
theorem fresh_delivery
    {manager : OrderBookManager}
    (keyed : manager.Keyed)
    {steps : List Step}
    {key : ProdKey}
    {delivery : Delivery}
    (delivered : delivery ∈ step.output manager steps)
    (addressed : delivery.book.prodId.key = key)
    (fresh : delivery.book.isStale = false) :
    ∃ before last after st, steps = (before ++ [last]) ++ after ∧
      (step.final manager (before ++ [last])).productAt key = some st ∧
      st.isStale = false ∧ delivery.book = st.book.stamp false := by
  obtain ⟨before, last, after, rfl, emitted⟩ := Machine.mem_output_iff.mp delivered
  have copied : delivery.book ∈
      copiesFor key (step (step.final manager before) last).2 :=
    mem_copiesFor.mpr ⟨⟨delivery, emitted, rfl⟩, addressed⟩
  rw [copiesFor_step _ last (keyed_final keyed before)] at copied
  split at copied
  · obtain ⟨st, reached, trusted, copy⟩ := ProductAction.fresh_copy copied fresh
    refine ⟨before, last, after, st, by simp, ?_, trusted, copy⟩
    rw [Machine.final_concat, productAt_step]
    exact reached
  · simp at copied

/-- A copy that a step delivers, other than a reset, is what `get_book` returns right
after the step. -/
theorem delivered_copy
    {manager : OrderBookManager}
    (keyed : manager.Keyed)
    {fed : Step}
    (notReset : fed.isReset = false)
    {delivery : Delivery}
    (delivered : delivery ∈ (manager.step fed).2) :
    ∃ st, (manager.step fed).1.productAt delivery.book.prodId.key = some st ∧
      delivery.book = st.book.stamp st.isStale := by
  have copied : delivery.book ∈
      copiesFor delivery.book.prodId.key (manager.step fed).2 :=
    mem_copiesFor.mpr ⟨⟨delivery, delivered, rfl⟩, rfl⟩
  rw [copiesFor_step _ fed keyed] at copied
  rw [productAt_step]
  generalize delivery.book.prodId.key = key at copied ⊢
  split at copied
  · cases action : fed.actionOn key manager with
    | keep =>
        rw [action] at copied
        cases copied
    | clear =>
        rw [Step.isReset_of_actionOn_clear action] at notReset
        cases notReset
    | suspect =>
        rw [action, ProductAction.copies] at copied
        obtain ⟨st, trusted, copy⟩ := List.mem_map.mp copied
        rw [Option.mem_toList, Option.filter_eq_some_iff] at trusted
        obtain ⟨present, fresh⟩ := trusted
        rw [Bool.not_eq_true', st.isStale_eq_false_iff] at fresh
        rw [ProductAction.apply_suspect, present]
        refine ⟨_, rfl, ?_⟩
        rw [← copy]
        simp [ProductState.isStale, fresh]
    | feed prodId message =>
        rw [action, ProductAction.copies] at copied
        obtain ⟨isStale, notified, copy⟩ := List.mem_map.mp copied
        refine ⟨_, rfl, ?_⟩
        rw [← copy, ProductMessage.notify_eq_isStale (Option.mem_toList.mp notified)]
  · cases copied

end OrderBookManager
end TaifexResolver
