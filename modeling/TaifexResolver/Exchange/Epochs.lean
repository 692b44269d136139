import TaifexResolver.Exchange.Adoption
import TaifexResolver.Exchange.Soundness

/-!
# Across a sequence reset

A reset clears the books and the trackers, and the exchange numbers every product
anew.  Blocks that the snapshot feed generated before the reset may still arrive
afterwards.  All that the manager knows of their age is their serial, which it
compares with what the product has reached since the reset.
-/

namespace TaifexResolver

/-- A critical section after a reset: one of the new epoch, or a block that was
generated before the reset. -/
inductive EpochStep
  | current (step : Step)
  | leftover (header : Header) (prod : I084Product)

namespace EpochStep

/-- The critical section itself. -/
def step : EpochStep → Step
  | .current step => step
  | .leftover header prod => .i084Product header prod

/-- The critical section, if it is of the new epoch. -/
def ofEpoch : EpochStep → Option Step
  | .current step => some step
  | .leftover _ _ => none

end EpochStep

/-- The serial of a realtime message of a product. -/
def Step.realtimeSerial (key : ProdKey) : Step → Option Nat
  | .i084Product _ _ => none
  | step =>
      step.message.bind fun carried =>
        if carried.1.key = key then some carried.2.serial.toNat else none

/-- A message is a block of the carousel or has its serial as a realtime serial of its
product. -/
theorem Step.block_or_realtime
    {step : Step}
    {prodId : ProdIdText}
    {message : ProductMessage}
    (carries : step.message = some (prodId, message)) :
    (∃ header prod, step = .i084Product header prod) ∨
      ∀ key, step.realtimeSerial key =
        if prodId.key = key then some message.serial.toNat else none := by
  cases step with
  | i084Product header prod => exact Or.inl ⟨header, prod, rfl⟩
  | header received | reset => cases carries
  | i024 pkt | i025 pkt | i081 pkt | i083 pkt =>
      apply Or.inr
      intro key
      rw [realtimeSerial, carries]
      · rfl
      · exact fun _ _ => Step.noConfusion

/-- The exchange numbers its realtime messages from one on. -/
theorem Step.Truthful.realtime_positive
    {history : ExchangeHistory}
    {key : ProdKey}
    {step : Step}
    (truthful : step.Truthful history key)
    {serial : Nat}
    (realtime : step.realtimeSerial key = some serial) :
    0 < serial := by
  have issued : ∀ {seq : UInt32} {message : ExchangeMessage},
      history.messageAt seq = some message → 0 < seq.toNat := fun held =>
    (ExchangeHistory.bookAfter_of_messageAt held).1
  cases step with
  | header received | reset | i084Product header prod => cases realtime
  | i024 pkt | i025 pkt | i081 pkt =>
      obtain ⟨same, spelled⟩ := Option.ite_none_right_eq_some.mp realtime
      cases spelled
      exact issued (truthful same)
  | i083 pkt =>
      by_cases trial : pkt.calculatedFlag = '1'.toUInt8
      · simp only [realtimeSerial, message, if_pos trial] at realtime
        obtain ⟨same, spelled⟩ := Option.ite_none_right_eq_some.mp realtime
        cases spelled
        exact issued (truthful same)
      · simp only [realtimeSerial, message, if_neg trial] at realtime
        obtain ⟨same, spelled⟩ := Option.ite_none_right_eq_some.mp realtime
        cases spelled
        exact issued (truthful same)

/-- The steps of the new epoch quote the product's new history, and its realtime
messages come in the order of their serials. -/
structure NewEpoch
    (history : ExchangeHistory)
    (key : ProdKey)
    (events : List EpochStep) : Prop where
  truthful : ∀ step ∈ events.filterMap EpochStep.ofEpoch, step.Truthful history key
  inOrder : ((events.filterMap EpochStep.ofEpoch).filterMap
    (Step.realtimeSerial key)).Pairwise (· < ·)

/-- Every leftover block of the product is older than what the product has when the
block arrives. -/
def LeftoversOlder
    (key : ProdKey)
    (start : OrderBookManager)
    (events : List EpochStep) : Prop :=
  ∀ before header prod after, events = before ++ .leftover header prod :: after →
    prod.prodId.key = key →
    ¬(OrderBookManager.step.final start (before.map EpochStep.step)).Accepts
      prod.prodId prod.lastProdMsgSeq

theorem LeftoversOlder.left
    {key : ProdKey}
    {start : OrderBookManager}
    {before after : List EpochStep}
    (older : LeftoversOlder key start (before ++ after)) :
    LeftoversOlder key start before :=
  fun earlier header prod later split =>
    older earlier header prod (later ++ after) (by simp [split])

theorem NewEpoch.left
    {history : ExchangeHistory}
    {key : ProdKey}
    {before after : List EpochStep}
    (epoch : NewEpoch history key (before ++ after)) :
    NewEpoch history key before := by
  obtain ⟨truthful, inOrder⟩ := epoch
  rw [List.filterMap_append] at truthful inOrder
  rw [List.filterMap_append] at inOrder
  exact ⟨fun step member => truthful step (List.mem_append_left _ member),
    (List.pairwise_append.mp inOrder).1⟩

/-- A snapshot that its product does not accept changes nothing of it. -/
theorem SameProduct.of_not_accepts
    {manager : OrderBookManager}
    {header : Header}
    {prod : I084Product}
    (refuses : ¬manager.Accepts prod.prodId prod.lastProdMsgSeq)
    (key : ProdKey) :
    SameProduct key (manager.step (.i084Product header prod)).1 manager := by
  simp only [OrderBookManager.Accepts, not_forall] at refuses
  obtain ⟨st, live, notReached⟩ := refuses
  have carries : (Step.i084Product header prod).message =
      some (prod.prodId, .snapshot prod.lastProdMsgSeq prod.entries header.infoTime) :=
    rfl
  have older : prod.lastProdMsgSeq.toNat < st.lastSerial :=
    Nat.lt_of_not_le (mt UInt32.le_iff_toNat_le.mpr notReached)
  obtain ⟨same, _⟩ := refused_message carries live (by
    rintro (zero | reached)
    · omega
    · exact Nat.not_le.mpr older reached)
  exact ⟨same.products key, same.channels⟩

/-- Run lemma: leftover blocks that are older than what the product has might as well
not arrive. -/
theorem sameProduct_without_leftovers
    {key : ProdKey}
    {start : OrderBookManager}
    {events : List EpochStep}
    (older : LeftoversOlder key start events) :
    SameProduct key (OrderBookManager.step.final start (events.map EpochStep.step))
      (OrderBookManager.step.final start (events.filterMap EpochStep.ofEpoch)) := by
  induction events using List.reverseRecOn with
  | nil => exact ⟨rfl, fun _ => rfl⟩
  | append_singleton events last inductionHypothesis =>
      have same := inductionHypothesis older.left
      rw [List.map_append, List.map_singleton, List.filterMap_append,
        Machine.final_concat]
      cases last with
      | current step =>
          rw [show [EpochStep.current step].filterMap EpochStep.ofEpoch = [step] from rfl,
            Machine.final_concat]
          exact same.step step
      | leftover header prod =>
          rw [show [EpochStep.leftover header prod].filterMap EpochStep.ofEpoch = []
            from rfl, List.append_nil]
          refine SameProduct.trans ?_ same
          by_cases own : prod.prodId.key = key
          · exact .of_not_accepts (older events header prod [] rfl own) key
          · exact .of_message _ rfl own

/-- After a reset the product quotes its new history, as long as leftover blocks are
older than what it has. -/
theorem NewEpoch.sound
    {history : ExchangeHistory}
    {key : ProdKey}
    {start : OrderBookManager}
    {events : List EpochStep}
    (blank : start.Blank)
    (epoch : NewEpoch history key events)
    (older : LeftoversOlder key start events)
    {st : ProductState}
    (reached : (OrderBookManager.step.final start
      (events.map EpochStep.step)).productAt key = some st) :
    Sound history st := by
  rw [(sameProduct_without_leftovers older).product] at reached
  exact Sound.productAt_final blank epoch.truthful reached

/-- The last serial stays below a bound that is above every serial of the product's
messages. -/
theorem OrderBookManager.lastSerial_lt
    {start : OrderBookManager}
    (blank : start.Blank)
    {key : ProdKey}
    {steps : List Step}
    {bound : Nat}
    (positive : 0 < bound)
    (below : ∀ step ∈ steps, ∀ prodId message, step.message = some (prodId, message) →
      prodId.key = key → message.serial.toNat < bound)
    {st : ProductState}
    (reached : (step.final start steps).productAt key = some st) :
    st.lastSerial < bound := by
  refine product_invariant _ (fun st : ProductState => st.lastSerial < bound)
    (fun _ => positive) (fun _ prodId message st allowed carries same less => ?_)
    (fun _ less => less) blank below reached
  by_cases accepted : message.Accepted st
  · rw [(ProductMessage.body_accepted prodId accepted).1]
    exact allowed prodId message carries same
  · rw [ProductMessage.body_refused prodId accepted]
    exact less

/-- What the new epoch said of a product before one of its realtime messages has a
smaller serial, unless it is a block with at least that serial. -/
theorem NewEpoch.earlier_lt
    {history : ExchangeHistory}
    {key : ProdKey}
    {before after : List EpochStep}
    {step : Step}
    (epoch : NewEpoch history key (before ++ .current step :: after))
    {serial : UInt32}
    (realtime : step.realtimeSerial key = some serial.toNat)
    (uncovered : ¬∃ header prod, .current (.i084Product header prod) ∈ before ∧
      prod.prodId.key = key ∧ serial ≤ prod.lastProdMsgSeq)
    {other : Step}
    (member : other ∈ before.filterMap EpochStep.ofEpoch)
    {prodId : ProdIdText}
    {message : ProductMessage}
    (carries : other.message = some (prodId, message))
    (own : prodId.key = key) :
    message.serial.toNat < serial.toNat := by
  have inOrder := epoch.inOrder
  simp only [List.filterMap_append, List.filterMap_cons, EpochStep.ofEpoch,
    realtime] at inOrder
  have earlier := (List.pairwise_append.mp inOrder).2.2
  rcases Step.block_or_realtime carries with ⟨header, prod, rfl⟩ | spelled
  · obtain ⟨event, among, ofEpoch⟩ := List.mem_filterMap.mp member
    cases event with
    | leftover header prod => cases ofEpoch
    | current step =>
        cases ofEpoch
        cases carries
        apply Nat.lt_of_not_le
        intro reached
        exact uncovered ⟨header, prod, among, own, UInt32.le_iff_toNat_le.mpr reached⟩
  · apply earlier message.serial.toNat _ serial.toNat (by simp)
    apply List.mem_filterMap.mpr
    refine ⟨other, member, ?_⟩
    rw [spelled, if_pos own]

/-- A realtime message of the new epoch is accepted, unless a block of the new epoch
with at least its serial came first. -/
theorem NewEpoch.accepted_or_covered
    {history : ExchangeHistory}
    {key : ProdKey}
    {start : OrderBookManager}
    {before after : List EpochStep}
    {step : Step}
    (blank : start.Blank)
    (epoch : NewEpoch history key (before ++ .current step :: after))
    (older : LeftoversOlder key start before)
    {serial : Nat}
    (realtime : step.realtimeSerial key = some serial)
    {prodId : ProdIdText}
    {message : ProductMessage}
    (carries : step.message = some (prodId, message)) :
    message.Accepted ((OrderBookManager.step.final start
        (before.map EpochStep.step)).getOrCreateLocked prodId) ∨
      ∃ header prod, .current (.i084Product header prod) ∈ before ∧
        prod.prodId.key = key ∧ message.serial ≤ prod.lastProdMsgSeq := by
  obtain ⟨rfl, rfl⟩ : prodId.key = key ∧ message.serial.toNat = serial := by
    rcases Step.block_or_realtime carries with ⟨header, prod, rfl⟩ | spelled
    · cases realtime
    · rw [spelled] at realtime
      exact Option.ite_none_right_eq_some.mp realtime |>.imp_right Option.some.inj
  apply or_iff_not_imp_right.mpr
  intro uncovered
  have positive := (epoch.truthful step (by
    simp [List.filterMap_append, EpochStep.ofEpoch])).realtime_positive realtime
  have less : ((OrderBookManager.step.final start
      (before.map EpochStep.step)).getOrCreateLocked prodId).lastSerial <
        message.serial.toNat := by
    rw [OrderBookManager.getOrCreateLocked_eq,
      (sameProduct_without_leftovers older).product]
    cases seen : (OrderBookManager.step.final start
        (before.filterMap EpochStep.ofEpoch)).productAt prodId.key with
    | none => exact positive
    | some st =>
        apply OrderBookManager.lastSerial_lt blank positive _ seen
        intro other member otherId said otherCarries own
        exact epoch.earlier_lt realtime uncovered member otherCarries own
  apply Or.inr
  split <;> omega

/-- A book of the epoch: the exchange's book after the serial it carries. -/
def ExchangeHistory.HasBook (history : ExchangeHistory) (book : OrderBook) : Prop :=
  book.lastProdMsgSeq.toNat ≤ history.length ∧
    book.ladder = (history.bookAfter book.lastProdMsgSeq.toNat).ladder

/-- A trusted product that quotes a history has one of its books. -/
theorem Sound.hasBook
    {history : ExchangeHistory}
    {st : ProductState}
    (sound : Sound history st)
    (fresh : st.isStale = false)
    (isStale : Bool) :
    history.HasBook (st.book.stamp isStale) :=
  ⟨sound.serial_le, sound.ladders (Or.inl (st.isStale_eq_false_iff.mp fresh).1)⟩

/-- A sequence reset separates epochs as far as serials tell.  After a reset, whatever
came before it, let the steps of the new epoch quote the product's new history, its
realtime messages coming in order, and let every block that was generated before the
reset and arrives afterwards be older than what the product then has.  Then the product
is reported fresh, by `get_book` in any state and in any delivery, with books of the
new epoch only, and each of its realtime messages is accepted, unless a block of the
new epoch with at least its serial came first.  A block that is not older is adopted,
whenever it was generated. -/
theorem reset_separates_epochs
    (history : ExchangeHistory)
    (key : ProdKey)
    (manager : OrderBookManager)
    {cleared : Step}
    (resets : cleared.isReset = true)
    {events : List EpochStep}
    (epoch : NewEpoch history key events)
    (older : LeftoversOlder key (manager.step cleared).1 events) :
    let start := (manager.step cleared).1
    (∀ before after, events = before ++ after → ∀ prodId book, trimProdId prodId = key →
      (OrderBookManager.step.final start (before.map EpochStep.step)).getBook prodId =
        some book →
      book.isStale = false → history.HasBook book) ∧
    (∀ delivery ∈ OrderBookManager.step.output start (events.map EpochStep.step),
      delivery.book.prodId.key = key → delivery.book.isStale = false →
      history.HasBook delivery.book) ∧
    (∀ before step after serial prodId message,
      events = before ++ .current step :: after →
      step.realtimeSerial key = some serial →
      step.message = some (prodId, message) →
      message.Accepted ((OrderBookManager.step.final start
          (before.map EpochStep.step)).getOrCreateLocked prodId) ∨
        ∃ header prod, .current (.i084Product header prod) ∈ before ∧
          prod.prodId.key = key ∧ message.serial ≤ prod.lastProdMsgSeq) ∧
    ∀ header prod,
      (OrderBookManager.step.final start (events.map EpochStep.step)).Accepts
        prod.prodId prod.lastProdMsgSeq →
      ((OrderBookManager.step.final start (events.map EpochStep.step)).step
          (.i084Product header prod)).1.productAt prod.prodId.key =
        some (ProductState.ofSnapshot prod.prodId prod.lastProdMsgSeq header.infoTime
          (prod.entries.foldl Ladders.placeEntry Ladders.empty)) := by
  intro start
  have blank : start.Blank := manager.blank_of_isReset resets
  refine ⟨fun before after split prodId book trimmed returned fresh => ?_,
    fun delivery delivered addressed fresh => ?_,
    fun before step after serial prodId message split realtime carries => ?_,
    fun header prod accepts =>
      OrderBookManager.productAt_step_snapshot blank _ rfl accepts⟩
  · subst split
    subst trimmed
    obtain ⟨st, reached, rfl⟩ := Option.map_eq_some_iff.mp returned
    exact (epoch.left.sound blank older.left reached).hasBook fresh _
  · obtain ⟨before, last, after, st, split, reached, trusted, copy⟩ :=
      OrderBookManager.fresh_delivery blank.keyed delivered addressed fresh
    obtain ⟨early, late, rfl, earlySteps, _⟩ := List.map_eq_append_iff.mp split
    rw [← earlySteps] at reached
    rw [copy]
    exact (epoch.left.sound blank older.left reached).hasBook trusted _
  · subst split
    exact epoch.accepted_or_covered blank older.left realtime carries

namespace Epochs

/-- The only bid of the new epoch. -/
def bid : MDEntry := Builders.makeEntry '0' '0' 10315 4 1

/-- The only bid before the reset. -/
def oldBid : MDEntry := Builders.makeEntry '0' '0' 9900 2 1

/-- The product's messages before the reset. -/
def oldHistory : ExchangeHistory := [.i081 [oldBid], .i024]

/-- A block generated before the reset. -/
def oldBlock : I084Product :=
  Builders.makeI084Product Builders.kProd 2 [Builders.makeSnapshotEntry '0' 9900 2 1]

/-- The manager before the reset. -/
def manager : OrderBookManager :=
  OrderBookManager.step.final {}
    [.i081 (Builders.makeI081 Builders.kProd 1 [oldBid] 1),
      .i024 (Builders.makeI024 Builders.kProd 2 2)]

/-- An I002. -/
def reset : Step := .header (Builders.makeHeader '2' 3 Builders.kRtChannel)

/-- The old block arrives late. -/
def late : EpochStep := .leftover (Builders.makeHeader 'C' 1 Builders.kSnapChannel) oldBlock

/-- The first message of the new epoch. -/
def first : I081Packet := Builders.makeI081 Builders.kProd 1 [bid] 1

/-- The old block arrives before the first message. -/
def overtaken : List EpochStep := [late, .current (.i081 first)]

/-- The first three messages of the new epoch. -/
def messages : List EpochStep :=
  [.current (.i081 first), .current (.i024 (Builders.makeI024 Builders.kProd 2 2)),
    .current (.i024 (Builders.makeI024 Builders.kProd 3 3))]

/-- The old block arrives after the third message. -/
def outdated : List EpochStep := messages ++ [late]

/-- The history that the three messages quote. -/
def history : ExchangeHistory := [.i081 [bid], .i024, .i024]

end Epochs

/-- A truthful block from before the reset makes the product fresh with the old book,
and the first message of the new epoch is dropped. -/
theorem reset_mixes_epochs :
    Epochs.reset.isReset = true ∧ Epochs.oldBlock.Truthful Epochs.oldHistory ∧
    NewEpoch [.i081 [Epochs.bid]] Builders.kProd Epochs.overtaken ∧
    (∃ book, (OrderBookManager.step.final (Epochs.manager.step Epochs.reset).1
        (Epochs.overtaken.map EpochStep.step)).getBook Builders.kProd = some book ∧
      book.isStale = false ∧
      book.bids = (Epochs.oldHistory.bookAfter 2).bids ∧
      ¬ExchangeHistory.HasBook [.i081 [Epochs.bid]] book) ∧
    ¬(ProductMessage.increment 1 [Epochs.bid] Epochs.first.header.infoTime).Accepted
      ((OrderBookManager.step.final (Epochs.manager.step Epochs.reset).1
        [Epochs.late.step]).getOrCreateLocked Epochs.first.prodId) := by
  refine ⟨by decide, by decide, ⟨by decide, by decide⟩, ?_, by decide⟩
  have facts : ((OrderBookManager.step.final (Epochs.manager.step Epochs.reset).1
      (Epochs.overtaken.map EpochStep.step)).getBook Builders.kProd).any (fun book =>
        book.isStale = false ∧ book.bids = (Epochs.oldHistory.bookAfter 2).bids ∧
          book.lastProdMsgSeq = 2) = true := by decide
  obtain ⟨book, returned, wrong⟩ := (Option.any_eq_true _ _).mp facts
  obtain ⟨fresh, content, serial⟩ := of_decide_eq_true wrong
  refine ⟨book, returned, fresh, content, fun has => ?_⟩
  have atMost := has.1
  rw [serial] at atMost
  revert atMost
  decide

/-- The old block arrives when the product is past its serial. -/
theorem reset_separates_epochs_outdated :
    ∃ book, (OrderBookManager.step.final (Epochs.manager.step Epochs.reset).1
        (Epochs.outdated.map EpochStep.step)).getBook Builders.kProd = some book ∧
      book.isStale = false ∧ Epochs.history.HasBook book := by
  have older : LeftoversOlder Builders.kProd (Epochs.manager.step Epochs.reset).1
      Epochs.outdated := by
    obtain ⟨st, live, older⟩ : ∃ st,
        (OrderBookManager.step.final (Epochs.manager.step Epochs.reset).1
          (Epochs.messages.map EpochStep.step)).productAt Epochs.oldBlock.prodId.key =
            some st ∧ ¬st.book.lastProdMsgSeq ≤ Epochs.oldBlock.lastProdMsgSeq :=
      ⟨_, rfl, by decide⟩
    intro before header prod after split own accepts
    match before, split with
    | [], split | [_], split | [_, _], split => cases split
    | [_, _, _], split =>
        cases split
        exact older (accepts st live)
    | _ :: _ :: _ :: _ :: rest, split =>
        have lengths := congrArg List.length split
        simp only [Epochs.outdated, Epochs.messages, List.length_cons, List.length_nil,
          List.length_append] at lengths
        omega
  have facts : ((OrderBookManager.step.final (Epochs.manager.step Epochs.reset).1
      (Epochs.outdated.map EpochStep.step)).getBook Builders.kProd).any
        (fun book => book.isStale = false) = true := by decide
  obtain ⟨book, returned, fresh⟩ := (Option.any_eq_true _ _).mp facts
  refine ⟨book, returned, of_decide_eq_true fresh, ?_⟩
  exact (reset_separates_epochs Epochs.history Builders.kProd Epochs.manager (by decide)
    ⟨by decide, by decide⟩ older).1 Epochs.outdated [] (List.append_nil _).symm
      Builders.kProd book (by decide) returned (of_decide_eq_true fresh)

end TaifexResolver
