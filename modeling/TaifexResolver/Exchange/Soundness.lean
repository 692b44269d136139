import TaifexResolver.Exchange.History
import TaifexResolver.OrderBook.Builders

/-!
# A trusted book is the exchange's book

Refinement of the exchange history by the manager.  As long as every step quotes
the history of a product, the product's ladders are the exchange's book after
the product's last serial whenever the chain is unbroken, whatever was lost,
repeated or reordered on the way.
-/

namespace TaifexResolver

/-- The relation between one product and its history: the last serial lies in
the history, and an unbroken chain carries the book of that serial.  A product
whose last serial is zero carries the empty book. -/
structure Sound (history : ExchangeHistory) (st : ProductState) : Prop where
  serial_le : st.lastSerial ≤ history.length
  ladders : st.synced = true ∨ st.lastSerial = 0 →
    st.book.ladder = (history.bookAfter st.lastSerial).ladder

namespace Sound

variable {history : ExchangeHistory}

theorem newborn (prodId : ProdIdText) :
    Sound history (ProductAction.newborn prodId) := by
  refine ⟨Nat.zero_le _, fun _ => ?_⟩
  rw [show (ProductAction.newborn prodId).lastSerial = 0 from rfl,
    ExchangeHistory.ladder_bookAfter_zero]
  funext side
  cases side <;> rfl

/-- Step lemma: a message that quotes the history keeps the relation. -/
theorem body
    {message : ProductMessage}
    {st : ProductState}
    (prodId : ProdIdText)
    (quotes : message.Quotes history)
    (sound : Sound history st) :
    Sound history (message.body prodId st).1 := by
  by_cases accepted : message.Accepted st
  · obtain ⟨serialEq, syncedEq, _, laddersEq, _⟩ :=
      ProductMessage.body_accepted prodId accepted
    refine ⟨serialEq.symm ▸ quotes.serial_le, fun unbroken => ?_⟩
    rw [serialEq, quotes.ladders, laddersEq]
    cases kind : message.isSnapshot with
    | true =>
        cases message with
        | snapshot seq entries infoTime => rfl
        | track seq | increment seq entries infoTime => cases kind
    | false =>
        have positive := quotes.positive kind
        rw [serialEq, syncedEq] at unbroken
        obtain ⟨contiguous, before⟩ := ProductMessage.chain_of_syncedAfter kind
          (unbroken.resolve_right (by omega))
        rw [sound.ladders before, contiguous, Nat.add_sub_cancel]
  · rw [ProductMessage.body_refused prodId accepted]
    exact sound

/-- Run lemma: the relation holds in every reachable state. -/
theorem productAt_final
    {key : ProdKey}
    {manager : OrderBookManager}
    (blank : manager.Blank)
    {steps : List Step}
    (truthful : ∀ step ∈ steps, step.Truthful history key)
    {st : ProductState}
    (reached : (OrderBookManager.step.final manager steps).productAt key =
      some st) :
    Sound history st := by
  refine OrderBookManager.product_invariant (fun step => step.Truthful history key)
    (Sound history) newborn (fun step prodId message st quoting carries same sound => ?_)
    (fun st sound => ⟨sound.serial_le, sound.ladders⟩) blank truthful reached
  subst same
  exact sound.body prodId (quoting.quotes carries)

end Sound

/-- The order book manager tells the truth.  Fix the history of one product and
let every step quote it: messages carry the serial and content they were issued
with, carousel blocks list the book of the serial they carry, headers are not
resets, and steps addressed to other products are arbitrary.  Then in every
state reached from a blank manager, a product whose chain is unbroken carries
the exchange's book after its last serial; so does every book that `get_book`
returns, and every copy delivered, with the stale flag down. -/
theorem freshness_sound
    (history : ExchangeHistory)
    (key : ProdKey)
    (manager : OrderBookManager)
    (blank : manager.Blank)
    (steps : List Step)
    (truthful : ∀ step ∈ steps, step.Truthful history key) :
    (∀ st, (OrderBookManager.step.final manager steps).productAt key = some st →
      st.lastSerial ≤ history.length ∧
        (st.synced = true →
          st.book.ladder = (history.bookAfter st.lastSerial).ladder)) ∧
    (∀ prodId book, trimProdId prodId = key →
      (OrderBookManager.step.final manager steps).getBook prodId = some book →
      book.isStale = false →
      book.ladder = (history.bookAfter book.lastProdMsgSeq.toNat).ladder) ∧
    (∀ delivery ∈ OrderBookManager.step.output manager steps,
      delivery.book.prodId.key = key → delivery.book.isStale = false →
      delivery.book.ladder =
        (history.bookAfter delivery.book.lastProdMsgSeq.toNat).ladder) := by
  refine ⟨fun st reached => ?_, fun prodId book trimmed returned fresh => ?_,
    fun delivery delivered addressed fresh => ?_⟩
  · have sound := Sound.productAt_final blank truthful reached
    exact ⟨sound.serial_le, fun synced => sound.ladders (Or.inl synced)⟩
  · subst trimmed
    simp only [OrderBookManager.getBook, Option.map_eq_some_iff] at returned
    obtain ⟨st, reached, rfl⟩ := returned
    have synced := (st.isStale_eq_false_iff.mp fresh).1
    exact (Sound.productAt_final blank truthful reached).ladders (Or.inl synced)
  · obtain ⟨before, last, after, st, rfl, reached, trusted, copy⟩ :=
      OrderBookManager.fresh_delivery blank.keyed delivered addressed fresh
    have truthfulPrefix : ∀ step ∈ before ++ [last],
        step.Truthful history key :=
      fun step member => truthful step (List.mem_append_left after member)
    have synced := (st.isStale_eq_false_iff.mp trusted).1
    rw [copy]
    exact (Sound.productAt_final blank truthfulPrefix reached).ladders
      (Or.inl synced)

/-- Two bids, then a trade, of which the manager misses the second bid and
recovers it from the carousel. -/
theorem freshness_sound_recovery :
    let history : ExchangeHistory :=
      [.i081 [Builders.makeEntry '0' '0' 10315 4 1],
        .i081 [Builders.makeEntry '0' '0' 10314 3 2], .i024]
    let steps :=
      Builders.feedI081 (Builders.makeI081 Builders.kProd 1
        [Builders.makeEntry '0' '0' 10315 4 1] 1) ++
      Builders.feedI024 (Builders.makeI024 Builders.kProd 3 3) ++
      Builders.feedI084 1 (Builders.makeI084Product Builders.kProd 3
        [Builders.makeSnapshotEntry '0' 10314 3 2,
          Builders.makeSnapshotEntry '0' 10315 4 1])
    ∃ st, (OrderBookManager.step.final {} steps).productAt Builders.kProd =
        some st ∧ st.lastSerial = 3 ∧ st.synced = true ∧
      st.book.ladder = (history.bookAfter 3).ladder := by
  intro history steps
  have reached : ((OrderBookManager.step.final {} steps).productAt
      Builders.kProd).isSome := by decide
  obtain ⟨st, found⟩ := Option.isSome_iff_exists.mp reached
  have facts : ((OrderBookManager.step.final {} steps).productAt
      Builders.kProd).all
        (fun st => st.lastSerial = 3 ∧ st.synced = true) = true := by decide
  rw [found] at facts
  simp only [Option.all_some, decide_eq_true_eq] at facts
  have sound := (freshness_sound history Builders.kProd {}
    OrderBookManager.blank_new steps (by decide)).1 st found
  rw [facts.1] at sound
  exact ⟨st, found, facts.1, facts.2, sound.2 facts.2⟩

end TaifexResolver
