import TaifexResolver.Concurrency.Manager
import TaifexResolver.Exchange.Soundness
import TaifexResolver.Staleness.Retransmission
import Mathlib.Data.List.Flatten

/-!
# What threads see of a product

The registrations and the questions of the threads do not touch the books, so a run
of accesses takes the books through the feed steps among them.  What holds of every
run of feed steps therefore holds of what the threads see: of the book that a thread
gets from `get_book`, and of the copies its callbacks are invoked with.
-/

namespace TaifexResolver

/-- The feed step that an access is, if it is one. -/
def Access.steps : Access → List Step
  | .operate (.feed step) => [step]
  | _ => []

namespace OrderBookManager

/-- Managers with the same books and the same trackers, whoever is registered. -/
structure SameBooks (manager other : OrderBookManager) : Prop where
  products : manager.products = other.products
  channels : manager.channels = other.channels

namespace SameBooks

variable {manager other : OrderBookManager}

theorem productAt (same : SameBooks manager other) (key : ProdKey) :
    manager.productAt key = other.productAt key := by
  rw [OrderBookManager.productAt, same.products]
  rfl

theorem getBook (same : SameBooks manager other) (prodId : List UInt8) :
    manager.getBook prodId = other.getBook prodId := by
  rw [OrderBookManager.getBook, same.products]
  rfl

/-- A feed step keeps books that are the same the same. -/
theorem step (same : SameBooks manager other) (fed : Step) :
    SameBooks (manager.step fed).1 (other.step fed).1 := by
  rcases fed.kinds with
    ⟨prodId, message, carries, _⟩ | ⟨_, resets⟩ | ⟨received, rfl, notReset⟩
  · have found := same.productAt prodId.key
    rw [step_of_message manager carries, step_of_message other carries, feedProduct_fst,
      feedProduct_fst, getOrCreateLocked_eq, getOrCreateLocked_eq, found]
    refine ⟨?_, same.channels⟩
    simp only [same.products]
  · rw [step_of_isReset manager resets, step_of_isReset other resets]
    exact ⟨rfl, rfl⟩
  · have tracked : manager.channelAt received.channelId =
        other.channelAt received.channelId := by
      rw [channelAt, same.channels]
      rfl
    simp only [OrderBookManager.step, onHeader_eq _ notReset, tracked]
    have channels := congrArg (fun channels => channels.insert received.channelId
      (ChannelState.advance (other.channelAt received.channelId) received)) same.channels
    split
    · refine ⟨?_, channels⟩
      simp only [sweepSuspect, same.products]
    · exact ⟨same.products, channels⟩

/-- An access changes the books as its feed step does, if it is one. -/
theorem perform (same : SameBooks manager other) (accessed : Access) :
    SameBooks (manager.perform accessed).1
      (OrderBookManager.step.final other accessed.steps) := by
  cases accessed with
  | getBook prodId | productIds => exact same
  | operate operation =>
      cases operation with
      | feed fed => exact same.step fed
      | registerCallback prodId callback | registerCallbackAll callback
      | unregisterCallbacks prodId | unregisterAllCallbacks =>
          exact ⟨same.products, same.channels⟩

end SameBooks

/-- A run of accesses takes the books through the feed steps among them. -/
theorem sameBooks_accessing (manager : OrderBookManager) (accesses : List Access) :
    SameBooks (accessing.final manager accesses)
      (step.final manager (accesses.flatMap Access.steps)) := by
  induction accesses using List.reverseRecOn with
  | nil => exact ⟨rfl, rfl⟩
  | append_singleton accesses last inductionHypothesis =>
      rw [Machine.final_concat, List.flatMap_append, Machine.final_append]
      simp only [List.flatMap_cons, List.flatMap_nil, List.append_nil]
      exact inductionHypothesis.perform last

theorem keyed_accessing
    {manager : OrderBookManager}
    (keyed : manager.Keyed)
    (accesses : List Access) :
    (accessing.final manager accesses).Keyed := by
  intro key st found
  rw [(sameBooks_accessing manager accesses).productAt] at found
  exact keyed_final keyed _ key st found

/-- A delivery that an access leaves behind is one of its feed step. -/
theorem step_of_deliver
    {manager : OrderBookManager}
    {accessed : Access}
    {delivery : Delivery}
    (left : .deliver delivery ∈ (manager.perform accessed).2.1) :
    ∃ fed, accessed = .operate (.feed fed) ∧ delivery ∈ (manager.step fed).2 := by
  cases accessed with
  | getBook prodId | productIds => cases left
  | operate operation =>
      cases operation with
      | feed fed =>
          refine ⟨fed, rfl, ?_⟩
          simpa [perform, operate, released] using left
      | registerCallback prodId callback | registerCallbackAll callback
      | unregisterCallbacks prodId | unregisterAllCallbacks =>
          simp [perform, operate] at left

end OrderBookManager

/-- An access whose feed step, if it is one, quotes the history. -/
def Access.Truthful
    (history : ExchangeHistory)
    (key : ProdKey)
    (accessed : Access) : Prop :=
  ∀ step ∈ accessed.steps, step.Truthful history key

instance (history : ExchangeHistory) (key : ProdKey) (accessed : Access) :
    Decidable (accessed.Truthful history key) :=
  inferInstanceAs (Decidable (∀ step ∈ accessed.steps, step.Truthful history key))

/-- A request for truthful accesses. -/
def Monitor.Request.Truthful
    {θ : Type}
    (history : ExchangeHistory)
    (key : ProdKey)
    (request : Monitor.Request θ Access) : Prop :=
  ∀ accessed ∈ request.labels, accessed.Truthful history key

section Threads

variable
  {θ : Type}
  [DecidableEq θ]
  {listeners : Listeners θ}
  {interpreted : θ → Bool}
  {program : θ → List (Monitor.Request θ Access)}
  {manager : OrderBookManager}
  {config : Monitor.Config OrderBookManager Access Aftermath Answer CallbackAction θ}

/-- The access at each place of those that have ended left behind and answered what it
does from the state that the accesses before it lead to. -/
theorem perform_at
    (reachable : (OrderBookManager.monitor listeners).Reachable
      (Monitor.start manager interpreted program) config)
    {earlier later : List (Monitor.Commit Access Aftermath Answer θ)}
    {commit : Monitor.Commit Access Aftermath Answer θ}
    (split : config.committed = earlier ++ commit :: later) :
    ((OrderBookManager.accessing.final manager (earlier.map Monitor.Commit.label)).perform
      commit.label).2 = (commit.collected, commit.value) := by
  have explained := reachable.explained_at split
  rw [OrderBookManager.sequential_monitor] at explained
  exact (List.cons.inj explained).1

/-- Every access that has ended left behind and answered what it does from the
state that the accesses before it lead to. -/
theorem perform_of_committed
    (reachable : (OrderBookManager.monitor listeners).Reachable
      (Monitor.start manager interpreted program) config)
    {commit : Monitor.Commit Access Aftermath Answer θ}
    (committed : commit ∈ config.committed) :
    ∃ before after, config.labels = before ++ commit.label :: after ∧
      ((OrderBookManager.accessing.final manager before).perform commit.label).2 =
        (commit.collected, commit.value) := by
  obtain ⟨before, after, split, explained⟩ := reachable.explained committed
  rw [OrderBookManager.sequential_monitor] at explained
  exact ⟨before, after, split, (List.cons.inj explained).1⟩

/-- A copy that a thread has invoked a callback with was delivered by a feed step,
from the state that the accesses before it lead to. -/
theorem step_of_invoked
    (reachable : (OrderBookManager.monitor listeners).Reachable
      (Monitor.start manager interpreted program) config)
    {thread : θ}
    {callback : CallbackPtr}
    {book : OrderBook}
    (invoked : (thread, .invoke callback book) ∈ config.performed) :
    ∃ before fed after,
      config.labels = before ++ .operate (.feed fed) :: after ∧
      ∃ delivery ∈ ((OrderBookManager.accessing.final manager before).step fed).2,
        delivery.book = book := by
  obtain ⟨commit, committed, _, left⟩ := reachable.commit_of_performed invoked
  obtain ⟨before, after, split, performs⟩ := perform_of_committed reachable committed
  have delivered : ∃ delivery, Aftermath.deliver delivery ∈ commit.collected ∧
      delivery.book = book := by
    rcases List.mem_append.mp left with fires | drops
    · obtain ⟨item, emitted, made⟩ := List.mem_flatMap.mp fires
      cases item with
      | drop callback => cases made
      | deliver delivery =>
          obtain ⟨_, _, same⟩ := List.mem_map.mp made
          cases same
          exact ⟨delivery, emitted, rfl⟩
    · obtain ⟨item, _, made⟩ := List.mem_flatMap.mp drops
      cases item with
      | drop callback => cases List.mem_singleton.mp made
      | deliver delivery =>
          obtain ⟨_, _, different⟩ := List.mem_map.mp made
          cases different
  obtain ⟨delivery, emitted, same⟩ := delivered
  have collected : ((OrderBookManager.accessing.final manager before).perform
      commit.label).2.1 = commit.collected := congrArg Prod.fst performs
  rw [← collected] at emitted
  obtain ⟨fed, label, delivered⟩ := OrderBookManager.step_of_deliver emitted
  rw [label] at split
  exact ⟨before, fed, after, split, delivery, delivered, same⟩

/-- A copy of a book that reaches the user: a callback was invoked with it, or
`get_book` returned it. -/
inductive Seen
    (config : Monitor.Config OrderBookManager Access Aftermath Answer CallbackAction θ)
    (book : OrderBook) : Prop
  | invoked
      {thread : θ}
      {callback : CallbackPtr}
      (performed : (thread, .invoke callback book) ∈ config.performed)
  | returned
      {commit : Monitor.Commit Access Aftermath Answer θ}
      {prodId : List UInt8}
      (committed : commit ∈ config.committed)
      (asked : commit.label = .getBook prodId)
      (answered : commit.value = .book (some book))

/-- Every book that is seen is that of a state between two accesses, with the flag of
that state. -/
theorem Seen.stamped
    {book : OrderBook}
    (seen : Seen config book)
    (keyed : manager.Keyed)
    (reachable : (OrderBookManager.monitor listeners).Reachable
      (Monitor.start manager interpreted program) config)
    (noReset : ∀ accessed ∈ config.labels, ∀ fed ∈ accessed.steps, fed.isReset = false) :
    ∃ before after st, config.labels = before ++ after ∧
      (OrderBookManager.accessing.final manager before).productAt book.prodId.key =
        some st ∧
      book = st.book.stamp st.isStale := by
  cases seen with
  | invoked performed =>
      obtain ⟨before, fed, after, split, delivery, delivered, rfl⟩ :=
        step_of_invoked reachable performed
      have kept := noReset (.operate (.feed fed)) (by simp [split]) fed List.mem_cons_self
      obtain ⟨st, found, copy⟩ := OrderBookManager.delivered_copy
        (OrderBookManager.keyed_accessing keyed before) kept delivered
      refine ⟨before ++ [.operate (.feed fed)], after, st, ?_, ?_, copy⟩
      · rw [split, List.append_assoc]
        rfl
      · rw [Machine.final_concat]
        exact found
  | @returned commit prodId committed asked answered =>
      obtain ⟨before, after, split, performs⟩ := perform_of_committed reachable committed
      rw [asked] at performs
      have same : Answer.book
          ((OrderBookManager.accessing.final manager before).getBook prodId) =
            .book (some book) := (congrArg Prod.snd performs).trans answered
      injection same with returned
      obtain ⟨st, found, rfl⟩ := Option.map_eq_some_iff.mp returned
      refine ⟨before, _, st, split, ?_, rfl⟩
      have key := OrderBookManager.keyed_accessing keyed before _ st found
      rw [OrderBook.prodId_stamp, key]
      exact found

/-- When only truthful accesses are asked for, only truthful ones have ended. -/
theorem truthful_labels
    {history : ExchangeHistory}
    {key : ProdKey}
    (lawful : (OrderBookManager.monitor listeners).Lawful program
      fun _ request => request.Truthful history key)
    (reachable : (OrderBookManager.monitor listeners).Reachable
      (Monitor.start manager interpreted program) config) :
    ∀ accessed ∈ config.labels, accessed.Truthful history key := by
  intro accessed labelled
  obtain ⟨commit, committed, rfl⟩ := List.mem_map.mp labelled
  exact reachable.legal (fun _ accessed => accessed.Truthful history key) lawful commit
    committed

/-- When everything fed is truthful, the product quotes the history between any two
accesses. -/
theorem sound_of_truthful
    {history : ExchangeHistory}
    {key : ProdKey}
    (blank : manager.Blank)
    (lawful : (OrderBookManager.monitor listeners).Lawful program
      fun _ request => request.Truthful history key)
    (reachable : (OrderBookManager.monitor listeners).Reachable
      (Monitor.start manager interpreted program) config) :
    ∀ before after, config.labels = before ++ after → ∀ st,
      (OrderBookManager.accessing.final manager before).productAt key = some st →
      Sound history st := by
  intro before after split st found
  rw [(OrderBookManager.sameBooks_accessing manager before).productAt] at found
  refine Sound.productAt_final blank (fun step member => ?_) found
  obtain ⟨accessed, performed, isStep⟩ := List.mem_flatMap.mp member
  refine truthful_labels lawful reachable accessed ?_ step isStep
  rw [split]
  exact List.mem_append_left _ performed

/-- A fresh book that is seen carries the history's book after its serial. -/
theorem Seen.sound
    {history : ExchangeHistory}
    {key : ProdKey}
    {book : OrderBook}
    (seen : Seen config book)
    (blank : manager.Blank)
    (lawful : (OrderBookManager.monitor listeners).Lawful program
      fun _ request => request.Truthful history key)
    (reachable : (OrderBookManager.monitor listeners).Reachable
      (Monitor.start manager interpreted program) config)
    (addressed : book.prodId.key = key)
    (fresh : book.isStale = false) :
    book.ladder = (history.bookAfter book.lastProdMsgSeq.toNat).ladder ∧
      book.lastProdMsgSeq.toNat ≤ history.length := by
  have noReset : ∀ accessed ∈ config.labels, ∀ fed ∈ accessed.steps,
      fed.isReset = false := fun accessed labelled fed isStep =>
    (truthful_labels lawful reachable accessed labelled fed isStep).not_reset
  obtain ⟨before, after, st, split, found, copy⟩ :=
    seen.stamped blank.keyed reachable noReset
  rw [addressed] at found
  have held := sound_of_truthful blank lawful reachable before after split st found
  rw [copy, OrderBook.isStale_stamp] at fresh
  have synced := (st.isStale_eq_false_iff.mp fresh).1
  rw [copy]
  exact ⟨held.ladders (Or.inl synced), held.serial_le⟩

/-- The threads only ever see the truth.  Take one session, which starts from a blank
manager and resets nothing, and let every thread, and every callback that calls the
manager again, feed it what the exchange issued for a product, in any order and with
any losses.  However the instructions of the threads are mixed, the
product's state between accesses, and every book of the product that a callback is
invoked with or that `get_book` returns, carries, when its chain is unbroken or its
stale flag down, the exchange's book after its serial. -/
theorem threads_see_the_truth
    {history : ExchangeHistory}
    {key : ProdKey}
    (blank : manager.Blank)
    (lawful : (OrderBookManager.monitor listeners).Lawful program
      fun _ request => request.Truthful history key)
    (reachable : (OrderBookManager.monitor listeners).Reachable
      (Monitor.start manager interpreted program) config) :
    (config.mutex = none → ∀ st, config.shared.productAt key = some st →
      st.lastSerial ≤ history.length ∧
        (st.synced = true →
          st.book.ladder = (history.bookAfter st.lastSerial).ladder)) ∧
    (∀ book, Seen config book → book.prodId.key = key → book.isStale = false →
      book.ladder = (history.bookAfter book.lastProdMsgSeq.toNat).ladder) := by
  have sound := sound_of_truthful blank lawful reachable
  refine ⟨fun free st found => ?_, fun book seen addressed fresh => ?_⟩
  · rw [reachable.linearised.idle free, OrderBookManager.sequential_monitor] at found
    have held := sound config.labels [] (List.append_nil _).symm st found
    exact ⟨held.serial_le, fun synced => held.ladders (Or.inl synced)⟩
  · exact (seen.sound blank lawful reachable addressed fresh).1

end Threads

/-- The receive thread delivers a fresh copy with the first serial. -/
theorem TwoThreads.seen_first :
    ∃ book, Seen (after whole) book ∧ book.lastProdMsgSeq = 1 ∧
      book.prodId.key = Builders.kProd ∧ book.isStale = false := by
  have delivered : ((after whole).performed.any fun entry =>
      match entry with
      | (true, .invoke 7 book) => book.lastProdMsgSeq = 1 ∧
          book.prodId.key = Builders.kProd ∧ book.isStale = false
      | _ => false) = true := by decide +kernel
  obtain ⟨entry, member, facts⟩ := List.any_eq_true.mp delivered
  split at facts
  · next book =>
      exact ⟨book, .invoked member, of_decide_eq_true facts⟩
  · cases facts

/-- The first copy that the receive thread delivers carries the exchange's book,
although the Python thread and the callback ask in between. -/
theorem threads_see_the_truth_mixed :
    let history : ExchangeHistory :=
      [.i081 [Builders.makeEntry '0' '0' 10315 4 1], .i025, .i024]
    ∃ book, Seen (TwoThreads.after TwoThreads.whole) book ∧
      book.lastProdMsgSeq = 1 ∧ book.ladder = (history.bookAfter 1).ladder := by
  intro history
  obtain ⟨book, seen, serial, addressed, fresh⟩ := TwoThreads.seen_first
  have truthful := TwoThreads.lawful_of_accesses
    (show ∀ thread, ∀ request ∈ TwoThreads.program thread,
      ∀ accessed ∈ request.labels, accessed.Truthful history Builders.kProd by decide)
    (by decide)
  have told := (threads_see_the_truth ⟨rfl, rfl⟩ truthful
    (TwoThreads.reachable TwoThreads.whole)).2 book seen addressed fresh
  rw [serial] at told
  exact ⟨book, seen, serial, told⟩

/-! ## Serial order -/

/-- An access that does not reset keeps a serial covered. -/
theorem Covers.perform
    {manager : OrderBookManager}
    {accessed : Access}
    (noReset : ∀ fed ∈ accessed.steps, fed.isReset = false)
    {key : ProdKey}
    {serial : Nat}
    (covers : Covers (manager.productAt key) serial) :
    Covers ((manager.perform accessed).1.productAt key) serial := by
  cases accessed with
  | getBook prodId | productIds => exact covers
  | operate operation =>
      cases operation with
      | feed fed => exact covers.step (noReset fed List.mem_cons_self)
      | registerCallback prodId callback | registerCallbackAll callback
      | unregisterCallbacks prodId | unregisterAllCallbacks => exact covers

/-- A copy that an access leaves behind carries the last serial that its product has
right after the access. -/
theorem OrderBookManager.lastSerial_of_delivered
    {manager : OrderBookManager}
    (keyed : manager.Keyed)
    {accessed : Access}
    (noReset : ∀ fed ∈ accessed.steps, fed.isReset = false)
    {delivery : Delivery}
    (collected : delivery ∈
      (manager.perform accessed).2.1.filterMap Aftermath.delivery) :
    ∃ st, (manager.perform accessed).1.productAt delivery.book.prodId.key = some st ∧
      delivery.book.lastProdMsgSeq.toNat = st.lastSerial := by
  obtain ⟨item, left, isDelivery⟩ := List.mem_filterMap.mp collected
  cases item with
  | drop callback => cases isDelivery
  | deliver collected =>
      obtain rfl := Option.some.inj isDelivery
      obtain ⟨fed, rfl, delivered⟩ := step_of_deliver left
      obtain ⟨st, found, copy⟩ :=
        delivered_copy keyed (noReset fed List.mem_cons_self) delivered
      refine ⟨st, found, ?_⟩
      rw [copy]
      rfl

/-- Of two copies of one product, the first has no later serial than the second. -/
def InSerialOrder (first second : OrderBook) : Prop :=
  first.prodId.key = second.prodId.key → first.lastProdMsgSeq ≤ second.lastProdMsgSeq

/-- The deliveries among what accesses left behind, in order. -/
def deliveriesIn (outcomes : List (List Aftermath × Answer)) : List Delivery :=
  outcomes.flatMap fun outcome => outcome.1.filterMap Aftermath.delivery

/-- Run lemma: the deliveries of a run without resets are in the order of their
serials, none ahead of the state reached. -/
theorem OrderBookManager.serial_order_accessing
    {manager : OrderBookManager}
    (keyed : manager.Keyed)
    {accesses : List Access}
    (noReset : ∀ accessed ∈ accesses, ∀ fed ∈ accessed.steps, fed.isReset = false) :
    (deliveriesIn (accessing.output manager accesses)).Pairwise
        (fun first second => InSerialOrder first.book second.book) ∧
      ∀ delivery ∈ deliveriesIn (accessing.output manager accesses),
        Covers ((accessing.final manager accesses).productAt delivery.book.prodId.key)
          delivery.book.lastProdMsgSeq.toNat := by
  induction accesses using List.reverseRecOn with
  | nil => exact ⟨.nil, fun _ member => absurd member List.not_mem_nil⟩
  | append_singleton accesses last inductionHypothesis =>
      obtain ⟨earlier, lastKept⟩ := List.forall_mem_append.mp noReset
      rw [List.forall_mem_singleton] at lastKept
      obtain ⟨ordered, bounded⟩ := inductionHypothesis earlier
      have kept := keyed_accessing keyed accesses
      rw [Machine.output_concat, Machine.final_concat, deliveriesIn, List.flatMap_append,
        ← deliveriesIn]
      generalize accessing.final manager accesses = before at bounded kept ⊢
      simp only [accessing, List.flatMap_cons, List.flatMap_nil, List.append_nil]
      have bound : ∀ delivery ∈ (before.perform last).2.1.filterMap Aftermath.delivery,
          ∃ st, (before.perform last).1.productAt delivery.book.prodId.key = some st ∧
            delivery.book.lastProdMsgSeq.toNat = st.lastSerial :=
        fun delivery collected => lastSerial_of_delivered kept lastKept collected
      have carried : ∀ delivery ∈ deliveriesIn (accessing.output manager accesses),
          Covers ((before.perform last).1.productAt delivery.book.prodId.key)
            delivery.book.lastProdMsgSeq.toNat :=
        fun delivery member => (bounded delivery member).perform lastKept
      refine ⟨List.pairwise_append.mpr ⟨ordered, ?_, ?_⟩, ?_⟩
      · refine List.pairwise_of_forall_mem_list fun first isFirst second isSecond same => ?_
        obtain ⟨st, found, serial⟩ := bound first isFirst
        obtain ⟨other, foundOther, serialOther⟩ := bound second isSecond
        rw [same, foundOther] at found
        rw [UInt32.le_iff_toNat_le, serial, serialOther, Option.some.inj found]
      · intro first isFirst second isSecond same
        obtain ⟨st, found, serial⟩ := carried first isFirst
        obtain ⟨other, foundOther, serialOther⟩ := bound second isSecond
        rw [same, foundOther] at found
        rw [UInt32.le_iff_toNat_le, serialOther, Option.some.inj found]
        exact serial
      · intro delivery member
        rcases List.mem_append.mp member with early | late
        · exact carried delivery early
        · obtain ⟨st, found, serial⟩ := bound delivery late
          exact ⟨st, found, serial.le⟩

section Threads

variable
  {θ : Type}
  [DecidableEq θ]
  {listeners : Listeners θ}
  {interpreted : θ → Bool}
  {program : θ → List (Monitor.Request θ Access)}
  {manager : OrderBookManager}
  {config : Monitor.Config OrderBookManager Access Aftermath Answer CallbackAction θ}

/-- No callback is taken back in time by its thread.  While nothing resets the
manager, the copies of a product that the threads collect have serials that never
decrease, in the order in which the accesses end, whatever the threads mix and
whatever repeats or overtakes on the feeds.  A thread whose callbacks do not call
the manager invokes them in that order, so each of them sees the serials of a
product grow. -/
theorem callbacks_see_serials_grow
    (keyed : manager.Keyed)
    (lawful : (OrderBookManager.monitor listeners).Lawful program
      fun _ request => ∀ accessed ∈ request.labels, ∀ fed ∈ accessed.steps,
        fed.isReset = false)
    (reachable : (OrderBookManager.monitor listeners).Reachable
      (Monitor.start manager interpreted program) config) :
    (deliveriesIn config.outcomes).Pairwise
      (fun first second => InSerialOrder first.book second.book) ∧
    ∀ thread, (OrderBookManager.monitor listeners).Quiet thread →
      (invocationsOf config thread).Pairwise
        fun first second => InSerialOrder first.2 second.2 := by
  have noReset : ∀ accessed ∈ config.labels, ∀ fed ∈ accessed.steps,
      fed.isReset = false := by
    intro accessed labelled
    obtain ⟨commit, committed, rfl⟩ := List.mem_map.mp labelled
    exact reachable.legal (fun _ accessed => ∀ fed ∈ accessed.steps, fed.isReset = false)
      lawful commit committed
  have outcomes := reachable.linearised.outcomes
  rw [OrderBookManager.sequential_monitor] at outcomes
  have ordered := (OrderBookManager.serial_order_accessing keyed noReset).1
  rw [outcomes] at ordered
  refine ⟨ordered, fun thread quiet => ?_⟩
  rw [deliveriesIn, Monitor.Config.outcomes, List.flatMap_map] at ordered
  have ofThread : (deliveriesOf config thread).Pairwise
      (fun first second => InSerialOrder first.book second.book) :=
    ordered.sublist (List.filter_sublist.flatMap _)
  have fired : (OrderBookManager.fire (deliveriesOf config thread)).Pairwise
      (fun first second => InSerialOrder first.2 second.2) := by
    rw [OrderBookManager.fire, List.pairwise_flatMap]
    refine ⟨fun delivery _ => ?_, ofThread.imp fun inOrder => ?_⟩
    · refine List.pairwise_of_forall_mem_list fun first isFirst second isSecond _ => ?_
      obtain ⟨_, _, rfl⟩ := List.mem_map.mp isFirst
      obtain ⟨_, _, rfl⟩ := List.mem_map.mp isSecond
      exact UInt32.le_refl _
    · intro first isFirst second isSecond
      obtain ⟨_, _, rfl⟩ := List.mem_map.mp isFirst
      obtain ⟨_, _, rfl⟩ := List.mem_map.mp isSecond
      exact inOrder
  rw [← filterMap_actionsOf listeners, ← reachable.performed_in_order quiet,
    List.filterMap_append] at fired
  exact fired.sublist (List.sublist_append_left _ _)

end Threads

namespace TwoThreads

/-- Callbacks that never call the manager. -/
def silent : Listeners Bool where
  interpreted := fun callback => callback = 7
  reactions := fun _ _ => {[]}

/-- The state a schedule leads to when the callbacks never call the manager. -/
def undisturbed (schedule : List Bool) :
    Monitor.Config OrderBookManager Access Aftermath Answer CallbackAction Bool :=
  Monitor.play (OrderBookManager.monitor silent) (fun _ _ => [])
    (Monitor.start (OrderBookManager.registerCallbackAll {} 7) (fun thread => !thread)
      program)
    schedule

theorem reachable_undisturbed (schedule : List Bool) :
    (OrderBookManager.monitor silent).Reachable
      (Monitor.start (OrderBookManager.registerCallbackAll {} 7) (fun thread => !thread)
        program)
      (undisturbed schedule) :=
  Monitor.reachable_play (fun _ _ => rfl) _ _

end TwoThreads

/-- The callback sees the serials one and three. -/
theorem callbacks_see_serials_grow_undisturbed :
    (invocationsOf (TwoThreads.undisturbed TwoThreads.whole) true).map
        (fun invocation => invocation.2.lastProdMsgSeq) = [1, 3] ∧
      (invocationsOf (TwoThreads.undisturbed TwoThreads.whole) true).Pairwise
        fun first second => InSerialOrder first.2 second.2 := by
  refine ⟨by decide +kernel, ?_⟩
  refine (callbacks_see_serials_grow (OrderBookManager.Blank.keyed ⟨rfl, rfl⟩)
    ⟨by decide, ?_⟩ (TwoThreads.reachable_undisturbed TwoThreads.whole)).2 true ?_
  · intro thread action requests reacts request member
    obtain rfl : requests = [] := reacts
    cases member
  · intro action requests reacts
    obtain rfl : requests = [] := reacts
    rfl

end TaifexResolver
