import TaifexResolver.Concurrency.Visibility
import TaifexResolver.Exchange.FullBook

/-!
# What users see of the exchange's whole book

The exchange's price levels are unbounded, its messages speak of the first five of
each side, the network loses and reorders them, and threads mix what they do with
them.  What a user sees unflagged is still the first five levels.
-/

namespace TaifexResolver

section Threads

variable
  {θ : Type}
  [DecidableEq θ]
  {listeners : Listeners θ}
  {interpreted : θ → Bool}
  {program : θ → List (Monitor.Request θ Access)}
  {manager : OrderBookManager}
  {config : Monitor.Config OrderBookManager Access Aftermath Answer CallbackAction θ}

/-- An unflagged book shows the first five levels.  Let a product go through any legal
events at the exchange, on books with any number of levels, and let the threads feed
a manager that starts blank, and is not reset, only what the exchange issues for them,
in any order and with any losses.  However the threads are mixed, a book of the product that a callback is invoked with or
that `get_book` returns, and that is not stale, shows on each side the first five levels
of the exchange's whole book as it was after the event with the book's serial, and
empty levels after the end of the side. -/
theorem threads_see_the_first_five_levels
    {events : List MarketEvent}
    {key : ProdKey}
    (legal : FullBook.empty.LegalDay events)
    (blank : manager.Blank)
    (lawful : (OrderBookManager.monitor listeners).Lawful program
      fun _ request => request.Truthful (FullBook.empty.history events) key)
    (reachable : (OrderBookManager.monitor listeners).Reachable
      (Monitor.start manager interpreted program) config)
    {book : OrderBook}
    (seen : Seen config book)
    (addressed : book.prodId.key = key)
    (fresh : book.isStale = false) :
    book.lastProdMsgSeq.toNat ≤ events.length ∧
      ∀ side, (book.ladder side).toList =
        (FullBook.empty.after (events.take book.lastProdMsgSeq.toNat) side).disclosed := by
  obtain ⟨ladders, issued⟩ := seen.sound blank lawful reachable addressed fresh
  rw [FullBook.length_history] at issued
  refine ⟨issued, fun side => ?_⟩
  rw [ladders, FullBook.ladder_bookAfter_history legal, FullBook.toList_ladders]

end Threads

/-- A callback is shown the one bid there is, from a run in which another thread asks
and the callback asks again. -/
theorem threads_see_the_first_five_levels_mixed :
    let bid : PriceLevel := { sign := '0'.toUInt8, price := 10315, quantity := 4 }
    ∃ book, Seen (TwoThreads.after TwoThreads.whole) book ∧ book.isStale = false ∧
      (book.ladder .bids).toList = BookSide.disclosed [bid] := by
  intro bid
  let events : List MarketEvent :=
    [.changes [(.bids, .insert 0 bid)], .dayHighLow, .trade]
  obtain ⟨book, seen, serial, addressed, fresh⟩ := TwoThreads.seen_first
  have truthful := TwoThreads.lawful_of_accesses
    (show ∀ thread, ∀ request ∈ TwoThreads.program thread, ∀ accessed ∈ request.labels,
      accessed.Truthful (FullBook.empty.history events) Builders.kProd by decide)
    (by decide)
  have told := (threads_see_the_first_five_levels (show FullBook.empty.LegalDay events
    by decide) ⟨rfl, rfl⟩ truthful (TwoThreads.reachable TwoThreads.whole) seen addressed
    fresh).2 .bids
  rw [serial] at told
  exact ⟨book, seen, fresh, told⟩

end TaifexResolver
