import TaifexResolver.Exchange.History
import TaifexResolver.Exchange.UnboundedSide

/-!
# The exchange's whole book

For each product the exchange keeps four sides of any number of price levels.  What
happens to them is announced as increment entries about the first five levels, now
and then a snapshot lists these, and trades pass by.  The history that the exchange
issues in this way carries, after each of its messages, the first five levels of the
four sides.
-/

namespace TaifexResolver

/-- Every price level of every side. -/
abbrev FullBook := Side → BookSide

namespace FullBook

/-- The book of a product that has no price levels. -/
def empty : FullBook := fun _ => []

/-- The book after one operation on one side. -/
def applyTo (book : FullBook) (change : Side × SideOperation) : FullBook :=
  Function.update book change.1 (change.2.applyTo (book change.1))

/-- Changes that are legal one after the other. -/
def LegalRun (book : FullBook) : List (Side × SideOperation) → Prop
  | [] => True
  | change :: rest =>
      change.2.Legal (book change.1) ∧ LegalRun (book.applyTo change) rest

instance decidableLegalRun (book : FullBook) :
    (changes : List (Side × SideOperation)) → Decidable (book.LegalRun changes)
  | [] => inferInstanceAs (Decidable True)
  | change :: rest =>
      have := decidableLegalRun (book.applyTo change) rest
      inferInstanceAs (Decidable (_ ∧ _))

/-- The entries that announce some changes, in order. -/
def announcements (book : FullBook) : List (Side × SideOperation) → List MDEntry
  | [] => []
  | change :: rest =>
      change.2.announce change.1 (book change.1) ++
        announcements (book.applyTo change) rest

/-- The levels that are disclosed. -/
def ladders (book : FullBook) : Ladders := fun side =>
  ⟨(book side).disclosed.toArray, by simp [BookSide.disclosed]⟩

@[simp] theorem toList_ladders (book : FullBook) (side : Side) :
    (book.ladders side).toList = (book side).disclosed := rfl

theorem ladders_empty : empty.ladders = Ladders.empty := by
  funext side
  rfl

/-- The disclosed levels hold no ghost. -/
theorem canonical_ladders (book : FullBook) : book.ladders.Canonical := by
  intro side level member invalid
  rw [← Vector.mem_toList_iff, toList_ladders] at member
  rcases mem_takeD member with shown | filler
  · obtain ⟨item, _, rfl⟩ := List.mem_map.mp shown
    cases invalid
  · exact filler

/-- Step lemma: the announcement of a change edits the disclosed levels as the change
edits the book. -/
theorem ladders_applyTo
    {book : FullBook}
    {change : Side × SideOperation}
    (legal : change.2.Legal (book change.1)) :
    (change.2.announce change.1 (book change.1)).foldl Ladders.applyEntry book.ladders =
      (book.applyTo change).ladders := by
  funext side
  apply Vector.toList_inj.mp
  rw [Ladders.toList_foldl_applyEntry, toList_ladders, toList_ladders, applyTo]
  by_cases same : side = change.1
  · subst same
    rw [Function.update_self, BookSide.disclosed_applyTo _ legal]
  · have untouched := List.filterMap_eq_nil_iff.mpr
      (SideOperation.editOn_announce (Ne.symm same) (book change.1) change.2)
    rw [Function.update_of_ne same, untouched]
    rfl

/-- Run lemma: the announcements of legal changes keep the disclosed levels up to
date. -/
theorem ladders_after
    {book : FullBook}
    {changes : List (Side × SideOperation)}
    (legal : book.LegalRun changes) :
    (book.announcements changes).foldl Ladders.applyEntry book.ladders =
      (changes.foldl applyTo book).ladders := by
  induction changes generalizing book with
  | nil => rfl
  | cons change rest inductionHypothesis =>
      obtain ⟨now, later⟩ := legal
      rw [announcements, List.foldl_append, ladders_applyTo now]
      exact inductionHypothesis later

end FullBook

/-- What happens to a product at the exchange and consumes a serial: a trade, a new
day high or low, changes of the book, a trial calculation, or a snapshot. -/
inductive MarketEvent
  | trade
  | dayHighLow
  | changes (made : List (Side × SideOperation))
  | trial
  | snapshot (entries : List SnapshotEntry)

namespace MarketEvent

/-- The book after an event. -/
def applyTo (book : FullBook) : MarketEvent → FullBook
  | .changes made => made.foldl FullBook.applyTo book
  | _ => book

/-- Changes are legal, and a snapshot lists the levels that are disclosed, in any
order. -/
def Legal (book : FullBook) : MarketEvent → Prop
  | .changes made => book.LegalRun made
  | .snapshot entries => book.ladders.ListedBy entries
  | _ => True

instance (book : FullBook) (event : MarketEvent) : Decidable (event.Legal book) := by
  cases event <;> unfold Legal <;> infer_instance

/-- The message that the exchange issues for an event. -/
def message (book : FullBook) : MarketEvent → ExchangeMessage
  | .trade => .i024
  | .dayHighLow => .i025
  | .changes made => .i081 (book.announcements made)
  | .trial => .trialI083
  | .snapshot entries => .normalI083 entries

/-- Step lemma: a message takes the disclosed levels of the book before its event to
those of the book after it. -/
theorem ladder_message
    {book : FullBook}
    {event : MarketEvent}
    (legal : event.Legal book)
    {shown : OrderBook}
    (shows : shown.ladder = book.ladders) :
    ((event.message book).applyTo shown).ladder = (event.applyTo book).ladders := by
  cases event with
  | trade | dayHighLow | trial => exact shows
  | changes made =>
      rw [message, ExchangeMessage.applyTo, OrderBook.ladder_foldl_applyEntry, shows]
      exact FullBook.ladders_after legal
  | snapshot entries =>
      rw [message, ExchangeMessage.applyTo, OrderBook.ladder_foldl_placeEntry,
        OrderBook.ladder_clearLadders]
      exact Ladders.foldl_placeEntry_of_listedBy book.canonical_ladders legal

end MarketEvent

namespace FullBook

/-- The book after some events. -/
def after (book : FullBook) (events : List MarketEvent) : FullBook :=
  events.foldl MarketEvent.applyTo book

/-- Events that are legal one after the other. -/
def LegalDay (book : FullBook) : List MarketEvent → Prop
  | [] => True
  | event :: rest => event.Legal book ∧ LegalDay (event.applyTo book) rest

instance decidableLegalDay (book : FullBook) :
    (events : List MarketEvent) → Decidable (book.LegalDay events)
  | [] => inferInstanceAs (Decidable True)
  | event :: rest =>
      have := decidableLegalDay (event.applyTo book) rest
      inferInstanceAs (Decidable (_ ∧ _))

/-- The history that the exchange issues for some events. -/
def history (book : FullBook) : List MarketEvent → ExchangeHistory
  | [] => []
  | event :: rest => event.message book :: history (event.applyTo book) rest

@[simp] theorem length_history (book : FullBook) (events : List MarketEvent) :
    (book.history events).length = events.length := by
  induction events generalizing book with
  | nil => rfl
  | cons event rest inductionHypothesis =>
      rw [history, List.length_cons, List.length_cons, inductionHypothesis]

theorem take_history (book : FullBook) (events : List MarketEvent) (count : Nat) :
    (book.history events).take count = book.history (events.take count) := by
  induction events generalizing book count with
  | nil => rw [history, List.take_nil, List.take_nil, history]
  | cons event rest inductionHypothesis =>
      cases count with
      | zero => rfl
      | succ count =>
          rw [history, List.take_succ_cons, List.take_succ_cons, history,
            inductionHypothesis]

theorem LegalDay.take
    {book : FullBook}
    {events : List MarketEvent}
    (legal : book.LegalDay events)
    (count : Nat) :
    book.LegalDay (events.take count) := by
  induction events generalizing book count with
  | nil => rw [List.take_nil]; trivial
  | cons event rest inductionHypothesis =>
      cases count with
      | zero => trivial
      | succ count => exact ⟨legal.1, inductionHypothesis legal.2 count⟩

/-- Run lemma: a history takes the disclosed levels along with the book. -/
theorem ladder_history
    {book : FullBook}
    {events : List MarketEvent}
    (legal : book.LegalDay events)
    {shown : OrderBook}
    (shows : shown.ladder = book.ladders) :
    ((book.history events).foldl ExchangeMessage.applyTo shown).ladder =
      (book.after events).ladders := by
  induction events generalizing book shown with
  | nil => exact shows
  | cons event rest inductionHypothesis =>
      exact inductionHypothesis legal.2 (MarketEvent.ladder_message legal.1 shows)

/-- After every message, the history carries the first five levels of the whole
book. -/
theorem ladder_bookAfter_history
    {events : List MarketEvent}
    (legal : empty.LegalDay events)
    (serial : Nat) :
    ((empty.history events).bookAfter serial).ladder =
      (empty.after (events.take serial)).ladders := by
  rw [ExchangeHistory.bookAfter, take_history]
  apply ladder_history (legal.take serial)
  rw [ladders_empty]
  funext side
  cases side <;> rfl

end FullBook
end TaifexResolver
