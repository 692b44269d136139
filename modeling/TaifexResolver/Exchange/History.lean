import TaifexResolver.OrderBook.Tracking

/-!
# Exchange histories

What the exchange issues for one product: a list of messages, the `k`-th of
which carries serial `k`, and the book after each of them.  A step of the
manager is truthful for a history when whatever it says about the product is
what the exchange issued.  This is the abstract side of the refinement: the
manager never sees the history, only messages that quote it.
-/

namespace TaifexResolver

/-- A message the exchange issues for one product. -/
inductive ExchangeMessage
  | i024
  | i025
  | i081 (entries : List MDEntry)
  | trialI083
  | normalI083 (entries : List SnapshotEntry)
  deriving DecidableEq

/-- The messages of one product, serials `1` to the length of the list. -/
abbrev ExchangeHistory := List ExchangeMessage

/-- The exchange's book after a message. -/
def ExchangeMessage.applyTo (book : OrderBook) : ExchangeMessage → OrderBook
  | .i024 => book
  | .i025 => book
  | .i081 entries => entries.foldl OrderBook.applyEntry book
  | .trialI083 => book
  | .normalI083 entries =>
      entries.foldl OrderBook.placeEntry book.clearLadders

namespace ExchangeHistory

/-- The exchange's book after the first `k` messages. -/
def bookAfter (history : ExchangeHistory) (k : Nat) : OrderBook :=
  (history.take k).foldl ExchangeMessage.applyTo {}

/-- The message with a given serial. -/
def messageAt (history : ExchangeHistory) (serial : UInt32) : Option ExchangeMessage :=
  if serial = 0 then none else history[serial.toNat - 1]?

@[simp] theorem ladder_bookAfter_zero (history : ExchangeHistory) :
    (history.bookAfter 0).ladder = Ladders.empty := by
  funext side
  cases side <;> rfl

/-- A message that the history holds has a positive serial within the history,
and takes the book before it to the book after it. -/
theorem bookAfter_of_messageAt
    {history : ExchangeHistory}
    {serial : UInt32}
    {message : ExchangeMessage}
    (issued : history.messageAt serial = some message) :
    0 < serial.toNat ∧ serial.toNat ≤ history.length ∧
      history.bookAfter serial.toNat =
        message.applyTo (history.bookAfter (serial.toNat - 1)) := by
  unfold messageAt at issued
  split at issued
  · cases issued
  · next nonzero =>
      have positive : 0 < serial.toNat := by
        apply Nat.pos_of_ne_zero
        intro zero
        apply nonzero
        rw [← UInt32.toNat_inj, UInt32.toNat_zero]
        exact zero
      obtain ⟨inRange, entry⟩ := List.getElem?_eq_some_iff.mp issued
      refine ⟨positive, by omega, ?_⟩
      have prefixSplit : history.take serial.toNat =
          history.take (serial.toNat - 1) ++ [message] := by
        rw [← entry, List.take_append_getElem inRange]
        congr 1
        omega
      rw [bookAfter, prefixSplit, List.foldl_append]
      rfl

/-- No book of the exchange holds a ghost level. -/
theorem canonical_bookAfter (history : ExchangeHistory) (k : Nat) :
    Ladders.Canonical (history.bookAfter k).ladder := by
  unfold bookAfter
  generalize history.take k = messages
  induction messages using List.reverseRecOn with
  | nil =>
      intro side
      cases side <;> exact Ladder.canonical_empty
  | append_singleton messages message inductionHypothesis =>
      rw [List.foldl_append, List.foldl_cons, List.foldl_nil]
      cases message with
      | i024 | i025 | trialI083 => exact inductionHypothesis
      | i081 entries =>
          rw [ExchangeMessage.applyTo, OrderBook.ladder_foldl_applyEntry]
          exact inductionHypothesis.foldl_applyEntry entries
      | normalI083 entries =>
          rw [ExchangeMessage.applyTo, OrderBook.ladder_foldl_placeEntry,
            OrderBook.ladder_clearLadders]
          exact Ladders.canonical_empty.foldl_placeEntry entries

end ExchangeHistory

/-- A block for the product quotes a serial of the history and lists exactly the
valid levels of the book after it. -/
def I084Product.Truthful (history : ExchangeHistory) (prod : I084Product) : Prop :=
  prod.lastProdMsgSeq.toNat ≤ history.length ∧
    Ladders.ListedBy (history.bookAfter prod.lastProdMsgSeq.toNat).ladder
      prod.entries

instance (history : ExchangeHistory) (prod : I084Product) :
    Decidable (prod.Truthful history) :=
  inferInstanceAs (Decidable (_ ∧ _))

/-- What the exchange issued when it sent an I083. -/
def I083Packet.issued (pkt : I083Packet) : ExchangeMessage :=
  if pkt.calculatedFlag = '1'.toUInt8 then .trialI083 else .normalI083 pkt.entries

namespace Step

/-- A step that is not a reset and, where it is addressed to the product, quotes
the product's history. -/
def Truthful (history : ExchangeHistory) (key : ProdKey) : Step → Prop
  | .header received => received.messageKind ≠ '2'.toUInt8
  | .i024 pkt =>
      pkt.prodId.key = key → history.messageAt pkt.prodMsgSeq = some .i024
  | .i025 pkt =>
      pkt.prodId.key = key → history.messageAt pkt.prodMsgSeq = some .i025
  | .i081 pkt =>
      pkt.prodId.key = key →
        history.messageAt pkt.prodMsgSeq = some (.i081 pkt.entries)
  | .i083 pkt =>
      pkt.prodId.key = key → history.messageAt pkt.prodMsgSeq = some pkt.issued
  | .i084Product _ prod => prod.prodId.key = key → prod.Truthful history
  | .reset => False

instance (history : ExchangeHistory) (key : ProdKey) (step : Step) :
    Decidable (step.Truthful history key) := by
  cases step <;> unfold Truthful <;> infer_instance

theorem Truthful.not_reset
    {history : ExchangeHistory}
    {key : ProdKey}
    {step : Step}
    (truthful : step.Truthful history key) :
    step.isReset = false := by
  cases step with
  | header received => exact decide_eq_false truthful
  | reset => exact truthful.elim
  | i024 pkt | i025 pkt | i081 pkt | i083 pkt | i084Product received prod => rfl

end Step

/-- A message that agrees with a history: its serial lies in it, and it takes
the ladders before its serial to those after it. -/
structure ProductMessage.Quotes
    (history : ExchangeHistory)
    (message : ProductMessage) : Prop where
  serial_le : message.serial.toNat ≤ history.length
  positive : message.isSnapshot = false → 0 < message.serial.toNat
  ladders : (history.bookAfter message.serial.toNat).ladder =
    message.laddersAfter (history.bookAfter (message.serial.toNat - 1)).ladder

/-- An issued message that leaves the book alone is quoted by its serial. -/
private theorem quotes_track
    {history : ExchangeHistory}
    {seq : UInt32}
    {issued : ExchangeMessage}
    (held : history.messageAt seq = some issued)
    (unchanged : ∀ book, issued.applyTo book = book) :
    (ProductMessage.track seq).Quotes history := by
  obtain ⟨positive, inHistory, step⟩ := ExchangeHistory.bookAfter_of_messageAt held
  refine ⟨inHistory, fun _ => positive, ?_⟩
  rw [ProductMessage.serial, step, unchanged]
  rfl

/-- A snapshot whose entries, placed on empty ladders, are the history's book at
its serial. -/
private theorem quotes_snapshot
    {history : ExchangeHistory}
    {seq : UInt32}
    {entries : List SnapshotEntry}
    (infoTime : TimeText)
    (inHistory : seq.toNat ≤ history.length)
    (placed : (history.bookAfter seq.toNat).ladder =
      entries.foldl Ladders.placeEntry Ladders.empty) :
    (ProductMessage.snapshot seq entries infoTime).Quotes history :=
  ⟨inHistory, fun notSnapshot => Bool.noConfusion notSnapshot, placed⟩

/-- What a truthful step says about the product agrees with the history. -/
theorem Step.Truthful.quotes
    {history : ExchangeHistory}
    {step : Step}
    {prodId : ProdIdText}
    {message : ProductMessage}
    (truthful : step.Truthful history prodId.key)
    (carries : step.message = some (prodId, message)) :
    message.Quotes history := by
  cases step with
  | header received => cases carries
  | reset => cases carries
  | i024 pkt =>
      cases carries
      exact quotes_track (truthful rfl) fun _ => rfl
  | i025 pkt =>
      cases carries
      exact quotes_track (truthful rfl) fun _ => rfl
  | i081 pkt =>
      cases carries
      obtain ⟨positive, inHistory, applied⟩ :=
        ExchangeHistory.bookAfter_of_messageAt (truthful rfl)
      refine ⟨inHistory, fun _ => positive, ?_⟩
      rw [ProductMessage.serial, applied]
      exact OrderBook.ladder_foldl_applyEntry _ _
  | i083 pkt =>
      by_cases trial : pkt.calculatedFlag = '1'.toUInt8
      · simp only [Step.message, if_pos trial] at carries
        cases carries
        have held : history.messageAt pkt.prodMsgSeq = some .trialI083 := by
          rw [truthful rfl, I083Packet.issued, if_pos trial]
        exact quotes_track held fun _ => rfl
      · simp only [Step.message, if_neg trial] at carries
        cases carries
        have held : history.messageAt pkt.prodMsgSeq =
            some (.normalI083 pkt.entries) := by
          rw [truthful rfl, I083Packet.issued, if_neg trial]
        obtain ⟨_, inHistory, applied⟩ :=
          ExchangeHistory.bookAfter_of_messageAt held
        apply quotes_snapshot _ inHistory
        rw [applied, ExchangeMessage.applyTo, OrderBook.ladder_foldl_placeEntry,
          OrderBook.ladder_clearLadders]
  | i084Product packetHeader prod =>
      cases carries
      obtain ⟨inHistory, listed⟩ := truthful rfl
      exact quotes_snapshot _ inHistory
        (Ladders.foldl_placeEntry_of_listedBy
          (history.canonical_bookAfter _) listed).symm

end TaifexResolver
