import TaifexResolver.Exchange.Provenance
import TaifexResolver.Staleness.RunHistory

/-!
# What a book holds

Fresh or stale, a book is what its latest snapshot and the increments taken since then
make of it, applied best-effort whatever is missing between them.  Which messages were
taken is read off the serials in the history alone.
-/

namespace TaifexResolver

/-! ## The messages that are taken -/

/-- The messages addressed to a product in a run, with the raw ids they carry. -/
def messagesOf (key : ProdKey) (steps : List Step) :
    List (ProdIdText × ProductMessage) :=
  steps.filterMap fun step => step.message.filter fun carried => carried.1.key = key

/-- The serials of some messages. -/
def serialsOf (messages : List (ProdIdText × ProductMessage)) : List Nat :=
  messages.map fun carried => carried.2.serial.toNat

/-- A message is taken after some earlier ones when its serial exceeds all of theirs,
or is at least all of theirs for a snapshot, or when theirs are all zero. -/
def ProductMessage.TakenAfter
    (earlier : List (ProdIdText × ProductMessage))
    (message : ProductMessage) : Prop :=
  (∀ serial ∈ serialsOf earlier, serial = 0) ∨
    ∀ serial ∈ serialsOf earlier,
      if message.isSnapshot then serial ≤ message.serial.toNat
      else serial < message.serial.toNat

instance (earlier : List (ProdIdText × ProductMessage)) (message : ProductMessage) :
    Decidable (message.TakenAfter earlier) :=
  inferInstanceAs (Decidable (_ ∨ _))

/-- The ones among some messages that are taken, given the earlier ones. -/
def takenFrom (earlier : List (ProdIdText × ProductMessage)) :
    List (ProdIdText × ProductMessage) → List (ProdIdText × ProductMessage)
  | [] => []
  | carried :: rest =>
      if carried.2.TakenAfter earlier then
        carried :: takenFrom (earlier ++ [carried]) rest
      else takenFrom (earlier ++ [carried]) rest

/-- The messages of a product that a run takes, in order. -/
def takenMessages (key : ProdKey) (steps : List Step) :
    List (ProdIdText × ProductMessage) :=
  takenFrom [] (messagesOf key steps)

theorem takenFrom_concat
    (earlier messages : List (ProdIdText × ProductMessage))
    (last : ProdIdText × ProductMessage) :
    takenFrom earlier (messages ++ [last]) =
      takenFrom earlier messages ++
        if last.2.TakenAfter (earlier ++ messages) then [last] else [] := by
  induction messages generalizing earlier with
  | nil => simp [takenFrom]
  | cons carried rest inductionHypothesis =>
      simp only [List.cons_append, takenFrom, inductionHypothesis, List.append_assoc,
        List.nil_append]
      split <;> simp

/-- Messages are taken exactly when they are accepted by a product whose last serial is
the highest one so far. -/
theorem ProductMessage.takenAfter_iff
    {earlier : List (ProdIdText × ProductMessage)}
    {message : ProductMessage}
    {st : ProductState}
    (lastSerial : st.lastSerial = highest (serialsOf earlier)) :
    message.TakenAfter earlier ↔ message.Accepted st := by
  have allZero : (∀ serial ∈ serialsOf earlier, serial = 0) ↔ st.lastSerial = 0 := by
    rw [lastSerial, ← Nat.le_zero, highest_le_iff]
    simp only [Nat.le_zero]
  rw [TakenAfter, Accepted, allZero, lastSerial]
  by_cases zero : highest (serialsOf earlier) = 0
  · simp [zero]
  · have nonempty : serialsOf earlier ≠ [] := by
      intro empty
      exact zero (by rw [empty, highest_nil])
    split
    · rw [highest_le_iff]
    · rw [highest_lt_iff nonempty]

/-! ## What the taken messages amount to -/

/-- Some taken messages rest on a book: the empty book of the first message, or the
latest snapshot, which the others follow. -/
inductive RestsOn
    (taken : List (ProdIdText × ProductMessage)) :
    OrderBook → List (ProdIdText × ProductMessage) → Prop
  | first
      {prodId : ProdIdText}
      {message : ProductMessage}
      {rest : List (ProdIdText × ProductMessage)} :
      taken = (prodId, message) :: rest →
      (∀ carried ∈ taken, carried.2.isSnapshot = false) →
      RestsOn taken { prodId := copyProdId prodId } taken
  | snapshot
      {before after : List (ProdIdText × ProductMessage)}
      {prodId : ProdIdText}
      {seq : UInt32}
      {entries : List SnapshotEntry}
      {infoTime : TimeText} :
      taken = before ++ (prodId, .snapshot seq entries infoTime) :: after →
      (∀ carried ∈ after, carried.2.isSnapshot = false) →
      RestsOn taken
        (OrderBook.withLadders
          { prodId := copyProdId prodId, hasSnapshot := true, infoTime := infoTime }
          (entries.foldl Ladders.placeEntry Ladders.empty))
        after

/-- A book carries what increments make of the book they rest on: their batches applied
in order, and the time of the latest of them. -/
structure OrderBook.Carries
    (book base : OrderBook)
    (increments : List (ProdIdText × ProductMessage)) : Prop where
  ladders : book.ladder =
    (increments.flatMap fun carried => carried.2.batch).foldl Ladders.applyEntry base.ladder
  infoTime : book.infoTime =
    increments.foldl (fun time carried => carried.2.infoTimeAfter time) base.infoTime
  prodId : book.prodId = base.prodId
  hasSnapshot : book.hasSnapshot = base.hasSnapshot

/-- The state of a product that accounts for the messages of a run. -/
structure Accounts
    (messages taken : List (ProdIdText × ProductMessage))
    (st : ProductState) : Prop where
  lastSerial : st.lastSerial = highest (serialsOf messages)
  contents : ∃ base increments, RestsOn taken base increments ∧
    st.book.Carries base increments

namespace ProductMessage

/-- Only a snapshot replaces the raw id. -/
theorem prodId_body
    {message : ProductMessage}
    (notSnapshot : message.isSnapshot = false)
    (prodId : ProdIdText)
    (st : ProductState) :
    (message.body prodId st).1.book.prodId = st.book.prodId := by
  cases message with
  | track seq => exact st.prodId_trackOnly seq
  | increment seq entries infoTime => exact st.prodId_applyIncrement seq entries infoTime
  | snapshot seq entries infoTime => cases notSnapshot

theorem laddersAfter_eq_batch
    {message : ProductMessage}
    (notSnapshot : message.isSnapshot = false)
    (ladders : Ladders) :
    message.laddersAfter ladders = message.batch.foldl Ladders.applyEntry ladders := by
  cases message with
  | track seq | increment seq entries infoTime => rfl
  | snapshot seq entries infoTime => cases notSnapshot

end ProductMessage

/-- A message other than a snapshot continues what a book carries. -/
theorem OrderBook.Carries.body
    {message : ProductMessage}
    {prodId : ProdIdText}
    {st : ProductState}
    {base : OrderBook}
    {increments : List (ProdIdText × ProductMessage)}
    (carries : st.book.Carries base increments)
    (accepted : message.Accepted st)
    (notSnapshot : message.isSnapshot = false) :
    (message.body prodId st).1.book.Carries base (increments ++ [(prodId, message)]) := by
  obtain ⟨_, _, _, ladders, hasSnapshot, infoTime, _⟩ :=
    ProductMessage.body_accepted prodId accepted
  refine ⟨?_, ?_, ?_, ?_⟩
  · rw [ladders, message.laddersAfter_eq_batch notSnapshot, carries.ladders,
      List.flatMap_append, List.foldl_append, List.flatMap_singleton]
  · rw [infoTime, carries.infoTime, List.foldl_append]
    rfl
  · rw [message.prodId_body notSnapshot, carries.prodId]
  · rw [hasSnapshot, notSnapshot, Bool.or_false, carries.hasSnapshot]

/-- A snapshot is a book to rest on. -/
theorem OrderBook.carries_snapshot
    {prodId : ProdIdText}
    {seq : UInt32}
    {entries : List SnapshotEntry}
    {infoTime : TimeText}
    {st : ProductState}
    (accepted : (ProductMessage.snapshot seq entries infoTime).Accepted st) :
    ((ProductMessage.snapshot seq entries infoTime).body prodId st).1.book.Carries
      (OrderBook.withLadders
        { prodId := copyProdId prodId, hasSnapshot := true, infoTime := infoTime }
        (entries.foldl Ladders.placeEntry Ladders.empty)) [] := by
  rw [ProductMessage.body,
    ProductMessage.offerSnapshot_accepted prodId entries infoTime accepted,
    ProductState.adoptSnapshotLocked_eq]
  exact ⟨rfl, rfl, rfl, rfl⟩

namespace RestsOn

variable {taken increments : List (ProdIdText × ProductMessage)} {base : OrderBook}
  {prodId : ProdIdText} {message : ProductMessage}

/-- One more increment follows. -/
theorem concat
    (rests : RestsOn taken base increments)
    (notSnapshot : message.isSnapshot = false) :
    RestsOn (taken ++ [(prodId, message)]) base (increments ++ [(prodId, message)]) := by
  cases rests with
  | first shape increment =>
      refine .first (by rw [shape]; rfl) ?_
      exact List.forall_mem_append.mpr ⟨increment, List.forall_mem_singleton.mpr notSnapshot⟩
  | snapshot shape increment =>
      refine .snapshot (by rw [shape, List.append_assoc]; rfl) ?_
      exact List.forall_mem_append.mpr ⟨increment, List.forall_mem_singleton.mpr notSnapshot⟩

/-- What follows the latest snapshot begins where it is. -/
private theorem after_latest
    {before after front back : List (ProdIdText × ProductMessage)}
    {latest earlier : ProdIdText × ProductMessage}
    (split : before ++ latest :: after = front ++ earlier :: back)
    (isSnapshot : latest.2.isSnapshot = true)
    (increments : ∀ carried ∈ back, carried.2.isSnapshot = false) :
    ∃ between, front = before ++ between := by
  rcases List.append_eq_append_iff.mp split with ⟨between, rfl, _⟩ | ⟨between, rfl, rest⟩
  · exact ⟨between, rfl⟩
  · cases between with
    | nil => exact ⟨[], by simp⟩
    | cons head tail =>
        obtain ⟨_, rfl⟩ := List.cons_eq_cons.mp rest
        have increment := increments latest (by simp)
        rw [isSnapshot] at increment
        cases increment

/-- Taken messages rest on one book only. -/
theorem unique
    {otherBase : OrderBook}
    {others : List (ProdIdText × ProductMessage)}
    (rests : RestsOn taken base increments)
    (otherwise : RestsOn taken otherBase others) :
    base = otherBase ∧ increments = others := by
  cases rests with
  | first shape increment =>
      cases otherwise with
      | first otherShape _ =>
          obtain ⟨same, _⟩ := List.cons_eq_cons.mp (shape.symm.trans otherShape)
          obtain ⟨rfl, _⟩ := Prod.mk.inj same
          exact ⟨rfl, rfl⟩
      | snapshot split _ =>
          rw [split] at increment
          cases increment _ (List.mem_append_right _ List.mem_cons_self)
  | snapshot split increment =>
      cases otherwise with
      | first _ otherIncrement =>
          rw [split] at otherIncrement
          cases otherIncrement _ (List.mem_append_right _ List.mem_cons_self)
      | snapshot otherSplit otherIncrement =>
          have same := split.symm.trans otherSplit
          obtain ⟨between, rfl⟩ := after_latest same rfl otherIncrement
          obtain ⟨back, shorter⟩ := after_latest same.symm rfl increment
          have lengths := congrArg List.length shorter
          simp only [List.length_append] at lengths
          have nothing : between = [] := List.eq_nil_of_length_eq_zero (by omega)
          rw [nothing, List.append_nil] at same
          obtain ⟨latest, rfl⟩ := List.cons_eq_cons.mp (List.append_cancel_left same)
          cases latest
          exact ⟨rfl, rfl⟩

end RestsOn

namespace Accounts

variable {messages taken : List (ProdIdText × ProductMessage)} {st : ProductState}
  {prodId : ProdIdText} {message : ProductMessage}

/-- The highest serial after an accepted message is its own. -/
theorem lastSerial_body
    (lastSerial : st.lastSerial = highest (serialsOf messages))
    (accepted : message.Accepted st) :
    (message.body prodId st).1.lastSerial =
      highest (serialsOf (messages ++ [(prodId, message)])) := by
  have atLeast : st.lastSerial ≤ message.serial.toNat := by
    rcases accepted with zero | larger
    · omega
    · split at larger <;> omega
  rw [(ProductMessage.body_accepted prodId accepted).1, serialsOf, List.map_append,
    List.map_singleton, highest_concat, ← serialsOf, ← lastSerial, max_eq_right atLeast]

/-- Step lemma for a message that is taken. -/
theorem accepted
    (accounts : Accounts messages taken st)
    (accepted : message.Accepted st) :
    Accounts (messages ++ [(prodId, message)]) (taken ++ [(prodId, message)])
      (message.body prodId st).1 := by
  refine ⟨lastSerial_body accounts.lastSerial accepted, ?_⟩
  cases kind : message.isSnapshot with
  | false =>
      obtain ⟨base, increments, rests, carries⟩ := accounts.contents
      exact ⟨base, _, rests.concat kind, carries.body accepted kind⟩
  | true =>
      cases message with
      | track seq | increment seq entries infoTime => cases kind
      | snapshot seq entries infoTime =>
          exact ⟨_, [], .snapshot rfl (fun _ member => absurd member List.not_mem_nil),
            OrderBook.carries_snapshot accepted⟩

/-- Step lemma for the first message of a product. -/
theorem first (prodId : ProdIdText) (message : ProductMessage) :
    Accounts [(prodId, message)] [(prodId, message)]
      (message.body prodId (ProductAction.newborn prodId)).1 := by
  have accepted : message.Accepted (ProductAction.newborn prodId) := Or.inl rfl
  have unseen : (ProductAction.newborn prodId).lastSerial = highest (serialsOf []) := rfl
  refine ⟨lastSerial_body unseen accepted, ?_⟩
  cases kind : message.isSnapshot with
  | false =>
      have carries : (ProductAction.newborn prodId).book.Carries
          { prodId := copyProdId prodId } [] := ⟨rfl, rfl, rfl, rfl⟩
      exact ⟨_, _, .first rfl (List.forall_mem_singleton.mpr kind),
        carries.body accepted kind⟩
  | true =>
      cases message with
      | track seq | increment seq entries infoTime => cases kind
      | snapshot seq entries infoTime =>
          exact ⟨_, [], .snapshot (List.nil_append _).symm
            (fun _ member => absurd member List.not_mem_nil),
            OrderBook.carries_snapshot accepted⟩

/-- Step lemma for a message that is refused. -/
theorem refused
    (accounts : Accounts messages taken st)
    (refused : ¬message.Accepted st) :
    Accounts (messages ++ [(prodId, message)]) taken st := by
  refine ⟨?_, accounts.contents⟩
  have atMost : message.serial.toNat ≤ st.lastSerial := by
    unfold ProductMessage.Accepted at refused
    split at refused <;> omega
  rw [serialsOf, List.map_append, List.map_singleton, highest_concat, ← serialsOf,
    ← accounts.lastSerial, max_eq_left atMost]

end Accounts

/-- Every message of a product is accounted for. -/
structure Accounted
    (key : ProdKey)
    (steps : List Step)
    (found : Option ProductState) : Prop where
  absent : found = none ↔ messagesOf key steps = []
  present : ∀ st, found = some st →
    Accounts (messagesOf key steps) (takenMessages key steps) st

theorem messagesOf_concat (key : ProdKey) (steps : List Step) (last : Step) :
    messagesOf key (steps ++ [last]) =
      messagesOf key steps ++
        (last.message.filter fun carried => carried.1.key = key).toList := by
  rw [messagesOf, List.filterMap_append, ← messagesOf]
  cases found : last.message.filter fun carried => carried.1.key = key <;> simp [found]

/-- A step that feeds the product nothing carries no message to it. -/
theorem Step.filter_message_eq_none
    {key : ProdKey}
    {manager : OrderBookManager}
    {step : Step}
    {action : ProductAction}
    (acts : step.actionOn key manager = action)
    (notFed : ∀ prodId said, action ≠ .feed prodId said) :
    (step.message.filter fun carried => carried.1.key = key) = none := by
  rw [Option.filter_eq_none_iff]
  intro carried found same
  apply notFed carried.1 carried.2
  rw [← acts]
  simp only [actionOn, found, if_pos (of_decide_eq_true same)]

namespace Accounted

variable {key : ProdKey} {steps : List Step} {last : Step} {found : Option ProductState}

/-- Step lemma for a step that says nothing to the product. -/
theorem silent
    (accounted : Accounted key steps found)
    (nothing : last.message.filter (fun carried => carried.1.key = key) = none)
    (suspicion : ProductState → Bool) :
    Accounted key (steps ++ [last])
      (found.map fun st => { st with suspect := suspicion st }) := by
  have messages : messagesOf key (steps ++ [last]) = messagesOf key steps := by
    rw [messagesOf_concat, nothing]
    exact List.append_nil _
  refine ⟨?_, fun st reached => ?_⟩
  · rw [Option.map_eq_none_iff, messages]
    exact accounted.absent
  · obtain ⟨before, present, rfl⟩ := Option.map_eq_some_iff.mp reached
    rw [takenMessages, messages]
    obtain ⟨lastSerial, contents⟩ := accounted.present before present
    exact ⟨lastSerial, contents⟩

/-- Step lemma for a message of the product. -/
theorem message
    {prodId : ProdIdText}
    {said : ProductMessage}
    (accounted : Accounted prodId.key steps found)
    (carries : last.message = some (prodId, said)) :
    Accounted prodId.key (steps ++ [last])
      ((ProductAction.feed prodId said).apply found) := by
  have messages : messagesOf prodId.key (steps ++ [last]) =
      messagesOf prodId.key steps ++ [(prodId, said)] := by
    rw [messagesOf_concat, carries, Option.filter_some, if_pos (decide_eq_true rfl)]
    rfl
  refine ⟨?_, fun st reached => ?_⟩
  · rw [messages]
    exact iff_of_false (Option.some_ne_none _) (by simp)
  · cases reached
    rw [takenMessages, messages, takenFrom_concat, List.nil_append, ← takenMessages]
    cases seen : found with
    | none =>
        have takes : said.TakenAfter [] :=
          Or.inl fun serial member => absurd member List.not_mem_nil
        rw [takenMessages, accounted.absent.mp seen, if_pos takes]
        exact Accounts.first prodId said
    | some before =>
        have accounts := accounted.present before seen
        have taken : said.TakenAfter _ ↔ said.Accepted before :=
          ProductMessage.takenAfter_iff accounts.lastSerial
        by_cases accepted : said.Accepted before
        · rw [if_pos (taken.mpr accepted)]
          exact accounts.accepted accepted
        · rw [if_neg (mt taken.mp accepted), List.append_nil, Option.getD_some,
            ProductMessage.body_refused prodId accepted]
          exact accounts.refused accepted

end Accounted

/-- Run lemma: since the last reset, every message of a product is accounted for. -/
theorem accounted_final
    {manager : OrderBookManager}
    (blank : manager.Blank)
    (key : ProdKey)
    {steps : List Step}
    (noReset : ∀ step ∈ steps, step.isReset = false) :
    Accounted key steps ((OrderBookManager.step.final manager steps).productAt key) := by
  induction steps using List.reverseRecOn with
  | nil =>
      rw [Machine.final_nil, blank.productAt]
      refine ⟨iff_of_true rfl rfl, fun st found => ?_⟩
      cases found
  | append_singleton steps last inductionHypothesis =>
      obtain ⟨earlier, lastKept⟩ := List.forall_mem_append.mp noReset
      rw [List.forall_mem_singleton] at lastKept
      have accounted := inductionHypothesis earlier
      rw [Machine.final_concat, OrderBookManager.productAt_step]
      cases action : last.actionOn key (OrderBookManager.step.final manager steps) with
      | keep =>
          have nothing := Step.filter_message_eq_none action (fun _ _ fed => by cases fed)
          simpa [ProductAction.apply] using accounted.silent nothing ProductState.suspect
      | suspect =>
          have nothing := Step.filter_message_eq_none action (fun _ _ fed => by cases fed)
          rw [ProductAction.apply_suspect]
          exact accounted.silent nothing _
      | clear =>
          rw [Step.isReset_of_actionOn_clear action] at lastKept
          cases lastKept
      | feed prodId said =>
          obtain ⟨carries, same⟩ := Step.key_of_actionOn_feed action
          subst same
          exact accounted.message carries

/-- A book holds what was taken, best-effort.  Take any run since the manager was built
or reset, with any serials, losses, repetitions and snapshots, and any product seen in
it.  `get_book` finds the product; its last serial is the highest one that came for it;
and its content is that of the one book its taken messages rest on, which is the latest
snapshot taken or the empty book with the id of the first message, with the batches of
the increments taken since applied in order and the time of the latest of them.  Whether
the book is stale makes no difference. -/
theorem book_holds_what_was_taken
    {manager : OrderBookManager}
    (blank : manager.Blank)
    {steps : List Step}
    (noReset : ∀ step ∈ steps, step.isReset = false)
    (prodId : List UInt8) :
    ((OrderBookManager.step.final manager steps).getBook prodId = none ↔
      messagesOf (trimProdId prodId) steps = []) ∧
    ∀ book, (OrderBookManager.step.final manager steps).getBook prodId = some book →
      book.lastProdMsgSeq.toNat =
        highest (serialsOf (messagesOf (trimProdId prodId) steps)) ∧
      (∃! rested : OrderBook × List (ProdIdText × ProductMessage),
        RestsOn (takenMessages (trimProdId prodId) steps) rested.1 rested.2) ∧
      ∀ base increments,
        RestsOn (takenMessages (trimProdId prodId) steps) base increments →
          book.Carries base increments := by
  have accounted := accounted_final blank (trimProdId prodId) noReset
  refine ⟨Option.map_eq_none_iff.trans accounted.absent, fun book answered => ?_⟩
  obtain ⟨st, found, rfl⟩ := Option.map_eq_some_iff.mp answered
  obtain ⟨lastSerial, base, increments, rests, carries⟩ := accounted.present st found
  refine ⟨lastSerial, ⟨(base, increments), rests, fun other otherwise => ?_⟩,
    fun otherBase others otherwise => ?_⟩
  · obtain ⟨sameBase, sameIncrements⟩ := rests.unique otherwise
    exact Prod.ext sameBase.symm sameIncrements.symm
  obtain ⟨rfl, rfl⟩ := rests.unique otherwise
  exact ⟨carries.ladders, carries.infoTime, carries.prodId, carries.hasSnapshot⟩

/-- A snapshot, then an update after a loss, and a late one from before it: the stale
book holds the snapshot and the first of the updates. -/
theorem book_holds_what_was_taken_stale :
    let bid := Builders.makeEntry '0' '0' 10315 4 1
    let better := Builders.makeEntry '0' '0' 10316 2 1
    let listed := Builders.makeSnapshotEntry '0' 10314 9 1
    let steps : List Step :=
      [.i083 (Builders.makeI083 Builders.kProd 3 [listed] 1 '0'),
        .i081 (Builders.makeI081 Builders.kProd 5 [better] 3),
        .i081 (Builders.makeI081 Builders.kProd 4 [bid] 2)]
    ∃ book, (OrderBookManager.step.final {} steps).getBook Builders.kProd = some book ∧
      book.isStale = true ∧ book.lastProdMsgSeq.toNat = 5 ∧
      book.ladder = [better].foldl Ladders.applyEntry
        ([listed].foldl Ladders.placeEntry Ladders.empty) := by
  intro bid better listed steps
  obtain ⟨book, answered, stale⟩ : ∃ book,
      (OrderBookManager.step.final {} steps).getBook Builders.kProd = some book ∧
        book.isStale = true := ⟨_, rfl, by decide⟩
  obtain ⟨serial, _, carries⟩ := (book_holds_what_was_taken OrderBookManager.blank_new
    (show ∀ step ∈ steps, step.isReset = false by decide) Builders.kProd).2 book answered
  have taken : takenMessages (trimProdId Builders.kProd) steps =
      [] ++ (Builders.setProd Builders.kProd,
          .snapshot 3 [listed] (Vector.replicate 16 0)) ::
        [(Builders.setProd Builders.kProd,
          .increment 5 [better] (Vector.replicate 16 0))] := by decide
  refine ⟨book, answered, stale, serial, ?_⟩
  rw [taken] at carries
  have ladders := (carries _ _ (.snapshot rfl (by decide))).ladders
  rwa [OrderBook.ladder_withLadders] at ladders

end TaifexResolver
