import TaifexResolver.OrderBook.Builders
import TaifexResolver.OrderBook.Tracking

/-!
# Where a fresh book comes from

A product that is fresh without a snapshot claims to rest on an unbroken chain of
increments from an empty book.  The log of the messages it accepted is kept beside
the state here, and the claim is compared with the log.  A last serial of zero stands
for a product that was never seen, but zero is also a serial that a message may carry.
-/

namespace TaifexResolver

/-- The entries an increment applies. -/
def ProductMessage.batch : ProductMessage → List MDEntry
  | .increment _ entries _ => entries
  | _ => []

/-- The messages of an action that its product accepts as new. -/
def ProductAction.accepts : ProductAction → Option ProductState → List ProductMessage
  | .feed prodId message, found =>
      if message.Accepted (found.getD (newborn prodId)) then [message] else []
  | _, _ => []

namespace OrderBookManager

/-- The manager, emitting the messages that one product accepts as new. -/
def acceptedFor (key : ProdKey) : Machine OrderBookManager Step ProductMessage :=
  fun manager step =>
    ((manager.step step).1, (step.actionOn key manager).accepts (manager.productAt key))

/-- The messages a product accepts as new during a run, in order. -/
def acceptedLog (key : ProdKey) (manager : OrderBookManager) (steps : List Step) :
    List ProductMessage :=
  (acceptedFor key).output manager steps

theorem final_acceptedFor
    (key : ProdKey)
    (manager : OrderBookManager)
    (steps : List Step) :
    (acceptedFor key).final manager steps = step.final manager steps := by
  induction steps generalizing manager with
  | nil => rfl
  | cons event rest inductionHypothesis => exact inductionHypothesis _

theorem acceptedLog_concat
    (key : ProdKey)
    (manager : OrderBookManager)
    (steps : List Step)
    (last : Step) :
    acceptedLog key manager (steps ++ [last]) =
      acceptedLog key manager steps ++
        (last.actionOn key (step.final manager steps)).accepts
          ((step.final manager steps).productAt key) := by
  rw [acceptedLog, Machine.output_concat, final_acceptedFor]
  rfl

end OrderBookManager

/-- A log explains a product: it holds the serials one to the last, in order, and
its batches build the ladders from an empty book. -/
structure Explains (log : List ProductMessage) (st : ProductState) : Prop where
  serials : log.map (fun message => message.serial.toNat) = List.range' 1 st.lastSerial
  ladders : st.book.ladder =
    ((log.flatMap ProductMessage.batch).foldl OrderBook.applyEntry {}).ladder

/-- After some steps, a product that is fresh without a snapshot is explained by the
messages it accepted in them. -/
def CompleteProvenance
    (key : ProdKey)
    (start : OrderBookManager)
    (steps : List Step) : Prop :=
  ∀ st, (OrderBookManager.step.final start steps).productAt key = some st →
    st.isStale = false → st.book.hasSnapshot = false →
    Explains (start.acceptedLog key steps) st

/-- A serial of one that meets a product which has been seen, without a snapshot,
and whose last serial is zero. -/
def MeetsSentinel (action : ProductAction) (found : Option ProductState) : Prop :=
  ∃ st prodId message, found = some st ∧ action = .feed prodId message ∧
    message.isSnapshot = false ∧ message.serial = 1 ∧
    st.book.lastProdMsgSeq = 0 ∧ st.book.hasSnapshot = false

/-- Invariant of a product and its log: without a snapshot an unbroken chain is
explained by the log, and a last serial of zero never carries one. -/
structure Logged (log : List ProductMessage) (found : Option ProductState) : Prop where
  unseen : found = none → log = []
  zero : ∀ st, found = some st → st.book.hasSnapshot = false → st.lastSerial = 0 →
    st.synced = false ∧ log ≠ []
  chain : ∀ st, found = some st → st.book.hasSnapshot = false → st.synced = true →
    Explains log st

namespace Explains

variable {log : List ProductMessage} {st : ProductState}

/-- An accepted message that continues the chain continues the explanation. -/
theorem body
    {message : ProductMessage}
    (prodId : ProdIdText)
    (explains : Explains log st)
    (notSnapshot : message.isSnapshot = false)
    (accepted : message.Accepted st)
    (next : message.serial.toNat = st.lastSerial + 1) :
    Explains (log ++ [message]) (message.body prodId st).1 := by
  obtain ⟨serialEq, _, _, laddersEq, _⟩ := ProductMessage.body_accepted prodId accepted
  refine ⟨?_, ?_⟩
  · rw [serialEq, next, List.range'_concat, List.map_append, explains.serials,
      List.map_singleton, next, Nat.one_mul, Nat.add_comm]
  · rw [laddersEq, List.flatMap_append, List.foldl_append, explains.ladders,
      List.flatMap_singleton]
    cases message with
    | track seq => rfl
    | increment seq entries infoTime =>
        exact (OrderBook.ladder_foldl_applyEntry _ entries).symm
    | snapshot seq entries infoTime => cases notSnapshot

end Explains

namespace Logged

variable {log : List ProductMessage} {found : Option ProductState}

theorem start : Logged [] none where
  unseen := fun _ => rfl
  zero := fun _ impossible => nomatch impossible
  chain := fun _ impossible => nomatch impossible

/-- The chain of a product whose state or newborn state a message continues: it is
explained so far, unless a serial of one meets the sentinel. -/
theorem explains_before
    (logged : Logged log found)
    {prodId : ProdIdText}
    {message : ProductMessage}
    (safe : ¬MeetsSentinel (.feed prodId message) found)
    {st : ProductState}
    (stEq : found.getD (ProductAction.newborn prodId) = st)
    (notSnapshot : message.isSnapshot = false)
    (noSnapshot : st.book.hasSnapshot = false)
    (next : message.serial.toNat = st.lastSerial + 1)
    (origin : st.synced = true ∨ st.lastSerial = 0) :
    Explains log st := by
  cases seen : found with
  | none =>
      rw [seen, Option.getD_none] at stEq
      subst stEq
      rw [logged.unseen seen]
      refine ⟨rfl, ?_⟩
      funext side
      cases side <;> rfl
  | some known =>
      rw [seen, Option.getD_some] at stEq
      subst stEq
      apply logged.chain known seen noSnapshot
      apply origin.resolve_right
      intro zero
      apply safe
      refine ⟨known, prodId, message, seen, rfl, notSnapshot, ?_,
        known.lastProdMsgSeq_eq_zero_iff.mpr zero, noSnapshot⟩
      rw [← UInt32.toNat_inj, next, zero]
      rfl

/-- An accepted message keeps the invariant unless its serial of one meets the
sentinel. -/
theorem accepted
    (logged : Logged log found)
    {prodId : ProdIdText}
    {message : ProductMessage}
    (safe : ¬MeetsSentinel (.feed prodId message) found)
    {st : ProductState}
    (stEq : found.getD (ProductAction.newborn prodId) = st)
    (accepted : message.Accepted st) :
    Logged (log ++ [message]) (some (message.body prodId st).1) := by
  obtain ⟨serialEq, syncedEq, _, _, snapshotEq, _⟩ :=
    ProductMessage.body_accepted prodId accepted
  have parts : (message.body prodId st).1.book.hasSnapshot = false →
      st.book.hasSnapshot = false ∧ message.isSnapshot = false := by
    intro noSnapshot
    rwa [snapshotEq, Bool.or_eq_false_iff] at noSnapshot
  refine ⟨?_, ?_, ?_⟩
  · intro impossible
    cases impossible
  · rintro after ⟨⟩ noSnapshot zero
    rw [serialEq] at zero
    refine ⟨?_, by simp⟩
    rw [syncedEq, ProductMessage.syncedAfter, (parts noSnapshot).2, zero]
    simp
  · rintro after ⟨⟩ noSnapshot synced
    obtain ⟨before, notSnapshot⟩ := parts noSnapshot
    rw [syncedEq] at synced
    obtain ⟨next, origin⟩ := ProductMessage.chain_of_syncedAfter notSnapshot synced
    have explains := logged.explains_before safe stEq notSnapshot before next origin
    exact explains.body prodId notSnapshot accepted next

/-- Step lemma for a message: it keeps the invariant unless its serial of one meets
the sentinel. -/
theorem feed
    (logged : Logged log found)
    (prodId : ProdIdText)
    (message : ProductMessage)
    (safe : ¬MeetsSentinel (.feed prodId message) found) :
    Logged (log ++ (ProductAction.feed prodId message).accepts found)
      ((ProductAction.feed prodId message).apply found) := by
  generalize stEq : found.getD (ProductAction.newborn prodId) = st
  by_cases accepted : message.Accepted st
  · have emitted : (ProductAction.feed prodId message).accepts found = [message] := by
      simp only [ProductAction.accepts, stEq, if_pos accepted]
    have reached : (ProductAction.feed prodId message).apply found =
        some (message.body prodId st).1 := by
      simp only [ProductAction.apply, stEq]
    rw [emitted, reached]
    exact logged.accepted safe stEq accepted
  · have emitted : (ProductAction.feed prodId message).accepts found = [] := by
      simp only [ProductAction.accepts, stEq, if_neg accepted]
    have reached : (ProductAction.feed prodId message).apply found = some st := by
      simp only [ProductAction.apply, stEq, ProductMessage.body_refused prodId accepted]
    have seen : found = some st := by
      cases seen : found with
      | none =>
          rw [seen, Option.getD_none] at stEq
          subst stEq
          exact absurd (Or.inl rfl) accepted
      | some known => rw [← stEq, seen, Option.getD_some]
    rw [emitted, reached, List.append_nil, ← seen]
    exact logged

/-- Step lemma: any action but a reset keeps the invariant, unless a serial of one
meets the sentinel. -/
theorem apply
    (logged : Logged log found)
    {action : ProductAction}
    (notClear : action ≠ .clear)
    (safe : ¬MeetsSentinel action found) :
    Logged (log ++ action.accepts found) (action.apply found) := by
  cases action with
  | keep => exact (List.append_nil log).symm ▸ logged
  | clear => exact absurd rfl notClear
  | feed prodId message => exact logged.feed prodId message safe
  | suspect =>
      rw [ProductAction.apply_suspect]
      simp only [ProductAction.accepts, List.append_nil]
      refine ⟨fun unseen => logged.unseen (Option.map_eq_none_iff.mp unseen), ?_, ?_⟩
      · rintro after reached noSnapshot zero
        obtain ⟨st, seen, rfl⟩ := Option.map_eq_some_iff.mp reached
        exact logged.zero st seen noSnapshot zero
      · rintro after reached noSnapshot synced
        obtain ⟨st, seen, rfl⟩ := Option.map_eq_some_iff.mp reached
        obtain ⟨serials, ladders⟩ := logged.chain st seen noSnapshot synced
        exact ⟨serials, ladders⟩

/-- A serial of one that meets the sentinel leaves a fresh product that its log does
not explain. -/
theorem not_explains
    (logged : Logged log found)
    {action : ProductAction}
    (meets : MeetsSentinel action found) :
    ∃ st, action.apply found = some st ∧ st.isStale = false ∧
      st.book.hasSnapshot = false ∧ ¬Explains (log ++ action.accepts found) st := by
  obtain ⟨before, prodId, message, seen, rfl, notSnapshot, one, zero, noSnapshot⟩ := meets
  have first := before.lastProdMsgSeq_eq_zero_iff.mp zero
  have serial : message.serial.toNat = 1 := by
    rw [one]
    rfl
  have accepted : message.Accepted before := Or.inl first
  obtain ⟨serialEq, syncedEq, suspectEq, _, snapshotEq, _⟩ :=
    ProductMessage.body_accepted prodId accepted
  subst seen
  refine ⟨_, rfl, ?_, ?_, fun explains => ?_⟩
  · rw [Option.getD_some, ProductState.isStale_eq_false_iff, syncedEq, suspectEq]
    simp [ProductMessage.syncedAfter, first, serial]
  · rw [Option.getD_some, snapshotEq, noSnapshot, notSnapshot]
    rfl
  · have serials := congrArg List.length explains.serials
    simp only [ProductAction.accepts, Option.getD_some, if_pos accepted, List.map_append,
      List.length_append, List.length_map, List.length_range', serialEq, serial,
      List.length_singleton] at serials
    have empty : log.length = 0 := by omega
    exact (logged.zero before rfl noSnapshot first).2 (List.length_eq_zero_iff.mp empty)

end Logged

/-- Provenance of a fresh book without a snapshot.  In every state of a run since the
start or a reset, a product that is fresh without a snapshot accepted exactly the
serials one to its last, in order, and its ladders are the fold of their batches from
the empty book, if and only if in no step of the run a message with serial one, other
than a snapshot, reaches the product when it has been seen, without a snapshot, with
last serial zero. -/
theorem provenance_complete_iff
    {manager : OrderBookManager}
    (blank : manager.Blank)
    (key : ProdKey)
    {steps : List Step}
    (noReset : ∀ step ∈ steps, step.isReset = false) :
    (∀ before after, steps = before ++ after → CompleteProvenance key manager before) ↔
      ∀ before last after, steps = before ++ last :: after →
        ¬MeetsSentinel (last.actionOn key (OrderBookManager.step.final manager before))
          ((OrderBookManager.step.final manager before).productAt key) := by
  refine @forall_prefix_iff_safe Step steps
    (fun before => Logged (manager.acceptedLog key before)
      ((OrderBookManager.step.final manager before).productAt key)) _ _ ?_ ?_ ?_ ?_
  · rw [Machine.final_nil, blank.productAt]
    exact Logged.start
  · intro before logged st reached fresh noSnapshot
    exact logged.chain st reached noSnapshot (st.isStale_eq_false_iff.mp fresh).1
  · intro before last after split logged safe
    rw [OrderBookManager.acceptedLog_concat, Machine.final_concat,
      OrderBookManager.productAt_step]
    refine logged.apply (fun clears => ?_) safe
    have resets := Step.isReset_of_actionOn_clear clears
    rw [noReset last (by simp [split])] at resets
    cases resets
  · intro before last after split logged complete meets
    obtain ⟨st, reached, fresh, noSnapshot, unexplained⟩ := logged.not_explains meets
    apply unexplained
    rw [← OrderBookManager.acceptedLog_concat]
    refine complete st ?_ fresh noSnapshot
    rw [Machine.final_concat, OrderBookManager.productAt_step]
    exact reached

namespace Provenance

/-- The product of the examples. -/
def key : ProdKey := (Builders.setProd Builders.kProd).key

/-- A batch with serial zero, then an empty one with serial one. -/
def zeroFirst : List Step :=
  [.i081 (Builders.makeI081 Builders.kProd 0 [Builders.makeEntry '0' '0' 10315 4 1] 1),
    .i081 (Builders.makeI081 Builders.kProd 1 [] 2)]

/-- A batch with serial one, then a trade with serial two. -/
def oneFirst : List Step :=
  [.i081 (Builders.makeI081 Builders.kProd 1 [Builders.makeEntry '0' '0' 10315 4 1] 1),
    .i024 (Builders.makeI024 Builders.kProd 2 2)]

end Provenance

/-- The batch with serial zero is in the fresh book, although its serials say that
the book was built from serial one on. -/
theorem provenance_hides_serial_zero :
    (∀ step ∈ Provenance.zeroFirst, step.isReset = false) ∧
      ¬CompleteProvenance Provenance.key {} Provenance.zeroFirst := by
  refine ⟨by decide, fun complete => ?_⟩
  have facts : ((OrderBookManager.step.final {} Provenance.zeroFirst).productAt
      Provenance.key).any (fun st => !st.isStale && !st.book.hasSnapshot &&
        decide (st.lastSerial = 1)) = true := by decide
  obtain ⟨st, reached, flags⟩ := (Option.any_eq_true _ _).mp facts
  simp only [Bool.and_eq_true, Bool.not_eq_true', decide_eq_true_eq] at flags
  have serials := (complete st reached flags.1.1 flags.1.2).serials
  rw [flags.2] at serials
  revert serials
  decide

/-- The criterion at a run that starts with serial one: its fresh book is explained. -/
theorem provenance_complete_iff_one_first :
    ∃ st, (OrderBookManager.step.final {} Provenance.oneFirst).productAt Provenance.key =
        some st ∧ st.isStale = false ∧ st.book.hasSnapshot = false ∧
      Explains (OrderBookManager.acceptedLog Provenance.key {} Provenance.oneFirst) st := by
  have facts : ((OrderBookManager.step.final {} Provenance.oneFirst).productAt
      Provenance.key).any (fun st => !st.isStale && !st.book.hasSnapshot) = true := by
    decide
  obtain ⟨st, reached, flags⟩ := (Option.any_eq_true _ _).mp facts
  simp only [Bool.and_eq_true, Bool.not_eq_true'] at flags
  refine ⟨st, reached, flags.1, flags.2, ?_⟩
  refine (provenance_complete_iff OrderBookManager.blank_new Provenance.key
    (by decide)).mpr ?_ Provenance.oneFirst [] (List.append_nil _).symm st reached
    flags.1 flags.2
  rintro before last after split ⟨st, prodId, message, seen, _, _, _, zero, _⟩
  match before, split with
  | [], _ => cases seen
  | [first], split =>
      obtain ⟨rfl, _⟩ := List.cons_eq_cons.mp split
      cases seen
      revert zero
      decide
  | first :: second :: rest, split =>
      have lengths := congrArg List.length split
      simp only [Provenance.oneFirst, List.length_cons, List.length_nil,
        List.length_append] at lengths
      omega

end TaifexResolver
