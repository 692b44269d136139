import TaifexResolver.Exchange.History
import TaifexResolver.Staleness.LossDetection

/-!
# Delayed snapshots

A carousel block is adopted on its serial alone, so a block that was generated
before a loss, and repeats the serial of the live book, makes the product fresh
again although the loss is still there.  Adopting such a block is the only way a
product can become fresh below the serial it lost.
-/

namespace TaifexResolver

/-- A step that adopts a snapshot of the product with a serial below a bound. -/
def Step.AdoptsBelow
    (key : ProdKey)
    (bound : Nat)
    (manager : OrderBookManager)
    (step : Step) : Prop :=
  ∃ prodId said, step.message = some (prodId, said) ∧ prodId.key = key ∧
    said.isSnapshot = true ∧ said.serial.toNat < bound ∧
    said.Accepted ((manager.productAt key).getD (ProductAction.newborn prodId))

/-- Among some steps, a snapshot of the product with a serial below a bound is
adopted. -/
def AdoptedBelow
    (key : ProdKey)
    (bound : Nat)
    (manager : OrderBookManager)
    (steps : List Step) : Prop :=
  ∃ early block late, steps = early ++ block :: late ∧
    block.AdoptsBelow key bound (OrderBookManager.step.final manager early)

theorem AdoptedBelow.append
    {key : ProdKey}
    {bound : Nat}
    {manager : OrderBookManager}
    {steps : List Step}
    (adopted : AdoptedBelow key bound manager steps)
    (more : List Step) :
    AdoptedBelow key bound manager (steps ++ more) := by
  obtain ⟨early, block, late, rfl, adopts⟩ := adopted
  exact ⟨early, block, late ++ more, by simp, adopts⟩

/-- A step after a loss: it does not reset, and what it says about the product is
a snapshot or lies beyond the lost serial. -/
structure Step.Beyond (key : ProdKey) (lost : Nat) (step : Step) : Prop where
  notReset : step.isReset = false
  message : ∀ prodId said, step.message = some (prodId, said) → prodId.key = key →
    said.isSnapshot = true ∨ lost < said.serial.toNat

/-- A product that is stale, or has reached a serial. -/
def StaleOrReached (lost : Nat) (found : Option ProductState) : Prop :=
  ∀ st, found = some st → st.isStale = true ∨ lost ≤ st.lastSerial

/-- Step lemma: only the adoption of a snapshot below the lost serial can make the
product fresh below it. -/
theorem StaleOrReached.step
    {key : ProdKey}
    {lost : Nat}
    {manager : OrderBookManager}
    {step : Step}
    (warned : StaleOrReached lost (manager.productAt key))
    (beyond : step.Beyond key lost)
    (notAdopted : ¬step.AdoptsBelow key lost manager) :
    StaleOrReached lost ((manager.step step).1.productAt key) := by
  intro st reached
  rw [OrderBookManager.productAt_step] at reached
  cases action : step.actionOn key manager with
  | keep =>
      rw [action] at reached
      exact warned st reached
  | clear =>
      have resets := Step.isReset_of_actionOn_clear action
      rw [beyond.notReset] at resets
      cases resets
  | suspect =>
      rw [action, ProductAction.apply_suspect] at reached
      obtain ⟨before, _, rfl⟩ := Option.map_eq_some_iff.mp reached
      exact Or.inl (isStale_sweep before)
  | feed prodId said =>
      rw [action] at reached
      obtain ⟨carries, same⟩ := Step.key_of_actionOn_feed action
      simp only [ProductAction.apply, Option.some.injEq] at reached
      subst reached
      by_cases accepted : said.Accepted
          ((manager.productAt key).getD (ProductAction.newborn prodId))
      · apply Or.inr
        rw [(ProductMessage.body_accepted prodId accepted).1]
        rcases beyond.message prodId said carries same with snapshot | larger
        · by_contra below
          exact notAdopted ⟨prodId, said, carries, same, snapshot,
            Nat.lt_of_not_le below, accepted⟩
        · exact larger.le
      · rw [ProductMessage.body_refused prodId accepted]
        cases found : manager.productAt key with
        | none =>
            rw [found] at accepted
            exact absurd (Or.inl rfl) accepted
        | some before => exact warned before found

/-- Run lemma: without such an adoption, the product stays stale until it reaches
the lost serial. -/
theorem StaleOrReached.run
    {key : ProdKey}
    {lost : Nat}
    {manager : OrderBookManager}
    {steps : List Step}
    (warned : StaleOrReached lost (manager.productAt key))
    (beyond : ∀ step ∈ steps, step.Beyond key lost)
    (notAdopted : ¬AdoptedBelow key lost manager steps) :
    StaleOrReached lost
      ((OrderBookManager.step.final manager steps).productAt key) := by
  induction steps using List.reverseRecOn with
  | nil => exact warned
  | append_singleton steps last inductionHypothesis =>
      rw [Machine.final_concat]
      refine (inductionHypothesis
        (fun step member => beyond step (List.mem_append_left _ member)) ?_).step
        (beyond last (by simp)) ?_
      · exact fun adopted => notAdopted (adopted.append [last])
      · intro adopts
        exact notAdopted ⟨steps, last, [], rfl, adopts⟩

/-- A product that was warned and is fresh below the lost serial owes it to an
adopted snapshot. -/
theorem StaleOrReached.adoptedBelow
    {key : ProdKey}
    {lost : Nat}
    {manager : OrderBookManager}
    {steps : List Step}
    (warned : StaleOrReached lost (manager.productAt key))
    (beyond : ∀ step ∈ steps, step.Beyond key lost)
    {st : ProductState}
    (reached : (OrderBookManager.step.final manager steps).productAt key = some st)
    (fresh : st.isStale = false)
    (below : st.lastSerial < lost) :
    AdoptedBelow key lost manager steps := by
  by_contra notAdopted
  rcases warned.run beyond notAdopted st reached with stale | atLeast
  · rw [fresh] at stale
    cases stale
  · omega

/-! ## What a channel carries after a gap -/

section Beyond

variable {layout : ChannelLayout} {lost : Nat}

theorem Step.Elsewhere.beyond
    {step : Step}
    (elsewhere : step.Elsewhere layout)
    (bound : Nat) :
    step.Beyond layout.key bound where
  notReset := elsewhere.notReset
  message := fun prodId said carries same =>
    Or.inl (elsewhere.onlySnapshots prodId said carries same)

/-- The typed feed of a message beyond the lost position. -/
theorem RealtimeMessage.Conforms.beyond_feed
    {message : RealtimeMessage}
    (conforms : message.Conforms layout)
    (further : message.isHeartbeat = false → lost < message.position) :
    ∀ step ∈ message.feed.toList, step.Beyond layout.key (layout.serialAt lost) := by
  intro step member
  have fed := Option.mem_toList.mp member
  obtain ⟨prodId, said, carries, messageCarries⟩ :=
    RealtimeMessage.message_of_feed fed
  refine ⟨?_, fun other saidToo carriesToo same => ?_⟩
  · rcases step.kinds with ⟨_, _, _, notReset⟩ | ⟨silent, _⟩ | ⟨_, rfl, _⟩
    · exact notReset
    · rw [carries] at silent
      cases silent
    · cases carries
  · cases carries.symm.trans carriesToo
    have own : message.IsFor layout.key := ⟨prodId, said, messageCarries, same⟩
    rw [conforms.serial prodId said messageCarries same]
    exact Or.inr (Substream.serialAt_lt_of_own
      ((conforms.own own.not_isHeartbeat).mpr own) (further own.not_isHeartbeat))

/-- What happens after the header of a received message beyond the lost position. -/
theorem beyond_receive
    {message : RealtimeMessage}
    {meanwhile : List Step}
    (conforms : (ChannelEvent.receive message meanwhile).Conforms layout)
    (further : message.isHeartbeat = false → lost < message.position) :
    ∀ step ∈ meanwhile ++ message.feed.toList,
      step.Beyond layout.key (layout.serialAt lost) := by
  obtain ⟨messageConforms, elsewhere⟩ := conforms
  intro step member
  rcases List.mem_append.mp member with other | feed
  · exact (elsewhere step other).beyond _
  · exact messageConforms.beyond_feed further step feed

/-- Everything a channel carries in order beyond the lost position. -/
theorem beyond_stepsOf
    {last : Nat}
    {events : List ChannelEvent}
    (passed : lost ≤ last)
    (conforms : ∀ event ∈ events, event.Conforms layout)
    (inOrder : InOrder last events) :
    ∀ step ∈ stepsOf events, step.Beyond layout.key (layout.serialAt lost) := by
  induction events generalizing last with
  | nil => simp [stepsOf]
  | cons event rest inductionHypothesis =>
      have conformsRest : ∀ event ∈ rest, event.Conforms layout :=
        fun event member => conforms event (List.mem_cons_of_mem _ member)
      have conformsEvent := conforms event (by simp)
      intro step member
      rw [stepsOf, List.flatMap_cons, List.mem_append] at member
      cases event with
      | elsewhere other =>
          rcases member with now | later
          · cases List.mem_singleton.mp now
            exact conformsEvent.beyond _
          · exact inductionHypothesis passed conformsRest inOrder step later
      | receive message meanwhile =>
          obtain ⟨ahead, inOrderRest⟩ := inOrder
          rcases member with now | later
          · rcases List.mem_cons.mp now with rfl | between
            · refine ⟨?_, ?_⟩
              · simpa [Step.isReset] using conformsEvent.1.kinded.not_reset
              · intro prodId said carries
                cases carries
            · refine beyond_receive conformsEvent (fun notHeartbeat => ?_) step between
              rw [notHeartbeat] at ahead
              exact Nat.lt_of_le_of_lt passed ahead
          · refine inductionHypothesis ?_ conformsRest inOrderRest step later
            split at ahead <;> omega

end Beyond

/-- A header beyond a lost position reveals a gap. -/
theorem gap_of_lost
    {message : RealtimeMessage}
    {last lost : Nat}
    (unseen : last < lost)
    (upTo : if message.isHeartbeat then lost ≤ message.position
      else lost < message.position) :
    if message.isHeartbeat then last < message.position
    else last + 1 < message.position := by
  split at upTo
  · next heartbeat =>
      rw [if_pos heartbeat]
      omega
  · next body =>
      rw [if_neg body]
      omega

/-- A header that reveals a gap leaves the product absent or stale. -/
theorem staleOrReached_of_gap
    {layout : ChannelLayout}
    {manager : OrderBookManager}
    {channel : ChannelState}
    (tracker : manager.channelAt layout.channel = some channel)
    (realtime : channel.isSnapshotChannel = false)
    {message : RealtimeMessage}
    (conforms : message.Conforms layout)
    (gap : if message.isHeartbeat then channel.lastSeq.toNat < message.position
      else channel.lastSeq.toNat + 1 < message.position)
    (lost : Nat) :
    StaleOrReached lost
      ((manager.step (.header message.header)).1.productAt layout.key) := by
  intro st reached
  cases present : manager.productAt layout.key with
  | none =>
      rw [OrderBookManager.productAt_step, present] at reached
      cases action : (Step.header message.header).actionOn layout.key manager with
      | feed prodId said =>
          cases (Step.key_of_actionOn_feed action).1
      | keep | suspect | clear =>
          rw [action] at reached
          cases reached
  | some before =>
      obtain ⟨after, advanced, observed, _, _, _, stale⟩ :=
        (Observed.mk present tracker).header realtime conforms
      cases reached.symm.trans observed.product
      exact Or.inl (stale gap)

/-- Only a snapshot adopted below it can hide a revealed loss.  In any run from a
blank manager, let a header of a realtime channel reveal a gap that holds a lost
message of the product, and let the channel be received in order from there on.
Whenever the product is fresh, or delivered as fresh, with a last serial below
the lost one, a snapshot with a serial below the lost one was adopted after that
header. -/
theorem loss_hidden_only_by_adopted_snapshot
    (layout : ChannelLayout)
    (start : OrderBookManager)
    (blank : start.Blank)
    (prior : List Step)
    (channel : ChannelState)
    (tracker : (OrderBookManager.step.final start prior).channelAt layout.channel =
      some channel)
    (realtime : channel.isSnapshotChannel = false)
    (message : RealtimeMessage)
    (meanwhile : List Step)
    (conforms : (ChannelEvent.receive message meanwhile).Conforms layout)
    (lost : Nat)
    (inside : channel.lastSeq.toNat < lost ∧
      if message.isHeartbeat then lost ≤ message.position
      else lost < message.position)
    (events : List ChannelEvent)
    (conformsAfter : ∀ event ∈ events, event.Conforms layout)
    (inOrder : InOrder message.position events)
    (shown rest : List Step)
    (split : meanwhile ++ message.feed.toList ++ stepsOf events = shown ++ rest) :
    let revealed :=
      ((OrderBookManager.step.final start prior).step (.header message.header)).1
    (∀ prodId book, trimProdId prodId = layout.key →
      (OrderBookManager.step.final revealed shown).getBook prodId = some book →
      book.isStale = false →
      book.lastProdMsgSeq.toNat < layout.serialAt lost →
      AdoptedBelow layout.key (layout.serialAt lost) revealed shown) ∧
    (∀ delivery ∈ OrderBookManager.step.output revealed shown,
      delivery.book.prodId.key = layout.key → delivery.book.isStale = false →
      delivery.book.lastProdMsgSeq.toNat < layout.serialAt lost →
      AdoptedBelow layout.key (layout.serialAt lost) revealed shown) := by
  intro revealed
  obtain ⟨unseen, upTo⟩ := inside
  have passed : lost ≤ message.position := by
    split at upTo <;> omega
  have beyond : ∀ step ∈ shown, step.Beyond layout.key (layout.serialAt lost) := by
    intro step member
    have among : step ∈ meanwhile ++ message.feed.toList ++ stepsOf events := by
      rw [split]
      exact List.mem_append_left _ member
    rcases List.mem_append.mp among with own | later
    · refine beyond_receive conforms (fun notHeartbeat => ?_) step own
      simpa [notHeartbeat] using upTo
    · exact beyond_stepsOf passed conformsAfter inOrder step later
  have warned : StaleOrReached (layout.serialAt lost)
      (revealed.productAt layout.key) :=
    staleOrReached_of_gap tracker realtime conforms.1 (gap_of_lost unseen upTo) _
  refine ⟨fun prodId book trimmed returned fresh below => ?_,
    fun delivery delivered addressed fresh below => ?_⟩
  · rw [OrderBookManager.getBook, trimmed] at returned
    obtain ⟨st, reached, rfl⟩ := Option.map_eq_some_iff.mp returned
    exact warned.adoptedBelow beyond reached fresh below
  · have keyed : revealed.Keyed := OrderBookManager.keyed_step _ _
      (OrderBookManager.keyed_final blank.keyed prior)
    obtain ⟨before, last, after, st, rfl, reached, trusted, copy⟩ :=
      OrderBookManager.fresh_delivery keyed delivered addressed fresh
    rw [copy] at below
    refine (warned.adoptedBelow (fun step member => ?_) reached trusted below).append after
    exact beyond step (List.mem_append_left _ member)

/-! ## A loss hidden by a delayed block -/

namespace DelayedSnapshot

/-- Two updates of one bid. -/
def history : ExchangeHistory :=
  [.i081 [Builders.makeEntry '0' '0' 10315 4 1],
    .i081 [Builders.makeEntry '1' '0' 10315 9 1]]

/-- A channel that carries them at its first two positions. -/
def layout : ChannelLayout where
  own := fun position => position = 1 ∨ position = 2
  offset := 0
  channel := Builders.kRtChannel
  key := Builders.kProd

/-- The first update, the only one received. -/
def prior : List Step :=
  Builders.feedI081 (Builders.makeI081 Builders.kProd 1
    [Builders.makeEntry '0' '0' 10315 4 1] 1)

/-- The heartbeat that reveals the loss of the second update. -/
def heartbeat : RealtimeMessage :=
  .heartbeat (Builders.makeHeader '1' 2 Builders.kRtChannel)

/-- A carousel block that was generated before the second update. -/
def block : I084Product :=
  Builders.makeI084Product Builders.kProd 1
    [Builders.makeSnapshotEntry '0' 10315 4 1]

/-- The delayed arrival of the block. -/
def shown : List Step := Builders.feedI084 1 block

end DelayedSnapshot

/-- A truthful block that was generated before a revealed loss makes the product
fresh below the lost serial. -/
theorem delayed_block_hides_loss :
    let revealed := OrderBookManager.step.final {}
      (DelayedSnapshot.prior ++ DelayedSnapshot.heartbeat.steps)
    DelayedSnapshot.block.Truthful DelayedSnapshot.history ∧
      DelayedSnapshot.layout.own 2 = true ∧
      DelayedSnapshot.layout.serialAt 2 = 2 ∧
      (revealed.getBook Builders.kProd).map OrderBook.isStale = some true ∧
      ((OrderBookManager.step.final revealed DelayedSnapshot.shown).getBook
        Builders.kProd).map (fun book => (book.isStale, book.lastProdMsgSeq)) =
          some (false, 1) := by
  decide

/-- The run that hides the loss adopts a snapshot below the lost serial. -/
theorem loss_hidden_only_by_adopted_snapshot_delayed_block :
    AdoptedBelow Builders.kProd 2
      (OrderBookManager.step.final {}
        (DelayedSnapshot.prior ++ DelayedSnapshot.heartbeat.steps))
      DelayedSnapshot.shown := by
  have tracker : (OrderBookManager.step.final {} DelayedSnapshot.prior).channelAt
      DelayedSnapshot.layout.channel =
        some { lastSeq := 1, isSnapshotChannel := false } := by decide
  have elsewhere : ∀ event ∈ DelayedSnapshot.shown.map ChannelEvent.elsewhere,
      event.Conforms DelayedSnapshot.layout := by
    intro event member
    simp only [DelayedSnapshot.shown, Builders.feedI084, List.map_cons, List.map_nil,
      List.mem_cons, List.not_mem_nil, or_false] at member
    rcases member with rfl | rfl
    · refine ⟨by decide, ?_, ?_⟩
      · intro received equal
        cases equal
        decide
      · intro prodId said carries
        cases carries
    · refine ⟨rfl, ?_, ?_⟩
      · intro received equal
        cases equal
      · intro prodId said carries _
        cases carries
        rfl
  have conforms : (ChannelEvent.receive DelayedSnapshot.heartbeat []).Conforms
      DelayedSnapshot.layout := by
    refine ⟨⟨rfl, rfl, ?_, ?_⟩, by simp⟩
    · intro impossible
      cases impossible
    · intro prodId said carries
      cases carries
  obtain ⟨st, reached, facts⟩ := (Option.any_eq_true
    (fun book : OrderBook => !book.isStale ∧ book.lastProdMsgSeq.toNat < 2) _).mp
    (show ((OrderBookManager.step.final
      (OrderBookManager.step.final {}
        (DelayedSnapshot.prior ++ DelayedSnapshot.heartbeat.steps))
      DelayedSnapshot.shown).getBook Builders.kProd).any _ = true by decide)
  simp only [Bool.not_eq_true', decide_eq_true_eq] at facts
  exact (loss_hidden_only_by_adopted_snapshot DelayedSnapshot.layout {}
    OrderBookManager.blank_new DelayedSnapshot.prior _ tracker rfl
    DelayedSnapshot.heartbeat [] conforms 2 (by decide)
    (DelayedSnapshot.shown.map ChannelEvent.elsewhere) elsewhere
    trivial DelayedSnapshot.shown [] rfl).1 Builders.kProd st (by decide) reached
    facts.1 facts.2

end TaifexResolver
