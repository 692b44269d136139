import TaifexResolver.Foundation.Substream
import TaifexResolver.Staleness.Realtime

/-!
# Receiving one realtime channel

A sender numbers the messages of a channel consecutively and lays a product's own
messages out among them, with consecutive serials.  A receiver takes some of
them, while other channels and products go on in between.  This module states
what such a reception is and proves the invariant that ties the product's flags
to what has been received.
-/

namespace TaifexResolver

/-- A channel as its sender lays it out, seen from one product. -/
structure ChannelLayout extends Substream where
  channel : UInt16
  key : ProdKey

/-- A message that carries something for a product. -/
def RealtimeMessage.IsFor (key : ProdKey) (message : RealtimeMessage) : Prop :=
  ∃ prodId said, message.carried = some (prodId, said) ∧ prodId.key = key

theorem RealtimeMessage.IsFor.not_isHeartbeat
    {key : ProdKey}
    {message : RealtimeMessage}
    (own : message.IsFor key) :
    message.isHeartbeat = false := by
  obtain ⟨prodId, said, carries, _⟩ := own
  by_contra heartbeat
  rw [carried_eq_none_of_isHeartbeat (Bool.eq_true_of_not_eq_false heartbeat)]
    at carries
  cases carries

/-- A message at the place its channel's layout gives it: the positions marked as
own carry the product's messages, with the serial of the position, and the other
ones do not.  A heartbeat takes no place. -/
structure RealtimeMessage.Conforms
    (layout : ChannelLayout)
    (message : RealtimeMessage) : Prop where
  channel : message.header.channelId = layout.channel
  kinded : message.Kinded
  own : message.isHeartbeat = false →
    (layout.own message.position = true ↔ message.IsFor layout.key)
  serial : ∀ prodId said, message.carried = some (prodId, said) →
    prodId.key = layout.key →
    said.serial.toNat = layout.serialAt message.position

/-- A step of other channels and products: any header of another channel but a
reset, any message of another product, and snapshots of the product. -/
structure Step.Elsewhere (layout : ChannelLayout) (step : Step) : Prop where
  notReset : step.isReset = false
  channel : ∀ received, step = .header received →
    received.channelId ≠ layout.channel
  onlySnapshots : ∀ prodId said, step.message = some (prodId, said) →
    prodId.key = layout.key → said.isSnapshot = true

/-- What happens while a channel is received: a message arrives, with other steps
between its header and its typed feed, or another step happens. -/
inductive ChannelEvent
  | receive (message : RealtimeMessage) (meanwhile : List Step)
  | elsewhere (step : Step)

namespace ChannelEvent

/-- The critical sections of an event. -/
def steps : ChannelEvent → List Step
  | .receive message meanwhile =>
      .header message.header :: (meanwhile ++ message.feed.toList)
  | .elsewhere step => [step]

/-- An event that agrees with the layout of the channel. -/
def Conforms (layout : ChannelLayout) : ChannelEvent → Prop
  | .receive message meanwhile =>
      message.Conforms layout ∧ ∀ step ∈ meanwhile, step.Elsewhere layout
  | .elsewhere step => step.Elsewhere layout

end ChannelEvent

/-- The critical sections of some events. -/
def stepsOf (events : List ChannelEvent) : List Step :=
  events.flatMap ChannelEvent.steps

/-- A message other than a heartbeat was received at a position. -/
def ReceivedAt (events : List ChannelEvent) (position : Nat) : Prop :=
  ∃ message meanwhile, ChannelEvent.receive message meanwhile ∈ events ∧
    message.isHeartbeat = false ∧ message.position = position

/-- No step adopts a snapshot of the product: whatever is offered is older than
the live book. -/
def NoAdoption (key : ProdKey) : OrderBookManager → List Step → Prop
  | _, [] => True
  | manager, step :: rest =>
      (∀ prodId said, step.message = some (prodId, said) → prodId.key = key →
        said.isSnapshot = true →
        ¬said.Accepted ((manager.productAt key).getD
          (ProductAction.newborn prodId))) ∧
      NoAdoption key (manager.step step).1 rest

theorem noAdoption_append
    {key : ProdKey}
    {manager : OrderBookManager}
    {first second : List Step} :
    NoAdoption key manager (first ++ second) ↔
      NoAdoption key manager first ∧
        NoAdoption key (OrderBookManager.step.final manager first) second := by
  induction first generalizing manager with
  | nil => simp [NoAdoption]
  | cons step rest inductionHypothesis =>
      simp only [List.cons_append, NoAdoption, inductionHypothesis, and_assoc]
      rfl

/-! ## The product and the tracker between two messages -/

/-- The product and the tracker of its channel in a state. -/
structure Observed
    (layout : ChannelLayout)
    (manager : OrderBookManager)
    (st : ProductState)
    (channel : ChannelState) : Prop where
  product : manager.productAt layout.key = some st
  tracker : manager.channelAt layout.channel = some channel

/-- A product that may have become suspect, but nothing else. -/
structure Shaken (before after : ProductState) : Prop where
  book : after.book = before.book
  synced : after.synced = before.synced
  stale : before.isStale = true → after.isStale = true

namespace Shaken

variable {first second third : ProductState}

theorem refl (st : ProductState) : Shaken st st := ⟨rfl, rfl, id⟩

theorem trans (former : Shaken first second) (latter : Shaken second third) :
    Shaken first third :=
  ⟨latter.book.trans former.book, latter.synced.trans former.synced,
    fun stale => latter.stale (former.stale stale)⟩

theorem lastSerial (shaken : Shaken first second) :
    second.lastSerial = first.lastSerial := by
  rw [ProductState.lastSerial, shaken.book, ProductState.lastSerial]

theorem fresh (shaken : Shaken first second) (fresh : second.isStale = false) :
    first.isStale = false := by
  by_contra stale
  rw [shaken.stale (Bool.eq_true_of_not_eq_false stale)] at fresh
  cases fresh

/-- A sweep shakes a product and leaves it stale. -/
theorem sweep (st : ProductState) :
    Shaken st { st with suspect := st.suspect || st.synced } := by
  refine ⟨rfl, rfl, fun stale => ?_⟩
  cases st.synced <;> simp [ProductState.isStale]

end Shaken

theorem isStale_sweep (st : ProductState) :
    ({ st with suspect := st.suspect || st.synced } : ProductState).isStale = true := by
  cases st.synced <;> simp [ProductState.isStale]

section Steps

variable {layout : ChannelLayout} {manager : OrderBookManager} {st : ProductState}
  {channel : ChannelState}

/-- What a header does to the product of its own or of another channel. -/
theorem productAt_step_header
    {received : Header}
    (notReset : received.messageKind ≠ '2'.toUInt8)
    (present : manager.productAt layout.key = some st) :
    ∃ after, (manager.step (.header received)).1.productAt layout.key = some after ∧
      Shaken st after ∧
      (ChannelState.RevealsGap (manager.channelAt received.channelId) received →
        after.isStale = true) := by
  rw [OrderBookManager.productAt_step, present]
  simp only [Step.actionOn, Step.message, Step.isReset, decide_eq_true_eq,
    if_neg notReset]
  split
  · rw [ProductAction.apply_suspect]
    exact ⟨_, rfl, Shaken.sweep st, fun _ => isStale_sweep st⟩
  · next quiet => exact ⟨st, rfl, Shaken.refl st, fun reveals => absurd reveals quiet⟩

/-- Step lemma: a step elsewhere shakes the product and leaves the tracker. -/
theorem Observed.elsewhere
    {step : Step}
    (observed : Observed layout manager st channel)
    (elsewhere : step.Elsewhere layout)
    (noAdoption : NoAdoption layout.key manager [step]) :
    ∃ after, Observed layout (manager.step step).1 after channel ∧
      Shaken st after := by
  rcases step.kinds with
    ⟨prodId, said, carries, _⟩ | ⟨_, resets⟩ | ⟨received, rfl, notReset⟩
  · refine ⟨st, ⟨?_, ?_⟩, Shaken.refl st⟩
    · by_cases same : prodId.key = layout.key
      · have refused := noAdoption.1 prodId said carries same
          (elsewhere.onlySnapshots prodId said carries same)
        rw [observed.product, Option.getD_some] at refused
        rw [← same, OrderBookManager.productAt_step_own _ carries,
          OrderBookManager.getOrCreateLocked_eq, same, observed.product,
          Option.getD_some, ProductMessage.body_refused prodId refused]
      · rw [OrderBookManager.productAt_step_other _ carries same]
        exact observed.product
    · rw [OrderBookManager.channelAt_step_of_message _ carries]
      exact observed.tracker
  · rw [elsewhere.notReset] at resets
    cases resets
  · obtain ⟨after, present, shaken, _⟩ :=
      productAt_step_header notReset observed.product
    refine ⟨after, ⟨present, ?_⟩, shaken⟩
    rw [OrderBookManager.channelAt_step_header _ notReset,
      if_neg (elsewhere.channel received rfl)]
    exact observed.tracker

/-- Run lemma for steps elsewhere. -/
theorem Observed.elsewhere_run
    {steps : List Step}
    (observed : Observed layout manager st channel)
    (elsewhere : ∀ step ∈ steps, step.Elsewhere layout)
    (noAdoption : NoAdoption layout.key manager steps) :
    ∃ after,
      Observed layout (OrderBookManager.step.final manager steps) after channel ∧
        Shaken st after := by
  induction steps generalizing manager st with
  | nil => exact ⟨st, observed, Shaken.refl st⟩
  | cons step rest inductionHypothesis =>
      obtain ⟨middle, observedMiddle, shakenMiddle⟩ :=
        observed.elsewhere (elsewhere step (by simp)) ⟨noAdoption.1, trivial⟩
      obtain ⟨after, observedAfter, shakenAfter⟩ := inductionHypothesis observedMiddle
        (fun later member => elsewhere later (List.mem_cons_of_mem _ member))
        noAdoption.2
      exact ⟨after, observedAfter, shakenMiddle.trans shakenAfter⟩

/-- Step lemma: a message of the product runs its body and leaves the tracker. -/
theorem Observed.feed
    {step : Step}
    {prodId : ProdIdText}
    {said : ProductMessage}
    (observed : Observed layout manager st channel)
    (carries : step.message = some (prodId, said))
    (same : prodId.key = layout.key) :
    Observed layout (manager.step step).1 (said.body prodId st).1 channel := by
  refine ⟨?_, ?_⟩
  · rw [← same, OrderBookManager.productAt_step_own _ carries,
      OrderBookManager.getOrCreateLocked_eq, same, observed.product]
    rfl
  · rw [OrderBookManager.channelAt_step_of_message _ carries]
    exact observed.tracker

/-- Step lemma: a header of the channel advances the tracker to its position and
leaves the product stale when it reveals a gap. -/
theorem Observed.header
    {message : RealtimeMessage}
    (observed : Observed layout manager st channel)
    (realtime : channel.isSnapshotChannel = false)
    (conforms : message.Conforms layout) :
    ∃ after advanced,
      Observed layout (manager.step (.header message.header)).1 after advanced ∧
        Shaken st after ∧
        advanced.isSnapshotChannel = false ∧
        advanced.lastSeq.toNat = max channel.lastSeq.toNat message.position ∧
        ((if message.isHeartbeat then channel.lastSeq.toNat < message.position
          else channel.lastSeq.toNat + 1 < message.position) →
            after.isStale = true) := by
  have notReset := conforms.kinded.not_reset
  have notCarousel := conforms.kinded.not_carousel
  have found : manager.channelAt message.header.channelId = some channel := by
    rw [conforms.channel]
    exact observed.tracker
  obtain ⟨after, present, shaken, revealed⟩ :=
    productAt_step_header notReset observed.product
  refine ⟨after, ChannelState.advance (some channel) message.header,
    ⟨present, ?_⟩, shaken, ?_, ?_, fun gap => revealed ?_⟩
  · rw [OrderBookManager.channelAt_step_header _ notReset, if_pos conforms.channel,
      ← conforms.channel, found]
  · simp [ChannelState.advance, realtime, notCarousel]
  · exact ChannelState.toNat_lastSeq_advance_some channel message.header
  · rw [found, ChannelState.revealsGap_some]
    refine ⟨realtime, notCarousel, ?_⟩
    cases heartbeat : message.isHeartbeat with
    | true =>
        rw [if_pos (conforms.kinded.heartbeat_iff.mpr heartbeat)]
        simpa [heartbeat, RealtimeMessage.position] using gap
    | false =>
        rw [if_neg (by simp [conforms.kinded.heartbeat_iff, heartbeat])]
        simpa [heartbeat, RealtimeMessage.position] using gap

end Steps

/-! ## The invariant -/

/-- What the product's fields say about the positions received so far, given the
highest position its channel's tracker knows of. -/
structure Keeps
    (layout : ChannelLayout)
    (got : Nat → Prop)
    (last : Nat)
    (st : ProductState) : Prop where
  bound : st.lastSerial ≤ layout.serialAt last
  /-- Before its first message, the chain of a product is the empty one. -/
  zero : st.lastSerial = 0 → st.synced = true
  newest : ∀ position, layout.own position = true → got position →
    layout.serialAt position ≤ st.lastSerial
  chain : st.synced = true → ∀ position, layout.own position = true →
    layout.serialAt position ≤ st.lastSerial → got position
  exact : st.isStale = false → st.lastSerial = layout.serialAt last

namespace Keeps

variable {layout : ChannelLayout} {got : Nat → Prop} {last : Nat}
  {st shakenSt : ProductState}

/-- A fresh product has received everything of its own that the tracker knows
of. -/
theorem complete
    (keeps : Keeps layout got last st)
    (fresh : st.isStale = false)
    {position : Nat}
    (own : layout.own position = true)
    (known : position ≤ last) :
    got position := by
  have synced := (st.isStale_eq_false_iff.mp fresh).1
  apply keeps.chain synced position own
  rw [keeps.exact fresh]
  exact Substream.serialAt_mono known

/-- The invariant only looks at own positions. -/
theorem congr
    {other : Nat → Prop}
    (keeps : Keeps layout got last st)
    (agree : ∀ position, layout.own position = true →
      (got position ↔ other position)) :
    Keeps layout other last st where
  bound := keeps.bound
  zero := keeps.zero
  newest := fun position own received =>
    keeps.newest position own ((agree position own).mpr received)
  chain := fun synced position own known =>
    (agree position own).mp (keeps.chain synced position own known)
  exact := keeps.exact

/-- Step lemma for a message that brings the product nothing: it must leave the
product stale when the positions it reveals hold something of its own. -/
theorem pass
    (keeps : Keeps layout got last st)
    (shaken : Shaken st shakenSt)
    {next : Nat}
    (later : last ≤ next)
    (quiet : shakenSt.isStale = false →
      layout.serialAt next = layout.serialAt last) :
    Keeps layout got next shakenSt where
  bound := by
    rw [shaken.lastSerial]
    exact keeps.bound.trans (Substream.serialAt_mono later)
  zero := by
    rw [shaken.lastSerial, shaken.synced]
    exact keeps.zero
  newest := by
    rw [shaken.lastSerial]
    exact keeps.newest
  chain := by
    rw [shaken.lastSerial, shaken.synced]
    exact keeps.chain
  exact := by
    intro fresh
    rw [shaken.lastSerial, quiet fresh]
    exact keeps.exact (shaken.fresh fresh)

/-- Step lemma for an own message that the product refuses. -/
theorem refused
    (keeps : Keeps layout got last st)
    (shaken : Shaken st shakenSt)
    {position : Nat}
    (own : layout.own position = true)
    (old : layout.serialAt position ≤ st.lastSerial) :
    Keeps layout (fun other => got other ∨ other = position)
      (max last position) shakenSt := by
  have known : position ≤ last :=
    Substream.le_of_serialAt_le own (old.trans keeps.bound)
  rw [max_eq_left known]
  have kept := keeps.pass shaken le_rfl fun _ => rfl
  refine ⟨kept.bound, kept.zero, ?_, fun synced other otherOwn le => ?_, kept.exact⟩
  · rintro other otherOwn (received | rfl)
    · exact kept.newest other otherOwn received
    · rw [shaken.lastSerial]
      exact old
  · exact Or.inl (kept.chain synced other otherOwn le)

/-- Step lemma for an own message that the product accepts.  A late one must not
vouch for a product that misses something sent after it. -/
theorem accepted
    (keeps : Keeps layout got last st)
    (shaken : Shaken st shakenSt)
    {position : Nat}
    (own : layout.own position = true)
    {prodId : ProdIdText}
    {said : ProductMessage}
    (serial : said.serial.toNat = layout.serialAt position)
    (notSnapshot : said.isSnapshot = false)
    (newer : st.lastSerial < layout.serialAt position)
    (safe : position ≤ last → st.synced = true →
      layout.serialAt position = st.lastSerial + 1 →
      ∀ later, position < later → later ≤ last → layout.own later = false) :
    Keeps layout (fun other => got other ∨ other = position)
      (max last position) (said.body prodId shakenSt).1 := by
  have takes : said.Accepted shakenSt := by
    apply Or.inr
    rw [notSnapshot, shaken.lastSerial, serial]
    exact newer
  obtain ⟨serialAfter, syncedAfter, suspectAfter, _⟩ :=
    ProductMessage.body_accepted prodId takes
  rw [serial] at serialAfter
  -- A chain that is proven afterwards was proven before and has not skipped.
  have continues : (said.body prodId shakenSt).1.synced = true →
      st.synced = true ∧ layout.serialAt position = st.lastSerial + 1 := by
    intro synced
    rw [syncedAfter] at synced
    obtain ⟨contiguous, proven⟩ := ProductMessage.chain_of_syncedAfter notSnapshot synced
    rw [serial, shaken.lastSerial] at contiguous
    rw [shaken.synced, shaken.lastSerial] at proven
    exact ⟨proven.elim id keeps.zero, contiguous⟩
  refine ⟨?_, fun zero => ?_, ?_, fun synced other otherOwn le => ?_, fun fresh => ?_⟩
  · rw [serialAfter]
    exact Substream.serialAt_mono (le_max_right last position)
  · have positive : 1 ≤ layout.serialAt position := Substream.serialAt_pos_of_own own
    omega
  · rintro other otherOwn (received | rfl)
    · rw [serialAfter]
      exact (keeps.newest other otherOwn received).trans newer.le
    · exact serialAfter.ge
  · obtain ⟨proven, contiguous⟩ := continues synced
    rw [serialAfter] at le
    by_cases same : layout.serialAt other = layout.serialAt position
    · exact Or.inr (Substream.eq_of_serialAt_eq otherOwn own same)
    · exact Or.inl (keeps.chain proven other otherOwn (by omega))
  · obtain ⟨proven, contiguous⟩ :=
      continues (ProductState.isStale_eq_false_iff _ |>.mp fresh).1
    rw [serialAfter]
    rcases Nat.lt_or_ge last position with new | late
    · rw [max_eq_right new.le]
    · rw [max_eq_left late]
      exact (Substream.serialAt_eq_of_none late
        (safe late proven contiguous)).symm

end Keeps
/-! ## One event -/

namespace ChannelEvent

/-- The highest position known after an event. -/
def reach (last : Nat) : ChannelEvent → Nat
  | .receive message _ => max last message.position
  | .elsewhere _ => last

/-- An event that cannot vouch for a product that misses something: when a late
own message carries the successor of the last serial of a product whose chain is
unbroken, nothing of the product was sent between it and the highest known
position. -/
def SafeAt
    (layout : ChannelLayout)
    (manager : OrderBookManager) : ChannelEvent → Prop
  | .receive message _ => ∀ st channel, Observed layout manager st channel →
      message.IsFor layout.key → message.position ≤ channel.lastSeq.toNat →
      st.synced = true →
      layout.serialAt message.position = st.lastSerial + 1 →
      ∀ later, message.position < later → later ≤ channel.lastSeq.toNat →
        layout.own later = false
  | .elsewhere _ => True

end ChannelEvent

theorem receivedAt_elsewhere (step : Step) (position : Nat) :
    ¬ReceivedAt [.elsewhere step] position := by
  rintro ⟨message, meanwhile, member, _⟩
  cases List.mem_singleton.mp member

theorem receivedAt_receive
    (message : RealtimeMessage)
    (meanwhile : List Step)
    (position : Nat) :
    ReceivedAt [.receive message meanwhile] position ↔
      message.isHeartbeat = false ∧ message.position = position := by
  constructor
  · rintro ⟨other, _, member, notHeartbeat, place⟩
    cases List.mem_singleton.mp member
    exact ⟨notHeartbeat, place⟩
  · rintro ⟨notHeartbeat, place⟩
    exact ⟨message, meanwhile, List.mem_singleton_self _, notHeartbeat, place⟩

section Events

variable {layout : ChannelLayout} {manager : OrderBookManager} {st : ProductState}
  {channel : ChannelState} {got : Nat → Prop}

/-- A received message is its header with what happens meanwhile, then its typed
feed. -/
theorem final_receive
    (manager : OrderBookManager)
    (message : RealtimeMessage)
    (meanwhile : List Step) :
    OrderBookManager.step.final manager
        (ChannelEvent.receive message meanwhile).steps =
      OrderBookManager.step.final
        (OrderBookManager.step.final manager (.header message.header :: meanwhile))
        message.feed.toList := by
  rw [← Machine.final_append]
  rfl

/-- A message between its header and its typed feed. -/
theorem observed_before_feed
    {message : RealtimeMessage}
    {meanwhile : List Step}
    (observed : Observed layout manager st channel)
    (realtime : channel.isSnapshotChannel = false)
    (conforms : message.Conforms layout)
    (elsewhere : ∀ step ∈ meanwhile, step.Elsewhere layout)
    (noAdoption : NoAdoption layout.key
      (manager.step (.header message.header)).1 meanwhile) :
    ∃ after advanced,
      Observed layout
        (OrderBookManager.step.final manager (.header message.header :: meanwhile))
        after advanced ∧
        Shaken st after ∧
        advanced.isSnapshotChannel = false ∧
        advanced.lastSeq.toNat = max channel.lastSeq.toNat message.position ∧
        ((if message.isHeartbeat then channel.lastSeq.toNat < message.position
          else channel.lastSeq.toNat + 1 < message.position) →
            after.isStale = true) := by
  obtain ⟨middle, advanced, observedMiddle, shakenMiddle, stillRealtime, reach,
    revealed⟩ := observed.header realtime conforms
  obtain ⟨after, observedAfter, shakenAfter⟩ :=
    observedMiddle.elsewhere_run elsewhere noAdoption
  exact ⟨after, advanced, observedAfter, shakenMiddle.trans shakenAfter,
    stillRealtime, reach, fun gap => shakenAfter.stale (revealed gap)⟩

/-- A typed feed for another product, or none, leaves the product alone. -/
private theorem observed_feed_other
    {message : RealtimeMessage}
    (observed : Observed layout manager st channel)
    (notOwn : ¬message.IsFor layout.key) :
    Observed layout (OrderBookManager.step.final manager message.feed.toList)
      st channel := by
  cases fed : message.feed with
  | none => exact observed
  | some feed =>
      obtain ⟨prodId, said, carries, messageCarries⟩ :=
        RealtimeMessage.message_of_feed fed
      have different : prodId.key ≠ layout.key := fun same =>
        notOwn ⟨prodId, said, messageCarries, same⟩
      refine ⟨?_, ?_⟩
      · change (manager.step feed).1.productAt layout.key = some st
        rw [OrderBookManager.productAt_step_other _ carries different]
        exact observed.product
      · change (manager.step feed).1.channelAt layout.channel = some channel
        rw [OrderBookManager.channelAt_step_of_message _ carries]
        exact observed.tracker

/-- Step lemma for the typed feed of an own message. -/
private theorem observed_feed_own
    {message : RealtimeMessage}
    {last : Nat}
    {before : ProductState}
    (observed : Observed layout manager before channel)
    (conforms : message.Conforms layout)
    (keeps : Keeps layout got last st)
    (shaken : Shaken st before)
    (own : message.IsFor layout.key)
    (noAdoption : NoAdoption layout.key manager message.feed.toList)
    (safe : message.position ≤ last → st.synced = true →
      layout.serialAt message.position = st.lastSerial + 1 →
      ∀ later, message.position < later → later ≤ last →
        layout.own later = false) :
    ∃ after,
      Observed layout (OrderBookManager.step.final manager message.feed.toList)
        after channel ∧
        Keeps layout (fun other => got other ∨ other = message.position)
          (max last message.position) after := by
  have ownPosition : layout.own message.position = true :=
    (conforms.own own.not_isHeartbeat).mpr own
  obtain ⟨prodId, said, carries, same⟩ := own
  have serial := conforms.serial prodId said carries same
  obtain ⟨feed, fed, feedCarries⟩ := Option.bind_eq_some_iff.mp carries
  rw [fed, Option.toList_some] at noAdoption ⊢
  refine ⟨_, observed.feed feedCarries same, ?_⟩
  by_cases takes : said.Accepted before
  · have notSnapshot : said.isSnapshot = false := by
      by_contra snapshot
      refine noAdoption.1 prodId said feedCarries same
        (Bool.eq_true_of_not_eq_false snapshot) ?_
      rw [observed.product, Option.getD_some]
      exact takes
    refine keeps.accepted shaken ownPosition serial notSnapshot ?_ safe
    have positive : 1 ≤ layout.serialAt message.position :=
      Substream.serialAt_pos_of_own ownPosition
    rw [ProductMessage.Accepted, shaken.lastSerial, notSnapshot, serial] at takes
    rcases takes with zero | newer
    · omega
    · exact newer
  · rw [ProductMessage.body_refused prodId takes]
    apply keeps.refused shaken ownPosition
    rw [ProductMessage.Accepted, shaken.lastSerial, serial] at takes
    split at takes <;> omega

/-- Step lemma: an event keeps the invariant, with its message received. -/
theorem Keeps.event
    {event : ChannelEvent}
    (observed : Observed layout manager st channel)
    (realtime : channel.isSnapshotChannel = false)
    (keeps : Keeps layout got channel.lastSeq.toNat st)
    (conforms : event.Conforms layout)
    (noAdoption : NoAdoption layout.key manager event.steps)
    (safe : event.SafeAt layout manager) :
    ∃ after advanced,
      Observed layout (OrderBookManager.step.final manager event.steps)
        after advanced ∧
        advanced.isSnapshotChannel = false ∧
        advanced.lastSeq.toNat = event.reach channel.lastSeq.toNat ∧
        Keeps layout (fun position => got position ∨ ReceivedAt [event] position)
          advanced.lastSeq.toNat after := by
  cases event with
  | elsewhere step =>
      obtain ⟨after, observedAfter, shaken⟩ :=
        observed.elsewhere conforms noAdoption
      refine ⟨after, channel, observedAfter, realtime, rfl, ?_⟩
      refine (keeps.pass shaken le_rfl fun _ => rfl).congr fun position _ => ?_
      simp [receivedAt_elsewhere]
  | receive message meanwhile =>
      obtain ⟨messageConforms, elsewhere⟩ := conforms
      obtain ⟨_, noAdoptionAfterHeader⟩ := noAdoption
      obtain ⟨noAdoptionMeanwhile, noAdoptionFeed⟩ :=
        noAdoption_append.mp noAdoptionAfterHeader
      obtain ⟨before, advanced, observedBefore, shaken, stillRealtime, reach,
        revealed⟩ := observed_before_feed observed realtime messageConforms
          elsewhere noAdoptionMeanwhile
      rw [final_receive]
      by_cases own : message.IsFor layout.key
      · obtain ⟨after, observedAfter, keepsAfter⟩ :=
          observed_feed_own observedBefore messageConforms keeps shaken own
            noAdoptionFeed fun late synced contiguous =>
              safe st channel observed own late synced contiguous
        refine ⟨after, advanced, observedAfter, stillRealtime, reach, ?_⟩
        rw [reach]
        apply keepsAfter.congr
        intro position ownPosition
        rw [receivedAt_receive, eq_comm]
        simp [own.not_isHeartbeat]
      · refine ⟨before, advanced, observed_feed_other observedBefore own,
          stillRealtime, reach, ?_⟩
        have notOwn : message.isHeartbeat = false →
            layout.own message.position = false := fun notHeartbeat =>
          Bool.eq_false_iff.mpr (mt (messageConforms.own notHeartbeat).mp own)
        rw [reach]
        refine (keeps.pass shaken (le_max_left _ _) fun fresh => ?_).congr
          fun position ownPosition => ?_
        · have noGap := mt revealed (by simp [fresh])
          cases heartbeat : message.isHeartbeat with
          | true =>
              rw [max_eq_left]
              simpa [heartbeat] using noGap
          | false =>
              simp only [heartbeat, Bool.false_eq_true, if_false] at noGap
              apply Substream.serialAt_eq_of_none (le_max_left _ _)
              intro position after upTo
              rw [show position = message.position by omega]
              exact notOwn heartbeat
        · rw [receivedAt_receive]
          refine ⟨Or.inl, fun received => received.resolve_right ?_⟩
          rintro ⟨notHeartbeat, rfl⟩
          rw [notOwn notHeartbeat] at ownPosition
          cases ownPosition

end Events
end TaifexResolver
