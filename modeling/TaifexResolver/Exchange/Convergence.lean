import TaifexResolver.Exchange.Soundness
import TaifexResolver.Foundation.Interleaving
import TaifexResolver.OrderBook.Builders
import TaifexResolver.Staleness.Realtime

/-!
# Two concurrent feeds

A realtime feed that delivers every message of its channel, next to a snapshot
feed that delivers truthful blocks in any order, raises no false alarm and ends
with the exchange's book.
-/

namespace TaifexResolver

/-- A realtime feed delivers one channel in order and without loss: positions
follow each other, a heartbeat repeats the latest one, and the product's messages
are the history's, from the serial after a given one on, to the end. -/
def DeliversAll
    (history : ExchangeHistory)
    (key : ProdKey)
    (channel : UInt16) :
    Option Nat → Nat → List RealtimeMessage → Prop
  | _, serial, [] => serial = history.length
  | previous, serial, message :: rest =>
      message.header.channelId = channel ∧ message.Kinded ∧
      (∀ last ∈ previous,
        message.position = if message.isHeartbeat then last else last + 1) ∧
      (match message.carried with
      | some (prodId, said) =>
          if prodId.key = key then
            said.serial.toNat = serial + 1 ∧
            (∀ step ∈ message.feed, step.Truthful history key) ∧
            DeliversAll history key channel (some message.position) (serial + 1) rest
          else DeliversAll history key channel (some message.position) serial rest
      | none => DeliversAll history key channel (some message.position) serial rest)

instance decidableDeliversAll
    (history : ExchangeHistory)
    (key : ProdKey)
    (channel : UInt16)
    (previous : Option Nat)
    (serial : Nat) :
    (messages : List RealtimeMessage) →
      Decidable (DeliversAll history key channel previous serial messages)
  | [] => inferInstanceAs (Decidable (serial = history.length))
  | message :: rest =>
      have := fun previous serial =>
        decidableDeliversAll history key channel previous serial rest
      by
        unfold DeliversAll
        rcases message.carried with _ | ⟨prodId, said⟩ <;> infer_instance

/-- A packet of the snapshot carousel, on another channel, whose blocks for the
product list the exchange's book at the serial they carry. -/
structure I084Packet.OnCarousel
    (history : ExchangeHistory)
    (key : ProdKey)
    (realtimeChannel : UInt16)
    (pkt : I084Packet) : Prop where
  kind : pkt.header.messageKind = 'C'.toUInt8
  channel : pkt.header.channelId ≠ realtimeChannel
  truthful : pkt.messageType = 'O'.toUInt8 →
    ∀ prod ∈ pkt.products, prod.prodId.key = key → prod.Truthful history

/-- `on_header`, then one critical section for each product block. -/
def I084Packet.steps (pkt : I084Packet) : List Step :=
  .header pkt.header :: pkt.blocks

/-- A step of the snapshot feed. -/
inductive Step.FromCarousel
    (history : ExchangeHistory)
    (key : ProdKey)
    (realtimeChannel : UInt16) : Step → Prop
  | header
      {received : Header}
      (kind : received.messageKind = 'C'.toUInt8)
      (channel : received.channelId ≠ realtimeChannel) :
      FromCarousel history key realtimeChannel (.header received)
  | block
      {received : Header}
      {prod : I084Product}
      (truthful : prod.prodId.key = key → prod.Truthful history) :
      FromCarousel history key realtimeChannel (.i084Product received prod)

theorem Step.FromCarousel.not_reset
    {history : ExchangeHistory}
    {key : ProdKey}
    {realtimeChannel : UInt16}
    {step : Step}
    (carousel : step.FromCarousel history key realtimeChannel) :
    step.isReset = false := by
  cases carousel with
  | header kind _ =>
      rw [Step.isReset, kind]
      decide
  | block _ => rfl

theorem I084Packet.OnCarousel.fromCarousel
    {history : ExchangeHistory}
    {key : ProdKey}
    {realtimeChannel : UInt16}
    {pkt : I084Packet}
    (onCarousel : pkt.OnCarousel history key realtimeChannel) :
    ∀ step ∈ pkt.steps, step.FromCarousel history key realtimeChannel := by
  intro step member
  rcases List.mem_cons.mp member with rfl | block
  · exact .header onCarousel.kind onCarousel.channel
  · unfold blocks at block
    split at block
    · next content =>
        obtain ⟨prod, listed, rfl⟩ := List.mem_map.mp block
        exact .block (onCarousel.truthful content prod listed)
    · cases block

/-- What is left of the realtime feed, step by step: the channel's position, the
serial reached, and the steps to come. -/
inductive Remaining
    (history : ExchangeHistory)
    (key : ProdKey)
    (channel : UInt16) : Option Nat → Nat → List Step → Prop
  | done {previous : Option Nat} :
      Remaining history key channel previous history.length []
  | header
      {previous : Option Nat}
      {serial : Nat}
      {message : RealtimeMessage}
      {rest : List Step}
      (onChannel : message.header.channelId = channel)
      (kinded : message.Kinded)
      (follows : ∀ last ∈ previous,
        message.position = if message.isHeartbeat then last else last + 1)
      (left : Remaining history key channel (some message.position) serial rest) :
      Remaining history key channel previous serial (.header message.header :: rest)
  | own
      {previous : Option Nat}
      {serial : Nat}
      {step : Step}
      {prodId : ProdIdText}
      {said : ProductMessage}
      {rest : List Step}
      (carries : step.message = some (prodId, said))
      (same : prodId.key = key)
      (next : said.serial.toNat = serial + 1)
      (truthful : step.Truthful history key)
      (left : Remaining history key channel previous (serial + 1) rest) :
      Remaining history key channel previous serial (step :: rest)
  | other
      {previous : Option Nat}
      {serial : Nat}
      {step : Step}
      {prodId : ProdIdText}
      {said : ProductMessage}
      {rest : List Step}
      (carries : step.message = some (prodId, said))
      (different : prodId.key ≠ key)
      (left : Remaining history key channel previous serial rest) :
      Remaining history key channel previous serial (step :: rest)

theorem DeliversAll.remaining
    {history : ExchangeHistory}
    {key : ProdKey}
    {channel : UInt16}
    {previous : Option Nat}
    {serial : Nat}
    {messages : List RealtimeMessage}
    (delivers : DeliversAll history key channel previous serial messages) :
    Remaining history key channel previous serial
      (messages.flatMap RealtimeMessage.steps) := by
  induction messages generalizing previous serial with
  | nil =>
      rw [show serial = history.length from delivers]
      exact .done
  | cons message rest inductionHypothesis =>
      obtain ⟨onChannel, kinded, follows, product⟩ := delivers
      rw [List.flatMap_cons, RealtimeMessage.steps, List.cons_append]
      refine .header onChannel kinded follows ?_
      cases fed : message.feed with
      | none =>
          have silent : message.carried = none := by
            rw [RealtimeMessage.carried, fed]
            rfl
          rw [silent] at product
          exact inductionHypothesis product
      | some feed =>
          obtain ⟨prodId, said, carries, messageCarries⟩ :=
            RealtimeMessage.message_of_feed fed
          simp only [messageCarries] at product
          split at product
          · next same =>
              exact .own carries same product.1 (product.2.1 feed fed)
                (inductionHypothesis product.2.2)
          · next different =>
              exact .other carries different (inductionHypothesis product)

/-- The realtime feed never resets the manager. -/
theorem Remaining.not_reset
    {history : ExchangeHistory}
    {key : ProdKey}
    {channel : UInt16}
    {previous : Option Nat}
    {serial : Nat}
    {steps : List Step}
    (remaining : Remaining history key channel previous serial steps) :
    ∀ step ∈ steps, step.isReset = false := by
  induction remaining with
  | done => exact fun _ member => absurd member List.not_mem_nil
  | header _ kinded _ _ inductionHypothesis =>
      exact List.forall_mem_cons.mpr ⟨decide_eq_false kinded.not_reset, inductionHypothesis⟩
  | own carries _ _ _ _ inductionHypothesis | other carries _ _ inductionHypothesis =>
      exact List.forall_mem_cons.mpr
        ⟨Step.isReset_of_message carries, inductionHypothesis⟩

/-- The state of the manager while the realtime feed has steps left: the channel
is tracked to its position, and the product, once it appeared, is fresh, quotes
the history and has reached at least the feed's serial. -/
structure Converging
    (history : ExchangeHistory)
    (key : ProdKey)
    (channel : UInt16)
    (previous : Option Nat)
    (serial : Nat)
    (manager : OrderBookManager) : Prop where
  tracked : (manager.channelAt channel).map (fun found => found.lastSeq.toNat) =
    previous
  absent : manager.productAt key = none → serial = 0
  product : ∀ st, manager.productAt key = some st →
    st.isStale = false ∧ serial ≤ st.lastSerial ∧ Sound history st

namespace Converging

variable {history : ExchangeHistory} {key : ProdKey} {channel : UInt16}
  {previous : Option Nat} {serial : Nat} {manager : OrderBookManager}

theorem blank (blank : manager.Blank) :
    Converging history key channel none 0 manager := by
  refine ⟨?_, fun _ => rfl, fun st found => ?_⟩
  · rw [blank.channelAt]
    rfl
  · rw [blank.productAt] at found
    cases found

/-- The product only matters through its state. -/
theorem congr
    {position : Option Nat}
    {after : OrderBookManager}
    (converging : Converging history key channel previous serial manager)
    (tracked : (after.channelAt channel).map (fun found => found.lastSeq.toNat) =
      position)
    (unchanged : after.productAt key = manager.productAt key) :
    Converging history key channel position serial after :=
  ⟨tracked, unchanged ▸ converging.absent, unchanged ▸ converging.product⟩

/-- A header of the realtime channel that follows the latest one moves the
tracker and touches no product. -/
theorem header
    {message : RealtimeMessage}
    (converging : Converging history key channel previous serial manager)
    (onChannel : message.header.channelId = channel)
    (kinded : message.Kinded)
    (follows : ∀ last ∈ previous,
      message.position = if message.isHeartbeat then last else last + 1) :
    Converging history key channel (some message.position) serial
      (manager.step (.header message.header)).1 := by
  have tracked := converging.tracked
  have quiet : ¬ChannelState.RevealsGap
      (manager.channelAt message.header.channelId) message.header := by
    rintro ⟨found, present, _, _, reveals⟩
    rw [onChannel] at present
    rw [present] at tracked
    have position := follows found.lastSeq.toNat tracked.symm
    change message.header.channelSeq.toNat = _ at position
    simp only [kinded.heartbeat_iff] at reveals
    split at reveals
    · next heartbeat =>
        rw [if_pos heartbeat] at position
        omega
    · next notHeartbeat =>
        rw [if_neg notHeartbeat] at position
        omega
  refine converging.congr ?_
    (manager.productAt_step_quiet_header kinded.not_reset quiet key)
  rw [manager.channelAt_step_header kinded.not_reset, if_pos onChannel,
    Option.map_some, Option.some.injEq]
  cases found : manager.channelAt channel with
  | none => rfl
  | some before =>
      rw [found] at tracked
      have position := follows before.lastSeq.toNat tracked.symm
      rw [ChannelState.toNat_lastSeq_advance_some]
      change max _ message.position = message.position
      split at position <;> omega

/-- A message of the product keeps it fresh, provided that an increment does not
run ahead of the feed's serial. -/
theorem feed
    {step : Step}
    {prodId : ProdIdText}
    {said : ProductMessage}
    {reached : Nat}
    (converging : Converging history prodId.key channel previous serial manager)
    (carries : step.message = some (prodId, said))
    (truthful : step.Truthful history prodId.key)
    (notAhead : said.isSnapshot = false → said.serial.toNat ≤ serial + 1)
    (reach : reached ≤ max serial said.serial.toNat) :
    Converging history prodId.key channel previous reached
      (manager.step step).1 := by
  have quotes := truthful.quotes carries
  have before : ((manager.getOrCreateLocked prodId).isStale = false ∨
      (manager.getOrCreateLocked prodId).lastSerial = 0) ∧
      serial ≤ (manager.getOrCreateLocked prodId).lastSerial ∧
      Sound history (manager.getOrCreateLocked prodId) := by
    rw [OrderBookManager.getOrCreateLocked_eq]
    cases found : manager.productAt prodId.key with
    | none =>
        exact ⟨Or.inr rfl, Nat.le_of_eq (converging.absent found),
          Sound.newborn prodId⟩
    | some st =>
        obtain ⟨fresh, reaches, sound⟩ := converging.product st found
        exact ⟨Or.inl fresh, reaches, sound⟩
  obtain ⟨fresh, reaches, sound⟩ := before
  have lastSerial := said.lastSerial_body prodId
    (manager.getOrCreateLocked prodId)
  have stored := manager.productAt_step_own carries
  refine ⟨?_, fun found => ?_, fun st found => ?_⟩
  · rw [manager.channelAt_step_of_message carries]
    exact converging.tracked
  · rw [stored] at found
    cases found
  · rw [stored] at found
    cases found
    refine ⟨?_, by omega, sound.body prodId quotes⟩
    refine ProductMessage.isStale_body_eq_false prodId fresh quotes.positive
      fun increment => ?_
    have atMost := notAhead increment
    omega

/-- A message of another product changes nothing here. -/
theorem other
    {step : Step}
    {prodId : ProdIdText}
    {said : ProductMessage}
    (converging : Converging history key channel previous serial manager)
    (carries : step.message = some (prodId, said))
    (different : prodId.key ≠ key) :
    Converging history key channel previous serial (manager.step step).1 := by
  refine converging.congr ?_ (manager.productAt_step_other carries different)
  rw [manager.channelAt_step_of_message carries]
  exact converging.tracked

/-- A step of the snapshot feed keeps what the realtime feed has reached. -/
theorem fromCarousel
    {step : Step}
    (converging : Converging history key channel previous serial manager)
    (carousel : step.FromCarousel history key channel) :
    Converging history key channel previous serial (manager.step step).1 := by
  cases carousel with
  | @header received kind elsewhere =>
      have notReset : received.messageKind ≠ '2'.toUInt8 := by
        rw [kind]
        decide
      have quiet : ¬ChannelState.RevealsGap
          (manager.channelAt received.channelId) received := by
        rintro ⟨_, _, _, notCarousel, _⟩
        exact notCarousel kind
      refine converging.congr ?_
        (manager.productAt_step_quiet_header notReset quiet key)
      rw [manager.channelAt_step_header notReset, if_neg elsewhere]
      exact converging.tracked
  | @block received prod truthful =>
      by_cases same : prod.prodId.key = key
      · subst same
        exact converging.feed rfl (fun _ => truthful rfl)
          (fun increment => Bool.noConfusion increment) (Nat.le_max_left _ _)
      · exact converging.other rfl same

end Converging

/-- The invariant of the two feeds, by the steps the realtime feed has left. -/
def TwoFeeds
    (history : ExchangeHistory)
    (key : ProdKey)
    (channel : UInt16)
    (left : List Step)
    (manager : OrderBookManager) : Prop :=
  ∃ previous serial, Remaining history key channel previous serial left ∧
    Converging history key channel previous serial manager

namespace TwoFeeds

variable {history : ExchangeHistory} {key : ProdKey} {channel : UInt16}
  {manager : OrderBookManager}

/-- Step lemma for the realtime feed. -/
theorem realtime
    (step : Step)
    (left : List Step)
    (feeds : TwoFeeds history key channel (step :: left) manager) :
    TwoFeeds history key channel left (manager.step step).1 := by
  obtain ⟨previous, serial, remaining, converging⟩ := feeds
  cases remaining with
  | @header _ _ message _ onChannel kinded follows rest =>
      exact ⟨_, _, rest, converging.header onChannel kinded follows⟩
  | own carries same next truthful rest =>
      subst same
      exact ⟨_, _, rest, converging.feed carries truthful
        (fun _ => Nat.le_of_eq next) (by omega)⟩
  | other carries different rest =>
      exact ⟨_, _, rest, converging.other carries different⟩

/-- Step lemma for the snapshot feed. -/
theorem carousel
    (step : Step)
    (left : List Step)
    (allowed : step.FromCarousel history key channel)
    (feeds : TwoFeeds history key channel left manager) :
    TwoFeeds history key channel left (manager.step step).1 := by
  obtain ⟨previous, serial, remaining, converging⟩ := feeds
  exact ⟨previous, serial, remaining, converging.fromCarousel allowed⟩

/-- Whatever the feeds have left, the product is fresh. -/
theorem fresh
    {left : List Step}
    (feeds : TwoFeeds history key channel left manager)
    {st : ProductState}
    (present : manager.productAt key = some st) :
    st.isStale = false := by
  obtain ⟨_, _, _, converging⟩ := feeds
  exact (converging.product st present).1

/-- Once the realtime feed has finished, the product has the exchange's book. -/
theorem finished
    (feeds : TwoFeeds history key channel [] manager) :
    (manager.productAt key = none → history.length = 0) ∧
      ∀ st, manager.productAt key = some st →
        st.lastSerial = history.length ∧
          st.book.ladder = (history.bookAfter history.length).ladder := by
  obtain ⟨previous, serial, remaining, converging⟩ := feeds
  cases remaining
  refine ⟨converging.absent, fun st present => ?_⟩
  obtain ⟨fresh, reached, sound⟩ := converging.product st present
  have last : st.lastSerial = history.length :=
    Nat.le_antisymm sound.serial_le reached
  have synced := (st.isStale_eq_false_iff.mp fresh).1
  refine ⟨last, ?_⟩
  rw [sound.ladders (Or.inl synced), last]

end TwoFeeds

/-- No false alarm, and convergence.  One feed delivers a realtime channel
without loss, with all of a product's messages; another concurrently delivers
truthful snapshot blocks on other channels, in any order.  However their critical
sections interleave, the product is fresh in every reachable state from the
moment it appears.  When the realtime feed has finished, wherever the snapshot
feed then is, the product has the last serial and the exchange's book. -/
theorem two_feeds_converge
    (history : ExchangeHistory)
    (key : ProdKey)
    (channel : UInt16)
    (messages : List RealtimeMessage)
    (delivers : DeliversAll history key channel none 0 messages)
    (packets : List I084Packet)
    (onCarousel : ∀ pkt ∈ packets, pkt.OnCarousel history key channel)
    (carousel : List Step)
    (delivered : carousel <+: packets.flatMap I084Packet.steps)
    (steps : List Step)
    (interleaving : Interleaving (messages.flatMap RealtimeMessage.steps)
      carousel steps)
    (manager : OrderBookManager)
    (blank : manager.Blank) :
    (∀ before after, steps = before ++ after →
      ∀ st, (OrderBookManager.step.final manager before).productAt key = some st →
        st.isStale = false) ∧
    (0 < history.length →
      ((OrderBookManager.step.final manager steps).productAt key).isSome) ∧
    (∀ st, (OrderBookManager.step.final manager steps).productAt key = some st →
      st.book.lastProdMsgSeq.toNat = history.length ∧
        st.book.ladder = (history.bookAfter history.length).ladder) := by
  have allowed : ∀ step ∈ carousel, step.FromCarousel history key channel := by
    intro step member
    obtain ⟨pkt, listed, made⟩ := List.mem_flatMap.mp (delivered.subset member)
    exact (onCarousel pkt listed).fromCarousel step made
  obtain ⟨final, reachable⟩ := interleaving.invariant_final
    (TwoFeeds history key channel)
    (fun step left _ => TwoFeeds.realtime step left)
    (fun step left _ => TwoFeeds.carousel step left) allowed
    ⟨none, 0, delivers.remaining, Converging.blank blank⟩
  refine ⟨fun before after split st present => ?_, fun positive => ?_,
    final.finished.2⟩
  · obtain ⟨left, feeds⟩ := reachable before after split
    exact feeds.fresh present
  · rw [Option.isSome_iff_ne_none]
    intro missing
    have empty := final.finished.1 missing
    omega

/-- A snapshot of both messages overtakes the first one's body, and one of the
empty book follows. -/
theorem two_feeds_converge_overtaken :
    let bid := Builders.makeEntry '0' '0' 10315 4 1
    let history : ExchangeHistory := [.i081 [bid], .i024]
    let first := Builders.makeI081 Builders.kProd 1 [bid] 1
    let second := Builders.makeI024 Builders.kProd 2 2
    let ahead := Builders.makeI084 [Builders.makeI084Product Builders.kProd 2
      [Builders.makeSnapshotEntry '0' 10315 4 1]] 7
    let behind := Builders.makeI084 [Builders.makeI084Product Builders.kProd 0 []] 3
    let steps := [.header first.header, .header ahead.header] ++ ahead.blocks ++
      [.i081 first, .header behind.header, .header second.header] ++
      behind.blocks ++ [.i024 second]
    ∀ st, (OrderBookManager.step.final {} steps).productAt Builders.kProd = some st →
      st.book.lastProdMsgSeq.toNat = 2 ∧
        st.book.ladder = (history.bookAfter 2).ladder := by
  intro bid history first second ahead behind steps
  refine (two_feeds_converge history Builders.kProd Builders.kRtChannel
    [.i081 first, .i024 second] (by decide) [ahead, behind]
    (fun pkt listed => ?_) (ahead.steps ++ behind.steps) (by exact List.prefix_refl _)
    steps ?_ {} OrderBookManager.blank_new).2.2
  · simp only [List.mem_cons, List.not_mem_nil, or_false] at listed
    rcases listed with rfl | rfl
    · exact ⟨by decide, by decide, fun _ => by decide⟩
    · exact ⟨by decide, by decide, fun _ => by decide⟩
  · exact .left (.right (.right (.left (.right (.left (.right (.left .nil)))))))

end TaifexResolver
