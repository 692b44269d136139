import TaifexResolver.Exchange.Adoption
import TaifexResolver.Exchange.Convergence
import TaifexResolver.Staleness.Retransmission

/-!
# Recovery

However the manager came to the state it is in, by losses, by joining in the middle
of the session or by anything else, one snapshot puts a product right for good, as
long as the realtime feed loses nothing from now on.  Before the snapshot only the
position of the channel and the serials are known; adopting it makes the two feeds
converge.
-/

namespace TaifexResolver

/-- What is known while the realtime feed is followed from some serial on: the channel
is tracked to the feed's position, and the product has covered what the feed has
delivered since.  Nothing is known of its book and its flags. -/
structure CatchingUp
    (key : ProdKey)
    (channel : UInt16)
    (start : Nat)
    (previous : Option Nat)
    (serial : Nat)
    (manager : OrderBookManager) : Prop where
  tracked : (manager.channelAt channel).map (fun found => found.lastSeq.toNat) =
    previous
  covered : serial ≤ start ∨ Covers (manager.productAt key) serial

namespace CatchingUp

variable {history : ExchangeHistory} {key : ProdKey} {channel : UInt16} {start : Nat}
  {previous : Option Nat} {serial : Nat} {manager : OrderBookManager}

/-- A header that does not reset, whatever it reveals, leaves the serials alone. -/
theorem header
    {received : Header}
    {position : Option Nat}
    (catchingUp : CatchingUp key channel start previous serial manager)
    (notReset : received.messageKind ≠ '2'.toUInt8)
    (tracked : ((manager.step (.header received)).1.channelAt channel).map
      (fun found => found.lastSeq.toNat) = position) :
    CatchingUp key channel start position serial (manager.step (.header received)).1 :=
  ⟨tracked, catchingUp.covered.imp_right (Covers.step (decide_eq_false notReset))⟩

/-- A message, of whichever product, leaves the trackers alone. -/
theorem message
    {fed : Step}
    {prodId : ProdIdText}
    {said : ProductMessage}
    (catchingUp : CatchingUp key channel start previous serial manager)
    (carries : fed.message = some (prodId, said)) :
    CatchingUp key channel start previous serial (manager.step fed).1 := by
  refine ⟨?_, catchingUp.covered.imp_right
    (Covers.step (Step.isReset_of_message carries))⟩
  rw [manager.channelAt_step_of_message carries]
  exact catchingUp.tracked

/-- A message of the product covers its serial. -/
theorem own
    {fed : Step}
    {prodId : ProdIdText}
    {said : ProductMessage}
    (catchingUp : CatchingUp prodId.key channel start previous serial manager)
    (carries : fed.message = some (prodId, said))
    (next : said.serial.toNat = serial + 1) :
    CatchingUp prodId.key channel start previous (serial + 1) (manager.step fed).1 := by
  refine ⟨(catchingUp.message carries).tracked, Or.inr ?_⟩
  rw [manager.productAt_step_own carries, ← next]
  exact ⟨_, rfl, (said.lastSerial_body prodId _).1⟩

/-- A header of the realtime channel that follows the latest one. -/
theorem realtimeHeader
    {message : RealtimeMessage}
    (catchingUp : CatchingUp key channel start previous serial manager)
    (onChannel : message.header.channelId = channel)
    (kinded : message.Kinded)
    (follows : ∀ last ∈ previous,
      message.position = if message.isHeartbeat then last else last + 1) :
    CatchingUp key channel start (some message.position) serial
      (manager.step (.header message.header)).1 := by
  refine catchingUp.header kinded.not_reset ?_
  have tracked := catchingUp.tracked
  rw [manager.channelAt_step_header kinded.not_reset, if_pos onChannel,
    Option.map_some, Option.some.injEq]
  cases found : manager.channelAt channel with
  | none => rfl
  | some before =>
      rw [found] at tracked
      have position := follows before.lastSeq.toNat tracked.symm
      rw [ChannelState.toNat_lastSeq_advance_some]
      change max _ message.position = message.position
      split at position <;> omega

/-- A step of the snapshot feed. -/
theorem fromCarousel
    {fed : Step}
    (catchingUp : CatchingUp key channel start previous serial manager)
    (carousel : fed.FromCarousel history key channel) :
    CatchingUp key channel start previous serial (manager.step fed).1 := by
  cases carousel with
  | @header received kind elsewhere =>
      have notReset : received.messageKind ≠ '2'.toUInt8 := by
        rw [kind]
        decide
      refine catchingUp.header notReset ?_
      rw [manager.channelAt_step_header notReset, if_neg elsewhere]
      exact catchingUp.tracked
  | block _ => exact catchingUp.message rfl

/-- Adopting a snapshot of the exchange's book, not older than the first serial
followed, makes the product converge, whatever it was before. -/
theorem adopt
    {offer : Step}
    {prodId : ProdIdText}
    {seq : UInt32}
    {entries : List SnapshotEntry}
    {infoTime : TimeText}
    {reached : Nat}
    (catchingUp : CatchingUp prodId.key channel start previous serial manager)
    (carries : offer.message = some (prodId, .snapshot seq entries infoTime))
    (quotes : (ProductMessage.snapshot seq entries infoTime).Quotes history)
    (recent : start ≤ seq.toNat)
    (accepts : manager.Accepts prodId seq)
    (reach : reached ≤ max serial seq.toNat) :
    Converging history prodId.key channel previous reached
      (manager.step offer).1 := by
  have accepted : (ProductMessage.snapshot seq entries infoTime).Accepted
      (manager.getOrCreateLocked prodId) := by
    rw [OrderBookManager.getOrCreateLocked_eq]
    cases seen : manager.productAt prodId.key with
    | none => exact Or.inl rfl
    | some st => exact Or.inr (UInt32.le_iff_toNat_le.mp (accepts st seen))
  obtain ⟨serialEq, synced, suspect, ladders, _⟩ :=
    ProductMessage.body_accepted prodId accepted
  have behind : serial ≤ seq.toNat := by
    rcases catchingUp.covered with early | ⟨st, seen, covered⟩
    · omega
    · exact covered.trans (UInt32.le_iff_toNat_le.mp (accepts st seen))
  have stored := manager.productAt_step_own carries
  refine ⟨(catchingUp.message carries).tracked, fun found => ?_, fun st found => ?_⟩
  · rw [stored] at found
    cases found
  · rw [stored] at found
    cases found
    refine ⟨(ProductState.isStale_eq_false_iff _).mpr ⟨synced, suspect⟩, ?_, ?_,
      fun _ => ?_⟩
    · rw [serialEq]
      exact reach.trans (max_le behind le_rfl)
    · rw [serialEq]
      exact quotes.serial_le
    · rw [serialEq, ladders, quotes.ladders]
      rfl

end CatchingUp

/-- The invariant of the two feeds before the snapshot, by the steps the realtime feed
has left. -/
def FeedsBefore
    (history : ExchangeHistory)
    (key : ProdKey)
    (channel : UInt16)
    (start : Nat)
    (left : List Step)
    (manager : OrderBookManager) : Prop :=
  ∃ previous serial, Remaining history key channel previous serial left ∧
    CatchingUp key channel start previous serial manager

namespace FeedsBefore

variable {history : ExchangeHistory} {key : ProdKey} {channel : UInt16} {start : Nat}
  {manager : OrderBookManager}

/-- Step lemma for the realtime feed. -/
theorem realtime
    (step : Step)
    (left : List Step)
    (feeds : FeedsBefore history key channel start (step :: left) manager) :
    FeedsBefore history key channel start left (manager.step step).1 := by
  obtain ⟨previous, serial, remaining, catchingUp⟩ := feeds
  cases remaining with
  | header onChannel kinded follows rest =>
      exact ⟨_, _, rest, catchingUp.realtimeHeader onChannel kinded follows⟩
  | own carries same next truthful rest =>
      subst same
      exact ⟨_, _, rest, catchingUp.own carries next⟩
  | other carries different rest => exact ⟨_, _, rest, catchingUp.message carries⟩

/-- Step lemma for the snapshot feed. -/
theorem carousel
    (step : Step)
    (left : List Step)
    (allowed : step.FromCarousel history key channel)
    (feeds : FeedsBefore history key channel start left manager) :
    FeedsBefore history key channel start left (manager.step step).1 := by
  obtain ⟨previous, serial, remaining, catchingUp⟩ := feeds
  exact ⟨previous, serial, remaining, catchingUp.fromCarousel allowed⟩

variable {offer : Step} {prodId : ProdIdText} {seq : UInt32}
  {entries : List SnapshotEntry} {infoTime : TimeText}

/-- The snapshot is a normal I083 of the realtime feed. -/
theorem adopt_realtime
    {left : List Step}
    (feeds : FeedsBefore history prodId.key channel start (offer :: left) manager)
    (carries : offer.message = some (prodId, .snapshot seq entries infoTime))
    (recent : start ≤ seq.toNat)
    (accepts : manager.Accepts prodId seq) :
    TwoFeeds history prodId.key channel left (manager.step offer).1 := by
  obtain ⟨previous, serial, remaining, catchingUp⟩ := feeds
  cases remaining with
  | header => cases carries
  | own said same next truthful rest =>
      obtain ⟨rfl, rfl⟩ := Prod.mk.inj (Option.some.inj (carries.symm.trans said))
      exact ⟨_, _, rest, catchingUp.adopt carries (truthful.quotes carries) recent
        accepts (next ▸ le_max_right _ _)⟩
  | other said different =>
      obtain ⟨rfl, _⟩ := Prod.mk.inj (Option.some.inj (carries.symm.trans said))
      exact absurd rfl different

/-- The snapshot is a block of the carousel. -/
theorem adopt_carousel
    {left : List Step}
    (feeds : FeedsBefore history prodId.key channel start left manager)
    (allowed : offer.FromCarousel history prodId.key channel)
    (carries : offer.message = some (prodId, .snapshot seq entries infoTime))
    (recent : start ≤ seq.toNat)
    (accepts : manager.Accepts prodId seq) :
    TwoFeeds history prodId.key channel left (manager.step offer).1 := by
  obtain ⟨previous, serial, remaining, catchingUp⟩ := feeds
  cases allowed with
  | header => cases carries
  | @block received prod truthful =>
      obtain ⟨rfl, _⟩ := Prod.mk.inj (Option.some.inj carries)
      have told : (Step.i084Product received prod).Truthful history prod.prodId.key :=
        fun _ => truthful rfl
      have quotes := told.quotes carries
      exact ⟨previous, serial, remaining,
        catchingUp.adopt carries quotes recent accepts (le_max_left _ _)⟩

/-- Run lemma: once the snapshot is adopted, the two feeds converge. -/
theorem adopted
    {realtimeSteps carouselSteps before after : List Step}
    (interleaving : Interleaving realtimeSteps carouselSteps (before ++ offer :: after))
    (allowed : ∀ step ∈ carouselSteps, step.FromCarousel history prodId.key channel)
    (feeds : FeedsBefore history prodId.key channel start realtimeSteps manager)
    (carries : offer.message = some (prodId, .snapshot seq entries infoTime))
    (recent : start ≤ seq.toNat)
    (accepts : (OrderBookManager.step.final manager before).Accepts prodId seq) :
    ∀ later rest, after = later ++ rest → ∃ left,
      (rest = [] → left = []) ∧ TwoFeeds history prodId.key channel left
        (OrderBookManager.step.final manager (before ++ offer :: later)) := by
  obtain ⟨_, left, _, carouselLeft, rfl, rfl, done, waiting⟩ := interleaving.split
  have reached := (done.invariant_final
    (fun rest state => FeedsBefore history prodId.key channel start (rest ++ left) state)
    (fun step rest _ => realtime step (rest ++ left))
    (fun step rest _ => carousel step (rest ++ left))
    (fun step member => allowed step (List.mem_append_left _ member)) feeds).1
  have allowedLeft : ∀ step ∈ carouselLeft, step.FromCarousel history prodId.key channel :=
    fun step member => allowed step (List.mem_append_right _ member)
  obtain ⟨realtimeRest, carouselRest, converges, allowedRest, following⟩ :
      ∃ realtimeRest carouselRest,
        TwoFeeds history prodId.key channel realtimeRest
          (OrderBookManager.step (OrderBookManager.step.final manager before) offer).1 ∧
        (∀ step ∈ carouselRest, step.FromCarousel history prodId.key channel) ∧
        Interleaving realtimeRest carouselRest after := by
    cases waiting with
    | left following =>
        exact ⟨_, _, reached.adopt_realtime carries recent accepts, allowedLeft, following⟩
    | right following =>
        obtain ⟨offered, allowedRest⟩ := List.forall_mem_cons.mp allowedLeft
        exact ⟨_, _, reached.adopt_carousel offered carries recent accepts, allowedRest,
          following⟩
  obtain ⟨finished, reachable⟩ := following.invariant_final
    (TwoFeeds history prodId.key channel)
    (fun step left _ => TwoFeeds.realtime step left)
    (fun step left _ => TwoFeeds.carousel step left) allowedRest converges
  intro later rest split
  rw [Machine.final_append, Machine.final_cons]
  cases rest with
  | nil =>
      rw [List.append_nil] at split
      exact ⟨[], fun _ => rfl, split ▸ finished⟩
  | cons next rest =>
      obtain ⟨left, feeds⟩ := reachable later (next :: rest) split
      exact ⟨left, fun empty => absurd empty (List.cons_ne_nil _ _), feeds⟩

end FeedsBefore

/-- One snapshot repairs a product.  Start from any manager that stores its books under
their own ids, however it came to these books, its flags and its trackers, as long as its
tracker stands where the realtime feed goes on; the feed now delivers its channel, and the product's messages after some
serial, without loss, next to a snapshot feed.  However the critical sections
interleave, once a snapshot of the product that is not older than that serial is
adopted, be it a block of the carousel or an I083 of the realtime feed itself, the
product is fresh and has the exchange's book in every state that follows, every copy
delivered for it says so, and it ends with the exchange's last book. -/
theorem snapshot_repairs_for_good
    {history : ExchangeHistory}
    {channel : UInt16}
    {previous : Option Nat}
    {serial : Nat}
    {messages : List RealtimeMessage}
    {packets : List I084Packet}
    {carousel before after : List Step}
    {manager : OrderBookManager}
    {offer : Step}
    {prodId : ProdIdText}
    {seq : UInt32}
    {entries : List SnapshotEntry}
    {infoTime : TimeText}
    (delivers : DeliversAll history prodId.key channel previous serial messages)
    (onCarousel : ∀ pkt ∈ packets, pkt.OnCarousel history prodId.key channel)
    (delivered : carousel <+: packets.flatMap I084Packet.steps)
    (interleaving : Interleaving (messages.flatMap RealtimeMessage.steps) carousel
      (before ++ offer :: after))
    (keyed : manager.Keyed)
    (tracked : (manager.channelAt channel).map (fun found => found.lastSeq.toNat) =
      previous)
    (carries : offer.message = some (prodId, .snapshot seq entries infoTime))
    (recent : serial ≤ seq.toNat)
    (accepts : (OrderBookManager.step.final manager before).Accepts prodId seq) :
    (∀ later rest, after = later ++ rest → ∃ st,
      (OrderBookManager.step.final manager (before ++ offer :: later)).productAt
          prodId.key = some st ∧
        st.isStale = false ∧ seq.toNat ≤ st.lastSerial ∧
        st.book.ladder = (history.bookAfter st.lastSerial).ladder ∧
        (rest = [] → st.lastSerial = history.length)) ∧
    ∀ delivery ∈ OrderBookManager.step.output
        (OrderBookManager.step.final manager before) (offer :: after),
      delivery.book.prodId.key = prodId.key →
        delivery.book.isStale = false ∧
          delivery.book.ladder =
            (history.bookAfter delivery.book.lastProdMsgSeq.toNat).ladder := by
  have allowed : ∀ step ∈ carousel, step.FromCarousel history prodId.key channel := by
    intro step member
    obtain ⟨pkt, listed, made⟩ := List.mem_flatMap.mp (delivered.subset member)
    exact (onCarousel pkt listed).fromCarousel step made
  have remaining := delivers.remaining
  have noReset : ∀ step ∈ before ++ offer :: after, step.isReset = false := by
    intro step member
    rcases interleaving.mem member with realtime | snapshot
    · exact remaining.not_reset step realtime
    · exact (allowed step snapshot).not_reset
  have converges := FeedsBefore.adopted interleaving allowed
    ⟨previous, serial, remaining, tracked, Or.inl le_rfl⟩ carries recent accepts
  have repaired : ∀ later rest, after = later ++ rest → ∃ st,
      (OrderBookManager.step.final manager (before ++ offer :: later)).productAt
          prodId.key = some st ∧
        st.isStale = false ∧ seq.toNat ≤ st.lastSerial ∧
        st.book.ladder = (history.bookAfter st.lastSerial).ladder ∧
        (rest = [] → st.lastSerial = history.length) := by
    intro later rest split
    obtain ⟨left, ended, feeds⟩ := converges later rest split
    have soFar : ∀ step ∈ before ++ offer :: later, step.isReset = false := by
      intro step member
      apply noReset step
      rw [split, ← List.cons_append, ← List.append_assoc]
      exact List.mem_append_left rest member
    obtain ⟨st, found, covered⟩ : Covers ((OrderBookManager.step.final manager
        (before ++ offer :: later)).productAt prodId.key) seq.toNat :=
      covers_final soFar (List.mem_append_right before List.mem_cons_self) carries
    have fresh := feeds.fresh found
    obtain ⟨_, _, _, converging⟩ := id feeds
    obtain ⟨_, _, sound⟩ := converging.product st found
    refine ⟨st, found, fresh, covered, sound.ladders ?_, fun isLast => ?_⟩
    · exact Or.inl (st.isStale_eq_false_iff.mp fresh).1
    · rw [ended isLast] at feeds
      exact (feeds.finished.2 st found).1
  refine ⟨repaired, fun delivery member addressed => ?_⟩
  obtain ⟨earlier, last, rest, split, emitted⟩ := Machine.mem_output_iff.mp member
  obtain ⟨later, upToLast, rfl⟩ : ∃ later, earlier ++ [last] = offer :: later ∧
      after = later ++ rest := by
    cases earlier with
    | nil =>
        obtain ⟨rfl, rfl⟩ := List.cons_eq_cons.mp split
        exact ⟨[], rfl, rfl⟩
    | cons first earlier =>
        obtain ⟨rfl, rfl⟩ := List.cons_eq_cons.mp split
        exact ⟨earlier ++ [last], rfl, (List.append_assoc earlier [last] rest).symm⟩
  obtain ⟨live, copied, copy⟩ := OrderBookManager.delivered_copy
    (OrderBookManager.keyed_final (OrderBookManager.keyed_final keyed before) earlier)
    (noReset last (List.mem_append_right before (by rw [split]; simp))) emitted
  obtain ⟨st, found, fresh, _, ladders, _⟩ := repaired later rest rfl
  rw [← Machine.final_concat, upToLast, ← Machine.final_append, addressed, found] at copied
  cases copied
  rw [copy]
  exact ⟨fresh, ladders⟩

/-- The first message arrives, the next two are lost, and the trade after them betrays
it.  A block that has the book of the fifth message repairs the product. -/
theorem snapshot_repairs_for_good_after_loss :
    let bid := Builders.makeEntry '0' '0' 10315 4 1
    let better := Builders.makeEntry '0' '0' 10316 2 1
    let history : ExchangeHistory :=
      [.i081 [bid], .i081 [better], .i025, .i024, .i024, .i024]
    let prodId := Builders.setProd Builders.kProd
    let broken := OrderBookManager.step.final {}
      (Builders.feedI081 (Builders.makeI081 Builders.kProd 1 [bid] 1) ++
        Builders.feedI024 (Builders.makeI024 Builders.kProd 4 4))
    let fifth := Builders.makeI024 Builders.kProd 5 5
    let sixth := Builders.makeI024 Builders.kProd 6 6
    let block := Builders.makeI084Product Builders.kProd 5
      [Builders.makeSnapshotEntry '0' 10315 4 2, Builders.makeSnapshotEntry '0' 10316 2 1]
    let snapshot := Builders.makeI084 [block] 1
    (broken.getBook Builders.kProd).map OrderBook.isStale = some true ∧
      ∃ st, (OrderBookManager.step.final broken
          ([.header fifth.header, .i024 fifth, .header snapshot.header] ++
            .i084Product snapshot.header block ::
              [.header sixth.header, .i024 sixth])).productAt prodId.key = some st ∧
        st.isStale = false ∧ st.lastSerial = 6 ∧
        st.book.ladder = (history.bookAfter 6).ladder := by
  intro bid better history prodId broken fifth sixth block snapshot
  refine ⟨by decide, ?_⟩
  have delivers : DeliversAll history prodId.key Builders.kRtChannel (some 4) 4
      [.i024 fifth, .i024 sixth] := by decide
  have onCarousel : ∀ pkt ∈ [snapshot],
      pkt.OnCarousel history prodId.key Builders.kRtChannel := by
    exact List.forall_mem_singleton.mpr ⟨by decide, by decide, fun _ => by decide⟩
  have keyed : broken.Keyed := OrderBookManager.keyed_final
    OrderBookManager.blank_new.keyed _
  have accepts : (OrderBookManager.step.final broken
      [.header fifth.header, .i024 fifth, .header snapshot.header]).Accepts prodId 5 := by
    intro st seen
    have atMost : ((OrderBookManager.step.final broken
        [.header fifth.header, .i024 fifth, .header snapshot.header]).productAt
          prodId.key).all (fun st => st.book.lastProdMsgSeq ≤ 5) = true := by decide
    rw [seen] at atMost
    exact of_decide_eq_true atMost
  have interleaving : Interleaving
      ([.i024 fifth, .i024 sixth].flatMap RealtimeMessage.steps)
      ([snapshot].flatMap I084Packet.steps)
      ([.header fifth.header, .i024 fifth, .header snapshot.header] ++
        .i084Product snapshot.header block :: [.header sixth.header, .i024 sixth]) :=
    .left (.left (.right (.right (.left (.left .nil)))))
  obtain ⟨st, found, fresh, _, ladders, ended⟩ :=
    (snapshot_repairs_for_good delivers onCarousel (List.prefix_refl _) interleaving
      keyed (by decide) rfl (by decide) accepts).1
    [.header sixth.header, .i024 sixth] [] rfl
  have last := ended rfl
  rw [last] at ladders
  exact ⟨st, found, fresh, last, ladders⟩

end TaifexResolver
