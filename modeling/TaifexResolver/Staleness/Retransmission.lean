import TaifexResolver.OrderBook.Builders
import TaifexResolver.Staleness.Realtime

/-!
# Retransmissions

A message that was already processed leaves no trace when it is fed again, with
one exception that is part of the design: a normal I083 whose serial is still the
product's last serial is adopted again, and clears the suspicion a channel gap
has raised since.
-/

namespace TaifexResolver

/-! ## What a run has covered -/

/-- A header of a run since the last reset is covered by its channel's tracker. -/
theorem channelSeq_le_lastSeq_final
    {manager : OrderBookManager}
    (blank : manager.Blank)
    {steps : List Step}
    (noReset : ∀ step ∈ steps, step.isReset = false)
    {received : Header}
    (processed : Step.header received ∈ steps) :
    ∃ channel,
      (OrderBookManager.step.final manager steps).channelAt received.channelId =
        some channel ∧
      received.channelSeq.toNat ≤ channel.lastSeq.toNat := by
  have summary := summarises_final blank noReset received.channelId
  have member : received ∈ headersOn received.channelId steps :=
    List.mem_filterMap.mpr ⟨_, processed, by simp⟩
  cases found : (OrderBookManager.step.final manager steps).channelAt
      received.channelId with
  | none =>
      rw [summary.absent.mp found] at member
      cases member
  | some channel =>
      refine ⟨channel, rfl, ?_⟩
      rw [summary.lastSeq channel found]
      exact highest_le_iff.mp le_rfl _ (List.mem_map_of_mem member)

/-- Whether a product is present with a last serial that covers a given one. -/
def Covers (found : Option ProductState) (serial : Nat) : Prop :=
  ∃ st, found = some st ∧ serial ≤ st.lastSerial

/-- Step lemma: only a reset can undo the coverage of a serial. -/
theorem Covers.action
    {found : Option ProductState}
    {serial : Nat}
    {action : ProductAction}
    (notClear : action ≠ .clear)
    (covers : Covers found serial) :
    Covers (action.apply found) serial := by
  obtain ⟨st, rfl, covered⟩ := covers
  cases action with
  | keep => exact ⟨st, rfl, covered⟩
  | clear => exact absurd rfl notClear
  | suspect =>
      rw [ProductAction.apply_suspect]
      exact ⟨_, rfl, covered⟩
  | feed prodId message =>
      exact ⟨_, rfl, covered.trans (message.lastSerial_body prodId st).2⟩

/-- A step that does not reset keeps a serial covered. -/
theorem Covers.step
    {manager : OrderBookManager}
    {key : ProdKey}
    {serial : Nat}
    {fed : Step}
    (notReset : fed.isReset = false)
    (covers : Covers (manager.productAt key) serial) :
    Covers ((manager.step fed).1.productAt key) serial := by
  rw [OrderBookManager.productAt_step]
  apply covers.action
  intro clears
  rw [Step.isReset_of_actionOn_clear clears] at notReset
  cases notReset

/-- Run lemma: a message of a run since the last reset is covered by its
product's last serial. -/
theorem covers_final
    {manager : OrderBookManager}
    {steps : List Step}
    (noReset : ∀ step ∈ steps, step.isReset = false)
    {processed : Step}
    (member : processed ∈ steps)
    {prodId : ProdIdText}
    {message : ProductMessage}
    (carries : processed.message = some (prodId, message)) :
    Covers ((OrderBookManager.step.final manager steps).productAt prodId.key)
      message.serial.toNat := by
  induction steps using List.reverseRecOn with
  | nil => cases member
  | append_singleton steps last inductionHypothesis =>
      rw [Machine.final_concat, OrderBookManager.productAt_step]
      rcases List.mem_append.mp member with earlier | latest
      · refine (inductionHypothesis (fun step other => ?_) earlier).action ?_
        · exact noReset step (List.mem_append_left _ other)
        · intro clears
          have resets := Step.isReset_of_actionOn_clear clears
          rw [noReset last (by simp)] at resets
          cases resets
      · cases List.mem_singleton.mp latest
        simp only [Step.actionOn, carries, if_true]
        exact ⟨_, rfl, (message.lastSerial_body prodId _).1⟩

/-! ## Replaying a header -/

/-- A covered header of a realtime kind does not advance its tracker. -/
theorem ChannelState.advance_covered
    {channel : ChannelState}
    {received : Header}
    (notCarousel : received.messageKind ≠ 'C'.toUInt8)
    (covered : received.channelSeq.toNat ≤ channel.lastSeq.toNat) :
    ChannelState.advance (some channel) received = channel := by
  have notLess : ¬channel.lastSeq < received.channelSeq := by
    rw [UInt32.lt_iff_toNat_lt]
    omega
  simp [advance, notCarousel, notLess]

/-- A covered header reveals nothing. -/
theorem ChannelState.not_revealsGap_covered
    {channel : ChannelState}
    {received : Header}
    (covered : received.channelSeq.toNat ≤ channel.lastSeq.toNat) :
    ¬ChannelState.RevealsGap (some channel) received := by
  rw [revealsGap_some]
  rintro ⟨_, _, larger⟩
  split at larger <;> omega

/-- Replaying a covered header changes neither channels nor products. -/
theorem OrderBookManager.step_header_covered
    {manager : OrderBookManager}
    {received : Header}
    {channel : ChannelState}
    (notReset : received.messageKind ≠ '2'.toUInt8)
    (notCarousel : received.messageKind ≠ 'C'.toUInt8)
    (found : manager.channelAt received.channelId = some channel)
    (covered : received.channelSeq.toNat ≤ channel.lastSeq.toNat) :
    (∀ other, (manager.step (.header received)).1.channelAt other =
      manager.channelAt other) ∧
    (∀ key, (manager.step (.header received)).1.productAt key =
      manager.productAt key) := by
  refine ⟨fun other => ?_, fun key => ?_⟩
  · rw [channelAt_step_header _ notReset]
    split
    · next same =>
        subst same
        rw [found, ChannelState.advance_covered notCarousel covered]
    · rfl
  · have quiet := ChannelState.not_revealsGap_covered covered
    exact productAt_step_quiet_header _ notReset (found ▸ quiet) key

/-! ## Replaying a typed message -/

/-- A product whose book is still the one adopted from a snapshot, up to the
suspicion, or which has moved beyond the snapshot's serial. -/
def AdoptedOrBeyond
    (prodId : ProdIdText)
    (seq : UInt32)
    (entries : List SnapshotEntry)
    (infoTime : TimeText)
    (found : Option ProductState) : Prop :=
  ∃ st, found = some st ∧
    (seq.toNat < st.lastSerial ∨
      st.lastSerial = seq.toNat ∧
        { st with suspect := false } =
          st.adoptSnapshotLocked prodId seq entries infoTime)

section AdoptedOrBeyond

variable {prodId : ProdIdText} {seq : UInt32} {entries : List SnapshotEntry}
  {infoTime : TimeText}

/-- Processing the snapshot establishes the alternative. -/
theorem adoptedOrBeyond_body (st : ProductState) :
    AdoptedOrBeyond prodId seq entries infoTime
      (some ((ProductMessage.snapshot seq entries infoTime).body prodId st).1) := by
  by_cases accepted : (ProductMessage.snapshot seq entries infoTime).Accepted st
  · have adopted : ((ProductMessage.snapshot seq entries infoTime).body prodId st).1 =
        st.adoptSnapshotLocked prodId seq entries infoTime := by
      rw [ProductMessage.body, ProductMessage.offerSnapshot_accepted _ _ _ accepted]
    rw [adopted]
    refine ⟨_, rfl, Or.inr ⟨rfl, ?_⟩⟩
    simp only [ProductState.adoptSnapshotLocked_eq]
    rfl
  · rw [ProductMessage.body_refused prodId accepted]
    refine ⟨st, rfl, Or.inl ?_⟩
    simp only [ProductMessage.Accepted, ProductMessage.isSnapshot, if_true,
      ProductMessage.serial] at accepted
    omega

/-- Step lemma: the alternative survives every action but a reset and another
snapshot with the same serial. -/
theorem AdoptedOrBeyond.action
    {found : Option ProductState}
    {action : ProductAction}
    (positive : 1 ≤ seq.toNat)
    (notClear : action ≠ .clear)
    (notSame : ∀ other message, action = .feed other message →
      message.isSnapshot = true → message.serial ≠ seq)
    (kept : AdoptedOrBeyond prodId seq entries infoTime found) :
    AdoptedOrBeyond prodId seq entries infoTime (action.apply found) := by
  obtain ⟨st, rfl, alternative⟩ := kept
  cases action with
  | keep => exact ⟨st, rfl, alternative⟩
  | clear => exact absurd rfl notClear
  | suspect =>
      rw [ProductAction.apply_suspect]
      exact ⟨_, rfl, alternative⟩
  | feed other message =>
      by_cases accepted : message.Accepted st
      · refine ⟨_, rfl, Or.inl ?_⟩
        rw [Option.getD_some, (ProductMessage.body_accepted other accepted).1]
        have atLeast : seq.toNat ≤ st.lastSerial := by
          rcases alternative with beyond | ⟨same, _⟩ <;> omega
        unfold ProductMessage.Accepted at accepted
        split at accepted
        · next snapshot =>
            have different : message.serial.toNat ≠ seq.toNat :=
              mt UInt32.toNat_inj.mp (notSame other message rfl snapshot)
            omega
        · omega
      · refine ⟨st, ?_, alternative⟩
        simp [ProductAction.apply, ProductMessage.body_refused other accepted]

end AdoptedOrBeyond

/-- A step that offers a product a snapshot with a given serial. -/
def Step.OffersSnapshot (key : ProdKey) (seq : UInt32) (step : Step) : Prop :=
  ∃ prodId message, step.message = some (prodId, message) ∧ prodId.key = key ∧
    message.isSnapshot = true ∧ message.serial = seq

/-- A normal I083 whose serial is the last serial of its product. -/
def RealtimeMessage.Readopted
    (key : ProdKey)
    (live : OrderBookManager)
    (message : RealtimeMessage) : Prop :=
  ∃ pkt st, message = .i083 pkt ∧ pkt.calculatedFlag ≠ '1'.toUInt8 ∧
    pkt.prodId.key = key ∧ live.productAt key = some st ∧
    st.book.lastProdMsgSeq = pkt.prodMsgSeq

namespace OrderBookManager

/-- Run lemma: as long as no other snapshot with its serial arrives, a processed
normal I083 is still the book, or the product has moved beyond it. -/
theorem adoptedOrBeyond_final
    (manager : OrderBookManager)
    {pkt : I083Packet}
    (normal : pkt.calculatedFlag ≠ '1'.toUInt8)
    (positive : 1 ≤ pkt.prodMsgSeq.toNat)
    {late : List Step}
    (noReset : ∀ step ∈ late, step.isReset = false)
    (noOther : ∀ step ∈ late,
      ¬step.OffersSnapshot pkt.prodId.key pkt.prodMsgSeq) :
    AdoptedOrBeyond pkt.prodId pkt.prodMsgSeq pkt.entries pkt.header.infoTime
      ((step.final manager (.i083 pkt :: late)).productAt pkt.prodId.key) := by
  rw [Machine.final_cons]
  refine Machine.invariant_run
    (fun manager : OrderBookManager =>
      AdoptedOrBeyond pkt.prodId pkt.prodMsgSeq pkt.entries pkt.header.infoTime
        (manager.productAt pkt.prodId.key))
    (fun state event (allowed : event.isReset = false ∧
      ¬event.OffersSnapshot pkt.prodId.key pkt.prodMsgSeq) kept => ?_) ?_
    fun step member => ⟨noReset step member, noOther step member⟩
  · rw [productAt_step]
    refine kept.action positive ?_ ?_
    · intro clears
      have resets := Step.isReset_of_actionOn_clear clears
      rw [allowed.1] at resets
      cases resets
    · intro other message feeds snapshot same
      obtain ⟨carries, sameKey⟩ := Step.key_of_actionOn_feed feeds
      exact allowed.2 ⟨other, message, carries, sameKey, snapshot, same⟩
  · have carries : (Step.i083 pkt).message = some (pkt.prodId,
        .snapshot pkt.prodMsgSeq pkt.entries pkt.header.infoTime) := if_neg normal
    rw [productAt_step_own _ carries]
    exact adoptedOrBeyond_body _

end OrderBookManager

/-- Replaying a covered message changes no product, unless it is a snapshot with
the product's last serial. -/
theorem OrderBookManager.productAt_step_covered
    {manager : OrderBookManager}
    {replayed : Step}
    {prodId : ProdIdText}
    {message : ProductMessage}
    (carries : replayed.message = some (prodId, message))
    (positive : 1 ≤ message.serial.toNat)
    {key : ProdKey}
    (covers : prodId.key = key →
      Covers (manager.productAt key) message.serial.toNat)
    (notLatest : ∀ st, prodId.key = key → manager.productAt key = some st →
      message.isSnapshot = true → st.lastSerial ≠ message.serial.toNat) :
    (manager.step replayed).1.productAt key = manager.productAt key := by
  by_cases same : prodId.key = key
  · obtain ⟨st, found, covered⟩ := covers same
    have refused : ¬message.Accepted st := by
      rintro (zero | larger)
      · omega
      · split at larger
        · next snapshot =>
            have notEqual := notLatest st same found snapshot
            omega
        · omega
    rw [← same] at found ⊢
    rw [productAt_step_own _ carries, getOrCreateLocked_eq, found, Option.getD_some,
      ProductMessage.body_refused _ refused]
  · exact productAt_step_other _ carries same

/-- Replaying a normal I083 with the product's last serial adopts it again. -/
theorem OrderBookManager.productAt_step_readopted
    {manager : OrderBookManager}
    {pkt : I083Packet}
    (normal : pkt.calculatedFlag ≠ '1'.toUInt8)
    {st : ProductState}
    (present : manager.productAt pkt.prodId.key = some st)
    (latest : st.book.lastProdMsgSeq = pkt.prodMsgSeq) :
    (manager.step (.i083 pkt)).1.productAt pkt.prodId.key =
      some (st.adoptSnapshotLocked pkt.prodId pkt.prodMsgSeq pkt.entries
        pkt.header.infoTime) := by
  have carries : (Step.i083 pkt).message = some (pkt.prodId,
      .snapshot pkt.prodMsgSeq pkt.entries pkt.header.infoTime) := if_neg normal
  have accepted : (ProductMessage.snapshot pkt.prodMsgSeq pkt.entries
      pkt.header.infoTime).Accepted st :=
    Or.inr (Nat.le_of_eq (congrArg UInt32.toNat latest))
  have adopted := ProductMessage.offerSnapshot_accepted pkt.prodId pkt.entries
    pkt.header.infoTime accepted
  rw [productAt_step_own _ carries, getOrCreateLocked_eq, present, Option.getD_some,
    ProductMessage.body, adopted]

/-- Adopting an I083 again changes nothing but the suspicion, when its serial is
still the last one and no other snapshot with it has arrived since. -/
theorem OrderBookManager.adoptSnapshotLocked_latest
    {manager : OrderBookManager}
    {pkt : I083Packet}
    (normal : pkt.calculatedFlag ≠ '1'.toUInt8)
    (positive : 1 ≤ pkt.prodMsgSeq.toNat)
    {early late : List Step}
    (noReset : ∀ step ∈ late, step.isReset = false)
    (noOther : ∀ step ∈ late, ¬step.OffersSnapshot pkt.prodId.key pkt.prodMsgSeq)
    {st : ProductState}
    (present : (OrderBookManager.step.final manager
      (early ++ .i083 pkt :: late)).productAt pkt.prodId.key = some st)
    (latest : st.book.lastProdMsgSeq = pkt.prodMsgSeq) :
    st.adoptSnapshotLocked pkt.prodId pkt.prodMsgSeq pkt.entries pkt.header.infoTime =
      { st with suspect := false } := by
  have kept := adoptedOrBeyond_final (OrderBookManager.step.final manager early)
    normal positive noReset noOther
  rw [← Machine.final_append] at kept
  obtain ⟨latestState, same, alternative⟩ := kept
  cases present.symm.trans same
  have serialEq : st.lastSerial = pkt.prodMsgSeq.toNat :=
    congrArg UInt32.toNat latest
  exact (alternative.resolve_left (by omega)).2.symm

/-- The message of a normal I083 is the only snapshot a realtime channel carries. -/
theorem RealtimeMessage.eq_i083_of_isSnapshot
    {message : RealtimeMessage}
    {prodId : ProdIdText}
    {said : ProductMessage}
    (carries : message.carried = some (prodId, said))
    (snapshot : said.isSnapshot = true) :
    ∃ pkt, message = .i083 pkt ∧ pkt.calculatedFlag ≠ '1'.toUInt8 ∧
      prodId = pkt.prodId ∧
      said = .snapshot pkt.prodMsgSeq pkt.entries pkt.header.infoTime := by
  cases message with
  | i083 pkt =>
      refine ⟨pkt, rfl, ?_⟩
      by_cases trial : pkt.calculatedFlag = '1'.toUInt8
      · simp only [carried, feed, Option.bind_some, Step.message, if_pos trial] at carries
        cases carries
        cases snapshot
      · simp only [carried, feed, Option.bind_some, Step.message, if_neg trial] at carries
        cases carries
        exact ⟨trial, rfl, rfl⟩
  | i024 pkt | i025 pkt | i081 pkt =>
      cases carries
      cases snapshot
  | heartbeat received | undecoded received => cases carries

/-- Retransmissions are no-ops, up to a normal I083 that is still the latest word
on its product.  Feed any realtime message with a positive serial, or any
heartbeat, again at a later point of a run since the last reset.  No channel
tracker changes, and no product does, except the product of a normal I083 whose
serial is still the product's last serial.  That product adopts the I083 again;
when no other snapshot with the serial has arrived in between, the only change is
that its suspicion is cleared. -/
theorem retransmission_noop
    (manager : OrderBookManager)
    (blank : manager.Blank)
    (steps : List Step)
    (noReset : ∀ step ∈ steps, step.isReset = false)
    (message : RealtimeMessage)
    (kinded : message.Kinded)
    (positive : ∀ prodId said, message.carried = some (prodId, said) →
      1 ≤ said.serial.toNat)
    (processed : ∀ step ∈ message.steps, step ∈ steps) :
    let live := OrderBookManager.step.final manager steps
    let again := OrderBookManager.step.final manager (steps ++ message.steps)
    (∀ channel, again.channelAt channel = live.channelAt channel) ∧
      (∀ key, ¬message.Readopted key live →
        again.productAt key = live.productAt key) ∧
      (∀ key, message.Readopted key live → ∃ pkt st, message = .i083 pkt ∧
        live.productAt key = some st ∧
        again.productAt key = some (st.adoptSnapshotLocked pkt.prodId
          pkt.prodMsgSeq pkt.entries pkt.header.infoTime) ∧
        (∀ early late, steps = early ++ .i083 pkt :: late →
          (∀ step ∈ late, ¬step.OffersSnapshot key pkt.prodMsgSeq) →
          again.productAt key = some { st with suspect := false })) := by
  intro live again
  obtain ⟨channel, found, covered⟩ := channelSeq_le_lastSeq_final blank noReset
    (processed (.header message.header) (by simp [RealtimeMessage.steps]))
  obtain ⟨channelsKept, productsKept⟩ := OrderBookManager.step_header_covered
    kinded.not_reset kinded.not_carousel found covered
  have againEq : again = (match message.feed with
      | none => (live.step (.header message.header)).1
      | some feed => ((live.step (.header message.header)).1.step feed).1) := by
    rw [show again = OrderBookManager.step.final live message.steps from
      Machine.final_append manager steps message.steps, RealtimeMessage.steps]
    cases message.feed <;> rfl
  cases fed : message.feed with
  | none =>
      rw [fed] at againEq
      rw [againEq]
      refine ⟨channelsKept, fun key _ => productsKept key, ?_⟩
      rintro key ⟨pkt, _, rfl, _⟩
      cases fed
  | some feed =>
      rw [fed] at againEq
      rw [againEq]
      obtain ⟨prodId, said, carries, messageCarries⟩ :=
        RealtimeMessage.message_of_feed fed
      have feedProcessed : feed ∈ steps :=
        processed feed (by simp [RealtimeMessage.steps, fed])
      refine ⟨fun channel => ?_, fun key notReadopted => ?_, ?_⟩
      · rw [OrderBookManager.channelAt_step_of_message _ carries]
        exact channelsKept channel
      · rw [← productsKept key]
        refine OrderBookManager.productAt_step_covered carries
          (positive prodId said messageCarries) ?_ ?_
        · rintro rfl
          rw [productsKept]
          exact covers_final noReset feedProcessed carries
        · intro st same present snapshot latest
          obtain ⟨pkt, rfl, normal, rfl, rfl⟩ :=
            RealtimeMessage.eq_i083_of_isSnapshot messageCarries snapshot
          rw [productsKept] at present
          exact notReadopted
            ⟨pkt, st, rfl, normal, same, present, UInt32.toNat_inj.mp latest⟩
      · rintro key ⟨pkt, st, rfl, normal, rfl, present, latest⟩
        cases fed
        have readopted := OrderBookManager.productAt_step_readopted normal
          ((productsKept pkt.prodId.key).trans present) latest
        refine ⟨pkt, st, rfl, present, readopted, fun early late split noOther => ?_⟩
        subst split
        rw [readopted, OrderBookManager.adoptSnapshotLocked_latest normal
          (positive pkt.prodId (.snapshot pkt.prodMsgSeq pkt.entries
            pkt.header.infoTime) (if_neg normal))
          (fun step member => noReset step (by simp [member])) noOther present latest]

/-- The replay that is not a no-op: a heartbeat has revealed a loss after a
snapshot, and feeding the snapshot again makes its book trusted. -/
theorem retransmission_restores_trust :
    let pkt := Builders.makeI083 Builders.kProd 1
      [Builders.makeSnapshotEntry '0' 10315 4 1] 1 '0'
    let message := RealtimeMessage.i083 pkt
    let steps := Builders.feedI083 pkt ++
      [.header (Builders.makeHeader '1' 5 Builders.kRtChannel)]
    message.Kinded ∧ (∀ step ∈ steps, step.isReset = false) ∧
      (∀ step ∈ message.steps, step ∈ steps) ∧
      ((OrderBookManager.step.final {} steps).productAt
        Builders.kProd).map ProductState.suspect = some true ∧
      ((OrderBookManager.step.final {} (steps ++ message.steps)).productAt
        Builders.kProd).map ProductState.suspect = some false := by
  decide

/-- A trade fed again after a later one. -/
theorem retransmission_noop_old_trade :
    let first := Builders.makeI024 Builders.kProd 1 1
    let steps := Builders.feedI024 first ++
      Builders.feedI024 (Builders.makeI024 Builders.kProd 2 2)
    (OrderBookManager.step.final {} (steps ++ (RealtimeMessage.i024 first).steps)).channelAt
        Builders.kRtChannel =
      (OrderBookManager.step.final {} steps).channelAt Builders.kRtChannel := by
  intro first steps
  refine (retransmission_noop {} OrderBookManager.blank_new steps (by decide)
    (.i024 first) (by decide) ?_ (by decide)).1 Builders.kRtChannel
  intro prodId said carries
  cases carries
  decide

end TaifexResolver
