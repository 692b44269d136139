import TaifexResolver.OrderBook.Builders
import TaifexResolver.Staleness.ChannelRun

/-!
# Loss detection on a channel received in order

When a channel is received in order, with losses, a fresh product has missed
nothing that its channel's tracker knows of.
-/

namespace TaifexResolver

/-- The messages of a channel arrive in the order they were sent: every message
lies beyond the position reached so far, and a heartbeat repeats a position at or
beyond it. -/
def InOrder : Nat → List ChannelEvent → Prop
  | _, [] => True
  | last, .elsewhere _ :: rest => InOrder last rest
  | last, .receive message _ :: rest =>
      (if message.isHeartbeat then last ≤ message.position
      else last < message.position) ∧
      InOrder message.position rest

/-- A fresh product whose last serial is that of its channel's position has
received everything up to there. -/
theorem Keeps.start
    {layout : ChannelLayout}
    {last : Nat}
    {st : ProductState}
    (fresh : st.isStale = false)
    (serial : st.lastSerial = layout.serialAt last) :
    Keeps layout (fun position => position ≤ last) last st where
  bound := serial.le
  zero := fun _ => (st.isStale_eq_false_iff.mp fresh).1
  newest := by
    intro position _ known
    rw [serial]
    exact Substream.serialAt_mono known
  chain := by
    intro _ position own known
    rw [serial] at known
    exact Substream.le_of_serialAt_le own known
  exact := fun _ => serial

theorem receivedAt_cons
    {event : ChannelEvent}
    {rest : List ChannelEvent}
    {position : Nat} :
    ReceivedAt (event :: rest) position ↔
      ReceivedAt [event] position ∨ ReceivedAt rest position := by
  simp only [ReceivedAt, List.mem_cons, List.not_mem_nil, or_false]
  constructor
  · rintro ⟨message, meanwhile, now | later, facts⟩
    · exact Or.inl ⟨message, meanwhile, now, facts⟩
    · exact Or.inr ⟨message, meanwhile, later, facts⟩
  · rintro (⟨message, meanwhile, now, facts⟩ | ⟨message, meanwhile, later, facts⟩)
    · exact ⟨message, meanwhile, Or.inl now, facts⟩
    · exact ⟨message, meanwhile, Or.inr later, facts⟩

/-- Run lemma: reception in order keeps the invariant without any condition,
since no message is late. -/
theorem Keeps.run_inOrder
    {layout : ChannelLayout}
    {manager : OrderBookManager}
    {st : ProductState}
    {channel : ChannelState}
    {got : Nat → Prop}
    {events : List ChannelEvent}
    (observed : Observed layout manager st channel)
    (realtime : channel.isSnapshotChannel = false)
    (keeps : Keeps layout got channel.lastSeq.toNat st)
    (conforms : ∀ event ∈ events, event.Conforms layout)
    (noAdoption : NoAdoption layout.key manager (stepsOf events))
    (inOrder : InOrder channel.lastSeq.toNat events) :
    ∃ after advanced,
      Observed layout (OrderBookManager.step.final manager (stepsOf events))
        after advanced ∧
        channel.lastSeq.toNat ≤ advanced.lastSeq.toNat ∧
        Keeps layout (fun position => got position ∨ ReceivedAt events position)
          advanced.lastSeq.toNat after := by
  induction events generalizing manager st channel got with
  | nil =>
      refine ⟨st, channel, observed, le_rfl, keeps.congr fun position _ => ?_⟩
      simp [ReceivedAt]
  | cons event rest inductionHypothesis =>
      have noAdoptionSplit := noAdoption_append.mp noAdoption
      have safe : event.SafeAt layout manager := by
        cases event with
        | elsewhere step => trivial
        | receive message meanwhile =>
            intro other otherChannel otherObserved own late
            have same := otherObserved.tracker.symm.trans observed.tracker
            cases same
            have ahead := inOrder.1
            rw [own.not_isHeartbeat] at ahead
            exact absurd late (Nat.not_le.mpr ahead)
      obtain ⟨middle, advanced, observedMiddle, stillRealtime, reach, keepsMiddle⟩ :=
        keeps.event observed realtime (conforms event (by simp)) noAdoptionSplit.1 safe
      have inOrderRest : InOrder advanced.lastSeq.toNat rest := by
        rw [reach]
        cases event with
        | elsewhere step => exact inOrder
        | receive message meanwhile =>
            have ahead : channel.lastSeq.toNat ≤ message.position := by
              have step := inOrder.1
              split at step
              · exact step
              · exact step.le
            rw [ChannelEvent.reach, max_eq_right ahead]
            exact inOrder.2
      obtain ⟨after, final, observedAfter, grown, keepsAfter⟩ :=
        inductionHypothesis observedMiddle stillRealtime keepsMiddle
          (fun later member => conforms later (List.mem_cons_of_mem _ member))
          noAdoptionSplit.2 inOrderRest
      refine ⟨after, final, ?_, ?_, keepsAfter.congr fun position _ => ?_⟩
      · rw [stepsOf, List.flatMap_cons, Machine.final_append]
        exact observedAfter
      · refine le_trans ?_ grown
        rw [reach]
        cases event with
        | elsewhere step => exact le_rfl
        | receive message meanwhile => exact le_max_left _ _
      · exact or_assoc.trans (or_congr_right receivedAt_cons.symm)

/-- Loss detection on an in-order lossy realtime channel is complete.  Start where
a product is fresh and its last serial is the one its channel's layout gives to
the tracker's position.  Receive any part of what follows on the channel in
order, while anything but a reset or an adopted snapshot of the product happens
elsewhere.  After every message, if the product is fresh, then every message of
the product up to the tracker's position was received, and its last serial has
grown by their number. -/
theorem loss_detection_complete
    (layout : ChannelLayout)
    (manager : OrderBookManager)
    (st : ProductState)
    (channel : ChannelState)
    (observed : Observed layout manager st channel)
    (fresh : st.isStale = false)
    (realtime : channel.isSnapshotChannel = false)
    (serial : st.lastSerial = layout.serialAt channel.lastSeq.toNat)
    (events : List ChannelEvent)
    (conforms : ∀ event ∈ events, event.Conforms layout)
    (noAdoption : NoAdoption layout.key manager (stepsOf events))
    (inOrder : InOrder channel.lastSeq.toNat events) :
    ∃ after advanced,
      Observed layout (OrderBookManager.step.final manager (stepsOf events))
        after advanced ∧
      (after.isStale = false →
        (∀ position, layout.own position = true →
          channel.lastSeq.toNat < position → position ≤ advanced.lastSeq.toNat →
          ReceivedAt events position) ∧
        after.lastSerial = st.lastSerial +
          Nat.count (fun distance => layout.own (channel.lastSeq.toNat + 1 + distance))
            (advanced.lastSeq.toNat - channel.lastSeq.toNat)) := by
  obtain ⟨after, advanced, observedAfter, grown, keeps⟩ :=
    (Keeps.start fresh serial).run_inOrder observed realtime conforms noAdoption inOrder
  refine ⟨after, advanced, observedAfter, fun freshAfter => ⟨?_, ?_⟩⟩
  · intro position own beyond known
    exact (keeps.complete freshAfter own known).resolve_left (Nat.not_le.mpr beyond)
  · rw [keeps.exact freshAfter, serial, ← Substream.serialAt_add,
      Nat.add_sub_cancel' grown]

/-- A channel that carries the product at positions one and three, of which the
second message, of another product, is lost. -/
theorem loss_detection_complete_other_product_lost :
    let layout : ChannelLayout :=
      { own := fun position => position = 1 ∨ position = 3
        offset := 0
        channel := Builders.kRtChannel
        key := Builders.kProd }
    let manager := OrderBookManager.step.final {}
      (Builders.feedI081 (Builders.makeI081 Builders.kProd 1
        [Builders.makeEntry '0' '0' 10315 4 1] 1))
    let events := [ChannelEvent.receive (.i024 (Builders.makeI024 Builders.kProd 2 3)) []]
    ∃ after, (OrderBookManager.step.final manager (stepsOf events)).productAt
        Builders.kProd = some after ∧
      after.isStale = false ∧
      ∀ position, layout.own position = true → 1 < position → position ≤ 3 →
        ReceivedAt events position := by
  intro layout manager events
  have facts : (manager.productAt Builders.kProd).any (fun st =>
        st.isStale = false ∧ st.lastSerial = 1) = true ∧
      manager.channelAt Builders.kRtChannel =
        some { lastSeq := 1, isSnapshotChannel := false } := by decide
  obtain ⟨st, product, start⟩ := (Option.any_eq_true _ _).mp facts.1
  rw [decide_eq_true_eq] at start
  have conforms : ∀ event ∈ events, event.Conforms layout := by
    intro event member
    cases List.mem_singleton.mp member
    refine ⟨⟨rfl, by decide, fun _ => ?_, ?_⟩, by simp⟩
    · exact iff_of_true (by decide) ⟨_, _, rfl, by decide⟩
    · intro prodId said carries _
      cases carries
      decide
  have noAdoption : NoAdoption layout.key manager (stepsOf events) := by
    refine ⟨?_, ?_, trivial⟩
    · intro prodId said carries
      cases carries
    · intro prodId said carries _ snapshot
      cases carries
      cases snapshot
  obtain ⟨after, advanced, observed, sound⟩ := loss_detection_complete layout manager
    st { lastSeq := 1, isSnapshotChannel := false } ⟨product, facts.2⟩ start.1 rfl
    (start.2.trans (by decide)) events conforms noAdoption ⟨by decide, trivial⟩
  have reached : ((OrderBookManager.step.final manager (stepsOf events)).productAt
        Builders.kProd).all (fun st => st.isStale = false) = true ∧
      (OrderBookManager.step.final manager (stepsOf events)).channelAt
        Builders.kRtChannel = some { lastSeq := 3, isSnapshotChannel := false } := by
    decide
  have fresh : after.isStale = false := by
    have all := reached.1
    rw [show (OrderBookManager.step.final manager (stepsOf events)).productAt
      Builders.kProd = some after from observed.product] at all
    simpa using all
  have tracker := observed.tracker.symm.trans reached.2
  cases tracker
  exact ⟨after, observed.product, fresh, (sound fresh).1⟩

end TaifexResolver
