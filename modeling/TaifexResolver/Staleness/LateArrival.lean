import TaifexResolver.Staleness.LossDetection

/-!
# Late arrivals

When messages may also arrive out of order, contiguity of the product serial no
longer proves that a loss did not concern the product: a late message clears the
suspicion although something of the product, sent after it, is still missing.
This module says exactly when that happens.
-/

namespace TaifexResolver

/-- A fresh product has received everything of its own that was sent after a
starting position and that its channel's tracker knows of. -/
def CompleteWhenFresh
    (layout : ChannelLayout)
    (start : Nat)
    (events : List ChannelEvent)
    (manager : OrderBookManager) : Prop :=
  ∀ st channel, Observed layout manager st channel → st.isStale = false →
    ∀ position, layout.own position = true → start < position →
      position ≤ channel.lastSeq.toNat → ReceivedAt events position

theorem receivedAt_concat
    {events : List ChannelEvent}
    {last : ChannelEvent}
    {position : Nat} :
    ReceivedAt (events ++ [last]) position ↔
      ReceivedAt events position ∨ ReceivedAt [last] position := by
  induction events with
  | nil => simp [ReceivedAt]
  | cons event rest inductionHypothesis =>
      rw [List.cons_append, receivedAt_cons, inductionHypothesis, ← or_assoc,
        ← receivedAt_cons]

theorem stepsOf_concat (events : List ChannelEvent) (last : ChannelEvent) :
    stepsOf (events ++ [last]) = stepsOf events ++ last.steps := by
  simp [stepsOf]

section Runs

variable {layout : ChannelLayout} {manager : OrderBookManager} {st : ProductState}
  {channel : ChannelState} {got : Nat → Prop} {events : List ChannelEvent}

/-- What one event may adopt, from what a run may adopt. -/
theorem noAdoption_at
    {before after : List ChannelEvent}
    {event : ChannelEvent}
    (noAdoption : NoAdoption layout.key manager (stepsOf events))
    (split : events = before ++ event :: after) :
    NoAdoption layout.key (OrderBookManager.step.final manager (stepsOf before))
      event.steps := by
  subst split
  rw [stepsOf, List.flatMap_append, List.flatMap_cons, noAdoption_append,
    noAdoption_append] at noAdoption
  exact noAdoption.2.1

/-- The invariant after some events, for the product and the tracker they lead to. -/
def KeptAfter
    (layout : ChannelLayout)
    (manager : OrderBookManager)
    (got : Nat → Prop)
    (events : List ChannelEvent) : Prop :=
  ∃ st channel,
    Observed layout (OrderBookManager.step.final manager (stepsOf events)) st channel ∧
      channel.isSnapshotChannel = false ∧
      Keeps layout (fun position => got position ∨ ReceivedAt events position)
        channel.lastSeq.toNat st

/-- Step lemma: an event that is safe where it happens keeps the invariant. -/
theorem KeptAfter.concat
    {last : ChannelEvent}
    (kept : KeptAfter layout manager got events)
    (conforms : last.Conforms layout)
    (noAdoption : NoAdoption layout.key
      (OrderBookManager.step.final manager (stepsOf events)) last.steps)
    (safe : last.SafeAt layout
      (OrderBookManager.step.final manager (stepsOf events))) :
    KeptAfter layout manager got (events ++ [last]) := by
  obtain ⟨middle, advanced, observed, realtime, keeps⟩ := kept
  obtain ⟨after, final, observedAfter, realtimeAfter, _, keepsAfter⟩ :=
    keeps.event observed realtime conforms noAdoption safe
  refine ⟨after, final, ?_, realtimeAfter, keepsAfter.congr fun position _ => ?_⟩
  · rw [stepsOf_concat, Machine.final_append]
    exact observedAfter
  · exact or_assoc.trans (or_congr_right receivedAt_concat.symm)

/-- A late contiguous message of a product with an unbroken chain makes the
product fresh, whatever else is missing. -/
theorem fresh_of_late_contiguous
    {message : RealtimeMessage}
    {meanwhile : List Step}
    (observed : Observed layout manager st channel)
    (realtime : channel.isSnapshotChannel = false)
    (conforms : (ChannelEvent.receive message meanwhile).Conforms layout)
    (noAdoption : NoAdoption layout.key manager
      (ChannelEvent.receive message meanwhile).steps)
    (own : message.IsFor layout.key)
    (late : message.position ≤ channel.lastSeq.toNat)
    (synced : st.synced = true)
    (contiguous : layout.serialAt message.position = st.lastSerial + 1) :
    ∃ after advanced,
      Observed layout (OrderBookManager.step.final manager
        (ChannelEvent.receive message meanwhile).steps) after advanced ∧
        advanced.lastSeq = channel.lastSeq ∧
        after.isStale = false := by
  obtain ⟨messageConforms, elsewhere⟩ := conforms
  obtain ⟨noAdoptionMeanwhile, noAdoptionFeed⟩ :=
    noAdoption_append.mp noAdoption.2
  obtain ⟨before, advanced, observedBefore, shaken, _, reach, _⟩ :=
    observed_before_feed observed realtime messageConforms elsewhere
      noAdoptionMeanwhile
  obtain ⟨prodId, said, carries, same⟩ := own
  have serial := messageConforms.serial prodId said carries same
  obtain ⟨feed, fed, feedCarries⟩ := Option.bind_eq_some_iff.mp carries
  have takes : said.Accepted before := by
    apply Or.inr
    rw [shaken.lastSerial, serial, contiguous]
    split <;> omega
  have notSnapshot : said.isSnapshot = false := by
    by_contra snapshot
    rw [fed, Option.toList_some] at noAdoptionFeed
    refine noAdoptionFeed.1 prodId said feedCarries same
      (Bool.eq_true_of_not_eq_false snapshot) ?_
    rw [← Machine.final_cons, observedBefore.product]
    exact takes
  obtain ⟨_, syncedAfter, suspectAfter, _⟩ :=
    ProductMessage.body_accepted prodId takes
  refine ⟨(said.body prodId before).1, advanced, ?_, ?_, ?_⟩
  · rw [final_receive, fed]
    exact observedBefore.feed feedCarries same
  · rw [← UInt32.toNat_inj, reach, max_eq_left late]
  · rw [ProductState.isStale_eq_false_iff, syncedAfter, suspectAfter]
    simp [ProductMessage.syncedAfter, notSnapshot, shaken.lastSerial, serial,
      contiguous, shaken.synced, synced]

/-- An unsafe event leaves the product fresh with something missing. -/
theorem SafeAt.of_completeWhenFresh
    {start : Nat}
    {event : ChannelEvent}
    (observed : Observed layout manager st channel)
    (realtime : channel.isSnapshotChannel = false)
    (keeps : Keeps layout
      (fun position => position ≤ start ∨ ReceivedAt events position)
      channel.lastSeq.toNat st)
    (conforms : event.Conforms layout)
    (noAdoption : NoAdoption layout.key manager event.steps)
    (complete : CompleteWhenFresh layout start (events ++ [event])
      (OrderBookManager.step.final manager event.steps)) :
    event.SafeAt layout manager := by
  cases event with
  | elsewhere step => trivial
  | receive message meanwhile =>
      intro other otherChannel otherObserved own late synced contiguous later after known
      cases otherObserved.product.symm.trans observed.product
      cases otherObserved.tracker.symm.trans observed.tracker
      by_contra missing
      have missingOwn : layout.own later = true := Bool.eq_true_of_not_eq_false missing
      have beyond : st.lastSerial < layout.serialAt later := by
        have larger := Substream.serialAt_lt_of_own missingOwn after
        omega
      have notGot : ¬(later ≤ start ∨ ReceivedAt events later) := fun received =>
        absurd (keeps.newest later missingOwn received) (Nat.not_le.mpr beyond)
      obtain ⟨afterSt, advanced, observedAfter, sameTracker, fresh⟩ :=
        fresh_of_late_contiguous observed realtime conforms noAdoption own late
          synced contiguous
      have received := complete afterSt advanced observedAfter fresh later missingOwn
        (Nat.lt_of_not_le fun early => notGot (Or.inl early))
        (by rw [sameTracker]; exact known)
      rcases receivedAt_concat.mp received with before | now
      · exact notGot (Or.inr before)
      · have place := ((receivedAt_receive message meanwhile later).mp now).2
        omega

end Runs

/-- Late arrivals vouch for a product exactly when nothing of it was sent after
them that is still unknown.  Start where a product is fresh and has received
everything up to the tracker's position, and receive messages of the channel in
any order, with losses and repetitions.  A fresh product has received everything
its channel's tracker knows of, in every state of the run, if and only if every
event is safe in the state it happens in. -/
theorem late_arrivals_complete_iff
    (layout : ChannelLayout)
    (manager : OrderBookManager)
    (st : ProductState)
    (channel : ChannelState)
    (observed : Observed layout manager st channel)
    (fresh : st.isStale = false)
    (realtime : channel.isSnapshotChannel = false)
    (serial : st.lastSerial = layout.serialAt channel.lastSeq.toNat)
    (events : List ChannelEvent)
    (conforms : ∀ event ∈ events, event.Conforms layout)
    (noAdoption : NoAdoption layout.key manager (stepsOf events)) :
    (∀ before after, events = before ++ after →
      CompleteWhenFresh layout channel.lastSeq.toNat before
        (OrderBookManager.step.final manager (stepsOf before))) ↔
    (∀ before event after, events = before ++ event :: after →
      event.SafeAt layout
        (OrderBookManager.step.final manager (stepsOf before))) := by
  refine @forall_prefix_iff_safe ChannelEvent events
    (KeptAfter layout manager (· ≤ channel.lastSeq.toNat)) _ _ ?_ ?_ ?_ ?_
  · refine ⟨st, channel, observed, realtime,
      (Keeps.start fresh serial).congr fun position _ => ?_⟩
    simp [ReceivedAt]
  · rintro before ⟨reached, advanced, observedAfter, _, keeps⟩
    intro other otherChannel otherObserved otherFresh position own beyond known
    cases otherObserved.product.symm.trans observedAfter.product
    cases otherObserved.tracker.symm.trans observedAfter.tracker
    exact (keeps.complete otherFresh own known).resolve_left
      (Nat.not_le.mpr beyond)
  · intro before last after split kept safe
    exact kept.concat (conforms last (by simp [split])) (noAdoption_at noAdoption split)
      safe
  · rintro before last after split ⟨middle, advanced, observedMiddle, stillRealtime,
      keepsMiddle⟩ complete
    rw [stepsOf_concat, Machine.final_append] at complete
    exact SafeAt.of_completeWhenFresh observedMiddle stillRealtime keepsMiddle
      (conforms last (by simp [split])) (noAdoption_at noAdoption split) complete

/-! ## A loss that goes unnoticed -/

namespace LateArrival

/-- A channel whose first three messages are the product's. -/
def layout : ChannelLayout where
  own := fun position => position = 1 ∨ position = 2 ∨ position = 3
  offset := 0
  channel := Builders.kRtChannel
  key := Builders.kProd

/-- The manager after the first message. -/
def start : OrderBookManager :=
  OrderBookManager.step.final {}
    (Builders.feedI081 (Builders.makeI081 Builders.kProd 1
      [Builders.makeEntry '0' '0' 10315 4 1] 1))

/-- A message of another product at position four reveals that two and three are
missing, and then two arrives late. -/
def events : List ChannelEvent :=
  [.receive (.i024 (Builders.makeI024 Builders.otherProd 9 4)) [],
    .receive (.i024 (Builders.makeI024 Builders.kProd 2 2)) []]

theorem conforms : ∀ event ∈ events, event.Conforms layout := by
  intro event member
  simp only [events, List.mem_cons, List.not_mem_nil, or_false] at member
  rcases member with rfl | rfl
  · refine ⟨⟨rfl, by decide, fun _ => ?_, ?_⟩, by simp⟩
    · apply iff_of_false (by decide)
      rintro ⟨prodId, said, carries, same⟩
      cases carries
      revert same
      decide
    · intro prodId said carries same
      cases carries
      revert same
      decide
  · refine ⟨⟨rfl, by decide, fun _ => ?_, ?_⟩, by simp⟩
    · exact iff_of_true (by decide) ⟨_, _, rfl, by decide⟩
    · intro prodId said carries _
      cases carries
      decide

theorem noAdoption : NoAdoption layout.key start (stepsOf events) := by
  refine ⟨?_, ?_, ?_, ?_, trivial⟩
  all_goals
    intro prodId said carries _ snapshot
    cases carries
  all_goals cases snapshot

theorem start_fresh : ∃ st,
    Observed layout start st { lastSeq := 1, isSnapshotChannel := false } ∧
      st.isStale = false ∧ st.lastSerial = layout.serialAt 1 := by
  have tracker : start.channelAt layout.channel =
      some { lastSeq := 1, isSnapshotChannel := false } := by decide
  have facts : (start.productAt layout.key).any (fun st =>
      st.isStale = false ∧ st.lastSerial = layout.serialAt 1) = true := by decide
  obtain ⟨st, product, fresh⟩ := (Option.any_eq_true _ _).mp facts
  exact ⟨st, ⟨product, tracker⟩, of_decide_eq_true fresh⟩

end LateArrival

/-- The late second message makes the product fresh, although the third one is
missing. -/
theorem late_arrival_hides_loss :
    (∃ st, Observed LateArrival.layout LateArrival.start st
        { lastSeq := 1, isSnapshotChannel := false } ∧
      st.isStale = false ∧ st.lastSerial = LateArrival.layout.serialAt 1) ∧
    (∀ event ∈ LateArrival.events, event.Conforms LateArrival.layout) ∧
    NoAdoption LateArrival.layout.key LateArrival.start
      (stepsOf LateArrival.events) ∧
    ¬CompleteWhenFresh LateArrival.layout 1 LateArrival.events
      (OrderBookManager.step.final LateArrival.start
        (stepsOf LateArrival.events)) := by
  refine ⟨LateArrival.start_fresh, LateArrival.conforms, LateArrival.noAdoption, ?_⟩
  intro complete
  have tracker : (OrderBookManager.step.final LateArrival.start
      (stepsOf LateArrival.events)).channelAt LateArrival.layout.channel =
        some { lastSeq := 4, isSnapshotChannel := false } := by decide
  have facts : ((OrderBookManager.step.final LateArrival.start
      (stepsOf LateArrival.events)).productAt LateArrival.layout.key).any
        (fun st => !st.isStale) = true := by decide
  obtain ⟨st, product, fresh⟩ := (Option.any_eq_true _ _).mp facts
  obtain ⟨message, meanwhile, member, _, place⟩ :=
    complete st _ ⟨product, tracker⟩ (by simpa using fresh) 3 (by decide) (by decide)
      (by decide)
  simp only [LateArrival.events, List.mem_cons, List.not_mem_nil, or_false] at member
  rcases member with equal | equal <;> cases equal <;> revert place <;> decide

/-- The criterion at the run in which a loss goes unnoticed. -/
theorem late_arrivals_complete_iff_hidden_loss :
    (∀ before after, LateArrival.events = before ++ after →
      CompleteWhenFresh LateArrival.layout 1 before
        (OrderBookManager.step.final LateArrival.start (stepsOf before))) ↔
    (∀ before event after, LateArrival.events = before ++ event :: after →
      event.SafeAt LateArrival.layout
        (OrderBookManager.step.final LateArrival.start (stepsOf before))) := by
  obtain ⟨st, observed, fresh, serial⟩ := LateArrival.start_fresh
  exact late_arrivals_complete_iff LateArrival.layout LateArrival.start st _ observed
    fresh rfl serial LateArrival.events LateArrival.conforms LateArrival.noAdoption

end TaifexResolver
