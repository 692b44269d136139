import TaifexResolver.OrderBook.Builders
import TaifexResolver.Staleness.RunHistory

/-!
# The role of a channel is learned

A gap on the channel of the carousel is harmless, and the manager ignores it once the
channel has carried an I084.  Before that, after the start as after a reset, it does
not know the role of the channel.  This module says which headers of such a channel
disturb the products.
-/

namespace TaifexResolver

/-- A header that changes no product's staleness and delivers nothing. -/
def Undisturbed (manager : OrderBookManager) (received : Header) : Prop :=
  (∀ key, ((manager.step (.header received)).1.productAt key).map ProductState.isStale =
      (manager.productAt key).map ProductState.isStale) ∧
    (manager.step (.header received)).2 = []

/-- Whether some product is fresh. -/
def SomeFresh (manager : OrderBookManager) : Prop :=
  ∃ key st, manager.productAt key = some st ∧ st.isStale = false

/-- The headers a channel has carried since the last reset. -/
def heardOn (channel : UInt16) (steps : List Step) : List Header :=
  headersOn channel (since Step.isReset steps)

/-- A heartbeat above everything its channel has carried since the last reset, when
that is something, but no I084. -/
def OutrunsUnclassified (earlier : List Step) (received : Header) : Prop :=
  let heard := heardOn received.channelId earlier
  received.messageKind = '1'.toUInt8 ∧ heard ≠ [] ∧
    (∀ header ∈ heard, header.messageKind ≠ 'C'.toUInt8) ∧
    ∀ header ∈ heard, header.channelSeq < received.channelSeq

namespace OrderBookManager

/-- The state after some steps is reached from a blank manager by the steps since the
last reset. -/
theorem exists_blank_since
    {manager : OrderBookManager}
    (blank : manager.Blank)
    (steps : List Step) :
    ∃ start : OrderBookManager, start.Blank ∧
      step.final start (since Step.isReset steps) = step.final manager steps := by
  obtain ⟨before, split, ending⟩ := @exists_since Step Step.isReset steps
  rcases ending with rfl | ⟨early, last, rfl, resets⟩
  · exact ⟨manager, blank, by rw [← List.nil_append (since _ _), ← split]⟩
  · refine ⟨((step.final manager early).step last).1,
      blank_of_isReset _ resets, ?_⟩
    conv_rhs => rw [split, Machine.final_append, Machine.final_concat]

/-- The sweep skips every product when none is fresh. -/
theorem skipped_of_not_someFresh
    {manager : OrderBookManager}
    (stale : ¬SomeFresh manager)
    {key : ProdKey}
    {st : ProductState}
    (live : manager.productAt key = some st) :
    (st.suspect || !st.synced) = true := by
  by_contra trusted
  refine stale ⟨key, st, live, ?_⟩
  rw [ProductState.isStale, Bool.or_comm]
  exact Bool.eq_false_iff.mpr trusted

/-- The sweep delivers nothing when no product is fresh. -/
theorem collectTrusted_of_not_someFresh
    {manager : OrderBookManager}
    (stale : ¬SomeFresh manager) :
    manager.collectTrusted = [] := by
  apply List.flatMap_eq_nil_iff.mpr
  rintro ⟨key, st⟩ member
  have live := UnorderedMap.lookup_of_mem_entries manager.products member
  rw [if_pos (skipped_of_not_someFresh stale live)]

/-- A header disturbs the products exactly when it reveals a gap and some product is
fresh. -/
theorem undisturbed_iff
    (manager : OrderBookManager)
    {received : Header}
    (notReset : received.messageKind ≠ '2'.toUInt8) :
    Undisturbed manager received ↔
      ¬(ChannelState.RevealsGap (manager.channelAt received.channelId) received ∧
        SomeFresh manager) := by
  by_cases reveals : ChannelState.RevealsGap
      (manager.channelAt received.channelId) received
  · have swept : ∀ key, (manager.step (.header received)).1.productAt key =
        ProductAction.suspect.apply (manager.productAt key) := by
      intro key
      rw [productAt_step]
      simp only [Step.actionOn, Step.message, Step.isReset, decide_eq_true_eq,
        if_neg notReset, if_pos reveals]
    constructor
    · rintro ⟨same, _⟩ ⟨_, key, st, live, fresh⟩
      have flipped := same key
      have synced := (st.isStale_eq_false_iff.mp fresh).1
      rw [swept key, live, ProductAction.apply_suspect] at flipped
      simp [ProductState.isStale, synced] at flipped
      simp [ProductState.isStale, synced, flipped] at fresh
    · intro quiet
      have stale : ¬SomeFresh manager := fun fresh => quiet ⟨reveals, fresh⟩
      refine ⟨fun key => ?_, ?_⟩
      · rw [swept key]
        cases live : manager.productAt key with
        | none => rfl
        | some st =>
            simp only [ProductAction.apply, Option.map_some,
              if_pos (skipped_of_not_someFresh stale live)]
      · simp only [OrderBookManager.step, onHeader_eq manager notReset, if_pos reveals]
        exact @collectTrusted_of_not_someFresh { manager with channels := _ } stale
  · refine iff_of_true ⟨fun key => ?_, ?_⟩ fun disturbs => reveals disturbs.1
    · rw [productAt_step_quiet_header manager notReset reveals]
    · simp only [OrderBookManager.step, onHeader_eq manager notReset, if_neg reveals]

end OrderBookManager

/-- On a channel of I084 packets and heartbeats, a header reveals a gap exactly when
it is a heartbeat that outruns the channel before its role is known. -/
theorem revealsGap_iff_outruns
    {manager : OrderBookManager}
    (blank : manager.Blank)
    (steps : List Step)
    {received : Header}
    (kind : received.messageKind = 'C'.toUInt8 ∨ received.messageKind = '1'.toUInt8) :
    ChannelState.RevealsGap
        ((OrderBookManager.step.final manager steps).channelAt received.channelId)
        received ↔
      OutrunsUnclassified steps received := by
  obtain ⟨start, startBlank, reached⟩ :=
    OrderBookManager.exists_blank_since blank steps
  have noReset : ∀ step ∈ since Step.isReset steps, step.isReset = false :=
    fun step member => not_stops_of_mem_since member
  have summary := summarises_final startBlank noReset received.channelId
  rw [reached] at summary
  rw [summary.revealsGap_iff, Step.IsGap]
  rcases kind with carousel | heartbeat
  · refine iff_of_false (fun gap => ?_) fun outruns => ?_
    · exact gap.2.1 received (by simp) carousel
    · rw [outruns.1] at carousel
      revert carousel
      decide
  · have notCarousel : received.messageKind ≠ 'C'.toUInt8 := by
      rw [heartbeat]
      decide
    simp only [OutrunsUnclassified, heartbeat, if_true, true_and]
    refine and_congr_right fun nonempty => and_congr ?_ ?_
    · simp [List.mem_append, or_imp, forall_and, notCarousel]
      rfl
    · rw [highest_lt_iff (by simpa [channelSeqs] using nonempty)]
      simp only [channelSeqs, List.forall_mem_map, UInt32.lt_iff_toNat_lt]
      rfl

/-- Loss on the channel of the carousel.  Let a channel carry only I084 packets and
heartbeats, with any loss, repetition and restart of its sequence.  Its headers never
change the staleness of a product and never deliver anything if and only if no
heartbeat on it, while some product is fresh, outruns everything the channel has
carried since the start or the last reset, that being something, but no I084. -/
theorem snapshot_channel_undisturbed_iff
    {manager : OrderBookManager}
    (blank : manager.Blank)
    {steps : List Step}
    {channel : UInt16}
    (carries : ∀ received, Step.header received ∈ steps → received.channelId = channel →
      received.messageKind = 'C'.toUInt8 ∨ received.messageKind = '1'.toUInt8) :
    (∀ before received after, steps = before ++ .header received :: after →
      received.channelId = channel →
      Undisturbed (OrderBookManager.step.final manager before) received) ↔
    ∀ before received after, steps = before ++ .header received :: after →
      received.channelId = channel →
      ¬(OutrunsUnclassified before received ∧
        SomeFresh (OrderBookManager.step.final manager before)) := by
  refine forall_congr' fun before => forall_congr' fun received => forall_congr' fun after =>
    forall_congr' fun split => forall_congr' fun same => ?_
  have kind := carries received (by simp [split]) same
  have notReset : received.messageKind ≠ '2'.toUInt8 := by
    rcases kind with carousel | heartbeat
    · rw [carousel]
      decide
    · rw [heartbeat]
      decide
  rw [OrderBookManager.undisturbed_iff _ notReset, revealsGap_iff_outruns blank before kind]

namespace SnapshotChannel

/-- A manager with a callback for the product of the examples. -/
def start : OrderBookManager := ({} : OrderBookManager).registerCallback Builders.kProd 3

/-- A snapshot makes the product fresh. -/
def snapshot : Step :=
  .i083 (Builders.makeI083 Builders.kProd 10 [Builders.makeSnapshotEntry '0' 100 1 1] 1 '0')

/-- A header on the channel of the carousel. -/
def onChannel (kind : Char) (channelSeq : UInt32) : Step :=
  .header (Builders.makeHeader kind channelSeq Builders.kSnapChannel)

/-- Two heartbeats are all that was received of the carousel. -/
def heartbeatsOnly : List Step := [snapshot, onChannel '1' 5, onChannel '1' 7]

/-- A packet of the carousel comes before the heartbeat. -/
def carouselFirst : List Step := [snapshot, onChannel 'C' 500, onChannel '1' 900]

end SnapshotChannel

/-- When nothing but heartbeats has been received of the carousel, the second one
turns a fresh product stale. -/
theorem snapshot_channel_taints :
    (∀ received, Step.header received ∈ SnapshotChannel.heartbeatsOnly →
      received.channelId = Builders.kSnapChannel →
      received.messageKind = 'C'.toUInt8 ∨ received.messageKind = '1'.toUInt8) ∧
    ¬∀ before received after,
      SnapshotChannel.heartbeatsOnly = before ++ .header received :: after →
      received.channelId = Builders.kSnapChannel →
      Undisturbed (OrderBookManager.step.final SnapshotChannel.start before) received := by
  refine ⟨fun received member _ => Or.inr ?_, fun quiet => ?_⟩
  · simp only [SnapshotChannel.heartbeatsOnly, List.mem_cons, List.not_mem_nil,
      or_false] at member
    rcases member with impossible | same | same
    · cases impossible
    · cases same
      rfl
    · cases same
      rfl
  · have silent := (quiet [SnapshotChannel.snapshot, SnapshotChannel.onChannel '1' 5] _ []
      rfl rfl).2
    revert silent
    decide

/-- The criterion at a run in which the carousel is heard before its heartbeat, which
reveals a gap. -/
theorem snapshot_channel_undisturbed_iff_carousel_first :
    Undisturbed
      (OrderBookManager.step.final SnapshotChannel.start
        [SnapshotChannel.snapshot, SnapshotChannel.onChannel 'C' 500])
      (Builders.makeHeader '1' 900 Builders.kSnapChannel) := by
  refine (@snapshot_channel_undisturbed_iff SnapshotChannel.start ⟨rfl, rfl⟩
    SnapshotChannel.carouselFirst Builders.kSnapChannel ?_).mpr ?_
    [SnapshotChannel.snapshot, SnapshotChannel.onChannel 'C' 500] _ [] rfl rfl
  · intro received member _
    simp only [SnapshotChannel.carouselFirst, List.mem_cons, List.not_mem_nil,
      or_false] at member
    rcases member with impossible | same | same
    · cases impossible
    · cases same
      exact Or.inl rfl
    · cases same
      exact Or.inr rfl
  · rintro before received after split _ ⟨⟨heartbeat, nonempty, noCarousel, _⟩, _⟩
    match before, split with
    | [], split => cases (List.cons_eq_cons.mp split).1
    | [first], split =>
        obtain ⟨rfl, tail⟩ := List.cons_eq_cons.mp split
        exact nonempty rfl
    | [first, second], split =>
        obtain ⟨rfl, tail⟩ := List.cons_eq_cons.mp split
        obtain ⟨rfl, last⟩ := List.cons_eq_cons.mp tail
        cases (List.cons_eq_cons.mp last).1
        revert noCarousel
        decide
    | first :: second :: third :: rest, split =>
        have lengths := congrArg List.length split
        simp only [SnapshotChannel.carouselFirst, List.length_cons, List.length_nil,
          List.length_append] at lengths
        omega

end TaifexResolver
