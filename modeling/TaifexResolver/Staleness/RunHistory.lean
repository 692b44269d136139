import TaifexResolver.OrderBook.Tracking

/-!
# Reading a run as a history

The quantities an observer of a run can compute without looking at the state:
the headers each channel has carried, and which of them reveal a gap.  The
channel trackers of the manager are the maxima and roles of these histories.
-/

namespace TaifexResolver

/-- The largest number of a list, zero for the empty list. -/
def highest (numbers : List Nat) : Nat := numbers.foldr max 0

@[simp] theorem highest_nil : highest [] = 0 := rfl

theorem highest_concat (numbers : List Nat) (last : Nat) :
    highest (numbers ++ [last]) = max (highest numbers) last := by
  induction numbers with
  | nil => simp [highest]
  | cons number rest inductionHypothesis =>
      simp only [highest, List.cons_append, List.foldr_cons] at *
      omega

theorem highest_le_iff {numbers : List Nat} {bound : Nat} :
    highest numbers ≤ bound ↔ ∀ number ∈ numbers, number ≤ bound := by
  induction numbers with
  | nil => simp
  | cons number rest inductionHypothesis =>
      simp only [highest, List.foldr_cons, List.forall_mem_cons] at *
      rw [← inductionHypothesis]
      omega

theorem highest_lt_iff {numbers : List Nat} {bound : Nat} (nonempty : numbers ≠ []) :
    highest numbers < bound ↔ ∀ number ∈ numbers, number < bound := by
  cases bound with
  | zero =>
      obtain ⟨first, rest, rfl⟩ := List.exists_cons_of_ne_nil nonempty
      apply iff_of_false (Nat.not_lt_zero _)
      intro all
      exact Nat.not_lt_zero first (all first (by simp))
  | succ bound =>
      rw [Nat.lt_succ_iff, highest_le_iff]
      simp only [Nat.lt_succ_iff]

/-- The headers a run has carried on one channel, in order. -/
def headersOn (channel : UInt16) (steps : List Step) : List Header :=
  steps.filterMap fun step =>
    match step with
    | .header received =>
        if received.channelId = channel then some received else none
    | _ => none

/-- The channel sequences of some headers. -/
def channelSeqs (headers : List Header) : List Nat :=
  headers.map fun header => header.channelSeq.toNat

/-- A step that reveals a gap, given the steps before it: a header on a channel
that has carried headers before and never an I084, whose channel sequence
exceeds the largest so far, for a heartbeat, or its successor, for any other
kind. -/
def Step.IsGap (earlier : List Step) : Step → Prop
  | .header received =>
      let before := headersOn received.channelId earlier
      before ≠ [] ∧
        (∀ header ∈ before ++ [received], header.messageKind ≠ 'C'.toUInt8) ∧
        (if received.messageKind = '1'.toUInt8 then
          highest (channelSeqs before) < received.channelSeq.toNat
        else highest (channelSeqs before) + 1 < received.channelSeq.toNat)
  | _ => False

/-- A tracker that summarises the headers of its channel. -/
structure Summarises (headers : List Header) (found : Option ChannelState) : Prop where
  absent : found = none ↔ headers = []
  lastSeq : ∀ channel, found = some channel →
    channel.lastSeq.toNat = highest (channelSeqs headers)
  role : ∀ channel, found = some channel →
    (channel.isSnapshotChannel = false ↔
      ∀ header ∈ headers, header.messageKind ≠ 'C'.toUInt8)

namespace Summarises

theorem nothing : Summarises [] none where
  absent := by simp
  lastSeq := by
    intro channel found
    cases found
  role := by
    intro channel found
    cases found

/-- Step lemma: advancing the tracker summarises one more header. -/
theorem advance
    {headers : List Header}
    {found : Option ChannelState}
    (summary : Summarises headers found)
    (received : Header) :
    Summarises (headers ++ [received])
      (some (ChannelState.advance found received)) := by
  refine ⟨by simp, fun channel equal => ?_, fun channel equal => ?_⟩
  · cases equal
    rw [channelSeqs, List.map_append, List.map_singleton, highest_concat]
    cases found with
    | none =>
        have empty := summary.absent.mp rfl
        subst empty
        simp
    | some channel =>
        rw [ChannelState.toNat_lastSeq_advance_some,
          summary.lastSeq channel rfl, channelSeqs]
  · cases equal
    cases found with
    | none =>
        have empty := summary.absent.mp rfl
        subst empty
        simp [ChannelState.advance]
    | some channel =>
        simp only [ChannelState.advance, Bool.or_eq_false_iff,
          decide_eq_false_iff_not, summary.role channel rfl,
          List.mem_append, List.mem_singleton]
        constructor
        · rintro ⟨old, new⟩ header (member | rfl)
          · exact old header member
          · exact new
        · intro all
          exact ⟨fun header member => all header (Or.inl member),
            all received (Or.inr rfl)⟩

/-- A header reveals a loss to the tracker exactly when the history says so. -/
theorem revealsGap_iff
    {earlier : List Step}
    {found : Option ChannelState}
    {received : Header}
    (summary : Summarises (headersOn received.channelId earlier) found) :
    ChannelState.RevealsGap found received ↔
      (Step.header received).IsGap earlier := by
  simp only [Step.IsGap]
  cases found with
  | none =>
      have empty := summary.absent.mp rfl
      simp [ChannelState.not_revealsGap_none, empty]
  | some channel =>
      have nonempty : headersOn received.channelId earlier ≠ [] := by
        intro empty
        cases summary.absent.mpr empty
      rw [ChannelState.revealsGap_some, summary.role channel rfl,
        summary.lastSeq channel rfl]
      simp only [List.mem_append, List.mem_singleton, ne_eq, nonempty,
        not_false_eq_true, true_and]
      constructor
      · rintro ⟨old, new, larger⟩
        refine ⟨?_, larger⟩
        rintro header (member | rfl)
        · exact old header member
        · exact new
      · rintro ⟨all, larger⟩
        exact ⟨fun header member => all header (Or.inl member),
          all received (Or.inr rfl), larger⟩

end Summarises

theorem headersOn_concat (channel : UInt16) (steps : List Step) (last : Step) :
    headersOn channel (steps ++ [last]) =
      headersOn channel steps ++ headersOn channel [last] := by
  simp [headersOn]

/-- Run lemma: since the last reset, every tracker summarises its channel. -/
theorem summarises_final
    {manager : OrderBookManager}
    (blank : manager.Blank)
    {steps : List Step}
    (noReset : ∀ step ∈ steps, step.isReset = false)
    (channel : UInt16) :
    Summarises (headersOn channel steps)
      ((OrderBookManager.step.final manager steps).channelAt channel) := by
  induction steps using List.reverseRecOn with
  | nil =>
      rw [Machine.final_nil, blank.channelAt]
      exact Summarises.nothing
  | append_singleton steps last inductionHypothesis =>
      have summary := inductionHypothesis fun step member =>
        noReset step (List.mem_append_left _ member)
      have lastKept : last.isReset = false := noReset last (by simp)
      rw [Machine.final_concat, headersOn_concat]
      rcases last.kinds with
        ⟨prodId, message, carried, _⟩ | ⟨_, resets⟩ | ⟨received, rfl, notReset⟩
      · have noHeader : headersOn channel [last] = [] := by
          cases last with
          | header received => cases carried
          | _ => rfl
        rw [OrderBookManager.channelAt_step_of_message _ carried, noHeader,
          List.append_nil]
        exact summary
      · rw [lastKept] at resets
        cases resets
      · rw [OrderBookManager.channelAt_step_header _ notReset]
        by_cases same : received.channelId = channel
        · have carried : headersOn channel [.header received] = [received] := by
            simp [headersOn, same]
          rw [if_pos same, carried]
          exact summary.advance received
        · have elsewhere : headersOn channel [.header received] = [] := by
            simp [headersOn, same]
          rw [if_neg same, elsewhere, List.append_nil]
          exact summary

end TaifexResolver
