import TaifexResolver.OrderBook.Builders
import TaifexResolver.Staleness.RunHistory
import Mathlib.Data.List.Chain

/-!
# What the stale flag says about a run

The freshness of a product is a function of the history alone: which of its
events were accepted, whether their serials form an unbroken chain, and whether
a gap was revealed since the latest of them.
-/

namespace TaifexResolver

/-- What a typed message says about the product it is addressed to. -/
structure ProductEvent where
  isSnapshot : Bool
  serial : Nat
  deriving DecidableEq

namespace ProductEvent

/-- An event is accepted after some earlier ones when its serial exceeds all of
theirs, or, for a snapshot, is at least all of theirs. -/
def AcceptedAfter (earlier : List ProductEvent) (event : ProductEvent) : Prop :=
  if event.isSnapshot then ∀ other ∈ earlier, other.serial ≤ event.serial
  else ∀ other ∈ earlier, other.serial < event.serial

instance (earlier : List ProductEvent) (event : ProductEvent) :
    Decidable (event.AcceptedAfter earlier) := by
  unfold AcceptedAfter
  infer_instance

end ProductEvent

/-- The event a step is for a product. -/
def Step.productEvent (key : ProdKey) (step : Step) : Option ProductEvent :=
  step.message.bind fun carried =>
    if carried.1.key = key then
      some { isSnapshot := carried.2.isSnapshot, serial := carried.2.serial.toNat }
    else none

/-- The events of a product in a run, in order. -/
def eventsOf (key : ProdKey) (steps : List Step) : List ProductEvent :=
  steps.filterMap (Step.productEvent key)

/-- The serials of some events. -/
def serials (events : List ProductEvent) : List Nat :=
  events.map ProductEvent.serial

/-- The accepted ones among some events that follow earlier ones. -/
def acceptedFrom (earlier : List ProductEvent) :
    List ProductEvent → List ProductEvent
  | [] => []
  | event :: rest =>
      if event.AcceptedAfter earlier then
        event :: acceptedFrom (earlier ++ [event]) rest
      else acceptedFrom (earlier ++ [event]) rest

/-- The accepted events of a product in a run, in order. -/
def acceptedEvents (key : ProdKey) (steps : List Step) : List ProductEvent :=
  acceptedFrom [] (eventsOf key steps)

/-- The chain of accepted events is unbroken: it starts at the latest snapshot,
or, where there is none, at a first event with serial one, and every event after
that start carries the successor of the serial before it. -/
def ChainProven (accepted : List ProductEvent) : Prop :=
  ∃ before base after, accepted = before ++ base :: after ∧
    (∀ event ∈ after, event.isSnapshot = false) ∧
    (base.isSnapshot = true ∨ before = [] ∧ base.serial = 1) ∧
    (base :: after).IsChain fun event next => next.serial = event.serial + 1

/-- A step that is an accepted event of a product, given the steps before it. -/
def Step.IsAccepted (key : ProdKey) (earlier : List Step) (step : Step) : Prop :=
  ∃ event, step.productEvent key = some event ∧
    event.AcceptedAfter (eventsOf key earlier)

/-- No gap was revealed since some, and hence since the latest, accepted event
of a product. -/
def QuietSinceAccepted (key : ProdKey) (steps : List Step) : Prop :=
  ∃ before accepted after, steps = before ++ accepted :: after ∧
    accepted.IsAccepted key before ∧
    ∀ middle last rest, after = middle ++ last :: rest →
      ¬last.IsGap (before ++ accepted :: middle)

/-! ## Histories one step longer -/

theorem eventsOf_concat (key : ProdKey) (steps : List Step) (last : Step) :
    eventsOf key (steps ++ [last]) =
      eventsOf key steps ++ (last.productEvent key).toList := by
  cases found : last.productEvent key <;> simp [eventsOf, found]

theorem acceptedFrom_concat
    (earlier events : List ProductEvent)
    (last : ProductEvent) :
    acceptedFrom earlier (events ++ [last]) =
      acceptedFrom earlier events ++
        if last.AcceptedAfter (earlier ++ events) then [last] else [] := by
  induction events generalizing earlier with
  | nil => simp [acceptedFrom]
  | cons event rest inductionHypothesis =>
      simp only [List.cons_append, acceptedFrom, inductionHypothesis,
        List.append_assoc, List.nil_append]
      split <;> simp

/-- Acceptance compares with the largest serial so far. -/
theorem ProductEvent.acceptedAfter_iff
    {earlier : List ProductEvent}
    {event : ProductEvent}
    (nonempty : earlier ≠ []) :
    event.AcceptedAfter earlier ↔
      if event.isSnapshot then highest (serials earlier) ≤ event.serial
      else highest (serials earlier) < event.serial := by
  have serialsNonempty : serials earlier ≠ [] := by
    simpa [serials] using nonempty
  rw [highest_le_iff, highest_lt_iff serialsNonempty]
  simp [AcceptedAfter, serials]

theorem chainProven_singleton (event : ProductEvent) :
    ChainProven [event] ↔ event.isSnapshot = true ∨ event.serial = 1 := by
  constructor
  · rintro ⟨before, base, after, split, _, start, _⟩
    have isBase : before = [] ∧ event = base := by
      cases before with
      | nil => exact ⟨rfl, (List.cons_eq_cons.mp split).1⟩
      | cons head tail => simp at split
    obtain ⟨rfl, rfl⟩ := isBase
    exact start.imp id And.right
  · intro start
    exact ⟨[], event, [], rfl, by simp, start.imp id fun one => ⟨rfl, one⟩,
      List.isChain_singleton _⟩

/-- The part of a list from some element on ends where the list ends. -/
private theorem ends_in_last
    {front before after : List ProductEvent}
    {last base : ProductEvent}
    (split : front ++ [last] = before ++ base :: after) :
    ∃ initial, base :: after = initial ++ [last] := by
  rcases List.eq_nil_or_concat' (base :: after) with empty | ⟨initial, final, shape⟩
  · cases empty
  · rw [shape, ← List.append_assoc] at split
    have lastEq := (List.append_inj' split rfl).2
    cases lastEq
    exact ⟨initial, shape⟩

/-- A later event proves the chain by being a snapshot, or by continuing a
proven one. -/
theorem chainProven_concat
    (front : List ProductEvent)
    (last event : ProductEvent) :
    ChainProven (front ++ [last] ++ [event]) ↔
      event.isSnapshot = true ∨
        (ChainProven (front ++ [last]) ∧ event.serial = last.serial + 1) := by
  constructor
  · rintro ⟨before, base, after, split, increments, start, chain⟩
    rcases List.eq_nil_or_concat' after with rfl | ⟨middle, final, rfl⟩
    · obtain ⟨beforeEq, baseEq⟩ := List.append_inj' split rfl
      cases baseEq
      refine Or.inl (start.resolve_right fun first => ?_)
      rw [first.1] at beforeEq
      simp at beforeEq
    · rw [← List.cons_append, ← List.append_assoc] at split
      obtain ⟨shorter, finalEq⟩ := List.append_inj' split rfl
      cases finalEq
      obtain ⟨initial, shape⟩ := ends_in_last shorter
      rw [← List.cons_append, shape, List.append_assoc, List.singleton_append,
        List.isChain_append_cons_cons] at chain
      refine Or.inr ⟨⟨before, base, middle, shorter, fun other member => ?_,
        start, shape ▸ chain.1⟩, chain.2.1⟩
      exact increments other (List.mem_append_left _ member)
  · rintro (snapshot | ⟨⟨before, base, after, split, increments, start, chain⟩,
      next⟩)
    · exact ⟨front ++ [last], event, [], rfl, by simp, Or.inl snapshot,
        List.isChain_singleton _⟩
    · cases kind : event.isSnapshot with
      | true =>
          exact ⟨front ++ [last], event, [], rfl, by simp, Or.inl kind,
            List.isChain_singleton _⟩
      | false =>
          obtain ⟨initial, shape⟩ := ends_in_last split
          refine ⟨before, base, after ++ [event], by simp [split], ?_, start, ?_⟩
          · intro other member
            rcases List.mem_append.mp member with old | new
            · exact increments other old
            · rw [List.mem_singleton.mp new]
              exact kind
          · rw [← List.cons_append, shape, List.append_assoc,
              List.singleton_append, List.isChain_append_cons_cons, ← shape]
            exact ⟨chain, next, List.isChain_singleton _⟩

/-- Quiet after one more step: the step is an accepted event, or it was quiet
before and the step reveals no gap. -/
theorem quietSinceAccepted_concat
    (key : ProdKey)
    (steps : List Step)
    (last : Step) :
    QuietSinceAccepted key (steps ++ [last]) ↔
      last.IsAccepted key steps ∨
        (QuietSinceAccepted key steps ∧ ¬last.IsGap steps) := by
  constructor
  · rintro ⟨before, accepted, after, split, isAccepted, quiet⟩
    rcases List.eq_nil_or_concat' after with rfl | ⟨middle, final, rfl⟩
    · obtain ⟨beforeEq, lastEq⟩ := List.append_inj' split rfl
      cases beforeEq
      cases lastEq
      exact Or.inl isAccepted
    · rw [← List.cons_append, ← List.append_assoc] at split
      obtain ⟨shorter, finalEq⟩ := List.append_inj' split rfl
      cases finalEq
      refine Or.inr ⟨⟨before, accepted, middle, shorter, isAccepted, ?_⟩, ?_⟩
      · intro front candidate rest shape
        exact quiet front candidate (rest ++ [last]) (by simp [shape])
      · rw [shorter]
        exact quiet middle last [] rfl
  · rintro (isAccepted | ⟨⟨before, accepted, after, split, isAccepted, quiet⟩,
      noGap⟩)
    · exact ⟨steps, last, [], rfl, isAccepted, by simp⟩
    · refine ⟨before, accepted, after ++ [last], by simp [split], isAccepted, ?_⟩
      intro middle candidate rest shape
      rcases List.eq_nil_or_concat' rest with rfl | ⟨shorter, final, rfl⟩
      · obtain ⟨middleEq, candidateEq⟩ := List.append_inj' shape rfl
        cases middleEq
        cases candidateEq
        rw [← split]
        exact noGap
      · rw [← List.cons_append, ← List.append_assoc] at shape
        exact quiet middle candidate shorter (List.append_inj' shape rfl).1

/-! ## The invariant -/

/-- What the fields of a product say about the run so far. -/
structure Chronicle (key : ProdKey) (steps : List Step) (st : ProductState) : Prop where
  lastSerial : st.lastSerial = highest (serials (eventsOf key steps))
  lastAccepted : ∃ front last, acceptedEvents key steps = front ++ [last] ∧
    last.serial = st.lastSerial
  synced : st.synced = true ↔ ChainProven (acceptedEvents key steps)
  /-- A zero serial can only come from a snapshot. -/
  zero : st.lastSerial = 0 → st.synced = true
  suspect : st.synced = true →
    (st.suspect = false ↔ QuietSinceAccepted key steps)

/-- The product is absent until its first event, and then chronicles the run. -/
structure Chronicled
    (key : ProdKey)
    (steps : List Step)
    (found : Option ProductState) : Prop where
  absent : found = none ↔ eventsOf key steps = []
  present : ∀ st, found = some st → Chronicle key steps st

section Steps

variable {key : ProdKey} {steps : List Step} {last : Step}

theorem eventsOf_concat_silent (silent : last.productEvent key = none) :
    eventsOf key (steps ++ [last]) = eventsOf key steps := by
  simp [eventsOf_concat, silent]

theorem acceptedEvents_concat_silent (silent : last.productEvent key = none) :
    acceptedEvents key (steps ++ [last]) = acceptedEvents key steps := by
  rw [acceptedEvents, eventsOf_concat_silent silent, acceptedEvents]

theorem acceptedEvents_concat
    {event : ProductEvent}
    (found : last.productEvent key = some event) :
    acceptedEvents key (steps ++ [last]) =
      acceptedEvents key steps ++
        if event.AcceptedAfter (eventsOf key steps) then [event] else [] := by
  rw [acceptedEvents, eventsOf_concat, found, Option.toList_some,
    acceptedFrom_concat, List.nil_append, acceptedEvents]

theorem isAccepted_iff
    {event : ProductEvent}
    (found : last.productEvent key = some event) :
    last.IsAccepted key steps ↔ event.AcceptedAfter (eventsOf key steps) := by
  simp [Step.IsAccepted, found]

/-- Step lemma for a step that says nothing about the product: only a gap
matters, and only to the suspicion. -/
theorem Chronicle.silent
    {st : ProductState}
    (silent : last.productEvent key = none)
    (chronicle : Chronicle key steps st)
    (suspicion : Bool)
    (raised : st.synced = true →
      (suspicion = false ↔ st.suspect = false ∧ ¬last.IsGap steps)) :
    Chronicle key (steps ++ [last]) { st with suspect := suspicion } where
  lastSerial := by
    rw [eventsOf_concat_silent silent]
    exact chronicle.lastSerial
  lastAccepted := by
    rw [acceptedEvents_concat_silent silent]
    exact chronicle.lastAccepted
  synced := by
    rw [acceptedEvents_concat_silent silent]
    exact chronicle.synced
  zero := chronicle.zero
  suspect := by
    intro synced
    have notAccepted : ¬last.IsAccepted key steps := by
      rintro ⟨event, found, _⟩
      rw [silent] at found
      cases found
    rw [raised synced, quietSinceAccepted_concat, chronicle.suspect synced]
    simp [notAccepted]

/-- A message addressed to the product is an event of it. -/
theorem productEvent_of_message
    {prodId : ProdIdText}
    {message : ProductMessage}
    (carries : last.message = some (prodId, message)) :
    last.productEvent prodId.key =
      some { isSnapshot := message.isSnapshot, serial := message.serial.toNat } := by
  simp [Step.productEvent, carries]

/-- Only a header can reveal a gap. -/
theorem not_isGap_of_message
    {carried : ProdIdText × ProductMessage}
    (carries : last.message = some carried) :
    ¬last.IsGap steps := by
  cases last with
  | header received => cases carries
  | _ => exact id

/-- Step lemma for the first event of a product. -/
theorem Chronicle.first
    {prodId : ProdIdText}
    {message : ProductMessage}
    (carries : last.message = some (prodId, message))
    (positive : message.isSnapshot = false → 1 ≤ message.serial.toNat)
    (noEvents : eventsOf prodId.key steps = []) :
    Chronicle prodId.key (steps ++ [last])
      (message.body prodId (ProductAction.newborn prodId)).1 := by
  have found := productEvent_of_message carries
  have accepted : message.Accepted (ProductAction.newborn prodId) := Or.inl rfl
  obtain ⟨serialEq, syncedEq, suspectEq, _⟩ :=
    ProductMessage.body_accepted prodId accepted
  have isAccepted : last.IsAccepted prodId.key steps := by
    rw [isAccepted_iff found, noEvents]
    simp [ProductEvent.AcceptedAfter]
  have acceptedOne : acceptedEvents prodId.key (steps ++ [last]) =
      [{ isSnapshot := message.isSnapshot, serial := message.serial.toNat }] := by
    rw [acceptedEvents_concat found, if_pos ((isAccepted_iff found).mp isAccepted),
      acceptedEvents, noEvents]
    rfl
  have syncedIff :
      (message.body prodId (ProductAction.newborn prodId)).1.synced = true ↔
        message.isSnapshot = true ∨ message.serial.toNat = 1 := by
    rw [syncedEq]
    simp [ProductMessage.syncedAfter, ProductState.lastSerial,
      ProductAction.newborn]
  refine ⟨?_, ⟨[], _, acceptedOne, serialEq.symm⟩, ?_, fun zero => ?_, fun _ => ?_⟩
  · rw [serialEq, eventsOf_concat, noEvents, found]
    simp [serials, highest]
  · rw [acceptedOne, chainProven_singleton]
    exact syncedIff
  · rw [syncedIff]
    cases kind : message.isSnapshot with
    | true => exact Or.inl rfl
    | false =>
        have atLeastOne := positive kind
        omega
  · rw [suspectEq, quietSinceAccepted_concat]
    simp [isAccepted]

/-- Step lemma for an event that the product accepts. -/
theorem Chronicle.accepted
    {prodId : ProdIdText}
    {message : ProductMessage}
    {st : ProductState}
    (carries : last.message = some (prodId, message))
    (positive : message.isSnapshot = false → 1 ≤ message.serial.toNat)
    (isAccepted : last.IsAccepted prodId.key steps)
    (takes : message.Accepted st)
    (chronicle : Chronicle prodId.key steps st) :
    Chronicle prodId.key (steps ++ [last]) (message.body prodId st).1 := by
  have found := productEvent_of_message carries
  obtain ⟨front, latest, shape, latestSerial⟩ := chronicle.lastAccepted
  obtain ⟨serialEq, syncedEq, suspectEq, _⟩ :=
    ProductMessage.body_accepted prodId takes
  have acceptedMore : acceptedEvents prodId.key (steps ++ [last]) =
      front ++ [latest] ++
        [{ isSnapshot := message.isSnapshot, serial := message.serial.toNat }] := by
    rw [acceptedEvents_concat found, if_pos ((isAccepted_iff found).mp isAccepted),
      shape]
  have serialAtLeast : st.lastSerial ≤ message.serial.toNat := by
    rcases takes with zero | larger
    · omega
    · split at larger
      · exact larger
      · exact Nat.le_of_lt larger
  refine ⟨?_, ⟨_, _, acceptedMore, serialEq.symm⟩, ?_, fun zero => ?_, fun _ => ?_⟩
  · rw [serialEq, eventsOf_concat, found, serials, List.map_append,
      Option.toList_some, List.map_singleton, highest_concat, ← serials,
      ← chronicle.lastSerial, max_eq_right serialAtLeast]
  · rw [syncedEq, acceptedMore, chainProven_concat, ← shape, ← chronicle.synced,
      latestSerial]
    -- At serial zero the chain is proven, so both branches ask for a successor.
    by_cases zero : st.lastSerial = 0
    · simp [ProductMessage.syncedAfter, zero, chronicle.zero zero]
    · simp [ProductMessage.syncedAfter, zero, and_comm]
  · rw [serialEq] at zero
    cases kind : message.isSnapshot with
    | true => simp [syncedEq, ProductMessage.syncedAfter, kind]
    | false =>
        have atLeastOne := positive kind
        omega
  · rw [suspectEq, quietSinceAccepted_concat]
    simp [isAccepted]

/-- Step lemma for an event that the product refuses. -/
theorem Chronicle.refused
    {event : ProductEvent}
    {st : ProductState}
    (found : last.productEvent key = some event)
    (noGap : ¬last.IsGap steps)
    (notAccepted : ¬last.IsAccepted key steps)
    (older : event.serial ≤ st.lastSerial)
    (chronicle : Chronicle key steps st) :
    Chronicle key (steps ++ [last]) st := by
  have acceptedSame :
      acceptedEvents key (steps ++ [last]) = acceptedEvents key steps := by
    rw [acceptedEvents_concat found, if_neg (mt (isAccepted_iff found).mpr notAccepted),
      List.append_nil]
  refine ⟨?_, ?_, ?_, chronicle.zero, fun synced => ?_⟩
  · rw [eventsOf_concat, found, serials, List.map_append, Option.toList_some,
      List.map_singleton, highest_concat, ← serials, ← chronicle.lastSerial,
      max_eq_left older]
  · rw [acceptedSame]
    exact chronicle.lastAccepted
  · rw [acceptedSame]
    exact chronicle.synced
  · rw [chronicle.suspect synced, quietSinceAccepted_concat]
    simp [notAccepted, noGap]

/-- Step lemma for any event of a product that is present. -/
theorem Chronicle.body
    {prodId : ProdIdText}
    {message : ProductMessage}
    {st : ProductState}
    (carries : last.message = some (prodId, message))
    (positive : message.isSnapshot = false → 1 ≤ message.serial.toNat)
    (someEvents : eventsOf prodId.key steps ≠ [])
    (chronicle : Chronicle prodId.key steps st) :
    Chronicle prodId.key (steps ++ [last]) (message.body prodId st).1 := by
  have found := productEvent_of_message carries
  have acceptedIff : last.IsAccepted prodId.key steps ↔
      if message.isSnapshot then st.lastSerial ≤ message.serial.toNat
      else st.lastSerial < message.serial.toNat := by
    rw [isAccepted_iff found, ProductEvent.acceptedAfter_iff someEvents,
      chronicle.lastSerial]
  by_cases isAccepted : last.IsAccepted prodId.key steps
  · exact chronicle.accepted carries positive isAccepted
      (Or.inr (acceptedIff.mp isAccepted))
  · have refused := mt acceptedIff.mpr isAccepted
    have older : message.serial.toNat ≤ st.lastSerial := by
      split at refused <;> omega
    have notTaken : ¬message.Accepted st := by
      rintro (zero | larger)
      · cases kind : message.isSnapshot with
        | true =>
            simp only [kind, if_true] at refused
            omega
        | false =>
            have atLeastOne := positive kind
            omega
      · exact refused larger
    rw [ProductMessage.body_refused prodId notTaken]
    exact chronicle.refused found (not_isGap_of_message carries) isAccepted older

end Steps

/-- Step lemma for the product map, where the step says nothing about the
product and leaves its state, up to the suspicion a gap raises. -/
theorem Chronicled.silent
    {key : ProdKey}
    {steps : List Step}
    {last : Step}
    {found : Option ProductState}
    (silent : last.productEvent key = none)
    (chronicled : Chronicled key steps found)
    (suspicion : ProductState → Bool)
    (raised : ∀ st, found = some st → st.synced = true →
      (suspicion st = false ↔ st.suspect = false ∧ ¬last.IsGap steps)) :
    Chronicled key (steps ++ [last])
      (found.map fun st => { st with suspect := suspicion st }) := by
  refine ⟨?_, fun st mapped => ?_⟩
  · rw [Option.map_eq_none_iff, chronicled.absent, eventsOf_concat_silent silent]
  · obtain ⟨before, present, rfl⟩ := Option.map_eq_some_iff.mp mapped
    exact (chronicled.present before present).silent silent _
      (raised before present)

/-- Step lemma for an event of the product. -/
theorem Chronicled.message
    {steps : List Step}
    {last : Step}
    {prodId : ProdIdText}
    {message : ProductMessage}
    {found : Option ProductState}
    (carries : last.message = some (prodId, message))
    (positive : message.isSnapshot = false → 1 ≤ message.serial.toNat)
    (chronicled : Chronicled prodId.key steps found) :
    Chronicled prodId.key (steps ++ [last])
      ((ProductAction.feed prodId message).apply found) := by
  refine ⟨?_, fun st result => ?_⟩
  · simp [ProductAction.apply, eventsOf_concat, productEvent_of_message carries]
  · simp only [ProductAction.apply, Option.some.injEq] at result
    subst result
    cases present : found with
    | none => exact Chronicle.first carries positive (chronicled.absent.mp present)
    | some before =>
        apply (chronicled.present before present).body carries positive
        intro noEvents
        rw [chronicled.absent.mpr noEvents] at present
        cases present

/-- Run lemma: since the last reset, every product chronicles its history. -/
theorem chronicled_final
    {key : ProdKey}
    {manager : OrderBookManager}
    (blank : manager.Blank)
    {steps : List Step}
    (noReset : ∀ step ∈ steps, step.isReset = false)
    (positive : ∀ event ∈ eventsOf key steps,
      event.isSnapshot = false → 1 ≤ event.serial) :
    Chronicled key steps
      ((OrderBookManager.step.final manager steps).productAt key) := by
  induction steps using List.reverseRecOn with
  | nil =>
      rw [Machine.final_nil, blank.productAt]
      refine ⟨by simp [eventsOf], ?_⟩
      intro st found
      cases found
  | append_singleton steps last inductionHypothesis =>
      have noResetBefore : ∀ step ∈ steps, step.isReset = false :=
        fun step member => noReset step (List.mem_append_left _ member)
      have lastKept : last.isReset = false := noReset last (by simp)
      rw [eventsOf_concat] at positive
      have chronicled := inductionHypothesis noResetBefore
        fun event member => positive event (List.mem_append_left _ member)
      rw [Machine.final_concat, OrderBookManager.productAt_step]
      generalize managerEq : OrderBookManager.step.final manager steps = reached
        at chronicled ⊢
      rcases last.kinds with
        ⟨prodId, message, carries, _⟩ | ⟨_, resets⟩ | ⟨received, rfl, notReset⟩
      · by_cases same : prodId.key = key
        · subst same
          simp only [Step.actionOn, carries, if_true]
          have found := productEvent_of_message carries
          have member : _ ∈ (last.productEvent prodId.key).toList :=
            Option.mem_toList.mpr found
          exact chronicled.message carries
            (positive _ (List.mem_append_right _ member))
        · have silent : last.productEvent key = none := by
            simp [Step.productEvent, carries, same]
          simp only [Step.actionOn, carries, if_neg same]
          have kept := chronicled.silent silent ProductState.suspect
            fun st _ _ => by simp [not_isGap_of_message carries]
          simpa [ProductAction.apply] using kept
      · rw [lastKept] at resets
        cases resets
      · have revealsIff := (summarises_final blank noResetBefore
          received.channelId).revealsGap_iff
        rw [managerEq] at revealsIff
        have silent : (Step.header received).productEvent key = none := rfl
        simp only [Step.actionOn, Step.message, lastKept]
        by_cases reveals : ChannelState.RevealsGap
            (reached.channelAt received.channelId) received
        · have swept := chronicled.silent silent
            (fun st => st.suspect || st.synced)
            fun st _ synced => by simp [synced, ← revealsIff, reveals]
          simp only [if_pos reveals, Bool.false_eq_true, if_false]
          rw [ProductAction.apply_suspect]
          exact swept
        · have kept := chronicled.silent silent ProductState.suspect
            fun st _ _ => by simp [← revealsIff, reveals]
          simpa [ProductAction.apply, reveals] using kept

/-- The stale flag characterised by the history.  Take any run since the manager
was built or reset in which the serials of the product's increments are
positive, and any product seen in it.  Its last serial is the largest serial
seen, and it is fresh exactly when the chain of its accepted events is unbroken
and no gap was revealed since the latest of them. -/
theorem staleness_characterised
    (prodId : List UInt8)
    (manager : OrderBookManager)
    (blank : manager.Blank)
    (steps : List Step)
    (noReset : ∀ step ∈ steps, step.isReset = false)
    (positive : ∀ event ∈ eventsOf (trimProdId prodId) steps,
      event.isSnapshot = false → 1 ≤ event.serial)
    (seen : eventsOf (trimProdId prodId) steps ≠ []) :
    ∃ book,
      (OrderBookManager.step.final manager steps).getBook prodId = some book ∧
      book.lastProdMsgSeq.toNat =
        highest (serials (eventsOf (trimProdId prodId) steps)) ∧
      (book.isStale = false ↔
        ChainProven (acceptedEvents (trimProdId prodId) steps) ∧
          QuietSinceAccepted (trimProdId prodId) steps) := by
  have chronicled := chronicled_final blank noReset positive
  cases present : (OrderBookManager.step.final manager steps).productAt
      (trimProdId prodId) with
  | none => exact absurd (chronicled.absent.mp present) seen
  | some st =>
      have chronicle := chronicled.present st present
      rw [OrderBookManager.productAt] at present
      refine ⟨st.book.stamp st.isStale, by simp [OrderBookManager.getBook, present],
        chronicle.lastSerial, ?_⟩
      rw [OrderBook.isStale_stamp, st.isStale_eq_false_iff, chronicle.synced]
      apply and_congr_right
      intro proven
      exact chronicle.suspect (chronicle.synced.mpr proven)

/-- A first update, a heartbeat that reveals a loss on its channel, and the next
trade, which proves that the loss did not concern the product. -/
theorem staleness_characterised_contiguous_trade :
    let steps :=
      Builders.feedI081 (Builders.makeI081 Builders.kProd 1
        [Builders.makeEntry '0' '0' 10315 4 1] 1) ++
      [.header (Builders.makeHeader '1' 5 Builders.kRtChannel)] ++
      Builders.feedI024 (Builders.makeI024 Builders.kProd 2 6)
    let key := trimProdId Builders.kProd
    ∃ book,
      (OrderBookManager.step.final {} steps).getBook Builders.kProd = some book ∧
      book.lastProdMsgSeq.toNat = highest (serials (eventsOf key steps)) ∧
      (book.isStale = false ↔
        ChainProven (acceptedEvents key steps) ∧ QuietSinceAccepted key steps) := by
  intro steps key
  exact staleness_characterised Builders.kProd {} OrderBookManager.blank_new steps
    (by decide) (by decide) (by decide)

end TaifexResolver
