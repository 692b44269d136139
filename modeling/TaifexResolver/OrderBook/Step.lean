import TaifexResolver.OrderBook.Manager

/-!
# Critical sections as steps of a machine

All feed methods may run concurrently, but every access to the state happens
under one mutex.  An execution is therefore a sequence of critical sections:
one for a header, one for each typed packet, and one for each product block of
an I084.  This module turns the manager into a machine over such steps and reads
off what a step does to the channel trackers and to a single product.
-/

namespace TaifexResolver

/-- One critical section of the manager. -/
inductive Step
  | header (header : Header)
  | i024 (pkt : I024Packet)
  | i025 (pkt : I025Packet)
  | i081 (pkt : I081Packet)
  | i083 (pkt : I083Packet)
  | i084Product (header : Header) (prod : I084Product)
  | reset
  deriving DecidableEq

/-- What a typed message asks of the product it is addressed to. -/
inductive ProductMessage
  | track (seq : UInt32)
  | increment (seq : UInt32) (entries : List MDEntry) (infoTime : TimeText)
  | snapshot (seq : UInt32) (entries : List SnapshotEntry) (infoTime : TimeText)
  deriving DecidableEq

namespace ProductMessage

/-- The serial a message carries. -/
def serial : ProductMessage → UInt32
  | .track seq => seq
  | .increment seq _ _ => seq
  | .snapshot seq _ _ => seq

/-- Whether a message offers a snapshot. -/
def isSnapshot : ProductMessage → Bool
  | .snapshot _ _ _ => true
  | _ => false

/-- The feed body a message runs. -/
def body (prodId : ProdIdText) :
    ProductMessage → ProductState → ProductState × Option Bool
  | .track seq => ProductState.trackOnly seq
  | .increment seq entries infoTime =>
      ProductState.applyIncrement seq entries infoTime
  | .snapshot seq entries infoTime =>
      ProductState.offerSnapshot prodId seq entries infoTime

end ProductMessage

namespace Step

/-- The product a step is addressed to and the message it carries. -/
def message : Step → Option (ProdIdText × ProductMessage)
  | .header _ => none
  | .i024 pkt => some (pkt.prodId, .track pkt.prodMsgSeq)
  | .i025 pkt => some (pkt.prodId, .track pkt.prodMsgSeq)
  | .i081 pkt =>
      some (pkt.prodId,
        .increment pkt.prodMsgSeq pkt.entries pkt.header.infoTime)
  | .i083 pkt =>
      if pkt.calculatedFlag = '1'.toUInt8 then
        some (pkt.prodId, .track pkt.prodMsgSeq)
      else
        some (pkt.prodId,
          .snapshot pkt.prodMsgSeq pkt.entries pkt.header.infoTime)
  | .i084Product packetHeader prod =>
      some (prod.prodId,
        .snapshot prod.lastProdMsgSeq prod.entries packetHeader.infoTime)
  | .reset => none

/-- Whether a step clears the whole manager: `reset()`, or an I002 header. -/
def isReset : Step → Bool
  | .header received => received.messageKind = '2'.toUInt8
  | .reset => true
  | _ => false

/-- A step that carries a message does not reset. -/
theorem isReset_of_message
    {step : Step}
    {prodId : ProdIdText}
    {message : ProductMessage}
    (carries : step.message = some (prodId, message)) :
    step.isReset = false := by
  cases step with
  | header received | reset => cases carries
  | i024 pkt | i025 pkt | i081 pkt | i083 pkt | i084Product received prod => rfl

/-- A step carries a message, resets, or is a header that does not reset. -/
theorem kinds (step : Step) :
    (∃ prodId message, step.message = some (prodId, message) ∧
      step.isReset = false) ∨
    (step.message = none ∧ step.isReset = true) ∨
    (∃ received, step = .header received ∧
      received.messageKind ≠ '2'.toUInt8) := by
  cases step with
  | header received =>
      by_cases kind : received.messageKind = '2'.toUInt8
      · exact Or.inr (Or.inl ⟨rfl, by simpa [isReset] using kind⟩)
      · exact Or.inr (Or.inr ⟨received, rfl, kind⟩)
  | reset => exact Or.inr (Or.inl ⟨rfl, rfl⟩)
  | i083 pkt =>
      apply Or.inl
      by_cases trial : pkt.calculatedFlag = '1'.toUInt8
      · exact ⟨_, _, if_pos trial, rfl⟩
      · exact ⟨_, _, if_neg trial, rfl⟩
  | i024 pkt | i025 pkt | i081 pkt | i084Product packetHeader prod =>
      exact Or.inl ⟨_, _, rfl, rfl⟩

end Step

/-- The critical sections of `on_i084`: one for each product of an `'O'` packet. -/
def I084Packet.blocks (pkt : I084Packet) : List Step :=
  if pkt.messageType = 'O'.toUInt8 then
    pkt.products.map (Step.i084Product pkt.header)
  else []

namespace OrderBookManager

/-- The state of the product with a given key, if it has been seen. -/
def productAt (manager : OrderBookManager) (key : ProdKey) : Option ProductState :=
  manager.products.lookup key

/-- The tracker of a channel, if it has carried a header. -/
def channelAt (manager : OrderBookManager) (channel : UInt16) : Option ChannelState :=
  manager.channels.lookup channel

/-- Run one critical section. -/
def step : Machine OrderBookManager Step Delivery := fun manager step =>
  match step with
  | .header header => manager.onHeader header
  | .i024 pkt => manager.onI024 pkt
  | .i025 pkt => manager.onI025 pkt
  | .i081 pkt => manager.onI081 pkt
  | .i083 pkt => manager.onI083 pkt
  | .i084Product header prod => manager.onI084Product header prod
  | .reset => manager.reset

/-- A typed step is the shared critical section around its message's body. -/
theorem step_of_message
    (manager : OrderBookManager)
    {step : Step}
    {prodId : ProdIdText}
    {message : ProductMessage}
    (carries : step.message = some (prodId, message)) :
    manager.step step = manager.feedProduct prodId (message.body prodId) := by
  cases step with
  | header header => simp [Step.message] at carries
  | reset => simp [Step.message] at carries
  | i083 pkt =>
      by_cases trial : pkt.calculatedFlag = '1'.toUInt8
      · simp only [Step.message, if_pos trial, Option.some.injEq,
          Prod.mk.injEq] at carries
        obtain ⟨rfl, rfl⟩ := carries
        simp only [OrderBookManager.step, onI083, if_pos trial]
        rfl
      · simp only [Step.message, if_neg trial, Option.some.injEq,
          Prod.mk.injEq] at carries
        obtain ⟨rfl, rfl⟩ := carries
        simp only [OrderBookManager.step, onI083, if_neg trial]
        rfl
  | i024 pkt | i025 pkt | i081 pkt | i084Product header prod =>
      simp only [Step.message, Option.some.injEq, Prod.mk.injEq] at carries
      obtain ⟨rfl, rfl⟩ := carries
      rfl

/-- A resetting step runs `collect_reset_locked`. -/
theorem step_of_isReset
    (manager : OrderBookManager)
    {step : Step}
    (resets : step.isReset = true) :
    manager.step step = manager.collectResetLocked := by
  cases step with
  | header header =>
      have kind : header.messageKind = '2'.toUInt8 := by
        simpa [Step.isReset] using resets
      simp only [OrderBookManager.step, onHeader, if_pos kind]
  | reset => rfl
  | i024 pkt | i025 pkt | i081 pkt | i083 pkt | i084Product header prod =>
      simp [Step.isReset] at resets

/-- `on_i084` runs its product blocks one by one. -/
theorem onI084_eq_run
    (manager : OrderBookManager)
    (pkt : I084Packet) :
    manager.onI084 pkt = OrderBookManager.step.run manager pkt.blocks := by
  unfold onI084 I084Packet.blocks
  split
  · generalize pkt.products = products
    induction products generalizing manager with
    | nil => rfl
    | cons prod rest inductionHypothesis =>
        simp only [Machine.run, List.map_cons, inductionHypothesis]
        rfl
  · rfl

end OrderBookManager

/-! ## Channel trackers -/

namespace ChannelState

/-- The tracker a header leaves on its channel. -/
def advance (found : Option ChannelState) (header : Header) : ChannelState where
  lastSeq :=
    match found with
    | none => header.channelSeq
    | some channel =>
        if channel.lastSeq < header.channelSeq then header.channelSeq
        else channel.lastSeq
  isSnapshotChannel :=
    match found with
    | none => header.messageKind = 'C'.toUInt8
    | some channel =>
        channel.isSnapshotChannel || header.messageKind = 'C'.toUInt8

/-- Whether a header reveals a loss on a realtime channel, given the tracker it
finds. -/
def RevealsGap (found : Option ChannelState) (header : Header) : Prop :=
  ∃ channel, found = some channel ∧
    channel.isSnapshotChannel = false ∧
    header.messageKind ≠ 'C'.toUInt8 ∧
    (if header.messageKind = '1'.toUInt8 then
      channel.lastSeq.toNat < header.channelSeq.toNat
    else channel.lastSeq.toNat + 1 < header.channelSeq.toNat)

theorem revealsGap_some (channel : ChannelState) (header : Header) :
    RevealsGap (some channel) header ↔
      channel.isSnapshotChannel = false ∧
      header.messageKind ≠ 'C'.toUInt8 ∧
      (if header.messageKind = '1'.toUInt8 then
        channel.lastSeq.toNat < header.channelSeq.toNat
      else channel.lastSeq.toNat + 1 < header.channelSeq.toNat) := by
  simp [RevealsGap]

theorem not_revealsGap_none (header : Header) : ¬RevealsGap none header := by
  rintro ⟨_, impossible, _⟩
  cases impossible

instance (found : Option ChannelState) (header : Header) :
    Decidable (RevealsGap found header) :=
  match found with
  | none => isFalse (not_revealsGap_none header)
  | some channel => decidable_of_iff _ (revealsGap_some channel header).symm

@[simp] theorem lastSeq_advance_none (header : Header) :
    (advance none header).lastSeq = header.channelSeq := rfl

theorem toNat_lastSeq_advance_some (channel : ChannelState) (header : Header) :
    (advance (some channel) header).lastSeq.toNat =
      max channel.lastSeq.toNat header.channelSeq.toNat := by
  simp only [advance]
  split
  · next less =>
      rw [UInt32.lt_iff_toNat_lt] at less
      omega
  · next notLess =>
      rw [UInt32.lt_iff_toNat_lt] at notLess
      omega

end ChannelState

/-- Contiguity of two 32-bit serials is contiguity of their values, since the
successor cannot wrap once something larger is known. -/
theorem eq_add_one_iff_toNat
    {last seq : UInt32}
    (newer : last.toNat < seq.toNat) :
    seq = last + 1 ↔ seq.toNat = last.toNat + 1 := by
  have bound := seq.toNat_lt
  rw [← UInt32.toNat_inj, UInt32.toNat_add]
  simp only [UInt32.toNat_one]
  omega

namespace OrderBookManager

/-- Reading of the gap test of `on_header` as a comparison of values. -/
private theorem gap_eq_true_iff
    (channel : ChannelState)
    (header : Header)
    (newer : header.messageKind = '1'.toUInt8 ∨
      channel.lastSeq < header.channelSeq) :
    (if header.messageKind = '1'.toUInt8 then
        decide (channel.lastSeq < header.channelSeq)
      else decide (header.channelSeq ≠ channel.lastSeq + 1)) = true ↔
    (if header.messageKind = '1'.toUInt8 then
      channel.lastSeq.toNat < header.channelSeq.toNat
    else channel.lastSeq.toNat + 1 < header.channelSeq.toNat) := by
  by_cases heartbeat : header.messageKind = '1'.toUInt8
  · simp only [if_pos heartbeat, decide_eq_true_eq, UInt32.lt_iff_toNat_lt]
  · have less : channel.lastSeq.toNat < header.channelSeq.toNat :=
      UInt32.lt_iff_toNat_lt.mp (newer.resolve_left heartbeat)
    simp only [if_neg heartbeat, decide_eq_true_eq, ne_eq,
      eq_add_one_iff_toNat less]
    omega

/-- A header that is not a reset stores the advanced tracker, and sweeps the
products exactly when it reveals a loss. -/
theorem onHeader_eq
    (manager : OrderBookManager)
    {header : Header}
    (notReset : header.messageKind ≠ '2'.toUInt8) :
    manager.onHeader header =
      let found := manager.channelAt header.channelId
      let tracked := { manager with
        channels := manager.channels.insert header.channelId
          (ChannelState.advance found header) }
      if ChannelState.RevealsGap found header then tracked.sweepSuspect
      else (tracked, []) := by
  cases lookup : manager.channelAt header.channelId with
  | none =>
      rw [channelAt] at lookup
      simp only [onHeader, if_neg notReset, lookup,
        if_neg (ChannelState.not_revealsGap_none header)]
      rfl
  | some channel =>
      rw [channelAt] at lookup
      simp only [onHeader, if_neg notReset, lookup]
      by_cases carousel : header.messageKind = 'C'.toUInt8
      · have noGap : ¬ChannelState.RevealsGap (some channel) header := by
          rw [ChannelState.revealsGap_some]
          exact fun reveals => reveals.2.1 carousel
        simp only [if_pos carousel, if_neg noGap, Bool.or_true, if_true]
        split
        · next old =>
            have notLess : ¬channel.lastSeq < header.channelSeq := by
              exact UInt32.not_lt.mpr old.2
            simp [ChannelState.advance, carousel, notLess]
        · simp [ChannelState.advance, carousel]
      · simp only [if_neg carousel]
        split
        · next old =>
            have notLess : ¬channel.lastSeq < header.channelSeq :=
              UInt32.not_lt.mpr old.2
            have noGap : ¬ChannelState.RevealsGap (some channel) header := by
              have atMost := UInt32.le_iff_toNat_le.mp old.2
              rw [ChannelState.revealsGap_some, if_neg old.1]
              omega
            simp [ChannelState.advance, carousel, notLess, noGap]
        · next fresh =>
            have newer : header.messageKind = '1'.toUInt8 ∨
                channel.lastSeq < header.channelSeq := by
              by_contra neither
              push Not at neither
              exact fresh ⟨neither.1, UInt32.not_lt.mp neither.2⟩
            have advanced :
                ({ channel with
                    lastSeq := if channel.lastSeq < header.channelSeq then
                      header.channelSeq else channel.lastSeq } : ChannelState) =
                  ChannelState.advance (some channel) header := by
              simp [ChannelState.advance, carousel]
            have gapIff := gap_eq_true_iff channel header newer
            rw [advanced]
            by_cases reveals : ChannelState.RevealsGap (some channel) header
            · have parts := (ChannelState.revealsGap_some channel header).mp reveals
              rw [if_pos reveals, gapIff.mpr parts.2.2, parts.1]
              rfl
            · have quiet : channel.isSnapshotChannel = true ∨
                  ¬(if header.messageKind = '1'.toUInt8 then
                    channel.lastSeq.toNat < header.channelSeq.toNat
                  else channel.lastSeq.toNat + 1 < header.channelSeq.toNat) := by
                by_contra neither
                push Not at neither
                exact reveals ((ChannelState.revealsGap_some channel header).mpr
                  ⟨by simpa using neither.1, carousel, neither.2⟩)
              rw [if_neg reveals]
              rcases quiet with snapshotChannel | noGap
              · simp [snapshotChannel]
              · have gapFalse := Bool.eq_false_iff.mpr (mt gapIff.mp noGap)
                rw [gapFalse]
                rfl

end OrderBookManager
end TaifexResolver
