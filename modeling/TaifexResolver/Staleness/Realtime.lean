import TaifexResolver.Staleness.RunHistory

/-!
# Messages of a realtime channel

A message of a realtime channel reaches the manager as two critical sections, the
header first and the typed feed after it, except for messages that consist of a
header only.
-/

namespace TaifexResolver

/-- A message of a realtime channel. -/
inductive RealtimeMessage
  | i024 (pkt : I024Packet)
  | i025 (pkt : I025Packet)
  | i081 (pkt : I081Packet)
  | i083 (pkt : I083Packet)
  | heartbeat (received : Header)
  /-- A kind that the parser does not decode. -/
  | undecoded (received : Header)
  deriving DecidableEq

namespace RealtimeMessage

/-- The header a message carries. -/
def header : RealtimeMessage → Header
  | .i024 pkt => pkt.header
  | .i025 pkt => pkt.header
  | .i081 pkt => pkt.header
  | .i083 pkt => pkt.header
  | .heartbeat received => received
  | .undecoded received => received

/-- The typed feed of a message. -/
def feed : RealtimeMessage → Option Step
  | .i024 pkt => some (.i024 pkt)
  | .i025 pkt => some (.i025 pkt)
  | .i081 pkt => some (.i081 pkt)
  | .i083 pkt => some (.i083 pkt)
  | .heartbeat _ => none
  | .undecoded _ => none

/-- `on_header`, then the typed feed. -/
def steps (message : RealtimeMessage) : List Step :=
  .header message.header :: message.feed.toList

/-- The product a message is addressed to and what it says to it. -/
def carried (message : RealtimeMessage) : Option (ProdIdText × ProductMessage) :=
  message.feed.bind Step.message

/-- The position of a message on its channel. -/
def position (message : RealtimeMessage) : Nat :=
  message.header.channelSeq.toNat

/-- Whether a message is an I001, which repeats a channel sequence instead of
consuming one. -/
def isHeartbeat : RealtimeMessage → Bool
  | .heartbeat _ => true
  | _ => false

/-- A message whose header says what it is. -/
def Kinded (message : RealtimeMessage) : Prop :=
  match message with
  | .i024 pkt => pkt.header.messageKind = 'D'.toUInt8
  | .i025 pkt => pkt.header.messageKind = 'E'.toUInt8
  | .i081 pkt => pkt.header.messageKind = 'A'.toUInt8
  | .i083 pkt => pkt.header.messageKind = 'B'.toUInt8
  | .heartbeat received => received.messageKind = '1'.toUInt8
  | .undecoded received =>
      received.messageKind ∉ ['1', '2', 'A', 'B', 'C', 'D', 'E'].map Char.toUInt8

instance (message : RealtimeMessage) : Decidable message.Kinded := by
  unfold Kinded
  cases message <;> infer_instance

namespace Kinded

variable {message : RealtimeMessage}

theorem not_reset (kinded : message.Kinded) :
    message.header.messageKind ≠ '2'.toUInt8 := by
  intro kind
  cases message <;> simp only [Kinded, header] at kinded kind <;>
    rw [kind] at kinded <;> revert kinded <;> decide

theorem not_carousel (kinded : message.Kinded) :
    message.header.messageKind ≠ 'C'.toUInt8 := by
  intro kind
  cases message <;> simp only [Kinded, header] at kinded kind <;>
    rw [kind] at kinded <;> revert kinded <;> decide

theorem heartbeat_iff (kinded : message.Kinded) :
    message.header.messageKind = '1'.toUInt8 ↔ message.isHeartbeat = true := by
  cases message with
  | heartbeat received => exact iff_of_true kinded rfl
  | undecoded received =>
      refine iff_of_false (fun kind => ?_) (by simp [isHeartbeat])
      simp only [Kinded, header] at kinded kind
      rw [kind] at kinded
      revert kinded
      decide
  | i024 pkt | i025 pkt | i081 pkt | i083 pkt =>
      refine iff_of_false (fun kind => ?_) (by simp [isHeartbeat])
      simp only [Kinded, header] at kinded kind
      rw [kind] at kinded
      revert kinded
      decide

end Kinded

theorem carried_eq_none_of_isHeartbeat
    {message : RealtimeMessage}
    (heartbeat : message.isHeartbeat = true) :
    message.carried = none := by
  cases message <;> first | rfl | cases heartbeat

/-- A typed feed carries what its message carries. -/
theorem message_of_feed
    {message : RealtimeMessage}
    {fed : Step}
    (feeds : message.feed = some fed) :
    ∃ prodId said, fed.message = some (prodId, said) ∧
      message.carried = some (prodId, said) := by
  have carried : message.carried = fed.message := by
    rw [carried, feeds, Option.bind_some]
  rw [carried]
  cases message with
  | i083 pkt =>
      cases feeds
      by_cases trial : pkt.calculatedFlag = '1'.toUInt8
      · exact ⟨_, _, if_pos trial, if_pos trial⟩
      · exact ⟨_, _, if_neg trial, if_neg trial⟩
  | i024 pkt | i025 pkt | i081 pkt =>
      cases feeds
      exact ⟨_, _, rfl, rfl⟩
  | heartbeat received | undecoded received => cases feeds

end RealtimeMessage
end TaifexResolver
