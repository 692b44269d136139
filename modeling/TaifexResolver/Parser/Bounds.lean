import Mathlib.Tactic.Tauto
import TaifexResolver.Parser.Process

/-!
# What a segment makes the parser read

The size of a body is its fixed part plus what its counts declare, wherever the
count bytes lie.  A handler reads exactly that many bytes from index 19 on.  Only
`handle_i025` compares the segment's length with it.
-/

namespace TaifexResolver
namespace TaifexParser

open Decoder

/-! ## Declared sizes -/

/-- The number a one-byte BCD count declares. -/
def declaredCount (byte : UInt8) : Nat := (bcdToUint [byte]).toUInt8.toNat

/-- The bytes of one product block of an I084 that starts at an index. -/
def productSize (data : Memory) (start : Nat) : Nat :=
  26 + 12 * declaredCount (data (start + 25))

/-- The bytes of a number of consecutive product blocks. -/
def productsSize (data : Memory) : Nat → Nat → Nat
  | _, 0 => 0
  | start, count + 1 =>
      productSize data start +
        productsSize data (start + productSize data start) count

/-- The bytes a segment's body takes by its kind and the counts it declares. -/
def declaredBody (data : Memory) : Nat :=
  if data 2 = 'D'.toUInt8 then 55 + 8 * (data 61 &&& 0x7F).toNat
  else if data 2 = 'E'.toUInt8 then 43
  else if data 2 = 'A'.toUInt8 then 26 + 13 * declaredCount (data 44)
  else if data 2 = 'B'.toUInt8 then 27 + 12 * declaredCount (data 45)
  else if data 2 = 'C'.toUInt8 then
    if data 19 = 'A'.toUInt8 ∨ data 19 = 'Z'.toUInt8 then 6
    else if data 19 = 'O'.toUInt8 then
      2 + productsSize data 21 (declaredCount (data 20))
    else 1
  else 0

/-- The kinds whose handler does not check the segment's length. -/
def uncheckedKinds : List UInt8 := ['D', 'A', 'B', 'C'].map Char.toUInt8

/-- A segment of a decoded kind that ends before the body it declares and its
three-byte trailer. -/
def TooShort (data : Memory) (length : Nat) : Prop :=
  (data 2 ∈ uncheckedKinds ∨ data 2 = 'E'.toUInt8) ∧
    length < 19 + declaredBody data + 3

instance (data : Memory) (length : Nat) : Decidable (TooShort data length) :=
  inferInstanceAs (Decidable (_ ∧ _))

/-! ## Sizes of the readers -/

@[simp] theorem size_bcd (len : Nat) (memory : Memory) (offset : Nat) :
    ((bcd len).decode memory offset).size = len := rfl

@[simp] theorem size_prodId (memory : Memory) (offset : Nat) :
    (prodId.decode memory offset).size = 20 := rfl

@[simp] theorem size_bcdTime (memory : Memory) (offset : Nat) :
    (bcdTime.decode memory offset).size = 6 := rfl

theorem size_matchData (memory : Memory) (offset : Nat) :
    (matchData.decode memory offset).size = 8 := rfl

theorem size_mdEntry (memory : Memory) (offset : Nat) :
    (mdEntry.decode memory offset).size = 13 := rfl

theorem size_snapshotEntry (memory : Memory) (offset : Nat) :
    (snapshotEntry.decode memory offset).size = 12 := rfl

/-- A one-byte count is decoded from the byte at the offset. -/
theorem value_bcd_one (memory : Memory) (offset : Nat) :
    ((bcd 1).decode memory offset).value = bcdToUint [memory offset] := by
  change bcdToUint ((block 1).decode memory offset).value.toList = _
  rw [toList_value_block]
  rfl

theorem size_i084Product (memory : Memory) (offset : Nat) :
    (i084Product.decode memory offset).size = productSize memory offset := by
  simp only [i084Product, size_bind, size_pure, size_prodId, size_bcd,
    size_times size_snapshotEntry, value_bcd_one, productSize, declaredCount]
  rw [Nat.add_assoc offset 20 5]
  omega

/-- The product blocks of an I084 take what they declare, one after another. -/
theorem size_times_i084Product (count : Nat) (memory : Memory) (offset : Nat) :
    ((times count i084Product).decode memory offset).size =
      productsSize memory offset count := by
  induction count generalizing offset with
  | zero => rfl
  | succ count inductionHypothesis =>
      rw [times, size_bind, size_bind, inductionHypothesis, size_pure,
        size_i084Product]
      rfl

theorem size_i024Packet (received : Header) (data : Memory) :
    ((i024Packet received).decode data 19).size =
      55 + 8 * (data 61 &&& 0x7F).toNat := by
  simp only [i024Packet, size_bind, size_pure, size_prodId, size_bcd, size_byte,
    size_bcdTime, size_times size_matchData, value_byte, Nat.reduceAdd]
  omega

theorem size_i081Packet (received : Header) (data : Memory) :
    ((i081Packet received).decode data 19).size =
      26 + 13 * declaredCount (data 44) := by
  simp only [i081Packet, size_bind, size_pure, size_prodId, size_bcd,
    size_times size_mdEntry, value_bcd_one, declaredCount, Nat.reduceAdd]
  omega

theorem size_i083Packet (received : Header) (data : Memory) :
    ((i083Packet received).decode data 19).size =
      27 + 12 * declaredCount (data 45) := by
  simp only [i083Packet, size_bind, size_pure, size_prodId, size_bcd, size_byte,
    size_times size_snapshotEntry, value_bcd_one, declaredCount, Nat.reduceAdd]
  omega

theorem size_i084Body
    (received : Header)
    (messageType : UInt8)
    (memory : Memory)
    (offset : Nat) :
    ((i084Body received messageType).decode memory offset).size =
      if messageType = 'A'.toUInt8 ∨ messageType = 'Z'.toUInt8 then 5
      else if messageType = 'O'.toUInt8 then
        1 + productsSize memory (offset + 1) (declaredCount (memory offset))
      else 0 := by
  unfold i084Body
  split_ifs
  · rfl
  · simp only [size_bind, size_pure, size_bcd, size_times_i084Product,
      value_bcd_one, declaredCount]
    omega
  · rfl

theorem size_i084Packet (received : Header) (data : Memory) :
    ((i084Packet received).decode data 19).size =
      if data 19 = 'A'.toUInt8 ∨ data 19 = 'Z'.toUInt8 then 6
      else if data 19 = 'O'.toUInt8 then
        2 + productsSize data 21 (declaredCount (data 20))
      else 1 := by
  rw [i084Packet, size_bind, size_byte, value_byte, size_i084Body]
  simp only [Nat.reduceAdd]
  split_ifs <;> omega

/-! ## What a segment makes the parser do -/

/-- The switch is over byte 2 of the segment. -/
theorem messageKind_header (data : Memory) :
    (header.decode data 1).value.messageKind = data 2 := rfl

variable (parser : TaifexParser)

theorem dispatch_unchecked
    {data : Memory}
    {received : Header}
    (same : received.messageKind = data 2)
    (unchecked : data 2 ∈ uncheckedKinds)
    (length : Nat) :
    (parser.dispatch data length received).handled = some true ∧
      (parser.dispatch data length received).reads =
        List.range' 19 (declaredBody data) := by
  simp only [uncheckedKinds, List.map_cons, List.map_nil, List.mem_cons,
    List.not_mem_nil, or_false] at unchecked
  unfold dispatch declaredBody
  rw [same]
  rcases unchecked with kind | kind | kind | kind
  · rw [kind]
    exact ⟨rfl, (i024Packet received).contiguous data 19 |>.trans
      (by rw [size_i024Packet]; rfl)⟩
  · rw [kind]
    exact ⟨rfl, (i081Packet received).contiguous data 19 |>.trans
      (by rw [size_i081Packet]; rfl)⟩
  · rw [kind]
    exact ⟨rfl, (i083Packet received).contiguous data 19 |>.trans
      (by rw [size_i083Packet]; rfl)⟩
  · rw [kind]
    exact ⟨rfl, (i084Packet received).contiguous data 19 |>.trans
      (by rw [size_i084Packet]; rfl)⟩

/-- `handle_i025` rejects a short segment, and otherwise reads its body. -/
theorem dispatch_i025
    {data : Memory}
    {received : Header}
    (same : received.messageKind = data 2)
    (kind : data 2 = 'E'.toUInt8)
    (length : Nat) :
    (length < 19 + declaredBody data + 3 ∧
      parser.dispatch data length received = { handled := some false }) ∨
    (19 + declaredBody data + 3 ≤ length ∧
      (parser.dispatch data length received).reads =
        List.range' 19 (declaredBody data)) := by
  have declared : declaredBody data = 43 := by
    rw [declaredBody, kind]
    rfl
  have dispatched : parser.dispatch data length received =
      parser.handleI025 data length received := by
    rw [dispatch, same, kind]
    rfl
  rw [declared, dispatched, handleI025]
  split
  · next short => exact Or.inl ⟨short, rfl⟩
  · next fits =>
      refine Or.inr ⟨by omega, ?_⟩
      exact (i025Packet received).contiguous data 19

theorem checksum_reads_lt
    {data : Memory}
    {length : Nat}
    (atLeast : 20 ≤ length) :
    ∀ idx ∈ (verifyChecksum data length).2, idx < length := by
  intro idx member
  rw [verifyChecksum, if_neg (by omega)] at member
  simp only [List.mem_append, List.mem_range'_1, List.mem_singleton] at member
  omega

/-- A segment that fails a check is read in bounds, nothing is called and no handler
runs. -/
theorem processRawData_refused
    {data : Memory}
    {length : Nat}
    (refused : ¬Accepted data length) :
    (∀ idx ∈ (parser.processRawData data length).reads, idx < length) ∧
      (parser.processRawData data length).calls = [] ∧
      (parser.processRawData data length).handled = none := by
  unfold processRawData
  split
  · exact ⟨fun _ member => absurd member List.not_mem_nil, rfl, rfl⟩
  · next atLeast =>
      split
      · refine ⟨fun idx member => ?_, rfl, rfl⟩
        rw [List.mem_singleton] at member
        omega
      · next escaped =>
          have failed : (verifyChecksum data length).1 = false := by
            rw [← Bool.not_eq_true]
            exact fun checked =>
              refused ⟨Nat.le_of_not_lt atLeast, not_not.mp escaped, checked⟩
          rw [if_pos failed]
          refine ⟨fun idx member => ?_, rfl, rfl⟩
          rcases List.mem_cons.mp member with rfl | checked
          · omega
          · exact checksum_reads_lt (Nat.le_of_not_lt atLeast) idx checked

/-- What the handler of a segment that is long enough reads lies in the segment. -/
theorem dispatch_reads_lt
    {data : Memory}
    {received : Header}
    (same : received.messageKind = data 2)
    {length : Nat}
    (longEnough : ¬TooShort data length) :
    ∀ idx ∈ (parser.dispatch data length received).reads, idx < length := by
  intro idx member
  by_cases unchecked : data 2 ∈ uncheckedKinds
  · have fits : ¬length < 19 + declaredBody data + 3 :=
      fun short => longEnough ⟨Or.inl unchecked, short⟩
    rw [(parser.dispatch_unchecked same unchecked length).2,
      List.mem_range'_1] at member
    omega
  · by_cases kind : data 2 = 'E'.toUInt8
    · rcases parser.dispatch_i025 same kind length with
        ⟨short, _⟩ | ⟨fits, reads⟩
      · exact absurd ⟨Or.inr kind, short⟩ longEnough
      · rw [reads, List.mem_range'_1] at member
        omega
    · have undecoded : received.messageKind ∉ decodedKinds := by
        rw [same]
        simp only [decodedKinds, uncheckedKinds, List.map_cons, List.map_nil,
          List.mem_cons, List.not_mem_nil, or_false] at unchecked ⊢
        tauto
      rw [parser.dispatch_undecoded undecoded] at member
      cases member

/-- A handler that checks the length rejects what is too short. -/
theorem dispatch_too_short
    {data : Memory}
    {received : Header}
    (same : received.messageKind = data 2)
    {length : Nat}
    (short : TooShort data length)
    (checks : data 2 ∉ uncheckedKinds) :
    parser.dispatch data length received = { handled := some false } := by
  obtain ⟨decoded, ends⟩ := short
  rcases parser.dispatch_i025 same (decoded.resolve_left checks) length with
    ⟨_, rejected⟩ | ⟨fits, _⟩
  · exact rejected
  · omega

/-- A segment is read in bounds when what its handler reads is. -/
theorem reads_lt_of_dispatch
    {data : Memory}
    {length : Nat}
    (accepted : Accepted data length)
    (body : ∀ idx ∈ (parser.dispatch data length (header.decode data 1).value).reads,
      idx < length) :
    ∀ idx ∈ (parser.processRawData data length).reads, idx < length := by
  have atLeast := accepted.1
  rw [parser.processRawData_accepted accepted]
  intro idx member
  simp only [List.mem_append, List.mem_cons, List.mem_range'_1] at member
  rcases member with ((rfl | checked) | inHeader) | inBody
  · omega
  · exact checksum_reads_lt atLeast idx checked
  · omega
  · exact body idx inBody

/-- A checked segment of an unguarded kind is read in bounds exactly when the body
it declares ends in it. -/
theorem reads_lt_iff
    {data : Memory}
    {length : Nat}
    (accepted : Accepted data length)
    (unchecked : data 2 ∈ uncheckedKinds) :
    (∀ idx ∈ (parser.processRawData data length).reads, idx < length) ↔
      19 + declaredBody data ≤ length := by
  have body :=
    (parser.dispatch_unchecked (messageKind_header data) unchecked length).2
  have atLeast := accepted.1
  constructor
  · intro inside
    by_contra beyond
    have last := inside (19 + declaredBody data - 1) (by
      rw [parser.processRawData_accepted accepted, body]
      refine List.mem_append_right _ (List.mem_range'_1.mpr ?_)
      omega)
    omega
  · intro fits
    apply parser.reads_lt_of_dispatch accepted
    intro idx member
    rw [body, List.mem_range'_1] at member
    omega

theorem notify_not_typed (received : Header) :
    ∀ call ∈ parser.notify received, call.isTyped = false := by
  intro call member
  unfold notify at member
  split at member
  · rw [List.mem_singleton.mp member]
    rfl
  · cases member

/-- What a segment owes: every index read lies in it, and if it passes the
checks but is too short for what it declares, its handler rejects it and neither
a typed feed nor a raw callback fires. -/
structure SegmentSafe (data : Memory) (length : Nat) : Prop where
  reads_lt : ∀ idx ∈ (parser.processRawData data length).reads, idx < length
  short_rejected : Accepted data length → TooShort data length →
    (parser.processRawData data length).handled = some false ∧
      ∀ call ∈ (parser.processRawData data length).calls, call.isTyped = false

/-- A handler that does not check the length never rejects. -/
theorem SegmentSafe.fits
    {parser : TaifexParser}
    {data : Memory}
    {length : Nat}
    (safe : parser.SegmentSafe data length)
    (accepted : Accepted data length)
    (unchecked : data 2 ∈ uncheckedKinds) :
    19 + declaredBody data + 3 ≤ length := by
  by_contra short
  have rejected := (safe.short_rejected accepted
    ⟨Or.inl unchecked, Nat.lt_of_not_le short⟩).1
  have handled :=
    (parser.dispatch_unchecked (messageKind_header data) unchecked length).1
  rw [parser.processRawData_accepted accepted, handled] at rejected
  cases rejected

theorem segmentSafe_of_fits
    {data : Memory}
    {length : Nat}
    (fits : Accepted data length → data 2 ∈ uncheckedKinds →
      19 + declaredBody data + 3 ≤ length) :
    parser.SegmentSafe data length := by
  by_cases accepted : Accepted data length
  · have same := messageKind_header data
    by_cases short : TooShort data length
    · have checks : data 2 ∉ uncheckedKinds := fun unchecked =>
        Nat.not_le_of_lt short.2 (fits accepted unchecked)
      have rejected := parser.dispatch_too_short same short checks
      refine ⟨parser.reads_lt_of_dispatch accepted fun idx member => ?_,
        fun _ _ => ?_⟩
      · rw [rejected] at member
        cases member
      · rw [parser.processRawData_accepted accepted, rejected]
        refine ⟨rfl, fun call member => ?_⟩
        rw [List.append_nil] at member
        exact parser.notify_not_typed _ call member
    · exact ⟨parser.reads_lt_of_dispatch accepted
        (parser.dispatch_reads_lt same short), fun _ tooShort =>
          absurd tooShort short⟩
  · exact ⟨(parser.processRawData_refused accepted).1,
      fun passes => absurd passes accepted⟩

/-- Which datagrams are read in bounds.  Whatever the bytes of a datagram and
after it, all of its segments are read within their lengths and the checked ones
that are too short for the counts they declare are rejected, exactly when each
checked I024, I081, I083 and I084 segment is long enough for the body it declares
and its trailer.  An I025 may be too short: its handler looks. -/
theorem segments_read_in_bounds_iff (data : Memory) (len : Nat) :
    (∀ segment ∈ segments data len,
      parser.SegmentSafe (data.advance segment.start) segment.length) ↔
    ∀ segment ∈ segments data len,
      Accepted (data.advance segment.start) segment.length →
      data.advance segment.start 2 ∈ uncheckedKinds →
      19 + declaredBody (data.advance segment.start) + 3 ≤ segment.length := by
  constructor
  · intro safe segment listed
    exact (safe segment listed).fits
  · intro fits segment listed
    exact parser.segmentSafe_of_fits (fits segment listed)

/-- An I081 that ends after its header, with a valid checksum. -/
def truncatedI081 : List UInt8 :=
  [0x1B, 0x32, 0x41, 0x13, 0x15, 0x35, 0x12, 0x34, 0x56, 0x00, 0x01,
    0x00, 0x00, 0x00, 0x00, 0x02, 0x01, 0x00, 0x00, 0x32, 0x0D, 0x0A]

/-- The truncated I081 is read beyond its end and fed all the same. -/
theorem truncated_i081_read_beyond_end :
    let parser : TaifexParser :=
      { bookMgr := true, onI024 := false, onI025 := false, onI081 := true
        onI083 := false, onI084 := false }
    let data := Memory.ofBytes truncatedI081
    segments data truncatedI081.length = [{ start := 0, length := 22 }] ∧
      (∃ idx ∈ (parser.processRawData data 22).reads, 22 ≤ idx) ∧
      (∃ call ∈ (parser.processRawData data 22).calls, call.isTyped = true) ∧
      ¬∀ segment ∈ segments data truncatedI081.length,
        parser.SegmentSafe (data.advance segment.start) segment.length := by
  intro parser data
  have beyond : ∃ idx ∈ (parser.processRawData data 22).reads, 22 ≤ idx := by
    decide
  have fed : ∃ call ∈ (parser.processRawData data 22).calls,
      call.isTyped = true := by
    decide
  refine ⟨by decide, beyond, fed, fun safe => ?_⟩
  have bounded := (safe { start := 0, length := 22 } (by decide)).reads_lt
  have advanced : data.advance 0 = data := by
    funext idx
    exact congrArg data (Nat.zero_add idx)
  rw [advanced] at bounded
  obtain ⟨idx, member, atLeast⟩ := beyond
  exact absurd (bounded idx member) (Nat.not_lt_of_le atLeast)

end TaifexParser
end TaifexResolver
