import TaifexResolver.Foundation.Checksum
import TaifexResolver.Parser.Bounds
import TaifexResolver.Parser.Drive

/-!
# Corrupted segments

The checksum is the exclusive or of the bytes after the escape code, so that with its
own byte they cancel.  A change of any single byte up to the checksum is seen, and a
segment that is refused might as well never have arrived.
-/

namespace TaifexResolver
namespace TaifexParser

/-- The exclusive or of bytes 1 to `length - 3`, the checksum included. -/
def checksumResidue (data : Memory) (length : Nat) : UInt8 :=
  (data.slice 1 (length - 3)).foldl (· ^^^ ·) 0

/-- The checksum is right when it cancels what it covers. -/
theorem verifyChecksum_iff_residue
    (data : Memory)
    {length : Nat}
    (atLeast : 4 ≤ length) :
    (verifyChecksum data length).1 = true ↔ checksumResidue data length = 0 := by
  have split : data.slice 1 (length - 3) =
      data.slice 1 (length - 4) ++ [data (length - 3)] := by
    have covered : length - 3 = length - 4 + 1 := by omega
    have last : 1 + (length - 4) = length - 3 := by omega
    conv_lhs => rw [covered, Memory.slice_add, last]
    rfl
  rw [verifyChecksum, if_neg (by omega), decide_eq_true_eq, checksumResidue, split,
    List.foldl_append, List.foldl_cons, List.foldl_nil]
  exact UInt8.xor_eq_zero_iff.symm

/-- A segment passes the checks exactly when it is long enough, starts with the escape
code and its checksum cancels. -/
theorem accepted_iff (data : Memory) (length : Nat) :
    Accepted data length ↔
      20 ≤ length ∧ data 0 = escCode ∧ checksumResidue data length = 0 :=
  and_congr_right fun atLeast => and_congr_right fun _ =>
    verifyChecksum_iff_residue data (by omega)

/-- Segments that differ in one byte the checksum covers, or in the checksum, do not
both cancel. -/
theorem checksumResidue_ne
    {data corrupted : Memory}
    {length position : Nat}
    (atLeast : 1 ≤ position)
    (covered : position ≤ length - 3)
    (differ : corrupted position ≠ data position)
    (agree : ∀ idx < length, idx ≠ position → corrupted idx = data idx) :
    checksumResidue corrupted length ≠ checksumResidue data length := by
  have below : position < 1 + (length - 3) := by omega
  have before : corrupted.slice 1 (position - 1) = data.slice 1 (position - 1) :=
    Memory.slice_congr fun idx _ less => agree idx (by omega) (by omega)
  have after : corrupted.slice (position + 1) (1 + (length - 3) - (position + 1)) =
      data.slice (position + 1) (1 + (length - 3) - (position + 1)) :=
    Memory.slice_congr fun idx more less => agree idx (by omega) (by omega)
  rw [checksumResidue, checksumResidue, corrupted.slice_around atLeast below,
    data.slice_around atLeast below, before, after]
  exact foldl_ne_of_single_change
    (fun item _ _ same => (UInt8.xor_left_inj item).mp same)
    (fun total _ _ same => (UInt8.xor_right_inj total).mp same) _ _ differ 0

/-- A corrupted byte, from the escape code to the checksum, is detected. -/
theorem not_accepted_of_corrupted
    {data corrupted : Memory}
    {length position : Nat}
    (accepted : Accepted data length)
    (covered : position ≤ length - 3)
    (differ : corrupted position ≠ data position)
    (agree : ∀ idx < length, idx ≠ position → corrupted idx = data idx) :
    ¬Accepted corrupted length := by
  intro corruptedAccepted
  obtain ⟨_, escaped, cancels⟩ := (accepted_iff data length).mp accepted
  obtain ⟨_, stillEscaped, stillCancels⟩ :=
    (accepted_iff corrupted length).mp corruptedAccepted
  rcases Nat.eq_zero_or_pos position with rfl | positive
  · exact differ (stillEscaped.trans escaped.symm)
  · exact checksumResidue_ne positive covered differ agree
      (stillCancels.trans cancels.symm)

variable (parser : TaifexParser)

/-- The calls for some segments, handed to `process_raw_data` one by one. -/
def processSegments (segments : List (Memory × Nat)) : List Call :=
  segments.flatMap fun segment => (parser.processRawData segment.1 segment.2).calls

/-- Corruption is detected and leaves no trace.  `process_raw_data` proceeds past its
checks exactly when the segment has at least 20 bytes, starts with the escape code and
the exclusive or of bytes 1 to `length - 3` is zero: then it announces the header to an
attached manager and dispatches.  Changing one byte of such a segment at a position up
to `length - 3` makes it refused.  A refused segment runs no handler, makes no call,
and so leaves the manager, what it delivers and the raw callbacks as they would be
without it. -/
theorem corruption_leaves_no_trace (data : Memory) (length : Nat) :
    (Accepted data length ↔
      20 ≤ length ∧ data 0 = 0x1B ∧
        (data.slice 1 (length - 3)).foldl (· ^^^ ·) 0 = 0) ∧
    (Accepted data length →
      let received := (header.decode data 1).value
      (parser.processRawData data length).calls =
          parser.notify received ++ (parser.dispatch data length received).calls ∧
        (parser.processRawData data length).handled =
          (parser.dispatch data length received).handled) ∧
    (parser.bookMgr = true →
      ((∃ received rest,
          (parser.processRawData data length).calls = .onHeader received :: rest) ↔
        Accepted data length)) ∧
    (∀ (corrupted : Memory) (position : Nat),
      Accepted data length → position ≤ length - 3 →
      corrupted position ≠ data position →
      (∀ idx < length, idx ≠ position → corrupted idx = data idx) →
      ¬Accepted corrupted length) ∧
    (¬Accepted data length →
      (parser.processRawData data length).handled = none ∧
      ∀ (manager : OrderBookManager) (before after : List (Memory × Nat)),
        parser.processSegments (before ++ (data, length) :: after) =
            parser.processSegments (before ++ after) ∧
          OrderBookManager.serve.run manager
              (parser.processSegments (before ++ (data, length) :: after)) =
            OrderBookManager.serve.run manager
              (parser.processSegments (before ++ after))) := by
  refine ⟨accepted_iff data length, fun accepted => ?_,
    fun attached => ⟨?_, fun accepted => ?_⟩,
    fun corrupted position accepted covered differ agree =>
      not_accepted_of_corrupted accepted covered differ agree, fun refused => ?_⟩
  · rw [parser.processRawData_accepted accepted]
    exact ⟨rfl, rfl⟩
  · rintro ⟨received, rest, announced⟩
    by_contra refused
    rw [(parser.processRawData_refused refused).2.1] at announced
    cases announced
  · rw [parser.processRawData_accepted accepted]
    refine ⟨(header.decode data 1).value,
      (parser.dispatch data length (header.decode data 1).value).calls, ?_⟩
    simp only [notify, if_pos attached]
    rfl
  · obtain ⟨_, silent, unhandled⟩ := parser.processRawData_refused refused
    refine ⟨unhandled, fun manager before after => ?_⟩
    have same : parser.processSegments (before ++ (data, length) :: after) =
        parser.processSegments (before ++ after) := by
      simp only [processSegments, List.flatMap_append, List.flatMap_cons, silent,
        List.nil_append]
    exact ⟨same, congrArg _ same⟩

/-- A header byte of a segment that passes the checks is flipped. -/
theorem corruption_leaves_no_trace_flipped :
    Accepted (Memory.ofBytes truncatedI081) 22 ∧
      ¬Accepted (Memory.ofBytes (truncatedI081.set 5 0x36)) 22 := by
  have parser : TaifexParser :=
    { bookMgr := true, onI024 := false, onI025 := false, onI081 := false
      onI083 := false, onI084 := false }
  have passes : Accepted (Memory.ofBytes truncatedI081) 22 := by decide
  obtain ⟨_, _, _, detected, _⟩ :=
    corruption_leaves_no_trace parser (Memory.ofBytes truncatedI081) 22
  exact ⟨passes, detected _ 5 passes (by decide) (by decide) (by decide)⟩

end TaifexParser
end TaifexResolver
