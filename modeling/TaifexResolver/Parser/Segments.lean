import TaifexResolver.Foundation.Framing
import TaifexResolver.Parser.Process

/-!
# Cutting a datagram

The scan of `process_datagram` hands over exactly the records of the datagram that
the terminator closes, in order, and nothing of what follows the last one.
-/

namespace TaifexResolver

/-- The bytes of a segment. -/
def Segment.bytes (data : Memory) (segment : Segment) : List UInt8 :=
  data.slice segment.start segment.length

/-- The segment moved forward. -/
def Segment.shift (offset : Nat) (segment : Segment) : Segment :=
  { segment with start := offset + segment.start }

namespace TaifexParser

/-- The scan passes over a frame and cuts at its terminator. -/
theorem segmentsFrom_frame
    {data : Memory}
    {i : Nat}
    {frame : List UInt8}
    (held : data.Holds i (frame ++ [0x0D, 0x0A]))
    (free : TerminatorFree 0x0D 0x0A (frame ++ [0x0D]))
    (startPos remaining : Nat) :
    segmentsFrom data (frame.length + 1 + remaining) i startPos =
      { start := startPos, length := i + frame.length + 2 - startPos } ::
        segmentsFrom data remaining (i + frame.length + 1)
          (i + frame.length + 2) := by
  induction frame generalizing i with
  | nil =>
      obtain ⟨carriage, rest⟩ := Memory.holds_cons.mp held
      have line := (Memory.holds_cons.mp rest).1
      rw [List.length_nil, Nat.zero_add, Nat.add_comm 1, segmentsFrom,
        if_pos ⟨carriage, line⟩]
  | cons item frame inductionHypothesis =>
      obtain ⟨here, rest⟩ := Memory.holds_cons.mp held
      obtain ⟨follows, restFree⟩ := List.isChain_cons.mp free
      have noCut : ¬(data i = 0x0D ∧ data (i + 1) = 0x0A) := by
        rw [here]
        apply follows _
        cases frame with
        | nil | cons next frame => exact (Memory.holds_cons.mp rest).1 ▸ rfl
      have passes : (item :: frame).length + 1 + remaining =
          frame.length + 1 + remaining + 1 := by
        rw [List.length_cons]
        omega
      rw [passes, segmentsFrom, if_neg noCut, inductionHypothesis rest restFree,
        List.length_cons, show i + 1 + frame.length = i + (frame.length + 1) by omega]

/-- The second byte of a terminator starts none. -/
theorem segmentsFrom_line_feed
    {data : Memory}
    {i : Nat}
    (lineFeed : data i = 0x0A)
    (remaining startPos : Nat) :
    segmentsFrom data remaining i startPos =
      segmentsFrom data (remaining - 1) (i + 1) startPos := by
  cases remaining with
  | zero => rfl
  | succ remaining =>
      have noCut : ¬(data i = 0x0D ∧ data (i + 1) = 0x0A) := by
        rw [lineFeed]
        exact fun cut => absurd cut.1 (by decide)
      rw [segmentsFrom, if_neg noCut, Nat.add_sub_cancel]

/-- The scan finds no cut in bytes without a terminator. -/
theorem segmentsFrom_tail
    {data : Memory}
    {i : Nat}
    {tail : List UInt8}
    (held : data.Holds i tail)
    (free : TerminatorFree 0x0D 0x0A tail)
    (startPos : Nat) :
    segmentsFrom data (tail.length - 1) i startPos = [] := by
  induction tail generalizing i with
  | nil => rfl
  | cons item tail inductionHypothesis =>
      obtain ⟨here, rest⟩ := Memory.holds_cons.mp held
      cases tail with
      | nil => rfl
      | cons next tail =>
          obtain ⟨noPair, tailFree⟩ := List.isChain_cons_cons.mp free
          have noCut : ¬(data i = 0x0D ∧ data (i + 1) = 0x0A) := by
            rw [here, (Memory.holds_cons.mp rest).1]
            exact noPair
          rw [List.length_cons, Nat.add_sub_cancel, List.length_cons, segmentsFrom,
            if_neg noCut]
          exact inductionHypothesis rest tailFree

/-- The segments of consecutive frames. -/
def frameLayout : Nat → List (List UInt8) → List Segment
  | _, [] => []
  | start, frame :: rest =>
      { start, length := frame.length + 2 } ::
        frameLayout (start + (frame.length + 2)) rest

theorem length_closeRecord (frame : List UInt8) :
    (closeRecord (0x0D : UInt8) 0x0A frame).length = frame.length + 2 :=
  List.length_append

/-- Run lemma: the scan cuts a stream where its records end. -/
theorem segmentsFrom_cut
    {data : Memory}
    {frames : List (List UInt8)}
    {tail : List UInt8}
    (framesFree : ∀ frame ∈ frames, TerminatorFree 0x0D 0x0A (frame ++ [0x0D]))
    (tailFree : TerminatorFree 0x0D 0x0A tail)
    {start : Nat}
    (held : data.Holds start (frames.flatMap (closeRecord 0x0D 0x0A) ++ tail)) :
    segmentsFrom data
        ((frames.flatMap (closeRecord 0x0D 0x0A) ++ tail).length - 1) start start =
      frameLayout start frames := by
  induction frames generalizing start with
  | nil => exact segmentsFrom_tail held tailFree start
  | cons frame rest inductionHypothesis =>
      rw [List.flatMap_cons, List.append_assoc] at held ⊢
      obtain ⟨headHeld, restHeld⟩ := Memory.holds_append.mp held
      have restLayout := inductionHypothesis
        (fun later member => framesFree later (List.mem_cons_of_mem _ member)) restHeld
      have lineFeed : data (start + frame.length + 1) = 0x0A := by
        obtain ⟨_, terminal⟩ := Memory.holds_append.mp headHeld
        exact (Memory.holds_cons.mp (Memory.holds_cons.mp terminal).2).1
      generalize rest.flatMap (closeRecord 0x0D 0x0A) ++ tail = later at restLayout
      have passes : (closeRecord 0x0D 0x0A frame ++ later).length - 1 =
          frame.length + 1 + later.length := by
        rw [List.length_append, length_closeRecord]
        omega
      have length : start + frame.length + 2 - start = frame.length + 2 := by omega
      rw [passes, segmentsFrom_frame headHeld (framesFree frame (by simp)),
        segmentsFrom_line_feed lineFeed, frameLayout, length, ← length_closeRecord,
        ← restLayout, length_closeRecord]
      rfl

/-- The segments of a datagram are its closed records. -/
theorem segments_cut
    {data : Memory}
    {bytes tail : List UInt8}
    {frames : List (List UInt8)}
    (cut : Cut 0x0D 0x0A bytes frames tail)
    (held : data.Holds 0 bytes) :
    segments data bytes.length = frameLayout 0 frames := by
  have covers := cut.covers
  subst covers
  have scanned := segmentsFrom_cut cut.recordsFree cut.tailFree held
  unfold segments
  split
  · next short =>
      rw [List.length_append] at short
      cases frames with
      | nil => rfl
      | cons frame rest =>
          rw [List.flatMap_cons, List.length_append, length_closeRecord] at short
          omega
  · exact scanned

/-! ## Framing as a whole -/

theorem frameLayout_append (start : Nat) (first second : List (List UInt8)) :
    frameLayout start (first ++ second) =
      frameLayout start first ++
        frameLayout (start + (first.flatMap (closeRecord 0x0D 0x0A)).length) second := by
  induction first generalizing start with
  | nil => rfl
  | cons frame rest inductionHypothesis =>
      rw [List.cons_append, frameLayout, inductionHypothesis, frameLayout,
        List.cons_append, List.flatMap_cons, List.length_append, length_closeRecord,
        Nat.add_assoc start]

theorem map_shift_frameLayout (offset start : Nat) (frames : List (List UInt8)) :
    (frameLayout start frames).map (Segment.shift offset) =
      frameLayout (offset + start) frames := by
  induction frames generalizing start with
  | nil => rfl
  | cons frame rest inductionHypothesis =>
      rw [frameLayout, frameLayout, List.map_cons, inductionHypothesis, Nat.add_assoc]
      rfl

/-- The segments hold the closed records. -/
theorem map_bytes_frameLayout
    {data : Memory}
    {start : Nat}
    {frames : List (List UInt8)}
    (held : data.Holds start (frames.flatMap (closeRecord 0x0D 0x0A))) :
    (frameLayout start frames).map (Segment.bytes data) =
      frames.map (closeRecord 0x0D 0x0A) := by
  induction frames generalizing start with
  | nil => rfl
  | cons frame rest inductionHypothesis =>
      rw [List.flatMap_cons] at held
      obtain ⟨headHeld, restHeld⟩ := Memory.holds_append.mp held
      rw [length_closeRecord] at restHeld
      rw [Memory.Holds, length_closeRecord] at headHeld
      rw [frameLayout, List.map_cons, List.map_cons, inductionHypothesis restHeld]
      exact congrArg (· :: _) headHeld

/-- The terminator of a message. -/
def terminator : List UInt8 := [0x0D, 0x0A]

/-- The segments of a datagram that ends in the terminator and is followed by
another, wherever the two lie. -/
theorem segments_append
    {data former latter : Memory}
    {first second : List UInt8}
    (ends : terminator <:+ first)
    (held : data.Holds 0 (first ++ second))
    (firstHeld : former.Holds 0 first)
    (secondHeld : latter.Holds 0 second) :
    segments data (first ++ second).length =
      segments former first.length ++
        (segments latter second.length).map (Segment.shift first.length) := by
  obtain ⟨frames, firstTail, firstCut⟩ := exists_cut (0x0D : UInt8) 0x0A first
  obtain ⟨laterFrames, secondTail, secondCut⟩ := exists_cut (0x0D : UInt8) 0x0A second
  have noTail := firstCut.tail_eq_nil (by decide) ends
  subst noTail
  have covered := congrArg List.length firstCut.covers
  rw [List.append_nil] at covered
  rw [segments_cut (firstCut.append secondCut) held, segments_cut firstCut firstHeld,
    segments_cut secondCut secondHeld, frameLayout_append, map_shift_frameLayout,
    covered, Nat.zero_add, Nat.add_zero]

/-- After a part that ends in the terminator, the calls made for a datagram are those
for the rest on its own. -/
theorem processDatagram_append
    {data : Memory}
    {first second : List UInt8}
    (ends : terminator <:+ first)
    (held : data.Holds 0 (first ++ second))
    (parser : TaifexParser) :
    parser.processDatagram data (first ++ second).length =
      parser.processDatagram data first.length ++
        parser.processDatagram (data.advance first.length) second.length := by
  have parts := Memory.holds_append.mp held
  have secondHeld : (data.advance first.length).Holds 0 second :=
    Memory.holds_advance.mpr (by simpa using parts.2)
  rw [processDatagram, segments_append ends held parts.1 secondHeld,
    List.flatMap_append, List.flatMap_map]
  congr 2
  funext segment
  have moved : data.advance (segment.shift first.length).start =
      (data.advance first.length).advance segment.start := by
    funext idx
    exact congrArg data (Nat.add_assoc _ _ _)
  rw [moved]
  rfl

/-- Framing partitions every datagram and resynchronises.  The segments handed to
`process_raw_data`, in order, make up the longest prefix of the datagram that ends in
the terminator; each ends in the terminator and holds it nowhere else.  After a part
that ends in the terminator the segments, and the calls made for them, are those of
the rest on its own. -/
theorem framing_partitions
    (data : Memory)
    (datagram : List UInt8)
    (held : data.Holds 0 datagram) :
    let contents := (segments data datagram.length).map (Segment.bytes data)
    (contents.flatten <+: datagram ∧
      (contents.flatten = [] ∨ terminator <:+ contents.flatten) ∧
      ∀ other, other <+: datagram → terminator <:+ other →
        other.length ≤ contents.flatten.length) ∧
    (∀ content ∈ contents, terminator <:+ content ∧
      ∀ before after, content = before ++ terminator ++ after → after = []) ∧
    ∀ garbage rest, datagram = garbage ++ rest → terminator <:+ garbage →
      (∀ former latter : Memory, former.Holds 0 garbage → latter.Holds 0 rest →
        segments data datagram.length =
          segments former garbage.length ++
            (segments latter rest.length).map (Segment.shift garbage.length)) ∧
      ∀ parser : TaifexParser,
        parser.processDatagram data datagram.length =
          parser.processDatagram data garbage.length ++
            parser.processDatagram (data.advance garbage.length) rest.length := by
  intro contents
  obtain ⟨frames, tail, cut⟩ := exists_cut (0x0D : UInt8) 0x0A datagram
  have framesHeld : data.Holds 0 (frames.flatMap (closeRecord 0x0D 0x0A)) := by
    rw [cut.covers] at held
    exact (Memory.holds_append.mp held).1
  have contentsEq : contents = frames.map (closeRecord 0x0D 0x0A) := by
    rw [← map_bytes_frameLayout framesHeld, ← segments_cut cut held]
  have flattened : contents.flatten = frames.flatMap (closeRecord 0x0D 0x0A) := by
    rw [contentsEq]
    rfl
  refine ⟨⟨?_, ?_, fun other isPrefix ends => ?_⟩, fun content member => ?_,
    fun garbage rest split ends => ?_⟩
  · rw [flattened, cut.covers]
    exact List.prefix_append _ tail
  · rw [flattened]
    exact cut.suffix_closed
  · rw [flattened]
    exact cut.length_le_of_suffix (by decide) isPrefix ends
  · rw [contentsEq] at member
    obtain ⟨frame, among, rfl⟩ := List.mem_map.mp member
    refine ⟨⟨frame, rfl⟩, fun before after pair => ?_⟩
    have spelled : closeRecord 0x0D 0x0A frame = before ++ 0x0D :: 0x0A :: after := by
      rw [pair, List.append_assoc]
      rfl
    exact (cut.recordsFree frame among).pair_last spelled
  · subst split
    exact ⟨fun former latter => segments_append ends held,
      processDatagram_append ends held⟩

/-- Garbage with a stray carriage return, closed by a terminator, leaves the next
message alone. -/
theorem framing_partitions_garbage :
    let garbage : List UInt8 := [0x41, 0x0D, 0x0D, 0x0A]
    let rest : List UInt8 := [0x1B, 0x0A, 0x0D, 0x0A, 0x42]
    let data := Memory.ofBytes (garbage ++ rest)
    segments data (garbage ++ rest).length =
      segments (Memory.ofBytes garbage) garbage.length ++
        (segments (Memory.ofBytes rest) rest.length).map
          (Segment.shift garbage.length) := by
  intro garbage rest data
  exact ((framing_partitions data (garbage ++ rest) (Memory.holds_ofBytes _)).2.2 garbage
    rest rfl ⟨[0x41, 0x0D], rfl⟩).1 _ _ (Memory.holds_ofBytes _) (Memory.holds_ofBytes _)

end TaifexParser
end TaifexResolver
